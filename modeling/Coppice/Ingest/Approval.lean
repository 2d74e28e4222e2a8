import Coppice.Ingest.Archive

/-!
# Approving a staged item

The destination of an item in its library, the moves of its file and sidecars there, and the moves
back when the commit fails.
-/

namespace Coppice.Ingest

open Coppice.Std

section Destination

/-- The components between slashes. -/
def splitSlashes : List Char → List (List Char)
  | [] => [[]]
  | c :: rest =>
    match splitSlashes rest with
    | [] => [[c]]
    | first :: others => if c = '/' then [] :: first :: others else (c :: first) :: others

/-- The components of a relative path; none for an absolute one or one that climbs. -/
def normalizeRelativePath (value : Option String) : Option (List String) :=
  let chars := (value.getD "").toList
  let slashed := chars.map fun c => if c = '\\' then '/' else c
  if chars.contains '\x00' || slashed.head? = some '/' || hasWindowsDrivePrefix slashed then none
  else
    let components := (splitSlashes slashed).map String.ofList
    if components.contains ".." then none
    else some (components.filter fun component => component ≠ "" && component ≠ ".")

/-- Where an approved item goes in its library. -/
def destinationOf (libraryRoot : Path) (item : DropItem) : Option Path :=
  (normalizeRelativePath item.relativePath).bind fun folder =>
    (sanitizeFilename item.sourceFilename).map fun name => libraryRoot ++ folder ++ [name]

theorem destinationOf_eq {libraryRoot destination : Path} {item : DropItem}
    (found : destinationOf libraryRoot item = some destination) :
    ∃ folder name, destination = libraryRoot ++ folder ++ [name] := by
  obtain ⟨folder, -, named⟩ := Option.bind_eq_some_iff.1 found
  obtain ⟨name, -, rfl⟩ := Option.map_eq_some_iff.1 named
  exact ⟨folder, name, rfl⟩

end Destination

section Sidecars

/-- One sidecar moved beside its publication, unless its name is taken there or it cannot be
moved. -/
def moveSidecar (disk : Disk) (folder source : Path) : Option (Disk × Path) :=
  (fileName source).bind fun name =>
    if !(disk.tree (folder ++ [name])).isEmpty then none
    else (moveFile disk source (folder ++ [name])).map fun moved => (moved, folder ++ [name])

/-- The sidecars of a file moved beside it, with those that were. -/
def moveSidecarsInto (folder : Path) : Disk → List Path → Disk × List Path
  | disk, [] => (disk, [])
  | disk, source :: rest =>
    match moveSidecar disk folder source with
    | none => moveSidecarsInto folder disk rest
    | some (moved, target) =>
      let later := moveSidecarsInto folder moved rest
      (later.1, target :: later.2)

/-- A folder's sidecars travelled inside it. -/
def moveSidecarsBeside (disk : Disk) (sidecars : List Path) (destination : Path)
    (stagedIsDir : Bool) : Disk × List Path :=
  if stagedIsDir then (disk, [])
  else
    let moved := moveSidecarsInto destination.dropLast disk sidecars
    (moved.1, moved.2.mergeSort fun left right => pathText left ≤ pathText right)

/-- One sidecar moved back to the first original of its name. -/
def restoreSidecar (originals : List Path) (disk : Disk) (target : Path) : Disk :=
  match originals.find? fun original => fileName original = fileName target with
  | none => disk
  | some original => (moveFile disk target original).getD disk

def restoreMovedSidecars (disk : Disk) (moved originals : List Path) : Disk :=
  moved.foldl (restoreSidecar originals) disk

/-- The move of a staged file or folder. -/
def moveTarget (stagedIsDir : Bool) (disk : Disk) (source target : Path) : Disk × Bool :=
  if stagedIsDir then moveDir disk source target
  else
    match moveFile disk source target with
    | none => (disk, false)
    | some moved => (moved, true)

end Sidecars

section Approve

/-- The columns a commit writes, from the item as it was loaded. -/
def commitColumns (item : DropItem) (mediaId : String) (sidecars : List Path) (row : DropItem) :
    DropItem :=
  { row with
    status := .committed
    mediaId := some mediaId
    sidecarPaths := sidecars
    error := none
    revision := nextRevision item.revision }

/-- Whether the row may be approved at the revision. -/
def approvable (item : DropItem) (expectedRevision : Nat) : Bool :=
  item.revision = expectedRevision && item.status ≠ .committed && item.status ≠ .rejected &&
    item.status ≠ .failed

/-- An approval with nothing beside it: the moves, then the commit with a media id, or everything
moved back. -/
def approve (libraryRoot : Path) (commits : Option String) (store : Store) (itemId : String)
    (expectedRevision : Nat) : Store :=
  match (lookup DropItem.id store.items itemId).filter (approvable · expectedRevision) with
  | none => store
  | some item =>
    match destinationOf libraryRoot item with
    | none => store
    | some destination =>
      let staged := store.disk.tree item.stagingPath
      if staged.isEmpty || !(store.disk.tree destination).isEmpty ||
          isBlocked store.disk destination then store
      else
        let moved := moveTarget staged.isDir store.disk item.stagingPath destination
        if !moved.2 then { store with disk := moved.1 }
        else
          let beside := moveSidecarsBeside moved.1 item.sidecarPaths destination staged.isDir
          match commits with
          | some mediaId =>
            ⟨beside.1, updateAt DropItem.id itemId
              (commitColumns item mediaId beside.2) store.items⟩
          | none =>
            let back := moveTarget staged.isDir beside.1 destination item.stagingPath
            { store with disk := restoreMovedSidecars back.1 beside.2 item.sidecarPaths }

end Approve

variable {disk : Disk} {path : Path}

section Moves

variable {source target : Path} {stagedIsDir : Bool}

theorem confined_moveTarget {roots : Set Path} (here : Within roots source)
    (there : Within roots target) :
    Files.Confined roots disk (moveTarget stagedIsDir disk source target).1 := by
  unfold moveTarget
  split
  · exact confined_moveDir here there
  split
  · exact .refl disk
  · rename_i moved
    exact confined_rename here there moved

/-- A move that failed left its source. -/
theorem tree_moveTarget_failed (failed : (moveTarget stagedIsDir disk source target).2 = false)
    (fromTarget : Apart target path) :
    (moveTarget stagedIsDir disk source target).1.tree path = disk.tree path := by
  revert failed
  unfold moveTarget moveDir
  split
  · split
    · intro failed
      cases failed
    split
    · exact fun _ => rfl
    dsimp only
    split
    · intro failed
      cases failed
    · exact fun _ => (confined_copyFiles (Within.self (Set.mem_singleton _)) _).tree path
        (by simpa using fromTarget)
  · split
    · exact fun _ => rfl
    · intro failed
      cases failed

/-- A staged file or folder moves to a free path that nothing blocks. -/
theorem moveTarget_of_free (occupied : disk.tree source ≠ []) (free : disk.tree target = [])
    (unblocked : disk.Unblocked target) (apart : Apart source target) :
    moveTarget stagedIsDir disk source target = (disk.move source target, true) := by
  have renamed := rename_of_free occupied free unblocked apart
  unfold moveTarget moveDir moveFile
  rw [renamed]
  split <;> rfl

end Moves

section Beside

variable {folder target : Path} {sidecars : List Path}

/-- A sidecar goes to a free name in the folder. -/
theorem moveSidecar_eq {source : Path} {moved : Disk}
    (performed : moveSidecar disk folder source = some (moved, target)) :
    ∃ name, target = folder ++ [name] ∧ disk.tree target = [] ∧
      rename disk source target = some moved := by
  obtain ⟨name, -, found⟩ := Option.bind_eq_some_iff.1 performed
  split at found
  · cases found
  rename_i free
  obtain ⟨disk', renamed, same⟩ := Option.map_eq_some_iff.1 found
  cases same
  exact ⟨name, rfl, by simpa using free, renamed⟩

/-- What moving sidecars beside a publication reaches: not the name of the publication. -/
def BesideReach (sidecars : List Path) (folder : Path) (name : String) : Set Path :=
  {root | root ∈ sidecars ∨ ∃ other ≠ name, root = folder ++ [other]}

/-- Sidecars go to other names than that of the publication, which is taken. -/
theorem confined_moveSidecarsInto {name : String} {moved : List Path}
    (sub : ∀ sidecar ∈ moved, sidecar ∈ sidecars)
    (publication : ∀ sidecar ∈ sidecars, Apart sidecar (folder ++ [name]))
    (occupied : disk.tree (folder ++ [name]) ≠ []) :
    Files.Confined (BesideReach sidecars folder name) disk
      (moveSidecarsInto folder disk moved).1 := by
  induction moved generalizing disk with
  | nil => exact .refl disk
  | cons source rest ih =>
    obtain ⟨here, later⟩ := List.forall_mem_cons.1 sub
    unfold moveSidecarsInto
    split
    · exact ih later occupied
    rename_i moved target performed
    obtain ⟨other, rfl, free, renamed⟩ := moveSidecar_eq performed
    have differ : other ≠ name := fun same => occupied (same ▸ free)
    have step : Files.Confined (BesideReach sidecars folder name) disk moved :=
      confined_rename (.self (.inl here)) (.self (.inr ⟨other, differ, rfl⟩)) renamed
    refine step.trans (ih later ?_)
    rw [step.tree]
    · exact occupied
    · rintro root (sidecar | ⟨other, differ, rfl⟩)
      · exact publication root sidecar
      · exact apart_concat differ

theorem moveSidecarsInto_targets
    (listed : target ∈ (moveSidecarsInto folder disk sidecars).2) :
    ∃ name, target = folder ++ [name] := by
  induction sidecars generalizing disk with
  | nil => cases listed
  | cons source rest ih =>
    unfold moveSidecarsInto at listed
    split at listed
    · exact ih listed
    rename_i moved first performed
    rcases List.mem_cons.1 listed with rfl | later
    · obtain ⟨name, place, -⟩ := moveSidecar_eq performed
      exact ⟨name, place⟩
    · exact ih later

/-- Sidecars inside what has been moved away are not found. -/
theorem moveSidecarsInto_inside {root : Path} (gone : disk.tree root = [])
    (inside : ∀ sidecar ∈ sidecars, root <+: sidecar) :
    moveSidecarsInto folder disk sidecars = (disk, []) := by
  induction sidecars with
  | nil => rfl
  | cons source rest ih =>
    have missing : disk.tree source = [] := by
      refine Files.tree_eq_nil_iff.2 fun entry listed below => ?_
      exact Files.tree_eq_nil_iff.1 gone entry listed
        ((inside source List.mem_cons_self).trans below)
    have refused : moveSidecar disk folder source = none := by
      by_contra performed
      obtain ⟨⟨moved, target⟩, performed⟩ := Option.ne_none_iff_exists'.1 performed
      obtain ⟨name, -, -, renamed⟩ := moveSidecar_eq performed
      simp [rename, missing] at renamed
    unfold moveSidecarsInto
    rw [refused]
    exact ih (List.forall_mem_cons.1 inside).2

theorem confined_restoreMovedSidecars (disk : Disk) (moved originals : List Path) :
    Files.Confined {root | root ∈ moved ∨ root ∈ originals} disk
      (restoreMovedSidecars disk moved originals) := by
  refine Files.Confined.foldl (fun target listed before => ?_) disk
  unfold restoreSidecar
  split
  · exact .refl before
  rename_i original found
  cases renamed : moveFile before target original with
  | none => exact .refl before
  | some after =>
    exact confined_rename (.self (.inl listed))
      (.self (.inr (List.mem_of_find?_eq_some found))) renamed

end Beside

end Coppice.Ingest
