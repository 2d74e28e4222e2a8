import Coppice.Ingest.Staging

/-!
# Exploding archives

A delivery in the drop folder is extracted into a scratch folder, its publications are admitted one
by one, and the archive is removed. Any step of an admission may fail.
-/

namespace Coppice.Ingest

open Coppice.Std List

section Model

structure IngestConfig where
  stagingDir : Path
  dropDir : Path
deriving DecidableEq, Repr

/-- The disk and the rows of `ingest_drop_items`. -/
structure Store where
  disk : Disk
  items : List DropItem := []
deriving DecidableEq, Repr

/-- A regular file under a library's drop folder. -/
structure DropFile where
  path : Path
  relativePath : Path
  filename : String
  byteSize : Nat
deriving DecidableEq, Repr

def parentOf (relativePath : Path) : Option String :=
  if relativePath.dropLast.isEmpty then none else some (pathText relativePath.dropLast)

def joinRelative : Option String → Option String → Option String
  | some container, some inside => some (container ++ "/" ++ inside)
  | some only, none | none, some only => some only
  | none, none => none

def findIdentity (items : List DropItem) (libraryId sourceSha256 filename : String) :
    Option DropItem :=
  items.find? fun row =>
    row.libraryId = libraryId ∧ row.sourceSha256 = sourceSha256 ∧ row.sourceFilename = filename

/-- The primary key, the identity and the idempotency key are unique. -/
def conflicts (new row : DropItem) : Prop :=
  row.id = new.id ∨ row.libraryId = new.libraryId ∧
    (row.sourceSha256 = new.sourceSha256 ∧ row.sourceFilename = new.sourceFilename ∨
      new.idempotencyKey.isSome ∧ row.idempotencyKey = new.idempotencyKey)

instance (new row : DropItem) : Decidable (conflicts new row) :=
  inferInstanceAs (Decidable (_ ∨ _ ∧ _))

def insertItem (items : List DropItem) (new : DropItem) : Option (List DropItem) :=
  if items.any fun row => conflicts new row then none else some (items ++ [new])

/-- One publication found inside an exploded container. -/
structure ExplodedItem where
  path : Path
  filename : String
  relativePath : Option String := none
  sidecars : List Path := []
deriving DecidableEq, Repr

/-- The paths a publication is moved from. -/
def sourcesOf (item : ExplodedItem) : List Path := item.path :: item.sidecars

/-- The step of an admission that fails; of the sidecars, some are moved before. -/
inductive AdmitFault where
  | hashing | identity | staging | sidecar (moved : Nat) | insert
deriving DecidableEq, Repr

/-- What meets one publication: the ids drawn for its row, and what fails. -/
structure Visit where
  itemId : String
  failedId : String
  fault : Option AdmitFault := none
  reason : String := ""
  unrecorded : Bool := false
deriving DecidableEq, Repr

variable [Digest] (config : IngestConfig) (libraryId : String)

def audioExtensions : List String := ["m4b", "m4a", "mp3", "opus", "ogg", "flac"]

/-- The text after the last dot of a name that does not begin with it. -/
def extensionOf (name : String) : Option String :=
  let after := name.toList.reverse.takeWhile (· ≠ '.')
  if after.length + 1 < name.toList.length then some (String.ofList after.reverse) else none

def isAudioName (relative : Path) : Bool :=
  (((fileName relative).bind extensionOf).map fun extension =>
    audioExtensions.contains (String.ofList (extension.toList.map Char.toLower))).getD false

/-- The files of a staged folder that are no audio. -/
def sidecarsIn (disk : Disk) (root : Path) : List Path :=
  ((collectFiles (disk.tree root)).filterMap fun entry =>
    if isAudioName entry.1 then none else some (root ++ entry.1)).mergeSort
      fun left right => pathText left ≤ pathText right

/-- The sidecars moved beside the staged file, up to the first that fails. -/
def stageSidecars (sha256 : String) : Option Nat → Disk → List Path → Disk × Option (List Path)
  | _, disk, [] => (disk, some [])
  | limit, disk, sidecar :: rest =>
    match fileName sidecar with
    | none => stageSidecars sha256 limit disk rest
    | some name =>
      match (stagingPath config.stagingDir libraryId sha256 name).filter
          fun _ => limit ≠ some 0 with
      | none => (disk, none)
      | some target =>
        match moveIntoStaging disk sidecar target with
        | none => (disk, none)
        | some moved =>
          let staged := stageSidecars sha256 (limit.map (· - 1)) moved rest
          (staged.1, staged.2.map (target :: ·))

/-- The number of sidecars after which moving them fails. -/
def AdmitFault.sidecarLimit : Option AdmitFault → Option Nat
  | some (.sidecar moved) => some moved
  | _ => none

/-- The file or folder of a publication moved into staging. -/
def stagePublication (disk : Disk) (source target : Path) : Option Disk :=
  if (disk.tree source).isDir then moveDirIntoStaging disk source target
  else moveIntoStaging disk source target

/-- The sidecars of a publication that was staged. -/
def stageBeside (sha256 : String) (item : ExplodedItem) (isFolder : Bool) (target : Path)
    (fault : Option AdmitFault) (disk : Disk) : Disk × Option (List Path) :=
  if isFolder then (disk, some (sidecarsIn disk target))
  else
    let staged := stageSidecars config libraryId sha256 (AdmitFault.sidecarLimit fault) disk
      item.sidecars
    (staged.1, staged.2.map fun paths =>
      paths.mergeSort fun left right => pathText left ≤ pathText right)

/-- Stage one exploded publication and insert its row; the disk keeps what was done before a
failure. -/
def admitExploded (dropGroupId : String) (containerDirectory : Option String) (visit : Visit)
    (store : Store) (item : ExplodedItem) : Store × Option DropItem :=
  match (hashTree (store.disk.tree item.path)).filter fun _ => visit.fault ≠ some .hashing with
  | none => (store, none)
  | some (sourceSha256, byteSize) =>
    if visit.fault = some .identity then (store, none)
    else match findIdentity store.items libraryId sourceSha256 item.filename with
    | some existing => (store, some existing)
    | none =>
      match (stagingPath config.stagingDir libraryId sourceSha256 item.filename).filter
          fun _ => visit.fault ≠ some .staging with
      | none => (store, none)
      | some target =>
        match stagePublication store.disk item.path target with
        | none => (store, none)
        | some staged =>
          let beside := stageBeside config libraryId sourceSha256 item
            (store.disk.tree item.path).isDir target visit.fault staged
          match beside.2 with
          | none => ({ store with disk := beside.1 }, none)
          | some sidecars =>
            let row : DropItem :=
              { id := visit.itemId
                libraryId := libraryId
                sourceFilename := item.filename
                relativePath := joinRelative containerDirectory item.relativePath
                byteSize := byteSize
                sourceSha256 := sourceSha256
                stagingPath := target
                dropGroupId := some dropGroupId
                sidecarPaths := sidecars }
            match (insertItem store.items row).filter
                fun _ => visit.fault ≠ some .insert with
            | none => ({ store with disk := beside.1 }, none)
            | some items => (⟨beside.1, items⟩, some row)

/-- The row of a drop that failed: a new one, or the one an earlier scan left. -/
def failDrop (file : DropFile) (reason : String) (visit : Visit) (store : Store) :
    Option (Store × DropItem) :=
  if visit.unrecorded then none
  else match store.items.find? fun row =>
      row.libraryId = libraryId ∧ row.sourceFilename = file.filename ∧ row.status = .failed with
  | some existing =>
    let failed := { existing with
      error := some reason, revision := nextRevision existing.revision }
    some ({ store with items := updateAt DropItem.id existing.id (fun _ => failed) store.items },
      failed)
  | none =>
    let row : DropItem :=
      { id := visit.failedId
        libraryId := libraryId
        sourceFilename := file.filename
        relativePath := parentOf file.relativePath
        byteSize := file.byteSize
        sourceSha256 := ""
        stagingPath := file.path
        status := .failed
        error := some reason }
    (insertItem store.items row).map fun items => ({ store with items := items }, row)

/-- What became of one publication. -/
inductive Admission where
  | admitted (row : DropItem)
  | refused (row : DropItem)
deriving DecidableEq, Repr

/-- The publications one after the other; nothing further happens once a failure could not be
recorded. -/
def admitAll (dropGroupId : String) (file : DropFile) :
    Store → List (ExplodedItem × Visit) → Store × Option (List Admission)
  | store, [] => (store, some [])
  | store, (item, visit) :: rest =>
    let tried := admitExploded config libraryId dropGroupId (parentOf file.relativePath) visit store
      item
    match tried.2 with
    | some row =>
      let later := admitAll dropGroupId file tried.1 rest
      (later.1, later.2.map (.admitted row :: ·))
    | none =>
      match failDrop libraryId file visit.reason visit tried.1 with
      | none => (tried.1, none)
      | some (recorded, row) =>
        let later := admitAll dropGroupId file recorded rest
        (later.1, later.2.map (.refused row :: ·))

/-- A successful extraction: the files by their paths in the scratch folder, and the publications
found there. -/
structure Explosion where
  scratchName : String
  dropGroupId : String
  extracted : Disk
  items : List (ExplodedItem × Visit)
  notes : List String := []
  emptyVisit : Visit
  archiveStuck : Bool := false
deriving DecidableEq, Repr

def scratchPath (explosion : Explosion) : Path :=
  config.stagingDir ++ [libraryId, explosion.scratchName]

/-- The disk once the members are extracted. -/
def extractedStore (explosion : Explosion) (store : Store) : Store :=
  { store with disk :=
      store.disk.plant (scratchPath config libraryId explosion) explosion.extracted }

/-- The disk and the rows when the call returns; no result means an error. -/
def explodeArchive (file : DropFile) (explosion : Explosion) (store : Store) :
    Store × Option (List Admission) :=
  let scratch := scratchPath config libraryId explosion
  let extracted := extractedStore config libraryId explosion store
  if explosion.items.isEmpty then
    let cleared := { extracted with disk := extracted.disk.remove scratch }
    let reason := file.filename ++ " held no publications" ++
      if explosion.notes.isEmpty then "" else ": " ++ "; ".intercalate explosion.notes
    match failDrop libraryId file reason explosion.emptyVisit cleared with
    | none => (cleared, none)
    | some (recorded, row) => (recorded, some [.refused row])
  else
    let loop := admitAll config libraryId explosion.dropGroupId file extracted explosion.items
    match loop.2 with
    | none => (loop.1, none)
    | some admissions =>
      let cleared := { loop.1 with disk := loop.1.disk.remove scratch }
      match (removeIfExists cleared.disk file.path).filter fun _ => !explosion.archiveStuck with
      | none => (cleared, none)
      | some disk => ({ cleared with disk := disk }, some admissions)

end Model

section Statement

variable [Digest] (config : IngestConfig) (libraryId : String) (file : DropFile)
  (explosion : Explosion) (store : Store)

/-- The loop over the publications, before the cleanup. -/
abbrev Explosion.loop : Store × Option (List Admission) :=
  admitAll config libraryId explosion.dropGroupId file
    (extractedStore config libraryId explosion store) explosion.items

/-- No file is at or above the library's staging folder. -/
def StagingOpen (disk : Disk) : Prop :=
  ∀ entry ∈ disk, ¬ entry.1 <+: config.stagingDir ++ [libraryId]

end Statement

section Names

variable {config : IngestConfig} {libraryId filename sha256 rest : String} {root target : Path}

theorem stagingPath_eq
    (named : stagingPath root libraryId sha256 filename = some target) :
    ∃ name, target = root ++ [libraryId, sha256 ++ "-" ++ name] ∧ sha256 ≠ "" ∧
      sha256.toList.all isHexDigit = true := by
  unfold stagingPath at named
  split at named
  · cases named
  rename_i valid
  obtain ⟨name, -, rfl⟩ := Option.map_eq_some_iff.1 named
  simp only [Bool.or_eq_true, not_or, Bool.not_eq_true', Bool.not_eq_false] at valid
  exact ⟨name, rfl, by simpa using valid.1.2, by simpa using valid.2⟩

/-- No name that begins with a digest is that of a scratch folder. -/
theorem hexName_ne_scratch {name : String} (filled : sha256 ≠ "")
    (digits : sha256.toList.all isHexDigit = true) :
    sha256 ++ "-" ++ name ≠ ".explode-" ++ rest := by
  intro same
  have chars := congrArg String.toList same
  simp only [String.toList_append] at chars
  cases letters : sha256.toList with
  | nil => exact filled (String.toList_eq_nil_iff.1 letters)
  | cons first others =>
    rw [letters] at chars digits
    have head : first = '.' := (List.cons.inj chars).1
    rw [head] at digits
    cases digits

/-- The scratch folder of a delivery. -/
abbrev scratchAt (config : IngestConfig) (libraryId rest : String) : Path :=
  config.stagingDir ++ [libraryId, ".explode-" ++ rest]

/-- What is staged stands in the library's folder, beside the scratch folder. -/
theorem stagingPath_beside
    (named : stagingPath config.stagingDir libraryId sha256 filename = some target) :
    target.dropLast = config.stagingDir ++ [libraryId] ∧
      Apart (scratchAt config libraryId rest) target := by
  obtain ⟨name, rfl, filled, digits⟩ := stagingPath_eq named
  refine ⟨by simp, apart_of_length_eq (by simp) fun same => ?_⟩
  exact hexName_ne_scratch filled digits (by simpa using same.symm)

end Names

section Effects

open Files (Confined)

variable {config : IngestConfig} {libraryId sha256 rest : String} {file : DropFile}
  {source target : Path} {row : DropItem} {item : ExplodedItem} {visit : Visit}
  {disk next : Disk} {store : Store}

section Reach

/-- What an admission reaches: its sources, and whatever is staged for the library. -/
def Reach (config : IngestConfig) (libraryId : String) (sources : List Path) : Set Path :=
  {root | root ∈ sources ∨ ∃ sha256 filename,
    stagingPath config.stagingDir libraryId sha256 filename = some root}

variable {sources : List Path}
  (inside : ∀ source ∈ sources, scratchAt config libraryId rest <+: source)
include inside

/-- An admission from a scratch folder reaches below the library's staging folder. -/
theorem reach_deep {root : Path} (reached : root ∈ Reach config libraryId sources) :
    config.stagingDir ++ [libraryId] <+: root ∧ ¬ root <+: config.stagingDir ++ [libraryId] := by
  obtain ⟨base, tail, rfl⟩ : ∃ base tail, root =
      config.stagingDir ++ [libraryId] ++ base :: tail := by
    rcases reached with listed | ⟨sha256, filename, named⟩
    · obtain ⟨tail, rfl⟩ := inside root listed
      exact ⟨".explode-" ++ rest, tail, by simp⟩
    · obtain ⟨name, rfl, -⟩ := stagingPath_eq named
      exact ⟨sha256 ++ "-" ++ name, [], by simp⟩
  refine ⟨prefix_append _ _, fun above => ?_⟩
  have shorter := above.length_le
  simp only [length_append, length_cons] at shorter
  omega

theorem StagingOpen.confined (opened : StagingOpen config libraryId disk)
    (confined : Confined (Reach config libraryId sources) disk next) :
    StagingOpen config libraryId next :=
  fun entry listed above => opened entry
    (confined.mem_of_above (fun _ reached => (reach_deep inside reached).2) listed above) above

end Reach

theorem StagingOpen.unblocked {filename : String} (opened : StagingOpen config libraryId disk)
    (named : stagingPath config.stagingDir libraryId sha256 filename = some target) :
    disk.Unblocked target := by
  intro entry listed above
  obtain ⟨name, rfl, -⟩ := stagingPath_eq named
  have split : config.stagingDir ++ [libraryId, sha256 ++ "-" ++ name] =
      config.stagingDir ++ [libraryId] ++ [sha256 ++ "-" ++ name] := by simp
  rw [split] at above ⊢
  exact (prefix_concat_iff.1 above).resolve_right (opened entry listed)

section Confinement

variable {roots : Set Path}

theorem confined_stagePublication (here : Within roots source) (there : Within roots target)
    (staged : stagePublication disk source target = some next) : Confined roots disk next := by
  unfold stagePublication at staged
  split at staged
  · exact confined_moveDirIntoStaging here there staged
  · exact confined_moveIntoStaging here there staged

theorem confined_stageSidecars {sidecars : List Path}
    (here : ∀ sidecar ∈ sidecars, Within roots sidecar)
    (there : ∀ sidecar ∈ sidecars, ∀ name target, fileName sidecar = some name →
      stagingPath config.stagingDir libraryId sha256 name = some target → Within roots target)
    (limit : Option Nat) :
    Confined roots disk (stageSidecars config libraryId sha256 limit disk sidecars).1 := by
  induction sidecars generalizing limit disk with
  | nil => exact .refl disk
  | cons sidecar rest ih =>
    have later {disk : Disk} :=
      @ih disk (forall_mem_cons.1 here).2 (forall_mem_cons.1 there).2
    unfold stageSidecars
    split
    · exact later limit
    rename_i name called
    split
    · exact .refl disk
    rename_i target named
    split
    · exact .refl disk
    rename_i moved performed
    exact (confined_moveIntoStaging (here sidecar mem_cons_self)
      (there sidecar mem_cons_self name target called (Option.filter_eq_some_iff.1 named).1)
      performed).trans (later _)

end Confinement

theorem insertItem_eq_some_iff {items added : List DropItem} {new : DropItem} :
    insertItem items new = some added ↔
      (∀ row ∈ items, ¬ conflicts new row) ∧ added = items ++ [new] := by
  unfold insertItem
  split
  · rename_i taken
    obtain ⟨row, listed, clash⟩ := any_eq_true.1 taken
    exact ⟨nofun, fun free => absurd (of_decide_eq_true clash) (free.1 row listed)⟩
  · rename_i free
    refine ⟨fun same => ⟨fun row listed clash => free ?_, (Option.some.inj same).symm⟩,
      fun same => congrArg some same.2.symm⟩
    exact any_eq_true.2 ⟨row, listed, decide_eq_true clash⟩

variable [Digest] {dropGroupId : String}

/-- An admission that staged a publication for a new row. -/
structure NewAdmission (config : IngestConfig) (libraryId : String) (store : Store)
    (item : ExplodedItem) (visit : Visit) (disk : Disk) (row : DropItem) : Prop where
  id : row.id = visit.itemId
  library : row.libraryId = libraryId
  live : row.status = .staged
  filename : row.sourceFilename = item.filename
  hashed : hashTree (store.disk.tree item.path) = some (row.sourceSha256, row.byteSize)
  absent : findIdentity store.items libraryId row.sourceSha256 item.filename = none
  named : stagingPath config.stagingDir libraryId row.sourceSha256 item.filename =
    some row.stagingPath
  staged : ∃ middle, stagePublication store.disk item.path row.stagingPath = some middle ∧
    stageBeside config libraryId row.sourceSha256 item (store.disk.tree item.path).isDir
      row.stagingPath visit.fault middle = (disk, some row.sidecarPaths)
  inserted : insertItem store.items row = some (store.items ++ [row])

/-- What an admission does: it finds an item, stages the publication for a new row, or fails. -/
inductive AdmitEffect (config : IngestConfig) (libraryId : String) (store : Store)
    (item : ExplodedItem) (visit : Visit) : Store × Option DropItem → Prop where
  | found {sha256 : String} {byteSize : Nat} (row : DropItem)
      (hashed : hashTree (store.disk.tree item.path) = some (sha256, byteSize))
      (known : findIdentity store.items libraryId sha256 item.filename = some row) :
      AdmitEffect config libraryId store item visit (store, some row)
  | staged (disk : Disk) (row : DropItem)
      (new : NewAdmission config libraryId store item visit disk row) :
      AdmitEffect config libraryId store item visit (⟨disk, store.items ++ [row]⟩, some row)
  | failed (disk : Disk) :
      AdmitEffect config libraryId store item visit (⟨disk, store.items⟩, none)

/-- One admission, by what it does and by what it reaches. -/
theorem admitExploded_effect (dropGroupId : String) (containerDirectory : Option String)
    (visit : Visit) (store : Store) (item : ExplodedItem) :
    let outcome := admitExploded config libraryId dropGroupId containerDirectory visit store item
    AdmitEffect config libraryId store item visit outcome ∧
      Confined (Reach config libraryId (sourcesOf item)) store.disk outcome.1.disk := by
  unfold admitExploded
  split
  · exact ⟨.failed store.disk, .refl _⟩
  rename_i sourceSha256 byteSize hashed
  have hashed := (Option.filter_eq_some_iff.1 hashed).1
  split
  · exact ⟨.failed store.disk, .refl _⟩
  split
  · rename_i existing found
    exact ⟨.found existing hashed found, .refl _⟩
  rename_i absent
  split
  · exact ⟨.failed store.disk, .refl _⟩
  rename_i target named
  have named := (Option.filter_eq_some_iff.1 named).1
  split
  · exact ⟨.failed store.disk, .refl _⟩
  rename_i staged performed
  have reached : ∀ source ∈ sourcesOf item,
      Within (Reach config libraryId (sourcesOf item)) source :=
    fun source listed => .self (.inl listed)
  have confined : Confined (Reach config libraryId (sourcesOf item)) store.disk
      (stageBeside config libraryId sourceSha256 item
        (store.disk.tree item.path).isDir target visit.fault staged).1 := by
    refine (confined_stagePublication (reached _ mem_cons_self) (.self (.inr ⟨_, _, named⟩))
      performed).trans ?_
    unfold stageBeside
    split
    · exact .refl staged
    · exact confined_stageSidecars (forall_mem_cons.1 reached).2
        (fun _ _ _ _ _ named => .self (.inr ⟨_, _, named⟩)) _
  dsimp only
  split
  · exact ⟨.failed _, confined⟩
  rename_i sidecars beside
  split
  · exact ⟨.failed _, confined⟩
  rename_i items inserted
  have inserted := (Option.filter_eq_some_iff.1 inserted).1
  obtain ⟨-, rfl⟩ := insertItem_eq_some_iff.1 inserted
  exact ⟨.staged _ _ ⟨rfl, rfl, rfl, rfl, hashed, absent, named,
    ⟨staged, performed, Prod.ext rfl beside⟩, inserted⟩, confined⟩

end Effects

section Samples

def hexDigit (value : Nat) : Char := "0123456789abcdef".toList.getD value '0'

theorem isHexDigit_hexDigit (value : Nat) : isHexDigit (hexDigit value) = true := by
  have every : ∀ c ∈ "0123456789abcdef".toList, isHexDigit c = true :=
    all_eq_true.mp (by decide)
  rw [hexDigit, getD_eq_getElem?_getD]
  cases found : "0123456789abcdef".toList[value]? with
  | none => rfl
  | some c => exact every c (mem_of_getElem? found)

/-- The bytes themselves, in hexadecimal digits. -/
def plainDigest (bytes : List UInt8) : String :=
  String.ofList
    ('d' :: bytes.flatMap fun byte => [hexDigit (byte.toNat / 16), hexDigit (byte.toNat % 16)])

theorem plainDigest_digits (bytes : List UInt8) :
    (plainDigest bytes).toList.all isHexDigit = true := by
  rw [plainDigest, String.toList_ofList, all_cons, all_flatMap]
  refine Bool.and_eq_true_iff.2 ⟨rfl, all_eq_true.2 fun byte _ => ?_⟩
  simp [isHexDigit_hexDigit]

theorem plainDigest_filled (bytes : List UInt8) : plainDigest bytes ≠ "" := by
  intro empty
  have chars := congrArg String.toList empty
  rw [plainDigest, String.toList_ofList] at chars
  cases chars

end Samples

end Coppice.Ingest
