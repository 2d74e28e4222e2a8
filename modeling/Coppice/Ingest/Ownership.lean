import Coppice.Ingest.Delivery
import Coppice.Ingest.Intake

/-!
# Staged files have one owner

Every item that is neither committed nor rejected has a staged file of its own with the digest of
its row, as long as no call stages over a path that another item still names.
-/

namespace Coppice.Ingest

open Coppice.Std List

section Statement

/-- Neither committed nor rejected. -/
def DropItem.isLive (row : DropItem) : Bool := !row.status.isResolved

variable [Digest]

def recordedDigest (disk : Disk) (path : Path) : Option String :=
  (hashTree (disk.tree path)).map (·.1)

/-- The hook runs for a live item; when it fails, or leaves no file, the staged bytes are as they
were; and the file it leaves has no identity of another item. -/
structure HookTidy (store : Store) (item : DropItem) (run : HookRun) : Prop where
  formed : run.left.WellFormed
  live : item.isLive = true
  failed : (hashFile run.left).filter (fun _ => run.succeeded) = none →
    run.left = store.disk.tree item.stagingPath
  identity : ∀ hashed, hashFile run.left = some hashed →
    identityTaken store.items item hashed.1 = false

/-- A path that may be staged under an identity: a library of its own name, no folder in the way, no
item of another identity at it, and nobody's sidecar there. -/
structure TargetTidy (store : Store) (libraryId sha256 filename : String)
    (target : Path) : Prop where
  library : libraryId ≠ "rejected"
  room : (store.disk.tree target).isDir = false
  items : ∀ row ∈ store.items, row.stagingPath = target →
    row.sourceSha256 = sha256 ∧ row.sourceFilename = filename
  sidecars : ∀ row ∈ store.items, ∀ sidecar ∈ row.sidecarPaths, Apart sidecar target

def UploadTidy (config : IngestConfig) (store : Store) (upload : Upload) : Prop :=
  ∀ filename target, sanitizeFilename upload.filename = some filename →
    uploadPath config upload.libraryId (Digest.sha256 upload.bytes) filename = some target →
      TargetTidy store upload.libraryId (Digest.sha256 upload.bytes) filename target

def FileTidy (config : IngestConfig) (libraryId : String) (store : Store)
    (file : DropFile) : Prop :=
  ∀ hashed target, hashFile (store.disk.tree file.path) = some hashed →
    findIdentity store.items libraryId hashed.1 file.filename = none →
      stagingPath config.stagingDir libraryId hashed.1 file.filename = some target →
        TargetTidy store libraryId hashed.1 file.filename target

/-- The same for a publication and the sidecars staged beside it. -/
def AdmitTidy (config : IngestConfig) (libraryId : String) (store : Store) (item : ExplodedItem) :
    Prop :=
  ∀ hashed target, hashTree (store.disk.tree item.path) = some hashed →
    findIdentity store.items libraryId hashed.1 item.filename = none →
      stagingPath config.stagingDir libraryId hashed.1 item.filename = some target →
        TargetTidy store libraryId hashed.1 item.filename target ∧
          if (store.disk.tree item.path).isDir then store.disk.tree target = []
          else ∀ sidecar ∈ item.sidecars, ∀ name beside, fileName sidecar = some name →
            stagingPath config.stagingDir libraryId hashed.1 name = some beside →
              beside ≠ target ∧ ∀ row ∈ store.items, row.stagingPath ≠ beside

/-- Every publication of a delivery is staged tidily, and no fault meets it. The sidecars of a file
are files, and new rows get ids of their own. -/
def AdmitAllTidy (config : IngestConfig) (libraryId dropGroupId : String) (file : DropFile) :
    Store → List (ExplodedItem × Visit) → Prop
  | _, [] => True
  | store, (item, visit) :: rest =>
    AdmitTidy config libraryId store item ∧
      Admits libraryId (identities libraryId store.items) (store.disk.tree item.path) item visit ∧
      ((store.disk.tree item.path).isDir = false → (sourcesOf item).Pairwise Apart ∧
        ∀ sidecar ∈ item.sidecars, (store.disk.tree sidecar).isFile = true) ∧
      (∀ row ∈ store.items, row.id ≠ visit.itemId) ∧
      AdmitAllTidy config libraryId dropGroupId file
        (admitExploded config libraryId dropGroupId (parentOf file.relativePath) visit store item).1
        rest

/-- A delivery that is extracted into a new scratch folder and fails nowhere. -/
structure DeliveryTidy (config : IngestConfig) (libraryId : String) (store : Store)
    (file : DropFile) (explosion : Explosion) : Prop where
  scratchName : ∃ rest, explosion.scratchName = ".explode-" ++ rest
  formed : explosion.extracted.WellFormed
  unblocked : store.disk.Unblocked (scratchPath config libraryId explosion)
  inside : ∀ entry ∈ explosion.items, scratchPath config libraryId explosion <+: entry.1.path ∧
    ∀ sidecar ∈ entry.1.sidecars, scratchPath config libraryId explosion <+: sidecar
  found : explosion.items ≠ []
  admissions : AdmitAllTidy config libraryId explosion.dropGroupId file
    (extractedStore config libraryId explosion store) explosion.items

/-- Every dropped file is staged tidily, and no drop fails. -/
def ScanTidy (config : IngestConfig) (libraryId : String) :
    Store → List (DropFile × Handling) → Prop
  | _, [] => True
  | store, (file, handling) :: rest =>
    (match handling with
    | .single _ => FileTidy config libraryId store file
    | .unreadable _ _ => False
    | .delivery explosion => DeliveryTidy config libraryId store file explosion) ∧
      ScanTidy config libraryId (scanOne config libraryId file store handling).1 rest

/-- A call that stages only on paths no other item names, fails no drop, and moves approved files to
a library outside of staging. -/
def Tidy (config : IngestConfig) : StoreCall → Store → Prop
  | .upload upload, store => UploadTidy config store upload
  | .scan libraryId handle, store => ScanTidy config libraryId store
      ((listFiles store.disk (config.dropDir ++ [libraryId])).map fun file => (file, handle file))
  | .preprocess itemId hook, store => ∀ item run,
    lookup DropItem.id store.items itemId = some item →
      hook = some run → item.preprocessed = false → HookTidy store item run
  | .discard _, _ | .reject _ _, _ => True
  | .approve _ _ libraryRoot _, _ => Apart config.stagingDir libraryRoot

/-- No two live items share a staging path, and each one's file has the digest of its row. -/
structure Owned (store : Store) : Prop where
  distinct : ∀ first ∈ store.items, ∀ second ∈ store.items, first.isLive → second.isLive →
    first.id ≠ second.id → first.stagingPath ≠ second.stagingPath
  digest : ∀ row ∈ store.items, row.isLive →
    recordedDigest store.disk row.stagingPath = some row.sourceSha256

end Statement

section Invariant

variable (config : IngestConfig)

def SameIdentity (first second : DropItem) : Prop :=
  first.libraryId = second.libraryId ∧ first.sourceSha256 = second.sourceSha256 ∧
    first.sourceFilename = second.sourceFilename

/-- The item's path is in the staging folder of its library, under a digest. -/
def Placed (row : DropItem) : Prop :=
  row.libraryId ≠ "rejected" ∧ ∃ sha256 name, row.stagingPath =
    config.stagingDir ++ [row.libraryId, sha256 ++ "-" ++ name] ∧ sha256 ≠ "" ∧
      sha256.toList.all isHexDigit = true

/-- What two rows keep of each other. -/
structure PairKept (first second : DropItem) : Prop where
  path : first.stagingPath ≠ second.stagingPath
  sidecars : ∀ sidecar ∈ first.sidecarPaths, Apart sidecar second.stagingPath
  identity : ¬ SameIdentity first second

variable [Digest]

/-- What one row keeps by itself. -/
structure RowKept (disk : Disk) (row : DropItem) : Prop where
  placed : Placed config row
  own : (∀ sidecar ∈ row.sidecarPaths, Apart sidecar row.stagingPath) ∨
    ∀ sidecar ∈ row.sidecarPaths, row.stagingPath <+: sidecar
  staged : row.isLive → ∀ sidecar ∈ row.sidecarPaths, config.stagingDir <+: sidecar
  digest : row.isLive → recordedDigest disk row.stagingPath = some row.sourceSha256

structure Kept (store : Store) : Prop where
  formed : store.disk.WellFormed
  ids : (store.items.map DropItem.id).Nodup
  row : ∀ row ∈ store.items, RowKept config store.disk row
  pair : ∀ first ∈ store.items, ∀ second ∈ store.items, first.id ≠ second.id →
    PairKept first second

end Invariant

variable {config : IngestConfig} {store : Store} {disk found : Disk} {source target path : Path}
  {row item : DropItem} {name : String} {roots : Set Path}

section Rows

/-- Staged items of different paths are apart. -/
theorem Placed.apart {first second : DropItem} (here : Placed config first)
    (there : Placed config second) (differ : first.stagingPath ≠ second.stagingPath) :
    Apart first.stagingPath second.stagingPath := by
  obtain ⟨-, sha256, name, place, -⟩ := here
  obtain ⟨-, sha256', name', place', -⟩ := there
  exact apart_of_length_eq (by rw [place, place']; simp) differ

theorem Placed.below (placed : Placed config row) : config.stagingDir <+: row.stagingPath := by
  obtain ⟨-, sha256, name, place, -⟩ := placed
  rw [place]
  exact prefix_append _ _

/-- A path that is apart from the staging folder is apart from every item. -/
theorem Placed.apart_of_elsewhere (placed : Placed config row)
    (elsewhere : Apart config.stagingDir path) : Apart path row.stagingPath := by
  obtain ⟨rest, place⟩ := placed.below
  rw [← place]
  exact elsewhere.below.symm

/-- What is set aside is nobody's staged file. -/
theorem Placed.apart_rejected (placed : Placed config row) (name : String) :
    Apart (config.stagingDir ++ ["rejected", name]) row.stagingPath := by
  obtain ⟨library, sha256, base, place, -⟩ := placed
  rw [place]
  refine apart_of_length_eq (by simp) fun same => library ?_
  exact (List.cons.inj (append_cancel_left same)).1.symm

variable {libraryId itemId : String} {items : List DropItem}

/-- A staging path of a library is an item's or apart from it. -/
theorem Placed.apart_target (placed : Placed config row)
    (differ : row.stagingPath ≠ config.stagingDir ++ [libraryId, name]) :
    Apart (config.stagingDir ++ [libraryId, name]) row.stagingPath := by
  obtain ⟨-, sha256, base, place, -⟩ := placed
  exact apart_of_length_eq (by rw [place]; simp) (Ne.symm differ)

/-- The rows after one was changed in place. -/
theorem members_updateAt {change : DropItem → DropItem}
    (ids : (items.map DropItem.id).Nodup) (found : lookup DropItem.id items itemId = some item)
    (keeps : (change item).id = item.id) :
    (∀ row ∈ updateAt DropItem.id itemId change items,
      row = change item ∨ row ∈ items ∧ row.id ≠ (change item).id) ∧
    ((updateAt DropItem.id itemId change items).map DropItem.id).Nodup := by
  have only : ∀ row ∈ items, row.id = itemId → row = item := by
    intro row listed same
    have here := (lookup_eq_some_iff ids).2 ⟨listed, same⟩
    exact Option.mem_unique here found
  have key := lookup_key found
  constructor
  · intro row listed
    rcases mem_updateAt.1 listed with ⟨old, other⟩ | ⟨old, stored, same, rfl⟩
    · exact .inr ⟨old, by rw [keeps, key]; exact other⟩
    · rw [only old stored same]
      exact .inl rfl
  · have keys : (updateAt DropItem.id itemId change items).map DropItem.id =
        items.map DropItem.id := by
      simp only [updateAt, map_map]
      refine map_congr_left fun row listed => ?_
      simp only [Function.comp_apply]
      split
      · rename_i same
        rw [only row listed same, keeps]
      · rfl
    rw [keys]
    exact ids

end Rows

section Invariant

variable [Digest] {next : Disk}

theorem recordedDigest_congr (same : next.tree path = disk.tree path) :
    recordedDigest next path = recordedDigest disk path := by
  rw [recordedDigest, recordedDigest, same]

theorem RowKept.of_digest (kept : RowKept config disk row)
    (same : row.isLive →
      recordedDigest next row.stagingPath = recordedDigest disk row.stagingPath) :
    RowKept config next row :=
  ⟨kept.placed, kept.own, kept.staged, fun live => (same live).trans (kept.digest live)⟩

variable (kept : Kept config store) {old : DropItem}
include kept

theorem Kept.owned : Owned store :=
  ⟨fun first here second there _ _ differ => (kept.pair first here second there differ).path,
    fun row listed live => (kept.row row listed).digest live⟩

theorem Kept.beside (listed : item ∈ store.items) (stored : old ∈ store.items)
    (differ : old.id ≠ item.id) : PairKept item old :=
  kept.pair item listed old stored (Ne.symm differ)

/-- The roots are apart from the files of the other items. -/
abbrev Spared (roots : Set Path) (store : Store) (item : DropItem) : Prop :=
  ∀ old ∈ store.items, old.id ≠ item.id → ∀ root ∈ roots, Apart root old.stagingPath

/-- One row is new or changed, the others are as before: what has to be shown of it. -/
theorem Kept.join (new : DropItem)
    (members : ∀ row ∈ items, row = new ∨ row ∈ store.items ∧ row.id ≠ new.id)
    (ids : (items.map DropItem.id).Nodup) (confined : Files.Confined roots store.disk disk)
    (spared : Spared roots store new)
    (fits : new ∈ items → RowKept config disk new ∧ ∀ old ∈ store.items, old.id ≠ new.id →
      PairKept old new ∧ PairKept new old) : Kept config ⟨disk, items⟩ := by
  refine ⟨confined.formed kept.formed, ids, fun row listed => ?_,
    fun first here second there differ => ?_⟩
  · rcases members row listed with rfl | ⟨old, other⟩
    · exact (fits listed).1
    · exact (kept.row row old).of_digest fun _ =>
        recordedDigest_congr (confined.tree _ (spared row old other))
  rcases members first here with rfl | ⟨oldFirst, otherFirst⟩
  · rcases members second there with rfl | ⟨oldSecond, otherSecond⟩
    · exact absurd rfl differ
    · exact ((fits here).2 second oldSecond otherSecond).2
  · rcases members second there with rfl | ⟨oldSecond, -⟩
    · exact ((fits there).2 first oldFirst otherFirst).1
    · exact kept.pair first oldFirst second oldSecond differ

theorem Kept.apart (listed : item ∈ store.items)
    (stored : old ∈ store.items) (differ : old.id ≠ item.id) :
    Apart item.stagingPath old.stagingPath :=
  (kept.row item listed).placed.apart (kept.row old stored).placed
    (kept.beside listed stored differ).path

/-- What a call on an item reaches: its file, its sidecars, and a path where they may be moved. -/
def Belongings (item : DropItem) (aside : Path) : Set Path :=
  {root | root = item.stagingPath ∨ root ∈ item.sidecarPaths ∨ root = aside}

theorem Kept.spared (listed : item ∈ store.items)
    (aside : ∀ old ∈ store.items, old.id ≠ item.id → Apart path old.stagingPath) :
    Spared (Belongings item path) store item := by
  rintro old stored differ root (rfl | sidecar | rfl)
  · exact kept.apart listed stored differ
  · exact (kept.beside listed stored differ).sidecars root sidecar
  · exact aside old stored differ

/-- An item is changed where it is, the files of the others are as before. -/
theorem Kept.change {change : DropItem → DropItem}
    (found : lookup DropItem.id store.items itemId = some item)
    (keeps : (change item).id = item.id) (path : (change item).stagingPath = item.stagingPath)
    (confined : Files.Confined roots store.disk disk) (spared : Spared roots store item)
    (row : RowKept config disk (change item)) (others : ∀ old ∈ store.items, old.id ≠ item.id →
      (∀ sidecar ∈ (change item).sidecarPaths, Apart sidecar old.stagingPath) ∧
        ¬ SameIdentity (change item) old) :
    Kept config ⟨disk, updateAt DropItem.id itemId change store.items⟩ := by
  obtain ⟨members, ids⟩ := members_updateAt kept.ids found keeps
  refine kept.join _ members ids confined
    (fun old stored differ => spared old stored (keeps ▸ differ))
    fun _ => ⟨row, fun old stored differ => ?_⟩
  obtain ⟨sidecars, identity⟩ := others old stored (keeps ▸ differ)
  have there := kept.pair old stored item (lookup_mem found) (keeps ▸ differ)
  refine ⟨⟨path ▸ there.path, path ▸ there.sidecars, fun same => identity ?_⟩,
    ⟨path ▸ there.path.symm, sidecars, identity⟩⟩
  exact ⟨same.1.symm, same.2.1.symm, same.2.2.symm⟩

/-- The rows stay and no live item's file changes its digest. -/
theorem Kept.of_frame (formed : disk.WellFormed) (frame : ∀ row ∈ store.items, row.isLive →
      recordedDigest disk row.stagingPath = recordedDigest store.disk row.stagingPath) :
    Kept config ⟨disk, store.items⟩ :=
  ⟨formed, kept.ids, fun row listed =>
    (kept.row row listed).of_digest (frame row listed), kept.pair⟩

theorem Kept.of_trees (formed : disk.WellFormed)
    (frame : ∀ row ∈ store.items, disk.tree row.stagingPath = store.disk.tree row.stagingPath) :
    Kept config ⟨disk, store.items⟩ :=
  kept.of_frame formed fun row listed _ => recordedDigest_congr (frame row listed)

theorem Kept.of_confined (confined : Files.Confined roots store.disk disk)
    (apart : ∀ row ∈ store.items, ∀ root ∈ roots, Apart root row.stagingPath) :
    Kept config ⟨disk, store.items⟩ :=
  kept.of_trees (confined.formed kept.formed) fun row listed => confined.tree _ (apart row listed)

end Invariant

section Calls

variable [Digest] {hashed : String × Nat} {sha256 : String}

theorem hashTree_file (formed : found.WellFormed)
    (file : hashFile found = some hashed) : hashTree found = some hashed := by
  obtain ⟨bytes, contents, -⟩ := Option.map_eq_some_iff.1 file
  have isFile : found.isFile = true := Option.isSome_iff_exists.2 ⟨bytes, contents⟩
  rw [hashTree, Files.isDir_of_isFile formed isFile]
  exact file

theorem tree_ne_nil (recorded : recordedDigest disk path = some sha256) : disk.tree path ≠ [] := by
  intro empty
  rw [recordedDigest, empty] at recorded
  cases recorded

/-- The disk once an item's file and sidecars are in the library. -/
structure InLibrary (store : Store) (item : DropItem) (libraryRoot destination : Path)
    (beside : Disk × List Path) : Prop where
  confined : Files.Confined (Belongings item libraryRoot) store.disk beside.1
  targets : ∀ target ∈ beside.2, libraryRoot <+: target
  arrived : beside.1.tree destination = store.disk.tree item.stagingPath
  left : beside.1.tree item.stagingPath = []
  unblocked : beside.1.Unblocked item.stagingPath
  own : (∀ sidecar ∈ item.sidecarPaths, Apart sidecar item.stagingPath) ∨ beside.2 = []

section Keeping

variable (kept : Kept config store) {libraryRoot : Path}
include kept

theorem Kept.discard (itemId : String) : Kept config (discard itemId store) := by
  unfold Ingest.discard
  split
  · exact kept
  rename_i item found
  have key := lookup_key found
  have listed := lookup_mem found
  have confined : Files.Confined (Belongings item item.stagingPath) store.disk
      (item.sidecarPaths.foldl removeStaged (removeStaged store.disk item.stagingPath)) :=
    (Files.confined_remove (.self (.inl rfl))).trans (Files.Confined.foldl
      (fun sidecar mine _ => Files.confined_remove (.self (.inr (.inl mine)))) _)
  refine kept.join item ?_ (kept.ids.sublist (filter_sublist.map _)) confined
    (kept.spared listed fun old stored differ => kept.apart listed stored differ) ?_
  · intro row member
    obtain ⟨old, other⟩ := mem_filter.1 member
    exact .inr ⟨old, by rw [key]; exact of_decide_eq_true other⟩
  · intro impossible
    exact absurd key (of_decide_eq_true (mem_filter.1 impossible).2)

/-- Setting an item's file aside; when it fails, the file is still there. -/
theorem Kept.setAside (listed : item ∈ store.items) : ∃ aside,
    Files.Confined (Belongings item aside) store.disk (setAside config store.disk item).1 ∧
      Spared (Belongings item aside) store item ∧
        ((setAside config store.disk item).2 = false →
          (setAside config store.disk item).1.tree item.stagingPath =
            store.disk.tree item.stagingPath) := by
  refine ⟨config.stagingDir ++ ["rejected", item.id ++ "-" ++ item.sourceFilename], ?_,
    kept.spared listed fun old stored _ => (kept.row old stored).placed.apart_rejected _, ?_⟩
  · unfold Ingest.setAside
    dsimp only
    split
    · exact confined_moveTarget (.self (.inl rfl)) (.self (.inr (.inr rfl)))
    · exact .refl _
  · unfold Ingest.setAside
    dsimp only
    split
    · exact fun failed =>
        tree_moveTarget_failed failed ((kept.row item listed).placed.apart_rejected _)
    · exact fun _ => rfl

theorem Kept.reject (reason : Option String) (itemId : String) :
    Kept config (reject config reason itemId store) := by
  unfold Ingest.reject
  split
  · exact kept
  rename_i item found
  have listed := lookup_mem found
  obtain ⟨aside, confined, spared, stays⟩ := kept.setAside listed
  dsimp only
  split
  · have row := kept.row item listed
    refine kept.change found rfl rfl confined spared
      ⟨row.placed, row.own, by rintro ⟨⟩, by rintro ⟨⟩⟩ fun old stored differ => ?_
    have pair := kept.beside listed stored differ
    exact ⟨pair.sidecars, pair.identity⟩
  · rename_i failed
    refine kept.of_trees (confined.formed kept.formed) fun row stored => ?_
    by_cases same : row.id = item.id
    · rw [inj_on_of_nodup_map kept.ids stored listed same]
      exact stays (by simpa using failed)
    · exact confined.tree _ (spared row stored same)

theorem Kept.preprocess {hook : Option HookRun}
    (tidy : ∀ item run, lookup DropItem.id store.items itemId = some item → hook = some run →
      item.preprocessed = false → HookTidy store item run) :
    Kept config (runPreprocess hook itemId store) := by
  unfold runPreprocess
  split
  · rename_i item run found
    obtain ⟨found, pending⟩ := Option.filter_eq_some_iff.1 found
    have tidy := tidy item run found rfl (by simpa using pending)
    have listed := lookup_mem found
    have row := kept.row item listed
    have confined : Files.Confined (Belongings item item.stagingPath) store.disk
        (store.disk.plant item.stagingPath run.left) :=
      Files.confined_plant (.self (.inl rfl)) tidy.formed
        (kept.formed.unblocked (tree_ne_nil (row.digest tidy.live)))
    have spared := kept.spared listed fun old stored differ => kept.apart listed stored differ
    split
    · rename_i failed
      have digest : recordedDigest (store.disk.plant item.stagingPath run.left) item.stagingPath =
          some item.sourceSha256 := by
        refine Eq.trans (recordedDigest_congr ?_) (row.digest tidy.live)
        exact (Files.tree_plant_self _ _ _).trans (tidy.failed failed)
      refine kept.change found rfl rfl confined spared
        ⟨row.placed, row.own, fun _ => row.staged tidy.live, fun _ => digest⟩
        fun old stored differ => ?_
      have pair := kept.beside listed stored differ
      exact ⟨pair.sidecars, pair.identity⟩
    · rename_i sha256 byteSize hashed
      obtain ⟨hashed, -⟩ := Option.filter_eq_some_iff.1 hashed
      have unique := tidy.identity _ hashed
      rw [if_neg (by rw [unique]; decide)]
      have digest : recordedDigest (store.disk.plant item.stagingPath run.left) item.stagingPath =
          some sha256 := by
        rw [recordedDigest, Files.tree_plant_self, hashTree_file tidy.formed hashed]
        rfl
      refine kept.change found rfl rfl confined spared
        ⟨row.placed, row.own, row.staged, fun _ => digest⟩ fun old stored differ => ?_
      refine ⟨(kept.beside listed stored differ).sidecars, fun ⟨library, sha, filename⟩ => ?_⟩
      have taken := any_eq_false.1 unique old stored
      simp [differ, ← library, ← sha, ← filename, preprocessedRow] at taken
  · exact kept

theorem Kept.inLibrary (listed : item ∈ store.items)
    (live : item.isLive = true) {folder destination : Path}
    (shape : destination = libraryRoot ++ folder ++ [name])
    (elsewhere : Apart config.stagingDir libraryRoot) (stagedIsDir : Bool)
    (occupied : store.disk.tree item.stagingPath ≠ [])
    (unblocked : store.disk.Unblocked destination) :
    InLibrary store item libraryRoot destination
      (moveSidecarsBeside (store.disk.move item.stagingPath destination)
        item.sidecarPaths destination stagedIsDir) := by
  have row := kept.row item listed
  have away : Apart libraryRoot item.stagingPath := row.placed.apart_of_elsewhere elsewhere
  have library : ∀ rest, Within (Belongings item libraryRoot) (libraryRoot ++ rest) :=
    fun rest => (Within.self (.inr (.inr rfl))).below rest
  subst shape
  have fromTarget : Apart (libraryRoot ++ folder ++ [name]) item.stagingPath := away.below.below
  have gone : (store.disk.move item.stagingPath (libraryRoot ++ folder ++ [name])).tree
      item.stagingPath = [] := Files.tree_move_source fromTarget.symm
  have free : (store.disk.move item.stagingPath (libraryRoot ++ folder ++ [name])).Unblocked
      item.stagingPath := (kept.formed.unblocked occupied).move fromTarget
  have moved : Files.Confined (Belongings item libraryRoot) store.disk
      (store.disk.move item.stagingPath (libraryRoot ++ folder ++ [name])) :=
    Files.confined_move (.self (.inl rfl)) (append_assoc .. ▸ library _) unblocked
  have arrived := Files.tree_move_target store.disk item.stagingPath (libraryRoot ++
    folder ++ [name])
  unfold moveSidecarsBeside
  split
  · exact ⟨moved, nofun, arrived, gone, free, .inr rfl⟩
  rw [dropLast_concat]
  rcases row.own with apart | below
  · have publication : ∀ sidecar ∈ item.sidecarPaths,
        Apart sidecar (libraryRoot ++ folder ++ [name]) := by
      intro sidecar member
      obtain ⟨rest, rfl⟩ := row.staged live sidecar member
      exact elsewhere.below.symm.below.below.symm
    have beside := confined_moveSidecarsInto (fun _ => id) publication (arrived ▸ occupied)
    have spared : ∀ root ∈ BesideReach item.sidecarPaths (libraryRoot ++ folder) name,
        Apart root item.stagingPath := by
      rintro root (sidecar | ⟨other, -, rfl⟩)
      · exact apart root sidecar
      · exact away.below.below
    refine ⟨moved.trans (beside.mono ?_), fun target member => ?_, ?_, ?_,
      fun entry entered above => ?_,
      .inl apart⟩
    · rintro root (sidecar | ⟨other, -, rfl⟩)
      · exact .self (.inr (.inl sidecar))
      · exact append_assoc .. ▸ library _
    · obtain ⟨base, rfl⟩ := moveSidecarsInto_targets (mem_mergeSort.1 member)
      exact append_assoc .. ▸ prefix_append _ _
    · refine (beside.tree _ ?_).trans arrived
      rintro root (sidecar | ⟨other, differ, rfl⟩)
      · exact publication root sidecar
      · exact apart_concat differ
    · exact (beside.tree _ spared).trans gone
    · exact free entry
        (beside.mem_of_above (fun root reached => (spared root reached).1) entered above)
        above
  · rw [moveSidecarsInto_inside gone below]
    exact ⟨moved, by simp, arrived, gone, free, .inr (by simp)⟩

theorem Kept.approve
    (elsewhere : Apart config.stagingDir libraryRoot) (commits : Option String) (itemId : String)
    (expectedRevision : Nat) :
    Kept config (approve libraryRoot commits store itemId expectedRevision) := by
  unfold Ingest.approve
  split
  · exact kept
  rename_i item found
  obtain ⟨found, ready⟩ := Option.filter_eq_some_iff.1 found
  have listed := lookup_mem found
  have live : item.isLive = true := by
    simp only [approvable, Bool.and_eq_true, decide_eq_true_eq, ne_eq] at ready
    unfold DropItem.isLive DropItemStatus.isResolved
    split <;> simp_all
  split
  · exact kept
  rename_i destination named
  obtain ⟨folder, name, rfl⟩ := destinationOf_eq named
  dsimp only
  split
  · exact kept
  rename_i open_
  simp only [Bool.or_eq_true, not_or] at open_
  have occupied : store.disk.tree item.stagingPath ≠ [] := by simpa using open_.1.1
  have free : store.disk.tree (libraryRoot ++ folder ++ [name]) = [] := by
    simpa using open_.1.2
  have unblocked := isBlocked_eq_false_iff.1 (Bool.not_eq_true _ ▸ open_.2)
  have row := kept.row item listed
  have aside : ∀ old ∈ store.items, Apart libraryRoot old.stagingPath :=
    fun old stored => (kept.row old stored).placed.apart_of_elsewhere elsewhere
  have apart : Apart (libraryRoot ++ folder ++ [name]) item.stagingPath :=
    (aside item listed).below.below
  rw [moveTarget_of_free occupied free unblocked apart.symm]
  have library := kept.inLibrary listed live rfl elsewhere
    (store.disk.tree item.stagingPath).isDir occupied unblocked
  generalize moveSidecarsBeside _ _ _ _ = beside at library ⊢
  have spared := kept.spared listed fun old stored _ => aside old stored
  have away : ∀ old ∈ store.items, ∀ sidecar ∈ beside.2, Apart sidecar old.stagingPath := by
    intro old stored sidecar member
    obtain ⟨rest, rfl⟩ := library.targets sidecar member
    exact (aside old stored).below
  cases commits with
  | some mediaId =>
    exact kept.change found rfl rfl library.confined spared
      ⟨row.placed, .inl (away item listed), by rintro ⟨⟩, by rintro ⟨⟩⟩ fun old stored differ =>
        ⟨away old stored, (kept.beside listed stored differ).identity⟩
  | none =>
    have returned : ∀ target ∈ beside.2, Within (Belongings item libraryRoot) target :=
      fun target member => ⟨_, .inr (.inr rfl), library.targets target member⟩
    have back : Files.Confined (Belongings item libraryRoot) beside.1
        (beside.1.move (libraryRoot ++ folder ++ [name]) item.stagingPath) :=
      Files.confined_move ⟨_, .inr (.inr rfl), append_assoc .. ▸ prefix_append _ _⟩
        (.self (.inl rfl)) library.unblocked
    have restored := confined_restoreMovedSidecars
      (beside.1.move (libraryRoot ++ folder ++ [name]) item.stagingPath) beside.2 item.sidecarPaths
    have whole := (library.confined.trans back).trans (restored.mono fun root reached =>
      reached.elim (returned root) fun member => .self (.inr (.inl member)))
    rw [moveTarget_of_free (library.arrived ▸ occupied) library.left library.unblocked apart]
    refine kept.of_trees (whole.formed kept.formed) fun old stored => ?_
    by_cases same : old.id = item.id
    · rw [inj_on_of_nodup_map kept.ids stored listed same]
      have home : (beside.1.move (libraryRoot ++ folder ++ [name]) item.stagingPath).tree
          item.stagingPath = store.disk.tree item.stagingPath := by
        rw [Files.tree_move_target, library.arrived]
      rcases library.own with apartSidecars | none
      · exact (restored.tree _ fun root reached =>
          reached.elim (away item listed root) (apartSidecars root)).trans home
      · rw [none]
        exact home
    · exact whole.tree _ (spared old stored same)

end Keeping

end Calls

section Arriving

variable {added : List DropItem} {new : DropItem} {base filename : String}

theorem uploadPath_eq (named : uploadPath config libraryId sha256 filename = some target) :
    ∃ name, target = config.stagingDir ++ [libraryId, sha256 ++ "-" ++ name] := by
  unfold uploadPath at named
  split at named
  · obtain ⟨name, -, rfl⟩ := Option.map_eq_some_iff.1 named
    exact ⟨name, rfl⟩
  · cases named

variable [Digest]

theorem recordedDigest_plant (path : Path) (bytes : List UInt8) :
    recordedDigest (disk.plant path [([], bytes)]) path = some (Digest.sha256 bytes) := by
  rw [recordedDigest, Files.tree_plant_self]
  rfl

variable (kept : Kept config store)
include kept

/-- A new item whose path nobody names. -/
theorem Kept.add (inserted : insertItem store.items new = some added)
    (confined : Files.Confined roots store.disk disk)
    (apart : ∀ old ∈ store.items, ∀ root ∈ roots, Apart root old.stagingPath)
    (row : RowKept config disk new) (paths : ∀ old ∈ store.items, old.stagingPath ≠ new.stagingPath)
    (oldSidecars : ∀ old ∈ store.items, ∀ sidecar ∈ old.sidecarPaths, Apart sidecar new.stagingPath)
    (newSidecars : ∀ old ∈ store.items, ∀ sidecar ∈ new.sidecarPaths,
      Apart sidecar old.stagingPath) :
    Kept config ⟨disk, added⟩ := by
  obtain ⟨free, rfl⟩ := insertItem_eq_some_iff.1 inserted
  have fresh : ∀ old ∈ store.items, old.id ≠ new.id :=
    fun old listed same => free old listed (.inl same)
  refine kept.join new (forall_mem_concat (fun other old => .inr ⟨old, fresh other old⟩) (.inl rfl))
    (nodup_concat kept.ids fresh) confined (fun old listed _ => apart old listed)
    fun _ => ⟨row, fun old listed _ => ⟨?_, ?_⟩⟩
  · refine ⟨paths old listed, oldSidecars old listed, fun same => free old listed ?_⟩
    exact .inr ⟨same.1, .inl same.2⟩
  · refine ⟨(paths old listed).symm, newSidecars old listed, fun same => free old listed (.inr ?_)⟩
    exact ⟨same.1.symm, .inl ⟨same.2.1.symm, same.2.2.symm⟩⟩

/-- An item at a target has the identity the target was named for. -/
theorem TargetTidy.identity
    (tidy : TargetTidy store libraryId sha256 filename (config.stagingDir ++ [libraryId, base]))
    (listed : row ∈ store.items) (here : row.stagingPath = config.stagingDir ++ [libraryId, base]) :
    row.libraryId = libraryId ∧ row.sourceSha256 = sha256 ∧ row.sourceFilename = filename := by
  obtain ⟨-, digest, name, place, -⟩ := (kept.row row listed).placed
  have same := append_cancel_left (place.symm.trans here)
  exact ⟨(List.cons.inj same).1, tidy.items row listed here⟩

theorem Kept.recordUpload {upload : Upload} (shape : target =
      config.stagingDir ++ [upload.libraryId, Digest.sha256 upload.bytes ++ "-" ++ base])
    (tidy : TargetTidy store upload.libraryId (Digest.sha256 upload.bytes) filename target)
    (unblocked : store.disk.Unblocked target) :
    Kept config (recordUpload upload filename target
      (store.disk.plant target [([], upload.bytes)]) store.items) := by
  generalize planted : store.disk.plant target [([], upload.bytes)] = disk
  have confined : Files.Confined {target} store.disk disk :=
    planted ▸ Files.confined_plant (.self rfl) (Files.wellFormed_file _) unblocked
  have digest : recordedDigest disk target = some (Digest.sha256 upload.bytes) :=
    planted ▸ recordedDigest_plant target upload.bytes
  have away : ∀ row ∈ store.items, row.stagingPath ≠ target → Apart target row.stagingPath := by
    intro row listed differ
    rw [shape] at differ ⊢
    exact (kept.row row listed).placed.apart_target differ
  have removed : removeIfExists disk target = some (disk.remove target) := by
    unfold removeIfExists
    rw [← planted, Files.tree_plant_self]
    rfl
  -- a target that no item is at may be cleared again
  have cleared : (∀ row ∈ store.items, row.stagingPath ≠ target) →
      Kept config ⟨disk.remove target, store.items⟩ := by
    intro unclaimed
    refine kept.of_confined (confined.trans (Files.confined_remove (.self rfl))) ?_
    rintro row listed root rfl
    exact away row listed (unclaimed row listed)
  have identity := fun row (listed : row ∈ store.items) (here : row.stagingPath = target) =>
    TargetTidy.identity kept (shape ▸ tidy) listed (here.trans shape)
  unfold Ingest.recordUpload
  split
  · rename_i item found
    obtain ⟨stored, same⟩ := findIdentity_some found
    split
    · refine kept.of_frame (confined.formed kept.formed) fun row listed live => ?_
      by_cases here : row.stagingPath = target
      · rw [here, digest, ← (identity row listed here).2.1, ← here]
        exact ((kept.row row listed).digest live).symm
      · exact recordedDigest_congr (confined.tree _ (by simpa using away row listed here))
    · rename_i elsewhere
      rw [removed]
      refine cleared fun row listed here => ?_
      by_cases differ : row.id = item.id
      · rw [inj_on_of_nodup_map kept.ids listed stored differ] at here
        exact elsewhere here.symm
      · have other := identity row listed here
        exact (kept.pair row listed item stored differ).identity
          ⟨other.1.trans same.1.symm, other.2.1.trans same.2.1.symm, other.2.2.trans same.2.2.symm⟩
  · rename_i absent
    have unclaimed : ∀ row ∈ store.items, row.stagingPath ≠ target :=
      fun row listed here => findIdentity_eq_none_iff.1 absent
        (mem_identities.2 ⟨row, listed, identity row listed here⟩)
    split
    · rename_i added inserted
      have placed : Placed config (uploadRow upload filename target) :=
        ⟨tidy.library, Digest.sha256 upload.bytes, base, shape, Digest.filled upload.bytes,
          Digest.digits upload.bytes⟩
      have row : RowKept config disk (uploadRow upload filename target) :=
        ⟨placed, .inl nofun, nofun, fun _ => digest⟩
      refine kept.add inserted confined ?_ row unclaimed tidy.sidecars fun _ _ => forall_mem_nil _
      rintro old listed root rfl
      exact away old listed (unclaimed old listed)
    · rw [removed]
      exact cleared unclaimed

theorem Kept.upload {upload : Upload}
    (tidy : UploadTidy config store upload) : Kept config (stageUpload config upload store) := by
  unfold stageUpload
  split
  · exact kept
  rename_i filename sanitized
  dsimp only
  split
  · exact kept
  split
  · exact kept
  rename_i target named
  have tidy := tidy filename target sanitized named
  obtain ⟨base, shape⟩ := uploadPath_eq named
  unfold stageReader
  split
  · exact kept
  rename_i staged
  split at staged
  · cases staged
  rename_i unblocked
  rw [if_neg (by rw [tidy.room]; decide)] at staged
  cases staged
  exact kept.recordUpload shape tidy
    (isBlocked_eq_false_iff.1 (Bool.not_eq_true _ ▸ unblocked))

end Arriving

section Scanning

variable {next : Disk} {file : DropFile}

/-- A file is renamed into staging where no folder stands. -/
theorem moveIntoStaging_eq (formed : disk.WellFormed) (apart : Apart source target)
    (file : (disk.tree source).isFile = true) (room : (disk.tree target).isDir = false)
    (moved : moveIntoStaging disk source target = some next) : next = disk.move source target := by
  unfold moveIntoStaging at moved
  split at moved
  · rename_i renamed
    cases moved
    exact rename_eq renamed
  rename_i refused
  split at moved
  · rename_i taken
    simp only [Bool.and_eq_true, Bool.not_eq_true', isEmpty_eq_false_iff] at taken
    have unblocked := isBlocked_eq_false_iff.2 (formed.unblocked taken.1)
    have occupied : disk.tree source ≠ [] := by
      intro empty
      rw [empty] at file
      cases file
    have both := Files.isFile_of_not_isDir taken.1 room
    simp [rename, occupied, unblocked, apart.1, file, both] at refused
  · cases moved

theorem stageSidecars_targets {limit : Option Nat} {sidecars targets : List Path}
    (staged : (stageSidecars config libraryId sha256 limit disk sidecars).2 = some targets) :
    ∀ target ∈ targets, ∃ sidecar ∈ sidecars, ∃ name, fileName sidecar = some name ∧
      stagingPath config.stagingDir libraryId sha256 name = some target := by
  induction sidecars generalizing limit disk targets with
  | nil =>
    cases staged
    exact forall_mem_nil _
  | cons sidecar rest ih =>
    unfold stageSidecars at staged
    split at staged
    · exact fun target listed => (ih staged target listed).imp fun _ =>
        And.imp_left (mem_cons_of_mem _)
    rename_i name base
    split at staged
    · cases staged
    rename_i first place
    split at staged
    · cases staged
    obtain ⟨later, ran, rfl⟩ := Option.map_eq_some_iff.1 staged
    refine forall_mem_cons.2 ⟨⟨sidecar, mem_cons_self, name, base,
      (Option.filter_eq_some_iff.1 place).1⟩, fun target listed => ?_⟩
    exact (ih ran target listed).imp fun _ => And.imp_left (mem_cons_of_mem _)

/-- No item is at a scratch folder. -/
theorem Placed.apart_scratch (placed : Placed config row) (libraryId rest : String) :
    Apart (config.stagingDir ++ [libraryId, ".explode-" ++ rest]) row.stagingPath := by
  refine placed.apart_target fun same => ?_
  obtain ⟨-, sha256, name, place, filled, digits⟩ := placed
  have names : sha256 ++ "-" ++ name = ".explode-" ++ rest := by
    have both := append_cancel_left (place.symm.trans same)
    exact (List.cons.inj (List.cons.inj both).2).1
  exact hexName_ne_scratch filled digits names

variable [Digest]

theorem recordedDigest_move (target : Path) (hash : hashTree (disk.tree source) = some hashed) :
    recordedDigest (disk.move source target) target = some hashed.1 := by
  rw [recordedDigest, Files.tree_move_target, hash]
  rfl

theorem isFile_of_hashFile (hash : hashFile found = some hashed) :
    found.isFile = true := by
  obtain ⟨bytes, contents, -⟩ := Option.map_eq_some_iff.1 hash
  exact Option.isSome_iff_exists.2 ⟨bytes, contents⟩

section Delivering

variable (kept : Kept config store)
include kept

/-- A target named for an identity that no item has is no item's. -/
theorem TargetTidy.unclaimed {base : String}
    (tidy : TargetTidy store libraryId sha256 filename (config.stagingDir ++ [libraryId, base]))
    (absent : findIdentity store.items libraryId sha256 filename = none) :
    ∀ row ∈ store.items, row.stagingPath ≠ config.stagingDir ++ [libraryId, base] :=
  fun row listed here => findIdentity_eq_none_iff.1 absent
    (mem_identities.2 ⟨row, listed, tidy.identity kept listed here⟩)

/-- A file outside of staging is removed. -/
theorem Kept.removed (elsewhere : Apart config.stagingDir source)
    (removed : removeIfExists store.disk source = some disk) : Kept config ⟨disk, store.items⟩ := by
  refine kept.of_confined (confined_removeIfExists (.self (Set.mem_singleton source)) removed) ?_
  rintro row listed root rfl
  exact (kept.row row listed).placed.apart_of_elsewhere elsewhere

theorem Kept.scanFile (elsewhere : Apart config.stagingDir file.path)
    (tidy : FileTidy config libraryId store file) :
    Kept config (scanFile config libraryId file itemId store).1 := by
  have away : ∀ row ∈ store.items, Apart file.path row.stagingPath :=
    fun row listed => (kept.row row listed).placed.apart_of_elsewhere elsewhere
  unfold Ingest.scanFile
  split
  · exact kept
  rename_i sha256 byteSize hashed
  split
  · split
    · exact kept
    · rename_i cleared removed
      exact kept.removed elsewhere removed
  · rename_i absent
    split
    · exact kept
    rename_i target named
    have tidy := tidy _ target hashed absent named
    obtain ⟨name, rfl, filled, digits⟩ := stagingPath_eq named
    have unclaimed := tidy.unclaimed kept absent
    have apart : ∀ row ∈ store.items, ∀ root ∈ ({file.path,
        config.stagingDir ++ [libraryId, sha256 ++ "-" ++ name]} : Set Path),
          Apart root row.stagingPath := by
      rintro row listed root (rfl | rfl)
      · exact away row listed
      · exact (kept.row row listed).placed.apart_target (unclaimed row listed)
    split
    · exact kept
    rename_i moved performed
    have confined : Files.Confined {file.path, _} store.disk moved :=
      confined_moveIntoStaging (.self (.inl rfl)) (.self (.inr rfl)) performed
    have same := moveIntoStaging_eq kept.formed elsewhere.below.symm
      (isFile_of_hashFile hashed) tidy.room performed
    subst same
    split
    · exact kept.of_confined confined apart
    rename_i added inserted
    have digest := recordedDigest_move
      (config.stagingDir ++ [libraryId, sha256 ++ "-" ++ name])
      (hashTree_file (kept.formed.tree file.path) hashed)
    exact kept.add inserted confined apart ⟨⟨tidy.library, sha256, name, rfl, filled, digits⟩,
      .inl (forall_mem_nil _), fun _ => forall_mem_nil _, fun _ => digest⟩ unclaimed tidy.sidecars
      fun _ _ => forall_mem_nil _

/-- A publication admitted from a scratch folder. -/
theorem Kept.admitted {rest : String} {item : ExplodedItem} {visit : Visit}
    (new : NewAdmission config libraryId store item visit disk row)
    (tidy : AdmitTidy config libraryId store item)
    (inside : ∀ source ∈ sourcesOf item, scratchAt config libraryId rest <+: source) :
    Kept config ⟨disk, store.items ++ [row]⟩ := by
  obtain ⟨target, tidiness⟩ := tidy _ _ new.hashed new.absent new.named
  obtain ⟨name, place, filled, digits⟩ := stagingPath_eq new.named
  have placed : Placed config row :=
    ⟨new.library ▸ target.library, row.sourceSha256, name, new.library ▸ place, filled, digits⟩
  have below : ∀ {other : DropItem}, Placed config other → ∀ source ∈ sourcesOf item,
      Apart source other.stagingPath := by
    intro other there source listed
    obtain ⟨tail, rfl⟩ := inside source listed
    exact (there.apart_scratch libraryId rest).below
  have unclaimed : ∀ old ∈ store.items, old.stagingPath ≠ row.stagingPath := by
    rw [place] at target ⊢
    exact target.unclaimed kept new.absent
  have fromTarget : ∀ old ∈ store.items, Apart row.stagingPath old.stagingPath :=
    fun old listed => placed.apart (kept.row old listed).placed (unclaimed old listed).symm
  obtain ⟨middle, performed, beside⟩ := new.staged
  have staged : Files.Confined {item.path, row.stagingPath} store.disk middle :=
    confined_stagePublication (.self (.inl rfl)) (.self (.inr rfl)) performed
  have spared : ∀ old ∈ store.items, ∀ root ∈ ({item.path, row.stagingPath} : Set Path),
      Apart root old.stagingPath := by
    rintro old stored root (rfl | rfl)
    · exact below (kept.row old stored).placed _ mem_cons_self
    · exact fromTarget old stored
  have arrived : ∀ {final : Disk}, final.tree row.stagingPath = (store.disk.move item.path
      row.stagingPath).tree row.stagingPath →
        recordedDigest final row.stagingPath = some row.sourceSha256 :=
    fun same => (recordedDigest_congr same).trans (recordedDigest_move _ new.hashed)
  unfold stagePublication at performed
  unfold stageBeside at beside
  by_cases folder : (store.disk.tree item.path).isDir = true
  · rw [if_pos folder] at performed beside tidiness
    unfold moveDirIntoStaging at performed
    rw [if_neg (by simp [tidiness])] at performed
    obtain ⟨rfl, listed⟩ := Prod.mk.inj beside
    have sidecars := Option.some.inj listed
    have within : ∀ sidecar ∈ row.sidecarPaths, row.stagingPath <+: sidecar := by
      intro sidecar member
      rw [← sidecars] at member
      obtain ⟨entry, -, shape⟩ := mem_filterMap.1 (mem_mergeSort.1 member)
      split at shape <;> cases shape
      exact prefix_append _ _
    refine kept.add new.inserted staged spared
      ⟨placed, .inr within, fun _ sidecar member => placed.below.trans (within sidecar member),
        fun _ => arrived (by rw [rename_eq performed])⟩ unclaimed target.sidecars
      fun old listed sidecar member => ?_
    obtain ⟨tail, rfl⟩ := within sidecar member
    exact (fromTarget old listed).below
  · rw [if_neg folder] at performed beside tidiness
    have file : (store.disk.tree item.path).isFile = true := by
      have hashed := new.hashed
      rw [hashTree, if_neg folder] at hashed
      exact isFile_of_hashFile hashed
    have same := moveIntoStaging_eq kept.formed (below placed _ mem_cons_self) file target.room
      performed
    obtain ⟨final, listed⟩ := Prod.mk.inj beside
    obtain ⟨targets, ran, sorted⟩ := Option.map_eq_some_iff.1 listed
    have shaped : ∀ sidecar ∈ item.sidecars, ∀ name beside, fileName sidecar = some name →
        stagingPath config.stagingDir libraryId row.sourceSha256 name = some beside →
          config.stagingDir <+: beside ∧ Apart beside row.stagingPath ∧
            ∀ old ∈ store.items, Apart beside old.stagingPath := by
      intro sidecar member name beside called place
      obtain ⟨differ, free⟩ := tidiness sidecar member name beside called place
      obtain ⟨title, rfl, -⟩ := stagingPath_eq place
      exact ⟨prefix_append _ _, placed.apart_target differ.symm, fun old stored =>
        (kept.row old stored).placed.apart_target (free old stored)⟩
    -- the moves of the sidecars reach the sidecars, and paths that are kept free for them
    obtain ⟨roots, reach, free⟩ : ∃ roots, Files.Confined roots middle disk ∧ ∀ root ∈ roots,
        Apart root row.stagingPath ∧ ∀ old ∈ store.items, Apart root old.stagingPath := by
      refine ⟨{root | root ∈ item.sidecars ∨ ∃ sidecar ∈ item.sidecars, ∃ name,
        fileName sidecar = some name ∧
          stagingPath config.stagingDir libraryId row.sourceSha256 name = some root}, ?_, ?_⟩
      · exact final ▸ confined_stageSidecars (fun _ member => .self (.inl member))
          (fun sidecar member name _ called place =>
            .self (.inr ⟨sidecar, member, name, called, place⟩)) _
      · rintro root (member | ⟨sidecar, member, name, called, place⟩)
        · exact ⟨below placed root (mem_cons_of_mem _ member), fun old stored =>
            below (kept.row old stored).placed root (mem_cons_of_mem _ member)⟩
        · exact (shaped sidecar member name root called place).2
    have listed : ∀ sidecar ∈ row.sidecarPaths, config.stagingDir <+: sidecar ∧
        Apart sidecar row.stagingPath ∧ ∀ old ∈ store.items, Apart sidecar old.stagingPath := by
      intro sidecar member
      obtain ⟨source, there, name, called, place⟩ :=
        stageSidecars_targets ran sidecar (mem_mergeSort.1 (sorted ▸ member))
      exact shaped source there name sidecar called place
    have here : disk.tree row.stagingPath =
        (store.disk.move item.path row.stagingPath).tree row.stagingPath := by
      rw [reach.tree _ fun root member => (free root member).1, same]
    refine kept.add new.inserted (staged.union reach) ?_
      ⟨placed, .inl fun sidecar member => (listed sidecar member).2.1,
        fun _ sidecar member => (listed sidecar member).1, fun _ => arrived here⟩ unclaimed
      target.sidecars fun old stored sidecar member => (listed sidecar member).2.2 old stored
    rintro old stored root (moved | beside)
    · exact spared old stored root moved
    · exact (free root beside).2 old stored

theorem Kept.admitAll {dropGroupId rest : String} {items : List (ExplodedItem × Visit)}
    (inside : ∀ entry ∈ items, ∀ source ∈ sourcesOf entry.1,
      scratchAt config libraryId rest <+: source)
    (opened : StagingOpen config libraryId store.disk)
    (tidy : AdmitAllTidy config libraryId dropGroupId file store items) :
    Kept config (admitAll config libraryId dropGroupId file store items).1 ∧
      (admitAll config libraryId dropGroupId file store items).2.isSome = true := by
  induction items generalizing store with
  | nil => exact ⟨kept, rfl⟩
  | cons entry later ih =>
    obtain ⟨item, visit⟩ := entry
    obtain ⟨here, admits, beside, fresh, after⟩ := tidy
    have within := inside _ mem_cons_self
    have ready : Ready config libraryId rest store.disk.tree store.disk item :=
      { inside := within, beside, opened, found := fun _ _ => rfl
        whole := fun source _ => Files.isDir_of_isFile (kept.formed.tree source) }
    have success :=
      (admitExploded_isSome ready dropGroupId (parentOf file.relativePath) fresh).2 admits
    obtain ⟨effect, confined⟩ := @admitExploded_effect config libraryId _ dropGroupId
      (parentOf file.relativePath) visit store item
    have open_ := opened.confined within confined
    have next : Kept config (admitExploded config libraryId dropGroupId
        (parentOf file.relativePath) visit store item).1 := by
      generalize admitExploded config libraryId dropGroupId (parentOf file.relativePath) visit
        store item = outcome at effect success
      cases effect with
      | found row hashed known => exact kept
      | staged disk row new => exact kept.admitted new here within
      | failed disk => cases success
    obtain ⟨row, admitted⟩ := Option.isSome_iff_exists.1 success
    have ran := ih next (forall_mem_cons.1 inside).2 open_ after
    unfold Ingest.admitAll
    dsimp only
    rw [admitted]
    exact ⟨ran.1, by simpa using ran.2⟩

theorem Kept.delivery {explosion : Explosion}
    (elsewhere : Apart config.stagingDir file.path)
    (tidy : DeliveryTidy config libraryId store file explosion) :
    Kept config (explodeArchive config libraryId file explosion store).1 := by
  obtain ⟨rest, named⟩ := tidy.scratchName
  have scratch : scratchPath config libraryId explosion = scratchAt config libraryId rest := by
    rw [scratchPath, named]
  have away : ∀ {row : DropItem}, Placed config row →
      ∀ root ∈ ({scratchPath config libraryId explosion} : Set Path),
        Apart root row.stagingPath := by
    rintro row placed root rfl
    exact scratch ▸ placed.apart_scratch libraryId rest
  have extracted : Kept config (extractedStore config libraryId explosion store) :=
    kept.of_confined (Files.confined_plant (.self (Set.mem_singleton _)) tidy.formed tidy.unblocked)
      fun row listed => away (kept.row row listed).placed
  have opened : StagingOpen config libraryId store.disk := by
    intro entry listed above
    have shorter := above.length_le
    rw [tidy.unblocked entry listed (above.trans ⟨[explosion.scratchName], by simp [scratchPath]⟩),
      scratchPath, length_append, length_append] at shorter
    simp at shorter
  have looped := extracted.admitAll
    (fun entry listed => scratch ▸ forall_mem_cons.2 (tidy.inside entry listed))
    (opened.extracted explosion) tidy.admissions
  obtain ⟨admissions, done⟩ := Option.isSome_iff_exists.1 looped.2
  have cleared : Kept config { (explosion.loop config libraryId file store).1 with
      disk := (explosion.loop config libraryId file store).1.disk.remove
        (scratchPath config libraryId explosion) } :=
    looped.1.of_confined (Files.confined_remove (.self (Set.mem_singleton _)))
      fun row listed => away (looped.1.row row listed).placed
  unfold explodeArchive
  rw [if_neg (by simpa using tidy.found)]
  dsimp only
  rw [done]
  dsimp only
  split
  · exact cleared
  rename_i disk removed
  exact cleared.removed elsewhere (Option.filter_eq_some_iff.1 removed).1

theorem Kept.scanFiles {files : List (DropFile × Handling)}
    (elsewhere : ∀ entry ∈ files, Apart config.stagingDir entry.1.path)
    (tidy : ScanTidy config libraryId store files) :
    Kept config (scanFiles config libraryId store files) := by
  induction files generalizing store with
  | nil => exact kept
  | cons entry rest ih =>
    obtain ⟨file, handling⟩ := entry
    obtain ⟨here, after⟩ := tidy
    have away := elsewhere _ mem_cons_self
    have next : Kept config (scanOne config libraryId file store handling).1 := by
      cases handling with
      | single itemId => exact kept.scanFile away here
      | unreadable reason visit => exact here.elim
      | delivery explosion => exact kept.delivery away here
    unfold Ingest.scanFiles
    dsimp only
    split
    · exact ih next (forall_mem_cons.1 elsewhere).2 after
    · exact next

theorem Kept.call (apart : Apart config.stagingDir config.dropDir)
    {call : StoreCall} (tidy : Tidy config call store) {next : Store}
    (performed : intake config call store = some next) : Kept config next := by
  cases call with
  | upload upload =>
    cases performed
    exact kept.upload tidy
  | scan libraryId handle =>
    cases performed
    refine kept.scanFiles (fun entry member => ?_) tidy
    obtain ⟨file, listed, rfl⟩ := mem_map.1 member
    obtain ⟨found, -, rfl⟩ := mem_map.1 listed
    exact apart.symm.below.below.symm
  | preprocess itemId hook =>
    cases performed
    exact kept.preprocess tidy
  | discard itemId =>
    cases performed
    exact kept.discard itemId
  | reject itemId reason =>
    cases performed
    exact kept.reject reason itemId
  | approve itemId revision libraryRoot commits =>
    cases performed
    exact kept.approve tidy commits itemId revision

end Delivering

/-- A store without items on a disk without files below files. -/
def EmptyStore (store : Store) : Prop := store.items = [] ∧ store.disk.WellFormed

end Scanning

section Samples

local instance ownershipHost : Digest where
  sha256 := plainDigest
  filled := plainDigest_filled
  digits := plainDigest_digits

def firstUpload (itemId : String) : Upload where
  libraryId := "lib"
  filename := "a.cbz"
  bytes := [1]
  itemId := itemId

def rewrittenRow : DropItem where
  id := "1"
  libraryId := "lib"
  sourceFilename := "a.cbz"
  byteSize := 1
  sourceSha256 := "d02"
  stagingPath := ["staging", "lib", "d01-a.cbz"]
  preprocessed := true
  revision := 2

def uploadedRow (itemId : String) : DropItem where
  id := itemId
  libraryId := "lib"
  sourceFilename := "a.cbz"
  byteSize := 1
  sourceSha256 := "d01"
  stagingPath := ["staging", "lib", "d01-a.cbz"]

def uploadedStore : Store where
  disk := [(["staging", "lib", "d01-a.cbz"], [1])]
  items := [uploadedRow "1"]

def rewrittenStore : Store where
  disk := [(["staging", "lib", "d01-a.cbz"], [2])]
  items := [rewrittenRow]

def rewriting : StoreCall := .preprocess "1" (some { succeeded := true, left := [([], [2])] })

theorem emptyStore_sample : EmptyStore { disk := [] } := ⟨rfl, forall_mem_nil _⟩

theorem intake_sample :
    intake sampleConfig (.upload (firstUpload "1")) { disk := [] } = some uploadedStore ∧
      intake sampleConfig rewriting uploadedStore = some rewrittenStore := by
  decide +kernel

theorem tidy_upload_sample : Tidy sampleConfig (.upload (firstUpload "1")) { disk := [] } := by
  intro filename target _ _
  exact ⟨by decide, rfl, forall_mem_nil _,
    forall_mem_nil _⟩

theorem tidy_rewriting_sample : Tidy sampleConfig rewriting uploadedStore := by
  intro item run found ran _
  cases ran
  have only : item = uploadedRow "1" := Option.some.inj (found.symm.trans (by decide))
  subst only
  refine ⟨Files.wellFormed_file _, rfl, fun failed => ?_, fun hashed hash => ?_⟩
  · cases failed
  · cases hash
    decide

/-- The same bytes are uploaded again after the hook rewrote them: the old path is taken over. -/
def takenStore : Store where
  disk := [(["staging", "lib", "d01-a.cbz"], [1])]
  items := [rewrittenRow, uploadedRow "2"]

end Samples

end Coppice.Ingest
