import Coppice.Ingest.Archive

/-!
# What a delivery keeps

Whether exploding an archive loses a publication is decided by what goes in: the extracted trees,
the faults, the identities already known and where their rows point, and the names under which the
publications and their sidecars are staged. `refusals` are the admissions that fail, and `stagings`
what the others bring into staging, in order; `standing` says what is left of it at a path.
-/

namespace Coppice.Ingest

open Coppice.Std List

section Inputs

variable [Digest] (config : IngestConfig) (libraryId : String) (trees : Path → Disk)

/-- The digest and the name by which a publication is looked up. -/
def identityOf (tree : Disk) (item : ExplodedItem) : String × String :=
  (((hashTree tree).map Prod.fst).getD "", item.filename)

/-- The identities of the library's rows. -/
def identities (items : List DropItem) : List (String × String) :=
  (items.filter fun row => row.libraryId = libraryId).map fun row =>
    (row.sourceSha256, row.sourceFilename)

/-- The names of the sidecars are safe, and no fault meets one of them. -/
def SidecarsPass (limit : Option Nat) (sidecars : List Path) : Prop :=
  (∀ sidecar ∈ sidecars, ∀ name ∈ fileName sidecar, isSafeSegment name = true) ∧
    ∀ moved ∈ limit, sidecars.length ≤ moved

/-- No fault meets the publication, and its names are safe. One that is known is not staged. -/
def Admits (known : List (String × String)) (tree : Disk) (item : ExplodedItem) (visit : Visit) :
    Prop :=
  tree ≠ [] ∧ visit.fault ≠ some .hashing ∧ visit.fault ≠ some .identity ∧
    (identityOf tree item ∈ known ∨
      visit.fault ≠ some .staging ∧ visit.fault ≠ some .insert ∧
        isSafeSegment libraryId = true ∧ isSafeSegment item.filename = true ∧
        (tree.isDir = true ∨ SidecarsPass (AdmitFault.sidecarLimit visit.fault) item.sidecars))

/-- The path under which a file is staged. -/
def stagedAt (sha256 filename : String) : Path :=
  (stagingPath config.stagingDir libraryId sha256 filename).getD []

/-- What the sidecars of a file bring into staging, and where to. -/
def stagedBeside (sha256 : String) (sidecars : List Path) : List (Path × Disk) :=
  sidecars.map fun sidecar =>
    (stagedAt config libraryId sha256 ((fileName sidecar).getD ""), trees sidecar)

/-- A file replaces a file; a folder that is there stays, and a folder replaces nothing. -/
def settle (current written : Disk) : Disk :=
  if current.isEmpty || (written.isFile && current.isFile) then written else current

/-- What stands at a path where `current` stood. -/
def standing (path : Path) (current : Disk) (writes : List (Path × Disk)) : Disk :=
  writes.foldl (fun current write => if write.1 = path then settle current write.2 else current)
    current

end Inputs

section Statement

variable [Digest] (config : IngestConfig) (libraryId : String) (file : DropFile)
  (explosion : Explosion) (store : Store)

/-- A publication as it was extracted into the scratch folder; the sidecars of a file are files. -/
structure Extracted (scratch : Path) (trees : Path → Disk) (item : ExplodedItem) : Prop where
  inside : ∀ source ∈ sourcesOf item, scratch <+: source
  beside : (trees item.path).isDir = false → (sourcesOf item).Pairwise Apart ∧
    ∀ sidecar ∈ item.sidecars, (trees sidecar).isFile = true

end Statement

section Names

variable {root : Path} {libraryId sha256 filename : String} {tree : Disk} {byteSize : Nat}
  {items : List DropItem} {item : ExplodedItem}

/-- Hexadecimal digits, at least one. -/
def IsDigest (sha256 : String) : Prop := sha256 ≠ "" ∧ sha256.toList.all isHexDigit = true

/-- A file is staged if its name and the library's are safe. -/
theorem stagingPath_isSome (digest : IsDigest sha256) :
    (stagingPath root libraryId sha256 filename).isSome = true ↔
      isSafeSegment libraryId = true ∧ isSafeSegment filename = true := by
  have named : sha256.isEmpty = false := by simpa using digest.1
  unfold stagingPath sanitizeFilename
  rw [named, digest.2]
  cases isSafeSegment libraryId <;> cases isSafeSegment filename <;> simp

theorem mem_identities : (sha256, filename) ∈ identities libraryId items ↔
    ∃ row ∈ items, row.libraryId = libraryId ∧ row.sourceSha256 = sha256 ∧
      row.sourceFilename = filename := by
  simp [identities, and_assoc]

theorem findIdentity_eq_none_iff : findIdentity items libraryId sha256 filename = none ↔
    (sha256, filename) ∉ identities libraryId items := by
  simp [findIdentity, mem_identities]

theorem findIdentity_some {row : DropItem}
    (found : findIdentity items libraryId sha256 filename = some row) :
    row ∈ items ∧ row.libraryId = libraryId ∧ row.sourceSha256 = sha256 ∧
      row.sourceFilename = filename :=
  ⟨mem_of_find?_eq_some found, by simpa using find?_some found⟩

/-- A row of a new id and a new identity is inserted. -/
theorem insertItem_new {new : DropItem} (fresh : ∀ row ∈ items, row.id ≠ new.id)
    (absent : (new.sourceSha256, new.sourceFilename) ∉ identities new.libraryId items)
    (keyless : new.idempotencyKey = none) : insertItem items new = some (items ++ [new]) := by
  refine insertItem_eq_some_iff.2 ⟨fun row listed clash => ?_, rfl⟩
  rcases clash with same | ⟨library, same | ⟨keyed, -⟩⟩
  · exact fresh row listed same
  · exact absent (mem_identities.2 ⟨row, listed, library, same⟩)
  · simp [keyless] at keyed

variable [Digest]

theorem exists_hashTree (occupied : tree ≠ []) : ∃ hashed, hashTree tree = some hashed := by
  cases folder : tree.isDir with
  | true => simp [hashTree, hashDir, folder]
  | false =>
    obtain ⟨bytes, found⟩ := Option.isSome_iff_exists.1 (Files.isFile_of_not_isDir occupied folder)
    simp [hashTree, hashFile, folder, found]

theorem hashTree_some (hashed : hashTree tree = some (sha256, byteSize)) :
    tree ≠ [] ∧ IsDigest sha256 := by
  refine ⟨fun empty => ?_, ?_⟩
  · rw [empty] at hashed
    cases hashed
  unfold hashTree at hashed
  split at hashed
  · rename_i folder
    rw [hashDir, if_pos folder] at hashed
    cases hashed
    exact ⟨Digest.filled _, Digest.digits _⟩
  · obtain ⟨bytes, -, same⟩ := Option.map_eq_some_iff.1 hashed
    cases same
    exact ⟨Digest.filled _, Digest.digits _⟩

theorem identityOf_eq (hashed : hashTree tree = some (sha256, byteSize)) :
    identityOf tree item = (sha256, item.filename) := by
  simp [identityOf, hashed]

end Names

section Staging

variable {config : IngestConfig} {libraryId rest sha256 filename : String} {scratch : Path}
  {disk middle next : Disk} {source target : Path} {writes more : List (Path × Disk)}

/-- The writes leave their trees beside the scratch folder. -/
def Stands (scratch : Path) (disk : Disk) (writes : List (Path × Disk)) (next : Disk) : Prop :=
  ∀ path, path.length = scratch.length → path ≠ scratch →
    next.tree path = standing path (disk.tree path) writes

theorem Stands.trans (first : Stands scratch disk writes middle)
    (second : Stands scratch middle more next) : Stands scratch disk (writes ++ more) next := by
  intro path level other
  rw [second path level other, first path level other]
  exact foldl_append.symm

/-- A path in the scratch folder is apart from what is staged. -/
theorem apart_of_inside (inside : scratchAt config libraryId rest <+: source)
    (named : stagingPath config.stagingDir libraryId sha256 filename = some target) :
    Apart source target := by
  obtain ⟨tail, rfl⟩ := inside
  exact (stagingPath_beside named).2.below

theorem StagingOpen.staged (opened : StagingOpen config libraryId disk)
    (inside : scratchAt config libraryId rest <+: source)
    (named : stagingPath config.stagingDir libraryId sha256 filename = some target)
    (staged : stagePublication disk source target = some next) :
    StagingOpen config libraryId next :=
  opened.confined (forall_mem_singleton.2 inside) (confined_stagePublication
    (.self (.inl mem_cons_self)) (.self (.inr ⟨sha256, filename, named⟩)) staged)

variable (opened : StagingOpen config libraryId disk)
  (inside : scratchAt config libraryId rest <+: source)
  (named : stagingPath config.stagingDir libraryId sha256 filename = some target)
  (occupied : disk.tree source ≠ [])
  (whole : (disk.tree source).isFile = true → (disk.tree source).isDir = false)
include opened inside named occupied whole

/-- Staging moves the source, or drops it where something stands that it does not replace. -/
theorem stagePublication_eq :
    stagePublication disk source target = some
      (if (disk.tree target).isEmpty || ((disk.tree source).isFile && (disk.tree target).isFile)
        then disk.move source target else disk.remove source) := by
  have unblocked := isBlocked_eq_false_iff.2 (opened.unblocked named)
  have renamed : rename disk source target =
      if (disk.tree target).isEmpty || ((disk.tree source).isFile && (disk.tree target).isFile)
        then some (disk.move source target) else none := by
    rw [rename, if_neg (by simp [occupied, unblocked, (apart_of_inside inside named).1])]
  unfold stagePublication moveDirIntoStaging moveIntoStaging
  rw [renamed]
  cases folder : (disk.tree source).isDir with
  | true =>
    have file : (disk.tree source).isFile = false := by
      by_contra file
      simp [whole (by simpa using file)] at folder
    cases taken : (disk.tree target).isEmpty <;> simp [file]
  | false =>
    have file := Files.isFile_of_not_isDir occupied folder
    cases taken : (disk.tree target).isEmpty with
    | true => simp
    | false => cases (disk.tree target).isFile <;> simp [file]

/-- What one staging leaves beside the scratch folder. -/
theorem stagePublication_stands (staged : stagePublication disk source target = some next) :
    Stands (scratchAt config libraryId rest) disk
      [(stagedAt config libraryId sha256 filename, disk.tree source)] next := by
  intro path level other
  have fromSource : Apart source path := by
    obtain ⟨tail, rfl⟩ := inside
    exact (apart_of_length_eq level.symm other.symm).below
  have place : stagedAt config libraryId sha256 filename = target := by simp [stagedAt, named]
  simp only [standing, foldl_cons, foldl_nil, place]
  by_cases here : target = path
  · rw [if_pos here, ← here, settle]
    have performed := stagePublication_eq opened inside named occupied whole
    rw [staged, Option.some.injEq] at performed
    subst performed
    split
    · exact Files.tree_move_target _ _ _
    · exact Files.tree_remove_apart (here ▸ fromSource)
  · rw [if_neg here]
    have confined : Files.Confined {source, target} disk next :=
      confined_stagePublication (.self (.inl rfl)) (.self (.inr rfl)) staged
    have fromTarget : Apart target path := by
      obtain ⟨name, rfl, -⟩ := stagingPath_eq named
      exact apart_of_length_eq (by simp [level]) here
    exact confined.tree path (by simp [fromSource, fromTarget])

end Staging

section Sidecars

variable {config : IngestConfig} {libraryId rest sha256 : String} {trees : Path → Disk}
  {sidecars : List Path}

/-- The sidecars beside a file are staged unless a name is unsafe or a fault meets one of them. -/
theorem stageSidecars_spec (library : isSafeSegment libraryId = true) (digest : IsDigest sha256)
    (inside : ∀ sidecar ∈ sidecars, scratchAt config libraryId rest <+: sidecar)
    (files : ∀ sidecar ∈ sidecars, (trees sidecar).isFile = true ∧ (trees sidecar).isDir = false)
    (apart : sidecars.Pairwise Apart) {disk : Disk} (opened : StagingOpen config libraryId disk)
    (found : ∀ sidecar ∈ sidecars, disk.tree sidecar = trees sidecar) (limit : Option Nat) :
    let staged := stageSidecars config libraryId sha256 limit disk sidecars
    (staged.2.isSome = true ↔ SidecarsPass limit sidecars) ∧
      (staged.2.isSome = true → Stands (scratchAt config libraryId rest) disk
        (stagedBeside config libraryId trees sha256 sidecars) staged.1) := by
  induction sidecars generalizing disk limit with
  | nil => exact ⟨by simp [stageSidecars, SidecarsPass], fun _ _ _ _ => rfl⟩
  | cons sidecar later ih =>
    obtain ⟨here, others⟩ := forall_mem_cons.1 inside
    obtain ⟨⟨file, flat⟩, laterFiles⟩ := forall_mem_cons.1 files
    obtain ⟨same, laterFound⟩ := forall_mem_cons.1 found
    obtain ⟨fromThis, laterApart⟩ := pairwise_cons.1 apart
    obtain ⟨name, called⟩ : ∃ name, fileName sidecar = some name := by
      rw [← Option.isSome_iff_exists, fileName, getLast?_isSome]
      rintro rfl
      simp at here
    intro staged
    cases named : stagingPath config.stagingDir libraryId sha256 name with
    | none =>
      have unsafe_ : isSafeSegment name ≠ true := fun safe => by
        have some := (@stagingPath_isSome config.stagingDir libraryId sha256 name digest).2
          ⟨library, safe⟩
        simp [named] at some
      have none : staged = (disk, none) := by simp [staged, stageSidecars, called, named]
      rw [none]
      simp [SidecarsPass, called, unsafe_]
    | some target =>
      have safe := ((stagingPath_isSome digest).1 (Option.isSome_of_eq_some named)).2
      by_cases stuck : limit = some 0
      · have none : staged = (disk, none) := by
          simp [staged, stageSidecars, called, named, stuck]
        rw [none, stuck]
        simp [SidecarsPass]
      rw [← same] at file flat
      have occupied : disk.tree sidecar ≠ [] := Files.ne_nil_of_isFile file
      obtain ⟨next, moved⟩ : ∃ next, stagePublication disk sidecar target = some next :=
        ⟨_, stagePublication_eq opened here named occupied fun _ => flat⟩
      have unfolded : staged =
          ((stageSidecars config libraryId sha256 (limit.map (· - 1)) next later).1,
            (stageSidecars config libraryId sha256 (limit.map (· - 1)) next later).2.map
              (target :: ·)) := by
        have performed := moved
        rw [stagePublication, flat] at performed
        simp_all [staged, stageSidecars, Option.filter]
      have confined : Files.Confined {sidecar, target} disk next :=
        confined_stagePublication (.self (.inl rfl)) (.self (.inr rfl)) moved
      have kept : ∀ other ∈ later, next.tree other = trees other := by
        intro other listed
        rw [← laterFound other listed]
        have fromTarget := (apart_of_inside (others other listed) named).symm
        exact confined.tree other (by simp [fromThis other listed, fromTarget])
      have beside := ih others laterFiles laterApart
        (opened.staged here named moved) kept (limit.map (· - 1))
      rw [unfolded, Option.isSome_map]
      refine ⟨beside.1.trans ?_, fun ran => ?_⟩
      · unfold SidecarsPass
        rw [forall_mem_cons, called]
        cases limit with
        | none => simp [safe]
        | some count =>
          have positive : count ≠ 0 := fun zero => stuck (by rw [zero])
          simp only [Option.map_some, Option.mem_some, forall_eq', length_cons, safe, true_and]
          exact and_congr_right fun _ => by omega
      · have first := stagePublication_stands opened here named occupied (fun _ => flat) moved
        rw [same] at first
        rw [stagedBeside, map_cons, called]
        exact first.trans (beside.2 ran)

end Sidecars

section Admission

variable [Digest] {config : IngestConfig} {libraryId rest : String} {disk : Disk}
  {item : ExplodedItem}
  {visit : Visit} {store : Store} {trees : Path → Disk}

/-- The publication waits in the scratch folder as it was extracted. -/
structure Ready (config : IngestConfig) (libraryId rest : String) (trees : Path → Disk)
    (disk : Disk) (item : ExplodedItem) : Prop
    extends Extracted (scratchAt config libraryId rest) trees item where
  opened : StagingOpen config libraryId disk
  whole : ∀ source ∈ sourcesOf item, (trees source).isFile = true → (trees source).isDir = false
  found : ∀ source ∈ sourcesOf item, disk.tree source = trees source

variable (ready : Ready config libraryId rest trees store.disk item)
include ready

omit [Digest] in
/-- The sidecars of a publication that was staged. -/
theorem Ready.stageBeside {sha256 : String} (digest : IsDigest sha256) {target : Path}
    (named : stagingPath config.stagingDir libraryId sha256 item.filename = some target)
    {middle : Disk} (performed : stagePublication store.disk item.path target = some middle)
    (fault : Option AdmitFault) :
    let beside :=
      stageBeside config libraryId sha256 item (trees item.path).isDir target fault middle
    (beside.2.isSome = true ↔ (trees item.path).isDir = true ∨
      SidecarsPass (AdmitFault.sidecarLimit fault) item.sidecars) ∧
    (beside.2.isSome = true → Stands (scratchAt config libraryId rest) middle
      (if (trees item.path).isDir then []
        else stagedBeside config libraryId trees sha256 item.sidecars) beside.1) := by
  unfold Ingest.stageBeside
  cases folder : (trees item.path).isDir with
  | true => exact ⟨by simp, fun _ _ _ _ => rfl⟩
  | false =>
    obtain ⟨apart, files⟩ := ready.beside folder
    obtain ⟨fromItem, between⟩ := pairwise_cons.1 apart
    obtain ⟨here, inside⟩ := forall_mem_cons.1 ready.inside
    have library := ((stagingPath_isSome digest).1 (Option.isSome_of_eq_some named)).1
    have confined : Files.Confined {item.path, target} store.disk middle :=
      confined_stagePublication (.self (.inl rfl)) (.self (.inr rfl)) performed
    have kept : ∀ sidecar ∈ item.sidecars, middle.tree sidecar = trees sidecar := by
      intro sidecar listed
      rw [← ready.found sidecar (mem_cons_of_mem _ listed)]
      have fromTarget := (apart_of_inside (inside sidecar listed) named).symm
      exact confined.tree sidecar (by simp [fromItem sidecar listed, fromTarget])
    have spec := stageSidecars_spec library digest inside
      (fun sidecar listed => ⟨files sidecar listed,
        ready.whole sidecar (mem_cons_of_mem _ listed) (files sidecar listed)⟩)
      between (ready.opened.staged here named performed) kept (AdmitFault.sidecarLimit fault)
    simpa using spec

/-- An admission succeeds exactly when no fault meets it and the names are safe. -/
theorem admitExploded_isSome (dropGroupId : String) (containerDirectory : Option String)
    (fresh : ∀ row ∈ store.items, row.id ≠ visit.itemId) :
    (admitExploded config libraryId dropGroupId containerDirectory visit store item).2.isSome =
      true ↔
      Admits libraryId (identities libraryId store.items) (trees item.path) item visit := by
  have here := ready.found item.path mem_cons_self
  unfold admitExploded Admits
  rw [here]
  by_cases occupied : trees item.path = []
  · have none : hashTree ([] : Disk) = none := rfl
    simp [occupied, none]
  obtain ⟨⟨sha256, byteSize⟩, hashed⟩ := exists_hashTree occupied
  have digest := (hashTree_some hashed).2
  rw [identityOf_eq hashed, hashed]
  by_cases hashing : visit.fault = some .hashing
  · simp [hashing, Option.filter]
  by_cases lookup : visit.fault = some .identity
  · simp [lookup, Option.filter]
  simp only [Option.filter, hashing, lookup, occupied, ne_eq, not_false_eq_true, decide_true,
    if_true, if_false, true_and]
  cases found : findIdentity store.items libraryId sha256 item.filename with
  | some existing =>
    have known := mem_identities.2 ⟨existing, findIdentity_some found⟩
    simp [known]
  | none =>
    have absent := findIdentity_eq_none_iff.1 found
    simp only [absent, false_or]
    have names := @stagingPath_isSome config.stagingDir libraryId sha256 item.filename digest
    cases named : stagingPath config.stagingDir libraryId sha256 item.filename with
    | none =>
      rw [named] at names
      simp only [Option.isSome_none, Bool.false_eq_true, false_iff] at names ⊢
      exact fun ⟨_, _, library, name, _⟩ => names ⟨library, name⟩
    | some target =>
      obtain ⟨library, name⟩ := names.1 (Option.isSome_of_eq_some named)
      by_cases staging : visit.fault = some .staging
      · simp [staging]
      obtain ⟨middle, performed⟩ : ∃ middle,
          stagePublication store.disk item.path target = some middle :=
        ⟨_, stagePublication_eq ready.opened (ready.inside _ mem_cons_self) named (here ▸ occupied)
          (here ▸ ready.whole _ mem_cons_self)⟩
      simp only [staging, not_false_eq_true, decide_true, if_true, performed, library, name,
        true_and, ← (ready.stageBeside digest named performed visit.fault).1]
      cases stageBeside config libraryId sha256 item (trees item.path).isDir target
          visit.fault middle with
      | mk final sidecars =>
        cases sidecars with
        | none => simp
        | some sidecars =>
          dsimp only
          rw [insertItem_new fresh absent rfl]
          by_cases insert : visit.fault = some .insert <;> simp [insert]

end Admission

section Result

variable {config : IngestConfig} {libraryId rest : String} {file : DropFile} {store : Store}
  {explosion : Explosion}

theorem StagingOpen.extracted (opened : StagingOpen config libraryId store.disk)
    (explosion : Explosion) :
    StagingOpen config libraryId (extractedStore config libraryId explosion store).disk := by
  intro entry listed above
  rcases Files.mem_plant.1 listed with ⟨old, -⟩ | ⟨new, -, rfl⟩
  · exact opened entry old above
  · have shorter := above.length_le
    simp only [scratchPath, length_append, length_cons, length_nil] at shorter
    omega

end Result

section Samples

def sampleConfig : IngestConfig := ⟨["staging"], ["drop"]⟩

end Samples

end Coppice.Ingest
