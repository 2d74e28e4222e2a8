import Coppice.Ingest.Custody

/-!
# Approved items

The steps of an approval, one lemma each, and what they keep together: every media row has its
own item's bytes, and an approval that fails leaves its item as it was.
-/

namespace Coppice.Ingest

open Coppice.Std List

/-- What one step of an approval keeps. -/
structure Advances (libraryRoot : Path) (start : Registry) (pool : Pool Registry Approving)
    (task task' : Approving) (next : Registry) : Prop where
  reaches : Reaches libraryRoot start pool task task' next
  kept : RegistryKept libraryRoot start next
  custody : task'.Custody libraryRoot start next
  rest : ∀ item, task' = .failed item → LeftAlone start next item

variable {libraryRoot : Path} {start : Registry} {pool : Pool Registry Approving}

section Steps

variable {task task' : Approving} {transit : Transit} {item : DropItem} {result : DbResult}
  {name id : String} {target source : Path} {registry : Registry} {rest : List Path}
  {expectedRevision : Nat} {disk : Disk}

/-- An approval that stops before it has moved anything, or after everything is back. -/
theorem Advances.give_up (layout : Layout libraryRoot start)
    (kept : RegistryKept libraryRoot start pool.shared) (holds : task.holder = some item.id)
    (listed : item ∈ start.items) (resting : Resting start pool.shared item) :
    Advances libraryRoot start pool task (.failed item) (pool.shared.release item.id) where
  reaches := Reaches.release holds rfl rfl
  kept := kept.release layout listed resting
  custody := ⟨trivial, forall_mem_nil _, forall_mem_nil _⟩
  rest := fun same failed => by
    cases failed
    have still : Resting start (pool.shared.release item.id) item := ⟨resting.row, resting.homes⟩
    exact ⟨resting.row, fun _ => still.atRest layout listed⟩

/-- A step that only changes what the approval does next. -/
theorem Advances.idle (kept : RegistryKept libraryRoot start pool.shared)
    (custody : task.Custody libraryRoot start pool.shared)
    (holder : ∀ id, task'.holder = some id → task.holder = some id)
    (placed : ∀ path ∈ task'.placed, path ∈ task.placed)
    (knows : task'.Knows libraryRoot start pool.shared)
    (rest : ∀ item, task' = .failed item → LeftAlone start pool.shared item := by simp) :
    Advances libraryRoot start pool task task' pool.shared where
  reaches := Reaches.idle holder placed
  kept := kept
  custody := ⟨knows, fun path at_ => custody.library path (placed path at_),
    fun path at_ => custody.media path (placed path at_)⟩
  rest := rest

/-- An item nobody has in hand and that is not committed is at rest. -/
theorem resting_of_loaded (kept : RegistryKept libraryRoot start pool.shared)
    (loaded : lookup DropItem.id pool.shared.items id = some item) (free : id ∉ pool.shared.hand)
    (pending : item.status ≠ .committed) : item ∈ start.items ∧ Resting start pool.shared item := by
  obtain ⟨first, listed, rfl⟩ := kept.known id item loaded
  rcases kept.unheld first listed free with resting | ⟨current, found, committed⟩
  · cases Option.mem_unique loaded resting.row
    exact ⟨listed, resting⟩
  · cases Option.mem_unique loaded found
    exact absurd committed pending

theorem checkItem_eq
    (checked : checkItem libraryRoot registry expectedRevision item = some transit) :
    transit.item = item ∧ transit.moved = [] ∧ item.status ≠ .committed ∧
      registry.disk.tree item.stagingPath ≠ [] ∧
        ∃ folder name, transit.destination = libraryRoot ++ folder ++ [name] := by
  unfold checkItem at checked
  split at checked
  · rename_i allowed
    obtain ⟨destination, found, checked⟩ := Option.bind_eq_some_iff.1 checked
    dsimp only at checked
    split at checked
    · cases checked
    rename_i occupied
    cases checked
    simp only [approvable, Bool.and_eq_true, decide_eq_true_eq] at allowed
    exact ⟨rfl, rfl, allowed.1.1.2, by simpa using occupied, destinationOf_eq found⟩
  · cases checked

/-- A path a step may move to is in the library. -/
theorem Holding.library (holding : Holding libraryRoot start registry transit) :
    libraryRoot <+: transit.destination ∧ libraryRoot <+: transit.folder := by
  obtain ⟨folder, name, same⟩ := holding.destination
  rw [Transit.folder, same, dropLast_concat, append_assoc]
  exact ⟨prefix_append _ _, prefix_append _ _⟩

theorem Arrived.sorted (arrived : Arrived start registry transit) {sorted : List Path}
    (same : sorted.Perm transit.moved) :
    Arrived start registry { transit with moved := sorted } := by
  obtain ⟨nodup, beside, home⟩ := arrived.sidecars
  refine ⟨arrived.file, arrived.gone, ⟨same.nodup_iff.2 nodup, fun target listed => ?_, ?_⟩,
    fun target listed => arrived.apart target (same.mem_iff.1 listed)⟩
  · obtain ⟨source, name, there⟩ := beside target (same.mem_iff.1 listed)
    exact ⟨source, name, { there with }⟩
  · intro source outer absent
    exact home source outer fun name named => fun listed =>
      absent name named (same.mem_iff.2 listed)

/-- A sidecar that is still there once the publication has moved was not inside it. -/
theorem Arrived.outer (layout : Layout libraryRoot start) (arrived : Arrived start registry transit)
    (listed : transit.item ∈ start.items) (member : source ∈ transit.item.sidecarPaths)
    (occupied : registry.disk.tree source ≠ []) : source ∈ outerSidecars transit.item := by
  rcases layout.inside _ listed source member with apart | ⟨rest, rfl⟩
  · exact mem_filter.2 ⟨member, decide_eq_true apart⟩
  · rw [Files.tree_below, arrived.gone] at occupied
    exact absurd rfl occupied

theorem Arrived.beside (layout : Layout libraryRoot start)
    (holding : Holding libraryRoot start registry transit)
    (arrived : Arrived start registry transit)
    (outer : source ∈ outerSidecars transit.item) (named : fileName source = some name)
    (occupied : registry.disk.tree source ≠ [])
    (apart : ∀ other ∈ transit.destination :: transit.moved, Apart (transit.folder ++ [name]) other)
    (moved : disk = registry.disk.move source (transit.folder ++ [name])) :
    Arrived start { registry with disk }
      { transit with moved := transit.moved ++ [transit.folder ++ [name]] } := by
  have inside : libraryRoot <+: transit.folder ++ [name] :=
    holding.library.2.trans (prefix_append _ _)
  have carries : Carries libraryRoot start registry transit.item source (transit.folder ++ [name])
      disk := ⟨holding.listed, mem_homes_outer outer, inside, .inl moved⟩
  have fresh : transit.folder ++ [name] ∉ transit.moved := fun listed =>
    (apart _ (mem_cons_of_mem _ listed)).ne rfl
  have gone : disk.tree source = [] := by
    rw [moved]
    exact Files.tree_move_source (carries.apart layout).symm
  obtain ⟨nodup, beside, home⟩ := arrived.sidecars
  have whole : registry.disk.tree source = start.disk.tree source :=
    home source outer fun other same => by
      cases Option.mem_unique named same
      exact fresh
  refine ⟨?_, ?_, ⟨?_, fun target listed => ?_, fun other staged absent => ?_⟩,
    fun target listed => ?_⟩
  · exact (carries.tree_library layout holding.library.1 (apart _ mem_cons_self)).trans
      arrived.file
  · exact (carries.tree_home layout holding.listed (mem_homes_self _)
      (.inr (outer_apart outer).ne)).trans arrived.gone
  · exact nodup_append.2 ⟨nodup, nodup_singleton _, fun old listed new only same =>
      fresh (mem_singleton.1 only ▸ same ▸ listed)⟩
  · rcases mem_append.1 listed with old | new
    · -- what stood beside the publication before was moved from somewhere else
      obtain ⟨earlier, label, there⟩ := beside target old
      have inFolder : libraryRoot <+: target :=
        there.place ▸ holding.library.2.trans (prefix_append _ _)
      have differ : source ≠ earlier := fun same => occupied (same ▸ there.gone)
      refine ⟨earlier, label, { there with bytes := ?_, gone := ?_ }⟩
      · exact (carries.tree_library layout inFolder (apart _ (mem_cons_of_mem _ old))).trans
          there.bytes
      · exact (carries.tree_home layout holding.listed (mem_homes_outer there.outer)
          (.inr differ)).trans there.gone
    · cases mem_singleton.1 new
      refine ⟨source, name, outer, named, rfl, ?_, whole ▸ occupied, gone⟩
      rw [← whole, moved]
      exact Files.tree_move_target _ _ _
  · have differ : source ≠ other := fun same =>
      absent name (same ▸ named) (mem_append_right _ (mem_singleton.2 rfl))
    exact (carries.tree_home layout holding.listed (mem_homes_outer staged) (.inr differ)).trans
      (home other staged fun label same listed => absent label same (mem_append_left _ listed))
  · rcases mem_concat.1 listed with old | rfl
    · exact arrived.apart target old
    · exact apart _ mem_cons_self

theorem lookup_record_self (holding : Holding libraryRoot start registry transit)
    (mediaId : String) :
    lookup DropItem.id (registry.record transit mediaId).items transit.item.id =
      some (commitColumns transit.item mediaId transit.moved transit.item) := by
  have updated := @lookup_updateAt_self _ _ _ DropItem.id registry.items transit.item.id
    (commitColumns transit.item mediaId transit.moved) fun _ same => same
  rw [holding.row] at updated
  exact updated

theorem lookup_record_of_ne (differ : id ≠ transit.item.id) (mediaId : String) :
    lookup DropItem.id (registry.record transit mediaId).items id =
      lookup DropItem.id registry.items id :=
  lookup_updateAt_of_ne (fun _ same => same) differ

section Recording

variable (kept : RegistryKept libraryRoot start registry)
  (holding : Holding libraryRoot start registry transit)
include kept holding

/-- An item in hand has no media row yet. -/
theorem Holding.unrecorded {row : MediaRow}
    (recorded : row ∈ registry.media) : row.origin ≠ transit.item.id := by
  intro same
  obtain ⟨current, found, committed, -⟩ := kept.own.committed row recorded
  rw [same, holding.row] at found
  cases found
  exact holding.pending committed

theorem OwnBytes.record (arrived : Arrived start registry transit) (mediaId : String) :
    OwnBytes start (registry.record transit mediaId) := by
  have rows : ∀ row ∈ (registry.record transit mediaId).media, row ∈ registry.media ∨
      row = ⟨mediaId, transit.destination, transit.item.id⟩ := fun row => mem_concat.1
  refine ⟨fun row recorded => ?_, fun row recorded => ?_,
    nodup_concat kept.own.once fun row recorded => holding.unrecorded kept recorded⟩
  · rcases rows row recorded with old | rfl
    · rw [lookup_record_of_ne (holding.unrecorded kept old)]
      exact kept.own.committed row old
    · exact ⟨_, lookup_record_self holding mediaId, rfl, rfl⟩
  · rcases rows row recorded with old | rfl
    · exact kept.own.bytes row old
    · exact ⟨transit.item, holding.listed, rfl, arrived.file⟩

theorem RegistryKept.commit (arrived : Arrived start registry transit) (mediaId : String) :
    RegistryKept libraryRoot start ((registry.record transit mediaId).release transit.item.id) where
  own :=
    have own := OwnBytes.record kept holding arrived mediaId
    ⟨own.committed, own.bytes, own.once⟩
  library := forall_mem_concat kept.library holding.library.1
  known := fun id item found => by
    by_cases same : id = transit.item.id
    · exact ⟨transit.item, holding.listed, same.symm⟩
    · exact kept.known id item ((lookup_record_of_ne same mediaId).symm.trans found)
  unheld := fun other listed free => by
    by_cases same : other.id = transit.item.id
    · rw [same]
      exact .inr ⟨_, lookup_record_self holding mediaId, rfl⟩
    have absent : other.id ∉ registry.hand := fun held =>
      free (mem_filter.2 ⟨held, decide_eq_true same⟩)
    have row : lookup DropItem.id (registry.record transit mediaId).items other.id = _ :=
      lookup_record_of_ne same mediaId
    rcases kept.unheld other listed absent with resting | ⟨current, found, committed⟩
    · exact .inl ⟨row.trans resting.row, resting.homes⟩
    · exact .inr ⟨current, row.trans found, committed⟩
  unblocked := kept.unblocked

end Recording

/-- A sidecar is moved back to where it came from: no other sidecar of the item has its name. -/
theorem restoreSidecar_eq (layout : Layout libraryRoot start)
    (kept : RegistryKept libraryRoot start registry)
    (holding : Holding libraryRoot start registry transit)
    (there : Beside start registry transit target source name) :
    restoreSidecar transit.item.sidecarPaths registry.disk target =
      registry.disk.move target source := by
  have home := mem_homes_outer there.outer
  have label : fileName target = some name := by
    rw [there.place]
    exact getLast?_concat
  have found : transit.item.sidecarPaths.find? (fun original =>
    fileName original = fileName target) =
      some source := by
    cases search : transit.item.sidecarPaths.find? fun original =>
        fileName original = fileName target with
    | none =>
      have missing := find?_eq_none.1 search source (mem_of_outer there.outer)
      exact absurd (decide_eq_true (there.named.trans label.symm)) missing
    | some original =>
      have named : fileName original = fileName target := by simpa using find?_some search
      rw [layout.names _ holding.listed source there.outer original
        (mem_of_find?_eq_some search) (there.named.trans (label.symm.trans named.symm))]
  have inside : libraryRoot <+: target :=
    there.place ▸ holding.library.2.trans (prefix_append _ _)
  have renamed : moveFile registry.disk target source = _ :=
    rename_of_free (there.bytes ▸ there.occupied) there.gone
      (kept.unblocked _ holding.listed _ home) (layout.home_library holding.listed home inside)
  unfold restoreSidecar
  rw [found]
  dsimp only
  rw [renamed]
  rfl

/-- One sidecar back home, the others as they were. -/
theorem SidecarsAt.restore (layout : Layout libraryRoot start)
    (holding : Holding libraryRoot start registry transit)
    (at_ : SidecarsAt start registry transit (target :: rest))
    (there : Beside start registry transit target source name)
    (carries : Carries libraryRoot start registry transit.item source target
      (registry.disk.move target source)) :
    SidecarsAt start { registry with disk := registry.disk.move target source } transit rest := by
  have unlisted := (nodup_cons.1 at_.nodup).1
  refine ⟨(nodup_cons.1 at_.nodup).2, fun other listed => ?_, fun other outer absent => ?_⟩
  · obtain ⟨origin, label, beside⟩ := at_.beside other (mem_cons_of_mem _ listed)
    have differ : name ≠ label := by
      rintro rfl
      exact unlisted (there.place.trans beside.place.symm ▸ listed)
    have elsewhere : source ≠ origin := fun same =>
      differ (Option.some.inj (there.named.symm.trans (same ▸ beside.named)))
    have inside : libraryRoot <+: other :=
      beside.place ▸ holding.library.2.trans (prefix_append _ _)
    have apart : Apart target other := by
      rw [there.place, beside.place]
      exact apart_concat differ
    exact ⟨origin, label, { beside with
      bytes := (carries.tree_library layout inside apart).trans beside.bytes
      gone := (carries.tree_home layout holding.listed (mem_homes_outer beside.outer)
        (.inr elsewhere)).trans beside.gone }⟩
  · by_cases same : source = other
    · subst same
      exact (Files.tree_move_target _ _ _).trans there.bytes
    have still := at_.home other outer fun label named listed => by
      rcases mem_cons.1 listed with here | later
      · have equal : label = name := by simpa [there.place] using here
        exact same (layout.names _ holding.listed source there.outer other (mem_of_outer outer)
          (there.named.trans (equal ▸ named.symm)))
      · exact absent label named later
    exact (carries.tree_home layout holding.listed (mem_homes_outer outer) (.inr same)).trans still

section Advancing

variable (layout : Layout libraryRoot start) (kept : RegistryKept libraryRoot start pool.shared)
  (custody : task.Custody libraryRoot start pool.shared) {next : Registry}
include layout kept custody

/-- A step that moves a file of its item to a free path of the library, or back from its own. -/
theorem Advances.carry {home path : Path}
    (carries : Carries libraryRoot start pool.shared item home path disk)
    (hand : item.id ∈ pool.shared.hand) (holds : task.holder = some item.id)
    (still : task'.holder = some item.id)
    (own : path ∈ task.placed ∨ Clear pool path ∧ path ∈ task'.placed)
    (placed : ∀ other ∈ task'.placed, other ∈ task.placed ∨ other = path)
    (knows : task'.Knows libraryRoot start { pool.shared with disk }) :
    Advances libraryRoot start pool task task' { pool.shared with disk } := by
  have media : ∀ row ∈ pool.shared.media, Apart path row.path :=
    own.elim (custody.media path) (·.1.media)
  refine ⟨carries.reaches layout holds still (own.imp_right And.right) fun other at_ => ?_,
    carries.kept layout kept hand media, ⟨knows, fun other at_ => ?_, fun other at_ => ?_⟩, ?_⟩
  · rcases placed other at_ with old | rfl
    · exact .inl old
    · exact own.imp_right And.left
  · rcases placed other at_ with old | rfl
    · exact custody.library other old
    · exact carries.library
  · rcases placed other at_ with old | rfl
    · exact custody.media other old
    · exact media
  · rintro _ rfl
    cases still

variable (performed : Approving.advance libraryRoot result task pool.shared = some (next, task'))
include performed

theorem advance_call {itemId : String}
    (here : task = .call itemId expectedRevision) (free : itemId ∉ pool.shared.hand) :
    Advances libraryRoot start pool task task' next := by
  subst here
  unfold Approving.advance at performed
  dsimp only at performed
  split at performed
  · rename_i item loaded
    have named := lookup_key loaded
    split at performed
    · cases performed
      refine Advances.idle kept custody (fun _ held => by cases held) (forall_mem_nil _) trivial ?_
      intro other same
      cases same
      refine ⟨named ▸ loaded, fun pending => ?_⟩
      obtain ⟨listed, resting⟩ := resting_of_loaded kept loaded free pending
      exact resting.atRest layout listed
    · rename_i transit checked
      cases performed
      obtain ⟨rfl, unmoved, pending, occupied, destination⟩ := checkItem_eq checked
      obtain ⟨listed, resting⟩ := resting_of_loaded kept loaded free pending
      subst named
      refine ⟨⟨fun _ _ => rfl, fun _ _ => mem_cons_of_mem _, fun _ _ _ _ _ => rfl,
        fun _ _ _ _ => rfl, fun _ => .inl, ?_, forall_mem_nil _⟩,
        kept.take _, ⟨⟨⟨listed, loaded, mem_cons_self, pending, ?_, destination⟩,
          ⟨resting.row, resting.homes⟩, unmoved⟩, forall_mem_nil _,
          forall_mem_nil _⟩, by simp⟩
      · intro id held
        cases held
        exact .inr free
      · rw [← resting.homes _ (mem_homes_self _)]
        exact occupied
  · cases performed
    exact Advances.idle kept custody (fun _ held => by cases held) (forall_mem_nil _) trivial

theorem advance_checked (here : task = .checked transit) :
    Advances libraryRoot start pool task task' next := by
  subst here
  obtain ⟨holding, resting, unmoved⟩ := custody.knows
  unfold Approving.advance at performed
  dsimp only at performed
  split at performed <;> cases performed
  · exact Advances.idle kept custody (fun _ => id) (fun _ => id) ⟨holding, resting, unmoved⟩
  · exact Advances.give_up layout kept rfl holding.listed resting

theorem advance_tested (here : task = .tested transit) (clear : Clear pool transit.destination) :
    Advances libraryRoot start pool task task' next := by
  subst here
  obtain ⟨holding, resting, unmoved⟩ := custody.knows
  unfold Approving.advance at performed
  dsimp only at performed
  split at performed
  · cases performed
    exact Advances.give_up layout kept rfl holding.listed resting
  rename_i open_
  simp only [Bool.or_eq_true, not_or, Bool.not_eq_true] at open_
  have home := mem_homes_self transit.item
  have apart := layout.home_library holding.listed home holding.library.1
  have file := resting.homes _ home
  have occupied : pool.shared.disk.tree transit.item.stagingPath ≠ [] := file ▸ holding.occupied
  have moved : moveTarget transit.stagedIsDir pool.shared.disk transit.item.stagingPath
      transit.destination = _ :=
    moveTarget_of_free occupied clear.free (isBlocked_eq_false_iff.1 open_.2) apart.symm
  rw [moved, if_pos rfl] at performed
  cases performed
  have carries : Carries libraryRoot start pool.shared transit.item transit.item.stagingPath
      transit.destination (pool.shared.disk.move transit.item.stagingPath transit.destination) :=
    ⟨holding.listed, home, holding.library.1, .inl rfl⟩
  refine Advances.carry layout kept custody carries holding.hand rfl rfl
    (.inr ⟨clear, mem_cons_self⟩) (fun path at_ => .inr ?_) ⟨?_, ?_, ?_⟩
  · rw [Approving.placed, unmoved] at at_
    exact mem_singleton.1 at_
  · exact holding.frame rfl holding.hand
  · refine ⟨(Files.tree_move_target _ _ _).trans file, Files.tree_move_source apart.symm, ?_, ?_⟩
    · rw [unmoved]
      refine ⟨nodup_nil, forall_mem_nil _, fun source outer _ => ?_⟩
      have differ : transit.item.stagingPath ≠ source := (outer_apart outer).symm.ne
      exact (carries.tree_home layout holding.listed (mem_homes_outer outer) (.inr differ)).trans
        (resting.homes source (mem_homes_outer outer))
    · rw [unmoved]
      exact forall_mem_nil _
  · split
    · exact forall_mem_nil _
    · exact fun _ => id

omit layout in
theorem advance_sidecars (here : task = .sidecars transit rest) :
    Advances libraryRoot start pool task task' next := by
  subst here
  obtain ⟨holding, arrived, sources⟩ := custody.knows
  cases rest with
  | nil =>
    cases performed
    have same := mergeSort_perm transit.moved fun left right => pathText left ≤ pathText right
    refine Advances.idle kept custody (fun _ => id) (fun path at_ => ?_)
      ⟨{ holding with }, arrived.sorted same⟩
    exact (mem_cons.1 at_).elim (fun here => here ▸ mem_cons_self) fun listed =>
      mem_cons_of_mem _ (same.mem_iff.1 listed)
  | cons source rest =>
    unfold Approving.advance at performed
    dsimp only at performed
    split at performed
    · cases performed
      exact Advances.idle kept custody (fun _ => id) (fun _ => id)
        ⟨holding, arrived, (forall_mem_cons.1 sources).2⟩
    · rename_i name found
      cases performed
      exact Advances.idle kept custody (fun _ => id) (fun _ => id)
        ⟨holding, arrived, (Option.filter_eq_some_iff.1 found).1, sources⟩

theorem advance_sidecarTested (here : task = .sidecarTested transit source name rest)
    (running : task ∈ pool.threads) (clear : Clear pool (transit.folder ++ [name])) :
    Advances libraryRoot start pool task task' next := by
  subst here
  obtain ⟨holding, arrived, named, sources⟩ := custody.knows
  unfold Approving.advance at performed
  dsimp only at performed
  split at performed
  · cases performed
    exact Advances.idle kept custody (fun _ => id) (fun _ => id)
      ⟨holding, arrived, (forall_mem_cons.1 sources).2⟩
  rename_i disk renamed
  cases performed
  cases rename_eq renamed
  have outer := arrived.outer layout holding.listed (sources source mem_cons_self)
    (rename_occupied renamed)
  have home := mem_homes_outer outer
  have inside : libraryRoot <+: transit.folder ++ [name] :=
    holding.library.2.trans (prefix_append _ _)
  have carries : Carries libraryRoot start pool.shared transit.item source
      (transit.folder ++ [name]) (pool.shared.disk.move source (transit.folder ++ [name])) :=
    ⟨holding.listed, home, inside, .inl rfl⟩
  refine Advances.carry layout kept custody carries holding.hand rfl rfl
    (.inr ⟨clear, by simp [Approving.placed]⟩) (fun path at_ => ?_) ⟨?_, ?_, ?_⟩
  · rwa [Approving.placed, ← cons_append, mem_append, mem_singleton] at at_
  · exact { holding with }
  · exact arrived.beside layout holding outer named (rename_occupied renamed)
      (clear.placed _ running) rfl
  · exact (forall_mem_cons.1 sources).2

omit layout in
theorem advance_commit (here : task = .commit transit) :
    Advances libraryRoot start pool task task' next := by
  subst here
  obtain ⟨holding, arrived⟩ := custody.knows
  cases result with
  | fails =>
    cases performed
    exact Advances.idle kept custody (fun _ => id) (fun _ => id) ⟨holding, arrived⟩
  | fine mediaId =>
    cases performed
    refine ⟨⟨fun id notOurs => ?_, fun id notOurs held => ?_, fun _ _ _ _ _ => rfl,
      fun _ _ _ _ => rfl, fun row recorded => ?_, fun _ held => (by cases held),
      forall_mem_nil _⟩, kept.commit holding arrived mediaId,
      ⟨trivial, forall_mem_nil _,
        forall_mem_nil _⟩, by simp⟩
    · have differ : id ≠ transit.item.id := fun same => notOurs (same ▸ rfl)
      exact lookup_record_of_ne differ mediaId
    · have differ : id ≠ transit.item.id := fun same => notOurs (same ▸ rfl)
      exact mem_filter.2 ⟨held, decide_eq_true differ⟩
    · rcases mem_concat.1 recorded with old | rfl
      · exact .inl old
      · exact .inr mem_cons_self

theorem advance_restoring (here : task = .restoring transit) :
    Advances libraryRoot start pool task task' next := by
  subst here
  obtain ⟨holding, arrived⟩ := custody.knows
  have home := mem_homes_self transit.item
  have apart := layout.home_library holding.listed home holding.library.1
  have moved : moveTarget transit.stagedIsDir pool.shared.disk transit.destination
      transit.item.stagingPath = _ :=
    moveTarget_of_free (arrived.file ▸ holding.occupied) arrived.gone
      (kept.unblocked _ holding.listed _ home) apart
  unfold Approving.advance at performed
  dsimp only at performed
  rw [moved] at performed
  cases performed
  have carries : Carries libraryRoot start pool.shared transit.item transit.item.stagingPath
      transit.destination (pool.shared.disk.move transit.destination transit.item.stagingPath) :=
    ⟨holding.listed, home, holding.library.1, .inr rfl⟩
  have back : ∀ path ∈ transit.moved, path ∈ transit.destination :: transit.moved :=
    fun _ => mem_cons_of_mem _
  refine Advances.carry layout kept custody carries holding.hand rfl rfl (.inl mem_cons_self)
    (fun path at_ => .inl (back path at_)) ⟨holding.frame rfl holding.hand, ?_, ?_⟩
  · exact (Files.tree_move_target _ _ _).trans arrived.file
  obtain ⟨nodup, beside, staged⟩ := arrived.sidecars
  have outside : ∀ source ∈ outerSidecars transit.item,
      (pool.shared.disk.move transit.destination transit.item.stagingPath).tree source =
        pool.shared.disk.tree source := fun source outer =>
    carries.tree_home layout holding.listed (mem_homes_outer outer)
      (.inr (outer_apart outer).symm.ne)
  refine ⟨nodup, fun target listed => ?_, fun source outer absent => ?_⟩
  · obtain ⟨source, name, there⟩ := beside target listed
    have kept := carries.tree_library layout (custody.library _ (back _ listed))
      (arrived.apart target listed).symm
    exact ⟨source, name, { there with
      bytes := kept.trans there.bytes
      gone := (outside source there.outer).trans there.gone }⟩
  · exact (outside source outer).trans (staged source outer absent)

theorem advance_restoringSidecars (here : task = .restoringSidecars transit rest) :
    Advances libraryRoot start pool task task' next := by
  subst here
  obtain ⟨holding, file, sidecars⟩ := custody.knows
  cases rest with
  | nil =>
    cases performed
    refine Advances.give_up layout kept rfl holding.listed ⟨holding.row,
      forall_mem_cons.2 ⟨file, ?_⟩⟩
    exact fun home outer => sidecars.home home outer fun _ _ => not_mem_nil
  | cons target rest =>
    obtain ⟨source, name, there⟩ := sidecars.beside target mem_cons_self
    unfold Approving.advance at performed
    dsimp only at performed
    rw [restoreSidecar_eq layout kept holding there] at performed
    cases performed
    have carries : Carries libraryRoot start pool.shared transit.item source target
        (pool.shared.disk.move target source) :=
      ⟨holding.listed, mem_homes_outer there.outer, custody.library target mem_cons_self,
        .inr rfl⟩
    have still := carries.tree_home layout holding.listed (mem_homes_self _)
      (.inr (outer_apart there.outer).ne)
    exact Advances.carry layout kept custody carries holding.hand rfl rfl (.inl mem_cons_self)
      (fun path at_ => .inl (mem_cons_of_mem _ at_)) ⟨holding.frame rfl holding.hand,
        still.trans file, sidecars.restore layout holding there carries⟩

omit layout in
theorem advance_committed (here : task = .committed item) (fine : result ≠ .fails) :
    Advances libraryRoot start pool task task' next := by
  subst here
  cases result with
  | fails => exact absurd rfl fine
  | fine mediaId =>
    cases performed
    exact Advances.idle kept custody (fun _ held => by cases held) (fun _ => id) trivial

/-- Every unhindered step keeps the custody of its item. -/
theorem advances (running : task ∈ pool.threads) (unhindered : task.Unhindered pool result) :
    Advances libraryRoot start pool task task' next := by
  cases task with
  | call => exact advance_call layout kept custody performed rfl unhindered
  | checked => exact advance_checked layout kept custody performed rfl
  | tested => exact advance_tested layout kept custody performed rfl unhindered
  | sidecars => exact advance_sidecars kept custody performed rfl
  | sidecarTested =>
    exact advance_sidecarTested layout kept custody performed rfl running unhindered
  | commit => exact advance_commit kept custody performed rfl
  | restoring => exact advance_restoring layout kept custody performed rfl
  | restoringSidecars => exact advance_restoringSidecars layout kept custody performed rfl
  | committed => exact advance_committed kept custody performed rfl unhindered
  | failed _ | succeeded | ended => cases performed

end Advancing

end Steps

section Runs

variable {next : Pool Registry Approving}

theorem inCustody_fresh (layout : Layout libraryRoot start) (fresh : Fresh start pool) :
    InCustody libraryRoot start pool := by
  obtain ⟨media, hand, rfl⟩ := fresh
  refine ⟨⟨⟨?_, ?_, ?_⟩, ?_, ?_, ?_, layout.unblocked⟩, fun _ _ none => ?_,
    fun _ _ _ _ _ none => ?_⟩
  · rw [media]
    exact forall_mem_nil _
  · rw [media]
    exact forall_mem_nil _
  · rw [media]
    exact nodup_nil
  · rw [media]
    exact forall_mem_nil _
  · exact fun id item found => ⟨item, lookup_mem found, lookup_key found⟩
  · exact fun item listed _ =>
      .inl ⟨(lookup_eq_some_iff layout.ids).2 ⟨listed, rfl⟩, fun _ _ => rfl⟩
  · cases none
  · cases none

theorem inCustody_start (holds : InCustody libraryRoot start pool) (call : String × Nat) :
    InCustody libraryRoot start ⟨pool.shared, pool.threads ++ [.call call.1 call.2]⟩ := by
  refine holds.start ⟨trivial, ?_, ?_⟩ fun other _ => ⟨⟨?_, ?_⟩, ⟨?_, ?_⟩⟩
  · exact forall_mem_nil _
  · exact forall_mem_nil _
  · intro id held
    cases held
  · exact forall_mem_nil _
  · intro id _ held
    cases held
  · exact fun _ _ _ none => absurd none not_mem_nil

/-- One unhindered step of one approval, for the approval and for all of them. -/
theorem inCustody_move (layout : Layout libraryRoot start)
    (holds : InCustody libraryRoot start pool)
    {index : Nat} {result : DbResult} (unhindered : Unhindered (.move index result) pool)
    (performed : approvals libraryRoot (.move index result) pool = some next) :
    InCustody libraryRoot start next ∧
      ∀ item, next.threads[index]? = some (.failed item) → LeftAlone start next.shared item := by
  obtain ⟨task, shared, task', found, advanced, rfl⟩ := Pool.machine_move performed
  have running := mem_of_getElem? found
  have step := advances layout holds.shared (holds.each index task found) advanced running
    (unhindered task found)
  refine ⟨holds.move found step.kept step.custody fun place other _ there custody ours theirs =>
    step.reaches.others (mem_of_getElem? there) custody ours theirs, fun item failed => ?_⟩
  have inside := (List.getElem?_eq_some_iff.1 found).1
  rw [getElem?_set_self inside] at failed
  exact step.rest item (Option.some.inj failed)

theorem inCustody_of_reachable (layout : Layout libraryRoot start)
    (reachable : ((approvals libraryRoot).guarded (Fresh start) Unhindered).Reachable pool) :
    InCustody libraryRoot start pool := by
  refine Machine.guarded_invariant (I := InCustody libraryRoot start)
    (fun _ fresh => inCustody_fresh layout fresh) ?_ reachable
  intro pool next turn holds unhindered performed
  cases turn with
  | start call =>
    cases performed
    exact inCustody_start holds call
  | move index result => exact (inCustody_move layout holds unhindered performed).1

/-- As long as no approval comes in between another's test and move, every media row has its own
item's bytes, no item has two, and a failed approval leaves its item as it was. -/
theorem approvals_commit_own_bytes (layout : Layout libraryRoot start)
    (reachable : ((approvals libraryRoot).guarded (Fresh start) Unhindered).Reachable pool) :
    OwnBytes start pool.shared ∧ ∀ index result next item, Unhindered (.move index result) pool →
      approvals libraryRoot (.move index result) pool = some next →
        next.threads[index]? = some (.failed item) → LeftAlone start next.shared item := by
  have holds := inCustody_of_reachable layout reachable
  refine ⟨holds.shared.own, fun index result next item unhindered performed failed => ?_⟩
  exact (inCustody_move layout holds unhindered performed).2 item failed

end Runs

section Samples

instance (pool : Pool Registry Approving) (path : Path) : Decidable (Clear pool path) :=
  decidable_of_iff ((pool.shared.disk.tree path = [] ∧
      ∀ row ∈ pool.shared.media, Apart path row.path) ∧
      ∀ task ∈ pool.threads, ∀ other ∈ task.placed, Apart path other)
    ⟨fun clear => ⟨clear.1.1, clear.1.2, clear.2⟩,
      fun clear => ⟨⟨clear.free, clear.media⟩, clear.placed⟩⟩

instance (pool : Pool Registry Approving) (result : DbResult) (task : Approving) :
    Decidable (task.Unhindered pool result) := by
  cases task <;> unfold Approving.Unhindered <;> infer_instance

instance (turn : PoolTurn (String × Nat) DbResult) (pool : Pool Registry Approving) :
    Decidable (Unhindered turn pool) :=
  match turn with
  | .start _ => isTrue trivial
  | .move index result =>
    inferInstanceAs (Decidable (∀ task ∈ pool.threads[index]?, task.Unhindered pool result))

/-- Two staged publications of one name, the first with a sidecar. -/
def twinRegistry : Registry where
  disk := [(["staging", "d01-book.epub"], [1]), (["staging", "d03-book.nfo"], [3]),
    (["staging", "d02-book.epub"], [2])]
  items :=
    [{ id := "a", libraryId := "lib", sourceFilename := "book.epub", byteSize := 1,
        sourceSha256 := "d01", stagingPath := ["staging", "d01-book.epub"],
        sidecarPaths := [["staging", "d03-book.nfo"]] },
      { id := "b", libraryId := "lib", sourceFilename := "book.epub", byteSize := 1,
        sourceSha256 := "d02", stagingPath := ["staging", "d02-book.epub"] }]

theorem twinLayout : Layout ["lib"] twinRegistry where
  ids := by decide
  apart := by decide
  library := by decide
  inside := by decide
  names := by decide
  unblocked := by decide

/-- The first is moved, and the second is loaded while the first one is in the library. -/
def orderlyTurns : List (PoolTurn (String × Nat) DbResult) :=
  [.start ("a", 1), .move 0 (.fine ""), .move 0 (.fine ""), .move 0 (.fine ""), .move 0 (.fine ""),
    .move 0 (.fine ""), .move 0 (.fine ""), .move 0 (.fine "m"), .start ("b", 1),
      .move 1 (.fine "")]

theorem approvals_commit_own_bytes_sample : ∃ pool : Pool Registry Approving,
    pool.shared.media = [⟨"m", ["lib", "book.epub"], "a"⟩] ∧ OwnBytes twinRegistry pool.shared ∧
      ∀ next item, approvals ["lib"] (.move 1 (.fine "")) pool = some next →
        next.threads[1]? = some (.failed item) → LeftAlone twinRegistry next.shared item := by
  have ran : (((approvals ["lib"]).guardedRun Unhindered orderlyTurns ⟨twinRegistry, []⟩).map
      fun pool => (pool.shared.media, decide (Unhindered (.move 1 (.fine "")) pool))) =
        some ([⟨"m", ["lib", "book.epub"], "a"⟩], true) := by decide +kernel
  obtain ⟨pool, ended, seen⟩ := Option.map_eq_some_iff.1 ran
  obtain ⟨media, unhindered⟩ := Prod.mk.inj seen
  have kept := approvals_commit_own_bytes twinLayout
    (Machine.reachable_of_guardedRun ⟨rfl, rfl, rfl⟩ ended)
  exact ⟨pool, media, kept.1, fun next item performed failed =>
    kept.2 1 (.fine "") next item (of_decide_eq_true unhindered) performed failed⟩

/-- Both are tested before either is moved. -/
def overlappingTurns : List (PoolTurn (String × Nat) DbResult) :=
  [.start ("a", 1), .start ("b", 1), .move 0 (.fine ""), .move 1 (.fine ""), .move 0 (.fine ""),
    .move 1 (.fine ""), .move 0 (.fine ""), .move 0 (.fine ""), .move 0 (.fine ""),
    .move 0 (.fine ""), .move 0 (.fine "m"), .move 1 (.fine ""), .move 1 (.fine ""),
    .move 1 (.fine "n")]

/-- The second publication is moved over the first one, and both are committed there. -/
theorem overlapping_approvals_overwrite : ∃ pool : Pool Registry Approving,
    Layout ["lib"] twinRegistry ∧
      ((approvals ["lib"]).system (Fresh twinRegistry)).Reachable pool ∧
        pool.shared.media.map MediaRow.origin = ["a", "b"] ∧
          ¬ OwnBytes twinRegistry pool.shared := by
  have ran : ((approvals ["lib"]).run overlappingTurns ⟨twinRegistry, []⟩).map
      (fun pool => (pool.shared.media, pool.shared.disk.tree ["lib", "book.epub"])) =
        some ([⟨"m", ["lib", "book.epub"], "a"⟩, ⟨"n", ["lib", "book.epub"], "b"⟩],
          [([], [2])]) := by
    decide +kernel
  obtain ⟨pool, ended, seen⟩ := Option.map_eq_some_iff.1 ran
  obtain ⟨media, overwritten⟩ := Prod.mk.inj seen
  refine ⟨pool, twinLayout, Machine.reachable_of_run ⟨rfl, rfl, rfl⟩ ended, by rw [media]; rfl, ?_⟩
  intro own
  obtain ⟨item, listed, origin, bytes⟩ :=
    own.bytes ⟨"m", ["lib", "book.epub"], "a"⟩ (media ▸ mem_cons_self)
  rw [overwritten] at bytes
  revert item
  decide

end Samples

end Coppice.Ingest
