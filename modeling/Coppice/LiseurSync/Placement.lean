import Coppice.LiseurSync.Links
import Coppice.LiseurSync.Retries

/-!
# Where records are projected

The projection cursor promises that every record a client owns at or below it has
exactly the native row the current links give it. A writer keeps the promise in
one of two ways: it leaves where a record belongs alone, or it moves the record
above the cursor. `Upholds` is that rule; `reconcileAnnotationProjections` is the
one writer that moves the cursor, and it projects what it passes.
-/

namespace Coppice.LiseurSync

open Coppice.Std Coppice.Std.Feed Models Models.Store List

/-- The lane is a change feed under the account's clock. -/
def ClockedLane (s : Store) : Prop :=
  Clocked StoredAnnotation.id StoredAnnotation.seq s.annotations s.annotationSeq

/-- A mirror's native row is no projection, and a client's record has a kind a
device may push. -/
structure Owned (row : StoredAnnotation) : Prop where
  source : SourceOwned row.id
  kind : isStumpNativeAnnotationId row.id = false → row.kind ∈ ["highlight", "note", "bookmark"]

variable {s s' s'' : Store} {row : StoredAnnotation}

section Derivation

variable [Host] {row : StoredAnnotation}

/-- The native rows under a record's projection id are its projection. -/
def Projected (s : Store) (row : StoredAnnotation) : Prop :=
  ∃ projection, projectionOf s row = .ok projection ∧
    ∀ kind, nativeRowsAt s (liseurSyncProjectionId s.userId row.id) kind =
      projection.toList.filter fun native => native.table = kind

/-- A record keeps its projection when it derives the same one and no row of it
changes. -/
theorem Projected.congr {old : StoredAnnotation} (projected : Projected s old)
    (same : old.id = row.id) (account : s'.userId = s.userId)
    (derives : projectionOf s' row = projectionOf s old)
    (native : ∀ kind, nativeRowsAt s' (liseurSyncProjectionId s.userId row.id) kind =
      nativeRowsAt s (liseurSyncProjectionId s.userId row.id) kind) : Projected s' row := by
  obtain ⟨projection, projects, rows⟩ := projected
  refine ⟨projection, derives.trans projects, fun kind => ?_⟩
  rw [account, native, ← same]
  exact rows kind

theorem projectionOf_congr (account : s'.userId = s.userId)
    (linked : linkedAnnotationMediaId s' row = linkedAnnotationMediaId s row) :
    projectionOf s' row = projectionOf s row := by
  simp only [projectionOf, account, linked]

theorem projectionOf_deleted (s : Store) (deleted : row.deleted = true) :
    projectionOf s row = .ok none := by
  simp [projectionOf, deleted]

theorem AnnotationsOnly.projectionOf (frame : AnnotationsOnly s s') (row : StoredAnnotation) :
    projectionOf s' row = projectionOf s row := by
  rw [frame]
  rfl

/-- Projecting records one after the other leaves each with its projection, and
the projections of all others alone. -/
theorem foldlM_projectAnnotation {rows : List StoredAnnotation}
    (distinct : (rows.map StoredAnnotation.id).Nodup)
    (success : rows.foldlM projectAnnotation s = .ok s') :
    NativeOnly s s' ∧
      (∀ row ∈ rows, isStumpNativeAnnotationId row.id = false → Projected s' row) ∧
      ∀ id kind, id ∉ rows.map StoredAnnotation.id →
        nativeRowsAt s' (liseurSyncProjectionId s.userId id) kind =
          nativeRowsAt s (liseurSyncProjectionId s.userId id) kind := by
  induction rows generalizing s with
  | nil =>
    cases success
    exact ⟨.refl _, by simp, fun _ _ _ => rfl⟩
  | cons first rest ih =>
    obtain ⟨middle, step, tail⟩ := bind_eq_ok.mp success
    rw [map_cons, nodup_cons] at distinct
    obtain ⟨frame, projected, others⟩ := ih distinct.2 tail
    have firstFrame := projectAnnotation_nativeOnly step
    have account : middle.userId = s.userId := by
      rw [firstFrame]
    rw [account] at others
    refine ⟨firstFrame.trans frame, ?_, ?_⟩
    · intro row member client
      rcases mem_cons.mp member with rfl | later
      · obtain ⟨projection, derived, rows⟩ := projectAnnotation_rows client step
        refine ⟨projection, ?_, fun kind => ?_⟩
        · rw [(firstFrame.trans frame).annotationsOnly.projectionOf]
          exact derived
        have final : s'.userId = s.userId := by
          have whole := firstFrame.trans frame
          rw [whole]
        rw [final, others _ kind distinct.1, rows, if_pos rfl]
      · exact projected row later client
    · intro id kind absent
      rw [map_cons, mem_cons, not_or] at absent
      rw [others id kind absent.2]
      refine projectAnnotation_other step (fun same => absent.1 ?_) kind
      exact liseurSyncProjectionId_injective _ same

end Derivation

/-- A write that keeps the promise of the cursor, but for the live records of works
that await a replay: a record that does not move above the clock derives what it
derived, and projections are left alone. -/
structure UpholdsBut [Host] (awaits : String → Prop) (s s' : Store) : Prop where
  clocked : ClockedLane s → ClockedLane s'
  clock : s.annotationSeq ≤ s'.annotationSeq
  cursor : s'.projectedAnnotationSeq = s.projectedAnnotationSeq
  account : s'.userId = s.userId
  derives : ∀ row ∈ s'.annotations, row.seq ≤ s.annotationSeq →
    (row.deleted = false → ¬ awaits row.workId) →
    ∃ old ∈ s.annotations, old.id = row.id ∧ old.seq = row.seq ∧
      projectionOf s' row = projectionOf s old
  native : ∀ id kind, nativeRowsAt s' (liseurSyncProjectionId s.userId id) kind =
    nativeRowsAt s (liseurSyncProjectionId s.userId id) kind

/-- A write that keeps the promise of the cursor. -/
abbrev Upholds [Host] : Store → Store → Prop := UpholdsBut fun _ => False

/-- The promise of the cursor, with what its keeping rests on. -/
structure Placement [Host] (s : Store) : Prop where
  clocked : ClockedLane s
  cursor : s.projectedAnnotationSeq ≤ s.annotationSeq
  owned : ∀ row ∈ s.annotations, Owned row
  keys : LinkKeys s
  placed : ∀ row ∈ s.annotations, isStumpNativeAnnotationId row.id = false →
    row.seq ≤ s.projectedAnnotationSeq → Projected s row

section Records

variable {workId id identity losing : String}

theorem sourceOwned_of_client (client : isStumpNativeAnnotationId id = false) :
    SourceOwned id := by
  intro kind nativeId parsed
  rw [isStumpNativeAnnotationId_of_parse parsed] at client
  cases client

/-- The native row a mirror names is no projection of the account. -/
theorem SourceOwned.apart (source : SourceOwned id) (kind : NativeKind)
    (userId other : String) :
    parseStumpNativeAnnotationId id ≠ some (kind, liseurSyncProjectionId userId other) := by
  intro parsed
  have own := source kind _ parsed
  rw [isLiseurSyncProjectionId_self] at own
  cases own

/-- A replay moves every live record of the work above the clock. -/
theorem resequenceWorkAnnotations_live
    (member : row ∈ (resequenceWorkAnnotations s workId).1.annotations) (own : row.workId = workId)
    (live : row.deleted = false) : s.annotationSeq < row.seq := by
  simp only [resequenceWorkAnnotations, mem_map] at member
  obtain ⟨old, stored, shape⟩ := member
  split at shape
  · rw [← shape]
    simp only
    omega
  rename_i unmoved
  subst shape
  exfalso
  have among : old.id ∈ (liveAnnotations s workId).map StoredAnnotation.id := by
    refine mem_map.mpr ⟨old, ?_, rfl⟩
    simp only [liveAnnotations, mem_orderBy, mem_filter]
    simp [stored, own, live]
  simpa using findIdx?_eq_none_iff.mp unmoved old.id among

/-- A replay changes no record's owner. -/
theorem resequenceWorkAnnotations_owned (owned : ∀ row ∈ s.annotations, Owned row) :
    ∀ row ∈ (resequenceWorkAnnotations s workId).1.annotations, Owned row := by
  intro row member
  simp only [resequenceWorkAnnotations, mem_map] at member
  obtain ⟨old, stored, shape⟩ := member
  have kept := owned old stored
  rw [← shape]
  split
  · exact ⟨kept.source, kept.kind⟩
  · exact kept

theorem Relinked.keys (keys : LinkKeys s) (relinked : Relinked workId s s') : LinkKeys s' := by
  obtain ⟨changed, middle, edits, rfl⟩ := relinked
  obtain ⟨-, kept, -⟩ := edits.spec keys
  split
  · exact kept.of_links rfl
  · exact kept

/-- The links of a work that takes no part in a merge. -/
theorem mergeLiseurWork_linksOf (other : workId ≠ losing)
    (apart : workId ≠ identity) :
    linksOf (mergeLiseurWork s losing identity) workId = linksOf s workId := by
  simp only [linksOf, mergeLiseurWork, filter_map]
  have same (link : MediaLink) : (if link.workId = losing then identity else link.workId) = workId ↔
      link.workId = workId := by
    by_cases lost : link.workId = losing
    · simp [lost, other.symm, apart.symm]
    · simp [lost]
  calc _ = (linksOf s workId).map fun link =>
          { link with workId := if link.workId = losing then identity else link.workId } := by
        congr 1
        exact filter_congr fun link _ => by simp [same]
    _ = (linksOf s workId).map id := by
        refine map_congr_left fun link among => ?_
        have own := of_decide_eq_true (mem_filter.mp among).2
        have kept : link.workId ≠ losing := by rw [own]; exact other
        simp [kept]
    _ = linksOf s workId := map_id _

theorem LinkKeys.merged (keys : LinkKeys s) (losing identity : String) :
    LinkKeys (mergeLiseurWork s losing identity) := by
  refine ⟨?_, ?_⟩
  · simpa [mergeLiseurWork, Function.comp_def] using keys.ids
  · simpa [mergeLiseurWork, Function.comp_def] using keys.media

theorem Relinked.owned (keys : LinkKeys s) (relinked : Relinked workId s s')
    (owned : ∀ row ∈ s.annotations, Owned row) : ∀ row ∈ s'.annotations, Owned row := by
  obtain ⟨changed, middle, edits, rfl⟩ := relinked
  obtain ⟨registry, -, -⟩ := edits.spec keys
  have rows : middle.annotations = s.annotations := by rw [registry]
  rw [← rows] at owned
  split
  · exact resequenceWorkAnnotations_owned owned
  · exact owned

end Records

section Writers

variable [Host] {now : Int} {workId id identity losing : String} {stored : StoredAnnotation}

/-- A write of the lane and of native rows that are no projections. -/
theorem AnnotationWrite.upholds (write : AnnotationWrite s s')
    (cursor : s'.projectedAnnotationSeq = s.projectedAnnotationSeq)
    (native : ∀ id kind, nativeRowsAt s' (liseurSyncProjectionId s.userId id) kind =
      nativeRowsAt s (liseurSyncProjectionId s.userId id) kind) : Upholds s s' := by
  refine ⟨write.moves.clocked, write.moves.clock_le, cursor, ?_, ?_, native⟩
  · have frame := write.frame
    rw [frame]
  intro row member below _
  rcases write.moves.unmoved row member with old | moved
  · exact ⟨row, old, rfl, rfl, write.frame.projectionOf row⟩
  · omega

theorem LaneWrite.upholds (write : LaneWrite s s') : Upholds s s' := by
  have frame := write.frame
  refine write.annotationWrite.upholds (by rw [frame]) fun id kind => ?_
  rw [frame]
  cases kind <;> rfl

theorem Rewritten.kind {input rewritten : AnnotationInput}
    (rewrite : Rewritten now s input stored s' rewritten) : rewritten.kind = input.kind := by
  cases rewrite <;> rfl

theorem Pushed.cursor {deviceId : String} {input : AnnotationInput} {result : AnnotationResult}
    (pushed : Pushed now deviceId s input s' result) :
    s'.projectedAnnotationSeq = s.projectedAnnotationSeq := by
  cases pushed with
  | refused | created => rfl
  | updated found live current valid rewrite => cases rewrite <;> rfl

/-- A replay settles the work that awaits it. -/
theorem UpholdsBut.resequenced (upholds : UpholdsBut (· = workId) s s') :
    Upholds s (resequenceWorkAnnotations s' workId).1 := by
  have write := resequenceWorkAnnotations_laneWrite s' workId
  refine ⟨write.moves.clocked ∘ upholds.clocked, upholds.clock.trans write.moves.clock_le,
    upholds.cursor, upholds.account, ?_, ?_⟩
  · intro row member below _
    have unmoved : row.seq ≤ s'.annotationSeq := below.trans upholds.clock
    rcases write.moves.unmoved row member with stored | above
    · obtain ⟨old, among, id, seq, derived⟩ := upholds.derives row stored below fun live own =>
        absurd (resequenceWorkAnnotations_live member own live) (by omega)
      exact ⟨old, among, id, seq, (write.frame.annotationsOnly.projectionOf row).trans derived⟩
    · omega
  · intro id kind
    have kept := upholds.native id kind
    cases kind <;> exact kept

/-- Editing links keeps the promise when the work whose records may belong
elsewhere now is replayed. -/
theorem Relinked.upholds (keys : LinkKeys s) (relinked : Relinked workId s s') : Upholds s s' := by
  obtain ⟨changed, middle, edits, rfl⟩ := relinked
  obtain ⟨registry, -, reranks⟩ := edits.spec keys
  have edited : UpholdsBut (fun other => changed = true ∧ other = workId) s middle := by
    refine ⟨by rw [registry]; exact id, by rw [registry], by rw [registry], by rw [registry], ?_,
      fun id kind => by rw [registry]; cases kind <;> rfl⟩
    intro row member _ settled
    refine ⟨row, by rw [registry] at member; exact member, rfl, rfl, ?_⟩
    cases deleted : row.deleted with
    | true => rw [projectionOf_deleted _ deleted, projectionOf_deleted _ deleted]
    | false =>
      exact projectionOf_congr (by rw [registry])
        (reranks row fun set own => settled deleted ⟨set, own⟩)
  cases changed with
  | true => exact UpholdsBut.resequenced (by simpa using edited)
  | false => simpa using edited

/-- Merging a work into another keeps the promise when the other is replayed: a
record of neither derives what it did, and the rest move or are tombstones. -/
theorem mergeLiseurWork_upholds (s : Store) (losing identity : String) :
    UpholdsBut (· = identity) s (mergeLiseurWork s losing identity) := by
  refine ⟨?_, le_refl _, rfl, rfl, ?_, fun _ kind => by cases kind <;> rfl⟩
  · refine fun clocked => ⟨?_, ?_, ?_⟩
    · simpa [mergeLiseurWork, Function.comp_def] using clocked.distinctKeys
    · simpa [mergeLiseurWork, Function.comp_def] using clocked.distinctPositions
    · intro row member
      obtain ⟨old, stored, rfl⟩ := mem_map.mp member
      exact clocked.bounded old stored
  · intro row member _ settled
    obtain ⟨old, among, rfl⟩ := mem_map.mp member
    refine ⟨old, among, rfl, rfl, ?_⟩
    by_cases deleted : old.deleted = true
    · rw [projectionOf_deleted s deleted]
      exact projectionOf_deleted _ deleted
    have apart := settled (by simpa using deleted)
    have other : old.workId ≠ losing := fun lost => apart (if_pos lost)
    simp only [if_neg other] at apart ⊢
    exact projectionOf_congr rfl
      (linkedAnnotationMediaId_congr (mergeLiseurWork_linksOf other apart) rfl)

/-- One write to records or links. -/
inductive RecordEdit : Store → Store → Prop where
  | mirrored {s s' : Store} (edits : MirrorEdits s s') : RecordEdit s s'
  | pushed {now : Int} {deviceId : String} {s s' : Store} {input : AnnotationInput}
      {result : AnnotationResult} (kind : input.kind ∈ ["highlight", "note", "bookmark"])
      (pushed : Pushed now deviceId s input s' result) : RecordEdit s s'
  | relinked {workId : String} {s s' : Store} (relinked : Relinked workId s s') : RecordEdit s s'
  | merged {s : Store} (losing identity : String) :
      RecordEdit s (resequenceWorkAnnotations (mergeLiseurWork s losing identity) identity).1

abbrev RecordEdits : Store → Store → Prop := Relation.ReflTransGen RecordEdit

/-- Records or links are written, and then the projections may be replayed. -/
def Edited (s s' : Store) : Prop :=
  ∃ middle, RecordEdits s middle ∧ (s' = middle ∨ reconcileAnnotationProjections middle = .ok s')

section Edits

variable {deviceId : String} {ids : ResolveIds}

theorem Relinks.edits (relinks : Relinks s s') : RecordEdits s s' :=
  relinks.lift id fun _ _ ⟨_, relinked⟩ => .relinked relinked

/-- A batch that was pushed writes mirrors and then its inputs. -/
theorem appendAnnotations_edits {inputs : List AnnotationInput} {results : List AnnotationResult}
    (valid : ∀ input ∈ inputs, validateAnnotation now input = .ok ())
    (run : Batch.run (pushItem now deviceId) 0
      (reconcileNativeIds now s (inputs.map AnnotationInput.id)) inputs = .ok (s', results)) :
    RecordEdits s s' := by
  refine .head (.mirrored (reconcileNativeIds_edits now (inputs.map AnnotationInput.id))) ?_
  refine Batch.run_rel (R := RecordEdits) (fun _ => .refl) .trans ?_ run
  intro _ _ input _ _ member item
  exact .single (.pushed (validateKind_ok (validateAnnotation_ok (valid input member)).1).1
    (pushItem_pushed item))

theorem projectIfApplied_cases {results : List AnnotationResult}
    (success : projectIfApplied s results = .ok s') :
    s' = s ∨ reconcileAnnotationProjections s = .ok s' := by
  unfold projectIfApplied at success
  split at success
  · exact .inr success
  · cases success
    exact .inl rfl

/-- The account a resolution leaves to the projections. -/
def registeredStore (now : Int) (s : Store) (workId : String) (changed : Bool) : Store :=
  reconcileNativeWorks now (if changed then (resequenceWorkAnnotations s workId).1 else s) [workId]

theorem resolveWrite_edits {request : ResolveRequest} {candidates : List EditionCandidate}
    {registered : Store} {changed : Bool} (keys : LinkKeys s) (fresh : FreshLinks ids s)
    (registers : register now ids s request candidates workId = .ok (registered, changed)) :
    RecordEdits s (registeredStore now registered workId changed) := by
  have relinked := RecordEdit.relinked
    ⟨changed, registered, register_edits keys fresh registers, rfl⟩
  exact .tail (.single relinked) (.mirrored (reconcileNativeWorks_edits now _))

theorem resolveWrite_replayed {request : ResolveRequest} {candidates : List EditionCandidate}
    {existing : Option String} {result : ResolveResult}
    (success : resolveWrite now ids s request candidates existing = .ok (s', result)) :
    ∃ registered changed,
      register now ids s request candidates (existing.getD ids.work) = .ok (registered, changed) ∧
      reconcileAnnotationProjections
        (registeredStore now registered (existing.getD ids.work) changed) = .ok s' := by
  obtain ⟨⟨registered, changed⟩, registers, success⟩ := bind_eq_ok.mp success
  obtain ⟨replayed, replays, success⟩ := bind_eq_ok.mp success
  cases success
  exact ⟨registered, changed, registers, replays⟩

theorem mergeAliaslessPairWork_replayed {mediaId : String}
    {koreaderHash sha256 : Option String}
    (success : mergeAliaslessPairWork s mediaId losing identity koreaderHash sha256 = .ok s') :
    s' = s ∨ reconcileAnnotationProjections
      (resequenceWorkAnnotations (mergeLiseurWork s losing identity) identity).1 = .ok s' := by
  unfold mergeAliaslessPairWork at success
  split at success
  · cases success
  simp only at success
  split_ifs at success with linked merges
  · cases success
    exact .inl rfl
  · exact .inr success

end Edits

section Keeping

variable (held : Placement s)
include held

/-- Keeping the promise, step by step. -/
theorem Placement.carry (upholds : Upholds s s')
    (owned : ∀ row ∈ s'.annotations, Owned row) (keys : LinkKeys s') : Placement s' := by
  refine ⟨upholds.clocked held.clocked, ?_, owned, keys, ?_⟩
  · rw [upholds.cursor]
    exact held.cursor.trans upholds.clock
  intro row member client below
  rw [upholds.cursor] at below
  obtain ⟨old, stored, same, position, derived⟩ :=
    upholds.derives row member (below.trans held.cursor) fun _ => id
  have placed := held.placed old stored (by rw [same]; exact client) (by rw [position]; exact below)
  exact placed.congr same upholds.account derived (upholds.native row.id)

/-- Moving the cursor: what it passes is projected first. -/
theorem Placement.reconcile
    (success : reconcileAnnotationProjections s = .ok s') : Placement s' := by
  unfold reconcileAnnotationProjections at success
  split at success
  · cases success
    exact held
  obtain ⟨projected, loop, success⟩ := bind_eq_ok.mp success
  cases success
  have distinct : ((feedRange s s.projectedAnnotationSeq s.annotationSeq).map
      StoredAnnotation.id).Nodup := by
    refine ((orderBy_perm _ _).map _).nodup_iff.mpr ?_
    exact held.clocked.distinctKeys.sublist (filter_sublist.map _)
  obtain ⟨frame, passed, others⟩ := foldlM_projectAnnotation distinct loop
  refine ⟨by rw [frame]; exact held.clocked, by rw [frame], by rw [frame]; exact held.owned,
    ⟨by rw [frame]; exact held.keys.ids, by rw [frame]; exact held.keys.media⟩, ?_⟩
  intro row member client _
  have stored : row ∈ s.annotations := by rw [frame] at member; exact member
  have bounded := held.clocked.bounded row stored
  have placed : Projected projected row := by
    by_cases below : row.seq ≤ s.projectedAnnotationSeq
    · refine (held.placed row stored client below).congr rfl (by rw [frame])
        (frame.annotationsOnly.projectionOf row) fun kind => others _ kind ?_
      intro among
      obtain ⟨other, range, same⟩ := mem_map.mp among
      simp only [feedRange, mem_orderBy, mem_filter, Bool.and_eq_true, decide_eq_true_eq] at range
      have equal := inj_on_of_nodup_map held.clocked.distinctKeys range.1 stored same
      rw [equal] at range
      omega
    · refine passed row ?_ client
      simp only [feedRange, mem_orderBy, mem_filter, Bool.and_eq_true, decide_eq_true_eq]
      exact ⟨stored, by omega, bounded⟩
  exact placed.congr rfl rfl rfl fun kind => by cases kind <;> rfl

theorem Placement.mirrored (edits : MirrorEdits s s') : Placement s' := by
  have write := edits.laneWrite
  refine held.carry write.upholds ?_ ?_
  · refine edits.forall_rows ?_ ?_ ?_ held.owned
    · intro candidate seq exported
      refine ⟨exported.sourceOwned, fun client => ?_⟩
      rw [show (mirrorOf candidate seq).id = candidate.id from rfl, exported.native] at client
      cases client
    · intro candidate stored seq row exported same owned
      refine ⟨owned.source, fun client => ?_⟩
      rw [show (refreshMirror candidate stored seq row).id = candidate.id from same,
        exported.native] at client
      cases client
    · exact fun _ _ _ _ _ owned => ⟨owned.source, owned.kind⟩
  · exact held.keys.of_links write.frame.annotationsOnly.links

theorem Placement.pushed {deviceId : String} {input : AnnotationInput} {result : AnnotationResult}
    (kind : input.kind ∈ ["highlight", "note", "bookmark"])
    (pushed : Pushed now deviceId s input s' result) : Placement s' := by
  have write := pushed.annotationWrite
  refine held.carry (write.upholds ?_ ?_) ?_ (held.keys.of_links write.frame.links)
  · exact pushed.cursor
  · intro id table
    cases pushed with
    | refused => rfl
    | @updated stored written rewritten found live current valid rewrite =>
      have source := (held.owned stored (lookup_mem found)).source
      rw [lookup_key found] at source
      have kept := rewrite.rows (source.apart table s.userId id)
      cases table <;> exact kept
    | created => cases table <;> rfl
  · refine pushed.forall_rows held.owned ?_ ?_
    · intro stored written rewritten seq row _ rewrite _ owned
      refine ⟨owned.source, fun _ => ?_⟩
      have same : (updatedRow now deviceId rewritten stored seq row).kind = input.kind :=
        rewrite.kind
      rw [same]
      exact kind
    · exact fun client seq => ⟨sourceOwned_of_client client, fun _ => kind⟩

/-- Deleting the native row of a mirror touches no projection. -/
theorem Placement.sourceDeleted
    (found : findAnnotationRow s id = some stored) (success : deleteSource s id = .ok s') :
    Placement s' := by
  have frame := deleteSource_nativeOnly success
  have source := (held.owned stored (lookup_mem found)).source
  rw [lookup_key found] at source
  refine held.carry (frame.annotationWrite.upholds ?_ ?_) (by rw [frame.rows]; exact held.owned)
    (held.keys.of_links frame.annotationsOnly.links)
  · rw [deleteSource_tables success]
  · exact fun other table => deleteSource_rows success (source.apart table s.userId other)

theorem Placement.tombstoned (now : Int) (id : String) (rev : Int) :
    Placement (updateRow (nextAnnotationSeq s).1 id (tombstone now rev (s.annotationSeq + 1))) := by
  have write : LaneWrite s
      (updateRow (nextAnnotationSeq s).1 id (tombstone now rev (s.annotationSeq + 1))) :=
    laneWrite_update id (fun _ => rfl) fun _ => rfl
  refine held.carry write.upholds ?_ (held.keys.of_links rfl)
  exact forall_updateRow held.owned fun row _ owned => ⟨owned.source, owned.kind⟩

theorem Placement.deleted {rev : Int} {result : DeleteAnnotationResult}
    (deletion : Deleted now s id rev s' result) : Placement s' := by
  have reconciled := held.mirrored (reconcileNativeIds_edits now [id])
  cases deletion with
  | gone => exact reconciled
  | stale => exact held
  | applied found live current source projected =>
    exact ((reconciled.sourceDeleted found source).tombstoned now id _).reconcile projected

theorem Placement.merged (losing identity : String) :
    Placement (resequenceWorkAnnotations (mergeLiseurWork s losing identity) identity).1 := by
  refine held.carry (mergeLiseurWork_upholds s losing identity).resequenced
    (resequenceWorkAnnotations_owned fun row member => ?_)
    ((held.keys.merged losing identity).of_links rfl)
  obtain ⟨old, stored, rfl⟩ := mem_map.mp member
  exact ⟨(held.owned old stored).source, (held.owned old stored).kind⟩

theorem Placement.edit (edit : RecordEdit s s') : Placement s' := by
  cases edit with
  | mirrored edits => exact held.mirrored edits
  | pushed kind pushed => exact held.pushed kind pushed
  | relinked relinked =>
    exact held.carry (relinked.upholds held.keys) (relinked.owned held.keys held.owned)
      (relinked.keys held.keys)
  | merged losing identity => exact held.merged losing identity

theorem Placement.edits (edits : RecordEdits s s') : Placement s' := by
  induction edits with
  | refl => exact held
  | tail _ edit ih => exact ih.edit edit

theorem Placement.edited (edited : Edited s s') : Placement s' := by
  obtain ⟨middle, edits, rfl | replays⟩ := edited
  · exact held.edits edits
  · exact (held.edits edits).reconcile replays

end Keeping

end Writers

section System

variable [Host]

/-- The requests that write records or say where they belong. A resolution is its
write transaction, whatever its reads saw before, so that calls may interleave. -/
inductive PlacementStep (s : Store) : Store → Prop where
  | push (now : Int) (deviceId : String) (inputs : List AnnotationInput)
      (valid : ∀ input ∈ inputs, validateAnnotation now input = .ok ()) :
      PlacementStep s (commit s (appendAnnotations now deviceId s inputs)).1
  | delete (now : Int) (id : String) (rev : Int) :
      PlacementStep s (commit s <| deleteAnnotation now s id rev).1
  | resolve (now : Int) (ids : ResolveIds) (request : ResolveRequest)
      (candidates : List EditionCandidate) (existing : Option String) (fresh : FreshLinks ids s) :
      PlacementStep s (commit s (resolveWrite now ids s request candidates existing)).1
  | suggest (now : Int) (ids : PairIds) (anchorMediaId otherMediaId : String)
      (evidence : PairEvidence) (fresh : FreshPair ids s) :
      PlacementStep s (suggestPair now ids s anchorMediaId otherMediaId evidence).1
  | confirm (now : Int) (ids : PairIds) (anchorMediaId otherMediaId : String)
      (fresh : FreshPair ids s) :
      PlacementStep s (confirmPair now ids s anchorMediaId otherMediaId).1
  | reject (mediaA mediaB : String) : PlacementStep s (rejectPair s mediaA mediaB).1
  | merge (mediaId losing identity : String) (koreaderHash sha256 : Option String) :
      PlacementStep s (commit s
        ((mergeAliaslessPairWork s mediaId losing identity koreaderHash sha256).map (·, ()))).1

/-- Runs from an account without records. -/
def placementSystem : System Store where
  Initial s := s.annotations = [] ∧ s.projectedAnnotationSeq ≤ s.annotationSeq ∧ LinkKeys s
  Step := PlacementStep

theorem PlacementStep.placement (transition : PlacementStep s s') (held : Placement s) :
    Placement s' := by
  cases transition with
  | push now deviceId inputs valid =>
    refine commit_of held fun _ _ success => ?_
    obtain ⟨pushed, run, projected⟩ := appendAnnotations_eq_ok.mp success
    exact held.edited ⟨pushed, appendAnnotations_edits valid run, projectIfApplied_cases projected⟩
  | delete now id rev =>
    exact commit_of held fun _ _ success => held.deleted (deleteAnnotation_deleted success)
  | resolve now ids request candidates existing fresh =>
    refine commit_of held fun _ _ success => ?_
    obtain ⟨registered, changed, registers, replays⟩ := resolveWrite_replayed success
    exact held.edited ⟨_, resolveWrite_edits held.keys fresh registers, .inr replays⟩
  | suggest now _ _ _ _ fresh | confirm now _ _ _ fresh =>
    exact held.edits (writePair_relinks now fresh _ _ _ _).edits
  | reject mediaA mediaB => exact held.edits (rejectPair_relinks s mediaA mediaB).edits
  | merge mediaId losing identity koreaderHash sha256 =>
    refine commit_of held fun next _ success => ?_
    cases merges : mergeAliaslessPairWork s mediaId losing identity koreaderHash sha256 with
    | error refusal =>
      rw [merges] at success
      cases success
    | ok merged =>
      rw [merges] at success
      cases success
      rcases mergeAliaslessPairWork_replayed merges with rfl | replays
      · exact held
      · exact (held.merged losing identity).reconcile replays

theorem placement_of_reachable (reachable : placementSystem.Reachable s) : Placement s := by
  refine reachable.invariant (fun s start => ?_) fun s next (held : Placement s)
    (transition : PlacementStep s next) => transition.placement held
  obtain ⟨rows, cursor, keys⟩ := start
  refine ⟨⟨?_, ?_, ?_⟩, cursor, ?_, keys, ?_⟩
  all_goals simp [rows]

/-- The native rows a record has, in both tables. -/
def nativeRowsOf (s : Store) (row : StoredAnnotation) : List NativeRow :=
  nativeRowsAt s (liseurSyncProjectionId s.userId row.id) .mark ++
    nativeRowsAt s (liseurSyncProjectionId s.userId row.id) .bookmark

theorem Projected.nativeRowsOf (projected : Projected s row) :
    ∃ projection, projectionOf s row = .ok projection ∧
      nativeRowsOf s row = projection.toList := by
  obtain ⟨projection, projects, rows⟩ := projected
  refine ⟨projection, projects, ?_⟩
  unfold LiseurSync.nativeRowsOf
  rw [rows, rows]
  cases projection with
  | none => rfl
  | some native => cases table : native.table <;> simp [table]

/-- In every reachable state the cursor is at most the clock, and every record a
client owns at or below it has one native row, the one it derives on the book
that ranks first, when it is live, its locator can be opened and its work is
linked, and none otherwise. -/
theorem projections_follow_links (s : Store) (reachable : placementSystem.Reachable s) :
    s.projectedAnnotationSeq ≤ s.annotationSeq ∧
    ∀ row ∈ s.annotations, isStumpNativeAnnotationId row.id = false →
      row.seq ≤ s.projectedAnnotationSeq →
      (∀ locator, row.deleted = false → readiumProjectionLocator row = some locator →
        linksOf s row.workId ≠ [] →
        ∃ link createdAt updatedAt, RankedFirst s row link ∧
          instant row.clientTs = .ok createdAt ∧ instant row.updatedAt = .ok updatedAt ∧
          nativeRowsOf s row =
            [nativeRowOf s.userId row locator link.mediaId createdAt updatedAt]) ∧
      (row.deleted = true ∨ readiumProjectionLocator row = none ∨ linksOf s row.workId = [] →
        nativeRowsOf s row = []) := by
  have held := placement_of_reachable reachable
  refine ⟨held.cursor, fun row member client below => ?_⟩
  obtain ⟨projection, projects, rows⟩ := (held.placed row member client below).nativeRowsOf
  have kind := (held.owned row member).kind client
  rw [rows]
  unfold projectionOf at projects
  refine ⟨fun locator live usable linked => ?_, fun none => ?_⟩
  · rw [if_neg (by simp [live, kind]), usable] at projects
    cases book : linkedAnnotationMediaId s row with
    | none => exact absurd (linkedAnnotationMediaId_eq_none.mp book) linked
    | some mediaId =>
      obtain ⟨link, first, rfl⟩ := linkedAnnotationMediaId_ranked book
      simp only [book] at projects
      obtain ⟨createdAt, created, projects⟩ := bind_eq_ok.mp projects
      obtain ⟨updatedAt, updated, projects⟩ := bind_eq_ok.mp projects
      cases projects
      exact ⟨link, createdAt, updatedAt, first, created, updated, rfl⟩
  · rcases none with deleted | unusable | unlinked
    · rw [if_pos (.inl deleted)] at projects
      cases projects
      rfl
    · split at projects
      · cases projects
        rfl
      · rw [unusable] at projects
        cases projects
        rfl
    · have book := linkedAnnotationMediaId_eq_none.mpr unlinked
      split at projects
      · cases projects
        rfl
      · rw [book] at projects
        cases usable : readiumProjectionLocator row <;> simp only [usable] at projects <;>
          cases projects <;> rfl

end System

section Sample

local instance placementHost : Host := Host.sample

/-- The linked account with a copy of the book that a pairing put under a work of its
own, although an alias of the first work names the copy. -/
def samplePaired : Store :=
  { sampleLinked with
    works := sampleLinked.works ++
      [{ id := "minted", title := "", author := "", pending := false, createdAt := "" }]
    links := sampleLinked.links ++ [{
      id := "pair", mediaId := "copy", workId := "minted", editionSha := "pair"
      resolutionStatus := .verified, createdAt := "", pairStatus := .confirmed
      pairEvidence := some .manual }]
    aliases := [{
      kind := "source", value := "copy", workId := "work", editionSha := none, createdAt := "" }] }

/-- A highlight a device makes in the copy. -/
def sampleClip : AnnotationInput :=
  { sampleEdit (some "") with id := "clip-1", baseRev := 0, workId := "minted" }

/-- The account with that highlight. -/
def sampleClipped : Store :=
  (commit samplePaired (appendAnnotations (sampleHour 1) "a" samplePaired [sampleClip])).1

/-- The account once the two works are one. -/
def sampleMerged : Store :=
  (commit sampleClipped
    ((mergeAliaslessPairWork sampleClipped "copy" "minted" "work" none none).map (·, ()))).1

/-- The highlight is shown in the copy, and after the merge in the book whose edition it names. -/
theorem projections_follow_links_sample :
    (sampleClipped.annotations.flatMap (nativeRowsOf sampleClipped)).map NativeRow.mediaId =
      ["copy"] ∧
    ∃ row ∈ sampleMerged.annotations, row.id = "clip-1" ∧
      ∃ link createdAt updatedAt, link.mediaId = "book" ∧ RankedFirst sampleMerged row link ∧
        nativeRowsOf sampleMerged row =
          [nativeRowOf "user" row samplePlace link.mediaId createdAt updatedAt] := by
  have start : placementSystem.Reachable samplePaired :=
    .initial ⟨rfl, le_refl _, ⟨by decide, by decide⟩⟩
  have clipped : placementSystem.Reachable sampleClipped :=
    start.step (.push (sampleHour 1) "a" [sampleClip] (by decide +kernel))
  have merged : placementSystem.Reachable sampleMerged :=
    clipped.step (.merge "copy" "minted" "work" none none)
  obtain ⟨-, placed⟩ := projections_follow_links sampleMerged merged
  have stored : { createdRow (sampleHour 1) "a" sampleClip 1 with workId := "work", seq := 2 } ∈
      sampleMerged.annotations := by decide +kernel
  obtain ⟨link, createdAt, updatedAt, first, -, -, rows⟩ :=
    (placed _ stored (by decide) (by decide +kernel)).1 samplePlace rfl (by decide +kernel)
      (by decide +kernel)
  have book : ∀ link ∈ linksOf sampleMerged "work", (∀ other ∈ linksOf sampleMerged "work",
      projectionLinkLe sampleMerged "sha" link other = true) → link.mediaId = "book" := by
    decide +kernel
  exact ⟨by decide +kernel, _, stored, rfl, link, createdAt, updatedAt, book link first.1 first.2,
    first, rows⟩

end Sample
end Coppice.LiseurSync
