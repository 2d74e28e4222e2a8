import Coppice.LiseurSync.Convergence

/-!
# Revisions are compared and swapped

Pushes and deletes name the revision they were made on. The history of an
account lists what each of them was answered and what it did to its record, item
by item within a batch. For a record a client owns, the applied attempts are
exactly the revisions, in order; nothing else touches the record but its feed
position, and a tombstone is final.
-/

namespace Coppice.LiseurSync

open Coppice.Std Models Models.Store

/-- The revision of a record; a record that does not exist is at zero. -/
def revOf (record : Option StoredAnnotation) : Int := (record.map StoredAnnotation.rev).getD 0

/-- What became of a push or delete of one record. -/
inductive Answer where
  | status (status : PushStatus)
  /-- The request failed as a whole. -/
  | refused (error : SyncError)
deriving DecidableEq, Repr

/-- A push or delete, its answer, and the record before and after it. -/
structure Attempt where
  id : String
  base : Int
  answer : Answer
  before : Option StoredAnnotation
  after : Option StoredAnnotation
deriving DecidableEq, Repr

namespace Attempt

/-- The attempt was answered applied. -/
def applied (attempt : Attempt) : Bool := attempt.answer = .status .applied

/-- An applied attempt was made on the current revision and moved the record to
the next. Any other was answered conflict, invalid or duplicate, or failed with
its request, and changed no field. -/
def Sound (attempt : Attempt) : Prop :=
  (attempt.answer = .status .applied ∧ attempt.base = revOf attempt.before ∧
      revOf attempt.after = attempt.base + 1) ∨
    (attempt.answer ∈ [.status .conflict, .status .invalid, .status .duplicate] ∨
        ∃ error, attempt.answer = .refused error) ∧
      attempt.after = attempt.before

theorem Sound.keeps {attempt : Attempt} (sound : attempt.Sound) (other : attempt.applied = false) :
    attempt.after = attempt.before := by
  rcases sound with ⟨applied, -⟩ | ⟨-, kept⟩
  · simp [Attempt.applied, applied] at other
  · exact kept

end Attempt

/-- An account and the attempts made on its records. -/
structure CasWorld where
  store : Store
  history : List Attempt

section System

variable [Host]

/-- The attempts of a batch that went through, item by item, with the answers it got. -/
def pushAttempts (now : Int) (deviceId : String) : Nat → Store → List AnnotationInput →
    List AnnotationResult → List Attempt
  | index, s, input :: rest, result :: more =>
    let next := (commit s (pushItem now deviceId index s input)).1
    { id := input.id, base := input.baseRev, answer := .status result.status
      before := findAnnotationRow s input.id, after := findAnnotationRow next input.id } ::
      pushAttempts now deviceId (index + 1) next rest more
  | _, _, _, _ => []

/-- An attempt whose request failed. -/
def refusedAttempt (s : Store) (error : SyncError) (id : String) (base : Int) : Attempt :=
  { id := id, base := base, answer := .refused error, before := findAnnotationRow s id
    after := findAnnotationRow s id }

/-- A pushed batch. -/
def CasWorld.push (now : Int) (deviceId : String) (w : CasWorld) (inputs : List AnnotationInput) :
    CasWorld :=
  match appendAnnotations now deviceId w.store inputs with
  | .ok (s, results) =>
    { store := s
      history := w.history ++ pushAttempts now deviceId 0
        (reconcileNativeIds now w.store (inputs.map AnnotationInput.id)) inputs results }
  | .error error =>
    { w with
      history := w.history ++ inputs.map fun input =>
        refusedAttempt w.store error input.id input.baseRev }

/-- A delete. -/
def CasWorld.delete (now : Int) (w : CasWorld) (id : String) (rev : Int) : CasWorld :=
  match deleteAnnotation now w.store id rev with
  | .ok (s, result) =>
    { store := s
      history := w.history ++
        [{ id := id, base := rev, answer := .status result.status
           before := findAnnotationRow w.store id, after := findAnnotationRow s id }] }
  | .error error => { w with history := w.history ++ [refusedAttempt w.store error id rev] }

/-- Requests of any devices, in any order. -/
inductive CasStep (w : CasWorld) : CasWorld → Prop where
  | push (now : Int) (deviceId : String) (inputs : List AnnotationInput) :
      CasStep w (w.push now deviceId inputs)
  | delete (now : Int) (id : String) (rev : Int) : CasStep w (w.delete now id rev)
  | resequence (workId : String) :
      CasStep w { w with store := (resequenceWorkAnnotations w.store workId).1 }

/-- Runs from an account without records. -/
def casSystem : System CasWorld where
  Initial w := w.store.annotations = [] ∧ w.history = []
  Step := CasStep

end System

variable {s s' : Store} {id : String} {w next : CasWorld} {results : List AnnotationResult}
  {inputs : List AnnotationInput}

section Records

theorem NativeOnly.record (frame : NativeOnly s s') (id : String) :
    findAnnotationRow s' id = findAnnotationRow s id := by
  rw [frame]
  rfl

variable {f : StoredAnnotation → StoredAnnotation}

theorem updateRow_record (keeps : ∀ row, (f row).id = row.id) :
    findAnnotationRow (updateRow (nextAnnotationSeq s).1 id f) id =
      (findAnnotationRow s id).map f :=
  lookup_updateAt_self fun row same => (keeps row).trans same

theorem updateRow_record_of_ne {other : String} (differ : id ≠ other)
    (keeps : ∀ row, (f row).id = row.id) :
    findAnnotationRow (updateRow (nextAnnotationSeq s).1 other f) id = findAnnotationRow s id :=
  lookup_updateAt_of_ne (fun row same => (keeps row).trans same) differ

theorem insertRow_record (row : StoredAnnotation) :
    findAnnotationRow (insertRow (nextAnnotationSeq s).1 row) id =
      (findAnnotationRow s id).or (if row.id = id then some row else none) := by
  simp only [findAnnotationRow, insertRow, nextAnnotationSeq, lookup_append, lookup_cons]
  rfl

/-- Re-sequencing moves a record in the feed and changes nothing else. -/
theorem resequenceWorkAnnotations_record (s : Store) (workId id : String) :
    ∃ move : StoredAnnotation → Nat,
      findAnnotationRow (resequenceWorkAnnotations s workId).1 id =
        (findAnnotationRow s id).map fun row => { row with seq := move row } := by
  set ids := (liveAnnotations s workId).map StoredAnnotation.id with idsDef
  refine ⟨fun row => (ids.findIdx? (· = row.id)).elim row.seq (s.annotationSeq + 1 + ·), ?_⟩
  simp only [findAnnotationRow, resequenceWorkAnnotations]
  rw [lookup_map]
  · congr 1
    funext row
    cases ids.findIdx? (· = row.id) <;> rfl
  · intro row
    split <;> rfl

/-- The record is a tombstone. -/
def Dead (s : Store) (id : String) : Prop :=
  ∃ row, findAnnotationRow s id = some row ∧ row.deleted = true

theorem Dead.of_same (dead : Dead s id) (same : findAnnotationRow s' id = findAnnotationRow s id) :
    Dead s' id := by
  unfold Dead
  rw [same]
  exact dead

end Records

section Attempts

variable [Host] {now rev : Int} {deviceId target : String} {input : AnnotationInput}
  {result : AnnotationResult}

variable (pushed : Pushed now deviceId s input s' result)
include pushed

/-- An input leaves every other record alone. -/
theorem Pushed.other (differ : id ≠ input.id) :
    findAnnotationRow s' id = findAnnotationRow s id := by
  cases pushed with
  | refused => rfl
  | updated found live current valid rewrite =>
    rw [rewrite.id, updateRow_record_of_ne differ]
    · exact rewrite.nativeOnly.record id
    · exact fun _ => rfl
  | created absent zero client =>
    rw [insertRow_record, if_neg (show (createdRow now deviceId input _).id ≠ id from
      differ.symm), Option.or_none]

/-- What an input does to its own record. -/
theorem Pushed.sound : Attempt.Sound
      { id := input.id, base := input.baseRev, answer := .status result.status
        before := findAnnotationRow s input.id, after := findAnnotationRow s' input.id } := by
  cases pushed with
  | refused identity status =>
    refine .inr ⟨.inl ?_, rfl⟩
    cases answered : result.status <;> simp_all
  | updated found live current valid rewrite =>
    refine .inl ⟨rfl, ?_, ?_⟩
    · simpa [found, revOf] using current
    have same := rewrite.id
    simp only [same]
    rw [updateRow_record, rewrite.nativeOnly.record, found]
    · simp [revOf, updatedRow, current]
    · exact fun _ => rfl
  | created absent zero client =>
    refine .inl ⟨rfl, ?_, ?_⟩
    · simpa [absent, revOf] using zero
    · simp only [insertRow_record, absent]
      simp [createdRow, revOf, zero]

/-- No input revives a tombstone. -/
theorem Pushed.dead (dead : Dead s id) : Dead s' id := by
  by_cases same : id = input.id
  · obtain ⟨row, stored, deleted⟩ := dead
    subst same
    cases pushed with
    | refused => exact ⟨row, stored, deleted⟩
    | updated found live =>
      rw [stored] at found
      cases found
      rw [deleted] at live
      cases live
    | created absent =>
      rw [stored] at absent
      cases absent
  · exact dead.of_same (pushed.other same)

omit pushed

section Client

variable (client : isStumpNativeAnnotationId id = false) {result : DeleteAnnotationResult}
include client

/-- What a delete does to the record of a client. -/
theorem Deleted.sound (deletion : Deleted now s id rev s' result) :
    Attempt.Sound
      { id, base := rev, answer := .status result.status
        before := findAnnotationRow s id, after := findAnnotationRow s' id } := by
  have reconciled := (reconcileNativeIds_edits (s := s) now [id]).client client
  cases deletion with
  | gone => exact .inr ⟨.inl (by simp), reconciled⟩
  | stale => exact .inr ⟨.inl (by simp), rfl⟩
  | applied found live current source projected =>
    rw [reconciled] at found
    have kept := (deleteSource_nativeOnly source).record id
    have final := (reconcileAnnotationProjections_nativeOnly projected).record id
    refine .inl ⟨rfl, ?_, ?_⟩
    · simp [found, revOf, current]
    simp only [final]
    rw [updateRow_record, kept, reconciled, found]
    · simp [revOf, tombstone, current]
    · exact fun _ => rfl

theorem appendAnnotations_dead
    (success : appendAnnotations now deviceId s inputs = .ok (s', results)) (dead : Dead s id) :
    Dead s' id := by
  obtain ⟨pushed, run, projected⟩ := appendAnnotations_eq_ok.mp success
  have ran : Dead pushed id :=
    Batch.run_keeps (I := (Dead · id)) (fun _ _ _ _ _ _ item => (pushItem_pushed item).dead) run
      (dead.of_same ((reconcileNativeIds_edits now _).client client))
  exact ran.of_same ((projectIfApplied_nativeOnly projected).record id)

/-- A delete leaves every other record of a client alone. -/
theorem Deleted.other (differ : id ≠ target)
    (deletion : Deleted now s target rev s' result) :
    findAnnotationRow s' id = findAnnotationRow s id := by
  have reconciled := (reconcileNativeIds_edits (s := s) now [target]).client client
  cases deletion with
  | gone => exact reconciled
  | stale => rfl
  | applied found live current source projected =>
    rw [(reconcileAnnotationProjections_nativeOnly projected).record,
      updateRow_record_of_ne differ, (deleteSource_nativeOnly source).record, reconciled]
    exact fun _ => rfl

/-- No delete revives a tombstone. -/
theorem Deleted.dead (deletion : Deleted now s target rev s' result) (dead : Dead s id) :
    Dead s' id := by
  by_cases same : id = target
  · subst same
    have reconciled : Dead (reconcileNativeIds now s [id]) id :=
      dead.of_same ((reconcileNativeIds_edits now _).client client)
    cases deletion with
    | gone => exact reconciled
    | stale => exact dead
    | applied found live =>
      obtain ⟨row, stored, deleted⟩ := reconciled
      rw [stored] at found
      cases found
      rw [deleted] at live
      cases live
  · exact dead.of_same (deletion.other client same)

end Client

end Attempts

/-- The revisions the applied attempts on a record were made on, in order. -/
def appliedBases (id : String) (history : List Attempt) : List Int :=
  (history.filter fun attempt => attempt.id = id && attempt.applied).map Attempt.base

/-- The applied attempts on a record are its revisions. -/
structure Versioned (w : CasWorld) (id : String) : Prop where
  sound : ∀ attempt ∈ w.history, attempt.id = id → attempt.Sound
  bases : ∃ count : Nat, appliedBases id w.history = (List.range count).map Nat.cast ∧
    revOf (findAnnotationRow w.store id) = count

namespace Versioned

variable {history : List Attempt} {attempt : Attempt}

/-- The record moved in the feed at most. -/
theorem moved (versioned : Versioned ⟨s, history⟩ id)
    (same : revOf (findAnnotationRow s' id) = revOf (findAnnotationRow s id)) :
    Versioned ⟨s', history⟩ id := by
  obtain ⟨count, bases, rev⟩ := versioned.bases
  exact ⟨versioned.sound, count, bases, same.trans rev⟩

/-- An attempt on another record. -/
theorem other (versioned : Versioned ⟨s, history⟩ id) (differ : attempt.id ≠ id) :
    Versioned ⟨s, history ++ [attempt]⟩ id := by
  obtain ⟨count, bases, rev⟩ := versioned.bases
  refine ⟨?_, count, ?_, rev⟩
  · exact forall_mem_concat versioned.sound fun same => absurd same differ
  · simpa [appliedBases, differ] using bases

/-- An attempt on the record itself. -/
theorem attempted (versioned : Versioned ⟨s, history⟩ attempt.id) (sound : attempt.Sound)
    (before : attempt.before = findAnnotationRow s attempt.id)
    (after : attempt.after = findAnnotationRow s' attempt.id) :
    Versioned ⟨s', history ++ [attempt]⟩ attempt.id := by
  obtain ⟨count, bases, rev⟩ := versioned.bases
  refine ⟨?_, ?_⟩
  · exact forall_mem_concat versioned.sound fun _ => sound
  rw [← after]
  cases applied : attempt.applied with
  | false =>
    refine ⟨count, by simpa [appliedBases, applied] using bases, ?_⟩
    rw [sound.keeps applied, before]
    exact rev
  | true =>
    rcases sound with ⟨-, based, next⟩ | ⟨answered, -⟩
    · have current : attempt.base = count := by rw [based, before]; exact rev
      refine ⟨count + 1, ?_, by rw [next, current]; simp⟩
      have split : appliedBases attempt.id (history ++ [attempt]) =
          appliedBases attempt.id history ++ [attempt.base] := by
        simp [appliedBases, applied]
      rw [split, List.range_succ, List.map_append]
      simp only [List.map_cons, List.map_nil, current]
      rw [bases]
    · have status : attempt.answer = .status .applied := by simpa [Attempt.applied] using applied
      simp [status] at answered

/-- A request that failed as a whole. -/
theorem failed {attempts : List Attempt} (versioned : Versioned ⟨s, history⟩ id)
    (refused : ∀ attempt ∈ attempts, ∃ error, attempt = refusedAttempt s error attempt.id
      attempt.base) : Versioned ⟨s, history ++ attempts⟩ id := by
  induction attempts generalizing history with
  | nil => simpa using versioned
  | cons attempt rest ih =>
    rw [← List.singleton_append, ← List.append_assoc]
    refine ih ?_ (List.forall_mem_cons.1 refused).2
    obtain ⟨error, shape⟩ := refused attempt List.mem_cons_self
    by_cases same : attempt.id = id
    · subst same
      have sound : attempt.Sound := by
        rw [shape]
        exact .inr ⟨.inr ⟨error, rfl⟩, rfl⟩
      exact versioned.attempted sound (by rw [shape]; rfl) (by rw [shape]; rfl)
    · exact versioned.other same

section Steps

variable [Host]

/-- A batch, item by item. -/
theorem batch {now : Int} {deviceId : String}
    {index : Nat} (versioned : Versioned ⟨s, history⟩ id)
    (success : Batch.run (pushItem now deviceId) index s inputs = .ok (s', results)) :
    Versioned ⟨s', history ++ pushAttempts now deviceId index s inputs results⟩ id := by
  induction inputs generalizing index s history results with
  | nil =>
    cases success
    simpa [pushAttempts] using versioned
  | cons input rest ih =>
    obtain ⟨middle, result, more, first, tail, rfl⟩ := Batch.run_cons_ok.mp success
    have pushed := pushItem_pushed first
    simp only [pushAttempts, first, commit_ok]
    rw [← List.singleton_append, ← List.append_assoc]
    refine ih ?_ tail
    by_cases same : input.id = id
    · subst same
      exact versioned.attempted pushed.sound rfl rfl
    · refine (versioned.moved ?_).other same
      rw [pushed.other (Ne.symm same)]

theorem step (client : isStumpNativeAnnotationId id = false) (versioned : Versioned w id)
    (transition : CasStep w next) : Versioned next id := by
  cases transition with
  | push now deviceId inputs =>
    unfold CasWorld.push
    split
    · rename_i s results success
      obtain ⟨pushed, run, projected⟩ := appendAnnotations_eq_ok.mp success
      have reconciled : Versioned
          ⟨reconcileNativeIds now w.store (inputs.map AnnotationInput.id), w.history⟩ id :=
        versioned.moved (by rw [(reconcileNativeIds_edits now _).client client])
      refine (reconciled.batch run).moved ?_
      rw [(projectIfApplied_nativeOnly projected).record]
    · rename_i error _
      refine versioned.failed fun attempt member => ⟨error, ?_⟩
      obtain ⟨input, -, rfl⟩ := List.mem_map.mp member
      rfl
  | delete now target rev =>
    unfold CasWorld.delete
    split
    · rename_i s result success
      have deletion := deleteAnnotation_deleted success
      by_cases same : target = id
      · subst same
        exact versioned.attempted (deletion.sound client) rfl rfl
      · refine (versioned.moved ?_).other same
        rw [deletion.other client (Ne.symm same)]
    · rename_i error _
      refine versioned.failed fun attempt member => ⟨error, ?_⟩
      rw [List.mem_singleton.mp member]
      rfl
  | resequence workId =>
    refine versioned.moved ?_
    obtain ⟨move, moved⟩ := resequenceWorkAnnotations_record w.store workId id
    rw [moved]
    simp [revOf, Function.comp_def]

end Steps

end Versioned

section Runs

variable [Host]

theorem CasStep.dead (client : isStumpNativeAnnotationId id = false)
    (transition : CasStep w next) (dead : Dead w.store id) : Dead next.store id := by
  cases transition with
  | push now deviceId inputs =>
    unfold CasWorld.push
    split
    · rename_i s results success
      exact appendAnnotations_dead client success dead
    · exact dead
  | delete now target rev =>
    unfold CasWorld.delete
    split
    · rename_i s result success
      exact (deleteAnnotation_deleted success).dead client dead
    · exact dead
  | resequence workId =>
    obtain ⟨row, stored, deleted⟩ := dead
    obtain ⟨move, moved⟩ := resequenceWorkAnnotations_record w.store workId id
    exact ⟨{ row with seq := move row }, by rw [moved, stored]; rfl, deleted⟩

theorem versioned_of_reachable (client : isStumpNativeAnnotationId id = false)
    (reachable : casSystem.Reachable w) : Versioned w id := by
  refine reachable.invariant (fun w start => ?_) fun w next (versioned : Versioned w id)
    (transition : CasStep w next) => versioned.step client transition
  obtain ⟨rows, history⟩ := start
  refine ⟨by simp [history], 0, by simp [history, appliedBases], ?_⟩
  simp [rows, revOf, findAnnotationRow, lookup]

/-- Along every run, for every record a client owns: each attempt is sound, the
revision counts the applied attempts, no two attempts on one revision are both
applied, and a tombstone stays one. -/
theorem annotation_compareAndSwap (w : CasWorld) (reachable : casSystem.Reachable w) (id : String)
    (client : isStumpNativeAnnotationId id = false) :
    (∀ attempt ∈ w.history, attempt.id = id → attempt.Sound) ∧
    revOf (findAnnotationRow w.store id) =
      (w.history.filter fun attempt => attempt.id = id && attempt.applied).length ∧
    w.history.Pairwise (fun first second => first.id = id → second.id = id →
      first.base = second.base → ¬ (first.applied = true ∧ second.applied = true)) ∧
    ∀ later, casSystem.Steps w later → Dead w.store id → Dead later.store id := by
  have versioned := versioned_of_reachable client reachable
  obtain ⟨count, bases, rev⟩ := versioned.bases
  refine ⟨versioned.sound, ?_, ?_, ?_⟩
  · have length := congrArg List.length bases
    simp only [appliedBases, List.length_map, List.length_range] at length
    rw [rev, length]
  · have distinct : (appliedBases id w.history).Nodup := by
      rw [bases]
      exact List.nodup_range.map Nat.cast_injective
    rw [appliedBases, List.Nodup, List.pairwise_map, List.pairwise_filter] at distinct
    refine distinct.imp ?_
    intro first second differ firstOwn secondOwn same both
    exact differ (by simp [firstOwn, both.1]) (by simp [secondOwn, both.2]) same
  · intro later steps
    exact System.Steps.rel (R := fun w later : CasWorld => Dead w.store id → Dead later.store id)
      (fun _ dead => dead) (fun first second dead => second (first dead))
      (fun w next _ (transition : CasStep w next) => transition.dead client) reachable steps

end Runs

section Sample

local instance revisionsHost : Host := Host.sample

/-- An account with one work, before any request. -/
def sampleQuiet : CasWorld := ⟨sampleAccount, []⟩

/-- Two devices send the same note, then one deletes it. -/
def sampleRace : CasWorld :=
  let first := sampleQuiet.push (sampleHour 1) "a" [sampleNote]
  let second := first.push (sampleHour 1) "b" [sampleNote]
  second.delete (sampleHour 2) "note-1" 1

theorem annotation_compareAndSwap_sample :
    sampleRace.history.map (fun attempt => (attempt.base, attempt.answer)) =
        [(0, .status .applied), (0, .status .conflict), (1, .status .applied)] ∧
      revOf (findAnnotationRow sampleRace.store "note-1") = 2 := by
  have start : casSystem.Reachable sampleQuiet := .initial ⟨rfl, rfl⟩
  have first := start.step (.push (sampleHour 1) "a" [sampleNote])
  have second := first.step (.push (sampleHour 1) "b" [sampleNote])
  have reachable : casSystem.Reachable sampleRace :=
    second.step (.delete (sampleHour 2) "note-1" 1)
  have cas := annotation_compareAndSwap sampleRace reachable "note-1" (by decide)
  refine ⟨by decide +kernel, cas.2.1.trans (by decide +kernel)⟩

/-- A delete of a record that does not exist is answered neither conflict, nor
invalid, nor duplicate, and the push that makes the record is applied on the same
revision. -/
theorem delete_of_missing_refused :
    ∃ w, casSystem.Reachable w ∧ ∃ first ∈ w.history, ∃ second ∈ w.history,
      isStumpNativeAnnotationId first.id = false ∧ first.id = second.id ∧
        first.base = second.base ∧ second.applied = true ∧ first.applied = false ∧
        first.answer ∉ [.status .conflict, .status .invalid, .status .duplicate] := by
  have start : casSystem.Reachable sampleQuiet := .initial ⟨rfl, rfl⟩
  have deleted := start.step (.delete (sampleHour 1) "note-1" 0)
  exact ⟨_, deleted.step (.push (sampleHour 1) "a" [sampleNote]), by decide +kernel⟩

end Sample
end Coppice.LiseurSync
