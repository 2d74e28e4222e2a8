import Coppice.LiseurSync.Projection
import Coppice.Std.Feed

/-!
# Annotation pushes, deletes and the change feed

`appendAnnotations` is a compare-and-swap per record: an input names the
revision it was made on, a repeated input is answered as a duplicate, and an
accepted one moves the record to the next revision and feed position.
`deleteAnnotation` is the same rule for a tombstone. A poll of the feed first
sweeps native mirrors in a transaction of its own, then reads the high water and
then the page, each in a statement of its own.
-/

namespace Coppice.LiseurSync

open Coppice.Std Models Models.Store

/-- Whether an incoming payload is the one a device stored last. -/
def annotationsSamePayload (stored : StoredAnnotation) (incoming : Json) (deviceId : String) :
    Bool :=
  stored.payload = incoming && stored.deviceId = deviceId

def invalidResult (id reason : String) (server : Option AnnotationRecord) : AnnotationResult :=
  { id := id, status := .invalid, rev := none, seq := none, reason := some reason
    server := server }

def conflictResult (id reason : String) (stored : StoredAnnotation) : AnnotationResult :=
  { id := id, status := .conflict, rev := none, seq := none, reason := some reason
    server := some (annotationRecord stored) }

def appliedResult (id : String) (rev : Int) (seq : Nat) : AnnotationResult :=
  { id := id, status := .applied, rev := some rev, seq := some seq, reason := none
    server := none }

section Calls

variable [Host]

/-- A row after an accepted update of the revision it was read at. -/
def updatedRow (now : Int) (deviceId : String) (input : AnnotationInput)
    (stored : StoredAnnotation) (seq : Nat) (row : StoredAnnotation) : StoredAnnotation :=
  { row with
    rev := stored.rev + 1, seq := seq, editionSha := input.editionSha, kind := input.kind
    locator := input.locator, progression := input.progression, excerpt := input.excerpt
    color := annotationColorForUpdate input stored
    drawer := annotationDrawerForUpdate input stored
    body := input.body, deviceId := deviceId, clientTs := input.clientTs
    updatedAt := nowString now, deleted := false, deletedAt := none
    payload := annotationPayload input }

/-- The row a new record is stored as. -/
def createdRow (now : Int) (deviceId : String) (input : AnnotationInput) (seq : Nat) :
    StoredAnnotation :=
  { id := input.id, rev := 1, seq := seq, workId := input.workId, editionSha := input.editionSha
    kind := input.kind, locator := input.locator, progression := input.progression
    excerpt := input.excerpt, color := input.color.getD ""
    drawer := input.drawer.filter (· ≠ ""), body := input.body, deviceId := deviceId
    clientTs := input.clientTs, updatedAt := nowString now, deleted := false, deletedAt := none
    payload := annotationPayload input }

/-- The input an update stores: one for a native mirror is written back to its
row first. -/
def rewriteInput (now : Int) (s : Store) (input : AnnotationInput) (stored : StoredAnnotation) :
    Txn (Store × AnnotationInput) :=
  if isStumpNativeAnnotationId input.id then writebackNativeAnnotation now s input stored
  else .ok (s, input)

/-- Write an input over the revision it was made on. -/
def applyUpdate (now : Int) (deviceId : String) (s : Store) (input : AnnotationInput)
    (stored : StoredAnnotation) : Txn (Store × AnnotationResult) := do
  let (s, input) ← rewriteInput now s input stored
  let (s, seq) := nextAnnotationSeq s
  return (updateRow s input.id (updatedRow now deviceId input stored seq),
    appliedResult input.id (stored.rev + 1) seq)

/-- Why a stored record cannot take an update; only a native row can refuse one. -/
def invalidReason (input : AnnotationInput) (stored : StoredAnnotation) : Option String :=
  if isStumpNativeAnnotationId input.id then nativeUpdateInvalidReason input stored else none

/-- An input for a record that exists. -/
def pushExisting (now : Int) (deviceId : String) (s : Store) (input : AnnotationInput)
    (stored : StoredAnnotation) : Txn (Store × AnnotationResult) :=
  if stored.deleted then
    .ok (s, conflictResult input.id "annotation is deleted" stored)
  else if input.baseRev ≠ stored.rev then
    if input.baseRev + 1 = stored.rev ∧
        annotationsSamePayload stored (annotationPayload input) deviceId = true then
      .ok (s, { id := input.id, status := .duplicate, rev := some stored.rev
                seq := some stored.seq, reason := none, server := none })
    else .ok (s, conflictResult input.id "annotation revision conflict" stored)
  else
    match invalidReason input stored with
    | some reason => .ok (s, invalidResult input.id reason (some (annotationRecord stored)))
    | none => applyUpdate now deviceId s input stored

/-- An input for a record that does not exist. -/
def pushNew (now : Int) (deviceId : String) (s : Store) (input : AnnotationInput) :
    Txn (Store × AnnotationResult) :=
  if input.baseRev ≠ 0 then .ok (s, invalidResult input.id "annotation does not exist" none)
  else if isStumpNativeAnnotationId input.id then
    .ok (s, invalidResult input.id "native annotation ids are reserved" none)
  else
    let (s, seq) := nextAnnotationSeq s
    .ok (insertRow s (createdRow now deviceId input seq), appliedResult input.id 1 seq)

/-- One input of a batch. -/
def pushItem (now : Int) (deviceId : String) (_itemIndex : Nat) (s : Store)
    (input : AnnotationInput) : Txn (Store × AnnotationResult) :=
  if s.workExists input.workId = false then
    .ok (s, invalidResult input.id "unknown work" none)
  else
    match findAnnotationRow s input.id with
    | some stored => pushExisting now deviceId s input stored
    | none => pushNew now deviceId s input

/-- A batch that applied anything brings the projections up to date. -/
def projectIfApplied (s : Store) (results : List AnnotationResult) : Txn Store :=
  if results.any fun result => result.status = .applied then reconcileAnnotationProjections s
  else .ok s

/-- The write transaction of a pushed batch. -/
def appendAnnotations (now : Int) (deviceId : String) (s : Store) (inputs : List AnnotationInput) :
    Txn (Store × List AnnotationResult) := do
  let s := reconcileNativeIds now s (inputs.map AnnotationInput.id)
  let (s, results) ← Batch.run (pushItem now deviceId) 0 s inputs
  let s ← projectIfApplied s results
  return (s, results)

/-- Deleting a native mirror deletes the row behind it. -/
def deleteSource (s : Store) (id : String) : Txn Store :=
  if isStumpNativeAnnotationId id then deleteNativeAnnotationSource s id else .ok s

/-- The write transaction of a delete. The conflict answer drops the transaction
it was found in. -/
def deleteAnnotation (now : Int) (s : Store) (id : String) (rev : Int) :
    Txn (Store × DeleteAnnotationResult) :=
  let reconciled := reconcileNativeIds now s [id]
  match findAnnotationRow reconciled id with
  | none => .error (.notFound "annotation not found")
  | some stored =>
    if stored.deleted then
      .ok (reconciled, { id := id, status := .duplicate, rev := stored.rev, seq := stored.seq
                         server := none })
    else if stored.rev ≠ rev then
      .ok (s, { id := id, status := .conflict, rev := stored.rev, seq := stored.seq
                server := some (annotationRecord stored) })
    else do
      let s ← deleteSource reconciled id
      let (s, seq) := nextAnnotationSeq s
      let s ← reconcileAnnotationProjections (updateRow s id (tombstone now stored.rev seq))
      return (s, { id := id, status := .applied, rev := stored.rev + 1, seq := seq
                   server := none })

/-- The transaction a poll of the feed opens with, and where the next sweep
resumes. -/
def sweepForPoll (now : Int) (s : Store) (after : Option String) : Txn (Store × Option String) := do
  let (s, resume) := reconcileNativeAnnotations now s after
  let s ← reconcileAnnotationProjections s
  return (s, resume)

section Spec

variable {now : Int} {deviceId : String} {s s' : Store} {input rewritten : AnnotationInput}
  {result : AnnotationResult} {stored : StoredAnnotation} {results : List AnnotationResult}

/-- Everything the rewriting of an input can do: keep an input a client owns, or
write one for a mirror back to its native row. -/
inductive Rewritten (now : Int) (s : Store) (input : AnnotationInput) (stored : StoredAnnotation) :
    Store → AnnotationInput → Prop where
  | client (client : isStumpNativeAnnotationId input.id = false) :
      Rewritten now s input stored s input
  | mark {nativeId : String} {locator : ReadiumLocator}
      (parsed : parseStumpNativeAnnotationId input.id = some (.mark, nativeId))
      (placed : nativeUpdateLocator input.kind input stored = some locator)
      (exists_ : (lookup MediaAnnotation.id s.mediaAnnotations nativeId).isSome = true) :
      Rewritten now s input stored
        { s with
          mediaAnnotations := updateAt MediaAnnotation.id nativeId
            (writtenMark now input stored locator) s.mediaAnnotations }
        (markInput input stored locator)
  | bookmark {nativeId : String} {locator : ReadiumLocator}
      (parsed : parseStumpNativeAnnotationId input.id = some (.bookmark, nativeId))
      (placed : nativeUpdateLocator input.kind input stored = some locator)
      (exists_ : (lookup Bookmark.id s.bookmarks nativeId).isSome = true) :
      Rewritten now s input stored
        { s with
          bookmarks := updateAt Bookmark.id nativeId (writtenBookmark input locator) s.bookmarks }
        (bookmarkInput input stored locator)

theorem rewriteInput_rewritten (success : rewriteInput now s input stored = .ok (s', rewritten)) :
    Rewritten now s input stored s' rewritten := by
  unfold rewriteInput at success
  split at success
  · unfold writebackNativeAnnotation at success
    split at success
    · cases success
    · cases success
    · rename_i nativeId locator parsed placed
      split at success
      · cases success
      · rename_i exists_
        cases success
        exact .mark parsed placed (Option.isSome_iff_ne_none.mpr (by simpa using exists_))
    · rename_i nativeId locator parsed placed
      split at success
      · cases success
      · rename_i exists_
        cases success
        exact .bookmark parsed placed (Option.isSome_iff_ne_none.mpr (by simpa using exists_))
  · rename_i client
    cases success
    exact .client (by simpa using client)

/-- Rewriting never changes which record an input is for. -/
theorem Rewritten.id
    (rewrite : Rewritten now s input stored s' rewritten) : rewritten.id = input.id := by
  cases rewrite <;> rfl

/-- Everything one input of a batch can do: leave the store alone, rewrite the
record it was made on, or create a record a client owns. -/
inductive Pushed (now : Int) (deviceId : String) (s : Store) (input : AnnotationInput) :
    Store → AnnotationResult → Prop where
  | refused {result : AnnotationResult} (identity : result.id = input.id)
      (status : result.status ≠ .applied) : Pushed now deviceId s input s result
  | updated {stored : StoredAnnotation} {written : Store} {rewritten : AnnotationInput}
      (found : findAnnotationRow s input.id = some stored) (live : stored.deleted = false)
      (current : input.baseRev = stored.rev) (valid : invalidReason input stored = none)
      (rewrite : Rewritten now s input stored written rewritten)
      (known : s.workExists input.workId = true) :
      Pushed now deviceId s input
        (updateRow (nextAnnotationSeq written).1 rewritten.id
          (updatedRow now deviceId rewritten stored (written.annotationSeq + 1)))
        (appliedResult rewritten.id (stored.rev + 1) (written.annotationSeq + 1))
  | created (absent : findAnnotationRow s input.id = none) (zero : input.baseRev = 0)
      (client : isStumpNativeAnnotationId input.id = false)
      (known : s.workExists input.workId = true) :
      Pushed now deviceId s input
        (insertRow (nextAnnotationSeq s).1
          (createdRow now deviceId input (s.annotationSeq + 1)))
        (appliedResult input.id 1 (s.annotationSeq + 1))

theorem pushItem_pushed {index : Nat}
    (success : pushItem now deviceId index s input = .ok (s', result)) :
    Pushed now deviceId s input s' result := by
  unfold pushItem at success
  split at success
  · cases success
    exact .refused rfl (by simp [invalidResult])
  rename_i known
  have known : s.workExists input.workId = true := by simpa using known
  cases found : findAnnotationRow s input.id with
  | none =>
    simp only [found, pushNew] at success
    split_ifs at success with based native
    · cases success
      exact .refused rfl (by simp [invalidResult])
    · cases success
      exact .refused rfl (by simp [invalidResult])
    · cases success
      exact .created found (not_not.mp based) (by simpa using native) known
  | some stored =>
    simp only [found, pushExisting] at success
    split_ifs at success with deleted stale repeated
    · cases success
      exact .refused rfl (by simp [conflictResult])
    · cases success
      exact .refused rfl (by simp)
    · cases success
      exact .refused rfl (by simp [conflictResult])
    split at success
    · cases success
      exact .refused rfl (by simp [invalidResult])
    rename_i valid
    obtain ⟨⟨written, rewritten⟩, rewrite, success⟩ := bind_eq_ok.mp success
    cases success
    exact .updated found (by simpa using deleted) (not_not.mp stale) valid
      (rewriteInput_rewritten rewrite) known

/-- Everything a delete can do: find the record gone already, refuse another
revision, or leave a tombstone. -/
inductive Deleted (now : Int) (s : Store) (id : String) (rev : Int) :
    Store → DeleteAnnotationResult → Prop where
  | gone {stored : StoredAnnotation}
      (found : findAnnotationRow (reconcileNativeIds now s [id]) id = some stored)
      (dead : stored.deleted = true) :
      Deleted now s id rev (reconcileNativeIds now s [id])
        { id := id, status := .duplicate, rev := stored.rev, seq := stored.seq, server := none }
  | stale {stored : StoredAnnotation}
      (found : findAnnotationRow (reconcileNativeIds now s [id]) id = some stored)
      (live : stored.deleted = false) (other : stored.rev ≠ rev) :
      Deleted now s id rev s
        { id := id, status := .conflict, rev := stored.rev, seq := stored.seq
          server := some (annotationRecord stored) }
  | applied {stored : StoredAnnotation} {sourceless final : Store}
      (found : findAnnotationRow (reconcileNativeIds now s [id]) id = some stored)
      (live : stored.deleted = false) (current : stored.rev = rev)
      (source : deleteSource (reconcileNativeIds now s [id]) id = .ok sourceless)
      (projected : reconcileAnnotationProjections
        (updateRow (nextAnnotationSeq sourceless).1 id
          (tombstone now stored.rev (sourceless.annotationSeq + 1))) = .ok final) :
      Deleted now s id rev final
        { id := id, status := .applied, rev := stored.rev + 1
          seq := sourceless.annotationSeq + 1, server := none }

theorem deleteAnnotation_deleted {id : String} {rev : Int} {result : DeleteAnnotationResult}
    (success : deleteAnnotation now s id rev = .ok (s', result)) :
    Deleted now s id rev s' result := by
  unfold deleteAnnotation at success
  simp only at success
  split at success
  · cases success
  rename_i stored found
  split_ifs at success with dead other
  · cases success
    exact .gone found dead
  · cases success
    exact .stale found (by simpa using dead) other
  · obtain ⟨sourceless, source, success⟩ := bind_eq_ok.mp success
    obtain ⟨final, projected, success⟩ := bind_eq_ok.mp success
    cases success
    exact .applied found (by simpa using dead) (not_not.mp other) source projected

/-- A batch reconciles the native identities it names, pushes its inputs in
order and projects what it applied. -/
theorem appendAnnotations_eq_ok {inputs : List AnnotationInput} :
    appendAnnotations now deviceId s inputs = .ok (s', results) ↔
      ∃ pushed, Batch.run (pushItem now deviceId) 0
          (reconcileNativeIds now s (inputs.map AnnotationInput.id)) inputs =
            .ok (pushed, results) ∧
        projectIfApplied pushed results = .ok s' := by
  constructor
  · intro success
    obtain ⟨⟨pushed, answers⟩, run, success⟩ := bind_eq_ok.mp success
    obtain ⟨final, projected, success⟩ := bind_eq_ok.mp success
    cases success
    exact ⟨pushed, run, projected⟩
  · rintro ⟨pushed, run, projected⟩
    exact bind_eq_ok.mpr ⟨_, run, bind_eq_ok.mpr ⟨_, projected, rfl⟩⟩

/-- One item of a batch that went through: the inputs before it, the item, the
inputs after it, and the projection of what was applied. -/
theorem appendAnnotations_item {before after : List AnnotationInput}
    (success : appendAnnotations now deviceId s (before ++ input :: after) = .ok (s', results))
    (answered : results[before.length]? = some result) :
    ∃ middle next pushed early late,
      Batch.run (pushItem now deviceId) 0
          (reconcileNativeIds now s ((before ++ input :: after).map AnnotationInput.id)) before =
        .ok (middle, early) ∧
      pushItem now deviceId before.length middle input = .ok (next, result) ∧
      Batch.run (pushItem now deviceId) (before.length + 1) next after = .ok (pushed, late) ∧
      projectIfApplied pushed results = .ok s' := by
  obtain ⟨pushed, run, projected⟩ := appendAnnotations_eq_ok.mp success
  obtain ⟨middle, early, next, answer, late, first, item, rest, shape⟩ := Batch.run_split run
  have length := Batch.run_length first
  have same : answer = result := by
    rw [shape, ← length] at answered
    simpa using answered
  rw [Nat.zero_add] at item rest
  rw [same] at item
  exact ⟨middle, next, pushed, early, late, first, item, rest, projected⟩

end Spec

end Calls

/-- The high water a poll reads. -/
def annotationHighWater (s : Store) : Nat := s.annotationSeq

/-- The page a poll reads after it: records above the cursor in feed order, at
most `limit` of them, and whether more follow. -/
def annotationPage (s : Store) (since limit : Nat) : List AnnotationRecord × Bool :=
  let (rows, hasMore) := Feed.page StoredAnnotation.seq since limit s.annotations
  (rows.map annotationRecord, hasMore)

end Coppice.LiseurSync
