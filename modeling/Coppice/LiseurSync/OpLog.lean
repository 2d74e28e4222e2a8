import Coppice.LiseurSync.Ops
import Coppice.Std.System

/-!
# The op log keeps its integrity

Whatever devices push and whatever heads are mirrored, the log is numbered
without gaps, its op ids are unique, and rows are only ever added. A batch whose
items were all accepted is settled for good: sending it again answers with the
numbers it got and changes nothing. `Appended` says once what one op of a batch
can do, and every fact below is read off it.
-/

namespace Coppice.LiseurSync

open Coppice.Std Models

/-- Only the op log and its counter differ. -/
def LogOnly (s s' : Store) : Prop := s' = { s with ops := s'.ops, opSeq := s'.opSeq }

/-- The numbers are `1` to the counter in the order of insertion, and no op id
is used twice. -/
structure LogInvariant (s : Store) : Prop where
  numbered : s.ops.map Op.seq = List.range' 1 s.opSeq
  distinct : (s.ops.map Op.opId).Nodup

/-- A write of the log: rows are added behind those that are there, and the
invariant survives. -/
structure LogWrite (s s' : Store) : Prop where
  grows : s.ops <+: s'.ops
  keeps : LogInvariant s → LogInvariant s'

variable {s s' s'' : Store} {seq : Nat}

section Writes

theorem LogOnly.refl (s : Store) : LogOnly s s := rfl

theorem LogOnly.trans (first : LogOnly s s') (second : LogOnly s' s'') : LogOnly s s'' := by
  unfold LogOnly at *
  rw [second, first]

theorem LogOnly.reading (frame : LogOnly s s') : s'.reading = s.reading := by
  rw [frame]

theorem LogOnly.links (frame : LogOnly s s') : s'.links = s.links := by
  rw [frame]

theorem LogWrite.refl (s : Store) : LogWrite s s := ⟨List.prefix_rfl, id⟩

theorem LogWrite.trans (first : LogWrite s s') (second : LogWrite s' s'') : LogWrite s s'' :=
  ⟨first.grows.trans second.grows, fun invariant => second.keeps (first.keeps invariant)⟩

/-- A transaction that leaves the log and the counter alone. -/
theorem LogWrite.of_same (ops : s'.ops = s.ops) (opSeq : s'.opSeq = s.opSeq) : LogWrite s s' := by
  refine ⟨?_, fun invariant => ⟨?_, ?_⟩⟩
  · exact ⟨[], by rw [ops, List.append_nil]⟩
  · rw [ops, opSeq]
    exact invariant.numbered
  · rw [ops]
    exact invariant.distinct

/-- Adding an op under a new id and the next number. -/
theorem logWrite_insert {op : Op} (absent : s.findOp op.opId = none)
    (numbered : op.seq = s.opSeq + 1) : LogWrite s (insertOp (nextOpSeq s).1 op) := by
  refine ⟨List.prefix_append _ _, fun invariant => ⟨?_, nodup_added invariant.distinct absent⟩⟩
  simp only [insertOp, nextOpSeq, List.map_append, List.map_cons, List.map_nil,
    invariant.numbered, numbered]
  rw [List.range'_concat]
  simp [Nat.add_comm]

/-- A stored op stays found, as the row it is, while the log grows. -/
theorem LogWrite.findOp (write : LogWrite s s') {opId : String} {row : Op}
    (found : s.findOp opId = some row) : s'.findOp opId = some row := by
  obtain ⟨more, grown⟩ := write.grows
  unfold Store.findOp at *
  rw [← grown, lookup_append, found]
  rfl

/-- The log holds an op under a number, as the payload it has. -/
def Settled (s : Store) (op : OpInput) (seq : Nat) : Prop :=
  ∃ progression row, op.progression = some progression ∧ s.findOp op.opId = some row ∧
    row.seq = seq ∧ opMatches row op progression = true

theorem Settled.grow {op : OpInput} (settled : Settled s op seq) (write : LogWrite s s') :
    Settled s' op seq := by
  obtain ⟨progression, row, given, found, numbered, same⟩ := settled
  exact ⟨progression, row, given, write.findOp found, numbered, same⟩

end Writes

section Calls

variable [Host] {now : Int} {deviceId : String} {op : OpInput} {result : OpResult} {index : Nat}
  {ops : List OpInput} {results : List OpResult}

theorem applyOpToHead_logWrite (progression : ℚ) :
    LogWrite s (applyOpToHead now s deviceId op progression) := by
  unfold applyOpToHead
  split
  · exact .refl s
  · exact .of_same rfl rfl

/-- Everything one op of a batch can do, once its work exists: be recognised,
clash with another payload, or enter the log and move a head. -/
inductive Appended (now : Int) (deviceId : String) (s : Store) (op : OpInput) (progression : ℚ) :
    Store → OpResult → Prop where
  | repeated {existing : Op} (found : s.findOp op.opId = some existing)
      (same : opMatches existing op progression = true) :
      Appended now deviceId s op progression s
        { opId := op.opId, status := .duplicate, seq := some existing.seq, reason := none }
  | clash {existing : Op} (found : s.findOp op.opId = some existing)
      (other : opMatches existing op progression = false) :
      Appended now deviceId s op progression s
        { opId := op.opId, status := .conflict, seq := none
          reason := some "op_id was already used with a different payload" }
  | recorded (absent : s.findOp op.opId = none) :
      Appended now deviceId s op progression
        (applyOpToHead now
          (insertOp (nextOpSeq s).1 (opRow now deviceId op progression (s.opSeq + 1)))
          deviceId op progression)
        { opId := op.opId, status := .applied, seq := some (s.opSeq + 1), reason := none }

theorem appendOp_appended (success : appendOp now deviceId index s op = .ok (s', result)) :
    s.workExists op.workId = true ∧
      ∃ progression, op.progression = some progression ∧
        Appended now deviceId s op progression s' result := by
  unfold appendOp at success
  split at success
  · cases success
  rename_i exists_
  refine ⟨by simpa using exists_, ?_⟩
  cases given : op.progression with
  | none => simp [given] at success
  | some progression =>
    refine ⟨progression, rfl, ?_⟩
    simp only [given] at success
    cases found : s.findOp op.opId with
    | none =>
      simp only [found] at success
      cases success
      exact .recorded found
    | some existing =>
      simp only [found] at success
      split at success
      · rename_i same
        cases success
        exact .repeated found same
      · rename_i other
        cases success
        exact .clash found (Bool.eq_false_iff.mpr other)

theorem Appended.logWrite {progression : ℚ}
    (appended : Appended now deviceId s op progression s' result) : LogWrite s s' := by
  cases appended with
  | repeated | clash => exact .refl s
  | recorded absent =>
    exact LogWrite.trans (logWrite_insert absent rfl) (applyOpToHead_logWrite progression)

theorem appendOp_logWrite (success : appendOp now deviceId index s op = .ok (s', result)) :
    LogWrite s s' := by
  obtain ⟨-, progression, -, appended⟩ := appendOp_appended success
  exact appended.logWrite

theorem mirrorHead_logWrite (links : List MediaLink) (head : ReadingHead) :
    LogWrite s (mirrorHead now links s head) := by
  unfold mirrorHead
  split
  · exact .refl s
  split
  · exact .refl s
  · exact .refl s
  · rename_i absent _
    exact logWrite_insert absent rfl

theorem mirrorWrite_logWrite (links : List MediaLink) (heads : List ReadingHead) :
    LogWrite s (mirrorWrite now links heads s) :=
  foldl_rel .refl .trans fun _ head _ => mirrorHead_logWrite links head

/-- An item answered applied or duplicate is settled under the number it was
answered with. -/
theorem settled_of_accepted (success : appendOp now deviceId index s op = .ok (s', result))
    (accepted : result.status = .applied ∨ result.status = .duplicate) :
    ∃ seq, result = { opId := op.opId, status := result.status, seq := some seq, reason := none } ∧
      Settled s' op seq := by
  obtain ⟨-, progression, given, appended⟩ := appendOp_appended success
  cases appended with
  | @repeated existing found same =>
    exact ⟨existing.seq, rfl, progression, existing, given, found, rfl, same⟩
  | clash => simp at accepted
  | recorded absent =>
    refine ⟨s.opSeq + 1, rfl, progression,
      opRow now deviceId op progression (s.opSeq + 1), given, ?_, rfl,
      by simp [opMatches, opRow, epsilon]⟩
    refine (applyOpToHead_logWrite progression).findOp ?_
    have missing : lookup Op.opId s.ops op.opId = none := absent
    simp only [Store.findOp, insertOp, nextOpSeq, lookup_append, missing, Option.none_or]
    simp [lookup, opRow]

/-- Sending a settled op again answers with its number and changes nothing. -/
theorem appendOp_settled (index : Nat) (settled : Settled s op seq)
    (exists_ : s.workExists op.workId = true) :
    appendOp now deviceId index s op =
      .ok (s, { opId := op.opId, status := .duplicate, seq := some seq, reason := none }) := by
  obtain ⟨progression, row, given, found, rfl, same⟩ := settled
  simp [appendOp, exists_, given, found, same]

/-- A batch whose items were all accepted leaves every item settled, under the
number in its answer. -/
theorem settled_of_batch
    (success : Batch.run (appendOp now deviceId) index s ops = .ok (s', results))
    (accepted : ∀ result ∈ results, result.status = .applied ∨ result.status = .duplicate) :
    List.Forall₂ (fun op result => ∃ seq,
        result = { opId := op.opId, status := result.status, seq := some seq, reason := none } ∧
          Settled s' op seq) ops results := by
  induction ops generalizing index s results with
  | nil =>
    cases success
    exact .nil
  | cons op rest ih =>
    obtain ⟨next, result, more, first, tail, rfl⟩ := Batch.run_cons_ok.mp success
    have later : LogWrite next s' :=
      Batch.run_rel .refl .trans (fun _ _ _ _ _ _ item => appendOp_logWrite item) tail
    obtain ⟨seq, shape, settled⟩ := settled_of_accepted first (accepted _ List.mem_cons_self)
    exact .cons ⟨seq, shape, settled.grow later⟩
      (ih tail (List.forall_mem_cons.1 accepted).2)

/-- Sending a settled batch again answers duplicate with the numbers it has. -/
theorem appendOps_settled (settled : List.Forall₂ (fun op result => ∃ seq,
        result = { opId := op.opId, status := result.status, seq := some seq, reason := none } ∧
          Settled s op seq) ops results) (existing : ∀ op ∈ ops, s.workExists op.workId = true) :
    Batch.run (appendOp now deviceId) index s ops =
      .ok (s, results.map fun result => { result with status := .duplicate }) := by
  induction settled generalizing index with
  | nil => rfl
  | cons item _ ih =>
    obtain ⟨seq, shape, settled⟩ := item
    refine Batch.run_cons_ok.mpr ⟨s, _, _,
      appendOp_settled index settled (existing _ List.mem_cons_self),
      ih (List.forall_mem_cons.1 existing).2, ?_⟩
    rw [List.map_cons, shape]

end Calls

section System

variable [Host]

/-- The transactions of the op lane: a validated batch, the write of a mirror
over whatever links and heads it read, and anything that leaves the log alone. -/
inductive OpTransaction (s : Store) : Store → Prop where
  | append (now : Int) (deviceId : String) (ops : List OpInput)
      (valid : ∀ op ∈ ops, validateOp now op = .ok ()) :
      OpTransaction s (commit s (appendOps now deviceId s ops)).1
  | mirror (now : Int) (links : List MediaLink) (heads : List ReadingHead) :
      OpTransaction s (mirrorWrite now links heads s)
  | elsewhere (s' : Store) (ops : s'.ops = s.ops) (opSeq : s'.opSeq = s.opSeq) :
      OpTransaction s s'

/-- Runs of the op lane from an account with an empty log. -/
def opSystem : System Store where
  Initial s := s.ops = [] ∧ s.opSeq = 0
  Step := OpTransaction

theorem OpTransaction.logWrite (transaction : OpTransaction s s') : LogWrite s s' := by
  cases transaction with
  | append now deviceId ops =>
    exact commit_of (.refl s) fun _ _ success =>
      Batch.run_rel .refl .trans (fun _ _ _ _ _ _ item => appendOp_logWrite item) success
  | mirror now links heads => exact mirrorWrite_logWrite links heads
  | elsewhere _ ops opSeq => exact .of_same ops opSeq

theorem logWrite_of_steps (prior : opSystem.Reachable s)
    (steps : opSystem.Steps s s') : LogWrite s s' :=
  System.Steps.rel (R := LogWrite) .refl .trans
    (fun s next _ (transition : OpTransaction s next) => transition.logWrite) prior steps

theorem logInvariant_of_reachable (reachable : opSystem.Reachable s) : LogInvariant s := by
  refine reachable.invariant (fun s valid => ?_) fun s next invariant
    (transition : OpTransaction s next) => transition.logWrite.keeps invariant
  obtain ⟨ops, opSeq⟩ := valid
  exact ⟨by simp [ops, opSeq], by simp [ops]⟩

/-- The op log along every run: it is numbered `1` to its counter without gaps,
op ids are unique, rows are only added, a failed push changes nothing, and a
batch that was accepted as a whole is answered as a duplicate ever after. -/
theorem opLog_integrity :
    (∀ s, opSystem.Reachable s →
      s.ops.map Op.seq = List.range' 1 s.opSeq ∧ (s.ops.map Op.opId).Nodup) ∧
    (∀ s s', opSystem.Reachable s → opSystem.Steps s s' → s.ops <+: s'.ops) ∧
    (∀ s now deviceId ops refusal, appendOps now deviceId s ops = .error refusal →
      (commit s (appendOps now deviceId s ops)).1 = s) ∧
    (∀ s now deviceId ops s' results, opSystem.Reachable s →
      (∀ op ∈ ops, validateOp now op = .ok ()) →
      appendOps now deviceId s ops = .ok (s', results) →
      (∀ result ∈ results, result.status = .applied ∨ result.status = .duplicate) →
      ∀ later, opSystem.Steps s' later → (∀ op ∈ ops, later.workExists op.workId = true) →
        ∀ now' deviceId', appendOps now' deviceId' later ops =
          .ok (later, results.map fun result => { result with status := .duplicate })) := by
  refine ⟨?_, ?_, ?_, ?_⟩
  · intro s reachable
    have invariant := logInvariant_of_reachable reachable
    exact ⟨invariant.numbered, invariant.distinct⟩
  · intro s s' reachable steps
    exact (logWrite_of_steps reachable steps).grows
  · intro s now deviceId ops refusal failed
    rw [failed, commit_error]
  intro s now deviceId ops s' results reachable valid success accepted later steps existing
    now' deviceId'
  have pushed : opSystem.Reachable s' := by
    have step : OpTransaction s (commit s (appendOps now deviceId s ops)).1 :=
      .append now deviceId ops valid
    rw [success, commit_ok] at step
    exact .step reachable step
  have growth : LogWrite s' later := logWrite_of_steps pushed steps
  have settled := settled_of_batch success accepted
  exact appendOps_settled
    (settled.imp fun _ _ ⟨seq, shape, held⟩ => ⟨seq, shape, held.grow growth⟩) existing

end System

section Sample

local instance opLogHost : Host := Host.sample

/-- A position a device pushes. -/
def sampleOp : OpInput :=
  { opId := "op-1", workId := "work", editionSha := none
    clientTs := "2026-01-01T00:00:00.000000000Z", progression := some (1 / 4), locator := none
    foreignPos := none }

/-- An account with one work and an empty log. -/
def sampleReader : Store :=
  { Store.empty "user" with
    works := [{ id := "work", title := "", author := "", pending := false, createdAt := "" }] }

/-- Two positions, the first of them repeated at the end of the batch. -/
def sampleBatch : List OpInput :=
  [sampleOp, { sampleOp with opId := "op-2", progression := some (1 / 2) }, sampleOp]

/-- The account after its first push. -/
def samplePushed : Store :=
  (commit sampleReader (appendOps (sampleHour 1) "a" sampleReader sampleBatch)).1

/-- The answers to the batch, the last of them with the number of the first. -/
def sampleAnswers (status : PushStatus) : List OpResult :=
  [{ opId := "op-1", status := status, seq := some 1, reason := none },
    { opId := "op-2", status := status, seq := some 2, reason := none },
    { opId := "op-1", status := .duplicate, seq := some 1, reason := none }]

/-- A batch that repeats one of its own ops adds it once, and is a duplicate from then on. -/
theorem opLog_integrity_sample :
    appendOps (sampleHour 1) "a" sampleReader sampleBatch =
      .ok (samplePushed, sampleAnswers .applied) ∧
    samplePushed.ops.length = 2 ∧
    appendOps (sampleHour 2) "b" samplePushed sampleBatch =
      .ok (samplePushed, sampleAnswers .duplicate) := by
  have pushed : appendOps (sampleHour 1) "a" sampleReader sampleBatch =
      .ok (samplePushed, sampleAnswers .applied) := by decide +kernel
  refine ⟨pushed, by decide +kernel, ?_⟩
  exact opLog_integrity.2.2.2 sampleReader (sampleHour 1) "a" sampleBatch samplePushed
    (sampleAnswers .applied) (.initial ⟨rfl, rfl⟩) (by decide +kernel) pushed (by decide)
    samplePushed .refl (by decide +kernel) (sampleHour 2) "b"

end Sample
end Coppice.LiseurSync
