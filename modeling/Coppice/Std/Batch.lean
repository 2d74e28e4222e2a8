import Mathlib.Logic.Basic

/-!
# Batches inside one transaction

A request carries a list of items that one write transaction handles in turn.
`Batch.run` threads the state through the items and collects their answers;
the first refusal ends the batch. `commit` is the boundary: a refused
transaction leaves the state it started from.
-/

namespace Coppice.Std

open List

variable {σ ε α β : Type} {s : σ} {R : σ → σ → Prop} {inputs : List α} {f : σ → α → Except ε σ}
  {I : σ → Prop} {result : β} {refusal : ε}

/-- A transaction that succeeded ran its first part and then its second. -/
theorem bind_eq_ok {x : Except ε α} {f : α → Except ε β} :
    (x >>= f) = .ok result ↔ ∃ value, x = .ok value ∧ f value = .ok result := by
  cases x with
  | error refusal | ok value => simp [bind, Except.bind]

theorem then_eq_ok {x : Except ε Unit} {y : Except ε β} :
    (x >>= fun _ => y) = .ok result ↔ x = .ok () ∧ y = .ok result := by
  cases x with
  | error refusal | ok value => simp [bind, Except.bind]

theorem forM_eq_ok {f : α → Except ε Unit} {items : List α} :
    items.forM f = .ok () ↔ ∀ item ∈ items, f item = .ok () := by
  induction items with
  | nil => exact iff_of_true rfl (by simp)
  | cons item items ih => rw [List.forM, then_eq_ok, List.forall_mem_cons, ← ih]

/-- Commit a transaction that succeeded and roll back one that did not. -/
def commit (s : σ) : Except ε (σ × β) → σ × Except ε β
  | .ok (next, answer) => (next, .ok answer)
  | .error refusal => (s, .error refusal)

@[simp] theorem commit_ok (s next : σ) (answer : β) :
    commit s (.ok (next, answer) : Except ε (σ × β)) = (next, .ok answer) := rfl

@[simp] theorem commit_error (s : σ) (refusal : ε) :
    commit s (.error refusal : Except ε (σ × β)) = (s, .error refusal) := rfl

/-- What holds before a transaction and after every one that succeeds holds across the commit
boundary. -/
theorem commit_of {P : σ → Prop} {outcome : Except ε (σ × β)} (kept : P s)
    (ok : ∀ next answer, outcome = .ok (next, answer) → P next) : P (commit s outcome).1 := by
  cases outcome with
  | error refusal => exact kept
  | ok result => exact ok result.1 result.2 rfl

section Loops

variable (refl : ∀ s, R s s) (trans : ∀ {a b c}, R a b → R b c → R a c) {last : σ}
include refl trans

/-- What every step of a loop establishes across itself, the loop establishes. -/
theorem foldl_rel {f : σ → α → σ}
    (step : ∀ s, ∀ input ∈ inputs, R s (f s input)) : R s (inputs.foldl f s) := by
  induction inputs generalizing s with
  | nil => exact refl s
  | cons input rest ih =>
    exact trans (step s input mem_cons_self)
      (ih fun s other member => step s other (mem_cons_of_mem _ member))

/-- The same for a loop that a refusal ends. -/
theorem foldlM_rel (step : ∀ s next, ∀ input ∈ inputs, f s input = .ok next → R s next)
    (success : inputs.foldlM f s = .ok last) : R s last := by
  induction inputs generalizing s with
  | nil =>
    cases success
    exact refl _
  | cons input rest ih =>
    obtain ⟨next, first, tail⟩ := bind_eq_ok.mp success
    exact trans (step s next input mem_cons_self first)
      (ih (fun s next other member => step s next other (mem_cons_of_mem _ member)) tail)

/-- A loop that keeps an invariant leaves behind what each of its steps wrote, when
no later step undoes it. -/
theorem foldlM_each {P : α → σ → Prop}
    (keeps : ∀ {a b input}, R a b → P input a → P input b)
    (step : ∀ s next, ∀ input ∈ inputs, I s → f s input = .ok next →
      I next ∧ R s next ∧ P input next) (start : I s) (success : inputs.foldlM f s = .ok last) :
    I last ∧ R s last ∧ ∀ input ∈ inputs, P input last := by
  induction inputs generalizing s with
  | nil =>
    cases success
    exact ⟨start, refl _, by simp⟩
  | cons input rest ih =>
    obtain ⟨next, first, tail⟩ := bind_eq_ok.mp success
    obtain ⟨held, across, wrote⟩ := step s next input mem_cons_self start first
    obtain ⟨kept, later, rest⟩ := ih
      (fun s next other member => step s next other (mem_cons_of_mem _ member)) held tail
    exact ⟨kept, trans across later, forall_mem_cons.mpr ⟨keeps later wrote, rest⟩⟩

end Loops

/-- A loop whose steps succeed from an invariant they keep succeeds. -/
theorem foldlM_ok
    (step : ∀ s, ∀ input ∈ inputs, I s → ∃ next, f s input = .ok next ∧ I next) (start : I s) :
    ∃ last, inputs.foldlM f s = .ok last ∧ I last := by
  induction inputs generalizing s with
  | nil => exact ⟨s, rfl, start⟩
  | cons input rest ih =>
    obtain ⟨next, first, held⟩ := step s input mem_cons_self start
    obtain ⟨last, tail, kept⟩ := ih
      (fun s other member => step s other (mem_cons_of_mem _ member)) held
    refine ⟨last, ?_, kept⟩
    exact bind_eq_ok.mpr ⟨next, first, tail⟩

namespace Batch

variable (item : Nat → σ → α → Except ε (σ × β)) {index : Nat} {answers : List β}

/-- Handle the items in order, the first at `index`. -/
def run : Nat → σ → List α → Except ε (σ × List β)
  | _, s, [] => return (s, [])
  | index, s, input :: rest => do
      let (next, answer) ← item index s input
      let (last, answers) ← run (index + 1) next rest
      return (last, answer :: answers)

variable {item} {s last : σ} {input : α}

/-- A batch that succeeds handles its first item and then the rest. -/
theorem run_cons_ok {rest : List α} :
    run item index s (input :: rest) = .ok (last, answers) ↔
      ∃ next answer more, item index s input = .ok (next, answer) ∧
        run item (index + 1) next rest = .ok (last, more) ∧ answers = answer :: more := by
  constructor
  · intro success
    obtain ⟨⟨next, answer⟩, first, success⟩ := bind_eq_ok.mp success
    obtain ⟨⟨final, more⟩, tail, success⟩ := bind_eq_ok.mp success
    cases success
    exact ⟨next, answer, more, first, tail, rfl⟩
  · rintro ⟨next, answer, more, first, tail, rfl⟩
    exact bind_eq_ok.mpr ⟨_, first, bind_eq_ok.mpr ⟨_, tail, rfl⟩⟩

/-- What every item establishes across itself, the batch establishes across
the whole list. -/
theorem run_rel (refl : ∀ s, R s s) (trans : ∀ {a b c}, R a b → R b c → R a c)
    (step : ∀ index s input next answer, input ∈ inputs →
      item index s input = .ok (next, answer) → R s next)
    (success : run item index s inputs = .ok (last, answers)) : R s last := by
  induction inputs generalizing index s answers with
  | nil =>
    cases success
    exact refl _
  | cons input rest ih =>
    obtain ⟨next, answer, more, first, tail, -⟩ := run_cons_ok.mp success
    exact trans (step _ _ _ _ _ (mem_cons_self) first)
      (ih (fun index s input next answer member => step index s input next answer
        (mem_cons_of_mem _ member)) tail)

/-- What every item keeps, the batch keeps. -/
theorem run_keeps (step : ∀ index s input next answer, input ∈ inputs →
      item index s input = .ok (next, answer) → I s → I next)
    (success : run item index s inputs = .ok (last, answers)) (start : I s) : I last :=
  run_rel (R := fun s next => I s → I next) (fun _ => id) (fun first second held =>
    second (first held))
    step success start

/-- Every item answers: results and inputs correspond one to one. -/
theorem run_length (success : run item index s inputs = .ok (last, answers)) :
    answers.length = inputs.length := by
  induction inputs generalizing index s answers with
  | nil =>
    cases success
    rfl
  | cons input rest ih =>
    obtain ⟨next, answer, more, -, tail, rfl⟩ := run_cons_ok.mp success
    simp [ih tail]

/-- A batch splits at any item: what came before it, the item itself, and what
came after, with the answers in the same places. -/
theorem run_split {before after : List α}
    (success : run item index s (before ++ input :: after) = .ok (last, answers)) :
    ∃ middle early next answer late,
      run item index s before = .ok (middle, early) ∧
        item (index + before.length) middle input = .ok (next, answer) ∧
        run item (index + before.length + 1) next after = .ok (last, late) ∧
        answers = early ++ answer :: late := by
  induction before generalizing index s answers with
  | nil =>
    obtain ⟨next, answer, more, first, tail, rfl⟩ := run_cons_ok.mp success
    exact ⟨s, [], next, answer, more, rfl, by simpa using first, by simpa using tail, rfl⟩
  | cons head rest ih =>
    obtain ⟨next, answer, more, first, tail, rfl⟩ := run_cons_ok.mp success
    obtain ⟨middle, early, after, reply, late, pre, here, post, rfl⟩ := ih tail
    refine ⟨middle, answer :: early, after, reply, late,
      run_cons_ok.mpr ⟨next, answer, early, first, pre, rfl⟩, ?_, ?_, rfl⟩
    · have position : index + (head :: rest).length = index + 1 + rest.length := by
        simp only [length_cons]
        omega
      rw [position]
      exact here
    · have position : index + (head :: rest).length + 1 = index + 1 + rest.length + 1 := by
        simp only [length_cons]
        omega
      rw [position]
      exact post

end Batch
end Coppice.Std
