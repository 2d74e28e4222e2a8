import Mathlib.Algebra.Order.Ring.Nat
import Mathlib.Data.List.Forall2

/-!
# Computations that may panic

A machine program can stop in ways it does not mean to: an index past the end, an operation
whose result does not fit its type, a loop without an end. `Checked` keeps these faults apart
from the errors a program returns, and `Returns` is the rule of postconditions for it: the
program has no fault, and its value, if it has one, meets the postcondition.

Numbers are natural numbers; the operations below are those of a 64-bit word. A loop is given
a bound on its turns, and to reach that bound is a fault, so a program without faults ends.
-/

namespace Coppice.Std

open List

inductive Fault where
  | outOfRange
  | overflow
  | unfinished
deriving DecidableEq, Repr

/-- Why a computation has no value. -/
inductive Stop (ε : Type) where
  | error (error : ε)
  | fault (fault : Fault)
deriving DecidableEq, Repr

/-- A computation with errors of its own and with faults. -/
abbrev Checked (ε α : Type) := Except (Stop ε) α

namespace Checked

variable {ε α β σ ρ : Type} {state : σ}

def fail (error : ε) : Checked ε α := .error (.error error)

def fault (fault : Fault) : Checked ε α := .error (.fault fault)

/-- A value or an error, never a fault. -/
def Safe (run : Checked ε α) : Prop := ∀ fault, run ≠ .error (.fault fault)

/-- No fault, and a value that meets the postcondition. -/
def Returns (run : Checked ε α) (post : α → Prop) : Prop :=
  Safe run ∧ ∀ value, run = .ok value → post value

/-- The fault of a computation, if it has one. -/
def faultOf : Checked ε α → Option Fault
  | .error (.fault fault) => some fault
  | _ => none

section Rules

variable {run : Checked ε α} {inputs : List α} {f next : α → Checked ε β} {value : α}

theorem not_safe_of_faultOf {fault : Fault} (faulty : faultOf run = some fault) : ¬Safe run := by
  intro safe
  unfold faultOf at faulty
  split at faulty
  · exact safe _ rfl
  · cases faulty

theorem Returns.post {post : α → Prop} (returns : Returns run post)
    (result : run = .ok value) : post value :=
  returns.2 value result

variable {post : α → Prop}

theorem Returns.safe (returns : Returns run post) : Safe run :=
  returns.1

theorem returns_ok (holds : post value) : Returns (.ok value : Checked ε α) post := by
  refine ⟨nofun, ?_⟩
  rintro _ ⟨⟩
  exact holds

theorem returns_pure (holds : post value) : Returns (pure value : Checked ε α) post :=
  returns_ok holds

theorem returns_fail {error : ε} : Returns (fail error : Checked ε α) post :=
  ⟨nofun, nofun⟩

theorem Returns.mono {post' : α → Prop} (returns : Returns run post)
    (weaker : ∀ value, post value → post' value) : Returns run post' :=
  ⟨returns.1, fun value result => weaker value (returns.2 value result)⟩

theorem safe_of_returns (returns : Returns run fun _ => True) : Safe run :=
  returns.1

theorem Safe.returns (safe : Safe run) : Returns run fun _ => True :=
  ⟨safe, fun _ _ => trivial⟩

theorem ok_bind (value : α) (next : α → Checked ε β) :
    (Except.ok value >>= next) = next value := rfl

theorem safe_bind_iff :
    Safe (run >>= next) ↔ Safe run ∧ ∀ value, run = .ok value → Safe (next value) := by
  cases run with
  | error stop =>
    refine ⟨fun safe => ⟨fun fault stopped => ?_, nofun⟩, fun safe fault stopped => ?_⟩
    · cases stopped
      exact safe fault rfl
    · cases stopped
      exact safe.1 fault rfl
  | ok value =>
    refine ⟨fun safe => ⟨nofun, ?_⟩, fun safe => safe.2 value rfl⟩
    rintro _ ⟨⟩
    exact safe

theorem Returns.bind {mid : α → Prop} {post : β → Prop} (first : Returns run mid)
    (second : ∀ value, mid value → Returns (next value) post) : Returns (run >>= next) post := by
  cases run with
  | error stop =>
    refine ⟨safe_bind_iff.2 ⟨first.1, nofun⟩, nofun⟩
  | ok value => exact second value (first.2 value rfl)

theorem returns_ite {condition : Prop} [Decidable condition] {yes no : Checked ε α}
    (positive : condition → Returns yes post)
    (negative : ¬condition → Returns no post) : Returns (if condition then yes else no) post := by
  split
  · exact positive ‹_›
  · exact negative ‹_›

theorem returns_foldlM {step : σ → α → Checked ε σ} (inv : σ → Prop)
    (each : ∀ state, inv state → ∀ input ∈ inputs, Returns (step state input) inv)
    (start : inv state) : Returns (inputs.foldlM step state) inv := by
  induction inputs generalizing state with
  | nil => exact returns_pure start
  | cons input inputs ih =>
    refine (each state start input mem_cons_self).bind fun next holds => ih ?_ holds
    exact fun state holds input member => each state holds input (mem_cons_of_mem _ member)

theorem returns_mapM {post : β → Prop} (each : ∀ input ∈ inputs, Returns (f input) post) :
    Returns (inputs.mapM f) fun outputs =>
      outputs.length = inputs.length ∧ ∀ output ∈ outputs, post output := by
  induction inputs with
  | nil => exact returns_pure ⟨rfl, nofun⟩
  | cons input inputs ih =>
    rw [mapM_cons]
    refine (each input mem_cons_self).bind fun output holds => ?_
    refine (ih (forall_mem_cons.1 each).2).bind ?_
    rintro outputs ⟨lengths, all⟩
    refine returns_pure ⟨by rw [length_cons, length_cons, lengths], ?_⟩
    rintro other (_ | ⟨_, member⟩)
    · exact holds
    · exact all other member

/-- A successful traversal succeeds at every input. -/
theorem forall₂_of_mapM {outputs : List β} (mapped : inputs.mapM f = .ok outputs) :
    List.Forall₂ (fun input output => f input = .ok output) inputs outputs := by
  induction inputs generalizing outputs with
  | nil =>
    cases mapped
    exact .nil
  | cons input inputs ih =>
    rw [mapM_cons] at mapped
    cases first : f input with
    | error stop =>
      rw [first] at mapped
      cases mapped
    | ok head =>
      cases rest : inputs.mapM f with
      | error stop =>
        rw [first, rest] at mapped
        cases mapped
      | ok tail =>
        rw [first, rest] at mapped
        cases mapped
        exact .cons first (ih rest)

theorem safe_mapM (each : ∀ input ∈ inputs, Safe (f input)) : Safe (inputs.mapM f) :=
  (returns_mapM fun input member => (each input member).returns).safe

end Rules

section Words

variable {a b : Nat}

/-- Addition of two words. -/
def add (a b : Nat) : Checked ε Nat := if a + b < 2 ^ 64 then .ok (a + b) else fault .overflow

def mul (a b : Nat) : Checked ε Nat := if a * b < 2 ^ 64 then .ok (a * b) else fault .overflow

def sub (a b : Nat) : Checked ε Nat := if b ≤ a then .ok (a - b) else fault .overflow

/-- Addition that stays at the largest word. -/
def saturatingAdd (a b : Nat) : Nat := min (a + b) (2 ^ 64 - 1)

@[simp] theorem add_of_lt (fits : a + b < 2 ^ 64) :
    (add a b : Checked ε Nat) = .ok (a + b) := if_pos fits

theorem add_bind (fits : a + b < 2 ^ 64) {next : Nat → Checked ε β} :
    (add a b >>= next) = next (a + b) := by
  rw [add_of_lt fits, ok_bind]

@[simp] theorem mul_of_lt (fits : a * b < 2 ^ 64) :
    (mul a b : Checked ε Nat) = .ok (a * b) := if_pos fits

@[simp] theorem sub_of_le (fits : b ≤ a) :
    (sub a b : Checked ε Nat) = .ok (a - b) := if_pos fits

theorem returns_sub (fits : b ≤ a) : Returns (sub a b : Checked ε Nat) (· = a - b) := by
  rw [sub_of_le fits]
  exact returns_ok rfl

end Words

section Slices

variable {start stop : Nat} {items part : List α}

/-- A slice, or nothing when it does not lie in the list. -/
def get (items : List α) (start stop : Nat) : Option (List α) :=
  if start ≤ stop ∧ stop ≤ items.length then some ((items.drop start).take (stop - start)) else none

/-- A slice, which has to lie in the list. -/
def slice (items : List α) (start stop : Nat) : Checked ε (List α) :=
  match get items start stop with
  | some part => .ok part
  | none => fault .outOfRange

/-- An item, which has to be in the list. -/
def item (items : List α) (index : Nat) : Checked ε α :=
  match items[index]? with
  | some found => .ok found
  | none => fault .outOfRange

theorem get_of_le (ordered : start ≤ stop) (inside : stop ≤ items.length) :
    get items start stop = some ((items.drop start).take (stop - start)) :=
  if_pos ⟨ordered, inside⟩

theorem get_eq_some (found : get items start stop = some part) :
    start ≤ stop ∧ stop ≤ items.length ∧ part = (items.drop start).take (stop - start) := by
  unfold get at found
  split at found
  · cases found
    exact ⟨‹_ ∧ _›.1, ‹_ ∧ _›.2, rfl⟩
  · cases found

theorem length_of_get (found : get items start stop = some part) :
    part.length = stop - start := by
  obtain ⟨_, inside, rfl⟩ := get_eq_some found
  rw [length_take, length_drop]
  omega

@[simp] theorem slice_of_le (ordered : start ≤ stop) (inside : stop ≤ items.length) :
    (slice items start stop : Checked ε (List α)) =
      .ok ((items.drop start).take (stop - start)) := by
  rw [slice, get_of_le ordered inside]

theorem returns_slice (ordered : start ≤ stop) (inside : stop ≤ items.length) :
    Returns (slice items start stop : Checked ε (List α)) fun part =>
      part = (items.drop start).take (stop - start) ∧ part.length = stop - start := by
  rw [slice_of_le ordered inside]
  exact returns_ok ⟨rfl, length_of_get (get_of_le ordered inside)⟩

theorem slice_fault (outside : items.length < stop) :
    (slice items start stop : Checked ε (List α)) = fault .outOfRange := by
  have none : get items start stop = none := if_neg (by omega)
  rw [slice, none]

theorem returns_item {index : Nat} (inside : index < items.length) :
    Returns (item items index : Checked ε α) (· ∈ items) := by
  rw [item, getElem?_eq_getElem inside]
  exact returns_ok (getElem_mem inside)

end Slices

section Loops

/-- What one turn of a loop does. -/
inductive Turn (σ ρ : Type) where
  | next (state : σ)
  | leave (result : ρ)

/-- A loop of at most the given number of turns. -/
def loop (body : σ → Checked ε (Turn σ ρ)) : Nat → σ → Checked ε ρ
  | 0, _ => fault .unfinished
  | turns + 1, state => do
      match ← body state with
      | .next state => loop body turns state
      | .leave result => return result

/-- A turn keeps the invariant and lowers the measure, or leaves with a good result. -/
def Turn.Keeps (inv : σ → Prop) (measure : σ → Nat) (bound : Nat) (post : ρ → Prop) :
    Turn σ ρ → Prop
  | .next state => inv state ∧ measure state < bound
  | .leave result => post result

/-- The rule of loops: an invariant that every turn keeps, with a measure that it lowers. -/
theorem returns_loop {body : σ → Checked ε (Turn σ ρ)} {post : ρ → Prop} (inv : σ → Prop)
    (measure : σ → Nat)
    (turn : ∀ state, inv state → Returns (body state) (Turn.Keeps inv measure (measure state) post))
    {turns : Nat} (start : inv state) (enough : measure state < turns) :
    Returns (loop body turns state) post := by
  induction turns generalizing state with
  | zero => omega
  | succ turns ih =>
    refine (turn state start).bind fun outcome kept => ?_
    cases outcome with
    | next state => exact ih kept.1 (by have := kept.2; omega)
    | leave result => exact returns_pure kept

end Loops

end Checked

end Coppice.Std
