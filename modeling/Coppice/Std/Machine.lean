import Coppice.Std.System

/-!
# Machines

A machine performs actions; in a state where an action has no result it cannot be taken. Its runs
form a transition system, in full or with the actions that are allowed in a state.
-/

namespace Coppice.Std

/-- What an action makes of a state, if it can be taken there. -/
abbrev Machine (σ α : Type) := α → σ → Option σ

namespace Machine

variable {σ α : Type} (machine : Machine σ α) {Initial : σ → Prop} {Allowed : α → σ → Prop} {s : σ}
  {actions : List α}

/-- The runs that take only actions allowed where they are taken. -/
def guarded (Initial : σ → Prop) (Allowed : α → σ → Prop) : System σ where
  Initial := Initial
  Step s next := ∃ action, Allowed action s ∧ machine action s = some next

/-- All runs. -/
def system (Initial : σ → Prop) : System σ := machine.guarded Initial fun _ _ => True

/-- Actions taken one after the other. -/
def run : List α → σ → Option σ
  | [], s => some s
  | action :: rest, s => (machine action s).bind (run rest)

/-- Actions taken one after the other, each where it is allowed. -/
def guardedRun (Allowed : α → σ → Prop) [∀ action s, Decidable (Allowed action s)] :
    List α → σ → Option σ
  | [], s => some s
  | action :: rest, s =>
    if Allowed action s then (machine action s).bind (guardedRun Allowed rest) else none

variable {machine} {start last : σ} {I : σ → Prop}

theorem step_of_perform {next : σ} {action : α} (performed : machine action s = some next) :
    (machine.system Initial).Step s next :=
  ⟨action, trivial, performed⟩

theorem run_append (first second : List α) (s : σ) :
    machine.run (first ++ second) s = (machine.run first s).bind (machine.run second) := by
  induction first generalizing s with
  | nil => rfl
  | cons action rest ih =>
    change (machine action s).bind (machine.run (rest ++ second)) =
      ((machine action s).bind (machine.run rest)).bind (machine.run second)
    rw [Option.bind_assoc]
    exact congrArg _ (funext ih)

theorem steps_of_run {last : σ} (ran : machine.run actions s = some last) :
    (machine.system Initial).Steps s last := by
  induction actions generalizing s with
  | nil =>
    cases ran
    exact .refl
  | cons action rest ih =>
    obtain ⟨next, performed, ran⟩ := Option.bind_eq_some_iff.1 ran
    exact .head (step_of_perform performed) (ih ran)

/-- A run from an initial state reaches its last state. -/
theorem reachable_of_run (initial : Initial start)
    (ran : machine.run actions start = some last) : (machine.system Initial).Reachable last :=
  (System.Reachable.initial initial).steps (steps_of_run ran)

theorem guardedRun_append [∀ action s, Decidable (Allowed action s)]
    (first second : List α) (s : σ) :
    machine.guardedRun Allowed (first ++ second) s =
      (machine.guardedRun Allowed first s).bind (machine.guardedRun Allowed second) := by
  induction first generalizing s with
  | nil => rfl
  | cons action rest ih =>
    change (if Allowed action s then
          (machine action s).bind (machine.guardedRun Allowed (rest ++ second)) else none) =
      (if Allowed action s then (machine action s).bind (machine.guardedRun Allowed rest)
        else none).bind (machine.guardedRun Allowed second)
    split
    · rw [Option.bind_assoc]
      exact congrArg _ (funext ih)
    · rfl

theorem steps_of_guardedRun [∀ action s, Decidable (Allowed action s)] {last : σ}
    (ran : machine.guardedRun Allowed actions s = some last) :
    (machine.guarded Initial Allowed).Steps s last := by
  induction actions generalizing s with
  | nil =>
    cases ran
    exact .refl
  | cons action rest ih =>
    unfold guardedRun at ran
    split at ran
    · rename_i allowed
      obtain ⟨next, performed, ran⟩ := Option.bind_eq_some_iff.1 ran
      exact .head ⟨action, allowed, performed⟩ (ih ran)
    · cases ran

theorem reachable_of_guardedRun [∀ action s, Decidable (Allowed action s)]
    (initial : Initial start) (ran : machine.guardedRun Allowed actions start = some last) :
    (machine.guarded Initial Allowed).Reachable last :=
  System.Reachable.steps (.initial initial) (steps_of_guardedRun ran)

/-- A guarded run is a run. -/
theorem reachable_of_guarded (reachable : (machine.guarded Initial Allowed).Reachable s) :
    (machine.system Initial).Reachable s := by
  induction reachable with
  | initial valid => exact .initial valid
  | step _ transition ih =>
    obtain ⟨action, -, performed⟩ := transition
    exact ih.step (step_of_perform performed)

/-- What holds initially and survives every allowed action holds throughout the guarded runs. -/
theorem guarded_invariant (initial : ∀ s, Initial s → I s)
    (preserved : ∀ s next action, I s → Allowed action s → machine action s = some next → I next)
    (reachable : (machine.guarded Initial Allowed).Reachable s) : I s := by
  refine reachable.invariant initial fun s next holds step => ?_
  obtain ⟨action, allowed, performed⟩ := step
  exact preserved s next action holds allowed performed

/-- What holds initially and survives every action holds throughout the runs. -/
theorem invariant (initial : ∀ s, Initial s → I s)
    (preserved : ∀ s next action, I s → machine action s = some next → I next)
    (reachable : (machine.system Initial).Reachable s) : I s :=
  guarded_invariant initial (fun s next action holds _ => preserved s next action holds) reachable

end Machine
end Coppice.Std
