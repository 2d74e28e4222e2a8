import Mathlib.Logic.Relation

/-!
# Transition systems

A system says which states it starts in and which steps it may take; an
interleaving is a run of its steps in any order. `Reachable.invariant` is the
one induction every safety result of the development goes through.
-/

namespace Coppice.Std

/-- Initial states and admitted steps. -/
structure System (σ : Type) where
  Initial : σ → Prop
  Step : σ → σ → Prop

namespace System

variable {σ : Type} {system : System σ} {s next : σ}

/-- Zero or more steps. -/
abbrev Steps (system : System σ) : σ → σ → Prop := Relation.ReflTransGen system.Step

/-- States a run starting in an initial state can be in. -/
inductive Reachable (system : System σ) : σ → Prop where
  | initial {s : σ} (valid : system.Initial s) : Reachable system s
  | step {s next : σ} (prior : Reachable system s) (transition : system.Step s next) :
      Reachable system next

/-- What holds initially and survives every step holds in every reachable state. -/
theorem Reachable.invariant {Inv : σ → Prop} (initial : ∀ s, system.Initial s → Inv s)
    (preserved : ∀ s next, Inv s → system.Step s next → Inv next)
    {s : σ} (reachable : system.Reachable s) : Inv s := by
  induction reachable with
  | initial valid => exact initial _ valid
  | step _ transition ih => exact preserved _ _ ih transition

theorem Reachable.steps (prior : system.Reachable s) (steps : system.Steps s next) :
    system.Reachable next := by
  induction steps with
  | refl => exact prior
  | tail _ transition ih => exact .step ih transition

/-- A reflexive and transitive relation across every step of a run from a
reachable state holds across the run. -/
theorem Steps.rel {R : σ → σ → Prop} (refl : ∀ s, R s s) (trans : ∀ {a b c}, R a b → R b c → R a c)
    (step : ∀ s next, system.Reachable s → system.Step s next → R s next)
    (prior : system.Reachable s) (steps : system.Steps s next) : R s next := by
  induction steps with
  | refl => exact refl _
  | tail before transition ih => exact trans ih (step _ _ (prior.steps before) transition)

end System
end Coppice.Std
