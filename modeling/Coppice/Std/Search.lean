import Mathlib.Data.List.Basic

/-!
# Searching a list for a sublist

`findSub` is the position of the first occurrence of one list inside another.
-/

namespace Coppice.Std

variable {α : Type} [DecidableEq α] {needle haystack : List α} {found : Nat}

/-- The position of the first occurrence of `needle`. -/
def findSub (needle : List α) : List α → Option Nat
  | [] => if needle = [] then some 0 else none
  | item :: rest =>
    if needle.isPrefixOf (item :: rest) then some 0 else (findSub needle rest).map (· + 1)

/-- The needle starts at the position found. -/
theorem findSub_some
    (first : findSub needle haystack = some found) : needle <+: haystack.drop found := by
  induction haystack generalizing found with
  | nil =>
    rw [findSub] at first
    split at first
    · cases first
      exact ‹needle = []› ▸ List.nil_prefix
    · cases first
  | cons item rest ih =>
    rw [findSub] at first
    split at first
    · cases first
      exact List.isPrefixOf_iff_prefix.1 ‹_›
    · obtain ⟨position, earlier, rfl⟩ := Option.map_eq_some_iff.1 first
      exact ih earlier

theorem findSub_le
    (first : findSub needle haystack = some found) : needle.length ≤ haystack.length - found := by
  have starts := (findSub_some first).length_le
  rwa [List.length_drop] at starts

end Coppice.Std
