import Coppice.Kindle.Book

/-!
# Nesting of the navigation

`nest_nav_entries` makes a tree of entries with their depths, and `flatten` in
`tools/src/mobi2epub.rs` makes a list of the tree again. The open path leads along the last
siblings, so every entry is appended at the end of the document order.
-/

namespace Coppice.Kindle

open Coppice.Std Coppice.Std.Checked List

def flatten : List MobiNavEntry → List MobiNavEntry
  | [] => []
  | .node entry children :: rest => .node entry [] :: (flatten children ++ flatten rest)

/-- The entries in document order, with their depths in the tree. -/
def outline : Nat → List MobiNavEntry → List (Nat × NavEntry)
  | _, [] => []
  | depth, .node entry children :: rest =>
    (depth, entry) :: (outline (depth + 1) children ++ outline depth rest)

/-- The depths the entries get: none is more than `room`, which is one below the entry before. -/
def clamped : Nat → List (Nat × NavEntry) → List (Nat × NavEntry)
  | _, [] => []
  | room, (depth, entry) :: rest => (min depth room, entry) :: clamped (min depth room + 1) rest

/-- A path along the last siblings of each level. -/
def LastPath : List Nat → List MobiNavEntry → Prop
  | [], _ => True
  | index :: path, siblings => ∃ before entry children,
      siblings = before ++ [.node entry children] ∧ index = before.length ∧ LastPath path children

variable {path : List Nat} {siblings : List MobiNavEntry}

theorem flatten_eq_map_outline (depth : Nat) (siblings : List MobiNavEntry) :
    flatten siblings = (outline depth siblings).map fun tagged => .node tagged.2 [] := by
  fun_induction flatten siblings generalizing depth with
  | case1 => simp [outline]
  | case2 entry children rest inner later => simp [outline, ← inner (depth + 1), ← later depth]

theorem outline_append (depth : Nat) (left right : List MobiNavEntry) :
    outline depth (left ++ right) = outline depth left ++ outline depth right := by
  induction left with
  | nil => simp [outline]
  | cons sibling left ih =>
    obtain ⟨entry, children⟩ := sibling
    simp [outline, ih]

theorem map_snd_clamped (room : Nat) (flat : List (Nat × NavEntry)) :
    (clamped room flat).map Prod.snd = flat.map Prod.snd := by
  induction flat generalizing room with
  | nil => rfl
  | cons tagged flat ih => simp [clamped, ih]

theorem LastPath.take (last : LastPath path siblings) (depth : Nat) :
    LastPath (path.take depth) siblings := by
  induction path generalizing siblings depth with
  | nil => simp [LastPath]
  | cons index path ih =>
    cases depth with
    | zero => trivial
    | succ depth =>
      obtain ⟨before, entry, children, shape, place, below⟩ := last
      exact ⟨before, entry, children, shape, place, ih below depth⟩

/-- The new entry comes last in document order, below the end of the path. -/
theorem appendAt_last (last : LastPath path siblings) (entry : NavEntry) :
    ∃ roots place, appendAt path entry siblings = .ok (roots, place) ∧
      LastPath (path ++ [place]) roots ∧ ∀ depth, outline depth roots =
        outline depth siblings ++ [(depth + path.length, entry)] := by
  induction path generalizing siblings with
  | nil =>
    refine ⟨_, _, rfl, ⟨siblings, entry, [], rfl, rfl, trivial⟩, fun depth => ?_⟩
    rw [outline_append]
    simp [outline]
  | cons index path ih =>
    obtain ⟨before, parent, children, rfl, rfl, below⟩ := last
    obtain ⟨grown, place, appended, further, order⟩ := ih below
    refine ⟨before ++ [.node parent grown], place, ?_, ⟨before, parent, grown, rfl, rfl, further⟩,
      fun depth => ?_⟩
    · rw [appendAt, item, getElem?_concat_length]
      simp only [ok_bind, appended, set_append_right _ _ le_rfl, Nat.sub_self, set_cons_zero]
      rfl
    · simp [outline_append, outline, order, Nat.add_assoc, Nat.add_comm 1]

/-- A run of the loop from a path along the last siblings. -/
theorem foldlM_nestEntry (last : LastPath path siblings) (flat : List (Nat × NavEntry)) :
    ∃ roots path', flat.foldlM nestEntry (siblings, path) = .ok (roots, path') ∧
      outline 0 roots = outline 0 siblings ++ clamped path.length flat := by
  induction flat generalizing path siblings with
  | nil => exact ⟨siblings, path, rfl, by simp [clamped]⟩
  | cons tagged flat ih =>
    obtain ⟨depth, entry⟩ := tagged
    obtain ⟨grown, place, appended, further, order⟩ := appendAt_last (last.take depth) entry
    obtain ⟨roots, path', ran, result⟩ := ih further
    have step : nestEntry (siblings, path) (depth, entry) =
        .ok (grown, path.take depth ++ [place]) := by
      simp only [nestEntry, appended, ok_bind]
      rfl
    refine ⟨roots, path', ?_, ?_⟩
    · rw [foldlM_cons, step, ok_bind, ran]
    · rw [result, order]
      simp [clamped]

/-- Nesting has no fault, and the tree holds the entries in their order, each as deep as it asks
for and as the entry before it allows. -/
theorem nestNavEntries_lossless (flat : List (Nat × NavEntry)) :
    ∃ roots, nestNavEntries flat = .ok roots ∧
      flatten roots = flat.map (fun tagged => .node tagged.2 []) ∧
      outline 0 roots = clamped 0 flat := by
  obtain ⟨roots, path, ran, order⟩ := @foldlM_nestEntry [] [] trivial flat
  simp only [outline, nil_append, length_nil] at order
  refine ⟨roots, ?_, ?_, order⟩
  · rw [nestNavEntries, ran]
    rfl
  have entries := congrArg (map (MobiNavEntry.node · [])) (map_snd_clamped 0 flat)
  rw [map_map, map_map] at entries
  rw [flatten_eq_map_outline 0, order]
  exact entries

end Coppice.Kindle
