import Coppice.Std.Table

/-!
# Trees of files

A disk is a list of files with their paths. What stands at a path is the tree of the files at and
below it, by their paths from there: a file is a tree with one entry of empty path, a directory a
tree of longer ones, and nothing the empty tree.
-/

namespace Coppice.Std

open List

/-- Files by their paths. -/
abbrev Files (κ β : Type) := List (List κ × β)

/-- Neither path is at or below the other. -/
def Apart {κ : Type} (first second : List κ) : Prop := ¬ first <+: second ∧ ¬ second <+: first

instance {κ : Type} [DecidableEq κ] (first second : List κ) : Decidable (Apart first second) :=
  inferInstanceAs (Decidable (_ ∧ _))

variable {κ : Type} {first second folder : List κ}

theorem Apart.symm (apart : Apart first second) : Apart second first :=
  ⟨apart.2, apart.1⟩

theorem Apart.ne (apart : Apart first second) : first ≠ second :=
  fun same => apart.1 (same ▸ prefix_refl first)

theorem apart_of_length_eq (same : first.length = second.length)
    (differ : first ≠ second) : Apart first second :=
  ⟨fun related => differ (related.eq_of_length same),
    fun related => differ (related.eq_of_length same.symm).symm⟩

/-- Distinct paths in one directory are apart. -/
theorem apart_concat {first second : κ} (differ : first ≠ second) :
    Apart (folder ++ [first]) (folder ++ [second]) :=
  apart_of_length_eq (by simp) fun same => differ (by simpa using same)

/-- A path apart from a directory is apart from everything below it. -/
theorem Apart.below {path rest : List κ} (apart : Apart folder path) :
    Apart (folder ++ rest) path := by
  refine ⟨fun related => apart.1 ((prefix_append folder rest).trans related), fun related => ?_⟩
  rcases prefix_or_prefix_of_prefix related (prefix_append folder rest) with up | down
  · exact apart.2 up
  · exact apart.1 down

/-- The path is at or below one of the roots. -/
def Within (roots : Set (List κ)) (path : List κ) : Prop := ∃ root ∈ roots, root <+: path

section Within

variable {roots : Set (List κ)} {root path : List κ}

theorem Within.self (listed : root ∈ roots) : Within roots root :=
  ⟨root, listed, prefix_rfl⟩

theorem Within.below (within : Within roots root) (rest : List κ) : Within roots (root ++ rest) :=
  within.imp fun _ => And.imp_right fun above => above.trans (prefix_append root rest)

theorem Within.apart (within : Within roots root) (apart : ∀ above ∈ roots, Apart above path) :
    Apart root path := by
  obtain ⟨above, listed, rest, rfl⟩ := within
  exact (apart above listed).below

end Within

namespace Files

variable {κ β : Type} [DecidableEq κ] {files grown : Files κ β} {root source target path : List κ}
  {entry : List κ × β}

/-- What stands at a path. -/
def tree (files : Files κ β) (root : List κ) : Files κ β :=
  files.filterMap fun entry =>
    if root <+: entry.1 then some (entry.1.drop root.length, entry.2) else none

/-- Nothing stands at the path afterwards. -/
def remove (files : Files κ β) (root : List κ) : Files κ β :=
  files.filter fun entry => ¬ root <+: entry.1

/-- The tree stands at the path afterwards, and nothing else. -/
def plant (files : Files κ β) (root : List κ) (grown : Files κ β) : Files κ β :=
  files.remove root ++ grown.map fun entry => (root ++ entry.1, entry.2)

def move (files : Files κ β) (source target : List κ) : Files κ β :=
  (files.remove source).plant target (files.tree source)

/-- The contents of a file. -/
def contents (grown : Files κ β) : Option β := (lookup Prod.fst grown []).map Prod.snd

def isFile (grown : Files κ β) : Bool := grown.contents.isSome

def isDir (grown : Files κ β) : Bool := grown.any (·.1 ≠ [])

theorem tree_append (files more : Files κ β) (root : List κ) :
    tree (files ++ more) root = tree files root ++ tree more root :=
  filterMap_append

@[simp] theorem tree_remove_self (files : Files κ β) (root : List κ) :
    (files.remove root).tree root = [] := by
  refine filterMap_eq_nil_iff.2 fun entry kept => ?_
  have outside := (mem_filter.1 kept).2
  rw [if_neg (of_decide_eq_true outside)]

theorem tree_map_self (root : List κ) (grown : Files κ β) :
    tree (grown.map fun entry => (root ++ entry.1, entry.2)) root = grown := by
  rw [tree, filterMap_map]
  simp

@[simp] theorem tree_plant_self (files : Files κ β) (root : List κ) (grown : Files κ β) :
    (files.plant root grown).tree root = grown := by
  rw [plant, tree_append, tree_remove_self, tree_map_self, nil_append]

@[simp] theorem tree_move_target (files : Files κ β) (source target : List κ) :
    (files.move source target).tree target = files.tree source :=
  tree_plant_self _ _ _

theorem tree_remove_apart (apart : Apart root path) :
    (files.remove root).tree path = files.tree path := by
  rw [tree, remove, filterMap_filter]
  refine filterMap_congr fun entry _ => ?_
  split
  · rfl
  rename_i inside
  have inside : root <+: entry.1 := by simpa using inside
  rw [if_neg fun below => ?_]
  rcases prefix_or_prefix_of_prefix inside below with up | down
  · exact apart.1 up
  · exact apart.2 down

theorem tree_map_apart (apart : Apart root path) (grown : Files κ β) :
    tree (grown.map fun entry => (root ++ entry.1, entry.2)) path = [] := by
  rw [tree, filterMap_map]
  refine filterMap_eq_nil_iff.2 fun entry _ => ?_
  exact if_neg (apart.below).2

theorem tree_plant_apart (apart : Apart root path) (grown : Files κ β) :
    (files.plant root grown).tree path = files.tree path := by
  rw [plant, tree_append, tree_map_apart apart, append_nil, tree_remove_apart apart]

theorem tree_move_apart (fromSource : Apart source path) (fromTarget : Apart target path) :
    (files.move source target).tree path = files.tree path := by
  rw [move, tree_plant_apart fromTarget, tree_remove_apart fromSource]

/-- What stands below a path is in the tree there. -/
theorem tree_below (files : Files κ β) (root rest : List κ) :
    files.tree (root ++ rest) = (files.tree root).tree rest := by
  rw [tree, tree, tree, filterMap_filterMap]
  refine filterMap_congr fun entry _ => ?_
  by_cases above : root <+: entry.1
  · obtain ⟨tail, shape⟩ := above
    have below : root ++ rest <+: root ++ tail ↔ rest <+: tail := prefix_append_right_inj root
    have dropped : (root ++ tail).drop (root ++ rest).length = tail.drop rest.length := by
      rw [length_append, ← drop_drop, drop_left]
    simp only [← shape, below, dropped, prefix_append, if_true, drop_left, Option.bind_some]
  · rw [if_neg above, if_neg fun below => above ((prefix_append root rest).trans below)]
    rfl

theorem tree_move_source (apart : Apart source target) :
    (files.move source target).tree source = [] := by
  rw [move, tree_plant_apart apart.symm, tree_remove_self]

section WellFormed

/-- No file lies below a file. -/
def WellFormed (files : Files κ β) : Prop :=
  ∀ upper ∈ files, ∀ lower ∈ files, upper.1 <+: lower.1 → upper.1 = lower.1

/-- No file is above the path. -/
def Unblocked (files : Files κ β) (root : List κ) : Prop :=
  ∀ entry ∈ files, entry.1 <+: root → entry.1 = root

instance (files : Files κ β) (root : List κ) : Decidable (files.Unblocked root) :=
  inferInstanceAs (Decidable (∀ entry ∈ files, entry.1 <+: root → entry.1 = root))

omit [DecidableEq κ] in
theorem WellFormed.of_sublist {fewer : Files κ β} (formed : files.WellFormed)
    (sub : fewer.Sublist files) : fewer.WellFormed :=
  fun upper here lower there => formed upper (sub.mem here) lower (sub.mem there)

theorem WellFormed.remove (formed : files.WellFormed) (root : List κ) :
    (files.remove root).WellFormed :=
  formed.of_sublist filter_sublist

theorem mem_tree :
    entry ∈ files.tree root ↔ (root ++ entry.1, entry.2) ∈ files := by
  unfold tree
  rw [mem_filterMap]
  constructor
  · rintro ⟨found, listed, same⟩
    split at same
    · rename_i below
      obtain ⟨rest, eq⟩ := below
      cases same
      rw [← eq, drop_left]
      exact eq ▸ listed
    · cases same
  · intro listed
    refine ⟨_, listed, ?_⟩
    rw [if_pos (prefix_append root entry.1), drop_left]

theorem WellFormed.tree (formed : files.WellFormed) (root : List κ) :
    (files.tree root).WellFormed := by
  intro upper here lower there related
  have same := formed _ (mem_tree.1 here) _ (mem_tree.1 there)
    ((prefix_append_right_inj root).2 related)
  exact append_cancel_left same

theorem mem_plant :
    entry ∈ files.plant root grown ↔
      (entry ∈ files ∧ ¬ root <+: entry.1) ∨ ∃ new ∈ grown, entry = (root ++ new.1, new.2) := by
  unfold plant remove
  rw [mem_append, mem_filter, mem_map]
  simp only [decide_eq_true_eq]
  constructor
  · rintro (old | ⟨new, listed, rfl⟩)
    · exact .inl old
    · exact .inr ⟨new, listed, rfl⟩
  · rintro (old | ⟨new, listed, rfl⟩)
    · exact .inl old
    · exact .inr ⟨new, listed, rfl⟩

/-- A well-formed tree is planted where no file is above. -/
theorem WellFormed.plant (formed : files.WellFormed)
    (whole : grown.WellFormed) (free : files.Unblocked root) :
    (files.plant root grown).WellFormed := by
  intro upper here lower there related
  rcases mem_plant.1 here with ⟨oldUpper, outside⟩ | ⟨newUpper, grownUpper, rfl⟩
  · rcases mem_plant.1 there with ⟨oldLower, -⟩ | ⟨newLower, grownLower, rfl⟩
    · exact formed upper oldUpper lower oldLower related
    · rcases prefix_or_prefix_of_prefix related (prefix_append root newLower.1) with up | down
      · exact absurd (free upper oldUpper up ▸ prefix_refl _) outside
      · exact absurd down outside
  · rcases mem_plant.1 there with ⟨-, outside⟩ | ⟨newLower, grownLower, rfl⟩
    · exact absurd ((prefix_append root newUpper.1).trans related) outside
    · rw [whole newUpper grownUpper newLower grownLower ((prefix_append_right_inj root).1 related)]

/-- No file is above a path where something stands. -/
theorem WellFormed.unblocked (formed : files.WellFormed) (occupied : files.tree root ≠ []) :
    files.Unblocked root := by
  intro entry listed above
  obtain ⟨found, there⟩ := exists_mem_of_ne_nil _ occupied
  have same := formed entry listed _ (mem_tree.1 there)
    (above.trans (prefix_append root found.1))
  have shorter := above.length_le
  rw [same] at above shorter
  refine same.trans ?_
  have empty : found.1 = [] := by
    rw [length_append] at shorter
    exact length_eq_zero_iff.1 (by omega)
  rw [empty, append_nil]

/-- A move to a path apart brings no file above. -/
theorem Unblocked.move (free : files.Unblocked root) (apart : Apart target root) :
    (files.move source target).Unblocked root := by
  intro entry listed above
  rcases mem_plant.1 listed with ⟨old, -⟩ | ⟨new, -, rfl⟩
  · exact free entry (mem_of_mem_filter old) above
  · exact absurd above apart.below.1

theorem Unblocked.move_self (free : files.Unblocked root) :
    (files.move source root).Unblocked root := by
  intro entry listed above
  rcases mem_plant.1 listed with ⟨old, -⟩ | ⟨new, -, rfl⟩
  · exact free entry (mem_of_mem_filter old) above
  · have shorter := above.length_le
    rw [length_append] at shorter
    rw [length_eq_zero_iff.1 (show new.1.length = 0 by omega), append_nil]

omit [DecidableEq κ] in
theorem wellFormed_file (bytes : β) : WellFormed [(([] : List κ), bytes)] := by
  intro upper here lower there _
  rw [mem_singleton.1 here, mem_singleton.1 there]

/-- A file is no directory. -/
theorem isDir_of_isFile (formed : grown.WellFormed) (file : grown.isFile = true) :
    grown.isDir = false := by
  obtain ⟨bytes, contents⟩ := Option.isSome_iff_exists.1 file
  obtain ⟨entry, there, -⟩ := Option.map_eq_some_iff.1 contents
  refine any_eq_false.2 fun other listed nonempty => ?_
  have same := formed entry (lookup_mem there) other listed
  rw [lookup_key there] at same
  simp [← same] at nonempty

theorem ne_nil_of_isFile (file : grown.isFile = true) : grown ≠ [] := by
  rintro rfl
  cases file

theorem isFile_of_not_isDir (occupied : grown ≠ []) (file : grown.isDir = false) :
    grown.isFile = true := by
  obtain ⟨entry, listed⟩ := exists_mem_of_ne_nil _ occupied
  have empty : entry.1 = [] := by
    simpa using any_eq_false.1 file entry listed
  have there := (@lookup_isSome _ _ _ Prod.fst grown []).2 ⟨entry, listed, empty⟩
  simpa [isFile, contents] using there

theorem tree_eq_nil_iff : files.tree root = [] ↔ ∀ entry ∈ files, ¬ root <+: entry.1 := by
  unfold tree
  rw [filterMap_eq_nil_iff]
  constructor
  · intro nothing entry listed below
    have none := nothing entry listed
    rw [if_pos below] at none
    cases none
  · intro nothing entry listed
    exact if_neg (nothing entry listed)

end WellFormed

section Confined

/-- Whatever changes is at or below the roots, and no file comes to lie below a file. -/
structure Confined (roots : Set (List κ)) (files next : Files κ β) : Prop where
  tree : ∀ path, (∀ root ∈ roots, Apart root path) → next.tree path = files.tree path
  entries : ∀ entry ∈ next, entry ∈ files ∨ Within roots entry.1
  formed : files.WellFormed → next.WellFormed

variable {roots more : Set (List κ)} {next final : Files κ β}

theorem Confined.refl (files : Files κ β) : Confined roots files files :=
  ⟨fun _ _ => rfl, fun _ listed => .inl listed, id⟩

theorem Confined.trans (first : Confined roots files next) (second : Confined roots next final) :
    Confined roots files final where
  tree path apart := (second.tree path apart).trans (first.tree path apart)
  entries entry listed := (second.entries entry listed).elim (first.entries entry) .inr
  formed formed := second.formed (first.formed formed)

/-- Roots may be exchanged for roots above them. -/
theorem Confined.mono (confined : Confined roots files next)
    (within : ∀ root ∈ roots, Within more root) : Confined more files next where
  tree path apart := confined.tree path fun root listed => (within root listed).apart apart
  entries entry listed := by
    refine (confined.entries entry listed).imp_right fun ⟨root, known, rest, shape⟩ => ?_
    exact shape ▸ (within root known).below rest
  formed := confined.formed

theorem Confined.union (first : Confined roots files next) (second : Confined more next final) :
    Confined (roots ∪ more) files final :=
  (first.mono fun _ listed => .self (.inl listed)).trans
    (second.mono fun _ listed => .self (.inr listed))

/-- No file comes to stand above a path that no root is above. -/
theorem Confined.mem_of_above (confined : Confined roots files next)
    (below : ∀ root ∈ roots, ¬ root <+: path) (listed : entry ∈ next) (above : entry.1 <+: path) :
    entry ∈ files :=
  (confined.entries entry listed).resolve_right fun ⟨root, known, higher⟩ =>
    below root known (higher.trans above)

theorem Confined.foldl {α : Type} {step : Files κ β → α → Files κ β} {inputs : List α}
    (each : ∀ input ∈ inputs, ∀ files, Confined roots files (step files input))
    (files : Files κ β) : Confined roots files (inputs.foldl step files) := by
  induction inputs generalizing files with
  | nil => exact .refl files
  | cons input rest ih =>
    exact (each input mem_cons_self files).trans (ih (forall_mem_cons.1 each).2 _)

theorem confined_remove (within : Within roots root) :
    Confined roots files (files.remove root) where
  tree _ apart := tree_remove_apart (within.apart apart)
  entries _ listed := .inl (mem_of_mem_filter listed)
  formed formed := formed.remove root

theorem confined_plant (within : Within roots root) (whole : grown.WellFormed)
    (free : files.Unblocked root) : Confined roots files (files.plant root grown) where
  tree _ apart := tree_plant_apart (within.apart apart) _
  entries entry listed := by
    rcases mem_plant.1 listed with ⟨old, -⟩ | ⟨new, -, rfl⟩
    · exact .inl old
    · exact .inr (within.below _)
  formed formed := formed.plant whole free

theorem confined_move (fromHere : Within roots source) (toThere : Within roots target)
    (free : files.Unblocked target) : Confined roots files (files.move source target) where
  tree _ apart := tree_move_apart (fromHere.apart apart) (toThere.apart apart)
  entries entry listed := by
    rcases mem_plant.1 listed with ⟨old, -⟩ | ⟨new, -, rfl⟩
    · exact .inl (mem_of_mem_filter old)
    · exact .inr (toThere.below _)
  formed formed := (formed.remove source).plant (formed.tree source)
    fun entry listed => free entry (mem_of_mem_filter listed)

end Confined

end Files
end Coppice.Std
