import Coppice.Std.Table

/-!
# The listener of the file watcher

Changed paths wait for a flush, which submits a scan of every library that contains one of them
(`watcher/src/watcher.rs`). The scans a change calls for are owed until they are submitted.
-/

namespace Coppice.Watcher

open Coppice.Std List

abbrev Path := List String

structure LibraryRoot where
  id : String
  path : Path

/-- The order a hash map is walked in. -/
structure HashOrder where
  walk : List LibraryRoot → List LibraryRoot
  perm : ∀ roots, (walk roots).Perm roots

/-- A command, with what a flush meets: whether the lookup of the enabled libraries succeeds, the
order of the map, and which submissions succeed. -/
inductive Command where
  | changedFiles (paths : List Path)
  | flush (found : Bool) (order : HashOrder) (accepts : String → Bool)

structure Listener where
  accumulatedPaths : List Path := []
  owed : List (Path × String) := []

/-- The libraries that contain a changed path. -/
def containing (roots : List LibraryRoot) (paths : List Path) : List LibraryRoot :=
  roots.filter fun root => ∃ changed ∈ paths, root.path <+: changed

def librariesToScan (roots : List LibraryRoot) (paths : List Path) : List LibraryRoot :=
  (containing roots paths).foldl (upsert LibraryRoot.id) []

/-- The libraries whose scans are submitted: the first refusal ends the loop. -/
def submitScans (roots : List LibraryRoot) (found : Bool) (order : HashOrder)
    (accepts : String → Bool) (paths : List Path) : List String :=
  if found then ((order.walk (librariesToScan roots paths)).map LibraryRoot.id).takeWhile accepts
  else []

namespace Listener

variable (roots : List LibraryRoot) (s : Listener)

def handle : Command → Listener
  | .changedFiles paths =>
    ⟨s.accumulatedPaths ++ paths, s.owed ++ paths.flatMap fun changed =>
      (containing roots [changed]).map fun root => (changed, root.id)⟩
  | .flush found order accepts =>
    ⟨[], s.owed.filter (·.2 ∉ submitScans roots found order accepts s.accumulatedPaths)⟩

/-- A path with a scan that is owed waits for a flush, and no refusal prevents another scan. -/
def Remembers (command : Command) : Prop :=
  (∀ scan ∈ (s.handle roots command).owed, scan.1 ∈ (s.handle roots command).accumulatedPaths) ∧
    ∀ order accepts, command = .flush true order accepts →
      ∀ root ∈ containing roots s.accumulatedPaths, accepts root.id = true →
        root.id ∈ submitScans roots true order accepts s.accumulatedPaths

/-- A flush that finds a change in a library finds the libraries, and its scan is accepted. -/
def Accepted : Command → Prop
  | .changedFiles _ => True
  | .flush found _ accepts =>
    ∀ root ∈ containing roots s.accumulatedPaths, found = true ∧ accepts root.id = true

/-- What holds of every command of a run. -/
def Along (holds : Listener → Command → Prop) : Listener → List Command → Prop
  | _, [] => True
  | s, command :: rest => holds s command ∧ Along holds (s.handle roots command) rest

/-- What is owed is what the waiting paths call for. -/
def Exact : Prop := ∀ scan, scan ∈ s.owed ↔
  scan.1 ∈ s.accumulatedPaths ∧ ∃ root ∈ containing roots [scan.1], root.id = scan.2

end Listener

variable {roots : List LibraryRoot} {paths : List Path} {found : Bool} {order : HashOrder}
  {accepts : String → Bool} {root : LibraryRoot} {s : Listener} {command : Command}

theorem mem_containing {changed : Path} (waits : changed ∈ paths)
    (listed : root ∈ containing roots [changed]) : root ∈ containing roots paths := by
  simp only [containing, mem_filter, decide_eq_true_eq, mem_singleton, exists_eq_left] at listed ⊢
  exact ⟨listed.1, changed, waits, listed.2⟩

theorem of_mem_submitScans {id : String}
    (submitted : id ∈ submitScans roots found order accepts paths) :
    found = true ∧ accepts id = true := by
  unfold submitScans at submitted
  split at submitted
  · exact ⟨‹_›, mem_takeWhile_imp submitted⟩
  · cases submitted

theorem mem_submitScans (listed : root ∈ containing roots paths)
    (accepted : ∀ other ∈ containing roots paths, accepts other.id = true) :
    root.id ∈ submitScans roots true order accepts paths := by
  obtain ⟨row, stored, same, -⟩ := foldl_upsert_names LibraryRoot.id [] listed
  have all : ∀ id ∈ (order.walk (librariesToScan roots paths)).map LibraryRoot.id,
      accepts id = true := by
    intro id member
    obtain ⟨other, walked, rfl⟩ := mem_map.1 member
    rcases mem_foldl_upsert ((order.perm _).mem_iff.1 walked) with chosen | ⟨none, -⟩
    · exact accepted other chosen
    · cases none
  rw [submitScans, if_pos rfl, takeWhile_eq_self_iff.2 all, ← same]
  exact mem_map_of_mem ((order.perm _).mem_iff.2 stored)

namespace Listener

theorem Exact.handle (exact_ : s.Exact roots) (accepted : s.Accepted roots command) :
    (s.handle roots command).Exact roots := by
  rintro ⟨changed, id⟩
  cases command with
  | changedFiles paths =>
    simp only [Listener.handle, mem_append, exact_ (changed, id), mem_flatMap, mem_map]
    aesop
  | flush found order accepts =>
    refine iff_of_false (fun kept => ?_) (fun waits => nomatch waits.1)
    obtain ⟨owed, missed⟩ := mem_filter.1 kept
    obtain ⟨waits, root, listed, rfl⟩ := (exact_ _).1 owed
    obtain ⟨rfl, -⟩ := accepted root (mem_containing waits listed)
    exact of_decide_eq_true missed (mem_submitScans (mem_containing waits listed)
      fun other member => (accepted other member).2)

theorem Exact.remembers_iff (exact_ : s.Exact roots) :
    s.Remembers roots command ↔ s.Accepted roots command := by
  constructor
  · rintro ⟨waiting, -⟩
    cases command with
    | changedFiles paths => trivial
    | flush found order accepts =>
      intro root listed
      obtain ⟨known, changed, waits, below⟩ := by simpa [containing] using listed
      by_contra refused
      refine absurd (waiting (changed, root.id) (mem_filter.2 ⟨?_, ?_⟩)) not_mem_nil
      · exact (exact_ _).2 ⟨waits, root, by simpa [containing] using ⟨known, below⟩, rfl⟩
      · exact decide_eq_true fun submitted => refused (of_mem_submitScans submitted)
  · intro accepted
    refine ⟨fun scan owed => ((exact_.handle accepted scan).1 owed).1, ?_⟩
    rintro order accepts rfl root listed -
    exact mem_submitScans listed fun other member => (accepted other member).2

theorem Exact.along_iff (exact_ : s.Exact roots) (commands : List Command) :
    Along roots (Remembers roots) s commands ↔ Along roots (Accepted roots) s commands := by
  induction commands generalizing s with
  | nil => exact Iff.rfl
  | cons command rest ih =>
    refine (and_congr_left' exact_.remembers_iff).trans (and_congr_right fun accepted => ?_)
    exact ih (exact_.handle accepted)

/-- No change is forgotten exactly when every lookup and every submission succeeds that a flush
with a change in a library calls for. -/
theorem remembers_along_iff (roots : List LibraryRoot) (commands : List Command) :
    Along roots (Remembers roots) {} commands ↔ Along roots (Accepted roots) {} commands :=
  Exact.along_iff (by simp [Exact]) commands

/-- A library that refuses its scan comes first, and the change in the other is forgotten. -/
theorem refused_scan_forgets :
    ¬Along [⟨"books", ["books"]⟩, ⟨"comics", ["comics"]⟩]
      (Remembers [⟨"books", ["books"]⟩, ⟨"comics", ["comics"]⟩]) {}
      [.changedFiles [["books", "a"], ["comics", "b"]],
        .flush true ⟨(·), fun _ => .rfl⟩ (· = "comics")] := by
  rintro ⟨-, ⟨waiting, -⟩, -⟩
  exact absurd (waiting (["comics", "b"], "comics") (by decide)) not_mem_nil

end Listener

end Coppice.Watcher
