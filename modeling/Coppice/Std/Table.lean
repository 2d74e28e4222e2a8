import Mathlib.Data.List.DropRight
import Mathlib.Data.List.Sort

/-!
# Keyed tables

A table is a list of rows with a key read off each row. `updateAt` is an
`UPDATE ... WHERE key = k`; its lemmas say what a lookup sees afterwards, so
that proofs about a store never unfold the list.
-/

namespace Coppice.Std

open List

variable {α κ : Type} [DecidableEq κ] (key : α → κ) {rows : List α} {k : κ} {f : α → α} {row : α}

/-- The first row with the key. -/
def lookup (rows : List α) (k : κ) : Option α :=
  rows.find? (fun row => key row = k)

/-- Rewrite every row with the key. -/
def updateAt (k : κ) (f : α → α) (rows : List α) : List α :=
  rows.map fun row => if key row = k then f row else row

variable {key} {other : α} {β : Type} {value : β}

theorem lookup_mem (found : lookup key rows k = some row) : row ∈ rows :=
  mem_of_find?_eq_some found

theorem lookup_key (found : lookup key rows k = some row) : key row = k := by
  simpa using find?_some found

theorem lookup_eq_none : lookup key rows k = none ↔ ∀ row ∈ rows, key row ≠ k := by
  simp [lookup]

theorem lookup_isSome : (lookup key rows k).isSome ↔ ∃ row ∈ rows, key row = k := by
  simp [lookup]

/-- In a table with distinct keys a lookup finds exactly the row with the key. -/
theorem lookup_eq_some_iff (distinct : (rows.map key).Nodup) :
    lookup key rows k = some row ↔ row ∈ rows ∧ key row = k := by
  constructor
  · intro found
    exact ⟨lookup_mem found, lookup_key found⟩
  rintro ⟨member, rfl⟩
  have some : (lookup key rows (key row)).isSome := lookup_isSome.mpr ⟨row, member, rfl⟩
  obtain ⟨other, found⟩ := Option.isSome_iff_exists.mp some
  rw [found, inj_on_of_nodup_map distinct (lookup_mem found) member (lookup_key found)]

theorem lookup_append (more : List α) :
    lookup key (rows ++ more) k = (lookup key rows k).or (lookup key more k) := by
  simp [lookup, find?_append]

theorem lookup_cons (row : α) :
    lookup key (row :: rows) k = if key row = k then some row else lookup key rows k := by
  by_cases same : key row = k <;> simp [lookup, same]

/-- What a table tells about a key it has, it tells after a row was added. -/
theorem lookup_added (column : α → β)
    (mapped : (lookup key rows k).map column = some value) :
    (lookup key (rows ++ [row]) k).map column = some value := by
  obtain ⟨old, found, rfl⟩ := Option.map_eq_some_iff.mp mapped
  rw [lookup_append, found]
  rfl

omit [DecidableEq κ] in
/-- A row under a new key keeps the keys distinct. -/
theorem nodup_concat (distinct : (rows.map key).Nodup)
    (absent : ∀ other ∈ rows, key other ≠ key row) : ((rows ++ [row]).map key).Nodup := by
  rw [map_append, map_singleton, nodup_append]
  refine ⟨distinct, nodup_singleton _, ?_⟩
  rintro _ old _ new rfl
  obtain ⟨other, member, same⟩ := mem_map.mp old
  exact absent other member (same.trans (mem_singleton.mp new))

theorem nodup_added (distinct : (rows.map key).Nodup) (absent : lookup key rows (key row) = none) :
    ((rows ++ [row]).map key).Nodup :=
  nodup_concat distinct (lookup_eq_none.mp absent)

theorem mem_concat : other ∈ rows ++ [row] ↔ other ∈ rows ∨ other = row := by
  simp

theorem forall_mem_concat {P : α → Prop} (each : ∀ other ∈ rows, P other) (last : P row) :
    ∀ other ∈ rows ++ [row], P other :=
  forall_mem_append.mpr ⟨each, forall_mem_singleton.mpr last⟩

/-- Rewriting rows under their keys rewrites what a lookup finds. -/
theorem lookup_map (keeps : ∀ row, key (f row) = key row) :
    lookup key (rows.map f) k = (lookup key rows k).map f := by
  simp only [lookup, find?_map]
  congr 2
  funext row
  simp [keeps]

theorem mem_updateAt :
    row ∈ updateAt key k f rows ↔
      (row ∈ rows ∧ key row ≠ k) ∨ ∃ old ∈ rows, key old = k ∧ f old = row := by
  simp only [updateAt, mem_map]
  constructor
  · rintro ⟨old, member, rfl⟩
    by_cases same : key old = k
    · exact .inr ⟨old, member, same, by simp [same]⟩
    · exact .inl ⟨by simpa [same] using member, by simp [same]⟩
  · rintro (⟨member, differ⟩ | ⟨old, member, same, rfl⟩)
    · exact ⟨row, member, by simp [differ]⟩
    · exact ⟨old, member, by simp [same]⟩

theorem updateAt_cons : updateAt key k f (row :: rows) =
    (if key row = k then f row else row) :: updateAt key k f rows := rfl

/-- The first row with a key is the first of all rows with it. -/
theorem lookup_eq_head? : lookup key rows k = (rows.filter fun row => key row = k).head? :=
  head?_filter.symm

section Updated

variable {other : κ} (keeps : ∀ row, key row = k → key (f row) = k)
include keeps

theorem map_key_updateAt : (updateAt key k f rows).map key = rows.map key := by
  simp only [updateAt, map_map]
  apply map_congr_left
  intro row _
  by_cases same : key row = k <;> simp [same, keeps]

theorem lookup_updateAt : lookup key (updateAt key k f rows) other =
      if other = k then (lookup key rows k).map f else lookup key rows other := by
  induction rows with
  | nil => split <;> rfl
  | cons row rest ih =>
    rw [updateAt_cons, lookup_cons, lookup_cons, lookup_cons, ih]
    by_cases same : key row = k
    · by_cases here : other = k
      · simp [same, keeps, here]
      · simp [same, keeps, here, Ne.symm here]
    · by_cases here : other = k <;> simp [same, here]

theorem lookup_updateAt_self :
    lookup key (updateAt key k f rows) k = (lookup key rows k).map f := by
  rw [lookup_updateAt keeps, if_pos rfl]

theorem lookup_updateAt_of_ne (differ : other ≠ k) :
    lookup key (updateAt key k f rows) other = lookup key rows other := by
  rw [lookup_updateAt keeps, if_neg differ]

/-- A column that an update sets to one value. -/
theorem map_lookup_updateAt {column : α → β}
    (sets : ∀ row, column (f row) = value) :
    (lookup key (updateAt key k f rows) other).map column =
      if other = k then (lookup key rows k).map fun _ => value
      else (lookup key rows other).map column := by
  rw [lookup_updateAt keeps]
  split
  · rw [Option.map_map]
    exact congrArg (Option.map · _) (funext sets)
  · rfl

theorem filter_updateAt_of_ne (differ : other ≠ k) :
    ((updateAt key k f rows).filter fun row => key row = other) =
      rows.filter fun row => key row = other := by
  induction rows with
  | nil => rfl
  | cons row rest ih =>
    rw [updateAt_cons, filter_cons, filter_cons, ih]
    by_cases same : key row = k
    · simp [same, keeps, differ.symm]
    · simp [same]

end Updated

/-- Removing the rows with one key keeps the rows with another. -/
theorem filter_removed {other : κ} :
    ((rows.filter fun row => key row ≠ k).filter fun row => key row = other) =
      if other = k then [] else rows.filter fun row => key row = other := by
  rw [filter_filter]
  split
  · rename_i same
    subst same
    exact filter_eq_nil_iff.mpr fun row _ => by simp
  rename_i differ
  refine filter_congr fun row _ => ?_
  by_cases same : key row = other
  · simp [same, differ]
  · simp [same]

section Upsert

variable (key) {batch : List α}

/-- `INSERT ... ON CONFLICT (key) DO UPDATE` of a whole row. -/
def upsert (rows : List α) (row : α) : List α :=
  match lookup key rows (key row) with
  | some _ => updateAt key (key row) (fun _ => row) rows
  | none => rows ++ [row]

variable {key}

theorem mem_upsert :
    other ∈ upsert key rows row ↔ other = row ∨ other ∈ rows ∧ key other ≠ key row := by
  unfold upsert
  cases found : lookup key rows (key row) with
  | some old =>
    have stored := lookup_mem found
    have same := lookup_key found
    rw [mem_updateAt]
    constructor
    · rintro (⟨kept, differ⟩ | ⟨-, -, -, rfl⟩)
      · exact .inr ⟨kept, differ⟩
      · exact .inl rfl
    · rintro (rfl | ⟨kept, differ⟩)
      · exact .inr ⟨old, stored, same, rfl⟩
      · exact .inl ⟨kept, differ⟩
  | none =>
    have absent := lookup_eq_none.mp found
    simp only [mem_append, mem_singleton]
    constructor
    · rintro (kept | rfl)
      · exact .inr ⟨kept, absent other kept⟩
      · exact .inl rfl
    · rintro (rfl | ⟨kept, -⟩)
      · exact .inr rfl
      · exact .inl kept

theorem nodup_upsert (distinct : (rows.map key).Nodup) : ((upsert key rows row).map key).Nodup := by
  unfold upsert
  split
  · rwa [map_key_updateAt fun _ _ => rfl]
  · rename_i absent
    exact nodup_added distinct absent

/-- What a batch of upserts leaves: its own rows, and the rows it does not name. -/
theorem mem_foldl_upsert (member : row ∈ batch.foldl (upsert key) rows) :
    row ∈ batch ∨ row ∈ rows ∧ ∀ new ∈ batch, key row ≠ key new := by
  induction batch generalizing rows with
  | nil => exact .inr ⟨member, by simp⟩
  | cons first batch ih =>
    rcases ih member with new | ⟨kept, apart⟩
    · exact .inl (mem_cons_of_mem _ new)
    · rcases mem_upsert.mp kept with rfl | ⟨old, differ⟩
      · exact .inl mem_cons_self
      · exact .inr ⟨old, forall_mem_cons.mpr ⟨differ, apart⟩⟩

/-- A row no upsert names stays. -/
theorem foldl_upsert_keeps (member : row ∈ rows) (apart : ∀ new ∈ batch, key row ≠ key new) :
    row ∈ batch.foldl (upsert key) rows := by
  induction batch generalizing rows with
  | nil => exact member
  | cons first batch ih =>
    exact ih (mem_upsert.mpr (.inr ⟨member, apart first mem_cons_self⟩))
      (forall_mem_cons.1 apart).2

variable (key rows) in
/-- Every upsert leaves a row of the batch under its key. -/
theorem foldl_upsert_names {new : α} (named : new ∈ batch) :
    ∃ row ∈ batch.foldl (upsert key) rows, key row = key new ∧ row ∈ batch := by
  induction batch generalizing rows new with
  | nil => simp at named
  | cons first batch ih =>
    by_cases again : ∃ later ∈ batch, key later = key new
    · obtain ⟨later, member, same⟩ := again
      obtain ⟨row, stored, named, mine⟩ := ih (upsert key rows first) member
      exact ⟨row, stored, named.trans same, mem_cons_of_mem _ mine⟩
    · push Not at again
      rcases mem_cons.mp named with rfl | later
      · have stored : new ∈ upsert key rows new := mem_upsert.mpr (.inl rfl)
        have kept : new ∈ batch.foldl (upsert key) (upsert key rows new) :=
          foldl_upsert_keeps stored fun later member same => again later member same.symm
        exact ⟨new, kept, rfl, mem_cons_self⟩
      · exact absurd rfl (again new later)

end Upsert

section Distinct

variable (key)

/-- The first row with each key, as a loop that collects the keys seen keeps them. -/
def distinctBy : List α → List α
  | [] => []
  | row :: rest => row :: (distinctBy rest).filter fun other => key other ≠ key row

variable {key}

theorem distinctBy_sublist : (distinctBy key rows).Sublist rows := by
  induction rows with
  | nil => exact .slnil
  | cons first rest ih => exact (filter_sublist.trans ih).cons_cons first

theorem mem_of_mem_distinctBy (kept : row ∈ distinctBy key rows) : row ∈ rows :=
  distinctBy_sublist.subset kept

/-- Where a key names one row, that row is kept. -/
theorem mem_distinctBy (unique : ∀ other ∈ rows, key other = key row → other = row) :
    row ∈ distinctBy key rows ↔ row ∈ rows := by
  refine ⟨mem_of_mem_distinctBy, fun member => ?_⟩
  induction rows with
  | nil => simp at member
  | cons first rest ih =>
    by_cases same : key first = key row
    · rw [unique first mem_cons_self same]
      exact mem_cons_self
    have later : row ∈ rest := by
      rcases mem_cons.mp member with rfl | later
      · exact absurd rfl same
      · exact later
    have kept := ih (forall_mem_cons.1 unique).2 later
    exact mem_cons_of_mem _ (mem_filter.mpr ⟨kept, by simpa using Ne.symm same⟩)

theorem nodup_distinctBy : ((distinctBy key rows).map key).Nodup := by
  induction rows with
  | nil => exact nodup_nil
  | cons first rest ih =>
    refine nodup_cons.mpr ⟨fun named => ?_, ih.sublist (filter_sublist.map key)⟩
    obtain ⟨row, kept, same⟩ := mem_map.mp named
    simp [same] at kept

end Distinct

section Order

variable {β : Type} [LinearOrder β] (column : α → β)

/-- `ORDER BY column ASC`; rows with equal columns keep their order. -/
def orderBy (rows : List α) : List α :=
  rows.insertionSort fun left right => column left ≤ column right

theorem orderBy_perm (rows : List α) : (orderBy column rows).Perm rows :=
  perm_insertionSort _ _

@[simp] theorem mem_orderBy : row ∈ orderBy column rows ↔ row ∈ rows :=
  (orderBy_perm column rows).mem_iff

theorem orderBy_pairwise (rows : List α) :
    (orderBy column rows).Pairwise fun left right => column left ≤ column right := by
  have total : Std.Total fun left right : α => column left ≤ column right :=
    ⟨fun _ _ => le_total _ _⟩
  have trans : IsTrans α fun left right => column left ≤ column right :=
    ⟨fun _ _ _ => le_trans⟩
  exact pairwise_insertionSort _ _

/-- Rows with distinct columns have one order. -/
theorem orderBy_strict (distinct : (rows.map column).Nodup) :
    (orderBy column rows).Pairwise fun left right => column left < column right := by
  have apart := List.pairwise_map.mp
    (((orderBy_perm column rows).map column).nodup_iff.mpr distinct)
  refine ((orderBy_pairwise column rows).and apart).imp ?_
  rintro left right ⟨atMost, differ⟩
  exact lt_of_le_of_ne atMost differ

theorem orderBy_eq {sorted : List α} (same : sorted.Perm rows)
    (strict : sorted.Pairwise fun left right => column left < column right) :
    orderBy column rows = sorted := by
  refine List.Perm.eq_of_pairwise ?_ (orderBy_pairwise column rows) (strict.imp le_of_lt)
    ((orderBy_perm column rows).trans same.symm)
  intro left right stored member below above
  have inside : left ∈ sorted := same.mem_iff.mpr ((mem_orderBy column).mp stored)
  have distinct : (sorted.map column).Nodup := pairwise_map.mpr (strict.imp ne_of_lt)
  exact inj_on_of_nodup_map distinct inside member (le_antisymm below above)

/-- `Iterator::max_by_key`: the last of the rows with the greatest column. -/
def maxByKey (rows : List α) : Option α :=
  rows.foldl
    (fun best row => match best with
      | none => some row
      | some kept => if column row < column kept then some kept else some row)
    none

theorem maxByKey_concat (rows : List α) (row : α) :
    maxByKey column (rows ++ [row]) = match maxByKey column rows with
      | none => some row
      | some kept => if column row < column kept then some kept else some row := by
  simp [maxByKey, foldl_append]

theorem maxByKey_mem (found : maxByKey column rows = some row) : row ∈ rows := by
  induction rows using List.reverseRecOn with
  | nil => simp [maxByKey] at found
  | append_singleton rows last ih =>
    rw [maxByKey_concat] at found
    cases earlier : maxByKey column rows with
    | none =>
      rw [earlier] at found
      simp [Option.some.inj found]
    | some kept =>
      rw [earlier] at found
      simp only at found
      split at found
      · exact mem_append_left _ (ih (earlier.trans found))
      · simp [Option.some.inj found]

/-- A row whose column exceeds every other row's is the one found. -/
theorem maxByKey_eq_some (member : row ∈ rows)
    (greatest : ∀ other ∈ rows, other = row ∨ column other < column row) :
    maxByKey column rows = some row := by
  induction rows using List.reverseRecOn with
  | nil => simp at member
  | append_singleton rows last ih =>
    rw [maxByKey_concat]
    have earlier : ∀ other ∈ rows, other = row ∨ column other < column row :=
      fun other stored => greatest other (mem_append_left _ stored)
    rcases mem_concat.mp member with inside | rfl
    · rw [ih inside earlier]
      rcases greatest last (by simp) with rfl | below
      · simp
      · simp [below]
    cases kept : maxByKey column rows with
    | none => rfl
    | some other =>
      rcases earlier other (maxByKey_mem column kept) with rfl | below
      · simp
      · simp [not_lt.mpr below.le]

end Order

end Coppice.Std
