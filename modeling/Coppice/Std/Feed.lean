import Coppice.Std.Table

/-!
# Position-stamped change feeds

A feed is a keyed table whose rows carry a position of one account clock. A
writer never edits a row in place: it moves the row above the clock and lets
the clock follow (`Advance`). A reader holds a cursor and a copy, asks for a
page of the rows above the cursor, overwrites its copy, and moves the cursor.
Rows below the cursor are never asked for again, so the reader's invariant is
that they already agree (`Synced`). Rows are not a log; a page may be cut
anywhere, and the clock may be read before the page.
-/

namespace Coppice.Std.Feed

open Coppice.Std List

variable {ρ κ ν : Type} (key : ρ → κ) (pos : ρ → Nat) {rows rows' rows'' : List ρ}
  {clock clock' clock'' since cursor limit : Nat} {row : ρ} {view : ρ → ν} {copy : κ → Option ν}

/-- The table is keyed, no two rows share a position, and the clock bounds them. -/
structure Clocked (rows : List ρ) (clock : Nat) : Prop where
  distinctKeys : (rows.map key).Nodup
  distinctPositions : (rows.map pos).Nodup
  bounded : ∀ row ∈ rows, pos row ≤ clock

/-- What a writer may do: every row it touches ends above the old clock. -/
structure Advance (rows : List ρ) (clock : Nat) (rows' : List ρ) (clock' : Nat) : Prop where
  clock_le : clock ≤ clock'
  unmoved : ∀ row ∈ rows', row ∈ rows ∨ clock < pos row
  clocked : Clocked key pos rows clock → Clocked key pos rows' clock'

variable {key pos} {f : ρ → ρ}

theorem Advance.refl (rows : List ρ) (clock : Nat) : Advance key pos rows clock rows clock :=
  ⟨Nat.le_refl _, fun _ member => .inl member, id⟩

theorem Advance.trans (first : Advance key pos rows clock rows' clock')
    (second : Advance key pos rows' clock' rows'' clock'') :
    Advance key pos rows clock rows'' clock'' where
  clock_le := first.clock_le.trans second.clock_le
  unmoved row member := by
    rcases second.unmoved row member with earlier | later
    · exact first.unmoved row earlier
    · exact .inr (first.clock_le.trans_lt later)
  clocked wellFormed := second.clocked (first.clocked wellFormed)

/-- Inserting a row under a new key, stamped with the next position. -/
theorem Advance.insert (absent : ∀ other ∈ rows, key other ≠ key row)
    (stamped : pos row = clock + 1) :
    Advance key pos rows clock (rows ++ [row]) (clock + 1) where
  clock_le := Nat.le_succ _
  unmoved := forall_mem_concat (fun _ => .inl) (.inr (by omega))
  clocked wellFormed := by
    refine ⟨nodup_concat wellFormed.distinctKeys absent,
      nodup_concat wellFormed.distinctPositions ?_, forall_mem_concat ?_ stamped.le⟩
    · intro source member
      have below := wellFormed.bounded source member
      omega
    · exact fun other old => (wellFormed.bounded other old).trans (Nat.le_succ _)

/-- Rewriting rows in bulk: each row stays as it is or moves above the clock,
and no two rows move to the same position. -/
theorem Advance.map (later : clock ≤ clock') (keeps : ∀ row, key (f row) = key row)
    (moves : ∀ row ∈ rows, f row = row ∨ (clock < pos (f row) ∧ pos (f row) ≤ clock'))
    (apart : Clocked key pos rows clock → ∀ left ∈ rows, ∀ right ∈ rows, clock < pos (f left) →
      pos (f left) = pos (f right) → key left = key right) :
    Advance key pos rows clock (rows.map f) clock' where
  clock_le := later
  unmoved row member := by
    obtain ⟨old, source, rfl⟩ := mem_map.mp member
    rcases moves old source with same | ⟨above, -⟩
    · exact .inl (by rw [same]; exact source)
    · exact .inr above
  clocked wellFormed := by
    have sameKeys : (rows.map f).map key = rows.map key := by
      rw [map_map]
      exact map_congr_left fun row _ => keeps row
    refine ⟨by rw [sameKeys]; exact wellFormed.distinctKeys, ?_, ?_⟩
    · rw [map_map]
      refine List.Nodup.map_on ?_ (List.Nodup.of_map _ wellFormed.distinctKeys)
      intro left leftMember right rightMember same
      simp only [Function.comp_apply] at same
      have byKey := inj_on_of_nodup_map wellFormed.distinctKeys leftMember rightMember
      -- Two unmoved rows differ already; a moved row is above every unmoved one.
      rcases moves left leftMember with leftStays | ⟨leftAbove, -⟩
      · rcases moves right rightMember with rightStays | ⟨rightAbove, -⟩
        · rw [leftStays, rightStays] at same
          exact inj_on_of_nodup_map wellFormed.distinctPositions leftMember rightMember same
        · have below := wellFormed.bounded left leftMember
          rw [leftStays] at same
          omega
      · exact byKey (apart wellFormed left leftMember right rightMember leftAbove same)
    · intro row member
      obtain ⟨old, source, rfl⟩ := mem_map.mp member
      rcases moves old source with same | ⟨-, bound⟩
      · rw [same]
        exact (wellFormed.bounded old source).trans later
      · exact bound

/-- Rewriting the row of one key and stamping it with the next position. -/
theorem Advance.update [DecidableEq κ] {k : κ} (keeps : ∀ row, key (f row) = key row)
    (stamped : ∀ row, pos (f row) = clock + 1) :
    Advance key pos rows clock (updateAt key k f rows) (clock + 1) := by
  refine Advance.map (Nat.le_succ _) ?_ ?_ ?_
  · intro row
    by_cases same : key row = k <;> simp [same, keeps]
  · intro row member
    by_cases same : key row = k
    · right
      simp [same, stamped]
    · left
      simp [same]
  · intro wellFormed left leftMember right rightMember above same
    by_cases leftSame : key left = k
    · by_cases rightSame : key right = k
      · rw [leftSame, rightSame]
      · have below := wellFormed.bounded right rightMember
        simp only [leftSame, ↓reduceIte, rightSame, stamped] at same
        omega
    · have below := wellFormed.bounded left leftMember
      simp only [leftSame, ↓reduceIte] at above
      omega

section Reader

variable (pos)

/-- The rows above a cursor, in position order. -/
def above (since : Nat) (rows : List ρ) : List ρ :=
  orderBy pos (rows.filter fun row => since < pos row)

/-- A page of at most `limit` rows above the cursor, and whether more follow:
one row more than the limit is asked for. -/
def page (since limit : Nat) (rows : List ρ) : List ρ × Bool :=
  let fetched := (above pos since rows).take (limit + 1)
  (fetched.take limit, limit < fetched.length)

/-- Where the reader's cursor goes after a page: to the last row when more
follow, and otherwise to the clock it read beforehand. -/
def advanceCursor (since clock : Nat) (rows : List ρ) (more : Bool) : Nat :=
  if more then (rows.getLast?.map pos).getD since else clock

/-- Overwrite the copy with every record received, in order. -/
def overwrite [DecidableEq κ] (name : ν → κ) (copy : κ → Option ν) (records : List ν) :
    κ → Option ν :=
  records.foldl (fun copy record => Function.update copy (name record) (some record)) copy

variable {pos}

/-- The cursor is the same whether it is read off the rows or off their records. -/
theorem advanceCursor_map {view : ρ → ν} {stamp : ν → Nat}
    (stamped : ∀ row, stamp (view row) = pos row)
    (since clock : Nat) (rows : List ρ) (more : Bool) :
    advanceCursor stamp since clock (rows.map view) more =
      advanceCursor pos since clock rows more := by
  have same : stamp ∘ view = pos := funext stamped
  simp [advanceCursor, getLast?_map, same]

variable (pos) (key) (view : ρ → ν)

/-- Every row at or below the cursor is in the copy as it is stored. -/
def Synced (rows : List ρ) (cursor : Nat) (copy : κ → Option ν) : Prop :=
  ∀ row ∈ rows, copy (key row) = some (view row) ∨ cursor < pos row

end Reader

theorem mem_above : row ∈ above pos since rows ↔ row ∈ rows ∧ since < pos row := by
  simp [above]

/-- A page that says nothing follows is everything above the cursor. -/
theorem page_last (last : (page pos since limit rows).2 = false) :
    (page pos since limit rows).1 = above pos since rows := by
  simp only [page, length_take, decide_eq_false_iff_not, not_lt] at last ⊢
  rw [take_take, take_of_length_le (by omega)]

theorem page_sublist : (page pos since limit rows).1.Sublist (above pos since rows) := by
  simp only [page, take_take]
  exact take_sublist _ _

theorem mem_rows_of_mem_page (member : row ∈ (page pos since limit rows).1) : row ∈ rows :=
  (mem_above.mp (page_sublist.subset member)).1

section Clocked

variable (wellFormed : Clocked key pos rows clock)
include wellFormed

/-- A page that says more follow is cut at its last row: every row above the
cursor is on the page or strictly above that row. -/
theorem page_more (member : row ∈ rows) (pending : since < pos row) :
    row ∈ (page pos since limit rows).1 ∨
      advanceCursor pos since cursor (page pos since limit rows).1 true < pos row := by
  simp only [page, take_take, advanceCursor, ↓reduceIte]
  rw [Nat.min_eq_left (Nat.le_succ _)]
  have split := take_append_drop limit (above pos since rows)
  have present : row ∈ above pos since rows := mem_above.mpr ⟨member, pending⟩
  rw [← split] at present
  rcases mem_append.mp present with early | late
  · exact .inl early
  right
  rcases eq_nil_or_concat ((above pos since rows).take limit) with empty | ⟨before, final, cut⟩
  · simpa [empty] using pending
  -- The last row of the page precedes every row behind the cut.
  have strict := orderBy_strict pos
    (wellFormed.distinctPositions.sublist ((filter_sublist (p := (since < pos ·))).map pos))
  change (above pos since rows).Pairwise _ at strict
  rw [← split, pairwise_append] at strict
  have ordered := strict.2.2 final (by simp [cut]) row late
  simp only [cut, concat_eq_append, getLast?_append, getLast?_singleton,
    Option.some_or, Option.map_some, Option.getD_some]
  exact ordered

theorem page_nodup : ((page pos since limit rows).1.map key).Nodup := by
  have perm : (above pos since rows).Perm (rows.filter fun row => since < pos row) :=
    orderBy_perm pos _
  refine List.Nodup.sublist (List.Sublist.map key page_sublist) ?_
  exact (perm.map key).nodup_iff.mpr
    (List.Nodup.sublist (List.Sublist.map key filter_sublist) wellFormed.distinctKeys)

/-- The cursor never passes the clock when it did not before. -/
theorem advanceCursor_le (start : since ≤ clock) (read : cursor ≤ clock) {more : Bool} :
    advanceCursor pos since cursor (page pos since limit rows).1 more ≤ clock := by
  cases more with
  | false => exact read
  | true =>
    simp only [advanceCursor, ↓reduceIte]
    cases last : (page pos since limit rows).1.getLast? with
    | none => exact start
    | some row =>
      exact wellFormed.bounded row (mem_rows_of_mem_page (mem_of_getLast? last))

end Clocked

section Copy

variable [DecidableEq κ] {name : ν → κ} {records : List ν} {k : κ}

theorem overwrite_of_absent (absent : ∀ record ∈ records, name record ≠ k) :
    overwrite name copy records k = copy k := by
  induction records generalizing copy with
  | nil => rfl
  | cons record rest ih =>
    simp only [overwrite, foldl_cons]
    rw [← overwrite, ih fun other member => absent other (mem_cons_of_mem _ member)]
    exact Function.update_of_ne (absent record mem_cons_self).symm _ _

theorem overwrite_of_mem (distinct : (records.map name).Nodup) {record : ν}
    (member : record ∈ records) : overwrite name copy records (name record) = some record := by
  induction records generalizing copy with
  | nil => cases member
  | cons first rest ih =>
    rw [map_cons, nodup_cons] at distinct
    simp only [overwrite, foldl_cons]
    rw [← overwrite]
    rcases mem_cons.mp member with rfl | later
    · rw [overwrite_of_absent, Function.update_self]
      rintro other present same
      exact distinct.1 (same ▸ mem_map_of_mem present)
    · exact ih distinct.2 later

variable (wellFormed : Clocked key pos rows clock) (named : ∀ row, name (view row) = key row)
include wellFormed named

/-- A row on the page is received as stored, and a row off the page keeps what
the copy had for it. -/
theorem overwrite_page (since limit : Nat) (copy : κ → Option ν) (member : row ∈ rows) :
    overwrite name copy ((page pos since limit rows).1.map view) (key row) = some (view row) ∨
      (row ∉ (page pos since limit rows).1 ∧
        overwrite name copy ((page pos since limit rows).1.map view) (key row) =
          copy (key row)) := by
  by_cases onPage : row ∈ (page pos since limit rows).1
  · left
    rw [← named row]
    refine overwrite_of_mem ?_ (mem_map_of_mem onPage)
    have names : ((page pos since limit rows).1.map view).map name =
        (page pos since limit rows).1.map key := by
      rw [map_map]
      exact map_congr_left fun row _ => named row
    rw [names]
    exact page_nodup wellFormed
  · refine .inr ⟨onPage, overwrite_of_absent ?_⟩
    intro record received same
    obtain ⟨other, present, rfl⟩ := mem_map.mp received
    rw [named] at same
    obtain rfl := inj_on_of_nodup_map wellFormed.distinctKeys
      (mem_rows_of_mem_page present) member same
    exact onPage present

/-- Receiving the last page leaves a copy of the whole table. -/
theorem Synced.complete (synced : Synced key pos view rows since copy)
    (last : (page pos since limit rows).2 = false) (member : row ∈ rows) :
    overwrite name copy ((page pos since limit rows).1.map view) (key row) =
      some (view row) := by
  rcases overwrite_page wellFormed named since limit copy member with received | ⟨offPage, kept⟩
  · exact received
  rcases synced row member with same | pending
  · rw [kept, same]
  · rw [page_last last] at offPage
    exact absurd (mem_above.mpr ⟨member, pending⟩) offPage

/-- Receiving any page, with the cursor moved as the page says, keeps the copy
in step with the table. -/
theorem Synced.receive (synced : Synced key pos view rows since copy) :
    Synced key pos view rows
      (advanceCursor pos since cursor (page pos since limit rows).1 (page pos since limit rows).2)
      (overwrite name copy ((page pos since limit rows).1.map view)) := by
  intro row member
  cases more : (page pos since limit rows).2 with
  | false => exact .inl (synced.complete wellFormed named more member)
  | true =>
    rcases overwrite_page wellFormed named since limit copy member with received | ⟨offPage, kept⟩
    · exact .inl received
    · rcases synced row member with same | pending
      · exact .inl (kept.trans same)
      · exact .inr ((page_more wellFormed member pending).resolve_left offPage)

end Copy

/-- A writer cannot change a row the reader has passed without moving it back
above the reader's cursor. -/
theorem Synced.advance (synced : Synced key pos view rows cursor copy) (behind : cursor ≤ clock)
    (write : Advance key pos rows clock rows' clock') : Synced key pos view rows' cursor copy := by
  intro row member
  rcases write.unmoved row member with kept | moved
  · exact synced row kept
  · exact .inr (behind.trans_lt moved)

end Coppice.Std.Feed
