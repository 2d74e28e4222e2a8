import Mathlib.Data.List.Basic

/-!
# Checking the stored chapters of a series

A refresh asks the source about the chapters whose rows were written longest ago, and writes a row
with every answer about its chapter. Any other failure ends the pass and leaves the row as it is, so
that the next refresh begins with it again.
-/

namespace Coppice.Provider

open List

/-- What a check comes to; `failed` is any error that is not about the chapter. -/
inductive Answer where
  | served
  | unavailable
  | failed
deriving DecidableEq

/-- The columns of `media` that a pass reads or writes. -/
structure StoredChapter where
  id : String
  remoteChapterId : Option String
  deletedAt : Option Int
  updatedAt : Option Int
deriving DecidableEq

/-- The rows after a pass, and the ids it asked about, hid and restored. -/
structure Verified where
  rows : List StoredChapter
  asked : List String
  hidden : List String
  restored : List String

def verifyPerRefresh : Nat := 16

def hide (now : Int) (row : StoredChapter) : StoredChapter :=
  { row with deletedAt := some now, updatedAt := some now }

def unhide (now : Int) (row : StoredChapter) : StoredChapter :=
  { row with deletedAt := none, updatedAt := some now }

def touch (now : Int) (row : StoredChapter) : StoredChapter := { row with updatedAt := some now }

/-- The order of update times: a row that was never updated comes first. -/
def notAfter : Option Int → Option Int → Bool
  | none, _ => true
  | some _, none => false
  | some time, some other => time ≤ other

variable (readable : List String) (answer : String → Answer) (now : Nat → Int)
  {item : StoredChapter} {checks : Nat} {rows : List StoredChapter}

/-- The loop, with the number of checks left, at which the clock shows `now`. A row is written by
its key, so it is written where it stands. -/
def verifyRows : Nat → List StoredChapter → Verified
  | 0, rows => ⟨rows, [], [], []⟩
  | _, [] => ⟨[], [], [], []⟩
  | checks + 1, row :: rest =>
    match row.remoteChapterId.filter (· ∈ readable) with
    | none =>
      let later := verifyRows (checks + 1) rest
      { later with rows := row :: later.rows }
    | some chapter =>
      let later := verifyRows checks rest
      let write row := { later with rows := row :: later.rows, asked := row.id :: later.asked }
      match answer chapter, row.deletedAt with
      | .failed, _ => ⟨row :: rest, [row.id], [], []⟩
      | .served, some _ =>
        { write (unhide (now checks) row) with restored := row.id :: later.restored }
      | .unavailable, none =>
        { write (hide (now checks) row) with hidden := row.id :: later.hidden }
      | .served, none | .unavailable, some _ => write (touch (now checks) row)

/-- The rows are given by their times; those of one time in any order. -/
def verifyStoredChapters (rows : List StoredChapter) : Verified :=
  verifyRows readable answer now verifyPerRefresh rows

/-- Successive refreshes with no other writer: each reads the rows by their times, and the clock has
passed all that is written. -/
structure Refreshes (rows : Nat → List StoredChapter) (now : Nat → Nat → Int) : Prop where
  keyed : ∀ turn, ((rows turn).map (·.id)).Nodup
  ordered : ∀ turn, (rows turn).Pairwise (notAfter ·.updatedAt ·.updatedAt)
  clock : ∀ turn check, (∀ row ∈ rows turn, ¬ notAfter (some (now turn check)) row.updatedAt) ∧
    ∀ later, now turn check < now (turn + 1) later
  next : ∀ turn,
    rows (turn + 1) ~ (verifyStoredChapters readable answer (now turn) (rows turn)).rows

/-- The feed calls the chapter readable. -/
def StoredChapter.isReadable (row : StoredChapter) : Bool :=
  (row.remoteChapterId.filter (· ∈ readable)).isSome

/-- No chapter that the source answers for is left out of so many refreshes. -/
def StarvesNone : Prop :=
  ∀ rows now, Refreshes readable answer rows now →
    ∀ row ∈ rows 0, ∀ chapter ∈ row.remoteChapterId, chapter ∈ readable → answer chapter ≠ .failed →
      let count := (rows 0).countP (·.isReadable readable)
      ∃ turn < (count + 15) / 16 + count,
        row.id ∈ (verifyStoredChapters readable answer (now turn) (rows turn)).asked

/-- The readable rows that wait as long as one. -/
def waiting (item : StoredChapter) (rows : List StoredChapter) : Nat :=
  rows.countP fun row => row.isReadable readable && notAfter row.updatedAt item.updatedAt

variable {readable answer now}

theorem verifyRows_unasked (member : item ∈ rows)
    (unasked : item.id ∉ (verifyRows readable answer now checks rows).asked) :
    item ∈ (verifyRows readable answer now checks rows).rows := by
  fun_induction verifyRows <;> grind [unhide, hide, touch]

theorem waiting_verifyRows (later : ∀ check, ¬ notAfter (some (now check)) item.updatedAt) :
    waiting readable item (verifyRows readable answer now checks rows).rows ≤
      waiting readable item rows := by
  fun_induction verifyRows <;> grind [waiting, unhide, hide, touch, StoredChapter.isReadable]

/-- With no failure the first readable row is asked about, and none waited longer. -/
theorem waiting_verifyRows_lt (later : ∀ check, ¬ notAfter (some (now check)) item.updatedAt)
    (unfailing : ∀ chapter ∈ readable, answer chapter ≠ .failed)
    (ordered : rows.Pairwise (notAfter ·.updatedAt ·.updatedAt)) (member : item ∈ rows)
    (due : item.isReadable readable)
    (unasked : item.id ∉ (verifyRows readable answer now (checks + 1) rows).asked) :
    waiting readable item (verifyRows readable answer now (checks + 1) rows).rows <
      waiting readable item rows := by
  induction rows with
  | nil => cases member
  | cons row rest ih =>
    obtain ⟨first, ordered⟩ := pairwise_cons.mp ordered
    have fewer := @waiting_verifyRows readable answer now item checks rest later
    cases found : row.remoteChapterId.filter (· ∈ readable) with
    | none => grind [verifyRows, waiting, StoredChapter.isReadable]
    | some chapter =>
      have answers := unfailing chapter (by simpa using (Option.filter_eq_some_iff.mp found).2)
      grind [verifyRows, waiting, unhide, hide, touch, StoredChapter.isReadable]

/-- As long as a row is not asked about, every refresh asks about one that waited as long. -/
theorem Refreshes.waiting_add_le {rows : Nat → List StoredChapter} {now : Nat → Nat → Int}
    (run : Refreshes readable answer rows now)
    (unfailing : ∀ chapter ∈ readable, answer chapter ≠ .failed) (first : item ∈ rows 0)
    (due : item.isReadable readable) {turns : Nat} (unasked : ∀ turn < turns,
      item.id ∉ (verifyStoredChapters readable answer (now turn) (rows turn)).asked) :
    item ∈ rows turns ∧
      waiting readable item (rows turns) + turns ≤ (rows 0).countP (·.isReadable readable) := by
  induction turns with
  | zero => exact ⟨first, countP_mono_left fun row _ => by simp +contextual⟩
  | succ turns ih =>
    obtain ⟨member, bound⟩ := ih fun turn early => unasked turn (by omega)
    have left := unasked turns (by omega)
    have next := run.next turns
    refine ⟨next.mem_iff.mpr (verifyRows_unasked member left), ?_⟩
    have falls : waiting readable item (rows (turns + 1)) < waiting readable item (rows turns) := by
      rw [waiting, next.countP_eq]
      exact waiting_verifyRows_lt (fun check => (run.clock turns check).1 item member) unfailing
        (run.ordered turns) member due left
    omega

/-- A row whose check fails keeps its time, so the row after it waits in every refresh. -/
theorem not_starvesNone {failing other : String} (fails : answer failing = .failed)
    (answers : answer other ≠ .failed) (listed : failing ∈ readable) (known : other ∈ readable) :
    ¬ StarvesNone readable answer := by
  intro fair
  let row (chapter : String) (time : Int) : StoredChapter :=
    ⟨chapter, some chapter, none, some time⟩
  have differ : failing ≠ other := fun same => answers (same ▸ fails)
  have stops (now) : verifyStoredChapters readable answer now [row failing 0, row other 1] =
      ⟨[row failing 0, row other 1], [failing], [], []⟩ := by
    simp [verifyStoredChapters, verifyPerRefresh, verifyRows, row, Option.filter, listed, fails]
  obtain ⟨turn, -, asked⟩ := fair (fun _ => [row failing 0, row other 1]) (fun turn _ => turn + 2)
    { keyed := fun _ => by simpa [row] using differ
      ordered := fun _ => by simp [row, notAfter]
      clock := fun turn _ => ⟨by simp [row, notAfter]; omega, fun _ => by omega⟩
      next := fun _ => by rw [stops] }
    (row other 1) (by simp) other rfl known answers
  rw [stops] at asked
  exact differ (mem_singleton.mp asked).symm

/-- Only a check that fails keeps the rows behind it waiting. -/
theorem starvesNone_iff : StarvesNone readable answer ↔
    (∀ chapter ∈ readable, answer chapter ≠ .failed) ∨
      ∀ chapter ∈ readable, answer chapter = .failed := by
  constructor
  · intro fair
    by_contra! both
    obtain ⟨⟨failing, listed, fails⟩, other, known, answers⟩ := both
    exact not_starvesNone fails answers listed known fair
  rintro (unfailing | all) rows now run row member chapter own listed answers
  · intro count
    by_contra! unasked
    have due : row.isReadable readable := by
      simp [StoredChapter.isReadable, Option.mem_def.mp own, Option.filter, listed]
    obtain ⟨member, bound⟩ := run.waiting_add_le unfailing member due unasked
    have same : notAfter row.updatedAt row.updatedAt := by
      cases row.updatedAt <;> simp [notAfter]
    have counted : 0 < waiting readable row _ :=
      countP_pos_iff.mpr ⟨row, member, by simp [due, same]⟩
    omega
  · exact absurd (all chapter listed) answers

theorem starves_after_failure :
    ¬ StarvesNone ["a", "b"] fun chapter => if chapter = "a" then .failed else .served :=
  @not_starvesNone _ _ "a" "b" rfl nofun (by simp) (by simp)

end Coppice.Provider
