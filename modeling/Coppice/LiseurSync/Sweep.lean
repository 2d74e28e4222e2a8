import Mathlib.Data.List.Dedup
import Coppice.LiseurSync.Native

/-!
# The rotating sweep

A poll visits the next works after the account's cursor. A full window leaves the cursor at its last
work, and a short one drops it, so the works still to come are cut from the front and then are all
works again. `rotated` is that step, and every work comes up before it has gone round.
-/

namespace Coppice.LiseurSync

open Coppice.Std Models List

section Rotation

variable {α : Type} [DecidableEq α] {size : Nat} {all rest : List α} {item : α}

/-- What a rotation in steps of `size` has to come after a step. -/
def rotated (all : List α) (size : Nat) (rest : List α) : List α :=
  if size ≤ rest.length then rest.drop size else all

/-- The steps a rotation takes before the one that visits an item. -/
def turnsTo (all : List α) (size : Nat) (item : α) (rest : List α) : Nat :=
  if item ∈ rest then rest.idxOf item / size else rest.length / size + 1 + all.idxOf item / size

theorem turnsTo_rotated (positive : 0 < size) (member : item ∈ all)
    (later : item ∉ rest.take size) :
    turnsTo all size item rest = turnsTo all size item (rotated all size rest) + 1 := by
  unfold rotated turnsTo
  by_cases full : size ≤ rest.length
  · have same : item ∈ rest ↔ item ∈ rest.drop size := by
      conv_lhs => rw [← take_append_drop size rest, mem_append]
      exact or_iff_right later
    have place : rest.idxOf item = size + (rest.drop size).idxOf item := by
      conv_lhs => rw [← take_append_drop size rest]
      rw [idxOf_append_of_notMem later, length_take_of_le full]
    simp only [if_pos full, same, place, length_drop, Nat.add_div_left _ positive,
      Nat.div_eq_sub_div positive full]
    split <;> omega
  · rw [take_of_length_le (by omega)] at later
    rw [if_neg full, if_neg later, if_pos member, Nat.div_eq_of_lt (by omega)]
    omega

theorem turnsTo_le (suffix : rest <:+ all) (member : item ∈ all) :
    turnsTo all size item rest ≤ all.length / size + 1 := by
  obtain ⟨front, rfl⟩ := suffix
  unfold turnsTo
  rw [length_append]
  split
  · rename_i late
    have place := idxOf_lt_length_of_mem late
    exact (Nat.div_le_div_right (by omega)).trans (Nat.le_succ _)
  rename_i passed
  have early := (mem_append.mp member).resolve_right passed
  have place := idxOf_lt_length_of_mem early
  have fits : rest.length / size + front.idxOf item / size ≤
      (front.length + rest.length) / size :=
    Nat.div_add_div_le_add_div.trans (Nat.div_le_div_right (by omega))
  rw [idxOf_append_of_mem early]
  omega

/-- A rotation visits every item. -/
theorem rotation_visits (rests : Nat → List α) (positive : 0 < size) (member : item ∈ all)
    (rounds : ∀ turn, rests (turn + 1) = rotated all size (rests turn)) {turns first : Nat}
    (enough : turnsTo all size item (rests first) ≤ turns) :
    ∃ turn ≤ turns, item ∈ (rests (first + turn)).take size := by
  induction turns generalizing first with
  | zero =>
    refine ⟨0, le_rfl, Decidable.byContradiction fun later => ?_⟩
    have further : turnsTo all size item (rests first) = _ :=
      turnsTo_rotated positive member later
    omega
  | succ turns ih =>
    by_cases now : item ∈ (rests first).take size
    · exact ⟨0, Nat.zero_le _, now⟩
    have further := turnsTo_rotated positive member now
    rw [← rounds] at further
    obtain ⟨turn, early, seen⟩ := @ih (first + 1) (by omega)
    refine ⟨turn + 1, by omega, ?_⟩
    rwa [Nat.add_right_comm first 1 turn] at seen

end Rotation

section Above

variable {β : Type} [LinearOrder β] {before after sorted : List β} {last : β}

theorem filter_after (rising : (before ++ last :: after).Pairwise (· < ·)) :
    (before ++ last :: after).filter (last < ·) = after := by
  obtain ⟨-, tail, across⟩ := pairwise_append.mp rising
  have below : before.filter (last < ·) = [] := by
    simpa [filter_eq_nil_iff] using fun item member => (across item member last mem_cons_self).le
  have above : after.filter (last < ·) = after := by
    simpa [filter_eq_self] using (pairwise_cons.mp tail).1
  rw [filter_append, filter_cons_of_neg (by simp), below, above, nil_append]

theorem filter_above_suffix (rising : sorted.Pairwise (· < ·)) (cursor : β) :
    sorted.filter (cursor < ·) <:+ sorted := by
  induction sorted with
  | nil => exact suffix_rfl
  | cons first sorted ih =>
    obtain ⟨least, rising⟩ := pairwise_cons.mp rising
    by_cases above : cursor < first
    · have whole : (first :: sorted).filter (cursor < ·) = first :: sorted := by
        simpa [filter_eq_self, above] using fun item member => above.trans (least item member)
      exact ⟨[], whole⟩
    · rw [filter_cons_of_neg (by simpa using above)]
      exact (ih rising).trans (suffix_cons _ _)

end Above

section Sweep

variable [Host] {works : List String} {s : Store} {polls : Nat → Int × Store}
  {start : Option String}

/-- A work of the sweep: one with a link or with a live native mirror. -/
def SweptWork (s : Store) (id : String) : Prop :=
  (∃ link ∈ s.links, link.workId = id) ∨ ∃ row ∈ s.annotations, row.deleted = false ∧
    isStumpNativeAnnotationId (toAsciiLowercase row.id) = true ∧ row.workId = id

/-- The cursor before each poll of a sequence, whatever else is written in between. -/
def sweepCursor (polls : Nat → Int × Store) (start : Option String) : Nat → Option String
  | 0 => start
  | poll + 1 => (reconcileNativeAnnotations (polls poll).1 (polls poll).2
      (sweepCursor polls start poll)).2

/-- The account after each poll of a sequence. -/
def sweptStore (polls : Nat → Int × Store) (start : Option String) (poll : Nat) : Store :=
  (reconcileNativeAnnotations (polls poll).1 (polls poll).2 (sweepCursor polls start poll)).1

/-- The works a poll visits. -/
def visitedWorks (polls : Nat → Int × Store) (start : Option String) (poll : Nat) : List String :=
  nativeSweepWindow (polls poll).2 (sweepCursor polls start poll) nativeSweepWorksPerPoll

/-- The works to come after a cursor, in order. -/
def worksAfter (works : List String) (cursor : Option String) : List String :=
  (orderBy id works).filter (cursor.getD "" < ·)

variable (distinct : works.Nodup)
include distinct

omit [Host] in
theorem rising_works : (orderBy id works).Pairwise (· < ·) := by
  exact orderBy_strict id (by rwa [map_id])

omit [Host] in
theorem nativeSweepWindow_eq (fixed : ∀ id, SweptWork s id ↔ id ∈ works) (after : Option String)
    (limit : Nat) : nativeSweepWindow s after limit = (worksAfter works after).take limit := by
  refine congrArg (take limit) (orderBy_eq id ?_ ((rising_works distinct).filter _))
  have apart := (rising_works distinct).imp ne_of_lt
  refine (perm_ext_iff_of_nodup (apart.filter _) ((nodup_dedup _).filter _)).mpr fun id => ?_
  have known := fixed id
  simp only [SweptWork] at known
  simp [← known, and_assoc]

variable (fixed : ∀ poll id, SweptWork (polls poll).2 id ↔ id ∈ works) (named : "" ∉ works)
include fixed named

/-- A poll takes the sweep one step round. -/
theorem worksAfter_poll (poll : Nat) :
    worksAfter works (sweepCursor polls start (poll + 1)) =
      rotated (orderBy id works) nativeSweepWorksPerPoll
        (worksAfter works (sweepCursor polls start poll)) := by
  have window := nativeSweepWindow_eq distinct (fixed poll) (sweepCursor polls start poll)
    nativeSweepWorksPerPoll
  obtain ⟨passed, all⟩ := filter_above_suffix (rising_works distinct)
    ((sweepCursor polls start poll).getD "")
  change passed ++ worksAfter works (sweepCursor polls start poll) = _ at all
  rw [sweepCursor, reconcileNativeAnnotations]
  simp only [window]
  generalize worksAfter works (sweepCursor polls start poll) = rest at all ⊢
  have rising := rising_works distinct
  by_cases full : nativeSweepWorksPerPoll ≤ rest.length
  · rw [rotated, if_pos full, if_pos (length_take_of_le full)]
    rcases eq_nil_or_concat (rest.take nativeSweepWorksPerPoll) with empty | ⟨front, last, cut⟩
    · have short := congrArg length empty
      rw [length_take_of_le full] at short
      cases short
    rw [concat_eq_append] at cut
    have split : orderBy id works =
        passed ++ front ++ last :: rest.drop nativeSweepWorksPerPoll := by
      rw [← all]
      conv_lhs => rw [← take_append_drop nativeSweepWorksPerPoll rest, cut]
      simp
    rw [cut, getLast?_concat, worksAfter, Option.getD_some]
    rw [split] at rising ⊢
    exact filter_after rising
  · rw [rotated, if_neg full, if_neg (by rw [length_take]; omega)]
    refine filter_eq_self.mpr fun work listed => ?_
    have other : work ≠ "" := fun empty => named (empty ▸ (mem_orderBy id).mp listed)
    refine decide_eq_true (String.lt_iff_toList_lt.mpr ?_)
    cases text : work.toList with
    | nil => exact absurd (String.toList_eq_nil_iff.mp text) other
    | cons first rest => exact nil_lt_cons _ _

/-- However the account is written in between, as long as its works stay the same: a poll leaves the
account with the mirrors of the works it visits reconciled, which are no more than a window of them,
and a round of polls, from any cursor on, visits each. -/
theorem native_sweep_visits (start : Option String) :
    (∀ poll, sweptStore polls start poll = reconcileNativeWorks (polls poll).1 (polls poll).2
        (visitedWorks polls start poll) ∧ (visitedWorks polls start poll).length ≤ 64) ∧
      ∀ first, ∀ work ∈ works, ∃ turn < works.length / 64 + 2,
        work ∈ visitedWorks polls start (first + turn) := by
  have windows (poll : Nat) : visitedWorks polls start poll =
      (worksAfter works (sweepCursor polls start poll)).take nativeSweepWorksPerPoll :=
    nativeSweepWindow_eq distinct (fixed poll) _ _
  refine ⟨fun poll => ⟨rfl, by rw [windows]; exact length_take_le _ _⟩, fun first work member => ?_⟩
  have reached : turnsTo (orderBy id works) nativeSweepWorksPerPoll work
      (worksAfter works (sweepCursor polls start first)) ≤ works.length / 64 + 1 := by
    rw [← (orderBy_perm id works).length_eq]
    exact turnsTo_le (filter_above_suffix (rising_works distinct) _) ((mem_orderBy id).mpr member)
  obtain ⟨turn, early, seen⟩ := rotation_visits
    (fun poll => worksAfter works (sweepCursor polls start poll)) (by decide)
    ((mem_orderBy id).mpr member) (worksAfter_poll distinct fixed named) reached
  exact ⟨turn, by omega, by rw [windows]; exact seen⟩

end Sweep

section Sample

local instance sweepHost : Host := Host.sample

/-- One work more than a poll visits. -/
def sampleSweptWorks : List String := (range 65).map fun n => String.ofList (replicate (n + 1) 'w')

def sampleSweptStore : Store :=
  { Store.empty "user" with
    links := sampleSweptWorks.map fun work =>
      ⟨"link", "media", work, "sha", .verified, "now", .confirmed, none⟩ }

/-- From a cursor behind all works. -/
theorem native_sweep_visits_sample : ∃ turn < 3, "w" ∈ visitedWorks
    (fun _ => (0, sampleSweptStore)) (some "z") (5 + turn) :=
  (native_sweep_visits (by decide +kernel : sampleSweptWorks.Nodup)
    (fun _ id => by simp [SweptWork, Store.empty, sampleSweptStore]) (by decide +kernel)
    (some "z")).2 5 "w" (by decide +kernel)

end Sample

end Coppice.LiseurSync
