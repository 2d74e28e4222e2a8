import Coppice.Kobo.Sync
import Coppice.Std.Checked

/-!
# Paging through a sync session

A page is cut out of a session's list at the offset of the token a device hands back. The server
gives out offsets inside the list; any other offset enters the same addition unchecked.
-/

namespace Coppice.Kobo

open Coppice.Std Checked

/-- `SyncPage::new`, with the addition and the slice it makes. -/
def SyncPage.checkedNew (session : SyncSession) (offset limit : Nat) : Checked Empty SyncPage := do
  let start := min offset session.mediaIds.length
  let nextOffset := min (← add offset limit) session.mediaIds.length
  let mediaIds ← slice session.mediaIds start nextOffset
  return {
    previousSyncAt := session.previousSyncAt
    mediaIds := mediaIds
    shouldContinue := nextOffset < session.mediaIds.length
    syncToken := .new session.id (¬nextOffset < session.mediaIds.length) nextOffset }

/-- The pages of a device that hands every token back, from an offset of a session on, until a
token continues no session. -/
def follow (store : KoboStore) (limit : Nat) :
    Nat → SyncSession → Nat → Checked Empty (List SyncPage)
  | 0, _, _ => fault .unfinished
  | turns + 1, session, offset => do
    let page ← SyncPage.checkedNew session offset limit
    match store.serve (some page.syncToken) with
    | .resume session offset => return page :: (← follow store limit turns session offset)
    | .fresh _ => return [page]

variable {store : KoboStore} {session : SyncSession} {offset limit : Nat}

theorem SyncPage.checkedNew_of_lt (fits : offset + limit < 2 ^ 64) :
    SyncPage.checkedNew session offset limit = .ok (SyncPage.new session offset limit) := by
  unfold SyncPage.checkedNew SyncPage.new
  simp only [add_of_lt fits, ok_bind]
  rw [slice_of_le (by omega) (by omega), ok_bind, ← List.drop_take]
  rfl

/-- Only the addition can go wrong. -/
theorem SyncPage.safe_checkedNew_iff :
    Safe (SyncPage.checkedNew session offset limit) ↔ offset + limit < 2 ^ 64 := by
  by_cases fits : offset + limit < 2 ^ 64
  · rw [checkedNew_of_lt fits]
    exact iff_of_true nofun fits
  have faulty : faultOf (SyncPage.checkedNew session offset limit) = some .overflow := by
    rw [SyncPage.checkedNew, add, if_neg fits]
    rfl
  exact iff_of_false (not_safe_of_faultOf faulty) fits

theorem follow_spec (found : store.find session.id = some session)
    (short : session.mediaIds.length < 2 ^ 63) (positive : 1 ≤ limit) {turns : Nat}
    (fits : offset + limit < 2 ^ 64) (enough : session.mediaIds.length - offset < turns) :
    ∃ pages, follow store limit turns session offset = .ok pages ∧
      (pages.map SyncPage.mediaIds).flatten = session.mediaIds.drop offset ∧
      pages.getLast?.map SyncPage.syncToken = some (.completedV1 session.id) := by
  induction turns generalizing offset with
  | zero => omega
  | succ turns ih =>
    have rest := SyncPage.mediaIds_new session offset limit
    have token := SyncPage.token_new session offset limit
    rw [follow, SyncPage.checkedNew_of_lt fits, ok_bind]
    by_cases more : min (offset + limit) session.mediaIds.length < session.mediaIds.length
    · -- the next offset lies in the list, so the next addition stays below twice its length
      have next : min (offset + limit) session.mediaIds.length = offset + limit := by omega
      have going : (SyncPage.new session offset limit).shouldContinue = true := decide_eq_true more
      rw [going, if_pos rfl, next] at token
      have served : store.serve (some (SyncPage.new session offset limit).syncToken) =
          .resume session (offset + limit) := by
        rw [token]
        simp [KoboStore.serve, SyncToken.syncId, found]
      obtain ⟨pages, followed, listed, last⟩ := @ih (offset + limit) (by omega) (by omega)
      refine ⟨SyncPage.new session offset limit :: pages, ?_, ?_, ?_⟩
      · simp only [served, followed, ok_bind]
        rfl
      · rw [List.map_cons, List.flatten_cons, listed, ← rest, next]
      · cases pages with
        | nil => cases last
        | cons page pages => rwa [List.getLast?_cons_cons]
    · have done : (SyncPage.new session offset limit).shouldContinue = false := decide_eq_false more
      rw [done, if_neg Bool.false_ne_true] at token
      have whole : min (offset + limit) session.mediaIds.length =
        session.mediaIds.length := by omega
      rw [whole, List.drop_length, List.append_nil] at rest
      refine ⟨[SyncPage.new session offset limit], ?_, ?_, congrArg some token⟩
      · rw [token]
        rfl
      · rw [← rest]
        exact List.append_nil _

/-- Following the tokens from the start gives the session's list, whatever the limit, and ends with
a completed token. For a token with any offset, the page is cut out without a fault exactly if the
offset and the limit add up to a word. -/
theorem kobo_pages_iff (found : store.find session.id = some session)
    (short : session.mediaIds.length < 2 ^ 63) :
    (∀ limit, 1 ≤ limit → limit < 2 ^ 64 → ∃ turns pages,
      follow store limit turns session 0 = .ok pages ∧
        (pages.map SyncPage.mediaIds).flatten = session.mediaIds ∧
        pages.getLast?.map SyncPage.syncToken = some (.completedV1 session.id)) ∧
      ∀ limit offset, store.serve (some (.incompleteV1 session.id offset)) =
        .resume session offset ∧
        (Safe (SyncPage.checkedNew session offset limit) ↔ offset + limit < 2 ^ 64) := by
  refine ⟨fun limit positive word => ?_, fun limit offset => ⟨?_, SyncPage.safe_checkedNew_iff⟩⟩
  · exact ⟨_, follow_spec found short positive (by omega) (Nat.lt_succ_self _)⟩
  · simp [KoboStore.serve, SyncToken.syncId, found]

def sampleSession : SyncSession := ⟨"sync", ["a", "b", "c"], 0, none, "kobo"⟩

theorem kobo_pages_iff_sample :
    ∃ turns pages, follow ⟨[], [], [], [sampleSession]⟩ 2 turns sampleSession 0 = .ok pages ∧
      (pages.map SyncPage.mediaIds).flatten = ["a", "b", "c"] := by
  obtain ⟨turns, pages, followed, listed, -⟩ :=
    (@kobo_pages_iff ⟨[], [], [], [sampleSession]⟩ sampleSession rfl (by decide)).1 2 (by decide)
      (by decide)
  exact ⟨turns, pages, followed, listed⟩

/-- A token with the largest offset. -/
theorem forged_offset_overflows :
    faultOf (SyncPage.checkedNew sampleSession (2 ^ 64 - 1) 1) = some .overflow := by
  decide

end Coppice.Kobo
