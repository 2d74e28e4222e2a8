import Coppice.Models.ReadingState
import Coppice.Std.System

/-!
# A head is a replay of its provenance

Every update of a reading state is recorded, and so is every reset. The rows since
the last reset of a media row that moved its head determine the head: `replay`
folds them, and `provenanceSystem` keeps head and fold equal across any run of
updates and resets. What the conflict rule promises about stale updates is read
off the last of those rows.
-/

namespace Coppice.Models

open Coppice.Std List

/-- The fields of a head that its provenance determines. -/
structure Merged where
  locator : Option ReadiumLocator
  page : Option Int
  positionMs : Option Int
  trackIndex : Option Int
  progression : ℚ
  completed : Bool
  updatedAt : Int
  sourceProtocol : SourceProtocol
  sourceDeviceId : Option String
deriving DecidableEq, Repr

def ReadingHead.merged (head : ReadingHead) : Merged :=
  { locator := head.locator
    page := head.page
    positionMs := head.positionMs
    trackIndex := head.trackIndex
    progression := head.progression
    completed := head.completed
    updatedAt := head.updatedAt
    sourceProtocol := head.sourceProtocol
    sourceDeviceId := head.sourceDeviceId }

/-- One row folded in: positions, progression and completion it does not give are
kept, time, protocol and device are its own. -/
def Merged.after (previous : Option Merged) (event : ReadingHeadEvent) : Merged :=
  { locator := event.locator.or (previous.bind (·.locator))
    page := event.page.or (previous.bind (·.page))
    positionMs := event.positionMs.or (previous.bind (·.positionMs))
    trackIndex := event.trackIndex.or (previous.bind (·.trackIndex))
    progression := event.progression.getD
      ((previous.map (·.progression)).getD (if event.completed = some true then 1 else 0))
    completed := event.completed.getD ((previous.map (·.completed)).getD false)
    updatedAt := event.sourceUpdatedAt
    sourceProtocol := event.protocol
    sourceDeviceId := event.deviceId }

/-- The head a list of provenance rows leaves. -/
def replay (events : List ReadingHeadEvent) : Option Merged :=
  events.foldl (fun previous event => some (Merged.after previous event)) none

theorem replay_concat (events : List ReadingHeadEvent) (event : ReadingHeadEvent) :
    replay (events ++ [event]) = some (Merged.after (replay events) event) := by
  simp [replay, foldl_append]

/-- The device a fold would leave that keeps the last one named. -/
def keptDevice (events : List ReadingHeadEvent) : Option String :=
  events.foldl (fun kept event => event.deviceId.or kept) none

theorem rtakeWhile_congr {α : Type} {p q : α → Bool} {items : List α}
    (agree : ∀ item ∈ items, p item = q item) : items.rtakeWhile p = items.rtakeWhile q := by
  induction items using List.reverseRecOn with
  | nil => rfl
  | append_singleton items item ih =>
    rw [rtakeWhile_concat, rtakeWhile_concat, agree item (by simp),
      ih fun other member => agree other (by simp [member])]

namespace ReadingState

section Apply

variable (state : ReadingState) (now : Int) (publication : Publication) (update : ProtocolUpdate)

/-- The head an accepted update leaves is the old one with its event folded in. -/
theorem merged_headOf (won : state.accepts now publication update = true) (eventId : Nat) :
    (headOf (state.head publication.mediaId) now publication update
      (state.verdict now publication update) eventId).merged =
      Merged.after ((state.head publication.mediaId).map ReadingHead.merged)
        (state.recorded now publication update) := by
  unfold accepts at won
  unfold headOf ReadingHead.merged Merged.after recorded eventOf
  unfold verdict at won ⊢
  cases stored : state.head publication.mediaId with
  | none =>
    cases completed : (project update publication).completed with
    | none => simp [resolve, completed]
    | some flag => cases flag <;> simp [resolve, completed]
  | some head =>
    rw [stored] at won
    simp only [Option.map_some, resolve] at won ⊢
    split
    · rename_i stale
      simp [stale] at won
    · simp

/-- An accepted update that lowers the head trails it by at most the tolerance. -/
theorem lag_of_lowers {head : ReadingHead} (stored : state.head publication.mediaId = some head)
    (won : state.accepts now publication update = true)
    (lowers : (state.verdict now publication update).progression < head.progression) :
    head.updatedAt - update.updatedAt.getD now ≤ staleToleranceSecs * second := by
  unfold accepts at won
  unfold verdict at won lowers
  rw [stored] at won lowers
  simp only [Option.map_some, resolve] at won lowers
  split at lowers
  · rename_i stale
    simp [stale] at won
  · rename_i fresh
    by_contra late
    exact fresh ⟨not_le.mp late, lowers⟩

end Apply

/-- What a reset did: one applied row per head it removed, under the next ids. -/
structure Reset (state next : ReadingState) (removed : List String)
    (rows : List ReadingHeadEvent) : Prop where
  events : next.events = state.events ++ rows
  media : rows.map ReadingHeadEvent.mediaId = removed
  ids : rows.map ReadingHeadEvent.id = List.range' (state.eventSeq + 1) rows.length
  eventSeq : next.eventSeq = state.eventSeq + rows.length
  applied : ∀ row ∈ rows, row.applied = true

theorem foldl_recordClear (now : Int) (protocol : SourceProtocol) (deviceId : Option String)
    (heads : List ReadingHead) (state : ReadingState) :
    (heads.foldl (recordClear now protocol deviceId) state).heads = state.heads ∧
      ∃ rows, Reset state (heads.foldl (recordClear now protocol deviceId) state)
        (heads.map ReadingHead.mediaId) rows := by
  induction heads generalizing state with
  | nil => exact ⟨rfl, [], ⟨by simp, rfl, rfl, rfl, by simp⟩⟩
  | cons head heads ih =>
    obtain ⟨kept, rows, reset⟩ := ih (recordClear now protocol deviceId state head)
    refine ⟨kept, state.clearEvent now protocol deviceId head.mediaId :: rows,
      ⟨?_, ?_, ?_, ?_, forall_mem_cons.mpr ⟨rfl, reset.applied⟩⟩⟩
    · rw [foldl_cons, reset.events]
      simp [recordClear]
    · simp [clearEvent, reset.media]
    · simp [List.range'_succ, clearEvent, reset.ids, recordClear]
    · rw [foldl_cons, reset.eventSeq]
      simp only [recordClear, length_cons]
      omega

section Clear

variable [Host] (state : ReadingState) (now : Int) (mediaIds : List String)
  (protocol : SourceProtocol) (deviceId : Option String)

/-- The heads a reset removes, in the order it records them. -/
def clearedMedia : List String :=
  (Host.scan (state.headsFor mediaIds)).map ReadingHead.mediaId

/-- A reset records one row per head it removes, and removes those heads only. -/
theorem clear_spec :
    (∃ rows, Reset state (state.clear now mediaIds protocol deviceId).1
      (state.clearedMedia mediaIds) rows) ∧
    (state.clear now mediaIds protocol deviceId).1.heads =
      state.heads.filter fun head => head.mediaId ∉ state.clearedMedia mediaIds := by
  unfold clear
  simp only
  split
  · rename_i none
    have nothing : state.clearedMedia mediaIds = [] := by simp [clearedMedia, none]
    rw [nothing]
    exact ⟨⟨[], ⟨by simp, rfl, rfl, rfl, by simp⟩⟩, by simp⟩
  · obtain ⟨kept, rows, reset⟩ :=
      foldl_recordClear now protocol deviceId (Host.scan (state.headsFor mediaIds)) state
    exact ⟨⟨rows, { reset with }⟩,
      by rw [kept]; rfl⟩

theorem clear_head (mediaId : String) :
    (state.clear now mediaIds protocol deviceId).1.head mediaId =
      if mediaId ∈ state.clearedMedia mediaIds then none else state.head mediaId := by
  unfold head
  rw [(state.clear_spec now mediaIds protocol deviceId).2]
  split
  · rename_i removed
    refine lookup_eq_none.mpr fun row member same => ?_
    have standing := (mem_filter.mp member).2
    simp [same, removed] at standing
  rename_i standing
  rw [lookup_eq_head?, lookup_eq_head?, filter_filter]
  congr 1
  refine filter_congr fun row _ => ?_
  by_cases same : row.mediaId = mediaId
  · simp [same, standing]
  · simp [same]

end Clear
end ReadingState

/-- A reading state with the ids of the rows its resets recorded. -/
structure ReadingRun where
  state : ReadingState
  cleared : List Nat
deriving DecidableEq, Repr

namespace ReadingRun

variable {mediaId : String} {run : ReadingRun}

/-- The applied rows of one media row, in id order. -/
def applied (run : ReadingRun) (mediaId : String) : List ReadingHeadEvent :=
  run.state.events.filter fun event => event.applied ∧ event.mediaId = mediaId

/-- The applied rows of one media row after its last reset. -/
def current (run : ReadingRun) (mediaId : String) : List ReadingHeadEvent :=
  (run.applied mediaId).rtakeWhile fun event => event.id ∉ run.cleared

/-- The head of a media row is what its rows since the last reset leave. -/
inductive Tracks (run : ReadingRun) (mediaId : String) : Prop where
  | absent (headless : run.state.head mediaId = none) (unread : run.current mediaId = [])
  | present (head : ReadingHead) (earlier : List ReadingHeadEvent) (last : ReadingHeadEvent)
      (stored : run.state.head mediaId = some head)
      (rows : run.current mediaId = earlier ++ [last])
      (replayed : replay (run.current mediaId) = some head.merged)
      (revision : head.revision = (run.current mediaId).length)
      (eventId : head.eventId = last.id)

theorem Tracks.replayed (tracks : run.Tracks mediaId) :
    (run.state.head mediaId).map ReadingHead.merged = replay (run.current mediaId) := by
  cases tracks with
  | absent headless unread => simp [headless, unread, replay]
  | present head earlier last stored rows replayed => simp [stored, replayed]

theorem Tracks.revised (tracks : run.Tracks mediaId) :
    ((run.state.head mediaId).map (·.revision + 1)).getD 1 =
      ((run.current mediaId).length : Int) + 1 := by
  cases tracks with
  | absent headless unread => simp [headless, unread]
  | present head earlier last stored rows replayed revision => simp [stored, revision]

/-- A step that leaves the head and the rows of a media row alone keeps them equal. -/
theorem Tracks.keep {next : ReadingRun} (tracks : run.Tracks mediaId)
    (head : next.state.head mediaId = run.state.head mediaId)
    (rows : next.current mediaId = run.current mediaId) : next.Tracks mediaId := by
  cases tracks with
  | absent headless unread => exact .absent (head.trans headless) (rows.trans unread)
  | present stored earlier last found split replayed revision eventId =>
    exact .present stored earlier last (head.trans found) (rows.trans split)
      (rows ▸ replayed) (rows ▸ revision) eventId

/-- Rows are recorded under growing ids, and heads are replays. -/
structure Sound (run : ReadingRun) : Prop where
  ordered : (run.state.events.map ReadingHeadEvent.id).Pairwise (· < ·)
  bound : ∀ event ∈ run.state.events, event.id ≤ run.state.eventSeq
  clearedBound : ∀ id ∈ run.cleared, id ≤ run.state.eventSeq
  distinct : (run.state.heads.map ReadingHead.mediaId).Nodup
  tracks : ∀ mediaId, run.Tracks mediaId

section Step

variable {run : ReadingRun}

/-- Rows above the sequence extend the ordered log. -/
theorem Sound.extended (sound : run.Sound) (rows : List ReadingHeadEvent) (length : Nat)
    (ids : rows.map ReadingHeadEvent.id = List.range' (run.state.eventSeq + 1) length) :
    ((run.state.events ++ rows).map ReadingHeadEvent.id).Pairwise (· < ·) ∧
      ∀ event ∈ run.state.events ++ rows, event.id ≤ run.state.eventSeq + length := by
  have above : ∀ row ∈ rows, run.state.eventSeq < row.id ∧
    row.id ≤ run.state.eventSeq + length := by
    intro row member
    have placed : row.id ∈ List.range' (run.state.eventSeq + 1) length :=
      ids ▸ mem_map_of_mem member
    have bounds := mem_range'_1.mp placed
    omega
  constructor
  · rw [map_append, pairwise_append, ids]
    refine ⟨sound.ordered, pairwise_lt_range', ?_⟩
    intro old oldMember new newMember
    obtain ⟨event, stored, rfl⟩ := mem_map.mp oldMember
    have bounds := mem_range'_1.mp newMember
    have seen := sound.bound event stored
    omega
  · refine forall_mem_append.mpr ⟨fun event old => ?_, fun event new => (above event new).2⟩
    exact (sound.bound event old).trans (Nat.le_add_right _ _)

/-- Marking rows above the sequence forgets none of the rows before. -/
theorem Sound.unmarked (sound : run.Sound) {marks : List Nat}
    (above : ∀ id ∈ marks, run.state.eventSeq < id) (mediaId : String) :
    (run.applied mediaId).rtakeWhile (fun event => event.id ∉ run.cleared ++ marks) =
      run.current mediaId := by
  refine rtakeWhile_congr fun event member => ?_
  have seen := sound.bound event (mem_filter.mp member).1
  have fresh : event.id ∉ marks := fun marked => absurd (above event.id marked) (by omega)
  simp [fresh]

/-- An update keeps the log ordered and every head a replay. -/
theorem Sound.apply (sound : run.Sound) (now : Int) (publication : Publication)
    (update : ProtocolUpdate) :
    Sound { run with state := run.state.apply now publication update } := by
  have events := run.state.apply_events now publication update
  have eventSeq := run.state.apply_eventSeq now publication update
  obtain ⟨ordered, bound⟩ :=
    sound.extended [run.state.recorded now publication update] 1 rfl
  refine ⟨?_, ?_, ?_, ?_, ?_⟩
  · rw [events]
    exact ordered
  · rw [events, eventSeq]
    exact bound
  · intro id marked
    have seen := sound.clearedBound id marked
    rw [eventSeq]
    omega
  · exact run.state.apply_mediaIds now publication update sound.distinct
  intro mediaId
  have head := run.state.apply_head now publication update mediaId
  have rows : ({ run with state := run.state.apply now publication update } :
      ReadingRun).applied mediaId = run.applied mediaId ++
        [run.state.recorded now publication update].filter
          fun event => event.applied ∧ event.mediaId = mediaId := by
    simp only [applied, events, filter_append]
  by_cases moves : mediaId = publication.mediaId ∧
      run.state.accepts now publication update = true
  · obtain ⟨rfl, won⟩ := moves
    have unmarked : (run.state.recorded now publication update).id ∉ run.cleared := by
      intro marked
      have seen := sound.clearedBound _ marked
      simp only [ReadingState.recorded, ReadingState.eventOf] at seen
      omega
    have current : ({ run with state := run.state.apply now publication update } :
        ReadingRun).current publication.mediaId = run.current publication.mediaId ++
          [run.state.recorded now publication update] := by
      unfold ReadingRun.current
      rw [rows,
        filter_cons_of_pos (by simp [ReadingState.recorded, ReadingState.eventOf, won]), filter_nil,
        rtakeWhile_concat_pos _ _ _ (by simpa using unmarked)]
    have tracks := sound.tracks publication.mediaId
    rw [if_pos ⟨rfl, won⟩] at head
    refine .present _ _ _ head current ?_ ?_ ?_
    · rw [current, replay_concat, ← tracks.replayed,
        run.state.merged_headOf now publication update won]
    · rw [current, length_append, length_singleton]
      exact tracks.revised
    · rfl
  · rw [if_neg moves] at head
    refine (sound.tracks mediaId).keep head ?_
    have skipped : ¬((run.state.recorded now publication update).applied = true ∧
        (run.state.recorded now publication update).mediaId = mediaId) := by
      rintro ⟨won, same⟩
      exact moves ⟨same.symm, won⟩
    unfold ReadingRun.current
    rw [rows, filter_cons_of_neg (by simpa using skipped), filter_nil, append_nil]

/-- The rows of one media row among those of a reset: one if its head was removed. -/
theorem filter_reset {state next : ReadingState} {removed : List String}
    {rows : List ReadingHeadEvent} (reset : ReadingState.Reset state next removed rows)
    (distinct : removed.Nodup) (mediaId : String) :
    if mediaId ∈ removed then
      ∃ row ∈ rows, (rows.filter fun event => event.applied ∧ event.mediaId = mediaId) = [row]
    else (rows.filter fun event => event.applied ∧ event.mediaId = mediaId) = [] := by
  have byMedia : (rows.filter fun event => event.applied ∧ event.mediaId = mediaId) =
      rows.filter fun event => event.mediaId = mediaId :=
    filter_congr fun row member => by simp [reset.applied row member]
  rw [byMedia]
  split
  · rename_i here
    rw [← reset.media] at here distinct
    obtain ⟨row, member, rfl⟩ := mem_map.mp here
    obtain ⟨before, after, rfl⟩ := append_of_mem member
    have others : ∀ other ∈ before ++ after, other.mediaId ≠ row.mediaId := by
      intro other where_ same
      rw [map_append, map_cons, nodup_middle, nodup_cons] at distinct
      exact distinct.1 (same ▸ by simpa using mem_map_of_mem where_)
    have left : (before.filter fun event => event.mediaId = row.mediaId) = [] :=
      filter_eq_nil_iff.mpr fun other where_ => by simpa using others other (by simp [where_])
    have right : (after.filter fun event => event.mediaId = row.mediaId) = [] :=
      filter_eq_nil_iff.mpr fun other where_ => by simpa using others other (by simp [where_])
    simp [filter_append, left, right]
  · rename_i elsewhere
    rw [← reset.media] at elsewhere
    refine filter_eq_nil_iff.mpr fun row member => ?_
    simp only [decide_eq_true_eq]
    rintro rfl
    exact elsewhere (mem_map_of_mem member)

/-- The ids a call recorded: those of the rows past the ones it found. -/
def recordedIds (before after : ReadingState) : List Nat :=
  (after.events.drop before.events.length).map ReadingHeadEvent.id

/-- A reset keeps the log ordered and every head a replay. -/
theorem Sound.clear [Host] (sound : run.Sound) (now : Int) (mediaIds : List String)
    (protocol : SourceProtocol) (deviceId : Option String) :
    Sound
      { state := (run.state.clear now mediaIds protocol deviceId).1
        cleared := run.cleared ++
          recordedIds run.state (run.state.clear now mediaIds protocol deviceId).1 } := by
  obtain ⟨⟨added, reset⟩, heads⟩ := run.state.clear_spec now mediaIds protocol deviceId
  have head := run.state.clear_head now mediaIds protocol deviceId
  generalize (run.state.clear now mediaIds protocol deviceId).1 = next at reset heads head ⊢
  have marks : recordedIds run.state next = added.map ReadingHeadEvent.id := by
    simp [recordedIds, reset.events]
  have between : ∀ id ∈ added.map ReadingHeadEvent.id,
      run.state.eventSeq < id ∧ id ≤ next.eventSeq := by
    intro id member
    rw [reset.ids] at member
    have bounds := mem_range'_1.mp member
    rw [reset.eventSeq]
    omega
  obtain ⟨ordered, bound⟩ := sound.extended added added.length reset.ids
  rw [marks]
  refine ⟨?_, ?_, ?_, ?_, ?_⟩
  · rw [reset.events]
    exact ordered
  · rw [reset.events, reset.eventSeq]
    exact bound
  · intro id marked
    rcases mem_append.mp marked with old | new
    · have seen := sound.clearedBound id old
      have grown := reset.eventSeq
      simp only at grown ⊢
      omega
    · exact (between id new).2
  · rw [heads]
    exact sound.distinct.sublist (filter_sublist.map _)
  intro mediaId
  have once : (run.state.clearedMedia mediaIds).Nodup :=
    ((Host.scan_perm _).map _).nodup_iff.mpr (sound.distinct.sublist (filter_sublist.map _))
  have mine := filter_reset reset once mediaId
  have rows : ({ state := next, cleared := run.cleared ++ added.map ReadingHeadEvent.id } :
      ReadingRun).applied mediaId = run.applied mediaId ++
        added.filter fun event => event.applied ∧ event.mediaId = mediaId := by
    simp only [applied, reset.events, filter_append]
  by_cases removed : mediaId ∈ run.state.clearedMedia mediaIds
  · rw [if_pos removed] at mine
    obtain ⟨row, member, only⟩ := mine
    refine .absent (by rw [head, if_pos removed]) ?_
    unfold ReadingRun.current
    rw [rows, only, rtakeWhile_concat_neg]
    simpa using fun _ : row.id ∉ run.cleared => ⟨row, member, rfl⟩
  · rw [if_neg removed] at mine
    refine (sound.tracks mediaId).keep (by rw [head, if_neg removed]) ?_
    unfold ReadingRun.current
    rw [rows, mine, append_nil]
    exact sound.unmarked (fun id marked => (between id marked).1) mediaId

end Step
end ReadingRun

section System

variable [Host]

/-- One call for the user, or calls of others drawing from the shared sequence. -/
inductive ProvenanceStep : ReadingRun → ReadingRun → Prop where
  | apply {run : ReadingRun} (now : Int) (publication : Publication) (update : ProtocolUpdate) :
      ProvenanceStep run { run with state := run.state.apply now publication update }
  | clear {run : ReadingRun} (now : Int) (mediaIds : List String) (protocol : SourceProtocol)
      (deviceId : Option String) :
      ProvenanceStep run
        { state := (run.state.clear now mediaIds protocol deviceId).1
          cleared := run.cleared ++ ReadingRun.recordedIds run.state
            (run.state.clear now mediaIds protocol deviceId).1 }
  | others {run : ReadingRun} {eventSeq : Nat} (later : run.state.eventSeq ≤ eventSeq) :
      ProvenanceStep run { run with state := { run.state with eventSeq := eventSeq } }

/-- Runs of updates and resets of one user, from no rows. -/
def provenanceSystem : System ReadingRun where
  Initial run := run = ⟨.empty, []⟩
  Step := ProvenanceStep

theorem sound_of_reachable {run : ReadingRun} (reachable : provenanceSystem.Reachable run) :
    run.Sound := by
  refine reachable.invariant ?_ ?_
  · rintro run rfl
    exact ⟨.nil, by simp [ReadingState.empty], by simp, .nil, fun mediaId => .absent rfl rfl⟩
  intro run next sound transition
  cases transition with
  | apply now publication update => exact sound.apply now publication update
  | clear now mediaIds protocol deviceId => exact sound.clear now mediaIds protocol deviceId
  | others later =>
    exact
      { sound with
        bound := fun event member => (sound.bound event member).trans later
        clearedBound := fun id marked => (sound.clearedBound id marked).trans later
        tracks := fun mediaId => (sound.tracks mediaId).keep rfl rfl }

/-- In every run, a media row has a head exactly when its last applied row is not a
reset's; the head is then the replay of the applied rows since the last reset, its
revision counts them, and its event is the last of them. -/
theorem head_is_replay {run : ReadingRun} (reachable : provenanceSystem.Reachable run)
    (mediaId : String) :
    (run.state.events.map ReadingHeadEvent.id).Pairwise (· < ·) ∧
    ((run.state.head mediaId).isSome = true ↔
      ∃ last, (run.applied mediaId).getLast? = some last ∧ last.id ∉ run.cleared) ∧
    ∀ head, run.state.head mediaId = some head →
      replay (run.current mediaId) = some head.merged ∧
      head.revision = (run.current mediaId).length ∧
      (run.current mediaId).getLast?.map ReadingHeadEvent.id = some head.eventId := by
  have sound := sound_of_reachable reachable
  refine ⟨sound.ordered, ?_, ?_⟩
  · have unread : run.current mediaId = [] ↔
        ¬∃ last, (run.applied mediaId).getLast? = some last ∧ last.id ∉ run.cleared := by
      unfold ReadingRun.current
      induction run.applied mediaId using List.reverseRecOn with
      | nil => simp
      | append_singleton rows row => by_cases marked : row.id ∈ run.cleared <;> simp [marked]
    cases sound.tracks mediaId with
    | absent headless none => simp [headless, unread.mp none]
    | present head earlier last stored rows =>
      have read : run.current mediaId ≠ [] := by simp [rows]
      rw [Ne, unread, not_not] at read
      simp [stored, read]
  · intro head found
    cases sound.tracks mediaId with
    | absent headless none => simp [headless] at found
    | present stored earlier last here rows replayed revision eventId =>
      obtain rfl := Option.mem_unique here found
      exact ⟨replayed, revision, by simp [rows, eventId]⟩

/-- An accepted update that lowers a head is at most the tolerance older than the
update accepted just before it; where the accepted times since the last reset never
went back, at most the tolerance older than each of them. -/
theorem accepted_lowering_is_recent {run : ReadingRun} (reachable : provenanceSystem.Reachable run)
    (now : Int) (publication : Publication) (update : ProtocolUpdate) {head after : ReadingHead}
    (stored : run.state.head publication.mediaId = some head)
    (won : run.state.accepts now publication update = true)
    (moved : (run.state.apply now publication update).head publication.mediaId = some after)
    (lowers : after.progression < head.progression) :
    (∃ last, (run.current publication.mediaId).getLast? = some last ∧
      last.sourceUpdatedAt - update.updatedAt.getD now ≤ staleToleranceSecs * second) ∧
    ((run.current publication.mediaId).Pairwise
        (fun earlier later => earlier.sourceUpdatedAt ≤ later.sourceUpdatedAt) →
      ∀ event ∈ run.current publication.mediaId,
        event.sourceUpdatedAt - update.updatedAt.getD now ≤ staleToleranceSecs * second) := by
  rw [ReadingState.apply_head, if_pos ⟨rfl, won⟩] at moved
  obtain rfl := Option.some.inj moved
  have lag := run.state.lag_of_lowers now publication update stored won lowers
  cases (sound_of_reachable reachable).tracks publication.mediaId with
  | absent headless => simp [headless] at stored
  | present found earlier last here rows replayed =>
    obtain rfl := Option.mem_unique here stored
    rw [rows, replay_concat] at replayed
    have time : last.sourceUpdatedAt = found.updatedAt :=
      congrArg Merged.updatedAt (Option.some.inj replayed)
    rw [← time] at lag
    rw [rows]
    refine ⟨⟨last, by simp, lag⟩, ?_⟩
    intro ascending
    refine forall_mem_concat (fun event before => ?_) lag
    have order := (pairwise_append.mp ascending).2.2 event before last (by simp)
    omega

end System

section Sample

local instance provenanceHost : Host := Host.sample

/-- A book of a hundred pages. -/
def samplePublication : Publication := ⟨"book", 100, none⟩

/-- A bare progression a device reports. -/
def sampleReport (deviceId : Option String) (updatedAt : Int) (progression : ℚ) : ProtocolUpdate :=
  { protocol := .kobo
    deviceId := deviceId
    updatedAt := some updatedAt
    position := .none
    progression := some progression
    completed := none
    rawPayload := .null }

/-- A run with some reports on one book after it. -/
def ReadingRun.reported (run : ReadingRun) (reports : List ProtocolUpdate) : ReadingRun :=
  reports.foldl (fun run report =>
    { run with state := run.state.apply (sampleHour 0) samplePublication report }) run

theorem reported_reachable {run : ReadingRun} (reachable : provenanceSystem.Reachable run)
    (reports : List ProtocolUpdate) : provenanceSystem.Reachable (run.reported reports) := by
  induction reports generalizing run with
  | nil => exact reachable
  | cons report reports ih =>
    exact ih (reachable.step (.apply (sampleHour 0) samplePublication report))

/-- The run of some reports on one book. -/
def sampleReports (reports : List ProtocolUpdate) : ReadingRun :=
  ReadingRun.reported ⟨.empty, []⟩ reports

theorem sampleReports_reachable (reports : List ProtocolUpdate) :
    provenanceSystem.Reachable (sampleReports reports) :=
  reported_reachable (.initial rfl) reports

/-- A report that names no device leaves a head without one. -/
theorem silent_report_drops_device :
    ∃ run : ReadingRun, provenanceSystem.Reachable run ∧
      ∃ head, run.state.head "book" = some head ∧ head.sourceDeviceId = none ∧
        keptDevice (run.current "book") = some "tablet" :=
  ⟨sampleReports [sampleReport (some "tablet") 0 (1 / 2), sampleReport none second (3 / 5)],
    sampleReports_reachable _, _, rfl, by decide +kernel, by decide +kernel⟩

/-- A report of a tablet and a reset. -/
def sampleReset : ReadingRun :=
  let read := sampleReports [sampleReport (some "tablet") 0 (1 / 2)]
  let reset := (read.state.clear (sampleHour 0) ["book"] .kobo none).1
  ⟨reset, ReadingRun.recordedIds read.state reset⟩

/-- The book read again, reported as unfinished without a position, and reported once
more by a device that is ten minutes behind. -/
def sampleReread : ReadingRun :=
  sampleReset.reported
    [sampleReport (some "tablet") (600 * second) (3 / 5),
      { sampleReport none (660 * second) 0 with progression := none, completed := some false },
      sampleReport (some "phone") 0 (1 / 5)]

/-- The reset is forgotten, the second report keeps the progression of the first, and
the late one is recorded without moving the head. -/
theorem head_is_replay_sample :
    ∃ head, sampleReread.state.head "book" = some head ∧
      sampleReread.state.events.map ReadingHeadEvent.applied = [true, true, true, true, false] ∧
      head.revision = 2 ∧ head.progression = 3 / 5 ∧ head.sourceDeviceId = none := by
  have again : provenanceSystem.Reachable sampleReset :=
    (sampleReports_reachable _).step (.clear (sampleHour 0) ["book"] .kobo none)
  have reread : provenanceSystem.Reachable sampleReread := reported_reachable again _
  have shown : (sampleReread.state.head "book").map (fun head => (head.progression,
      head.sourceDeviceId)) = some (3 / 5, none) := by decide +kernel
  obtain ⟨head, stored, read⟩ := Option.map_eq_some_iff.mp shown
  obtain ⟨progression, device⟩ := Prod.mk.inj read
  have replayed := (head_is_replay reread "book").2.2 head stored
  exact ⟨head, stored, by decide +kernel, replayed.2.1.trans (by decide +kernel), progression,
    device⟩

/-- The book read at the tenth minute and then, further on but earlier, at the first. -/
def sampleSkewed : ReadingRun :=
  sampleReports [sampleReport none (600 * second) (1 / 5), sampleReport none 0 (1 / 2)]

/-- The clock of a head can go back, so the next stale report is not seen as one. -/
theorem stale_report_lowers_head :
    provenanceSystem.Reachable sampleSkewed ∧
    sampleSkewed.state.accepts (sampleHour 0) samplePublication
      (sampleReport none 0 (3 / 10)) = true ∧
    (sampleSkewed.state.head "book").map ReadingHead.progression = some (1 / 2) ∧
    ((sampleSkewed.state.apply (sampleHour 0) samplePublication
      (sampleReport none 0 (3 / 10))).head "book").map ReadingHead.progression = some (3 / 10) ∧
    ∃ event ∈ sampleSkewed.current "book",
      staleToleranceSecs * second < event.sourceUpdatedAt - 0 :=
  ⟨sampleReports_reachable _, by decide +kernel, by decide +kernel, by decide +kernel,
    by decide +kernel⟩

/-- A report a minute late may still turn the book back. -/
theorem accepted_lowering_is_recent_sample :
    (sampleReports [sampleReport none (60 * second) (1 / 2)]).state.accepts (sampleHour 0)
      samplePublication (sampleReport none 0 (1 / 5)) = true ∧
    ∃ last, ((sampleReports [sampleReport none (60 * second) (1 / 2)]).current "book").getLast? =
      some last ∧ last.sourceUpdatedAt - 0 ≤ staleToleranceSecs * second := by
  have won : (sampleReports [sampleReport none (60 * second) (1 / 2)]).state.accepts (sampleHour 0)
      samplePublication (sampleReport none 0 (1 / 5)) = true := by decide +kernel
  exact ⟨won, (accepted_lowering_is_recent (sampleReports_reachable _) (sampleHour 0)
    samplePublication (sampleReport none 0 (1 / 5)) rfl won rfl (by decide +kernel)).1⟩

end Sample

end Coppice.Models
