import Coppice.Models.Readium
import Coppice.Std.Table

/-!
# The unified reading state

One canonical head per media row plus append-only provenance, as in
`domain/reading_state.rs` and `services/reading_state.rs`: `project` turns a
protocol update into head fields, `resolve` is the conflict rule, and `apply`
records every update and moves the head when the rule accepts it. The rows are
those of one user; event ids come from a sequence all users share.
-/

namespace Coppice.Models

open Coppice.Std

/-- The wire protocol that produced a reading-state update. -/
inductive SourceProtocol where
  | stump
  | komga
  | kobo
  | koreader
  | opds
  | liseur
  | kavita
  | abs
deriving DecidableEq, Repr

/-- The snake-case text of a protocol. -/
def SourceProtocol.text : SourceProtocol → String
  | stump => "stump"
  | komga => "komga"
  | kobo => "kobo"
  | koreader => "koreader"
  | opds => "opds"
  | liseur => "liseur"
  | kavita => "kavita"
  | abs => "abs"

/-- Whether the effective time of an update came from the device. -/
inductive TimestampKind where
  | device
  | server
deriving DecidableEq, Repr

/-- How an update locates the reader within the publication. -/
inductive Position where
  | page (page : Int)
  | locator (locator : ReadiumLocator)
  | time (positionMs : Int) (trackIndex : Option Int)
  | none
deriving DecidableEq, Repr

structure ProtocolUpdate where
  protocol : SourceProtocol
  deviceId : Option String
  updatedAt : Option Int
  position : Position
  progression : Option ℚ
  completed : Option Bool
  rawPayload : Json
deriving DecidableEq, Repr

/-- The publication context a projection needs. -/
structure Publication where
  mediaId : String
  pages : Int
  durationMs : Option Int
deriving DecidableEq, Repr

/-- The head fields an update asserts; `none` keeps the current value. -/
structure Projection where
  locator : Option ReadiumLocator := .none
  page : Option Int := .none
  positionMs : Option Int := .none
  trackIndex : Option Int := .none
  progression : Option ℚ := .none
  completed : Option Bool := .none
deriving DecidableEq, Repr

structure HeadState where
  updatedAt : Int
  progression : ℚ
  completed : Bool

inductive Outcome where
  | accepted
  | provenanceOnly
deriving DecidableEq, Repr

structure Resolved where
  outcome : Outcome
  progression : ℚ
  completed : Bool

/-- `f64::clamp(0.0, 1.0)`. -/
def clamp (value : ℚ) : ℚ := max 0 (min value 1)

def pageProgression (page pages : Int) : Option ℚ :=
  if 0 < pages then some (clamp (page / pages)) else .none

def timeProgression (positionMs durationMs : Int) : Option ℚ :=
  if 0 < durationMs then some (clamp (positionMs / durationMs)) else .none

/-- The locator synthesized for a page-based position. -/
def pageLocator (mediaId : String) (page pages : Int) : ReadiumLocator :=
  { chapterTitle := ""
    href := "/api/v2/media/" ++ mediaId ++ "/page/" ++ toString page
    title := some ("Page " ++ toString page)
    locations := some
      { fragments := .none
        progression := pageProgression page pages
        position := some page
        totalProgression := pageProgression page pages
        cssSelector := .none
        partialCfi := .none }
    text := .none
    koboSpan := .none
    type := "image/jpeg" }

/-- Every rational is finite, so `clamp_unit` always answers. -/
def clampUnit (value : ℚ) : Option ℚ := some (clamp value)

/-- The head fields of an update before completion is read. -/
def projectPosition (update : ProtocolUpdate) (publication : Publication) : Projection :=
  let asserted := update.progression.bind clampUnit
  match update.position with
  | .page page =>
    { locator := some (pageLocator publication.mediaId page publication.pages)
      page := some page
      progression := asserted.or (pageProgression page publication.pages)
      completed := update.completed }
  | .locator locator =>
    let position := locator.locations.bind (·.position)
    { locator := some locator
      page := position
      progression := asserted.or ((locator.locations.bind (·.totalProgression)).bind clampUnit)
        |>.or (position.bind (pageProgression · publication.pages))
      completed := update.completed }
  | .time positionMs trackIndex =>
    { positionMs := some positionMs
      trackIndex := trackIndex
      progression := asserted.or (publication.durationMs.bind (timeProgression positionMs))
      completed := update.completed }
  | .none => { progression := asserted, completed := update.completed }

/-- Project an update onto head fields. A bare completion lands on the end. -/
def project (update : ProtocolUpdate) (publication : Publication) : Projection :=
  let projection := projectPosition update publication
  if update.completed = some true ∧ projection.page = .none ∧ projection.positionMs = .none ∧
      projection.progression = .none then
    match publication.durationMs with
    | some duration =>
      if 0 < duration then
        { projection with positionMs := some duration, progression := some 1 }
      else
        { projection with
          page := if 0 < publication.pages then some publication.pages else .none
          progression := some 1 }
    | .none =>
      { projection with
        page := if 0 < publication.pages then some publication.pages else .none
        progression := some 1 }
  else projection

def staleToleranceSecs : Int := 60

/-- The conflict rule: the newest update wins unless it trails the head by more
than the tolerance and reports lower progression. -/
def resolve (head : Option HeadState) (projection : Projection) (incomingAt : Int) : Resolved :=
  match head with
  | .none =>
    let completed := projection.completed.getD false
    { outcome := .accepted
      progression := projection.progression.getD (if completed then 1 else 0)
      completed := completed }
  | some head =>
    let progression := projection.progression.getD head.progression
    if staleToleranceSecs * second < head.updatedAt - incomingAt ∧
        progression < head.progression then
      { outcome := .provenanceOnly, progression := head.progression, completed := head.completed }
    else
      { outcome := .accepted, progression := progression
        completed := projection.completed.getD head.completed }

/-- A row of `reading_heads`. -/
structure ReadingHead where
  mediaId : String
  locator : Option ReadiumLocator
  progression : ℚ
  page : Option Int
  positionMs : Option Int
  trackIndex : Option Int
  completed : Bool
  updatedAt : Int
  createdAt : Int
  changedAt : Int
  sourceProtocol : SourceProtocol
  sourceDeviceId : Option String
  revision : Int
  eventId : Nat
deriving DecidableEq, Repr

/-- A row of `reading_head_events`. -/
structure ReadingHeadEvent where
  id : Nat
  mediaId : String
  protocol : SourceProtocol
  deviceId : Option String
  rawPayload : Json
  locator : Option ReadiumLocator
  progression : Option ℚ
  page : Option Int
  positionMs : Option Int
  trackIndex : Option Int
  completed : Option Bool
  timestampKind : TimestampKind
  sourceUpdatedAt : Int
  receivedAt : Int
  applied : Bool
deriving DecidableEq, Repr

/-- The reading-state tables of one user, with the shared event sequence. -/
structure ReadingState where
  heads : List ReadingHead
  events : List ReadingHeadEvent
  eventSeq : Nat
deriving DecidableEq, Repr

namespace ReadingState

def empty : ReadingState := ⟨[], [], 0⟩

/-- The user's head for one media item. -/
def head (state : ReadingState) (mediaId : String) : Option ReadingHead :=
  lookup ReadingHead.mediaId state.heads mediaId

/-- The user's heads for a set of media items. -/
def headsFor (state : ReadingState) (mediaIds : List String) : List ReadingHead :=
  state.heads.filter fun head => head.mediaId ∈ mediaIds

/-- Write the head of a media row, replacing the one it has. -/
def putHead (state : ReadingState) (head : ReadingHead) : ReadingState :=
  { state with
    heads := match state.head head.mediaId with
      | some _ => updateAt ReadingHead.mediaId head.mediaId (fun _ => head) state.heads
      | none => state.heads ++ [head] }

/-- The provenance row of an update, under the next event id. -/
def eventOf (state : ReadingState) (now : Int) (publication : Publication)
    (update : ProtocolUpdate) (applied : Bool) : ReadingHeadEvent :=
  let projection := project update publication
  { id := state.eventSeq + 1
    mediaId := publication.mediaId
    protocol := update.protocol
    deviceId := update.deviceId
    rawPayload := update.rawPayload
    locator := projection.locator
    progression := projection.progression
    page := projection.page
    positionMs := projection.positionMs
    trackIndex := projection.trackIndex
    completed := projection.completed
    timestampKind := if update.updatedAt.isSome then .device else .server
    sourceUpdatedAt := update.updatedAt.getD now
    receivedAt := now
    applied := applied }

/-- The head an accepted update leaves, over the previous one. -/
def headOf (previous : Option ReadingHead) (now : Int) (publication : Publication)
    (update : ProtocolUpdate) (resolved : Resolved) (eventId : Nat) : ReadingHead :=
  let projection := project update publication
  { mediaId := publication.mediaId
    locator := projection.locator.or (previous.bind (·.locator))
    progression := resolved.progression
    page := projection.page.or (previous.bind (·.page))
    positionMs := projection.positionMs.or (previous.bind (·.positionMs))
    trackIndex := projection.trackIndex.or (previous.bind (·.trackIndex))
    completed := resolved.completed
    updatedAt := update.updatedAt.getD now
    createdAt := (previous.map (·.createdAt)).getD now
    changedAt := now
    sourceProtocol := update.protocol
    sourceDeviceId := update.deviceId
    revision := (previous.map (·.revision + 1)).getD 1
    eventId := eventId }

/-- How the conflict rule settles an update against the stored head. -/
def verdict (state : ReadingState) (now : Int) (publication : Publication)
    (update : ProtocolUpdate) : Resolved :=
  resolve ((state.head publication.mediaId).map fun head =>
      { updatedAt := head.updatedAt, progression := head.progression, completed := head.completed })
    (project update publication) (update.updatedAt.getD now)

/-- Apply a protocol update: record it as provenance whether or not it wins,
and move the head when it does. -/
def apply (state : ReadingState) (now : Int) (publication : Publication)
    (update : ProtocolUpdate) : ReadingState :=
  let resolved := state.verdict now publication update
  let event := state.eventOf now publication update (resolved.outcome = .accepted)
  let recorded := { state with events := state.events ++ [event], eventSeq := event.id }
  match resolved.outcome with
  | .provenanceOnly => recorded
  | .accepted =>
    recorded.putHead
      (headOf (state.head publication.mediaId) now publication update resolved event.id)

/-- The provenance row of an explicit reset, under the next event id. -/
def clearEvent (state : ReadingState) (now : Int) (protocol : SourceProtocol)
    (deviceId : Option String) (mediaId : String) : ReadingHeadEvent :=
  { id := state.eventSeq + 1
    mediaId := mediaId
    protocol := protocol
    deviceId := deviceId
    rawPayload := .obj [("cleared", .bool true)]
    locator := none
    progression := none
    page := none
    positionMs := none
    trackIndex := none
    completed := some false
    timestampKind := .server
    sourceUpdatedAt := now
    receivedAt := now
    applied := true }

/-- Record the reset of one head. -/
def recordClear (now : Int) (protocol : SourceProtocol) (deviceId : Option String)
    (state : ReadingState) (head : ReadingHead) : ReadingState :=
  { state with
    events := state.events ++ [state.clearEvent now protocol deviceId head.mediaId]
    eventSeq := state.eventSeq + 1 }

/-- An explicit reset: record one event per head the media rows have, delete those
heads, and say how many there were. -/
def clear [Host] (state : ReadingState) (now : Int) (mediaIds : List String)
    (protocol : SourceProtocol) (deviceId : Option String) : ReadingState × Nat :=
  let heads := Host.scan (state.headsFor mediaIds)
  if heads = [] then (state, 0)
  else
    let recorded := heads.foldl (recordClear now protocol deviceId) state
    let deleted := heads.map ReadingHead.mediaId
    ({ recorded with heads := recorded.heads.filter fun head => head.mediaId ∉ deleted },
      (recorded.heads.filter fun head => head.mediaId ∈ deleted).length)

section Spec

variable (state : ReadingState) (now : Int) (publication : Publication) (update : ProtocolUpdate)
  {row : ReadingHead}

theorem head_putHead (head : ReadingHead) (mediaId : String) :
    (state.putHead head).head mediaId =
      if mediaId = head.mediaId then some head else state.head mediaId := by
  unfold putHead
  cases found : state.head head.mediaId with
  | some old =>
    simp only [ReadingState.head] at found ⊢
    by_cases same : mediaId = head.mediaId
    · rw [same, lookup_updateAt_self fun _ _ => rfl, found]
      simp
    · rw [lookup_updateAt_of_ne (fun _ _ => rfl) same, if_neg same]
  | none =>
    simp only [ReadingState.head] at found ⊢
    rw [lookup_append]
    by_cases same : mediaId = head.mediaId
    · rw [same, found]
      simp [lookup]
    · have other : lookup ReadingHead.mediaId [head] mediaId = none :=
        lookup_eq_none.mpr (by simpa using Ne.symm same)
      simp [other, same]

theorem putHead_mediaIds (head : ReadingHead)
    (distinct : (state.heads.map ReadingHead.mediaId).Nodup) :
    ((state.putHead head).heads.map ReadingHead.mediaId).Nodup := by
  unfold putHead
  cases found : state.head head.mediaId with
  | some old =>
    rw [map_key_updateAt fun _ _ => rfl]
    exact distinct
  | none => exact nodup_added distinct found

/-- Whether the update moves the head. -/
def accepts : Bool := (state.verdict now publication update).outcome = .accepted

/-- The event an update is recorded as. -/
def recorded : ReadingHeadEvent :=
  state.eventOf now publication update (state.accepts now publication update)

theorem apply_events :
    (state.apply now publication update).events =
      state.events ++ [state.recorded now publication update] := by
  unfold apply recorded accepts
  simp only
  split
  · rename_i stale
    simp [stale]
  · rename_i won
    simp only [putHead, won]

theorem apply_eventSeq : (state.apply now publication update).eventSeq = state.eventSeq + 1 := by
  unfold apply
  simp only
  split
  · rfl
  · rfl

/-- An accepted update puts its own event on the head of its media; nothing else
about the heads changes. -/
theorem apply_head (mediaId : String) :
    (state.apply now publication update).head mediaId =
      if mediaId = publication.mediaId ∧ state.accepts now publication update = true then
        some (headOf (state.head publication.mediaId) now publication update
          (state.verdict now publication update) (state.eventSeq + 1))
      else state.head mediaId := by
  unfold apply accepts
  simp only
  split
  · rename_i stale
    simp [stale, ReadingState.head]
  rename_i won
  rw [head_putHead]
  simp only [won, decide_true, and_true]
  rfl

theorem apply_mediaIds (distinct : (state.heads.map ReadingHead.mediaId).Nodup) :
    ((state.apply now publication update).heads.map ReadingHead.mediaId).Nodup := by
  unfold apply
  simp only
  split
  · exact distinct
  · exact putHead_mediaIds _ _ distinct

/-- A head after an update is one from before or the one the update's event left. -/
theorem mem_heads_apply (member : row ∈ (state.apply now publication update).heads) :
    row ∈ state.heads ∨
      row = headOf (state.head publication.mediaId) now publication update
        (state.verdict now publication update) (state.eventSeq + 1) := by
  unfold apply at member
  simp only at member
  split at member
  · exact .inl member
  unfold putHead at member
  split at member
  · rcases mem_updateAt.mp member with ⟨stored, -⟩ | ⟨_, -, -, new⟩
    · exact .inl stored
    · exact .inr new.symm
  · exact mem_concat.mp member

/-- Every head carries the event that left it: no two share one, and the sequence
is past them all. -/
structure EventKeyed (state : ReadingState) : Prop where
  bound : ∀ head ∈ state.heads, head.eventId ≤ state.eventSeq
  distinct : ∀ left ∈ state.heads, ∀ right ∈ state.heads, left.eventId = right.eventId →
    left = right

/-- A head after an update is an old one, or carries the update's own event. -/
theorem EventKeyed.split {state} (keyed : EventKeyed state)
    (member : row ∈ (state.apply now publication update).heads) :
    row ∈ state.heads ∧ row.eventId ≤ state.eventSeq ∨
      row = headOf (state.head publication.mediaId) now publication update
        (state.verdict now publication update) (state.eventSeq + 1) ∧
      row.eventId = state.eventSeq + 1 := by
  rcases state.mem_heads_apply now publication update member with old | new
  · exact .inl ⟨old, keyed.bound row old⟩
  · exact .inr ⟨new, by rw [new]; rfl⟩

theorem EventKeyed.apply {state} (keyed : EventKeyed state) :
    EventKeyed (state.apply now publication update) := by
  have seq := state.apply_eventSeq now publication update
  refine ⟨?_, ?_⟩
  · intro head member
    rcases keyed.split now publication update member with ⟨-, bound⟩ | ⟨-, new⟩ <;> omega
  intro left leftMember right rightMember same
  rcases keyed.split now publication update leftMember with ⟨leftOld, leftBound⟩ | ⟨leftNew, leftId⟩
  · rcases keyed.split now publication update rightMember with ⟨rightOld, -⟩ | ⟨-, rightId⟩
    · exact keyed.distinct left leftOld right rightOld same
    · omega
  · rcases keyed.split now publication update rightMember with ⟨-, rightBound⟩ | ⟨rightNew, -⟩
    · omega
    · rw [leftNew, rightNew]

end Spec

end ReadingState
end Coppice.Models
