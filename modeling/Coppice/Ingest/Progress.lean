import Coppice.Std.Digits
import Coppice.Std.Machine
import Coppice.Std.Table

/-!
# The ingest progress feed

Progress events are rows of a table and messages of a broadcast channel. An emitter inserts its
row, stamps the cursor the row was given into the payload, prunes old rows and then broadcasts; a
subscriber takes a receiver, replays the stored rows and follows the channel. Each of these is a
step of its own, and any number of emitters take theirs in any order.
-/

namespace Coppice.Ingest

open Coppice.Std List

section Model

/-- A progress event; the phase, the counters and the message are carried along unread. -/
structure ProgressEvent where
  cursor : String
  libraryId : String
  dropItemId : String
  analysisJobId : Option String
deriving DecidableEq, Repr

/-- A row of `ingest_progress_events`. -/
structure EventRow where
  cursor : Nat
  payload : ProgressEvent
deriving DecidableEq, Repr

def formatCursor (cursor : Nat) : String := .ofList (pad 12 cursor)

/-- A cursor is a number that fits the column. -/
def parseCursor (cursor : String) : Option Nat := (parseU64 cursor).filter (· < 2 ^ 63)

structure ProgressFilters where
  libraryId : Option String
  dropItemId : Option String
  analysisJobId : Option String
deriving DecidableEq, Repr

def eventMatches (filters : ProgressFilters) (event : ProgressEvent) : Bool :=
  filters.libraryId.all (· == event.libraryId) && filters.dropItemId.all (· == event.dropItemId) &&
    filters.analysisJobId.all fun value => event.analysisJobId == some value

/-- How far an `emit` has come. -/
inductive EmitStage where
  | inserted | updated | pruned
deriving DecidableEq, Repr

/-- An `emit` between its insert and its broadcast. -/
structure Emission where
  cursor : Nat
  event : ProgressEvent
  stage : EmitStage
deriving DecidableEq, Repr

/-- The messages a receiver has not taken yet, and whether older ones were overwritten. -/
structure Receiver where
  queue : List ProgressEvent := []
  lagged : Bool := false
deriving DecidableEq, Repr

/-- What a stream yields. -/
inductive Delivery where
  | event (event : ProgressEvent)
  | cursorExpired (oldest : String)
deriving DecidableEq, Repr

/-- How far a subscription has come. -/
inductive Subscription where
  | idle
  | subscribed (receiver : Receiver)
  | checked (receiver : Receiver) (after : Option Nat)
  | live (receiver : Receiver) (lastCursor : Nat)
  | refused (oldest : String)
deriving DecidableEq, Repr

structure Hub where
  rows : List EventRow := []
  nextCursor : Nat := 1
  emissions : List Emission := []
  subscription : Subscription := .idle
  delivered : List Delivery := []
deriving DecidableEq, Repr

/-- What is fixed for a run: how many rows are kept, and what the subscriber asks for. -/
structure FeedSetting where
  retention : Nat
  after : Option String
  filters : ProgressFilters
deriving DecidableEq, Repr

variable (setting : FeedSetting)

/-- The slots of the channel: tokio rounds the capacity up to a power of two. -/
def FeedSetting.capacity : Nat := (max setting.retention 1).nextPowerOfTwo

/-- A message enters the channel; a receiver that is a whole channel behind loses its oldest. -/
def Receiver.push (capacity : Nat) (receiver : Receiver) (event : ProgressEvent) : Receiver :=
  if receiver.queue.length < capacity then { receiver with queue := receiver.queue ++ [event] }
  else ⟨receiver.queue.tail ++ [event], true⟩

def Subscription.send (capacity : Nat) (event : ProgressEvent) : Subscription → Subscription
  | .subscribed receiver => .subscribed (receiver.push capacity event)
  | .checked receiver after => .checked (receiver.push capacity event) after
  | .live receiver lastCursor => .live (receiver.push capacity event) lastCursor
  | subscription => subscription

/-- The row is inserted without a cursor in its payload and is given the next one. -/
def Hub.insert (event : ProgressEvent) (hub : Hub) : Option Hub :=
  if hub.nextCursor < 2 ^ 63 then
    some { hub with
      rows := hub.rows ++ [⟨hub.nextCursor, { event with cursor := "" }⟩]
      nextCursor := hub.nextCursor + 1
      emissions := hub.emissions ++
        [⟨hub.nextCursor, { event with cursor := formatCursor hub.nextCursor }, .inserted⟩] }
  else none

/-- The emission with a cursor, if it has come to a stage. -/
def Hub.emissionAt (cursor : Nat) (stage : EmitStage) (hub : Hub) : Option Emission :=
  (lookup Emission.cursor hub.emissions cursor).filter (·.stage = stage)

def Hub.advance (cursor : Nat) (stage : EmitStage) (hub : Hub) : Hub :=
  { hub with
    emissions := updateAt Emission.cursor cursor ({ · with stage := stage }) hub.emissions }

def Hub.finish (cursor : Nat) (hub : Hub) : Hub :=
  { hub with emissions := hub.emissions.filter (·.cursor ≠ cursor) }

/-- The stamped payload is written back. A row that is gone fails the update and ends the `emit`. -/
def Hub.update (cursor : Nat) (hub : Hub) : Option Hub :=
  (hub.emissionAt cursor .inserted).map fun emission =>
    if (lookup EventRow.cursor hub.rows cursor).isSome then
      Hub.advance cursor .updated { hub with
        rows := updateAt EventRow.cursor cursor ({ · with payload := emission.event }) hub.rows }
    else hub.finish cursor

/-- The rows that survive the pruning of an `emit`. -/
def pruneRows (retention cursor : Nat) (rows : List EventRow) : List EventRow :=
  if retention = 0 then []
  else if retention < cursor then rows.filter fun row => ¬row.cursor ≤ cursor - retention
  else rows

def Hub.prune (cursor : Nat) (hub : Hub) : Option Hub :=
  (hub.emissionAt cursor .updated).map fun _ =>
    Hub.advance cursor .pruned { hub with rows := pruneRows setting.retention cursor hub.rows }

def Hub.broadcast (cursor : Nat) (hub : Hub) : Option Hub :=
  (hub.emissionAt cursor .pruned).map fun emission =>
    Hub.finish cursor { hub with
      subscription := hub.subscription.send setting.capacity emission.event }

def Hub.subscribe (hub : Hub) : Option Hub :=
  match hub.subscription with
  | .idle => some { hub with subscription := .subscribed {} }
  | _ => none

/-- The first row in the order of the cursors. -/
def oldestCursor (rows : List EventRow) : Option String :=
  ((orderBy EventRow.cursor rows).head?).map fun row => formatCursor row.cursor

/-- The starting cursor is read and compared with the oldest row. -/
def Hub.check (hub : Hub) : Option Hub :=
  match hub.subscription with
  | .subscribed receiver =>
    let oldest := oldestCursor hub.rows
    match setting.after, setting.after.bind parseCursor with
    | some _, none =>
      some { hub with subscription := .refused (oldest.getD (formatCursor 1)) }
    | _, after =>
      match after, oldest with
      | some cursor, some first =>
        let first := (parseCursor first).getD 1
        if cursor + 1 < first then
          some { hub with subscription := .refused (formatCursor first) }
        else some { hub with subscription := .checked receiver after }
      | _, _ => some { hub with subscription := .checked receiver after }
  | _ => none

/-- The rows after a cursor, in the order of the cursors. -/
def replayRows (after : Option Nat) (rows : List EventRow) : List EventRow :=
  (orderBy EventRow.cursor rows).filter fun row => after.all (· < row.cursor)

def Hub.replay (hub : Hub) : Option Hub :=
  match hub.subscription with
  | .checked receiver after =>
    let rows := replayRows after hub.rows
    let events := rows.map fun row => { row.payload with cursor := formatCursor row.cursor }
    some { hub with
      subscription :=
        .live receiver (rows.foldl (fun last row => max last row.cursor) (after.getD 0))
      delivered := (events.filter (eventMatches setting.filters)).map .event }
  | _ => none

/-- One message is taken from the channel: it is yielded if it is new and matches. -/
def Hub.receive (hub : Hub) : Option Hub :=
  match hub.subscription with
  | .live ⟨queue, true⟩ lastCursor =>
    some { hub with
      subscription := .live ⟨queue, false⟩ lastCursor
      delivered := hub.delivered ++ [.cursorExpired (formatCursor (lastCursor + 1))] }
  | .live ⟨event :: queue, false⟩ lastCursor =>
    let cursor := (parseCursor event.cursor).getD 0
    if cursor ≤ lastCursor ∨ ¬eventMatches setting.filters event then
      some { hub with subscription := .live ⟨queue, false⟩ lastCursor }
    else
      some { hub with
        subscription := .live ⟨queue, false⟩ cursor
        delivered := hub.delivered ++ [.event event] }
  | _ => none

inductive FeedAction where
  | insert (event : ProgressEvent)
  | update (cursor : Nat)
  | prune (cursor : Nat)
  | broadcast (cursor : Nat)
  | subscribe
  | check
  | replay
  | receive
deriving DecidableEq, Repr

def feedMachine : Machine Hub FeedAction
  | .insert event => Hub.insert event
  | .update cursor => Hub.update cursor
  | .prune cursor => Hub.prune setting cursor
  | .broadcast cursor => Hub.broadcast setting cursor
  | .subscribe => Hub.subscribe
  | .check => Hub.check setting
  | .replay => Hub.replay setting
  | .receive => Hub.receive setting

end Model

section Statement

variable (setting : FeedSetting)

/-- The events a subscriber has received. -/
def Hub.received (hub : Hub) : List ProgressEvent :=
  hub.delivered.filterMap fun
    | .event event => some event
    | .cursorExpired _ => none

def cursorOf (event : ProgressEvent) : Nat := (parseCursor event.cursor).getD 0

/-- A row the subscriber asks for. -/
def FeedSetting.Wants (row : EventRow) : Prop :=
  eventMatches setting.filters row.payload = true ∧
    ((setting.after.bind parseCursor).getD 0) < row.cursor

/-- Nothing is under way, and the stream has reported neither expiry nor lag. -/
structure Hub.Quiet (hub : Hub) : Prop where
  emitted : hub.emissions = []
  drained : ∃ lastCursor, hub.subscription = .live {} lastCursor
  unbroken : ∀ oldest, .cursorExpired oldest ∉ hub.delivered

/-- Received in the order of the cursors. -/
def Hub.Increasing (hub : Hub) : Prop := (hub.received.map cursorOf).Pairwise (· < ·)

/-- Every wanted row that is still stored was received once. -/
def Hub.ExactlyOnce (hub : Hub) : Prop :=
  ∀ row ∈ hub.rows, setting.Wants row → (hub.received.map cursorOf).count row.cursor = 1

/-- A matching event is broadcast only when no matching event with a smaller cursor is still to be
broadcast. -/
def InOrder (action : FeedAction) (hub : Hub) : Prop :=
  ∀ cursor, action = .broadcast cursor → ∀ mine ∈ hub.emissions, mine.cursor = cursor →
    eventMatches setting.filters mine.event = true → ∀ other ∈ hub.emissions,
      eventMatches setting.filters other.event = true → cursor ≤ other.cursor

end Statement

variable {setting : FeedSetting} {hub next : Hub} {action : FeedAction} {lastCursor : Nat}

section Cursors

variable {cursor : Nat} {event : ProgressEvent}

theorem parseCursor_formatCursor (fits : cursor < 2 ^ 63) :
    parseCursor (formatCursor cursor) = some cursor := by
  have small : cursor < 2 ^ 64 := Nat.lt_trans fits (by decide)
  rw [parseCursor, formatCursor, parseU64_pad small]
  simpa using fits

theorem cursorOf_format (fits : cursor < 2 ^ 63) (stamped : event.cursor = formatCursor cursor) :
    cursorOf event = cursor := by
  rw [cursorOf, stamped, parseCursor_formatCursor fits]
  rfl

end Cursors

section Views

/-- What the feed's invariants read of the rows: the cursor, and whether the row matches. -/
def Hub.rowKeys (setting : FeedSetting) (hub : Hub) : List (Nat × Bool) :=
  hub.rows.map fun row => (row.cursor, eventMatches setting.filters row.payload)

/-- What they read of the emissions. -/
def Hub.pending (hub : Hub) : List (Nat × ProgressEvent) :=
  hub.emissions.map fun emission => (emission.cursor, emission.event)

def Subscription.receiver : Subscription → Receiver
  | .subscribed receiver | .checked receiver _ | .live receiver _ => receiver
  | .idle | .refused _ => {}

/-- The cursors of the matching messages in the channel. -/
def Hub.queued (setting : FeedSetting) (hub : Hub) : List Nat :=
  (hub.subscription.receiver.queue.filter (eventMatches setting.filters)).map cursorOf

def FeedSetting.start (setting : FeedSetting) : Nat := (setting.after.bind parseCursor).getD 0

theorem mem_rowKeys {wanted : Bool} :
    (cursor, wanted) ∈ hub.rowKeys setting ↔
      ∃ row ∈ hub.rows, row.cursor = cursor ∧
        eventMatches setting.filters row.payload = wanted := by
  simp [Hub.rowKeys, mem_map]

theorem map_fst_rowKeys (setting : FeedSetting) (hub : Hub) :
    (hub.rowKeys setting).map Prod.fst = hub.rows.map (·.cursor) := by
  rw [Hub.rowKeys, map_map]
  rfl

theorem map_fst_pending (hub : Hub) : hub.pending.map Prod.fst = hub.emissions.map (·.cursor) := by
  rw [Hub.pending, map_map]
  rfl

/-- A step of an emitter that neither adds an event nor broadcasts one: rows and emissions may go,
but no emission whose row stays. -/
structure Housekeeping (setting : FeedSetting) (hub next : Hub) : Prop where
  rows : (next.rowKeys setting).Sublist (hub.rowKeys setting)
  pending : next.pending.Sublist hub.pending
  kept : ∀ emission ∈ hub.pending, emission.1 ∈ (next.rowKeys setting).map Prod.fst →
    emission ∈ next.pending
  nextCursor : next.nextCursor = hub.nextCursor
  subscription : next.subscription = hub.subscription
  delivered : next.delivered = hub.delivered

theorem emissionAt_some {stage : EmitStage} {emission : Emission}
    (found : hub.emissionAt cursor stage = some emission) :
    (cursor, emission.event) ∈ hub.pending := by
  obtain ⟨found, -⟩ := Option.filter_eq_some_iff.1 found
  refine mem_map.2 ⟨emission, lookup_mem found, ?_⟩
  rw [lookup_key found]

theorem pending_advance (hub : Hub) (cursor : Nat) (stage : EmitStage) :
    (hub.advance cursor stage).pending = hub.pending := by
  simp only [Hub.pending, Hub.advance, updateAt, map_map]
  refine map_congr_left fun emission _ => ?_
  simp only [Function.comp_apply]
  split <;> rfl

theorem pending_finish (hub : Hub) (cursor : Nat) :
    (hub.finish cursor).pending = hub.pending.filter (·.1 ≠ cursor) := by
  simp only [Hub.pending, Hub.finish, filter_map]
  rfl

/-- A matching row and its emission agree on whether they match. -/
def Agrees (setting : FeedSetting) (hub : Hub) : Prop :=
  ∀ key ∈ hub.rowKeys setting, ∀ emission ∈ hub.pending, emission.1 = key.1 →
    eventMatches setting.filters emission.2 = key.2

theorem housekeeping_update (agrees : Agrees setting hub)
    (performed : hub.update cursor = some next) : Housekeeping setting hub next := by
  obtain ⟨emission, found, rfl⟩ := Option.map_eq_some_iff.1 performed
  have member := emissionAt_some found
  split
  · have rows : (updateAt EventRow.cursor cursor ({ · with payload := emission.event })
        hub.rows).map (fun row => (row.cursor, eventMatches setting.filters row.payload)) =
          hub.rowKeys setting := by
      rw [Hub.rowKeys, updateAt, map_map]
      refine map_congr_left fun row stored => ?_
      simp only [Function.comp_apply]
      split
      · rename_i same
        have key := agrees _ (mem_map_of_mem stored) _ member same.symm
        exact congrArg (Prod.mk row.cursor) key
      · rfl
    refine ⟨?_, ?_, ?_, rfl, rfl, rfl⟩
    · exact (rows ▸ List.Sublist.refl _)
    · rw [pending_advance]
      exact List.Sublist.refl _
    · intro other listed _
      rw [pending_advance]
      exact listed
  · rename_i absent
    refine ⟨List.Sublist.refl _, ?_, ?_, rfl, rfl, rfl⟩
    · rw [pending_finish]
      exact filter_sublist
    intro other listed stored
    rw [pending_finish]
    refine mem_filter.2 ⟨listed, decide_eq_true fun same => absent ?_⟩
    obtain ⟨row, there, place⟩ := mem_map.1 (map_fst_rowKeys setting hub ▸ stored)
    exact lookup_isSome.2 ⟨row, there, place.trans same⟩

theorem housekeeping_prune (performed : hub.prune setting cursor = some next) :
    Housekeeping setting hub next := by
  obtain ⟨emission, -, rfl⟩ := Option.map_eq_some_iff.1 performed
  refine ⟨List.Sublist.map _ ?_, ?_, ?_, rfl, rfl, rfl⟩
  · unfold pruneRows
    split
    · exact nil_sublist _
    · split
      · exact filter_sublist
      · exact List.Sublist.refl _
  · rw [pending_advance]
    exact List.Sublist.refl _
  · intro other listed _
    rw [pending_advance]
    exact listed

end Views

section Soundness

/-- What every step of every run keeps. -/
structure Hub.Sound (setting : FeedSetting) (hub : Hub) : Prop where
  fits : hub.nextCursor ≤ 2 ^ 63
  rowsBelow : ∀ key ∈ hub.rowKeys setting, key.1 < hub.nextCursor
  rowsDistinct : ((hub.rowKeys setting).map Prod.fst).Nodup
  pendingBelow : ∀ emission ∈ hub.pending, emission.1 < hub.nextCursor ∧
    emission.2.cursor = formatCursor emission.1
  pendingDistinct : (hub.pending.map Prod.fst).Nodup
  agrees : Agrees setting hub
  queue : ∀ event ∈ hub.subscription.receiver.queue, ∃ cursor < hub.nextCursor,
    event.cursor = formatCursor cursor
  after : ∀ receiver after, hub.subscription = .checked receiver after →
    after = setting.after.bind parseCursor
  undelivered : (∀ receiver lastCursor, hub.subscription ≠ .live receiver lastCursor) →
    hub.delivered = []
  last : ∀ receiver lastCursor, hub.subscription = .live receiver lastCursor →
    (lastCursor ≤ setting.start ∨ lastCursor < hub.nextCursor) ∧
      hub.Increasing ∧ ∀ cursor ∈ hub.received.map cursorOf, cursor ≤ lastCursor

variable {emission : Nat × ProgressEvent} {after : Option Nat} {capacity : Nat}

theorem pending_insert (setting : FeedSetting)
    (performed : hub.insert event = some next) :
    hub.nextCursor < 2 ^ 63 ∧ next.nextCursor = hub.nextCursor + 1 ∧
      next.rowKeys setting = hub.rowKeys setting ++
        [(hub.nextCursor, eventMatches setting.filters event)] ∧
      next.pending = hub.pending ++
        [(hub.nextCursor, { event with cursor := formatCursor hub.nextCursor })] ∧
      next.subscription = hub.subscription ∧ next.delivered = hub.delivered := by
  unfold Hub.insert at performed
  split at performed
  · rename_i fits
    cases performed
    refine ⟨fits, rfl, ?_, ?_, rfl, rfl⟩
    · simp only [Hub.rowKeys, map_append]
      rfl
    · simp only [Hub.pending, map_append]
      rfl
  · cases performed

theorem mem_queue_push {receiver : Receiver} {other : ProgressEvent}
    (member : other ∈ (receiver.push capacity event).queue) :
    other ∈ receiver.queue ∨ other = event := by
  unfold Receiver.push at member
  split at member
  · simpa using member
  · exact (mem_concat.1 member).imp_left mem_of_mem_tail

/-- What a broadcast leaves as it is, and what it adds to the channel. -/
structure Broadcast (setting : FeedSetting) (hub next : Hub)
    (emission : Nat × ProgressEvent) : Prop where
  listed : emission ∈ hub.pending
  pending : next.pending = hub.pending.filter (·.1 ≠ emission.1)
  rows : next.rows = hub.rows
  nextCursor : next.nextCursor = hub.nextCursor
  delivered : next.delivered = hub.delivered
  subscription : next.subscription = hub.subscription.send setting.capacity emission.2

theorem broadcast_ok (performed : hub.broadcast setting cursor = some next) :
    ∃ event, Broadcast setting hub next (cursor, event) := by
  obtain ⟨emission, found, rfl⟩ := Option.map_eq_some_iff.1 performed
  exact ⟨emission.event, emissionAt_some found, pending_finish _ _, rfl, rfl, rfl, rfl⟩

theorem receiver_send (capacity : Nat) (event : ProgressEvent) (subscription : Subscription) :
    (subscription.send capacity event).receiver = subscription.receiver.push capacity event ∨
      (subscription.send capacity event).receiver = {} := by
  cases subscription with
  | idle | refused => exact .inr rfl
  | subscribed | checked | live => exact .inl rfl

theorem send_live {subscription : Subscription} {receiver : Receiver}
    (live : subscription.send capacity event = .live receiver lastCursor) :
    ∃ before, subscription = .live before lastCursor ∧ receiver = before.push capacity event := by
  cases subscription with
  | idle | refused | subscribed | checked => cases live
  | live before last =>
    cases live
    exact ⟨before, rfl, rfl⟩

/-- A step of the subscriber leaves the table and the emitters alone. -/
structure SubscriberStep (hub next : Hub) : Prop where
  rows : next.rows = hub.rows
  emissions : next.emissions = hub.emissions
  nextCursor : next.nextCursor = hub.nextCursor

/-- The check refuses the subscription or keeps the starting cursor. -/
theorem check_ok (performed : hub.check setting = some next) :
    ∃ receiver, hub.subscription = .subscribed receiver ∧
      ((∃ oldest, next = { hub with subscription := .refused oldest }) ∨
        next = { hub with
          subscription := .checked receiver (setting.after.bind parseCursor) }) := by
  unfold Hub.check at performed
  split at performed
  · rename_i receiver subscribed
    refine ⟨receiver, subscribed, ?_⟩
    dsimp only at performed
    split at performed
    · exact .inl ⟨_, (Option.some.inj performed).symm⟩
    split at performed
    · split at performed
      · exact .inl ⟨_, (Option.some.inj performed).symm⟩
      · exact .inr (Option.some.inj performed).symm
    · exact .inr (Option.some.inj performed).symm
  · cases performed

theorem foldl_max_spec (rows : List EventRow) (start : Nat) :
    start ≤ rows.foldl (fun last row => max last row.cursor) start ∧
      (∀ row ∈ rows, row.cursor ≤ rows.foldl (fun last row => max last row.cursor) start) ∧
        (rows.foldl (fun last row => max last row.cursor) start = start ∨
          ∃ row ∈ rows, rows.foldl (fun last row => max last row.cursor) start = row.cursor) := by
  induction rows generalizing start with
  | nil => simp
  | cons first rest ih =>
    obtain ⟨above, each, origin⟩ := ih (max start first.cursor)
    rw [foldl_cons]
    refine ⟨by omega, forall_mem_cons.2 ⟨by omega, each⟩, ?_⟩
    rcases origin with same | ⟨row, member, same⟩
    · rw [same]
      rcases Nat.le_total start first.cursor with less | more
      · exact .inr ⟨first, mem_cons_self, Nat.max_eq_right less⟩
      · exact .inl (Nat.max_eq_left more)
    · exact .inr ⟨row, mem_cons_of_mem _ member, same⟩

theorem mem_replayRows {rows : List EventRow} {row : EventRow} :
    row ∈ replayRows after rows ↔ row ∈ rows ∧ after.all (· < row.cursor) = true := by
  rw [replayRows, mem_filter, (orderBy_perm EventRow.cursor rows).mem_iff]

/-- The three things taking a message can do: report a lag, skip the message, or yield it. -/
inductive Receives (setting : FeedSetting) (hub : Hub) : Hub → Prop where
  | lagged {queue : List ProgressEvent} {lastCursor : Nat} {oldest : String}
      (live : hub.subscription = .live ⟨queue, true⟩ lastCursor) :
      Receives setting hub { hub with
        subscription := .live ⟨queue, false⟩ lastCursor
        delivered := hub.delivered ++ [.cursorExpired oldest] }
  | skipped {event : ProgressEvent} {queue : List ProgressEvent} {lastCursor : Nat}
      (live : hub.subscription = .live ⟨event :: queue, false⟩ lastCursor)
      (unwanted : eventMatches setting.filters event = true → cursorOf event ≤ lastCursor) :
      Receives setting hub { hub with subscription := .live ⟨queue, false⟩ lastCursor }
  | yielded {event : ProgressEvent} {queue : List ProgressEvent} {lastCursor : Nat}
      (live : hub.subscription = .live ⟨event :: queue, false⟩ lastCursor)
      (matching : eventMatches setting.filters event = true) (newer : lastCursor < cursorOf event) :
      Receives setting hub { hub with
        subscription := .live ⟨queue, false⟩ (cursorOf event)
        delivered := hub.delivered ++ [.event event] }

theorem receive_ok (performed : hub.receive setting = some next) : Receives setting hub next := by
  unfold Hub.receive at performed
  split at performed
  · rename_i queue lastCursor live
    cases performed
    exact .lagged live
  · rename_i event queue lastCursor live
    dsimp only at performed
    split at performed
    · rename_i unwanted
      cases performed
      refine .skipped live fun matching => ?_
      rcases unwanted with old | differs
      · exact old
      · exact absurd matching differs
    · rename_i wanted
      cases performed
      obtain ⟨newer, matching⟩ := not_or.1 wanted
      exact .yielded live (not_not.1 matching) (Nat.lt_of_not_le newer)
  · cases performed

theorem received_append_event (hub : Hub) (event : ProgressEvent) (subscription : Subscription) :
    ({ hub with subscription, delivered := hub.delivered ++ [.event event] } : Hub).received =
      hub.received ++ [event] := by
  simp [Hub.received, filterMap_append]

theorem received_append_expired (hub : Hub) (oldest : String) (subscription : Subscription) :
    ({ hub with
        subscription
        delivered := hub.delivered ++ [.cursorExpired oldest] } : Hub).received = hub.received := by
  simp [Hub.received, filterMap_append]

theorem Hub.Sound.initial : ({} : Hub).Sound setting where
  fits := by decide
  rowsBelow := by simp [Hub.rowKeys]
  rowsDistinct := by simp [Hub.rowKeys]
  pendingBelow := by simp [Hub.pending]
  pendingDistinct := by simp [Hub.pending]
  agrees := by simp [Agrees, Hub.rowKeys]
  queue := by simp [Subscription.receiver]
  after := by simp
  undelivered := fun _ => rfl
  last := by simp

section Keeping

variable (sound : hub.Sound setting)
include sound

theorem Hub.Sound.cursorOf_pending
    (member : emission ∈ hub.pending) : cursorOf emission.2 = emission.1 := by
  obtain ⟨below, stamped⟩ := sound.pendingBelow emission member
  exact cursorOf_format (Nat.lt_of_lt_of_le below sound.fits) stamped

/-- A step that adds neither a row nor an emission has to keep the part about the subscriber. -/
theorem Hub.Sound.subscriber
    (queue : ∀ event ∈ next.subscription.receiver.queue, ∃ cursor < hub.nextCursor,
      event.cursor = formatCursor cursor)
    (after : ∀ receiver after, next.subscription = .checked receiver after →
      after = setting.after.bind parseCursor)
    (undelivered : (∀ receiver lastCursor, next.subscription ≠ .live receiver lastCursor) →
      next.delivered = [])
    (last : ∀ receiver lastCursor, next.subscription = .live receiver lastCursor →
      (lastCursor ≤ setting.start ∨ lastCursor < hub.nextCursor) ∧
        next.Increasing ∧ ∀ cursor ∈ next.received.map cursorOf, cursor ≤ lastCursor)
    (rows : (next.rowKeys setting).Sublist (hub.rowKeys setting) := by exact .refl _)
    (pending : next.pending.Sublist hub.pending := by exact .refl _)
    (nextCursor : next.nextCursor = hub.nextCursor := by rfl) :
    next.Sound setting where
  fits := nextCursor ▸ sound.fits
  rowsBelow key member := nextCursor ▸ sound.rowsBelow key (rows.subset member)
  rowsDistinct := sound.rowsDistinct.sublist (rows.map _)
  pendingBelow emission member := nextCursor ▸ sound.pendingBelow emission (pending.subset member)
  pendingDistinct := sound.pendingDistinct.sublist (pending.map _)
  agrees key row emission member := sound.agrees key (rows.subset row) emission
    (pending.subset member)
  queue := nextCursor ▸ queue
  after := after
  undelivered := undelivered
  last := nextCursor ▸ last

theorem Hub.Sound.housekeeping (kept : Housekeeping setting hub next) : next.Sound setting := by
  refine sound.subscriber ?_ ?_ ?_ ?_ kept.rows kept.pending kept.nextCursor
  · rw [kept.subscription]
    exact sound.queue
  · rw [kept.subscription]
    exact sound.after
  · rw [kept.subscription, kept.delivered]
    exact sound.undelivered
  · simp only [kept.subscription, Hub.Increasing, Hub.received, kept.delivered]
    exact sound.last

theorem Hub.Sound.insert (performed : hub.insert event = some next) : next.Sound setting := by
  obtain ⟨fits, nextCursor, rows, pending, subscription, delivered⟩ :=
    pending_insert setting performed
  have grows : ∀ {cursor : Nat}, cursor < hub.nextCursor → cursor < next.nextCursor := by
    omega
  constructor
  · omega
  · rw [rows]
    exact forall_mem_concat (fun key old => grows (sound.rowsBelow key old)) (by omega)
  · rw [rows]
    exact nodup_concat sound.rowsDistinct fun key member => (sound.rowsBelow key member).ne
  · rw [pending]
    refine forall_mem_concat (fun emission old => ?_) ⟨by omega, rfl⟩
    exact (sound.pendingBelow emission old).imp_left grows
  · rw [pending]
    exact nodup_concat sound.pendingDistinct fun emission member =>
      (sound.pendingBelow emission member).1.ne
  · intro key member emission listed same
    rw [rows] at member
    rw [pending] at listed
    rcases mem_concat.1 member with oldRow | rfl <;> rcases mem_concat.1 listed with old | rfl
    · exact sound.agrees key oldRow emission old same
    · exact absurd same.symm (Nat.ne_of_lt (sound.rowsBelow key oldRow))
    · exact absurd same (Nat.ne_of_lt (sound.pendingBelow emission old).1)
    · rfl
  · rw [subscription]
    intro event member
    obtain ⟨cursor, below, stamped⟩ := sound.queue event member
    exact ⟨cursor, grows below, stamped⟩
  · rw [subscription]
    exact sound.after
  · rw [subscription, delivered]
    exact sound.undelivered
  intro receiver lastCursor live
  rw [subscription] at live
  obtain ⟨bound, increasing, below⟩ := sound.last receiver lastCursor live
  simp only [Hub.Increasing, Hub.received, delivered] at increasing below ⊢
  exact ⟨bound.imp id grows, increasing, below⟩

theorem Hub.Sound.broadcast (sent : Broadcast setting hub next emission) : next.Sound setting := by
  have rows : next.rowKeys setting = hub.rowKeys setting := by
    rw [Hub.rowKeys, sent.rows, Hub.rowKeys]
  refine sound.subscriber ?_ ?_ ?_ ?_ (rows ▸ .refl _) (sent.pending ▸ filter_sublist)
    sent.nextCursor
  · intro event member
    rw [sent.subscription] at member
    rcases receiver_send setting.capacity emission.2 hub.subscription with pushed | none
    · rw [pushed] at member
      rcases mem_queue_push member with old | rfl
      · exact sound.queue event old
      · exact ⟨emission.1, sound.pendingBelow emission sent.listed⟩
    · rw [none] at member
      cases member
  · intro receiver after checked
    rw [sent.subscription] at checked
    cases was : hub.subscription with
    | idle | refused | subscribed | live => rw [was] at checked; cases checked
    | checked receiver after =>
      rw [was] at checked
      cases checked
      exact sound.after _ _ was
  · intro unlive
    rw [sent.delivered]
    refine sound.undelivered fun receiver lastCursor live => ?_
    refine unlive (receiver.push setting.capacity emission.2) lastCursor ?_
    rw [sent.subscription, live]
    rfl
  · intro receiver lastCursor live
    obtain ⟨before, was, -⟩ := send_live (sent.subscription ▸ live)
    have := sound.last _ _ was
    simp only [Hub.Increasing, Hub.received, sent.delivered] at this ⊢
    exact this

theorem Hub.Sound.subscribe (performed : hub.subscribe = some next) : next.Sound setting := by
  unfold Hub.subscribe at performed
  split at performed
  · rename_i idle
    cases performed
    refine sound.subscriber (by simp [Subscription.receiver]) (by simp) ?_ (by simp)
    intro _
    exact sound.undelivered fun _ _ live => by rw [idle] at live; cases live
  · cases performed

theorem Hub.Sound.check (performed : hub.check setting = some next) : next.Sound setting := by
  obtain ⟨receiver, subscribed, outcome⟩ := check_ok performed
  have undelivered : hub.delivered = [] :=
    sound.undelivered fun _ _ live => by rw [subscribed] at live; cases live
  have queue := sound.queue
  rw [subscribed] at queue
  rcases outcome with ⟨oldest, rfl⟩ | rfl
  · exact sound.subscriber (by simp [Subscription.receiver]) (by simp)
      (fun _ => undelivered) (by simp)
  refine sound.subscriber queue ?_ (fun _ => undelivered) (by simp)
  intro receiver after same
  cases same
  rfl

/-- The cursors of a replay, in order. -/
theorem replay_cursors :
    (((replayRows after hub.rows).map fun row =>
        { row.payload with cursor := formatCursor row.cursor }).filter
          (eventMatches setting.filters)).map cursorOf =
      ((replayRows after hub.rows).filter fun row =>
        eventMatches setting.filters row.payload).map (·.cursor) := by
  rw [filter_map, map_map]
  refine map_congr_left fun row member => ?_
  have stored : row ∈ hub.rows := (mem_replayRows.1 (mem_filter.1 member).1).1
  have below := sound.rowsBelow _ (mem_rowKeys.2 ⟨row, stored, rfl, rfl⟩)
  exact cursorOf_format (Nat.lt_of_lt_of_le below sound.fits) rfl

theorem replay_increasing (after : Option Nat) (kept : EventRow → Bool) :
    (((replayRows after hub.rows).filter kept).map (·.cursor)).Pairwise (· < ·) := by
  have strict := orderBy_strict EventRow.cursor (map_fst_rowKeys setting hub ▸ sound.rowsDistinct)
  exact pairwise_map.2 (strict.sublist (filter_sublist.trans filter_sublist))

/-- What the replay delivers and where the live stream begins. -/
theorem replay_ok (performed : hub.replay setting = some next) :
    ∃ receiver lastCursor, hub.subscription.receiver = receiver ∧
      next = { hub with subscription := .live receiver lastCursor, delivered := next.delivered } ∧
      (∀ oldest, .cursorExpired oldest ∉ next.delivered) ∧
      next.received.map cursorOf = ((replayRows (setting.after.bind parseCursor) hub.rows).filter
        fun row => eventMatches setting.filters row.payload).map (·.cursor) ∧
      lastCursor = (replayRows (setting.after.bind parseCursor) hub.rows).foldl
        (fun last row => max last row.cursor) setting.start := by
  unfold Hub.replay at performed
  split at performed
  · rename_i receiver after checked
    cases sound.after receiver after checked
    cases performed
    refine ⟨receiver, _, by rw [checked]; rfl, rfl, by simp, ?_, rfl⟩
    rw [Hub.received, filterMap_map]
    exact filterMap_some ▸ replay_cursors sound
  · cases performed

theorem Hub.Sound.replay (performed : hub.replay setting = some next) : next.Sound setting := by
  obtain ⟨receiver, lastCursor, same, shape, -, received, last⟩ := replay_ok sound performed
  rw [shape] at received ⊢
  refine sound.subscriber (same ▸ sound.queue) (by simp) ?_ ?_
  · intro unlive
    exact absurd rfl (unlive receiver lastCursor)
  intro _ _ live
  cases live
  have spec := foldl_max_spec (replayRows (setting.after.bind parseCursor) hub.rows) setting.start
  rw [← last] at spec
  refine ⟨?_, ?_, ?_⟩
  · rcases spec.2.2 with start | ⟨row, member, place⟩
    · exact .inl (Nat.le_of_eq start)
    · have stored : row ∈ hub.rows := (mem_replayRows.1 member).1
      exact .inr (place ▸ sound.rowsBelow _ (mem_rowKeys.2 ⟨row, stored, rfl, rfl⟩))
  · rw [Hub.Increasing, received]
    exact replay_increasing sound _ _
  · rw [received]
    rintro cursor member
    obtain ⟨row, listed, rfl⟩ := mem_map.1 member
    exact spec.2.1 row (mem_filter.1 listed).1

theorem Hub.Sound.receive (performed : hub.receive setting = some next) : next.Sound setting := by
  have queue := sound.queue
  cases receive_ok performed with
  | lagged live =>
    rw [live] at queue
    refine sound.subscriber queue (by simp) (by simp) ?_
    intro _ _ now
    cases now
    obtain ⟨bound, increasing, below⟩ := sound.last _ _ live
    rw [Hub.Increasing, received_append_expired]
    exact ⟨bound, increasing, below⟩
  | skipped live unwanted =>
    rw [live] at queue
    refine sound.subscriber (forall_mem_cons.1 queue).2 (by simp) (by simp) ?_
    intro _ _ now
    cases now
    exact sound.last _ _ live
  | @yielded event rest lastCursor live matching newer =>
    rw [live] at queue
    refine sound.subscriber (forall_mem_cons.1 queue).2 (by simp) (by simp) ?_
    intro _ _ now
    cases now
    obtain ⟨cursor, below, stamped⟩ := queue event mem_cons_self
    have place : cursorOf event = cursor :=
      cursorOf_format (Nat.lt_of_lt_of_le below sound.fits) stamped
    obtain ⟨-, increasing, smaller⟩ := sound.last _ _ live
    rw [Hub.Increasing, received_append_event, map_append]
    refine ⟨.inr (place ▸ below), pairwise_append.2 ⟨increasing, pairwise_singleton _ _, ?_⟩, ?_⟩
    · intro old member new single
      rw [mem_singleton.1 single]
      exact Nat.lt_of_le_of_lt (smaller old member) newer
    · exact forall_mem_concat (fun other old => (smaller other old).trans newer.le) le_rfl

theorem Hub.Sound.step
    (performed : feedMachine setting action hub = some next) : next.Sound setting := by
  cases action with
  | insert event => exact sound.insert performed
  | update cursor => exact sound.housekeeping (housekeeping_update sound.agrees performed)
  | prune cursor => exact sound.housekeeping (housekeeping_prune performed)
  | broadcast cursor =>
    obtain ⟨event, sent⟩ := broadcast_ok performed
    exact sound.broadcast sent
  | subscribe => exact sound.subscribe performed
  | check => exact sound.check performed
  | replay => exact sound.replay performed
  | receive => exact sound.receive performed

end Keeping

end Soundness

section Delivery

/-- What runs keep whose matching events are broadcast in order. -/
structure Hub.Ordered (setting : FeedSetting) (hub : Hub) : Prop where
  queued : (hub.queued setting).Pairwise (· < ·)
  ahead : ∀ emission ∈ hub.pending, eventMatches setting.filters emission.2 = true →
    ∀ cursor ∈ hub.queued setting, cursor < emission.1
  covered : ∀ receiver lastCursor, hub.subscription = .live receiver lastCursor →
    receiver.lagged = false → (∀ oldest, .cursorExpired oldest ∉ hub.delivered) →
      ∀ cursor, (cursor, true) ∈ hub.rowKeys setting → setting.start < cursor →
        cursor ∈ hub.received.map cursorOf ∨ lastCursor < cursor ∧
          (cursor ∈ hub.queued setting ∨ cursor ∈ hub.pending.map Prod.fst)

theorem Hub.Ordered.initial : ({} : Hub).Ordered setting where
  queued := by simp [Hub.queued, Subscription.receiver]
  ahead := by simp [Hub.pending]
  covered := by simp

theorem Hub.Ordered.housekeeping (ordered : hub.Ordered setting)
    (kept : Housekeeping setting hub next) : next.Ordered setting := by
  have queued : next.queued setting = hub.queued setting := by
    rw [Hub.queued, kept.subscription, Hub.queued]
  constructor
  · rw [queued]
    exact ordered.queued
  · rw [queued]
    exact fun emission member => ordered.ahead emission (kept.pending.subset member)
  intro receiver lastCursor live unlagged unbroken cursor row after
  rw [kept.subscription] at live
  rw [kept.delivered] at unbroken
  rw [queued, Hub.received, kept.delivered]
  refine (ordered.covered receiver lastCursor live unlagged unbroken cursor (kept.rows.subset row)
    after).imp id (And.imp_right (Or.imp_right fun listed => ?_))
  obtain ⟨emission, member, rfl⟩ := mem_map.1 listed
  exact mem_map_of_mem (kept.kept emission member (mem_map_of_mem row))

theorem Hub.Ordered.insert (sound : hub.Sound setting)
    (ordered : hub.Ordered setting) (performed : hub.insert event = some next) :
    next.Ordered setting := by
  obtain ⟨-, -, rows, pending, subscription, delivered⟩ := pending_insert setting performed
  have queued : next.queued setting = hub.queued setting := by
    rw [Hub.queued, subscription, Hub.queued]
  have queuedBelow : ∀ cursor ∈ hub.queued setting, cursor < hub.nextCursor := by
    intro cursor member
    obtain ⟨event, listed, rfl⟩ := mem_map.1 member
    obtain ⟨place, below, stamped⟩ := sound.queue event (mem_filter.1 listed).1
    rwa [cursorOf_format (Nat.lt_of_lt_of_le below sound.fits) stamped]
  constructor
  · rw [queued]
    exact ordered.queued
  · rw [queued, pending]
    exact forall_mem_concat ordered.ahead fun _ => queuedBelow
  intro receiver lastCursor live unlagged unbroken cursor row after
  rw [subscription] at live
  rw [delivered] at unbroken
  rw [rows] at row
  rw [queued, Hub.received, delivered, pending, map_append]
  rcases mem_concat.1 row with old | new
  · exact (ordered.covered receiver lastCursor live unlagged unbroken cursor old after).imp id
      (And.imp_right (Or.imp_right fun listed => mem_append_left _ listed))
  obtain ⟨rfl, -⟩ := Prod.mk.inj new
  refine .inr ⟨?_, .inr (mem_append_right _ mem_cons_self)⟩
  rcases (sound.last receiver lastCursor live).1 with early | below
  · exact Nat.lt_of_le_of_lt early after
  · exact below

/-- The matching messages after a message: it comes last, and without a lag nothing is lost. -/
theorem queued_push (capacity : Nat) (receiver : Receiver) (event : ProgressEvent) :
    ∃ kept, kept.Sublist receiver.queue ∧ (receiver.push capacity event).queue = kept ++ [event] ∧
      ((receiver.push capacity event).lagged = false → kept = receiver.queue ∧
        receiver.lagged = false) := by
  unfold Receiver.push
  split
  · exact ⟨receiver.queue, List.Sublist.refl _, rfl, fun unlagged => ⟨rfl, unlagged⟩⟩
  · exact ⟨receiver.queue.tail, tail_sublist _, rfl, nofun⟩

section Broadcast

variable (sound : hub.Sound setting) (sent : Broadcast setting hub next emission)
include sound sent

theorem messages_broadcast (queue : List ProgressEvent) :
    ((queue ++ [emission.2]).filter (eventMatches setting.filters)).map cursorOf =
      (queue.filter (eventMatches setting.filters)).map cursorOf ++
        if eventMatches setting.filters emission.2 then [emission.1] else [] := by
  have place := sound.cursorOf_pending sent.listed
  cases matching : eventMatches setting.filters emission.2 with
  | false => simp [matching]
  | true => simp [matching, place]

/-- The channel after a broadcast. -/
theorem queued_broadcast :
    ∃ kept, kept.Sublist (hub.queued setting) ∧ (next.queued setting).Sublist
      (kept ++ if eventMatches setting.filters emission.2 then [emission.1] else []) := by
  rcases receiver_send setting.capacity emission.2 hub.subscription with pushed | none
  · obtain ⟨kept, sublist, queue, -⟩ :=
      queued_push setting.capacity hub.subscription.receiver emission.2
    refine ⟨(kept.filter (eventMatches setting.filters)).map cursorOf,
      (sublist.filter _).map _, ?_⟩
    rw [Hub.queued, sent.subscription, pushed, queue, messages_broadcast sound sent]
  · refine ⟨[], nil_sublist _, ?_⟩
    rw [Hub.queued, sent.subscription, none]
    exact nil_sublist _

theorem queued_broadcast_live {receiver : Receiver}
    (live : next.subscription = .live receiver lastCursor) (clear : receiver.lagged = false) :
    ∃ before, hub.subscription = .live before lastCursor ∧ before.lagged = false ∧
      next.queued setting = hub.queued setting ++
        if eventMatches setting.filters emission.2 then [emission.1] else [] := by
  obtain ⟨before, was, rfl⟩ := send_live (sent.subscription ▸ live)
  obtain ⟨kept, -, queue, unlagged⟩ := queued_push setting.capacity before emission.2
  obtain ⟨rfl, calm⟩ := unlagged clear
  refine ⟨before, was, calm, ?_⟩
  simp only [Hub.queued, live, was, Subscription.receiver, queue, messages_broadcast sound sent]

end Broadcast

theorem Hub.Ordered.broadcast (sound : hub.Sound setting)
    (ordered : hub.Ordered setting) (sent : Broadcast setting hub next emission)
    (first : eventMatches setting.filters emission.2 = true → ∀ other ∈ hub.pending,
      eventMatches setting.filters other.2 = true → emission.1 ≤ other.1) :
    next.Ordered setting := by
  obtain ⟨kept, sublist, queue⟩ := queued_broadcast sound sent
  have mine : ∀ cursor ∈ (if eventMatches setting.filters emission.2 then [emission.1] else []),
      eventMatches setting.filters emission.2 = true ∧ cursor = emission.1 := by
    intro cursor member
    split at member
    · rename_i matching
      exact ⟨matching, mem_singleton.1 member⟩
    · cases member
  have remaining : ∀ other ∈ next.pending, other ∈ hub.pending ∧ other.1 ≠ emission.1 := by
    intro other member
    rw [sent.pending] at member
    obtain ⟨listed, differs⟩ := mem_filter.1 member
    exact ⟨listed, of_decide_eq_true differs⟩
  constructor
  · refine List.Pairwise.sublist queue (pairwise_append.2 ⟨ordered.queued.sublist sublist, ?_, ?_⟩)
    · split
      · exact pairwise_singleton _ _
      · exact List.Pairwise.nil
    · intro old member new listed
      obtain ⟨matching, rfl⟩ := mine new listed
      exact ordered.ahead emission sent.listed matching old (sublist.subset member)
  · intro other member matching cursor listed
    obtain ⟨waiting, differs⟩ := remaining other member
    rcases mem_append.1 (queue.subset listed) with old | new
    · exact ordered.ahead other waiting matching cursor (sublist.subset old)
    · obtain ⟨mineMatches, rfl⟩ := mine cursor new
      exact Nat.lt_of_le_of_ne (first mineMatches other waiting matching) (Ne.symm differs)
  · intro receiver lastCursor live unlagged unbroken cursor row after
    obtain ⟨before, was, calm, queue⟩ := queued_broadcast_live sound sent live unlagged
    rw [sent.delivered] at unbroken
    rw [Hub.rowKeys, sent.rows, ← Hub.rowKeys] at row
    rw [Hub.received, sent.delivered, ← Hub.received, queue]
    rcases ordered.covered before lastCursor was calm unbroken cursor row after with
      received | ⟨newer, queued | waiting⟩
    · exact .inl received
    · exact .inr ⟨newer, .inl (mem_append_left _ queued)⟩
    obtain ⟨other, listed, rfl⟩ := mem_map.1 waiting
    refine .inr ⟨newer, ?_⟩
    by_cases same : other.1 = emission.1
    · have matching := sound.agrees _ row emission sent.listed same.symm
      rw [matching, same]
      exact .inl (mem_append_right _ mem_cons_self)
    · refine .inr (mem_map_of_mem ?_)
      rw [sent.pending]
      exact mem_filter.2 ⟨listed, decide_eq_true same⟩

theorem queued_cons {queue : List ProgressEvent} {lagged : Bool}
    (live : hub.subscription = .live ⟨event :: queue, lagged⟩ lastCursor) :
    hub.queued setting = (if eventMatches setting.filters event then [cursorOf event] else []) ++
      (queue.filter (eventMatches setting.filters)).map cursorOf := by
  rw [Hub.queued, live]
  simp only [Subscription.receiver, filter_cons]
  split <;> rfl

section Subscriber

variable (ordered : hub.Ordered setting)
include ordered

/-- Before the replay only the channel matters. -/
theorem Hub.Ordered.unlive (step : SubscriberStep hub next)
    (queue : (next.queued setting).Sublist (hub.queued setting))
    (unlive : ∀ receiver lastCursor, next.subscription ≠ .live receiver lastCursor) :
    next.Ordered setting where
  queued := ordered.queued.sublist queue
  ahead := by
    rw [Hub.pending, step.emissions, ← Hub.pending]
    exact fun emission member matching cursor listed =>
      ordered.ahead emission member matching cursor (queue.subset listed)
  covered receiver lastCursor live := absurd live (unlive receiver lastCursor)

theorem Hub.Ordered.subscribe (performed : hub.subscribe = some next) : next.Ordered setting := by
  unfold Hub.subscribe at performed
  split at performed
  · cases performed
    exact ordered.unlive ⟨rfl, rfl, rfl⟩ (nil_sublist _) (by simp)
  · cases performed

theorem Hub.Ordered.check (performed : hub.check setting = some next) : next.Ordered setting := by
  obtain ⟨receiver, subscribed, ⟨oldest, rfl⟩ | rfl⟩ := check_ok performed
  · exact ordered.unlive ⟨rfl, rfl, rfl⟩ (nil_sublist _) (by simp)
  · refine ordered.unlive ⟨rfl, rfl, rfl⟩ ?_ (by simp)
    simp only [Hub.queued, subscribed, Subscription.receiver]
    exact List.Sublist.refl _

variable (sound : hub.Sound setting)
include sound

theorem Hub.Ordered.replay (performed : hub.replay setting = some next) : next.Ordered setting := by
  obtain ⟨receiver, lastCursor, same, shape, -, received, -⟩ := replay_ok sound performed
  have queued : next.queued setting = hub.queued setting := by
    rw [shape, Hub.queued, Hub.queued, same]
    rfl
  have pending : next.pending = hub.pending := by
    rw [shape]
    rfl
  have rows : next.rows = hub.rows := by rw [shape]
  constructor
  · rw [queued]
    exact ordered.queued
  · rw [pending, queued]
    exact ordered.ahead
  intro _ _ _ _ _ cursor row after
  rw [received]
  obtain ⟨row, stored, rfl, matching⟩ := mem_rowKeys.1 row
  rw [rows] at stored
  refine .inl (mem_map_of_mem (mem_filter.2 ⟨mem_replayRows.2 ⟨stored, ?_⟩, matching⟩))
  cases start : setting.after.bind parseCursor with
  | none => rfl
  | some cursor =>
    rw [FeedSetting.start, start] at after
    exact decide_eq_true after

theorem Hub.Ordered.receive (performed : hub.receive setting = some next) :
    next.Ordered setting := by
  have queued := ordered.queued
  have ahead := ordered.ahead
  cases receive_ok performed with
  | lagged live =>
    refine ⟨?_, ?_, ?_⟩
    · rwa [Hub.queued, live] at queued
    · rwa [Hub.queued, live] at ahead
    · intro _ _ _ _ unbroken
      exact absurd (mem_append_right _ mem_cons_self) (unbroken _)
  | @skipped event queue lastCursor live unwanted =>
    rw [queued_cons live] at queued ahead
    refine ⟨(pairwise_append.1 queued).2.1, ?_, ?_⟩
    · exact fun emission member matching cursor listed =>
        ahead emission member matching cursor (mem_append_right _ listed)
    intro _ _ now unlagged unbroken cursor row after
    cases now
    refine (ordered.covered _ _ live rfl unbroken cursor row after).imp id ?_
    rintro ⟨newer, listed | waiting⟩
    · rw [queued_cons live] at listed
      rcases mem_append.1 listed with head | rest
      · split at head
        · rename_i matching
          rw [mem_singleton.1 head] at newer
          exact absurd (unwanted matching) (Nat.not_le_of_lt newer)
        · cases head
      · exact ⟨newer, .inl rest⟩
    · exact ⟨newer, .inr waiting⟩
  | @yielded event queue lastCursor live matching newer =>
    rw [queued_cons live, matching] at queued ahead
    refine ⟨(pairwise_append.1 queued).2.1, ?_, ?_⟩
    · exact fun emission member matching cursor listed =>
        ahead emission member matching cursor (mem_append_right _ listed)
    intro _ _ now unlagged unbroken cursor row after
    cases now
    have before : ∀ oldest, .cursorExpired oldest ∉ hub.delivered :=
      fun oldest member => unbroken oldest (mem_append_left _ member)
    rw [received_append_event, map_append]
    rcases ordered.covered _ _ live rfl before cursor row after with
      received | ⟨-, listed | waiting⟩
    · exact .inl (mem_append_left _ received)
    · rw [queued_cons live, matching] at listed
      rcases mem_append.1 listed with head | rest
      · exact .inl (mem_append_right _ head)
      · exact .inr ⟨(pairwise_append.1 queued).2.2 _ mem_cons_self cursor rest, .inl rest⟩
    · obtain ⟨emission, member, rfl⟩ := mem_map.1 waiting
      have wanted := sound.agrees _ row emission member rfl
      exact .inr ⟨ahead emission member wanted _ (mem_append_left _ mem_cons_self),
        .inr waiting⟩

theorem Hub.Ordered.step (inOrder : InOrder setting action hub)
    (performed : feedMachine setting action hub = some next) : next.Ordered setting := by
  cases action with
  | insert event => exact ordered.insert sound performed
  | update cursor => exact ordered.housekeeping (housekeeping_update sound.agrees performed)
  | prune cursor => exact ordered.housekeeping (housekeeping_prune performed)
  | broadcast cursor =>
    obtain ⟨event, sent⟩ := broadcast_ok performed
    refine ordered.broadcast sound sent fun matching other member otherMatches => ?_
    obtain ⟨mine, listed, same⟩ := mem_map.1 sent.listed
    obtain ⟨theirs, waiting, rfl⟩ := mem_map.1 member
    cases same
    exact inOrder _ rfl mine listed rfl matching theirs waiting otherMatches
  | subscribe => exact ordered.subscribe performed
  | check => exact ordered.check performed
  | replay => exact ordered.replay sound performed
  | receive => exact ordered.receive sound performed

end Subscriber

/-- In every run the received cursors increase. In every run whose matching events are broadcast in
the order of their cursors, whenever nothing is under way and the stream has reported neither expiry
nor lag, every wanted event that is still stored was received once. -/
theorem feed_exactly_once (setting : FeedSetting) :
    (∀ hub, ((feedMachine setting).system (· = {})).Reachable hub → hub.Increasing) ∧
      ∀ hub, ((feedMachine setting).guarded (· = {}) (InOrder setting)).Reachable hub →
        hub.Quiet → hub.ExactlyOnce setting := by
  have increasing : ∀ hub : Hub, hub.Sound setting → hub.Increasing := by
    intro hub sound
    by_cases live : ∃ receiver lastCursor, hub.subscription = .live receiver lastCursor
    · obtain ⟨receiver, lastCursor, live⟩ := live
      exact (sound.last receiver lastCursor live).2.1
    · have none := sound.undelivered fun receiver lastCursor now => live ⟨receiver, lastCursor, now⟩
      rw [Hub.Increasing, Hub.received, none]
      exact List.Pairwise.nil
  constructor
  · intro hub reachable
    refine increasing hub (Machine.invariant (I := Hub.Sound setting) ?_ ?_ reachable)
    · rintro _ rfl
      exact Hub.Sound.initial
    · exact fun _ _ _ sound performed => sound.step performed
  · intro hub reachable quiet row stored wanted
    obtain ⟨sound, ordered⟩ : hub.Sound setting ∧ hub.Ordered setting := by
      refine Machine.guarded_invariant (I := fun hub => hub.Sound setting ∧ hub.Ordered setting)
        ?_ ?_ reachable
      · rintro _ rfl
        exact ⟨Hub.Sound.initial, Hub.Ordered.initial⟩
      · rintro _ _ _ ⟨sound, ordered⟩ allowed performed
        exact ⟨sound.step performed, ordered.step sound allowed performed⟩
    obtain ⟨lastCursor, live⟩ := quiet.drained
    have key := mem_rowKeys.2 ⟨row, stored, rfl, wanted.1⟩
    have distinct : (hub.received.map cursorOf).Nodup :=
      (increasing hub sound).imp fun less => Nat.ne_of_lt less
    refine count_eq_one_of_mem distinct ?_
    rcases ordered.covered _ _ live rfl quiet.unbroken row.cursor key wanted.2 with
      received | ⟨-, queued | waiting⟩
    · exact received
    · rw [Hub.queued, live] at queued
      cases queued
    · rw [map_fst_pending, quiet.emitted] at waiting
      cases waiting

/-- A feed that keeps ten events, and a subscriber that wants everything. -/
def openFeed : FeedSetting := ⟨10, none, ⟨none, none, none⟩⟩

def itemEvent (item : String) : ProgressEvent := ⟨"", "library", item, none⟩

/-- Two emitters beside a subscriber; the second one broadcasts first. -/
def overtakingRun : List FeedAction :=
  [.subscribe, .check, .replay, .insert (itemEvent "one"), .insert (itemEvent "two"), .update 1,
    .update 2, .prune 1, .prune 2, .broadcast 2, .broadcast 1, .receive, .receive]

instance (setting : FeedSetting) (action : FeedAction) (hub : Hub) :
    Decidable (InOrder setting action hub) :=
  match action with
  | .broadcast cursor =>
    decidable_of_iff (∀ mine ∈ hub.emissions, mine.cursor = cursor →
      eventMatches setting.filters mine.event = true → ∀ other ∈ hub.emissions,
        eventMatches setting.filters other.event = true → cursor ≤ other.cursor)
      ⟨fun first _ same => FeedAction.broadcast.inj same ▸ first, fun inOrder => inOrder cursor rfl⟩
  | .insert _ | .update _ | .prune _ | .subscribe | .check | .replay | .receive =>
    isTrue nofun

/-- One event in the replay and once more from the channel, and a second one after it. -/
def replayingRun : List FeedAction :=
  [.insert (itemEvent "one"), .update 1, .subscribe, .check, .replay, .prune 1, .broadcast 1,
    .receive, .insert (itemEvent "two"), .update 2, .prune 2, .broadcast 2, .receive]

/-- Where that run ends: each event was received once. -/
def receivedHub : Hub where
  rows := [⟨1, { itemEvent "one" with cursor := formatCursor 1 }⟩,
    ⟨2, { itemEvent "two" with cursor := formatCursor 2 }⟩]
  nextCursor := 3
  subscription := .live {} 2
  delivered := [.event { itemEvent "one" with cursor := formatCursor 1 },
    .event { itemEvent "two" with cursor := formatCursor 2 }]

theorem feed_exactly_once_sample :
    ((feedMachine openFeed).guarded (· = {}) (InOrder openFeed)).Reachable receivedHub ∧
      receivedHub.Quiet ∧ receivedHub.ExactlyOnce openFeed ∧ receivedHub.Increasing := by
  have ran : (feedMachine openFeed).guardedRun (InOrder openFeed) replayingRun {} =
      some receivedHub := by decide +kernel
  have reachable :
    ((feedMachine openFeed).guarded (· = {}) (InOrder openFeed)).Reachable receivedHub :=
    Machine.reachable_of_guardedRun rfl ran
  have quiet : receivedHub.Quiet := ⟨rfl, ⟨2, rfl⟩, by simp [receivedHub]⟩
  exact ⟨reachable, quiet, (feed_exactly_once openFeed).2 _ reachable quiet,
    (feed_exactly_once openFeed).1 _ (Machine.reachable_of_guarded reachable)⟩

/-- Where the run of the two emitters ends. -/
def overtakenHub : Hub where
  rows := [⟨1, { itemEvent "one" with cursor := formatCursor 1 }⟩,
    ⟨2, { itemEvent "two" with cursor := formatCursor 2 }⟩]
  nextCursor := 3
  subscription := .live {} 2
  delivered := [.event { itemEvent "two" with cursor := formatCursor 2 }]

/-- An event that is overtaken on its way to the channel is never received. -/
theorem overtaken_event_is_lost :
    ((feedMachine openFeed).system (· = {})).Reachable overtakenHub ∧ overtakenHub.Quiet ∧
      ¬overtakenHub.ExactlyOnce openFeed := by
  have ran : (feedMachine openFeed).run overtakingRun {} = some overtakenHub := by decide +kernel
  refine ⟨Machine.reachable_of_run rfl ran, ⟨rfl, ⟨2, rfl⟩, by simp [overtakenHub]⟩, ?_⟩
  intro once
  have missing := once _ mem_cons_self ⟨by decide, by decide⟩
  revert missing
  decide +kernel

end Delivery

end Coppice.Ingest
