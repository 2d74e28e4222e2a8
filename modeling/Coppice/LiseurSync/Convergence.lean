import Coppice.LiseurSync.Lane
import Coppice.Std.System

/-!
# The annotation change feed converges

A device polls the feed while other requests write it. A poll reads the high
water and the page in separate statements, the page may be cut by any limit, and
any transaction may commit in between. The device moves its cursor to the last
record when more follow and to the high water otherwise. The invariant is that
every record at or below the cursor is already on the device as it is stored.
-/

namespace Coppice.LiseurSync

open Coppice.Std Coppice.Std.Feed Models

/-- What a device keeps: where it resumes, and its copy of each record. -/
structure Device where
  cursor : Nat
  copy : String → Option AnnotationRecord

namespace Device

/-- A device that never polled. -/
def fresh : Device := ⟨0, fun _ => none⟩

/-- Take a page: overwrite the copy of every record on it and move the cursor. -/
def receive (device : Device) (highWater : Nat) (page : List AnnotationRecord × Bool) : Device :=
  { cursor := advanceCursor AnnotationRecord.seq device.cursor highWater page.1 page.2
    copy := overwrite AnnotationRecord.id device.copy page.1 }

end Device

/-- The account, one device, and the high water of the poll it has under way. -/
structure FeedWorld where
  store : Store
  device : Device
  poll : Option Nat

section System

variable [Host]

/-- The transactions that commit beside a poll: every writer of the lane, and
any transaction that leaves the lane alone. -/
inductive FeedTransaction (s : Store) : Store → Prop where
  | push (now : Int) (deviceId : String) (inputs : List AnnotationInput) :
      FeedTransaction s (commit s (appendAnnotations now deviceId s inputs)).1
  | delete (now : Int) (id : String) (rev : Int) :
      FeedTransaction s (commit s <| deleteAnnotation now s id rev).1
  | sweep (now : Int) (after : Option String) :
      FeedTransaction s (commit s (sweepForPoll now s after)).1
  | reconcileIds (now : Int) (ids : List String) :
      FeedTransaction s (reconcileNativeIds now s ids)
  | reconcileWorks (now : Int) (works : List String) :
      FeedTransaction s (reconcileNativeWorks now s works)
  | resequence (workId : String) : FeedTransaction s (resequenceWorkAnnotations s workId).1
  | elsewhere (s' : Store) (rows : s'.annotations = s.annotations)
      (clock : s'.annotationSeq = s.annotationSeq) : FeedTransaction s s'

/-- A transaction commits, a poll reads the high water, or a poll reads its page
with some limit and the device takes it. -/
inductive FeedStep : FeedWorld → FeedWorld → Prop where
  | commits {w : FeedWorld} {s : Store} (transaction : FeedTransaction w.store s) :
      FeedStep w { w with store := s }
  | readHighWater {w : FeedWorld} (idle : w.poll = none) :
      FeedStep w { w with poll := some (annotationHighWater w.store) }
  | readPage {w : FeedWorld} {highWater : Nat} (polling : w.poll = some highWater)
      (limit : Nat) :
      FeedStep w
        { w with
          device := w.device.receive highWater (annotationPage w.store w.device.cursor limit)
          poll := none }

/-- Runs of the feed: an account without records and a device without a copy. -/
def feedSystem : System FeedWorld where
  Initial w := w.store.annotations = [] ∧ w.device = Device.fresh ∧ w.poll = none
  Step := FeedStep

/-- The invariant of the feed. -/
structure FeedInvariant (w : FeedWorld) : Prop where
  clocked : Clocked StoredAnnotation.id StoredAnnotation.seq w.store.annotations
    w.store.annotationSeq
  synced : Synced StoredAnnotation.id StoredAnnotation.seq annotationRecord w.store.annotations
    w.device.cursor w.device.copy
  behind : w.device.cursor ≤ w.store.annotationSeq
  pollBehind : ∀ highWater ∈ w.poll, highWater ≤ w.store.annotationSeq

theorem FeedTransaction.moves {s s' : Store} (transaction : FeedTransaction s s') : Moves s s' := by
  cases transaction with
  | push now deviceId inputs =>
    exact commit_of (.refl s)
      fun next _ success => (appendAnnotations_annotationWrite success).moves
  | delete now id rev =>
    exact commit_of (.refl s)
      fun next _ success => (deleteAnnotation_annotationWrite success).moves
  | sweep now after =>
    exact commit_of (.refl s)
      fun next _ success => (sweepForPoll_annotationWrite success).moves
  | reconcileIds now ids => exact (reconcileNativeIds_edits now ids).laneWrite.moves
  | reconcileWorks now works => exact (reconcileNativeWorks_edits now works).laneWrite.moves
  | resequence workId => exact (resequenceWorkAnnotations_laneWrite s workId).moves
  | elsewhere _ rows clock =>
    rw [Moves, rows, clock]
    exact Advance.refl _ _

/-- One step of a run keeps the invariant. -/
theorem FeedInvariant.step {w next : FeedWorld} (invariant : FeedInvariant w)
    (transition : FeedStep w next) : FeedInvariant next := by
  cases transition with
  | commits transaction =>
    have moves := transaction.moves
    exact
      { clocked := moves.clocked invariant.clocked
        synced := invariant.synced.advance invariant.behind moves
        behind := invariant.behind.trans moves.clock_le
        pollBehind := fun highWater member =>
          (invariant.pollBehind highWater member).trans moves.clock_le }
  | readHighWater idle =>
    refine { invariant with pollBehind := ?_ }
    rintro highWater member
    obtain rfl : annotationHighWater w.store = highWater := by simpa using member
    exact Nat.le_refl _
  | readPage polling limit =>
    have bound := invariant.pollBehind _ (Option.mem_def.mpr polling)
    have cursor := advanceCursor_map annotationRecord_seq w.device.cursor
    refine
      { clocked := invariant.clocked
        synced := ?_
        behind := ?_
        pollBehind := fun _ member => by cases member }
    · simp only [Device.receive, annotationPage, cursor]
      exact invariant.synced.receive invariant.clocked annotationRecord_id
    · simp only [Device.receive, annotationPage, cursor]
      exact advanceCursor_le invariant.clocked invariant.behind bound

/-- Every state of every run satisfies the invariant. -/
theorem feedInvariant_of_reachable {w : FeedWorld} (reachable : feedSystem.Reachable w) :
    FeedInvariant w := by
  refine reachable.invariant (fun w valid => ?_) fun w next => FeedInvariant.step
  obtain ⟨rows, device, poll⟩ := valid
  refine ⟨?_, ?_, ?_, ?_⟩
  · rw [rows]
    exact ⟨List.nodup_nil, List.nodup_nil, by simp⟩
  · rw [rows]
    intro row member
    cases member
  · rw [device]
    exact Nat.zero_le _
  · simp [poll]

/-- Whenever a poll reads its last page, whatever high water it read before, the
device then has every record of the account, live or deleted, as it is stored. -/
theorem device_converges {w : FeedWorld} (reachable : feedSystem.Reachable w)
    (highWater limit : Nat) (last : (annotationPage w.store w.device.cursor limit).2 = false) :
    ∀ row ∈ w.store.annotations,
      (w.device.receive highWater (annotationPage w.store w.device.cursor limit)).copy row.id =
        some (annotationRecord row) := by
  have invariant := feedInvariant_of_reachable reachable
  intro row member
  exact invariant.synced.complete invariant.clocked annotationRecord_id last member

/-- In every run, a record that is added or changed gets a number above all given before. -/
theorem changed_records_move_up {w later : FeedWorld} (steps : feedSystem.Steps w later) :
    ∀ row ∈ later.store.annotations, row ∈ w.store.annotations ∨
      w.store.annotationSeq < row.seq := by
  have moves : Moves w.store later.store := by
    induction steps with
    | refl => exact .refl _
    | tail _ transition ih =>
      cases transition with
      | commits transaction => exact ih.trans transaction.moves
      | readHighWater | readPage => exact ih
  exact moves.unmoved

end System

section Sample

local instance feedHost : Host := Host.sample

/-- A note a device pushes. -/
def sampleNote : AnnotationInput :=
  { id := "note-1", baseRev := 0, workId := "work", editionSha := none, kind := "note"
    locator := none, progression := none, excerpt := "", color := none, drawer := none
    body := "margin", clientTs := "2026-01-01T00:00:00.000000000Z" }

/-- An account with one work and nothing pushed. -/
def sampleAccount : Store :=
  { Store.empty "user" with
    works := [{ id := "work", title := "", author := "", pending := false, createdAt := "" }] }

/-- A push commits between the two reads of the device's first poll. -/
def sampleWorld : FeedWorld :=
  { store := (commit sampleAccount
      (appendAnnotations (sampleHour 1) "device" sampleAccount [sampleNote])).1
    device := Device.fresh
    poll := some 0 }

theorem changed_records_move_up_sample :
    sampleAccount.annotationSeq < (createdRow (sampleHour 1) "device" sampleNote 1).seq :=
  (changed_records_move_up (w := ⟨sampleAccount, .fresh, some 0⟩)
    (.single (.commits (.push (sampleHour 1) "device" [sampleNote]))) _ (by decide)).resolve_left
      (by decide)

theorem device_converges_sample :
    (sampleWorld.device.receive 0
      (annotationPage sampleWorld.store sampleWorld.device.cursor 100)).copy "note-1" =
        some (annotationRecord
          (createdRow (sampleHour 1) "device" sampleNote 1)) := by
  have reachable : feedSystem.Reachable sampleWorld := by
    refine .step (.step (.initial (s := ⟨sampleAccount, Device.fresh, none⟩) ⟨rfl, rfl, rfl⟩)
      (.readHighWater rfl)) ?_
    exact .commits (.push (sampleHour 1) "device" [sampleNote])
  exact device_converges reachable 0 100 (by decide)
    (createdRow (sampleHour 1) "device" sampleNote 1) (by decide)

end Sample
end Coppice.LiseurSync
