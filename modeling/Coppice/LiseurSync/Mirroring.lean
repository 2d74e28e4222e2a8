import Coppice.LiseurSync.OpLog

/-!
# Mirrored positions in the log

`mirror_heads` reads the user's heads and then opens its write transaction, so
other requests commit in between. An op is projected by the event it came from:
a mirrored op by the event its id names, a native op by the event that carries
it as payload. The log is in step with the reading state when ops of one media
row stand in the order of their events. A mirror that writes heads which are
still current keeps it so; one that writes a superseded head does not.
-/

namespace Coppice.LiseurSync

variable {head : ReadingHead} {s s' : Store}

open Coppice.Std Models
open List hiding lookup

theorem mirroredOpId_injective {left right : Nat} (same : mirroredOpId left = mirroredOpId right) :
    left = right := by
  have digits := congrArg String.toList ((String.append_right_inj _).mp same)
  simpa [Nat.ofDigitChars_ten_toDigits] using congrArg (Nat.ofDigitChars 10 · 0) digits

/-- The op came from the event: it mirrors the head the event left, or it is the
native op the event applied. -/
def ProjectedBy (op : Op) (event : ReadingHeadEvent) : Prop :=
  event.applied = true ∧
    ((∃ protocol, op.origin = .mirrored protocol) ∧ op.opId = mirroredOpId event.id ∨
      op.origin = .native ∧ event.protocol = .liseur ∧
        event.rawPayload.get "op_id" = some (.str op.opId))

/-- Ops of one media row stand in the log in the order of their events, and the
op of the event on the head comes last. -/
structure InStep (s : Store) : Prop where
  ordered : ∀ early ∈ s.ops, ∀ late ∈ s.ops, ∀ before ∈ s.reading.events,
    ∀ after ∈ s.reading.events, before.mediaId = after.mediaId → ProjectedBy early before →
      ProjectedBy late after → before.id < after.id → early.seq < late.seq
  headLast : ∀ mediaId head, s.reading.head mediaId = some head →
    ∀ newest ∈ s.ops, ∀ event ∈ s.reading.events, event.id = head.eventId →
      ProjectedBy newest event → ∀ op ∈ s.ops, ∀ before ∈ s.reading.events,
        before.mediaId = mediaId → ProjectedBy op before → op.seq ≤ newest.seq

/-- The account and the heads each mirror call under way has read. -/
structure MirrorWorld where
  store : Store
  snapshots : List (List ReadingHead)

/-- The heads a mirror is about to append are still the stored ones. -/
def Current (s : Store) (heads : List ReadingHead) : Prop :=
  ∀ head ∈ heads, head.sourceProtocol ≠ .liseur →
    s.findOp (mirroredOpId head.eventId) = none →
      ∃ stored, s.reading.head head.mediaId = some stored ∧ stored.eventId = head.eventId

section System

variable [Host]

/-- Another protocol applies an update, another account takes event ids, a
device pushes a batch, and a mirror call reads its heads or, if the guard lets
it, writes what it read. -/
inductive MirrorStep (guard : Store → List ReadingHead → Prop) : MirrorWorld → MirrorWorld → Prop
    where
  | apply {w : MirrorWorld} (now : Int) (publication : Publication) (update : ProtocolUpdate)
      (foreign : update.protocol ≠ .liseur) :
      MirrorStep guard w
        { w with
          store := { w.store with reading := w.store.reading.apply now publication update } }
  | otherAccount {w : MirrorWorld} (eventSeq : Nat) (later : w.store.reading.eventSeq ≤ eventSeq) :
      MirrorStep guard w
        { w with
          store := { w.store with reading := { w.store.reading with eventSeq := eventSeq } } }
  | append {w : MirrorWorld} (now : Int) (deviceId : String) (ops : List OpInput)
      (valid : ∀ op ∈ ops, validateOp now op = .ok ()) :
      MirrorStep guard w
        { w with store := (commit w.store (appendOps now deviceId w.store ops)).1 }
  | read {w : MirrorWorld} (heads : List ReadingHead)
      (order : heads.Perm (w.store.reading.headsFor (w.store.links.map MediaLink.mediaId))) :
      MirrorStep guard w { w with snapshots := heads :: w.snapshots }
  | write {w : MirrorWorld} (before after : List (List ReadingHead)) {heads : List ReadingHead}
      (under : w.snapshots = before ++ heads :: after) (allowed : guard w.store heads)
      (now : Int) :
      MirrorStep guard w
        { store := mirrorWrite now w.store.links heads w.store, snapshots := before ++ after }

/-- Runs from an account that never read anything. -/
def mirrorSystem (guard : Store → List ReadingHead → Prop) : System MirrorWorld where
  Initial w := w.store.ops = [] ∧ w.store.opSeq = 0 ∧ w.store.reading = .empty ∧ w.snapshots = []
  Step := MirrorStep guard

end System

/-- What ties the log to the reading state along every run. -/
structure Provenance (s : Store) : Prop where
  log : LogInvariant s
  eventBound : ∀ event ∈ s.reading.events, event.id ≤ s.reading.eventSeq
  eventIds : (s.reading.events.map ReadingHeadEvent.id).Nodup
  headIds : (s.reading.heads.map ReadingHead.mediaId).Nodup
  headEvent : ∀ mediaId head, s.reading.head mediaId = some head →
    ∃ event ∈ s.reading.events, event.id = head.eventId ∧ event.mediaId = mediaId ∧
      event.protocol = head.sourceProtocol ∧ event.applied = true
  headNewest : ∀ mediaId head, s.reading.head mediaId = some head →
    ∀ event ∈ s.reading.events, event.mediaId = mediaId → event.applied = true →
      event.id ≤ head.eventId
  mirrored : ∀ op ∈ s.ops, (∃ protocol, op.origin = .mirrored protocol) →
    ∃ event ∈ s.reading.events, op.opId = mirroredOpId event.id ∧ event.protocol ≠ .liseur
  native : ∀ event ∈ s.reading.events, event.protocol = .liseur →
    ∃ op ∈ s.ops, event.rawPayload.get "op_id" = some (.str op.opId)

/-- The invariant of a run: provenance, and the order that follows from it. -/
structure Linked (s : Store) : Prop extends Provenance s, InStep s

section Events

variable (provenance : Provenance s) {left right : Op} {event : ReadingHeadEvent}
include provenance

theorem Provenance.event_eq {other : ReadingHeadEvent} (member : event ∈ s.reading.events)
    (otherMember : other ∈ s.reading.events) (same : event.id = other.id) : event = other :=
  inj_on_of_nodup_map provenance.eventIds member otherMember same

theorem Provenance.foreign (member : event ∈ s.reading.events) (stored : left ∈ s.ops)
    (isMirror : ∃ protocol, left.origin = .mirrored protocol)
    (named : left.opId = mirroredOpId event.id) : event.protocol ≠ .liseur := by
  obtain ⟨other, otherMember, otherId, notLiseur⟩ := provenance.mirrored left stored isMirror
  have same := mirroredOpId_injective (named.symm.trans otherId)
  rwa [provenance.event_eq member otherMember same]

/-- One event projects at most one op. -/
theorem Provenance.op_eq_of_event (member : event ∈ s.reading.events) (leftMember : left ∈ s.ops)
    (rightMember : right ∈ s.ops) (leftFrom : ProjectedBy left event)
    (rightFrom : ProjectedBy right event) : left = right := by
  refine inj_on_of_nodup_map provenance.log.distinct leftMember rightMember ?_
  rcases leftFrom.2 with ⟨leftMirror, leftId⟩ | ⟨-, leftLiseur, leftId⟩ <;>
    rcases rightFrom.2 with ⟨rightMirror, rightId⟩ | ⟨-, rightLiseur, rightId⟩
  · rw [leftId, rightId]
  · exact absurd rightLiseur (provenance.foreign member leftMember leftMirror leftId)
  · exact absurd leftLiseur (provenance.foreign member rightMember rightMirror rightId)
  · rw [leftId] at rightId
    simpa using rightId

/-- The event on the head is the newest of its media row, so its op is last if ops are in order. -/
theorem Provenance.linked
    (ordered : ∀ early ∈ s.ops, ∀ late ∈ s.ops, ∀ before ∈ s.reading.events,
      ∀ after ∈ s.reading.events, before.mediaId = after.mediaId → ProjectedBy early before →
        ProjectedBy late after → before.id < after.id → early.seq < late.seq) : Linked s := by
  refine { provenance with ordered, headLast := ?_ }
  intro mediaId head stored newest newestMember event member isHead newestFrom op opMember before
    beforeMember media opFrom
  obtain ⟨onHead, onHeadMember, sameId, headMedia, -⟩ := provenance.headEvent mediaId head stored
  obtain rfl := provenance.event_eq member onHeadMember (isHead.trans sameId.symm)
  have upper := provenance.headNewest mediaId head stored before beforeMember media opFrom.1
  by_cases less : before.id < event.id
  · exact (ordered op opMember newest newestMember before beforeMember event member
      (media.trans headMedia.symm) opFrom newestFrom less).le
  · obtain rfl := provenance.event_eq beforeMember member (by omega)
    rw [provenance.op_eq_of_event member opMember newestMember opFrom newestFrom]

end Events

namespace Linked

variable {left right : Op}

variable (linked : Linked s) {op : Op}
include linked

theorem seq_le (member : op ∈ s.ops) : op.seq ≤ s.opSeq := by
  have numbered : op.seq ∈ s.ops.map Op.seq := mem_map_of_mem member
  rw [linked.log.numbered, mem_range'_1] at numbered
  omega

theorem op_eq (leftMember : left ∈ s.ops)
    (rightMember : right ∈ s.ops) (same : left.seq = right.seq) : left = right := by
  refine inj_on_of_nodup_map ?_ leftMember rightMember same
  rw [linked.log.numbered]
  exact nodup_range'

/-- An op enters the log. Its event, when it has one, is the newest its media
row had applied. -/
theorem addOp (absent : s.findOp op.opId = none) (numbered : op.seq = s.opSeq + 1)
    (source : (∃ protocol, op.origin = .mirrored protocol) →
      ∃ event ∈ s.reading.events, op.opId = mirroredOpId event.id ∧ event.protocol ≠ .liseur)
    (newest : ∀ event ∈ s.reading.events, ProjectedBy op event → ∀ other ∈ s.reading.events,
      other.mediaId = event.mediaId → other.applied = true → other.id ≤ event.id) :
    Linked (insertOp (nextOpSeq s).1 op) := by
  have split {row : Op} (member : row ∈ (insertOp (nextOpSeq s).1 op).ops) :
      row ∈ s.ops ∨ row = op := by
    simpa [insertOp, nextOpSeq] using member
  refine Provenance.linked
    { linked with
      log := (logWrite_insert absent numbered).keeps linked.log
      mirrored := ?_
      native := ?_ } ?_
  · intro row member isMirror
    rcases split member with old | rfl
    · exact linked.mirrored row old isMirror
    · exact source isMirror
  · intro event member liseur
    obtain ⟨row, stored, carried⟩ := linked.native event member liseur
    exact ⟨row, mem_append_left _ stored, carried⟩
  intro early earlyMember late lateMember before beforeMember after afterMember media earlyFrom
    lateFrom less
  rcases split earlyMember with earlyOld | rfl
  · rcases split lateMember with lateOld | rfl
    · exact linked.ordered early earlyOld late lateOld before beforeMember after afterMember media
        earlyFrom lateFrom less
    · have bound := linked.seq_le earlyOld
      omega
  · have bound := newest before beforeMember earlyFrom after afterMember media.symm lateFrom.1
    omega

/-- An update is applied. Whatever op it carries is the newest of the log and
had no event before. -/
theorem addEvent (now : Int) (publication : Publication)
    (update : ProtocolUpdate)
    (source : update.protocol = .liseur →
      ∃ op ∈ s.ops, update.rawPayload.get "op_id" = some (.str op.opId))
    (newest : ∀ op ∈ s.ops, op.origin = .native → update.protocol = .liseur →
      update.rawPayload.get "op_id" = some (.str op.opId) →
        op.seq = s.opSeq ∧ ∀ event ∈ s.reading.events, ¬ ProjectedBy op event) :
    Linked { s with reading := s.reading.apply now publication update } := by
  have seq := s.reading.apply_eventSeq now publication update
  have events := s.reading.apply_events now publication update
  set event := s.reading.recorded now publication update with recorded
  have id : event.id = s.reading.eventSeq + 1 := rfl
  have listed {row : ReadingHeadEvent} : row ∈ (s.reading.apply now publication update).events ↔
      row ∈ s.reading.events ∨ row = event := by rw [events, mem_concat]
  have older {row : ReadingHeadEvent} (member : row ∈ s.reading.events) : row.id < event.id := by
    have bound := linked.eventBound row member
    omega
  -- An op the new event projects came in with it: it is last, and has no other event.
  have carried {op : Op} (member : op ∈ s.ops) (fromNew : ProjectedBy op event) :
      op.seq = s.opSeq ∧ ∀ row ∈ s.reading.events, ¬ ProjectedBy op row := by
    rcases fromNew.2 with ⟨isMirror, named⟩ | ⟨isNative, liseur, payload⟩
    · obtain ⟨row, rowMember, other, -⟩ := linked.mirrored op member isMirror
      have same := mirroredOpId_injective (named.symm.trans other)
      have bound := older rowMember
      omega
    · exact newest op member isNative liseur payload
  refine Provenance.linked
    { log := ⟨linked.log.numbered, linked.log.distinct⟩
      eventBound := ?_
      eventIds := ?_
      headIds := s.reading.apply_mediaIds now publication update linked.headIds
      headEvent := ?_
      headNewest := ?_
      mirrored := ?_
      native := ?_ } ?_
  · intro row member
    simp only [seq]
    rcases listed.1 member with rowOld | rfl
    · exact (linked.eventBound row rowOld).trans (Nat.le_succ _)
    · exact id.le
  · rw [events]
    refine nodup_concat linked.eventIds fun row member => ?_
    have bound := older member
    omega
  · intro mediaId head stored
    simp only [ReadingState.apply_head] at stored
    split_ifs at stored with moved
    · obtain rfl := Option.some.inj stored
      exact ⟨event, listed.2 (.inr rfl), rfl, moved.1.symm, rfl, moved.2⟩
    · obtain ⟨row, member, facts⟩ := linked.headEvent mediaId head stored
      exact ⟨row, listed.2 (.inl member), facts⟩
  · intro mediaId head stored row member media applied
    simp only [ReadingState.apply_head] at stored
    split_ifs at stored with moved
    · obtain rfl := Option.some.inj stored
      rcases listed.1 member with rowOld | rfl
      · exact (older rowOld).le
      · exact Nat.le_refl _
    · rcases listed.1 member with rowOld | rfl
      · exact linked.headNewest mediaId head stored row rowOld media applied
      · exact absurd ⟨media.symm, applied⟩ moved
  · intro op member isMirror
    obtain ⟨row, rowMember, facts⟩ := linked.mirrored op member isMirror
    exact ⟨row, listed.2 (.inl rowMember), facts⟩
  · intro row member liseur
    rcases listed.1 member with rowOld | rfl
    · exact linked.native row rowOld liseur
    · exact source liseur
  · intro early earlyMember late lateMember before beforeMember after afterMember media earlyFrom
      lateFrom less
    rcases listed.1 afterMember with afterOld | rfl
    · rcases listed.1 beforeMember with beforeOld | rfl
      · exact linked.ordered early earlyMember late lateMember before beforeOld after afterOld media
          earlyFrom lateFrom less
      · have bound := older afterOld
        omega
    · obtain ⟨last, orphan⟩ := carried lateMember lateFrom
      rcases listed.1 beforeMember with beforeOld | rfl
      · have bound := linked.seq_le earlyMember
        have differ : early.seq ≠ late.seq := by
          intro same
          rw [linked.op_eq earlyMember lateMember same] at earlyFrom
          exact orphan before beforeOld earlyFrom
        omega
      · omega

/-- Other accounts take event ids. -/
theorem otherAccount {eventSeq : Nat} (later : s.reading.eventSeq ≤ eventSeq) :
    Linked { s with reading := { s.reading with eventSeq } } :=
  { linked with
    log := ⟨linked.log.numbered, linked.log.distinct⟩
    eventBound := fun event member => (linked.eventBound event member).trans later }

end Linked

/-- A write that keeps the invariant and every event. -/
structure Carries (s s' : Store) : Prop where
  linked : Linked s → Linked s'
  events : ∀ event ∈ s.reading.events, event ∈ s'.reading.events

namespace Carries

theorem refl (s : Store) : Carries s s := ⟨id, fun _ => id⟩

theorem trans {s'' : Store} (first : Carries s s') (second : Carries s' s'') : Carries s s'' :=
  ⟨fun linked => second.linked (first.linked linked),
    fun event member => second.events event (first.events event member)⟩

end Carries

/-- The head was stored once: its event is on record, and names its protocol. -/
def OnRecord (s : Store) (head : ReadingHead) : Prop :=
  ∃ event ∈ s.reading.events, event.id = head.eventId ∧ event.mediaId = head.mediaId ∧
    event.protocol = head.sourceProtocol

theorem opInput_op_id (op : OpInput) : op.toValue.get "op_id" = some (.str op.opId) := rfl

section Steps

variable [Host] {now : Int} {deviceId : String} {s' : Store} {links : List MediaLink}

/-- A native op enters the log and moves the head its work is linked to. -/
theorem Appended.carries {op : OpInput} {progression : ℚ} {result : OpResult}
    (appended : Appended now deviceId s op progression s' result) : Carries s s' := by
  cases appended with
  | repeated | clash => exact .refl s
  | recorded absent =>
    set row := opRow now deviceId op progression (s.opSeq + 1) with rowDef
    have orphan (linked : Linked s) : ∀ event ∈ s.reading.events, ¬ ProjectedBy row event := by
      rintro event member ⟨-, ⟨⟨protocol, isMirror⟩, -⟩ | ⟨-, liseur, payload⟩⟩
      · cases isMirror
      obtain ⟨other, stored, carried⟩ := linked.native event member liseur
      rw [payload] at carried
      have same : row.opId = other.opId := by simpa using carried
      exact lookup_eq_none.mp absent other stored same.symm
    have inserted (linked : Linked s) : Linked (insertOp (nextOpSeq s).1 row) :=
      linked.addOp absent rfl (by rintro ⟨protocol, isMirror⟩; cases isMirror)
        fun event member from_ => absurd from_ (orphan linked event member)
    unfold applyOpToHead
    split
    · exact ⟨inserted, fun _ => id⟩
    refine ⟨fun linked => ?_, fun event member => ?_⟩
    · refine (inserted linked).addEvent now _ _ (fun _ => ⟨row, by simp [insertOp], rfl⟩) ?_
      intro other member _ _ payload
      have sameId : row.opId = other.opId := by
        simpa [opUpdate, opInput_op_id, rowDef, opRow] using payload
      have same : row = other :=
        inj_on_of_nodup_map (inserted linked).log.distinct (by simp [insertOp]) member
          sameId
      rw [← same]
      exact ⟨rfl, orphan linked⟩
    · simp only [ReadingState.apply_events]
      exact mem_append_left _ member

theorem appendOps_carries {ops : List OpInput} {results : List OpResult}
    (success : appendOps now deviceId s ops = .ok (s', results)) : Carries s s' := by
  refine Batch.run_rel .refl .trans (fun _ _ _ _ _ _ item => ?_) success
  obtain ⟨-, progression, -, appended⟩ := appendOp_appended item
  exact appended.carries

theorem mirrorHead_frame (links : List MediaLink) (head : ReadingHead) :
    LogOnly s (mirrorHead now links s head) := by
  unfold mirrorHead
  split
  · rfl
  · split <;> rfl

/-- A mirror writes the log only. -/
theorem mirrorWrite_frame (links : List MediaLink) (heads : List ReadingHead) :
    LogOnly s (mirrorWrite now links heads s) :=
  foldl_rel .refl .trans fun _ head _ => mirrorHead_frame links head

/-- One head of a mirror whose heads are current. -/
theorem mirrorHead_linked (linked : Linked s)
    (onRecord : OnRecord s head) (current : Current s [head]) :
    Linked (mirrorHead now links s head) := by
  unfold mirrorHead
  split
  · exact linked
  rename_i foreign
  split
  · exact linked
  · exact linked
  rename_i absent _
  obtain ⟨event, member, id, media, protocol⟩ := onRecord
  obtain ⟨stored, found, same⟩ := current head mem_cons_self foreign absent
  refine linked.addOp absent rfl
    (fun _ => ⟨event, member, by rw [id]; rfl, by rw [protocol]; exact foreign⟩) ?_
  rintro projected projectedMember ⟨-, ⟨-, named⟩ | ⟨isNative, -⟩⟩ other otherMember otherMedia
    applied
  · have sameId : head.eventId = projected.id := mirroredOpId_injective named
    obtain rfl := linked.event_eq member projectedMember (id.trans sameId)
    have bound := linked.headNewest head.mediaId stored found other otherMember
      (otherMedia.trans media) applied
    omega
  · cases isNative

theorem Current.after {rest : List ReadingHead} (links : List MediaLink)
    (current : Current s (head :: rest)) : Current (mirrorHead now links s head) rest := by
  intro other member foreign absent
  rw [(mirrorHead_frame _ _).reading]
  refine current other (mem_cons_of_mem _ member) foreign ?_
  cases found : s.findOp (mirroredOpId other.eventId) with
  | none => rfl
  | some row =>
    have grows : LogWrite s (mirrorHead now links s head) := mirrorHead_logWrite links head
    have kept := grows.findOp found
    rw [absent] at kept
    cases kept

/-- The write of a mirror whose heads are current. -/
theorem mirrorWrite_linked {heads : List ReadingHead} (linked : Linked s)
    (onRecord : ∀ head ∈ heads, OnRecord s head) (current : Current s heads) :
    Linked (mirrorWrite now links heads s) := by
  induction heads generalizing s with
  | nil => exact linked
  | cons head rest ih =>
    refine ih ?_ ?_ (current.after links)
    · exact mirrorHead_linked linked (onRecord head mem_cons_self) fun other member =>
        current other (by simp_all)
    intro other member
    unfold OnRecord
    rw [(mirrorHead_frame _ _).reading]
    exact onRecord other (mem_cons_of_mem _ member)

end Steps

/-- What holds along every run whose mirrors write current heads. -/
structure MirrorInvariant (w : MirrorWorld) : Prop where
  linked : Linked w.store
  snapshots : ∀ heads ∈ w.snapshots, ∀ head ∈ heads, OnRecord w.store head

theorem OnRecord.grow (onRecord : OnRecord s head)
    (events : ∀ event ∈ s.reading.events, event ∈ s'.reading.events) : OnRecord s' head := by
  obtain ⟨event, member, facts⟩ := onRecord
  exact ⟨event, events event member, facts⟩

/-- A stored head is on record. -/
theorem Linked.onRecord (linked : Linked s) (member : head ∈ s.reading.heads) :
    OnRecord s head := by
  have found : s.reading.head head.mediaId = some head :=
    (lookup_eq_some_iff linked.headIds).mpr ⟨member, rfl⟩
  obtain ⟨event, eventMember, id, media, protocol, -⟩ := linked.headEvent _ head found
  exact ⟨event, eventMember, id, media, protocol⟩

namespace MirrorInvariant

variable {w next : MirrorWorld}

theorem carry (invariant : MirrorInvariant w) (carries : Carries w.store s) :
    MirrorInvariant { w with store := s } :=
  ⟨carries.linked invariant.linked, fun heads read head member =>
    (invariant.snapshots heads read head member).grow carries.events⟩

theorem step [Host] (invariant : MirrorInvariant w) (transition : MirrorStep Current w next) :
    MirrorInvariant next := by
  cases transition with
  | apply now publication update foreign =>
    refine invariant.carry ⟨fun linked => ?_, fun event member => ?_⟩
    · exact linked.addEvent now publication update (fun liseur => absurd liseur foreign)
        fun _ _ _ liseur => absurd liseur foreign
    · simp only [ReadingState.apply_events]
      exact mem_append_left _ member
  | otherAccount eventSeq later =>
    exact invariant.carry ⟨fun linked => linked.otherAccount later, fun _ => id⟩
  | append now deviceId ops valid =>
    refine invariant.carry ?_
    exact commit_of (.refl _) fun _ _ success => appendOps_carries success
  | read heads order =>
    refine ⟨invariant.linked, ?_⟩
    rintro read (_ | ⟨_, earlier⟩) head member
    · have stored := order.mem_iff.mp member
      exact invariant.linked.onRecord (mem_filter.mp stored).1
    · exact invariant.snapshots read earlier head member
  | @write before after heads under allowed now =>
    have snapshots := invariant.snapshots
    rw [under] at snapshots
    have reading : (mirrorWrite now w.store.links heads w.store).reading = w.store.reading :=
      (mirrorWrite_frame w.store.links heads).reading
    refine ⟨mirrorWrite_linked invariant.linked (snapshots heads (by simp)) allowed, ?_⟩
    intro read member head inRead
    refine (snapshots read ?_ head inRead).grow fun event stored => ?_
    · rcases mem_append.mp member with left | right
      · exact mem_append_left _ left
      · exact mem_append_right _ (mem_cons_of_mem _ right)
    · rw [reading]
      exact stored

theorem initial [Host] (start : (mirrorSystem Current).Initial w) : MirrorInvariant w := by
  obtain ⟨ops, opSeq, reading, snapshots⟩ := start
  refine ⟨⟨?_, ?_⟩, by simp [snapshots]⟩
  · constructor <;> try simp [ops, reading, ReadingState.empty, ReadingState.head, lookup]
    exact ⟨by simp [ops, opSeq], by simp [ops]⟩
  · constructor <;> simp [ops]

end MirrorInvariant

section Sample

local instance mirroringHost : Host := Host.sample

/-- An account with one linked book. -/
def sampleShelf : Store :=
  { sampleReader with
    media := [{
      id := "book", name := "book.epub", path := "/book.epub", pages := 100, hash := none
      koreaderHash := none, deleted := false, visible := true, audio := false, metadata := none }]
    links := [{
      id := "link", mediaId := "book", workId := "work", editionSha := "sha"
      resolutionStatus := .verified, createdAt := "", pairStatus := .confirmed
      pairEvidence := none }] }

/-- Kobo reports a position every hour. -/
def sampleKobo (hour : Nat) (state : ReadingState) : ReadingState :=
  state.apply (sampleHour hour) { mediaId := "book", pages := 100, durationMs := none }
    { protocol := .kobo, deviceId := none, updatedAt := some (sampleHour hour), position := .none
      progression := some (hour / 10), completed := none, rawPayload := .null }

/-- The shelf once kobo reported the first `hours` positions. -/
def sampleRead (hours : Nat) : Store :=
  { sampleShelf with
    reading := (range hours).foldl (fun state hour => sampleKobo (hour + 1) state) .empty }

/-- The heads those positions left. -/
def sampleHeads (hours : Nat) : List ReadingHead := (sampleRead hours).reading.heads

/-- A mirror of those heads. -/
def sampleMirror (hours : Nat) (s : Store) : Store :=
  mirrorWrite (sampleHour 3) s.links (sampleHeads hours) s

/-- The op of the first position, written after the op of the second. -/
def sampleLate : Store := sampleMirror 1 (sampleMirror 2 (sampleRead 2))

theorem sampleKobo_step {guard : Store → List ReadingHead → Prop} (w : MirrorWorld) (hour : Nat) :
    MirrorStep guard w
      { w with store := { w.store with reading := sampleKobo hour w.store.reading } } :=
  .apply _ _ _ nofun

/-- The same account when each mirror writes before the next position comes in. -/
def samplePrompt : Store :=
  sampleMirror 2
    { sampleMirror 1 (sampleRead 1) with reading := (sampleRead 2).reading }

end Sample

end Coppice.LiseurSync
