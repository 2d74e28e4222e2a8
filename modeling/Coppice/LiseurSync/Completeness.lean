import Coppice.LiseurSync.Mirroring

/-!
# Mirroring is complete

When no call interleaves with it, `mirror_heads` leaves an op for every linked
head another protocol moved. The key of that op, `stump-head:` and the event id,
lives among the ids devices choose for their own ops: a device that takes one
first keeps the event out of the log. Runs whose devices leave those keys alone
are complete.
-/

namespace Coppice.LiseurSync

open Coppice.Std Models

/-- The id is not the key of any mirrored op. -/
def Unreserved (op : OpInput) : Prop := ∀ eventId, op.opId ≠ mirroredOpId eventId

section System

variable [Host] {links : List MediaLink} {head : ReadingHead} {heads : List ReadingHead}

/-- The op tells a liseur device the position of the head, for the linked work. -/
structure Tells (op : Op) (link : MediaLink) (head : ReadingHead) : Prop where
  workId : op.workId = link.workId
  progression : op.progression = head.progression
  locator : op.locator = head.locator.map ReadiumLocator.toValue
  clientTs : op.clientTs = Host.toRfc3339Nanos head.updatedAt

/-- Every linked head another protocol moved is told by the log. -/
def Complete (s : Store) : Prop :=
  ∀ link ∈ s.links, ∀ head ∈ s.reading.heads, head.mediaId = link.mediaId →
    head.sourceProtocol ≠ .liseur → ∃ op ∈ s.ops, Tells op link head

/-- The heads a mirror reads, in any order. -/
def ReadOrder (s : Store) (heads : List ReadingHead) : Prop :=
  heads.Perm (s.reading.headsFor (s.links.map MediaLink.mediaId))

/-- Calls that run one after another. -/
inductive SequentialStep (allowed : OpInput → Prop) (s : Store) : Store → Prop where
  | apply (now : Int) (publication : Publication) (update : ProtocolUpdate) :
      SequentialStep allowed s { s with reading := s.reading.apply now publication update }
  | otherAccount (eventSeq : Nat) (later : s.reading.eventSeq ≤ eventSeq) :
      SequentialStep allowed s { s with reading := { s.reading with eventSeq := eventSeq } }
  | append (now : Int) (deviceId : String) (ops : List OpInput)
      (valid : ∀ op ∈ ops, validateOp now op = .ok ()) (admitted : ∀ op ∈ ops, allowed op) :
      SequentialStep allowed s (commit s (appendOps now deviceId s ops)).1
  | mirror (now : Int) (heads : List ReadingHead) (order : ReadOrder s heads) :
      SequentialStep allowed s (mirrorWrite now s.links heads s)

/-- Runs from an account that never read anything; a media row has one link. -/
def sequentialSystem (allowed : OpInput → Prop) : System Store where
  Initial s := s.ops = [] ∧ s.opSeq = 0 ∧ s.reading = .empty ∧
    (s.links.map MediaLink.mediaId).Nodup
  Step := SequentialStep allowed

/-- An op under a mirrored key tells the head its event left, as long as that
head stands. -/
structure Keyed (s : Store) : Prop where
  linkIds : (s.links.map MediaLink.mediaId).Nodup
  heads : s.reading.EventKeyed
  opBound : ∀ op ∈ s.ops, ∀ eventId, op.opId = mirroredOpId eventId →
    eventId ≤ s.reading.eventSeq
  told : ∀ op ∈ s.ops, ∀ head ∈ s.reading.heads, op.opId = mirroredOpId head.eventId →
    ∀ link ∈ s.links, link.mediaId = head.mediaId → Tells op link head

namespace Keyed

variable {now : Int} {deviceId : String} {s s' : Store}

/-- A new head has an event no op is keyed by. -/
theorem apply (keyed : Keyed s) (publication : Publication) (update : ProtocolUpdate) :
    Keyed { s with reading := s.reading.apply now publication update } := by
  have seq := s.reading.apply_eventSeq now publication update
  refine ⟨keyed.linkIds, keyed.heads.apply now publication update, ?_, ?_⟩
  · intro op member eventId id
    simp only [seq]
    exact (keyed.opBound op member eventId id).trans (Nat.le_succ _)
  intro op member head headMember id
  rcases keyed.heads.split now publication update headMember with ⟨old, -⟩ | ⟨-, new⟩
  · exact keyed.told op member head old id
  · have bound := keyed.opBound op member _ id
    omega

/-- An op enters the log: if under a mirrored key, as the op of that head. -/
theorem addOp (keyed : Keyed s) {op : Op}
    (bound : ∀ eventId, op.opId = mirroredOpId eventId → eventId ≤ s.reading.eventSeq)
    (told : ∀ head ∈ s.reading.heads, op.opId = mirroredOpId head.eventId →
      ∀ link ∈ s.links, link.mediaId = head.mediaId → Tells op link head) :
    Keyed (insertOp (nextOpSeq s).1 op) := by
  exact ⟨keyed.linkIds, keyed.heads, forall_mem_concat keyed.opBound bound,
    forall_mem_concat keyed.told told⟩

theorem append {ops : List OpInput} {results : List OpResult}
    (admitted : ∀ op ∈ ops, Unreserved op) (keyed : Keyed s)
    (success : appendOps now deviceId s ops = .ok (s', results)) : Keyed s' := by
  refine Batch.run_keeps ?_ success keyed
  intro index s op next result member item keyed
  obtain ⟨-, progression, -, appended⟩ := appendOp_appended item
  cases appended with
  | repeated | clash => exact keyed
  | recorded absent =>
    have free := admitted op member
    have inserted : Keyed (insertOp (nextOpSeq s).1
        (opRow now deviceId op progression (s.opSeq + 1))) :=
      keyed.addOp (fun eventId id => absurd id (free eventId))
        fun head _ id => absurd id (free head.eventId)
    unfold applyOpToHead
    split
    · exact inserted
    · exact inserted.apply _ _

theorem mirrorHead (keyed : Keyed s) (stored : head ∈ s.reading.heads) :
    Keyed (mirrorHead now s.links s head) := by
  unfold LiseurSync.mirrorHead
  split
  · exact keyed
  split
  · exact keyed
  · exact keyed
  rename_i link _ found
  refine keyed.addOp ?_ ?_
  · intro eventId id
    rw [← mirroredOpId_injective id]
    exact keyed.heads.bound head stored
  intro other member id otherLink linked media
  obtain rfl := keyed.heads.distinct head stored other member (mirroredOpId_injective id)
  have same : lookup MediaLink.mediaId s.links head.mediaId = some otherLink :=
    (lookup_eq_some_iff keyed.linkIds).mpr ⟨linked, media⟩
  rw [found] at same
  cases same
  exact ⟨rfl, rfl, rfl, rfl⟩

theorem mirrorWrite (keyed : Keyed s)
    (stored : ∀ head ∈ heads, head ∈ s.reading.heads) :
    Keyed (mirrorWrite now s.links heads s) := by
  suffices general : ∀ links, links = s.links → Keyed (LiseurSync.mirrorWrite now links heads s)
    from general _ rfl
  intro links same
  induction heads generalizing s with
  | nil => exact keyed
  | cons head rest ih =>
    subst same
    refine ih (keyed.mirrorHead (stored head List.mem_cons_self)) ?_ ?_
    · intro other member
      rw [(mirrorHead_frame _ _).reading]
      exact stored other (List.mem_cons_of_mem _ member)
    · exact (mirrorHead_frame s.links head).links.symm

end Keyed

/-- A linked head of another protocol leaves the log with an op under its key. -/
theorem mirrorHead_files (now : Int) (s : Store) (foreign : head.sourceProtocol ≠ .liseur)
    (linked : lookup MediaLink.mediaId links head.mediaId ≠ none) :
    ∃ op ∈ (mirrorHead now links s head).ops, op.opId = mirroredOpId head.eventId := by
  unfold mirrorHead
  rw [if_neg foreign]
  split
  · rename_i existing found
    exact ⟨existing, lookup_mem found, lookup_key found⟩
  · rename_i missing
    exact absurd missing linked
  · exact ⟨_, List.mem_append_right _ List.mem_cons_self, rfl⟩

theorem mirrorWrite_files (now : Int) (s : Store) (member : head ∈ heads)
    (foreign : head.sourceProtocol ≠ .liseur)
    (linked : lookup MediaLink.mediaId links head.mediaId ≠ none) :
    ∃ op ∈ (mirrorWrite now links heads s).ops, op.opId = mirroredOpId head.eventId := by
  induction heads generalizing s with
  | nil => cases member
  | cons first rest ih =>
    rcases List.mem_cons.mp member with rfl | later
    · obtain ⟨op, filed, id⟩ := mirrorHead_files now s foreign linked
      have grows : LogWrite (mirrorHead now links s head)
        (mirrorWrite now links (head :: rest) s) :=
        mirrorWrite_logWrite links rest
      exact ⟨op, grows.grows.subset filed, id⟩
    · exact ih _ later

theorem Keyed.step {s next : Store} (keyed : Keyed s)
    (transition : SequentialStep Unreserved s next) : Keyed next := by
  cases transition with
  | apply now publication update => exact keyed.apply publication update
  | otherAccount eventSeq later =>
    exact { keyed with
      heads := ⟨fun head member => (keyed.heads.bound head member).trans later,
        keyed.heads.distinct⟩
      opBound := fun op member eventId id => (keyed.opBound op member eventId id).trans later }
  | append now deviceId ops valid admitted =>
    exact commit_of keyed fun _ _ success => keyed.append admitted success
  | mirror now heads order =>
    exact keyed.mirrorWrite fun head member =>
      (List.mem_filter.mp (order.mem_iff.mp member)).1

theorem keyed_of_reachable {s : Store} (reachable : (sequentialSystem Unreserved).Reachable s) :
    Keyed s := by
  refine reachable.invariant (fun s start => ?_) fun s next keyed
    (transition : SequentialStep Unreserved s next) => keyed.step transition
  obtain ⟨ops, -, reading, links⟩ := start
  refine ⟨links, ⟨?_, ?_⟩, ?_, ?_⟩ <;> simp [ops, reading, ReadingState.empty]

/-- In every state a run of calls reaches whose devices leave the mirrored keys
alone, a mirror leaves the log telling every linked head of another protocol. -/
theorem mirrorHeads_complete (s : Store) (reachable : (sequentialSystem Unreserved).Reachable s)
    (now : Int) (heads : List ReadingHead) (order : ReadOrder s heads) :
    Complete (mirrorWrite now s.links heads s) := by
  have keyed := keyed_of_reachable reachable
  have written : Keyed (mirrorWrite now s.links heads s) :=
    keyed.mirrorWrite fun head member => (List.mem_filter.mp (order.mem_iff.mp member)).1
  intro link linked head stored media foreign
  rw [(mirrorWrite_frame _ _).links] at linked
  have before : head ∈ s.reading.heads := by rwa [(mirrorWrite_frame _ _).reading] at stored
  have read : head ∈ heads := by
    refine order.mem_iff.mpr (List.mem_filter.mpr ⟨before, ?_⟩)
    simpa [media] using ⟨link, linked, rfl⟩
  have found : lookup MediaLink.mediaId s.links head.mediaId = some link :=
    (lookup_eq_some_iff keyed.linkIds).mpr ⟨linked, media.symm⟩
  obtain ⟨op, filed, id⟩ := mirrorWrite_files now s read foreign
    (by rw [found]; exact Option.some_ne_none link)
  exact ⟨op, filed, written.told op filed head stored id link
    (by rwa [(mirrorWrite_frame _ _).links]) media.symm⟩

end System

section Sample

local instance completenessHost : Host := Host.sample

/-- A device takes the key of the second event before it happens. -/
def sampleSquatter : OpInput := { sampleOp with opId := "stump-head:2" }

/-- The shelf after that push. -/
def sampleSquatted : Store :=
  (commit sampleShelf (appendOps (sampleHour 1) "a" sampleShelf [sampleSquatter])).1

/-- The shelf after that push, once kobo reported its position. -/
def sampleOvertaken : Store :=
  { sampleSquatted with reading := sampleKobo 2 sampleSquatted.reading }

theorem sampleKobo_sequential {allowed : OpInput → Prop} (s : Store) (hour : Nat) :
    SequentialStep allowed s { s with reading := sampleKobo hour s.reading } :=
  .apply _ _ _

/-- The device's op is not the position kobo reported, and the mirror adds none. -/
theorem squatted_key_blocks_mirror :
    ∃ s, (sequentialSystem fun _ => True).Reachable s ∧ ∃ now heads, ReadOrder s heads ∧
      ¬ Complete (mirrorWrite now s.links heads s) := by
  let system := sequentialSystem fun _ => True
  have start : system.Reachable sampleShelf := .initial ⟨rfl, rfl, rfl, by decide⟩
  have pushed : system.Reachable sampleSquatted := start.step
    (.append (sampleHour 1) "a" [sampleSquatter] (by decide +kernel) fun _ _ => trivial)
  have reported : system.Reachable sampleOvertaken := pushed.step (sampleKobo_sequential _ 2)
  let mirrored := mirrorWrite (sampleHour 3) sampleOvertaken.links sampleOvertaken.reading.heads
    sampleOvertaken
  refine ⟨sampleOvertaken, reported, sampleHour 3, sampleOvertaken.reading.heads,
    by unfold ReadOrder; decide +kernel, fun complete => ?_⟩
  obtain ⟨head, stored, media, foreign, position⟩ :
      ∃ head ∈ mirrored.reading.heads, head.mediaId = "book" ∧ head.sourceProtocol ≠ .liseur ∧
        head.progression = 1 / 5 := by
    decide +kernel
  obtain ⟨link, linked, book⟩ : ∃ link ∈ mirrored.links, link.mediaId = "book" := by
    decide +kernel
  obtain ⟨op, filed, tells⟩ := complete link linked head stored (media.trans book.symm) foreign
  have other : ∀ op ∈ mirrored.ops, op.progression ≠ 1 / 5 := by decide +kernel
  exact other op filed (tells.progression.trans position)

theorem mirrorHeads_complete_sample :
    (mirrorHeads (sampleHour 3) (sampleRead 2)).ops.map Op.progression = [1 / 5] ∧
      Complete (mirrorHeads (sampleHour 3) (sampleRead 2)) := by
  let system := sequentialSystem Unreserved
  have start : system.Reachable (sampleRead 0) := .initial ⟨rfl, rfl, rfl, by decide⟩
  have first : system.Reachable (sampleRead 1) := start.step (sampleKobo_sequential _ 1)
  have second : system.Reachable (sampleRead 2) := first.step (sampleKobo_sequential _ 2)
  exact ⟨by decide +kernel, mirrorHeads_complete _ second _ _ (Host.scan_perm _)⟩

end Sample
end Coppice.LiseurSync
