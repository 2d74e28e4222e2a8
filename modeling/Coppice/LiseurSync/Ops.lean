import Coppice.LiseurSync.Wire

/-!
# The position op log

`appendOps` is the transaction that takes a batch of a device's position ops:
each op that is new to the log gets the next sequence number and moves the
reading head of the media its work is linked to. `mirrorHeads` appends an op for
every linked head another protocol moved. Its heads are read before its write
transaction opens, so the read and the write are separate functions here.
-/

namespace Coppice.LiseurSync

open Coppice.Std Models

/-- The idempotency key of the op that mirrors the head an event left. -/
def mirroredOpId (eventId : Nat) : String := "stump-head:" ++ toString eventId

/-- The next op position of the account. -/
def nextOpSeq (s : Store) : Store × Nat := ({ s with opSeq := s.opSeq + 1 }, s.opSeq + 1)

/-- Add one row to the log. -/
def insertOp (s : Store) (op : Op) : Store := { s with ops := s.ops ++ [op] }

/-- `f64::EPSILON`. -/
def epsilon : ℚ := 1 / 2 ^ 52

section Calls

variable [Host]

/-- `now_string` at an instant. -/
def nowString (now : Int) : String := Host.toRfc3339Nanos now

/-- The media a work resolved to: the query names no order, so any link of the
work may be the one read. -/
def linkedMedia (s : Store) (workId : String) : Option Media :=
  match Host.scan (s.links.filter fun link => link.workId = workId) with
  | [] => none
  | link :: _ => s.mediaById link.mediaId

/-- The update an accepted op makes. The locator counts only when it reads as a
Readium locator that names a resource. -/
def opUpdate (deviceId : String) (op : OpInput) (progression : ℚ) : ProtocolUpdate :=
  { protocol := .liseur
    deviceId := some deviceId
    updatedAt := (Host.parseFromRfc3339 op.clientTs).toOption
    position := match (op.locator.bind ReadiumLocator.fromValue).filter (·.href ≠ "") with
      | some locator => .locator locator
      | none => .none
    progression := some progression
    completed := if 1 ≤ progression then some true else none
    rawPayload := op.toValue }

/-- Project an accepted op onto the reading head of the media its work is
linked to. -/
def applyOpToHead (now : Int) (s : Store) (deviceId : String) (op : OpInput) (progression : ℚ) :
    Store :=
  match linkedMedia s op.workId with
  | none => s
  | some media =>
    { s with
      reading := s.reading.apply now
        { mediaId := media.id, pages := media.pages, durationMs := none }
        (opUpdate deviceId op progression) }

/-- Whether a stored op is the op a device sends again. -/
def opMatches (row : Op) (op : OpInput) (progression : ℚ) : Bool :=
  row.workId = op.workId && row.editionSha = op.editionSha && row.clientTs = op.clientTs &&
    |row.progression - progression| < epsilon && row.locator = op.locator &&
    row.foreignPos = op.foreignPos

/-- The row an op of a device is stored as. -/
def opRow (now : Int) (deviceId : String) (op : OpInput) (progression : ℚ) (seq : Nat) : Op :=
  { seq := seq
    opId := op.opId
    workId := op.workId
    editionSha := op.editionSha
    deviceId := deviceId
    clientTs := op.clientTs
    progression := progression
    locator := op.locator
    foreignPos := op.foreignPos
    origin := .native
    receivedAt := nowString now }

/-- One op of a batch. A missing progression panics in the source, which drops
the transaction; `validateOp` never lets one through. -/
def appendOp (now : Int) (deviceId : String) (itemIndex : Nat) (s : Store) (op : OpInput) :
    Txn (Store × OpResult) :=
  if s.workExists op.workId = false then
    .error (.itemRefusal 400 "unknown_work" ("unknown work: " ++ op.workId) (some itemIndex)
      none (some op.opId) (some op.workId) none)
  else
    match op.progression with
    | none => .error (.internal "validated progression")
    | some progression =>
      match s.findOp op.opId with
      | some existing =>
        if opMatches existing op progression then
          .ok (s, { opId := op.opId, status := .duplicate, seq := some existing.seq
                    reason := none })
        else
          .ok (s, { opId := op.opId, status := .conflict, seq := none
                    reason := some "op_id was already used with a different payload" })
      | none =>
        let (s, seq) := nextOpSeq s
        let s := insertOp s (opRow now deviceId op progression seq)
        .ok (applyOpToHead now s deviceId op progression,
          { opId := op.opId, status := .applied, seq := some seq, reason := none })

/-- The write transaction of a pushed batch. -/
def appendOps (now : Int) (deviceId : String) (s : Store) (ops : List OpInput) :
    Txn (Store × List OpResult) :=
  Batch.run (appendOp now deviceId) 0 s ops

/-- The op that mirrors a head. -/
def mirrorRow (now : Int) (link : MediaLink) (head : ReadingHead) (seq : Nat) : Op :=
  { seq := seq
    opId := mirroredOpId head.eventId
    workId := link.workId
    editionSha := some link.editionSha
    deviceId := head.sourceDeviceId.getD ("stump:" ++ head.sourceProtocol.text)
    clientTs := Host.toRfc3339Nanos head.updatedAt
    progression := head.progression
    locator := head.locator.map ReadiumLocator.toValue
    foreignPos := none
    origin := .mirrored head.sourceProtocol
    receivedAt := nowString now }

/-- One head of the write transaction: skip a head liseur moved itself, one
already mirrored, and one without a link. -/
def mirrorHead (now : Int) (links : List MediaLink) (s : Store) (head : ReadingHead) : Store :=
  if head.sourceProtocol = .liseur then s
  else
    match s.findOp (mirroredOpId head.eventId), lookup MediaLink.mediaId links head.mediaId with
    | some _, _ => s
    | none, none => s
    | none, some link =>
      let (s, seq) := nextOpSeq s
      insertOp s (mirrorRow now link head seq)

/-- The write transaction of `mirrorHeads`, over links and heads read earlier. -/
def mirrorWrite (now : Int) (links : List MediaLink) (heads : List ReadingHead) (s : Store) :
    Store :=
  heads.foldl (mirrorHead now links) s

/-- The heads of the linked media, in the order the map yields them. -/
def mirrorRead (links : List MediaLink) (s : Store) : List ReadingHead :=
  Host.scan (s.reading.headsFor (links.map MediaLink.mediaId))

/-- A call nothing interleaves with. -/
def mirrorHeads (now : Int) (s : Store) : Store :=
  mirrorWrite now s.links (mirrorRead s.links s) s

end Calls
end Coppice.LiseurSync
