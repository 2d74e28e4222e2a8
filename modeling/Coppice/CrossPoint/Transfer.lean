import Coppice.Std.Text

/-!
# The CrossPoint transfer client

`upload_inner` of `crosspoint/src/transfer.rs` as a machine that moves from one `await` to
the next. What it meets there is its `Input`: what a read of the file returns, the next
frame its reader task has decoded, or that there is none. Deadlines are not modelled. A
message that the source prints with `{:?}` is kept apart from the text around it, and a
close frame's payload stands for its reason.
-/

namespace Coppice.CrossPoint

open Coppice.Std

/-- Maximum binary payload in one client frame. -/
def maxFrameBytes : Nat := 2048

/-- The firmware parses the decimal START size through a signed long. -/
def maxUploadBytes : Nat := 2147483647

inductive CrossPointError where
  | sizeLimit (size maximum : Nat)
  | sourceChanged (declared sent : Nat)
  | protocol (message : String)
  | protocolText (message text : String)
  | serverClosed (payload : List UInt8)
  | remote (message : String)
deriving DecidableEq, Repr

structure TransferConfig where
  timeout : Nat
  chunkSize : Nat
  maxUploadBytes : Nat
deriving DecidableEq, Repr

/-- Validate and normalize settings: the chunk size is capped by the frame size. -/
def TransferConfig.validated (config : TransferConfig) : Except CrossPointError TransferConfig :=
  if config.timeout = 0 then .error (.protocol "transfer timeout must be positive")
  else if config.chunkSize = 0 then .error (.protocol "chunk size must be positive")
  else if config.maxUploadBytes = 0 ∨ CrossPoint.maxUploadBytes < config.maxUploadBytes then
    .error (.sizeLimit config.maxUploadBytes CrossPoint.maxUploadBytes)
  else .ok { config with chunkSize := min config.chunkSize maxFrameBytes }

theorem TransferConfig.validated_ok {config valid : TransferConfig}
    (accepted : config.validated = .ok valid) :
    0 < valid.chunkSize ∧ valid.chunkSize ≤ maxFrameBytes := by
  unfold validated at accepted
  split at accepted
  · cases accepted
  split at accepted
  · cases accepted
  split at accepted
  · cases accepted
  · cases accepted
    simp only [maxFrameBytes]
    omega

/-- A client holds settings that were validated. -/
structure CrossPointClient where
  config : TransferConfig
  chunkPositive : 0 < config.chunkSize
  chunkBounded : config.chunkSize ≤ maxFrameBytes
deriving DecidableEq

def CrossPointClient.new (config : TransferConfig) : Except CrossPointError CrossPointClient :=
  match accepted : config.validated with
  | .error refusal => .error refusal
  | .ok valid =>
    have bounds := TransferConfig.validated_ok accepted
    .ok ⟨valid, bounds.1, bounds.2⟩

structure UploadReceipt where
  filename : String
  path : String
  bytes : Nat
deriving DecidableEq, Repr

/-- A frame from the device, as the reader task hands it on. -/
inductive ServerFrame where
  | text (text : String)
  | binary
  | ping (payload : List UInt8)
  | pong
  | close (payload : List UInt8)
deriving DecidableEq, Repr

inductive ClientFrame where
  | text (text : String)
  | binary (payload : List UInt8)
  | pong (payload : List UInt8)
deriving DecidableEq, Repr

/-- One call of `upload_inner`: the size in the file's metadata is a `u64`. -/
structure Upload where
  client : CrossPointClient
  filename : String
  targetPath : String
  file : List UInt8
  declared : Nat
  fits : declared < 2 ^ 64
deriving DecidableEq

namespace Upload

def start (upload : Upload) : String :=
  "START:" ++ upload.filename ++ ":" ++ upload.declared.repr ++ ":" ++ upload.targetPath

def receipt (upload : Upload) (bytes : Nat) : UploadReceipt :=
  ⟨upload.filename, upload.targetPath, bytes⟩

end Upload

def remoteError (text : String) : CrossPointError :=
  let message := trim ((stripStart "ERROR:" text).getD text)
  if containsText "already exists" (toAsciiLowercase message) then
    .remote "file already exists (overwrite is never attempted)"
  else .remote message

/-- A decimal field of a progress report. -/
def progressField (field : Option String) (message : String) : Except CrossPointError Nat :=
  match field with
  | none => .error (.protocol "malformed PROGRESS")
  | some digits => (parseU64 digits).elim (.error (.protocol message)) .ok

def validateProgress (text : String) (sent declared : Nat) : Except CrossPointError Unit := do
  let fields := split ':' text
  if fields.head? ≠ some "PROGRESS" then .error (.protocol "malformed PROGRESS")
  else
    let received ← progressField fields[1]? "malformed PROGRESS byte count"
    let total ← progressField fields[2]? "malformed PROGRESS total"
    if fields[3]?.isSome ∨ total ≠ declared ∨ sent < received ∨ total < received then
      .error (.protocol "inconsistent PROGRESS values")
    else .ok ()

def sendBinary (payload : List UInt8) : Except CrossPointError ClientFrame :=
  if payload = [] ∨ maxFrameBytes < payload.length then
    .error (.protocol "binary frame must be 1..=2048 bytes")
  else .ok (.binary payload)

/-- Where `upload_inner` waits. -/
inductive Phase where
  | starting
  | awaitingZero
  | awaitingReady
  | sending (sent : Nat)
  | draining (sent : Nat)
  | checking (sent : Nat)
  | awaitingDone (sent : Nat)
  | finished (result : Except CrossPointError UploadReceipt)
deriving DecidableEq

/-- What it meets there. -/
inductive Input where
  | proceed
  | read (count : Nat)
  | frame (frame : ServerFrame)
  | closed
  | nothing
deriving DecidableEq, Repr

def Phase.fail (error : CrossPointError) : Phase := .finished (.error error)

/-- `recv_text`: pings are answered and pongs skipped until a text comes, or the end. -/
def recvText (waiting : Phase) (onText : Option String → Phase) :
    Option ServerFrame → Phase × List ClientFrame
  | none => (onText none, [])
  | some (.text text) => (onText (some text), [])
  | some (.ping payload) => (waiting, [.pong payload])
  | some .pong => (waiting, [])
  | some .binary => (.fail (.protocol "unexpected binary frame from server"), [])
  | some (.close payload) => (.fail (.serverClosed payload), [])

/-- `drain_available`, on a frame that has already been decoded. -/
def drainAvailable (sent : Nat) : ServerFrame → Phase × List ClientFrame
  | .ping payload => (.draining sent, [.pong payload])
  | .pong => (.draining sent, [])
  | .text text =>
    if startsWith "PROGRESS:" text then (.draining sent, [])
    else if startsWith "ERROR:" text then (.fail (remoteError text), [])
    else (.fail (.protocolText "unexpected message during transfer" text), [])
  | .binary => (.fail (.protocol "unexpected binary frame during transfer"), [])
  | .close payload => (.fail (.serverClosed payload), [])

namespace Upload

variable (upload : Upload)

def onZero : Option String → Phase
  | some text =>
    if text = "DONE" then .finished (.ok (upload.receipt 0))
    else if startsWith "ERROR:" text then .fail (remoteError text)
    else .fail (.protocolText "expected DONE for zero-byte upload, got" text)
  | none => .fail (.protocol "peer closed before zero-byte completion")

def onReady : Option String → Phase
  | some text =>
    if text = "READY" then .sending 0
    else if startsWith "ERROR:" text then .fail (remoteError text)
    else .fail (.protocolText "expected READY, got" text)
  | none => .fail (.protocol "peer closed before READY")

def onDone (sent : Nat) : Option String → Phase
  | some text =>
    if text = "DONE" then .finished (.ok (upload.receipt sent))
    else if startsWith "ERROR:" text then .fail (remoteError text)
    else if startsWith "PROGRESS:" text then
      match validateProgress text sent upload.declared with
      | .error error => .fail error
      | .ok () => .awaitingDone sent
    else .fail (.protocolText "unexpected completion message" text)
  | none => .fail (.protocol "peer closed before DONE")

/-- The buffer a chunk is read into. -/
def readLen (sent : Nat) : Nat := min (upload.declared - sent) upload.client.config.chunkSize

/-- A chunk that was read is sent; reading nothing means that the file got shorter. -/
def sendChunk (sent count : Nat) : Phase × List ClientFrame :=
  if count = 0 then (.fail (.sourceChanged upload.declared sent), [])
  else
    match sendBinary ((upload.file.drop sent).take count) with
    | .error error => (.fail error, [])
    | .ok frame => (.draining (sent + count), [frame])

/-- From one wait to the next, with the frames sent in between. -/
def step : Phase → Input → Option (Phase × List ClientFrame)
  | .starting, .proceed =>
    some (if upload.declared = 0 then .awaitingZero else .awaitingReady, [.text upload.start])
  | .awaitingZero, .frame frame => some (recvText .awaitingZero upload.onZero (some frame))
  | .awaitingZero, .closed => some (recvText .awaitingZero upload.onZero none)
  | .awaitingReady, .frame frame => some (recvText .awaitingReady onReady (some frame))
  | .awaitingReady, .closed => some (recvText .awaitingReady onReady none)
  | .sending sent, .read count =>
    if sent < upload.declared then some (upload.sendChunk sent count) else none
  | .sending sent, .proceed => if sent < upload.declared then none else some (.checking sent, [])
  | .draining sent, .frame frame => some (drainAvailable sent frame)
  | .draining sent, .nothing => some (.sending sent, [])
  -- the file must not have grown since its size was declared
  | .checking sent, .read count =>
    some (if count ≠ 0 then .fail (.sourceChanged upload.declared sent) else .awaitingDone sent,
      [])
  | .awaitingDone sent, .frame frame =>
    some (recvText (.awaitingDone sent) (upload.onDone sent) (some frame))
  | .awaitingDone sent, .closed => some (recvText (.awaitingDone sent) (upload.onDone sent) none)
  | _, _ => none

/-- A read at the end of what was sent returns no more than asked for and there, and
nothing only where there is nothing. -/
def Reads (sent limit count : Nat) : Prop :=
  count ≤ min limit (upload.file.length - sent) ∧
    (count = 0 → min limit (upload.file.length - sent) = 0)

/-- What the file may answer where it is read. -/
def Admits : Phase → Input → Prop
  | .sending sent, .read count => upload.Reads sent (upload.readLen sent) count
  | .checking sent, .read count => upload.Reads sent 1 count
  | _, _ => True

end Upload
end Coppice.CrossPoint
