import Mathlib.Order.OrderIsoNat
import Coppice.CrossPoint.Transfer
import Coppice.Std.System

/-!
# The CrossPoint upload protocol

Client and device exchange frames over two channels that keep their order; the client's
reader task decodes what arrives into a queue of its own. Whatever the device does, a
client that reports success has sent the file after `READY` and before `DONE`. With a
device that keeps to the protocol every run ends, and it ends well unless the `DONE` has
been decoded by the time the client drains the queue after its last chunk.
-/

namespace Coppice.CrossPoint

open Coppice.Std
open List hiding count

section Client

inductive Event where
  | sent (frame : ClientFrame)
  | received (frame : ServerFrame)
deriving DecidableEq, Repr

/-- The client, with what it sent and received so far. -/
structure Client where
  phase : Phase
  log : List Event
deriving DecidableEq

def Input.events : Input → List Event
  | .frame incoming => [.received incoming]
  | _ => []

/-- The data frames among the events. -/
def payloads (log : List Event) : List (List UInt8) :=
  log.filterMap fun event => match event with
    | .sent (.binary payload) => some payload
    | _ => none

/-- The client against a device that may do anything. -/
def clientSystem (upload : Upload) : System Client where
  Initial client := client = ⟨.starting, []⟩
  Step client next := ∃ input frames, upload.Admits client.phase input ∧
    upload.step client.phase input = some (next.phase, frames) ∧
    next.log = client.log ++ input.events ++ frames.map .sent

variable (upload : Upload) {log : List Event} {sent count : Nat} {frame : ServerFrame}
  {frames : List ClientFrame} {phase next : Phase} {client : Client}

/-- After `READY` came, and before any data, the first `sent` bytes of the file went out
in frames of at most a chunk. -/
structure Underway (sent : Nat) (log : List Event) : Prop where
  nonempty : upload.declared ≠ 0
  inFile : sent ≤ upload.file.length
  declared : sent ≤ upload.declared
  frames : ∃ early late, log = early ++ .received (.text "READY") :: late ∧
    payloads early = [] ∧ (payloads late).flatten = upload.file.take sent ∧
    ∀ payload ∈ payloads late, payload.length ≤ upload.client.config.chunkSize

/-- `READY`, then the file and nothing else in frames of at most a chunk, then `DONE`. -/
structure Delivered (log : List Event) : Prop where
  size : upload.file.length = upload.declared
  frames : ∃ early late,
    log = early ++ .received (.text "READY") :: (late ++ [.received (.text "DONE")]) ∧
    payloads early = [] ∧ (payloads late).flatten = upload.file ∧
    ∀ payload ∈ payloads late, payload.length ≤ upload.client.config.chunkSize

/-- What a phase says about the events before it. -/
def Traced : Phase → List Event → Prop
  | .starting, log => payloads log = []
  | .awaitingZero, _ => upload.declared = 0
  | .awaitingReady, log => upload.declared ≠ 0 ∧ payloads log = []
  | .sending sent, log => Underway upload sent log
  | .draining sent, log => Underway upload sent log
  | .checking sent, log => sent = upload.declared ∧ Underway upload sent log
  | .awaitingDone sent, log =>
    sent = upload.declared ∧ sent = upload.file.length ∧ Underway upload sent log
  | .finished (.ok receipt), log =>
    upload.declared ≠ 0 → receipt = upload.receipt upload.declared ∧ Delivered upload log
  | .finished (.error _), _ => True

variable {upload} {more : List Event}

@[simp] theorem payloads_append (left right : List Event) :
    payloads (left ++ right) = payloads left ++ payloads right :=
  filterMap_append

/-- Events without data keep the transfer where it is. -/
theorem Underway.extend (underway : Underway upload sent log)
    (quiet : payloads more = []) : Underway upload sent (log ++ more) := by
  obtain ⟨early, late, rfl, before, sentSoFar, bounded⟩ := underway.frames
  refine ⟨underway.nonempty, underway.inFile, underway.declared, early,
    late ++ more, by simp, before,
    ?_, ?_⟩
  · rw [payloads_append, quiet, append_nil]
    exact sentSoFar
  · rw [payloads_append, quiet, append_nil]
    exact bounded

theorem Underway.send (underway : Underway upload sent log) (chunk : count ≤ upload.readLen sent)
    (there : count ≤ upload.file.length - sent) :
    Underway upload (sent + count)
      (log ++ [.sent (.binary ((upload.file.drop sent).take count))]) := by
  obtain ⟨early, late, rfl, before, sentSoFar, bounded⟩ := underway.frames
  have inFile := underway.inFile
  have declared := underway.declared
  have small : count ≤ upload.declared - sent ∧ count ≤ upload.client.config.chunkSize :=
    le_min_iff.mp chunk
  refine ⟨underway.nonempty, by omega, by omega, early,
    late ++ [.sent (.binary ((upload.file.drop sent).take count))], by simp, before, ?_, ?_⟩
  · have last : payloads [.sent (.binary ((upload.file.drop sent).take count))] =
        [(upload.file.drop sent).take count] := rfl
    rw [payloads_append, flatten_append, sentSoFar, last, take_add]
    simp
  · rw [payloads_append]
    refine forall_mem_append.mpr ⟨bounded, forall_mem_singleton.mpr ?_⟩
    rw [length_take]
    exact (Nat.min_le_left _ _).trans small.2

theorem Underway.deliver (underway : Underway upload sent log) (declared : sent = upload.declared)
    (whole : sent = upload.file.length) : Delivered upload (log ++ [.received (.text "DONE")]) := by
  obtain ⟨early, late, rfl, before, sentSoFar, bounded⟩ := underway.frames
  refine ⟨whole.symm.trans declared, early, late, by simp, before, ?_, bounded⟩
  rw [sentSoFar, whole, take_length]

/-- Events without data keep a client that has not finished where it is. -/
theorem Traced.extend {phase : Phase} (traced : Traced upload phase log)
    (live : ∀ result, phase ≠ .finished result) (quiet : payloads more = []) :
    Traced upload phase (log ++ more) := by
  cases phase with
  | starting =>
    have early : payloads log = [] := traced
    simp [Traced, early, quiet]
  | awaitingZero => exact traced
  | awaitingReady => exact ⟨traced.1, by simp [traced.2, quiet]⟩
  | sending | draining => exact Underway.extend traced quiet
  | checking => exact ⟨traced.1, traced.2.extend quiet⟩
  | awaitingDone => exact ⟨traced.1, traced.2.1, traced.2.2.extend quiet⟩
  | finished result => exact absurd rfl (live result)

variable (upload)

/-- What a step of the client can be, with the frames it sends. -/
inductive ClientStep : Phase → Input → Phase → List ClientFrame → Prop where
  | start : ClientStep .starting .proceed
      (if upload.declared = 0 then .awaitingZero else .awaitingReady) [.text upload.start]
  | waits {phase : Phase} {frame : ServerFrame} {frames : List ClientFrame}
      (live : ∀ result, phase ≠ .finished result)
      (quiet : frames = [] ∨ ∃ payload, frames = [.pong payload]) :
      ClientStep phase (.frame frame) phase frames
  | fails {phase : Phase} {input : Input} (error : CrossPointError)
      (outside : input = .closed ∨ ∃ frame, input = .frame frame) :
      ClientStep phase input (.fail error) []
  | empty {frame : ServerFrame} :
      ClientStep .awaitingZero (.frame frame) (.finished (.ok (upload.receipt 0))) []
  | ready : ClientStep .awaitingReady (.frame (.text "READY")) (.sending 0) []
  | chunk {sent count : Nat} {phase : Phase} {frames : List ClientFrame}
      (more : sent < upload.declared) (result : upload.sendChunk sent count = (phase, frames)) :
      ClientStep (.sending sent) (.read count) phase frames
  | reached {sent : Nat} (all : ¬ sent < upload.declared) :
      ClientStep (.sending sent) .proceed (.checking sent) []
  | drained {sent : Nat} : ClientStep (.draining sent) .nothing (.sending sent) []
  | checked {sent count : Nat} : ClientStep (.checking sent) (.read count)
      (if count ≠ 0 then .fail (.sourceChanged upload.declared sent) else .awaitingDone sent) []
  | done {sent : Nat} : ClientStep (.awaitingDone sent) (.frame (.text "DONE"))
      (.finished (.ok (upload.receipt sent))) []

variable {upload}

theorem clientStep_fails (error : CrossPointError) :
    ClientStep upload phase (.frame frame) (.fail error) [] :=
  .fails error (.inr ⟨frame, rfl⟩)

theorem recvText_step {onText : Option String → Phase} (live : ∀ result, phase ≠ .finished result)
    (onward : ∀ text, ClientStep upload phase (.frame (.text text)) (onText (some text)) [])
    (received : recvText phase onText (some frame) = (next, frames)) :
    ClientStep upload phase (.frame frame) next frames := by
  cases frame with
  | text text =>
    cases received
    exact onward text
  | binary | close payload =>
    cases received
    exact clientStep_fails _
  | ping payload =>
    cases received
    exact .waits live (.inr ⟨payload, rfl⟩)
  | pong =>
    cases received
    exact .waits live (.inl rfl)

theorem drainAvailable_step (drained : drainAvailable sent frame = (next, frames)) :
    ClientStep upload (.draining sent) (.frame frame) next frames := by
  cases frame with
  | text text =>
    unfold drainAvailable at drained
    simp only at drained
    split at drained
    · cases drained
      exact .waits nofun (.inl rfl)
    · split at drained <;> cases drained <;> exact clientStep_fails _
  | binary | close payload =>
    cases drained
    exact clientStep_fails _
  | ping payload =>
    cases drained
    exact .waits nofun (.inr ⟨payload, rfl⟩)
  | pong =>
    cases drained
    exact .waits nofun (.inl rfl)

theorem onZero_step (text : String) :
    ClientStep upload .awaitingZero (.frame (.text text)) (upload.onZero (some text)) [] := by
  unfold Upload.onZero
  simp only
  split
  · exact .empty
  · split <;> exact clientStep_fails _

theorem onReady_step (text : String) :
    ClientStep upload .awaitingReady (.frame (.text text)) (Upload.onReady (some text)) [] := by
  unfold Upload.onReady
  simp only
  split
  · rename_i same
    exact same ▸ .ready
  · split <;> exact clientStep_fails _

theorem onDone_step (text : String) : ClientStep upload (.awaitingDone sent) (.frame (.text text))
    (upload.onDone sent (some text)) [] := by
  unfold Upload.onDone
  simp only
  split
  · rename_i same
    exact same ▸ .done
  split
  · exact clientStep_fails _
  split
  · split
    · exact clientStep_fails _
    · exact .waits nofun (.inl rfl)
  · exact clientStep_fails _

theorem clientStep_of_step {input : Input}
    (stepped : upload.step phase input = some (next, frames)) :
    ClientStep upload phase input next frames := by
  unfold Upload.step at stepped
  split at stepped
  · cases stepped
    exact .start
  · exact recvText_step nofun onZero_step (Option.some.inj stepped)
  · cases stepped
    exact .fails _ (.inl rfl)
  · exact recvText_step nofun onReady_step (Option.some.inj stepped)
  · cases stepped
    exact .fails _ (.inl rfl)
  · split at stepped
    · exact .chunk ‹_› (Option.some.inj stepped)
    · cases stepped
  · split at stepped <;> cases stepped
    exact .reached ‹_›
  · exact drainAvailable_step (Option.some.inj stepped)
  · cases stepped
    exact .drained
  · cases stepped
    exact .checked
  · exact recvText_step nofun onDone_step (Option.some.inj stepped)
  · cases stepped
    exact .fails _ (.inl rfl)
  · cases stepped

/-- A chunk goes out, or the transfer fails. -/
theorem sendChunk_cases (result : upload.sendChunk sent count = (next, frames)) :
    (frames = [] ∧ ∃ error, next = .fail error) ∨ count ≠ 0 ∧ next = .draining (sent + count) ∧
      frames = [.binary ((upload.file.drop sent).take count)] := by
  unfold Upload.sendChunk sendBinary at result
  split at result
  · cases result
    exact .inl ⟨rfl, _, rfl⟩
  rename_i nonzero
  split at result <;> rename_i shape <;> split at shape <;> cases shape <;> cases result
  · exact .inl ⟨rfl, _, rfl⟩
  · exact .inr ⟨nonzero, rfl, rfl⟩

/-- One step of the client, wait by wait. -/
theorem traced_step {input : Input} (traced : Traced upload phase log)
    (admits : upload.Admits phase input) (step : ClientStep upload phase input next frames) :
    Traced upload next (log ++ input.events ++ frames.map .sent) := by
  cases step with
  | start =>
    have nothing : payloads log = [] := traced
    split
    · assumption
    rename_i nonempty
    refine ⟨nonempty, ?_⟩
    rw [payloads_append, payloads_append, nothing]
    rfl
  | waits live quiet =>
    rw [append_assoc]
    refine traced.extend live ?_
    rcases quiet with rfl | ⟨payload, rfl⟩ <;> rfl
  | fails error => exact trivial
  | empty => exact fun nonempty => absurd traced nonempty
  | ready =>
    obtain ⟨nonempty, early⟩ := traced
    exact ⟨nonempty, Nat.zero_le _, Nat.zero_le _, log, [], by simp [Input.events],
      early, rfl, nofun⟩
  | chunk more result =>
    rcases sendChunk_cases result with ⟨rfl, error, rfl⟩ | ⟨-, rfl, rfl⟩
    · exact trivial
    · have reads : upload.Reads _ _ _ := admits
      simpa [Input.events, Traced] using Underway.send traced (reads.1.trans (min_le_left _ _))
        (reads.1.trans (min_le_right _ _))
  | reached all =>
    have underway : Underway upload _ log := traced
    exact ⟨le_antisymm underway.declared (not_lt.mp all), by simpa [Input.events] using underway⟩
  | drained =>
    have underway : Underway upload _ log := traced
    simpa [Input.events, Traced] using underway
  -- the file has not grown
  | checked =>
    obtain ⟨declared, underway⟩ := traced
    have inFile := underway.inFile
    split
    · exact trivial
    rename_i none
    have ended := admits.2 (not_not.mp none)
    refine ⟨declared, by omega, ?_⟩
    simpa [Input.events] using underway
  | done =>
    obtain ⟨declared, whole, underway⟩ := traced
    refine fun _ => ⟨by rw [declared], ?_⟩
    simpa [Input.events] using underway.deliver declared whole

/-- The events of a client are those its phase tells of. -/
def Client.Sound (upload : Upload) (client : Client) : Prop := Traced upload client.phase client.log

variable (reachable : (clientSystem upload).Reachable client)
include reachable

theorem sound_of_reachable_client
    : client.Sound upload := by
  refine reachable.invariant ?_ ?_
  · rintro _ rfl
    rfl
  rintro client next traced ⟨input, frames, admits, stepped, log⟩
  unfold Client.Sound
  rw [log]
  exact traced_step traced admits (clientStep_of_step stepped)

/-- Whatever the device does, a client that reports success for a file with content has
sent it whole, after `READY` and before `DONE`. -/
theorem delivered_of_success
    {receipt : UploadReceipt} (success : client.phase = .finished (.ok receipt))
    (nonempty : upload.declared ≠ 0) :
    receipt = upload.receipt upload.declared ∧ Delivered upload client.log := by
  have traced := sound_of_reachable_client reachable
  unfold Client.Sound at traced
  rw [success] at traced
  exact traced nonempty

end Client

section World

/-- A device that keeps to the protocol: what it has received, and last reported. -/
inductive Device where
  | waiting
  | receiving (received reported : Nat)
  | finished
deriving DecidableEq, Repr

def progressText (count declared : Nat) : String :=
  "PROGRESS:" ++ count.repr ++ ":" ++ declared.repr

/-- The client, the frames on their way in both directions, those already decoded, the
device, and how many more reports it is going to send; with whether a drain met the `DONE`. -/
structure UploadWorld where
  phase : Phase
  toDevice : List ClientFrame
  wire : List ServerFrame
  inbound : List ServerFrame
  device : Device
  reportsLeft : Nat
  drainedDone : Bool
deriving DecidableEq

def Phase.drains : Phase → Bool
  | draining _ => true
  | _ => false

/-- The capacity of the queue of decoded frames. -/
def inboundCapacity : Nat := 128

/-- One move of the client, its reader task or the device. -/
inductive UploadStep (upload : Upload) : UploadWorld → UploadWorld → Prop where
  | act {world : UploadWorld} {phase : Phase} {frames : List ClientFrame} (input : Input)
      (own : input = .proceed ∨ ∃ count, input = .read count)
      (admits : upload.Admits world.phase input)
      (stepped : upload.step world.phase input = some (phase, frames)) :
      UploadStep upload world
        { world with phase := phase, toDevice := world.toDevice ++ frames }
  | take {world : UploadWorld} {phase : Phase} {frames : List ClientFrame} {frame : ServerFrame}
      {rest : List ServerFrame} (decoded : world.inbound = frame :: rest)
      (stepped : upload.step world.phase (.frame frame) = some (phase, frames)) :
      UploadStep upload world
        { world with
          phase := phase
          toDevice := world.toDevice ++ frames
          inbound := rest
          drainedDone := world.drainedDone || (world.phase.drains && frame = .text "DONE") }
  | idle {world : UploadWorld} {phase : Phase} {frames : List ClientFrame}
      (empty : world.inbound = [])
      (stepped : upload.step world.phase .nothing = some (phase, frames)) :
      UploadStep upload world
        { world with phase := phase, toDevice := world.toDevice ++ frames }
  | decode {world : UploadWorld} {frame : ServerFrame} {rest : List ServerFrame}
      (arrived : world.wire = frame :: rest) (room : world.inbound.length < inboundCapacity) :
      UploadStep upload world { world with wire := rest, inbound := world.inbound ++ [frame] }
  | accept {world : UploadWorld} {text : String} {rest : List ClientFrame}
      (arrived : world.toDevice = .text text :: rest) (waiting : world.device = .waiting) :
      UploadStep upload world
        { world with
          toDevice := rest
          wire := world.wire ++ [.text (if upload.declared = 0 then "DONE" else "READY")]
          device := if upload.declared = 0 then .finished else .receiving 0 0 }
  | absorb {world : UploadWorld} {payload : List UInt8} {rest : List ClientFrame}
      {received reported : Nat} (arrived : world.toDevice = .binary payload :: rest)
      (receiving : world.device = .receiving received reported) :
      UploadStep upload world
        { world with toDevice := rest, device := .receiving (received + payload.length) reported }
  | report {world : UploadWorld} {received reported count left : Nat}
      (receiving : world.device = .receiving received reported) (since : reported ≤ count)
      (known : count ≤ received) (more : world.reportsLeft = left + 1) :
      UploadStep upload world
        { world with
          wire := world.wire ++ [.text (progressText count upload.declared)]
          device := .receiving received count
          reportsLeft := left }
  | complete {world : UploadWorld} {reported : Nat}
      (receiving : world.device = .receiving upload.declared reported) :
      UploadStep upload world
        { world with wire := world.wire ++ [.text "DONE"], device := .finished }

/-- An upload to a device that keeps to the protocol, with any number of reports. -/
def uploadSystem (upload : Upload) : System UploadWorld where
  Initial world := ∃ reports, world = ⟨.starting, [], [], [], .waiting, reports, false⟩
  Step := UploadStep upload

end World

section Texts

variable {count sent declared : Nat}

theorem startsWith_progressText : startsWith "PROGRESS:" (progressText count declared) = true := by
  unfold progressText
  rw [String.append_assoc, String.append_assoc]
  exact startsWith_append _ _

theorem progressText_ne_done : progressText count declared ≠ "DONE" := by
  intro same
  have starts := @startsWith_progressText count declared
  rw [same] at starts
  exact absurd starts (by decide)

theorem not_startsWith_error : startsWith "ERROR:" (progressText count declared) = false := by
  unfold progressText startsWith
  simp only [String.toList_append]
  rfl

theorem split_progressText :
    split ':' (progressText count declared) = ["PROGRESS", count.repr, declared.repr] := by
  have shape : progressText count declared =
      ":".intercalate ["PROGRESS", count.repr, declared.repr] := by
    simp [progressText, String.intercalate_cons_cons, ← String.append_assoc]
  rw [shape]
  exact @split_intercalate ':' _ (cons_ne_nil _ _)
    (by simpa using ⟨notMem_toDigits rfl count, notMem_toDigits rfl declared⟩)

/-- A report within bounds is valid. -/
theorem validateProgress_progressText (fits : declared < 2 ^ 64) (known : count ≤ sent)
    (within : count ≤ declared) :
    validateProgress (progressText count declared) sent declared = .ok () := by
  unfold validateProgress
  rw [split_progressText]
  have received : progressField (some count.repr) "malformed PROGRESS byte count" = .ok count := by
    simp [progressField, parseU64_repr (lt_of_le_of_lt within fits)]
  have total : progressField (some declared.repr) "malformed PROGRESS total" = .ok declared := by
    simp [progressField, parseU64_repr fits]
  simp only [getElem?_cons_succ, getElem?_cons_zero, received, total]
  simp [bind, Except.bind, not_lt.mpr known, not_lt.mpr within]

end Texts

variable {world next : UploadWorld} {upload : Upload} {sent : Nat}

section Exchange

variable (upload : Upload) {pending : List ServerFrame} {rest out : List ClientFrame}
  {received reported : Nat} {phase' : Phase} {device : Device}
  {result : Except CrossPointError UploadReceipt}

/-- Reports of at most `bound` bytes. -/
def Reports (bound : Nat) (frames : List ServerFrame) : Prop :=
  ∀ frame ∈ frames, ∃ count, count ≤ bound ∧ frame = .text (progressText count upload.declared)

/-- The client has `READY` and has sent so much; it checks and waits at the end only. -/
inductive Moving : Phase → Nat → Prop where
  | sending (sent : Nat) : Moving (.sending sent) sent
  | draining (sent : Nat) : Moving (.draining sent) sent
  | checking : Moving (.checking upload.declared) upload.declared
  | awaitingDone : Moving (.awaitingDone upload.declared) upload.declared

/-- Where client and device stand, with what is on its way to the device and back. -/
inductive Exchange : Phase → List ClientFrame → List ServerFrame → Device → Prop where
  | starting : Exchange .starting [] [] .waiting
  | askedZero (zero : upload.declared = 0) :
      Exchange .awaitingZero [.text upload.start] [] .waiting
  | asked (nonempty : upload.declared ≠ 0) :
      Exchange .awaitingReady [.text upload.start] [] .waiting
  | empty (zero : upload.declared = 0) : Exchange .awaitingZero [] [.text "DONE"] .finished
  | ready {frames : List ServerFrame} {reported : Nat} (nonempty : upload.declared ≠ 0)
      (reports : Reports upload 0 frames) :
      Exchange .awaitingReady [] (.text "READY" :: frames) (.receiving 0 reported)
  | moving {phase : Phase} {sent received reported : Nat} {payloads : List (List UInt8)}
      {frames : List ServerFrame} (moving : Moving upload phase sent)
      (declared : sent ≤ upload.declared) (nonempty : upload.declared ≠ 0)
      (flying : received + payloads.flatten.length = sent)
        (full : ∀ payload ∈ payloads, payload ≠ [])
      (reports : Reports upload received frames) :
      Exchange phase (payloads.map .binary) frames (.receiving received reported)
  | delivered {phase : Phase} {frames : List ServerFrame}
      (moving : Moving upload phase upload.declared)
      (reports : Reports upload upload.declared frames) :
      Exchange phase [] (frames ++ [.text "DONE"]) .finished

/-- How an upload ends: well, unless a drain met the `DONE`. -/
def Outcome (drainedDone : Bool) (result : Except CrossPointError UploadReceipt) : Prop :=
  result = if drainedDone then
      .error (.protocolText "unexpected message during transfer" "DONE")
    else .ok (upload.receipt upload.declared)

/-- The upload is under way, or has ended. -/
inductive InProtocol (world : UploadWorld) : Prop where
  | running (undrained : world.drainedDone = false)
      (exchange : Exchange upload world.phase world.toDevice (world.inbound ++ world.wire)
        world.device)
  | ended (result : Except CrossPointError UploadReceipt)
    (finished : world.phase = .finished result)
      (outcome : Outcome upload world.drainedDone result)

variable {upload} {bound : Nat}

theorem Reports.mono {more : Nat} {frames : List ServerFrame}
    (reports : Reports upload bound frames)
    (later : bound ≤ more) : Reports upload more frames := by
  intro frame member
  obtain ⟨count, known, rfl⟩ := reports frame member
  exact ⟨count, known.trans later, rfl⟩

theorem Reports.concat {frames : List ServerFrame}
    (reports : Reports upload bound frames) (known : count ≤ bound) :
    Reports upload bound (frames ++ [.text (progressText count upload.declared)]) :=
  forall_mem_append.mpr ⟨reports, forall_mem_singleton.mpr ⟨count, known, rfl⟩⟩

theorem Reports.tail {frames : List ServerFrame}
    (reports : Reports upload bound (frame :: frames)) : Reports upload bound frames :=
  (forall_mem_cons.1 reports).2

/-- The client takes a report wherever it can meet one. -/
theorem step_report (moving : Moving upload phase sent) (known : count ≤ sent)
    (within : count ≤ upload.declared)
    (stepped : upload.step phase (.frame (.text (progressText count upload.declared))) =
      some (phase', frames)) : phase' = phase ∧ frames = [] := by
  cases moving with
  | sending sent | checking => cases stepped
  | draining sent =>
    have drained := Option.some.inj stepped
    unfold drainAvailable at drained
    simp only [startsWith_progressText, if_true] at drained
    cases drained
    exact ⟨rfl, rfl⟩
  | awaitingDone =>
    have received := Option.some.inj stepped
    unfold recvText Upload.onDone at received
    simp only [progressText_ne_done, if_false, not_startsWith_error, Bool.false_eq_true,
      startsWith_progressText, if_true,
      validateProgress_progressText upload.fits known within] at received
    cases received
    exact ⟨rfl, rfl⟩

/-- A chunk of an unchanging file is read and fits a frame. -/
theorem step_chunk (unchanging : upload.file.length = upload.declared)
    (more : sent < upload.declared) (reads : upload.Reads sent (upload.readLen sent) count)
    (result : upload.sendChunk sent count = (phase, frames)) :
    ∃ payload, payload ≠ [] ∧ sent + payload.length ≤ upload.declared ∧
      phase = .draining (sent + payload.length) ∧ frames = [.binary payload] := by
  have chunk := upload.client.chunkPositive
  have framed := upload.client.chunkBounded
  obtain ⟨most, some⟩ := reads
  simp only [Upload.readLen] at most some
  have nonzero : count ≠ 0 := fun zero => by have none := some zero; omega
  have length : ((upload.file.drop sent).take count).length = count := by
    rw [length_take, length_drop]
    omega
  have content : (upload.file.drop sent).take count ≠ [] := by
    intro empty
    rw [empty] at length
    exact nonzero length.symm
  have fits : ¬ ((upload.file.drop sent).take count = [] ∨
      maxFrameBytes < ((upload.file.drop sent).take count).length) := by
    rintro (empty | large)
    · exact content empty
    · omega
  unfold Upload.sendChunk sendBinary at result
  rw [if_neg nonzero, if_neg fits] at result
  cases result
  exact ⟨_, content, by rw [length]; omega, by rw [length], rfl⟩

/-- A step of the client on its own, or on an empty queue, leaves the device where it is. -/
theorem exchange_act {input : Input} (unchanging : upload.file.length = upload.declared)
    (exchange : Exchange upload phase out pending device) (quiet : ∀ frame, input ≠ .frame frame)
    (opened : input ≠ .closed) (admits : upload.Admits phase input)
    (step : ClientStep upload phase input phase' frames) :
    Exchange upload phase' (out ++ frames) pending device := by
  cases step with
  | start =>
    cases exchange with
    | starting =>
      split
      · rename_i zero
        exact .askedZero zero
      · rename_i nonempty
        exact .asked nonempty
    | moving moving | delivered moving => cases moving
  | waits | empty | ready | done => exact absurd rfl (quiet _)
  | fails error outside =>
    rcases outside with rfl | ⟨frame, rfl⟩
    · exact absurd rfl opened
    · exact absurd rfl (quiet _)
  | chunk more result =>
    obtain ⟨payload, content, within, rfl, rfl⟩ := step_chunk unchanging more admits result
    cases exchange with
    | moving moving declared nonempty flying full reports =>
      rename_i received reported payloads
      cases moving
      have longer : payloads.map ClientFrame.binary ++ [.binary payload] =
          (payloads ++ [payload]).map .binary := by simp
      rw [longer]
      refine .moving (.draining _) within nonempty ?_ ?_ reports
      · rw [flatten_append, length_append]
        simp only [flatten_singleton]
        omega
      · exact forall_mem_append.mpr ⟨full, forall_mem_singleton.mpr content⟩
    | delivered moving =>
      cases moving
      exact absurd more (lt_irrefl _)
  | reached all =>
    rw [append_nil]
    cases exchange with
    | moving moving declared nonempty flying full reports =>
      cases moving
      obtain rfl := le_antisymm declared (not_lt.mp all)
      exact .moving .checking declared nonempty flying full reports
    | delivered moving reports =>
      cases moving
      exact .delivered .checking reports
  | drained =>
    rw [append_nil]
    cases exchange with
    | moving moving declared nonempty flying full reports =>
      cases moving
      exact .moving (.sending _) declared nonempty flying full reports
    | delivered moving reports =>
      cases moving
      exact .delivered (.sending _) reports
  -- nothing is left to read at the declared size
  | checked =>
    rename_i sent count
    rw [append_nil]
    have most : count ≤ min 1 (upload.file.length - sent) := admits.1
    cases exchange with
    | moving moving declared nonempty flying full reports =>
      cases moving
      have zero : count = 0 := by omega
      rw [if_neg (not_not.mpr zero)]
      exact .moving .awaitingDone declared nonempty flying full reports
    | delivered moving reports =>
      cases moving
      have zero : count = 0 := by omega
      rw [if_neg (not_not.mpr zero)]
      exact .delivered .awaitingDone reports

/-- The client takes the next pending frame: it goes on, or ends as the frame decides. -/
theorem exchange_take (exchange : Exchange upload phase out (frame :: pending) device)
    (stepped : upload.step phase (.frame frame) = some (phase', frames)) :
    (Exchange upload phase' (out ++ frames) pending device ∧
        (phase.drains && frame = .text "DONE") = false) ∨
      ∃ result, phase' = .finished result ∧
        Outcome upload (phase.drains && frame = .text "DONE") result := by
  generalize whole : frame :: pending = all at exchange
  cases exchange with
  | starting | askedZero | asked => cases whole
  | empty zero =>
    cases whole
    cases stepped
    exact .inr ⟨.ok (upload.receipt 0), rfl, by rw [← zero]; rfl⟩
  | ready nonempty reports =>
    cases whole
    cases stepped
    refine .inl ⟨?_, rfl⟩
    have none : ([] : List ClientFrame) = ([] : List (List UInt8)).map .binary := rfl
    rw [append_nil, none]
    exact .moving (.sending 0) (Nat.zero_le _) nonempty rfl nofun reports
  | moving moving declared nonempty flying full reports =>
    subst whole
    obtain ⟨count, known, rfl⟩ := reports _ mem_cons_self
    obtain ⟨rfl, rfl⟩ := step_report moving (by omega) (by omega) stepped
    rw [append_nil]
    refine .inl ⟨.moving moving declared nonempty flying full reports.tail, ?_⟩
    simp [progressText_ne_done]
  | delivered moving reports =>
    rename_i before
    cases before with
    | cons first before =>
      cases whole
      obtain ⟨count, known, rfl⟩ := reports _ mem_cons_self
      obtain ⟨rfl, rfl⟩ := step_report moving known known stepped
      refine .inl ⟨.delivered moving reports.tail, ?_⟩
      simp [progressText_ne_done]
    | nil =>
      cases whole
      refine .inr ?_
      cases moving with
      | sending | checking => cases stepped
      | draining | awaitingDone =>
        cases stepped
        exact ⟨_, rfl, rfl⟩

/-- One move of the device, with the frames it sends and what it takes. -/
theorem exchange_accept {text : String}
    (exchange : Exchange upload phase (.text text :: rest) pending .waiting) :
    Exchange upload phase rest
      (pending ++ [.text (if upload.declared = 0 then "DONE" else "READY")])
      (if upload.declared = 0 then .finished else .receiving 0 0) := by
  generalize whole : ClientFrame.text text :: rest = out at exchange
  cases exchange with
  | starting => cases whole
  | askedZero zero =>
    cases whole
    rw [if_pos zero, if_pos zero]
    exact .empty zero
  | asked nonempty =>
    cases whole
    rw [if_neg nonempty, if_neg nonempty]
    exact .ready nonempty nofun

theorem exchange_absorb {payload : List UInt8}
    (exchange : Exchange upload phase (.binary payload :: rest) pending
      (.receiving received reported)) :
    Exchange upload phase rest pending (.receiving (received + payload.length) reported) := by
  generalize whole : ClientFrame.binary payload :: rest = out at exchange
  cases exchange with
  | ready => cases whole
  | moving moving declared nonempty flying full reports =>
    rename_i sent payloads
    cases payloads with
    | nil => cases whole
    | cons first payloads =>
      obtain ⟨same, rfl⟩ := cons.inj whole
      obtain rfl := ClientFrame.binary.inj same
      rw [flatten_cons, length_append] at flying
      exact .moving moving declared nonempty (by omega)
        (forall_mem_cons.1 full).2
        (reports.mono (Nat.le_add_right _ _))

theorem exchange_report (known : count ≤ received)
    (exchange : Exchange upload phase out pending (.receiving received reported)) :
    Exchange upload phase out (pending ++ [.text (progressText count upload.declared)])
      (.receiving received count) := by
  cases exchange with
  | ready nonempty reports => exact .ready nonempty (reports.concat known)
  | moving moving declared nonempty flying full reports =>
    exact .moving moving declared nonempty flying full (reports.concat known)

theorem exchange_complete
    (exchange : Exchange upload phase out pending (.receiving upload.declared reported)) :
    Exchange upload phase out (pending ++ [.text "DONE"]) .finished := by
  generalize received : upload.declared = count at exchange
  cases exchange with
  | ready nonempty => exact absurd received nonempty
  | moving moving declared nonempty flying full reports =>
    rename_i sent payloads
    -- all is received, and what is on its way is not empty
    have landed : payloads = [] := by
      cases payloads with
      | nil => rfl
      | cons payload payloads =>
        have content := length_pos_of_ne_nil (full payload mem_cons_self)
        rw [flatten_cons, length_append] at flying
        omega
    subst landed
    obtain rfl : sent = upload.declared := by
      omega
    exact .delivered moving (received ▸ reports)

theorem step_finished (input : Input) : upload.step (.finished result) input = none := by
  cases input <;> rfl

theorem not_exchange_finished : ¬ Exchange upload (.finished result) out pending device := by
  intro exchange
  cases exchange with
  | moving moving | delivered moving => cases moving

theorem inProtocol_step (unchanging : upload.file.length = upload.declared)
    (inProtocol : InProtocol upload world) (step : UploadStep upload world next) :
    InProtocol upload next := by
  cases inProtocol with
  | ended result finished outcome =>
    cases step with
    | act _ _ _ stepped | take _ stepped | idle _ stepped =>
      rw [finished, step_finished] at stepped
      cases stepped
    | decode | accept | absorb | report | complete => exact .ended result finished outcome
  | running undrained exchange =>
    cases step with
    | act input own admits stepped =>
      refine .running undrained
        (exchange_act unchanging exchange ?_ ?_ admits (clientStep_of_step stepped))
      · rintro frame rfl
        rcases own with other | ⟨count, other⟩ <;> cases other
      · rintro rfl
        rcases own with other | ⟨count, other⟩ <;> cases other
    | take decoded stepped =>
      rw [decoded, cons_append] at exchange
      rcases exchange_take exchange stepped with ⟨on, other⟩ | ⟨result, rfl, outcome⟩
      · refine .running ?_ on
        simp only [undrained, other, Bool.or_false]
      · refine .ended result rfl ?_
        simp only [undrained, Bool.false_or]
        exact outcome
    | idle empty stepped =>
      have admits : upload.Admits world.phase .nothing := by
        unfold Upload.Admits
        split <;> trivial
      exact .running undrained
        (exchange_act unchanging exchange (fun _ other => by cases other)
          (fun other => by cases other) admits (clientStep_of_step stepped))
    | decode arrived room =>
      refine .running undrained ?_
      rw [arrived] at exchange
      simpa using exchange
    | accept arrived waiting =>
      rw [arrived, waiting] at exchange
      refine .running undrained ?_
      rw [← append_assoc]
      exact exchange_accept exchange
    | absorb arrived receiving =>
      rw [arrived, receiving] at exchange
      exact .running undrained (exchange_absorb exchange)
    | report receiving since known more =>
      rw [receiving] at exchange
      refine .running undrained ?_
      rw [← append_assoc]
      exact exchange_report known exchange
    | complete receiving =>
      rw [receiving] at exchange
      refine .running undrained ?_
      rw [← append_assoc]
      exact exchange_complete exchange

theorem inProtocol_of_reachable (unchanging : upload.file.length = upload.declared)
    (reachable : (uploadSystem upload).Reachable world) : InProtocol upload world := by
  refine reachable.invariant ?_ ?_
  · rintro _ ⟨reports, rfl⟩
    exact .running rfl .starting
  · intro before after inProtocol step
    exact inProtocol_step unchanging inProtocol step

end Exchange

section Progress

/-- A client that waits for frames is handed the next one, or it is decoded. -/
theorem canStep_of_pending (pending : world.inbound ++ world.wire ≠ [])
    (takes : ∀ frame, ∃ phase frames,
      upload.step world.phase (.frame frame) = some (phase, frames)) :
    ∃ next, UploadStep upload world next := by
  cases decoded : world.inbound with
  | cons frame rest =>
    obtain ⟨phase, frames, stepped⟩ := takes frame
    exact ⟨_, .take decoded stepped⟩
  | nil =>
    rw [decoded, nil_append] at pending
    obtain ⟨frame, rest, arrived⟩ := exists_cons_of_ne_nil pending
    refine ⟨_, .decode arrived ?_⟩
    rw [decoded]
    decide

theorem canStep_of_act {input : Input} (own : input = .proceed ∨ ∃ count, input = .read count)
    (admits : upload.Admits world.phase input)
    (moves : ∃ out, upload.step world.phase input = some out) :
    ∃ next, UploadStep upload world next := by
  obtain ⟨⟨phase, frames⟩, stepped⟩ := moves
  exact ⟨_, .act input own admits stepped⟩

/-- A read may return all that is asked for and there. -/
theorem reads_all (upload : Upload) (sent limit : Nat) :
    upload.Reads sent limit (min limit (upload.file.length - sent)) :=
  ⟨le_refl _, id⟩

/-- A client that has `READY` moves on by itself until it waits for `DONE`. -/
theorem canStep_of_moving (moving : Moving upload world.phase sent)
    (before : world.phase ≠ .awaitingDone upload.declared) :
    ∃ next, UploadStep upload world next := by
  generalize current : world.phase = phase at moving before
  cases moving with
  | sending =>
    by_cases more : sent < upload.declared
    · refine canStep_of_act (.inr ⟨min (upload.readLen sent) (upload.file.length - sent), rfl⟩) ?_
        ?_
      · rw [current]
        exact reads_all _ _ _
      · rw [current]
        exact ⟨_, if_pos more⟩
    · refine canStep_of_act (.inl rfl) ?_ ?_
      · rw [current]
        trivial
      · rw [current]
        exact ⟨_, if_neg more⟩
  | draining =>
    cases decoded : world.inbound with
    | cons frame rest =>
      refine canStep_of_pending (by simp [decoded]) fun frame => ?_
      rw [current]
      exact ⟨_, _, rfl⟩
    | nil =>
      have idles : upload.step world.phase .nothing = some (.sending sent, []) := by
        rw [current]
        rfl
      exact ⟨_, .idle decoded idles⟩
  | checking =>
    refine canStep_of_act (.inr ⟨min 1 (upload.file.length - upload.declared), rfl⟩) ?_ ?_
    · rw [current]
      exact reads_all _ _ _
    · rw [current]
      exact ⟨_, rfl⟩
  | awaitingDone => exact absurd rfl before

/-- An upload that has not ended can go on. -/
theorem canStep_of_running
    (exchange : Exchange upload world.phase world.toDevice (world.inbound ++ world.wire)
      world.device) : ∃ next, UploadStep upload world next := by
  generalize current : world.phase = phase at exchange
  generalize onTheWay : world.toDevice = out at exchange
  generalize pending : world.inbound ++ world.wire = frames at exchange
  generalize there : world.device = device at exchange
  cases exchange with
  | starting =>
    refine canStep_of_act (.inl rfl) ?_ ?_
    · rw [current]
      trivial
    · rw [current]
      exact ⟨_, rfl⟩
  | askedZero | asked => exact ⟨_, .accept onTheWay there⟩
  | empty | ready =>
    refine canStep_of_pending (by simp [pending]) fun frame => ?_
    rw [current]
    exact ⟨_, _, rfl⟩
  | moving moving declared nonempty flying full reports =>
    subst current
    by_cases before : world.phase = .awaitingDone upload.declared
    · rename_i sent received reported payloads
      cases payloads with
      | cons payload payloads => exact ⟨_, .absorb onTheWay there⟩
      | nil =>
        rw [before] at moving
        cases moving
        rw [flatten_nil, length_nil, Nat.add_zero] at flying
        rw [flying] at there
        exact ⟨_, .complete there⟩
    · exact canStep_of_moving moving before
  | delivered moving reports =>
    subst current
    by_cases before : world.phase = .awaitingDone upload.declared
    · refine canStep_of_pending (by simp [pending]) fun frame => ?_
      rw [before]
      exact ⟨_, _, rfl⟩
    · exact canStep_of_moving moving before

end Progress

section Termination

/-- How far a phase is from the end. -/
def Phase.rank (declared : Nat) : Phase → Nat
  | starting => 2 * declared + 7
  | awaitingZero => 2 * declared + 6
  | awaitingReady => 2 * declared + 6
  | sending sent => 2 * (declared - sent) + 4
  | draining sent => 2 * (declared - sent) + 5
  | checking _ => 3
  | awaitingDone _ => 2
  | finished _ => 0

/-- What a frame to the device can still set off: the answer to a text is a frame, and
reports and a `DONE` after it. -/
def ClientFrame.cost : ClientFrame → Nat
  | text _ => 8
  | binary _ => 1
  | pong _ => 1

def Device.potential : Device → Nat
  | waiting => 0
  | receiving _ _ => 4
  | finished => 0

/-- What every step uses up. -/
def UploadWorld.budget (declared : Nat) (world : UploadWorld) : Nat :=
  16 * world.phase.rank declared + (world.toDevice.map ClientFrame.cost).sum +
    world.device.potential + 3 * world.wire.length + 2 * world.inbound.length +
    4 * world.reportsLeft

/-- A step of the client brings it nearer to the end, or takes a frame and stays. -/
theorem step_rank {input : Input} (step : ClientStep upload phase input phase' frames) :
    (phase'.rank upload.declared < phase.rank upload.declared ∧
        (frames.map ClientFrame.cost).sum ≤ 8) ∨
      (phase'.rank upload.declared ≤ phase.rank upload.declared ∧
        (frames.map ClientFrame.cost).sum ≤ 1 ∧
          (input = .closed ∨ ∃ frame, input = .frame frame)) := by
  cases step with
  | start =>
    refine .inl ⟨?_, le_refl _⟩
    split <;> simp [Phase.rank]
  | waits live quiet =>
    refine .inr ⟨le_refl _, ?_, .inr ⟨_, rfl⟩⟩
    rcases quiet with rfl | ⟨payload, rfl⟩ <;> simp [ClientFrame.cost]
  | fails error outside => exact .inr ⟨Nat.zero_le _, Nat.zero_le _, outside⟩
  | empty | ready | done =>
    refine .inr ⟨?_, Nat.zero_le _, .inr ⟨_, rfl⟩⟩
    simp [Phase.rank]
  | chunk more result =>
    left
    rcases sendChunk_cases result with ⟨rfl, error, rfl⟩ | ⟨nonzero, rfl, rfl⟩
    · exact ⟨by simp [Phase.rank, Phase.fail], Nat.zero_le _⟩
    · refine ⟨?_, by simp [ClientFrame.cost]⟩
      simp only [Phase.rank]
      omega
  | reached | drained =>
    refine .inl ⟨?_, Nat.zero_le _⟩
    simp only [Phase.rank]
    omega
  | checked => split <;> simp [Phase.rank, Phase.fail]

theorem budget_step (step : UploadStep upload world next) :
    next.budget upload.declared < world.budget upload.declared := by
  cases step with
  | act input own admits stepped =>
    rcases step_rank (clientStep_of_step stepped) with ⟨nearer, cheap⟩ | ⟨-, -, rfl | ⟨frame, rfl⟩⟩
    · simp only [UploadWorld.budget, map_append, sum_append]
      omega
    · rcases own with other | ⟨count, other⟩ <;> cases other
    · rcases own with other | ⟨count, other⟩ <;> cases other
  | take decoded stepped =>
    simp only [UploadWorld.budget, map_append, sum_append, decoded, length_cons]
    rcases step_rank (clientStep_of_step stepped) with ⟨nearer, cheap⟩ | ⟨nearer, cheap, -⟩
    · omega
    · omega
  | idle empty stepped =>
    rcases step_rank (clientStep_of_step stepped) with
      ⟨nearer, cheap⟩ | ⟨-, -, other | ⟨frame, other⟩⟩
    · simp only [UploadWorld.budget, map_append, sum_append]
      omega
    · cases other
    · cases other
  | decode arrived room =>
    simp only [UploadWorld.budget, arrived, length_append, length_cons, length_nil]
    omega
  | accept arrived waiting =>
    simp only [UploadWorld.budget, arrived, waiting, length_append, length_cons,
      length_nil, map_cons, sum_cons, ClientFrame.cost]
    split <;> simp only [Device.potential] <;> omega
  | absorb arrived receiving =>
    simp only [UploadWorld.budget, arrived, receiving, map_cons, sum_cons,
      ClientFrame.cost, Device.potential]
    omega
  | report receiving since known more =>
    simp only [UploadWorld.budget, receiving, more, length_append, length_cons,
      length_nil, Device.potential]
    omega
  | complete receiving =>
    simp only [UploadWorld.budget, receiving, length_append, length_cons,
      length_nil, Device.potential]
    omega

theorem no_endless_upload (run : Nat → UploadWorld) :
    ¬ ∀ n, UploadStep upload (run n) (run (n + 1)) := by
  intro steps
  exact not_strictAnti_of_wellFoundedLT (fun n => (run n).budget upload.declared)
    (strictAnti_nat_of_succ_lt fun n => budget_step (steps n))

end Termination

section Upload

/-- An upload of a file that does not change, to a device that keeps to the protocol,
never gets stuck and never runs on for ever; it ends with the declared number of bytes
exactly when the drain after the last chunk did not meet the `DONE`. Whatever the device
does, success means that the file went out whole between `READY` and `DONE`. -/
theorem upload_succeeds_iff (upload : Upload) :
    (upload.file.length = upload.declared →
      (∀ world, (uploadSystem upload).Reachable world →
        (∃ result, world.phase = .finished result) ∨
          ∃ next, (uploadSystem upload).Step world next) ∧
      (∀ run : Nat → UploadWorld, ¬ ∀ n, (uploadSystem upload).Step (run n) (run (n + 1))) ∧
      ∀ world result, (uploadSystem upload).Reachable world → world.phase = .finished result →
        (result = .ok (upload.receipt upload.declared) ↔ world.drainedDone = false)) ∧
    ∀ client receipt, (clientSystem upload).Reachable client →
      client.phase = .finished (.ok receipt) → upload.declared ≠ 0 →
      receipt = upload.receipt upload.declared ∧ Delivered upload client.log := by
  refine ⟨fun unchanging => ⟨?_, no_endless_upload, ?_⟩, ?_⟩
  · intro world reachable
    cases inProtocol_of_reachable unchanging reachable with
    | running undrained exchange => exact .inr (canStep_of_running exchange)
    | ended result finished => exact .inl ⟨result, finished⟩
  · intro world result reachable ends
    cases inProtocol_of_reachable unchanging reachable with
    | running undrained exchange =>
      rw [ends] at exchange
      exact absurd exchange not_exchange_finished
    | ended other finished outcome =>
      obtain rfl : result = other := Phase.finished.inj (ends.symm.trans finished)
      rw [outcome]
      cases world.drainedDone <;> simp
  · intro client receipt reachable success nonempty
    exact delivered_of_success reachable success nonempty

/-- A file of one byte. -/
def oneByteUpload : Upload := ⟨⟨⟨1, 1, 1⟩, by decide, by decide⟩, "a.epub", "/", [7], 1, by decide⟩

/-- The byte is on its way, and the client is about to drain the queue. -/
theorem oneByteUpload_sent : (uploadSystem oneByteUpload).Reachable
    ⟨.draining 1, [.binary [7]], [], [], .receiving 0 0, 0, false⟩ := by
  have start : (uploadSystem oneByteUpload).Reachable
      ⟨.starting, [], [], [], .waiting, 0, false⟩ := .initial ⟨0, rfl⟩
  have asked := start.step (.act .proceed (.inl rfl) trivial rfl)
  have accepted := asked.step (.accept rfl rfl)
  have heard := accepted.step (.decode rfl (by decide))
  have ready := heard.step (.take rfl rfl)
  exact ready.step (.act (.read 1) (.inr ⟨1, rfl⟩) (reads_all oneByteUpload 0 1) rfl)

/-- The device answers after the drain. -/
theorem upload_succeeds_iff_sample :
    oneByteUpload.file.length = oneByteUpload.declared ∧
      ∃ world, (uploadSystem oneByteUpload).Reachable world ∧ world.drainedDone = false ∧
        world.phase = .finished (.ok ⟨"a.epub", "/", 1⟩) := by
  have idle := oneByteUpload_sent.step (.idle rfl rfl)
  have reached := idle.step (.act .proceed (.inl rfl) trivial rfl)
  have checked := reached.step
    (.act (.read 0) (.inr ⟨0, rfl⟩) (reads_all oneByteUpload 1 1) rfl)
  have absorbed := checked.step (.absorb rfl rfl)
  have done := absorbed.step (.complete rfl)
  have decoded := done.step (.decode rfl (by decide))
  have ended := decoded.step (.take rfl rfl)
  have outcome := ((upload_succeeds_iff oneByteUpload).1 rfl).2.2 _ _ ended rfl
  exact ⟨rfl, _, ended, rfl, congrArg Phase.finished (outcome.mpr rfl)⟩

/-- The device answers as soon as it has the byte, and its `DONE` is decoded before the
client drains the queue. -/
theorem early_done_fails_upload :
    oneByteUpload.file.length = oneByteUpload.declared ∧
      ∃ world, (uploadSystem oneByteUpload).Reachable world ∧
        world.phase =
          .finished (.error (.protocolText "unexpected message during transfer" "DONE")) := by
  have absorbed := oneByteUpload_sent.step (.absorb rfl rfl)
  have done := absorbed.step (.complete rfl)
  have decoded := done.step (.decode rfl (by decide))
  have drained := decoded.step (.take rfl rfl)
  exact ⟨rfl, _, drained, rfl⟩

end Upload

end Coppice.CrossPoint
