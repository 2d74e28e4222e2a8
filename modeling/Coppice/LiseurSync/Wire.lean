import Coppice.Models.Store

/-!
# The liseur-sync wire

The request and response types of the protocol, the checks a request passes
before it reaches the storage layer, and what a client without the extended
capability is shown. A check that fails names the first rule it broke.
-/

namespace Coppice.LiseurSync

open Coppice.Std Models

def maxIdBytes : Nat := 64
def maxReferenceBytes : Nat := 128
def maxClientTsBytes : Nat := 64
def maxLocatorBytes : Nat := 16 * 1024
def maxExcerptBytes : Nat := 1024
def maxBodyBytes : Nat := 16 * 1024

/-- One work identity alias. -/
structure Identifier where
  kind : String
  value : String
deriving DecidableEq, Repr

structure ResolveRequest where
  identifiers : List Identifier
  title : Option String
  author : Option String
  confirmed : Bool
deriving DecidableEq, Repr

/-- How sure a resolution is. -/
inductive Confidence where
  | high
  | low
deriving DecidableEq, Repr

structure ResolveResult where
  workId : String
  confidence : Confidence
  created : Bool
deriving DecidableEq, Repr

/-- A position operation sent by a device. -/
structure OpInput where
  opId : String
  workId : String
  editionSha : Option String
  clientTs : String
  progression : Option ℚ
  locator : Option Json
  foreignPos : Option String
deriving DecidableEq, Repr

/-- `serde_json::to_value` of an op, the provenance of its reading-head event. -/
def OpInput.toValue (op : OpInput) : Json :=
  .obj [("client_ts", .str op.clientTs), ("edition_sha", Json.ofOption .str op.editionSha),
    ("foreign_pos", Json.ofOption .str op.foreignPos),
    ("locator", Json.ofOption id op.locator), ("op_id", .str op.opId),
    ("progression", Json.ofOption .float op.progression), ("work_id", .str op.workId)]

/-- What became of one pushed item. -/
inductive PushStatus where
  | applied
  | duplicate
  | conflict
  | invalid
deriving DecidableEq, Repr

structure OpResult where
  opId : String
  status : PushStatus
  seq : Option Nat
  reason : Option String
deriving DecidableEq, Repr

/-- The members an optional field adds when it is present. -/
def present (key : String) (value : Option Json) : List (String × Json) :=
  value.toList.map fun value => (key, value)

/-- Batched annotation input; revision zero creates a record. -/
structure AnnotationInput where
  id : String
  baseRev : Int
  workId : String
  editionSha : Option String
  kind : String
  locator : Option Json
  progression : Option ℚ
  excerpt : String
  color : Option String
  drawer : Option String
  body : String
  clientTs : String
deriving DecidableEq, Repr

/-- Current annotation state, or a deletion tombstone. -/
structure AnnotationRecord where
  id : String
  rev : Int
  seq : Nat
  workId : Option String
  editionSha : Option String
  kind : Option String
  locator : Option Json
  progression : Option ℚ
  excerpt : Option String
  color : Option String
  drawer : Option String
  body : Option String
  deviceId : Option String
  clientTs : Option String
  updatedAt : String
  deleted : Bool
  deletedAt : Option String
deriving DecidableEq, Repr

structure AnnotationResult where
  id : String
  status : PushStatus
  rev : Option Int
  seq : Option Nat
  reason : Option String
  server : Option AnnotationRecord
deriving DecidableEq, Repr

structure DeleteAnnotationResult where
  id : String
  status : PushStatus
  rev : Int
  seq : Nat
  server : Option AnnotationRecord
deriving DecidableEq, Repr

/-- The palette stored without lossy mapping. -/
def annotationColors : List String :=
  ["yellow", "green", "blue", "pink", "purple", "orange", "red", "olive", "cyan", "gray"]

/-- The highlight drawer styles. -/
def annotationDrawers : List String := ["lighten", "underline", "strikeout", "invert"]

/-- The palette clients without the extended capability understand. -/
def liseurAnnotationColors : List String :=
  ["yellow", "green", "blue", "pink", "purple", "orange"]

/-- A client without the extended capability sees no drawer, and no color
outside its palette. -/
def annotationRecordForClient (record : AnnotationRecord) (supportsExtended : Bool) :
    AnnotationRecord :=
  if supportsExtended then record
  else
    { record with
      color := record.color.filter fun color => color ∈ liseurAnnotationColors
      drawer := none }

section Validation

variable {input : AnnotationInput}

/-- Refuse unless a condition holds. -/
def ensure {ε : Type} (condition : Prop) [Decidable condition] (refusal : ε) : Except ε Unit :=
  if condition then .ok () else .error refusal

theorem ensure_eq_ok {ε : Type} {condition : Prop} [Decidable condition] {refusal : ε} {u : Unit} :
    ensure condition refusal = .ok u ↔ condition := by
  unfold ensure
  split <;> simp_all

variable [Host]

/-- A refused op: its code, its message and the limit it names. -/
abbrev OpRefusal := String × String × Option Nat

/-- A day in nanoseconds: how far ahead of the server a device clock may run. -/
def day : Int := 24 * 60 * 60 * second

def validateOp (now : Int) (op : OpInput) : Except OpRefusal Unit := do
  ensure (op.opId ≠ "" ∧ byteLen op.opId ≤ maxIdBytes)
    ("missing_field", "op_id required (at most 64 bytes)", none)
  ensure (op.workId ≠ "" ∧ byteLen op.workId ≤ maxReferenceBytes)
    ("missing_field", "work_id required (at most 128 bytes)", none)
  ensure (∀ editionSha ∈ op.editionSha, byteLen editionSha ≤ maxReferenceBytes)
    ("missing_field", "edition_sha too large", none)
  let progression ← match op.progression with
    | some progression => .ok progression
    | none => .error ("missing_field", "progression required", none)
  ensure (0 ≤ progression ∧ progression ≤ 1)
    ("progression_out_of_range", "progression out of range [0,1]", none)
  ensure (∀ locator ∈ op.locator, Host.jsonByteSize locator ≤ maxLocatorBytes)
    ("locator_too_large", "locator too large", some maxLocatorBytes)
  ensure (byteLen op.clientTs ≤ maxClientTsBytes) ("bad_time", "bad client_ts", none)
  let timestamp ← match Host.parseFromRfc3339 op.clientTs with
    | .ok timestamp => .ok timestamp
    | .error _ => .error ("bad_time", "bad client_ts", none)
  ensure (timestamp ≤ now + day) ("time_in_future", "client_ts is too far in the future", none)

def validateTimestamp (now : Int) (value : String) (allowFuture : Bool) : Option Int :=
  if maxClientTsBytes < byteLen value then none
  else
    match Host.parseFromRfc3339 value with
    | .ok timestamp =>
      if allowFuture = false ∧ now + day < timestamp then none else some timestamp
    | .error _ => none

/-- The rules each kind of annotation has for its content. -/
def validateKind (input : AnnotationInput) : Except String Unit := do
  let locatorPresent := input.locator.any fun value => !value.isNull
  match input.kind with
  | "note" => ensure (input.body ≠ "") "a note requires a body"
  | "highlight" => ensure (locatorPresent = true) "highlight requires a locator"
  | "bookmark" => ensure (locatorPresent = true) "bookmark requires a locator"
  | _ => .error "kind must be highlight, note or bookmark"
  ensure (input.kind = "bookmark" → input.body = "") "a bookmark carries no body"

/-- The rules for the color and drawer of a highlight. -/
def validateStyle (input : AnnotationInput) : Except String Unit := do
  let color := input.color.getD ""
  ensure (color ≠ "" → color ∈ annotationColors) "color must be one of the palette tokens"
  ensure (color ≠ "" → input.kind = "highlight") "color belongs to a highlight"
  let drawer := input.drawer.getD ""
  ensure (drawer ≠ "" → drawer ∈ annotationDrawers)
    "drawer must be one of the KOReader highlight styles"
  ensure (drawer ≠ "" → input.kind = "highlight") "drawer belongs to a highlight"

def validateAnnotation (now : Int) (input : AnnotationInput) : Except String Unit := do
  ensure (input.id ≠ "" ∧ byteLen input.id ≤ maxIdBytes)
    "id required (at most 64 bytes)"
  ensure (0 ≤ input.baseRev) "base_rev must be >= 0"
  ensure (input.workId ≠ "" ∧ byteLen input.workId ≤ maxReferenceBytes)
    "work_id required (at most 128 bytes)"
  ensure (∀ editionSha ∈ input.editionSha, byteLen editionSha ≤ maxReferenceBytes)
    "edition_sha too large"
  validateKind input
  ensure (∀ locator ∈ input.locator, Host.jsonByteSize locator ≤ maxLocatorBytes)
    "locator too large"
  ensure (∀ progression ∈ input.progression, 0 ≤ progression ∧ progression ≤ 1)
    "progression out of range [0,1]"
  ensure (byteLen input.excerpt ≤ maxExcerptBytes) "excerpt too large"
  ensure (byteLen input.body ≤ maxBodyBytes) "body too large"
  validateStyle input
  ensure ((validateTimestamp now input.clientTs false).isSome = true) "bad client_ts"

omit [Host] in
/-- The content rules a valid annotation meets. -/
theorem validateKind_ok (valid : validateKind input = .ok ()) :
    input.kind ∈ ["highlight", "note", "bookmark"] ∧ (input.kind = "note" → input.body ≠ "") ∧
      (input.kind = "bookmark" → input.body = "") := by
  unfold validateKind at valid
  simp only at valid
  split at valid
  all_goals
    simp_all [bind_eq_ok, ensure_eq_ok]

omit [Host] in
/-- The style rules a valid annotation meets. -/
theorem validateStyle_ok (valid : validateStyle input = .ok ()) :
    (∀ color ∈ input.color, color = "" ∨ color ∈ annotationColors) ∧
      (∀ drawer ∈ input.drawer, drawer = "" ∨ drawer ∈ annotationDrawers) := by
  simp only [validateStyle, bind_eq_ok, ensure_eq_ok] at valid
  obtain ⟨-, color, -, -, -, drawer, -⟩ := valid
  constructor
  · intro value given
    rw [Option.mem_def.mp given] at color
    exact or_iff_not_imp_left.mpr color
  · intro value given
    rw [Option.mem_def.mp given] at drawer
    exact or_iff_not_imp_left.mpr drawer

/-- A valid annotation meets the rules of its kind and of its style, and its
timestamp parses. -/
theorem validateAnnotation_ok {now : Int} (valid : validateAnnotation now input = .ok ()) :
    validateKind input = .ok () ∧ validateStyle input = .ok () ∧
      ∃ timestamp, Host.parseFromRfc3339 input.clientTs = .ok timestamp := by
  simp only [bind_eq_ok, validateAnnotation, ensure_eq_ok] at valid
  obtain ⟨-, -, -, -, -, -, -, -, _, kind, -, -, -, -, -, -, -, -, _, style, time⟩ := valid
  refine ⟨kind, style, ?_⟩
  unfold validateTimestamp at time
  split at time
  · cases time
  · cases parsed : Host.parseFromRfc3339 input.clientTs with
    | ok timestamp => exact ⟨timestamp, rfl⟩
    | error message => simp [parsed] at time

end Validation
end Coppice.LiseurSync
