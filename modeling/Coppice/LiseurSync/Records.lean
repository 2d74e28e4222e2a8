import Coppice.LiseurSync.Wire
import Coppice.Models.AnnotationFeed

/-!
# Annotation records

How a stored annotation reads on the wire, how an update infers the style a
client did not send, what a native row exports as, and which updates a native
row can take. Nothing here touches a table.
-/

namespace Coppice.LiseurSync

open Coppice.Std Models

/-- `annotation_payload`: the serialized input, read as the value it denotes. -/
def annotationPayload (input : AnnotationInput) : Json :=
  .obj ([("id", .str input.id), ("base_rev", .int input.baseRev), ("work_id", .str input.workId),
    ("edition_sha", Json.ofOption .str input.editionSha), ("kind", .str input.kind),
    ("locator", Json.ofOption id input.locator),
    ("progression", Json.ofOption .float input.progression), ("excerpt", .str input.excerpt)] ++
    present "color" (input.color.map .str) ++ present "drawer" (input.drawer.map .str) ++
    [("body", .str input.body), ("client_ts", .str input.clientTs)])

/-- The decoration of a highlight: the column, else the stored payload, else the
locator. A value that is not a drawer style reads as none. -/
def annotationDrawer (row : StoredAnnotation) : Option String :=
  match row.drawer with
  | some drawer => if drawer ∈ annotationDrawers then some drawer else none
  | none =>
    match row.payload.get "drawer" with
    | some drawer => drawer.asStr.filter (· ∈ annotationDrawers)
    | none =>
      ((row.locator.bind (Json.get "drawer")).bind Json.asStr).filter (· ∈ annotationDrawers)

/-- The color an update stores: one that is not sent keeps a stored color the
client could not have seen. -/
def annotationColorForUpdate (incoming : AnnotationInput) (stored : StoredAnnotation) : String :=
  if incoming.kind ≠ "highlight" then ""
  else
    match incoming.color with
    | some color => color
    | none =>
      if stored.color ∈ annotationColors ∧ stored.color ∉ liseurAnnotationColors then
        stored.color
      else ""

/-- The drawer an update stores: one that is not sent keeps the stored style. -/
def annotationDrawerForUpdate (incoming : AnnotationInput) (stored : StoredAnnotation) :
    Option String :=
  if incoming.kind ≠ "highlight" then none
  else
    match incoming.drawer with
    | some drawer => if drawer = "" then none else some drawer
    | none => annotationDrawer stored

/-- A text field that is absent on the wire when empty. -/
def nonempty (text : String) : Option String := if text = "" then none else some text

/-- The wire form of a stored row: its content, or a tombstone that keeps only
identity and revision. -/
def annotationRecord (row : StoredAnnotation) : AnnotationRecord :=
  if row.deleted then
    { id := row.id, rev := row.rev, seq := row.seq, workId := some row.workId, editionSha := none
      kind := none, locator := none, progression := none, excerpt := none, color := none
      drawer := none, body := none, deviceId := none, clientTs := none
      updatedAt := row.updatedAt, deleted := true, deletedAt := row.deletedAt }
  else
    { id := row.id, rev := row.rev, seq := row.seq, workId := some row.workId
      editionSha := row.editionSha, kind := some row.kind, locator := row.locator
      progression := row.progression, excerpt := nonempty row.excerpt
      color := nonempty row.color, drawer := annotationDrawer row, body := nonempty row.body
      deviceId := some row.deviceId, clientTs := some row.clientTs, updatedAt := row.updatedAt
      deleted := false, deletedAt := none }

@[simp] theorem annotationRecord_id (row : StoredAnnotation) :
    (annotationRecord row).id = row.id := by
  unfold annotationRecord
  split <;> rfl

@[simp] theorem annotationRecord_seq (row : StoredAnnotation) :
    (annotationRecord row).seq = row.seq := by
  unfold annotationRecord
  split <;> rfl

/-- The progression a native locator asserts, when it is one. -/
def nativeProgression (locator : ReadiumLocator) : Option ℚ :=
  (locator.locations.bind fun locations =>
    locations.totalProgression.or locations.progression).filter
      fun progression => 0 ≤ progression ∧ progression ≤ 1

/-- A locator a reader can open: it names a resource and a place in it. -/
def ReadiumLocator.usable (locator : ReadiumLocator) : Bool :=
  trim locator.href ≠ "" && locator.locations.isSome

/-- The highlighted text a locator carries. -/
def ReadiumLocator.highlight (locator : ReadiumLocator) : Option String :=
  locator.text.bind (·.highlight)

/-- The locator with its highlighted text replaced, in a text context it may not
have had. -/
def ReadiumLocator.withHighlight (locator : ReadiumLocator) (highlight : String) :
    ReadiumLocator :=
  let text := locator.text.getD { after := none, before := none, highlight := none }
  { locator with text := some { text with highlight := some highlight } }

/-- The locator without highlighted text. -/
def ReadiumLocator.withoutHighlight (locator : ReadiumLocator) : ReadiumLocator :=
  { locator with text := locator.text.map fun text => { text with highlight := none } }

/-- No text, or text that is only whitespace. -/
def blank (text : Option String) : Bool := trim (text.getD "") = ""

/-- The link a native row is exported under. -/
structure NativeMediaLink where
  workId : String
  editionSha : Option String
deriving DecidableEq, Repr

/-- The record a native row exports as. -/
structure NativeAnnotationCandidate where
  id : String
  workId : String
  editionSha : Option String
  kind : String
  locator : Json
  progression : Option ℚ
  excerpt : String
  color : String
  body : String
  clientTs : String
  updatedAt : String
deriving DecidableEq, Repr

def NativeAnnotationCandidate.input (candidate : NativeAnnotationCandidate) (baseRev : Int)
    (clientTs : String) : AnnotationInput :=
  { id := candidate.id, baseRev := baseRev, workId := candidate.workId
    editionSha := candidate.editionSha, kind := candidate.kind
    locator := some candidate.locator, progression := candidate.progression
    excerpt := candidate.excerpt, color := nonempty candidate.color, drawer := none
    body := candidate.body, clientTs := clientTs }

section Native

variable [Host]

/-- Two timestamps that denote one instant, or the same text. -/
def timestampsMatch (left right : String) : Bool :=
  match Host.parseFromRfc3339 left, Host.parseFromRfc3339 right with
  | .ok left, .ok right => left = right
  | _, _ => left = right

theorem timestampsMatch_refl (text : String) : timestampsMatch text text = true := by
  unfold timestampsMatch
  split <;> simp_all

/-- Whether a mirror already holds what its native row exports. -/
def nativeCandidateMatches (stored : StoredAnnotation) (candidate : NativeAnnotationCandidate) :
    Bool :=
  !stored.deleted && stored.workId = candidate.workId &&
    stored.editionSha = candidate.editionSha && stored.kind = candidate.kind &&
    stored.locator = some candidate.locator && stored.progression = candidate.progression &&
    stored.excerpt = candidate.excerpt && stored.color = candidate.color &&
    stored.body = candidate.body &&
    (stored.kind = "bookmark" || timestampsMatch stored.updatedAt candidate.updatedAt)

/-- What a `media_annotations` row exports as. A projection, a note at a moment
of a recording and an empty note export nothing. -/
def mediaAnnotationCandidate (row : MediaAnnotation) (link : NativeMediaLink) :
    Option NativeAnnotationCandidate :=
  if isLiseurSyncProjectionId row.id = true ∨ row.positionMs.isSome = true ∨
      ReadiumLocator.usable row.locator = false then none
  else
    let excerpt := (ReadiumLocator.highlight row.locator).getD ""
    let kind := if trim excerpt = "" then "note" else "highlight"
    let body := row.annotationText.getD ""
    let id := stumpNativeAnnotationId .mark row.id
    if (kind = "note" ∧ body = "") ∨ 64 < byteLen id then none
    else
      some
        { id := id, workId := link.workId, editionSha := link.editionSha, kind := kind
          locator := row.locator.toValue, progression := nativeProgression row.locator
          excerpt := excerpt
          color := if kind = "highlight" then (row.color.filter (· ∈ annotationColors)).getD ""
            else ""
          body := body, clientTs := Host.toRfc3339Nanos row.createdAt
          updatedAt := Host.toRfc3339Nanos row.updatedAt }

/-- What a `bookmarks` row exports as. -/
def bookmarkCandidate (row : Bookmark) (link : NativeMediaLink) :
    Option NativeAnnotationCandidate :=
  if isLiseurSyncProjectionId row.id = true then none
  else
    match row.locator.filter ReadiumLocator.usable with
    | none => none
    | some locator =>
      let id := stumpNativeAnnotationId .bookmark row.id
      if 64 < byteLen id then none
      else
        some
          { id := id, workId := link.workId, editionSha := link.editionSha, kind := "bookmark"
            locator := locator.toValue, progression := nativeProgression locator
            excerpt := ((row.previewContent.filter (· ≠ "")).or
              (ReadiumLocator.highlight locator)).getD ""
            color := "", body := "", clientTs := Host.toRfc3339Nanos row.createdAt
            updatedAt := Host.toRfc3339Nanos row.createdAt }

/-- The locator an update leaves on a native row, when the row can take it. -/
def nativeUpdateLocator (kind : String) (incoming : AnnotationInput) (stored : StoredAnnotation) :
    Option ReadiumLocator :=
  match ((incoming.locator.filter fun value => !value.isNull).or stored.locator).bind
      ReadiumLocator.fromValue with
  | none => none
  | some locator =>
    if ReadiumLocator.usable locator = false then none
    else
      match kind with
      | "note" => some (ReadiumLocator.withoutHighlight locator)
      | "highlight" =>
        let locator := if trim incoming.excerpt ≠ "" then
          ReadiumLocator.withHighlight locator incoming.excerpt else locator
        if blank (ReadiumLocator.highlight locator) then none else some locator
      | "bookmark" => some locator
      | _ => none

/-- Why a native row cannot take an update, when it cannot. -/
def nativeUpdateInvalidReason (incoming : AnnotationInput) (stored : StoredAnnotation) :
    Option String :=
  match parseStumpNativeAnnotationId incoming.id with
  | none => some "native annotation identity is invalid"
  | some (kind, _) =>
    if incoming.workId ≠ stored.workId then some "native annotation work cannot change"
    else if kind = .mark ∧ (incoming.kind = "note" ∨ incoming.kind = "highlight") then
      if (nativeUpdateLocator incoming.kind incoming stored).isNone then
        some "native annotations require a valid Readium locator"
      else none
    else if kind = .bookmark ∧ incoming.kind = "bookmark" then
      if (nativeUpdateLocator "bookmark" incoming stored).isNone then
        some "native bookmarks require a valid Readium locator"
      else none
    else some "native annotation kind cannot change"

end Native
end Coppice.LiseurSync
