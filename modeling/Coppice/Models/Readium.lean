import Mathlib.Algebra.Order.Ring.Rat
import Coppice.Std.Json

/-!
# Host services and Readium locators

What the models crate takes from its dependencies without looking inside is a
`Host`: RFC 3339 text, the length of serialized JSON, decimal text, and the
order in which an unordered collection is visited. The locator types and their `serde`
codec follow `shared/readium.rs`. A `Decimal` and an `f64` are both read as the
rational they denote, and an instant is a number of nanoseconds.
-/

namespace Coppice.Models

open Coppice.Std

/-- Third-party behaviour the code relies on but does not define. -/
class Host where
  /-- `DateTime::parse_from_rfc3339`, or the text of its error. -/
  parseFromRfc3339 : String → Except String Int
  /-- `DateTime::to_rfc3339_opts(SecondsFormat::Nanos, true)`. -/
  toRfc3339Nanos : Int → String
  /-- `DateTime::to_rfc3339`. -/
  toRfc3339 : Int → String
  /-- The length of `serde_json::to_vec`. -/
  jsonByteSize : Json → Nat
  /-- `Decimal::from_str`. -/
  parseDecimal : String → Option ℚ
  /-- The order of the rows of a `SELECT` without `ORDER BY`, and of the entries
  of a `HashMap`. -/
  scan : {α : Type} → List α → List α
  scan_perm : ∀ {α : Type} (rows : List α), (scan rows).Perm rows

/-- Nanoseconds in a second. -/
def second : Int := 1000000000

/-- The first instants of 2026, hour by hour, with their two spellings. -/
def sampleInstants : List (Int × String × String) :=
  [(1767225600 * second, "2026-01-01T00:00:00.000000000Z", "2026-01-01T00:00:00+00:00"),
    (1767229200 * second, "2026-01-01T01:00:00.000000000Z", "2026-01-01T01:00:00+00:00"),
    (1767232800 * second, "2026-01-01T02:00:00.000000000Z", "2026-01-01T02:00:00+00:00"),
    (1767236400 * second, "2026-01-01T03:00:00.000000000Z", "2026-01-01T03:00:00+00:00"),
    (1767240000 * second, "2026-01-01T04:00:00.000000000Z", "2026-01-01T04:00:00+00:00")]

/-- The instant `hour` hours into 2026. -/
def sampleHour (hour : Nat) : Int := (1767225600 + 3600 * hour) * second

mutual

/-- The length of compact JSON text without escapes, a float as its fraction. -/
def sampleSize : Json → Nat
  | .null => 4
  | .bool value => if value then 4 else 5
  | .int value => (toString value).length
  | .float value => (toString value.num).length + (toString value.den).length + 1
  | .str value => value.length + 2
  | .arr items => sampleItemsSize items + 2
  | .obj members => sampleMembersSize members + 2

def sampleItemsSize : List Json → Nat
  | [] => 0
  | item :: rest => sampleSize item + 1 + sampleItemsSize rest

def sampleMembersSize : List (String × Json) → Nat
  | [] => 0
  | (key, value) :: rest => key.length + 4 + sampleSize value + sampleMembersSize rest

end

/-- A host for concrete runs: it knows the sample instants, visits collections
in table order and reads no decimal text. -/
@[reducible] def Host.sample : Host where
  parseFromRfc3339 text :=
    match sampleInstants.find? fun entry => entry.2.1 = text || entry.2.2 = text with
    | some entry => .ok entry.1
    | none => .error "input contains invalid characters"
  toRfc3339Nanos at_ := ((sampleInstants.find? (·.1 = at_)).map (·.2.1)).getD ""
  toRfc3339 at_ := ((sampleInstants.find? (·.1 = at_)).map (·.2.2)).getD ""
  jsonByteSize := sampleSize
  parseDecimal _ := none
  scan rows := rows
  scan_perm _ := .refl _

/-- Where in a resource a locator points. -/
structure ReadiumLocation where
  fragments : Option (List String)
  progression : Option ℚ
  position : Option Int
  totalProgression : Option ℚ
  cssSelector : Option String
  partialCfi : Option String
deriving DecidableEq, Repr

/-- The text around a locator. -/
structure ReadiumText where
  after : Option String
  before : Option String
  highlight : Option String
deriving DecidableEq, Repr

structure ReadiumLocator where
  chapterTitle : String
  href : String
  title : Option String
  locations : Option ReadiumLocation
  text : Option ReadiumText
  koboSpan : Option String
  type : String
deriving DecidableEq, Repr

def defaultType : String := "application/xhtml+xml"

section Encode

/-- `serde_json::to_value` of a location. -/
def ReadiumLocation.toValue (location : ReadiumLocation) : Json :=
  .obj [("cssSelector", Json.ofOption .str location.cssSelector),
    ("fragments", Json.ofOption (fun items => .arr (items.map .str)) location.fragments),
    ("partialCfi", Json.ofOption .str location.partialCfi),
    ("position", Json.ofOption .int location.position),
    ("progression", Json.ofOption .float location.progression),
    ("totalProgression", Json.ofOption .float location.totalProgression)]

/-- `serde_json::to_value` of a text context. -/
def ReadiumText.toValue (text : ReadiumText) : Json :=
  .obj [("after", Json.ofOption .str text.after), ("before", Json.ofOption .str text.before),
    ("highlight", Json.ofOption .str text.highlight)]

/-- `serde_json::to_value` of a locator. -/
def ReadiumLocator.toValue (locator : ReadiumLocator) : Json :=
  .obj [("chapterTitle", .str locator.chapterTitle), ("href", .str locator.href),
    ("koboSpan", Json.ofOption .str locator.koboSpan),
    ("locations", Json.ofOption ReadiumLocation.toValue locator.locations),
    ("text", Json.ofOption ReadiumText.toValue locator.text),
    ("title", Json.ofOption .str locator.title), ("type", .str locator.type)]

open Json List in
/-- Locators are written with sorted members. -/
theorem ReadiumLocator.toValue_sorted (locator : ReadiumLocator) : locator.toValue.Sorted := by
  have optional {α : Type} {encode : α → Json} (sorted : ∀ value, (encode value).Sorted)
      (value : Option α) : (Json.ofOption encode value).Sorted := by
    cases value with
    | none => exact .null
    | some value => exact sorted value
  have texts := optional Sorted.str
  have strings (items : List String) : (Json.arr (items.map .str)).Sorted :=
    .arr (by simpa using fun _ _ => Sorted.str _)
  have location (location : ReadiumLocation) : location.toValue.Sorted :=
    .obj (by simp [cons_lt_cons_iff])
      (by simp [texts, optional strings, optional Sorted.int, optional Sorted.float])
  have text (text : ReadiumText) : text.toValue.Sorted :=
    .obj (by simp [cons_lt_cons_iff]) (by simp [texts])
  exact .obj (by simp [cons_lt_cons_iff])
    (by simp [texts, optional location, optional text, Sorted.str])

end Encode

section Decode

variable [Host]

/-- `Option<T>`: `null` is `None`, anything else must be a `T`. -/
def decodeOption {α : Type} (decode : Json → Option α) : Json → Option (Option α)
  | .null => some none
  | value => (decode value).map some

/-- `Vec<String>`. -/
def decodeStrings : Json → Option (List String)
  | .arr items => items.mapM Json.asStr
  | _ => none

/-- `i32`: an integer in range, never a float. -/
def decodeI32 : Json → Option Int
  | .int value => if -2 ^ 31 ≤ value ∧ value < 2 ^ 31 then some value else none
  | _ => none

/-- A number a `Decimal` can hold: its magnitude has 96 bits. -/
def decimalOf (value : ℚ) : Option ℚ :=
  if -2 ^ 96 < value ∧ value < 2 ^ 96 then some value else none

/-- `deserialize_decimal_option` below its `Option`: a number or its text. -/
def decodeDecimal : Json → Option ℚ
  | .int value => decimalOf value
  | .float value => decimalOf value
  | .str text => Host.parseDecimal text
  | _ => none

/-- A struct field read by name: an absent one takes `absent`, which is `none`
for a field that must be present. -/
def field {α : Type} (key : String) (decode : Json → Option α) (absent : Option α)
    (members : Json) : Option α :=
  match members.get key with
  | some value => decode value
  | none => absent

/-- A struct field read by position, as `serde` reads an array. -/
def item {α : Type} (index : Nat) (decode : Json → Option α) (absent : Option α)
    (items : List Json) : Option α :=
  match items[index]? with
  | some value => decode value
  | none => absent

/-- `serde_json::from_value::<ReadiumLocation>`. -/
def ReadiumLocation.fromValue : Json → Option ReadiumLocation
  | .obj members => do
      let fields := Json.obj members
      return {
        fragments := ← field "fragments" (decodeOption decodeStrings) (some none) fields
        progression := ← field "progression" (decodeOption decodeDecimal) (some none) fields
        position := ← field "position" (decodeOption decodeI32) (some none) fields
        totalProgression :=
          ← field "totalProgression" (decodeOption decodeDecimal) (some none) fields
        cssSelector := ← field "cssSelector" (decodeOption Json.asStr) (some none) fields
        partialCfi := ← field "partialCfi" (decodeOption Json.asStr) (some none) fields }
  | .arr items =>
    if items.length ≤ 6 then do
      return {
        fragments := ← item 0 (decodeOption decodeStrings) none items
        progression := ← item 1 (decodeOption decodeDecimal) (some none) items
        position := ← item 2 (decodeOption decodeI32) none items
        totalProgression := ← item 3 (decodeOption decodeDecimal) (some none) items
        cssSelector := ← item 4 (decodeOption Json.asStr) none items
        partialCfi := ← item 5 (decodeOption Json.asStr) none items }
    else none
  | _ => none

/-- `serde_json::from_value::<ReadiumText>`. -/
def ReadiumText.fromValue : Json → Option ReadiumText
  | .obj members => do
      let fields := Json.obj members
      return {
        after := ← field "after" (decodeOption Json.asStr) (some none) fields
        before := ← field "before" (decodeOption Json.asStr) (some none) fields
        highlight := ← field "highlight" (decodeOption Json.asStr) (some none) fields }
  | .arr items =>
    if items.length ≤ 3 then do
      return {
        after := ← item 0 (decodeOption Json.asStr) none items
        before := ← item 1 (decodeOption Json.asStr) none items
        highlight := ← item 2 (decodeOption Json.asStr) none items }
    else none
  | _ => none

/-- `serde_json::from_value::<ReadiumLocator>`. -/
def ReadiumLocator.fromValue : Json → Option ReadiumLocator
  | .obj members => do
      let fields := Json.obj members
      return {
        chapterTitle := ← field "chapterTitle" Json.asStr (some "") fields
        href := ← field "href" Json.asStr none fields
        title := ← field "title" (decodeOption Json.asStr) (some none) fields
        locations := ← field "locations" (decodeOption ReadiumLocation.fromValue) (some none) fields
        text := ← field "text" (decodeOption ReadiumText.fromValue) (some none) fields
        koboSpan := ← field "koboSpan" (decodeOption Json.asStr) (some none) fields
        type := ← field "type" Json.asStr (some defaultType) fields }
  | .arr items =>
    if items.length ≤ 7 then do
      return {
        chapterTitle := ← item 0 Json.asStr (some "") items
        href := ← item 1 Json.asStr none items
        title := ← item 2 (decodeOption Json.asStr) none items
        locations := ← item 3 (decodeOption ReadiumLocation.fromValue) none items
        text := ← item 4 (decodeOption ReadiumText.fromValue) none items
        koboSpan := ← item 5 (decodeOption Json.asStr) (some none) items
        type := ← item 6 Json.asStr (some defaultType) items }
    else none
  | _ => none

end Decode
end Coppice.Models
