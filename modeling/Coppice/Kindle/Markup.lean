import Coppice.Kindle.ContentType
import Coppice.Kindle.Index
import Coppice.Std.Bytes
import Coppice.Std.Digits
import Coppice.Std.Search
import Mathlib.Data.List.Dedup
import Mathlib.Data.List.Sort

/-!
# Markup of Kindle books

Names of documents, flows and resources, and the rewriting of Kindle's own links to those
names. The rewritten markup is kept in pieces, so that what was copied, planted and rewritten
stays visible; the markup itself is what the pieces render to.
-/

namespace Coppice.Kindle

open Coppice.Std Coppice.Std.Checked List

section Names

def sectionName (index : Nat) : List Char := "part".toList ++ pad 4 index ++ ".html".toList

def flowName (index : Nat) (type : ContentType) : List Char :=
  if type.isMarkup then "flows/flow".toList ++ pad 4 index ++ ".xhtml".toList
  else "styles/style".toList ++ pad 4 index ++ ".css".toList

def imageName (index : Nat) (extension : String) : List Char :=
  "images/image".toList ++ pad 4 index ++ ('.' :: extension.toList)

def resourceName (index : Nat) : List Char := "resources/resource".toList ++ pad 4 index

/-- The id of the anchor of a text position. -/
def anchorId (position : Nat) : List Char := "filepos".toList ++ pad 10 position

end Names

section Kf8

/-- A digit of KF8's base 32. -/
def base32Digit (c : Char) : Option Nat :=
  if c.isDigit then some (c.toNat - '0'.toNat)
  else if 'A' ≤ c.toUpper ∧ c.toUpper ≤ 'V' then some (c.toUpper.toNat - 'A'.toNat + 10)
  else none

def base32From : Nat → List Char → Option Nat
  | total, [] => some total
  | total, c :: rest => do
      let digit ← base32Digit c
      if total * 32 + digit < 2 ^ 64 then base32From (total * 32 + digit) rest else none

def base32 (value : List Char) : Option Nat := if value = [] then none else base32From 0 value

/-- The text before the first occurrence of a marker, or all of it. -/
def textBefore (marker text : List Char) : List Char :=
  match findSub marker text with
  | some found => text.take found
  | none => text

/-- The text between the first and the second occurrence of a marker. -/
def textBetween (marker text : List Char) : Option (List Char) :=
  (findSub marker text).map fun found => textBefore marker (text.drop (found + marker.length))

/-- What follows a literal start of a text. -/
def afterStart (start text : List Char) : Option (List Char) :=
  if start.isPrefixOf text then some (text.drop start.length) else none

def kindleScheme : List Char := "kindle:".toList
def posStart : List Char := "kindle:pos:fid:".toList
def offMarker : List Char := ":off:".toList
def flowStart : List Char := "kindle:flow:".toList
def embedStart : List Char := "kindle:embed:".toList
def mimeMarker : List Char := "mime=".toList

/-- The type the `mime` parameter of a link names. -/
def linkType (link : List Char) (default : ContentType) : ContentType :=
  ((textBetween mimeMarker link).map ContentType.fromMime).getD default

/-- What a Kindle link addresses in the file. -/
inductive Reference where
  | fragment (index : Nat)
  | flow (index : Nat) (type : ContentType)
  | embed (number : Nat) (type : ContentType)
  | image (number : Nat)
  | position (offset : Nat)
deriving DecidableEq, Repr

/-- The address of a `kindle:` link, if it has one. -/
def uriReference (link : List Char) : Option Reference :=
  let body := link.takeWhile (· ≠ '?')
  match afterStart posStart body with
  | some rest => (base32 (textBefore offMarker rest)).map .fragment
  | none =>
    match (afterStart flowStart body).bind base32, (afterStart embedStart body).bind base32 with
    | some index, _ => some (.flow index (linkType link .txt))
    | none, some number => some (.embed number (linkType link .unknown))
    | none, none => none

/-- A link to a fragment: the section it lands in, and the anchor in that section. -/
def fragmentHref (section_ : Nat) : Nat × List Char → List Char
  | (target, []) => sectionName target
  | (target, aid) => if target = section_ then '#' :: aid else sectionName target ++ '#' :: aid

/-- The extension an embedded resource is expected to have. -/
def embedExtension (type : ContentType) : String :=
  if type = .unknown then "jpg" else type.extension

/-- `rewrite_kindle_uri`, with the section and the anchor of every fragment. -/
def rewriteKindleUri (link : List Char) (section_ : Nat) (targets : List (Nat × List Char)) :
    List Char :=
  let body := link.takeWhile (· ≠ '?')
  match afterStart posStart body with
  | some rest =>
    match (base32 (textBefore offMarker rest)).bind fun index => targets[index]? with
    | some target => fragmentHref section_ target
    | none => sectionName section_
  | none =>
    match (afterStart flowStart body).bind base32, (afterStart embedStart body).bind base32 with
    | some index, _ => flowName index (linkType link .txt)
    -- `kindle:embed` counts the resource records from one.
    | none, some number => imageName (number - 1) (embedExtension (linkType link .unknown))
    | none, none => body

inductive Kf8Piece where
  | text (chars : List Char)
  | link (uri : List Char) (href : List Char)
deriving DecidableEq, Repr

def Kf8Piece.render : Kf8Piece → List Char
  | text chars => chars
  | link _ href => href

/-- The characters that end a link. -/
def endsLink (c : Char) : Bool := c = '\x22' || c = '\x27' || c = ' ' || c = '>'

/-- One link, with the text before it. -/
def kf8Turn (section_ : Nat) (targets : List (Nat × List Char))
    (state : List Char × List Kf8Piece) :
    Checked FileError (Turn (List Char × List Kf8Piece) (List Kf8Piece)) :=
  let (rest, pieces) := state
  match findSub kindleScheme rest with
  | none => return .leave (pieces ++ [.text rest])
  | some found =>
    let uri := rest.drop found
    let link := uri.takeWhile fun c => !endsLink c
    return .next (uri.drop link.length,
      pieces ++ [.text (rest.take found), .link link (rewriteKindleUri link section_ targets)])

def rewriteKf8Markup (markup : List Char) (section_ : Nat) (targets : List (Nat × List Char)) :
    Checked FileError (List Kf8Piece) :=
  loop (kf8Turn section_ targets) (markup.length + 1) (markup, [])

def aidMarker : List Char := "@aid=".toList

/-- The `aid` between the quotes after `@aid=`. -/
def extractAid (text : List Char) : Option (List Char) :=
  (findSub aidMarker text).bind fun found =>
    match text.drop (found + aidMarker.length) with
    | [] => none
    | quote :: rest => if quote ∈ rest then some (rest.takeWhile (· ≠ quote)) else none

/-- The section its file number names and the `aid` of every fragment. -/
def kf8LinkTargets (fragments : Index) (encoding : Nat) : List (Nat × List Char) :=
  fragments.entries.map fun fragment =>
    ((fragment.tag 3).getD 0,
      (((fragment.tag 2).bind fun offset =>
        fragments.cncxString offset encoding).bind extractAid).getD [])

theorem returns_rewriteKf8Markup (markup : List Char) (section_ : Nat)
    (targets : List (Nat × List Char)) :
    Returns (rewriteKf8Markup markup section_ targets) fun pieces =>
      ∀ uri href, Kf8Piece.link uri href ∈ pieces →
        href = rewriteKindleUri uri section_ targets := by
  refine returns_loop (fun state => ∀ uri href, Kf8Piece.link uri href ∈ state.2 →
    href = rewriteKindleUri uri section_ targets) (fun state => state.1.length) ?_ nofun
    (Nat.lt_succ_self _)
  rintro ⟨rest, pieces⟩ rewritten
  rw [kf8Turn]
  cases first : findSub kindleScheme rest with
  | none =>
    refine returns_pure fun uri href member => ?_
    rcases mem_append.1 member with old | new
    · exact rewritten uri href old
    · cases mem_singleton.1 new
  | some found =>
    refine returns_pure ⟨fun uri href member => ?_, ?_⟩
    · rcases mem_append.1 member with old | new
      · exact rewritten uri href old
      rcases mem_pair.1 new with plain | link
      · cases plain
      · cases link
        rfl
    · -- A link starts with the scheme, whose first character does not end it.
      obtain ⟨tail, starts⟩ := findSub_some first
      have longer := congrArg List.length starts
      dsimp only
      rw [← starts, length_drop]
      rw [length_append, length_drop] at longer
      have scheme : kindleScheme = 'k' :: "indle:".toList := rfl
      have taken : ((kindleScheme ++ tail).takeWhile fun c => !endsLink c) =
          'k' :: ("indle:".toList ++ tail).takeWhile fun c => !endsLink c := by
        rfl
      rw [taken, length_append, length_cons]
      have some : 0 < kindleScheme.length := by decide
      omega

end Kf8

section Mobi6

variable {fragment lower : List UInt8} {fragmentStart : Nat} {body : Nat × Nat}
  {sections : List (Nat × Nat)} {anchors : List Nat}

def isAsciiDigit (byte : UInt8) : Bool := 0x30 ≤ byte && byte ≤ 0x39

def isQuote (byte : UInt8) : Bool := byte = 0x22 || byte = 0x27

def isAsciiWhitespace (byte : UInt8) : Bool :=
  byte = 0x20 || byte = 0x09 || byte = 0x0A || byte = 0x0C || byte = 0x0D

/-- `u8::to_ascii_lowercase`. -/
def asciiLower (byte : UInt8) : UInt8 := if 0x41 ≤ byte ∧ byte ≤ 0x5A then byte + 0x20 else byte

def lessThan : UInt8 := 0x3C

def greaterThan : UInt8 := 0x3E

def fileposMarker : List UInt8 := ascii "filepos="

/-- The digits after a `filepos=`, with or without quotes before them. -/
def fileposTurn (lower : List UInt8) (state : Nat × List Nat) :
    Checked FileError (Turn (Nat × List Nat) (List Nat)) := do
  let (cursor, targets) := state
  match findSub fileposMarker (← slice lower cursor lower.length) with
  | none => return .leave targets
  | some found =>
    let cursor ← add cursor (← add found fileposMarker.length)
    let digits := ((← slice lower cursor lower.length).dropWhile isQuote).takeWhile isAsciiDigit
    match parseU64 (.ofList (digits.map fun byte => Char.ofNat byte.toNat)) with
    | some position => return .next (cursor, targets ++ [position])
    | none => return .next (cursor, targets)

/-- Every `filepos` target of a book, sorted and without repetitions. -/
def collectFileposTargets (lower : List UInt8) : Checked FileError (List Nat) := do
  let targets ← loop (fileposTurn lower) (lower.length + 1) (0, [])
  return (targets.insertionSort (· ≤ ·)).dedup

/-- The value of `name=` in a tag, with or without quotes. -/
def attributeValue (tagLower name : List UInt8) : Option (List Char) :=
  (findSub name tagLower).bind fun found =>
    match tagLower.drop (found + name.length) with
    | 0x3D :: first :: rest =>
      if isQuote first then (findSub [first] rest).map fun stop => decodeLossy (rest.take stop)
      else
        some (decodeLossy ((first :: rest).takeWhile fun byte =>
          !(isAsciiWhitespace byte || byte = greaterThan || byte = 0x2F)))
    | _ => none

/-- A number in an attribute. -/
def attributeNumber (tagLower name : List UInt8) : Option Nat :=
  (attributeValue tagLower name).bind fun value => parseU64 (trim (.ofList value))

inductive Mobi6Piece where
  | copied (bytes : List UInt8)
  | anchor (position : Nat)
  | image (number : Nat) (src : List Char)
  | link (position : Nat) (href : List Char)
deriving DecidableEq, Repr

/-- ASCII text as bytes. -/
def toBytes (text : List Char) : List UInt8 := text.map fun c => UInt8.ofNat c.toNat

def anchorOpen : List UInt8 := ascii "<a id=\""
def anchorClose : List UInt8 := ascii "\"></a>"
def imageOpen : List UInt8 := ascii "<img src=\""
def imageClose : List UInt8 := ascii "\" alt=\"\"/>"
def linkOpen : List UInt8 := ascii "<a href=\""
def linkClose : List UInt8 := ascii "\">"

def Mobi6Piece.render : Mobi6Piece → List UInt8
  | copied bytes => bytes
  | anchor position => anchorOpen ++ toBytes (anchorId position) ++ anchorClose
  | image _ src => imageOpen ++ toBytes src ++ imageClose
  | link _ href => linkOpen ++ toBytes href ++ linkClose

def recindexName : List UInt8 := ascii "recindex"
def fileposName : List UInt8 := ascii "filepos"
def anchorTag : List UInt8 := ascii "<a"

/-- `recindex` counts the resource records from one. -/
def rewriteRecindex (tag tagLower : List UInt8) : Mobi6Piece :=
  match attributeNumber tagLower recindexName with
  | none => .copied tag
  | some number => .image number (imageName (number - 1) "jpg")

/-- The first section whose range holds a position, or section 0. -/
def targetSection (sections : List (Nat × Nat)) (position : Nat) : Nat :=
  (sections.findIdx? fun range => range.1 ≤ position ∧ position < range.2).getD 0

/-- The document of a section, which is left out in that section itself. -/
def fileposHref (fragmentStart : Nat) (sections : List (Nat × Nat)) (position : Nat) : List Char :=
  let target := targetSection sections position
  let here := (sections[target]?).any fun range => range.1 = fragmentStart
  (if here then [] else sectionName target) ++ '#' :: anchorId position

def rewriteFilepos (tagLower : List UInt8) (fragmentStart : Nat) (sections : List (Nat × Nat)) :
    Mobi6Piece :=
  match attributeNumber tagLower fileposName with
  | none => .copied tagLower
  | some position =>
    -- A `<reference>` inside `<guide>` is metadata, not content.
    if anchorTag.isPrefixOf tagLower then
      .link position (fileposHref fragmentStart sections position)
    else .copied []

def layoutOpen : List UInt8 := ascii "<mbp:"
def layoutClose : List UInt8 := ascii "</mbp:"
def imgTag : List UInt8 := ascii "<img"
def imageTag : List UInt8 := ascii "<image"

/-- What becomes of one tag. -/
def rewriteTag (tag tagLower : List UInt8) (fragmentStart : Nat) (sections : List (Nat × Nat)) :
    Mobi6Piece :=
  if layoutOpen.isPrefixOf tagLower || layoutClose.isPrefixOf tagLower then .copied []
  else if imgTag.isPrefixOf tagLower || imageTag.isPrefixOf tagLower then
    rewriteRecindex tag tagLower
  else if (findSub fileposMarker tagLower).isSome then
    rewriteFilepos tagLower fragmentStart sections
  else .copied tag

/-- The anchors up to a position, and those left. -/
def plant (anchors : List Nat) (limit : Nat) : List Mobi6Piece × List Nat :=
  ((anchors.takeWhile (· ≤ limit)).map .anchor, anchors.dropWhile (· ≤ limit))

/-- The place in a fragment, the anchors not yet planted, and the pieces so far. -/
structure Rewriting where
  cursor : Nat
  anchors : List Nat
  pieces : List Mobi6Piece

/-- A run of text or one tag, after the anchors that fall at or before it. -/
def markupTurn (fragment lower : List UInt8) (fragmentStart : Nat) (sections : List (Nat × Nat))
    (state : Rewriting) : Checked FileError (Turn Rewriting (List Mobi6Piece)) := do
  let limit ← add fragmentStart (min state.cursor fragment.length)
  let (planted, anchors) := plant state.anchors limit
  if state.cursor < fragment.length then
    if (← item lower state.cursor) ≠ lessThan then
      let start ← add state.cursor 1
      let rest ← slice lower start lower.length
      let next := ((findSub [lessThan] rest).map (start + ·)).getD fragment.length
      let copied ← slice fragment state.cursor next
      return .next ⟨next, anchors, state.pieces ++ planted ++ [.copied copied]⟩
    else
      let rest ← slice lower state.cursor lower.length
      let tagEnd := ((findSub [greaterThan] rest).map (state.cursor + · + 1)).getD fragment.length
      let tag ← slice fragment state.cursor tagEnd
      let tagLower ← slice lower state.cursor tagEnd
      return .next ⟨tagEnd, anchors,
        state.pieces ++ planted ++ [rewriteTag tag tagLower fragmentStart sections]⟩
  -- Anchors that land exactly on the fragment's end still belong to it.
  else return .leave (state.pieces ++ planted)

def rewriteMobi6Markup (fragment lower : List UInt8) (fragmentStart : Nat) (anchors : List Nat)
    (sections : List (Nat × Nat)) : Checked FileError (List Mobi6Piece) :=
  loop (markupTurn fragment lower fragmentStart sections) (fragment.length + 1)
    ⟨0, anchors.dropWhile (· < fragmentStart), []⟩

def bodyOpen : List UInt8 := ascii "<body"
def bodyClose : List UInt8 := ascii "</body"

/-- The inner range of the `<body>` element, or the whole document when it has none. -/
def bodyRange (lower : List UInt8) : Nat × Nat :=
  let start := ((findSub bodyOpen lower).bind fun found =>
    (findSub [greaterThan] (lower.drop found)).map (found + · + 1)).getD 0
  let stop := ((List.range (lower.length - 5)).reverse.find? fun offset =>
    bodyClose.isPrefixOf (lower.drop offset)).getD lower.length
  (start, max stop start)

def pagebreak : List UInt8 := ascii "<mbp:pagebreak"

/-- One page break: the range before it, if it is not empty, and the start of the next. -/
def pageTurn (lower : List UInt8) (bodyEnd : Nat) (state : Nat × List (Nat × Nat)) :
    Checked FileError (Turn (Nat × List (Nat × Nat)) (Nat × List (Nat × Nat))) := do
  let (start, ranges) := state
  match findSub pagebreak (← slice lower start bodyEnd) with
  | none => return .leave (start, ranges)
  | some found =>
    let tagStart ← add start found
    let rest ← slice lower tagStart bodyEnd
    let tagEnd := ((findSub [greaterThan] rest).map (tagStart + · + 1)).getD bodyEnd
    let ranges := if start < tagStart then ranges ++ [(start, tagStart)] else ranges
    if bodyEnd ≤ tagEnd then return .leave (tagEnd, ranges) else return .next (tagEnd, ranges)

/-- The ranges of the body between page breaks, or the body itself when there is none. -/
def pageRanges (lower : List UInt8) (body : Nat × Nat) : Checked FileError (List (Nat × Nat)) := do
  let (start, ranges) ← loop (pageTurn lower body.2) (lower.length + 1) (body.1, [])
  let ranges := if start < body.2 then ranges ++ [(start, body.2)] else ranges
  return if ranges = [] then [body] else ranges

theorem returns_collectFileposTargets (held : lower.length < 2 ^ 63) :
    Returns (collectFileposTargets lower) fun targets => targets.Pairwise (· < ·) := by
  have collected : Safe (loop (fileposTurn lower) (lower.length + 1) (0, [])) := by
    refine safe_of_returns (returns_loop (fun state => state.1 ≤ lower.length)
      (fun state => lower.length - state.1) ?_ (Nat.zero_le _) (by dsimp only; omega))
    rintro ⟨cursor, targets⟩ inside
    refine (returns_slice inside (Nat.le_refl _)).bind ?_
    rintro rest ⟨-, length⟩
    cases first : findSub fileposMarker rest with
    | none => exact returns_pure trivial
    | some found =>
      have room := findSub_le first
      have marker : fileposMarker.length = 8 := by decide
      dsimp only
      rw [add_bind (by omega), add_bind (by omega)]
      refine (returns_slice (by omega) (Nat.le_refl _)).bind fun digits _ => ?_
      have onward : cursor + (found + 8) ≤ lower.length ∧
          lower.length - (cursor + (found + 8)) < lower.length - cursor := by omega
      split
      · exact returns_pure onward
      · exact returns_pure onward
  refine collected.returns.bind fun targets _ => returns_pure ?_
  have sorted := (pairwise_insertionSort (· ≤ ·) targets).sublist (dedup_sublist _)
  exact (sorted.and (nodup_dedup _)).imp fun both => Nat.lt_of_le_of_ne both.1 both.2

/-- Ranges inside the body, in order, with at least one byte between two of them. -/
structure Spaced (body : Nat × Nat) (ranges : List (Nat × Nat)) : Prop where
  inside : ∀ range ∈ ranges, body.1 ≤ range.1 ∧ range.1 ≤ range.2 ∧ range.2 ≤ body.2
  apart : ranges.Pairwise fun left right => left.2 < right.1

/-- A range after all others. -/
theorem Spaced.append {ranges : List (Nat × Nat)} (spaced : Spaced body ranges) {range : Nat × Nat}
    (inside : body.1 ≤ range.1 ∧ range.1 ≤ range.2 ∧ range.2 ≤ body.2)
    (after : ∀ earlier ∈ ranges, earlier.2 < range.1) : Spaced body (ranges ++ [range]) := by
  constructor
  · exact forall_mem_append.2 ⟨spaced.inside, forall_mem_singleton.2 inside⟩
  refine pairwise_append.2 ⟨spaced.apart, pairwise_singleton _ _, ?_⟩
  intro earlier old later new
  cases mem_singleton.1 new
  exact after earlier old

theorem bodyRange_bounds (lower : List UInt8) :
    (bodyRange lower).1 ≤ (bodyRange lower).2 ∧ (bodyRange lower).2 ≤ lower.length := by
  refine ⟨Nat.le_max_right _ _, Nat.max_le.2 ⟨?_, ?_⟩⟩
  · cases close : (List.range (lower.length - 5)).reverse.find? fun offset =>
        bodyClose.isPrefixOf (lower.drop offset) with
    | none => exact Nat.le_refl _
    | some offset =>
      have listed := mem_range.1 (mem_reverse.1 (mem_of_find?_eq_some close))
      change offset ≤ lower.length
      omega
  · cases first : findSub bodyOpen lower with
    | none => exact Nat.zero_le _
    | some found =>
      cases second : findSub [greaterThan] (lower.drop found) with
      | none =>
        rw [Option.bind_some, second]
        exact Nat.zero_le _
      | some offset =>
        have room := findSub_le second
        rw [Option.bind_some, second]
        rw [length_drop, length_singleton] at room
        change found + offset + 1 ≤ lower.length
        omega

/-- The ranges before `start`, which come before it. -/
structure PagesBefore (body : Nat × Nat) (start : Nat) (ranges : List (Nat × Nat)) : Prop where
  spaced : Spaced body ranges
  before : ∀ range ∈ ranges, range.2 < start
  least : body.1 ≤ start
  most : start ≤ body.2

/-- A run that goes up to a byte, or to the end. -/
theorem stop_inside {byte : UInt8} {rest : List UInt8} {place : Nat → Nat} {start stop next : Nat}
    (before : start < stop)
    (places : ∀ offset < rest.length, start < place offset ∧ place offset ≤ stop)
    (ends : ((findSub [byte] rest).map place).getD stop = next) : start < next ∧ next ≤ stop := by
  subst ends
  cases first : findSub [byte] rest with
  | none => exact ⟨before, Nat.le_refl stop⟩
  | some offset =>
    have room := findSub_le first
    rw [length_singleton] at room
    exact places offset (by omega)

theorem returns_pageTurn (held : lower.length < 2 ^ 63) (inside : body.2 ≤ lower.length)
    {state : Nat × List (Nat × Nat)} (pages : PagesBefore body state.1 state.2) :
    Returns (pageTurn lower body.2 state)
      (Turn.Keeps (fun state => PagesBefore body state.1 state.2)
      (fun state => body.2 - state.1) (body.2 - state.1)
      fun state => PagesBefore body state.1 state.2) := by
  obtain ⟨start, ranges⟩ := state
  obtain ⟨spaced, before, least, most⟩ := pages
  refine (returns_slice most inside).bind ?_
  rintro part ⟨-, partLength⟩
  cases first : findSub pagebreak part with
  | none => exact returns_pure ⟨spaced, before, least, most⟩
  | some found =>
    have room := findSub_le first
    have marker : pagebreak.length = 14 := by decide
    dsimp only
    rw [add_bind (by omega)]
    refine (returns_slice (by omega) inside).bind ?_
    rintro rest ⟨-, restLength⟩
    -- The tag of a page break has at least one byte, so the next range starts after it.
    generalize stop :
      ((findSub [greaterThan] rest).map (start + found + · + 1)).getD body.2 = tagEnd
    have tag : start + found < tagEnd ∧ tagEnd ≤ body.2 :=
      stop_inside (by omega) (by omega) stop
    have next : PagesBefore body tagEnd
        (if start < start + found then ranges ++ [(start, start + found)] else ranges) := by
      split
      · refine ⟨spaced.append ⟨least, by omega, by dsimp only; omega⟩ before, ?_, by omega, tag.2⟩
        refine forall_mem_append.2 ⟨fun range old => ?_, forall_mem_singleton.2 tag.1⟩
        have := before range old
        omega
      · refine ⟨spaced, fun range member => ?_, by omega, tag.2⟩
        have := before range member
        omega
    refine returns_ite (fun _ => returns_pure next) fun _ => returns_pure ⟨next, ?_⟩
    dsimp only
    omega

theorem returns_pageRanges (held : lower.length < 2 ^ 63) (ordered : body.1 ≤ body.2)
    (inside : body.2 ≤ lower.length) : Returns (pageRanges lower body) (Spaced body) := by
  have pages : Returns (loop (pageTurn lower body.2) (lower.length + 1) (body.1, []))
      fun state => PagesBefore body state.1 state.2 :=
    returns_loop (fun state => PagesBefore body state.1 state.2) (fun state => body.2 - state.1)
      (fun state pages => returns_pageTurn held inside pages)
      ⟨⟨nofun, .nil⟩, nofun, Nat.le_refl _, ordered⟩ (by dsimp only; omega)
  refine pages.bind ?_
  rintro ⟨start, ranges⟩ ⟨spaced, before, least, most⟩
  have whole : Spaced body [body] := by
    refine ⟨fun range member => ?_, pairwise_singleton _ _⟩
    cases mem_singleton.1 member
    exact ⟨Nat.le_refl _, ordered, Nat.le_refl _⟩
  have all : Spaced body (if start < body.2 then ranges ++ [(start, body.2)] else ranges) := by
    split
    · exact spaced.append ⟨least, most, Nat.le_refl _⟩ before
    · exact spaced
  refine returns_pure ?_
  generalize (if start < body.2 then ranges ++ [(start, body.2)] else ranges) = pages at all ⊢
  split
  · exact whole
  · exact all

/-- The positions whose anchors a list of pieces plants. -/
def plantedPositions (pieces : List Mobi6Piece) : List Nat :=
  pieces.filterMap fun
    | .anchor position => some position
    | _ => none

/-- Every link and image names what the rewriting of one fragment gives it. -/
def Rewritten (fragmentStart : Nat) (sections : List (Nat × Nat)) : Mobi6Piece → Prop
  | .link position href => href = fileposHref fragmentStart sections position
  | .image number src => src = imageName (number - 1) "jpg"
  | _ => True

theorem rewritten_rewriteTag (tag tagLower : List UInt8) (fragmentStart : Nat)
    (sections : List (Nat × Nat)) :
    Rewritten fragmentStart sections (rewriteTag tag tagLower fragmentStart sections) := by
  unfold rewriteTag rewriteRecindex rewriteFilepos
  repeat' split
  all_goals trivial

theorem plantedPositions_rewriteTag (tag tagLower : List UInt8) (fragmentStart : Nat)
    (sections : List (Nat × Nat)) :
    plantedPositions [rewriteTag tag tagLower fragmentStart sections] = [] := by
  unfold rewriteTag rewriteRecindex rewriteFilepos
  repeat' split
  all_goals rfl

theorem plantedPositions_append (left right : List Mobi6Piece) :
    plantedPositions (left ++ right) = plantedPositions left ++ plantedPositions right :=
  filterMap_append

theorem plantedPositions_plant (anchors : List Nat) (limit : Nat) :
    plantedPositions (plant anchors limit).1 = anchors.takeWhile (· ≤ limit) := by
  rw [plantedPositions, plant, filterMap_map]
  exact filterMap_some

theorem takeWhile_split (anchors : List Nat) {limit stop : Nat} (earlier : limit ≤ stop) :
    anchors.takeWhile (· ≤ limit) ++ (anchors.dropWhile (· ≤ limit)).takeWhile (· ≤ stop) =
      anchors.takeWhile (· ≤ stop) := by
  induction anchors with
  | nil => rfl
  | cons anchor anchors ih =>
    by_cases near : anchor ≤ limit
    · have near' : anchor ≤ stop := Nat.le_trans near earlier
      simp only [takeWhile_cons, dropWhile_cons, decide_eq_true near,
        decide_eq_true near', if_true, cons_append, ih]
    · simp only [takeWhile_cons, dropWhile_cons, near, decide_false,
        Bool.false_eq_true, if_false, nil_append]

/-- What holds of a rewriting: its anchors, planted and to come, are those of the fragment. -/
structure RewritingInv (fragment : List UInt8) (fragmentStart : Nat) (anchors : List Nat)
    (sections : List (Nat × Nat)) (state : Rewriting) : Prop where
  cursor : state.cursor ≤ fragment.length
  rewritten : ∀ piece ∈ state.pieces, Rewritten fragmentStart sections piece
  planted : plantedPositions state.pieces ++
      state.anchors.takeWhile (· ≤ fragmentStart + fragment.length) =
    anchors.takeWhile (· ≤ fragmentStart + fragment.length)

theorem RewritingInv.rewritten_plant
    {state : Rewriting} (inv : RewritingInv fragment fragmentStart anchors sections state)
    (limit : Nat) : ∀ piece ∈ state.pieces ++ (plant state.anchors limit).1,
      Rewritten fragmentStart sections piece := by
  refine forall_mem_append.2 ⟨inv.rewritten, fun piece planted => ?_⟩
  obtain ⟨position, -, rfl⟩ := mem_map.1 planted
  trivial

/-- The anchors up to a place in the fragment, and one piece after them. -/
theorem RewritingInv.next {state : Rewriting}
    (inv : RewritingInv fragment fragmentStart anchors sections state) {limit cursor : Nat}
    (near : limit ≤ fragmentStart + fragment.length) (inside : cursor ≤ fragment.length)
    {piece : Mobi6Piece} (rewritten : Rewritten fragmentStart sections piece)
    (plain : plantedPositions [piece] = []) :
    RewritingInv fragment fragmentStart anchors sections
      ⟨cursor, (plant state.anchors limit).2,
        state.pieces ++ (plant state.anchors limit).1 ++ [piece]⟩ := by
  refine ⟨inside, ?_, ?_⟩
  · exact forall_mem_append.2 ⟨inv.rewritten_plant limit, forall_mem_singleton.2 rewritten⟩
  have split := takeWhile_split state.anchors near
  have planted := plantedPositions_plant state.anchors limit
  rw [← inv.planted, ← split, ← planted]
  rw [plantedPositions_append, plantedPositions_append, plain, append_nil, append_assoc]
  rfl

theorem returns_rewriteMobi6Markup
    (same : lower.length = fragment.length) (held : fragmentStart + fragment.length < 2 ^ 63)
    (anchors : List Nat) (sections : List (Nat × Nat)) :
    Returns (rewriteMobi6Markup fragment lower fragmentStart anchors sections) fun pieces =>
      (∀ piece ∈ pieces, Rewritten fragmentStart sections piece) ∧
        plantedPositions pieces = (anchors.dropWhile (· < fragmentStart)).takeWhile
          (· ≤ fragmentStart + fragment.length) := by
  refine returns_loop (RewritingInv fragment fragmentStart (anchors.dropWhile (· < fragmentStart))
    sections) (fun state => fragment.length - state.cursor) ?_ ⟨Nat.zero_le _, nofun, rfl⟩
    (by dsimp only; omega)
  intro state inv
  have inside := inv.cursor
  rw [markupTurn, Nat.min_eq_left inside, add_bind (by omega)]
  refine returns_ite (fun more => ?_) fun done => ?_
  · refine (returns_item (by omega)).bind fun byte _ => ?_
    refine returns_ite (fun _ => ?_) fun _ => ?_
    · rw [add_bind (by omega)]
      refine (returns_slice (by omega) (Nat.le_refl _)).bind ?_
      rintro rest ⟨-, restLength⟩
      generalize stop :
        ((findSub [lessThan] rest).map (state.cursor + 1 + ·)).getD fragment.length = next
      have run : state.cursor < next ∧ next ≤ fragment.length :=
        stop_inside (by omega) (by omega) stop
      refine (returns_slice (by omega) run.2).bind fun copied _ => returns_pure ⟨?_, ?_⟩
      · exact inv.next (by omega) run.2 trivial rfl
      · dsimp only
        omega
    · refine (returns_slice (by omega) (Nat.le_refl _)).bind ?_
      rintro rest ⟨-, restLength⟩
      generalize stop : ((findSub [greaterThan] rest).map (state.cursor + · + 1)).getD
        fragment.length = next
      have run : state.cursor < next ∧ next ≤ fragment.length :=
        stop_inside (by omega) (by omega) stop
      refine (returns_slice (by omega) run.2).bind fun tag _ => ?_
      refine (returns_slice (by omega) (by omega)).bind fun tagLower _ => returns_pure ⟨?_, ?_⟩
      · exact inv.next (by omega) run.2 (rewritten_rewriteTag tag tagLower _ _)
          (plantedPositions_rewriteTag tag tagLower _ _)
      · dsimp only
        omega
  · have stop : state.cursor = fragment.length := by omega
    refine returns_pure ⟨inv.rewritten_plant _, ?_⟩
    rw [← inv.planted, ← stop]
    change plantedPositions (state.pieces ++ (plant state.anchors _).1) = _
    rw [plantedPositions_append, plantedPositions_plant]

end Mobi6

section Titles

/-- Whether a character is inside a tag, and the characters outside. -/
def outsideTags : Nat → List Char → List Char
  | _, [] => []
  | depth, '<' :: rest => outsideTags (depth + 1) rest
  | depth, '>' :: rest => outsideTags (depth - 1) rest
  | depth, c :: rest => if depth = 0 then c :: outsideTags depth rest else outsideTags depth rest

/-- `split_whitespace`, from a word that has begun. -/
def wordsFrom (word : List Char) : List Char → List (List Char)
  | [] => if word = [] then [] else [word]
  | c :: rest =>
    if isWhitespace c then if word = [] then wordsFrom [] rest else word :: wordsFrom [] rest
    else wordsFrom (word ++ [c]) rest

def stripTags (markup : List Char) : List Char :=
  List.intercalate [' '] (wordsFrom [] (outsideTags 0 markup))

def headings : List (List Char × List Char) :=
  [("<title>", "</title>"), ("<h1", "</h1>"), ("<h2", "</h2>"), ("<h3", "</h3>")].map
    fun heading => (heading.1.toList, heading.2.toList)

/-- The text of the first element of one kind, unless it is blank. -/
def headingText (markup : List Char) (heading : List Char × List Char) : Option (List Char) := do
  let start ← findSub heading.1 (markup.map Char.toLower)
  let offset ← findSub ['>'] (markup.drop start)
  let inner := markup.drop (start + offset + 1)
  let stop ← findSub heading.2 (inner.map Char.toLower)
  let text := stripTags (inner.take stop)
  if text = [] then none else some text

def firstTitle (markup : List Char) : Option (List Char) := headings.findSome? (headingText markup)

def documentOpen : List Char :=
  "<?xml version=\"1.0\" encoding=\"utf-8\"?>\n<html xmlns=\"http://www.w3.org/1999/xhtml\"".toList
def documentBody : List Char :=
  "><head><meta charset=\"utf-8\"/><title></title></head><body>".toList
def documentClose : List Char := "</body></html>".toList
def languageOpen : List Char := " xml:lang=\"".toList

/-- The XHTML skeleton around a fragment. -/
def wrapDocument (language : Option String) (body : List Char) : List Char :=
  documentOpen ++ (language.map fun language => languageOpen ++ language.toList ++
    ['\x22']).getD [] ++
    documentBody ++ body ++ documentClose

end Titles

end Coppice.Kindle
