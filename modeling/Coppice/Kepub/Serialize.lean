import Coppice.Kepub.Dom
import Coppice.Kepub.Text

/-!
# Serialization with and without Kobo spans

`serialize_node` of `kepub/src/dom.rs` over the tree of a document. The output is kept as
pieces, so that the span tags the serializer inserts stay apart from the markup of the
document. Erasing them gives the document without spans, except that a sentence inside a
raw-text element is escaped when it is put into a span.
-/

namespace Coppice.Kepub

open Coppice.Std List

section Pieces

/-- A part of the output: text as written, or a tag of an inserted span. -/
inductive Piece where
  | text (chars : List Char)
  | spanStart (para segment : Nat)
  | spanEnd
deriving DecidableEq, Repr

/-- The id of a span. -/
def spanId (para segment : Nat) : String := "kobo." ++ para.repr ++ "." ++ segment.repr

def Piece.render : Piece → List Char
  | text chars => chars
  | spanStart para segment =>
    ("<span class=\x22koboSpan\x22 id=\x22" ++ spanId para segment ++ "\x22>").toList
  | spanEnd => "</span>".toList

/-- A piece without the inserted tags. -/
def Piece.erase : Piece → List Char
  | text chars => chars
  | _ => []

def Piece.id? : Piece → Option (Nat × Nat)
  | spanStart para segment => some (para, segment)
  | _ => none

@[simp] theorem Piece.render_text (chars : List Char) : (text chars).render = chars := rfl

/-- The output as the source writes it. -/
def rendered (pieces : List Piece) : List Char := pieces.flatMap Piece.render

def erased (pieces : List Piece) : List Char := pieces.flatMap Piece.erase

/-- The ids of the inserted spans, in document order. -/
def spanIds (pieces : List Piece) : List (Nat × Nat) := pieces.filterMap Piece.id?

structure SerializeState where
  para : Nat
  segment : Nat
  incrementPara : Bool
deriving DecidableEq, Repr

/-- What a part of the serializer appends to the output, from a state to the next. -/
abbrev Emit := SerializeState → List Piece × SerializeState

namespace Emit

def write (chars : List Char) : Emit := fun state => ([.text chars], state)

def nothing : Emit := fun state => ([], state)

def seq (first second : Emit) : Emit := fun state =>
  let (before, between) := first state
  let (after, last) := second between
  (before ++ after, last)

end Emit

end Pieces

section Serializer

def voidElements : List String :=
  ["area", "base", "br", "col", "embed", "hr", "img", "input", "keygen", "link", "meta",
    "param", "source", "track", "wbr"]

def spanSkipElements : List String := ["script", "style", "pre", "audio", "video", "svg", "math"]

def rawTextElements : List String :=
  ["iframe", "noembed", "noframes", "noscript", "plaintext", "script", "style", "xmp"]

def isParagraphElement (name : String) : Bool :=
  ["p", "ol", "ul", "table", "h1", "h2", "h3", "h4", "h5", "h6"].contains name

def writeQuoted (value : String) : List Char :=
  let quote := if value.toList.contains '\x22' then '\x27' else '\x22'
  quote :: value.toList ++ [quote]

def writeRawAttribute (name value : String) : List Char :=
  ' ' :: name.toList ++ "=\x22".toList ++ escapeAttribute value.toList ++ ['\x22']

def QualName.rendered (name : QualName) : String :=
  match name.nsPrefix with
  | some ns => if ns = "" then name.localName else ns ++ ":" ++ name.localName
  | none => name.localName

def writeAttribute (attr : Attribute) : List Char :=
  writeRawAttribute attr.name.rendered attr.value

def hasRenderedAttr (attrs : List Attribute) (localName : String)
    (nsPrefix : Option String) : Bool :=
  attrs.any fun attr =>
    toAsciiLowercase attr.name.localName == toAsciiLowercase localName &&
      attr.name.nsPrefix.filter (· ≠ "") == nsPrefix

/-- An attribute that XML parsers need, unless the element has it. -/
def missingAttribute (attrs : List Attribute) (localName : String) (nsPrefix : Option String)
    (name value : String) : List Char :=
  if hasRenderedAttr attrs localName nsPrefix then [] else writeRawAttribute name value

def polyglotAttributes (tag : String) (attrs : List Attribute) : List Char :=
  if tag = "html" then missingAttribute attrs "xmlns" none "xmlns" "http://www.w3.org/1999/xhtml"
  else if tag = "svg" then
    missingAttribute attrs "xmlns" none "xmlns" "http://www.w3.org/2000/svg" ++
      missingAttribute attrs "xlink" (some "xmlns") "xmlns:xlink" "http://www.w3.org/1999/xlink"
  else if tag = "math" then
    missingAttribute attrs "xmlns" none "xmlns" "http://www.w3.org/1998/Math/MathML"
  else if tag = "script" then missingAttribute attrs "type" none "type" "text/javascript"
  else if tag = "style" then missingAttribute attrs "type" none "type" "text/css"
  else []

def writeDoctype (name publicId systemId : String) : List Char :=
  "<!DOCTYPE ".toList ++ name.toList ++
    (if publicId ≠ "" then
      " PUBLIC ".toList ++ writeQuoted publicId ++
        (if systemId ≠ "" then ' ' :: writeQuoted systemId else [])
    else if systemId ≠ "" then " SYSTEM ".toList ++ writeQuoted systemId else []) ++ ['>']

/-- The start tag up to its closing bracket. -/
def writeStartTag (polyglot : Bool) (tag : String) (attrs : List Attribute) : List Char :=
  '<' :: tag.toList ++ attrs.flatMap writeAttribute ++
    (if polyglot then polyglotAttributes tag attrs else [])

/-- Text as it stands in the document without spans. -/
def writeText (polyglot rawText smarten : Bool) (contents : List Char) : List Char :=
  let transformed := if smarten then smartypants contents else contents
  if rawText then transformed else escapeText polyglot transformed

/-- A new span: the first of its paragraph, or the next. -/
def SerializeState.nextSpan (state : SerializeState) : SerializeState :=
  if state.incrementPara then ⟨state.para + 1, 1, false⟩
  else { state with segment := state.segment + 1 }

def SerializeState.spanStart (state : SerializeState) : Piece := .spanStart state.para state.segment

def emitSentence (polyglot rawText smarten parentIsP : Bool) (sentence : List Char) : Emit :=
  fun state =>
    if !parentIsP && sentence.all isWhitespace then
      ([.text (if rawText then sentence else escapeText polyglot sentence)], state)
    else
      ([state.nextSpan.spanStart,
        .text (escapeText polyglot (if smarten then smartypants sentence else sentence)), .spanEnd],
        state.nextSpan)

def emitTextSpans (polyglot rawText smarten parentIsP : Bool) (text : List Char) : Emit :=
  (splitSentences text).foldr
    (fun sentence rest =>
      (emitSentence polyglot rawText smarten parentIsP sentence).seq rest) .nothing

/-- A span around what is emitted from within a paragraph of its own. -/
def emitImageSpan (image : Emit) : Emit := fun state =>
  let state : SerializeState := ⟨state.para + 1, 1, false⟩
  let (pieces, last) := image state
  (state.spanStart :: pieces ++ [.spanEnd], last)

/-- A document as a tree. -/
inductive Dom where
  | node (id : NodeId) (data : NodeKind) (children : List Dom)
deriving Repr

def Dom.data : Dom → NodeKind
  | node _ data _ => data

/-- What stays the same over a call of `serialize_node`. -/
structure SerializeOptions where
  polyglot : Bool
  spanBody : Option NodeId
  emitSpans : Bool
deriving DecidableEq, Repr

/-- What a node is told by its parent. -/
structure SerializeContext where
  rawText : Bool
  inBody : Bool
  spanActive : Bool
  smartenAllowed : Bool
deriving DecidableEq, Repr

/-- What an element tells its children. -/
def SerializeContext.child (options : SerializeOptions) (context : SerializeContext) (id : NodeId)
    (tag : String) : SerializeContext where
  rawText := rawTextElements.contains tag
  inBody := context.inBody || options.spanBody == some id
  spanActive :=
    (context.spanActive || (options.emitSpans && options.spanBody == some id)) &&
      !spanSkipElements.contains tag
  smartenAllowed := context.smartenAllowed && !(["pre", "code", "style", "script"].contains tag)

def SerializeContext.document (context : SerializeContext) : SerializeContext where
  rawText := false
  inBody := false
  spanActive := false
  smartenAllowed := context.smartenAllowed

/-- How an image in a span is serialized. -/
def SerializeContext.image (context : SerializeContext) : SerializeContext where
  rawText := false
  inBody := context.inBody
  spanActive := false
  smartenAllowed := false

def startParagraph (starts : Bool) : Emit := fun state =>
  ([], if starts then { state with incrementPara := true } else state)

mutual

def serializeNodeInner (options : SerializeOptions) (context : SerializeContext) : Dom → Emit
  | .node id data children =>
    match data with
    | .document => serializeChildren options context.document false children
    | .doctype name publicId systemId => .write (writeDoctype name publicId systemId)
    | .text contents =>
      if context.spanActive && context.inBody then
        emitTextSpans options.polyglot context.rawText context.smartenAllowed false
          contents.toList
      else
        .write (writeText options.polyglot context.rawText
          (context.smartenAllowed && context.inBody) contents.toList)
    | .comment contents => .write ("<!--".toList ++ contents.toList ++ "-->".toList)
    | .processingInstruction target data =>
      .write ("<?".toList ++ target.toList ++ data.toList ++ "?>".toList)
    | .element name attrs _ _ =>
      let tag := name.localName
      let start := writeStartTag options.polyglot tag attrs
      if voidElements.contains tag then .write (start ++ "/>".toList)
      else
        let inner := context.child options id tag
        (Emit.write (start ++ ['>'])).seq
          ((startParagraph (inner.spanActive && isParagraphElement tag)).seq
            ((serializeChildren options inner (tag == "p") children).seq
              (.write ("</".toList ++ tag.toList ++ ['>']))))

def serializeChildren (options : SerializeOptions) (context : SerializeContext) (parentIsP : Bool) :
    List Dom → Emit
  | [] => .nothing
  | child :: rest =>
    let emitted : Emit :=
      if context.spanActive then
        match child.data with
        | .text contents =>
          emitTextSpans options.polyglot context.rawText context.smartenAllowed parentIsP
            contents.toList
        | .element name _ _ _ =>
          if name.localName = "img" then
            emitImageSpan
              (serializeNodeInner ⟨options.polyglot, none, false⟩ context.image child)
          else serializeNodeInner options context child
        | _ => serializeNodeInner options context child
      else serializeNodeInner options context child
    emitted.seq (serializeChildren options context parentIsP rest)

end

section Equations

variable {options : SerializeOptions} {context : SerializeContext} {id : NodeId}
  {children : List Dom}

theorem serialize_document :
    serializeNodeInner options context (.node id .document children) =
      serializeChildren options context.document false children := rfl

theorem serialize_text (contents : String) :
    serializeNodeInner options context (.node id (.text contents) children) =
      if context.spanActive && context.inBody then
        emitTextSpans options.polyglot context.rawText context.smartenAllowed false contents.toList
      else
        .write (writeText options.polyglot context.rawText
          (context.smartenAllowed && context.inBody) contents.toList) := rfl

theorem serialize_element (name : QualName) (attrs : List Attribute) (contents : Option NodeId)
    (integration : Bool) :
    serializeNodeInner options context
      (.node id (.element name attrs contents integration) children) =
      if voidElements.contains name.localName then
        .write (writeStartTag options.polyglot name.localName attrs ++ "/>".toList)
      else
        (Emit.write (writeStartTag options.polyglot name.localName attrs ++ ['>'])).seq
          ((startParagraph ((context.child options id name.localName).spanActive &&
              isParagraphElement name.localName)).seq
            ((serializeChildren options (context.child options id name.localName)
                (name.localName == "p") children).seq
              (.write ("</".toList ++ name.localName.toList ++ ['>'])))) := rfl

end Equations

def serializeNode (dom : Dom) (rawText polyglot : Bool) (spanBody : Option NodeId)
    (emitSpans smarten : Bool) : List Piece :=
  (serializeNodeInner ⟨polyglot, spanBody, emitSpans⟩ ⟨rawText, false, false, smarten⟩ dom
    ⟨0, 0, false⟩).1

end Serializer

section Erasing

variable {first second spanned plain : Emit} {left right : List Char} {safe safe' : Prop}

/-- `emit` without the inserted tags is `chars`. -/
def Erases (emit : Emit) (chars : List Char) : Prop := ∀ state, erased (emit state).1 = chars

/-- `emit` is `chars`. -/
def Renders (emit : Emit) (chars : List Char) : Prop := ∀ state, rendered (emit state).1 = chars

/-- Without its tags, the output with spans is at least as long as the plain output, and it
is the plain output exactly when `safe` holds. -/
def Matches (safe : Prop) (spanned plain : Emit) : Prop :=
  ∃ with_ without, Erases spanned with_ ∧ Renders plain without ∧
    without.length ≤ with_.length ∧ (with_.length = without.length → safe) ∧
      (safe → with_ = without)

theorem erases_write (chars : List Char) : Erases (.write chars) chars := by
  intro state
  simp [Emit.write, erased, Piece.erase]

theorem renders_write (chars : List Char) : Renders (.write chars) chars := by
  intro state
  simp [Emit.write, rendered]

theorem Erases.seq (erases : Erases first left)
    (erases' : Erases second right) : Erases (first.seq second) (left ++ right) := by
  intro state
  simp only [Emit.seq, erased, flatMap_append]
  exact congrArg₂ (· ++ ·) (erases state) (erases' _)

theorem Renders.seq (renders : Renders first left)
    (renders' : Renders second right) : Renders (first.seq second) (left ++ right) := by
  intro state
  simp only [Emit.seq, rendered, flatMap_append]
  exact congrArg₂ (· ++ ·) (renders state) (renders' _)

/-- The same text on both sides. -/
theorem matches_write (chars : List Char) : Matches True (.write chars) (.write chars) :=
  ⟨chars, chars, erases_write chars, renders_write chars, Nat.le_refl _, fun _ => trivial,
    fun _ => rfl⟩

theorem matches_nothing : Matches True .nothing .nothing :=
  ⟨[], [], fun _ => rfl, fun _ => rfl, Nat.le_refl _, fun _ => trivial, fun _ => rfl⟩

theorem matches_startParagraph (starts starts' : Bool) :
    Matches True (startParagraph starts) (startParagraph starts') :=
  ⟨[], [], fun _ => rfl, fun _ => rfl, Nat.le_refl _, fun _ => trivial, fun _ => rfl⟩

variable (matched : Matches safe spanned plain)
include matched

theorem Matches.congr
    (same : safe ↔ safe') : Matches safe' spanned plain := by
  obtain ⟨with_, without, erases, renders, length, necessary, sufficient⟩ := matched
  exact ⟨with_, without, erases, renders, length, fun equal => same.mp (necessary equal),
    fun holds => sufficient (same.mpr holds)⟩

/-- Parts match one after the other: none of them can make up for another. -/
theorem Matches.seq {spanned' plain' : Emit}
    (matched' : Matches safe' spanned' plain') :
    Matches (safe ∧ safe') (spanned.seq spanned') (plain.seq plain') := by
  obtain ⟨left, leftPlain, erases, renders, length, necessary, sufficient⟩ := matched
  obtain ⟨right, rightPlain, erases', renders', length', necessary', sufficient'⟩ := matched'
  refine ⟨_, _, erases.seq erases', renders.seq renders', ?_, ?_, ?_⟩
  · rw [length_append, length_append]
    omega
  · intro equal
    rw [length_append, length_append] at equal
    exact ⟨necessary (by omega), necessary' (by omega)⟩
  · rintro ⟨holds, holds'⟩
    rw [sufficient holds, sufficient' holds']

theorem Matches.image :
    Matches safe (emitImageSpan spanned) plain := by
  obtain ⟨with_, without, erases, renders, rest⟩ := matched
  refine ⟨with_, without, ?_, renders, rest⟩
  intro state
  have inner := erases ⟨state.para + 1, 1, false⟩
  simpa [emitImageSpan, erased, Piece.erase, SerializeState.spanStart] using inner

end Erasing

section Sentences

variable (polyglot rawText smarten parentIsP : Bool)

/-- What a sentence becomes without the tags of its span. -/
def sentenceText (sentence : List Char) : List Char :=
  if !parentIsP && sentence.all isWhitespace then
    if rawText then sentence else escapeText polyglot sentence
  else escapeText polyglot (if smarten then smartypants sentence else sentence)

/-- A sentence in a span reads the same where text is raw: escaping does not change it. -/
def SentenceSafe (sentence : List Char) : Prop :=
  rawText = true → (!parentIsP && sentence.all isWhitespace) = false →
    escapeText polyglot (if smarten then smartypants sentence else sentence) =
      if smarten then smartypants sentence else sentence

variable {polyglot rawText smarten parentIsP}

theorem erases_sentence (sentence : List Char) :
    Erases (emitSentence polyglot rawText smarten parentIsP sentence)
      (sentenceText polyglot rawText smarten parentIsP sentence) := by
  intro state
  unfold emitSentence sentenceText
  split
  · simp [erased, Piece.erase]
  · simp [erased, Piece.erase, SerializeState.spanStart]

theorem matches_sentence (sentence : List Char) :
    Matches (SentenceSafe polyglot rawText smarten parentIsP sentence)
      (emitSentence polyglot rawText smarten parentIsP sentence)
      (.write (writeText polyglot rawText smarten sentence)) := by
  refine ⟨_, _, erases_sentence sentence, renders_write _, ?_⟩
  unfold sentenceText SentenceSafe writeText
  cases blank : (!parentIsP && sentence.all isWhitespace) with
  | true =>
    -- a blank sentence is not smartened, and smartening would not change it
    have white : sentence.all isWhitespace = true := (Bool.and_eq_true_iff.mp blank).2
    have kept : (if smarten then smartypants sentence else sentence) = sentence := by
      rw [smartypants_of_blank white, ite_self]
    simp [kept]
  | false =>
    cases rawText with
    | false => simp
    | true =>
      simp only [if_true, Bool.false_eq_true, if_false, forall_const]
      refine ⟨length_le_escapeText _ _, escapeText_eq_of_length, id⟩

/-- The sentences of a text in the document without spans are the text. -/
theorem writeText_sentences (text : List Char) :
    (splitSentences text).flatMap (writeText polyglot rawText smarten) =
      writeText polyglot rawText smarten text := by
  refine flatMap_splitSentences ?_ ?_ text
  · simp [writeText, escapeText, smartypants, smartenFrom]
  intro left right blank white
  unfold writeText
  cases smarten <;> cases rawText <;>
    simp only [smartypants_append white, escapeText, flatMap_append, if_true,
      Bool.false_eq_true, if_false]

theorem matches_foldr (sentences : List (List Char)) :
    Matches (∀ sentence ∈ sentences, SentenceSafe polyglot rawText smarten parentIsP sentence)
      (sentences.foldr
        (fun sentence rest => (emitSentence polyglot rawText smarten parentIsP sentence).seq rest)
        .nothing)
      (.write (sentences.flatMap (writeText polyglot rawText smarten))) := by
  induction sentences with
  | nil => exact ⟨[], [], fun _ => rfl, renders_write [], Nat.le_refl _, nofun, fun _ => rfl⟩
  | cons sentence sentences ih =>
    obtain ⟨with_, without, erases, renders, rest⟩ := (matches_sentence sentence).seq ih
    refine Matches.congr ⟨with_, without, erases, ?_, rest⟩ (by simp)
    intro state
    have both := renders state
    simpa [Emit.seq, Emit.write, rendered] using both

/-- No sentence of the text is changed by its span. -/
def TextSafe (polyglot rawText smarten parentIsP : Bool) (text : List Char) : Prop :=
  ∀ sentence ∈ splitSentences text, SentenceSafe polyglot rawText smarten parentIsP sentence

/-- Text in spans, sentence by sentence, and the text as a whole. -/
theorem matches_text (text : List Char) :
    Matches (TextSafe polyglot rawText smarten parentIsP text)
      (emitTextSpans polyglot rawText smarten parentIsP text)
      (.write (writeText polyglot rawText smarten text)) := by
  rw [← writeText_sentences]
  exact matches_foldr _

end Sentences

section Safety

mutual

/-- No text that is put into spans is changed by them. -/
def SpanSafe (options : SerializeOptions) (context : SerializeContext) : Dom → Prop
  | .node id data children =>
    match data with
    | .document => ChildrenSafe options context.document false children
    | .element name _ _ _ =>
      voidElements.contains name.localName = false →
        ChildrenSafe options (context.child options id name.localName)
          (name.localName == "p") children
    | _ => True

def ChildrenSafe (options : SerializeOptions) (context : SerializeContext) (parentIsP : Bool) :
    List Dom → Prop
  | [] => True
  | child :: rest =>
    (match child.data with
      | .text contents =>
        context.spanActive = true →
          TextSafe options.polyglot context.rawText context.smartenAllowed parentIsP
            contents.toList
      | _ => SpanSafe options context child) ∧
    ChildrenSafe options context parentIsP rest

end

/-- The same call without spans. -/
def SerializeOptions.plain (options : SerializeOptions) : SerializeOptions :=
  { options with emitSpans := false }

def SerializeContext.plain (context : SerializeContext) : SerializeContext :=
  { context with spanActive := false }

/-- Spans are only active inside the body. -/
def SerializeContext.Within (context : SerializeContext) : Prop :=
  context.spanActive = true → context.inBody = true

variable {options : SerializeOptions} {context : SerializeContext}

theorem SerializeContext.Within.child (within : context.Within) (id : NodeId) (tag : String) :
    (context.child options id tag).Within := by
  intro active
  simp only [SerializeContext.child, Bool.and_eq_true, Bool.or_eq_true] at active ⊢
  rcases active.1 with outer | ⟨-, body⟩
  · exact .inl (within outer)
  · exact .inr body

theorem SerializeContext.plain_child (id : NodeId) (tag : String) :
    (context.child options id tag).plain = context.plain.child options.plain id tag := by
  simp [SerializeContext.child, SerializeContext.plain, SerializeOptions.plain]

/-- An image stands for itself, with a span around it. -/
theorem matches_image {id : NodeId} {name : QualName} {attrs : List Attribute}
    {contents : Option NodeId} {integration : Bool} {children : List Dom}
    (image : name.localName = "img") :
    Matches True
      (emitImageSpan (serializeNodeInner ⟨options.polyglot, none, false⟩ context.image
        (.node id (.element name attrs contents integration) children)))
      (serializeNodeInner options.plain context.plain
        (.node id (.element name attrs contents integration) children)) := by
  have void : voidElements.contains "img" = true := rfl
  simp only [serialize_element, image, void, if_true]
  exact matches_write _

mutual

theorem matches_node (options : SerializeOptions) : ∀ (context : SerializeContext) (dom : Dom),
    context.Within → (∀ contents, dom.data = .text contents → context.spanActive = false) →
    Matches (SpanSafe options context dom) (serializeNodeInner options context dom)
      (serializeNodeInner options.plain context.plain dom)
  | context, .node id data children, within, inactive => by
      cases data with
      | document =>
        rw [serialize_document, serialize_document]
        exact matches_children options context.document false children nofun
      | doctype | comment | processingInstruction => exact matches_write _
      | text contents =>
        have off := inactive contents rfl
        simp only [serialize_text, SpanSafe, off, SerializeContext.plain, Bool.false_and,
          Bool.false_eq_true, if_false]
        exact matches_write _
      | element name attrs contents integration =>
        simp only [serialize_element, SpanSafe]
        cases void : voidElements.contains name.localName with
        | true =>
          simp only [if_true]
          exact (matches_write _).congr (by simp)
        | false =>
          simp only [Bool.false_eq_true, if_false, forall_const]
          rw [← SerializeContext.plain_child]
          have inner := matches_children options (context.child options id name.localName)
            (name.localName == "p") children (within.child id name.localName)
          exact ((matches_write _).seq ((matches_startParagraph _ _).seq
            (inner.seq (matches_write _)))).congr (by simp)

theorem matches_children (options : SerializeOptions) : ∀ (context : SerializeContext)
    (parentIsP : Bool) (children : List Dom), context.Within →
    Matches (ChildrenSafe options context parentIsP children)
      (serializeChildren options context parentIsP children)
      (serializeChildren options.plain context.plain parentIsP children)
  | _, _, [], _ => matches_nothing
  | context, parentIsP, child :: rest, within => by
      have others := matches_children options context parentIsP rest within
      have itself := matches_node options context child within
      unfold serializeChildren ChildrenSafe
      refine Matches.seq ?_ others
      have plain : context.plain.spanActive = false := rfl
      simp only [plain, Bool.false_eq_true, if_false]
      cases active : context.spanActive with
      | false =>
        have matched := itself fun _ _ => active
        obtain ⟨id, data, children⟩ := child
        cases data with
        | text contents => exact matched.congr (by simp [SpanSafe, Dom.data])
        | _ => exact matched
      | true =>
        have body := within active
        obtain ⟨id, data, children⟩ := child
        cases data with
        | text contents =>
          simp only [if_true, Dom.data, forall_const]
          have written : serializeNodeInner options.plain context.plain
              (.node id (.text contents) children) =
              .write (writeText options.polyglot context.rawText context.smartenAllowed
                contents.toList) := by
            simp [serialize_text, SerializeContext.plain, SerializeOptions.plain, body]
          rw [written]
          exact matches_text _
        | element name attrs contents integration =>
          simp only [if_true, Dom.data]
          split
          · rename_i image
            exact (matches_image image).congr (by simp [SpanSafe, image, voidElements])
          · exact itself nofun
        | document | doctype | comment | processingInstruction => exact itself nofun

end

end Safety

section Ids

/-- Smaller paragraph, or an earlier segment of the same one. -/
def Earlier (left right : Nat × Nat) : Prop := 
  left.1 < right.1 ∨ left.1 = right.1 ∧ left.2 < right.2

instance (left right : Nat × Nat) : Decidable (Earlier left right) :=
  inferInstanceAs (Decidable (_ ∨ _))

/-- From one id to another, always later. -/
def Climbs : Nat × Nat → List (Nat × Nat) → Nat × Nat → Prop
  | first, [], last => first = last
  | first, id :: ids, last => Earlier first id ∧ Climbs id ids last

/-- The id of the last span. -/
def SerializeState.last (state : SerializeState) : Nat × Nat := (state.para, state.segment)

def Climbing (emit : Emit) : Prop :=
  ∀ state, Climbs state.last (spanIds (emit state).1) (emit state).2.last

variable {first middle last left right : Nat × Nat} {ids : List (Nat × Nat)}

theorem Earlier.trans (before : Earlier first middle) (after : Earlier middle last) :
    Earlier first last := by
  unfold Earlier at *
  omega

theorem Earlier.ne (earlier : Earlier left right) : left ≠ right := by
  rintro rfl
  unfold Earlier at earlier
  omega

theorem Climbs.append {ids' : List (Nat × Nat)}
    (climbs : Climbs first ids middle) (climbs' : Climbs middle ids' last) :
    Climbs first (ids ++ ids') last := by
  induction ids generalizing first with
  | nil =>
    obtain rfl : first = middle := climbs
    exact climbs'
  | cons id ids ih => exact ⟨climbs.1, ih climbs.2⟩

theorem Climbs.above (climbs : Climbs first ids last) : ∀ id ∈ ids, Earlier first id := by
  induction ids generalizing first with
  | nil => nofun
  | cons id ids ih =>
    exact forall_mem_cons.mpr
      ⟨climbs.1, fun other later => climbs.1.trans (ih climbs.2 other later)⟩

theorem Climbs.pairwise (climbs : Climbs first ids last) : ids.Pairwise Earlier := by
  induction ids generalizing first with
  | nil => exact .nil
  | cons id ids ih => exact .cons climbs.2.above (ih climbs.2)

theorem climbing_write (chars : List Char) : Climbing (.write chars) := fun _ => rfl

theorem climbing_nothing : Climbing .nothing := fun _ => rfl

theorem climbing_startParagraph (starts : Bool) : Climbing (startParagraph starts) := by
  intro state
  cases starts <;> rfl

theorem Climbing.seq {first second : Emit} (climbing : Climbing first)
    (climbing' : Climbing second) : Climbing (first.seq second) := by
  intro state
  simp only [Emit.seq, spanIds, filterMap_append]
  exact (climbing state).append (climbing' _)

theorem earlier_nextSpan (state : SerializeState) : Earlier state.last state.nextSpan.last := by
  unfold SerializeState.nextSpan
  split <;> simp [Earlier, SerializeState.last]

theorem climbing_sentence (polyglot rawText smarten parentIsP : Bool) (sentence : List Char) :
    Climbing (emitSentence polyglot rawText smarten parentIsP sentence) := by
  intro state
  unfold emitSentence
  split
  · rfl
  · exact ⟨earlier_nextSpan state, rfl⟩

theorem climbing_text (polyglot rawText smarten parentIsP : Bool) (text : List Char) :
    Climbing (emitTextSpans polyglot rawText smarten parentIsP text) := by
  unfold emitTextSpans
  induction splitSentences text with
  | nil => exact climbing_nothing
  | cons sentence sentences ih => exact (climbing_sentence _ _ _ _ sentence).seq ih

theorem Climbing.image {emit : Emit} (climbing : Climbing emit) :
    Climbing (emitImageSpan emit) := by
  intro state
  refine ⟨?_, ?_⟩
  · exact .inl (Nat.lt_succ_self _)
  have inner := climbing ⟨state.para + 1, 1, false⟩
  change Climbs _ (spanIds ((emit ⟨state.para + 1, 1, false⟩).1 ++ [.spanEnd])) _
  unfold spanIds
  rw [filterMap_append]
  exact inner.append rfl

mutual

theorem climbing_node : ∀ (options : SerializeOptions) (context : SerializeContext) (dom : Dom),
    Climbing (serializeNodeInner options context dom)
  | options, context, .node id data children => by
      cases data with
      | document => exact climbing_children options context.document false children
      | doctype | comment | processingInstruction => exact climbing_write _
      | text contents =>
        rw [serialize_text]
        split
        · exact climbing_text _ _ _ _ _
        · exact climbing_write _
      | element name attrs contents integration =>
        rw [serialize_element]
        split
        · exact climbing_write _
        · exact (climbing_write _).seq ((climbing_startParagraph _).seq
            ((climbing_children options _ _ children).seq (climbing_write _)))

theorem climbing_children : ∀ (options : SerializeOptions) (context : SerializeContext)
    (parentIsP : Bool) (children : List Dom),
    Climbing (serializeChildren options context parentIsP children)
  | _, _, _, [] => climbing_nothing
  | options, context, parentIsP, child :: rest => by
      have others := climbing_children options context parentIsP rest
      have itself := climbing_node options context child
      have image := climbing_node ⟨options.polyglot, none, false⟩ context.image child
      unfold serializeChildren
      refine Climbing.seq ?_ others
      split
      · split
        · exact climbing_text _ _ _ _ _
        · split
          · exact image.image
          · exact itself
        · exact itself
      · exact itself

end

/-- The text of an id tells its numbers. -/
theorem spanId_injective
    (same : spanId left.1 left.2 = spanId right.1 right.2) : left = right := by
  have fields : ∀ para segment, split '.' (spanId para segment) =
      ["kobo", para.repr, segment.repr] := by
    intro para segment
    have shape : spanId para segment = ".".intercalate ["kobo", para.repr, segment.repr] := by
      simp [spanId, String.intercalate_cons_cons, ← String.append_assoc]
    rw [shape]
    exact @split_intercalate '.' _ (cons_ne_nil _ _)
      (by simpa using ⟨notMem_toDigits rfl para, notMem_toDigits rfl segment⟩)
  have lists := (fields left.1 left.2).symm.trans (same ▸ fields right.1 right.2)
  simp only [cons.injEq, and_true, true_and, ← String.toList_inj, Nat.toList_repr] at lists
  have value : ∀ n, Nat.ofDigitChars 10 (Nat.toDigits 10 n) 0 = n :=
    fun n => Nat.ofDigitChars_toDigits (by decide) (by decide)
  refine Prod.ext ?_ ?_
  · rw [← value left.1, lists.1, value]
  · rw [← value left.2, lists.2, value]

end Ids

section Document

/-- Erasing the inserted span tags gives the document without spans exactly when no text
of a raw-text element is changed by escaping; the ids are distinct and climb. -/
theorem erased_spans_iff (dom : Dom) (rawText polyglot : Bool) (spanBody : Option NodeId)
    (smarten : Bool) :
    (erased (serializeNode dom rawText polyglot spanBody true smarten) =
        rendered (serializeNode dom rawText polyglot spanBody false smarten) ↔
      SpanSafe ⟨polyglot, spanBody, true⟩ ⟨rawText, false, false, smarten⟩ dom) ∧
    (spanIds (serializeNode dom rawText polyglot spanBody true smarten)).Pairwise Earlier ∧
    ((spanIds (serializeNode dom rawText polyglot spanBody true smarten)).map
      fun id => spanId id.1 id.2).Nodup := by
  have climbs := climbing_node ⟨polyglot, spanBody, true⟩ ⟨rawText, false, false, smarten⟩ dom
    ⟨0, 0, false⟩
  refine ⟨?_, climbs.pairwise, ?_⟩
  · obtain ⟨with_, without, erases, renders, -, necessary, sufficient⟩ :=
      matches_node ⟨polyglot, spanBody, true⟩ ⟨rawText, false, false, smarten⟩ dom nofun
        fun _ _ => rfl
    have spanned : erased (serializeNode dom rawText polyglot spanBody true smarten) = with_ :=
      erases _
    have plain : rendered (serializeNode dom rawText polyglot spanBody false smarten) = without :=
      renders _
    rw [spanned, plain]
    constructor
    · intro same
      exact necessary (congrArg length same)
    · exact sufficient
  · refine List.Pairwise.map _ ?_ climbs.pairwise
    intro left right earlier same
    exact earlier.ne (spanId_injective same)

/-- A `noscript` in the body holds the text `a<b`. -/
def noscriptDom : Dom :=
  .node 1 (.element ⟨none, "", "body"⟩ [] none false)
    [.node 2 (.element ⟨none, "", "noscript"⟩ [] none false) [.node 3 (.text "a<b") []]]

theorem noscript_changes_under_spans :
    erased (serializeNode noscriptDom false false (some 1) true false) =
        "<body><noscript>a&lt;b</noscript></body>".toList ∧
      rendered (serializeNode noscriptDom false false (some 1) false false) =
        "<body><noscript>a<b</noscript></body>".toList := by
  decide +kernel

end Document

end Coppice.Kepub
