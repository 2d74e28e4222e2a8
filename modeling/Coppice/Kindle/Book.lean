import Coppice.Kindle.Markup

/-!
# Kindle books

Opening a book: the active part of its database, the text of that part, its resources, and the
sections the text is taken apart into. Beside the book stands what its links can address: the
fragment index, the flow table, the body of the text and the positions that are linked to.
-/

namespace Coppice.Kindle

open Coppice.Std Coppice.Std.Checked

/-- A section in pieces: a MOBI 6 fragment with its encoding and language, or KF8 markup. -/
inductive SectionMarkup where
  | mobi6 (encoding : Nat) (language : Option String) (pieces : List Mobi6Piece)
  | kf8 (pieces : List Kf8Piece)

/-- The text of a section's markup. -/
def SectionMarkup.text : SectionMarkup → List Char
  | mobi6 encoding _ pieces => decodeText (pieces.flatMap Mobi6Piece.render) encoding
  | kf8 pieces => pieces.flatMap Kf8Piece.render

structure MobiSection where
  name : List Char
  title : Option (List Char)
  markup : SectionMarkup
  textStart : Nat
  textLength : Nat

/-- The document of a section, in UTF-8. -/
def MobiSection.html (part : MobiSection) : List UInt8 :=
  utf8 (.ofList (match part.markup with
    | .mobi6 _ language _ => wrapDocument language part.markup.text
    | .kf8 _ => part.markup.text))

structure MobiResource where
  name : List Char
  contentType : ContentType
  record : Nat

structure MobiFlow where
  name : List Char
  contentType : ContentType
  bytes : List UInt8

structure NavEntry where
  title : List Char
  part : Nat
  fragment : List Char

/-- The navigation tree. -/
inductive MobiNavEntry where
  | node (entry : NavEntry) (children : List MobiNavEntry)

/-- What the links of a book can address. -/
structure LinkSpace where
  fragmentCount : Nat := 0
  targets : List (Nat × List Char) := []
  flowTable : List (Nat × Nat) := []
  body : Nat × Nat := (0, 0)
  positions : List Nat := []

structure MobiBook where
  db : PalmDatabase
  header : PartHeader
  partBase : Nat
  kf8 : Bool
  sections : List MobiSection
  resources : List MobiResource
  flows : List MobiFlow
  navigation : List MobiNavEntry
  space : LinkSpace

section Containers

def fdstTag : List UInt8 := ascii "FDST"

def endRecord : List UInt8 := [0xE9, 0x8E, 0x0D, 0x0A]

def terminators : List (List UInt8) :=
  ["FDST", "FLIS", "FCIS", "SRCS", "CMET", "HUFF", "CDIC", "BOUNDARY"].map ascii

def containers : List (List UInt8) := ["RESC", "CONT", "CRES"].map ascii

def endsResourceRange (bytes : List UInt8) : Bool :=
  bytes = endRecord || terminators.any (·.isPrefixOf bytes)

def isContainerRecord (infer : List UInt8 → Option String) (record : List UInt8) : Bool :=
  endsResourceRange record || containers.any (·.isPrefixOf record) ||
    (ContentType.fromBytes infer record).isImage

end Containers

variable (infer : List UInt8 → Option String)

section Reading

def compressionNone : Nat := 1
def compressionPalmdoc : Nat := 2
def compressionHuffCdic : Nat := 17480

/-- How the text records of a part are decoded. -/
inductive Decoder where
  | stored
  | palmdoc
  | huff (dictionary : HuffCdic)
  | unsupported (compression : Nat)

/-- The dictionary is read before the text, if the part needs one. -/
def readDecoder (db : PalmDatabase) (partBase : Nat) (header : PartHeader) :
    Checked FileError Decoder :=
  if header.compression = compressionHuffCdic then
    match header.huffRecord with
    | none => mobiError "compression type 17480 without a HUFF record number"
    | some record => do
        let huffRecord ← add partBase record
        let cdics ← (List.range' 1 (header.huffCount - 1)).mapM fun offset => do
          return db.record (← add huffRecord offset)
        return .huff (← HuffCdic.parse (db.record huffRecord) cdics)
  else if header.compression = compressionNone then return .stored
  else if header.compression = compressionPalmdoc then return .palmdoc
  else return .unsupported header.compression

def Decoder.decode (decoder : Decoder) (payload text : List UInt8) :
    Checked FileError (List UInt8) :=
  match decoder with
  | .stored => return text ++ payload
  | .palmdoc => decompressPalmdoc payload text
  | .huff dictionary => dictionary.decompress payload text
  | .unsupported compression =>
    mobiError ("unsupported PalmDOC compression type " ++ compression.repr)

/-- One text record of the part, after the text so far. -/
def textRecord (db : PalmDatabase) (partBase : Nat) (header : PartHeader) (decoder : Decoder)
    (text : List UInt8) (offset : Nat) : Checked FileError (List UInt8) := do
  let record := db.record (← add partBase offset)
  if record = [] then return text
  else
    let payload ← stripTrailingEntries record header.extraFlags
    let text ← decoder.decode payload text
    if maxTextBytes < text.length then mobiError "decompressed text exceeds the size limit"
    else return text

def readText (db : PalmDatabase) (partBase : Nat) (header : PartHeader) :
    Checked FileError (List UInt8) := do
  let decoder ← readDecoder db partBase header
  (List.range' 1 header.textRecordCount).foldlM (textRecord db partBase header decoder) []

/-- A record of the resource range, under its place in the range. -/
def resourceOf (index record : Nat) (bytes : List UInt8) : MobiResource :=
  let type := ContentType.fromBytes infer bytes
  if type.isImage then ⟨imageName index type.extension, type, record⟩
  -- A layout or placeholder record takes a slot, which keeps the numbers after it.
  else ⟨resourceName index, .unknown, record⟩

def resourceTurn (db : PalmDatabase) (state : Nat × List MobiResource) :
    Checked FileError (Turn (Nat × List MobiResource) (List MobiResource)) := do
  let (record, resources) := state
  if record < db.records.length then
    let bytes := db.record record
    if endsResourceRange bytes then return .leave resources
    else return .next (← add record 1, resources ++
      [resourceOf infer resources.length record bytes])
  else return .leave resources

def readResources (db : PalmDatabase) (partBase : Nat) (header : PartHeader) :
    Checked FileError (List MobiResource) :=
  match header.firstResource with
  | none => return []
  | some first =>
    if first = 0 then return []
    else do loop (resourceTurn infer db) (db.records.length + 1) (← add partBase first, [])

end Reading

section Flows

/-- The entries of the flow table that lie in the text. -/
def flowEntries (fdst text : List UInt8) (table : Nat) :
    Nat → Nat → Checked FileError (List (Nat × Nat))
  | 0, _ => return []
  | count + 1, index => do
      let at_ ← add table (← mul index 8)
      let start := (← beU32 fdst at_).getD 0
      let stop := (← beU32 fdst (← add at_ 4)).getD 0
      let rest ← flowEntries fdst text table count (index + 1)
      return if stop < start ∨ text.length < start then rest
        else (start, min stop text.length) :: rest

def readFlowTable (db : PalmDatabase) (partBase : Nat) (header : PartHeader) (text : List UInt8) :
    Checked FileError (List (Nat × Nat)) :=
  match header.fdstRecord with
  | none => return [(0, text.length)]
  | some record => do
      let fdst := db.record (← add partBase record)
      if get fdst 0 4 ≠ some fdstTag then return [(0, text.length)]
      else
        let table := (← beU32 fdst 4).getD 12
        let count := (← beU32 fdst 8).getD 0
        let flows ← flowEntries fdst text table count 0
        return if flows = [] then [(0, text.length)] else flows

/-- A flow is a style sheet unless it opens like markup. -/
def flowContentType (bytes : List UInt8) : ContentType :=
  match (decodeLossy (bytes.take 64)).dropWhile isWhitespace with
  | '<' :: _ => .xml
  | _ => .txt

/-- The flow with a number of the table; number 0 is the markup. -/
def flowOf (text : List UInt8) (index : Nat) (range : Nat × Nat) : MobiFlow :=
  let bytes := (get text (min range.1 text.length) (min range.2 text.length)).getD []
  ⟨flowName index (flowContentType bytes), flowContentType bytes, bytes⟩

def flowsOf (text : List UInt8) (flowTable : List (Nat × Nat)) : List MobiFlow :=
  flowTable.tail.zipIdx.map fun entry => flowOf text (entry.2 + 1) entry.1

end Flows

section Assembly

/-- A fragment's label is the place it is inserted at, in decimal digits. -/
def decimalLabel (label : List UInt8) : Nat :=
  let text := (trim (.ofList (decodeLossy label))).toList
  (parseU64 (.ofList (text.dropWhile (· = '0')))).getD 0

/-- The document under assembly, the next fragment, and the place of its chunk in the markup. -/
structure Chunks where
  document : List UInt8
  fragment : Nat
  cursor : Nat

/-- Chunks follow their skeleton in order; a label counts from the first document. -/
def insertChunks (markup : List UInt8) (fragments : List IndexEntry) (fileStart : Nat) :
    Nat → Chunks → Chunks
  | 0, state => state
  | count + 1, state =>
    match fragments[state.fragment]? with
    | none => state
    | some fragment =>
      let length := ((fragment.pair 6).map Prod.snd).getD 0
      let stop := saturatingAdd state.cursor length
      let chunk := (get markup state.cursor stop).getD []
      let place := min (decimalLabel fragment.label - fileStart) state.document.length
      insertChunks markup fragments fileStart count
        ⟨state.document.take place ++ chunk ++ state.document.drop place, state.fragment + 1, stop⟩

/-- The documents so far with their starts, the next fragment, and where the next one starts: the
length of all documents together, which are in memory. -/
structure Assembly where
  documents : List (List UInt8 × Nat) := []
  fragment : Nat := 0
  fileStart : Nat := 0

def assembleSkeleton (markup : List UInt8) (fragments : List IndexEntry) (state : Assembly)
    (skeleton : IndexEntry) : Assembly :=
  match skeleton.pair 6 with
  | none => state
  | some (offset, length) =>
    let stop := saturatingAdd offset length
    let chunks := insertChunks markup fragments state.fileStart ((skeleton.tag 1).getD 0)
      ⟨(get markup offset stop).getD [], state.fragment, stop⟩
    ⟨state.documents ++ [(chunks.document, state.fileStart)], chunks.fragment,
      state.fileStart + chunks.document.length⟩

/-- The rewritten section of one document. -/
def kf8Section (encoding : Nat) (targets : List (Nat × List Char)) (index : Nat)
    (document : List UInt8 × Nat) : Checked FileError MobiSection := do
  let pieces ← rewriteKf8Markup (decodeText document.1 encoding) index targets
  let markup := SectionMarkup.kf8 pieces
  return ⟨sectionName index, firstTitle markup.text, markup, document.2, document.1.length⟩

/-- Sections, flows and addresses of one part. -/
structure Parts where
  sections : List MobiSection
  flows : List MobiFlow := []
  space : LinkSpace

/-- The documents of a part and the targets its links are resolved with. Without skeletons the
markup is one document, and no link is resolved. -/
def kf8Documents (markup : List UInt8) (skeletons fragments : Index) (encoding : Nat) :
    List (List UInt8 × Nat) × List (Nat × List Char) :=
  if skeletons.entries = [] then ([(markup, 0)], [])
  else ((skeletons.entries.foldl (assembleSkeleton markup fragments.entries) {}).documents,
    kf8LinkTargets fragments encoding)

def buildKf8Sections (db : PalmDatabase) (partBase : Nat) (header : PartHeader)
    (text : List UInt8) :
    Checked FileError Parts := do
  let flowTable ← readFlowTable db partBase header text
  let markup := text.take ((flowTable.head?.map Prod.snd).getD text.length)
  let skeletons ← readIndexAt (isContainerRecord infer) db partBase header.skeletonIndex
  let fragments ← readIndexAt (isContainerRecord infer) db partBase header.fragmentIndex
  let (documents, targets) := kf8Documents markup skeletons fragments header.textEncoding
  let sections ← documents.zipIdx.mapM fun document =>
    kf8Section header.textEncoding targets document.2 document.1
  return {
    sections
    flows := flowsOf text flowTable
    space := { fragmentCount := fragments.entries.length, targets, flowTable } }

/-- The title: the updated title of EXTH, else the full name, else the database's name. -/
def bookTitle (db : PalmDatabase) (header : PartHeader) : String :=
  (header.exthString ExthType.updatedTitle).getD (header.fullName.getD db.name)

/-- The rewritten section of one range of the text. -/
def mobi6Section (db : PalmDatabase) (header : PartHeader) (text lower : List UInt8)
    (anchors : List Nat) (ranges : List (Nat × Nat)) (index : Nat) (range : Nat × Nat) :
    Checked FileError MobiSection := do
  let pieces ← rewriteMobi6Markup (← slice text range.1 range.2) (← slice lower range.1 range.2)
    range.1 anchors ranges
  let markup := SectionMarkup.mobi6 header.textEncoding (header.exthString ExthType.language) pieces
  let heading := (firstTitle markup.text).or
    (if index = 0 then some (bookTitle db header).toList else none)
  return ⟨sectionName index, heading, markup, range.1, range.2 - range.1⟩

def buildMobi6Sections (db : PalmDatabase) (header : PartHeader) (text : List UInt8) :
    Checked FileError Parts := do
  let lower := text.map asciiLower
  let body := bodyRange lower
  let anchors ← collectFileposTargets lower
  let ranges ← pageRanges lower body
  let sections ← ranges.zipIdx.mapM fun range =>
    mobi6Section db header text lower anchors ranges range.2 range.1
  return { sections, space := { body, positions := anchors } }

end Assembly

section Navigation

/-- The section a text position falls in, or section 0. -/
def sectionAt (sections : List MobiSection) (position : Nat) : Nat :=
  (sections.findIdx? fun part =>
    part.textStart ≤ position ∧ position < part.textStart + part.textLength).getD 0

/-- Appends an entry to the children that a path of indices leads to. -/
def appendAt : List Nat → NavEntry → List MobiNavEntry → Checked FileError (List MobiNavEntry × Nat)
  | [], entry, siblings => return (siblings ++ [.node entry []], siblings.length)
  | index :: path, entry, siblings => do
      let .node parent children ← item siblings index
      let (children, place) ← appendAt path entry children
      return (siblings.set index (.node parent children), place)

/-- One entry of a depth-tagged list; the path leads to the entry before it. -/
def nestEntry (state : List MobiNavEntry × List Nat) (tagged : Nat × NavEntry) :
    Checked FileError (List MobiNavEntry × List Nat) := do
  let path := state.2.take tagged.1
  let (roots, place) ← appendAt path tagged.2 state.1
  return (roots, path ++ [place])

def nestNavEntries (flat : List (Nat × NavEntry)) : Checked FileError (List MobiNavEntry) := do
  return (← flat.foldlM nestEntry ([], [])).1

/-- An entry without a position or a title is left out. -/
def navEntry (ncx : Index) (encoding : Nat) (sections : List MobiSection) (entry : IndexEntry) :
    Option (Nat × NavEntry) := do
  let position ← entry.tag 1
  let offset ← entry.tag 3
  let title := (trim (.ofList (← ncx.cncxString offset encoding))).toList
  if title = [] then none
  else some ((entry.tag 4).getD 0, ⟨title, sectionAt sections position, []⟩)

def readNavigation (db : PalmDatabase) (partBase : Nat) (header : PartHeader)
    (sections : List MobiSection) : Checked FileError (List MobiNavEntry) :=
  match header.ncxIndex with
  | none => return []
  | some index => do
      let ncx ← readIndex (isContainerRecord infer) db (← add partBase index)
      nestNavEntries (ncx.entries.filterMap (navEntry ncx header.textEncoding sections))

end Navigation

section Opening

/-- The part to read: the KF8 half of a dual-format file, if its boundary leads to one. -/
def activePart (db : PalmDatabase) : Checked FileError (Nat × PartHeader) := do
  let header ← PartHeader.parse (db.record 0)
  match header.exthU32 ExthType.kf8Boundary with
  | none => return (0, header)
  | some boundary =>
    if 0 < boundary ∧ boundary < db.records.length then
      let candidate ← PartHeader.parse (db.record boundary)
      return if kf8Version ≤ candidate.version then (boundary, candidate) else (0, header)
    else return (0, header)

def buildSections (db : PalmDatabase) (partBase : Nat) (header : PartHeader) (text : List UInt8) :
    Checked FileError Parts :=
  if kf8Version ≤ header.version then buildKf8Sections infer db partBase header text
  else buildMobi6Sections db header text

/-- The book in a database. -/
def MobiBook.ofDatabase (db : PalmDatabase) : Checked FileError MobiBook := do
  let (partBase, header) ← activePart db
  if header.encryptionType ≠ 0 then
    fail (.drmProtected ("The MOBI/AZW PalmDOC header declares encryption type " ++
      header.encryptionType.repr ++ ", so its text records are ciphertext."))
  else
    let text ← readText db partBase header
    let resources ← readResources infer db partBase header
    let parts ← buildSections infer db partBase header text
    let navigation ← readNavigation infer db partBase header parts.sections
    return {
      db, header, partBase, kf8 := kf8Version ≤ header.version,
        sections := parts.sections, resources,
      flows := parts.flows, navigation, space := parts.space }

/-- `MobiBook::open`, with the verdict of the DRM detector on the file. -/
def MobiBook.openFile (protection : Option String) (file : Image) : Checked FileError MobiBook :=
  match protection with
  | some reason => fail (.drmProtected reason)
  | none => do MobiBook.ofDatabase infer (← PalmDatabase.openFile file)

end Opening

end Coppice.Kindle
