import Coppice.Kindle.Book

/-!
# Safety of the Kindle reader

On any records, parsing and decoding give a value or an error, with two exceptions: a table of
tags that claims to run past its record is sliced out of range, and the bit count of a record
of 2⁶⁰ bytes overflows. Each is shown to be the only one of its kind.
-/

namespace Coppice.Kindle

open Coppice.Std Coppice.Std.Checked List

variable {infer : List UInt8 → Option String} {db : PalmDatabase} {header : PartHeader}
  {partBase offset index : Nat} (near : partBase < 2 ^ 32) (bounded : header.Bounded)

section Text

variable {decoder : Decoder}

/-- No record has as many bytes as make its bit count overflow. -/
def PalmDatabase.Short (db : PalmDatabase) : Prop := ∀ base, (db.record base).length < 2 ^ 60

def Decoder.WellFormed : Decoder → Prop
  | .huff dictionary => dictionary.WellFormed
  | _ => True

theorem safe_decode (formed : decoder.WellFormed) {payload : List UInt8}
    (short : payload.length < 2 ^ 60) (text : List UInt8) : Safe (decoder.decode payload text) := by
  cases decoder with
  | stored | unsupported compression => exact nofun
  | palmdoc => exact safe_decompressPalmdoc (by omega) text
  | huff dictionary => exact safe_decompress formed short text

theorem returns_textRecord (short : db.Short) (near : partBase < 2 ^ 32) (header : PartHeader)
    (formed : decoder.WellFormed) {text : List UInt8}
    (within : text.length ≤ maxTextBytes) (small : offset ≤ 2 ^ 16) :
    Returns (textRecord db partBase header decoder text offset) fun text =>
      text.length ≤ maxTextBytes := by
  rw [textRecord, add_bind (by omega)]
  refine returns_ite (fun _ => returns_pure within) fun _ => ?_
  refine (returns_stripTrailingEntries _ _).bind fun payload stripped => ?_
  have record := short (partBase + offset)
  refine (safe_decode formed (by omega) text).returns.bind fun text _ => ?_
  exact returns_ite (fun _ => returns_fail) fun fits => returns_pure (Nat.le_of_not_lt fits)

include near bounded

theorem returns_readDecoder : Returns (readDecoder db partBase header) Decoder.WellFormed := by
  refine returns_ite (fun _ => ?_) fun _ => ?_
  · cases found : header.huffRecord with
    | none => exact returns_fail
    | some record =>
      have below := bounded.huffRecord record found
      have counted := bounded.huffCount
      dsimp only
      rw [add_bind (by omega)]
      have cdics : Safe ((List.range' 1 (header.huffCount - 1)).mapM fun offset => do
          return db.record (← (add (partBase + record) offset : Checked FileError Nat))) := by
        refine safe_mapM fun offset listed => ?_
        have := (mem_range'_1.1 listed).2
        rw [add_of_lt (by omega)]
        exact nofun
      refine cdics.returns.bind fun cdics _ => ?_
      exact (returns_huffParse _ cdics).bind fun dictionary formed => returns_pure formed
  · refine returns_ite (fun _ => returns_pure trivial) fun _ => ?_
    exact returns_ite (fun _ => returns_pure trivial) fun _ => returns_pure trivial

theorem returns_readText (short : db.Short) :
    Returns (readText db partBase header) fun text => text.length ≤ maxTextBytes := by
  refine (returns_readDecoder near bounded).bind fun decoder formed => ?_
  refine returns_foldlM _ (fun text within offset listed => ?_) (Nat.zero_le _)
  have := (mem_range'_1.1 listed).2
  have := bounded.textRecordCount
  exact returns_textRecord short near header formed within (by omega)

end Text

section Records

/-- Resources are named by their place and, if they are images, by their type. -/
def ResourcesNamed (resources : List MobiResource) : Prop :=
  ∀ index (resource : MobiResource), resources[index]? = some resource → resource.name =
    if resource.contentType.isImage then imageName index resource.contentType.extension
    else resourceName index

theorem ResourcesNamed.append {resources : List MobiResource} (named : ResourcesNamed resources)
    (record : Nat) (bytes : List UInt8) :
    ResourcesNamed (resources ++ [resourceOf infer resources.length record bytes]) := by
  intro index resource found
  by_cases old : index < resources.length
  · rw [getElem?_append_left old] at found
    exact named index resource found
  rw [getElem?_append_right (Nat.le_of_not_lt old)] at found
  obtain ⟨first, rfl⟩ := List.getElem?_eq_some_iff.1 found
  rw [length_singleton] at first
  obtain rfl : index = resources.length := by omega
  rw [getElem_singleton, resourceOf]
  split
  · rfl
  · have plain : ContentType.unknown.isImage = false := by decide
    rw [plain]
    rfl

theorem safe_flowEntries (fdst text : List UInt8) {table : Nat}
    (below : table < 2 ^ 32) (count : Nat)
    (bounded : index + count ≤ 2 ^ 32) :
    Safe (flowEntries fdst text table count index) := by
  induction count generalizing index with
  | zero => exact nofun
  | succ count ih =>
    rw [flowEntries, mul_of_lt (by omega), ok_bind, add_bind (by omega)]
    refine safe_of_returns ((returns_beU32 (by omega)).bind fun start _ => ?_)
    rw [add_bind (by omega)]
    refine (returns_beU32 (by omega)).bind fun stop _ => ?_
    exact (ih (by omega)).returns.bind fun rest _ => returns_pure trivial

theorem safe_readIndexAt (fit : db.TablesFit) (near : partBase < 2 ^ 32) {index : Option Nat}
    (bounded : PointsBelow index) :
    Safe (readIndexAt (isContainerRecord infer) db partBase index) := by
  cases index with
  | none => exact nofun
  | some index =>
    have below := bounded index rfl
    rw [readIndexAt, add_bind (by omega)]
    exact (safe_readIndex_iff _ db (by omega)).2 (fit _)

include near bounded

theorem returns_readResources :
    Returns (readResources infer db partBase header) ResourcesNamed := by
  have counted : db.records.length ≤ 2 ^ 16 - 1 := db.counted
  rw [readResources]
  cases found : header.firstResource with
  | none => exact returns_pure nofun
  | some first =>
    have below := bounded.firstResource first found
    refine returns_ite (fun _ => returns_pure nofun) fun _ => ?_
    rw [add_bind (by omega)]
    refine returns_loop (fun state => ResourcesNamed state.2)
      (fun state => db.records.length - state.1) ?_ nofun (by dsimp only; omega)
    rintro ⟨record, resources⟩ named
    refine returns_ite (fun inside => ?_) fun _ => returns_pure named
    refine returns_ite (fun _ => returns_pure named) fun _ => ?_
    rw [add_bind (by omega)]
    exact returns_pure ⟨named.append record _, Nat.sub_lt_sub_left inside (Nat.lt_succ_self _)⟩

theorem safe_readFlowTable (text : List UInt8) : Safe (readFlowTable db partBase header text) := by
  rw [readFlowTable]
  cases found : header.fdstRecord with
  | none => exact nofun
  | some record =>
    have below := bounded.fdstRecord record found
    dsimp only
    rw [add_bind (by omega)]
    refine safe_of_returns (returns_ite (fun _ => returns_pure trivial) fun _ => ?_)
    rw [beU32, beWord_eq (by decide), ok_bind]
    refine (returns_beU32 (by decide)).bind fun count counted => ?_
    have table : (wordAt 4 (db.record (partBase + record)) 4).getD 12 < 2 ^ 32 := by
      cases read : wordAt 4 (db.record (partBase + record)) 4 with
      | none => decide
      | some word => exact wordAt_lt read
    exact (safe_flowEntries _ text table _ (by omega)).returns.bind
      fun flows _ => returns_pure trivial

end Records

section Sections

variable {text : List UInt8}

theorem safe_mobi6Section {lower : List UInt8} (same : lower.length = text.length)
    (held : text.length < 2 ^ 63) (anchors : List Nat) (ranges : List (Nat × Nat)) (index : Nat)
    {range : Nat × Nat} (ordered : range.1 ≤ range.2) (inside : range.2 ≤ text.length) :
    Safe (mobi6Section db header text lower anchors ranges index range) := by
  refine safe_of_returns ((returns_slice ordered inside).bind ?_)
  rintro fragment ⟨-, length⟩
  refine (returns_slice ordered (by omega)).bind ?_
  rintro lowerFragment ⟨-, lowerLength⟩
  exact (returns_rewriteMobi6Markup (by omega) (by omega) anchors ranges).bind
    fun pieces _ => returns_pure trivial

theorem safe_buildMobi6Sections (held : text.length < 2 ^ 63) :
    Safe (buildMobi6Sections db header text) := by
  have same : (text.map asciiLower).length = text.length := length_map _
  have body := bodyRange_bounds (text.map asciiLower)
  refine safe_of_returns ((returns_collectFileposTargets (by omega)).bind fun anchors _ => ?_)
  refine (returns_pageRanges (by omega) body.1 body.2).bind fun ranges spaced => ?_
  have sections : Safe (ranges.zipIdx.mapM fun range =>
      mobi6Section db header text (text.map asciiLower) anchors ranges range.2 range.1) := by
    refine safe_mapM fun range listed => ?_
    have inside := spaced.inside range.1 (fst_mem_of_mem_zipIdx listed)
    exact safe_mobi6Section same held anchors ranges range.2 inside.2.1 (by omega)
  exact sections.returns.bind fun sections _ => returns_pure trivial

include near bounded

theorem safe_buildKf8Sections (fit : db.TablesFit) (text : List UInt8) :
    Safe (buildKf8Sections infer db partBase header text) := by
  refine safe_of_returns ((safe_readFlowTable near bounded text).returns.bind fun flowTable _ => ?_)
  refine (safe_readIndexAt fit near bounded.skeletonIndex).returns.bind fun skeletons _ => ?_
  refine (safe_readIndexAt fit near bounded.fragmentIndex).returns.bind fun fragments _ => ?_
  have sections : ∀ (documents : List ((List UInt8 × Nat) × Nat))
    (targets : List (Nat × List Char)),
      Safe (documents.mapM fun document =>
        kf8Section header.textEncoding targets document.2 document.1) := fun documents targets =>
    safe_mapM fun document _ => safe_of_returns
      ((returns_rewriteKf8Markup _ _ _).bind fun pieces _ => returns_pure trivial)
  exact (sections _ _).returns.bind fun sections _ => returns_pure trivial

theorem safe_buildSections (fit : db.TablesFit) (held : text.length < 2 ^ 63) :
    Safe (buildSections infer db partBase header text) :=
  safe_of_returns (returns_ite (fun _ => (safe_buildKf8Sections near bounded fit text).returns)
    fun _ => (safe_buildMobi6Sections held).returns)

end Sections

section Navigation

variable {path : List Nat} {siblings : List MobiNavEntry}

/-- A path of indices that leads to a place in the tree. -/
def Leads : List Nat → List MobiNavEntry → Prop
  | [], _ => True
  | index :: path, siblings =>
    ∃ entry children, siblings[index]? = some (.node entry children) ∧ Leads path children

theorem leads_take (leads : Leads path siblings)
    (depth : Nat) : Leads (path.take depth) siblings := by
  induction path generalizing siblings depth with
  | nil => rw [take_nil]; trivial
  | cons index path ih =>
    cases depth with
    | zero => trivial
    | succ depth =>
      obtain ⟨entry, children, found, below⟩ := leads
      exact ⟨entry, children, found, ih below depth⟩

/-- Appending at a path that leads somewhere makes the path to the new entry lead to it. -/
theorem returns_appendAt (leads : Leads path siblings) (entry : NavEntry) :
    Returns (appendAt path entry siblings) fun result => Leads (path ++ [result.2]) result.1 := by
  induction path generalizing siblings with
  | nil =>
    refine returns_pure ⟨entry, [], ?_, trivial⟩
    exact getElem?_concat_length
  | cons index path ih =>
    obtain ⟨parent, children, found, below⟩ := leads
    have inside := (List.getElem?_eq_some_iff.1 found).1
    rw [appendAt, item, found]
    refine (ih below).bind ?_
    rintro ⟨children, place⟩ further
    refine returns_pure ⟨parent, children, ?_, further⟩
    exact getElem?_set_self inside

theorem safe_nestNavEntries (flat : List (Nat × NavEntry)) : Safe (nestNavEntries flat) := by
  have nested : Returns (flat.foldlM nestEntry ([], [])) fun state => Leads state.2 state.1 := by
    refine returns_foldlM _ (fun state leads tagged _ => ?_) trivial
    exact (returns_appendAt (leads_take leads tagged.1) tagged.2).bind
      fun result further => returns_pure further
  exact safe_of_returns (nested.bind fun state _ => returns_pure trivial)

include near bounded in
theorem safe_readNavigation (fit : db.TablesFit) (sections : List MobiSection) :
    Safe (readNavigation infer db partBase header sections) := by
  rw [readNavigation]
  cases found : header.ncxIndex with
  | none => exact nofun
  | some index =>
    have below := bounded.ncxIndex index found
    dsimp only
    rw [add_bind (by omega)]
    have read :=
      (safe_readIndex_iff (isContainerRecord infer) db (by omega)).2 (fit (partBase + index))
    exact safe_of_returns (read.returns.bind fun ncx _ => (safe_nestNavEntries _).returns)

end Navigation

section Opening

theorem returns_activePart : Returns (activePart db) fun part =>
    part.1 < 2 ^ 32 ∧ part.2.Bounded := by
  have counted : db.records.length ≤ 2 ^ 16 - 1 := db.counted
  refine (returns_parse (db.record_held 0)).bind fun header bounded => ?_
  cases header.exthU32 ExthType.kf8Boundary with
  | none => exact returns_pure ⟨Nat.two_pow_pos 32, bounded⟩
  | some boundary =>
    refine returns_ite (fun inside => ?_) fun _ => returns_pure ⟨Nat.two_pow_pos 32, bounded⟩
    refine (returns_parse (db.record_held boundary)).bind fun candidate further => returns_pure ?_
    split
    · exact ⟨by dsimp only; omega, further⟩
    · exact ⟨Nat.two_pow_pos 32, bounded⟩

theorem safe_ofDatabase (short : db.Short) (fit : db.TablesFit) :
    Safe (MobiBook.ofDatabase infer db) := by
  refine safe_of_returns (returns_activePart.bind ?_)
  rintro ⟨partBase, header⟩ ⟨near, bounded⟩
  refine returns_ite (fun _ => returns_fail) fun _ => ?_
  refine (returns_readText near bounded short).bind fun text within => ?_
  have held : text.length < 2 ^ 63 := Nat.lt_of_le_of_lt within (by decide)
  refine (returns_readResources near bounded).bind fun resources _ => ?_
  refine (safe_buildSections near bounded fit held).returns.bind fun parts _ => ?_
  exact (safe_readNavigation near bounded fit parts.sections).returns.bind
    fun navigation _ => returns_pure trivial

/-- Every part of the reader gives a value or an error, on every record of a database. -/
structure SafeOn (infer : List UInt8 → Option String) (db : PalmDatabase) : Prop where
  header : ∀ base, Safe (PartHeader.parse (db.record base))
  exth : ∀ base start, start < 2 ^ 33 → Safe (parseExth (db.record base) start)
  trailing : ∀ base extraFlags, Safe (stripTrailingEntries (db.record base) extraFlags)
  palmdoc : ∀ base out, Safe (decompressPalmdoc (db.record base) out)
  dictionary : ∀ huff cdics, Safe (HuffCdic.parse huff cdics)
  huff : ∀ huff cdics dictionary, HuffCdic.parse huff cdics = .ok dictionary →
    ∀ base out, Safe (dictionary.decompress (db.record base) out)
  entries : ∀ base controlBytes rows, controlBytes < 2 ^ 32 →
    Safe (parseIndexEntries (db.record base) controlBytes rows)
  index : ∀ base, base < 2 ^ 33 → Safe (readIndex (isContainerRecord infer) db base)
  sections : ∀ base header text, PartHeader.parse (db.record base) = .ok header → base < 2 ^ 32 →
    text.length ≤ maxTextBytes → Safe (buildSections infer db base header text)
  book : Safe (MobiBook.ofDatabase infer db)

/-- A code table of which nothing is known but that it parses. -/
def blankHuff : List UInt8 := huffTag ++ List.replicate 1020 0

theorem length_blankHuff : blankHuff.length = 1024 := by
  rw [blankHuff, length_append, length_replicate]
  rfl

theorem exists_mapM {α β ε : Type} {f : α → Checked ε β} {inputs : List α}
    (each : ∀ input ∈ inputs, ∃ output, f input = .ok output) :
    ∃ outputs, inputs.mapM f = .ok outputs := by
  induction inputs with
  | nil => exact ⟨[], rfl⟩
  | cons input inputs ih =>
    obtain ⟨output, first⟩ := each input mem_cons_self
    obtain ⟨outputs, rest⟩ := ih (forall_mem_cons.1 each).2
    exact ⟨output :: outputs, by rw [mapM_cons, first, ok_bind, rest]; rfl⟩

theorem exists_shiftedMax {rawMax : Nat} (below : rawMax < 2 ^ 32) (codeLength : Nat) :
    ∃ most, shiftedMax rawMax codeLength = .ok most := by
  have safe := safe_shiftedMax below codeLength
  unfold shiftedMax at safe ⊢
  split at safe
  · exact ⟨0, by rw [if_pos ‹_›]; rfl⟩
  rw [if_neg ‹_›, add_bind (by omega)]
  rw [add_bind (by omega)] at safe
  unfold sub at safe ⊢
  split at safe
  · exact ⟨_, if_pos ‹_›⟩
  · exact absurd rfl (safe _)

/-- A word inside the bytes is read. -/
theorem exists_beU32 {bytes : List UInt8} (inside : offset + 4 ≤ bytes.length)
    (short : bytes.length < 2 ^ 64) : ∃ word < 2 ^ 32, beU32 bytes offset = .ok (some word) := by
  have found := get_of_le (Nat.le_add_right offset 4) inside
  rw [beU32, beWord_eq (by omega), wordAt, found]
  refine ⟨_, ?_, rfl⟩
  exact @wordAt_lt bytes offset 4 _ (by rw [wordAt, found]; rfl)

theorem exists_huffSlot {slot : Nat} (small : slot < 256) :
    ∃ found, huffSlot blankHuff 0 slot = .ok found := by
  obtain ⟨raw, below, read⟩ := @exists_beU32 (0 + slot * 4) blankHuff
    (by rw [length_blankHuff]; omega) (by rw [length_blankHuff]; decide)
  obtain ⟨most, shifted⟩ := exists_shiftedMax
    (Nat.lt_of_le_of_lt (Nat.div_le_self raw 256) below) (raw % 32)
  rw [huffSlot, mul_of_lt (by omega), ok_bind, add_bind (by omega), read, ok_bind]
  dsimp only
  rw [shifted]
  exact ⟨_, rfl⟩

theorem exists_huffBounds (small : index < 32) :
    ∃ found, huffBounds blankHuff 0 index = .ok found := by
  obtain ⟨low, -, readLow⟩ := @exists_beU32 (0 + index * 8) blankHuff
    (by rw [length_blankHuff]; omega) (by rw [length_blankHuff]; decide)
  obtain ⟨high, below, readHigh⟩ := @exists_beU32 (0 + index * 8 + 4) blankHuff
    (by rw [length_blankHuff]; omega) (by rw [length_blankHuff]; decide)
  obtain ⟨most, shifted⟩ := exists_shiftedMax below (index + 1)
  rw [huffBounds, mul_of_lt (by omega), ok_bind, add_bind (by omega), readLow, ok_bind]
  dsimp only
  rw [add_bind (by omega), readHigh, ok_bind, Option.getD_some, shifted]
  exact ⟨_, rfl⟩

theorem parse_blankHuff : ∃ dictionary, HuffCdic.parse blankHuff [] = .ok dictionary := by
  have tag : get blankHuff 0 4 = some huffTag := by
    rw [get_of_le (by decide) (by rw [length_blankHuff]; decide)]
    rfl
  have zero : ∀ offset ∈ [8, 12], beU32 blankHuff offset = .ok (some 0) := by
    intro offset either
    have inside : offset + 4 ≤ blankHuff.length := by
      rw [length_blankHuff]
      simp at either
      omega
    rw [beU32, beWord_eq (by rw [length_blankHuff] at inside; omega), wordAt,
      get_of_le (Nat.le_add_right _ _) inside]
    simp only [mem_cons, not_mem_nil, or_false] at either
    rcases either with rfl | rfl <;> rfl
  obtain ⟨dict1, slots⟩ := exists_mapM fun slot member =>
    exists_huffSlot (mem_range.mp (member : slot ∈ List.range 256))
  obtain ⟨bounds, bounded⟩ := exists_mapM fun index member =>
    exists_huffBounds (mem_range.mp (member : index ∈ List.range 32))
  rw [HuffCdic.parse, if_neg (not_not_intro tag), zero 8 (by simp), ok_bind,
    zero 12 (by simp), ok_bind]
  dsimp only [Option.getD_some]
  rw [slots, ok_bind, bounded, ok_bind]
  exact ⟨_, rfl⟩

/-- The reader is safe on a database exactly if the table of tags of every index record ends
inside the record and no record has 2⁶⁰ bytes. -/
theorem safeOn_iff (infer : List UInt8 → Option String) (db : PalmDatabase) :
    SafeOn infer db ↔ db.TablesFit ∧ db.Short := by
  constructor
  · intro safe
    refine ⟨fun base tagged => ?_, fun base => ?_⟩
    · have listed : base < db.records.length := by
        by_contra outside
        have empty : db.record base = [] := by
          rw [PalmDatabase.record, getD_eq_getElem?_getD,
            getElem?_eq_none (Nat.le_of_not_lt outside)]
          rfl
        rw [empty] at tagged
        cases tagged
      have counted : db.records.length ≤ 2 ^ 16 - 1 := db.counted
      exact (safe_readIndex_iff _ db (by omega)).1 (safe.index base (by omega)) tagged
    · by_contra long
      obtain ⟨dictionary, parsed⟩ := parse_blankHuff
      have expanded := safe.huff blankHuff [] dictionary parsed base []
      rw [decompress_fault dictionary (Nat.le_of_not_lt long)] at expanded
      exact expanded .overflow rfl
  · rintro ⟨fit, short⟩
    constructor
    case header => exact fun base => (returns_parse (db.record_held base)).safe
    case exth => exact fun base start below => safe_parseExth (db.record_held base) (by omega)
    case trailing => exact fun base extraFlags => (returns_stripTrailingEntries _ extraFlags).safe
    case palmdoc => exact fun base out => safe_decompressPalmdoc (db.record_held base) out
    case dictionary => exact fun huff cdics => (returns_huffParse huff cdics).safe
    case huff =>
      intro huff cdics dictionary parsed base out
      exact safe_decompress ((returns_huffParse huff cdics).post parsed) (short base) out
    case entries =>
      exact fun base controlBytes rows below =>
        safe_parseIndexEntries (db.record_held base) below rows
    case index => exact fun base near => (safe_readIndex_iff _ db (by omega)).2 (fit base)
    case sections =>
      intro base header text parsed near within
      have held : text.length < 2 ^ 63 := Nat.lt_of_le_of_lt within (by decide)
      exact safe_buildSections near ((returns_parse (db.record_held base)).post parsed) fit held
    case book => exact safe_ofDatabase short fit

/-- A MOBI header that names record 1 as its navigation index. -/
def ncxHeader : List UInt8 :=
  [0, 1] ++ List.replicate 14 0 ++ mobiTag ++ [0, 0, 0, 232] ++ List.replicate 220 0 ++ [0, 0, 0, 1]

/-- An index record whose table claims one row, which the record does not have. -/
def truncatedTable : List UInt8 :=
  indxTag ++ [0, 0, 0, 28] ++ List.replicate 20 0 ++ tagxTag ++ [0, 0, 0, 16, 0, 0, 0, 1]

def truncatedTableDatabase : PalmDatabase where
  records := [ncxHeader, truncatedTable]
  name := "truncated"
  held := by decide +kernel
  counted := by decide

/-- A row that is claimed and missing ends the opening of a book in a panic. -/
theorem truncated_table_panics :
    faultOf (MobiBook.ofDatabase (fun _ => none) truncatedTableDatabase) = some .outOfRange ∧
      ¬SafeOn (fun _ => none) truncatedTableDatabase := by
  have panics : faultOf (MobiBook.ofDatabase (fun _ => none) truncatedTableDatabase) =
      some .outOfRange := by decide +kernel
  exact ⟨panics, fun safe => not_safe_of_faultOf panics safe.book⟩

end Opening

end Coppice.Kindle
