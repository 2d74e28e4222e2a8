import Coppice.Kindle.Database

/-!
# Text records

Trailing entries, variable-width integers, and the two ways a text record is compressed:
PalmDOC and HUFF/CDIC.
-/

namespace Coppice.Kindle

open Coppice.Std Coppice.Std.Checked List

section Trailing

/-- Seven bits per byte from the end of a record, up to the byte with the top bit. -/
def backwardVwiFrom : Nat → List UInt8 → Nat
  | _, [] => 0
  | shift, byte :: rest =>
    byte.toNat % 128 * 2 ^ (7 * shift) +
      if 128 ≤ byte.toNat then 0 else backwardVwiFrom (shift + 1) rest

def backwardVwi (bytes : List UInt8) : Nat := backwardVwiFrom 0 (bytes.reverse.take 4)

/-- Drops the entries of the given flag bits, then the multibyte overlap of bit 0. -/
def stripFrom (record : List UInt8) (extraFlags : Nat) :
    List Nat → Nat → Checked FileError (List UInt8)
  | [], stop =>
    if extraFlags.testBit 0 ∧ 0 < stop then do
      let last ← item record (← sub stop 1)
      let overlap := last.toNat % 4 + 1
      slice record 0 (stop - overlap)
    else slice record 0 stop
  | bit :: bits, stop =>
    if extraFlags.testBit bit then do
      let size := backwardVwi (← slice record 0 stop)
      if size = 0 ∨ stop < size then slice record 0 stop
      else stripFrom record extraFlags bits (← sub stop size)
    else stripFrom record extraFlags bits stop

def stripTrailingEntries (record : List UInt8) (extraFlags : Nat) :
    Checked FileError (List UInt8) :=
  stripFrom record extraFlags (List.range' 1 15).reverse record.length

theorem returns_stripFrom {record : List UInt8} (extraFlags : Nat) {bits : List Nat} {stop : Nat}
    (inside : stop ≤ record.length) :
    Returns (stripFrom record extraFlags bits stop) fun payload =>
      payload.length ≤ record.length := by
  have whole : ∀ {stop : Nat}, stop ≤ record.length →
      Returns (slice record 0 stop : Checked FileError _) fun payload =>
        payload.length ≤ record.length := by
    intro stop inside
    refine (returns_slice (Nat.zero_le _) inside).mono ?_
    rintro payload ⟨-, length⟩
    omega
  induction bits generalizing stop with
  | nil =>
    refine returns_ite ?_ fun _ => whole inside
    rintro ⟨-, some⟩
    rw [sub_of_le some]
    exact (returns_item (by omega)).bind fun last _ => whole (by omega)
  | cons bit bits ih =>
    refine returns_ite (fun _ => ?_) fun _ => ih inside
    refine (returns_slice (Nat.zero_le _) inside).bind fun before _ => ?_
    refine returns_ite (fun _ => whole inside) fun fits => ?_
    rw [sub_of_le (by omega)]
    exact ih (by omega)

theorem returns_stripTrailingEntries (record : List UInt8) (extraFlags : Nat) :
    Returns (stripTrailingEntries record extraFlags) fun payload =>
      payload.length ≤ record.length :=
  returns_stripFrom extraFlags (Nat.le_refl _)

/-- Seven bits per byte, the last byte with the top bit: the value and the bytes it took. -/
def forwardVwiFrom (value : Nat) : List UInt8 → Nat × Nat
  | [] => (value, 0)
  | byte :: rest =>
    let value := value * 128 % 2 ^ 32 + byte.toNat % 128
    if 128 ≤ byte.toNat then (value, 1)
    else
      let (value, taken) := forwardVwiFrom value rest
      (value, taken + 1)

/-- A forward-encoded integer at `cursor`, and the cursor after it. -/
def forwardVwi (bytes : List UInt8) (cursor : Nat) : Nat × Nat :=
  let (value, taken) := forwardVwiFrom 0 (bytes.drop cursor)
  (value, cursor + taken)

theorem forwardVwiFrom_taken (value : Nat) (bytes : List UInt8) :
    (forwardVwiFrom value bytes).2 ≤ bytes.length ∧
      (bytes ≠ [] → 0 < (forwardVwiFrom value bytes).2) := by
  induction bytes generalizing value with
  | nil => exact ⟨Nat.le_refl _, fun nonempty => absurd rfl nonempty⟩
  | cons byte rest ih =>
    have tail := (ih (value * 128 % 2 ^ 32 + byte.toNat % 128)).1
    rw [forwardVwiFrom]
    split
    · exact ⟨Nat.succ_le_succ (Nat.zero_le _), fun _ => Nat.one_pos⟩
    · exact ⟨Nat.succ_le_succ tail, fun _ => Nat.succ_pos _⟩

theorem forwardVwiFrom_lt (bytes : List UInt8) {value : Nat} (below : value < 2 ^ 32) :
    (forwardVwiFrom value bytes).1 < 2 ^ 32 := by
  induction bytes generalizing value with
  | nil => exact below
  | cons byte rest ih =>
    have next : value * 128 % 2 ^ 32 + byte.toNat % 128 < 2 ^ 32 := by omega
    rw [forwardVwiFrom]
    split
    · exact next
    · exact ih next

/-- The cursor goes on inside the bytes, and stays only at their end. -/
theorem forwardVwi_cursor (bytes : List UInt8) (cursor : Nat) :
    cursor ≤ (forwardVwi bytes cursor).2 ∧
      ((forwardVwi bytes cursor).2 ≠ cursor → (forwardVwi bytes cursor).2 ≤ bytes.length) := by
  have taken := (forwardVwiFrom_taken 0 (bytes.drop cursor)).1
  rw [length_drop] at taken
  refine ⟨Nat.le_add_right _ _, fun moved => ?_⟩
  change cursor + (forwardVwiFrom 0 (bytes.drop cursor)).2 ≠ cursor at moved
  change cursor + (forwardVwiFrom 0 (bytes.drop cursor)).2 ≤ bytes.length
  omega

end Trailing

section PalmDoc

/-- Byte by byte: a copy that overlaps what it appends repeats the pattern. -/
def copyBack (distance : Nat) : Nat → List UInt8 → Checked FileError (List UInt8)
  | 0, out => return out
  | length + 1, out => do
      let byte ← item out (← sub out.length distance)
      copyBack distance length (out ++ [byte])

/-- One code of a PalmDOC stream, at a cursor of the input. -/
def palmdocTurn (input : List UInt8) (state : Nat × List UInt8) :
    Checked FileError (Turn (Nat × List UInt8) (List UInt8)) :=
  let (cursor, out) := state
  match input[cursor]? with
  | none => return .leave out
  | some byte => do
      let cursor ← add cursor 1
      if byte = 0 ∨ (0x09 ≤ byte ∧ byte ≤ 0x7F) then return .next (cursor, out ++ [byte])
      else if byte ≤ 0x08 then
        let stop := min input.length (← add cursor byte.toNat)
        return .next (stop, out ++ (← slice input cursor stop))
      else if byte ≤ 0xBF then
        match input[cursor]? with
        -- A dangling first byte at the end of a record is padding.
        | none => return .leave out
        | some next =>
          let cursor ← add cursor 1
          let pair := byte.toNat * 256 + next.toNat
          let distance := pair / 8 % 2048
          let length := pair % 8 + 3
          if distance = 0 ∨ out.length < distance then
            mobiError ("PalmDOC back-reference of " ++ distance.repr ++
              " bytes at output offset " ++
              out.length.repr)
          else return .next (cursor, ← copyBack distance length out)
      else return .next (cursor, out ++ [0x20, byte ^^^ 0x80])

def decompressPalmdoc (input out : List UInt8) : Checked FileError (List UInt8) :=
  loop (palmdocTurn input) (input.length + 1) (0, out)

theorem safe_copyBack {distance : Nat} (length : Nat) {out : List UInt8} (positive : 0 < distance)
    (inside : distance ≤ out.length) : Safe (copyBack distance length out) := by
  induction length generalizing out with
  | zero => exact nofun
  | succ length ih =>
    rw [copyBack, sub_of_le inside]
    refine safe_of_returns ((returns_item (by omega)).bind fun byte _ => (ih ?_).returns)
    rw [length_append]
    omega

theorem safe_decompressPalmdoc {input : List UInt8} (held : input.length < 2 ^ 63)
    (out : List UInt8) : Safe (decompressPalmdoc input out) := by
  refine safe_of_returns (returns_loop (fun state => state.1 ≤ input.length)
    (fun state => input.length - state.1) ?_ (Nat.zero_le _) (by simp))
  rintro ⟨cursor, out⟩ inside
  rw [palmdocTurn]
  cases found : input[cursor]? with
  | none => exact returns_pure trivial
  | some byte =>
    have below : cursor < input.length := (List.getElem?_eq_some_iff.1 found).1
    have small := byte.toNat_lt
    rw [add_of_lt (by omega)]
    refine returns_ite (fun _ => returns_pure ⟨below, ?_⟩) fun _ => ?_
    · exact Nat.sub_lt_sub_left below (Nat.lt_succ_self _)
    refine returns_ite (fun _ => ?_) fun _ => ?_
    · rw [add_of_lt (by omega)]
      refine (returns_slice (by omega) (Nat.min_le_left _ _)).bind fun part _ => ?_
      exact returns_pure ⟨Nat.min_le_left _ _, by dsimp only; omega⟩
    refine returns_ite (fun _ => ?_) fun _ => returns_pure ⟨below, ?_⟩
    · cases second : input[cursor + 1]? with
      | none => exact returns_pure trivial
      | some next =>
        have further : cursor + 1 < input.length := (List.getElem?_eq_some_iff.1 second).1
        rw [add_of_lt (by omega)]
        refine returns_ite (fun _ => returns_fail) fun reachable => ?_
        refine (safe_copyBack _ (by omega) (by omega)).returns.bind fun copied _ => ?_
        exact returns_pure ⟨further, by dsimp only; omega⟩
    · exact Nat.sub_lt_sub_left below (Nat.lt_succ_self _)

end PalmDoc

section Huffman

variable {input huff : List UInt8}

def maxTextBytes : Nat := 512 * 1024 * 1024

/-- A slot of the first code table. -/
structure HuffSlot where
  codeLength : Nat
  terminal : Bool
  maxCode : Nat
deriving DecidableEq, Repr

/-- The code tables and the phrases of a HUFF/CDIC dictionary. -/
structure HuffCdic where
  dict1 : List HuffSlot
  minCode : List Nat
  maxCode : List Nat
  phrases : List (List UInt8 × Bool)
deriving DecidableEq, Repr

def huffMaxDepth : Nat := 16

/-- The upper bound of a code range, at the left of the 32-bit window. -/
def shiftedMax (rawMax codeLength : Nat) : Checked FileError Nat :=
  if codeLength = 0 ∨ 32 < codeLength then return 0
  else do
    let count ← add rawMax 1
    sub (count * 2 ^ (32 - codeLength) % 2 ^ 64) 1

/-- The eight bytes at an index, or as many as there are. -/
def windowBytes (input : List UInt8) (byte : Nat) : Checked FileError (List UInt8) :=
  if byte < input.length then slice input byte (byte + min (input.length - byte) 8) else return []

/-- The 32-bit window at a bit, with zeros past the end. -/
def windowAt (input : List UInt8) (bit : Nat) : Checked FileError Nat := do
  let part ← windowBytes input (bit / 8)
  let block := ofBe (part ++ List.replicate (8 - part.length) 0)
  return block / 2 ^ (32 - bit % 8) % 2 ^ 32

def huffTag : List UInt8 := ascii "HUFF"

def cdicTag : List UInt8 := ascii "CDIC"

def huffSlot (huff : List UInt8) (dict1Offset slot : Nat) : Checked FileError HuffSlot := do
  match ← beU32 huff (← add dict1Offset (← mul slot 4)) with
  | none => mobiError "HUFF code table is truncated"
  | some raw =>
    let codeLength := raw % 32
    return ⟨codeLength, raw.testBit 7, ← shiftedMax (raw / 256) codeLength⟩

/-- The bounds of the codes of length `index + 1`. -/
def huffBounds (huff : List UInt8) (dict2Offset index : Nat) : Checked FileError (Nat × Nat) := do
  let at_ ← add dict2Offset (← mul index 8)
  match ← beU32 huff at_ with
  | none => mobiError "HUFF bounds table is truncated"
  | some low =>
    let high := (← beU32 huff (← add at_ 4)).getD 0
    return (low * 2 ^ (32 - (index + 1)) % 2 ^ 64, ← shiftedMax high (index + 1))

def cdicPhrase (cdic : List UInt8) (slot : Nat) : Checked FileError (List UInt8 × Bool) := do
  match ← beU16 cdic (← add 16 (← mul slot 2)) with
  | none => mobiError "CDIC offset table is truncated"
  | some relative =>
    let offset ← add 16 relative
    match ← beU16 cdic offset with
    | none => mobiError "CDIC phrase is truncated"
    | some word =>
      let start ← add offset 2
      match get cdic start (← add start (word % 2 ^ 15)) with
      | none => mobiError "CDIC phrase runs past the record"
      | some bytes => return (bytes, word.testBit 15)

/-- Every CDIC declares the phrases of all of them, so the last one has slots to spare. -/
def cdicPhrases (phrases : List (List UInt8 × Bool)) (cdic : List UInt8) :
    Checked FileError (List (List UInt8 × Bool)) :=
  if get cdic 0 4 ≠ some cdicTag then
    mobiError "HUFF record count covers a record that is not a CDIC"
  else do
    let total := (← beU32 cdic 8).getD 0
    let bits := (← beU32 cdic 12).getD 0
    if 16 < bits then mobiError ("CDIC declares " ++ bits.repr ++ " index bits")
    else
      let slots := min (2 ^ bits) (total - phrases.length)
      return phrases ++ (← (List.range slots).mapM (cdicPhrase cdic))

/-- `HuffCdic::parse`. -/
def HuffCdic.parse (huff : List UInt8) (cdics : List (List UInt8)) : Checked FileError HuffCdic :=
  if get huff 0 4 ≠ some huffTag then mobiError "compression type 17480 without a HUFF record"
  else do
    let dict1Offset := (← beU32 huff 8).getD 0
    let dict2Offset := (← beU32 huff 12).getD 0
    let dict1 ← (List.range 256).mapM (huffSlot huff dict1Offset)
    let bounds ← (List.range 32).mapM (huffBounds huff dict2Offset)
    let phrases ← cdics.foldlM cdicPhrases []
    return ⟨dict1, 0 :: bounds.map Prod.fst, 0 :: bounds.map Prod.snd, phrases⟩

/-- The code length grows until the window is not below the codes of that length. -/
def codeLengthTurn (dictionary : HuffCdic) (window codeLength : Nat) :
    Checked FileError (Turn Nat Nat) :=
  if codeLength ≤ 32 then do
    if window < (← item dictionary.minCode codeLength) then return .next (← add codeLength 1)
    else return .leave codeLength
  else return .leave codeLength

/-- The length and the upper bound of the code at the front of the window. -/
def HuffCdic.code (dictionary : HuffCdic) (window : Nat) (slot : HuffSlot) :
    Checked FileError (Nat × Nat) :=
  if slot.terminal then return (slot.codeLength, slot.maxCode)
  else do
    let codeLength ← loop (codeLengthTurn dictionary window) 34 slot.codeLength
    if 32 < codeLength then mobiError "HUFF bitstream has no code for the current window"
    else return (codeLength, ← item dictionary.maxCode codeLength)

def HuffCdic.phrase (dictionary : HuffCdic) (index : Nat) : Checked FileError (List UInt8 × Bool) :=
  match dictionary.phrases[index]? with
  | none => mobiError ("HUFF/CDIC phrase " ++ index.repr ++ " is not in the dictionary")
  | some phrase => return phrase

/-- Where a decoder stands: the bits left, the bit it is at, and the output. -/
structure Expansion where
  bitsLeft : Nat
  bit : Nat
  out : List UInt8

/-- A phrase that is itself compressed goes through `expand` one level down. -/
def emitPhrase (expand : List UInt8 → List UInt8 → Checked FileError (List UInt8)) :
    List UInt8 × Bool → List UInt8 → Checked FileError (List UInt8)
  | (phrase, true), out => return out ++ phrase
  | (phrase, false), out => expand phrase out

/-- One symbol of the input. -/
def symbolTurn (dictionary : HuffCdic)
    (expand : List UInt8 → List UInt8 → Checked FileError (List UInt8)) (input : List UInt8)
    (state : Expansion) : Checked FileError (Turn Expansion (List UInt8)) :=
  if state.bitsLeft = 0 then return .leave state.out
  else do
    let window ← windowAt input state.bit
    let slot ← item dictionary.dict1 (window / 2 ^ 24)
    if slot.codeLength = 0 then mobiError "HUFF code table has a zero-length code"
    else
      let (codeLength, maxCode) ← dictionary.code window slot
      -- The tail of a record is zero padding, not a symbol.
      if state.bitsLeft < codeLength then return .leave state.out
      else
        let bit ← add state.bit codeLength
        let index := (maxCode + 2 ^ 64 - window) % 2 ^ 64 / 2 ^ (← sub 32 codeLength)
        let out ← emitPhrase expand (← dictionary.phrase index) state.out
        if maxTextBytes < out.length then mobiError "HUFF/CDIC output exceeds the size limit"
        else return .next ⟨state.bitsLeft - codeLength, bit, out⟩

/-- The number of bits of an input, as a signed word. -/
def bitCount (input : List UInt8) : Checked FileError Nat :=
  if input.length * 8 < 2 ^ 63 then return input.length * 8 else fault .overflow

/-- `HuffCdic::expand`, with the levels of nesting that are left. -/
def HuffCdic.expand (dictionary : HuffCdic) :
    Nat → List UInt8 → List UInt8 → Checked FileError (List UInt8)
  | 0, _, _ => mobiError "HUFF/CDIC phrase expands into itself"
  | levels + 1, input, out => do
      let bits ← bitCount input
      loop (symbolTurn dictionary (dictionary.expand levels) input) (bits + 1) ⟨bits, 0, out⟩

def HuffCdic.decompress (dictionary : HuffCdic) (input out : List UInt8) :
    Checked FileError (List UInt8) :=
  dictionary.expand huffMaxDepth input out

/-- What `parse` builds: full tables, code lengths a window can hold, short phrases. -/
structure HuffCdic.WellFormed (dictionary : HuffCdic) : Prop where
  dict1 : dictionary.dict1.length = 256
  codeLength : ∀ slot ∈ dictionary.dict1, slot.codeLength < 32
  minCode : dictionary.minCode.length = 33
  maxCode : dictionary.maxCode.length = 33
  phrases : ∀ phrase ∈ dictionary.phrases, phrase.1.length < 2 ^ 15

theorem safe_shiftedMax {rawMax : Nat} (below : rawMax < 2 ^ 32) (codeLength : Nat) :
    Safe (shiftedMax rawMax codeLength) := by
  refine safe_of_returns (returns_ite (fun _ => returns_pure trivial) fun bounds => ?_)
  rw [add_of_lt (by omega)]
  -- At most thirty-one places: the shifted count stays below the end of a word.
  have shift : 2 ^ (32 - codeLength) ≤ 2 ^ 31 := Nat.pow_le_pow_right (by decide) (by omega)
  have positive : 0 < (rawMax + 1) * 2 ^ (32 - codeLength) :=
    Nat.mul_pos (Nat.succ_pos _) (Nat.two_pow_pos _)
  have small : (rawMax + 1) * 2 ^ (32 - codeLength) ≤ 2 ^ 32 * 2 ^ 31 :=
    Nat.mul_le_mul below shift
  refine (returns_sub ?_).mono fun _ _ => trivial
  rw [Nat.mod_eq_of_lt (by omega)]
  exact positive

theorem returns_huffSlot {dict1Offset slot : Nat} (below : dict1Offset < 2 ^ 32)
    (small : slot < 256) :
    Returns (huffSlot huff dict1Offset slot) fun slot => slot.codeLength < 32 := by
  rw [huffSlot, mul_of_lt (by omega)]
  rw [ok_bind, add_bind (by omega)]
  refine (returns_beU32 (by omega)).bind ?_
  rintro raw ⟨read, bound⟩
  cases raw with
  | none => exact returns_fail
  | some raw =>
    refine (safe_shiftedMax (?_ : raw / 256 < 2 ^ 32) _).returns.bind fun _ _ => returns_pure ?_
    · exact Nat.lt_of_le_of_lt (Nat.div_le_self _ _) bound
    · exact Nat.mod_lt _ (by decide)

theorem safe_huffBounds {dict2Offset index : Nat} (below : dict2Offset < 2 ^ 32)
    (small : index < 32) : Safe (huffBounds huff dict2Offset index) := by
  rw [huffBounds, mul_of_lt (by omega)]
  refine safe_of_returns ?_
  rw [ok_bind, add_bind (by omega)]
  refine (returns_beU32 (by omega)).bind ?_
  rintro low ⟨-, -⟩
  cases low with
  | none => exact returns_fail
  | some low =>
    rw [add_of_lt (by omega)]
    refine (returns_beU32 (by omega)).bind fun high bound => ?_
    exact (safe_shiftedMax bound.2 _).returns.bind fun _ _ => returns_pure trivial

theorem returns_cdicPhrase {cdic : List UInt8} {slot : Nat} (small : slot < 2 ^ 32) :
    Returns (cdicPhrase cdic slot) fun phrase => phrase.1.length < 2 ^ 15 := by
  rw [cdicPhrase, mul_of_lt (by omega)]
  rw [ok_bind, add_bind (by omega)]
  refine (returns_beU16 (by omega)).bind ?_
  rintro relative ⟨-, bound⟩
  cases relative with
  | none => exact returns_fail
  | some relative =>
    have bound : relative < 2 ^ 16 := bound
    dsimp only
    rw [add_of_lt (by omega)]
    refine (returns_beU16 (by omega)).bind ?_
    rintro word -
    cases word with
    | none => exact returns_fail
    | some word =>
      have short : word % 2 ^ 15 < 2 ^ 15 := Nat.mod_lt _ (by decide)
      dsimp only
      rw [add_bind (by omega), add_bind (by omega)]
      cases found : get cdic (16 + relative + 2) (16 + relative + 2 + word % 2 ^ 15) with
      | none => exact returns_fail
      | some bytes =>
        have length := length_of_get found
        exact returns_pure (by dsimp only; omega)

theorem returns_cdicPhrases {phrases : List (List UInt8 × Bool)} (cdic : List UInt8)
    (short : ∀ phrase ∈ phrases, phrase.1.length < 2 ^ 15) :
    Returns (cdicPhrases phrases cdic) fun phrases =>
      ∀ phrase ∈ phrases, phrase.1.length < 2 ^ 15 := by
  refine returns_ite (fun _ => returns_fail) fun _ => ?_
  refine (returns_beU32 (by decide)).bind fun total _ => ?_
  refine (returns_beU32 (by decide)).bind fun bits _ => ?_
  refine returns_ite (fun _ => returns_fail) fun few => ?_
  have slots : ∀ slot ∈ List.range (min (2 ^ bits.getD 0) (total.getD 0 - phrases.length)),
      Returns (cdicPhrase cdic slot) fun phrase => phrase.1.length < 2 ^ 15 := by
    intro slot listed
    have many : 2 ^ bits.getD 0 ≤ 2 ^ 16 := Nat.pow_le_pow_right (by decide) (by omega)
    have := mem_range.1 listed
    exact returns_cdicPhrase (by omega)
  refine (returns_mapM slots).bind ?_
  rintro more ⟨-, shorts⟩
  exact returns_pure (forall_mem_append.2 ⟨short, shorts⟩)

theorem returns_huffParse (huff : List UInt8) (cdics : List (List UInt8)) :
    Returns (HuffCdic.parse huff cdics) HuffCdic.WellFormed := by
  refine returns_ite (fun _ => returns_fail) fun _ => ?_
  refine (returns_beU32 (by decide)).bind fun dict1Offset first => ?_
  refine (returns_beU32 (by decide)).bind fun dict2Offset second => ?_
  refine (returns_mapM fun slot listed => returns_huffSlot first.2 (mem_range.1 listed)).bind ?_
  rintro dict1 ⟨length1, lengths⟩
  refine (returns_mapM fun index listed =>
    (safe_huffBounds second.2 (mem_range.1 listed)).returns).bind ?_
  rintro bounds ⟨length2, -⟩
  have phrases : Returns (cdics.foldlM cdicPhrases []) _ :=
    returns_foldlM _ (fun phrases short cdic _ => returns_cdicPhrases cdic short) nofun
  refine phrases.bind fun phrases short => returns_pure ⟨?_, lengths, ?_, ?_, short⟩
  · rw [length1, length_range]
  · rw [length_cons, length_map, length2, length_range]
  · rw [length_cons, length_map, length2, length_range]

theorem returns_windowAt (input : List UInt8) (bit : Nat) :
    Returns (windowAt input bit) fun window => window < 2 ^ 32 := by
  have part : Returns (windowBytes input (bit / 8)) fun _ => True := by
    refine returns_ite (fun inside => ?_) fun _ => returns_pure trivial
    exact (returns_slice (by omega) (by omega)).mono fun _ _ => trivial
  exact part.bind fun part _ => returns_pure (Nat.mod_lt _ (Nat.two_pow_pos 32))

variable {dictionary : HuffCdic}

theorem returns_code (formed : dictionary.WellFormed) {slot : HuffSlot}
    (listed : slot ∈ dictionary.dict1) (nonzero : slot.codeLength ≠ 0) (window : Nat) :
    Returns (dictionary.code window slot) fun code => 0 < code.1 ∧ code.1 ≤ 32 := by
  have short := formed.codeLength slot listed
  refine returns_ite (fun _ =>
    returns_pure ⟨by dsimp only; omega, by dsimp only; omega⟩) fun _ => ?_
  have grown : Returns (loop (codeLengthTurn dictionary window) 34 slot.codeLength)
      fun length => 0 < length := by
    refine returns_loop (fun length => 0 < length ∧ length ≤ 33) (fun length => 33 - length) ?_
      ⟨by omega, by omega⟩ (by omega)
    rintro length ⟨positive, bound⟩
    refine returns_ite (fun fits => ?_) fun _ => returns_pure positive
    refine (returns_item (by rw [formed.minCode]; omega)).bind fun least _ => ?_
    refine returns_ite (fun _ => ?_) fun _ => returns_pure positive
    rw [add_of_lt (by omega)]
    exact returns_pure ⟨⟨by omega, by omega⟩, Nat.sub_lt_sub_left (by omega) (Nat.lt_succ_self _)⟩
  refine grown.bind fun length positive => ?_
  refine returns_ite (fun _ => returns_fail) fun fits => ?_
  refine (returns_item (by rw [formed.maxCode]; omega)).bind fun most _ => ?_
  exact returns_pure ⟨positive, by dsimp only; omega⟩

theorem returns_phrase (dictionary : HuffCdic) (index : Nat) :
    Returns (dictionary.phrase index) (· ∈ dictionary.phrases) := by
  rw [HuffCdic.phrase]
  cases found : dictionary.phrases[index]? with
  | none => exact returns_fail
  | some phrase => exact returns_pure (mem_of_getElem? found)

/-- An expansion is safe if its input has a bit count; the phrases of a dictionary have one. -/
theorem safe_expand (formed : dictionary.WellFormed) (levels : Nat)
    (short : input.length * 8 < 2 ^ 63) (out : List UInt8) :
    Safe (dictionary.expand levels input out) := by
  induction levels generalizing input out with
  | zero => exact nofun
  | succ levels ih =>
    rw [HuffCdic.expand, bitCount, if_pos short]
    refine safe_of_returns (returns_loop
      (fun state => state.bit + state.bitsLeft = input.length * 8) Expansion.bitsLeft ?_
      (Nat.zero_add _) (Nat.lt_succ_self _))
    rintro ⟨bitsLeft, bit, out⟩ total
    dsimp only at total
    refine returns_ite (fun _ => returns_pure trivial) fun _ => ?_
    refine (returns_windowAt input bit).bind fun window inside => ?_
    refine (returns_item (by rw [formed.dict1]; omega)).bind fun slot listed => ?_
    refine returns_ite (fun _ => returns_fail) fun nonzero => ?_
    refine (returns_code formed listed nonzero window).bind ?_
    rintro ⟨codeLength, maxCode⟩ ⟨positive, bound⟩
    dsimp only at positive bound ⊢
    refine returns_ite (fun _ => returns_pure trivial) fun enough => ?_
    rw [add_bind (by omega), sub_of_le bound, ok_bind]
    refine (returns_phrase dictionary _).bind fun phrase listed => ?_
    have shortPhrase := formed.phrases phrase listed
    have emitted : Safe (emitPhrase (dictionary.expand levels) phrase out) := by
      obtain ⟨bytes, _ | _⟩ := phrase
      · have shortBytes : bytes.length < 2 ^ 15 := shortPhrase
        exact ih (by omega) out
      · exact nofun
    refine emitted.returns.bind fun out _ => ?_
    refine returns_ite (fun _ => returns_fail) fun _ => returns_pure ⟨?_, ?_⟩
    · dsimp only
      omega
    · exact Nat.sub_lt (by omega) positive

theorem safe_decompress (formed : dictionary.WellFormed)
    (short : input.length < 2 ^ 60) (out : List UInt8) : Safe (dictionary.decompress input out) :=
  safe_expand formed huffMaxDepth (by omega) out

/-- The bit count of a longer input does not fit a signed word. -/
theorem decompress_fault (dictionary : HuffCdic) (long : 2 ^ 60 ≤ input.length)
    (out : List UInt8) : dictionary.decompress input out = fault .overflow := by
  have overflow : bitCount input = fault .overflow := if_neg (by omega)
  rw [HuffCdic.decompress, huffMaxDepth, HuffCdic.expand, overflow]
  rfl

end Huffman

end Coppice.Kindle
