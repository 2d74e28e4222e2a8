import Coppice.Kindle.Compression
import Coppice.Kindle.Header
import Coppice.Std.Batch

/-!
# INDX and TAGX

An index is a primary record with a table of tags, data records with entries that the table
describes, and the strings the entries point into.
-/

namespace Coppice.Kindle

open Coppice.Std Coppice.Std.Checked List

/-- A label, and the values of each tag; a tag that is set again hides the earlier values. -/
structure IndexEntry where
  label : List UInt8
  tags : List (UInt8 × List Nat)

def IndexEntry.values (entry : IndexEntry) (tag : UInt8) : Option (List Nat) :=
  (entry.tags.find? fun row => row.1 = tag).map Prod.snd

def IndexEntry.tag (entry : IndexEntry) (tag : UInt8) : Option Nat :=
  (entry.values tag).bind head?

/-- The first `(offset, length)` pair of a geometry tag. -/
def IndexEntry.pair (entry : IndexEntry) (tag : UInt8) : Option (Nat × Nat) :=
  match entry.values tag with
  | some (offset :: length :: _) => some (offset, length)
  | _ => none

structure TagxRow where
  tag : UInt8
  valuesPerEntry : UInt8
  mask : UInt8
  endOfControlByte : Bool

structure Index where
  entries : List IndexEntry := []
  cncx : List UInt8 := []

/-- The string at an offset: a forward-encoded length, then its bytes. The cursor is inside a
vector, so a 32-bit length after it does not overflow. -/
def Index.cncxString (index : Index) (offset encoding : Nat) : Option (List Char) :=
  if index.cncx.length ≤ offset then none
  else
    let (length, cursor) := forwardVwi index.cncx offset
    (get index.cncx cursor (cursor + length)).map fun bytes => decodeText bytes encoding

section Tables

variable {rows : List TagxRow} {stop cursor headerLength controlBytes : Nat} {primary : List UInt8}

def tagxTag : List UInt8 := ascii "TAGX"

/-- One row of the table. The record is sliced without a look at its length. -/
def tagxTurn (primary : List UInt8) (stop : Nat) (state : Nat × List TagxRow) :
    Checked FileError (Turn (Nat × List TagxRow) (List TagxRow)) := do
  let (cursor, rows) := state
  let next ← add cursor 4
  if next ≤ stop then
    match ← slice primary cursor next with
    | [tag, valuesPerEntry, mask, last] =>
      return .next (next, rows ++ [⟨tag, valuesPerEntry, mask, last.toNat % 2 = 1⟩])
    | _ => fault .outOfRange
  else return .leave rows

def parseTagx (primary : List UInt8) (headerLength : Nat) :
    Checked FileError (Nat × List TagxRow) := do
  let tagStop ← add headerLength 4
  if get primary headerLength tagStop ≠ some tagxTag then return (0, [])
  else
    let tableLength := (← beU32 primary tagStop).getD 0
    let controlBytes := (← beU32 primary (← add headerLength 8)).getD 0
    let stop ← add headerLength tableLength
    let rows ← loop (tagxTurn primary stop) (tableLength + 1) (← add headerLength 12, [])
    return (controlBytes, rows)

/-- Every row between the cursor and the end of the table lies in the record. -/
def RowsFit (primary : List UInt8) (stop cursor : Nat) : Prop :=
  ∀ row, cursor + 4 * (row + 1) ≤ stop → cursor + 4 * (row + 1) ≤ primary.length

theorem rowsFit_step (more : cursor + 4 ≤ stop) :
    RowsFit primary stop cursor ↔
      cursor + 4 ≤ primary.length ∧ RowsFit primary stop (cursor + 4) := by
  constructor
  · intro fit
    refine ⟨fit 0 more, fun row covered => ?_⟩
    have := fit (row + 1) (by omega)
    omega
  rintro ⟨first, others⟩ row covered
  cases row with
  | zero => exact first
  | succ row =>
    have := others row (by omega)
    omega

theorem tagxTurn_row (below : stop < 2 ^ 63)
    (more : cursor + 4 ≤ stop) (inside : cursor + 4 ≤ primary.length) :
    ∃ row, tagxTurn primary stop (cursor, rows) = .ok (.next (cursor + 4, rows ++ [row])) := by
  have length : ((primary.drop cursor).take (cursor + 4 - cursor)).length = 4 := by
    rw [length_take, length_drop]
    omega
  rw [tagxTurn, add_bind (by omega), if_pos more, slice_of_le (by omega) inside, ok_bind]
  obtain ⟨tag, values, mask, last, four⟩ := length_eq_four.1 length
  rw [four]
  exact ⟨_, rfl⟩

/-- Reading the rows is safe exactly if all of them lie in the record. -/
theorem safe_tagxLoop_iff {turns : Nat} (below : stop < 2 ^ 63)
    (near : cursor < 2 ^ 63) (enough : stop < cursor + 4 * turns) (positive : 0 < turns) :
    Safe (loop (tagxTurn primary stop) turns (cursor, rows)) ↔ RowsFit primary stop cursor := by
  induction turns generalizing cursor rows with
  | zero => omega
  | succ turns ih =>
    rw [loop]
    by_cases more : cursor + 4 ≤ stop
    · rw [rowsFit_step more]
      by_cases inside : cursor + 4 ≤ primary.length
      · obtain ⟨row, turned⟩ := @tagxTurn_row rows stop cursor primary below more inside
        rw [turned]
        change Safe (loop _ turns (cursor + 4, rows ++ [row])) ↔ _
        rw [ih (by omega) (by omega) (by omega)]
        exact ⟨fun fit => ⟨inside, fit⟩, And.right⟩
      · have turned : tagxTurn primary stop (cursor, rows) = fault .outOfRange := by
          rw [tagxTurn, add_bind (by omega), if_pos more, slice_fault (by omega)]
          rfl
        rw [turned]
        exact ⟨fun safe => absurd rfl (safe .outOfRange), fun fit => absurd fit.1 inside⟩
    · have turned : tagxTurn primary stop (cursor, rows) = .ok (.leave rows) := by
        rw [tagxTurn, add_bind (by omega), if_neg more]
        rfl
      rw [turned]
      refine ⟨fun _ row covered => by omega, fun _ => nofun⟩

/-- The table of a record that starts an index ends inside that record. -/
def TableFits (primary : List UInt8) (headerLength : Nat) : Prop :=
  get primary headerLength (headerLength + 4) = some tagxTag →
    RowsFit primary (headerLength + (wordAt 4 primary (headerLength + 4)).getD 0)
      (headerLength + 12)

theorem safe_parseTagx_iff (below : headerLength < 2 ^ 32) :
    Safe (parseTagx primary headerLength) ↔ TableFits primary headerLength := by
  have table := getD_wordAt_lt 4 (headerLength + 4) primary
  rw [parseTagx, add_bind (by omega)]
  by_cases tagged : get primary headerLength (headerLength + 4) = some tagxTag
  · rw [if_neg (not_not_intro tagged), beU32, beWord_eq (by omega), ok_bind, add_bind (by omega),
      beU32, beWord_eq (by omega), ok_bind, add_bind (by omega),
      add_bind (by omega), safe_bind_iff,
        safe_tagxLoop_iff (by omega) (by omega) (by omega) (Nat.succ_pos _)]
    exact ⟨fun safe _ => safe.1, fun fit =>
      ⟨fit tagged, fun _ _ => safe_of_returns (returns_pure trivial)⟩⟩
  · rw [if_pos tagged]
    exact ⟨fun _ has => absurd has tagged, fun _ => safe_of_returns (returns_pure trivial)⟩

theorem parseTagx_control (below : headerLength < 2 ^ 32)
    (parsed : parseTagx primary headerLength = .ok (controlBytes, rows)) :
    controlBytes < 2 ^ 32 := by
  obtain ⟨tagStop, -, parsed⟩ := bind_eq_ok.1 parsed
  split at parsed
  · cases parsed
    exact Nat.two_pow_pos 32
  obtain ⟨tableLength, -, parsed⟩ := bind_eq_ok.1 parsed
  obtain ⟨controlOffset, placed, parsed⟩ := bind_eq_ok.1 parsed
  obtain ⟨control, read, parsed⟩ := bind_eq_ok.1 parsed
  obtain ⟨stop, -, parsed⟩ := bind_eq_ok.1 parsed
  obtain ⟨start, -, parsed⟩ := bind_eq_ok.1 parsed
  obtain ⟨found, -, parsed⟩ := bind_eq_ok.1 parsed
  cases parsed
  rw [add_of_lt (by omega)] at placed
  cases placed
  exact ((returns_beU32 (by omega)).post read).2

end Tables

section Entries

variable {cursor : Nat} {record blob : List UInt8}

/-- At most `count` forward-encoded values, while there are bytes. -/
def countedValues (blob : List UInt8) : Nat → Nat → List Nat → Nat × List Nat
  | 0, cursor, values => (cursor, values)
  | count + 1, cursor, values =>
    let (value, next) := forwardVwi blob cursor
    if next = cursor then (cursor, values) else countedValues blob count next (values ++ [value])

/-- The values of a byte budget, while there are bytes. -/
def budgetTurn (blob : List UInt8) (stop : Nat) (state : Nat × List Nat) :
    Checked FileError (Turn (Nat × List Nat) (Nat × List Nat)) :=
  let (cursor, values) := state
  if cursor < stop then
    let (value, next) := forwardVwi blob cursor
    if next = cursor then return .leave (cursor, values)
    else return .next (next, values ++ [value])
  else return .leave (cursor, values)

def trailingZeros (mask : UInt8) : Nat :=
  ((range 8).find? fun bit => mask.toNat.testBit bit).getD 8

def countOnes (mask : UInt8) : Nat := (range 8).countP fun bit => mask.toNat.testBit bit

/-- The values one row of the table announces for an entry: a byte budget if all of several
bits are set, else a number of groups. -/
def rowValues (blob : List UInt8) (row : TagxRow) (masked : UInt8) (cursor : Nat) :
    Checked FileError (Nat × List Nat) := do
  if masked = row.mask ∧ 1 < countOnes row.mask then
    let (budget, cursor) := forwardVwi blob cursor
    let stop ← add cursor budget
    loop (budgetTurn blob stop) (blob.length + 1) (cursor, [])
  else
    let groups := if masked = row.mask then 1 else masked.toNat / 2 ^ trailingZeros row.mask
    return countedValues blob (groups * row.valuesPerEntry.toNat) cursor []

/-- The control byte and the cursor an entry is at, with the tags so far. The control byte
counts rows of a table in memory. -/
structure EntryState where
  control : Nat
  cursor : Nat
  tags : List (UInt8 × List Nat)

def entryRow (blob controls : List UInt8) (state : EntryState) (row : TagxRow) :
    Checked FileError EntryState :=
  if row.endOfControlByte then return { state with control := state.control + 1 }
  else
    match controls[state.control]? with
    | none => return state
    | some byte =>
      let masked := byte &&& row.mask
      if masked = 0 then return state
      else do
        let (cursor, values) ← rowValues blob row masked state.cursor
        return { state with cursor, tags := (row.tag, values) :: state.tags }

def parseIndexEntry (blob : List UInt8) (controlBytes : Nat) (rows : List TagxRow) :
    Checked FileError (Option IndexEntry) :=
  match blob with
  | [] => return none
  | first :: _ => do
      let labelStop ← add 1 first.toNat
      let valuesStart ← add labelStop controlBytes
      match get blob 1 labelStop, get blob labelStop valuesStart with
      | some label, some controls =>
        let state ← rows.foldlM (entryRow blob controls) ⟨0, valuesStart, []⟩
        return some ⟨label, state.tags⟩
      | _, _ => return none

/-- The first `count` offsets of the `IDXT` block, if it has them all. -/
def entryOffsets (record : List UInt8) (idxt : Nat) :
    Nat → Nat → Checked FileError (Option (List Nat))
  | 0, _ => return some []
  | count + 1, index => do
      match ← beU16 record (← add (← add idxt 4) (← mul index 2)) with
      | none => return none
      | some offset => return (← entryOffsets record idxt count (index + 1)).map (offset :: ·)

/-- The entries between consecutive offsets; the last one ends at the `IDXT` block. -/
def entriesFrom (record : List UInt8) (idxt controlBytes : Nat) (rows : List TagxRow) :
    List Nat → Checked FileError (List IndexEntry)
  | [] => return []
  | start :: rest => do
      let stop := min (rest.head?.getD idxt) record.length
      if stop ≤ start then entriesFrom record idxt controlBytes rows rest
      else
        let entry ← parseIndexEntry (← slice record start stop) controlBytes rows
        return entry.toList ++ (← entriesFrom record idxt controlBytes rows rest)

def parseIndexEntries (record : List UInt8) (controlBytes : Nat) (rows : List TagxRow) :
    Checked FileError (List IndexEntry) := do
  let idxt := (← beU32 record 20).getD 0
  let count := (← beU32 record 24).getD 0
  let offsets := (← entryOffsets record idxt count 0).getD []
  entriesFrom record idxt controlBytes rows offsets

theorem countedValues_cursor (count : Nat) {values : List Nat}
    (inside : cursor ≤ blob.length) : (countedValues blob count cursor values).1 ≤ blob.length := by
  induction count generalizing cursor values with
  | zero => exact inside
  | succ count ih =>
    change (if (forwardVwi blob cursor).2 = cursor then (cursor, values) else
      countedValues blob count (forwardVwi blob cursor).2 (values ++
        [(forwardVwi blob cursor).1])).1 ≤
        blob.length
    split
    · exact inside
    · exact ih ((forwardVwi_cursor blob cursor).2 ‹_›)

theorem forwardVwi_inside (inside : cursor ≤ blob.length) :
    (forwardVwi blob cursor).2 ≤ blob.length := by
  by_cases stays : (forwardVwi blob cursor).2 = cursor
  · rwa [stays]
  · exact (forwardVwi_cursor blob cursor).2 stays

theorem returns_rowValues (held : blob.length < 2 ^ 63) (row : TagxRow) (masked : UInt8)
    (inside : cursor ≤ blob.length) :
    Returns (rowValues blob row masked cursor) fun read => read.1 ≤ blob.length := by
  refine returns_ite (fun _ => ?_) fun _ => returns_pure (countedValues_cursor _ inside)
  have within := forwardVwi_inside inside
  have budget : (forwardVwi blob cursor).1 < 2 ^ 32 := forwardVwiFrom_lt _ (Nat.two_pow_pos 32)
  dsimp only
  rw [add_of_lt (by omega)]
  refine returns_loop (fun state => state.1 ≤ blob.length) (fun state => blob.length - state.1) ?_
    within (by dsimp only; omega)
  rintro ⟨cursor, values⟩ inside
  refine returns_ite (fun _ => ?_) fun _ => returns_pure inside
  refine returns_ite (fun _ => returns_pure inside) fun moved => ?_
  have moved : (forwardVwi blob cursor).2 ≠ cursor := moved
  have onward := forwardVwi_cursor blob cursor
  refine returns_pure ⟨onward.2 moved, ?_⟩
  have within := onward.2 moved
  change blob.length - (forwardVwi blob cursor).2 < blob.length - cursor
  omega

theorem returns_entryRow (held : blob.length < 2 ^ 63) (controls : List UInt8) {state : EntryState}
    (inside : state.cursor ≤ blob.length) (row : TagxRow) :
    Returns (entryRow blob controls state row) fun state => state.cursor ≤ blob.length := by
  refine returns_ite (fun _ => returns_pure inside) fun _ => ?_
  cases controls[state.control]? with
  | none => exact returns_pure inside
  | some byte =>
    refine returns_ite (fun _ => returns_pure inside) fun _ => ?_
    exact (returns_rowValues held row _ inside).bind fun read within => returns_pure within

theorem safe_parseIndexEntry (held : blob.length < 2 ^ 63) (below : controlBytes < 2 ^ 32)
    (rows : List TagxRow) : Safe (parseIndexEntry blob controlBytes rows) := by
  cases blob with
  | nil => exact nofun
  | cons first rest =>
    have small := first.toNat_lt
    rw [parseIndexEntry, add_bind (by omega), add_bind (by omega)]
    cases label : get (first :: rest) 1 (1 + first.toNat) with
    | none => exact nofun
    | some labelBytes =>
      cases control : get (first :: rest) (1 + first.toNat) (1 + first.toNat + controlBytes) with
      | none => exact nofun
      | some controls =>
        have read : Returns (rows.foldlM (entryRow (first :: rest) controls)
            ⟨0, 1 + first.toNat + controlBytes, []⟩) _ :=
          returns_foldlM _ (fun state inside row _ => returns_entryRow held controls inside row)
            (get_eq_some control).2.1
        exact safe_of_returns (read.bind fun state _ => returns_pure trivial)

theorem safe_entryOffsets {idxt : Nat} (below : idxt < 2 ^ 32) (count : Nat)
    {index : Nat} (bounded : index + count ≤ 2 ^ 32) :
      Safe (entryOffsets record idxt count index) := by
  induction count generalizing index with
  | zero => exact nofun
  | succ count ih =>
    rw [entryOffsets, add_bind (by omega), mul_of_lt (by omega), ok_bind,
      add_bind (by omega)]
    refine safe_of_returns ((returns_beU16 (by omega)).bind fun offset _ => ?_)
    cases offset with
    | none => exact returns_pure trivial
    | some offset =>
      exact (ih (by omega)).returns.bind fun offsets _ => returns_pure trivial

theorem safe_entriesFrom (held : record.length < 2 ^ 63) (idxt : Nat)
    (below : controlBytes < 2 ^ 32) (rows : List TagxRow) (offsets : List Nat) :
    Safe (entriesFrom record idxt controlBytes rows offsets) := by
  induction offsets with
  | nil => exact nofun
  | cons start rest ih =>
    refine safe_of_returns (returns_ite (fun _ => ih.returns) fun ordered => ?_)
    have inside := Nat.min_le_right (rest.head?.getD idxt) record.length
    refine (returns_slice (by omega) inside).bind ?_
    rintro blob ⟨-, length⟩
    refine (safe_parseIndexEntry (by omega) below rows).returns.bind fun entry _ => ?_
    exact ih.returns.bind fun entries _ => returns_pure trivial

theorem safe_parseIndexEntries (held : record.length < 2 ^ 63)
    (below : controlBytes < 2 ^ 32) (rows : List TagxRow) :
    Safe (parseIndexEntries record controlBytes rows) := by
  refine safe_of_returns ((returns_beU32 (by decide)).bind fun idxt placed => ?_)
  refine (returns_beU32 (by decide)).bind fun count counted => ?_
  refine (safe_entryOffsets placed.2 _ (by omega)).returns.bind fun offsets _ => ?_
  exact (safe_entriesFrom held _ below rows _).returns

end Entries

section Reading

def indxTag : List UInt8 := ascii "INDX"

/-- Data records that are not `INDX` are passed over. -/
def dataRecord (db : PalmDatabase) (base controlBytes : Nat) (rows : List TagxRow)
    (entries : List IndexEntry) (offset : Nat) : Checked FileError (List IndexEntry) := do
  let record := db.record (← add base offset)
  if get record 0 4 ≠ some indxTag then return entries
  else return entries ++ (← parseIndexEntries record controlBytes rows)

/-- The strings of an index follow its data records, up to a record of another kind. -/
def cncxTurn (isContainer : List UInt8 → Bool) (db : PalmDatabase) (state : Nat × List UInt8) :
    Checked FileError (Turn (Nat × List UInt8) (List UInt8)) :=
  let (cursor, cncx) := state
  if cursor < db.records.length then
    let record := db.record cursor
    if record.length < 2 ∨ get record 0 4 = some indxTag ∨ isContainer record then
      return .leave cncx
    else do return .next (← add cursor 1, cncx ++ record)
  else return .leave cncx

def readIndex (isContainer : List UInt8 → Bool) (db : PalmDatabase) (base : Nat) :
    Checked FileError Index := do
  let primary := db.record base
  if get primary 0 4 ≠ some indxTag then return {}
  else
    let headerLength := (← beU32 primary 4).getD 0
    let dataRecords := (← beU32 primary 24).getD 0
    let (controlBytes, rows) ← parseTagx primary headerLength
    if rows.isEmpty then return {}
    else
      let entries ← (range' 1 dataRecords).foldlM (dataRecord db base controlBytes rows) []
      let cncxStart ← add (← add base dataRecords) 1
      let cncx ← loop (cncxTurn isContainer db) (db.records.length + 1) (cncxStart, [])
      return { entries, cncx }

/-- An index that a header may or may not name. -/
def readIndexAt (isContainer : List UInt8 → Bool) (db : PalmDatabase) (partBase : Nat) :
    Option Nat → Checked FileError Index
  | none => return {}
  | some index => do readIndex isContainer db (← add partBase index)

theorem safe_cncx (isContainer : List UInt8 → Bool) (db : PalmDatabase) {cursor : Nat}
    (near : cursor < 2 ^ 63) :
    Safe (loop (cncxTurn isContainer db) (db.records.length + 1) (cursor, [])) := by
  have counted : db.records.length ≤ 2 ^ 16 - 1 := db.counted
  refine safe_of_returns (returns_loop (fun state => state.1 < 2 ^ 63 + 1)
    (fun state => db.records.length - state.1) ?_ (by dsimp only; omega) (by dsimp only; omega))
  rintro ⟨cursor, cncx⟩ near
  refine returns_ite (fun inside => ?_) fun _ => returns_pure trivial
  refine returns_ite (fun _ => returns_pure trivial) fun _ => ?_
  rw [add_bind (by omega)]
  refine returns_pure ⟨?_, ?_⟩
  · omega
  · exact Nat.sub_lt_sub_left inside (Nat.lt_succ_self _)

/-- The table of every record that can start an index ends inside that record. -/
def PalmDatabase.TablesFit (db : PalmDatabase) : Prop :=
  ∀ base, get (db.record base) 0 4 = some indxTag →
    TableFits (db.record base) ((wordAt 4 (db.record base) 4).getD 0)

/-- Reading an index is safe exactly if its table ends inside the primary record. -/
theorem safe_readIndex_iff (isContainer : List UInt8 → Bool) (db : PalmDatabase) {base : Nat}
    (near : base < 2 ^ 62) :
    Safe (readIndex isContainer db base) ↔ (get (db.record base) 0 4 = some indxTag →
      TableFits (db.record base) ((wordAt 4 (db.record base) 4).getD 0)) := by
  have header := getD_wordAt_lt 4 4 (db.record base)
  have data := getD_wordAt_lt 4 24 (db.record base)
  rw [readIndex]
  by_cases tagged : get (db.record base) 0 4 = some indxTag
  · rw [if_neg (not_not_intro tagged), beU32, beWord_eq (by decide), ok_bind, beU32,
      beWord_eq (by decide), ok_bind, safe_bind_iff, safe_parseTagx_iff header]
    refine ⟨fun safe _ => safe.1, fun fits => ⟨fits tagged, ?_⟩⟩
    rintro ⟨controlBytes, rows⟩ parsed
    have control := parseTagx_control header parsed
    refine safe_of_returns (returns_ite (fun _ => returns_pure trivial) fun _ => ?_)
    have entries : Returns ((range' 1 ((wordAt 4 (db.record base) 24).getD 0)).foldlM
        (dataRecord db base controlBytes rows) []) fun _ => True := by
      refine returns_foldlM _ (fun entries _ offset listed => ?_) trivial
      have bounded := (mem_range'_1.1 listed).2
      rw [dataRecord, add_of_lt (by omega)]
      refine returns_ite (fun _ => returns_pure trivial) fun _ => ?_
      exact (safe_parseIndexEntries (db.record_held _) control rows).returns.bind
        fun more _ => returns_pure trivial
    refine entries.bind fun entries _ => ?_
    rw [add_bind (by omega), add_bind (by omega)]
    exact (safe_cncx isContainer db (by omega)).returns.bind fun cncx _ => returns_pure trivial
  · rw [if_pos tagged]
    exact ⟨fun _ has => absurd has tagged, fun _ => safe_of_returns (returns_pure trivial)⟩

end Reading

end Coppice.Kindle
