import Mathlib.Algebra.Order.Ring.Nat
import Mathlib.Data.List.Basic

/-!
# Little-endian fields

Numbers as byte strings of a fixed width, records as sequences of such fields, and reading
them back from the front of a byte string; codes that say themselves where they end.
-/

namespace Coppice.Std

/-- The lowest `width` bytes of a number, lowest first. -/
def le : Nat → Nat → List UInt8
  | 0, _ => []
  | width + 1, value => UInt8.ofNat value :: le width (value / 256)

/-- The number in the first `width` bytes, and what follows. -/
def readLe : Nat → List UInt8 → Option (Nat × List UInt8)
  | 0, bytes => some (0, bytes)
  | _ + 1, [] => none
  | width + 1, byte :: bytes => do
      let (value, rest) ← readLe width bytes
      some (byte.toNat + 256 * value, rest)

/-- A record: every field with its width. -/
def writeFields (fields : List (Nat × Nat)) : List UInt8 :=
  fields.flatMap fun field => le field.1 field.2

/-- The fields of the given widths, and what follows. -/
def readFields : List Nat → List UInt8 → Option (List Nat × List UInt8)
  | [], bytes => some ([], bytes)
  | width :: widths, bytes => do
      let (value, bytes) ← readLe width bytes
      let (values, rest) ← readFields widths bytes
      some (value :: values, rest)

@[simp] theorem length_le (width value : Nat) : (le width value).length = width := by
  induction width generalizing value with
  | zero => rfl
  | succ width ih => simp [le, ih]

theorem readLe_le (width value : Nat) (rest : List UInt8) :
    readLe width (le width value ++ rest) = some (value % 256 ^ width, rest) := by
  induction width generalizing value with
  | zero => simp [le, readLe, Nat.mod_one]
  | succ width ih =>
    have digits : value % 256 ^ (width + 1) = value % 256 + 256 * (value / 256 % 256 ^ width) := by
      rw [Nat.pow_succ', Nat.mod_mul]
    simp only [le, List.cons_append, readLe, ih, Option.bind_eq_bind, Option.bind_some,
      UInt8.toNat_ofNat', digits]

/-- Written fields are read back, as far as their width goes. -/
theorem readFields_writeFields (fields : List (Nat × Nat)) (rest : List UInt8) :
    readFields (fields.map Prod.fst) (writeFields fields ++ rest) =
      some (fields.map fun field => field.2 % 256 ^ field.1, rest) := by
  induction fields with
  | nil => rfl
  | cons field fields ih =>
    simp only [writeFields, List.flatMap_cons, List.append_assoc, List.map_cons, readFields,
      readLe_le, Option.bind_eq_bind, Option.bind_some] at ih ⊢
    rw [ih]
    rfl

theorem length_writeFields (fields : List (Nat × Nat)) :
    (writeFields fields).length = (fields.map Prod.fst).sum := by
  induction fields with
  | nil => rfl
  | cons field fields ih =>
    simp only [writeFields, List.flatMap_cons, List.length_append, length_le, List.map_cons,
      List.sum_cons] at ih ⊢
    rw [ih]

/-- The UTF-8 bytes of a text. -/
def utf8 (text : String) : List UInt8 := text.toByteArray.data.toList

/-- The text of UTF-8 bytes. -/
def fromUtf8 (bytes : List UInt8) : Option String := String.fromUTF8? ⟨⟨bytes⟩⟩

theorem fromUtf8_utf8 (text : String) : fromUtf8 (utf8 text) = some text := by
  unfold fromUtf8 utf8 String.fromUTF8?
  rw [dif_pos text.isValidUTF8]
  rfl

section Separates

variable {α γ : Type} {encode : α → List γ} {rest rest' : List γ}

/-- A code is read off the front of a string in one way only. -/
def Separates (encode : α → List γ) : Prop :=
  ∀ ⦃value other rest rest'⦄, encode value ++ rest = encode other ++ rest' →
    value = other ∧ rest = rest'

/-- An optional value behind a mark. -/
def optional (encode : α → List UInt8) : Option α → List UInt8
  | some value => 1 :: encode value
  | none => [0]

theorem Separates.optional {encode : α → List UInt8} (separates : Separates encode) :
    Separates (optional encode) := by
  intro value other rest rest' same
  cases value <;> cases other
  case none.none => exact ⟨rfl, (List.cons.inj same).2⟩
  case some.some => exact (separates (List.cons.inj same).2).imp_left (congrArg some)
  all_goals cases (List.cons.inj same).1

theorem Separates.pair {β : Type} {encode' : β → List γ} (separates : Separates encode)
    (separates' : Separates encode') :
    Separates fun pair : α × β => encode pair.1 ++ encode' pair.2 := by
  rintro ⟨first, second⟩ ⟨first', second'⟩ rest rest' same
  rw [List.append_assoc, List.append_assoc] at same
  obtain ⟨rfl, later⟩ := separates same
  obtain ⟨rfl, rests⟩ := separates' later
  exact ⟨rfl, rests⟩

theorem Separates.flatMap (separates : Separates encode) {values others : List α}
    (count : values.length = others.length)
    (same : values.flatMap encode ++ rest = others.flatMap encode ++ rest') :
    values = others ∧ rest = rest' := by
  induction values generalizing others with
  | nil =>
    cases List.length_eq_zero_iff.1 count.symm
    exact ⟨rfl, same⟩
  | cons value values ih =>
    obtain ⟨other, others, rfl⟩ := List.exists_cons_of_length_eq_add_one count.symm
    rw [List.flatMap_cons, List.flatMap_cons, List.append_assoc, List.append_assoc] at same
    obtain ⟨rfl, later⟩ := separates same
    exact (ih (Nat.succ.inj count) later).imp_left (congrArg (value :: ·))

theorem le_append_inj {width number other : Nat} {rest rest' : List UInt8}
    (fits : number < 256 ^ width) (fits' : other < 256 ^ width)
    (same : le width number ++ rest = le width other ++ rest') : number = other ∧ rest = rest' := by
  have read := congrArg (readLe width) same
  rw [readLe_le, readLe_le, Nat.mod_eq_of_lt fits, Nat.mod_eq_of_lt fits'] at read
  exact Prod.mk.inj (Option.some.inj read)

end Separates

end Coppice.Std
