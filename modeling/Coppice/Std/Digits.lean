import Coppice.Std.Text

/-!
# Padded numbers

Decimal numbers written with leading zeros, and how they read back.
-/

namespace Coppice.Std

variable {width n : Nat} {c : Char}

/-- `{:0width}`. -/
def pad (width n : Nat) : List Char :=
  let digits := Nat.toDigits 10 n
  List.replicate (width - digits.length) '0' ++ digits

theorem ofDigitChars_pad (width n : Nat) : Nat.ofDigitChars 10 (pad width n) 0 = n := by
  rw [pad, Nat.ofDigitChars_append, Nat.ofDigitChars_replicate_zero, Nat.mul_zero]
  exact Nat.ofDigitChars_ten_toDigits

theorem pad_injective {m : Nat} (same : pad width m = pad width n) : m = n := by
  rw [← ofDigitChars_pad width m, same, ofDigitChars_pad]

theorem isDigit_of_mem_pad (member : c ∈ pad width n) : c.isDigit = true := by
  rcases List.mem_append.1 member with zero | digit
  · rw [List.eq_of_mem_replicate zero]
    rfl
  · exact Nat.isDigit_of_mem_toDigits (by decide) (by decide) digit

theorem notMem_pad (plain : c.isDigit = false) : c ∉ pad width n := by
  intro member
  rw [isDigit_of_mem_pad member] at plain
  cases plain

theorem pad_ne_nil (width n : Nat) : pad width n ≠ [] :=
  List.append_ne_nil_of_right_ne_nil _ Nat.toDigits_ne_nil

theorem parseU64_pad (fits : n < 2 ^ 64) : parseU64 (.ofList (pad width n)) = some n := by
  have value := ofDigitChars_pad width n
  rw [parseU64_of_digits (pad_ne_nil width n) (fun c => isDigit_of_mem_pad) (by rwa [value]), value]

end Coppice.Std
