import Mathlib.Data.List.Basic

/-!
# UTF-8 with replacement characters

Decoding bytes that need not be UTF-8: every maximal part of a sequence that cannot be
continued becomes one replacement character.
-/

namespace Coppice.Std

def replacementCharacter : Char := '\uFFFD'

def continuation (byte : UInt8) : Bool := 0x80 ≤ byte && byte ≤ 0xBF

/-- The second bytes that may follow a lead byte of a sequence of three or four bytes. -/
def secondFits (lead second : UInt8) : Bool :=
  if lead = 0xE0 then 0xA0 ≤ second && second ≤ 0xBF
  else if lead = 0xED then 0x80 ≤ second && second ≤ 0x9F
  else if lead = 0xF0 then 0x90 ≤ second && second ≤ 0xBF
  else if lead = 0xF4 then 0x80 ≤ second && second ≤ 0x8F
  else 0xE1 ≤ lead && lead ≤ 0xF3 && continuation second

/-- Six payload bits of a continuation byte after the bits before it. -/
def extend (bits : Nat) (byte : UInt8) : Nat := bits * 64 + byte.toNat % 64

/-- `String::from_utf8_lossy`, on characters. -/
def decodeLossy : List UInt8 → List Char
  | [] => []
  | lead :: rest =>
    if lead < 0x80 then Char.ofNat lead.toNat :: decodeLossy rest
    else
      match rest with
      | [] => [replacementCharacter]
      | second :: rest' =>
        if 0xC2 ≤ lead && lead ≤ 0xDF && continuation second then
          Char.ofNat (extend (lead.toNat % 32) second) :: decodeLossy rest'
        else if secondFits lead second then
          match rest' with
          | [] => [replacementCharacter]
          | third :: rest'' =>
            if !continuation third then
              replacementCharacter :: decodeLossy (third :: rest'')
            else if lead < 0xF0 then
              Char.ofNat (extend (extend (lead.toNat % 16) second) third) ::
                decodeLossy rest''
            else
              match rest'' with
              | [] => [replacementCharacter]
              | fourth :: rest''' =>
                if continuation fourth then
                  Char.ofNat (extend (extend (extend (lead.toNat % 8) second) third)
                    fourth) :: decodeLossy rest'''
                else replacementCharacter :: decodeLossy (fourth :: rest''')
        else replacementCharacter :: decodeLossy (second :: rest')

example : decodeLossy [0x61, 0xC3, 0xA9, 0xE2, 0x82, 0x41] =
    ['a', 'é', replacementCharacter, 'A'] := by decide

end Coppice.Std
