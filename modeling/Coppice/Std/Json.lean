import Mathlib.Data.Rat.Defs

/-!
# JSON values

The value tree of `serde_json`. Integers and floats are different numbers
there, and a float is read as the rational it denotes. An object lists its
members; the first one with a key answers a lookup. A value that was parsed or
written is `Sorted`, since objects are kept in a sorted map.
-/

namespace Coppice.Std

inductive Json where
  | null
  | bool (value : Bool)
  | int (value : Int)
  | float (value : ℚ)
  | str (value : String)
  | arr (items : List Json)
  | obj (members : List (String × Json))
deriving Repr

namespace Json

mutual

protected def decEq (left right : Json) : Decidable (left = right) :=
  match left with
  | .null => match right with
    | .null => isTrue rfl
    | .bool _ | .int _ | .float _ | .str _ | .arr _ | .obj _ => isFalse nofun
  | .bool x => match right with
    | .bool y => decidable_of_iff (x = y) (by simp)
    | .null | .int _ | .float _ | .str _ | .arr _ | .obj _ => isFalse nofun
  | .int x => match right with
    | .int y => decidable_of_iff (x = y) (by simp)
    | .null | .bool _ | .float _ | .str _ | .arr _ | .obj _ => isFalse nofun
  | .float x => match right with
    | .float y => decidable_of_iff (x = y) (by simp)
    | .null | .bool _ | .int _ | .str _ | .arr _ | .obj _ => isFalse nofun
  | .str x => match right with
    | .str y => decidable_of_iff (x = y) (by simp)
    | .null | .bool _ | .int _ | .float _ | .arr _ | .obj _ => isFalse nofun
  | .arr xs => match right with
    | .arr ys => match Json.decEqItems xs ys with
      | isTrue same => isTrue (by rw [same])
      | isFalse differ => isFalse (by simpa using differ)
    | .null | .bool _ | .int _ | .float _ | .str _ | .obj _ => isFalse nofun
  | .obj xs => match right with
    | .obj ys => match Json.decEqMembers xs ys with
      | isTrue same => isTrue (by rw [same])
      | isFalse differ => isFalse (by simpa using differ)
    | .null | .bool _ | .int _ | .float _ | .str _ | .arr _ => isFalse nofun

protected def decEqItems (left right : List Json) : Decidable (left = right) :=
  match left, right with
  | [], [] => isTrue rfl
  | [], _ :: _ => isFalse nofun
  | _ :: _, [] => isFalse nofun
  | x :: xs, y :: ys => match Json.decEq x y, Json.decEqItems xs ys with
    | isTrue head, isTrue tail => isTrue (by rw [head, tail])
    | isFalse head, _ => isFalse (by simp [head])
    | _, isFalse tail => isFalse (by simp [tail])

protected def decEqMembers (left right : List (String × Json)) : Decidable (left = right) :=
  match left, right with
  | [], [] => isTrue rfl
  | [], _ :: _ => isFalse nofun
  | _ :: _, [] => isFalse nofun
  | (k, x) :: xs, (l, y) :: ys =>
    match decEq k l, Json.decEq x y, Json.decEqMembers xs ys with
    | isTrue key, isTrue head, isTrue tail => isTrue (by rw [key, head, tail])
    | isFalse key, _, _ => isFalse (by simp [key])
    | _, isFalse head, _ => isFalse (by simp [head])
    | _, _, isFalse tail => isFalse (by simp [tail])

end

instance : DecidableEq Json := Json.decEq

/-- The members of every object are in the order of their keys, each of them once. -/
inductive Sorted : Json → Prop where
  | null : Sorted .null
  | bool (value : Bool) : Sorted (.bool value)
  | int (value : Int) : Sorted (.int value)
  | float (value : ℚ) : Sorted (.float value)
  | str (value : String) : Sorted (.str value)
  | arr {items : List Json} (sorted : ∀ item ∈ items, Sorted item) : Sorted (.arr items)
  | obj {members : List (String × Json)}
      (keys : (members.map fun member => member.1.toList).Pairwise (· < ·))
      (sorted : ∀ member ∈ members, Sorted member.2) : Sorted (.obj members)

/-- `Value::get` with a string key: nothing unless the value is an object. -/
def get (key : String) : Json → Option Json
  | .obj members => (members.find? (·.1 == key)).map (·.2)
  | _ => none

/-- `Value::as_str`. -/
def asStr : Json → Option String
  | .str value => some value
  | _ => none

/-- `Value::is_null`. -/
def isNull : Json → Bool
  | .null => true
  | _ => false

/-- An absent optional value is written as `null`. -/
def ofOption {α : Type} (encode : α → Json) : Option α → Json
  | none => .null
  | some value => encode value

/-- An optional value reads back when no value is written as `null`. -/
theorem ofOption_injective {α : Type} {encode : α → Json} (injective : Function.Injective encode)
    (real : ∀ value, encode value ≠ .null) : Function.Injective (ofOption encode) := by
  intro left right same
  cases left with
  | none =>
    cases right with
    | none => rfl
    | some value => exact absurd same.symm (real value)
  | some first =>
    cases right with
    | none => exact absurd same (real first)
    | some second => exact congrArg some (injective same)

end Json
end Coppice.Std
