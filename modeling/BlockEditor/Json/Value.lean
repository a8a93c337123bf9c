/-!
# JSON values

`Json` is the value that a JSON text denotes, with what the text says beyond that value where
a reader of the value can tell the difference.  Members of an object keep their order and may
repeat a key.  A `Numeral` is a decimal number as written, before it is rounded to anything.
A string with an unpaired surrogate escape is a JSON string that names no text; its value
is `none`.
-/

namespace BlockEditor

/-- A number as written: the digits `coefficient`, of which the last `places` stand behind the
point, times `10 ^ exponent`.  A number without a point has no places, one without an exponent
part has the exponent `none`. -/
structure Numeral where
  negative : Bool
  coefficient : Nat
  places : Nat
  exponent : Option Int
deriving DecidableEq, Repr, Inhabited

namespace Numeral

/-- The numeral of a natural number, written as an integer. -/
def ofNat (n : Nat) : Numeral :=
  ⟨false, n, 0, none⟩

/-- The natural number that the numeral spells with digits alone: no sign, no fraction, no
exponent. -/
def toNat? (n : Numeral) : Option Nat :=
  if n.negative || n.places != 0 || n.exponent.isSome then none else some n.coefficient

/-- The part in front of the point. -/
def whole (n : Numeral) : Nat :=
  n.coefficient / Nat.pow 10 n.places

/-- The digits in front of the point. -/
def wholeDigits (n : Numeral) : List Char :=
  Nat.toDigits 10 n.whole

/-- The `count` lowest decimal digits of a number, with leading zeros. -/
def lowDigits : (count : Nat) → Nat → List Char
  | 0, _ => []
  | count + 1, k => lowDigits count (k / 10) ++ [Nat.digitChar (k % 10)]

/-- The digits behind the point. -/
def placeDigits (n : Numeral) : List Char :=
  lowDigits n.places n.coefficient

@[simp]
theorem toNat?_ofNat (n : Nat) :
  (ofNat n).toNat? = some n
  := rfl

end Numeral

inductive Json where
  | null
  | bool (value : Bool)
  | number (value : Numeral)
  /-- A string; `none` if its escapes leave a surrogate unpaired. -/
  | string (text : Option String)
  | array (elements : List Json)
  | object (members : List (Option String × Json))
deriving Repr, Inhabited

namespace Json

/-- The string that names `s`. -/
def text (s : String) : Json :=
  .string (some s)

/-- The number `n`, written as an integer. -/
def ofNat (n : Nat) : Json :=
  .number (.ofNat n)

/-- The number that a word stands for, written as an integer. -/
def ofWord (n : UInt64) : Json :=
  .ofNat n.toNat

/-- A value that may be missing, with `null` for the missing one. -/
def ofOption {α : Type} (f : α → Json) : Option α → Json
  | none => .null
  | some a => f a

def ofList {α : Type} (f : α → Json) (as : List α) : Json :=
  .array (as.map f)

/-- The object with the given keys and values, in order. -/
def record (fields : List (String × Json)) : Json :=
  .object (fields.map fun (key, value) => (some key, value))

mutual

/-- The number of arrays and objects around the innermost value: `0` for a scalar, `1` for
an empty array. -/
def depth : Json → Nat
  | .array elements => depthOfElements elements + 1
  | .object members => depthOfMembers members + 1
  | _ => 0

/-- The greatest depth among the elements. -/
def depthOfElements : List Json → Nat
  | [] => 0
  | v :: vs => max v.depth (depthOfElements vs)

/-- The greatest depth among the values of the members. -/
def depthOfMembers : List (Option String × Json) → Nat
  | [] => 0
  | (_, v) :: ms => max v.depth (depthOfMembers ms)

end

end Json

end BlockEditor
