import BlockEditor.Json.Reader
import BlockEditor.Numeric.Decimal

/-!
# Written numbers

`Binary.read?` reads a number in decimal notation: a sign or none, digits with a point anywhere
among them or none, an exponent or none.  At least one digit stands in front of the exponent and
at least one in it.  Infinities and the number that is none are written as words, in letters of
either case.
-/

namespace BlockEditor

namespace Binary

variable {F : Format}

/-- The lower case of an ASCII letter. -/
def lowerLetter (c : Char) : Char :=
  if 'A' ≤ c ∧ c ≤ 'Z' then Char.ofNat (c.toNat + 32) else c

/-- The digits behind a point, if there is a point. -/
def readPlaces : List Char → List Char × List Char
  | '.' :: cs => cs.span Json.isDigit
  | cs => ([], cs)

/-- The digits in front of the point and behind it, and the exponent, of a whole text. -/
def readParts? (cs : List Char) : Option (List Char × List Char × Int) := do
  let (whole, cs) := cs.span Json.isDigit
  let (places, cs) := readPlaces cs
  guard (!whole.isEmpty || !places.isEmpty)
  let (exponent, cs) ← Json.readExponent cs
  guard cs.isEmpty
  return (whole, places, exponent.getD 0)

/-- The number that a text without a sign denotes, with the given sign. -/
def readUnsigned? (negative : Bool) (cs : List Char) : Option (Binary F) :=
  let word := String.ofList (cs.map lowerLetter)
  if word = "inf" ∨ word = "infinity" then some (.infinite negative)
  else if word = "nan" then some .nan
  else
    (readParts? cs).map fun (whole, places, exponent) =>
      .ofDecimal F negative (Json.ofDigits (whole ++ places)) (exponent - places.length)

/-- The number of the format nearest to the one that a text denotes. -/
def read? : List Char → Option (Binary F)
  | '-' :: cs => readUnsigned? true cs
  | '+' :: cs => readUnsigned? false cs
  | cs => readUnsigned? false cs

end Binary

end BlockEditor
