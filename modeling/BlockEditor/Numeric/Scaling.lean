import BlockEditor.Json.Value
import BlockEditor.Numeric.Decimal

/-!
# JSON numbers in double precision

A JSON number is read in double precision by scaling.  Its digits are taken one by one, those in
front of the point before those behind it, as long as the number that they make fits into a word
of 64 bits; digits that are not taken count as zeros.  The word is then multiplied or divided by
a power of ten.  Each of these steps rounds, so the result can differ in its last bits from the
double nearest to the number, and a number close to the end of the range can be refused although
its nearest double is finite, or be accepted although it is not.
-/

namespace BlockEditor

namespace Scaling

/-- Takes digits behind the number `taken` as long as the result fits into a word, and counts
the digits that are left. -/
def takeDigits : (taken : Nat) → List Char → Nat × Nat
  | taken, [] => (taken, 0)
  | taken, d :: ds =>
    let next := 10 * taken + (d.toNat - 48)
    if next < UInt64.size then takeDigits next ds else (taken, ds.length + 1)

/-- The power `10 ^ k` in double precision. -/
def power (k : Nat) : Double :=
  .ofDecimal Format.double false 1 k

/-- The greatest exponent of a power of ten in the range of double precision. -/
def maxExponent : Nat := 308

/-- The number times `10 ^ k`, unless it is beyond the range. -/
def scaleUp? (f : Double) (k : Nat) : Option Double :=
  if k ≤ maxExponent then
    let g := f.mul (power k)
    if g.isFinite then some g else none
  else if f = .zero then some f
  else none

/-- A word divided by `10 ^ k`, in two steps where one power of ten does not suffice.  Beyond
two such powers nothing is left of a word. -/
def scaleDown (f : Double) (k : Nat) : Double :=
  if k ≤ maxExponent then f.div (power k)
  else if k ≤ 2 * maxExponent then (f.div (power maxExponent)).div (power (k - maxExponent))
  else .zero

/-- The word `taken` times `10 ^ exponent`, unless it is beyond the range. -/
def scale? (taken : Nat) (exponent : Int) : Option Double :=
  match exponent with
  | .ofNat k => scaleUp? (.ofNat taken) k
  | .negSucc k => some (scaleDown (.ofNat taken) (k + 1))

end Scaling

namespace Numeral

/-- The number in double precision, read by scaling; `none` if it is beyond the range. -/
def toDouble? (n : Numeral) : Option Double :=
  let (whole, left) := Scaling.takeDigits 0 n.wholeDigits
  let (taken, untaken) := Scaling.takeDigits whole n.placeDigits
  let exponent : Int := n.exponent.getD 0 + left - (n.places - untaken : Nat)
  (Scaling.scale? taken exponent).map fun f => if n.negative then f.neg else f

end Numeral

end BlockEditor
