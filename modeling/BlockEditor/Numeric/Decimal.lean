import BlockEditor.Numeric.Binary

/-!
# Decimal numbers in binary

`Binary.ofDecimal` rounds the number `coefficient * 10 ^ exponent` to a binary format.  Exponents
far outside the range of the format are settled by the number of digits alone, so that no power
of ten larger than the format needs is computed.
-/

namespace BlockEditor

namespace Binary

/-- The number of the format nearest to `± coefficient * 10 ^ exponent`. -/
def ofDecimal (F : Format) (negative : Bool) (coefficient : Nat) (exponent : Int) : Binary F :=
  if coefficient = 0 then .finite negative 0
  else
    let top : Int := exponent + (Nat.toDigits 10 coefficient).length
    if (F.ceiling : Int) < top then .infinite negative
    else if top < -(F.scale + 2 : Nat) then .finite negative 0
    else
      match exponent with
      | .ofNat e => ofUnits F negative (coefficient * Nat.pow 10 e * Nat.pow 2 F.scale) 1
      | .negSucc e => ofUnits F negative (coefficient * Nat.pow 2 F.scale) (Nat.pow 10 (e + 1))

end Binary

end BlockEditor
