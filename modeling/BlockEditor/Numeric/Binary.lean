/-!
# Binary floating-point numbers

A `Format` is a binary floating-point format, and `Binary F` holds its numbers: not a number, an
infinity of either sign, or a finite number `± units * 2 ^ -F.scale`.  The unit is the least
positive number of the format, so every finite number of the format is a whole number of units,
and zero has a sign.

Arithmetic is exact arithmetic on units followed by one rounding: `roundUnits` takes a quotient
of natural numbers to the nearest number of units with at most `F.precision` significant bits,
and a tie to the one whose last bit is even.
-/

namespace BlockEditor

/-- The parameters of a binary format. -/
structure Format where
  /-- The number of significant bits. -/
  precision : Nat
  /-- The unit is `2 ^ -scale`. -/
  scale : Nat
  /-- Finite numbers are below `2 ^ ceiling` units. -/
  ceiling : Nat
  /-- The number of bits of an encoded number. -/
  width : Nat
deriving DecidableEq, Repr

namespace Format

/-- Single precision: 24 significant bits, from `2 ^ -149` to below `2 ^ 128`. -/
def single : Format := ⟨24, 149, 277, 32⟩

/-- Double precision: 53 significant bits, from `2 ^ -1074` to below `2 ^ 1024`. -/
def double : Format := ⟨53, 1074, 2098, 64⟩

end Format

/-- A number of the format `F`. -/
inductive Binary (F : Format) where
  | nan
  | infinite (negative : Bool)
  | finite (negative : Bool) (units : Nat)
deriving DecidableEq, Repr, Inhabited

namespace Binary

variable {F : Format}

/-- The integer nearest to `num / den`, the even one of two. -/
def roundQuotient (num den : Nat) : Nat :=
  let q := num / den
  let r := num % den
  if 2 * r < den then q
  else if den < 2 * r then q + 1
  else q + q % 2

/-- The multiple of a power of two nearest to `num / den` that has at most `F.precision`
significant bits. -/
def roundUnits (F : Format) (num den : Nat) : Nat :=
  let q := num / den
  if q < Nat.pow 2 F.precision then roundQuotient num den
  else
    let step := Nat.pow 2 (q.log2 + 1 - F.precision)
    roundQuotient num (den * step) * step

/-- The number of the format nearest to `± num / den` units; an infinity beyond the range. -/
def ofUnits (F : Format) (negative : Bool) (num den : Nat) : Binary F :=
  let u := roundUnits F num den
  if u < Nat.pow 2 F.ceiling then .finite negative u else .infinite negative

def zero : Binary F := .finite false 0

/-- The number of the format nearest to a natural number. -/
def ofNat (n : Nat) : Binary F :=
  ofUnits F false (n * Nat.pow 2 F.scale) 1

def isFinite : Binary F → Bool
  | .finite _ _ => true
  | _ => false

/-- The number of the format `F` nearest to a number of the format `G`. -/
def convert {G : Format} (F : Format) : Binary G → Binary F
  | .nan => .nan
  | .infinite s => .infinite s
  | .finite s u => ofUnits F s (u * Nat.pow 2 F.scale) (Nat.pow 2 G.scale)

def neg : Binary F → Binary F
  | .nan => .nan
  | .infinite s => .infinite (!s)
  | .finite s u => .finite (!s) u

/-- A sum that is zero is negative only if both terms are. -/
def add : Binary F → Binary F → Binary F
  | .nan, _ => .nan
  | _, .nan => .nan
  | .infinite s, .infinite t => if s = t then .infinite s else .nan
  | .infinite s, .finite _ _ => .infinite s
  | .finite _ _, .infinite t => .infinite t
  | .finite s u, .finite t v =>
    if s = t then ofUnits F s (u + v) 1
    else if v < u then ofUnits F s (u - v) 1
    else if u < v then ofUnits F t (v - u) 1
    else zero

def sub (a b : Binary F) : Binary F :=
  a.add b.neg

def mul : Binary F → Binary F → Binary F
  | .nan, _ => .nan
  | _, .nan => .nan
  | .infinite s, .infinite t => .infinite (s != t)
  | .infinite s, .finite t v => if v = 0 then .nan else .infinite (s != t)
  | .finite s u, .infinite t => if u = 0 then .nan else .infinite (s != t)
  | .finite s u, .finite t v => ofUnits F (s != t) (u * v) (Nat.pow 2 F.scale)

/-- The quotient of two numbers.  A zero divisor gives an infinity, or no number if the dividend
is zero too. -/
def div : Binary F → Binary F → Binary F
  | .nan, _ => .nan
  | _, .nan => .nan
  | .infinite _, .infinite _ => .nan
  | .infinite s, .finite t _ => .infinite (s != t)
  | .finite s _, .infinite t => .finite (s != t) 0
  | .finite s u, .finite t v =>
    if v = 0 then if u = 0 then .nan else .infinite (s != t)
    else ofUnits F (s != t) (u * Nat.pow 2 F.scale) v

/-- The quotient by a positive natural number that the format holds exactly. -/
def divNat (a : Binary F) (d : Nat) : Binary F :=
  match a with
  | .finite s u => ofUnits F s u d
  | a => a

/-- The encoding without its sign: exponent field and fraction. -/
def magnitudeBits (F : Format) (units : Nat) : Nat :=
  if units < Nat.pow 2 F.precision then units
  else
    let shift := units.log2 + 1 - F.precision
    shift * Nat.pow 2 (F.precision - 1) + units / Nat.pow 2 shift

/-- The encoding of a number as a word of `F.width` bits; none for a number that is not one. -/
def bits? : Binary F → Option Nat
  | .nan => none
  | .infinite s => some (signBit s + magnitudeBits F (Nat.pow 2 F.ceiling))
  | .finite s u => some (signBit s + magnitudeBits F u)
where
  signBit (negative : Bool) : Nat := if negative then Nat.pow 2 (F.width - 1) else 0

end Binary

/-- Numbers of single precision, in which the geometry of the view is given. -/
abbrev Single := Binary Format.single

/-- Numbers of double precision, in which robot coordinates are given. -/
abbrev Double := Binary Format.double

end BlockEditor
