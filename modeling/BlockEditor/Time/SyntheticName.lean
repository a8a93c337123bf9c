/-!
# Synthetic names

A value without a name of its own is given a synthetic one, `var` followed by a number.  The
first candidate is the time; while the candidate is taken, the time is multiplied by a factor
from a pseudo-random generator, and the number of the attempt is added, in words of 64 bits.
-/

namespace BlockEditor

/-- The state of the generator of factors. -/
structure Entropy where
  state : UInt64
deriving DecidableEq, Repr

namespace Entropy

/-- The generator for a seed, such that the seed zero does not give the state zero. -/
def seeded (seed : UInt64) : Entropy :=
  ⟨seed ^^^ 0x9E3779B97F4A7C15⟩

/-- The next state: three steps, each of which adds a shifted copy of the word to itself. -/
def next (e : Entropy) : Entropy :=
  let x := e.state
  let x := x ^^^ (x <<< 13)
  let x := x ^^^ (x >>> 7)
  let x := x ^^^ (x <<< 17)
  ⟨x⟩

/-- The factor that a state stands for, between `1` and `1000`. -/
def factor (e : Entropy) : UInt64 :=
  e.state % 1000 + 1

end Entropy

namespace SyntheticName

/-- The name with the given number. -/
def make (stamp : UInt64) : String :=
  "var" ++ toString stamp.toNat

/-- The number of the candidate after `attempt` taken ones. -/
def retryStamp (now : UInt64) (e : Entropy) (attempt : UInt64) : UInt64 :=
  max now 1 * e.factor + attempt

/-- Tries the candidate `stamp` and then one candidate for each unit of `fuel`, until one is not
taken; returns it with the generator as it is then. -/
def search (now : UInt64) (taken : List String) :
    (fuel : Nat) → (e : Entropy) → (attempt stamp : UInt64) → String × Entropy
  | 0, e, _, stamp => (make stamp, e)
  | fuel + 1, e, attempt, stamp =>
    if make stamp ∈ taken then
      search now taken fuel e.next (attempt + 1) (retryStamp now e.next (attempt + 1))
    else (make stamp, e)

/-- A name that is not taken, and the generator after it.  Apart from the first one, a candidate is
made from the state of the generator and the number of the attempt, both words of 64 bits.  After
`2 ^ 128` candidates that are taken the search would go round, so there is no free one at all. -/
def fresh (now : UInt64) (e : Entropy) (taken : List String) : String × Entropy :=
  search now taken (Nat.pow 2 128) e 0 now

/-- The first `count` names given out at the same time, different from each other and from the
names that are taken already. -/
def several (now : UInt64) (e : Entropy) (taken : List String) : (count : Nat) → List String
  | 0 => []
  | count + 1 =>
    let (name, e) := fresh now e taken
    name :: several now e (name :: taken) count

end SyntheticName

end BlockEditor
