/-!
# Clocks

A clock is the sequence of its readings together with the number of readings that were taken.
It need not run forwards.
-/

namespace BlockEditor

structure Clock where
  /-- The readings in milliseconds, in the order in which they are taken. -/
  reading : Nat → UInt64
  /-- The number of readings taken so far. -/
  taken : Nat

namespace Clock

/-- The next reading. -/
def now (c : Clock) : UInt64 :=
  c.reading c.taken

/-- The clock after one more reading. -/
def tick (c : Clock) : Clock :=
  { c with taken := c.taken + 1 }

/-- The clock that always shows `n`. -/
def fixed (n : UInt64) : Clock :=
  ⟨fun _ => n, 0⟩

/-- The clock that shows `start`, `start + step`, `start + 2 * step`, … and stays at the greatest
word once it is reached. -/
def ticking (start step : UInt64) : Clock :=
  ⟨fun i => .ofNat (min (start.toNat + i * step.toNat) (UInt64.size - 1)), 0⟩

/-- The next `count` readings. -/
def readings (c : Clock) (count : Nat) : List UInt64 :=
  (List.range count).map fun i => c.reading (c.taken + i)

end Clock

end BlockEditor
