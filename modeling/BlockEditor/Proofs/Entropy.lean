import BlockEditor.Time.SyntheticName
import Mathlib.Logic.Function.Iterate

/-!
# The generator of factors

A step of the generator loses nothing: different states lead to different states.  The state zero leads
to itself, so no other state ever leads there, and it is the only state that does.  The generator for a
seed is at rest from the beginning if the seed is the constant that seeds are mixed with, and for every
other seed it never is.
-/

namespace BlockEditor

/-! ### Shifted copies -/

section

variable {w k : Nat}

/-- Adding a linear image that vanishes when it is taken often enough loses nothing. -/
theorem xor_injective_of_iterate {f : BitVec w → BitVec w} (hf : ∀ x y, f (x ^^^ y) = f x ^^^ f y)
    {n : Nat} (hn : ∀ x, f^[n] x = 0) :
  Function.Injective fun x => x ^^^ f x
  := by
  intro x y h
  have hcancel : (x ^^^ y) ^^^ f (x ^^^ y) = 0 := by
    calc (x ^^^ y) ^^^ f (x ^^^ y)
      _ = (x ^^^ f x) ^^^ (y ^^^ f y) := by rw [hf]; ac_rfl
      _ = 0 := BitVec.xor_eq_zero_iff.mpr h
  -- The difference of the two words is its own image, hence the image taken as often as one likes.
  have hfixed : f (x ^^^ y) = x ^^^ y := (BitVec.xor_eq_zero_iff.mp hcancel).symm
  apply BitVec.xor_eq_zero_iff.mp
  calc x ^^^ y
    _ = f^[n] (x ^^^ y) := (Function.iterate_fixed hfixed n).symm
    _ = 0 := hn _

theorem iterate_shiftLeft (n : Nat) (x : BitVec w) :
  (fun z : BitVec w => z <<< k)^[n] x = x <<< (k * n)
  := by
  induction n with
  | zero => exact (BitVec.shiftLeft_zero x).symm
  | succ n ih => rw [Function.iterate_succ_apply', ih, Nat.mul_succ, BitVec.shiftLeft_add]

theorem iterate_shiftRight (n : Nat) (x : BitVec w) :
  (fun z : BitVec w => z >>> k)^[n] x = x >>> (k * n)
  := by
  induction n with
  | zero => exact (BitVec.ushiftRight_zero x).symm
  | succ n ih => rw [Function.iterate_succ_apply', ih, Nat.mul_succ, BitVec.shiftRight_add]

/-- Adding a copy shifted to the left loses nothing. -/
theorem xor_shiftLeft_injective (hk : 0 < k) :
  Function.Injective fun x : BitVec w => x ^^^ (x <<< k)
  := by
  apply xor_injective_of_iterate (fun x y => BitVec.shiftLeft_xor_distrib x y k)
  intro x
  rw [iterate_shiftLeft w]
  apply BitVec.shiftLeft_eq_zero (Nat.le_mul_of_pos_left w hk)

/-- Adding a copy shifted to the right loses nothing. -/
theorem xor_shiftRight_injective (hk : 0 < k) :
  Function.Injective fun x : BitVec w => x ^^^ (x >>> k)
  := by
  apply xor_injective_of_iterate (fun x y => BitVec.ushiftRight_xor_distrib x y k)
  intro x
  rw [iterate_shiftRight w]
  apply BitVec.ushiftRight_eq_zero (Nat.le_mul_of_pos_left w hk)

end

namespace Entropy

/-- Different states lead to different states. -/
theorem next_injective :
  Function.Injective next
  := by
  rintro ⟨x⟩ ⟨y⟩ h
  -- The three shifted copies are taken off again, the last one first.
  have hlast := congrArg (fun e : Entropy => e.state.toBitVec) h
  have hsecond := xor_shiftLeft_injective (by decide) hlast
  have hfirst := xor_shiftRight_injective (by decide) hsecond
  have hstate : x.toBitVec = y.toBitVec := xor_shiftLeft_injective (by decide) hfirst
  rw [UInt64.toBitVec_inj.mp hstate]

theorem next_zero :
  next ⟨0⟩ = ⟨0⟩
  := by
  decide

/-- Entropy is its state. -/
theorem state_eq_zero_iff {e : Entropy} :
  e.state = 0 ↔ e = ⟨0⟩
  := by
  cases e
  rw [Entropy.mk.injEq]

/-- The state zero is reached from itself only. -/
theorem iterate_next_eq_zero_iff {e : Entropy} (draws : Nat) :
  next^[draws] e = ⟨0⟩ ↔ e = ⟨0⟩
  := by
  have hzero := Function.iterate_fixed next_zero draws
  constructor
  · intro h
    apply next_injective.iterate draws
    rw [h, hzero]
  · rintro rfl
    apply hzero

/-! ### States at rest -/

/-- The words have the same bits below the position. -/
def AgreeBelow {w : Nat} (m : Nat) (c d : BitVec w) : Prop :=
  ∀ i < m, c.getLsbD i = d.getLsbD i

namespace AgreeBelow

variable {w m n : Nat} {c d c' d' : BitVec w}

theorem refl (m : Nat) (c : BitVec w) :
  AgreeBelow m c c
  := fun _ _ => rfl

/-- Agreement on more bits is agreement on fewer. -/
theorem mono (h : AgreeBelow n c d) (hle : m ≤ n) :
  AgreeBelow m c d
  := fun i hi => h i (Nat.lt_of_lt_of_le hi hle)

theorem xor (h : AgreeBelow m c d) (h' : AgreeBelow m c' d') :
  AgreeBelow m (c ^^^ c') (d ^^^ d')
  := by
  intro i hi
  rw [BitVec.getLsbD_xor, BitVec.getLsbD_xor, h i hi, h' i hi]

/-- A shift to the left moves agreement up with the bits. -/
theorem shiftLeft (h : AgreeBelow m c d) (k : Nat) :
  AgreeBelow (m + k) (c <<< k) (d <<< k)
  := by
  intro i hi
  rw [BitVec.getLsbD_shiftLeft, BitVec.getLsbD_shiftLeft]
  by_cases hik : i < k
  · simp [hik]
  · rw [h (i - k) (by omega)]

/-- Words that agree on all their bits are equal. -/
theorem eq (h : AgreeBelow m c d) (hm : w ≤ m) :
  c = d
  := BitVec.eq_of_getLsbD_eq fun i hi => h i (Nat.lt_of_lt_of_le hi hm)

end AgreeBelow

/-- What the two steps to the left add to a word. -/
def spread (b : BitVec 64) : BitVec 64 :=
  b <<< 13 ^^^ b <<< 17 ^^^ b <<< 30

/-- The higher bits of a word, from its seven lowest bits and the higher bits themselves.  In a state at
rest they are what they were. -/
def regrow (low high : BitVec 64) : BitVec 64 :=
  spread (high <<< 7 ^^^ high ^^^ low)

section

variable {low high : BitVec 64}

/-- Each round of regrowth settles thirteen more bits. -/
theorem agreeBelow_regrow {m : Nat} {c d : BitVec 64} (h : AgreeBelow m c d) :
  AgreeBelow (m + 13) (regrow low c) (regrow low d)
  := by
  have hsum := (((h.shiftLeft 7).mono (Nat.le_add_right m 7)).xor h).xor (.refl m low)
  apply AgreeBelow.xor
  · apply (hsum.shiftLeft 13).xor ((hsum.shiftLeft 17).mono (by omega))
  · apply (hsum.shiftLeft 30).mono (by omega)

/-- Each time, thirteen more of the higher bits are determined by the seven lowest ones. -/
theorem eq_iterate_regrow (h : regrow low high = high) :
  high = (regrow low)^[5] 0
  := by
  have hagree : ∀ n, AgreeBelow (13 * n) high ((regrow low)^[n] 0) := by
    intro n
    induction n with
    | zero => exact fun i hi => absurd hi (Nat.not_lt_zero i)
    | succ n ih =>
      have hregrow : AgreeBelow (13 * n + 13) (regrow low high) _ := agreeBelow_regrow ih
      rw [h] at hregrow
      rw [Function.iterate_succ_apply']
      apply hregrow
  apply (hagree 5).eq (by decide)

end

/-- Only the seven lowest bits zero lead to higher bits that fit into the word. -/
theorem low_eq_zero :
  ∀ low : Fin 128, (regrow (.ofNat 64 low))^[5] 0 >>> 57 = 0 → low = 0
  := by
  decide +kernel

theorem toNat_low_lt (a : BitVec 64) :
  (a ^^^ a >>> 7 <<< 7).toNat < 128
  := by
  apply Nat.lt_pow_two_of_testBit (n := 7)
  intro i hi
  rw [BitVec.testBit_toNat, BitVec.getLsbD_xor, BitVec.getLsbD_shiftLeft, BitVec.getLsbD_ushiftRight,
    Nat.add_sub_cancel' hi, decide_eq_false (Nat.not_lt.mpr hi), Bool.not_false, Bool.and_true]
  by_cases hi64 : i < 64
  · rw [decide_eq_true hi64, Bool.true_and, Bool.xor_self]
  · rw [BitVec.getLsbD_of_ge _ _ (Nat.le_of_not_lt hi64), Bool.and_false, Bool.xor_self]

section

-- The words after the three steps, the last of which is the state again.
variable {a b x : BitVec 64} (ha : a = x ^^^ x <<< 13) (hb : b = a ^^^ a >>> 7)
  (hx : x = b ^^^ b <<< 17)

include ha hx in
theorem eq_xor_spread :
  a = b ^^^ spread b
  := by
  have htwice : b <<< 17 <<< 13 = b <<< 30 := (BitVec.shiftLeft_add b 17 13).symm
  rw [ha, hx, BitVec.shiftLeft_xor_distrib, htwice, spread]
  generalize b <<< 13 = p, b <<< 17 = q, b <<< 30 = r
  ac_rfl

include ha hb hx

theorem regrow_eq_self :
  regrow (a ^^^ a >>> 7 <<< 7) (a >>> 7) = a >>> 7
  := by
  have hsum : a >>> 7 <<< 7 ^^^ a >>> 7 ^^^ (a ^^^ a >>> 7 <<< 7) = b := by
    rw [hb]
    calc a >>> 7 <<< 7 ^^^ a >>> 7 ^^^ (a ^^^ a >>> 7 <<< 7)
      _ = a ^^^ a >>> 7 ^^^ (a >>> 7 <<< 7 ^^^ a >>> 7 <<< 7) := by ac_rfl
      _ = a ^^^ a >>> 7 := by rw [BitVec.xor_self, BitVec.xor_zero]
  have hspread : b ^^^ spread b = b ^^^ a >>> 7 := by
    rw [← eq_xor_spread ha hx, hb, BitVec.xor_assoc, BitVec.xor_self, BitVec.xor_zero]
  rw [regrow, hsum]
  apply (BitVec.xor_right_inj b).mp hspread

/-- A word that the three steps of a draw lead back to itself is zero. -/
theorem eq_zero_of_steps :
  x = 0
  := by
  have hregrow := regrow_eq_self ha hb hx
  have hlow : (⟨(a ^^^ a >>> 7 <<< 7).toNat, toNat_low_lt a⟩ : Fin 128) = 0 := by
    apply low_eq_zero
    rw [BitVec.ofNat_toNat, BitVec.setWidth_eq, ← eq_iterate_regrow hregrow, ← BitVec.shiftRight_add]
    apply BitVec.ushiftRight_eq_zero (by decide)
  have hnat : (a ^^^ a >>> 7 <<< 7).toNat = 0 := congrArg Fin.val hlow
  have hzero : a ^^^ a >>> 7 <<< 7 = 0#64 := BitVec.eq_of_toNat_eq hnat
  rw [hzero] at hregrow
  have hhigh : a >>> 7 = 0#64 := (eq_iterate_regrow hregrow).trans (by decide +kernel)
  rw [hhigh, BitVec.zero_shiftLeft, BitVec.xor_zero] at hzero
  have hcopy : x ^^^ x <<< 13 = 0#64 ^^^ 0#64 <<< 13 := by
    rw [← ha, hzero, BitVec.zero_shiftLeft, BitVec.xor_self]
  apply xor_shiftLeft_injective (by decide) hcopy

end

/-- Zero is the only state that leads to itself. -/
theorem next_eq_self_iff {e : Entropy} :
  e.next = e ↔ e.state = 0
  := by
  constructor
  · intro h
    have hx : e.state.toBitVec = e.next.state.toBitVec := by rw [h]
    apply UInt64.toBitVec_inj.mp
    apply eq_zero_of_steps rfl rfl hx
  · intro h
    rw [state_eq_zero_iff.mp h, next_zero]

/-- After any number of draws, the generator for a seed is in the state zero exactly if the seed is the
constant that seeds are mixed with, and only then a draw leaves it where it is. -/
theorem at_rest_iff (seed : UInt64) (draws : Nat) :
  ((next^[draws] (seeded seed)).state = 0 ↔ seed = 0x9E3779B97F4A7C15)
    ∧ (next^[draws + 1] (seeded seed) = next^[draws] (seeded seed) ↔ seed = 0x9E3779B97F4A7C15)
  := by
  have hstate : (next^[draws] (seeded seed)).state = 0 ↔ seed = 0x9E3779B97F4A7C15 := by
    rw [state_eq_zero_iff, iterate_next_eq_zero_iff, seeded, Entropy.mk.injEq, UInt64.xor_eq_zero_iff]
  constructor
  · apply hstate
  · rw [Function.iterate_succ_apply', next_eq_self_iff]
    apply hstate

/-- For that seed the generator stays in the state zero and always gives the factor one. -/
theorem at_rest_constant :
  (seeded 0x9E3779B97F4A7C15).state = 0
    ∧ (seeded 0x9E3779B97F4A7C15).next = seeded 0x9E3779B97F4A7C15
    ∧ (seeded 0x9E3779B97F4A7C15).next.factor = 1
  := by
  decide

end Entropy

end BlockEditor
