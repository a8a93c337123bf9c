import BlockEditor.Numeric.Scaling
import Mathlib.Data.Nat.Log
import BlockEditor.Proofs.Digits

/-!
# Words in double precision

Rounding at most doubles a number of units, up to one unit.  So a number whose digits make a word of 64
bits stays far within the range of double precision when it is read by scaling.
-/

namespace BlockEditor

namespace Binary

theorem roundQuotient_le (num den : Nat) :
  roundQuotient num den ≤ num / den + 1
  := by
  have hlast : num / den % 2 < 2 := Nat.mod_lt _ (by decide)
  rw [roundQuotient]
  split
  · omega
  · split <;> omega

/-- The step between neighbours is no greater than the number itself. -/
theorem roundUnits_le {F : Format} (hprecision : 0 < F.precision) (num den : Nat) :
  roundUnits F num den ≤ 2 * (num / den) + 1
  := by
  rw [roundUnits]
  dsimp only
  split
  · have hround := roundQuotient_le num den
    omega
  · rename_i hlarge
    generalize hq : num / den = q at hlarge ⊢
    generalize hstep : Nat.pow 2 (q.log2 + 1 - F.precision) = step
    have hne : q ≠ 0 := by
      rintro rfl
      apply hlarge
      apply Nat.pow_pos (by decide)
    have hle : step ≤ q := by
      rw [← hstep]
      apply le_trans (Nat.pow_le_pow_right (by decide) _) (Nat.log2_self_le hne)
      omega
    calc roundQuotient num (den * step) * step
        ≤ (q / step + 1) * step := by
          rw [← hq, Nat.div_div_eq_div_mul]
          apply Nat.mul_le_mul_right _ (roundQuotient_le num (den * step))
      _ = q / step * step + step := Nat.succ_mul (q / step) step
      _ ≤ q + step := Nat.add_le_add_right (Nat.div_mul_le_self q step) step
      _ ≤ 2 * q + 1 := by omega

theorem ofUnits_eq_finite {F : Format} (hprecision : 0 < F.precision) {num den : Nat}
    (h : 2 * (num / den) + 1 < Nat.pow 2 F.ceiling) (negative : Bool) :
  ofUnits F negative num den = .finite negative (roundUnits F num den)
  := by
  rw [ofUnits]
  apply if_pos
  apply Nat.lt_of_le_of_lt (roundUnits_le hprecision num den) h

/-- A word times one, in a format with some bits to spare above the words. -/
theorem exists_ofNat_mul_one {F : Format} (hprecision : 0 < F.precision)
    (hroom : 66 + F.scale ≤ F.ceiling) {n : Nat} (h : n < UInt64.size) :
  ∃ u, (ofNat n : Binary F).mul (.finite false (Nat.pow 2 F.scale)) = .finite false u
  := by
  generalize hone : Nat.pow 2 F.scale = one
  have hpos : 0 < one := by
    rw [← hone]
    apply Nat.pow_pos (by decide)
  have hword : (n + 1) * one ≤ UInt64.size * one := Nat.mul_le_mul_right one h
  rw [Nat.succ_mul] at hword
  have hceiling : 4 * (UInt64.size * one) ≤ Nat.pow 2 F.ceiling := by
    calc 4 * (UInt64.size * one) = 2 ^ (66 + F.scale) := by
          rw [← hone, Nat.pow_add, ← Nat.mul_assoc]
          rfl
      _ ≤ 2 ^ F.ceiling := Nat.pow_le_pow_right (by decide) hroom
  have hunits := roundUnits_le hprecision (n * one) 1
  rw [Nat.div_one] at hunits
  have hofNat : (ofNat n : Binary F) = .finite false (roundUnits F (n * one) 1) := by
    rw [ofNat, hone]
    apply ofUnits_eq_finite hprecision
    rw [Nat.div_one]
    omega
  use roundUnits F (roundUnits F (n * one) 1 * one) one
  rw [hofNat, mul, hone]
  apply ofUnits_eq_finite hprecision
  rw [Nat.mul_div_cancel _ hpos]
  omega

end Binary

namespace Scaling

theorem le_foldl_digits (k : Nat) (ds : List Char) :
  k ≤ ds.foldl (fun n d => 10 * n + (d.toNat - 48)) k
  := by
  induction ds generalizing k with
  | nil => apply Nat.le_refl
  | cons d ds ih =>
    have hrest := ih (10 * k + (d.toNat - 48))
    rw [List.foldl_cons]
    omega

/-- If the number that all digits make is a word, then all of them are taken. -/
theorem takeDigits_eq {k : Nat} {ds : List Char}
    (h : ds.foldl (fun n d => 10 * n + (d.toNat - 48)) k < UInt64.size) :
  takeDigits k ds = (ds.foldl (fun n d => 10 * n + (d.toNat - 48)) k, 0)
  := by
  induction ds generalizing k with
  | nil => rfl
  | cons d ds ih =>
    rw [List.foldl_cons] at h ⊢
    rw [takeDigits, if_pos]
    · apply ih h
    · apply Nat.lt_of_le_of_lt (le_foldl_digits _ ds) h

theorem takeDigits_toDigits {n : Nat} (h : n < UInt64.size) :
  takeDigits 0 (Nat.toDigits 10 n) = (n, 0)
  := by
  have hdigits := Json.ofDigits_toDigits n
  rw [Json.ofDigits] at hdigits
  rw [takeDigits_eq] <;> rw [hdigits]
  apply h

end Scaling

/-- A word is within the range of double precision. -/
theorem Numeral.isSome_toDouble?_ofNat {n : Nat} (h : n < UInt64.size) :
  (Numeral.ofNat n).toDouble?.isSome = true
  := by
  have hone : Scaling.power 0 = .finite false (Nat.pow 2 Format.double.scale) := by decide +kernel
  have hscale : (Scaling.scaleUp? (.ofNat n) 0).isSome = true := by
    obtain ⟨u, hmul⟩ := Binary.exists_ofNat_mul_one (F := .double) (by decide) (by decide) h
    rw [Scaling.scaleUp?, hone, hmul]
    rfl
  have hwhole : (Numeral.ofNat n).wholeDigits = Nat.toDigits 10 n :=
    congrArg (Nat.toDigits 10) (Nat.div_one n)
  rw [toDouble?, hwhole, Scaling.takeDigits_toDigits h, Option.isSome_map]
  apply hscale

end BlockEditor
