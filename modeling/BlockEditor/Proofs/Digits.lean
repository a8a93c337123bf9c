import BlockEditor.Json.Reader
import BlockEditor.Json.Writer
import BlockEditor.Text.Scan
import Mathlib.Algebra.Group.Nat.Defs
import Mathlib.Data.List.Basic
import Mathlib.Data.List.TakeDrop
import Std.Data.String.ToNat

/-!
# Decimal digits

Numbers are written with decimal digits, and read back from them.  A reader of digits stops at the first
character that is none, so a numeral is read back from a longer text as long as that does not go on with
what could belong to the numeral.
-/

namespace BlockEditor

/-- The decimal digits of a number are digits. -/
theorem Scan.isDigit_of_mem_toDigits {n : Nat} {c : Char} (h : c ∈ Nat.toDigits 10 n) :
  Scan.isDigit c = true
  := by
  have hdigit := Nat.isDigit_of_mem_toDigits (by decide) (by decide) h
  simpa [Char.isDigit, Scan.isDigit, Char.le_def] using hdigit

namespace Json

/-! ### Reading digits -/

/-- The text does not begin with a digit. -/
def LeavesDigits (cs : List Char) : Prop :=
  ∀ c ∈ cs.head?, isDigit c = false

/-- The text does not begin with what could belong to a numeral. -/
structure LeavesNumeral (cs : List Char) : Prop where
  digits : LeavesDigits cs
  point : cs.head? ≠ some '.'
  exponent : cs.head? ≠ some 'e' ∧ cs.head? ≠ some 'E'

theorem isDigit_of_mem_toDigits {n : Nat} {c : Char} (h : c ∈ Nat.toDigits 10 n) :
  isDigit c = true
  := Scan.isDigit_of_mem_toDigits h

theorem exists_cons_toDigits (n : Nat) :
  ∃ d ds, Nat.toDigits 10 n = d :: ds ∧ isDigit d = true
  := by
  obtain ⟨d, ds, hds⟩ := List.exists_cons_of_ne_nil (Nat.toDigits_ne_nil (n := n) (b := 10))
  use d, ds, hds
  apply isDigit_of_mem_toDigits (n := n)
  rw [hds]
  apply List.mem_cons_self

/-- Reading stops where the digits do. -/
theorem readDigits_append {ds rest : List Char} (hne : ds ≠ []) (hds : ∀ d ∈ ds, isDigit d = true)
    (hrest : LeavesDigits rest) :
  readDigits (ds ++ rest) = some (ds, rest)
  := by
  have htake : rest.takeWhile isDigit = [] := by
    cases rest with
    | nil => rfl
    | cons c cs => rw [List.takeWhile_cons, if_neg (by simpa using hrest c rfl)]
  have hdrop : rest.dropWhile isDigit = rest := by
    cases rest with
    | nil => rfl
    | cons c cs => rw [List.dropWhile_cons, if_neg (by simpa using hrest c rfl)]
  rw [readDigits, List.span_eq_takeWhile_dropWhile, List.takeWhile_append_of_pos hds,
    List.dropWhile_append_of_pos hds, htake, hdrop, List.append_nil]
  split
  · rename_i heq
    cases heq
    exact absurd rfl hne
  · rename_i heq
    cases heq
    rfl

theorem readDigits_toDigits (n : Nat) {rest : List Char} (hrest : LeavesDigits rest) :
  readDigits (Nat.toDigits 10 n ++ rest) = some (Nat.toDigits 10 n, rest)
  := by
  apply readDigits_append Nat.toDigits_ne_nil _ hrest
  intro d hd
  apply isDigit_of_mem_toDigits hd

/-- A number is not written with a leading zero. -/
theorem toDigits_head? {n : Nat} (h : n ≠ 0) :
  (Nat.toDigits 10 n).head? ≠ some '0'
  := by
  induction n using Nat.strongRecOn with
  | ind n ih =>
    rcases Nat.lt_or_ge n 10 with hlt | hge
    · have hdigit : ∀ d < 10, d ≠ 0 → [Nat.digitChar d].head? ≠ some '0' := by decide
      rw [Nat.toDigits_of_lt_base hlt]
      apply hdigit n hlt h
    · rw [Nat.toDigits_of_base_le (by decide) hge, List.head?_append_of_ne_nil _ Nat.toDigits_ne_nil]
      apply ih <;> omega

/-- The digits of a number are read back as they are: none but zero itself begins with a zero. -/
theorem readInteger_toDigits (n : Nat) {rest : List Char} (hrest : LeavesDigits rest) :
  readInteger (Nat.toDigits 10 n ++ rest) = some (Nat.toDigits 10 n, rest)
  := by
  cases n with
  | zero => rfl
  | succ n =>
    have hhead := toDigits_head? (Nat.succ_ne_zero n)
    rw [← readDigits_toDigits (n + 1) hrest]
    rw [readInteger]
    intro cs heq
    apply hhead
    rw [← List.head?_append_of_ne_nil _ Nat.toDigits_ne_nil, heq]
    rfl

/-! ### The numbers that digits spell -/

/-- The value of the digits of a number is the number. -/
theorem ofDigits_toDigits (n : Nat) :
  ofDigits (Nat.toDigits 10 n) = n
  := Nat.ofDigitChars_toDigits (by decide) (by decide)

/-- The lowest digits of a number, behind others. -/
theorem ofDigits_append_lowDigits (ds : List Char) (count k : Nat) :
  ofDigits (ds ++ Numeral.lowDigits count k) = ofDigits ds * 10 ^ count + k % 10 ^ count
  := by
  induction count generalizing k with
  | zero => rw [Numeral.lowDigits, List.append_nil, Nat.pow_zero, Nat.mul_one, Nat.mod_one, Nat.add_zero]
  | succ count ih =>
    have hdigit : (Nat.digitChar (k % 10)).toNat - 48 = k % 10 := by
      rw [Nat.toNat_digitChar_of_lt_ten (Nat.mod_lt _ (by decide)), Nat.add_sub_cancel_left]
    have hconcat : ofDigits (ds ++ Numeral.lowDigits count (k / 10) ++ [Nat.digitChar (k % 10)])
        = 10 * ofDigits (ds ++ Numeral.lowDigits count (k / 10))
          + ((Nat.digitChar (k % 10)).toNat - 48) := by
      rw [ofDigits, List.foldl_append]
      rfl
    rw [Numeral.lowDigits, ← List.append_assoc, hconcat, ih, hdigit, Nat.pow_succ',
      Nat.mod_mul, Nat.mul_add, Nat.mul_left_comm]
    omega

end Json

namespace Numeral

theorem length_lowDigits (count k : Nat) :
  (lowDigits count k).length = count
  := by
  induction count generalizing k with
  | zero => rfl
  | succ count ih => rw [lowDigits, List.length_append, ih, List.length_singleton]

theorem isDigit_of_mem_lowDigits {count k : Nat} {c : Char} (h : c ∈ lowDigits count k) :
  Json.isDigit c = true
  := by
  induction count generalizing k with
  | zero => cases h
  | succ count ih =>
    rw [lowDigits] at h
    rcases List.mem_append.mp h with h | h
    · apply ih h
    · rw [← Nat.toDigits_of_lt_base (Nat.mod_lt k (by decide))] at h
      apply Json.isDigit_of_mem_toDigits h

/-- The digits in front of the point and behind it spell the coefficient. -/
theorem ofDigits_digits (n : Numeral) :
  Json.ofDigits (n.wholeDigits ++ n.placeDigits) = n.coefficient
  := by
  rw [wholeDigits, placeDigits, Json.ofDigits_append_lowDigits, Json.ofDigits_toDigits]
  apply Nat.div_add_mod'

end Numeral

namespace Json

/-! ### Reading numerals -/

/-- Decimal places are read back, and none where none were written. -/
theorem readFraction_placeChars (n : Numeral) {rest : List Char} (hdigits : LeavesDigits rest)
    (hpoint : rest.head? ≠ some '.') :
  readFraction (n.placeChars ++ rest) = some (n.placeDigits, rest)
  := by
  rw [Numeral.placeChars, Numeral.placeDigits]
  split
  · rename_i hplaces
    rw [hplaces, List.nil_append, readFraction]
    · rfl
    · rintro cs rfl
      apply hpoint rfl
  · rename_i hplaces
    apply readDigits_append _ _ hdigits
    · intro hnil
      apply hplaces
      rw [← Numeral.length_lowDigits n.places n.coefficient, hnil, List.length_nil]
    · intro d hd
      apply Numeral.isDigit_of_mem_lowDigits hd

/-- An exponent is read back with its sign, and none where none was written. -/
theorem readExponent_exponentChars (exponent : Option Int) {rest : List Char}
    (hdigits : LeavesDigits rest) (hexponent : rest.head? ≠ some 'e' ∧ rest.head? ≠ some 'E') :
  readExponent (Numeral.exponentChars exponent ++ rest) = some (exponent, rest)
  := by
  have hsigned : ∀ n, readSignedExponent (Nat.toDigits 10 n ++ rest) = some ((n : Int), rest) := by
    intro n
    obtain ⟨d, ds, hds, hdigit⟩ := exists_cons_toDigits n
    rw [readSignedExponent, readDigits_toDigits n hdigits, Option.map_some]
    · dsimp only
      rw [ofDigits_toDigits]
    all_goals
      rintro cs heq
      rw [hds] at heq
      cases heq
      contradiction
  cases exponent with
  | none =>
    rw [Numeral.exponentChars, List.nil_append, readExponent]
    · rintro cs rfl
      apply hexponent.1 rfl
    · rintro cs rfl
      apply hexponent.2 rfl
  | some e =>
    cases e with
    | ofNat n =>
      rw [Numeral.exponentChars, List.cons_append, readExponent, hsigned]
      rfl
    | negSucc n =>
      rw [Numeral.exponentChars, List.cons_append, List.cons_append, readExponent, readSignedExponent,
        readDigits_toDigits _ hdigits, Option.map_some, Option.map_some]
      dsimp only
      rw [ofDigits_toDigits]
      rfl

theorem leavesDigits_exponentChars (exponent : Option Int) {rest : List Char}
    (hrest : LeavesDigits rest) :
  LeavesDigits (Numeral.exponentChars exponent ++ rest)
  := by
  cases exponent with
  | none => apply hrest
  | some e => cases e <;> rintro c ⟨⟩ <;> rfl

theorem head?_exponentChars_append_ne (exponent : Option Int) {rest : List Char}
    (hrest : rest.head? ≠ some '.') :
  (Numeral.exponentChars exponent ++ rest).head? ≠ some '.'
  := by
  cases exponent with
  | none => apply hrest
  | some e => cases e <;> rintro ⟨⟩

theorem leavesDigits_placeChars (n : Numeral) {rest : List Char} (hrest : LeavesDigits rest) :
  LeavesDigits (n.placeChars ++ rest)
  := by
  rw [Numeral.placeChars]
  split
  · apply hrest
  · rintro c ⟨⟩
    rfl

/-- Digits, places and exponent together are read back as the number they spell. -/
theorem readMagnitude_chars (n : Numeral) {rest : List Char} (hrest : LeavesNumeral rest) :
  readMagnitude n.negative
      (n.wholeDigits ++ (n.placeChars ++ (Numeral.exponentChars n.exponent ++ rest)))
    = some (n, rest)
  := by
  have hexponent := leavesDigits_exponentChars n.exponent hrest.digits
  have hinteger := readInteger_toDigits n.whole (leavesDigits_placeChars n hexponent)
  have hfraction := readFraction_placeChars n hexponent
    (head?_exponentChars_append_ne n.exponent hrest.point)
  rw [readMagnitude, Numeral.wholeDigits, hinteger]
  dsimp only [bind, Option.bind]
  rw [hfraction]
  dsimp only
  rw [readExponent_exponentChars n.exponent hrest.digits hrest.exponent]
  dsimp only [pure]
  rw [← Numeral.wholeDigits, Numeral.ofDigits_digits, Numeral.placeDigits, Numeral.length_lowDigits]

/-- A numeral is read back as it was written. -/
theorem readNumeral_chars (n : Numeral) {rest : List Char} (hrest : LeavesNumeral rest) :
  readNumeral (n.chars ++ rest) = some (n, rest)
  := by
  have hmagnitude := readMagnitude_chars n hrest
  rw [Numeral.chars, List.append_assoc, List.append_assoc, List.append_assoc]
  cases hnegative : n.negative with
  | true =>
    rw [hnegative] at hmagnitude
    apply hmagnitude
  | false =>
    rw [hnegative] at hmagnitude
    rw [if_neg Bool.false_ne_true, List.nil_append, readNumeral]
    · apply hmagnitude
    · intro cs heq
      obtain ⟨d, ds, hds, hdigit⟩ := exists_cons_toDigits n.whole
      rw [Numeral.wholeDigits, hds] at heq
      cases heq
      contradiction

end Json

end BlockEditor
