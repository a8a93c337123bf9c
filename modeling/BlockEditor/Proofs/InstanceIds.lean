import BlockEditor.Block.InstanceId
import BlockEditor.Proofs.SyntheticName

/-!
# Taking ids apart

An id is taken apart at its last dash, behind which digits alone may stand.  So the id that is made from
a template and a stamp is taken apart into these two, even if there are dashes and digits in the id of
the template, and ids that are made at different stamps are different, whatever the templates are.
-/

namespace BlockEditor

namespace Scan

theorem splitLast?_eq_none_iff {separator : Char} {cs : List Char} :
  splitLast? separator cs = none ↔ separator ∉ cs
  := by
  induction cs with
  | nil => simp [splitLast?]
  | cons c cs ih =>
    rw [splitLast?, List.mem_cons, not_or, ← ih]
    cases splitLast? separator cs with
    | none => simp [eq_comm]
    | some parts => simp

/-- A text is cut at a separator that none stands behind. -/
theorem splitLast?_eq_some_iff {separator : Char} {cs before after : List Char} :
  splitLast? separator cs = some (before, after)
    ↔ cs = before ++ separator :: after ∧ separator ∉ after
  := by
  induction cs generalizing before with
  | nil => simp [splitLast?]
  | cons c cs ih =>
    rw [splitLast?]
    cases hrest : splitLast? separator cs with
    | none =>
      have hcs := splitLast?_eq_none_iff.mp hrest
      dsimp only
      constructor
      · intro h
        split at h
        · rename_i hc
          cases h
          rw [hc]
          exact ⟨rfl, hcs⟩
        · contradiction
      · rintro ⟨h, hafter⟩
        cases before with
        | nil =>
          cases h
          apply if_pos rfl
        | cons b bs =>
          cases h
          apply absurd _ hcs
          simp
    | some parts =>
      obtain ⟨front, back⟩ := parts
      dsimp only
      constructor
      · intro h
        cases h
        obtain ⟨rfl, hafter⟩ := ih.mp hrest
        exact ⟨rfl, hafter⟩
      · rintro ⟨h, hafter⟩
        cases before with
        | nil =>
          cases h
          rw [splitLast?_eq_none_iff.mpr hafter] at hrest
          contradiction
        | cons b bs =>
          cases h
          have heq := ih.mpr ⟨rfl, hafter⟩
          rw [hrest] at heq
          cases heq
          rfl

end Scan

namespace InstanceId

/-- An id is taken apart into what stands before and behind a dash, if digits alone stand behind it. -/
theorem split?_eq_some_iff {id base stamp : String} :
  split? id = some (base, stamp)
    ↔ id = base ++ "-" ++ stamp ∧ ∀ c ∈ stamp.toList, Scan.isDigit c = true
  := by
  have hdash : (∀ c ∈ stamp.toList, Scan.isDigit c = true) → '-' ∉ stamp.toList := by
    intro hdigits h
    apply absurd (hdigits '-' h) (by decide)
  have hlist : (base ++ "-" ++ stamp).toList = base.toList ++ '-' :: stamp.toList := by
    rw [String.toList_append, String.toList_append, List.append_assoc]
    rfl
  constructor
  · intro h
    rw [split?] at h
    split at h
    · rename_i before after hcut
      split at h
      · rename_i hdigits
        cases h
        obtain ⟨hid, -⟩ := Scan.splitLast?_eq_some_iff.mp hcut
        constructor
        · rw [← String.toList_inj, hlist, String.toList_ofList, String.toList_ofList, hid]
        · rw [String.toList_ofList]
          apply List.all_eq_true.mp hdigits
      · contradiction
    · contradiction
  · rintro ⟨rfl, hdigits⟩
    have hcut := Scan.splitLast?_eq_some_iff.mpr ⟨hlist, hdash hdigits⟩
    rw [split?, hcut]
    dsimp only
    rw [if_pos (List.all_eq_true.mpr hdigits), String.ofList_toList, String.ofList_toList]

/-- A stamp is written with digits, of which there is at least one. -/
theorem digits_stamp (stamp : UInt64) :
  toString stamp.toNat ≠ "" ∧ ∀ c ∈ (toString stamp.toNat).toList, Scan.isDigit c = true
  := by
  have hlist : (toString stamp.toNat).toList = Nat.toDigits 10 stamp.toNat := Nat.toList_repr
  constructor
  · intro hempty
    rw [hempty] at hlist
    apply Nat.toDigits_ne_nil hlist.symm
  · intro c hc
    rw [hlist] at hc
    apply Scan.isDigit_of_mem_toDigits hc

/-- An id that was made from a template is taken apart into the id of the template and the stamp. -/
theorem split?_make (templateId : String) (stamp : UInt64) :
  split? (make templateId stamp) = some (templateId, toString stamp.toNat)
  := split?_eq_some_iff.mpr ⟨rfl, (digits_stamp stamp).2⟩

/-- The id is `base`, a dash and a stamp of ASCII digits, of which there is at least one. -/
def IsStamped (base id : String) : Prop :=
  ∃ stamp, id = base ++ "-" ++ stamp ∧ stamp ≠ "" ∧ ∀ c ∈ stamp.toList, Scan.isDigit c = true

/-- The id is `base`, a dash and nothing more. -/
def IsBare (base id : String) : Prop :=
  id = base ++ "-"

theorem isStamped_make (templateId : String) (stamp : UInt64) :
  IsStamped templateId (make templateId stamp)
  := by
  use toString stamp.toNat, rfl
  apply digits_stamp

theorem IsBare.split?_eq {base id : String} (h : IsBare base id) :
  split? id = some (base, "")
  := by
  rw [split?_eq_some_iff, String.append_empty]
  use h
  intro c hc
  cases hc

theorem IsStamped.exists_split? {base id : String} (h : IsStamped base id) :
  ∃ stamp, split? id = some (base, stamp) ∧ stamp ≠ ""
  := by
  obtain ⟨stamp, hid, hstamp, hdigits⟩ := h
  use stamp, split?_eq_some_iff.mpr ⟨hid, hdigits⟩

/-- An id that is taken apart has a stamp, or only the dash. -/
theorem isStamped_or_isBare {id base stamp : String} (h : split? id = some (base, stamp)) :
  IsStamped base id ∨ IsBare base id
  := by
  obtain ⟨hid, hdigits⟩ := split?_eq_some_iff.mp h
  by_cases hstamp : stamp = ""
  · right
    rw [hstamp, String.append_empty] at hid
    apply hid
  · left
    use stamp

/-- An id tells the template and the stamp from which it was made. -/
theorem make_inj {s t : String} {a b : UInt64} (h : make s a = make t b) :
  s = t ∧ a = b
  := by
  have hsplit := split?_make s a
  rw [h, split?_make, Option.some.injEq, Prod.mk.injEq] at hsplit
  obtain ⟨htemplate, hstamp⟩ := hsplit
  use htemplate.symm
  apply UInt64.toNat_inj.mp
  apply Nat.repr_injective hstamp.symm

end InstanceId

end BlockEditor
