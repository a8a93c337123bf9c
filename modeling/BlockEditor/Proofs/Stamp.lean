import BlockEditor.Gesture.Canvas
import BlockEditor.Proofs.InstanceIds
import BlockEditor.Proofs.Walk
import Mathlib.Data.List.Perm.Subperm
import Mathlib.Data.Nat.Find

/-!
# Stamps of new blocks

The search for a stamp goes through the words upwards from the first one that may be given, and on
from zero after the last word.  It tries no more stamps than there are blocks, as those that it
passes over belong to different blocks, so it finds a free one if there is any.  A search that does not
get as far as the greatest word ends before it, and after the stamp that was given out last.
-/

namespace BlockEditor

namespace Canvas

/-- There is a stamp with which no block of the template is placed. -/
def HasStamp (c : Canvas) (templateId : String) : Prop :=
  ∃ stamp : UInt64, InstanceId.make templateId stamp ∉ Forest.ids c.tree

/-- The search passes over the stamps in use and ends at the first free one. -/
theorem freeStamp_eq {t : Forest} {templateId : String} {k : Nat} :
  ∀ {fuel n : Nat}, k ≤ fuel →
    (∀ j < k, InstanceId.make templateId (.ofNat (n + j)) ∈ Forest.ids t) →
    InstanceId.make templateId (.ofNat (n + k)) ∉ Forest.ids t →
    freeStamp t templateId fuel (.ofNat n) = .ofNat (n + k)
  := by
  induction k with
  | zero =>
    intro fuel n _ _ hfree
    cases fuel with
    | zero => rfl
    | succ fuel =>
      rw [Nat.add_zero] at hfree ⊢
      rw [freeStamp, Forest.find?_eq_none_iff.mpr hfree]
      rfl
  | succ k ih =>
    intro fuel n hfuel hused hfree
    obtain ⟨fuel, rfl⟩ : ∃ f, fuel = f + 1 := ⟨fuel - 1, by omega⟩
    have hmem : InstanceId.make templateId (.ofNat n) ∈ Forest.ids t := hused 0 (by omega)
    have hsome : (Forest.find? (InstanceId.make templateId (.ofNat n)) t).isSome := by
      rw [Option.isSome_iff_ne_none, Ne, Forest.find?_eq_none_iff, not_not]
      apply hmem
    have hnext : UInt64.ofNat n + 1 = UInt64.ofNat (n + 1) := by
      rw [UInt64.ofNat_add]
      rfl
    rw [freeStamp, if_pos hsome, hnext, ← Nat.add_assoc, Nat.add_right_comm]
    apply ih (by omega)
    · intro j hj
      rw [Nat.add_assoc, Nat.add_comm 1 j]
      apply hused (j + 1) (by omega)
    · rw [Nat.add_assoc, Nat.add_comm 1 k]
      apply hfree

/-- Successive stamps that are all in use belong to different blocks, unless there are more of them
than words. -/
theorem le_size_of_used {t : Forest} {templateId : String} {n k : Nat} (hfit : k ≤ UInt64.size)
    (hused : ∀ j < k, InstanceId.make templateId (.ofNat (n + j)) ∈ Forest.ids t) :
  k ≤ Forest.size t
  := by
  have hnodup : ((List.range k).map fun j =>
      InstanceId.make templateId (.ofNat (n + j))).Nodup := by
    apply List.Nodup.map_on _ List.nodup_range
    intro i hi j hj h
    rw [List.mem_range] at hi hj
    have h' := congrArg UInt64.toNat (InstanceId.make_inj h).2
    rw [UInt64.toNat_ofNat', UInt64.toNat_ofNat'] at h'
    rw [UInt64.size] at hfit
    omega
  have hsubset : ((List.range k).map fun j => InstanceId.make templateId (.ofNat (n + j)))
      ⊆ Forest.ids t := by
    intro id hid
    obtain ⟨j, hj, rfl⟩ := List.mem_map.mp hid
    apply hused j (List.mem_range.mp hj)
  have hlength := (hnodup.subperm hsubset).length_le
  rw [List.length_map, List.length_range, Forest.length_ids] at hlength
  apply hlength

/-- A workspace with fewer blocks than there are words leaves a stamp for every template. -/
theorem hasStamp_of_size_lt {c : Canvas} (h : Forest.size c.tree < UInt64.size)
    (templateId : String) :
  c.HasStamp templateId
  := by
  by_contra hnone
  have hused : ∀ j < UInt64.size,
      InstanceId.make templateId (.ofNat (0 + j)) ∈ Forest.ids c.tree := by
    intro j _
    by_contra hfree
    apply hnone ⟨_, hfree⟩
  have hsize := le_size_of_used (Nat.le_refl _) hused
  omega

/-- The search for a stamp ends with the given one: no more stamps are passed over than there are
blocks, all of them are in use, and no block has the id that is made with the one that is found. -/
def Finds (c : Canvas) (templateId : String) (stamp : UInt64) : Prop :=
  ∃ passed ≤ Forest.size c.tree,
    stamp = .ofNat (c.firstStamp.toNat + passed)
    ∧ (∀ i < passed,
      InstanceId.make templateId (.ofNat (c.firstStamp.toNat + i)) ∈ Forest.ids c.tree)
    ∧ InstanceId.make templateId stamp ∉ Forest.ids c.tree

/-- The search ends at the first free stamp, no later than at any other free one. -/
theorem finds_nextStamp {c : Canvas} {templateId : String} {k : Nat} (hk : k < UInt64.size)
    (hfree : InstanceId.make templateId (.ofNat (c.firstStamp.toNat + k)) ∉ Forest.ids c.tree) :
  c.Finds templateId (c.nextStamp templateId)
    ∧ ∃ j ≤ k, c.nextStamp templateId = .ofNat (c.firstStamp.toNat + j)
  := by
  have hexists : ∃ j, InstanceId.make templateId (.ofNat (c.firstStamp.toNat + j))
      ∉ Forest.ids c.tree := ⟨k, hfree⟩
  classical
  have hspec := Nat.find_spec hexists
  have hle : Nat.find hexists ≤ k := Nat.find_le hfree
  have hused : ∀ j < Nat.find hexists,
      InstanceId.make templateId (.ofNat (c.firstStamp.toNat + j)) ∈ Forest.ids c.tree := by
    intro j hj
    apply not_not.mp (Nat.find_min hexists hj)
  have hsize := le_size_of_used (by omega) hused
  have heq := freeStamp_eq hsize hused hspec
  rw [UInt64.ofNat_toNat] at heq
  rw [nextStamp, heq]
  constructor
  · use Nat.find hexists, hsize, rfl, hused
  · use Nat.find hexists, hle

/-- If there is a free stamp at all, no block has the id that is made from the next one. -/
theorem make_nextStamp_notMem {c : Canvas} {templateId : String} (h : c.HasStamp templateId) :
  InstanceId.make templateId (c.nextStamp templateId) ∉ Forest.ids c.tree
  := by
  obtain ⟨stamp, hfree⟩ := h
  have hoffset : UInt64.ofNat (c.firstStamp.toNat + (stamp - c.firstStamp).toNat) = stamp := by
    rw [UInt64.ofNat_add, UInt64.ofNat_toNat, UInt64.ofNat_toNat, UInt64.add_comm,
      UInt64.sub_add_cancel]
  rw [← hoffset] at hfree
  obtain ⟨⟨-, -, -, -, hnext⟩, -⟩ := finds_nextStamp (UInt64.toNat_lt_size _) hfree
  apply hnext

/-! ### Ascending stamps -/

/-- The search for a stamp tries the number: the stamps from the first one up to it are all in use. -/
def Tries (c : Canvas) (templateId : String) (n : Nat) : Prop :=
  c.firstStamp.toNat ≤ n
    ∧ ∀ i < n - c.firstStamp.toNat,
      InstanceId.make templateId (.ofNat (c.firstStamp.toNat + i)) ∈ Forest.ids c.tree

/-- The search for a stamp does not get as far as the greatest word. -/
def HasTime (c : Canvas) (templateId : String) : Prop :=
  ¬ c.Tries templateId (2 ^ 64 - 1)

/-- Before the greatest word, counting does not start again from zero. -/
theorem toNat_add_one {stamp : UInt64} (h : stamp.toNat < 2 ^ 64 - 1) :
  (stamp + 1).toNat = stamp.toNat + 1
  := by
  have hone : (1 : UInt64).toNat = 1 := rfl
  rw [UInt64.toNat_add, hone]
  omega

/-- The first stamp comes after the last one, as long as that is not the greatest word. -/
theorem lt_firstStamp {c : Canvas} {last : UInt64} (h : c.lastStamp = some last)
    (hlast : last.toNat < 2 ^ 64 - 1) :
  last.toNat < c.firstStamp.toNat
  := by
  rw [firstStamp, h]
  dsimp only
  split
  · rw [toNat_add_one hlast]
    apply Nat.lt_succ_self
  · rename_i hnow
    apply UInt64.lt_iff_toNat_lt.mp (UInt64.not_le.mp hnow)

/-- A search that does not get as far as the greatest word ends before it. -/
theorem HasTime.finds {c : Canvas} {templateId : String} (h : c.HasTime templateId) :
  c.Finds templateId (c.nextStamp templateId)
    ∧ c.firstStamp.toNat ≤ (c.nextStamp templateId).toNat
    ∧ (c.nextStamp templateId).toNat < 2 ^ 64 - 1
  := by
  have hfirst := c.firstStamp.toNat_lt
  rw [HasTime, Tries, not_and, not_forall] at h
  obtain ⟨k, hk⟩ := h (by omega)
  rw [Classical.not_imp] at hk
  obtain ⟨hlt, hfree⟩ := hk
  obtain ⟨hfinds, j, hj, heq⟩ := finds_nextStamp (c := c) (by rw [UInt64.size]; omega) hfree
  have hnext : (c.nextStamp templateId).toNat = c.firstStamp.toNat + j := by
    rw [heq, UInt64.toNat_ofNat_of_lt' (by rw [UInt64.size]; omega)]
  use hfinds
  omega

/-- A search that does not get as far as the greatest word ends after the last stamp. -/
theorem HasTime.lt_nextStamp {c : Canvas} {templateId : String} (h : c.HasTime templateId)
    {last : UInt64} (hlast : c.lastStamp = some last) (hlt : last.toNat < 2 ^ 64 - 1) :
  last.toNat < (c.nextStamp templateId).toNat
  := by
  obtain ⟨-, hnext, -⟩ := h.finds
  apply Nat.lt_of_lt_of_le (lt_firstStamp hlast hlt) hnext

/-! ### Early stamps -/

/-- No reading of the clock and no stamp that was given out is after the bound. -/
structure IsEarly (c : Canvas) (bound : Nat) : Prop where
  clock : ∀ i, (c.clock.reading i).toNat ≤ bound
  last : ∀ last, c.lastStamp = some last → last.toNat ≤ bound

theorem IsEarly.firstStamp_le {c : Canvas} {bound : Nat} (h : c.IsEarly bound) :
  c.firstStamp.toNat ≤ bound + 1
  := by
  have hnow : c.clock.now.toNat ≤ bound := h.clock c.clock.taken
  rw [firstStamp]
  cases hlast : c.lastStamp with
  | none => apply Nat.le_succ_of_le hnow
  | some last =>
    dsimp only
    split
    · have hle := h.last last hlast
      have hone : (1 : UInt64).toNat = 1 := rfl
      rw [UInt64.toNat_add, hone]
      omega
    · apply Nat.le_succ_of_le hnow

/-- The search for a stamp goes no further than there are blocks. -/
theorem HasTime.nextStamp_le {c : Canvas} {templateId : String} (h : c.HasTime templateId) :
  (c.nextStamp templateId).toNat ≤ c.firstStamp.toNat + Forest.size c.tree
  := by
  obtain ⟨⟨passed, hpassed, heq, -⟩, -⟩ := h.finds
  rw [heq, UInt64.toNat_ofNat']
  apply Nat.le_trans (Nat.mod_le _ _)
  omega

/-- A search has time if there are no more blocks than stamps before the greatest word. -/
theorem IsEarly.hasTime {c : Canvas} {bound : Nat} (h : c.IsEarly bound)
    (hsize : bound + 1 + Forest.size c.tree < 2 ^ 64 - 1) (templateId : String) :
  c.HasTime templateId
  := by
  rintro ⟨-, hused⟩
  have hle := le_size_of_used (by rw [UInt64.size]; omega) hused
  have hfirst := h.firstStamp_le
  omega

end Canvas

end BlockEditor
