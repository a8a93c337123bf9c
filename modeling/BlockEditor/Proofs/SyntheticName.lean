import BlockEditor.Proofs.Digits
import BlockEditor.Proofs.Loop
import BlockEditor.Time.SyntheticName
import Mathlib.Data.Finset.Card
import Mathlib.Data.Finset.Prod
import Mathlib.Data.Nat.Find
import Mathlib.Logic.Function.Iterate

/-!
# Giving out synthetic names

`SyntheticName.HasName` states that some candidate of a search is free.  The search then ends at the
first one that is, and otherwise it would never end.  There is a free one unless many names are taken:
each of the thousand factors leads to different candidates at different attempts, so it meets a taken
name no more often than there are taken names.  Names that are given out one after the other are all
different.
-/

namespace BlockEditor

namespace SyntheticName

/-- The text has the form of a synthetic name, `var` and digits. -/
def isName (s : String) : Bool :=
  match s.toList with
  | 'v' :: 'a' :: 'r' :: digits => !digits.isEmpty && digits.all Scan.isDigit
  | _ => false

theorem isName_make (stamp : UInt64) :
  isName (make stamp) = true
  := by
  have hlist : (make stamp).toList = 'v' :: 'a' :: 'r' :: Nat.toDigits 10 stamp.toNat := by
    rw [make, String.toList_append, ← Nat.toList_repr]
    rfl
  rw [isName, hlist]
  simp only [Bool.and_eq_true, Bool.not_eq_true', List.isEmpty_eq_false_iff, List.all_eq_true]
  use Nat.toDigits_ne_nil
  intro c hc
  apply Scan.isDigit_of_mem_toDigits hc

theorem make_inj {a b : UInt64} (h : make a = make b) :
  a = b
  := by
  apply UInt64.toNat_inj.mp
  apply Nat.repr_injective
  apply (String.append_right_inj "var").mp h

/-- The number of the candidate after `attempts` taken ones, if the search starts with the generator
`e`. -/
def candidate (now : UInt64) (e : Entropy) : (attempts : Nat) → UInt64
  | 0 => now
  | attempts + 1 => retryStamp now (Entropy.next^[attempts + 1] e) (.ofNat (attempts + 1))

/-- Some candidate of the search is free. -/
def HasName (now : UInt64) (e : Entropy) (taken : List String) : Prop :=
  ∃ attempts, make (candidate now e attempts) ∉ taken

/-- What a search carries from one candidate to the next. -/
structure Attempt where
  entropy : Entropy
  /-- The number of candidates that were taken. -/
  attempt : UInt64
  /-- The number of the candidate. -/
  stamp : UInt64

/-- One round of a search: the candidate if it is free, or the next attempt. -/
def round (now : UInt64) (taken : List String) (a : Attempt) : (String × Entropy) ⊕ Attempt :=
  if make a.stamp ∈ taken then
    .inr ⟨a.entropy.next, a.attempt + 1, retryStamp now a.entropy.next (a.attempt + 1)⟩
  else .inl (make a.stamp, a.entropy)

section

variable {now : UInt64} {e : Entropy} {taken : List String}

/-- The search finds the end of the loop if it goes on for long enough. -/
theorem search_of_ends {a : Attempt} {retries : Nat} {found : String × Entropy}
    (h : Loop.Ends (round now taken) a retries found) {fuel : Nat} (hfuel : retries ≤ fuel) :
  search now taken fuel a.entropy a.attempt a.stamp = found
  := by
  induction h generalizing fuel with
  | @stop a _ h =>
    rw [round] at h
    split at h
    · contradiction
    · cases h
      cases fuel with
      | zero => rfl
      | succ fuel =>
        rw [search]
        apply if_neg ‹_›
  | @again a _ _ _ h _ ih =>
    rw [round] at h
    split at h
    · cases h
      obtain ⟨fuel, rfl⟩ := Nat.exists_eq_add_one.mpr (Nat.zero_lt_of_lt hfuel)
      rw [search, if_pos ‹_›]
      apply ih (Nat.le_of_succ_le_succ hfuel)
    · contradiction

/-- The loop passes over the taken candidates and ends at the first free one. -/
theorem ends_of_used {k : Nat} :
  ∀ {a : Nat}, (∀ j < k, make (candidate now e (a + j)) ∈ taken) →
    make (candidate now e (a + k)) ∉ taken →
    Loop.Ends (round now taken) ⟨Entropy.next^[a] e, .ofNat a, candidate now e a⟩ k
      (make (candidate now e (a + k)), Entropy.next^[a + k] e)
  := by
  induction k with
  | zero =>
    intro a _ hfree
    apply Loop.Ends.stop
    rw [round]
    apply if_neg hfree
  | succ k ih =>
    intro a hused hfree
    have hmem : make (candidate now e a) ∈ taken := hused 0 (by omega)
    have hattempt : UInt64.ofNat a + 1 = UInt64.ofNat (a + 1) := by
      rw [UInt64.ofNat_add]
      rfl
    have hstate : (Entropy.next^[a] e).next = Entropy.next^[a + 1] e :=
      (Function.iterate_succ_apply' Entropy.next a e).symm
    have hround : round now taken ⟨Entropy.next^[a] e, .ofNat a, candidate now e a⟩
        = .inr ⟨Entropy.next^[a + 1] e, .ofNat (a + 1), candidate now e (a + 1)⟩ := by
      rw [round, if_pos hmem, hattempt, hstate]
      rfl
    rw [← Nat.add_assoc, Nat.add_right_comm] at hfree ⊢
    apply Loop.Ends.again hround
    apply ih
    · intro j hj
      rw [Nat.add_assoc, Nat.add_comm 1 j]
      apply hused (j + 1) (by omega)
    · apply hfree

/-- From the first candidate, the loop ends at the first one that is free. -/
theorem ends_of_free {k : Nat} (hused : ∀ j < k, make (candidate now e j) ∈ taken)
    (hfree : make (candidate now e k) ∉ taken) :
  Loop.Ends (round now taken) ⟨e, 0, now⟩ k (make (candidate now e k), Entropy.next^[k] e)
  := by
  have hends := ends_of_used (a := 0) (by simpa using hused) (by simpa using hfree)
  simpa [candidate] using hends

/-- Candidates go round once the generator and the number of the attempt have come back to where they
were. -/
theorem candidate_add_eq {i j : Nat}
    (hstate : Entropy.next^[i + 1] e = Entropy.next^[j + 1] e)
    (hattempt : (i + 1) % 2 ^ 64 = (j + 1) % 2 ^ 64) (m : Nat) :
  candidate now e (i + m + 1) = candidate now e (j + m + 1)
  := by
  have hstate' : Entropy.next^[i + m + 1] e = Entropy.next^[j + m + 1] e := by
    rw [Nat.add_right_comm i, Nat.add_right_comm j, Nat.add_comm (i + 1), Nat.add_comm (j + 1),
      Function.iterate_add_apply _ m (i + 1), Function.iterate_add_apply _ m (j + 1), hstate]
  have hattempt' : UInt64.ofNat (i + m + 1) = UInt64.ofNat (j + m + 1) := by
    apply UInt64.toNat_inj.mp
    rw [UInt64.toNat_ofNat', UInt64.toNat_ofNat']
    omega
  rw [candidate, candidate, hstate', hattempt']

/-- Among `2 ^ 128 + 1` attempts, two find the generator and the number of the attempt at the same
values. -/
theorem exists_round (e : Entropy) :
  ∃ i j, i < j ∧ j ≤ 2 ^ 128 ∧ Entropy.next^[i + 1] e = Entropy.next^[j + 1] e
    ∧ (i + 1) % 2 ^ 64 = (j + 1) % 2 ^ 64
  := by
  let f : Nat → Nat × Nat := fun i =>
    ((Entropy.next^[i + 1] e).state.toNat, (i + 1) % 2 ^ 64)
  have hcard : (Finset.range (2 ^ 64) ×ˢ Finset.range (2 ^ 64)).card
      < (Finset.range (2 ^ 128 + 1)).card := by
    simp only [Finset.card_product, Finset.card_range]
    decide
  have hmaps : Set.MapsTo f (Finset.range (2 ^ 128 + 1))
      (Finset.range (2 ^ 64) ×ˢ Finset.range (2 ^ 64) : Finset (Nat × Nat)) := by
    intro i _
    rw [Finset.mem_coe, Finset.mem_product, Finset.mem_range, Finset.mem_range]
    constructor
    · apply UInt64.toNat_lt
    · apply Nat.mod_lt
      decide
  obtain ⟨i, hi, j, hj, hne, hf⟩ := Finset.exists_ne_map_eq_of_card_lt_of_maps_to hcard hmaps
  have hstate : Entropy.next^[i + 1] e = Entropy.next^[j + 1] e := by
    have h := UInt64.toNat_inj.mp (congrArg Prod.fst hf)
    generalize Entropy.next^[i + 1] e = a at h ⊢
    generalize Entropy.next^[j + 1] e = b at h ⊢
    cases a
    cases b
    cases h
    rfl
  have hattempt := congrArg Prod.snd hf
  rw [Finset.mem_range] at hi hj
  rcases Nat.lt_or_gt_of_ne hne with h | h
  · use i, j, h, by omega, hstate, hattempt
  · use j, i, h, by omega, hstate.symm, hattempt.symm

theorem fresh_eq_search (now : UInt64) (e : Entropy) (taken : List String) :
  fresh now e taken = search now taken (2 ^ 128) e 0 now
  := rfl

/-- If a candidate is free, the first free one is found. -/
theorem exists_fresh_eq (h : HasName now e taken) :
  ∃ k, (∀ j < k, make (candidate now e j) ∈ taken) ∧ make (candidate now e k) ∉ taken
    ∧ fresh now e taken = (make (candidate now e k), Entropy.next^[k] e)
  := by
  classical
  have hspec := Nat.find_spec h
  have hused : ∀ j < Nat.find h, make (candidate now e j) ∈ taken := by
    intro j hj
    apply not_not.mp (Nat.find_min h hj)
  have hle : Nat.find h ≤ 2 ^ 128 := by
    by_contra hlt
    obtain ⟨i, j, hij, hj, hstate, hattempt⟩ := exists_round e
    have hround : candidate now e (i + (Nat.find h - j - 1) + 1)
        = candidate now e (j + (Nat.find h - j - 1) + 1) :=
      candidate_add_eq hstate hattempt _
    rw [show j + (Nat.find h - j - 1) + 1 = Nat.find h by omega] at hround
    rw [← hround] at hspec
    apply hspec
    apply hused
    omega
  use Nat.find h, hused, hspec
  rw [fresh_eq_search]
  apply search_of_ends (ends_of_free hused hspec) hle

theorem fresh_notMem (h : HasName now e taken) :
  (fresh now e taken).1 ∉ taken
  := by
  obtain ⟨k, -, hfree, heq⟩ := exists_fresh_eq h
  rw [heq]
  apply hfree

theorem exists_fresh_eq_make (now : UInt64) (e : Entropy) (taken : List String) :
  ∃ stamp, (fresh now e taken).1 = make stamp
  := by
  rw [fresh_eq_search]
  generalize 2 ^ 128 = fuel, (0 : UInt64) = attempt
  have hsearch : ∀ fuel e attempt stamp, ∃ stamp',
      (search now taken fuel e attempt stamp).1 = make stamp' := by
    intro fuel
    induction fuel with
    | zero => exact fun _ _ stamp => ⟨stamp, rfl⟩
    | succ fuel ih =>
      intro e attempt stamp
      rw [search]
      split
      · apply ih
      · exact ⟨stamp, rfl⟩
  apply hsearch

/-! ### Few taken names -/

theorem factor_toNat (e : Entropy) :
  1 ≤ e.factor.toNat ∧ e.factor.toNat ≤ 1000
  := by
  have hone : (1 : UInt64).toNat = 1 := rfl
  have hthousand : (1000 : UInt64).toNat = 1000 := rfl
  rw [Entropy.factor, UInt64.toNat_add, UInt64.toNat_mod, hone, hthousand]
  omega

/-- One factor leads to different candidates at different attempts, as long as these are fewer than
there are words. -/
theorem candidate_inj {i j : Nat} (hi : i < 2 ^ 64) (hj : j < 2 ^ 64)
    (hfactor : (Entropy.next^[i + 1] e).factor = (Entropy.next^[j + 1] e).factor)
    (h : candidate now e (i + 1) = candidate now e (j + 1)) :
  i = j
  := by
  rw [candidate, candidate, retryStamp, retryStamp, hfactor, UInt64.add_right_inj] at h
  have hattempt := congrArg UInt64.toNat h
  rw [UInt64.toNat_ofNat', UInt64.toNat_ofNat'] at hattempt
  omega

/-- A search meets a free candidate within a thousand attempts for each taken name, and one more. -/
theorem exists_candidate_notMem (now : UInt64) (e : Entropy) (names : Finset String)
    (hcard : 1000 * names.card < 2 ^ 64) :
  ∃ attempts ≤ 1000 * names.card + 1, make (candidate now e attempts) ∉ names
  := by
  by_contra hnone
  have hused : ∀ i ≤ 1000 * names.card, make (candidate now e (i + 1)) ∈ names := by
    intro i hi
    by_contra hfree
    apply hnone ⟨i + 1, by omega, hfree⟩
  let f : Nat → Nat × String := fun i =>
    ((Entropy.next^[i + 1] e).factor.toNat - 1, make (candidate now e (i + 1)))
  have hlt : (Finset.range 1000 ×ˢ names).card < (Finset.range (1000 * names.card + 1)).card := by
    rw [Finset.card_product, Finset.card_range, Finset.card_range]
    apply Nat.lt_succ_self
  have hmaps : Set.MapsTo f (Finset.range (1000 * names.card + 1))
      (Finset.range 1000 ×ˢ names : Finset (Nat × String)) := by
    intro i hi
    rw [Finset.mem_coe, Finset.mem_range] at hi
    rw [Finset.mem_coe, Finset.mem_product, Finset.mem_range]
    constructor
    · have hfactor := (factor_toNat (Entropy.next^[i + 1] e))
      dsimp only [f]
      omega
    · apply hused i (by omega)
  obtain ⟨i, hi, j, hj, hne, hf⟩ := Finset.exists_ne_map_eq_of_card_lt_of_maps_to hlt hmaps
  rw [Finset.mem_range] at hi hj
  have hfactor : (Entropy.next^[i + 1] e).factor = (Entropy.next^[j + 1] e).factor := by
    have hfactor := congrArg Prod.fst hf
    have hi' := factor_toNat (Entropy.next^[i + 1] e)
    have hj' := factor_toNat (Entropy.next^[j + 1] e)
    dsimp only [f] at hfactor
    apply UInt64.toNat_inj.mp
    omega
  have hcandidate : candidate now e (i + 1) = candidate now e (j + 1) :=
    make_inj (congrArg Prod.snd hf)
  apply hne
  apply candidate_inj (by omega) (by omega) hfactor hcandidate

theorem hasName_of_length_lt (now : UInt64) (e : Entropy) {taken : List String}
    (h : 1000 * taken.length < 2 ^ 64) :
  HasName now e taken
  := by
  have hcard := taken.toFinset_card_le
  obtain ⟨attempts, -, hfree⟩ :=
    exists_candidate_notMem now e taken.toFinset (by omega)
  use attempts
  rw [List.mem_toFinset] at hfree
  apply hfree

/-- Unless nearly as many names are taken as there are words, the search for a free one ends: at any time,
from any state of the generator, within a thousand retries for each taken name, and one more.  What it
returns is a synthetic name that is not taken. -/
theorem fresh_ends (now : UInt64) (e : Entropy) {taken : List String}
    (h : 1000 * taken.toFinset.card + 1 < 2 ^ 64) :
  (∃ retries ≤ 1000 * taken.toFinset.card + 1,
      Loop.Ends (round now taken) ⟨e, 0, now⟩ retries (fresh now e taken))
    ∧ (∃ stamp : UInt64, (fresh now e taken).1 = "var" ++ toString stamp.toNat)
    ∧ (fresh now e taken).1 ∉ taken
  := by
  obtain ⟨attempts, hle, hnotMem⟩ := exists_candidate_notMem now e taken.toFinset (by omega)
  rw [List.mem_toFinset] at hnotMem
  have hname : HasName now e taken := ⟨attempts, hnotMem⟩
  refine ⟨?_, exists_fresh_eq_make now e taken, fresh_notMem hname⟩
  obtain ⟨k, hused, hfree, heq⟩ := exists_fresh_eq hname
  have hk : k ≤ attempts := by
    by_contra hlt
    apply hnotMem (hused attempts (Nat.lt_of_not_le hlt))
  use k, Nat.le_trans hk hle
  rw [heq]
  apply ends_of_free hused hfree

/-- A generator that always gives the factor one finds the first free number. -/
theorem fresh_ends_zero :
  1000 * ["var5", "var6"].toFinset.card + 1 < 2 ^ 64
    ∧ (∃ retries ≤ 2001, Loop.Ends (round 5 ["var5", "var6"]) ⟨⟨0⟩, 0, 5⟩ retries ("var7", ⟨0⟩))
    ∧ "var7" ∉ ["var5", "var6"]
  := by
  have hcard : ["var5", "var6"].toFinset.card = 2 := by decide
  have hfresh : fresh 5 ⟨0⟩ ["var5", "var6"] = ("var7", ⟨0⟩) := by decide +kernel
  have hlt : 1000 * ["var5", "var6"].toFinset.card + 1 < 2 ^ 64 := by
    rw [hcard]
    decide
  obtain ⟨⟨retries, hle, hends⟩, -, hfree⟩ := fresh_ends 5 ⟨0⟩ hlt
  rw [hfresh] at hends hfree
  rw [hcard] at hle
  exact ⟨hlt, ⟨retries, hle, hends⟩, hfree⟩

/-! ### Several names -/

/-- At each of `count` searches, one after the other, some candidate is free. -/
def HasNames (now : UInt64) : (e : Entropy) → (taken : List String) → (count : Nat) → Prop
  | _, _, 0 => True
  | e, taken, count + 1 =>
    HasName now e taken
      ∧ HasNames now (fresh now e taken).2 ((fresh now e taken).1 :: taken) count

theorem hasNames_of_length_le (now : UInt64) {e : Entropy} {taken : List String} {count : Nat}
    (h : 1000 * (taken.length + count) ≤ 2 ^ 64) :
  HasNames now e taken count
  := by
  induction count generalizing e taken with
  | zero => trivial
  | succ count ih =>
    constructor
    · apply hasName_of_length_lt
      omega
    · apply ih
      rw [List.length_cons]
      omega

theorem several_succ (now : UInt64) (e : Entropy) (taken : List String) (count : Nat) :
  several now e taken (count + 1) = (fresh now e taken).1
    :: several now (fresh now e taken).2 ((fresh now e taken).1 :: taken) count
  := by
  rw [several]

theorem length_several (now : UInt64) (e : Entropy) (taken : List String) (count : Nat) :
  (several now e taken count).length = count
  := by
  induction count generalizing e taken with
  | zero => rfl
  | succ count ih => rw [several_succ, List.length_cons, ih]

theorem isName_of_mem_several {now : UInt64} {e : Entropy} {taken : List String} {count : Nat}
    {name : String} (h : name ∈ several now e taken count) :
  isName name = true
  := by
  induction count generalizing e taken with
  | zero => cases h
  | succ count ih =>
    rw [several_succ] at h
    rcases List.mem_cons.mp h with h | h
    · obtain ⟨stamp, hstamp⟩ := exists_fresh_eq_make now e taken
      rw [h, hstamp]
      apply isName_make
    · apply ih h

/-- Names that are given out one after the other are different from each other and from the taken
ones. -/
theorem nodup_several {now : UInt64} {e : Entropy} {taken : List String} {count : Nat}
    (h : HasNames now e taken count) :
  (several now e taken count).Nodup ∧ ∀ name ∈ several now e taken count, name ∉ taken
  := by
  induction count generalizing e taken with
  | zero => exact ⟨List.nodup_nil, fun _ hname => by cases hname⟩
  | succ count ih =>
    obtain ⟨hname, hnames⟩ := h
    obtain ⟨hnodup, hfree⟩ := ih hnames
    rw [several_succ]
    constructor
    · apply List.nodup_cons.mpr
      exact ⟨fun hmem => hfree _ hmem (List.mem_cons_self ..), hnodup⟩
    · intro name hmem htaken
      rcases List.mem_cons.mp hmem with h | hmem
      · rw [h] at htaken
        apply fresh_notMem hname htaken
      · apply hfree name hmem (List.mem_cons_of_mem _ htaken)

end

end SyntheticName

end BlockEditor
