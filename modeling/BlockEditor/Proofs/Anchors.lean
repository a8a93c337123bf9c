import BlockEditor.Block.Template
import BlockEditor.View.Anchor
import Mathlib.Data.List.Basic

/-!
# The anchor of a drop

The pointer has an offset from the middle of a block, which is negative if the middle is below the
pointer.  `Anchor.Offers` states that drops can anchor at a block and which offset it has, and
`Anchor.IsOptimum` that the offset of a block is the greatest of a list, and that no earlier block of
the list has it too.  The search for an anchor finds the optimum, or there is no block to anchor at;
so blocks that drops cannot anchor at may come and go.
-/

namespace BlockEditor

/-! ### Finite numbers -/

namespace Binary

variable {F : Format}

/-- The value of a finite number in units. -/
def units? : Binary F → Option Int
  | .finite negative units => some (if negative then -units else units)
  | _ => none

/-- Only a finite number has a finite sum with anything. -/
theorem isFinite_of_add {a b : Binary F} {n : Int} (h : (a.add b).units? = some n) :
  a.isFinite = true
  := by
  cases a with
  | nan => cases b <;> contradiction
  | infinite s =>
    cases b with
    | nan => contradiction
    | infinite t =>
      rw [add] at h
      split at h <;> contradiction
    | finite t v => contradiction
  | finite s u => rfl

end Binary

namespace Anchor

/-! ### The first of the nearest candidates -/

section

variable {cs : List (String × Nat)} {c : String × Nat}

theorem nearest?_eq_none_iff :
  nearest? cs = none ↔ cs = []
  := by
  cases cs with
  | nil => simp [nearest?]
  | cons c cs =>
    rw [nearest?]
    cases nearest? cs with
    | none => simp
    | some d =>
      dsimp only
      split <;> simp

/-- What is found is nearer than all candidates before it, and none after it is nearer. -/
theorem exists_of_nearest? (h : nearest? cs = some c) :
  ∃ before after, cs = before ++ c :: after
    ∧ (∀ d ∈ before, c.2 < d.2) ∧ ∀ d ∈ after, c.2 ≤ d.2
  := by
  induction cs generalizing c with
  | nil => contradiction
  | cons first cs ih =>
    rw [nearest?] at h
    cases hrest : nearest? cs with
    | none =>
      rw [hrest] at h
      cases h
      rw [nearest?_eq_none_iff.mp hrest]
      exact ⟨[], [], rfl, by simp, by simp⟩
    | some d =>
      rw [hrest] at h
      obtain ⟨before, after, rfl, hbefore, hafter⟩ := ih hrest
      dsimp only at h
      split at h
      · rename_i hlt
        cases h
        use first :: before, after, rfl
        constructor
        · rintro d (_ | ⟨_, hd⟩)
          · apply hlt
          · apply hbefore d hd
        · apply hafter
      · rename_i hnot
        cases h
        use [], before ++ d :: after, rfl, by simp
        -- All candidates of the rest are as far away as the nearest of them.
        have hle : first.2 ≤ d.2 := Nat.not_lt.mp hnot
        intro x hx
        rcases List.mem_append.mp hx with hx | hx
        · apply Nat.le_trans hle (Nat.le_of_lt (hbefore x hx))
        · rcases List.mem_cons.mp hx with rfl | hx
          · apply hle
          · apply Nat.le_trans hle (hafter x hx)

/-- The nearest is one of the candidates. -/
theorem mem_of_nearest? (h : nearest? cs = some c) :
  c ∈ cs
  := by
  obtain ⟨before, after, rfl, -⟩ := exists_of_nearest? h
  apply List.mem_append_right _ (List.mem_cons_self ..)

/-- Nothing is nearer than the nearest. -/
theorem le_of_nearest? (h : nearest? cs = some c) {d : String × Nat} (hd : d ∈ cs) :
  c.2 ≤ d.2
  := by
  obtain ⟨before, after, rfl, hbefore, hafter⟩ := exists_of_nearest? h
  rcases List.mem_append.mp hd with hd | hd
  · apply Nat.le_of_lt (hbefore d hd)
  · rcases List.mem_cons.mp hd with rfl | hd
    · apply Nat.le_refl
    · apply hafter d hd

/-- Among equals the first one is the nearest. -/
theorem nearest?_append_cons {before after : List (String × Nat)}
    (hbefore : ∀ d ∈ before, c.2 < d.2) (hafter : ∀ d ∈ after, c.2 ≤ d.2) :
  nearest? (before ++ c :: after) = some c
  := by
  induction before with
  | nil =>
    rw [List.nil_append, nearest?]
    cases hrest : nearest? after with
    | none => rfl
    | some d => apply if_neg (Nat.not_lt.mpr (hafter d (mem_of_nearest? hrest)))
  | cons first before ih =>
    obtain ⟨hlt, hbefore⟩ := List.forall_mem_cons.mp hbefore
    rw [List.cons_append, nearest?, ih hbefore]
    apply if_pos hlt

/-- A candidate is the nearest one if all others are further away. -/
theorem nearest?_eq_some (hmem : c ∈ cs) (hfurther : ∀ d ∈ cs, d = c ∨ c.2 < d.2) :
  nearest? cs = some c
  := by
  cases hnearest : nearest? cs with
  | none =>
    rw [nearest?_eq_none_iff.mp hnearest] at hmem
    contradiction
  | some d =>
    rcases hfurther d (mem_of_nearest? hnearest) with rfl | hlt
    · rfl
    · apply absurd (le_of_nearest? hnearest hmem) (Nat.not_le.mpr hlt)

end

/-! ### Candidates -/

/-- Drops can anchor at the block as far as it, the skipped id and the layout tell: it is no entry of
the palette, it is not skipped, and it is shown. -/
def mayAnchor (layout : Layout) (skip : Option String) (b : Block) : Bool :=
  !b.palette && skip != some b.id && (layout b.id).isSome

/-- A drop at the height of the pointer can anchor at the block: it is no entry of the palette, it is
not skipped, it is shown, and the pointer is at the negative offset from its middle. -/
structure Offers (layout : Layout) (pointer : Single) (skip : Option String) (b : Block)
    (offset : Int) : Prop where
  placed : b.palette = false
  kept : skip ≠ some b.id
  shown : ∃ extent, layout b.id = some extent ∧ (pointer.sub extent.middle).units? = some offset
  below : offset < 0

/-- The block offers the greatest offset of the list, and no block before it offers the same. -/
def IsOptimum (layout : Layout) (pointer : Single) (skip : Option String) (siblings : List Block)
    (b : Block) : Prop :=
  ∃ before after offset, siblings = before ++ b :: after ∧ Offers layout pointer skip b offset
    ∧ (∀ c ∈ before, ∀ other, Offers layout pointer skip c other → other < offset)
    ∧ ∀ c ∈ after, ∀ other, Offers layout pointer skip c other → other ≤ offset

/-- A distance is the whole number of units by which the pointer is above the middle. -/
theorem distanceBelow?_eq_some_iff {pointer : Single} {extent : Extent} {distance : Nat} :
  distanceBelow? pointer extent = some distance
    ↔ (pointer.sub extent.middle).units? = some (-(distance : Int)) ∧ -(distance : Int) < 0
  := by
  rw [distanceBelow?]
  cases pointer.sub extent.middle with
  | nan => simp [Binary.units?]
  | infinite s => simp [Binary.units?]
  | finite negative units =>
    cases negative with
    | false =>
      simp only [Binary.units?, Bool.false_eq_true, if_false, Option.some.injEq]
      constructor
      · intro h
        contradiction
      · omega
    | true =>
      simp only [Binary.units?, if_true, Option.some.injEq]
      split
      · simp only [reduceCtorEq, false_iff]
        omega
      · rw [Option.some.injEq]
        omega

section

variable {layout : Layout} {pointer : Single} {skip : Option String}

/-- A placed block with an extent may be an anchor, unless it is the one to skip. -/
theorem mayAnchor_iff {b : Block} :
  mayAnchor layout skip b = true
    ↔ b.palette = false ∧ skip ≠ some b.id ∧ ∃ extent, layout b.id = some extent
  := by
  simp [mayAnchor, Option.isSome_iff_exists, and_assoc]

theorem mayAnchor_of_candidate? {b : Block} {c : String × Nat}
    (h : candidate? layout pointer skip b = some c) :
  mayAnchor layout skip b = true
  := by
  rw [candidate?] at h
  split at h
  · contradiction
  · rename_i hskip
    split at h
    · rename_i extent hlayout
      simpa [mayAnchor, hlayout] using hskip
    · contradiction

/-- The candidates are the blocks that drops can anchor at, at their distances. -/
theorem candidate?_eq_some_iff {b : Block} {c : String × Nat} :
  candidate? layout pointer skip b = some c
    ↔ b.id = c.1 ∧ Offers layout pointer skip b (-(c.2 : Int))
  := by
  constructor
  · intro h
    obtain ⟨hpalette, hskip, extent, hlayout⟩ := mayAnchor_iff.mp (mayAnchor_of_candidate? h)
    rw [candidate?, if_neg (by simp [hpalette, hskip]), hlayout] at h
    obtain ⟨distance, hdistance, rfl⟩ := Option.map_eq_some_iff.mp h
    obtain ⟨hunits, hlt⟩ := distanceBelow?_eq_some_iff.mp hdistance
    exact ⟨rfl, hpalette, hskip, ⟨extent, hlayout, hunits⟩, hlt⟩
  · rintro ⟨hid, hpalette, hskip, ⟨extent, hlayout, hunits⟩, hlt⟩
    have hdistance := distanceBelow?_eq_some_iff.mpr ⟨hunits, hlt⟩
    rw [candidate?, if_neg (by simp [hpalette, hskip]), hlayout]
    dsimp only
    rw [hdistance, Option.map_some, hid]

/-- A block that offers an offset is a candidate at that distance. -/
theorem Offers.exists_candidate? {b : Block} {offset : Int}
    (h : Offers layout pointer skip b offset) :
  ∃ distance : Nat, offset = -distance ∧ candidate? layout pointer skip b = some (b.id, distance)
  := by
  have hlt := h.below
  obtain ⟨distance, rfl⟩ : ∃ distance : Nat, offset = -distance := ⟨offset.natAbs, by omega⟩
  use distance, rfl
  apply candidate?_eq_some_iff.mpr ⟨rfl, h⟩

theorem Offers.isFinite {b : Block} {offset : Int} (h : Offers layout pointer skip b offset) :
  pointer.isFinite = true
  := by
  obtain ⟨extent, -, hunits⟩ := h.shown
  apply Binary.isFinite_of_add hunits

/-- Blocks that are no candidates do not change which is the nearest. -/
theorem filterMap_candidate?_filter (siblings : List Block) :
  (siblings.filter (mayAnchor layout skip)).filterMap (candidate? layout pointer skip)
    = siblings.filterMap (candidate? layout pointer skip)
  := by
  rw [List.filterMap_filter]
  congr 1
  funext b
  split
  · rfl
  · rename_i hnot
    symm
    rw [Option.eq_none_iff_forall_ne_some]
    intro c hc
    apply hnot (mayAnchor_of_candidate? hc)

/-- The nearest candidate of a list is its optimum. -/
theorem exists_nearest?_iff {siblings : List Block} {id : String} :
  (∃ distance, nearest? (siblings.filterMap (candidate? layout pointer skip)) = some (id, distance))
    ↔ ∃ b, b.id = id ∧ IsOptimum layout pointer skip siblings b
  := by
  constructor
  · rintro ⟨distance, h⟩
    obtain ⟨nearer, further, hsplit, hnearer, hfurther⟩ := exists_of_nearest? h
    obtain ⟨before, rest, rfl, rfl, hrest⟩ := List.filterMap_eq_append_iff.mp hsplit
    obtain ⟨passed, b, after, rfl, hpassed, hb, rfl⟩ := List.filterMap_eq_cons_iff.mp hrest
    obtain ⟨hid, hoffers⟩ := candidate?_eq_some_iff.mp hb
    refine ⟨b, hid, before ++ passed, after, _, (List.append_assoc ..).symm, hoffers, ?_, ?_⟩
    · intro x hx other hother
      obtain ⟨d, rfl, hd⟩ := hother.exists_candidate?
      rcases List.mem_append.mp hx with hx | hx
      · have hlt := hnearer _ (List.mem_filterMap.mpr ⟨x, hx, hd⟩)
        dsimp only at hlt ⊢
        omega
      · rw [hpassed x hx] at hd
        contradiction
    · intro x hx other hother
      obtain ⟨d, rfl, hd⟩ := hother.exists_candidate?
      have hle := hfurther _ (List.mem_filterMap.mpr ⟨x, hx, hd⟩)
      dsimp only at hle ⊢
      omega
  · rintro ⟨b, rfl, before, after, offset, rfl, hoffers, hbefore, hafter⟩
    obtain ⟨distance, rfl, hb⟩ := hoffers.exists_candidate?
    use distance
    rw [List.filterMap_append, List.filterMap_cons_some hb]
    apply nearest?_append_cons
    · intro d hd
      obtain ⟨x, hx, hcandidate⟩ := List.mem_filterMap.mp hd
      have hlt := hbefore x hx _ (candidate?_eq_some_iff.mp hcandidate).2
      dsimp only
      omega
    · intro d hd
      obtain ⟨x, hx, hcandidate⟩ := List.mem_filterMap.mp hd
      have hle := hafter x hx _ (candidate?_eq_some_iff.mp hcandidate).2
      dsimp only
      omega

end

/-! ### The anchor -/

section

variable {siblings : List Block} {pointer : Single} {layout : Layout} {skip : Option String}

/-- An insertion goes in front of a block exactly if the pointer is finite and the block is the optimum.
-/
theorem ofPointer_eq_before_iff {id : String} :
  ofPointer siblings pointer layout skip = .before id
    ↔ pointer.isFinite = true ∧ ∃ b, b.id = id ∧ IsOptimum layout pointer skip siblings b
  := by
  rw [ofPointer, ← exists_nearest?_iff]
  cases pointer.isFinite with
  | false => simp
  | true =>
    rw [if_pos rfl]
    cases nearest? (siblings.filterMap (candidate? layout pointer skip)) with
    | none => simp
    | some c => simp [Prod.ext_iff]

/-- An insertion goes to the end exactly if no sibling offers a place. -/
theorem ofPointer_eq_last_iff :
  ofPointer siblings pointer layout skip = .last
    ↔ ∀ b ∈ siblings, ∀ offset, ¬ Offers layout pointer skip b offset
  := by
  rw [ofPointer]
  constructor
  · intro h b hb offset hoffers
    obtain ⟨distance, -, hcandidate⟩ := hoffers.exists_candidate?
    rw [if_pos hoffers.isFinite] at h
    cases hnearest : nearest? (siblings.filterMap (candidate? layout pointer skip)) with
    | none =>
      have hmem := List.mem_filterMap.mpr ⟨b, hb, hcandidate⟩
      rw [nearest?_eq_none_iff.mp hnearest] at hmem
      contradiction
    | some c =>
      rw [hnearest] at h
      contradiction
  · intro h
    have hnone : siblings.filterMap (candidate? layout pointer skip) = [] := by
      apply List.filterMap_eq_nil_iff.mpr
      intro b hb
      rw [Option.eq_none_iff_forall_ne_some]
      intro c hc
      apply h b hb _ (candidate?_eq_some_iff.mp hc).2
    rw [hnone]
    apply ite_self

/-- Lists with the same candidates have the same anchor. -/
theorem ofPointer_congr {others : List Block}
    (h : others.filterMap (candidate? layout pointer skip)
      = siblings.filterMap (candidate? layout pointer skip)) :
  ofPointer others pointer layout skip = ofPointer siblings pointer layout skip
  := by
  rw [ofPointer, ofPointer, h]

/-- An anchor is one of the siblings, and not the skipped one. -/
theorem mem_of_ofPointer {id : String}
    (h : ofPointer siblings pointer layout skip = .before id) :
  id ∈ siblings.map Block.id ∧ skip ≠ some id
  := by
  obtain ⟨-, b, rfl, before, after, offset, rfl, hoffers, -⟩ := ofPointer_eq_before_iff.mp h
  constructor
  · apply List.mem_map_of_mem
    apply List.mem_append_right _ (List.mem_cons_self ..)
  · apply hoffers.kept

end

/-- The anchor is the first block with the greatest offset of those that drops can anchor at, the end
of the list if there is none, and the other blocks of the list do not count. -/
theorem ofPointer_optimum (siblings : List Block) (pointer : Single) (layout : Layout)
    (skip : Option String) :
  (∀ id, ofPointer siblings pointer layout skip = .before id
      ↔ pointer.isFinite = true ∧ ∃ b, b.id = id ∧ IsOptimum layout pointer skip siblings b)
    ∧ (ofPointer siblings pointer layout skip = .last
      ↔ ∀ b ∈ siblings, ∀ offset, ¬ Offers layout pointer skip b offset)
    ∧ ∀ others : List Block,
      others.filter (mayAnchor layout skip) = siblings.filter (mayAnchor layout skip) →
      ofPointer others pointer layout skip = ofPointer siblings pointer layout skip
  := by
  refine ⟨fun id => ofPointer_eq_before_iff, ofPointer_eq_last_iff, ?_⟩
  intro others hothers
  apply ofPointer_congr
  rw [← filterMap_candidate?_filter others, hothers, filterMap_candidate?_filter]

/-- Of two blocks whose middles are equally far below the pointer the first is the anchor, also beside an
entry of the palette and a skipped block whose middles are nearer. -/
theorem ofPointer_optimum_tie :
  let reset : Template := ⟨"block-reset", "reset position", .plain .move [], some 0⟩
  let layout := Layout.ofList [("block-reset", ⟨.ofNat 10, .ofNat 20⟩),
    ("carried", ⟨.ofNat 10, .ofNat 20⟩), ("a", ⟨.ofNat 30, .ofNat 20⟩), ("b", ⟨.ofNat 20, .ofNat 40⟩)]
  let both := [reset.instantiate "a", reset.instantiate "b"]
  let row := [reset.paletteBlock, reset.instantiate "a", reset.instantiate "carried",
    reset.instantiate "b"]
  row.filter (mayAnchor layout (some "carried")) = both.filter (mayAnchor layout (some "carried"))
    ∧ (∃ b, b.id = "a" ∧ IsOptimum layout (.ofNat 10) (some "carried") both b)
    ∧ ofPointer row (.ofNat 10) layout (some "carried") = .before "a"
  := by
  intro reset layout both row
  have hrow : row.filter (mayAnchor layout (some "carried"))
      = both.filter (mayAnchor layout (some "carried")) := rfl
  have hfirst : ofPointer both (.ofNat 10) layout (some "carried") = .before "a" := by
    decide +kernel
  obtain ⟨hbefore, -, hsame⟩ := ofPointer_optimum both (.ofNat 10) layout (some "carried")
  exact ⟨hrow, ((hbefore "a").mp hfirst).2, (hsame row hrow).trans hfirst⟩

end Anchor

end BlockEditor
