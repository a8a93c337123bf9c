import BlockEditor.Palette.Stock
import BlockEditor.Proofs.Binding
import BlockEditor.Proofs.Recovery

/-!
# Complete programs of the stock palette

A block is complete if all its slots are filled and an operator is selected where its kind has
operators; a block that prints may leave slots empty.  With the stock palette, the check of the program
finds nothing exactly if all placed blocks are complete.

The templates of that palette ask in three ways.  Most of them ask for a value in each of their slots.
The one that moves to a position asks for a position, whose variables it repeats.  A position asks for a
value for each axis, and has a variable without a value for an axis that is not given.
-/

namespace BlockEditor

/-- The slots of the block are filled, unless it prints, and an operator is selected if there are
operators. -/
structure Block.IsComplete (b : Block) : Prop where
  slots : b.templateId ≠ "block-print" → ∀ content ∈ b.slots, content ≠ .empty
  operator : b.kind.operators ≠ [] → b.operator ≠ none

/-- All placed blocks are complete. -/
def Forest.IsComplete (t : Forest) : Prop :=
  ∀ b ∈ Forest.walk t, b.IsComplete

/-! ### What templates ask for -/

/-- The kind of positions, with a slot for each axis. -/
def Kind.position : Kind :=
  .plain .pos [.namedValue "X", .namedValue "Y", .namedValue "Z"]

namespace Template

/-- The slots are for variables, and there is one variable for each, unless the block prints. -/
structure AsksValues (t : Template) : Prop where
  category : t.kind.category ≠ .pos
  slots : ∀ s ∈ t.kind.slots, s.accepts = [.var]
  arity : t.expectedVars.map UInt64.toNat = some t.kind.slots.length ∧ t.id ≠ "block-print"
    ∨ t.expectedVars = none ∧ (t.id = "block-print" ∨ t.kind.slots = [])

/-- There is one slot, for a position, with a variable for each axis. -/
structure AsksPosition (t : Template) : Prop where
  category : t.kind.category ≠ .pos
  slots : t.kind.slots = [.position]
  operators : t.kind.operators = []
  arity : t.expectedVars.map UInt64.toNat = some 3
  id_ne : t.id ≠ "block-print"

/-- The template is the one of a position. -/
structure IsPosition (t : Template) : Prop where
  kind : t.kind = .position
  arity : t.expectedVars.map UInt64.toNat = some 3
  id_ne : t.id ≠ "block-print"

end Template

theorem Catalog.stock_cases {t : Template} (h : t ∈ Catalog.stock.templates) :
  t.AsksValues ∨ t.AsksPosition
  := by
  have hstock : ∀ t ∈ Catalog.stockTemplates,
      (t.kind.category ≠ .pos ∧ (∀ s ∈ t.kind.slots, s.accepts = [.var])
        ∧ (t.expectedVars.map UInt64.toNat = some t.kind.slots.length ∧ t.id ≠ "block-print"
          ∨ t.expectedVars = none ∧ (t.id = "block-print" ∨ t.kind.slots = [])))
      ∨ t.kind.category ≠ .pos ∧ t.kind.slots = [.position] ∧ t.kind.operators = []
        ∧ t.expectedVars.map UInt64.toNat = some 3 ∧ t.id ≠ "block-print" := by
    decide
  rcases hstock t h with ⟨hcategory, hslots, harity⟩ | ⟨hcategory, hslots, hoperators, harity, hid⟩
  · exact Or.inl ⟨hcategory, hslots, harity⟩
  · exact Or.inr ⟨hcategory, hslots, hoperators, harity, hid⟩

/-- The templates of the stock palette. -/
theorem Palette.stock_cases {r : Registry} {id : String} {t : Template}
    (h : Palette.both .stock r id = some t) :
  t.AsksValues ∨ t.AsksPosition ∨ t.IsPosition
  := by
  have hid := Palette.id_of_both h
  rw [Palette.both] at h
  split at h
  · rename_i found hfound
    cases h
    apply (Catalog.stock_cases (List.mem_of_find?_eq_some hfound)).imp_right Or.inl
  · rename_i hnone
    have hprint : t.id ≠ "block-print" := by
      intro heq
      rw [← hid, heq] at hnone
      contradiction
    obtain ⟨entry, -, rfl⟩ := Option.map_eq_some_iff.mp h
    rw [Registry.Entry.template] at hprint ⊢
    cases hkind : entry.kind with
    | var =>
      apply Or.inl
      constructor
      · intro hpos
        contradiction
      · intro s hs
        cases hs
      · exact Or.inr ⟨rfl, Or.inr rfl⟩
    | position =>
      rw [hkind] at hprint
      exact Or.inr (Or.inr ⟨rfl, rfl, hprint⟩)

/-- No operator of the stock palette is the empty text. -/
theorem Palette.ne_empty_of_mem_operators {r : Registry} {id : String} {t : Template}
    (h : Palette.both .stock r id = some t) :
  ∀ operator ∈ t.kind.operators, operator ≠ ""
  := by
  rw [Palette.both] at h
  split at h
  · rename_i found hfound
    cases h
    have hstock : ∀ t ∈ Catalog.stockTemplates, ∀ operator ∈ t.kind.operators, operator ≠ "" := by
      decide
    apply hstock t (List.mem_of_find?_eq_some hfound)
  · obtain ⟨entry, -, rfl⟩ := Option.map_eq_some_iff.mp h
    rw [Registry.Entry.template]
    cases entry.kind <;> simp [Kind.plain]

theorem Catalog.stock_hasNoVariables :
  Catalog.stock.HasNoVariables
  := by
  have hstock : ∀ t ∈ Catalog.stockTemplates, t.kind.category ≠ .var := by decide
  apply hstock

/-! ### Operators -/

/-- The text that the executor reads is the label alone exactly if no operator is selected. -/
theorem Face.wireText_eq_label_iff {f : Face} (h : f.operator ≠ some "") :
  f.wireText = f.label ↔ f.operator = none
  := by
  rw [Face.wireText, Face.textWith]
  cases hoperator : f.operator with
  | none => simp
  | some operator =>
    have hne : operator.isEmpty = false := by
      rw [Bool.eq_false_iff, Ne, String.isEmpty_iff]
      rintro rfl
      apply h hoperator
    dsimp only
    rw [hne]
    simp only [Bool.false_eq_true, if_false, reduceCtorEq, iff_false]
    intro htext
    have hlength := congrArg String.length htext
    rw [String.length_append, String.length_append] at hlength
    have hblank : (" " : String).length = 1 := rfl
    omega

/-! ### Variables of a block on its own -/

namespace Outline

section

variable {r : Registry}

/-- With entries for all variables in slots, only an empty slot adds nothing. -/
theorem isSome_slotPart?_iff {content : Content Block}
    (h : ∀ c, content = .block c → c.category = .var
      ∧ ∃ entry, r.lookup? c.label = some entry) :
  (slotPart? r content).isSome ↔ content ≠ .empty
  := by
  cases content with
  | empty => simp [slotPart?]
  | literal value => simp [slotPart?]
  | block c =>
    obtain ⟨hvar, entry, hentry⟩ := h c rfl
    simp [slotPart?, bound?, hvar, hentry]

/-- An axis is not given exactly if its slot is empty. -/
theorem axisPart_eq_blank_none_iff {content : Content Block}
    (h : ∀ c, content = .block c → c.category = .var
      ∧ ∃ entry, r.lookup? c.label = some entry) :
  axisPart r (some content) = .blank none ↔ content = .empty
  := by
  cases content with
  | empty => simp [axisPart, slotPart?]
  | literal value => simp [axisPart, slotPart?]
  | block c =>
    obtain ⟨hvar, entry, hentry⟩ := h c rfl
    simp [axisPart, slotPart?, bound?, hvar, hentry]

theorem blank_none_notMem_filterMap (cs : Slots) :
  .blank none ∉ cs.filterMap (slotPart? r)
  := by
  intro h
  obtain ⟨content, -, hpart⟩ := List.mem_filterMap.mp h
  cases content with
  | empty => cases hpart
  | literal value => cases hpart
  | block c =>
    rw [slotPart?, bound?] at hpart
    split at hpart
    · obtain ⟨entry, -, hentry⟩ := Option.map_eq_some_iff.mp hpart
      contradiction
    · contradiction

/-- The variable for an axis that is not given. -/
theorem Part.exists_mem_write (name : Nat → String) (next : Nat) {ps : List Part}
    (h : .blank none ∈ ps) :
  ∃ k, next ≤ k ∧ k < next + Part.blanks ps
    ∧ ⟨name k, name k, Category.var.wireName, none⟩ ∈ Part.write name next ps
  := by
  induction ps generalizing next with
  | nil => cases h
  | cons p ps ih =>
    rcases List.mem_cons.mp h with hp | hps
    · subst hp
      refine ⟨next, Nat.le_refl _, ?_, List.mem_cons_self ..⟩
      rw [Part.blanks]
      omega
    · cases p with
      | bound id text value =>
        obtain ⟨k, hlo, hhi, hmem⟩ := ih next hps
        exact ⟨k, hlo, hhi, List.mem_cons_of_mem _ hmem⟩
      | blank value =>
        obtain ⟨k, hlo, hhi, hmem⟩ := ih (next + 1) hps
        refine ⟨k, by omega, ?_, List.mem_cons_of_mem _ hmem⟩
        rw [Part.blanks]
        omega

end

end Outline

/-- What is used of a placed block: it fits its kind, and variables in its slots have entries. -/
structure Block.IsBound (r : Registry) (b : Block) : Prop where
  fits : b.FitsKind
  entry : ∀ c, .block c ∈ b.slots → c.category = .var → ∃ entry, r.lookup? c.label = some entry

section

variable {r : Registry} {name : Nat → String} {bound : Nat} {n : Node} {b : Block}

theorem Block.FitsKind.exists_spec (h : b.FitsKind) {content : Content Block}
    (hcontent : content ∈ b.slots) :
  ∃ s ∈ b.kind.slots, s.Admits content
  := (exists_of_forall₂ h.slots).2 content hcontent

/-- In slots for variables there are variables with entries only. -/
theorem Block.IsBound.of_accepts (h : b.IsBound r) (hslots : ∀ s ∈ b.kind.slots, s.accepts = [.var])
    {content : Content Block} (hcontent : content ∈ b.slots) :
  ∀ c, content = .block c → c.category = .var ∧ ∃ entry, r.lookup? c.label = some entry
  := by
  rintro c rfl
  obtain ⟨s, hs, hadmits⟩ := h.fits.exists_spec hcontent
  rw [SlotSpec.Admits, hslots s hs, List.mem_singleton] at hadmits
  exact ⟨hadmits, h.entry c hcontent hadmits⟩

theorem Block.IsBound.shownOccupants_eq_nil (h : b.IsBound r)
    (hslots : ∀ s ∈ b.kind.slots, s.accepts = [.var]) :
  b.shownOccupants = []
  := by
  apply List.eq_nil_iff_forall_not_mem.mpr
  intro c hc
  obtain ⟨hslot, hcategory⟩ := Block.mem_slots_of_mem_shownOccupants hc
  apply hcategory (h.of_accepts hslots hslot c rfl).1

/-- A block with slots for variables lends nothing to its node: the variables are its own. -/
theorem Node.WrittenFor.vars_eq (h : n.WrittenFor r name bound b) (hshown : b.shownOccupants = []) :
  ∃ next, next + (b.unnamed r).length ≤ bound
    ∧ n.vars = Outline.Part.write name next (Outline.ownParts r b.face b.slots)
  := by
  obtain ⟨next, nested, held, hfit, rfl, -, hheld⟩ := h.spec
  rw [hshown] at hheld
  cases hheld
  use next, hfit
  apply List.append_nil

theorem Node.WrittenFor.id_eq (h : n.WrittenFor r name bound b) :
  n.id = b.id ∧ n.type = b.category.wireName ∧ n.text = b.wireText
  := by
  obtain ⟨next, nested, held, -, rfl, -, -⟩ := h.spec
  exact ⟨rfl, rfl, rfl⟩

/-- A variable of a block on its own lacks a value only where an axis is not given. -/
theorem Node.Lacks.blank_mem {v : Variable} (h : n.Lacks r v) {next : Nat}
    (hvars : n.vars = Outline.Part.write name next (Outline.ownParts r b.face b.slots)) :
  .blank none ∈ Outline.ownParts r b.face b.slots
  := by
  have hmem := h.mem
  rw [hvars] at hmem
  obtain ⟨part, hpart, hwritten⟩ := (exists_of_forall₂ (Outline.Part.forall₂_write next _)).2 v hmem
  cases part with
  | bound id text value =>
    obtain ⟨c, -, -, -, -, hvalue⟩ := Outline.of_bound_mem_ownParts hpart
    have htext : v.text = text := congrArg Variable.text hwritten
    rw [← htext, h.free] at hvalue
    contradiction
  | blank value =>
    have hvalue : v.value = value := congrArg Variable.value hwritten
    rw [← h.value, hvalue]
    apply hpart

/-! ### Templates that ask for values -/

theorem Block.isComplete_iff :
  b.IsComplete ↔ (b.templateId ≠ "block-print" → ∀ content ∈ b.slots, content ≠ .empty)
    ∧ (b.kind.operators ≠ [] → b.operator ≠ none)
  := ⟨fun h => ⟨h.slots, h.operator⟩, fun h => ⟨h.1, h.2⟩⟩

variable {t : Template}

/-- The text of a node is more than the label exactly if an operator is selected. -/
theorem Block.IsCopy.wireText_ne_label_iff (hcopy : b.IsCopy t) (hfits : b.FitsKind)
    (hoperators : ∀ operator ∈ t.kind.operators, operator ≠ "") :
  (t.kind.operators ≠ [] → b.wireText ≠ t.label)
    ↔ (b.kind.operators ≠ [] → b.operator ≠ none)
  := by
  obtain ⟨-, -, hkind, hlabel⟩ := hcopy.spec
  rw [← hkind, ← hlabel]
  apply imp_congr_right
  intro _
  apply not_congr
  apply Face.wireText_eq_label_iff
  intro hempty
  rw [← hkind] at hoperators
  apply hoperators "" (hfits.operator "" hempty) rfl

theorem Block.ownParts_of_ne_pos (h : b.category ≠ .pos) :
  Outline.ownParts r b.face b.slots = b.slots.filterMap (Outline.slotPart? r)
  := if_neg h

/-- A block has a variable for each of its slots exactly if none of them is empty. -/
theorem Block.IsBound.length_ownParts_iff (h : b.IsBound r) (hcategory : b.category ≠ .pos)
    (hslots : ∀ s ∈ b.kind.slots, s.accepts = [.var]) :
  (Outline.ownParts r b.face b.slots).length = b.kind.slots.length
    ↔ ∀ content ∈ b.slots, content ≠ .empty
  := by
  rw [Block.ownParts_of_ne_pos hcategory, h.fits.slots.length_eq, List.filterMap_length_eq_length]
  apply forall₂_congr
  intro content hcontent
  apply Outline.isSome_slotPart?_iff (h.of_accepts hslots hcontent)

theorem Block.IsCopy.category_ne_pos (hcopy : b.IsCopy t) (ht : t.kind.category ≠ .pos) :
  b.category ≠ .pos
  := by
  obtain ⟨-, -, hkind, -⟩ := hcopy.spec
  rw [Block.category, ← Block.kind, hkind]
  apply ht

/-- The variables of a block that asks for values are those of its slots. -/
theorem Node.WrittenFor.vars_values (h : n.WrittenFor r name bound b) (hbound : b.IsBound r)
    (hcopy : b.IsCopy t) (ht : t.AsksValues) :
  ∃ next, n.vars = Outline.Part.write name next (Outline.ownParts r b.face b.slots)
    ∧ ((Outline.ownParts r b.face b.slots).length = t.kind.slots.length
      ↔ ∀ content ∈ b.slots, content ≠ .empty)
  := by
  obtain ⟨-, -, hkind, -⟩ := hcopy.spec
  have hslots : ∀ s ∈ b.kind.slots, s.accepts = [.var] := by
    rw [hkind]
    apply ht.slots
  obtain ⟨next, -, hvars⟩ := h.vars_eq (hbound.shownOccupants_eq_nil hslots)
  use next, hvars
  rw [← hkind]
  apply hbound.length_ownParts_iff (hcopy.category_ne_pos ht.category) hslots

/-- The number of variables is the one that the executor expects exactly if no slot is empty, or the
block prints. -/
theorem Node.WrittenFor.arity_iff (h : n.WrittenFor r name bound b) (hbound : b.IsBound r)
    (hcopy : b.IsCopy t) (ht : t.AsksValues) :
  (∀ expected, t.expectedVars = some expected → n.vars.length = expected.toNat)
    ↔ (b.templateId ≠ "block-print" → ∀ content ∈ b.slots, content ≠ .empty)
  := by
  obtain ⟨-, htemplate, hkind, -⟩ := hcopy.spec
  obtain ⟨next, hvars, hlength⟩ := h.vars_values hbound hcopy ht
  rw [htemplate, ← hlength, hvars, Outline.Part.length_write]
  rcases ht.arity with ⟨hexpected, hid⟩ | ⟨hexpected, hfree⟩
  · obtain ⟨expected, hsome, hslots⟩ := Option.map_eq_some_iff.mp hexpected
    simp [hsome, hid, hslots]
  · rw [hexpected, hlength]
    simp only [reduceCtorEq, false_implies, implies_true, true_iff]
    intro hid content hcontent
    rw [hbound.fits.slots_eq_nil (hkind ▸ hfree.resolve_left hid)] at hcontent
    cases hcontent

theorem Node.WrittenFor.values_iff (h : n.WrittenFor r name bound b) (hbound : b.IsBound r)
    (hcopy : b.IsCopy t) (hoperators : ∀ operator ∈ t.kind.operators, operator ≠ "")
    (ht : t.AsksValues) :
  (n.Meets t ∧ ∀ v, ¬ n.Lacks r v) ↔ b.IsComplete
  := by
  obtain ⟨-, -, htext⟩ := h.id_eq
  have hlacks : ∀ v, ¬ n.Lacks r v := by
    intro v hv
    obtain ⟨next, hvars, -⟩ := h.vars_values hbound hcopy ht
    have hblank := hv.blank_mem hvars
    rw [Block.ownParts_of_ne_pos (hcopy.category_ne_pos ht.category)] at hblank
    apply Outline.blank_none_notMem_filterMap b.slots hblank
  have hposition : t.kind.slots.any SlotSpec.isPosition = false := by
    apply List.any_eq_false.mpr
    intro s hs
    simp [SlotSpec.isPosition, ht.slots s hs]
  rw [Block.isComplete_iff, ← h.arity_iff hbound hcopy ht,
    ← hcopy.wireText_ne_label_iff hbound.fits hoperators, ← htext]
  constructor
  · rintro ⟨hmeets, -⟩
    exact ⟨hmeets.arity, hmeets.operator⟩
  · rintro ⟨harity, hoperator⟩
    refine ⟨⟨harity, hoperator, ?_⟩, hlacks⟩
    intro h
    rw [hposition] at h
    contradiction

/-! ### Positions -/

theorem Kind.accepts_of_position {s : SlotSpec} (hs : s ∈ Kind.position.slots) :
  s.accepts = [.var] ∧ s.isPosition = false
  := by
  revert s
  decide

theorem Block.accepts_of_position (hkind : b.kind = .position) :
  ∀ s ∈ b.kind.slots, s.accepts = [.var]
  := by
  intro s hs
  rw [hkind] at hs
  apply (Kind.accepts_of_position hs).1

/-- The slots of a position stand for the axes in order. -/
theorem Block.IsBound.ownParts_position (h : b.IsBound r) (hkind : b.kind = .position) :
  Outline.ownParts r b.face b.slots
    = b.slots.map fun content => Outline.axisPart r (some content)
  := by
  have hlength := h.fits.slots.length_eq
  rw [hkind] at hlength
  obtain ⟨x, y, z, hslots⟩ := List.length_eq_three.mp hlength.symm
  have hface : b.face.kind = .position := hkind
  rw [Outline.ownParts, hface, hslots]
  rfl

theorem Node.WrittenFor.vars_position (h : n.WrittenFor r name bound b) (hbound : b.IsBound r)
    (hkind : b.kind = .position) :
  n.vars.length = 3
  := by
  obtain ⟨next, -, hvars⟩ :=
    h.vars_eq (hbound.shownOccupants_eq_nil (Block.accepts_of_position hkind))
  rw [hvars, Outline.Part.length_write, hbound.ownParts_position hkind, List.length_map,
    ← hbound.fits.slots.length_eq, hkind]
  rfl

theorem Node.WrittenFor.children_position (h : n.WrittenFor r name bound b) (hbound : b.IsBound r)
    (hkind : b.kind = .position) :
  n.children = []
  := by
  have hchildList := hbound.fits.childList_eq_nil (by rw [hkind]; rfl)
  have hshown := hbound.shownOccupants_eq_nil (Block.accepts_of_position hkind)
  have hchildren := h.forall₂_children
  rw [Block.shownBeneath, Block.shownChildren, hchildList, hshown] at hchildren
  apply List.forall₂_nil_right_iff.mp hchildren

/-- A position lacks a value exactly if an axis is not given. -/
theorem Node.WrittenFor.exists_lacks_iff (h : n.WrittenFor r name bound b) (hbound : b.IsBound r)
    (hkind : b.kind = .position) (hfree : ∀ k < bound, r.lookup? (name k) = none) :
  (∃ v, n.Lacks r v) ↔ ∃ content ∈ b.slots, content = .empty
  := by
  have hslots := Block.accepts_of_position hkind
  obtain ⟨next, hfit, hvars⟩ := h.vars_eq (hbound.shownOccupants_eq_nil hslots)
  have hblank : .blank none ∈ Outline.ownParts r b.face b.slots
      ↔ ∃ content ∈ b.slots, content = .empty := by
    rw [hbound.ownParts_position hkind, List.mem_map]
    apply exists_congr
    intro content
    apply and_congr_right
    intro hcontent
    apply Outline.axisPart_eq_blank_none_iff (hbound.of_accepts hslots hcontent)
  rw [← hblank]
  constructor
  · rintro ⟨v, hv⟩
    apply hv.blank_mem hvars
  · intro hmem
    obtain ⟨k, -, hk, hwritten⟩ := Outline.Part.exists_mem_write name next hmem
    rw [Outline.Part.blanks_eq_length, Outline.filterMap_blank?_ownParts] at hk
    refine ⟨_, ⟨hvars ▸ hwritten, rfl, rfl, ?_, hfree k (by omega)⟩⟩
    rw [Node.isLent, h.children_position hbound hkind]
    rfl

theorem Node.WrittenFor.position_iff (h : n.WrittenFor r name bound b) (hbound : b.IsBound r)
    (hcopy : b.IsCopy t) (ht : t.IsPosition) (hfree : ∀ k < bound, r.lookup? (name k) = none) :
  (n.Meets t ∧ ∀ v, ¬ n.Lacks r v) ↔ b.IsComplete
  := by
  obtain ⟨-, htemplate, hkind, -⟩ := hcopy.spec
  rw [ht.kind] at hkind
  have hmeets : n.Meets t := by
    constructor
    · intro expected hexpected
      have harity := ht.arity
      rw [hexpected, Option.map_some, Option.some.injEq] at harity
      rw [harity, h.vars_position hbound hkind]
    · intro hoperators
      rw [ht.kind] at hoperators
      contradiction
    · intro hposition
      obtain ⟨s, hs, hs'⟩ := List.any_eq_true.mp hposition
      rw [ht.kind] at hs
      rw [(Kind.accepts_of_position hs).2] at hs'
      contradiction
  have hlacks := h.exists_lacks_iff hbound hkind hfree
  rw [← not_exists, hlacks]
  constructor
  · rintro ⟨-, hfilled⟩
    constructor
    · intro _ content hcontent hempty
      apply hfilled ⟨content, hcontent, hempty⟩
    · intro hoperators
      rw [hkind] at hoperators
      contradiction
  · intro hcomplete
    use hmeets
    rintro ⟨content, hcontent, hempty⟩
    apply hcomplete.slots (htemplate ▸ ht.id_ne) content hcontent hempty

/-! ### Blocks that ask for a position -/

/-- The slot for a position is empty or holds a position. -/
theorem Block.FitsKind.position_slot (h : b.FitsKind) (hkind : b.kind.slots = [.position]) :
  b.slots = [.empty] ∨ ∃ c, b.slots = [.block c] ∧ c.category = .pos
  := by
  have hslots := h.slots
  rw [hkind] at hslots
  obtain ⟨content, rest, hadmits, hrest, hcons⟩ := List.forall₂_cons_left_iff.mp hslots
  cases hrest
  cases content with
  | empty => apply Or.inl hcons
  | literal value => cases hadmits.2
  | block c =>
    apply Or.inr
    use c, hcons, List.mem_singleton.mp hadmits

/-- The variables of a block with a position are those of the position. -/
theorem Node.WrittenFor.exists_held (h : n.WrittenFor r name bound b) (hcategory : b.category ≠ .pos)
    {c : Block} (hslots : b.slots = [.block c]) (hc : c.category = .pos) (hplaced : c.palette = false) :
  ∃ m ∈ n.children, m.WrittenFor r name bound c ∧ m.type = Category.pos.wireName ∧ n.vars = m.vars
  := by
  obtain ⟨next, nested, held, -, rfl, -, hheld⟩ := h.spec
  have hshown : b.shownOccupants = [c] := by
    rw [Block.shownOccupants, Block.occupants, hslots]
    simp [Content.block?, Block.isShown, Stop.isHidden, hplaced, hc]
  rw [hshown] at hheld
  obtain ⟨m, rest, hm, hrest, rfl⟩ := List.forall₂_cons_right_iff.mp hheld
  cases hrest
  have htype : m.type = Category.pos.wireName := by
    rw [hm.id_eq.2.1, hc]
  refine ⟨m, List.mem_append_right _ (List.mem_singleton_self m), hm, htype, ?_⟩
  rw [Block.ownParts_of_ne_pos hcategory, hslots]
  simp [Outline.slotPart?, hc, Outline.Part.write, Outline.lent, htype]

/-- Without a position a block that asks for one has no variables. -/
theorem Node.WrittenFor.vars_eq_nil (h : n.WrittenFor r name bound b) (hcategory : b.category ≠ .pos)
    (hslots : b.slots = [.empty]) :
  n.vars = []
  := by
  obtain ⟨next, -, hvars⟩ := h.vars_eq (by rw [Block.shownOccupants, Block.occupants, hslots]; rfl)
  rw [hvars, Block.ownParts_of_ne_pos hcategory, hslots]
  rfl

/-- A variable of a child is lent, so its node does not lack a value for it. -/
theorem Node.not_lacks_of_child {m : Node} (hm : m ∈ n.children) {v : Variable} (hv : v ∈ m.vars) :
  ¬ n.Lacks r v
  := by
  intro hlacks
  have hlent := Node.isLent_of_child hm hv
  rw [hlacks.own] at hlent
  contradiction

theorem Node.WrittenFor.asksPosition_iff (h : n.WrittenFor r name bound b) (hbound : b.IsBound r)
    (hcopy : b.IsCopy t) (ht : t.AsksPosition)
    (hheld : ∀ c, .block c ∈ b.slots → c.category = .pos → c.IsBound r ∧ c.kind = .position) :
  (n.Meets t ∧ ∀ v, ¬ n.Lacks r v) ↔ b.IsComplete
  := by
  obtain ⟨-, htemplate, hkind, -⟩ := hcopy.spec
  have hcategory := hcopy.category_ne_pos ht.category
  obtain ⟨expected, hexpected, harity⟩ := Option.map_eq_some_iff.mp ht.arity
  rcases hbound.fits.position_slot (hkind ▸ ht.slots) with hslots | ⟨c, hslots, hc⟩
  · -- neither side holds without a position
    constructor
    · rintro ⟨hmeets, -⟩
      have hlength := hmeets.arity expected hexpected
      rw [h.vars_eq_nil hcategory hslots, harity] at hlength
      contradiction
    · intro hcomplete
      apply absurd rfl (hcomplete.slots (htemplate ▸ ht.id_ne) .empty _)
      rw [hslots]
      apply List.mem_singleton_self
  · -- both sides hold with one
    obtain ⟨hcbound, hckind⟩ := hheld c (by rw [hslots]; apply List.mem_singleton_self) hc
    obtain ⟨m, hm, hwritten, htype, hvars⟩ := h.exists_held hcategory hslots hc hcbound.fits.placed
    have hcomplete : b.IsComplete := by
      constructor
      · rw [hslots]
        simp
      · intro hoperators
        rw [hkind, ht.operators] at hoperators
        contradiction
    have hmeets : n.Meets t := by
      constructor
      · intro expected' hexpected'
        rw [hexpected, Option.some.injEq] at hexpected'
        rw [← hexpected', harity, hvars, hwritten.vars_position hcbound hckind]
      · intro hoperators
        rw [ht.operators] at hoperators
        contradiction
      · intro _
        use m, hm
    apply iff_of_true _ hcomplete
    use hmeets
    intro v hv
    apply Node.not_lacks_of_child hm (hvars ▸ hv.mem) hv

end

/-! ### Sessions with the stock palette -/

section

variable {registry : Registry} {clock : Clock} {e : Editor}

theorem Editor.Reaches.isBound (h : Editor.Reaches (.new .stock registry clock) e)
    (harises : registry.Arises) {b : Block} (hb : b ∈ Forest.walk e.tree) :
  b.IsBound e.registry
  := by
  constructor
  · apply (h.valid Forest.valid_nil).sound b hb
  · intro c hc hvar
    have hmem := Forest.walk_subset hb (Block.mem_walk_of_mem_slots hc)
    apply (h.exists_entry Catalog.stock_hasNoVariables harises hmem hvar).1

/-- The template of a placed block, which the palette has and to which the id of the block leads. -/
theorem Editor.Reaches.exists_stock_template (h : Editor.Reaches (.new .stock registry clock) e)
    (harises : registry.Arises) {b : Block} (hb : b ∈ Forest.walk e.tree) :
  ∃ t, Palette.both .stock e.registry b.templateId = some t ∧ b.IsCopy t
    ∧ Node.template? e.catalog e.registry b.id = some t
  := by
  obtain ⟨t, ht, hcopy, hrecovered⟩ := h.exists_template harises hb
  have hcatalog : e.catalog = .stock := (h.arises harises).2
  use t
  rw [Editor.palette, hcatalog] at ht
  exact ⟨ht, hcopy, hrecovered⟩

theorem Editor.Reaches.kind_position (h : Editor.Reaches (.new .stock registry clock) e)
    (harises : registry.Arises) {b : Block} (hb : b ∈ Forest.walk e.tree)
    (hpos : b.category = .pos) :
  b.kind = .position
  := by
  obtain ⟨t, ht, hcopy, -⟩ := h.exists_stock_template harises hb
  obtain ⟨-, -, hkind, -⟩ := Block.IsCopy.spec hcopy
  rw [Block.category, ← Block.kind, hkind] at hpos
  rcases Palette.stock_cases ht with hvalues | hposition | hposition
  · apply absurd hpos hvalues.category
  · apply absurd hpos hposition.category
  · rw [hkind, hposition.kind]

/-- The check finds nothing wrong with a node exactly if its block is complete. -/
theorem Editor.Reaches.ownIssues_eq_nil_iff (h : Editor.Reaches (.new .stock registry clock) e)
    (harises : registry.Arises) {name : Nat → String} {bound : Nat}
    (hfree : ∀ k < bound, e.registry.lookup? (name k) = none) {n : Node} {b : Block}
    (hb : b ∈ Forest.walk e.tree) (hn : n.WrittenFor e.registry name bound b) :
  n.ownIssues e.catalog e.registry = [] ↔ b.IsComplete
  := by
  have hbound := h.isBound harises hb
  obtain ⟨t, ht, hcopy, hrecovered⟩ := h.exists_stock_template harises hb
  rw [← hn.id_eq.1] at hrecovered
  rw [Node.ownIssues_eq_nil_iff hrecovered]
  rcases Palette.stock_cases ht with hvalues | hposition | hposition
  · apply hn.values_iff hbound hcopy (Palette.ne_empty_of_mem_operators ht) hvalues
  · apply hn.asksPosition_iff hbound hcopy hposition
    intro c hc hpos
    have hmem := Forest.walk_subset hb (Block.mem_walk_of_mem_slots hc)
    exact ⟨h.isBound harises hmem, h.kind_position harises hmem hpos⟩
  · apply hn.position_iff hbound hcopy hposition hfree

/-- A variable block has nothing to fill. -/
theorem Block.FitsKind.isComplete {b : Block} (h : b.FitsKind) (hkind : b.kind = .plain .var []) :
  b.IsComplete
  := by
  constructor
  · intro _ content hcontent
    rw [h.slots_eq_nil (by rw [hkind]; rfl)] at hcontent
    cases hcontent
  · intro hoperators
    rw [hkind] at hoperators
    contradiction

end

/-- With the stock palette, the check of the program finds nothing exactly if all placed blocks are
complete.  That the names can be given out says that the search for each of them ends, as it does
unless many names are taken. -/
theorem Editor.preflight_eq_nil_iff {registry : Registry} {clock : Clock} {e : Editor}
    (h : Editor.Reaches (.new .stock registry clock) e) (harises : registry.Arises) :
  (1000 * (e.registry.takenNames.length
        + ((Forest.shown e.tree).flatMap (Block.unnamed e.registry)).length) ≤ 2 ^ 64 →
      Program.HasNames e.registry e.canvas.clock.now e.tree)
    ∧ (Program.HasNames e.registry e.canvas.clock.now e.tree →
      (e.preflight = [] ↔ Forest.IsComplete e.tree))
  := by
  constructor
  · apply Program.hasNames_of_length_le
  intro hnames
  have hfree : ∀ k < Outline.blanksOfAll (Forest.outline e.registry e.tree),
      e.registry.lookup? (Program.nameAt e.registry e.canvas.clock.now e.tree k) = none :=
    fun _ => Program.lookup?_nameAt hnames
  have hwritten := Program.forall₂_writtenFor e.registry e.canvas.clock.now e.tree
  have hshown := (Forest.shown_sublist e.tree).subset
  obtain ⟨hblock, hnode⟩ := exists_of_forall₂ hwritten
  rw [Editor.preflight, Editor.program, Program.check_eq_flatMap, List.flatMap_eq_nil_iff]
  constructor
  · intro hnone b hb
    by_cases hvar : b.category = .var
    · apply (h.isBound harises hb).fits.isComplete
      apply (h.exists_entry Catalog.stock_hasNoVariables harises hb hvar).2
    · obtain ⟨n, hn, hnb⟩ :=
        hnode b (h.mem_shown Catalog.stock_hasNoVariables harises hb hvar)
      apply (h.ownIssues_eq_nil_iff harises hfree hb hnb).mp (hnone n hn)
  · intro hcomplete n hn
    obtain ⟨b, hb, hnb⟩ := hblock n hn
    apply (h.ownIssues_eq_nil_iff harises hfree (hshown hb) hnb).mpr (hcomplete b (hshown hb))

/-- Nothing is wrong with a move to a position as soon as the last of its axes has a value. -/
theorem Editor.preflight_eq_nil_iff_position :
  ∃ e e', Editor.Reaches (.new .stock .standard (.fixed 7)) e
    ∧ Forest.ids e.tree = ["block-to-pos-7", "block-get-p1-pos-8"]
    ∧ e.preflight = [.unsetValue "block-get-p1-pos-8" "var5223"]
    ∧ ¬ Forest.IsComplete e.tree
    ∧ e' = (e.perform (.setLiteral "block-get-p1-pos-8" 2 "4")).2
    ∧ e'.preflight = []
    ∧ Forest.IsComplete e'.tree
  := by
  have hmove := Editor.reaches_drop .stock .standard (.fixed 7) (.palette "block-to-pos") .hidden
    (.workspace .zero)
  have hname := hmove.perform (.addVariable "var7") trivial
  have hdrop := hname.drag (.palette "block-get-p1-pos") .hidden (.slot "block-to-pos-7" 0) (by decide)
  have hx := hdrop.perform (.setLiteral "block-get-p1-pos-8" 0 "5") trivial
  have hy := hx.perform (.setLiteral "block-get-p1-pos-8" 1 "3") trivial
  have hz := hy.perform (.setLiteral "block-get-p1-pos-8" 2 "4") trivial
  obtain ⟨hnames, hexact⟩ := Editor.preflight_eq_nil_iff hy (.ofConfig .standard)
  obtain ⟨hnames', hexact'⟩ := Editor.preflight_eq_nil_iff hz (.ofConfig .standard)
  refine ⟨_, _, hy, rfl, ?_, ?_, rfl, ?_, ?_⟩
  · decide
  · rw [← hexact (hnames (by decide))]
    decide
  · decide
  · rw [← hexact' (hnames' (by decide))]
    decide

end BlockEditor
