import BlockEditor.Proofs.Moving
import Mathlib.Data.List.Forall2

/-!
# Valid workspaces

A workspace is valid if all its ids are different and every block at any depth fits its kind.
Pruning keeps a workspace valid, and so does putting blocks that fit their kinds into places that
accept them.
-/

namespace BlockEditor

/-- The slot may hold the content: a typed value only if the slot takes typed values, and never the
empty one, and a block only of a category that the slot accepts. -/
def SlotSpec.Admits (s : SlotSpec) : Content Block → Prop
  | .empty => True
  | .literal value => value ≠ "" ∧ s.literal = true
  | .block b => b.category ∈ s.accepts

/-- A placed block is as its kind asks. -/
structure Block.FitsKind (b : Block) : Prop where
  /-- It is no entry of the palette. -/
  placed : b.palette = false
  /-- It has a children container exactly if its kind nests children. -/
  children : b.children.isSome = b.kind.acceptsChildren
  /-- It has one content for each slot of its kind, and the slot may hold that content. -/
  slots : List.Forall₂ SlotSpec.Admits b.kind.slots b.slots
  /-- The selected operator is one of its kind. -/
  operator : ∀ operator, b.operator = some operator → operator ∈ b.kind.operators

/-- A placed block has a content for each slot of its kind, and the slot admits it. -/
theorem Block.FitsKind.exists_content {b : Block} (h : b.FitsKind) {slot : Nat} {spec : SlotSpec}
    (hspec : b.kind.slots[slot]? = some spec) :
  ∃ content, b.slots[slot]? = some content ∧ spec.Admits content
  := by
  obtain ⟨hslot, rfl⟩ := List.getElem?_eq_some_iff.mp hspec
  have hslot' : slot < b.slots.length := by
    rw [← h.slots.length_eq]
    apply hslot
  use b.slots[slot], List.getElem?_eq_getElem hslot'
  apply h.slots.get hslot hslot'

/-- Each slot of a block answers to a slot of its kind, which admits the content. -/
theorem Block.FitsKind.exists_spec_of_slot {b : Block} (h : b.FitsKind) {slot : Nat}
    {content : Content Block} (hcontent : b.slots[slot]? = some content) :
  ∃ spec, b.kind.slots[slot]? = some spec ∧ spec.Admits content
  := by
  obtain ⟨hslot, rfl⟩ := List.getElem?_eq_some_iff.mp hcontent
  have hslot' : slot < b.kind.slots.length := by
    rw [h.slots.length_eq]
    apply hslot
  use b.kind.slots[slot], List.getElem?_eq_getElem hslot'
  apply h.slots.get hslot' hslot

/-- The block and all blocks beneath it fit their kinds. -/
def Block.Sound (b : Block) : Prop :=
  ∀ c ∈ b.walk, c.FitsKind

/-- All blocks of the workspace fit their kinds. -/
def Forest.Sound (t : Forest) : Prop :=
  ∀ b ∈ Forest.walk t, b.FitsKind

/-- All ids of the workspace are different, and all its blocks fit their kinds. -/
structure Forest.Valid (t : Forest) : Prop where
  nodup : (Forest.ids t).Nodup
  sound : Forest.Sound t

/-! ### Sound blocks -/

/-- A sound block fits its own kind. -/
theorem Block.Sound.fitsKind {b : Block} (h : b.Sound) :
  b.FitsKind
  := h b b.mem_walk_self

theorem Forest.sound_cons {b : Block} {bs : Forest} :
  Forest.Sound (b :: bs) ↔ b.Sound ∧ Forest.Sound bs
  := by
  simp only [Forest.Sound, Block.Sound, Forest.walk_cons, List.mem_append, or_imp, forall_and]

theorem Forest.sound_append {s t : Forest} :
  Forest.Sound (s ++ t) ↔ Forest.Sound s ∧ Forest.Sound t
  := by
  simp only [Forest.Sound, Forest.walk_append, List.mem_append, or_imp, forall_and]

/-- Every block of a sound tree is sound. -/
theorem Forest.Sound.of_mem_walk {t : Forest} (h : Forest.Sound t) {b : Block}
    (hb : b ∈ Forest.walk t) :
  b.Sound
  := by
  intro c hc
  apply h
  apply Forest.walk_subset hb hc

/-- All occupants of slots and the blocks beneath them fit their kinds. -/
def Slots.Sound (cs : Slots) : Prop :=
  ∀ b ∈ Slots.walk cs, b.FitsKind

theorem Slots.sound_append {cs ds : Slots} :
  Slots.Sound (cs ++ ds) ↔ Slots.Sound cs ∧ Slots.Sound ds
  := by
  simp only [Slots.Sound, Slots.walk_append, List.mem_append, or_imp, forall_and]

theorem Slots.sound_cons {content : Content Block} {cs : Slots} :
  Slots.Sound (content :: cs) ↔ (∀ b, content.block? = some b → b.Sound) ∧ Slots.Sound cs
  := by
  cases content with
  | block b =>
    simp [Slots.Sound, Block.Sound, Content.block?, or_imp, forall_and]
  | empty => simp [Slots.Sound, Slots.walk, Content.block?]
  | literal value => simp [Slots.Sound, Slots.walk, Content.block?]

theorem Block.sound_mk {face : Face} {children : Option Forest} {slots : Slots} :
  (Block.mk face children slots).Sound
    ↔ (Block.mk face children slots).FitsKind ∧ Forest.Sound (children.getD [])
      ∧ Slots.Sound slots
  := by
  simp only [Block.Sound, Forest.Sound, Slots.Sound, Block.walk_mk, List.forall_mem_cons,
    List.mem_append, or_imp, forall_and]

/-! ### Sound contexts -/

/-- A slot that a place stands for may hold another content if the kind admits it. -/
theorem forall₂_replace {α β : Type} {R : α → β → Prop} {xs : List α} {s t : List β} {b c : β}
    (h : List.Forall₂ R xs (s ++ b :: t)) (hc : ∀ x, xs[s.length]? = some x → R x c) :
  List.Forall₂ R xs (s ++ c :: t)
  := by
  induction s generalizing xs with
  | nil =>
    obtain ⟨x, ys, -, ht, rfl⟩ := List.forall₂_cons_right_iff.mp h
    apply List.Forall₂.cons (hc x rfl) ht
  | cons d s ih =>
    obtain ⟨x, ys, hx, ht, rfl⟩ := List.forall₂_cons_right_iff.mp h
    apply List.Forall₂.cons hx (ih ht hc)

/-- Other blocks may be the children of a block. -/
theorem Block.Sound.setChildren {face : Face} {bs cs : Forest} {slots : Slots}
    (h : (Block.mk face (some bs) slots).Sound) (hcs : Forest.Sound cs) :
  (Block.mk face (some cs) slots).Sound
  := by
  obtain ⟨hfits, -, hslots⟩ := Block.sound_mk.mp h
  apply Block.sound_mk.mpr
  constructor
  · constructor
    · apply hfits.placed
    · apply hfits.children
    · apply hfits.slots
    · apply hfits.operator
  · use hcs

/-- Another content may be in a slot that admits it. -/
theorem Block.Sound.setSlot {face : Face} {children : Option Forest} {before after : Slots}
    {previous content : Content Block}
    (h : (Block.mk face children (before ++ previous :: after)).Sound)
    (hadmits : ∀ spec, face.kind.slots[before.length]? = some spec → spec.Admits content)
    (hcontent : ∀ b, content.block? = some b → b.Sound) :
  (Block.mk face children (before ++ content :: after)).Sound
  := by
  obtain ⟨hfits, hchildren, hslots⟩ := Block.sound_mk.mp h
  obtain ⟨hbefore, hafter⟩ := Slots.sound_append.mp hslots
  apply Block.sound_mk.mpr
  constructor
  · constructor
    · apply hfits.placed
    · apply hfits.children
    · apply forall₂_replace hfits.slots hadmits
    · apply hfits.operator
  · use hchildren
    apply Slots.sound_append.mpr
    use hbefore
    apply Slots.sound_cons.mpr
    use hcontent, (Slots.sound_cons.mp hafter).2

/-- What a slot of a sound block holds is sound. -/
theorem Block.Sound.occupant {face : Face} {children : Option Forest} {before after : Slots}
    {content : Content Block} (h : (Block.mk face children (before ++ content :: after)).Sound) :
  ∀ b, content.block? = some b → b.Sound
  := by
  obtain ⟨-, -, hslots⟩ := Block.sound_mk.mp h
  apply (Slots.sound_cons.mp (Slots.sound_append.mp hslots).2).1

/-- The place takes the block: it is in a list, or in a slot that accepts the category. -/
def Frame.Accepts (F : Frame) (b : Block) : Prop :=
  match F with
  | .child _ _ _ _ => True
  | .slot face _ before _ =>
    ∀ spec, face.kind.slots[before.length]? = some spec → b.category ∈ spec.accepts

/-- The hole of the context can take the block. -/
def Context.Accepts (C : Context) (b : Block) : Prop :=
  match C with
  | .top _ _ => True
  | .inside _ F => F.Accepts b

/-- A frame stays sound without the block in its hole. -/
theorem Frame.sound_clear {F : Frame} {b : Block} (h : (F.fill b).Sound) :
  F.clear.Sound
  := by
  cases F with
  | child face before after slots =>
    obtain ⟨-, hchildren, -⟩ := Block.sound_mk.mp h
    rw [Option.getD_some, Forest.sound_append, Forest.sound_cons] at hchildren
    apply Block.Sound.setChildren h
    apply Forest.sound_append.mpr
    use hchildren.1, hchildren.2.2
  | slot face children before after =>
    apply Block.Sound.setSlot h
    · intro _ _
      trivial
    · intro _ _
      contradiction

/-- A frame stays sound with a sound block that its hole accepts. -/
theorem Frame.sound_fill {F : Frame} {b : Block} (h : F.clear.Sound) (hb : b.Sound)
    (haccepts : F.Accepts b) :
  (F.fill b).Sound
  := by
  cases F with
  | child face before after slots =>
    obtain ⟨-, hchildren, -⟩ := Block.sound_mk.mp h
    rw [Option.getD_some, Forest.sound_append] at hchildren
    apply Block.Sound.setChildren h
    apply Forest.sound_append.mpr
    use hchildren.1
    apply Forest.sound_cons.mpr
    use hb, hchildren.2
  | slot face children before after =>
    apply Block.Sound.setSlot h
    · apply haccepts
    · rintro _ ⟨⟩
      apply hb

/-- A frame accepts what it holds, and every other block of that category. -/
theorem Frame.accepts_of_sound {F : Frame} {b c : Block} (h : (F.fill b).Sound)
    (hc : c.category = b.category) :
  F.Accepts c
  := by
  cases F with
  | child face before after slots => trivial
  | slot face children before after =>
    intro spec hspec
    have hslots := h.fitsKind.slots
    simp only [Frame.fill, Block.kind] at hslots
    obtain ⟨hlength, hadmits⟩ := List.forall₂_iff_get.mp hslots
    obtain ⟨hlt, rfl⟩ := List.getElem?_eq_some_iff.mp hspec
    have hb := hadmits before.length hlt (by simp)
    simp only [List.get_eq_getElem, List.getElem_append_right (Nat.le_refl _), Nat.sub_self,
      List.getElem_cons_zero, SlotSpec.Admits] at hb
    rw [hc]
    apply hb

theorem Context.sound_of_fill {C : Context} {b : Block} (h : Forest.Sound (C.fill b)) :
  b.Sound
  := by
  induction C generalizing b with
  | top before after => apply (Forest.sound_cons.mp (Forest.sound_append.mp h).2).1
  | inside C F ih =>
    have hF := ih h
    cases F with
    | child face before after slots =>
      have hchildren := (Block.sound_mk.mp hF).2.1
      apply (Forest.sound_cons.mp (Forest.sound_append.mp hchildren).2).1
    | slot face children before after => apply Block.Sound.occupant hF b rfl

/-- Another block of the same category may take the place of a block. -/
theorem Context.sound_replace {C : Context} {b c : Block} (h : Forest.Sound (C.fill b))
    (hc : c.Sound) (hcategory : c.category = b.category) :
  Forest.Sound (C.fill c)
  := by
  induction C generalizing b c with
  | top before after =>
    obtain ⟨hbefore, hafter⟩ := Forest.sound_append.mp h
    apply Forest.sound_append.mpr
    exact ⟨hbefore, Forest.sound_cons.mpr ⟨hc, (Forest.sound_cons.mp hafter).2⟩⟩
  | inside C F ih =>
    have hF : (F.fill b).Sound := Context.sound_of_fill h
    have hface : (F.fill c).category = (F.fill b).category := by cases F <;> rfl
    apply ih h _ hface
    apply Frame.sound_fill (Frame.sound_clear hF) hc (Frame.accepts_of_sound hF hcategory)

/-- A block may be put into a place that takes it. -/
theorem Context.sound_fill {C : Context} {b : Block} (h : Forest.Sound C.clear) (hb : b.Sound)
    (haccepts : C.Accepts b) :
  Forest.Sound (C.fill b)
  := by
  cases C with
  | top before after =>
    obtain ⟨hbefore, hafter⟩ := Forest.sound_append.mp h
    apply Forest.sound_append.mpr ⟨hbefore, Forest.sound_cons.mpr ⟨hb, hafter⟩⟩
  | inside C F =>
    have hF : F.clear.Sound := Context.sound_of_fill h
    have hface : (F.fill b).category = F.clear.category := by cases F <;> rfl
    apply Context.sound_replace h (Frame.sound_fill hF hb haccepts) hface

/-! ### Pruning -/

theorem SlotSpec.Admits.prune {gone : Face → Bool} {s : SlotSpec} {c : Content Block}
    (h : s.Admits c) :
  s.Admits (c.prune gone)
  := by
  cases c with
  | empty => trivial
  | literal value => apply h
  | block b =>
    rw [Content.prune]
    split
    · trivial
    · rw [SlotSpec.Admits, Block.category, Block.face_prune]
      apply h

/-- Removal beneath a block leaves what its kind admits, since an empty slot is always admitted. -/
theorem Block.FitsKind.prune {gone : Face → Bool} {b : Block} (h : b.FitsKind) :
  (b.prune gone).FitsKind
  := by
  constructor
  · rw [Block.palette, Block.face_prune]
    apply h.placed
  · rw [Block.kind, Block.face_prune, Block.children_prune, Option.isSome_map]
    apply h.children
  · rw [Block.kind, Block.face_prune, Block.slots_prune, Slots.prune_eq_map,
      List.forall₂_map_right_iff]
    apply h.slots.imp
    intro s c hc
    apply hc.prune
  · rw [Block.operator, Block.kind, Block.face_prune]
    apply h.operator

theorem Forest.Sound.prune {gone : Face → Bool} {t : Forest} (h : Forest.Sound t) :
  Forest.Sound (Forest.prune gone t)
  := by
  intro b hb
  obtain ⟨c, hc, rfl⟩ := Forest.mem_walk_prune hb
  apply (h c hc).prune

/-- Pruning keeps a workspace valid. -/
theorem Forest.Valid.prune {gone : Face → Bool} {t : Forest} (h : Forest.Valid t) :
  Forest.Valid (Forest.prune gone t)
  := ⟨Forest.nodup_prune h.nodup, h.sound.prune⟩

/-- Taking a block out leaves a valid tree. -/
theorem Forest.Valid.without {t : Forest} (h : Forest.Valid t) (id : String) :
  Forest.Valid (t.without id)
  := h.prune

theorem Forest.valid_nil :
  Forest.Valid []
  := ⟨List.nodup_nil, fun _ hb => by cases hb⟩

end BlockEditor
