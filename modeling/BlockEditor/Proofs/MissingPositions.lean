import BlockEditor.Proofs.Binding
import BlockEditor.Proofs.Recovery

/-!
# Missing positions

The check reports a position as missing if the template of a node asks for one and no child of the node is
one.  The children of a node are those of the block and what its slots hold, so a position counts wherever
the block holds it.  A slot for positions that is empty is reported, unless a position among the children of
the block or in another slot hides it.
-/

namespace BlockEditor

/-- A slot of the block that takes positions and nothing else is empty. -/
def Block.LacksPosition (b : Block) : Prop :=
  ∃ (slot : Nat) (spec : SlotSpec), b.kind.slots[slot]? = some spec ∧ spec.literal = false
    ∧ spec.accepts = [.pos] ∧ b.slots[slot]? = some .empty

/-- There is a position among the children of the block or in its slots. -/
def Block.HoldsPosition (b : Block) : Prop :=
  ∃ c ∈ b.childList ++ b.occupants, c.category = .pos

/-- The kind has no children, and positions go into one of its slots at most. -/
structure Kind.TakesOnePosition (k : Kind) : Prop where
  childless : k.acceptsChildren = false
  slot : ∀ {i j : Nat} {s s' : SlotSpec}, k.slots[i]? = some s → k.slots[j]? = some s' →
    .pos ∈ s.accepts → .pos ∈ s'.accepts → i = j

/-! ### Slots of placed blocks -/

theorem SlotSpec.isPosition_iff (s : SlotSpec) :
  s.isPosition = true ↔ s.literal = false ∧ s.accepts = [.pos]
  := by
  simp [SlotSpec.isPosition]

section

variable {b : Block}

/-- If a block holds no position, its slots for positions are empty. -/
theorem Block.FitsKind.lacksPosition_iff (h : b.FitsKind) (hholds : ¬ b.HoldsPosition) :
  b.LacksPosition ↔ b.kind.slots.any SlotSpec.isPosition = true
  := by
  constructor
  · rintro ⟨slot, spec, hspec, hliteral, haccepts, -⟩
    apply List.any_eq_true.mpr
    use spec, List.mem_of_getElem? hspec
    apply spec.isPosition_iff.mpr ⟨hliteral, haccepts⟩
  · intro hany
    obtain ⟨spec, hmem, hposition⟩ := List.any_eq_true.mp hany
    obtain ⟨hliteral, haccepts⟩ := spec.isPosition_iff.mp hposition
    obtain ⟨slot, hspec⟩ := List.mem_iff_getElem?.mp hmem
    obtain ⟨content, hcontent, hadmits⟩ := h.exists_content hspec
    cases content with
    | empty => exact ⟨slot, spec, hspec, hliteral, haccepts, hcontent⟩
    | literal value =>
      rw [hadmits.2] at hliteral
      contradiction
    | block c =>
      rw [SlotSpec.Admits, haccepts, List.mem_singleton] at hadmits
      apply absurd _ hholds
      use c, List.mem_append_right _ (Block.mem_occupants_iff.mpr (List.mem_of_getElem? hcontent))

/-- A block that may hold one position does not hold one while it lacks one. -/
theorem Block.FitsKind.not_holdsPosition (h : b.FitsKind) (hkind : b.kind.TakesOnePosition)
    (hlacks : b.LacksPosition) :
  ¬ b.HoldsPosition
  := by
  rintro ⟨c, hc, hcategory⟩
  obtain ⟨i, s, hs, -, haccepts, hempty⟩ := hlacks
  rw [h.childList_eq_nil hkind.childless, List.nil_append] at hc
  obtain ⟨j, hj⟩ := List.mem_iff_getElem?.mp (Block.mem_occupants_iff.mp hc)
  obtain ⟨s', hs', hadmits⟩ := h.exists_spec_of_slot hj
  rw [SlotSpec.Admits, hcategory] at hadmits
  obtain rfl := hkind.slot hs hs' (by rw [haccepts]; apply List.mem_singleton_self) hadmits
  rw [hj] at hempty
  cases hempty

/-! ### Children of nodes -/

/-- A node has a position among its children exactly if its block holds one. -/
theorem Node.WrittenFor.exists_child_iff {r : Registry} {name : Nat → String} {bound : Nat} {n : Node}
    (h : n.WrittenFor r name bound b) (hplaced : ∀ c ∈ b.childList ++ b.occupants, c.palette = false) :
  (∃ child ∈ n.children, child.type = Category.pos.wireName) ↔ b.HoldsPosition
  := by
  obtain ⟨hchild, hblock⟩ := exists_of_forall₂ h.forall₂_children
  constructor
  · rintro ⟨child, hmem, htype⟩
    obtain ⟨c, hc, hwritten⟩ := hchild child hmem
    rw [hwritten.shows.type_eq] at htype
    use c, Block.mem_of_mem_shownBeneath hc, Category.eq_pos_of_wireName htype
  · rintro ⟨c, hc, hcategory⟩
    have hshown := Block.mem_shownBeneath hc (hplaced c hc) (by rw [hcategory]; decide)
    obtain ⟨child, hmem, hwritten⟩ := hblock c hshown
    use child, hmem
    rw [hwritten.shows.type_eq, hcategory]

end

/-! ### The report -/

/-- The check of a session reports a block that becomes a node exactly if a slot for positions is empty and
the block holds no position at all.  So a slot for positions that is empty may go unreported, but not with
a kind that takes one position. -/
theorem Editor.missingPosition_mem_preflight {catalog : Catalog} {registry : Registry} {clock : Clock}
    {e : Editor} (h : Editor.Reaches (.new catalog registry clock) e) (harises : registry.Arises) :
  ∀ b ∈ Forest.shown e.tree,
    (.missingPosition b.id ∈ e.preflight ↔ b.LacksPosition ∧ ¬ b.HoldsPosition)
      ∧ (b.kind.TakesOnePosition → (.missingPosition b.id ∈ e.preflight ↔ b.LacksPosition))
  := by
  intro b hb
  have hvalid := h.valid Forest.valid_nil
  have hmem := (Forest.shown_sublist e.tree).subset hb
  have hfits := hvalid.sound b hmem
  have hplaced : ∀ c ∈ b.childList ++ b.occupants, c.palette = false := by
    intro c hc
    have hwalk := Forest.walk_subset hmem (Block.walk_subset_of_mem hc c.mem_walk_self)
    apply (hvalid.sound c hwalk).placed
  obtain ⟨t, -, hcopy, htemplate⟩ := h.exists_template harises hmem
  obtain ⟨-, -, hkind, -⟩ := hcopy.spec
  obtain ⟨n, hnode, hwritten⟩ :=
    Program.exists_node e.registry e.canvas.clock.now hvalid.nodup hb
  have hreport : .missingPosition b.id ∈ e.preflight ↔ b.LacksPosition ∧ ¬ b.HoldsPosition := by
    have hissue : .missingPosition b.id ∈ e.preflight
        ↔ .missingPosition b.id ∈ n.ownIssues e.catalog e.registry := Program.mem_check_iff hnode
    rw [hissue]
    rw [← hwritten.shows.id_eq] at htemplate ⊢
    rw [Node.missingPosition_mem_iff htemplate, hwritten.exists_child_iff hplaced, ← hkind]
    apply and_congr_left
    intro hholds
    rw [hfits.lacksPosition_iff hholds]
  use hreport
  intro hone
  rw [hreport, and_iff_left_iff_imp]
  apply hfits.not_holdsPosition hone

/-- A block of the stock palette, which takes one position, is reported without it. -/
theorem Editor.missingPosition_mem_preflight_to :
  ∃ e b, Editor.Reaches (.new .stock .standard (.fixed 7)) e ∧ Forest.shown e.tree = [b]
    ∧ b.id = "block-to-pos-7" ∧ b.LacksPosition ∧ .missingPosition b.id ∈ e.preflight
  := by
  have hdrop := Editor.reaches_drop .stock .standard (.fixed 7) (.palette "block-to-pos") .hidden
    (.workspace .zero)
  obtain ⟨-, hreport⟩ := Editor.missingPosition_mem_preflight hdrop (.ofConfig .standard) _
    (List.mem_singleton_self _)
  have hone : ∀ {i j : Nat} {s s' : SlotSpec}, [SlotSpec.position][i]? = some s →
      [SlotSpec.position][j]? = some s' → i = j := by
    intro i j s s' hi hj
    obtain ⟨hi, -⟩ := List.getElem?_eq_some_iff.mp hi
    obtain ⟨hj, -⟩ := List.getElem?_eq_some_iff.mp hj
    rw [List.length_singleton] at hi hj
    omega
  refine ⟨_, _, hdrop, rfl, rfl, ⟨0, .position, rfl, rfl, rfl, rfl⟩, ?_⟩
  apply (hreport ⟨rfl, fun hi hj _ _ => hone hi hj⟩).mpr
  exact ⟨0, .position, rfl, rfl, rfl, rfl⟩

/-- A catalog with a block that has children and a slot for a position. -/
def Catalog.tour : Catalog :=
  ⟨[⟨"tour", "tour", ⟨.move, true, [.position], [], .empty⟩, none⟩], by decide⟩

/-- A position among the children of a block hides that its slot for a position is empty. -/
theorem Editor.missingPosition_hidden_tour :
  ∃ e b p, Editor.Reaches (.new .tour .standard (.fixed 7)) e ∧ Forest.shown e.tree = [b, p]
    ∧ b.id = "tour-7" ∧ b.childList = [p] ∧ p.id = "block-get-p1-pos-8" ∧ b.LacksPosition
    ∧ .missingPosition b.id ∉ e.preflight
    ∧ ¬ ∀ c ∈ Forest.shown e.tree, .missingPosition c.id ∈ e.preflight ↔ c.LacksPosition
  := by
  have htour := Editor.reaches_drop .tour .standard (.fixed 7) (.palette "tour") .hidden
    (.workspace .zero)
  have hdrop := htour.drag (.palette "block-get-p1-pos") .hidden (.block "tour-7" .zero) (by decide)
  refine ⟨_, _, _, hdrop, rfl, rfl, rfl, rfl, ⟨0, .position, rfl, rfl, rfl, rfl⟩, by decide, ?_⟩
  intro hexact
  have hreport := (hexact _ (List.mem_cons_self ..)).mpr ⟨0, .position, rfl, rfl, rfl, rfl⟩
  revert hreport
  decide

end BlockEditor
