import BlockEditor.Proofs.Blanks

/-!
# The axes of a position

The node of a position has three variables of its own, for the axes `X`, `Y` and `Z` in that order.
`Kind.AxisSlot` says which slot stands for an axis, and `Variable.IsAxis` which variable the axis has by
what is in that slot.  Behind them come the variables of the positions in the slots, so there are three
variables in all exactly if no position is in a slot.
-/

namespace BlockEditor

/-! ### Slots for axes -/

/-- The kind has slots that are named after all three axes. -/
def Kind.NamesAxes (k : Kind) : Prop :=
  ∀ axis ∈ ["X", "Y", "Z"], some axis ∈ k.slots.map SlotSpec.name

/-- The slot stands for an axis.  It is the first one that is named after the axis if the kind names all
three axes.  Otherwise the first slots stand for the axes in order. -/
inductive Kind.AxisSlot (k : Kind) (axis : String) (number : Nat) : Nat → Prop where
  | named {slot : Nat} (hall : k.NamesAxes)
      (hname : (k.slots.map SlotSpec.name)[slot]? = some (some axis))
      (hfirst : ∀ i < slot, (k.slots.map SlotSpec.name)[i]? ≠ some (some axis)) :
      AxisSlot k axis number slot
  | inOrder (hsome : ¬ k.NamesAxes) : AxisSlot k axis number number

theorem Kind.mem_names_iff (k : Kind) (axis : String) :
  some axis ∈ k.slots.map SlotSpec.name
    ↔ (k.slots.findIdx? fun s => s.name = some axis).isSome
  := by
  simp

/-- What a search for the name of an axis finds is the first slot with that name. -/
theorem Kind.AxisSlot.of_findIdx? {k : Kind} (hall : k.NamesAxes) {axis : String} {number slot : Nat}
    (h : (k.slots.findIdx? fun s => s.name = some axis) = some slot) :
  k.AxisSlot axis number slot
  := by
  obtain ⟨hslot, hname, hfirst⟩ := List.findIdx?_eq_some_iff_getElem.mp h
  apply Kind.AxisSlot.named hall
  · rw [List.getElem?_map, List.getElem?_eq_getElem hslot, Option.map_some, of_decide_eq_true hname]
  · intro i hi heq
    rw [List.getElem?_map, List.getElem?_eq_getElem (by omega), Option.map_some,
      Option.some.injEq] at heq
    apply hfirst i hi
    rw [heq, decide_eq_true rfl]

/-- Three slots stand for the axes. -/
theorem Kind.exists_axisSlots (k : Kind) :
  ∃ x y z, Outline.axisSlots k = [x, y, z]
    ∧ k.AxisSlot "X" 0 x ∧ k.AxisSlot "Y" 1 y ∧ k.AxisSlot "Z" 2 z
  := by
  rcases Outline.axisSlots_cases k with ⟨x, y, z, hx, hy, hz, hslots⟩ | ⟨⟨axis, haxis, hnone⟩, hslots⟩
  · have hall : k.NamesAxes := by
      intro axis haxis
      rw [k.mem_names_iff]
      simp only [List.mem_cons, List.not_mem_nil, or_false] at haxis
      rcases haxis with rfl | rfl | rfl
      · rw [hx, Option.isSome_some]
      · rw [hy, Option.isSome_some]
      · rw [hz, Option.isSome_some]
    exact ⟨x, y, z, hslots, .of_findIdx? hall hx, .of_findIdx? hall hy, .of_findIdx? hall hz⟩
  · have hsome : ¬ k.NamesAxes := by
      intro hall
      have hfound := (k.mem_names_iff axis).mp (hall axis haxis)
      rw [hnone] at hfound
      contradiction
    exact ⟨0, 1, 2, hslots, .inOrder hsome, .inOrder hsome, .inOrder hsome⟩

/-! ### Variables of axes -/

/-- The variable of an axis whose slot has the given content, if there is such a slot.  A typed value
is the one of a variable with a synthetic name, and a variable block whose name has an entry gives the
variable of that entry.  In all other cases the variable has a synthetic name and no value: if the slot
is empty or not there, or holds a variable whose name has no entry or another block. -/
inductive Variable.IsAxis (r : Registry) (names : List String) :
    Option (Content Block) → Variable → Prop where
  | typed {name value : String} (hname : name ∈ names) :
      IsAxis r names (some (.literal value)) ⟨name, name, Category.var.wireName, some value⟩
  | bound {b : Block} {entry : Registry.Entry} (hvar : b.category = .var)
      (hentry : r.lookup? b.label = some entry) :
      IsAxis r names (some (.block b)) ⟨b.id, b.label, Category.var.wireName, entry.value⟩
  | unset {content : Option (Content Block)} {name : String} (hname : name ∈ names)
      (huntyped : ∀ value, content ≠ some (.literal value))
      (hunbound : ∀ b, content = some (.block b) → b.category = .var → r.lookup? b.label = none) :
      IsAxis r names content ⟨name, name, Category.var.wireName, none⟩

/-- The variable is what the part of an outline says, with one of the names if the part is a blank. -/
inductive Outline.Part.Names (names : List String) : Outline.Part → Variable → Prop where
  | bound {id text : String} {value : Option String} :
      Names names (.bound id text value) ⟨id, text, Category.var.wireName, value⟩
  | blank {name : String} {value : Option String} (hname : name ∈ names) :
      Names names (.blank value) ⟨name, name, Category.var.wireName, value⟩

theorem Outline.Part.forall₂_names {name : Nat → String} {names : List String} {next : Nat}
    {ps : List Outline.Part} (h : ∀ k, next ≤ k → k < next + blanks ps → name k ∈ names) :
  List.Forall₂ (Names names) ps (write name next ps)
  := by
  induction ps generalizing next with
  | nil => apply List.Forall₂.nil
  | cons p ps ih =>
    cases p with
    | bound id text value =>
      apply List.Forall₂.cons Names.bound
      apply ih h
    | blank value =>
      rw [blanks] at h
      apply List.Forall₂.cons (Names.blank (h next (Nat.le_refl _) (by omega)))
      apply ih fun k hlo hhi => h k (by omega) (by omega)

/-- What is written for an axis is the variable of the axis. -/
theorem Outline.Part.Names.isAxis {r : Registry} {names : List String}
    {content : Option (Content Block)} {v : Variable} (h : (axisPart r content).Names names v) :
  v.IsAxis r names content
  := by
  have hunset : ∀ {content : Option (Content Block)}, axisPart r content = .blank none →
      (∀ value, content ≠ some (.literal value)) →
      (∀ b, content = some (.block b) → b.category = .var → r.lookup? b.label = none) →
      (axisPart r content).Names names v → v.IsAxis r names content := by
    intro content hpart huntyped hunbound h
    rw [hpart] at h
    cases h with
    | blank hname => apply Variable.IsAxis.unset hname huntyped hunbound
  match content with
  | none =>
    apply hunset rfl (by simp) (by simp) h
  | some .empty =>
    apply hunset rfl (by simp) (by simp) h
  | some (.literal value) =>
    cases h with
    | blank hname => apply Variable.IsAxis.typed hname
  | some (.block b) =>
    by_cases hvar : b.category = .var
    · cases hentry : r.lookup? b.label with
      | none =>
        apply hunset _ (by simp) (by simpa using fun _ => hentry) h
        simp [axisPart, slotPart?, bound?, hentry]
      | some entry =>
        rw [axisPart, Option.bind_some, slotPart?, if_pos hvar, bound?, hentry, Option.map_some,
          Option.getD_some] at h
        cases h with
        | bound => apply Variable.IsAxis.bound hvar hentry
    · apply hunset _ (by simp) (by simpa using fun hvar' => absurd hvar' hvar) h
      simp [axisPart, slotPart?, hvar]

/-! ### Nodes of positions -/

/-- The variables of the node of a position.  The first three are those of the axes.  Behind them are
those of the positions in its slots, in the order of the slots, which are the last of its children. -/
structure Node.HasAxes (r : Registry) (names : List String) (n : Node) (b : Block) : Prop where
  vars : ∃ x y z nested held, n.vars = [x, y, z] ++ Outline.lent held
    ∧ n.children = nested ++ held
    ∧ List.Forall₂ (Node.Shows r) held b.shownOccupants
    ∧ (∃ slot, b.kind.AxisSlot "X" 0 slot ∧ x.IsAxis r names b.slots[slot]?)
    ∧ (∃ slot, b.kind.AxisSlot "Y" 1 slot ∧ y.IsAxis r names b.slots[slot]?)
    ∧ ∃ slot, b.kind.AxisSlot "Z" 2 slot ∧ z.IsAxis r names b.slots[slot]?
  length : n.vars.length = 3 ↔ ∀ c ∈ b.shownOccupants, c.category ≠ .pos

section

variable {r : Registry}

/-- A position has a part for each axis, by the slot that stands for the axis. -/
theorem Outline.exists_ownParts {b : Block} (hpos : b.category = .pos) :
  ∃ x y z, ownParts r b.face b.slots
      = [axisPart r b.slots[x]?, axisPart r b.slots[y]?, axisPart r b.slots[z]?]
    ∧ b.kind.AxisSlot "X" 0 x ∧ b.kind.AxisSlot "Y" 1 y ∧ b.kind.AxisSlot "Z" 2 z
  := by
  obtain ⟨x, y, z, hslots, haxes⟩ := b.kind.exists_axisSlots
  refine ⟨x, y, z, ?_, haxes⟩
  rw [Block.category] at hpos
  rw [ownParts, if_pos hpos, ← Block.kind, hslots]
  rfl

theorem Outline.length_ownParts {b : Block} (hpos : b.category = .pos) :
  (ownParts r b.face b.slots).length = 3
  := by
  obtain ⟨x, y, z, hparts, -⟩ := Outline.exists_ownParts (r := r) hpos
  rw [hparts]
  rfl

/-- Nothing is lent exactly if no position is held, as a position has variables. -/
theorem Outline.lent_eq_nil_iff {held : List Node} {bs : List Block}
    (h : List.Forall₂ (Node.Shows r) held bs) :
  Outline.lent held = [] ↔ ∀ c ∈ bs, c.category ≠ .pos
  := by
  induction h with
  | nil => simp [Outline.lent]
  | @cons n b held bs hn _ ih =>
    have hcons : Outline.lent (n :: held)
        = (if b.category = .pos then n.vars else []) ++ Outline.lent held := by
      by_cases hpos : b.category = .pos
      · have htype : n.type = Category.pos.wireName := by rw [hn.type_eq, hpos]
        simp [Outline.lent, htype, hpos]
      · have htype : n.type ≠ Category.pos.wireName := by
          intro htype
          rw [hn.type_eq] at htype
          apply hpos (Category.eq_pos_of_wireName htype)
        simp [Outline.lent, htype, hpos]
    rw [hcons, List.append_eq_nil_iff, ih, List.forall_mem_cons]
    apply and_congr_left
    intro _
    by_cases hpos : b.category = .pos
    · rw [if_pos hpos]
      cases hn with
      | intro hown hnested hheld =>
        have hlength := hown.length_eq
        rw [Outline.length_ownParts hpos] at hlength
        simp only [hpos, ne_eq, not_true_eq_false, iff_false, List.append_eq_nil_iff]
        rintro ⟨rfl, -⟩
        contradiction
    · simp [hpos]

/-- The node that is written for a position has its axes. -/
theorem Node.WrittenFor.hasAxes {name : Nat → String} {bound : Nat} {names : List String}
    (hnames : ∀ k < bound, name k ∈ names) {n : Node} {b : Block} (h : n.WrittenFor r name bound b)
    (hpos : b.category = .pos) :
  n.HasAxes r names b
  := by
  obtain ⟨next, nested, held, hfit, rfl, -, hheld⟩ := h.spec
  have hshows : List.Forall₂ (Node.Shows r) held b.shownOccupants :=
    hheld.imp fun _ _ => Node.WrittenFor.shows
  have hown : List.Forall₂ (Outline.Part.Names names) (Outline.ownParts r b.face b.slots)
      (Outline.Part.write name next (Outline.ownParts r b.face b.slots)) := by
    apply Outline.Part.forall₂_names
    intro k _ hk
    rw [Outline.Part.blanks_eq_length, Outline.filterMap_blank?_ownParts] at hk
    apply hnames k (by omega)
  have hlength : (Outline.Part.write name next (Outline.ownParts r b.face b.slots)).length = 3 := by
    rw [Outline.Part.length_write, Outline.length_ownParts hpos]
  constructor
  · obtain ⟨i, j, k, hparts, hi, hj, hk⟩ := Outline.exists_ownParts (r := r) hpos
    obtain ⟨x, y, z, hvars⟩ := List.length_eq_three.mp hlength
    rw [hvars, hparts] at hown
    obtain ⟨hx, hown⟩ := List.forall₂_cons.mp hown
    obtain ⟨hy, hown⟩ := List.forall₂_cons.mp hown
    obtain ⟨hz, -⟩ := List.forall₂_cons.mp hown
    refine ⟨x, y, z, nested, held, ?_, rfl, hshows, ⟨i, hi, hx.isAxis⟩, ⟨j, hj, hy.isAxis⟩,
      k, hk, hz.isAxis⟩
    rw [hvars]
  · rw [List.length_append, hlength, ← Outline.lent_eq_nil_iff hshows, ← List.length_eq_zero_iff]
    omega

end

/-- In a workspace of any kinds, with any registry and at any time, the node of every position has a
variable for each of the axes `X`, `Y` and `Z`, in that order, and behind these the variables of the
positions in its slots. -/
theorem Program.hasAxes_ofForest (r : Registry) (now : UInt64) (t : Forest) :
  List.Forall₂
    (fun n b => n.Shows r b ∧ (b.category = .pos → n.HasAxes r
      (Program.syntheticNames r now (Outline.blanksOfAll (Forest.outline r t))) b))
    (Program.walk (Program.ofForest r now t)) (Forest.shown t)
  := by
  apply (Program.forall₂_writtenFor r now t).imp
  intro n b hn
  use hn.shows
  apply hn.hasAxes
  intro k hk
  apply List.mem_of_getElem? (Program.getElem?_syntheticNames hk)

/-- A position in a slot of a position. -/
def Forest.stacked : Forest :=
  [⟨⟨"outer", "outer", .plain .pos [.position], "outer", none, false⟩, none,
    [.block ⟨⟨"inner", "inner", .plain .pos [], "inner", none, false⟩, none, []⟩]⟩]

/-- The node of a position that holds another one has more than three variables: it repeats those of the
other one. -/
theorem Program.six_variables_stacked :
  (Program.walk (Program.ofForest .standard 7 .stacked)).map (fun n => (n.id, n.type, n.vars.length))
      = [("outer", Category.pos.wireName, 6), ("inner", Category.pos.wireName, 3)]
    ∧ ¬ ∀ n ∈ Program.walk (Program.ofForest .standard 7 .stacked),
      n.type = Category.pos.wireName → n.vars.length = 3
  := by
  constructor
  · decide
  · intro h
    have houter := h _ (List.mem_cons_self ..) rfl
    revert houter
    decide

end BlockEditor
