import BlockEditor.Proofs.Names
import BlockEditor.Proofs.Nodes
import BlockEditor.Proofs.SyntheticName

/-!
# Values without a name

A program has a synthetic variable for each value that has no name of its own: a typed value, or an
axis that no variable with an entry is bound to.  `Block.unnamed` lists those of a block.  They are the
blanks of its outline, and the names that are written for them have consecutive numbers, in the order
of the walk.
-/

namespace BlockEditor

/-- The variable has a synthetic name for its id. -/
def Variable.isSynthetic (v : Variable) : Bool :=
  SyntheticName.isName v.id

/-- The variables of the node of a block that it has from the block on its own. -/
def Node.own (r : Registry) (n : Node) (b : Block) : List Variable :=
  n.vars.take (Outline.ownParts r b.face b.slots).length

/-- The value without a name that a slot gives: a typed one. -/
def Content.unnamed? : Content Block → Option (Option String)
  | .literal value => some (some value)
  | _ => none

/-- The value without a name that an axis gives, unless a variable with an entry is bound to it: the
typed one, and none if nothing is typed. -/
def Content.unnamedAxis? (r : Registry) : Option (Content Block) → Option (Option String)
  | some (.literal value) => some (some value)
  | some (.block b) => if b.category = .var ∧ (r.lookup? b.label).isSome then none else some none
  | _ => some none

/-- The values of the block that have no name of their own: those of its axes if it is a position, and
otherwise those of its slots. -/
def Block.unnamed (r : Registry) (b : Block) : List (Option String) :=
  if b.category = .pos then
    (Outline.axisSlots b.kind).filterMap fun i => Content.unnamedAxis? r b.slots[i]?
  else b.slots.filterMap Content.unnamed?

/-! ### Parts of an outline -/

namespace Outline

/-- The value of a blank. -/
def Part.blank? : Part → Option (Option String)
  | .bound _ _ _ => none
  | .blank value => some value

/-- Parts need as many names as there are blanks among them. -/
theorem Part.blanks_eq_length (ps : List Part) :
  Part.blanks ps = (ps.filterMap Part.blank?).length
  := by
  induction ps with
  | nil => rfl
  | cons p ps ih =>
    cases p with
    | bound id name value => apply ih
    | blank value => rw [Part.blanks, ih, List.filterMap_cons, Part.blank?, List.length_cons]

section

variable {r : Registry}

/-- What a slot binds is a variable block whose name has an entry. -/
theorem of_slotPart?_eq_bound {c : Content Block} {id name : String} {value : Option String}
    (h : slotPart? r c = some (.bound id name value)) :
  ∃ b, c = .block b ∧ b.category = .var ∧ b.id = id ∧ b.label = name
    ∧ (r.lookup? name).map Registry.Entry.value = some value
  := by
  cases c with
  | empty => contradiction
  | literal value => cases h
  | block b =>
    rw [slotPart?] at h
    split at h
    · rename_i hcategory
      obtain ⟨e, he, hpart⟩ := Option.map_eq_some_iff.mp h
      cases hpart
      use b, rfl, hcategory, rfl, rfl
      rw [he, Option.map_some]
    · contradiction

/-- The variables that a block binds are variable blocks in its slots. -/
theorem of_bound_mem_ownParts {face : Face} {slots : Slots} {id name : String}
    {value : Option String} (h : .bound id name value ∈ ownParts r face slots) :
  ∃ b, .block b ∈ slots ∧ b.category = .var ∧ b.id = id ∧ b.label = name
    ∧ (r.lookup? name).map Registry.Entry.value = some value
  := by
  have hslot : ∃ c ∈ slots, slotPart? r c = some (.bound id name value) := by
    rw [ownParts] at h
    split at h
    · obtain ⟨i, -, haxis⟩ := List.mem_map.mp h
      cases hcontent : (slots[i]?).bind (slotPart? r) with
      | none =>
        rw [axisPart, hcontent] at haxis
        contradiction
      | some part =>
        rw [axisPart, hcontent, Option.getD_some] at haxis
        subst haxis
        obtain ⟨c, hc, hpart⟩ := Option.bind_eq_some_iff.mp hcontent
        use c, List.mem_of_getElem? hc
    · apply List.mem_filterMap.mp h
  obtain ⟨c, hc, hpart⟩ := hslot
  obtain ⟨b, rfl, hb⟩ := of_slotPart?_eq_bound hpart
  use b, hc

theorem blank?_axisPart (content : Option (Content Block)) :
  (axisPart r content).blank? = Content.unnamedAxis? r content
  := by
  cases content with
  | none => rfl
  | some c =>
    cases c with
    | empty => rfl
    | literal value => rfl
    | block b =>
      by_cases hcategory : b.category = .var <;> cases hentry : r.lookup? b.label <;>
        simp [axisPart, slotPart?, bound?, Part.blank?, Content.unnamedAxis?, hcategory, hentry]

theorem blank?_slotPart? (content : Content Block) :
  (slotPart? r content).bind Part.blank? = content.unnamed?
  := by
  cases content with
  | empty => rfl
  | literal value => rfl
  | block b =>
    by_cases hcategory : b.category = .var <;> cases hentry : r.lookup? b.label <;>
      simp [slotPart?, bound?, Part.blank?, Content.unnamed?, hcategory, hentry]

/-- The blanks of a block are its values without a name. -/
theorem filterMap_blank?_ownParts (b : Block) :
  (ownParts r b.face b.slots).filterMap Part.blank? = b.unnamed r
  := by
  rw [ownParts, Block.unnamed, Block.category, Block.kind]
  split
  · rw [List.filterMap_map]
    apply List.filterMap_congr
    intro i _
    apply blank?_axisPart
  · rw [List.filterMap_filterMap]
    apply List.filterMap_congr
    intro c _
    apply blank?_slotPart?

end

/-- The slots for the axes are those that a search for the name of each axis finds, or the first three if
one of the names is not found. -/
theorem axisSlots_cases (k : Kind) :
  (∃ x y z, (k.slots.findIdx? fun s => s.name = some "X") = some x
      ∧ (k.slots.findIdx? fun s => s.name = some "Y") = some y
      ∧ (k.slots.findIdx? fun s => s.name = some "Z") = some z ∧ axisSlots k = [x, y, z])
    ∨ (∃ axis ∈ axes, (k.slots.findIdx? fun s => s.name = some axis) = none)
      ∧ axisSlots k = [0, 1, 2]
  := by
  rw [axisSlots, axes, List.mapM_cons, List.mapM_cons, List.mapM_cons, List.mapM_nil]
  cases hx : k.slots.findIdx? fun s => s.name = some "X" with
  | none => exact Or.inr ⟨⟨"X", by simp, hx⟩, rfl⟩
  | some x =>
    cases hy : k.slots.findIdx? fun s => s.name = some "Y" with
    | none => exact Or.inr ⟨⟨"Y", by simp, hy⟩, rfl⟩
    | some y =>
      cases hz : k.slots.findIdx? fun s => s.name = some "Z" with
      | none => exact Or.inr ⟨⟨"Z", by simp, hz⟩, rfl⟩
      | some z => exact Or.inl ⟨x, y, z, rfl, rfl, rfl, rfl⟩

variable {name : Nat → String}

/-- A part becomes one variable, whether it had a name or not. -/
theorem Part.length_write (next : Nat) (ps : List Part) :
  (Part.write name next ps).length = ps.length
  := (Part.forall₂_write next ps).length_eq.symm

/-- If no bound variable has a synthetic name for its id, the synthetic variables of parts are those
that are written for the blanks, with their numbers. -/
theorem Part.filter_write {next : Nat} {ps : List Part}
    (hbound : ∀ id text value, .bound id text value ∈ ps → SyntheticName.isName id = false)
    (hname : ∀ k, next ≤ k → k < next + Part.blanks ps → SyntheticName.isName (name k) = true) :
  (Part.write name next ps).filter Variable.isSynthetic
    = ((ps.filterMap Part.blank?).zipIdx next).map fun (value, k) =>
      ⟨name k, name k, Category.var.wireName, value⟩
  := by
  induction ps generalizing next with
  | nil => rfl
  | cons p ps ih =>
    have hbound' := fun id text value h => hbound id text value (List.mem_cons_of_mem _ h)
    cases p with
    | bound id text value =>
      have hid := hbound id text value (List.mem_cons_self ..)
      rw [Part.write, List.filter_cons_of_neg (by simp [Variable.isSynthetic, hid]),
        ih hbound' hname]
      rfl
    | blank value =>
      rw [Part.blanks] at hname
      have hnext := hname next (Nat.le_refl _) (by omega)
      rw [Part.write, List.filter_cons_of_pos (by rw [Variable.isSynthetic, hnext]),
        ih hbound' fun k hlo hhi => hname k (by omega) (by omega)]
      rfl

/-- Lent are the variables of the position nodes that are held. -/
theorem mem_lent {held : List Node} {v : Variable} :
  v ∈ lent held ↔ ∃ h ∈ held, h.type = Category.pos.wireName ∧ v ∈ h.vars
  := by
  simp [lent, List.mem_flatMap, List.mem_filter, and_assoc]

theorem blanksOfAll_append (os ps : List Outline) :
  blanksOfAll (os ++ ps) = blanksOfAll os + blanksOfAll ps
  := by
  induction os with
  | nil => rw [List.nil_append, blanksOfAll, Nat.zero_add]
  | cons o os ih => rw [List.cons_append, blanksOfAll, blanksOfAll, ih, Nat.add_assoc]

/-- Outlines behind others count on from the names that those took. -/
theorem writeAll_append (next : Nat) (os ps : List Outline) :
  writeAll name next (os ++ ps)
    = writeAll name next os ++ writeAll name (next + blanksOfAll os) ps
  := by
  induction os generalizing next with
  | nil => rfl
  | cons o os ih =>
    rw [List.cons_append, writeAll, writeAll, ih, blanksOfAll, Nat.add_assoc, List.cons_append]

end Outline

/-- The blocks that a block holds and that become nodes. -/
def Block.shownBeneath (b : Block) : List Block :=
  b.shownChildren ++ b.shownOccupants

section

variable {r : Registry} {name : Nat → String}

/-- The names for a block are those for its own blanks and those for the blocks shown beneath it. -/
theorem Block.blanks_outline (b : Block) :
  (b.outline r).blanks
    = (b.unnamed r).length + Outline.blanksOfAll (b.shownBeneath.map (Block.outline r))
  := by
  rw [Block.outline_eq, Outline.blanks, Outline.Part.blanks_eq_length,
    Outline.filterMap_blank?_ownParts, Block.shownBeneath, List.map_append,
    Outline.blanksOfAll_append, Nat.add_assoc]

/-- The node that is written for a block.  Those for the blocks that it holds are written one after the
other. -/
theorem Block.write_outline (r : Registry) (name : Nat → String) (b : Block) (next : Nat) :
  ∃ nested held, (b.outline r).write name next
      = ⟨b.id, b.category.wireName, b.wireText,
        Outline.Part.write name next (Outline.ownParts r b.face b.slots) ++ Outline.lent held,
        nested ++ held⟩
    ∧ nested ++ held = Outline.writeAll name (next + (b.unnamed r).length)
      (b.shownBeneath.map (Block.outline r))
  := by
  rw [Block.outline_eq, Outline.write, Outline.Part.blanks_eq_length,
    Outline.filterMap_blank?_ownParts, Block.shownBeneath, List.map_append,
    Outline.writeAll_append]
  exact ⟨_, _, rfl, rfl⟩

theorem Outline.blanksOfAll_eq_length {bs : List Block}
    (h : ∀ b ∈ bs, (b.outline r).blanks = (b.shown.flatMap (Block.unnamed r)).length) :
  Outline.blanksOfAll (bs.map (Block.outline r))
    = ((bs.flatMap Block.shown).flatMap (Block.unnamed r)).length
  := by
  induction bs with
  | nil => rfl
  | cons b bs ih =>
    obtain ⟨hb, hbs⟩ := List.forall_mem_cons.mp h
    rw [List.map_cons, Outline.blanksOfAll, hb, ih hbs, List.flatMap_cons, List.flatMap_append,
      List.length_append]

/-- What is shown beneath a block is held by it. -/
theorem Block.mem_of_mem_shownBeneath {b c : Block} (h : c ∈ b.shownBeneath) :
  c ∈ b.childList ++ b.occupants
  := by
  rcases List.mem_append.mp h with h | h
  · apply List.mem_append_left _ (List.mem_of_mem_filter h)
  · apply List.mem_append_right _ (List.mem_of_mem_filter h)

/-- The blanks are the values without a name of the blocks that become nodes. -/
theorem Block.blanks_eq_length (b : Block) :
  (b.outline r).blanks = (b.shown.flatMap (Block.unnamed r)).length
  := by
  induction b using Block.induct with
  | step b ih =>
    have hbeneath : Outline.blanksOfAll (b.shownBeneath.map (Block.outline r)) = _ :=
      Outline.blanksOfAll_eq_length fun c hc => ih c (Block.mem_of_mem_shownBeneath hc)
    rw [Block.blanks_outline, hbeneath, Block.shown_eq, List.flatMap_cons, List.length_append,
      Block.shownBeneath]

/-- A workspace needs a name for each blank of a shown block. -/
theorem Forest.blanks_eq_length (t : Forest) :
  Outline.blanksOfAll (Forest.outline r t)
    = ((Forest.shown t).flatMap (Block.unnamed r)).length
  := by
  rw [Forest.outline_eq_map, Forest.shown_eq_flatMap]
  apply Outline.blanksOfAll_eq_length
  intro b _
  apply Block.blanks_eq_length

end

/-! ### What is written for a block -/

/-- The names with numbers below the bound have the form of synthetic names, and are all
different. -/
structure SyntheticName.Numbers (name : Nat → String) (bound : Nat) : Prop where
  isName : ∀ k < bound, isName (name k) = true
  inj : ∀ j < bound, ∀ k < bound, name j = name k → j = k

theorem Block.mem_walk_of_mem_slots {b c : Block} (h : .block c ∈ b.slots) :
  c ∈ b.walk
  := by
  obtain ⟨i, hi⟩ := List.mem_iff_getElem?.mp h
  apply Block.mem_walk_of_slot hi

section

variable {r : Registry} {name : Nat → String} {bound : Nat}

/-- The node is written for the block, with names whose numbers are below the bound. -/
def Node.WrittenFor (r : Registry) (name : Nat → String) (bound : Nat) (n : Node) (b : Block) :
    Prop :=
  ∃ next, next + (b.outline r).blanks ≤ bound ∧ n = (b.outline r).write name next

/-- Outlines written one after another are nodes for their blocks, none with a name past the bound. -/
theorem Outline.forall₂_writtenFor {bs : List Block} {next : Nat}
    (hfit : next + Outline.blanksOfAll (bs.map (Block.outline r)) ≤ bound) :
  List.Forall₂ (Node.WrittenFor r name bound)
    (Outline.writeAll name next (bs.map (Block.outline r))) bs
  := by
  induction bs generalizing next with
  | nil => apply List.Forall₂.nil
  | cons b bs ih =>
    rw [List.map_cons, Outline.blanksOfAll] at hfit
    apply List.Forall₂.cons
    · use next, by omega
    · apply ih
      omega

/-- A node that is written for a block: its own variables have consecutive numbers, and its children are
written for the blocks that the block holds. -/
theorem Node.WrittenFor.spec {n : Node} {b : Block} (h : n.WrittenFor r name bound b) :
  ∃ next nested held, next + (b.unnamed r).length ≤ bound
    ∧ n = ⟨b.id, b.category.wireName, b.wireText,
      Outline.Part.write name next (Outline.ownParts r b.face b.slots) ++ Outline.lent held,
      nested ++ held⟩
    ∧ List.Forall₂ (Node.WrittenFor r name bound) nested b.shownChildren
    ∧ List.Forall₂ (Node.WrittenFor r name bound) held b.shownOccupants
  := by
  obtain ⟨next, hfit, rfl⟩ := h
  rw [Block.blanks_outline, Block.shownBeneath, List.map_append, Outline.blanksOfAll_append] at hfit
  rw [Block.outline_eq, Outline.write, Outline.Part.blanks_eq_length,
    Outline.filterMap_blank?_ownParts]
  refine ⟨next, _, _, by omega, rfl, ?_, ?_⟩
  · apply Outline.forall₂_writtenFor
    omega
  · apply Outline.forall₂_writtenFor
    omega

/-- A node written for a block shows it. -/
theorem Node.WrittenFor.shows {n : Node} {b : Block} (h : n.WrittenFor r name bound b) :
  n.Shows r b
  := by
  obtain ⟨next, -, rfl⟩ := h
  apply Block.shows_write

/-- The children of a node are written for the blocks shown beneath its block. -/
theorem Node.WrittenFor.forall₂_children {n : Node} {b : Block}
    (h : n.WrittenFor r name bound b) :
  List.Forall₂ (Node.WrittenFor r name bound) n.children b.shownBeneath
  := by
  obtain ⟨next, nested, held, -, rfl, hnested, hheld⟩ := h.spec
  apply List.rel_append hnested hheld

/-- Every node beneath a node that is written for a block is written for a block beneath it. -/
theorem Node.WrittenFor.walk {n : Node} {b : Block} (h : n.WrittenFor r name bound b) :
  List.Forall₂ (Node.WrittenFor r name bound) n.walk b.shown
  := by
  induction b using Block.induct generalizing n with
  | step b ih =>
    rw [Node.walk_eq, Block.shown_eq]
    apply List.Forall₂.cons h
    rw [Program.walk_eq_flatMap]
    apply forall₂_flatMap h.forall₂_children
    intro c hc m hm
    apply ih c (Block.mem_of_mem_shownBeneath hc) hm

theorem Node.WrittenFor.own_eq {n : Node} {b : Block} {next : Nat}
    (h : n = (b.outline r).write name next) :
  n.own r b = Outline.Part.write name next (Outline.ownParts r b.face b.slots)
  := by
  obtain ⟨nested, held, hwrite, -⟩ := b.write_outline r name next
  rw [h, hwrite, Node.own]
  apply List.take_left'
  apply Outline.Part.length_write

variable (hnumbers : SyntheticName.Numbers name bound)

include hnumbers

/-- The synthetic variables that are written for a block on its own are one for each value without a
name, with consecutive numbers. -/
theorem Block.filter_own {b : Block} (hids : ∀ c ∈ b.walk, SyntheticName.isName c.id = false)
    {next : Nat} (hfit : next + (b.unnamed r).length ≤ bound) :
  (Outline.Part.write name next (Outline.ownParts r b.face b.slots)).filter Variable.isSynthetic
    = ((b.unnamed r).zipIdx next).map fun (value, k) =>
      ⟨name k, name k, Category.var.wireName, value⟩
  := by
  rw [Outline.Part.filter_write, Outline.filterMap_blank?_ownParts]
  · intro id text value h
    obtain ⟨c, hc, -, rfl, -⟩ := Outline.of_bound_mem_ownParts h
    apply hids c (Block.mem_walk_of_mem_slots hc)
  · intro k _ hk
    rw [Outline.Part.blanks_eq_length, Outline.filterMap_blank?_ownParts] at hk
    apply hnumbers.isName k (by omega)

/-- The synthetic names among the variables of a block are the ones counted out for its blanks, in
order. -/
theorem Block.map_id_filter_own {b : Block}
    (hids : ∀ c ∈ b.walk, SyntheticName.isName c.id = false) {next : Nat}
    (hfit : next + (b.unnamed r).length ≤ bound) :
  ((Outline.Part.write name next (Outline.ownParts r b.face b.slots)).filter
      Variable.isSynthetic).map Variable.id
    = (List.range' next (b.unnamed r).length).map name
  := by
  rw [Block.filter_own hnumbers hids hfit, List.map_map, ← List.zipIdx_map_snd, List.map_map]
  rfl

end

/-! ### The names of a program -/

/-- The names that a program needs can all be given out: the search for each of them ends. -/
def Program.HasNames (r : Registry) (now : UInt64) (t : Forest) : Prop :=
  SyntheticName.HasNames now (.seeded now) r.takenNames
    (Outline.blanksOfAll (Forest.outline r t))

/-- The names are there unless many names are taken. -/
theorem Program.hasNames_of_length_le {r : Registry} (now : UInt64) {t : Forest}
    (h : 1000 * (r.takenNames.length + ((Forest.shown t).flatMap (Block.unnamed r)).length)
      ≤ 2 ^ 64) :
  Program.HasNames r now t
  := by
  apply SyntheticName.hasNames_of_length_le
  rw [Forest.blanks_eq_length]
  apply h

section

variable {r : Registry} {now : UInt64} {t : Forest}

/-- The name with the given number in a program. -/
def Program.nameAt (r : Registry) (now : UInt64) (t : Forest) (number : Nat) : String :=
  (Program.syntheticNames r now (Outline.blanksOfAll (Forest.outline r t))).getD number ""

theorem Program.length_syntheticNames (r : Registry) (now : UInt64) (count : Nat) :
  (Program.syntheticNames r now count).length = count
  := SyntheticName.length_several now (.seeded now) r.takenNames count

/-- The name at a number is the one drawn after that many others. -/
theorem Program.getElem?_syntheticNames {k : Nat}
    (hk : k < Outline.blanksOfAll (Forest.outline r t)) :
  (Program.syntheticNames r now (Outline.blanksOfAll (Forest.outline r t)))[k]?
    = some (Program.nameAt r now t k)
  := by
  have hlength := Program.length_syntheticNames r now (Outline.blanksOfAll (Forest.outline r t))
  rw [Program.nameAt, List.getD_eq_getElem?_getD, List.getElem?_eq_getElem (by omega),
    Option.getD_some]

theorem Program.isName_nameAt {k : Nat} (hk : k < Outline.blanksOfAll (Forest.outline r t)) :
  SyntheticName.isName (Program.nameAt r now t k) = true
  := SyntheticName.isName_of_mem_several (List.mem_of_getElem? (Program.getElem?_syntheticNames hk))

theorem Program.numbers_nameAt (h : Program.HasNames r now t) :
  SyntheticName.Numbers (Program.nameAt r now t) (Outline.blanksOfAll (Forest.outline r t))
  := by
  obtain ⟨hnodup, -⟩ := SyntheticName.nodup_several h
  have hlength := Program.length_syntheticNames r now (Outline.blanksOfAll (Forest.outline r t))
  constructor
  · intro k hk
    apply Program.isName_nameAt hk
  · intro j hj k hk heq
    rw [← Program.syntheticNames] at hnodup
    apply (List.getElem?_inj (by omega) hnodup).mp
    rw [Program.getElem?_syntheticNames hj, Program.getElem?_syntheticNames hk, heq]

/-- The names of a program are not taken. -/
theorem Program.nameAt_notMem (h : Program.HasNames r now t) {k : Nat}
    (hk : k < Outline.blanksOfAll (Forest.outline r t)) :
  Program.nameAt r now t k ∉ r.takenNames
  := by
  apply (SyntheticName.nodup_several h).2
  apply List.mem_of_getElem? (Program.getElem?_syntheticNames hk)

/-- No synthetic name of a program has an entry. -/
theorem Program.lookup?_nameAt (h : Program.HasNames r now t) {k : Nat}
    (hk : k < Outline.blanksOfAll (Forest.outline r t)) :
  r.lookup? (Program.nameAt r now t k) = none
  := by
  have htaken := Program.nameAt_notMem h hk
  rw [Registry.takenNames, List.mem_append, not_or] at htaken
  apply Registry.lookup?_eq_none_iff.mpr htaken.1

theorem Program.map_nameAt (r : Registry) (now : UInt64) (t : Forest) :
  (List.range' 0 (Outline.blanksOfAll (Forest.outline r t))).map (Program.nameAt r now t)
    = Program.syntheticNames r now (Outline.blanksOfAll (Forest.outline r t))
  := by
  have hlength := Program.length_syntheticNames r now (Outline.blanksOfAll (Forest.outline r t))
  apply List.ext_getElem?
  intro k
  rcases Nat.lt_or_ge k (Outline.blanksOfAll (Forest.outline r t)) with hk | hk
  · rw [Program.getElem?_syntheticNames hk, List.getElem?_map, List.getElem?_range' hk]
    simp
  · rw [List.getElem?_eq_none (by simpa using hk), List.getElem?_eq_none (by omega)]

/-- Shown blocks stand in the order of the walk. -/
theorem Forest.shown_sublist (t : Forest) :
  (Forest.shown t).Sublist (Forest.walk t)
  := by
  have hwalk : (Forest.visits [] t).map Visit.block = Forest.walk t := Forest.map_block_visits t
  rw [← Forest.map_block_filter_visits, ← hwalk]
  apply List.filter_sublist.map

theorem Program.ofForest_eq (r : Registry) (now : UInt64) (t : Forest) :
  Program.ofForest r now t = Outline.writeAll (Program.nameAt r now t) 0
    ((t.filter (Block.isShown false)).map (Block.outline r))
  := by
  rw [← Forest.outline_eq_map]
  rfl

/-- The nodes of a program are written for the shown blocks, one for one and in order. -/
theorem Program.forall₂_writtenFor (r : Registry) (now : UInt64) (t : Forest) :
  List.Forall₂ (Node.WrittenFor r (Program.nameAt r now t)
      (Outline.blanksOfAll (Forest.outline r t)))
    (Program.walk (Program.ofForest r now t)) (Forest.shown t)
  := by
  have htop : List.Forall₂ (Node.WrittenFor r (Program.nameAt r now t)
      (Outline.blanksOfAll (Forest.outline r t))) (Program.ofForest r now t)
      (t.filter (Block.isShown false)) := by
    rw [Program.ofForest_eq]
    apply Outline.forall₂_writtenFor
    rw [Nat.zero_add, Forest.outline_eq_map]
  rw [Program.walk_eq_flatMap, Forest.shown_eq_flatMap]
  apply forall₂_flatMap htop
  intro b _ n hn
  apply hn.walk

/-- In a workspace without synthetic names for ids, the nodes of a program are written for blocks
without such ids. -/
theorem Program.forall₂_plain (hids : ∀ id ∈ Forest.ids t, SyntheticName.isName id = false) :
  List.Forall₂ (fun n b => (∀ c ∈ b.walk, SyntheticName.isName c.id = false)
      ∧ n.WrittenFor r (Program.nameAt r now t) (Outline.blanksOfAll (Forest.outline r t)) b)
    (Program.walk (Program.ofForest r now t)) (Forest.shown t)
  := by
  have hplain : ∀ b ∈ Forest.shown t, ∀ c ∈ b.walk, SyntheticName.isName c.id = false := by
    intro b hb c hc
    apply hids
    apply List.mem_map_of_mem
    apply Forest.walk_subset ((Forest.shown_sublist t).subset hb) hc
  have hwritten := (Program.forall₂_writtenFor r now t).flip
  apply ((List.forall₂_and_left _ _).mpr ⟨hplain, hwritten⟩).flip

/-- The own synthetic variables of the nodes, as they are written for the values without a name. -/
theorem Program.forall₂_own (hids : ∀ id ∈ Forest.ids t, SyntheticName.isName id = false)
    (h : Program.HasNames r now t) :
  List.Forall₂ (fun n b => ∃ next, (n.own r b).filter Variable.isSynthetic
      = ((b.unnamed r).zipIdx next).map fun (value, k) =>
        ⟨Program.nameAt r now t k, Program.nameAt r now t k, Category.var.wireName, value⟩)
    (Program.walk (Program.ofForest r now t)) (Forest.shown t)
  := by
  apply (Program.forall₂_plain hids).imp
  rintro n b ⟨hb, next, hfit, hn⟩
  use next
  rw [Block.blanks_outline] at hfit
  rw [Node.WrittenFor.own_eq hn]
  apply Block.filter_own (Program.numbers_nameAt h) hb (by omega)

end

end BlockEditor
