import BlockEditor.Proofs.Blanks
import BlockEditor.Proofs.Copies

/-!
# Variable blocks in programs

A variable block that a session has placed stands for a name with an entry, if the catalog has no
variables of its own.  So each variable block in a slot, or in a slot for an axis of a position, gives
the node of its holder one variable, with the id and the label of the block and the value of the entry.
-/

namespace BlockEditor

/-! ### What variable blocks stand for -/

/-- No template of the catalog is a variable. -/
def Catalog.HasNoVariables (catalog : Catalog) : Prop :=
  ∀ t ∈ catalog.templates, t.kind.category ≠ .var

/-- A variable of the palette is the template of an entry, without slots and children. -/
theorem Palette.exists_entry {catalog : Catalog} (hcatalog : catalog.HasNoVariables)
    {registry : Registry} {id : String} {template : Template}
    (h : Palette.both catalog registry id = some template)
    (hvar : template.kind.category = .var) :
  ∃ entry ∈ registry.entries, template.label = entry.name ∧ template.kind = .plain .var []
  := by
  rw [Palette.both] at h
  split at h
  · rename_i found hfound
    cases h
    apply absurd hvar (hcatalog _ (List.mem_of_find?_eq_some hfound))
  · obtain ⟨entry, hentry, rfl⟩ := Option.map_eq_some_iff.mp h
    use entry, List.mem_of_find?_eq_some hentry
    rw [Registry.Entry.template] at hvar ⊢
    cases hkind : entry.kind with
    | var => exact ⟨rfl, rfl⟩
    | position =>
      rw [hkind] at hvar
      contradiction

section

variable {catalog : Catalog} {registry : Registry} {clock : Clock} {e : Editor}

/-- A placed variable block has the name of an entry for its label, and neither slots nor children. -/
theorem Editor.Reaches.exists_entry (h : Editor.Reaches (.new catalog registry clock) e)
    (hcatalog : catalog.HasNoVariables) (harises : registry.Arises) {b : Block}
    (hb : b ∈ Forest.walk e.tree) (hvar : b.category = .var) :
  (∃ entry, e.registry.lookup? b.label = some entry) ∧ b.kind = .plain .var []
  := by
  obtain ⟨harises', hcatalog'⟩ := h.arises harises
  obtain ⟨template, htemplate, hcopy⟩ := h.copiesOf harises _ (List.mem_map_of_mem hb)
  obtain ⟨-, -, hkind, hlabel⟩ := Block.IsCopy.spec hcopy
  have hcatalog'' : e.catalog.HasNoVariables := by
    rw [hcatalog']
    apply hcatalog
  rw [Block.category, ← Block.kind, hkind] at hvar
  obtain ⟨entry, hentry, hname, hplain⟩ := Palette.exists_entry hcatalog'' htemplate hvar
  constructor
  · use entry
    rw [hlabel, hname]
    apply harises'.orderly.lookup?_of_mem hentry
  · rw [hkind, hplain]

end

theorem Block.FitsKind.slots_eq_nil {b : Block} (h : b.FitsKind) (hkind : b.kind.slots = []) :
  b.slots = []
  := by
  have hslots := h.slots
  rw [hkind] at hslots
  apply List.forall₂_nil_left_iff.mp hslots

theorem Block.FitsKind.childList_eq_nil {b : Block} (h : b.FitsKind)
    (hkind : b.kind.acceptsChildren = false) :
  b.childList = []
  := by
  have hchildren := h.children
  rw [hkind, Option.isSome_eq_false_iff, Option.isNone_iff_eq_none] at hchildren
  rw [Block.childList, hchildren]
  rfl

/-- A variable block holds nothing. -/
theorem Block.FitsKind.leaf {b : Block} (h : b.FitsKind) (hkind : b.kind = .plain .var []) :
  b.childList ++ b.occupants = []
  := by
  rw [h.childList_eq_nil (by rw [hkind]; rfl), Block.occupants,
    h.slots_eq_nil (by rw [hkind]; rfl)]
  rfl

/-! ### Blocks that become nodes -/

theorem Block.mem_occupants_iff {b c : Block} :
  c ∈ b.occupants ↔ .block c ∈ b.slots
  := by
  rw [Block.occupants, List.mem_filterMap]
  constructor
  · rintro ⟨content, hcontent, hblock⟩
    cases content with
    | empty => contradiction
    | literal value => contradiction
    | block d =>
      cases hblock
      apply hcontent
  · intro hc
    exact ⟨.block c, hc, rfl⟩

/-- A placed block becomes a node beneath its holder, unless it is a variable. -/
theorem Block.mem_shownBeneath {b c : Block} (h : c ∈ b.childList ++ b.occupants)
    (hplaced : c.palette = false) (hcategory : c.category ≠ .var) :
  c ∈ b.shownBeneath
  := by
  rcases List.mem_append.mp h with h | h
  · apply List.mem_append_left
    apply List.mem_filter.mpr ⟨h, by simp [Block.isShown, Stop.isHidden, hplaced]⟩
  · apply List.mem_append_right
    apply List.mem_filter.mpr ⟨h, by simp [Block.isShown, Stop.isHidden, hplaced, hcategory]⟩

/-- In a workspace of placed blocks in which variables hold nothing, all blocks but variables become
nodes. -/
theorem Block.mem_shown {b : Block} (hplaced : ∀ c ∈ b.walk, c.palette = false)
    (hleaf : ∀ c ∈ b.walk, c.category = .var → c.childList ++ c.occupants = []) :
  ∀ c ∈ b.walk, c.category ≠ .var → c ∈ b.shown
  := by
  induction b using Block.induct with
  | step b ih =>
    intro c hc hcategory
    rw [Block.shown_eq]
    rw [Block.walk_eq] at hc
    rcases List.mem_cons.mp hc with rfl | hc
    · apply List.mem_cons_self
    obtain ⟨d, hd, hcd⟩ := List.mem_flatMap.mp hc
    have hsubset := Block.walk_subset_of_mem hd
    have hshown := ih d hd (fun x hx => hplaced x (hsubset hx)) (fun x hx => hleaf x (hsubset hx))
      c hcd hcategory
    have hd' := hsubset d.mem_walk_self
    have hdcategory : d.category ≠ .var := by
      intro hvar
      rw [Block.walk_eq, hleaf d hd' hvar, List.flatMap_nil, List.mem_singleton] at hcd
      apply hcategory
      rw [hcd, hvar]
    apply List.mem_cons_of_mem
    apply List.mem_flatMap.mpr
    exact ⟨d, Block.mem_shownBeneath hd (hplaced d hd') hdcategory, hshown⟩

theorem Forest.mem_shown {t : Forest} (hplaced : ∀ b ∈ Forest.walk t, b.palette = false)
    (hleaf : ∀ b ∈ Forest.walk t, b.category = .var → b.childList ++ b.occupants = []) {b : Block}
    (hb : b ∈ Forest.walk t) (hcategory : b.category ≠ .var) :
  b ∈ Forest.shown t
  := by
  rw [Forest.walk_eq_flatMap] at hplaced hleaf hb
  obtain ⟨d, hd, hbd⟩ := List.mem_flatMap.mp hb
  have hsubset : ∀ x ∈ d.walk, x ∈ t.flatMap Block.walk := fun x hx => List.mem_flatMap.mpr ⟨d, hd, hx⟩
  rw [Forest.shown_eq_flatMap]
  apply List.mem_flatMap.mpr
  refine ⟨d, ?_, ?_⟩
  · apply List.mem_filter.mpr ⟨hd, _⟩
    simp [Block.isShown, Stop.isHidden, hplaced d (hsubset d d.mem_walk_self)]
  · apply Block.mem_shown (fun x hx => hplaced x (hsubset x hx)) (fun x hx => hleaf x (hsubset x hx))
      b hbd hcategory

/-! ### The variables with an id -/

namespace Outline

/-- The variable of a part, if it binds one with the given id. -/
def Part.boundTo? (id : String) : Part → Option Variable
  | .bound other name value =>
    if other = id then some ⟨id, name, Category.var.wireName, value⟩ else none
  | .blank _ => none

/-- The variables with an id that is no synthetic name are those that the parts bind to it. -/
theorem Part.filter_id_write {name : Nat → String} {id : String}
    (hid : SyntheticName.isName id = false) {next : Nat} {ps : List Part}
    (hname : ∀ k, next ≤ k → k < next + Part.blanks ps → SyntheticName.isName (name k) = true) :
  ((Part.write name next ps).filter fun v => v.id = id) = ps.filterMap (Part.boundTo? id)
  := by
  induction ps generalizing next with
  | nil => rfl
  | cons p ps ih =>
    cases p with
    | bound other text value =>
      rw [Part.write, List.filter_cons, List.filterMap_cons, Part.boundTo?, ih hname]
      by_cases hother : other = id <;> simp [hother]
    | blank value =>
      rw [Part.blanks] at hname
      have hne : name next ≠ id := by
        intro heq
        have hnext := hname next (Nat.le_refl _) (by omega)
        rw [heq, hid] at hnext
        contradiction
      rw [Part.write, List.filter_cons, List.filterMap_cons, Part.boundTo?,
        ih fun k hlo hhi => hname k (by omega) (by omega)]
      simp [hne]

section

variable {r : Registry} {id : String}

theorem boundTo?_axisPart (content : Option (Content Block)) :
  (axisPart r content).boundTo? id
    = (content.bind (slotPart? r)).bind (Part.boundTo? id)
  := by
  rw [axisPart]
  cases content.bind (slotPart? r) <;> rfl

theorem boundTo?_slotPart?_of_ne {content : Content Block}
    (h : ∀ b, content = .block b → b.id ≠ id) :
  (slotPart? r content).bind (Part.boundTo? id) = none
  := by
  cases hpart : slotPart? r content with
  | none => rfl
  | some part =>
    cases part with
    | blank value => rfl
    | bound other name value =>
      obtain ⟨b, rfl, -, rfl, -, -⟩ := of_slotPart?_eq_bound hpart
      rw [Option.bind_some, Part.boundTo?, if_neg (h b rfl)]

theorem boundTo?_slotPart? {b : Block} (hvar : b.category = .var) {entry : Registry.Entry}
    (hentry : r.lookup? b.label = some entry) :
  (slotPart? r (.block b)).bind (Part.boundTo? b.id)
    = some ⟨b.id, b.label, Category.var.wireName, entry.value⟩
  := by
  rw [slotPart?, if_pos hvar, bound?, hentry, Option.map_some, Option.bind_some, Part.boundTo?,
    if_pos rfl]

/-- The slots that stand for the axes are different ones. -/
theorem nodup_axisSlots (k : Kind) :
  (axisSlots k).Nodup
  := by
  rcases axisSlots_cases k with ⟨x, y, z, hx, hy, hz, hslots⟩ | ⟨-, hslots⟩
  · have hsame : ∀ {axis axis' : String} {i : Nat},
        (k.slots.findIdx? fun s => s.name = some axis) = some i →
        (k.slots.findIdx? fun s => s.name = some axis') = some i → axis = axis' := by
      intro axis axis' i h h'
      obtain ⟨hi, hname, -⟩ := List.findIdx?_eq_some_iff_getElem.mp h
      obtain ⟨_, hname', -⟩ := List.findIdx?_eq_some_iff_getElem.mp h'
      rw [of_decide_eq_true hname, decide_eq_true_eq, Option.some.injEq] at hname'
      apply hname'
    have hxy : x ≠ y := by
      rintro rfl
      apply absurd (hsame hx hy) (by decide)
    have hxz : x ≠ z := by
      rintro rfl
      apply absurd (hsame hx hz) (by decide)
    have hyz : y ≠ z := by
      rintro rfl
      apply absurd (hsame hy hz) (by decide)
    simp [hslots, hxy, hxz, hyz]
  · simp [hslots]

end

end Outline

/-! ### Variables of a holder -/

/-- A search that only one element of a list answers gives that answer. -/
theorem filterMap_eq_singleton {α β : Type} {f : α → Option β} {before after : List α} {x : α} {y : β}
    (hx : f x = some y) (hothers : ∀ z, z ∈ before ∨ z ∈ after → f z = none) :
  (before ++ x :: after).filterMap f = [y]
  := by
  have hbefore := List.filterMap_eq_nil_iff.mpr fun z hz => hothers z (Or.inl hz)
  have hafter := List.filterMap_eq_nil_iff.mpr fun z hz => hothers z (Or.inr hz)
  rw [List.filterMap_append, List.filterMap_cons_some hx, hbefore, hafter, List.nil_append]

/-- At every other position there is another element. -/
theorem mem_of_getElem?_append {α : Type} {before after : List α} {x y : α} {i : Nat}
    (h : (before ++ x :: after)[i]? = some y) (hi : i ≠ before.length) :
  y ∈ before ∨ y ∈ after
  := by
  rcases Nat.lt_or_ge i before.length with hlt | hge
  · rw [List.getElem?_append_left hlt] at h
    apply Or.inl (List.mem_of_getElem? h)
  · obtain ⟨k, hk⟩ : ∃ k, i - before.length = k + 1 := ⟨i - before.length - 1, by omega⟩
    rw [List.getElem?_append_right hge, hk, List.getElem?_cons_succ] at h
    apply Or.inr (List.mem_of_getElem? h)

theorem Slots.ids_subset_of_mem {cs : Slots} {b : Block} (h : .block b ∈ cs) :
  b.ids ⊆ Slots.ids cs
  := by
  obtain ⟨before, after, rfl⟩ := List.append_of_mem h
  intro id hid
  rw [Slots.ids_append, Slots.ids_block]
  simp [hid]

/-- Where all ids are different, the id of the block in a slot is not met in the other slots. -/
theorem Block.notMem_ids_of_slot {face : Face} {children : Option Forest} {before after : Slots}
    {v b : Block} (hids : (Block.mk face children (before ++ .block v :: after)).ids.Nodup)
    (hb : .block b ∈ before ∨ .block b ∈ after) :
  v.id ∉ b.ids
  := by
  rw [Block.ids_mk, List.nodup_cons] at hids
  have hslots := (List.nodup_append.mp hids.2).2.1
  rw [Slots.ids_append, Slots.ids_block] at hslots
  obtain ⟨-, hright, hleft⟩ := List.nodup_append.mp hslots
  intro hv
  rcases hb with hb | hb
  · apply hleft _ (Slots.ids_subset_of_mem hb hv) v.id
      (List.mem_append_left _ v.id_mem_ids) rfl
  · apply (List.nodup_append.mp hright).2.2 v.id v.id_mem_ids v.id
      (Slots.ids_subset_of_mem hb hv) rfl

/-- No other slot binds a variable to the id of the block in a slot. -/
theorem Block.boundTo?_of_other_slot {r : Registry} {face : Face} {children : Option Forest}
    {before after : Slots} {v : Block} {c : Content Block}
    (hids : (Block.mk face children (before ++ .block v :: after)).ids.Nodup)
    (hc : c ∈ before ∨ c ∈ after) :
  (Outline.slotPart? r c).bind (Outline.Part.boundTo? v.id) = none
  := by
  apply Outline.boundTo?_slotPart?_of_ne
  rintro b rfl hid
  apply Block.notMem_ids_of_slot hids hc
  rw [← hid]
  apply b.id_mem_ids

section

variable {r : Registry} {holder v : Block} {i : Nat} {entry : Registry.Entry}

/-- Among the variables that a block binds, those with the id of a variable block in one of its slots
are the one for that block. -/
theorem Block.filterMap_boundTo? (hids : holder.ids.Nodup)
    (hslot : holder.slots[i]? = some (.block v)) (hvar : v.category = .var)
    (haxis : holder.category = .pos → i ∈ Outline.axisSlots holder.kind)
    (hentry : r.lookup? v.label = some entry) :
  (Outline.ownParts r holder.face holder.slots).filterMap (Outline.Part.boundTo? v.id)
    = [⟨v.id, v.label, Category.var.wireName, entry.value⟩]
  := by
  obtain ⟨face, children, slots⟩ := holder
  obtain ⟨before, after, rfl, rfl⟩ := exists_append_of_getElem? hslot
  have hpart := Outline.boundTo?_slotPart? hvar hentry
  rw [Outline.ownParts]
  split
  · rename_i hpos
    have hmem := haxis hpos
    have hnodup := Outline.nodup_axisSlots face.kind
    obtain ⟨earlier, later, hsplit⟩ := List.append_of_mem hmem
    dsimp only [Block.kind] at hsplit
    rw [List.filterMap_map, hsplit]
    rw [hsplit, List.nodup_middle, List.nodup_cons] at hnodup
    apply filterMap_eq_singleton
    · rw [Function.comp, Outline.boundTo?_axisPart, hslot]
      apply hpart
    · intro j hj
      rw [Function.comp, Outline.boundTo?_axisPart]
      cases hcontent : (before ++ .block v :: after)[j]? with
      | none => rfl
      | some c =>
        apply Block.boundTo?_of_other_slot hids
        apply mem_of_getElem?_append hcontent
        rintro rfl
        apply hnodup.1 (List.mem_append.mpr hj)
  · rw [List.filterMap_filterMap]
    apply filterMap_eq_singleton
    · apply hpart
    · intro c hc
      apply Block.boundTo?_of_other_slot hids hc

end

section

variable {r : Registry} {name : Nat → String} {bound : Nat}

/-- An element that a list has for each element of another one. -/
theorem exists_of_forall₂ {α β : Type} {R : α → β → Prop} {xs : List α} {ys : List β}
    (h : List.Forall₂ R xs ys) :
  (∀ x ∈ xs, ∃ y ∈ ys, R x y) ∧ ∀ y ∈ ys, ∃ x ∈ xs, R x y
  := by
  induction h with
  | nil => simp
  | cons hxy _ ih =>
    simp only [List.forall_mem_cons, List.exists_mem_cons_iff]
    exact ⟨⟨Or.inl hxy, fun x hx => Or.inr (ih.1 x hx)⟩, ⟨Or.inl hxy, fun y hy => Or.inr (ih.2 y hy)⟩⟩

/-- What is written for a block on its own and has an id that is no synthetic name. -/
theorem Block.filter_id_write (hname : ∀ k < bound, SyntheticName.isName (name k) = true) {b : Block}
    {next : Nat} (hfit : next + (b.unnamed r).length ≤ bound) {id : String}
    (hid : SyntheticName.isName id = false) :
  ((Outline.Part.write name next (Outline.ownParts r b.face b.slots)).filter fun x => x.id = id)
    = (Outline.ownParts r b.face b.slots).filterMap (Outline.Part.boundTo? id)
  := by
  apply Outline.Part.filter_id_write hid
  intro k _ hk
  rw [Outline.Part.blanks_eq_length, Outline.filterMap_blank?_ownParts] at hk
  apply hname k (by omega)

theorem Outline.isSynthetic_or_mem_write (hname : ∀ k < bound, SyntheticName.isName (name k) = true)
    {b : Block} {next : Nat} (hfit : next + (b.unnamed r).length ≤ bound) {x : Variable}
    (hx : x ∈ Outline.Part.write name next (Outline.ownParts r b.face b.slots)) :
  x.isSynthetic = true ∨ x.id ∈ Slots.ids b.slots
  := by
  cases hsynthetic : SyntheticName.isName x.id with
  | true => apply Or.inl hsynthetic
  | false =>
    apply Or.inr
    have hfilter : x ∈ (Outline.Part.write name next (Outline.ownParts r b.face b.slots)).filter
        fun v => v.id = x.id := List.mem_filter.mpr ⟨hx, decide_eq_true rfl⟩
    rw [Block.filter_id_write hname hfit hsynthetic] at hfilter
    obtain ⟨part, hpart, hbound⟩ := List.mem_filterMap.mp hfilter
    cases part with
    | blank value => contradiction
    | bound other text value =>
      obtain ⟨c, hc, -, rfl, -, -⟩ := Outline.of_bound_mem_ownParts hpart
      rw [Outline.Part.boundTo?] at hbound
      split at hbound
      · rename_i hid
        rw [← hid]
        apply Slots.ids_subset_of_mem hc c.id_mem_ids
      · contradiction

theorem Block.mem_slots_of_mem_shownOccupants {b c : Block} (h : c ∈ b.shownOccupants) :
  .block c ∈ b.slots ∧ c.category ≠ .var
  := by
  obtain ⟨hc, hshown⟩ := List.mem_filter.mp h
  use Block.mem_occupants_iff.mp hc
  intro hvar
  simp [Block.isShown, Stop.isHidden, hvar] at hshown

/-- The ids of the variables of a node are synthetic, or those of blocks in or beneath the slots. -/
theorem Node.WrittenFor.isSynthetic_or_mem
    (hname : ∀ k < bound, SyntheticName.isName (name k) = true) {n : Node} {b : Block}
    (h : n.WrittenFor r name bound b) :
  ∀ x ∈ n.vars, x.isSynthetic = true ∨ x.id ∈ Slots.ids b.slots
  := by
  induction b using Block.induct generalizing n with
  | step b ih =>
    obtain ⟨next, nested, held, hfit, rfl, -, hheld⟩ := h.spec
    intro x hx
    rcases List.mem_append.mp hx with hx | hx
    · apply Outline.isSynthetic_or_mem_write hname hfit hx
    · obtain ⟨m, hm, -, hx⟩ := Outline.mem_lent.mp hx
      obtain ⟨c, hc, hwritten⟩ := (exists_of_forall₂ hheld).1 m hm
      obtain ⟨hslot, -⟩ := Block.mem_slots_of_mem_shownOccupants hc
      have hmem := Block.mem_of_mem_shownBeneath (List.mem_append_right _ hc)
      apply (ih c hmem hwritten x hx).imp_right
      intro hid
      apply Slots.ids_subset_of_mem hslot
      obtain ⟨face, children, slots⟩ := c
      rw [Block.ids_mk]
      apply List.mem_cons_of_mem _ (List.mem_append_right _ hid)

/-- The node of a block has one variable for a variable block in one of its slots. -/
theorem Node.WrittenFor.filter_id_vars
    (hname : ∀ k < bound, SyntheticName.isName (name k) = true) {n : Node} {holder v : Block}
    (h : n.WrittenFor r name bound holder) (hids : holder.ids.Nodup)
    (hid : SyntheticName.isName v.id = false) {i : Nat}
    (hslot : holder.slots[i]? = some (.block v)) (hvar : v.category = .var)
    (haxis : holder.category = .pos → i ∈ Outline.axisSlots holder.kind) {entry : Registry.Entry}
    (hentry : r.lookup? v.label = some entry) :
  (n.vars.filter fun x => x.id = v.id) = [⟨v.id, v.label, Category.var.wireName, entry.value⟩]
  := by
  obtain ⟨next, nested, held, hfit, rfl, -, hheld⟩ := h.spec
  have hlent : ((Outline.lent held).filter fun x => x.id = v.id) = [] := by
    apply List.filter_eq_nil_iff.mpr
    intro x hx hxid
    obtain ⟨m, hm, -, hx⟩ := Outline.mem_lent.mp hx
    obtain ⟨c, hc, hwritten⟩ := (exists_of_forall₂ hheld).1 m hm
    obtain ⟨hcslot, hcategory⟩ := Block.mem_slots_of_mem_shownOccupants hc
    have hxid' := of_decide_eq_true hxid
    rcases hwritten.isSynthetic_or_mem hname x hx with hsynthetic | hmem
    · rw [Variable.isSynthetic, hxid', hid] at hsynthetic
      contradiction
    · obtain ⟨face, children, slots⟩ := holder
      obtain ⟨before, after, rfl, rfl⟩ := exists_append_of_getElem? hslot
      have hother : .block c ∈ before ∨ .block c ∈ after := by
        rcases List.mem_append.mp hcslot with hc | hc
        · apply Or.inl hc
        · apply Or.inr ((List.mem_cons.mp hc).resolve_left _)
          rintro ⟨⟩
          apply hcategory hvar
      apply Block.notMem_ids_of_slot hids hother
      rw [← hxid']
      obtain ⟨face', children', slots'⟩ := c
      rw [Block.ids_mk]
      apply List.mem_cons_of_mem _ (List.mem_append_right _ hmem)
  rw [List.filter_append, hlent, List.append_nil, Block.filter_id_write hname hfit hid,
    Block.filterMap_boundTo? hids hslot hvar haxis hentry]

end

/-! ### The node of a holder -/

/-- In a list with different keys, one element has the key of an element. -/
theorem filter_key_of_mem {α : Type} {key : α → String} {xs : List α} (h : (xs.map key).Nodup) {x : α}
    (hx : x ∈ xs) :
  (xs.filter fun y => key y = key x) = [x]
  := by
  obtain ⟨before, after, rfl⟩ := List.append_of_mem hx
  rw [List.map_append, List.map_cons, List.nodup_middle, List.nodup_cons, ← List.map_append] at h
  have hothers : ∀ y ∈ before ++ after, ¬ decide (key y = key x) = true := by
    intro y hy hkey
    apply h.1
    rw [← of_decide_eq_true hkey]
    apply List.mem_map_of_mem hy
  obtain ⟨hbefore, hafter⟩ := List.forall_mem_append.mp hothers
  rw [List.filter_append, List.filter_cons_of_pos (by rw [decide_eq_true_eq]),
    List.filter_eq_nil_iff.mpr hbefore, List.filter_eq_nil_iff.mpr hafter, List.nil_append]

/-- In a workspace with different ids, those in the tree of a block are different. -/
theorem Forest.nodup_ids_of_mem {t : Forest} (hids : (Forest.ids t).Nodup) {b : Block}
    (hb : b ∈ Forest.walk t) :
  b.ids.Nodup
  := by
  obtain ⟨C, rfl, -, -⟩ := Forest.exists_fill (Forest.find?_of_mem_walk hids hb)
  rw [Context.ids_fill] at hids
  apply (List.nodup_append.mp (List.nodup_append.mp hids).1).2.1

/-- In a workspace with different ids, a block that becomes a node is shown by one node. -/
theorem Program.exists_node (r : Registry) (now : UInt64) {t : Forest} (hids : (Forest.ids t).Nodup)
    {b : Block} (hb : b ∈ Forest.shown t) :
  ∃ n, ((Program.walk (Program.ofForest r now t)).filter fun m => m.id = b.id) = [n]
    ∧ n.WrittenFor r (Program.nameAt r now t) (Outline.blanksOfAll (Forest.outline r t)) b
  := by
  obtain ⟨n, hn, hwritten⟩ := (exists_of_forall₂ (Program.forall₂_writtenFor r now t)).2 b hb
  have hid := hwritten.shows.id_eq
  have hnodes : ((Program.walk (Program.ofForest r now t)).map Node.id).Nodup := by
    rw [Program.map_id_walk]
    apply ((Forest.shown_sublist t).map Block.id).nodup hids
  refine ⟨n, ?_, hwritten⟩
  rw [← hid]
  apply filter_key_of_mem hnodes hn

/-- All blocks that a session has placed become nodes, but variables need not. -/
theorem Editor.Reaches.mem_shown {catalog : Catalog} {registry : Registry} {clock : Clock}
    {e : Editor} (h : Editor.Reaches (.new catalog registry clock) e)
    (hcatalog : catalog.HasNoVariables) (harises : registry.Arises) {b : Block}
    (hb : b ∈ Forest.walk e.tree) (hcategory : b.category ≠ .var) :
  b ∈ Forest.shown e.tree
  := by
  have hsound := (h.valid Forest.valid_nil).sound
  apply Forest.mem_shown (fun c hc => (hsound c hc).placed) _ hb hcategory
  intro c hc hvar
  apply (hsound c hc).leaf (h.exists_entry hcatalog harises hc hvar).2

/-- A block that holds another one is no variable. -/
theorem Editor.Reaches.category_ne_var {catalog : Catalog} {registry : Registry} {clock : Clock}
    {e : Editor} (h : Editor.Reaches (.new catalog registry clock) e)
    (hcatalog : catalog.HasNoVariables) (harises : registry.Arises) {holder c : Block}
    (hholder : holder ∈ Forest.walk e.tree) (hc : .block c ∈ holder.slots) :
  holder.category ≠ .var
  := by
  intro hvar
  have hkind := (h.exists_entry hcatalog harises hholder hvar).2
  have hslots := ((h.valid Forest.valid_nil).sound holder hholder).slots_eq_nil (by rw [hkind]; rfl)
  rw [hslots] at hc
  cases hc

/-- The node of the holder has one variable for the variable block, with the id and the label of the
block and the value of the entry for that label. -/
def Program.Binds (r : Registry) (p : Program) (holder v : Block) : Prop :=
  ∃ n entry, ((Program.walk p).filter fun m => m.id = holder.id) = [n]
    ∧ r.lookup? v.label = some entry
    ∧ (n.vars.filter fun x => x.id = v.id)
      = [⟨v.id, v.label, Category.var.wireName, entry.value⟩]

/-- Every variable block that a session has placed stands for an entry, and the program has a variable
for it wherever its holder asks for one. -/
theorem Editor.variables_bound {catalog : Catalog} {registry : Registry} {clock : Clock} {e : Editor}
    (h : Editor.Reaches (.new catalog registry clock) e) (hcatalog : catalog.HasNoVariables)
    (harises : registry.Arises) :
  (∀ b ∈ Forest.walk e.tree, b.category = .var →
      ∃ entry, e.registry.lookup? b.label = some entry)
    ∧ ∀ (now : UInt64) {holder v : Block} {i : Nat}, holder ∈ Forest.walk e.tree →
      holder.slots[i]? = some (.block v) → v.category = .var →
      (holder.category = .pos → i ∈ Outline.axisSlots holder.kind) →
      Program.Binds e.registry (Program.ofForest e.registry now e.tree) holder v
  := by
  have ht := h.valid Forest.valid_nil
  constructor
  · intro b hb hvar
    apply (h.exists_entry hcatalog harises hb hvar).1
  · intro now holder v i hholder hslot hvar haxis
    have hv : v ∈ holder.walk := Block.mem_walk_of_slot hslot
    have hmem := Forest.walk_subset hholder hv
    obtain ⟨⟨entry, hentry⟩, -⟩ := h.exists_entry hcatalog harises hmem hvar
    have hcategory := h.category_ne_var hcatalog harises hholder (List.mem_of_getElem? hslot)
    have hshown := h.mem_shown hcatalog harises hholder hcategory
    have hids := Forest.nodup_ids_of_mem ht.nodup hholder
    obtain ⟨n, hnode, hwritten⟩ := Program.exists_node e.registry now ht.nodup hshown
    have hid : SyntheticName.isName v.id = false :=
      h.isName_eq_false v.id (List.mem_map_of_mem hmem)
    use n, entry, hnode, hentry
    apply hwritten.filter_id_vars (fun k hk => Program.isName_nameAt hk) hids hid hslot hvar haxis
      hentry

/-- A variable in the slot of a loop, whose name was a position before. -/
theorem Editor.variables_bound_repeat :
  ∃ e holder v, Editor.Reaches (.new .stock .standard (.fixed 0)) e ∧ e.tree = [holder]
    ∧ holder.slots = [.block v] ∧ v.id = "block-get-speed-pos-1"
    ∧ e.registry.lookup? "speed"
      = some ⟨"speed", some "3", "block-get-speed-pos", .var, false⟩
    ∧ Program.Binds e.registry (Program.ofForest e.registry 9 e.tree) holder v
  := by
  have hrepeat := Editor.reaches_drop .stock .standard (.fixed 0) (.palette "block-repeat") .hidden
    (.workspace .zero)
  have hposition := hrepeat.perform (.addPosition "speed") trivial
  have hremove := hposition.perform (.removeName "speed") trivial
  have hname := hremove.perform (.addVariable "speed") trivial
  have hdrop := hname.drag (.palette "block-get-speed-pos") .hidden (.slot "block-repeat-0" 0)
    (by decide)
  have hvalue := hdrop.perform (.setVariableValue "speed" "3") trivial
  have hbound := Editor.variables_bound hvalue (by unfold Catalog.HasNoVariables; decide)
    (.ofConfig .standard)
  refine ⟨_, _, _, hvalue, rfl, rfl, rfl, rfl, ?_⟩
  apply hbound.2 9 (i := 0)
  · apply Block.mem_walk_self
  · rfl
  · rfl
  · intro hpos
    contradiction

end BlockEditor
