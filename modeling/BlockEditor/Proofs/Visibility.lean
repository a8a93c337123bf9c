import BlockEditor.Proofs.Binding
import BlockEditor.Proofs.Renaming
import Mathlib.Logic.Relation

/-!
# Where an edit is seen

`Node.AgreesOff text vars` relates nodes that differ in the texts and the variables of certain nodes and in
nothing else.  An edit of a block changes what the slots or the operator of this one block say, so the outline
of the workspace differs there alone.  What is written differs in the node of the block, and in the variables
of the blocks to which positions lend: a value that is typed into a position is seen by its holder, and by the
holder of that one if it is itself a position in a slot.
-/

namespace BlockEditor

/-- The nodes agree apart from the texts of those whose ids are in `text` and the variables of those whose
ids are in `vars`; so do the nodes beneath them, one by one. -/
inductive Node.AgreesOff (text vars : String → Prop) : Node → Node → Prop where
  | intro {n n' : Node} (hid : n'.id = n.id) (htype : n'.type = n.type)
      (htext : ¬ text n.id → n'.text = n.text) (hvars : ¬ vars n.id → n'.vars = n.vars)
      (hchildren : List.Forall₂ (Node.AgreesOff text vars) n.children n'.children) :
      Node.AgreesOff text vars n n'

/-- The block with the id `i` is a position, in a slot of the block with the id `j`. -/
def Forest.Lends (t : Forest) (i j : String) : Prop :=
  ∃ h ∈ Forest.walk t, ∃ b, .block b ∈ h.slots ∧ b.category = .pos ∧ b.id = i ∧ h.id = j

/-! ### Blocks with the same outline but for texts and variables -/

/-- The blocks become nodes that differ in the texts and the variables of nodes with certain ids, before
anything is lent. -/
inductive Block.Alike (r : Registry) (text vars : String → Prop) : Block → Block → Prop where
  | intro {b b' : Block} (hid : b'.id = b.id) (hcategory : b'.category = b.category)
      (hlabel : b'.label = b.label) (hpalette : b'.palette = b.palette)
      (htext : ¬ text b.id → b'.wireText = b.wireText)
      (hown : ¬ vars b.id →
        Outline.ownParts r b'.face b'.slots = Outline.ownParts r b.face b.slots)
      (hchildren : List.Forall₂ (Block.Alike r text vars) b.shownChildren b'.shownChildren)
      (hoccupants : List.Forall₂ (Block.Alike r text vars) b.shownOccupants b'.shownOccupants) :
      Block.Alike r text vars b b'

section

variable {r : Registry} {text vars : String → Prop}

theorem Block.Alike.refl (b : Block) :
  Block.Alike r text vars b b
  := by
  induction b using Block.induct with
  | step b ih =>
    apply Block.Alike.intro rfl rfl rfl rfl (fun _ => rfl) (fun _ => rfl)
    · apply List.forall₂_same.mpr
      intro c hc
      apply ih c (List.mem_append_left _ (List.mem_of_mem_filter hc))
    · apply List.forall₂_same.mpr
      intro c hc
      apply ih c (List.mem_append_right _ (List.mem_of_mem_filter hc))

theorem Block.Alike.forall₂_refl (bs : List Block) :
  List.Forall₂ (Block.Alike r text vars) bs bs
  := List.forall₂_same.mpr fun b _ => Block.Alike.refl b

theorem Block.Alike.isShown_eq {b b' : Block} (h : Block.Alike r text vars b b') (inSlot : Bool) :
  b'.isShown inSlot = b.isShown inSlot
  := by
  obtain ⟨-, hcategory, -, hpalette, -, -, -, -⟩ := h
  rw [Block.isShown, Block.isShown, Stop.isHidden, Stop.isHidden, hcategory, hpalette]

theorem Block.Alike.slotPart?_eq {b b' : Block} (h : Block.Alike r text vars b b') :
  Outline.slotPart? r (.block b') = Outline.slotPart? r (.block b)
  := by
  obtain ⟨hid, hcategory, hlabel, -, -, -, -, -⟩ := h
  rw [Outline.slotPart?, Outline.slotPart?, Outline.bound?, Outline.bound?, hid, hcategory, hlabel]

theorem Block.Alike.forall₂_filter {bs bs' : List Block}
    (h : List.Forall₂ (Block.Alike r text vars) bs bs') (inSlot : Bool) :
  List.Forall₂ (Block.Alike r text vars) (bs.filter (Block.isShown inSlot))
    (bs'.filter (Block.isShown inSlot))
  := by
  induction h with
  | nil => apply List.Forall₂.nil
  | cons hb _ ih =>
    rw [List.filter_cons, List.filter_cons, hb.isShown_eq]
    split
    · apply List.Forall₂.cons hb ih
    · apply ih

/-- Lists that differ in one block, which is alike, are alike. -/
theorem Block.Alike.forall₂_append {b b' : Block} (h : Block.Alike r text vars b b')
    (before after : List Block) :
  List.Forall₂ (Block.Alike r text vars) (before ++ b :: after) (before ++ b' :: after)
  := by
  apply List.rel_append (Block.Alike.forall₂_refl before)
  apply List.Forall₂.cons h (Block.Alike.forall₂_refl after)

/-- The variables of a block on its own depend on what its slots add. -/
theorem Outline.ownParts_congr {cs ds : Slots} (h : cs.map (slotPart? r) = ds.map (slotPart? r))
    (face : Face) :
  ownParts r face cs = ownParts r face ds
  := by
  have hjoin : ∀ content : Option (Content Block),
      axisPart r content = (content.map (slotPart? r)).join.getD (.blank none) := by
    intro content
    cases content <;> rfl
  have haxis : ∀ i : Nat, axisPart r cs[i]? = axisPart r ds[i]? := by
    intro i
    have hget : (cs.map (slotPart? r))[i]? = (ds.map (slotPart? r))[i]? := by
      rw [h]
    rw [List.getElem?_map, List.getElem?_map] at hget
    rw [hjoin, hjoin, hget]
  have hown : cs.filterMap (slotPart? r) = ds.filterMap (slotPart? r) := by
    have hid := congrArg (List.filterMap id) h
    rw [List.filterMap_map, List.filterMap_map] at hid
    apply hid
  rw [ownParts, ownParts, hown]
  simp only [haxis]

/-- A frame around blocks that are alike. -/
theorem Frame.alike_fill (F : Frame) {b b' : Block} (h : Block.Alike r text vars b b') :
  Block.Alike r text vars (F.fill b) (F.fill b')
  := by
  cases F with
  | child face before after slots =>
    refine Block.Alike.intro rfl rfl rfl rfl (fun _ => rfl) (fun _ => rfl) ?_ ?_
    · apply Block.Alike.forall₂_filter (h.forall₂_append before after)
    · apply Block.Alike.forall₂_refl
  | slot face children before after =>
    refine Block.Alike.intro rfl rfl rfl rfl (fun _ => rfl) (fun _ => ?_) ?_ ?_
    · apply Outline.ownParts_congr
      rw [Frame.fill, Frame.fill, List.map_append, List.map_append, List.map_cons, List.map_cons,
        h.slotPart?_eq]
    · apply Block.Alike.forall₂_refl
    · apply Block.Alike.forall₂_filter
      rw [Frame.fill, Frame.fill, Block.occupants, Block.occupants, List.filterMap_append,
        List.filterMap_append]
      apply h.forall₂_append

theorem Context.alike_fill (C : Context) {b b' : Block} (h : Block.Alike r text vars b b') :
  List.Forall₂ (Block.Alike r text vars) (C.fill b) (C.fill b')
  := by
  induction C generalizing b b' with
  | top before after => apply h.forall₂_append before after
  | inside C F ih => apply ih (F.alike_fill h)

/-! ### What is written for them -/

/-- The same names are given out from both numbers on: the numbers are equal, or all names are. -/
def SyntheticName.InStep (name : Nat → String) (next next' : Nat) : Prop :=
  (∀ j k, name j = name k) ∨ next' = next

theorem SyntheticName.InStep.add {name : Nat → String} {next next' count count' : Nat}
    (h : SyntheticName.InStep name next next') (hcount : (∀ j k, name j = name k) ∨ count' = count) :
  SyntheticName.InStep name (next + count) (next' + count')
  := by
  rcases hcount with hname | rfl
  · exact .inl hname
  · apply h.imp_right
    rintro rfl
    rfl

theorem Outline.Part.write_congr {name : Nat → String} {next next' : Nat}
    (h : SyntheticName.InStep name next next') (ps : List Part) :
  Part.write name next' ps = Part.write name next ps
  := by
  rcases h with hname | rfl
  · induction ps generalizing next next' with
    | nil => rfl
    | cons p ps ih =>
      cases p with
      | bound id text value => rw [Part.write, Part.write, ih]
      | blank value => rw [Part.write, Part.write, ih, hname next' next]
  · rfl

/-- Nodes that agree lend the same variables if no position among them is excepted. -/
theorem Outline.lent_eq {held held' : List Node} (h : List.Forall₂ (Node.AgreesOff text vars) held held')
    (hno : ∀ n ∈ held, n.type = Category.pos.wireName → ¬ vars n.id) :
  Outline.lent held' = Outline.lent held
  := by
  induction h with
  | nil => rfl
  | cons hn _ ih =>
    obtain ⟨hn', hno⟩ := List.forall_mem_cons.mp hno
    obtain ⟨-, htype, -, hvars, -⟩ := hn
    have hrest := ih hno
    rw [Outline.lent] at hrest ⊢
    rw [Outline.lent, List.filter_cons, List.filter_cons, htype]
    split
    · rename_i hpos
      rw [List.flatMap_cons, List.flatMap_cons, hvars (hn' (beq_iff_eq.mp hpos)), hrest, Outline.lent]
    · rw [hrest, Outline.lent]

section

variable {name : Nat → String} {next next' : Nat}

theorem Outline.blanksOfAll_alike {bs bs' : List Block} (hbs : List.Forall₂ (Block.Alike r text vars) bs bs')
    (h : ∀ b ∈ bs, ∀ b', Block.Alike r text vars b b' → (b'.outline r).blanks = (b.outline r).blanks) :
  Outline.blanksOfAll (bs'.map (Block.outline r)) = Outline.blanksOfAll (bs.map (Block.outline r))
  := by
  induction hbs with
  | nil => rfl
  | cons hb _ ih =>
    obtain ⟨hblanks, h⟩ := List.forall_mem_cons.mp h
    rw [List.map_cons, List.map_cons, blanksOfAll, blanksOfAll, hblanks _ hb, ih h]

/-- If no variables are excepted, then there are as many blanks. -/
theorem Block.Alike.blanks_eq (hvars : ∀ id, ¬ vars id) {b b' : Block}
    (h : Block.Alike r text vars b b') :
  (b'.outline r).blanks = (b.outline r).blanks
  := by
  induction b using Block.induct generalizing b' with
  | step b ih =>
    obtain ⟨-, -, -, -, -, hown, hchildren, hoccupants⟩ := h
    rw [Block.outline_eq, Block.outline_eq, Outline.blanks, Outline.blanks, hown (hvars b.id),
      Outline.blanksOfAll_alike hchildren, Outline.blanksOfAll_alike hoccupants]
    · intro c hc _ hcc
      apply ih c (List.mem_append_right _ (List.mem_of_mem_filter hc)) hcc
    · intro c hc _ hcc
      apply ih c (List.mem_append_left _ (List.mem_of_mem_filter hc)) hcc

theorem Outline.agreesOff_writeAll (hname : (∀ j k, name j = name k) ∨ ∀ id, ¬ vars id)
    {bs bs' : List Block} (hbs : List.Forall₂ (Block.Alike r text vars) bs bs')
    (h : ∀ b ∈ bs, ∀ b', Block.Alike r text vars b b' → ∀ next next',
      SyntheticName.InStep name next next' →
      Node.AgreesOff text vars ((b.outline r).write name next) ((b'.outline r).write name next'))
    (hnext : SyntheticName.InStep name next next') :
  List.Forall₂ (Node.AgreesOff text vars) (Outline.writeAll name next (bs.map (Block.outline r)))
    (Outline.writeAll name next' (bs'.map (Block.outline r)))
  := by
  induction hbs generalizing next next' with
  | nil => apply List.Forall₂.nil
  | cons hb _ ih =>
    obtain ⟨hagrees, h⟩ := List.forall_mem_cons.mp h
    rw [List.map_cons, List.map_cons, writeAll, writeAll]
    apply List.Forall₂.cons (hagrees _ hb _ _ hnext)
    apply ih h
    apply hnext.add (hname.imp_right fun hvars => hb.blanks_eq hvars)

/-- The node of a held block has the id and the type of the block. -/
theorem Outline.of_mem_writeAll {bs : List Block} {n : Node}
    (h : n ∈ Outline.writeAll name next (bs.map (Block.outline r))) :
  ∃ b ∈ bs, n.id = b.id ∧ n.type = b.category.wireName
  := by
  have hshows : List.Forall₂ (Node.Shows r) (Outline.writeAll name next (bs.map (Block.outline r))) bs :=
    Outline.forall₂_writeAll (fun b _ next => b.shows_write next) next
  obtain ⟨b, hb, hn⟩ := (exists_of_forall₂ hshows).1 n h
  use b, hb
  cases hn
  exact ⟨rfl, rfl⟩

/-- Blocks that are alike become nodes that agree, if every block to which a position with an excepted id
lends its variables is excepted as well. -/
theorem Block.Alike.write (hname : (∀ j k, name j = name k) ∨ ∀ id, ¬ vars id) {b b' : Block}
    (h : Block.Alike r text vars b b')
    (hlends : ∀ holder ∈ b.walk, ∀ c, .block c ∈ holder.slots → c.category = .pos → vars c.id →
      vars holder.id)
    (hnext : SyntheticName.InStep name next next') :
  Node.AgreesOff text vars ((b.outline r).write name next) ((b'.outline r).write name next')
  := by
  induction b using Block.induct generalizing b' next next' with
  | step b ih =>
    obtain ⟨hid, hcategory, hlabel, hpalette, htext, hown, hchildren, hoccupants⟩ := h
    have hbeneath : ∀ c ∈ b.shownBeneath, ∀ c', Block.Alike r text vars c c' → ∀ next next',
        SyntheticName.InStep name next next' →
        Node.AgreesOff text vars ((c.outline r).write name next) ((c'.outline r).write name next') := by
      intro c hc c' hcc next next' hnext
      have hmem := Block.mem_of_mem_shownBeneath hc
      apply ih c hmem hcc _ hnext
      intro holder hholder
      apply hlends holder (Block.walk_subset_of_mem hmem hholder)
    obtain ⟨hnested, hheld⟩ := List.forall_mem_append.mp hbeneath
    have hafterOwn := hnext.add (hname.imp_right fun hvars =>
      congrArg Outline.Part.blanks (hown (hvars b.id)))
    have hafterNested := hafterOwn.add (hname.imp_right fun hvars =>
      Outline.blanksOfAll_alike hchildren fun _ _ _ hcc => hcc.blanks_eq hvars)
    have hnestedNodes := Outline.agreesOff_writeAll hname hchildren hnested hafterOwn
    have hheldNodes := Outline.agreesOff_writeAll hname hoccupants hheld hafterNested
    rw [Block.outline_eq, Block.outline_eq, Outline.write, Outline.write]
    apply Node.AgreesOff.intro
    · apply hid
    · apply congrArg Category.wireName hcategory
    · apply htext
    · intro hvars
      dsimp only
      rw [Outline.lent_eq hheldNodes, Outline.Part.write_congr hnext, hown hvars]
      intro n hn htype hn'
      obtain ⟨c, hc, hnid, hntype⟩ := Outline.of_mem_writeAll hn
      obtain ⟨hslot, -⟩ := Block.mem_slots_of_mem_shownOccupants hc
      rw [hntype] at htype
      rw [hnid] at hn'
      apply hvars (hlends b b.mem_walk_self c hslot (Category.eq_pos_of_wireName htype) hn')
    · apply List.rel_append hnestedNodes hheldNodes

end

/-! ### Programs -/

/-- The nodes of workspaces that are alike agree, whatever names are written. -/
theorem Outline.agreesOff_of_alike {name : Nat → String}
    (hname : (∀ j k, name j = name k) ∨ ∀ id, ¬ vars id) {t t' : Forest}
    (h : List.Forall₂ (Block.Alike r text vars) t t')
    (hlends : ∀ i j, Forest.Lends t i j → vars i → vars j) :
  List.Forall₂ (Node.AgreesOff text vars)
    (Outline.writeAll name 0 ((t.filter (Block.isShown false)).map (Block.outline r)))
    (Outline.writeAll name 0 ((t'.filter (Block.isShown false)).map (Block.outline r)))
  := by
  apply Outline.agreesOff_writeAll hname (Block.Alike.forall₂_filter h false) _ (.inr rfl)
  intro b hb b' hbb next next' hnext
  apply hbb.write hname _ hnext
  intro holder hholder c hc hcategory
  apply hlends
  refine ⟨holder, ?_, c, hc, hcategory, rfl, rfl⟩
  rw [Forest.walk_eq_flatMap]
  apply List.mem_flatMap.mpr ⟨b, List.mem_of_mem_filter hb, hholder⟩

/-- The program with the names of its synthetic variables erased. -/
def Program.erased (p : Program) : Program :=
  Program.rename (fun _ => "") p

/-- Workspaces that are alike have programs that agree once the synthetic names are erased. -/
theorem Program.agreesOff_erased {t t' : Forest}
    (hids : ∀ id ∈ Forest.ids t, SyntheticName.isName id = false)
    (hids' : ∀ id ∈ Forest.ids t', SyntheticName.isName id = false)
    (h : List.Forall₂ (Block.Alike r text vars) t t')
    (hlends : ∀ i j, Forest.Lends t i j → vars i → vars j) (now now' : UInt64) :
  List.Forall₂ (Node.AgreesOff text vars) (Program.erased (.ofForest r now t))
    (Program.erased (.ofForest r now' t'))
  := by
  have herased : ∀ {t : Forest} (now : UInt64),
      (∀ id ∈ Forest.ids t, SyntheticName.isName id = false) →
      Program.erased (.ofForest r now t)
        = Outline.writeAll (fun _ => "") 0 ((t.filter (Block.isShown false)).map (Block.outline r)) :=
    fun _ hids => Program.rename_ofForest hids fun _ _ => rfl
  rw [herased now hids, herased now' hids']
  apply Outline.agreesOff_of_alike (.inl fun _ _ => rfl) h hlends

/-- Workspaces that are alike and have the same variables have programs that agree at the same time. -/
theorem Program.agreesOff_ofForest (hvars : ∀ id, ¬ vars id) {t t' : Forest}
    (h : List.Forall₂ (Block.Alike r text vars) t t') (now : UInt64) :
  List.Forall₂ (Node.AgreesOff text vars) (Program.ofForest r now t) (Program.ofForest r now t')
  := by
  have hblanks : Outline.blanksOfAll (Forest.outline r t') = Outline.blanksOfAll (Forest.outline r t) := by
    rw [Forest.outline_eq_map, Forest.outline_eq_map]
    apply Outline.blanksOfAll_alike (Block.Alike.forall₂_filter h false)
    intro _ _ _ hbb
    apply hbb.blanks_eq hvars
  have hname : Program.nameAt r now t' = Program.nameAt r now t := by
    funext k
    rw [Program.nameAt, Program.nameAt, hblanks]
  rw [Program.ofForest_eq, Program.ofForest_eq, hname]
  apply Outline.agreesOff_of_alike (.inr hvars) h
  intro i j _ hi
  apply absurd hi (hvars i)

/-! ### Edits -/

/-- An edit that is accepted changes the block, which has passed the check, in its place. -/
theorem Editor.edit_of_ok {e : Editor} {id : String} {check : Block → Except EditError Unit}
    {change : Block → Block} (h : (e.edit id check change).1 = .ok ()) :
  ∃ C b, e.tree = Context.fill C b ∧ b.id = id ∧ check b = .ok ()
    ∧ (e.edit id check change).2 = e.withTree (C.fill (change b))
  := by
  rw [Editor.edit] at h ⊢
  cases hfind : Forest.find? id e.tree with
  | none =>
    rw [hfind] at h
    contradiction
  | some b =>
    obtain ⟨C, htree, rfl, hC⟩ := Forest.exists_fill hfind
    rw [hfind] at h
    dsimp only [Editor.attempt] at h ⊢
    cases hcheck : check b with
    | error reason =>
      rw [hcheck] at h
      contradiction
    | ok _ =>
      use C, b, htree, rfl, hcheck
      dsimp only
      rw [htree, Context.update?_fill_self hC]
      rfl

/-- A value in a slot changes what the block says on its own, and nothing else. -/
theorem Block.alike_setSlot {b : Block} {slot : Nat} {content content' : Content Block}
    (hslot : b.slots[slot]? = some content) (hcontent : content.block? = none)
    (hcontent' : content'.block? = none) (hvars : vars b.id) :
  Block.Alike r text vars b { b with slots := b.slots.set slot content' }
  := by
  obtain ⟨face, children, slots⟩ := b
  obtain ⟨before, after, rfl, rfl⟩ := exists_append_of_getElem? hslot
  have hoccupants : Block.occupants ⟨face, children, (before ++ content :: after).set before.length content'⟩
      = Block.occupants ⟨face, children, before ++ content :: after⟩ := by
    simp [Block.occupants, hcontent, hcontent']
  refine Block.Alike.intro rfl rfl rfl rfl (fun _ => rfl) (fun h => absurd hvars h) ?_ ?_
  · apply Block.Alike.forall₂_refl
  · rw [Block.shownOccupants, Block.shownOccupants, hoccupants]
    apply Block.Alike.forall₂_refl

/-- An operator changes the text of its block, and nothing else. -/
theorem Block.alike_operator {b : Block} (operator : Option String) (htext : text b.id) :
  Block.Alike r text vars b { b with face := { b.face with operator := operator } }
  := by
  refine Block.Alike.intro rfl rfl rfl rfl (fun h => absurd htext h) (fun _ => rfl) ?_ ?_
  · apply Block.Alike.forall₂_refl
  · apply Block.Alike.forall₂_refl

end

section

variable {catalog : Catalog} {registry : Registry} {clock : Clock} {e : Editor}

theorem Editor.agreesOff_setLiteral (h : Editor.Reaches (.new catalog registry clock) e) {id : String}
    {slot : Nat} {value : String} {e' : Editor} (hset : e.setLiteral id slot value = .ok e')
    (now now' : UInt64) :
  List.Forall₂
    (Node.AgreesOff (fun _ => False) (Relation.ReflTransGen (Forest.Lends e.tree) id))
    (Program.erased (.ofForest e.registry now e.tree))
    (Program.erased (.ofForest e'.registry now' e'.tree))
  := by
  obtain ⟨⟨_, hok⟩, rfl⟩ := accepted_eq_ok_iff.mp hset
  have hafter := h.perform (.setLiteral id slot value) trivial
  rw [Editor.perform, Editor.edited_snd] at hafter
  have hids' := hafter.isName_eq_false
  obtain ⟨C, b, htree, rfl, hcheck, hedit⟩ := Editor.edit_of_ok hok
  obtain ⟨-, content, -, -, hslot, hcontent⟩ := Editor.of_checkLiteral hcheck
  rw [Editor.typeLiteral, hedit] at hids' ⊢
  apply Program.agreesOff_erased h.isName_eq_false hids'
  · rw [htree]
    apply Context.alike_fill
    apply Block.alike_setSlot hslot hcontent (Editor.block?_typed value) .refl
  · intro i j hlends hi
    apply hi.tail hlends

theorem Editor.agreesOff_setOperator (h : Editor.Reaches (.new catalog registry clock) e) {id : String}
    {operator : Option String} {e' : Editor} (hset : e.setOperator id operator = .ok e') :
  (∀ now now', List.Forall₂ (Node.AgreesOff (fun i => i = id) (fun _ => False))
      (Program.erased (.ofForest e.registry now e.tree))
      (Program.erased (.ofForest e'.registry now' e'.tree)))
    ∧ ∀ now, List.Forall₂ (Node.AgreesOff (fun i => i = id) (fun _ => False))
      (Program.ofForest e.registry now e.tree) (Program.ofForest e'.registry now e'.tree)
  := by
  obtain ⟨⟨_, hok⟩, rfl⟩ := accepted_eq_ok_iff.mp hset
  have hafter := h.perform (.setOperator id operator) trivial
  rw [Editor.perform, Editor.edited_snd] at hafter
  have hids' := hafter.isName_eq_false
  obtain ⟨C, b, htree, rfl, -, hedit⟩ := Editor.edit_of_ok hok
  rw [Editor.selectOperator, hedit] at hids' ⊢
  have halike : List.Forall₂ (Block.Alike e.registry (fun i => i = b.id) (fun _ => False)) e.tree
      (C.fill { b with face := { b.face with operator := operator } }) := by
    rw [htree]
    apply Context.alike_fill
    apply Block.alike_operator
    rfl
  constructor
  · apply Program.agreesOff_erased h.isName_eq_false hids' halike
    intro _ _ _ hi
    apply hi
  · apply Program.agreesOff_ofForest (fun _ hi => hi) halike

/-- An edit is seen in the program only where it was made.  A typed value changes the variables of the node
of its block, and of those to which the block lends them because it is a position in a slot, through holders
that are such positions themselves.  An operator changes the text of the node of its block, also if both
programs are written at the same time and synthetic names are compared. -/
theorem Editor.agreesOff_edit (h : Editor.Reaches (.new catalog registry clock) e) :
  (∀ id slot value e', e.setLiteral id slot value = .ok e' → ∀ now now', List.Forall₂
      (Node.AgreesOff (fun _ => False) (Relation.ReflTransGen (Forest.Lends e.tree) id))
      (Program.erased (.ofForest e.registry now e.tree))
      (Program.erased (.ofForest e'.registry now' e'.tree)))
    ∧ ∀ id operator e', e.setOperator id operator = .ok e' →
      (∀ now now', List.Forall₂ (Node.AgreesOff (fun i => i = id) (fun _ => False))
          (Program.erased (.ofForest e.registry now e.tree))
          (Program.erased (.ofForest e'.registry now' e'.tree)))
        ∧ ∀ now, List.Forall₂ (Node.AgreesOff (fun i => i = id) (fun _ => False))
          (Program.ofForest e.registry now e.tree) (Program.ofForest e'.registry now e'.tree)
  := by
  constructor
  · intro id slot value e' hset
    apply Editor.agreesOff_setLiteral h hset
  · intro id operator e' hset
    apply Editor.agreesOff_setOperator h hset

end

/-- A value typed into a position shows in the move that holds it too, and an operator in its own block
alone. -/
theorem Editor.agreesOff_edit_position :
  ∃ e e₁ e₂, Editor.Reaches (.new .stock .standard (.fixed 7)) e
    ∧ e.setLiteral "block-get-p1-pos-9" 0 "5" = .ok e₁
    ∧ e.setOperator "block-if-7" (some "<") = .ok e₂
    ∧ (Program.walk e.program).map (fun n => (n.text, n.vars.map Variable.value))
      = [("if", []), ("move to position", [none, none, none]), ("p1", [none, none, none])]
    ∧ (Program.walk e₁.program).map (fun n => (n.text, n.vars.map Variable.value))
      = [("if", []), ("move to position", [some "5", none, none]), ("p1", [some "5", none, none])]
    ∧ (Program.walk e₂.program).map (fun n => (n.text, n.vars.map Variable.value))
      = [("if <", []), ("move to position", [none, none, none]), ("p1", [none, none, none])]
    ∧ List.Forall₂
      (Node.AgreesOff (fun _ => False) (Relation.ReflTransGen (Forest.Lends e.tree) "block-get-p1-pos-9"))
      (Program.erased e.program) (Program.erased e₁.program)
    ∧ List.Forall₂ (Node.AgreesOff (fun i => i = "block-if-7") (fun _ => False)) e.program e₂.program
  := by
  have hif := Editor.reaches_drop .stock .standard (.fixed 7) (.palette "block-if") .hidden
    (.workspace .zero)
  have hmove := hif.drag (.palette "block-to-pos") .hidden (.workspace .zero) (by decide)
  have hdrop := hmove.drag (.palette "block-get-p1-pos") .hidden (.slot "block-to-pos-8" 0) (by decide)
  obtain ⟨hliteral, hoperator⟩ := Editor.agreesOff_edit hdrop
  refine ⟨_, _, _, hdrop, rfl, rfl, ?_, ?_, ?_, ?_, ?_⟩
  · decide +kernel
  · decide +kernel
  · decide +kernel
  · apply hliteral "block-get-p1-pos-9" 0 "5" _ rfl 7 7
  · apply (hoperator "block-if-7" (some "<") _ rfl).2 7

end BlockEditor
