import BlockEditor.Proofs.Names
import BlockEditor.Proofs.Sessions
import BlockEditor.Proofs.SyntheticName

/-!
# Placed blocks are copies of templates

No command changes the id, the template, the kind or the label of a placed block, and every new block
has them from a template of the palette.  So the blocks of a workspace that a session leads to are
copies of templates.  The removal of a name takes all copies of its template out of the workspace, so
the templates are those of the palette as it is, if the registry is one that operations lead to.
-/

namespace BlockEditor

/-- A face without what commands change. -/
def Face.bare (f : Face) : Face :=
  { f with operator := none, palette := false }

/-- The face is the one of a new block of the template. -/
def Face.IsCopy (f : Face) (template : Template) : Prop :=
  ∃ stamp, f = (template.instantiate (InstanceId.make template.id stamp)).face

/-- The block was made from the template. -/
def Block.IsCopy (b : Block) (template : Template) : Prop :=
  b.face.bare.IsCopy template

theorem Block.IsCopy.spec {b : Block} {template : Template} (h : b.IsCopy template) :
  (∃ stamp, b.id = InstanceId.make template.id stamp) ∧ b.templateId = template.id
    ∧ b.kind = template.kind ∧ b.label = template.label
  := by
  obtain ⟨stamp, hface⟩ := h
  exact ⟨⟨stamp, congrArg Face.id hface⟩, congrArg Face.templateId hface,
    congrArg Face.kind hface, congrArg Face.label hface⟩

/-! ### The faces of a workspace -/

/-- The faces of a block and of all blocks beneath it, without what commands change. -/
def Block.bares (b : Block) : List Face :=
  b.walk.map fun c => c.face.bare

/-- The faces of all blocks of a workspace, without what commands change. -/
def Forest.bares (t : Forest) : List Face :=
  (Forest.walk t).map fun c => c.face.bare

/-- The faces of all blocks in and beneath slots, without what commands change. -/
def Slots.bares (cs : Slots) : List Face :=
  (Slots.walk cs).map fun c => c.face.bare

@[simp]
theorem Block.bares_mk (face : Face) (children : Option Forest) (slots : Slots) :
  (Block.mk face children slots).bares
    = face.bare :: (Forest.bares (children.getD []) ++ Slots.bares slots)
  := by
  simp only [Block.bares, Forest.bares, Slots.bares, Block.walk_mk, List.map_cons, List.map_append]

@[simp]
theorem Forest.bares_nil :
  Forest.bares [] = []
  := rfl

@[simp]
theorem Forest.bares_cons (b : Block) (bs : Forest) :
  Forest.bares (b :: bs) = b.bares ++ Forest.bares bs
  := by
  simp only [Block.bares, Forest.bares, Forest.walk_cons, List.map_append]

@[simp]
theorem Forest.bares_append (s t : Forest) :
  Forest.bares (s ++ t) = Forest.bares s ++ Forest.bares t
  := by
  simp only [Forest.bares, Forest.walk_append, List.map_append]

@[simp]
theorem Slots.bares_empty (cs : Slots) :
  Slots.bares (.empty :: cs) = Slots.bares cs
  := rfl

@[simp]
theorem Slots.bares_block (b : Block) (cs : Slots) :
  Slots.bares (.block b :: cs) = b.bares ++ Slots.bares cs
  := by
  simp only [Block.bares, Slots.bares, Slots.walk_block, List.map_append]

theorem Slots.bares_cons (content : Content Block) (cs : Slots) :
  Slots.bares (content :: cs) = Forest.bares content.block?.toList ++ Slots.bares cs
  := by
  cases content with
  | empty => rfl
  | literal value => rfl
  | block b => simp [Content.block?]

@[simp]
theorem Slots.bares_append (cs ds : Slots) :
  Slots.bares (cs ++ ds) = Slots.bares cs ++ Slots.bares ds
  := by
  simp only [Slots.bares, Slots.walk_append, List.map_append]

/-- Removal brings in no face. -/
theorem Forest.bares_prune_subset (gone : Face → Bool) (t : Forest) :
  Forest.bares (Forest.prune gone t) ⊆ Forest.bares t
  := by
  intro f hf
  obtain ⟨b, hb, rfl⟩ := List.mem_map.mp hf
  obtain ⟨c, hc, rfl⟩ := Forest.mem_walk_prune hb
  rw [Block.face_prune]
  apply List.mem_map_of_mem hc

/-- The faces beneath a block of the tree are faces of the tree. -/
theorem Block.bares_subset_of_mem_walk {t : Forest} {b : Block} (h : b ∈ Forest.walk t) :
  b.bares ⊆ Forest.bares t
  := List.map_subset _ (Forest.walk_subset h)

/-- The faces of a filled frame are those of the block and those of the frame. -/
theorem Frame.mem_bares_fill (F : Frame) (b : Block) (f : Face) :
  f ∈ (F.fill b).bares ↔ f ∈ b.bares ∨ f ∈ F.clear.bares
  := by
  cases F <;> simp [Frame.fill, Frame.clear] <;> tauto

/-- Filling a place adds the faces of the block. -/
theorem Context.mem_bares_fill (C : Context) (b : Block) (f : Face) :
  f ∈ Forest.bares (C.fill b) ↔ f ∈ b.bares ∨ f ∈ Forest.bares C.clear
  := by
  induction C generalizing b with
  | top before after =>
    simp only [Context.fill, Context.clear, Forest.bares_append, Forest.bares_cons, List.mem_append]
    tauto
  | inside C F ih => rw [Context.fill, Context.clear, ih, ih, Frame.mem_bares_fill, or_assoc]

/-- What a block with fewer faces leaves when it takes the place of another one. -/
theorem Context.bares_replace_subset (C : Context) {b c : Block} (h : c.bares ⊆ b.bares) :
  Forest.bares (C.fill c) ⊆ Forest.bares (C.fill b)
  := by
  intro f hf
  rw [Context.mem_bares_fill] at hf ⊢
  apply hf.imp_left
  intro hc
  apply h hc

/-! ### Drops -/

section

variable {c : Canvas} {carried : Carried}

/-- What is brought has the faces of placed blocks, or is a copy of the template that is carried. -/
theorem Canvas.bares_brought (hplaced : carried.IsPlaced c.tree) {f : Face}
    (hf : f ∈ (c.brought carried).bares) :
  f ∈ Forest.bares c.tree ∨ ∃ template, carried = .fresh template ∧ f.IsCopy template
  := by
  cases carried with
  | existing b =>
    apply Or.inl
    apply Block.bares_subset_of_mem_walk (Forest.mem_walk_of_find? hplaced) hf
  | fresh template =>
    rw [Canvas.brought, Block.bares, Template.walk_instantiate, List.map_singleton,
      List.mem_singleton] at hf
    exact Or.inr ⟨template, rfl, _, hf⟩

/-- What a drop leaves behind has no face that was not there. -/
theorem Carried.bares_rest_subset (carried : Carried) (t : Forest) :
  Forest.bares (carried.rest t) ⊆ Forest.bares t
  := by
  rw [Carried.rest_eq_prune]
  apply Forest.bares_prune_subset

/-- What a gesture brings has the faces of placed blocks, or is a copy of a template of the palette. -/
theorem Canvas.bares_brought_of_carry {palette : Palette} {source : Source}
    (hcarry : Plan.carry c.tree palette source = .ok carried) {f : Face}
    (hf : f ∈ (c.brought carried).bares) :
  f ∈ Forest.bares c.tree ∨ ∃ id template, palette id = some template ∧ f.IsCopy template
  := by
  apply (Canvas.bares_brought (Plan.isPlaced_of_carry hcarry) hf).imp_right
  rintro ⟨template, rfl, hcopy⟩
  cases source with
  | workspace id =>
    rw [Plan.carry] at hcarry
    split at hcarry <;> cases hcarry
  | palette id =>
    rw [Plan.carry] at hcarry
    split at hcarry
    · rename_i htemplate
      cases hcarry
      exact ⟨id, template, htemplate, hcopy⟩
    · contradiction

/-- The faces of a block are those of what is in a slot and those of the block without it. -/
theorem Block.mem_bares_slot {face : Face} {children : Option Forest} {before after : Slots}
    (content : Content Block) (f : Face) :
  f ∈ (Block.mk face children (before ++ content :: after)).bares
    ↔ f ∈ Forest.bares content.block?.toList
      ∨ f ∈ (Block.mk face children (before ++ .empty :: after)).bares
  := by
  rw [Block.bares_mk, Block.bares_mk, Slots.bares_append, Slots.bares_append, Slots.bares_cons,
    Slots.bares_empty]
  simp only [List.mem_cons, List.mem_append]
  tauto

/-- Whatever a drop comes to, a face is one of before or of what the drop brings. -/
theorem Canvas.Drops.mem_bares {palette : Palette} {source : Source} {plan : Plan}
    {outcome : Outcome} {t : Forest} (h : c.Drops palette source plan outcome t) {f : Face}
    (hf : f ∈ Forest.bares t) :
  f ∈ Forest.bares c.tree ∨ ∃ carried, plan.carried? = some carried
    ∧ Plan.carry c.tree palette source = .ok carried ∧ f ∈ (c.brought carried).bares
  := by
  cases h with
  | ignore => apply Or.inl hf
  | delete => apply Or.inl (Forest.bares_prune_subset _ _ hf)
  | @insert carried container a before after C hcarry hclear hlocation hsequence hmarks =>
    rcases (Context.mem_bares_fill C _ f).mp hf with hmem | hmem
    · exact Or.inr ⟨carried, rfl, hcarry, hmem⟩
    · apply Or.inl
      rw [hclear] at hmem
      apply Carried.bares_rest_subset _ _ hmem
  | @slot carried face children before after h held content spec C hcarry hholder hheld hcontent
      hrest hspec haccepts =>
    have hsubset := Carried.bares_rest_subset carried c.tree
    rw [hrest] at hsubset
    rcases List.mem_append.mp (Forest.bares_append _ _ ▸ hf) with hf | hevicted
    · rcases (Context.mem_bares_fill _ _ f).mp hf with hmem | hmem
      · exact Or.inr ⟨carried, rfl, hcarry, hmem⟩
      · apply Or.inl (hsubset (C.bares_replace_subset _ hmem))
        intro g hg
        apply (Block.mem_bares_slot content g).mpr (Or.inr hg)
    · apply Or.inl (hsubset ((C.mem_bares_fill _ f).mpr (Or.inl _)))
      apply (Block.mem_bares_slot content f).mpr (Or.inl hevicted)

/-- Whatever a drop comes to, a face is one of before or the one of a new block. -/
theorem Canvas.Drops.bares {palette : Palette} {source : Source} {plan : Plan} {outcome : Outcome}
    {t : Forest} (h : c.Drops palette source plan outcome t) {f : Face} (hf : f ∈ Forest.bares t) :
  f ∈ Forest.bares c.tree ∨ ∃ id template, palette id = some template ∧ f.IsCopy template
  := by
  rcases h.mem_bares hf with hmem | ⟨carried, -, hcarry, hmem⟩
  · apply Or.inl hmem
  · apply Canvas.bares_brought_of_carry hcarry hmem

end

/-! ### Edits -/

/-- An edit that brings no face into the block brings none into the workspace. -/
theorem Editor.bares_edit_subset (e : Editor) (id : String)
    (check : Block → Except EditError Unit) {change : Block → Block}
    (hchange : ∀ b, (change b).bares ⊆ b.bares) :
  Forest.bares (e.edit id check change).2.tree ⊆ Forest.bares e.tree
  := by
  rcases Editor.edit_cases e id check change with htree | ⟨C, b, hfill, -, htree⟩
  · rw [htree]
    apply List.Subset.refl
  · rw [htree, hfill]
    apply C.bares_replace_subset (hchange b)

/-- A content without a block brings in no face. -/
theorem Slots.bares_set_subset {content : Content Block} (h : content.block? = none) (cs : Slots)
    (slot : Nat) :
  Slots.bares (cs.set slot content) ⊆ Slots.bares cs
  := by
  induction cs generalizing slot with
  | nil => apply List.Subset.refl
  | cons c cs ih =>
    cases slot with
    | zero =>
      rw [List.set_cons_zero, Slots.bares_cons, Slots.bares_cons, h]
      apply List.subset_append_right
    | succ slot =>
      rw [List.set_cons_succ, Slots.bares_cons, Slots.bares_cons]
      intro f hf
      rw [List.mem_append] at hf ⊢
      apply hf.imp_right
      intro hmem
      apply ih slot hmem

theorem Editor.bares_typeLiteral_subset (e : Editor) (id : String) (slot : Nat) (value : String) :
  Forest.bares (e.typeLiteral id slot value).2.tree ⊆ Forest.bares e.tree
  := by
  apply Editor.bares_edit_subset
  rintro ⟨face, children, slots⟩ f hf
  rw [Block.bares_mk, List.mem_cons, List.mem_append] at hf ⊢
  apply hf.imp_right
  apply Or.imp_right
  intro hmem
  apply Slots.bares_set_subset (Editor.block?_typed value) slots slot hmem

theorem Editor.bares_selectOperator_subset (e : Editor) (id : String) (operator : Option String) :
  Forest.bares (e.selectOperator id operator).2.tree ⊆ Forest.bares e.tree
  := by
  apply Editor.bares_edit_subset
  rintro ⟨face, children, slots⟩ f hf
  rw [Block.bares_mk] at hf ⊢
  apply hf

/-! ### Sessions -/

section

variable {e : Editor}

/-- After a command, a face is one of before or the one of a new block. -/
theorem Editor.bares_perform (ht : Forest.Valid e.tree) {command : Command} {f : Face}
    (hf : f ∈ Forest.bares (e.perform command).2.tree) :
  f ∈ Forest.bares e.tree ∨ ∃ id template, e.palette id = some template ∧ f.IsCopy template
  := by
  cases command with
  | addVariable name =>
    rw [Editor.perform, Editor.named_snd] at hf
    apply Or.inl hf
  | addPosition name =>
    rw [Editor.perform, Editor.named_snd] at hf
    apply Or.inl hf
  | removeName name =>
    apply Or.inl
    rcases e.removeName_cases name with ⟨-, -, htree⟩ | ⟨-, -, htree⟩
    · rw [← htree]
      apply hf
    · apply Forest.bares_prune_subset
      rw [← htree]
      apply hf
  | setVariableValue name value =>
    rw [Editor.perform, Editor.named_snd] at hf
    apply Or.inl hf
  | startDrag source => apply Or.inl hf
  | hover layout target => apply Or.inl hf
  | drop layout target =>
    rcases Canvas.drop_cases ht e.palette layout target with
      ⟨_, -, -, htree⟩ | ⟨source, plan, outcome, -, -, -, -, hdrops⟩
    · apply Or.inl
      rw [Editor.tree, ← htree]
      apply hf
    · apply Canvas.Drops.bares hdrops hf
  | cancelDrag => apply Or.inl hf
  | clear confirmed =>
    apply Or.inl
    cases confirmed with
    | true => cases hf
    | false => apply hf
  | setLiteral block slot value =>
    rw [Editor.perform, Editor.edited_snd] at hf
    apply Or.inl (e.bares_typeLiteral_subset block slot value hf)
  | setOperator block operator =>
    rw [Editor.perform, Editor.edited_snd] at hf
    apply Or.inl (e.bares_selectOperator_subset block operator hf)
  | program => apply Or.inl hf

/-- All placed blocks of a session are copies of templates. -/
theorem Editor.Reaches.isCopy {catalog : Catalog} {registry : Registry} {clock : Clock}
    (h : Editor.Reaches (.new catalog registry clock) e) :
  ∀ b ∈ Forest.walk e.tree, ∃ template, b.IsCopy template
  := by
  have hfaces : ∀ f ∈ Forest.bares e.tree, ∃ template, f.IsCopy template := by
    induction h with
    | refl =>
      intro _ hf
      cases hf
    | perform h command _ ih =>
      intro f hf
      rcases Editor.bares_perform (h.valid Forest.valid_nil) hf with hf | ⟨_, template, -, hcopy⟩
      · apply ih f hf
      · use template
  intro b hb
  apply hfaces
  apply List.mem_map_of_mem hb

end

/-! ### Templates of the palette as it is -/

/-- Ids are distinct within a catalog, so an id finds every template there is. -/
theorem Catalog.get?_eq_some_iff {catalog : Catalog} {id : String} {t : Template} :
  catalog.get? id = some t ↔ t ∈ catalog.templates ∧ t.id = id
  := by
  constructor
  · intro h
    exact ⟨List.mem_of_find?_eq_some h, by simpa using List.find?_some h⟩
  · rintro ⟨ht, rfl⟩
    apply find?_key_of_mem catalog.nodup_ids ht

theorem Registry.id_of_template? {r : Registry} {id : String} {t : Template}
    (h : r.template? id = some t) :
  t.id = id
  := by
  obtain ⟨e, he, rfl⟩ := Option.map_eq_some_iff.mp h
  rw [Registry.Entry.id_template]
  simpa using List.find?_some he

/-- The palette answers to an id with a template of that id. -/
theorem Palette.id_of_both {catalog : Catalog} {registry : Registry} {id : String}
    {template : Template} (h : Palette.both catalog registry id = some template) :
  template.id = id
  := by
  rw [Palette.both] at h
  split at h
  · rename_i found hfound
    cases h
    apply (Catalog.get?_eq_some_iff.mp hfound).2
  · apply Registry.id_of_template? h

/-- A template of the palette stays if the registry keeps it. -/
theorem Palette.both_of_keep {catalog : Catalog} {r r' : Registry} {id : String}
    (hkeep : ∀ t, r.template? id = some t → r'.template? id = some t) {template : Template}
    (h : Palette.both catalog r id = some template) :
  Palette.both catalog r' id = some template
  := by
  rw [Palette.both] at h ⊢
  cases hget : catalog.get? id with
  | some t =>
    rw [hget] at h
    apply h
  | none =>
    rw [hget] at h
    apply hkeep template h

/-- All blocks of the workspace are copies of templates of the palette. -/
def Forest.CopiesOf (palette : Palette) (t : Forest) : Prop :=
  ∀ f ∈ Forest.bares t, ∃ template, palette f.templateId = some template ∧ f.IsCopy template

section

variable {e : Editor}

/-- The workspace has copies of templates of the palette only, as long as the registry keeps the
templates it has. -/
theorem Editor.copiesOf_registry (hcopies : Forest.CopiesOf e.palette e.tree) {r : Registry}
    (hkeep : ∀ {id t}, e.registry.template? id = some t → r.template? id = some t) :
  Forest.CopiesOf (Palette.both e.catalog r) e.tree
  := by
  intro f hf
  obtain ⟨template, htemplate, hcopy⟩ := hcopies f hf
  use template, Palette.both_of_keep (fun _ ht => hkeep ht) htemplate

theorem Editor.registry_removeName (e : Editor) (name : String) :
  (e.removeName name).2.palette = Palette.both e.catalog (e.registry.remove name).2
  := by
  rw [Editor.removeName]
  cases e.registry.remove name with
  | mk removed r => cases removed <;> rfl

/-- The copies of a template whose name is removed are removed with it. -/
theorem Editor.copiesOf_removeName (horderly : Registry.Orderly e.registry.entries)
    (hcopies : Forest.CopiesOf e.palette e.tree) (name : String) :
  Forest.CopiesOf (e.removeName name).2.palette (e.removeName name).2.tree
  := by
  intro f hf
  rw [e.registry_removeName]
  rcases e.removeName_cases name with ⟨hremove, -, htree⟩ | ⟨-, -, htree⟩
  · rw [htree] at hf
    obtain ⟨template, htemplate, hcopy⟩ := hcopies f hf
    have hkeep := Registry.template?_congr (Registry.entries_remove_of_none hremove) f.templateId
    use template, Palette.both_of_keep (fun t ht => hkeep.trans ht) htemplate
  · rw [htree] at hf
    obtain ⟨template, htemplate, hcopy⟩ := hcopies f (Forest.bares_prune_subset _ _ hf)
    obtain ⟨b, hb, rfl⟩ := List.mem_map.mp hf
    have hother := of_decide_eq_false (Forest.not_gone_of_mem_walk_prune _ b hb)
    use template, Palette.both_of_keep (fun t ht => horderly.template?_remove hother ht) htemplate

/-- A command that leaves the palette leaves a workspace of copies. -/
theorem Editor.copiesOf_of_palette_eq (ht : Forest.Valid e.tree)
    (hcopies : Forest.CopiesOf e.palette e.tree) {command : Command}
    (hpalette : (e.perform command).2.palette = e.palette) :
  Forest.CopiesOf (e.perform command).2.palette (e.perform command).2.tree
  := by
  intro f hf
  rw [hpalette]
  rcases Editor.bares_perform ht hf with hf | ⟨id, template, htemplate, hcopy⟩
  · apply hcopies f hf
  · have htemplateId : f.templateId = id := by
      obtain ⟨stamp, rfl⟩ := hcopy
      apply Palette.id_of_both htemplate
    rw [htemplateId]
    use template

@[simp]
theorem Editor.palette_edit (e : Editor) (id : String) (check : Block → Except EditError Unit)
    (change : Block → Block) :
  (e.edit id check change).2.palette = e.palette
  := by
  rw [Editor.edit]
  split <;> rfl

/-- Every command leaves copies of templates of the palette only. -/
theorem Editor.copiesOf_perform (horderly : Registry.Orderly e.registry.entries)
    (ht : Forest.Valid e.tree) (hcopies : Forest.CopiesOf e.palette e.tree) (command : Command) :
  Forest.CopiesOf (e.perform command).2.palette (e.perform command).2.tree
  := by
  cases command with
  | addVariable name =>
    rw [Editor.perform, Editor.named_snd]
    apply Editor.copiesOf_registry hcopies
    apply horderly.template?_enter
  | addPosition name =>
    rw [Editor.perform, Editor.named_snd]
    apply Editor.copiesOf_registry hcopies
    apply horderly.template?_enter
  | removeName name => apply Editor.copiesOf_removeName horderly hcopies
  | setVariableValue name value =>
    rw [Editor.perform, Editor.named_snd]
    apply Editor.copiesOf_registry hcopies
    apply horderly.template?_assign
  | startDrag source => apply Editor.copiesOf_of_palette_eq ht hcopies rfl
  | hover layout target => apply Editor.copiesOf_of_palette_eq ht hcopies rfl
  | drop layout target => apply Editor.copiesOf_of_palette_eq ht hcopies rfl
  | cancelDrag => apply Editor.copiesOf_of_palette_eq ht hcopies rfl
  | clear confirmed => apply Editor.copiesOf_of_palette_eq ht hcopies rfl
  | setLiteral block slot value =>
    apply Editor.copiesOf_of_palette_eq ht hcopies
    rw [Editor.perform, Editor.edited_snd]
    apply Editor.palette_edit
  | setOperator block operator =>
    apply Editor.copiesOf_of_palette_eq ht hcopies
    rw [Editor.perform, Editor.edited_snd]
    apply Editor.palette_edit
  | program => apply Editor.copiesOf_of_palette_eq ht hcopies rfl

theorem Editor.arises_edit (h : e.registry.Arises) (id : String)
    (check : Block → Except EditError Unit) (change : Block → Block) :
  (e.edit id check change).2.registry.Arises ∧ (e.edit id check change).2.catalog = e.catalog
  := by
  rw [Editor.edit]
  split <;> exact ⟨h, rfl⟩

/-- Commands change the registry by its operations, and the catalog not at all. -/
theorem Editor.arises_perform (h : e.registry.Arises) (command : Command) :
  (e.perform command).2.registry.Arises ∧ (e.perform command).2.catalog = e.catalog
  := by
  cases command with
  | addVariable name =>
    rw [Editor.perform, Editor.named_snd]
    exact ⟨h.enter name .var, rfl⟩
  | addPosition name =>
    rw [Editor.perform, Editor.named_snd]
    exact ⟨h.enter name .position, rfl⟩
  | removeName name =>
    have hremove := h.remove name
    rw [Editor.perform, Editor.removeName]
    cases hremoved : e.registry.remove name with
    | mk removed r =>
      rw [hremoved] at hremove
      cases removed <;> exact ⟨hremove, rfl⟩
  | setVariableValue name value =>
    rw [Editor.perform, Editor.named_snd]
    exact ⟨h.assign name (some value), rfl⟩
  | startDrag source => exact ⟨h, rfl⟩
  | hover layout target => exact ⟨h, rfl⟩
  | drop layout target => exact ⟨h, rfl⟩
  | cancelDrag => exact ⟨h, rfl⟩
  | clear confirmed => exact ⟨h, rfl⟩
  | setLiteral block slot value =>
    rw [Editor.perform, Editor.edited_snd]
    apply Editor.arises_edit h
  | setOperator block operator =>
    rw [Editor.perform, Editor.edited_snd]
    apply Editor.arises_edit h
  | program => exact ⟨h, rfl⟩

/-- The registry of a session arises from a configuration if the one at its start does, and the catalog
stays. -/
theorem Editor.Reaches.arises {e₀ : Editor} (h : Editor.Reaches e₀ e) (h₀ : e₀.registry.Arises) :
  e.registry.Arises ∧ e.catalog = e₀.catalog
  := by
  induction h with
  | refl => exact ⟨h₀, rfl⟩
  | perform _ command _ ih =>
    obtain ⟨harises, hcatalog⟩ := Editor.arises_perform ih.1 command
    exact ⟨harises, hcatalog.trans ih.2⟩

/-- In a session whose registry arises from a configuration, the placed blocks are copies of templates
of the palette as it is. -/
theorem Editor.Reaches.copiesOf {catalog : Catalog} {registry : Registry} {clock : Clock}
    (h : Editor.Reaches (.new catalog registry clock) e) (harises : registry.Arises) :
  Forest.CopiesOf e.palette e.tree
  := by
  induction h with
  | refl =>
    intro _ hf
    cases hf
  | perform h command _ ih =>
    apply Editor.copiesOf_perform (h.arises harises).1.orderly (h.valid Forest.valid_nil) ih

end

/-! ### Ids of copies -/

/-- A synthetic name has no dash, and the id of a placed block has one. -/
theorem InstanceId.isName_make (templateId : String) (stamp : UInt64) :
  SyntheticName.isName (InstanceId.make templateId stamp) = false
  := by
  have hdash : '-' ∈ (InstanceId.make templateId stamp).toList := by
    rw [InstanceId.make, String.toList_append, String.toList_append]
    simp
  apply Bool.eq_false_iff.mpr
  intro hname
  rw [SyntheticName.isName] at hname
  split at hname
  · rename_i digits hlist
    rw [hlist] at hdash
    have hmem : '-' ∈ digits := by simpa using hdash
    rw [Bool.and_eq_true] at hname
    have hdigit := List.all_eq_true.mp hname.2 _ hmem
    contradiction
  · contradiction

/-- No placed block of a session has a synthetic name for its id. -/
theorem Editor.Reaches.isName_eq_false {e : Editor} {catalog : Catalog} {registry : Registry}
    {clock : Clock} (h : Editor.Reaches (.new catalog registry clock) e) :
  ∀ id ∈ Forest.ids e.tree, SyntheticName.isName id = false
  := by
  intro id hid
  obtain ⟨b, hb, rfl⟩ := List.mem_map.mp hid
  obtain ⟨template, hcopy⟩ := h.isCopy b hb
  obtain ⟨⟨stamp, hmake⟩, -⟩ := hcopy.spec
  rw [hmake]
  apply InstanceId.isName_make

end BlockEditor
