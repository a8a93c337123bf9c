import BlockEditor.Proofs.Dropping
import BlockEditor.Session.Command

/-!
# Sessions keep the workspace valid

`Editor.Reaches e₀ e` states that a session leads from `e₀` to `e`, any commands in any order,
accepted or refused, as long as the stamps of new blocks do not run out.  Every command keeps a
valid workspace valid, so every session does, and one that starts with the empty workspace has a
valid workspace all the time.
-/

namespace BlockEditor

/-! ### Drops -/

/-- If a drop on the target makes a new block, there is a stamp for it. -/
def Canvas.HasRoom (c : Canvas) (palette : Palette) (layout : Layout) (target : Target) : Prop :=
  ∀ source plan carried, c.gesture = some source →
    Plan.ofGesture c.tree palette layout source target = .ok plan →
    plan.carried? = some carried → c.CanBring carried

/-- What a slot holds is put behind the workspace when the slot is filled. -/
theorem Context.ids_evict_perm (C : Context) (face : Face) (children : Option Forest)
    (before after : Slots) (content : Content Block) (b : Block) :
  (Forest.ids ((C.inside (.slot face children before after)).fill b
      ++ content.block?.toList)).Perm
    (b.ids ++ Forest.ids (C.fill ⟨face, children, before ++ content :: after⟩))
  := by
  have hempty := Context.ids_fill_perm (C.inside (.slot face children before after)) b
  cases content with
  | empty =>
    rw [Content.block?, Option.toList_none, List.append_nil]
    · apply hempty
    · simp
  | literal value =>
    rw [Content.block?, Option.toList_none, List.append_nil]
    · apply List.Perm.trans hempty
      apply List.Perm.append_left
      rw [Context.clear, Context.ids_fill, Context.ids_fill]
      simp [Frame.clear]
    · simp
  | block old =>
    have hold := Context.ids_fill_perm (C.inside (.slot face children before after)) old
    rw [Content.block?, Option.toList_some, Forest.ids_append, Forest.ids_cons, Forest.ids_nil,
      List.append_nil]
    apply List.Perm.trans (hempty.append_right old.ids)
    rw [List.append_assoc]
    apply List.Perm.append_left
    apply List.Perm.trans List.perm_append_comm hold.symm

/-- A place in a list takes every block. -/
theorem Context.accepts_of_sequence? {C : Context} {t bs : Forest}
    (h : Forest.sequence? t C.location.container = some bs) (b : Block) :
  C.Accepts b
  := by
  cases C with
  | top before after => trivial
  | inside C F =>
    cases F with
    | child face before after slots => trivial
    | slot face children before after => contradiction

section

variable {c : Canvas} {carried : Carried}

/-- What is brought can be put into a place of the rest that takes it. -/
theorem Canvas.valid_fill (ht : Forest.Valid c.tree) (hplaced : carried.IsPlaced c.tree)
    (hcan : c.CanBring carried) {C : Context} (hclear : C.clear = carried.rest c.tree)
    (haccepts : C.Accepts (c.brought carried)) :
  Forest.Valid (C.fill (c.brought carried))
  := by
  have hnodup := Canvas.nodup_brought ht.nodup hplaced hcan
  have hsound := (Carried.valid_rest ht carried).sound
  rw [← hclear] at hnodup hsound
  constructor
  · apply (C.ids_fill_perm _).nodup_iff.mpr hnodup
  · apply Context.sound_fill hsound (Canvas.sound_brought ht hplaced) haccepts

/-- What is brought can be put into a slot of the rest that accepts it, and what was there behind the
workspace. -/
theorem Canvas.valid_evict (ht : Forest.Valid c.tree) (hplaced : carried.IsPlaced c.tree)
    (hcan : c.CanBring carried) {C : Context} {face : Face} {children : Option Forest}
    {before after : Slots} {content : Content Block} {spec : SlotSpec}
    (hrest : carried.rest c.tree = C.fill ⟨face, children, before ++ content :: after⟩)
    (hspec : face.kind.slots[before.length]? = some spec)
    (haccepts : carried.category ∈ spec.accepts) :
  Forest.Valid
    ((C.inside (.slot face children before after)).fill (c.brought carried)
      ++ content.block?.toList)
  := by
  have hnodup := Canvas.nodup_brought ht.nodup hplaced hcan
  have hsound := (Carried.valid_rest ht carried).sound
  rw [hrest] at hnodup hsound
  have hblock := Context.sound_of_fill hsound
  have hempty : (Frame.slot face children before after).clear.Sound := by
    apply hblock.setSlot
    · intro _ _
      trivial
    · intro _ _
      contradiction
  have hopen : Forest.Sound (C.inside (.slot face children before after)).clear :=
    Context.sound_replace hsound hempty rfl
  constructor
  · apply (Context.ids_evict_perm C face children before after content _).nodup_iff.mpr hnodup
  · apply Forest.sound_append.mpr
    constructor
    · apply Context.sound_fill hopen (Canvas.sound_brought ht hplaced)
      intro spec' hspec'
      rw [hspec] at hspec'
      cases hspec'
      rw [Canvas.category_brought]
      apply haccepts
    · have hold := hblock.occupant
      cases hcontent : content.block? with
      | none => apply Forest.valid_nil.sound
      | some old =>
        apply Forest.sound_cons.mpr
        constructor
        · apply hold old hcontent
        · apply Forest.valid_nil.sound

end

/-- A drop keeps the workspace valid. -/
theorem Canvas.Drops.valid {c : Canvas} {palette : Palette} {source : Source} {plan : Plan}
    {outcome : Outcome} {t : Forest} (ht : Forest.Valid c.tree)
    (h : c.Drops palette source plan outcome t)
    (hroom : ∀ carried, plan.carried? = some carried → c.CanBring carried) :
  Forest.Valid t
  := by
  cases h with
  | ignore => apply ht
  | delete => apply ht.without _
  | slot C hcarry _ _ _ hrest hspec haccepts =>
    have hplaced := Plan.isPlaced_of_carry hcarry
    apply Canvas.valid_evict ht hplaced (hroom _ rfl) hrest hspec haccepts
  | insert C hcarry hclear hlocation hsequence _ =>
    have hplaced := Plan.isPlaced_of_carry hcarry
    have hcontainer := congrArg Location.container hlocation
    dsimp only at hcontainer
    rw [← hcontainer] at hsequence
    apply Canvas.valid_fill ht hplaced (hroom _ rfl) hclear
    apply Context.accepts_of_sequence? hsequence

/-- What a drop comes to: it is refused as foreseen and leaves the workspace, or a plan is carried
out. -/
theorem Canvas.drop_cases {c : Canvas} (ht : Forest.Valid c.tree) (palette : Palette)
    (layout : Layout) (target : Target) :
  (∃ reason, c.hover palette layout target = .error reason
      ∧ (c.drop palette layout target).1 = .error reason
      ∧ (c.drop palette layout target).2.tree = c.tree)
    ∨ ∃ source plan outcome, c.gesture = some source
      ∧ Plan.ofGesture c.tree palette layout source target = .ok plan
      ∧ c.hover palette layout target = .ok plan.action
      ∧ (c.drop palette layout target).1 = .ok outcome
      ∧ c.cancel.Drops palette source plan outcome (c.drop palette layout target).2.tree
  := by
  rw [Canvas.hover, Canvas.drop_fst, Canvas.drop_snd, Canvas.finish]
  cases hgesture : c.gesture with
  | none =>
    left
    exact ⟨.notDragging, rfl, rfl, rfl⟩
  | some source =>
    dsimp only
    cases hplan : Plan.ofGesture c.tree palette layout source target with
    | error reason =>
      left
      exact ⟨reason, rfl, rfl, rfl⟩
    | ok plan =>
      right
      obtain ⟨outcome, hresult, hdrops⟩ :=
        Canvas.drops_of_settled (c := c.cancel) ht (Plan.settled_of_ofGesture ht hplan)
      refine ⟨source, plan, outcome, rfl, hplan, rfl, ?_, hdrops⟩
      dsimp only
      rw [hresult]
      rfl

theorem Canvas.valid_drop {c : Canvas} (ht : Forest.Valid c.tree) {palette : Palette}
    {layout : Layout} {target : Target} (hroom : c.HasRoom palette layout target) :
  Forest.Valid (c.drop palette layout target).2.tree
  := by
  rcases Canvas.drop_cases ht palette layout target with
    ⟨_, -, -, htree⟩ | ⟨source, plan, outcome, hgesture, hplan, -, -, hdrops⟩
  · rw [htree]
    apply ht
  · apply Canvas.Drops.valid (c := c.cancel) ht hdrops
    intro carried hcarried
    apply hroom source plan carried hgesture hplan hcarried

/-! ### Edits -/

/-- Another block may take the place of a block if it has the same ids and category. -/
theorem Forest.Valid.replace {C : Context} {b c : Block} (ht : Forest.Valid (C.fill b))
    (hids : c.ids = b.ids) (hcategory : c.category = b.category) (hc : c.Sound) :
  Forest.Valid (C.fill c)
  := by
  constructor
  · rw [Context.ids_fill, hids, ← Context.ids_fill]
    apply ht.nodup
  · apply Context.sound_replace ht.sound hc hcategory

/-- An edit leaves the workspace as it is, or changes a block that has passed the check in its
place. -/
theorem Editor.edit_cases (e : Editor) (id : String) (check : Block → Except EditError Unit)
    (change : Block → Block) :
  (e.edit id check change).2.tree = e.tree
    ∨ ∃ C b, e.tree = Context.fill C b ∧ check b = .ok ()
      ∧ (e.edit id check change).2.tree = C.fill (change b)
  := by
  rw [Editor.edit]
  cases hfind : Forest.find? id e.tree with
  | none => apply Or.inl rfl
  | some b =>
    obtain ⟨C, htree, rfl, hC⟩ := Forest.exists_fill hfind
    dsimp only [Editor.withTree, Editor.tree] at htree ⊢
    rw [htree, Context.update?_fill_self hC, Option.getD_some, Editor.attempt]
    cases hcheck : check b with
    | error reason => apply Or.inl rfl
    | ok _ => apply Or.inr ⟨C, b, rfl, hcheck, rfl⟩

/-- An edit keeps the workspace valid if it keeps the ids, the category and the fitness of the block
that it changes. -/
theorem Editor.valid_edit {e : Editor} (ht : Forest.Valid e.tree) {id : String}
    {check : Block → Except EditError Unit} {change : Block → Block}
    (hchange : ∀ b : Block, b.Sound → check b = .ok () →
      (change b).ids = b.ids ∧ (change b).category = b.category ∧ (change b).Sound) :
  Forest.Valid (e.edit id check change).2.tree
  := by
  rcases Editor.edit_cases e id check change with htree | ⟨C, b, hfill, hcheck, htree⟩
  · rw [htree]
    apply ht
  · rw [htree]
    rw [hfill] at ht
    obtain ⟨hids, hcategory, hsound⟩ := hchange b (Context.sound_of_fill ht.sound) hcheck
    apply ht.replace hids hcategory hsound

/-- What has been checked of a slot into which a value is typed. -/
theorem Editor.of_checkLiteral {id : String} {slot : Nat} {b : Block}
    (h : Editor.checkLiteral id slot b = .ok ()) :
  ∃ spec content, b.kind.slots[slot]? = some spec ∧ spec.literal = true
    ∧ b.slots[slot]? = some content ∧ content.block? = none
  := by
  rw [Editor.checkLiteral] at h
  split at h
  · contradiction
  rename_i spec hspec
  split at h
  · rename_i hliteral
    split at h
    · contradiction
    · contradiction
    · rename_i content hblock hcontent
      use spec, content, hspec, hliteral, hcontent
      cases content with
      | block b => apply absurd rfl (hblock b)
      | empty => rfl
      | literal value => rfl
  · contradiction

@[simp]
theorem Editor.block?_typed (value : String) :
  (Editor.typed value).block? = none
  := by
  rw [Editor.typed]
  split <;> rfl

theorem SlotSpec.admits_typed {s : SlotSpec} (h : s.literal = true) (value : String) :
  s.Admits (Editor.typed value)
  := by
  rw [Editor.typed]
  split
  · trivial
  · rename_i hvalue
    constructor
    · rintro rfl
      apply hvalue rfl
    · apply h

/-- Without a block in it, a slot adds nothing to a walk. -/
theorem Slots.walk_of_block?_eq_none {content : Content Block} (h : content.block? = none)
    (cs : Slots) :
  Slots.walk (content :: cs) = Slots.walk cs
  := by
  cases content with
  | block b => contradiction
  | empty => rfl
  | literal value => rfl

theorem Editor.valid_typeLiteral {e : Editor} (ht : Forest.Valid e.tree) (id : String)
    (slot : Nat) (value : String) :
  Forest.Valid (e.typeLiteral id slot value).2.tree
  := by
  apply Editor.valid_edit ht
  intro b hb hcheck
  obtain ⟨spec, content, hspec, hliteral, hcontent, hblock⟩ := Editor.of_checkLiteral hcheck
  obtain ⟨face, children, slots⟩ := b
  obtain ⟨before, after, rfl, rfl⟩ := exists_append_of_getElem? hcontent
  have hset : (before ++ content :: after).set before.length (Editor.typed value)
      = before ++ Editor.typed value :: after := by simp
  have hwalk : Slots.walk (before ++ Editor.typed value :: after)
      = Slots.walk (before ++ content :: after) := by
    rw [Slots.walk_append, Slots.walk_append, Slots.walk_of_block?_eq_none hblock,
      Slots.walk_of_block?_eq_none (Editor.block?_typed value)]
  dsimp only
  rw [hset]
  constructor
  · rw [Block.ids_mk, Block.ids_mk, Slots.ids, Slots.ids, hwalk]
  · use rfl
    apply hb.setSlot
    · intro spec' hspec'
      rw [Block.kind] at hspec
      rw [hspec] at hspec'
      cases hspec'
      apply SlotSpec.admits_typed hliteral
    · intro b' h
      rw [Editor.block?_typed] at h
      contradiction

theorem Editor.valid_selectOperator {e : Editor} (ht : Forest.Valid e.tree) (id : String)
    (operator : Option String) :
  Forest.Valid (e.selectOperator id operator).2.tree
  := by
  apply Editor.valid_edit ht
  intro b hb hcheck
  obtain ⟨face, children, slots⟩ := b
  obtain ⟨hfits, hchildren, hslots⟩ := Block.sound_mk.mp hb
  refine ⟨by rw [Block.ids_mk, Block.ids_mk], rfl, Block.sound_mk.mpr ⟨?_, hchildren, hslots⟩⟩
  refine ⟨hfits.placed, hfits.children, hfits.slots, ?_⟩
  rintro selected hselected
  obtain rfl : operator = some selected := hselected
  rw [Editor.checkOperator] at hcheck
  split at hcheck
  · rename_i hcontains
    apply List.contains_iff_mem.mp hcontains
  · contradiction

/-! ### Sessions -/

/-- If a command makes a new block, there is a stamp for it. -/
def Editor.HasRoom (e : Editor) : Command → Prop
  | .drop layout target => e.canvas.HasRoom e.palette layout target
  | _ => True

/-- There is room for every command, unless there are as many blocks as stamps. -/
theorem Editor.hasRoom_of_size_lt {e : Editor} (h : Forest.size e.tree < UInt64.size)
    (command : Command) :
  e.HasRoom command
  := by
  cases command with
  | drop layout target =>
    intro _ _ carried _ _ _
    cases carried with
    | existing b => trivial
    | fresh template => apply Canvas.hasStamp_of_size_lt h
  | _ => trivial

/-- A session leads from the editor `e₀` to the given one: any commands, in any order. -/
inductive Editor.Reaches (e₀ : Editor) : Editor → Prop where
  | refl : Reaches e₀ e₀
  | perform {e : Editor} (h : Reaches e₀ e) (command : Command) (hroom : e.HasRoom command) :
      Reaches e₀ (e.perform command).2

@[simp]
theorem Editor.named_snd (change : Except NameError Unit × Editor) :
  (Editor.named change).2 = change.2
  := by
  obtain ⟨result, e⟩ := change
  cases result <;> rfl

@[simp]
theorem Editor.edited_snd (edit : Except EditError Unit × Editor) :
  (Editor.edited edit).2 = edit.2
  := by
  obtain ⟨result, e⟩ := edit
  cases result <;> rfl

/-- A name goes with the copies of its template, or does not go and leaves all blocks. -/
theorem Editor.removeName_cases (e : Editor) (name : String) :
  ((e.registry.remove name).1 = none ∧ (e.removeName name).1 = []
      ∧ (e.removeName name).2.tree = e.tree)
    ∨ ((e.registry.remove name).1 ≠ none
      ∧ (e.removeName name).1 = (Forest.purge (Registry.paletteId name) e.tree).1
      ∧ (e.removeName name).2.tree
        = Forest.prune (fun face => face.templateId = Registry.paletteId name) e.tree)
  := by
  rw [Editor.removeName]
  split
  · rename_i hremove
    apply Or.inl
    rw [hremove]
    exact ⟨rfl, rfl, rfl⟩
  · rename_i hremove
    apply Or.inr
    rw [hremove]
    refine ⟨by simp, rfl, ?_⟩
    apply Forest.purge_snd

theorem Editor.valid_removeName {e : Editor} (ht : Forest.Valid e.tree) (name : String) :
  Forest.Valid (e.removeName name).2.tree
  := by
  rcases e.removeName_cases name with ⟨-, -, htree⟩ | ⟨-, -, htree⟩
  · rw [htree]
    apply ht
  · rw [htree]
    apply ht.prune

/-- A command keeps the workspace valid. -/
theorem Editor.valid_perform {e : Editor} (ht : Forest.Valid e.tree) {command : Command}
    (hroom : e.HasRoom command) :
  Forest.Valid (e.perform command).2.tree
  := by
  cases command with
  | addVariable name =>
    rw [Editor.perform, Editor.named_snd]
    apply ht
  | addPosition name =>
    rw [Editor.perform, Editor.named_snd]
    apply ht
  | removeName name => apply Editor.valid_removeName ht
  | setVariableValue name value =>
    rw [Editor.perform, Editor.named_snd]
    apply ht
  | startDrag source => apply ht
  | hover layout target => apply ht
  | drop layout target => apply Canvas.valid_drop ht hroom
  | cancelDrag => apply ht
  | clear confirmed =>
    cases confirmed with
    | true => apply Forest.valid_nil
    | false => apply ht
  | setLiteral block slot value =>
    rw [Editor.perform, Editor.edited_snd]
    apply Editor.valid_typeLiteral ht
  | setOperator block operator =>
    rw [Editor.perform, Editor.edited_snd]
    apply Editor.valid_selectOperator ht
  | program => apply ht

/-- A session keeps the workspace valid. -/
theorem Editor.Reaches.valid {e₀ e : Editor} (h : Editor.Reaches e₀ e)
    (h₀ : Forest.Valid e₀.tree) :
  Forest.Valid e.tree
  := by
  induction h with
  | refl => apply h₀
  | perform h command hroom ih => apply Editor.valid_perform ih hroom

/-- Dragging leads on, unless there are as many blocks as stamps. -/
theorem Editor.Reaches.drag {e₀ e : Editor} (h : Editor.Reaches e₀ e) (source : Source)
    (layout : Layout) (target : Target) (hsize : Forest.size e.tree < UInt64.size) :
  Editor.Reaches e₀ ((e.perform (.startDrag source)).2.perform (.drop layout target)).2
  := by
  have hstart := h.perform (.startDrag source) trivial
  apply hstart.perform (.drop layout target)
  apply Editor.hasRoom_of_size_lt (e := (e.perform (.startDrag source)).2) hsize

/-- There is a stamp for the first block, so its drop is part of a session. -/
theorem Editor.reaches_drop (catalog : Catalog) (registry : Registry) (clock : Clock)
    (source : Source) (layout : Layout) (target : Target) :
  Editor.Reaches (.new catalog registry clock)
    (((Editor.new catalog registry clock).perform (.startDrag source)).2.perform
      (.drop layout target)).2
  := by
  apply Editor.Reaches.refl.drag
  change Forest.size [] < UInt64.size
  decide

/-- A session that starts with the empty workspace has a valid workspace all the time. -/
theorem Editor.valid_of_new {catalog : Catalog} {registry : Registry} {clock : Clock} {e : Editor}
    (h : Editor.Reaches (.new catalog registry clock) e) :
  Forest.Valid e.tree
  := h.valid Forest.valid_nil

/-- A block is moved into a loop whose slot holds a variable, and a name is removed with the block that
stands for it. -/
theorem Editor.valid_of_new_repeat :
  ∃ e b, Editor.Reaches (.new .stock .standard (.fixed 0)) e
    ∧ Forest.ids e.tree
      = ["block-repeat-0", "block-reset-1", "block-measure-3", "block-get-X-pos-2"]
    ∧ Forest.find? "block-repeat-0" e.tree = some b
    ∧ b.children.map (List.map Block.id) = some ["block-reset-1", "block-measure-3"]
    ∧ b.slots.map (fun content => content.block?.map Block.id) = [some "block-get-X-pos-2"]
    ∧ Forest.Valid e.tree
  := by
  have hrepeat := Editor.reaches_drop .stock .standard (.fixed 0) (.palette "block-repeat") .hidden
    (.workspace .zero)
  have hnested := hrepeat.drag (.palette "block-reset") .hidden (.block "block-repeat-0" .zero)
    (by decide)
  have hheld := hnested.drag (.palette "block-get-X-pos") .hidden (.slot "block-repeat-0" 0)
    (by decide)
  have hmeasure := hheld.drag (.palette "block-measure") .hidden (.workspace .zero)
    (by decide +kernel)
  have hmoved := hmeasure.drag (.workspace "block-measure-3") .hidden (.block "block-reset-1" .zero)
    (by decide +kernel)
  have hadded := hmoved.perform (.addVariable "speed") trivial
  have hplaced := hadded.drag (.palette "block-get-speed-pos") .hidden (.workspace .zero)
    (by decide +kernel)
  have hremoved := hplaced.perform (.removeName "speed") trivial
  exact ⟨_, _, hremoved, rfl, rfl, rfl, rfl, Editor.valid_of_new hremoved⟩

end BlockEditor
