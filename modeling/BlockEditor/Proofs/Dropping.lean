import BlockEditor.Gesture.Canvas
import BlockEditor.Proofs.Planning
import BlockEditor.Proofs.Stamp

/-!
# What a drop does

In a valid workspace, every plan of a gesture is carried out.  What is carried is taken out, and
`Carried.rest` is the workspace that is left; `Canvas.brought` is the block that is put down.
`Canvas.Drops` states the outcome and the workspace afterwards, in each of the four cases of a plan:
a block is put down in a context that is the rest of the workspace when its place is closed.
Apart from the workspace, a plan changes nothing but what the making of a new block changes.
-/

namespace BlockEditor

/-! ### What is taken out -/

/-- The workspace without what is carried. -/
def Carried.rest (t : Forest) : Carried → Forest
  | .fresh _ => t
  | .existing b => t.without b.id

/-- The face is the one of the placed block that is carried. -/
def Carried.isFace (carried : Carried) (face : Face) : Bool :=
  carried.block?.map Block.id = some face.id

theorem Carried.isFace_fresh (template : Template) (face : Face) :
  (Carried.fresh template).isFace face = false
  := by
  apply decide_eq_false
  simp [Carried.block?]

theorem Carried.isFace_existing (b : Block) :
  (Carried.existing b).isFace = fun face => decide (face.id = b.id)
  := by
  funext face
  simp [Carried.isFace, Carried.block?, eq_comm]

/-- What a drop leaves behind is the tree without the carried block, if that was in it. -/
theorem Carried.rest_eq_prune (t : Forest) (carried : Carried) :
  carried.rest t = Forest.prune carried.isFace t
  := by
  cases carried with
  | fresh template =>
    symm
    apply Forest.prune_eq_self
    intro c _
    apply Carried.isFace_fresh
  | existing b =>
    rw [Carried.isFace_existing]
    rfl

/-- A block that is taken out leaves the other ids. -/
theorem Forest.ids_perm_without {id : String} {t : Forest} (hids : (Forest.ids t).Nodup)
    {b : Block} (h : Forest.find? id t = some b) :
  (Forest.ids t).Perm (b.ids ++ Forest.ids (t.without id))
  := by
  obtain ⟨C, rfl, rfl, -⟩ := Forest.exists_fill h
  obtain ⟨he, hl⟩ := Context.notMem_of_nodup hids b.id_mem_ids
  rw [Context.without_fill_self he hl]
  apply C.ids_fill_perm

/-- An id outside of the carried block is still there when the block is taken out. -/
theorem Carried.mem_ids_rest {t : Forest} (hids : (Forest.ids t).Nodup) {carried : Carried}
    (hplaced : carried.IsPlaced t) {id : String} (hid : id ∈ Forest.ids t)
    (houtside : ∀ b, carried.block? = some b → id ∉ b.ids) :
  id ∈ Forest.ids (carried.rest t)
  := by
  cases carried with
  | fresh template => apply hid
  | existing b =>
    have h := (Forest.ids_perm_without hids hplaced).mem_iff.mp hid
    apply (List.mem_append.mp h).resolve_left (houtside b rfl)

/-- A block outside of the carried one is found as it was, without the carried one. -/
theorem Carried.find?_rest {t : Forest} (hids : (Forest.ids t).Nodup) {carried : Carried}
    (hplaced : carried.IsPlaced t) {id : String} {h : Block} (hfind : Forest.find? id t = some h)
    (houtside : ∀ b, carried.block? = some b → id ∉ b.ids) :
  Forest.find? id (carried.rest t) = some (h.prune carried.isFace)
  := by
  have hid := Carried.mem_ids_rest hids hplaced (Forest.mem_ids_of_find? hfind) houtside
  rw [Carried.rest_eq_prune] at hid ⊢
  rw [Forest.find?_prune hids hid, hfind, Option.map_some]

/-- A list outside of the carried block is still there, without the carried one. -/
theorem Carried.sequence?_rest {t : Forest} (hids : (Forest.ids t).Nodup) {carried : Carried}
    (hplaced : carried.IsPlaced t) {container : Container} {bs : Forest}
    (hsequence : Forest.sequence? t container = some bs)
    (houtside : ∀ b, carried.block? = some b → ∀ holder, container = .children holder →
      holder ∉ b.ids) :
  Forest.sequence? (carried.rest t) container = some (Forest.prune carried.isFace bs)
  := by
  cases container with
  | root =>
    cases hsequence
    rw [Carried.rest_eq_prune]
    rfl
  | children holder =>
    obtain ⟨h, hfind, hchildren⟩ := Option.bind_eq_some_iff.mp hsequence
    have hrest := Carried.find?_rest hids hplaced hfind fun b hb => houtside b hb holder rfl
    rw [Forest.sequence?, hrest, Option.bind_some, Block.children_prune, hchildren,
      Option.map_some]
  | slot holder slot => contradiction

/-- What a drop leaves behind is valid. -/
theorem Carried.valid_rest {t : Forest} (ht : Forest.Valid t) (carried : Carried) :
  Forest.Valid (carried.rest t)
  := by
  rw [Carried.rest_eq_prune]
  apply ht.prune

/-- What a slot holds when the carried block is taken out is what a plan foresees as evicted. -/
theorem Carried.block?_prune (carried : Carried) (content : Content Block) :
  ((content.prune carried.isFace).block?).map Block.id
    = (content.block?.filter fun b => carried.block?.map Block.id ≠ some b.id).map Block.id
  := by
  have hid : Block.id ∘ Block.prune carried.isFace = Block.id := by
    funext b
    apply Block.id_prune
  have hface : (fun b : Block => !carried.isFace b.face)
      = fun b => decide (carried.block?.map Block.id ≠ some b.id) := by
    funext b
    rw [Carried.isFace, decide_not]
    rfl
  rw [Content.block?_prune, Option.map_map, hid, hface]

/-! ### New blocks -/

theorem Template.walk_instantiate (template : Template) (id : String) :
  (template.instantiate id).walk = [template.instantiate id]
  := by
  have hslots : Slots.walk (template.kind.slots.map fun _ => Content.empty) = [] := by
    induction template.kind.slots with
    | nil => rfl
    | cons s ss ih => apply ih
  rw [Template.instantiate, Block.walk_mk, hslots]
  cases template.kind.acceptsChildren <;> rfl

theorem Template.ids_instantiate (template : Template) (id : String) :
  (template.instantiate id).ids = [id]
  := by
  rw [Block.ids, Template.walk_instantiate]
  rfl

/-- A new block fits its kind. -/
theorem Template.sound_instantiate (template : Template) (id : String) :
  (template.instantiate id).Sound
  := by
  intro c hc
  rw [Template.walk_instantiate, List.mem_singleton] at hc
  subst hc
  constructor
  · rfl
  · simp only [Template.instantiate, Block.kind]
    cases template.kind.acceptsChildren <;> rfl
  · simp only [Template.instantiate, Block.kind, List.forall₂_map_right_iff]
    apply List.forall₂_same.mpr
    intro _ _
    trivial
  · intro operator h
    contradiction

/-- The block that a drop puts down: a new one, or the placed one that is carried. -/
def Canvas.brought (c : Canvas) : Carried → Block
  | .fresh template =>
    template.instantiate (InstanceId.make template.id (c.nextStamp template.id))
  | .existing b => b

theorem Canvas.category_brought (c : Canvas) (carried : Carried) :
  (c.brought carried).category = carried.category
  := by
  cases carried <;> rfl

/-- The block that a drop brings is sound: a template comes empty, and a placed block is as it was. -/
theorem Canvas.sound_brought {c : Canvas} (ht : Forest.Valid c.tree) {carried : Carried}
    (hplaced : carried.IsPlaced c.tree) :
  (c.brought carried).Sound
  := by
  cases carried with
  | fresh template => apply Template.sound_instantiate
  | existing b => apply ht.sound.of_mem_walk (Forest.mem_walk_of_find? hplaced)

/-- If what is carried is still to be made, there is a stamp for it. -/
def Canvas.CanBring (c : Canvas) : Carried → Prop
  | .fresh template => c.HasStamp template.id
  | .existing _ => True

/-- A new block has a new id. -/
theorem Canvas.id_brought_notMem {c : Canvas} {template : Template}
    (hcan : c.CanBring (.fresh template)) :
  (c.brought (.fresh template)).id ∉ Forest.ids c.tree
  := Canvas.make_nextStamp_notMem hcan

/-- The ids of what is put down and of the rest are all different, as long as the stamps do not run
out. -/
theorem Canvas.nodup_brought {c : Canvas} (hids : (Forest.ids c.tree).Nodup) {carried : Carried}
    (hplaced : carried.IsPlaced c.tree) (hcan : c.CanBring carried) :
  ((c.brought carried).ids ++ Forest.ids (carried.rest c.tree)).Nodup
  := by
  cases carried with
  | fresh template =>
    rw [Canvas.brought, Template.ids_instantiate, Carried.rest, List.singleton_append,
      List.nodup_cons]
    exact ⟨Canvas.id_brought_notMem hcan, hids⟩
  | existing b => apply (Forest.ids_perm_without hids hplaced).nodup_iff.mp hids

/-! ### Carrying out a plan -/

/-- What a plan puts down. -/
def Plan.carried? : Plan → Option Carried
  | .slot carried _ _ _ => some carried
  | .insert carried _ _ => some carried
  | .dispose _ => none

/-- The template of a block that is still to be made. -/
def Carried.template? : Carried → Option Template
  | fresh template => some template
  | existing _ => none

section

-- What is read of a canvas, and the workspace does not matter to it.
variable {α : Type} (read : Canvas → α)
  (hread : ∀ (c : Canvas) (t : Forest), read { c with tree := t } = read c)

include hread

/-- What every canvas reads alike is left as an issue of an id leaves it. -/
theorem Canvas.read_take (c : Canvas) (carried : Carried) :
  read (c.take carried).2
    = carried.template?.elim (read c) fun template => read (c.issue template).2
  := by
  cases carried with
  | fresh template => rfl
  | existing b =>
    rw [Canvas.take]
    split <;> apply hread

theorem Canvas.read_place (c : Canvas) (carried : Carried)
    (put : Forest → Block → Except Rejection (Outcome × Forest)) :
  read (c.place carried put).2
    = carried.template?.elim (read c) fun template => read (c.issue template).2
  := by
  rw [← Canvas.read_take read hread, Canvas.place]
  generalize c.take carried = taken
  obtain ⟨result, after⟩ := taken
  cases result with
  | error failure =>
    cases failure with
    | rejected reason => apply hread
    | panicked id => rfl
  | ok b =>
    dsimp only
    split <;> apply hread

/-- Apart from the workspace, a plan leaves the canvas as the making of the block that it puts down
leaves it. -/
theorem Canvas.read_apply (c : Canvas) (plan : Plan) :
  read (c.apply plan).2
    = (plan.carried?.bind Carried.template?).elim (read c) fun template => read (c.issue template).2
  := by
  cases plan with
  | slot carried holder slot evicts => apply Canvas.read_place read hread
  | insert carried container anchor => apply Canvas.read_place read hread
  | dispose block =>
    cases block with
    | none => rfl
    | some id =>
      rw [Canvas.apply, Canvas.dispose]
      split <;> apply hread

end

/-- A drop leaves what the end of the gesture leaves. -/
theorem Canvas.drop_snd (c : Canvas) (palette : Palette) (layout : Layout) (target : Target) :
  (c.drop palette layout target).2 = (c.finish palette layout target).2
  := rfl

/-- A drop reports the reason of the failure, whichever kind that is. -/
theorem Canvas.drop_fst (c : Canvas) (palette : Palette) (layout : Layout) (target : Target) :
  (c.drop palette layout target).1 = (c.finish palette layout target).1.mapError Failure.reason
  := rfl

/-- A drop is accepted exactly if its gesture ends well. -/
theorem Canvas.drop_eq_ok_iff {c : Canvas} {palette : Palette} {layout : Layout} {target : Target}
    {outcome : Outcome} :
  (c.drop palette layout target).1 = .ok outcome
    ↔ (c.finish palette layout target).1 = .ok outcome
  := by
  rw [Canvas.drop_fst]
  cases (c.finish palette layout target).1 <;> simp [Except.mapError]

theorem Canvas.drop_eq_error_iff {c : Canvas} {palette : Palette} {layout : Layout}
    {target : Target} {reason : Rejection} :
  (c.drop palette layout target).1 = .error reason
    ↔ ∃ failure, (c.finish palette layout target).1 = .error failure ∧ failure.reason = reason
  := by
  rw [Canvas.drop_fst]
  cases (c.finish palette layout target).1 <;> simp [Except.mapError]

/-- Where ids are distinct, what a plan carries can be taken out, and the rest of the tree is left. -/
theorem Canvas.take_spec {c : Canvas} (hids : (Forest.ids c.tree).Nodup) {carried : Carried}
    (hplaced : carried.IsPlaced c.tree) :
  (c.take carried).1 = .ok (c.brought carried) ∧ (c.take carried).2.tree = carried.rest c.tree
  := by
  cases carried with
  | fresh template => exact ⟨rfl, rfl⟩
  | existing b =>
    rw [Canvas.take, Forest.takeOut_of_find? hids hplaced]
    exact ⟨rfl, rfl⟩

/-- What can be put down is put down. -/
theorem Canvas.place_spec {c : Canvas} (hids : (Forest.ids c.tree).Nodup) {carried : Carried}
    (hplaced : carried.IsPlaced c.tree) (put : Forest → Block → Except Rejection (Outcome × Forest))
    {outcome : Outcome} {t : Forest}
    (hput : put (carried.rest c.tree) (c.brought carried) = .ok (outcome, t)) :
  (c.place carried put).1 = .ok outcome ∧ (c.place carried put).2.tree = t
  := by
  obtain ⟨hblock, htree⟩ := Canvas.take_spec hids hplaced
  rw [Canvas.place]
  generalize c.take carried = taken at hblock htree
  obtain ⟨result, after⟩ := taken
  cases hblock
  dsimp only at htree ⊢
  rw [htree, hput]
  exact ⟨rfl, rfl⟩

/-- What a slot of a sound tree loses to a new occupant is its occupant. -/
theorem Canvas.evicted?_of_sound {t : Forest} {C : Context} {face : Face}
    {children : Option Forest} {before after : Slots} {content : Content Block}
    (ht : Forest.Sound t) (h : t = C.fill ⟨face, children, before ++ content :: after⟩) :
  Canvas.evicted? content = content.block?
  := by
  cases content with
  | empty => rfl
  | literal value => rfl
  | block b =>
    rw [h] at ht
    have hb := ((Context.sound_of_fill ht).occupant b rfl).fitsKind.placed
    obtain ⟨⟨id, templateId, kind, label, operator, palette⟩, children, slots⟩ := b
    cases hb
    rfl

/-- What a plan for a gesture from `source` comes to: the outcome, and the workspace afterwards. -/
inductive Canvas.Drops (c : Canvas) (palette : Palette) (source : Source) :
    Plan → Outcome → Forest → Prop where
  | ignore (templateId : String) (hsource : source = .palette templateId) :
      Drops c palette source (.dispose none) .ignored c.tree
  | delete {id : String} {b : Block} (hsource : source = .workspace id)
      (hfind : Forest.find? id c.tree = some b) :
      Drops c palette source (.dispose (some id)) (.deleted id b.size) (c.tree.without id)
  | slot {carried : Carried} {face : Face} {children : Option Forest} {before after : Slots}
      {h : Block} {held content : Content Block} {spec : SlotSpec} (C : Context)
      (hcarry : Plan.carry c.tree palette source = .ok carried)
      (hholder : Forest.find? face.id c.tree = some h)
      (hheld : h.slots[before.length]? = some held) (hcontent : held.prune carried.isFace = content)
      (hrest : carried.rest c.tree = C.fill ⟨face, children, before ++ content :: after⟩)
      (hspec : face.kind.slots[before.length]? = some spec)
      (haccepts : carried.category ∈ spec.accepts) :
      Drops c palette source
        (.slot carried face.id before.length (content.block?.map Block.id))
        (.slotted (c.brought carried).id face.id before.length (content.block?.map Block.id))
        ((C.inside (.slot face children before after)).fill (c.brought carried)
          ++ content.block?.toList)
  | insert {carried : Carried} {container : Container} {a : Anchor} {before after : Forest}
      (C : Context) (hcarry : Plan.carry c.tree palette source = .ok carried)
      (hclear : C.clear = carried.rest c.tree)
      (hlocation : C.location = ⟨container, before.length⟩)
      (hsequence : Forest.sequence? (C.fill (c.brought carried)) container
        = some (before ++ c.brought carried :: after))
      (hmarks : a.Marks after) :
      Drops c palette source (.insert carried container a)
        (.inserted (c.brought carried).id container) (C.fill (c.brought carried))

theorem Canvas.drops_slot {c : Canvas} (ht : Forest.Valid c.tree) {palette : Palette}
    {source : Source} {carried : Carried} {holder : String} {index : Nat} {h : Block}
    {spec : SlotSpec} {content : Content Block}
    (hcarry : Plan.carry c.tree palette source = .ok carried)
    (hholder : Forest.find? holder c.tree = some h) (hspec : h.kind.slots[index]? = some spec)
    (houtside : ∀ b, carried.block? = some b → holder ∉ b.ids)
    (haccepts : carried.category ∈ spec.accepts) (hcontent : h.slots[index]? = some content) :
  ∃ outcome t, Canvas.putInSlot (carried.rest c.tree) (c.brought carried) holder index
      = .ok (outcome, t)
    ∧ c.Drops palette source (.slot carried holder index
        ((content.block?.filter fun b => carried.block?.map Block.id ≠ some b.id).map Block.id))
      outcome t
  := by
  have hplaced := Plan.isPlaced_of_carry hcarry
  have hfind := Carried.find?_rest ht.nodup hplaced hholder houtside
  have hslot : (h.prune carried.isFace).slots[index]? = some (content.prune carried.isFace) := by
    rw [Block.slots_prune, Slots.prune_eq_map, List.getElem?_map, hcontent, Option.map_some]
  obtain ⟨C, before, after, hrest, rfl, hplace⟩ :=
    Forest.placeInSlot?_of_find? hfind hslot (c.brought carried)
  have hid : holder = h.face.id := (Forest.id_of_find? hholder).symm
  rw [Block.face_prune] at hrest hplace
  have hevicted := Canvas.evicted?_of_sound (Carried.valid_rest ht carried).sound hrest
  rw [← Carried.block?_prune]
  subst hid
  refine ⟨_, _, ?_, Canvas.Drops.slot C hcarry hholder hcontent rfl hrest hspec haccepts⟩
  rw [Canvas.putInSlot, hplace]
  simp only [hevicted]
  cases (content.prune carried.isFace).block? with
  | none => simp
  | some old => rfl

theorem Canvas.drops_insert {c : Canvas} (ht : Forest.Valid c.tree) {palette : Palette}
    {source : Source} {carried : Carried} {container : Container} (pointer : Single)
    (layout : Layout) (hcarry : Plan.carry c.tree palette source = .ok carried)
    (hopen : Container.IsOpen c.tree carried.block? container) :
  ∃ a, Plan.ofInsert c.tree carried container pointer layout = .insert carried container a
    ∧ ∃ outcome t, Canvas.putInList (carried.rest c.tree) (c.brought carried) container a
      = .ok (outcome, t) ∧ c.Drops palette source (.insert carried container a) outcome t
  := by
  have hplaced := Plan.isPlaced_of_carry hcarry
  obtain ⟨⟨bs, hbs⟩, houtside⟩ := hopen
  have hrest := Carried.sequence?_rest ht.nodup hplaced hbs houtside
  rw [Plan.ofInsert, hbs, Option.getD_some]
  generalize ha : Anchor.ofPointer bs pointer layout (carried.block?.map Block.id) = a
  refine ⟨a, rfl, ?_⟩
  have hmember : ∀ id, a = .before id → id ∈ (Forest.prune carried.isFace bs).map Block.id := by
    rintro id rfl
    obtain ⟨hmem, hskip⟩ := Anchor.mem_of_ofPointer ha
    obtain ⟨b, hb, rfl⟩ := List.mem_map.mp hmem
    rw [Forest.map_id_prune]
    apply List.mem_map_of_mem
    apply List.mem_filter.mpr
    use hb
    rw [Carried.isFace, Bool.not_eq_true', decide_eq_false_iff_not]
    apply hskip
  obtain ⟨C, hinsert, hclear, hlocation, hsequence⟩ :=
    Forest.insert?_of_sequence? hrest a (c.brought carried)
  have hlength := List.length_take_of_le (a.position_le (Forest.prune carried.isFace bs))
  rw [← hlength] at hlocation
  refine ⟨_, _, ?_, Canvas.Drops.insert C hcarry hclear hlocation hsequence
    (Anchor.marks_drop hmember)⟩
  rw [Canvas.putInList, hinsert]

/-- In a valid workspace, every plan of a gesture is carried out. -/
theorem Canvas.drops_of_settled {c : Canvas} (ht : Forest.Valid c.tree) {palette : Palette}
    {source : Source} {plan : Plan} (h : Plan.Settled c.tree palette source plan) :
  ∃ outcome, (c.apply plan).1 = .ok outcome
    ∧ c.Drops palette source plan outcome (c.apply plan).2.tree
  := by
  cases h with
  | ignore templateId hsource => exact ⟨_, rfl, Canvas.Drops.ignore templateId hsource⟩
  | dispose hsource hfind =>
    rw [Canvas.apply, Canvas.dispose, Forest.takeOut_of_find? ht.nodup hfind]
    exact ⟨_, rfl, Canvas.Drops.delete hsource hfind⟩
  | @slot _ holder index _ _ _ hcarry hholder hspec houtside haccepts hcontent =>
    obtain ⟨outcome, t, hput, hdrops⟩ :=
      Canvas.drops_slot ht hcarry hholder hspec houtside haccepts hcontent
    have hplaced := Plan.isPlaced_of_carry hcarry
    obtain ⟨hresult, htree⟩ := Canvas.place_spec ht.nodup hplaced
      (fun t b => Canvas.putInSlot t b holder index) hput
    use outcome, hresult
    rw [Canvas.apply, htree]
    apply hdrops
  | @insert _ container pointer layout hcarry hopen =>
    obtain ⟨a, hplan, outcome, t, hput, hdrops⟩ :=
      Canvas.drops_insert ht pointer layout hcarry hopen
    have hplaced := Plan.isPlaced_of_carry hcarry
    obtain ⟨hresult, htree⟩ := Canvas.place_spec ht.nodup hplaced
      (fun t b => Canvas.putInList t b container a) hput
    rw [hplan]
    use outcome, hresult
    rw [Canvas.apply, htree]
    apply hdrops

end BlockEditor
