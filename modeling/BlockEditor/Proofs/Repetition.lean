import BlockEditor.Proofs.Containers

/-!
# Repeated moves

What a drop of a placed block does depends on the block and on what is left when it is taken out.  A
drop into a list leaves the same when the block is taken out again, so the next drop on the same target
finds the same list and the same anchor.  A drop into a slot leaves the block in that slot, and the next
one puts it back.  So a move that is repeated comes to the same, and nothing more is evicted.
-/

namespace BlockEditor

/-! ### Plans for what is left -/

/-- The skipped block may be taken out of the list. -/
theorem Anchor.filterMap_candidate?_prune {layout : Layout} {pointer : Single} {b : Block}
    (bs : List Block) :
  (Forest.prune (Carried.existing b).isFace bs).filterMap (candidate? layout pointer (some b.id))
    = bs.filterMap (candidate? layout pointer (some b.id))
  := by
  rw [Forest.prune_eq_map, List.filterMap_map, List.filterMap_filter, Carried.isFace_existing]
  congr 1
  funext c
  by_cases hid : c.face.id = b.id
  · have hskip : candidate? layout pointer (some b.id) c = none := by
      rw [candidate?]
      apply if_pos
      simp [Block.id, hid]
    simp [hid, hskip]
  · simp [hid, candidate?, Block.palette]

section

variable {t t' : Forest} (ht : Forest.Valid t) (ht' : Forest.Valid t') {b : Block}
  (hb : Forest.find? b.id t = some b) (hb' : Forest.find? b.id t' = some b)
  (hrest : t'.without b.id = t.without b.id)

include ht ht' hb hb' hrest

/-- A drop into a list has the same anchor in workspaces that differ in the place of the carried block
alone. -/
theorem Plan.ofInsert_congr {container : Container}
    (hopen : Container.IsOpen t (some b) container) (hopen' : Container.IsOpen t' (some b) container)
    (pointer : Single) (layout : Layout) :
  Plan.ofInsert t' (.existing b) container pointer layout
    = Plan.ofInsert t (.existing b) container pointer layout
  := by
  obtain ⟨⟨bs, hbs⟩, houtside⟩ := hopen
  obtain ⟨⟨bs', hbs'⟩, houtside'⟩ := hopen'
  have hplaced : (Carried.existing b).IsPlaced t := hb
  have hplaced' : (Carried.existing b).IsPlaced t' := hb'
  have hleft := Carried.sequence?_rest ht.nodup hplaced hbs houtside
  have hleft' := Carried.sequence?_rest ht'.nodup hplaced' hbs' houtside'
  rw [Carried.rest, hrest] at hleft'
  have hprune := Option.some.inj (hleft'.symm.trans hleft)
  rw [Plan.ofInsert, Plan.ofInsert, hbs, hbs']
  congr 1
  apply Anchor.ofPointer_congr
  rw [Carried.block?, Option.map_some, Option.getD_some, Option.getD_some,
    ← Anchor.filterMap_candidate?_prune, hprune, Anchor.filterMap_candidate?_prune]

/-- A drop over a block outside of the carried one goes to the same list in workspaces that differ in the
place of the carried block alone. -/
theorem Plan.nestContainer_congr {id : String} (houtside : id ∉ b.ids) :
  Plan.nestContainer t' (some b) id = Plan.nestContainer t (some b) id
  := by
  calc Plan.nestContainer t' (some b) id
      = Plan.nestContainer (t'.without b.id) none id :=
        (Plan.nestContainer_without ht' hb' houtside).symm
    _ = Plan.nestContainer (t.without b.id) none id := by rw [hrest]
    _ = Plan.nestContainer t (some b) id := Plan.nestContainer_without ht hb houtside

end

/-! ### Blocks in slots -/

section

variable {t : Forest} {holder b : Block} {index : Nat}
  (hholder : Forest.find? holder.id t = some holder)
  (hslot : holder.slots[index]? = some (.block b))

include hholder hslot

/-- A block that is taken out of a slot can be put back. -/
theorem Canvas.putInSlot_without (hids : (Forest.ids t).Nodup) :
  Canvas.putInSlot (t.without b.id) b holder.id index = .ok (.slotted b.id holder.id index none, t)
  := by
  obtain ⟨C, face, children, before, after, rfl, rfl, rfl, hC⟩ :=
    Forest.exists_fill_of_slot hholder hslot
  obtain ⟨hearlier, hlater⟩ :=
    Context.notMem_of_nodup (C := C.inside (.slot face children before after)) hids b.id_mem_ids
  have hrest := Context.without_fill_self hearlier hlater
  have hput := Context.placeInSlot?_fill hC children before after .empty b
  rw [Context.fill, Frame.fill] at hrest
  rw [hrest, Canvas.putInSlot, Block.id, Context.clear, Frame.clear, hput]
  rfl

/-- A drop of a block on the slot that it is in is accepted and evicts nothing. -/
theorem Plan.ofSlot_self (ht : Forest.Valid t) :
  Plan.ofSlot t (.existing b) holder.id index = .ok (.slot (.existing b) holder.id index none)
  := by
  have hfits := ht.sound holder (Forest.mem_walk_of_find? hholder)
  obtain ⟨spec, hspec, hadmits⟩ := hfits.exists_spec_of_slot hslot
  have hcategory : spec.accepts.contains b.category = true := List.contains_iff_mem.mpr hadmits
  have houtside : (some b).filter (·.contains holder.id) = none := by
    obtain ⟨C, face, children, before, after, rfl, -, rfl, -⟩ :=
      Forest.exists_fill_of_slot hholder hslot
    apply Option.filter_eq_none_iff.mpr
    rintro _ ⟨⟩
    rw [Block.contains_iff]
    intro hmem
    have hearlier :=
      (Context.notMem_of_nodup (C := C.inside (.slot face children before after)) ht.nodup hmem).1
    apply hearlier
    apply List.mem_append_right _ (Frame.face_id_mem_earlier _)
  simp only [Plan.ofSlot, hholder, hspec, Carried.block?, houtside, Carried.category, hcategory, hslot]
  simp [Content.block?]

end

/-! ### Drops of placed blocks -/

theorem Plan.carry_workspace {t : Forest} {b : Block} (hb : Forest.find? b.id t = some b)
    (palette : Palette) :
  Plan.carry t palette (.workspace b.id) = .ok (.existing b)
  := by
  rw [Plan.carry, hb]

theorem Plan.ofGesture_block {t : Forest} {b : Block} (hb : Forest.find? b.id t = some b)
    {asked : String} {container : Container}
    (hnest : Plan.nestContainer t (some b) asked = .ok container) (palette : Palette)
    (layout : Layout) (pointer : Single) :
  Plan.ofGesture t palette layout (.workspace b.id) (.block asked pointer)
    = .ok (Plan.ofInsert t (.existing b) container pointer layout)
  := by
  rw [Plan.ofGesture, Plan.carry_workspace hb]
  change (Plan.nestContainer t (some b) asked).bind (fun container =>
    .ok (Plan.ofInsert t (.existing b) container pointer layout)) = _
  rw [hnest]
  rfl

theorem Plan.exists_of_carry_workspace {t : Forest} {palette : Palette} {id : String}
    {carried : Carried} (h : Plan.carry t palette (.workspace id) = .ok carried) :
  ∃ b, b.id = id ∧ Forest.find? b.id t = some b ∧ carried = .existing b
  := by
  rw [Plan.carry] at h
  cases hfind : Forest.find? id t with
  | none =>
    rw [hfind] at h
    contradiction
  | some b =>
    rw [hfind] at h
    obtain rfl := Forest.id_of_find? hfind
    exact ⟨b, rfl, hfind, (Except.ok.inj h).symm⟩

namespace Canvas

/-- Moving a block keeps the workspace valid, for it needs no stamp. -/
theorem Drops.valid_of_existing {c : Canvas} (ht : Forest.Valid c.tree) {palette : Palette}
    {source : Source} {plan : Plan} {outcome : Outcome} {t : Forest}
    (h : c.Drops palette source plan outcome t) {b : Block}
    (hcarried : plan.carried? = some (.existing b)) :
  Forest.Valid t
  := by
  apply h.valid ht
  intro carried hbrought
  cases hcarried.symm.trans hbrought
  trivial

section

variable {c : Canvas} {b : Block} (ht : Forest.Valid c.tree)
  (hb : Forest.find? b.id c.tree = some b)

include ht hb

/-- A placed block that can be put down is put down, and nothing but the workspace changes. -/
theorem place_existing (put : Forest → Block → Except Rejection (Outcome × Forest))
    {outcome : Outcome} {t : Forest} (hput : put (c.tree.without b.id) b = .ok (outcome, t)) :
  c.place (.existing b) put = (.ok outcome, { c with tree := t })
  := by
  simp only [place, take, Forest.takeOut_of_find? ht.nodup hb, hput]

theorem apply_insert {container : Container} {a : Anchor} {outcome : Outcome} {t : Forest}
    (hput : putInList (c.tree.without b.id) b container a = .ok (outcome, t)) :
  c.apply (.insert (.existing b) container a) = (.ok outcome, { c with tree := t })
  := place_existing ht hb (putInList · · container a) hput

theorem apply_slot {holder : String} {index : Nat} {evicts : Option String} {outcome : Outcome}
    {t : Forest} (hput : putInSlot (c.tree.without b.id) b holder index = .ok (outcome, t)) :
  c.apply (.slot (.existing b) holder index evicts) = (.ok outcome, { c with tree := t })
  := place_existing ht hb (putInSlot · · holder index) hput

/-- A drop of a placed block into a list puts it into an open place of what is left. -/
theorem exists_insert {container : Container}
    (hopen : Container.IsOpen c.tree (some b) container) (pointer : Single) (layout : Layout) :
  ∃ (C : Context) (a : Anchor), C.clear = c.tree.without b.id ∧ C.location.container = container
    ∧ Forest.Valid (C.fill b)
    ∧ Plan.ofInsert c.tree (.existing b) container pointer layout
      = .insert (.existing b) container a
    ∧ putInList (c.tree.without b.id) b container a = .ok (.inserted b.id container, C.fill b)
  := by
  have hcarry := Plan.carry_workspace hb fun _ => none
  obtain ⟨a, hplan, outcome, t, hput, hdrops⟩ := drops_insert ht pointer layout hcarry hopen
  have hvalid := hdrops.valid_of_existing ht rfl
  cases hdrops with
  | insert C _ hclear hlocation _ _ =>
    exact ⟨C, a, hclear, congrArg Location.container hlocation, hvalid, hplan, hput⟩

/-- A drop of a placed block into a slot leaves it in that slot. -/
theorem exists_slot {holder : String} {index : Nat} {plan : Plan}
    (hplan : Plan.ofSlot c.tree (.existing b) holder index = .ok plan) :
  ∃ (evicts : Option String) (t : Forest) (h : Block),
    plan = .slot (.existing b) holder index evicts
    ∧ putInSlot (c.tree.without b.id) b holder index = .ok (.slotted b.id holder index evicts, t)
    ∧ Forest.Valid t ∧ Forest.find? holder t = some h ∧ h.slots[index]? = some (.block b)
  := by
  have hcarry := Plan.carry_workspace hb fun _ => none
  obtain ⟨_, _, _, hholder, hspec, houtside, haccepts, hcontent, rfl⟩ := Plan.exists_of_ofSlot hplan
  obtain ⟨outcome, t, hput, hdrops⟩ :=
    drops_slot ht hcarry hholder hspec houtside haccepts hcontent
  have hvalid := hdrops.valid_of_existing ht rfl
  -- What is evicted is what the drop tells, whatever the holder held.
  generalize (Option.map Block.id (Option.filter _ _)) = evicts at hdrops ⊢
  cases hdrops with
  | @slot _ face children before after _ _ _ _ C _ _ _ _ _ _ _ =>
    have hnodup := hvalid.nodup
    rw [Forest.ids_append] at hnodup
    have hfind := Context.find?_holder (C := C) (F := .slot face children before after) (b := b)
      (List.nodup_append.mp hnodup).1
    refine ⟨_, _, _, rfl, hput, hvalid, Forest.find?_append_of_eq_some hfind _, ?_⟩
    simp [Frame.fill]

end

/-- A gesture whose plan can be carried out has that outcome. -/
theorem drop_start {c : Canvas} {source : Source} {palette : Palette} {layout : Layout}
    {target : Target} {plan : Plan} {outcome : Outcome} {after : Canvas}
    (hplan : Plan.ofGesture c.tree palette layout source target = .ok plan)
    (happly : c.cancel.apply plan = (.ok outcome, after)) :
  (c.start source).drop palette layout target = (.ok outcome, after)
  := by
  have hfinish : (c.start source).finish palette layout target = (.ok outcome, after) := by
    simp only [finish, start, hplan]
    apply happly
  rw [drop, hfinish]
  rfl

theorem exists_plan_of_drop {c : Canvas} {source : Source} {palette : Palette} {layout : Layout}
    {target : Target} {outcome : Outcome}
    (h : ((c.start source).drop palette layout target).1 = .ok outcome) :
  ∃ plan, Plan.ofGesture c.tree palette layout source target = .ok plan
  := by
  rw [drop_eq_ok_iff, finish] at h
  cases hplan : Plan.ofGesture c.tree palette layout source target with
  | ok plan => use plan
  | error reason =>
    simp only [start, hplan] at h
    contradiction

section

variable {c : Canvas} {b : Block} {palette : Palette} {layout : Layout} (ht : Forest.Valid c.tree)
  (hb : Forest.find? b.id c.tree = some b)

include ht hb

/-- A drop of a placed block into a list changes nothing the second time, if it goes to the same list. -/
theorem drop_again_of_list {target : Target} {container : Container} {pointer : Single}
    (hopen : Container.IsOpen c.tree (some b) container)
    (hplan : Plan.ofGesture c.tree palette layout (.workspace b.id) target
      = .ok (Plan.ofInsert c.tree (.existing b) container pointer layout))
    (hagain : ∀ C : Context, C.clear = c.tree.without b.id → C.location.container = container →
      Forest.Valid (C.fill b) → Forest.find? b.id (C.fill b) = some b →
      Container.IsOpen (C.fill b) (some b) container
        ∧ Plan.ofGesture (C.fill b) palette layout (.workspace b.id) target
          = .ok (Plan.ofInsert (C.fill b) (.existing b) container pointer layout)) :
  ∃ after, (c.start (.workspace b.id)).drop palette layout target
      = (.ok (.inserted b.id container), after)
    ∧ (after.start (.workspace b.id)).drop palette layout target
      = (.ok (.inserted b.id container), after)
  := by
  obtain ⟨C, a, hclear, hcontainer, hvalid, hinsert, hput⟩ :=
    exists_insert ht hb hopen pointer layout
  obtain ⟨hearlier, hlater⟩ := Context.notMem_of_nodup hvalid.nodup b.id_mem_ids
  have hb' := Context.find?_fill_self hearlier
  have hrest : (C.fill b).without b.id = c.tree.without b.id := by
    rw [Context.without_fill_self hearlier hlater, hclear]
  obtain ⟨hopen', hplan'⟩ := hagain C hclear hcontainer hvalid hb'
  rw [Plan.ofInsert_congr ht hvalid hb hb' hrest hopen hopen', hinsert] at hplan'
  rw [hinsert] at hplan
  use { c.cancel with tree := C.fill b }
  constructor
  · apply drop_start hplan
    apply apply_insert (c := c.cancel) ht hb hput
  · apply drop_start hplan'
    apply apply_insert (c := { c.cancel with tree := C.fill b }) hvalid hb'
    rw [hrest]
    apply hput

/-- A drop of a placed block into a slot changes nothing the second time, and evicts nothing. -/
theorem drop_again_of_slot {holder : String} {index : Nat} {plan : Plan}
    (hplan : Plan.ofSlot c.tree (.existing b) holder index = .ok plan) :
  ∃ after evicts, (c.start (.workspace b.id)).drop palette layout (.slot holder index)
      = (.ok (.slotted b.id holder index evicts), after)
    ∧ (after.start (.workspace b.id)).drop palette layout (.slot holder index)
      = (.ok (.slotted b.id holder index none), after)
  := by
  obtain ⟨evicts, t, h, rfl, hput, hvalid, hholder, hheld⟩ :=
    exists_slot (c := c.cancel) ht hb hplan
  obtain rfl := Forest.id_of_find? hholder
  have hb' : Forest.find? b.id t = some b := by
    apply Forest.find?_of_mem_walk hvalid.nodup
    apply Forest.walk_subset (Forest.mem_walk_of_find? hholder)
    apply Block.mem_walk_of_slot hheld
  have hfirst : Plan.ofGesture c.tree palette layout (.workspace b.id) (.slot h.id index)
      = .ok (.slot (.existing b) h.id index evicts) := by
    rw [Plan.ofGesture, Plan.carry_workspace hb]
    apply hplan
  have hsecond : Plan.ofGesture t palette layout (.workspace b.id) (.slot h.id index)
      = .ok (.slot (.existing b) h.id index none) := by
    rw [Plan.ofGesture, Plan.carry_workspace hb']
    apply Plan.ofSlot_self hholder hheld hvalid
  use { c.cancel with tree := t }, evicts
  constructor
  · apply drop_start hfirst
    apply apply_slot (c := c.cancel) ht hb hput
  · apply drop_start hsecond
    apply apply_slot (c := { c.cancel with tree := t }) hvalid hb'
    apply putInSlot_without hholder hheld hvalid.nodup

end

end Canvas

/-- A drop over a block goes to the list in which the carried block stands, if a drop over that block has
put it there. -/
theorem Plan.nestContainer_again {t : Forest} (ht : Forest.Valid t) {C : Context} {b : Block}
    (hb : Forest.find? b.id t = some b) (hC : Forest.Valid (C.fill b))
    (hclear : C.clear = t.without b.id) {id : String}
    (h : Plan.nestContainer t (some b) id = .ok C.location.container) :
  Plan.nestContainer (C.fill b) (some b) id = .ok C.location.container
  := by
  obtain ⟨hearlier, hlater⟩ := Context.notMem_of_nodup hC.nodup b.id_mem_ids
  by_cases hinside : id ∈ b.ids
  · -- The climb starts at the carried block, and ends there, for it stands in a list.
    have hclosed : (b.kind.acceptsChildren && some b.id != some b.id) = false := by simp
    have hplaced : ∀ c, some b = some c → Forest.find? c.id t = some c := by
      rintro _ ⟨⟩
      apply hb
    obtain ⟨⟨bs, hbs⟩, -⟩ := Plan.isOpen_of_nestContainer ht hplaced h
    rw [Plan.nestContainer_of_inside hinside,
      Plan.climb_of_list hC.nodup hclosed (Context.inSlot_of_sequence? hbs)]
  · have hrest : (C.fill b).without b.id = t.without b.id := by
      rw [Context.without_fill_self hearlier hlater, hclear]
    rw [Plan.nestContainer_congr ht hC hb (Context.find?_fill_self hearlier) hrest hinside, h]

/-! ### The same gesture twice -/

/-- What a drop did, but for what it evicted. -/
def Outcome.withoutEviction : Outcome → Outcome
  | .slotted id holder slot _ => .slotted id holder slot none
  | outcome => outcome

/-- A placed block that is dropped on a target once more stays where the first drop has put it. -/
theorem Canvas.drop_again {c : Canvas} (ht : Forest.Valid c.tree) {palette : Palette}
    {layout : Layout} {id : String} {target : Target} (htarget : target ≠ .disposal)
    {outcome : Outcome} {after : Canvas}
    (h : (c.start (.workspace id)).drop palette layout target = (.ok outcome, after)) :
  (after.start (.workspace id)).drop palette layout target = (.ok outcome.withoutEviction, after)
  := by
  obtain ⟨plan, hplan⟩ := Canvas.exists_plan_of_drop (congrArg Prod.fst h)
  cases target with
  | disposal => contradiction
  | outside => contradiction
  | slot holder index =>
    obtain ⟨carried, hcarry, hslot⟩ := exists_of_bind_eq_ok hplan
    obtain ⟨b, rfl, hb, rfl⟩ := Plan.exists_of_carry_workspace hcarry
    obtain ⟨_, evicts, hfirst, hsecond⟩ := Canvas.drop_again_of_slot ht hb hslot
    cases h.symm.trans hfirst
    apply hsecond
  | block asked pointer =>
    obtain ⟨carried, hcarry, hrest⟩ := exists_of_bind_eq_ok hplan
    obtain ⟨b, rfl, hb, rfl⟩ := Plan.exists_of_carry_workspace hcarry
    obtain ⟨container, hnest, hinsert⟩ := exists_of_bind_eq_ok hrest
    cases hinsert
    have hplaced {t : Forest} (hb : Forest.find? b.id t = some b) :
        ∀ x, some b = some x → Forest.find? x.id t = some x := fun x hx => Option.some.inj hx ▸ hb
    have hopen := Plan.isOpen_of_nestContainer ht (hplaced hb) hnest
    have hlist := Canvas.drop_again_of_list ht hb hopen hplan
    obtain ⟨_, hfirst, hsecond⟩ := hlist fun C hclear hcontainer hvalid hb' => by
      subst hcontainer
      have hnest' := Plan.nestContainer_again ht hb hvalid hclear hnest
      use Plan.isOpen_of_nestContainer hvalid (hplaced hb') hnest'
      apply Plan.ofGesture_block hb' hnest'
    cases h.symm.trans hfirst
    apply hsecond
  | workspace pointer =>
    obtain ⟨carried, hcarry, hinsert⟩ := exists_of_bind_eq_ok hplan
    obtain ⟨b, rfl, hb, rfl⟩ := Plan.exists_of_carry_workspace hcarry
    cases hinsert
    have hlist := Canvas.drop_again_of_list ht hb (Container.isOpen_root c.tree (some b)) hplan
    obtain ⟨_, hfirst, hsecond⟩ := hlist fun C _ _ _ hb' => by
      use Container.isOpen_root (C.fill b) (some b)
      rw [Plan.ofGesture, Plan.carry_workspace hb']
      rfl
    cases h.symm.trans hfirst
    apply hsecond

/-- A drop of an editor is one on its canvas, and leaves the palette. -/
theorem Editor.drop_startDrag_iff {e after : Editor} {source : Source} {layout : Layout}
    {target : Target} {result : Except Rejection Outcome} :
  (e.startDrag source).drop layout target = (result, after)
    ↔ (e.canvas.start source).drop e.palette layout target = (result, after.canvas)
      ∧ after.catalog = e.catalog ∧ after.registry = e.registry
  := by
  constructor
  · intro h
    cases h
    exact ⟨rfl, rfl, rfl⟩
  · rintro ⟨h, hcatalog, hregistry⟩
    obtain ⟨catalog, registry, canvas⟩ := after
    cases hcatalog
    cases hregistry
    apply congrArg (fun r => (r.1, (⟨e.catalog, e.registry, r.2⟩ : Editor))) h

/-- In a session that starts with the empty workspace, a placed block that is dropped on a target that
takes it may be dropped there again, which evicts nothing and changes nothing. -/
theorem Editor.drop_twice {catalog : Catalog} {registry : Registry} {clock : Clock} {e : Editor}
    (h : Editor.Reaches (.new catalog registry clock) e) {id : String} {layout : Layout}
    {target : Target} (htarget : target ≠ .disposal) {outcome : Outcome} {after : Editor}
    (hdrop : (e.startDrag (.workspace id)).drop layout target = (.ok outcome, after)) :
  (after.startDrag (.workspace id)).drop layout target = (.ok outcome.withoutEviction, after)
  := by
  obtain ⟨hfirst, hcatalog, hregistry⟩ := Editor.drop_startDrag_iff.mp hdrop
  have hsecond := Canvas.drop_again (h.valid Forest.valid_nil) htarget hfirst
  have hpalette : after.palette = e.palette := by
    rw [Editor.palette, hcatalog, hregistry, Editor.palette]
  apply Editor.drop_startDrag_iff.mpr
  rw [hpalette]
  exact ⟨hsecond, rfl, rfl⟩

/-- A variable that is dropped on the slot of another one takes its place, and keeps it when it is dropped
there again. -/
theorem Editor.drop_twice_evicting :
  ∃ e after, Editor.Reaches (.new .stock .standard (.fixed 0)) e
    ∧ (e.startDrag (.workspace "block-get-Y-pos-2")).drop .hidden (.slot "block-repeat-0" 0)
      = (.ok (.slotted "block-get-Y-pos-2" "block-repeat-0" 0 (some "block-get-X-pos-1")), after)
    ∧ (after.startDrag (.workspace "block-get-Y-pos-2")).drop .hidden (.slot "block-repeat-0" 0)
      = (.ok (.slotted "block-get-Y-pos-2" "block-repeat-0" 0 none), after)
  := by
  have hrepeat := Editor.reaches_drop .stock .standard (.fixed 0) (.palette "block-repeat") .hidden
    (.workspace .zero)
  have hheld := hrepeat.drag (.palette "block-get-X-pos") .hidden (.slot "block-repeat-0" 0)
    (by decide)
  have hother := hheld.drag (.palette "block-get-Y-pos") .hidden (.workspace .zero) (by decide)
  obtain ⟨e, after, he, hfirst⟩ :
      ∃ e after, Editor.Reaches (.new .stock .standard (.fixed 0)) e
        ∧ (e.startDrag (.workspace "block-get-Y-pos-2")).drop .hidden (.slot "block-repeat-0" 0)
          = (.ok (.slotted "block-get-Y-pos-2" "block-repeat-0" 0 (some "block-get-X-pos-1")), after) :=
    ⟨_, _, hother, rfl⟩
  exact ⟨e, after, he, hfirst, Editor.drop_twice he (by decide) hfirst⟩

end BlockEditor
