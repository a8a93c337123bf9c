import BlockEditor.Gesture.Plan
import BlockEditor.Proofs.Anchors
import BlockEditor.Proofs.Validity

/-!
# What a plan has settled

A plan of a gesture is one of four: it throws nothing away, it throws a placed block away, it fills
a slot, or it inserts into a list.  `Plan.Settled` states what is known of the workspace in each of
these cases, and `Plan.ofGesture` gives no other plans.  In a valid workspace, the list that a drop
over a block goes to is there, and it stands outside of the carried block.
-/

namespace BlockEditor

/-! ### Holders -/

/-- Where all ids are different, a block with an id of a placed block's walk is a block of that
walk. -/
theorem Forest.mem_walk_of_mem_ids {t : Forest} (hids : (Forest.ids t).Nodup) {b c : Block}
    (hb : Forest.find? b.id t = some b) (hc : Forest.find? c.id t = some c) (h : c.id ∈ b.ids) :
  c ∈ b.walk
  := by
  obtain ⟨d, hd, hid⟩ := List.mem_map.mp h
  have hwalk := Forest.walk_subset (Forest.mem_walk_of_find? hb)
  have hfind := Forest.find?_of_mem_walk hids (hwalk hd)
  rw [hid, hc, Option.some.injEq] at hfind
  rw [hfind]
  apply hd

/-- The holder of a placed block stands outside of every placed block that the block is not strictly
beneath. -/
theorem Context.holder_notMem {C : Context} {F : Frame} {x b : Block}
    (hids : (Forest.ids ((C.inside F).fill x)).Nodup)
    (hb : Forest.find? b.id ((C.inside F).fill x) = some b) (hx : x.id ∈ b.ids → x.id = b.id) :
  F.face.id ∉ b.ids
  := by
  intro hmem
  have hholder := Context.find?_holder hids
  have hF : F.fill x ∈ b.walk := by
    apply Forest.mem_walk_of_mem_ids hids hb
    · rw [Frame.id_fill]
      apply hholder
    · rw [Frame.id_fill]
      apply hmem
  have hxF : x.id ∈ (F.fill x).ids := by
    rw [Frame.ids_fill]
    apply List.mem_append_left
    apply List.mem_append_right _ x.id_mem_ids
  have hxb : x.id ∈ b.ids := by
    obtain ⟨d, hd, hid⟩ := List.mem_map.mp hxF
    rw [← hid]
    apply List.mem_map_of_mem (Block.walk_subset hF hd)
  have hself : Forest.find? x.id ((C.inside F).fill x) = some x :=
    Context.find?_fill_self (Context.notMem_of_nodup hids x.id_mem_ids).1
  rw [hx hxb, hb, Option.some.injEq] at hself
  subst hself
  have houter := (Context.notMem_of_nodup hids hmem).1
  apply houter (List.mem_append_right _ F.face_id_mem_earlier)

/-! ### The list that a drop over a block goes to -/

/-- The container is a list that is there, and it stands outside of the carried block. -/
def Container.IsOpen (t : Forest) (carried : Option Block) (container : Container) : Prop :=
  (∃ bs, Forest.sequence? t container = some bs)
    ∧ ∀ b, carried = some b → ∀ holder, container = .children holder → holder ∉ b.ids

theorem Container.isOpen_root (t : Forest) (carried : Option Block) :
  Container.IsOpen t carried .root
  := ⟨⟨t, rfl⟩, fun _ _ _ h => by cases h⟩

theorem Container.isOpen_children {t : Forest} {carried : Option Block} {holder : String}
    {h : Block} (hfind : Forest.find? holder t = some h) (hchildren : h.children.isSome)
    (houtside : ∀ b, carried = some b → holder ∉ b.ids) :
  Container.IsOpen t carried (.children holder)
  := by
  obtain ⟨bs, hbs⟩ := Option.isSome_iff_exists.mp hchildren
  constructor
  · use bs
    rw [Forest.sequence?, hfind, Option.bind_some, hbs]
  · rintro b hb _ ⟨⟩
    apply houtside b hb

theorem Plan.isOpen_of_climb {t : Forest} (ht : Forest.Valid t) {carried : Option Block}
    (hcarried : ∀ b, carried = some b → Forest.find? b.id t = some b) {asked : String}
    {container : Container} :
  ∀ {fuel : Nat} {current : String},
    (∀ b, carried = some b → current ∈ b.ids → current = b.id) →
    Plan.climb t (carried.map Block.id) asked fuel current = .ok container →
    Container.IsOpen t carried container
  := by
  intro fuel
  -- `current` stays outside of the carried block, unless it is that block itself.
  induction fuel with
  | zero =>
    intro current _ h
    contradiction
  | succ fuel ih =>
    intro current hcurrent h
    rw [Plan.climb] at h
    cases hfind : Forest.find? current t with
    | none =>
      rw [hfind] at h
      contradiction
    | some x =>
      rw [hfind] at h
      obtain ⟨C, rfl, rfl, -⟩ := Forest.exists_fill hfind
      obtain ⟨he, hl⟩ := Context.notMem_of_nodup ht.nodup x.id_mem_ids
      dsimp only at h
      split at h
      · rename_i hkind
        rw [Bool.and_eq_true, bne_iff_ne] at hkind
        obtain rfl := Except.ok.inj h
        apply Container.isOpen_children hfind
        · rw [(ht.sound x (Forest.mem_walk_of_find? hfind)).children]
          apply hkind.1
        · rintro b rfl hmem
          apply hkind.2
          rw [hcurrent b rfl hmem]
          rfl
      · rw [Context.locate?_fill_self he hl] at h
        cases C with
        | top before after =>
          obtain rfl := Except.ok.inj h
          apply Container.isOpen_root
        | inside C F =>
          have hholder := Context.find?_holder ht.nodup
          have houtside : ∀ b, carried = some b → F.face.id ∉ b.ids := by
            intro b hb
            apply Context.holder_notMem ht.nodup (hcarried b hb) (hcurrent b hb)
          cases F with
          | child face before after slots =>
            obtain rfl := Except.ok.inj h
            apply Container.isOpen_children hholder rfl houtside
          | slot face children before after =>
            apply ih _ h
            intro b hb hmem
            apply absurd hmem (houtside b hb)

/-- The list that a drop over a block goes to is there, outside of the carried block. -/
theorem Plan.isOpen_of_nestContainer {t : Forest} (ht : Forest.Valid t) {carried : Option Block}
    (hcarried : ∀ b, carried = some b → Forest.find? b.id t = some b) {id : String}
    {container : Container} (h : Plan.nestContainer t carried id = .ok container) :
  Container.IsOpen t carried container
  := by
  rw [Plan.nestContainer] at h
  apply Plan.isOpen_of_climb ht hcarried _ h
  rintro b rfl hmem
  cases hid : b.contains id with
  | true =>
    have hstart : (some b).filter (·.contains id) = some b := by simp [hid]
    rw [hstart]
  | false =>
    have hstart : (some b).filter (·.contains id) = none := by simp [hid]
    rw [hstart, ← Block.contains_iff, hid] at hmem
    contradiction

/-! ### The plans of gestures -/

/-- What a carried block is: a placed one is found under its id. -/
def Carried.IsPlaced (t : Forest) : Carried → Prop
  | .fresh _ => True
  | .existing b => Forest.find? b.id t = some b

theorem Carried.IsPlaced.find? {t : Forest} {carried : Carried} (h : carried.IsPlaced t) :
  ∀ b, carried.block? = some b → Forest.find? b.id t = some b
  := by
  cases carried with
  | fresh template => exact fun _ h => by cases h
  | existing b =>
    rintro _ ⟨⟩
    apply h

theorem Plan.isPlaced_of_carry {t : Forest} {palette : Palette} {source : Source}
    {carried : Carried} (h : Plan.carry t palette source = .ok carried) :
  carried.IsPlaced t
  := by
  cases source with
  | palette id =>
    rw [Plan.carry] at h
    split at h
    · cases h
      trivial
    · contradiction
  | workspace id =>
    rw [Plan.carry] at h
    split at h
    · rename_i b hb
      cases h
      rw [Carried.IsPlaced, Forest.id_of_find? hb]
      apply hb
    · contradiction

/-- What is settled of the workspace by a plan for a gesture from `source`. -/
inductive Plan.Settled (t : Forest) (palette : Palette) (source : Source) : Plan → Prop where
  /-- Nothing is thrown away, for nothing placed is carried. -/
  | ignore (templateId : String) (hsource : source = .palette templateId) :
      Settled t palette source (.dispose none)
  /-- A placed block is thrown away. -/
  | dispose {id : String} {b : Block} (hsource : source = .workspace id)
      (hfind : Forest.find? id t = some b) : Settled t palette source (.dispose (some id))
  /-- The holder is placed, outside of the carried block, and it has the slot and accepts the carried
  category there. -/
  | slot {carried : Carried} {holder : String} {index : Nat} {h : Block} {spec : SlotSpec}
      {content : Content Block} (hcarry : Plan.carry t palette source = .ok carried)
      (hholder : Forest.find? holder t = some h) (hspec : h.kind.slots[index]? = some spec)
      (houtside : ∀ b, carried.block? = some b → holder ∉ b.ids)
      (haccepts : carried.category ∈ spec.accepts) (hcontent : h.slots[index]? = some content) :
      Settled t palette source (.slot carried holder index
        ((content.block?.filter fun b => carried.block?.map Block.id ≠ some b.id).map Block.id))
  /-- The list is there, outside of the carried block. -/
  | insert {carried : Carried} {container : Container} (pointer : Single) (layout : Layout)
      (hcarry : Plan.carry t palette source = .ok carried)
      (hopen : Container.IsOpen t carried.block? container) :
      Settled t palette source (Plan.ofInsert t carried container pointer layout)

/-- What has been checked of a drop into a slot that is not refused. -/
theorem Plan.exists_of_ofSlot {t : Forest} {carried : Carried} {holder : String} {index : Nat}
    {plan : Plan} (h : Plan.ofSlot t carried holder index = .ok plan) :
  ∃ (holderBlock : Block) (spec : SlotSpec) (content : Content Block),
    Forest.find? holder t = some holderBlock ∧ holderBlock.kind.slots[index]? = some spec
    ∧ (∀ b, carried.block? = some b → holder ∉ b.ids) ∧ carried.category ∈ spec.accepts
    ∧ holderBlock.slots[index]? = some content
    ∧ plan = .slot carried holder index
      ((content.block?.filter fun b => carried.block?.map Block.id ≠ some b.id).map Block.id)
  := by
  rw [Plan.ofSlot] at h
  split at h
  · contradiction
  rename_i holderBlock hholder
  split at h
  · contradiction
  rename_i spec hspec
  split at h
  · contradiction
  rename_i houtside
  split at h
  · rename_i haccepts
    split at h
    · contradiction
    rename_i content hcontent
    cases h
    refine ⟨holderBlock, spec, content, hholder, hspec, ?_, by simpa using haccepts, hcontent, rfl⟩
    intro b hb hmem
    rw [hb, Option.filter_some, (Block.contains_iff holder b).mpr hmem] at houtside
    contradiction
  · contradiction

theorem Plan.settled_of_ofSlot {t : Forest} {palette : Palette} {source : Source}
    {carried : Carried} (hcarry : Plan.carry t palette source = .ok carried) {holder : String}
    {index : Nat} {plan : Plan} (h : Plan.ofSlot t carried holder index = .ok plan) :
  Plan.Settled t palette source plan
  := by
  obtain ⟨holderBlock, spec, content, hholder, hspec, houtside, haccepts, hcontent, rfl⟩ :=
    Plan.exists_of_ofSlot h
  apply Plan.Settled.slot hcarry hholder hspec houtside haccepts hcontent

/-- A result that is accepted comes from an accepted one. -/
theorem exists_of_bind_eq_ok {ε α β : Type} {x : Except ε α} {f : α → Except ε β} {b : β}
    (h : x >>= f = .ok b) :
  ∃ a, x = .ok a ∧ f a = .ok b
  := by
  cases x with
  | error e => contradiction
  | ok a => use a, rfl, h

/-- In a valid workspace, the plans of gestures have settled what they need. -/
theorem Plan.settled_of_ofGesture {t : Forest} (ht : Forest.Valid t) {palette : Palette}
    {layout : Layout} {source : Source} {target : Target} {plan : Plan}
    (h : Plan.ofGesture t palette layout source target = .ok plan) :
  Plan.Settled t palette source plan
  := by
  cases target with
  | outside => contradiction
  | disposal =>
    cases source with
    | palette id =>
      cases h
      apply Plan.Settled.ignore id rfl
    | workspace id =>
      rw [Plan.ofGesture, Plan.ofDisposal] at h
      split at h
      · rename_i b hb
        cases h
        apply Plan.Settled.dispose rfl hb
      · contradiction
  | slot holder index =>
    obtain ⟨carried, hcarry, hslot⟩ := exists_of_bind_eq_ok h
    apply Plan.settled_of_ofSlot hcarry hslot
  | block id pointer =>
    obtain ⟨carried, hcarry, hrest⟩ := exists_of_bind_eq_ok h
    obtain ⟨container, hnest, hplan⟩ := exists_of_bind_eq_ok hrest
    cases hplan
    apply Plan.Settled.insert pointer layout hcarry
    apply Plan.isOpen_of_nestContainer ht (Plan.isPlaced_of_carry hcarry).find? hnest
  | workspace pointer =>
    obtain ⟨carried, hcarry, hplan⟩ := exists_of_bind_eq_ok h
    cases hplan
    apply Plan.Settled.insert pointer layout hcarry
    apply Container.isOpen_root

end BlockEditor
