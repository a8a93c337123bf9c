import BlockEditor.Proofs.Highlighting

/-!
# Detaching blocks and putting them back

A placed block of a workspace with different ids is detached from where it is located.  The walk loses
one segment, the walk of the block; what comes before and after the segment stays in its order, and the
blocks that enclose the block are left without it.  `Forest.PutsBack` states that the workspace is there
again when the block goes back to where it was located: in a list in front of the block that followed it,
in a slot that is left empty.
-/

namespace BlockEditor

/-! ### The walk around a place -/

/-- The blocks that a walk meets between the block of the frame and the place. -/
def Frame.between : Frame → List Block
  | child _ before _ _ => Forest.walk before
  | slot _ children before _ => Forest.walk (children.getD []) ++ Slots.walk before

/-- The blocks that a walk meets after the place. -/
def Frame.behind : Frame → List Block
  | child _ _ after slots => Forest.walk after ++ Slots.walk slots
  | slot _ _ _ after => Slots.walk after

/-- The blocks that a walk meets before it comes to the place, if the place is filled with the block. -/
def Context.ahead : Context → Block → List Block
  | top before _, _ => Forest.walk before
  | inside C F, b => C.ahead (F.fill b) ++ F.fill b :: F.between

/-- The blocks that a walk meets after the place. -/
def Context.behind : Context → List Block
  | top _ after => Forest.walk after
  | inside C F => F.behind ++ C.behind

theorem Frame.walk_fill (F : Frame) (b : Block) :
  (F.fill b).walk = F.fill b :: F.between ++ b.walk ++ F.behind
  := by
  cases F <;> simp [Frame.fill, Frame.between, Frame.behind, Block.walk_mk]

theorem Frame.walk_clear (F : Frame) :
  F.clear.walk = F.clear :: F.between ++ F.behind
  := by
  cases F <;> simp [Frame.clear, Frame.between, Frame.behind, Block.walk_mk, Slots.walk]

/-- A walk meets the blocks ahead of the place, then those of the block in it, then those behind it. -/
theorem Context.walk_fill (C : Context) (b : Block) :
  Forest.walk (C.fill b) = C.ahead b ++ b.walk ++ C.behind
  := by
  induction C generalizing b with
  | top before after => simp [Context.fill, Context.ahead, Context.behind]
  | inside C F ih =>
    rw [Context.fill, ih, Frame.walk_fill]
    simp only [Context.ahead, Context.behind, List.append_assoc, List.cons_append]

section

variable {id : String}

/-- The blocks of a walk stay as they are when a block is taken out that is not among them. -/
theorem Forest.map_without_walk {t : Forest} (h : id ∉ Forest.ids t) :
  (Forest.walk t).map (Block.without id) = Forest.walk t
  := by
  have hkeep : ∀ b ∈ Forest.walk t, b.without id = b := by
    intro b hb
    apply Block.prune_eq_self
    intro c hc
    apply decide_eq_false
    rintro rfl
    apply h (List.mem_map_of_mem (Forest.walk_subset hb hc))
  apply (List.map_congr_left hkeep).trans (List.map_id _)

theorem Slots.walk_eq_forest (cs : Slots) :
  Slots.walk cs = Forest.walk (cs.filterMap Content.block?)
  := by
  rw [Slots.walk_eq_flatMap, Forest.walk_eq_flatMap]

theorem Slots.map_without_walk {cs : Slots} (h : id ∉ Slots.ids cs) :
  (Slots.walk cs).map (Block.without id) = Slots.walk cs
  := by
  rw [Slots.ids, Slots.walk_eq_forest] at h
  rw [Slots.walk_eq_forest, Forest.map_without_walk h]

theorem Frame.map_without_between {F : Frame} (h : id ∉ F.earlier) :
  F.between.map (Block.without id) = F.between
  := by
  cases F with
  | child face before after slots =>
    rw [Frame.earlier, List.mem_cons, not_or] at h
    apply Forest.map_without_walk h.2
  | slot face children before after =>
    simp only [Frame.earlier, List.mem_cons, List.mem_append, not_or] at h
    rw [Frame.between, List.map_append, Forest.map_without_walk h.2.1, Slots.map_without_walk h.2.2]

/-- The blocks ahead of a place lose what the block in it loses. -/
theorem Context.map_without_ahead {C : Context} (he : id ∉ C.earlier) (hl : id ∉ C.later) {b : Block}
    (hb : b.id ≠ id) :
  (C.ahead b).map (Block.without id) = C.ahead (b.without id)
  := by
  induction C generalizing b with
  | top before after => apply Forest.map_without_walk he
  | inside C F ih =>
    simp only [Context.earlier, Context.later, List.mem_append, not_or] at he hl
    have hF : (F.fill b).id ≠ id := by
      rw [Frame.id_fill]
      rintro rfl
      apply he.2 F.face_id_mem_earlier
    rw [Context.ahead, List.map_append, ih he.1 hl.2 hF, List.map_cons, Frame.map_without_between he.2,
      Frame.without_fill he.2 hl.1, if_neg hb]
    rfl

/-- The walk loses the segment that is the walk of the block when the block is taken out of its place. -/
theorem Context.walk_clear {C : Context} {b : Block} (he : b.id ∉ C.earlier) (hl : b.id ∉ C.later) :
  Forest.walk C.clear = (C.ahead b).map (Block.without b.id) ++ C.behind
  := by
  cases C with
  | top before after =>
    rw [Context.ahead, Forest.map_without_walk he]
    apply Forest.walk_append
  | inside C F =>
    simp only [Context.earlier, Context.later, List.mem_append, not_or] at he hl
    have hF : (F.fill b).id ≠ b.id := by
      rw [Frame.id_fill]
      intro h
      apply he.2 (h ▸ F.face_id_mem_earlier)
    rw [Context.clear, Context.walk_fill, Context.ahead, List.map_append, List.map_cons,
      Context.map_without_ahead he.1 hl.2 hF, Frame.map_without_between he.2, Frame.walk_clear,
      Frame.without_fill he.2 hl.1, if_pos rfl, Context.behind]
    simp only [List.append_assoc]

end

/-! ### Putting a block back -/

/-- The anchor in front of a block that may follow. -/
def Anchor.inFrontOf : Option Block → Anchor
  | some next => .before next.id
  | none => .last

/-- Putting the block into what is left, at the location that it had in the workspace `t`, gives `t`
again. -/
inductive Forest.PutsBack (t : Forest) (b : Block) (rest : Forest) : Location → Prop where
  /-- In a list, the block goes in front of the one that followed it. -/
  | list {container : Container} {bs : Forest} {index : Nat}
      (hlist : Forest.sequence? t container = some bs)
      (hback : Forest.insert? container (.inFrontOf bs[index + 1]?) b rest = some t) :
      PutsBack t b rest ⟨container, index⟩
  /-- The block goes into a slot, which was left empty. -/
  | slot {holder : String} {slot : Nat}
      (hback : Forest.placeInSlot? holder slot b rest = some (.empty, t)) :
      PutsBack t b rest ⟨.slot holder slot, 0⟩

theorem getElem?_append_succ {α : Type} (s t : List α) (a : α) :
  (s ++ a :: t)[s.length + 1]? = t.head?
  := by
  rw [List.getElem?_append_right (Nat.le_add_right _ 1), Nat.add_sub_cancel_left,
    List.getElem?_cons_succ, List.head?_eq_getElem?]

/-- The anchor in front of the block that followed marks the place where the block was. -/
theorem Anchor.position_inFrontOf {before after : Forest} {b : Block}
    (hids : (Forest.ids (before ++ b :: after)).Nodup) :
  (Anchor.inFrontOf after.head?).position (before ++ after) = before.length
  := by
  cases after with
  | nil => simp [Anchor.inFrontOf, Anchor.position]
  | cons next after =>
    have hbefore : next.id ∉ Forest.ids before := by
      rw [Forest.ids_append, List.nodup_append] at hids
      intro h
      apply hids.2.2 _ h next.id _ rfl
      simp [Block.id_mem_ids]
    rw [List.head?_cons, Anchor.inFrontOf, Anchor.position,
      Forest.indexOf?_of_append (Forest.ne_id_of_notMem hbefore) rfl, Option.getD_some]

theorem Anchor.insertIdx_inFrontOf {before after : Forest} {b : Block}
    (hids : (Forest.ids (before ++ b :: after)).Nodup) :
  (before ++ after).insertIdx ((Anchor.inFrontOf after.head?).position (before ++ after)) b
    = before ++ b :: after
  := by
  rw [Anchor.position_inFrontOf hids, insertIdx_append]

/-- Inserting into the children of a block. -/
theorem Context.insert?_fill {C : Context} {face : Face} (h : face.id ∉ C.earlier) (bs : Forest)
    (slots : Slots) (a : Anchor) (b : Block) :
  Forest.insert? (.children face.id) a b (C.fill ⟨face, some bs, slots⟩)
    = some (C.fill ⟨face, some (bs.insertIdx (a.position bs) b), slots⟩)
  := by
  have hfind := Context.find?_fill_self (b := ⟨face, some bs, slots⟩) h
  have hupdate := Context.update?_fill_self (b := ⟨face, some bs, slots⟩) h
    fun h => { h with children := h.children.map fun bs => bs.insertIdx (a.position bs) b }
  simp only [Block.id] at hfind hupdate
  rw [Forest.insert?, Forest.sequence?, hfind]
  apply hupdate

/-- A block that is taken out of a place goes back there. -/
theorem Context.putsBack_clear {C : Context} {b : Block} (hids : (Forest.ids (C.fill b)).Nodup) :
  Forest.PutsBack (C.fill b) b C.clear C.location
  := by
  cases C with
  | top before after =>
    have hinsert := Anchor.insertIdx_inFrontOf hids
    have hlist : Forest.sequence? (before ++ b :: after) .root = some (before ++ b :: after) := rfl
    apply Forest.PutsBack.list hlist
    rw [getElem?_append_succ]
    apply congrArg some hinsert
  | inside C F =>
    have hholder := Context.find?_holder hids
    have hearlier := (Context.notMem_of_nodup (C := C) hids (F.fill b).id_mem_ids).1
    rw [Frame.id_fill] at hearlier
    cases F with
    | child face before after slots =>
      have hfilled := Forest.nodup_ids_of_mem hids (Forest.mem_walk_of_find? hholder)
      rw [Frame.fill, Block.ids_mk, List.nodup_cons, List.nodup_append] at hfilled
      have hinsert := Anchor.insertIdx_inFrontOf hfilled.2.1
      have hlist : Forest.sequence? ((C.inside (.child face before after slots)).fill b)
          (.children face.id) = some (before ++ b :: after) := by
        rw [Frame.face] at hholder
        rw [Forest.sequence?, Context.fill, hholder]
        rfl
      apply Forest.PutsBack.list hlist
      rw [Frame.index, getElem?_append_succ]
      apply (Context.insert?_fill hearlier _ _ _ _).trans
      rw [hinsert]
      rfl
    | slot face children before after =>
      apply Forest.PutsBack.slot
      apply Context.placeInSlot?_fill hearlier

/-- In a workspace with different ids, every placed block is detached from where it is located, as it is
found.  The walk loses the walk of the block, which is one segment of it, and the blocks ahead of the
segment are left without the block.  Putting the block back to where it was located gives the workspace
again. -/
theorem Forest.detach_puts_back {t : Forest} (hids : (Forest.ids t).Nodup) {id : String}
    (hid : id ∈ Forest.ids t) :
  ∃ b rest location, Forest.find? id t = some b ∧ Forest.detach id t = some (b, rest)
    ∧ Forest.locate? id t = some location ∧ Forest.Sits t b location
    ∧ (∃ ahead behind, Forest.walk t = ahead ++ b.walk ++ behind
      ∧ Forest.walk rest = ahead.map (Block.without id) ++ behind)
    ∧ Forest.PutsBack t b rest location
  := by
  obtain ⟨b, hb, rfl⟩ := List.mem_map.mp hid
  have hfind := Forest.find?_of_mem_walk hids hb
  obtain ⟨C, rfl, -, -⟩ := Forest.exists_fill hfind
  obtain ⟨he, hl⟩ := Context.notMem_of_nodup hids b.id_mem_ids
  refine ⟨b, C.clear, C.location, hfind, ?_, Context.locate?_fill_self he hl, Context.sits_fill hids,
    ⟨C.ahead b, C.behind, C.walk_fill b, Context.walk_clear he hl⟩, Context.putsBack_clear hids⟩
  rw [Forest.detach, Context.takeOut_fill hids]

/-- A loop with a variable in its slot and two steps among its children. -/
def Forest.loop : Forest :=
  [⟨⟨"loop", "loop", ⟨.control, true, [.value], [], .empty⟩, "loop", none, false⟩,
    some [⟨⟨"first", "step", .plain .move [], "step", none, false⟩, none, []⟩,
      ⟨⟨"second", "step", .plain .move [], "step", none, false⟩, none, []⟩],
    [.block ⟨⟨"count", "count", .plain .var [], "count", none, false⟩, none, []⟩]⟩]

/-- The first step of the loop goes back in front of the second one. -/
theorem Forest.detach_puts_back_step :
  (Forest.ids Forest.loop).Nodup ∧ "first" ∈ Forest.ids Forest.loop
    ∧ ∃ b rest, Forest.find? "first" Forest.loop = some b
      ∧ Forest.detach "first" Forest.loop = some (b, rest)
      ∧ Forest.Sits Forest.loop b ⟨.children "loop", 0⟩
      ∧ (∃ ahead behind, Forest.walk Forest.loop = ahead ++ b.walk ++ behind
        ∧ Forest.walk rest = ahead.map (Block.without "first") ++ behind)
      ∧ Forest.PutsBack Forest.loop b rest ⟨.children "loop", 0⟩
  := by
  have hids : (Forest.ids Forest.loop).Nodup := by decide
  have hid : "first" ∈ Forest.ids Forest.loop := by decide
  obtain ⟨b, rest, location, hfind, hdetach, hlocate, hsits, hwalk, hback⟩ :=
    Forest.detach_puts_back hids hid
  have hlocation : Forest.locate? "first" Forest.loop = some ⟨.children "loop", 0⟩ := by decide
  obtain rfl := Option.some.inj (hlocate.symm.trans hlocation)
  exact ⟨hids, hid, b, rest, hfind, hdetach, hsits, hwalk, hback⟩

end BlockEditor
