import BlockEditor.Proofs.Prune

/-!
# Moving blocks

What the operations that move blocks do to a workspace of the form `C.fill b` with different ids:
`locate?` tells the place, `takeOut` closes it and returns the block, `insert?` opens a place in a
list and fills it, and `placeInSlot?` fills a slot.  In terms of searches: a block that is found is
taken out, and the workspace that is left is the one without its id.
-/

namespace BlockEditor

/-! ### Locating -/

/-- `locate?` of a block, by what the block is made of. -/
theorem Block.locate?_mk (id : String) (face : Face) (children : Option Forest) (slots : Slots) :
  (Block.mk face children slots).locate? id
    = (((Forest.indexOf? id (children.getD [])).map fun index => ⟨.children face.id, index⟩).or
      ((Slots.indexOf? id slots).map fun slot => ⟨.slot face.id slot, 0⟩)).or
      ((Forest.locateBeneath? id (children.getD [])).or (Slots.locateBeneath? id slots))
  := by
  cases children <;> simp [Block.locate?, Forest.locateBeneath?, Option.or_assoc]

theorem Forest.locateBeneath?_cons (id : String) (b : Block) (bs : Forest) :
  Forest.locateBeneath? id (b :: bs) = (b.locate? id).or (Forest.locateBeneath? id bs)
  := by
  rw [Forest.locateBeneath?, Option.orElse_eq_orElse, Option.orElse_eq_or]

theorem Slots.locateBeneath?_block (id : String) (b : Block) (cs : Slots) :
  Slots.locateBeneath? id (.block b :: cs) = (b.locate? id).or (Slots.locateBeneath? id cs)
  := by
  rw [Slots.locateBeneath?, Option.orElse_eq_orElse, Option.orElse_eq_or]

theorem Forest.indexOf?_eq_none {id : String} {bs : Forest} (h : ∀ b ∈ bs, b.id ≠ id) :
  Forest.indexOf? id bs = none
  := by
  rw [Forest.indexOf?, List.findIdx?_eq_none_iff]
  intro b hb
  apply decide_eq_false (h b hb)

/-- An id that is nowhere beneath a list is not that of one of its blocks. -/
theorem Forest.ne_id_of_notMem {id : String} {bs : Forest} (h : id ∉ Forest.ids bs) :
  ∀ b ∈ bs, b.id ≠ id
  := by
  rintro b hb rfl
  apply h (Forest.mem_ids_of_mem hb)

/-- The ids in slots are those of the occupants, one after the other. -/
theorem Slots.ids_eq_flatMap (cs : Slots) :
  Slots.ids cs = (cs.filterMap Content.block?).flatMap Block.ids
  := by
  rw [Slots.ids, Slots.walk_eq_flatMap, List.map_flatMap]
  rfl

theorem Slots.indexOf?_eq_none {id : String} {cs : Slots}
    (h : ∀ b ∈ cs.filterMap Content.block?, b.id ≠ id) :
  Slots.indexOf? id cs = none
  := by
  rw [Slots.indexOf?, List.findIdx?_eq_none_iff]
  intro c hc
  cases c with
  | block b => apply decide_eq_false (h b (List.mem_filterMap.mpr ⟨_, hc, rfl⟩))
  | empty => rfl
  | literal _ => rfl

theorem Slots.ne_id_of_notMem {id : String} {cs : Slots} (h : id ∉ Slots.ids cs) :
  ∀ b ∈ cs.filterMap Content.block?, b.id ≠ id
  := by
  rintro b hb rfl
  rw [Slots.ids_eq_flatMap] at h
  apply h (List.mem_flatMap.mpr ⟨b, hb, b.id_mem_ids⟩)

mutual

/-- Beneath a block, an id that is not there has no place. -/
theorem Block.locate?_eq_none {id : String} :
  ∀ {b : Block}, id ∉ b.ids → b.locate? id = none
  | ⟨face, children, slots⟩, h => by
      simp only [Block.ids_mk, List.mem_cons, List.mem_append, not_or] at h
      obtain ⟨-, hchildren, hslots⟩ := h
      have hbeneath : Forest.locateBeneath? id (children.getD []) = none :=
        match children, hchildren with
        | some blocks, h => Forest.locateBeneath?_eq_none (t := blocks) h
        | none, _ => rfl
      rw [Block.locate?_mk, Forest.indexOf?_eq_none (Forest.ne_id_of_notMem hchildren),
        Slots.indexOf?_eq_none (Slots.ne_id_of_notMem hslots), hbeneath,
        Slots.locateBeneath?_eq_none hslots]
      rfl

/-- An id that is not there has no place. -/
theorem Forest.locateBeneath?_eq_none {id : String} :
  ∀ {t : List Block}, id ∉ Forest.ids t → Forest.locateBeneath? id t = none
  | [], _ => rfl
  | b :: bs, h => by
      rw [Forest.ids_cons, List.mem_append, not_or] at h
      rw [Forest.locateBeneath?_cons, Block.locate?_eq_none h.1,
        Forest.locateBeneath?_eq_none h.2, Option.none_or]

theorem Slots.locateBeneath?_eq_none {id : String} :
  ∀ {s : List (Content Block)}, id ∉ Slots.ids s → Slots.locateBeneath? id s = none
  | [], _ => rfl
  | .block b :: cs, h => by
      rw [Slots.ids_block, List.mem_append, not_or] at h
      rw [Slots.locateBeneath?_block, Block.locate?_eq_none h.1,
        Slots.locateBeneath?_eq_none h.2, Option.none_or]
  | .empty :: cs, h => Slots.locateBeneath?_eq_none (s := cs) h
  | .literal _ :: cs, h => Slots.locateBeneath?_eq_none (s := cs) h

end

/-- In a workspace, an id that is not there has no place. -/
theorem Forest.locate?_eq_none {id : String} {t : Forest} (h : id ∉ Forest.ids t) :
  Forest.locate? id t = none
  := by
  rw [Forest.locate?, Forest.indexOf?_eq_none (Forest.ne_id_of_notMem h),
    Forest.locateBeneath?_eq_none h]
  rfl

/-- A search goes past the blocks beneath which the id is not. -/
theorem Forest.locateBeneath?_append {id : String} {s t : Forest} (h : id ∉ Forest.ids s) :
  Forest.locateBeneath? id (s ++ t) = Forest.locateBeneath? id t
  := by
  induction s with
  | nil => rfl
  | cons b bs ih =>
    rw [Forest.ids_cons, List.mem_append, not_or] at h
    rw [List.cons_append, Forest.locateBeneath?_cons, Block.locate?_eq_none h.1, ih h.2,
      Option.none_or]

theorem Slots.locateBeneath?_append {id : String} {cs ds : Slots} (h : id ∉ Slots.ids cs) :
  Slots.locateBeneath? id (cs ++ ds) = Slots.locateBeneath? id ds
  := by
  induction cs with
  | nil => rfl
  | cons c cs ih =>
    cases c with
    | block b =>
      rw [Slots.ids_block, List.mem_append, not_or] at h
      rw [List.cons_append, Slots.locateBeneath?_block, Block.locate?_eq_none h.1, ih h.2,
        Option.none_or]
    | empty => apply ih h
    | literal _ => apply ih h

theorem Forest.indexOf?_append_eq_none {id : String} {before after : Forest} {b : Block}
    (hbefore : id ∉ Forest.ids before) (hid : b.id ≠ id) (hafter : id ∉ Forest.ids after) :
  Forest.indexOf? id (before ++ b :: after) = none
  := by
  apply Forest.indexOf?_eq_none
  intro c hc
  rcases List.mem_append.mp hc with hc | hc
  · apply Forest.ne_id_of_notMem hbefore c hc
  rcases List.mem_cons.mp hc with rfl | hc
  · apply hid
  · apply Forest.ne_id_of_notMem hafter c hc

theorem Slots.indexOf?_append_eq_none {id : String} {before after : Slots} {b : Block}
    (hbefore : id ∉ Slots.ids before) (hid : b.id ≠ id) (hafter : id ∉ Slots.ids after) :
  Slots.indexOf? id (before ++ .block b :: after) = none
  := by
  apply Slots.indexOf?_eq_none
  intro c hc
  rw [List.filterMap_append] at hc
  rcases List.mem_append.mp hc with hc | hc
  · apply Slots.ne_id_of_notMem hbefore c hc
  rcases List.mem_cons.mp hc with rfl | hc
  · apply hid
  · apply Slots.ne_id_of_notMem hafter c hc

/-- The place beneath a block is found from the block that it stands in, if the id is not met
around it. -/
theorem Frame.locate?_fill {F : Frame} {id : String} (he : id ∉ F.earlier) (hl : id ∉ F.later)
    {b : Block} (hid : b.id ≠ id) {l : Location} (hb : b.locate? id = some l) :
  (F.fill b).locate? id = some l
  := by
  cases F with
  | child face before after slots =>
    simp only [Frame.earlier, Frame.later, List.mem_cons, List.mem_append, not_or] at he hl
    have hindex := Forest.indexOf?_append_eq_none he.2 hid hl.1
    rw [Frame.fill, Block.locate?_mk, Option.getD_some, hindex,
      Slots.indexOf?_eq_none (Slots.ne_id_of_notMem hl.2), Forest.locateBeneath?_append he.2,
      Forest.locateBeneath?_cons, hb]
    rfl
  | slot face children before after =>
    simp only [Frame.earlier, Frame.later, List.mem_cons, List.mem_append, not_or] at he hl
    have hindex := Slots.indexOf?_append_eq_none he.2.2 hid hl
    rw [Frame.fill, Block.locate?_mk, hindex,
      Forest.indexOf?_eq_none (Forest.ne_id_of_notMem he.2.1),
      Forest.locateBeneath?_eq_none he.2.1, Slots.locateBeneath?_append he.2.2,
      Slots.locateBeneath?_block, hb]
    rfl

/-- If an id is not around a place, what is located within the block in the place is located there in
the workspace. -/
theorem Context.locate?_fill {C : Context} {id : String} (he : id ∉ C.earlier)
    (hl : id ∉ C.later) {b : Block} (hid : b.id ≠ id) {l : Location}
    (hb : b.locate? id = some l) :
  Forest.locate? id (C.fill b) = some l
  := by
  induction C generalizing b with
  | top before after =>
    have hindex := Forest.indexOf?_append_eq_none he hid hl
    rw [Context.fill, Forest.locate?, hindex, Forest.locateBeneath?_append he,
      Forest.locateBeneath?_cons, hb]
    rfl
  | inside C F ih =>
    simp only [Context.earlier, Context.later, List.mem_append, not_or] at he hl
    have hF : (F.fill b).id ≠ id := by
      rw [Frame.id_fill]
      rintro rfl
      apply he.2 F.face_id_mem_earlier
    apply ih he.1 hl.2 hF (Frame.locate?_fill he.2 hl.1 hid hb)

/-- The first block with an id stands behind those that have other ones. -/
theorem Forest.indexOf?_of_append {id : String} {s t : Forest} {b : Block}
    (hs : ∀ c ∈ s, c.id ≠ id) (hb : b.id = id) :
  Forest.indexOf? id (s ++ b :: t) = some s.length
  := by
  have h := Forest.indexOf?_eq_none hs
  rw [Forest.indexOf?] at h
  rw [Forest.indexOf?, List.findIdx?_append, h, List.findIdx?_cons]
  simp [hb]

/-- The first slot whose occupant has an id stands behind those whose occupants have other ones. -/
theorem Slots.indexOf?_of_append {id : String} {cs ds : Slots} {b : Block}
    (hcs : ∀ c ∈ cs.filterMap Content.block?, c.id ≠ id) (hb : b.id = id) :
  Slots.indexOf? id (cs ++ .block b :: ds) = some cs.length
  := by
  have h := Slots.indexOf?_eq_none hcs
  rw [Slots.indexOf?] at h
  rw [Slots.indexOf?, List.findIdx?_append, h, List.findIdx?_cons]
  simp [hb]

/-- The holder of a place tells the place of the block in it. -/
theorem Frame.locate?_fill_self {F : Frame} {b : Block} (he : b.id ∉ F.earlier)
    (hl : b.id ∉ F.later) :
  (F.fill b).locate? b.id = some ⟨F.container, F.index⟩
  := by
  cases F with
  | child face before after slots =>
    rw [Frame.earlier, List.mem_cons, not_or] at he
    rw [Frame.fill, Block.locate?_mk, Option.getD_some,
      Forest.indexOf?_of_append (Forest.ne_id_of_notMem he.2) rfl]
    rfl
  | slot face children before after =>
    simp only [Frame.earlier, List.mem_cons, List.mem_append, not_or] at he
    rw [Frame.fill, Block.locate?_mk,
      Forest.indexOf?_eq_none (Forest.ne_id_of_notMem he.2.1),
      Slots.indexOf?_of_append (Slots.ne_id_of_notMem he.2.2) rfl]
    rfl

/-- If all ids are different, `locate?` tells the place of the block in it. -/
theorem Context.locate?_fill_self {C : Context} {b : Block} (he : b.id ∉ C.earlier)
    (hl : b.id ∉ C.later) :
  Forest.locate? b.id (C.fill b) = some C.location
  := by
  cases C with
  | top before after =>
    rw [Context.fill, Forest.locate?, Forest.indexOf?_of_append (Forest.ne_id_of_notMem he) rfl]
    rfl
  | inside C F =>
    simp only [Context.earlier, Context.later, List.mem_append, not_or] at he hl
    have hF : (F.fill b).id ≠ b.id := by
      rw [Frame.id_fill]
      intro h
      apply he.2 (h ▸ F.face_id_mem_earlier)
    apply Context.locate?_fill he.1 hl.2 hF (Frame.locate?_fill_self he.2 hl.1)

/-! ### Taking out -/

/-- The holder of a place is found under its id. -/
theorem Context.find?_holder {C : Context} {F : Frame} {b : Block}
    (hids : (Forest.ids ((C.inside F).fill b)).Nodup) :
  Forest.find? F.face.id (C.fill (F.fill b)) = some (F.fill b)
  := by
  have h := (Context.notMem_of_nodup (C := C) hids (F.fill b).id_mem_ids).1
  rw [← Frame.id_fill F b]
  apply Context.find?_fill_self h

/-- The holder of a place is changed under its id. -/
theorem Context.update?_holder {C : Context} {F : Frame} {b : Block}
    (hids : (Forest.ids ((C.inside F).fill b)).Nodup) (f : Block → Block) :
  Forest.update? F.face.id f (C.fill (F.fill b)) = some (C.fill (f (F.fill b)))
  := by
  have h := (Context.notMem_of_nodup (C := C) hids (F.fill b).id_mem_ids).1
  rw [← Frame.id_fill F b]
  apply Context.update?_fill_self h

/-- If all ids are different, taking out the block in a place closes the place. -/
theorem Context.takeOut_fill {C : Context} {b : Block} (hids : (Forest.ids (C.fill b)).Nodup) :
  Forest.takeOut b.id (C.fill b) = (.taken b, C.clear)
  := by
  obtain ⟨he, hl⟩ := Context.notMem_of_nodup hids b.id_mem_ids
  rw [Forest.takeOut, Context.locate?_fill_self he hl]
  cases C with
  | top before after =>
    simp [Context.location, Context.fill, Context.clear, Forest.takeFromList, Forest.sequence?,
      List.eraseIdx_append_of_length_le]
  | inside C F =>
    have hfind := Context.find?_holder hids
    have hupdate := Context.update?_holder hids
    cases F with
    | child face before after slots =>
      simp only [Frame.face, Frame.fill] at hfind hupdate
      simp [Context.location, Context.fill, Context.clear, Forest.takeFromList,
        Forest.sequence?, Frame.container, Frame.index, Frame.fill, Frame.clear, hfind, hupdate,
        List.eraseIdx_append_of_length_le]
    | slot face children before after =>
      simp only [Frame.face, Frame.fill] at hfind hupdate
      simp [Context.location, Context.fill, Context.clear, Forest.takeFromSlot,
        Frame.container, Frame.fill, Frame.clear, hfind, hupdate, Forest.setSlot]

/-- If all ids are different, a block that is found is taken out, with all that it holds and
nothing else. -/
theorem Forest.takeOut_of_find? {id : String} {t : Forest} (hids : (Forest.ids t).Nodup)
    {b : Block} (h : Forest.find? id t = some b) :
  Forest.takeOut id t = (.taken b, t.without id)
  := by
  obtain ⟨C, rfl, rfl, -⟩ := Forest.exists_fill h
  obtain ⟨he, hl⟩ := Context.notMem_of_nodup hids b.id_mem_ids
  rw [Context.takeOut_fill hids, Context.without_fill_self he hl]

/-! ### Putting down -/

/-- Inserting behind the first part of a list. -/
theorem insertIdx_append {α : Type} (s t : List α) (a : α) :
  (s ++ t).insertIdx s.length a = s ++ a :: t
  := by
  induction s with
  | nil => rfl
  | cons x xs ih => simp [ih]

/-- A list is cut at an element. -/
theorem exists_append_of_getElem? {α : Type} {xs : List α} {i : Nat} {a : α}
    (h : xs[i]? = some a) :
  ∃ s t, xs = s ++ a :: t ∧ s.length = i
  := by
  obtain ⟨hi, rfl⟩ := List.getElem?_eq_some_iff.mp h
  use xs.take i, xs.drop (i + 1)
  constructor
  · rw [← List.drop_eq_getElem_cons hi, List.take_append_drop]
  · apply List.length_take_of_le (Nat.le_of_lt hi)

/-- No anchor inserts past the end. -/
theorem Anchor.position_le (a : Anchor) (bs : Forest) :
  a.position bs ≤ bs.length
  := by
  cases a with
  | last => apply Nat.le_refl
  | before id =>
    rw [Anchor.position]
    cases h : Forest.indexOf? id bs with
    | none => apply Nat.le_refl
    | some i =>
      rw [Forest.indexOf?] at h
      obtain ⟨hi, -⟩ := List.findIdx?_eq_some_iff_getElem.mp h
      apply Nat.le_of_lt hi

/-- What stands behind a place that an anchor marks: the block of the anchor comes next, or
nothing does. -/
def Anchor.Marks (a : Anchor) (behind : Forest) : Prop :=
  match a with
  | .before id => behind.head?.map Block.id = some id
  | .last => behind = []

/-- The position of an anchor in a list that it belongs to is the one that it marks. -/
theorem Anchor.marks_drop {a : Anchor} {bs : Forest}
    (h : ∀ id, a = .before id → id ∈ bs.map Block.id) :
  a.Marks (bs.drop (a.position bs))
  := by
  cases a with
  | last => apply List.drop_length
  | before id =>
    obtain ⟨b, hb, hid⟩ := List.mem_map.mp (h id rfl)
    have hsome : (Forest.indexOf? id bs).isSome := by
      rw [Forest.indexOf?, List.findIdx?_isSome, List.any_eq_true]
      use b, hb
      simp [hid]
    obtain ⟨i, hi⟩ := Option.isSome_iff_exists.mp hsome
    rw [Anchor.Marks, Anchor.position, hi, Option.getD_some]
    rw [Forest.indexOf?] at hi
    obtain ⟨hlt, hmatch, -⟩ := List.findIdx?_eq_some_iff_getElem.mp hi
    rw [List.head?_drop, List.getElem?_eq_getElem hlt]
    simpa using hmatch

/-- Inserting opens a place in the list of the container and fills it. -/
theorem Forest.insert?_of_sequence? {t : Forest} {container : Container} {bs : Forest}
    (h : Forest.sequence? t container = some bs) (a : Anchor) (b : Block) :
  ∃ C : Context, Forest.insert? container a b t = some (C.fill b) ∧ C.clear = t
    ∧ C.location = ⟨container, a.position bs⟩
    ∧ Forest.sequence? (C.fill b) container
      = some (bs.take (a.position bs) ++ b :: bs.drop (a.position bs))
  := by
  have hlength : (bs.take (a.position bs)).length = a.position bs :=
    List.length_take_of_le (a.position_le bs)
  have hinsert : bs.insertIdx (a.position bs) b
      = bs.take (a.position bs) ++ b :: bs.drop (a.position bs) := by
    have h := insertIdx_append (bs.take (a.position bs)) (bs.drop (a.position bs)) b
    rw [List.take_append_drop, hlength] at h
    apply h
  cases container with
  | root =>
    rw [Forest.sequence?, Option.some.injEq] at h
    subst h
    use .top (t.take (a.position t)) (t.drop (a.position t))
    refine ⟨congrArg some hinsert, List.take_append_drop _ _, ?_, rfl⟩
    rw [Context.location, hlength]
  | children holder =>
    have hsequence := h
    obtain ⟨p, hp, hchildren⟩ := Option.bind_eq_some_iff.mp h
    obtain ⟨C, rfl, rfl, hC⟩ := Forest.exists_fill hp
    obtain ⟨face, children, slots⟩ := p
    obtain rfl : children = some bs := hchildren
    use C.inside (.child face (bs.take (a.position bs)) (bs.drop (a.position bs)) slots)
    refine ⟨?_, ?_, ?_, ?_⟩
    · rw [Forest.insert?]
      simp only [hsequence]
      rw [Context.update?_fill_self hC]
      simp only [Option.map_some, hinsert]
      rfl
    · rw [Context.clear, Frame.clear, List.take_append_drop]
    · simp only [Context.location, Frame.container, Frame.index, hlength]
      rfl
    · have hfind := Context.find?_fill_self (C := C)
        (b := ⟨face, some (bs.take (a.position bs) ++ b :: bs.drop (a.position bs)), slots⟩) hC
      rw [Forest.sequence?, Context.fill, Frame.fill]
      simp only [Block.id] at hfind ⊢
      rw [hfind]
      rfl
  | slot holder slot => contradiction

/-- A slot that is set gets its content in the place where it is. -/
theorem Context.setSlot_fill {C : Context} {face : Face} (h : face.id ∉ C.earlier)
    (children : Option Forest) (before after : Slots) (previous content : Content Block) :
  Forest.setSlot face.id before.length content
      (C.fill ⟨face, children, before ++ previous :: after⟩)
    = C.fill ⟨face, children, before ++ content :: after⟩
  := by
  have hupdate := Context.update?_fill_self (C := C)
    (b := ⟨face, children, before ++ previous :: after⟩) h
    fun h => { h with slots := h.slots.set before.length content }
  simp only [Block.id] at hupdate
  rw [Forest.setSlot, hupdate]
  simp

/-- A block that is put into a slot is in that place, and the former content is returned. -/
theorem Context.placeInSlot?_fill {C : Context} {face : Face} (h : face.id ∉ C.earlier)
    (children : Option Forest) (before after : Slots) (content : Content Block) (b : Block) :
  Forest.placeInSlot? face.id before.length b (C.fill ⟨face, children, before ++ content :: after⟩)
    = some (content, (C.inside (.slot face children before after)).fill b)
  := by
  have hfind := Context.find?_fill_self (b := ⟨face, children, before ++ content :: after⟩) h
  have hupdate := Context.update?_fill_self (b := ⟨face, children, before ++ content :: after⟩) h
    fun h => { h with slots := h.slots.set before.length (.block b) }
  simp only [Block.id] at hfind hupdate
  rw [Forest.placeInSlot?, hfind, hupdate]
  simp [Context.fill, Frame.fill]

/-- A slot of a block that is found is a place in the workspace. -/
theorem Forest.exists_fill_of_slot {t : Forest} {h : Block} (hfind : Forest.find? h.id t = some h)
    {slot : Nat} {content : Content Block} (hslot : h.slots[slot]? = some content) :
  ∃ (C : Context) (face : Face) (children : Option Forest) (before after : Slots),
    h = ⟨face, children, before ++ content :: after⟩ ∧ before.length = slot
    ∧ t = C.fill ⟨face, children, before ++ content :: after⟩ ∧ face.id ∉ C.earlier
  := by
  obtain ⟨C, rfl, -, hC⟩ := Forest.exists_fill hfind
  obtain ⟨face, children, slots⟩ := h
  obtain ⟨before, after, rfl, hlength⟩ := exists_append_of_getElem? hslot
  exact ⟨C, face, children, before, after, rfl, hlength, rfl, hC⟩

/-- Putting a block into a slot of a block that is found fills the place. -/
theorem Forest.placeInSlot?_of_find? {t : Forest} {holder : String} {h : Block}
    (hfind : Forest.find? holder t = some h) {slot : Nat} {content : Content Block}
    (hslot : h.slots[slot]? = some content) (b : Block) :
  ∃ (C : Context) (before after : Slots),
    t = C.fill ⟨h.face, h.children, before ++ content :: after⟩ ∧ before.length = slot
    ∧ Forest.placeInSlot? holder slot b t
      = some (content, (C.inside (.slot h.face h.children before after)).fill b)
  := by
  obtain rfl := Forest.id_of_find? hfind
  obtain ⟨C, face, children, before, after, rfl, rfl, rfl, hC⟩ :=
    Forest.exists_fill_of_slot hfind hslot
  use C, before, after, rfl, rfl
  apply Context.placeInSlot?_fill hC

end BlockEditor
