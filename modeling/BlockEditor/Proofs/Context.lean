import BlockEditor.Proofs.Walk

/-!
# Contexts

A `Frame` is a block with one place beneath it left open, a position among its children or a
slot.  A `Context` is a workspace with one place left open: at its top level, or in a frame that
stands in a context.  `fill` puts a block into the place and `clear` closes it again, a slot left
empty.  Every block that `find?` returns stands in a context, and the operations on the workspace
act on the place: they are computed here for a workspace of the form `C.fill b`.
-/

namespace BlockEditor

/-- A block with one place beneath it left open. -/
inductive Frame where
  /-- The place is among the children. -/
  | child (face : Face) (before after : Forest) (slots : Slots)
  /-- The place is a slot. -/
  | slot (face : Face) (children : Option Forest) (before after : Slots)

namespace Frame

/-- The block with another one in the open place. -/
def fill : Frame → Block → Block
  | child face before after slots, b => ⟨face, some (before ++ b :: after), slots⟩
  | slot face children before after, b => ⟨face, children, before ++ .block b :: after⟩

/-- The block without a place in the list, or with an empty slot. -/
def clear : Frame → Block
  | child face before after slots => ⟨face, some (before ++ after), slots⟩
  | slot face children before after => ⟨face, children, before ++ .empty :: after⟩

/-- The face of the block. -/
def face : Frame → Face
  | child face _ _ _ => face
  | slot face _ _ _ => face

/-- The ids that a walk meets before it comes to the place. -/
def earlier : Frame → List String
  | child face before _ _ => face.id :: Forest.ids before
  | slot face children before _ => face.id :: (Forest.ids (children.getD []) ++ Slots.ids before)

/-- The ids that a walk meets after the place. -/
def later : Frame → List String
  | child _ _ after slots => Forest.ids after ++ Slots.ids slots
  | slot _ _ _ after => Slots.ids after

/-- The container that the place is in. -/
def container : Frame → Container
  | child face _ _ _ => .children face.id
  | slot face _ before _ => .slot face.id before.length

/-- The position of the place in its container. -/
def index : Frame → Nat
  | child _ before _ _ => before.length
  | slot _ _ _ _ => 0

end Frame

/-- A workspace with one place left open. -/
inductive Context where
  /-- The place is at the top level. -/
  | top (before after : Forest)
  /-- The place is the one of a frame that stands in a context. -/
  | inside (C : Context) (F : Frame)

namespace Context

/-- The workspace with a block in the open place. -/
def fill : Context → Block → Forest
  | top before after, b => before ++ b :: after
  | inside C F, b => C.fill (F.fill b)

/-- The workspace without the place. -/
def clear : Context → Forest
  | top before after => before ++ after
  | inside C F => C.fill F.clear

/-- The ids that a walk meets before it comes to the place. -/
def earlier : Context → List String
  | top before _ => Forest.ids before
  | inside C F => C.earlier ++ F.earlier

/-- The ids that a walk meets after the place. -/
def later : Context → List String
  | top _ after => Forest.ids after
  | inside C F => F.later ++ C.later

/-- Where a block in the open place sits. -/
def location : Context → Location
  | top before _ => ⟨.root, before.length⟩
  | inside _ F => ⟨F.container, F.index⟩

end Context

/-! ### Ids -/

@[simp]
theorem Frame.id_fill (F : Frame) (b : Block) :
  (F.fill b).id = F.face.id
  := by
  cases F <;> rfl

theorem Frame.face_id_mem_earlier (F : Frame) :
  F.face.id ∈ F.earlier
  := by
  cases F <;> apply List.mem_cons_self

/-- A filled frame has the ids of the block between those around its hole. -/
theorem Frame.ids_fill (F : Frame) (b : Block) :
  (F.fill b).ids = F.earlier ++ b.ids ++ F.later
  := by
  cases F <;> simp [Frame.fill, Frame.earlier, Frame.later]

theorem Frame.ids_clear (F : Frame) :
  F.clear.ids = F.earlier ++ F.later
  := by
  cases F <;> simp [Frame.clear, Frame.earlier, Frame.later]

/-- A walk meets what is earlier, then the block in the place, then what is later. -/
theorem Context.ids_fill (C : Context) (b : Block) :
  Forest.ids (C.fill b) = C.earlier ++ b.ids ++ C.later
  := by
  induction C generalizing b with
  | top before after => simp [Context.fill, Context.earlier, Context.later]
  | inside C F ih =>
    rw [Context.fill, ih, Frame.ids_fill]
    simp only [Context.earlier, Context.later, List.append_assoc]

/-- A cleared context has the ids around its hole. -/
theorem Context.ids_clear (C : Context) :
  Forest.ids C.clear = C.earlier ++ C.later
  := by
  cases C with
  | top before after => simp [Context.clear, Context.earlier, Context.later]
  | inside C F =>
    rw [Context.clear, Context.ids_fill, Frame.ids_clear]
    simp only [Context.earlier, Context.later, List.append_assoc]

/-- Filling the place adds the ids of the block. -/
theorem Context.ids_fill_perm (C : Context) (b : Block) :
  (Forest.ids (C.fill b)).Perm (b.ids ++ Forest.ids C.clear)
  := by
  rw [C.ids_fill, C.ids_clear, List.append_assoc]
  apply List.perm_append_comm_assoc

/-- If all ids are different, those of a block in a place are not met outside of it. -/
theorem Context.notMem_of_nodup {C : Context} {b : Block}
    (hids : (Forest.ids (C.fill b)).Nodup) {x : String} (hx : x ∈ b.ids) :
  x ∉ C.earlier ∧ x ∉ C.later
  := by
  rw [C.ids_fill, List.append_assoc, List.nodup_append] at hids
  obtain ⟨-, hrest, hdisj⟩ := hids
  obtain ⟨-, -, hdisj'⟩ := List.nodup_append.mp hrest
  constructor
  · intro h
    apply hdisj x h x (List.mem_append_left _ hx) rfl
  · intro h
    apply hdisj' x hx x h rfl

/-! ### Finding the place of a block -/

/-- A list without the id is passed over. -/
theorem Forest.find?_append {id : String} {s t : Forest} (h : id ∉ Forest.ids s) :
  Forest.find? id (s ++ t) = Forest.find? id t
  := by
  rw [← Forest.find?_eq_none_iff, Forest.find?_eq_walk] at h
  rw [Forest.find?_eq_walk, Forest.find?_eq_walk, Forest.walk_append, List.find?_append, h,
    Option.none_or]

theorem Forest.find?_append_of_eq_some {id : String} {s : Forest} {b : Block}
    (h : Forest.find? id s = some b) (t : Forest) :
  Forest.find? id (s ++ t) = some b
  := by
  rw [Forest.find?_eq_walk] at h ⊢
  rw [Forest.walk_append, List.find?_append, h, Option.some_or]

theorem Slots.find?_append {id : String} {cs ds : Slots} (h : id ∉ Slots.ids cs) :
  Slots.find? id (cs ++ ds) = Slots.find? id ds
  := by
  rw [← Slots.find?_eq_none_iff, Slots.find?_eq_walk] at h
  rw [Slots.find?_eq_walk, Slots.find?_eq_walk, Slots.walk_append, List.find?_append, h,
    Option.none_or]

/-- A block is found through a frame if none in front of the hole has its id. -/
theorem Frame.find?_fill {F : Frame} {id : String} (h : id ∉ F.earlier) {b x : Block}
    (hb : b.find? id = some x) :
  (F.fill b).find? id = some x
  := by
  cases F with
  | child face before after slots =>
    rw [Frame.earlier, List.mem_cons, not_or] at h
    rw [Frame.fill, Block.find?_mk, if_neg (Ne.symm h.1), Option.getD_some,
      Forest.find?_append h.2, Forest.find?_cons, hb, Option.some_or, Option.some_or]
  | slot face children before after =>
    rw [Frame.earlier, List.mem_cons, List.mem_append, not_or, not_or] at h
    rw [Frame.fill, Block.find?_mk, if_neg (Ne.symm h.1), Forest.find?_eq_none_iff.mpr h.2.1,
      Slots.find?_append h.2.2, Slots.find?_block, hb, Option.none_or, Option.some_or]

/-- If nothing earlier has the id, the search goes on in the block in the place. -/
theorem Context.find?_fill {C : Context} {id : String} (h : id ∉ C.earlier) {b x : Block}
    (hb : b.find? id = some x) :
  Forest.find? id (C.fill b) = some x
  := by
  induction C generalizing b with
  | top before after =>
    rw [Context.fill, Forest.find?_append h, Forest.find?_cons, hb, Option.some_or]
  | inside C F ih =>
    rw [Context.earlier, List.mem_append, not_or] at h
    apply ih h.1 (Frame.find?_fill h.2 hb)

theorem Block.find?_self (b : Block) :
  b.find? b.id = some b
  := by
  rw [Block.find?_eq_walk, Block.walk_eq]
  simp

/-- The block in the hole is found if none in front of it has its id. -/
theorem Context.find?_fill_self {C : Context} {b : Block} (h : b.id ∉ C.earlier) :
  Forest.find? b.id (C.fill b) = some b
  := Context.find?_fill h b.find?_self

/-- A found block is in the first tree of the list that has its id. -/
theorem Forest.exists_of_find? {id : String} {t : Forest} {x : Block}
    (h : Forest.find? id t = some x) :
  ∃ s b u, t = s ++ b :: u ∧ id ∉ Forest.ids s ∧ b.find? id = some x
  := by
  induction t with
  | nil => contradiction
  | cons b bs ih =>
    rw [Forest.find?_cons] at h
    cases hb : b.find? id with
    | some found =>
      rw [hb, Option.some_or] at h
      use [], b, bs
      simp [hb, h]
    | none =>
      rw [hb, Option.none_or] at h
      obtain ⟨s, c, u, rfl, hs, hc⟩ := ih h
      use b :: s, c, u
      simp [hs, hc, Block.find?_eq_none_iff.mp hb]

/-- A found block is in the first slot whose tree has its id. -/
theorem Slots.exists_of_find? {id : String} {cs : Slots} {x : Block}
    (h : Slots.find? id cs = some x) :
  ∃ ds b es, cs = ds ++ .block b :: es ∧ id ∉ Slots.ids ds ∧ b.find? id = some x
  := by
  induction cs with
  | nil => contradiction
  | cons c cs ih =>
    cases c with
    | empty =>
      obtain ⟨ds, b, es, rfl, hds, hb⟩ := ih h
      use .empty :: ds, b, es
      simp [hds, hb]
    | literal value =>
      obtain ⟨ds, b, es, rfl, hds, hb⟩ := ih h
      use .literal value :: ds, b, es
      simp [hds, hb]
    | block b =>
      rw [Slots.find?_block] at h
      cases hb : b.find? id with
      | some found =>
        rw [hb, Option.some_or] at h
        use [], b, cs
        simp [hb, h]
      | none =>
        rw [hb, Option.none_or] at h
        obtain ⟨ds, c, es, rfl, hds, hc⟩ := ih h
        use .block b :: ds, c, es
        simp [hds, hc, Block.find?_eq_none_iff.mp hb]

/-- A block that is found beneath the block in a place stands in a place itself. -/
theorem Context.exists_fill {id : String} {x b : Block} (C : Context) (h : b.find? id = some x)
    (hC : id ∉ C.earlier) :
  ∃ D : Context, C.fill b = D.fill x ∧ id ∉ D.earlier
  := by
  induction b using Block.induct generalizing C with
  | step b ih =>
    obtain ⟨face, children, slots⟩ := b
    rw [Block.find?_mk] at h
    by_cases hface : face.id = id
    · rw [if_pos hface, Option.some.injEq] at h
      use C
      rw [h]
      exact ⟨rfl, hC⟩
    rw [if_neg hface] at h
    cases hfound : Forest.find? id (children.getD []) with
    | some found =>
      rw [hfound, Option.some_or, Option.some.injEq] at h
      subst h
      obtain ⟨s, b, u, hsplit, hs, hb⟩ := Forest.exists_of_find? hfound
      obtain ⟨blocks, rfl⟩ : ∃ blocks, children = some blocks := by
        cases children with
        | none => simp at hsplit
        | some blocks => exact ⟨blocks, rfl⟩
      rw [Option.getD_some] at hsplit
      subst hsplit
      obtain ⟨D, hD, hid⟩ := ih b (by simp [Block.childList]) (C.inside (.child face s u slots)) hb
        (by simp [Context.earlier, Frame.earlier, hC, hs, Ne.symm hface])
      use D, hD, hid
    | none =>
      rw [hfound, Option.none_or] at h
      obtain ⟨ds, b, es, rfl, hds, hb⟩ := Slots.exists_of_find? h
      obtain ⟨D, hD, hid⟩ := ih b (by simp [Block.occupants, Content.block?])
        (C.inside (.slot face children ds es)) hb
        (by simp [Context.earlier, Frame.earlier, hC, hds, Ne.symm hface,
          Forest.find?_eq_none_iff.mp hfound])
      use D, hD, hid

/-- A block that is found stands in a place, and nothing earlier has its id. -/
theorem Forest.exists_fill {id : String} {t : Forest} {b : Block}
    (h : Forest.find? id t = some b) :
  ∃ C : Context, t = C.fill b ∧ b.id = id ∧ id ∉ C.earlier
  := by
  obtain ⟨s, c, u, rfl, hs, hc⟩ := Forest.exists_of_find? h
  obtain ⟨C, hC, hid⟩ := Context.exists_fill (.top s u) hc hs
  use C, hC, Forest.id_of_find? h, hid

/-! ### Changing the block in the place -/

/-- An update goes through a frame if none in front of the hole has the id. -/
theorem Frame.update?_fill {F : Frame} {id : String} {f : Block → Block} (h : id ∉ F.earlier)
    {b c : Block} (hb : b.update? id f = some c) :
  (F.fill b).update? id f = some (F.fill c)
  := by
  cases F with
  | child face before after slots =>
    rw [Frame.earlier, List.mem_cons, not_or] at h
    rw [Frame.fill, Block.update?_mk, if_neg (Ne.symm h.1), Option.bind_some,
      Forest.update?_append h.2, Forest.update?_cons, hb]
    rfl
  | slot face children before after =>
    rw [Frame.earlier, List.mem_cons, List.mem_append, not_or, not_or] at h
    have hchildren : children.bind (Forest.update? id f) = none := by
      cases children with
      | none => rfl
      | some blocks => apply Forest.update?_eq_none h.2.1
    rw [Frame.fill, Block.update?_mk, if_neg (Ne.symm h.1), hchildren,
      Slots.update?_append h.2.2, Slots.update?_block, hb]
    rfl

/-- An update changes the hole alone if none in front of it has the id. -/
theorem Context.update?_fill {C : Context} {id : String} {f : Block → Block} (h : id ∉ C.earlier)
    {b c : Block} (hb : b.update? id f = some c) :
  Forest.update? id f (C.fill b) = some (C.fill c)
  := by
  induction C generalizing b c with
  | top before after =>
    rw [Context.fill, Forest.update?_append h, Forest.update?_cons, hb]
    rfl
  | inside C F ih =>
    rw [Context.earlier, List.mem_append, not_or] at h
    apply ih h.1 (Frame.update?_fill h.2 hb)

/-- `update?` changes the block in the place if nothing earlier has its id. -/
theorem Context.update?_fill_self {C : Context} {b : Block} (h : b.id ∉ C.earlier)
    (f : Block → Block) :
  Forest.update? b.id f (C.fill b) = some (C.fill (f b))
  := by
  apply Context.update?_fill h
  obtain ⟨face, children, slots⟩ := b
  rw [Block.update?_mk]
  apply if_pos rfl

end BlockEditor
