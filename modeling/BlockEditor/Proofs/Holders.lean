import BlockEditor.Proofs.Moving

/-!
# Holders

A block holds its children and the occupants of its slots.  Ids may be repeated: `locate?` looks at the
top level, and then asks the blocks of the walk one after the other whether they hold the id.  A walk
meets every block after the block that holds it.
-/

namespace BlockEditor

namespace Block

/-- One of the children or of the occupants has the given id. -/
def holds (id : String) (b : Block) : Bool :=
  (b.childList ++ b.occupants).any fun c => c.id = id

/-- The place that the block itself has for the given id, among its children or else in a slot. -/
def locateHeld? (id : String) (b : Block) : Option Location :=
  ((Forest.indexOf? id b.childList).map fun index => ⟨.children b.id, index⟩).or
    ((Slots.indexOf? id b.slots).map fun slot => ⟨.slot b.id slot, 0⟩)

theorem holds_iff {id : String} {b : Block} :
  b.holds id = true ↔ ∃ c ∈ b.childList ++ b.occupants, c.id = id
  := by
  simp only [holds, List.any_eq_true, decide_eq_true_eq]

end Block

/-! ### The order of the search -/

theorem Slots.isSome_indexOf? (id : String) (cs : Slots) :
  (Slots.indexOf? id cs).isSome = (cs.filterMap Content.block?).any fun c => c.id = id
  := by
  rw [Slots.indexOf?, List.findIdx?_isSome, List.any_filterMap]
  congr 1
  funext c
  cases c <;> rfl

/-- A block is located within its holder exactly if that holds it. -/
theorem Block.isSome_locateHeld? (id : String) (b : Block) :
  (b.locateHeld? id).isSome = b.holds id
  := by
  rw [Block.locateHeld?, Option.isSome_or, Option.isSome_map, Option.isSome_map,
    Slots.isSome_indexOf?, Forest.indexOf?, List.findIdx?_isSome, Block.holds, List.any_append,
    Block.occupants]

mutual

theorem Block.locate?_eq_walk (id : String) :
  ∀ b : Block, b.locate? id = b.walk.findSome? (Block.locateHeld? id)
  | ⟨face, children, slots⟩ => by
      have hslots := Slots.locateBeneath?_eq_walk id slots
      have hchildren : Forest.locateBeneath? id (children.getD [])
          = (Forest.walk (children.getD [])).findSome? (Block.locateHeld? id) :=
        match children with
        | some blocks => Forest.locateBeneath?_eq_walk id blocks
        | none => rfl
      have hself : Block.locateHeld? id ⟨face, children, slots⟩
          = ((Forest.indexOf? id (children.getD [])).map fun index => ⟨.children face.id, index⟩).or
            ((Slots.indexOf? id slots).map fun slot => ⟨.slot face.id slot, 0⟩) := rfl
      rw [Block.locate?_mk, Block.walk_mk, List.findSome?_cons, List.findSome?_append, ← hchildren,
        ← hslots, ← hself]
      cases Block.locateHeld? id ⟨face, children, slots⟩ <;> rfl

/-- Beneath the top level, the place that `locate?` tells is the one in the first block of the walk that
has a place for the id. -/
theorem Forest.locateBeneath?_eq_walk (id : String) :
  ∀ t : List Block, Forest.locateBeneath? id t = (Forest.walk t).findSome? (Block.locateHeld? id)
  | [] => rfl
  | b :: bs => by
      rw [Forest.locateBeneath?_cons, Forest.walk_cons, List.findSome?_append,
        Block.locate?_eq_walk id b, Forest.locateBeneath?_eq_walk id bs]

theorem Slots.locateBeneath?_eq_walk (id : String) :
  ∀ cs : List (Content Block),
    Slots.locateBeneath? id cs = (Slots.walk cs).findSome? (Block.locateHeld? id)
  | [] => rfl
  | .block b :: cs => by
      rw [Slots.locateBeneath?_block, Slots.walk_block, List.findSome?_append,
        Block.locate?_eq_walk id b, Slots.locateBeneath?_eq_walk id cs]
  | .empty :: cs => Slots.locateBeneath?_eq_walk id cs
  | .literal _ :: cs => Slots.locateBeneath?_eq_walk id cs

end

/-- A block is located at the top level first, and else within the first block of the walk that holds
one of its id. -/
theorem Forest.locate?_eq_walk (id : String) (t : Forest) :
  Forest.locate? id t = ((Forest.indexOf? id t).map fun index => ⟨.root, index⟩).or
    ((Forest.walk t).findSome? (Block.locateHeld? id))
  := by
  rw [Forest.locate?, Option.orElse_eq_orElse, Option.orElse_eq_or, Forest.locateBeneath?_eq_walk]

/-- An id at the top level is located there. -/
theorem Forest.exists_locate?_root {id : String} {t : Forest} (h : id ∈ t.map Block.id) :
  ∃ index, Forest.locate? id t = some ⟨.root, index⟩
  := by
  obtain ⟨b, hb, rfl⟩ := List.mem_map.mp h
  have hsome : (Forest.indexOf? b.id t).isSome = true := by
    rw [Forest.indexOf?, List.findIdx?_isSome, List.any_eq_true]
    use b, hb, decide_eq_true rfl
  obtain ⟨index, hindex⟩ := Option.isSome_iff_exists.mp hsome
  use index
  rw [Forest.locate?_eq_walk, hindex]
  rfl

theorem Block.id_of_locateHeld?_slot {id holder : String} {b : Block} {slot index : Nat}
    (h : b.locateHeld? id = some ⟨.slot holder slot, index⟩) :
  b.id = holder
  := by
  rw [Block.locateHeld?, Option.or_eq_some_iff] at h
  rcases h with h | ⟨-, h⟩
  · obtain ⟨_, -, ⟨⟩⟩ := Option.map_eq_some_iff.mp h
  · obtain ⟨_, -, ⟨⟩⟩ := Option.map_eq_some_iff.mp h
    rfl

/-- The holder of a slot that `locate?` tells is the first block of the walk that holds the id. -/
theorem Forest.exists_holder_of_locate? {id holder : String} {t : Forest} {slot index : Nat}
    (h : Forest.locate? id t = some ⟨.slot holder slot, index⟩) :
  ∃ s b u, Forest.walk t = s ++ b :: u ∧ b.id = holder ∧ b.holds id = true
    ∧ ∀ c ∈ s, c.holds id = false
  := by
  rw [Forest.locate?_eq_walk, Option.or_eq_some_iff] at h
  rcases h with h | ⟨-, h⟩
  · obtain ⟨_, -, ⟨⟩⟩ := Option.map_eq_some_iff.mp h
  obtain ⟨s, b, u, hwalk, hb, hs⟩ := List.findSome?_eq_some_iff.mp h
  refine ⟨s, b, u, hwalk, Block.id_of_locateHeld?_slot hb, ?_, ?_⟩
  · rw [← Block.isSome_locateHeld?, hb]
    rfl
  · intro c hc
    rw [← Block.isSome_locateHeld?, hs c hc]
    rfl

/-! ### Holders come first -/

/-- If the walk of every block of a list meets what it holds after the holder, so do these walks one after
the other. -/
theorem exists_holder_of_flatMap {bs s u : List Block} {c : Block}
    (ih : ∀ b ∈ bs, ∀ {s u}, b.walk = s ++ c :: u → c = b ∨ ∃ a ∈ s, c ∈ a.childList ++ a.occupants)
    (h : bs.flatMap Block.walk = s ++ c :: u) :
  c ∈ bs ∨ ∃ a ∈ s, c ∈ a.childList ++ a.occupants
  := by
  induction bs generalizing s with
  | nil => simp at h
  | cons b bs ihbs =>
    have hlater : ∀ {s}, bs.flatMap Block.walk = s ++ c :: u →
        c ∈ b :: bs ∨ ∃ a ∈ s, c ∈ a.childList ++ a.occupants :=
      fun hrest => (ihbs (fun d hd => ih d (List.mem_cons_of_mem _ hd)) hrest).imp_left
        (List.mem_cons_of_mem _)
    rw [List.flatMap_cons] at h
    rcases List.append_eq_append_iff.mp h with ⟨s', rfl, hrest⟩ | ⟨u', hwalk, hu⟩
    · rcases hlater hrest with hc | ⟨a, ha, hc⟩
      · apply Or.inl hc
      · exact Or.inr ⟨a, List.mem_append_right _ ha, hc⟩
    cases u' with
    | nil =>
      rcases hlater (s := []) hu.symm with hc | ⟨a, ha, -⟩
      · apply Or.inl hc
      · cases ha
    | cons d u' =>
      obtain ⟨rfl, -⟩ := List.cons.inj hu
      rcases ih b (List.mem_cons_self ..) hwalk with rfl | hc
      · apply Or.inl (List.mem_cons_self ..)
      · apply Or.inr hc

/-- A block met on the walk of another one is that one, or held by a block that was met before. -/
theorem Block.exists_holder_of_walk_eq {b c : Block} {s u : List Block} (h : b.walk = s ++ c :: u) :
  c = b ∨ ∃ a ∈ s, c ∈ a.childList ++ a.occupants
  := by
  induction b using Block.induct generalizing s u with
  | step b ih =>
    rw [Block.walk_eq] at h
    rcases List.cons_eq_append_iff.mp h with ⟨-, hc⟩ | ⟨s, rfl, hrest⟩
    · apply Or.inl (List.cons.inj hc).1
    rcases exists_holder_of_flatMap (fun d hd => ih d hd) hrest with hc | ⟨a, ha, hc⟩
    · exact Or.inr ⟨b, List.mem_cons_self .., hc⟩
    · exact Or.inr ⟨a, List.mem_cons_of_mem _ ha, hc⟩

/-- A walk meets every block that is not at the top level after the block that holds it. -/
theorem Forest.exists_holder_of_walk_eq {t s u : Forest} {c : Block}
    (h : Forest.walk t = s ++ c :: u) :
  c ∈ t ∨ ∃ a ∈ s, c ∈ a.childList ++ a.occupants
  := by
  rw [Forest.walk_eq_flatMap] at h
  apply exists_holder_of_flatMap (fun b _ => Block.exists_holder_of_walk_eq) h

end BlockEditor
