import BlockEditor.Workspace.Edit
import Mathlib.Data.List.Nodup
import Mathlib.Data.List.Perm.Basic

/-!
# The order of a walk

The searches of a workspace in terms of `walk`: `find?` returns the first block with an id,
`contains` asks whether the id is there, `size` counts the blocks, and `update?` succeeds exactly
if the id is there.  Where all ids are different, `find?` returns every block of the walk under its
own id.  `Block.induct` proves a property of all blocks from the blocks that each one holds.
-/

namespace BlockEditor

/-- The ids of a block and all blocks beneath it, in pre-order. -/
def Block.ids (b : Block) : List String :=
  b.walk.map Block.id

/-- The ids of the occupants of slots and all blocks beneath them, in pre-order. -/
def Slots.ids (cs : Slots) : List String :=
  (Slots.walk cs).map Block.id

/-! ### Induction over trees -/

mutual

/-- A property that a block has whenever all blocks that it holds have it, all blocks have. -/
theorem Block.induct {P : Block → Prop}
    (step : ∀ b : Block, (∀ c ∈ b.childList ++ b.occupants, P c) → P b) :
  ∀ b : Block, P b
  | ⟨face, children, slots⟩ => by
      apply step
      intro c hc
      rcases List.mem_append.mp hc with hc | hc
      · match children, hc with
        | some blocks, hc => apply Forest.induct step blocks c hc
      · apply Slots.induct step slots c hc

theorem Forest.induct {P : Block → Prop}
    (step : ∀ b : Block, (∀ c ∈ b.childList ++ b.occupants, P c) → P b) :
  ∀ bs : List Block, ∀ b ∈ bs, P b
  | b :: bs, c, hc => by
      rcases List.mem_cons.mp hc with hc | hc
      · rw [hc]
        apply Block.induct step b
      · apply Forest.induct step bs c hc

theorem Slots.induct {P : Block → Prop}
    (step : ∀ b : Block, (∀ c ∈ b.childList ++ b.occupants, P c) → P b) :
  ∀ cs : List (Content Block), ∀ b ∈ cs.filterMap Content.block?, P b
  | .block b :: cs, c, hc => by
      rcases List.mem_cons.mp hc with hc | hc
      · rw [hc]
        apply Block.induct step b
      · apply Slots.induct step cs c hc
  | .empty :: cs, c, hc => Slots.induct step cs c hc
  | .literal _ :: cs, c, hc => Slots.induct step cs c hc

end

/-! ### Walks of lists -/

@[simp]
theorem Forest.walk_cons (b : Block) (bs : Forest) :
  Forest.walk (b :: bs) = b.walk ++ Forest.walk bs
  := rfl

/-- The blocks of one list come before those of the other. -/
@[simp]
theorem Forest.walk_append (s t : Forest) :
  Forest.walk (s ++ t) = Forest.walk s ++ Forest.walk t
  := by
  simp only [Forest.walk_eq_flatMap, List.flatMap_append]

@[simp]
theorem Slots.walk_block (b : Block) (cs : Slots) :
  Slots.walk (.block b :: cs) = b.walk ++ Slots.walk cs
  := rfl

@[simp]
theorem Slots.walk_append (cs ds : Slots) :
  Slots.walk (cs ++ ds) = Slots.walk cs ++ Slots.walk ds
  := by
  simp only [Slots.walk_eq_flatMap, List.filterMap_append, List.flatMap_append]

/-- The walk of a block, by what it is made of. -/
theorem Block.walk_mk (face : Face) (children : Option Forest) (slots : Slots) :
  (Block.mk face children slots).walk
    = ⟨face, children, slots⟩ :: (Forest.walk (children.getD []) ++ Slots.walk slots)
  := by
  cases children <;> rfl

@[simp]
theorem Forest.ids_nil :
  Forest.ids [] = []
  := rfl

@[simp]
theorem Forest.ids_cons (b : Block) (bs : Forest) :
  Forest.ids (b :: bs) = b.ids ++ Forest.ids bs
  := by
  simp only [Forest.ids, Block.ids, Forest.walk_cons, List.map_append]

@[simp]
theorem Forest.ids_append (s t : Forest) :
  Forest.ids (s ++ t) = Forest.ids s ++ Forest.ids t
  := by
  simp only [Forest.ids, Forest.walk_append, List.map_append]

@[simp]
theorem Slots.ids_nil :
  Slots.ids [] = []
  := rfl

@[simp]
theorem Slots.ids_block (b : Block) (cs : Slots) :
  Slots.ids (.block b :: cs) = b.ids ++ Slots.ids cs
  := by
  simp only [Slots.ids, Block.ids, Slots.walk_block, List.map_append]

@[simp]
theorem Slots.ids_empty (cs : Slots) :
  Slots.ids (.empty :: cs) = Slots.ids cs
  := rfl

@[simp]
theorem Slots.ids_literal (value : String) (cs : Slots) :
  Slots.ids (.literal value :: cs) = Slots.ids cs
  := rfl

@[simp]
theorem Slots.ids_append (cs ds : Slots) :
  Slots.ids (cs ++ ds) = Slots.ids cs ++ Slots.ids ds
  := by
  simp only [Slots.ids, Slots.walk_append, List.map_append]

/-- The id of a block comes first, then those beneath its children, then those in its slots. -/
@[simp]
theorem Block.ids_mk (face : Face) (children : Option Forest) (slots : Slots) :
  (Block.mk face children slots).ids
    = face.id :: (Forest.ids (children.getD []) ++ Slots.ids slots)
  := by
  simp only [Block.ids, Block.walk_mk, List.map_cons, List.map_append, Block.id, Forest.ids,
    Slots.ids]

/-- A walk begins with the block itself. -/
theorem Block.mem_walk_self (b : Block) :
  b ∈ b.walk
  := by
  rw [Block.walk_eq]
  apply List.mem_cons_self

theorem Block.id_mem_ids (b : Block) :
  b.id ∈ b.ids
  := List.mem_map_of_mem b.mem_walk_self

/-- A block in a slot is a block of the walk. -/
theorem Block.mem_walk_of_slot {b c : Block} {slot : Nat} (h : b.slots[slot]? = some (.block c)) :
  c ∈ b.walk
  := by
  rw [Block.walk_eq]
  apply List.mem_cons_of_mem
  apply List.mem_flatMap.mpr
  refine ⟨c, ?_, c.mem_walk_self⟩
  apply List.mem_append_right
  apply List.mem_filterMap.mpr
  use .block c, List.mem_of_getElem? h
  rfl

/-- The blocks at the top level are blocks of the workspace. -/
theorem Forest.mem_walk_of_mem {b : Block} {t : Forest} (h : b ∈ t) :
  b ∈ Forest.walk t
  := by
  rw [Forest.walk_eq_flatMap]
  apply List.mem_flatMap.mpr
  use b, h
  apply Block.mem_walk_self

/-- The blocks at the top level have ids of the workspace. -/
theorem Forest.mem_ids_of_mem {b : Block} {t : Forest} (h : b ∈ t) :
  b.id ∈ Forest.ids t
  := List.mem_map_of_mem (Forest.mem_walk_of_mem h)

/-- The walk of a block of a walk is part of that walk. -/
theorem Block.walk_subset {b c : Block} (h : c ∈ b.walk) :
  c.walk ⊆ b.walk
  := by
  induction b using Block.induct with
  | step b ih =>
    rw [Block.walk_eq] at h
    rcases List.mem_cons.mp h with rfl | h
    · apply List.Subset.refl
    · obtain ⟨d, hd, hc⟩ := List.mem_flatMap.mp h
      intro x hx
      rw [Block.walk_eq]
      apply List.mem_cons_of_mem
      apply List.mem_flatMap.mpr
      use d, hd
      apply ih d hd hc hx

/-- The walks of what a block holds are part of its walk. -/
theorem Block.walk_subset_of_mem {b c : Block} (h : c ∈ b.childList ++ b.occupants) :
  c.walk ⊆ b.walk
  := by
  apply Block.walk_subset
  rw [Block.walk_eq]
  apply List.mem_cons_of_mem
  apply List.mem_flatMap.mpr
  use c, h, c.mem_walk_self

/-- Whatever is beneath a block of a workspace is in the workspace. -/
theorem Forest.walk_subset {t : Forest} {b : Block} (h : b ∈ Forest.walk t) :
  b.walk ⊆ Forest.walk t
  := by
  rw [Forest.walk_eq_flatMap] at h ⊢
  obtain ⟨d, hd, hb⟩ := List.mem_flatMap.mp h
  intro x hx
  apply List.mem_flatMap.mpr
  use d, hd
  apply Block.walk_subset hb hx

/-! ### Searching -/

/-- `find?` of a block, by what the block is made of. -/
theorem Block.find?_mk (id : String) (face : Face) (children : Option Forest) (slots : Slots) :
  (Block.mk face children slots).find? id
    = if face.id = id then some ⟨face, children, slots⟩
      else (Forest.find? id (children.getD [])).or (Slots.find? id slots)
  := by
  cases children <;> simp [Block.find?, Forest.find?]

theorem Forest.find?_cons (id : String) (b : Block) (bs : Forest) :
  Forest.find? id (b :: bs) = (b.find? id).or (Forest.find? id bs)
  := by
  rw [Forest.find?, Option.orElse_eq_orElse, Option.orElse_eq_or]

theorem Slots.find?_block (id : String) (b : Block) (cs : Slots) :
  Slots.find? id (.block b :: cs) = (b.find? id).or (Slots.find? id cs)
  := by
  rw [Slots.find?, Option.orElse_eq_orElse, Option.orElse_eq_or]

mutual

/-- A search finds the first block of the walk that has the id. -/
theorem Block.find?_eq_walk (id : String) :
  ∀ b : Block, b.find? id = b.walk.find? fun c => c.id = id
  | ⟨face, children, slots⟩ => by
      have hslots := Slots.find?_eq_walk id slots
      have hchildren : Forest.find? id (children.getD [])
          = (Forest.walk (children.getD [])).find? fun c => c.id = id :=
        match children with
        | some blocks => Forest.find?_eq_walk id blocks
        | none => rfl
      rw [Block.find?_mk, Block.walk_mk, List.find?_cons, List.find?_append, hchildren, hslots]
      by_cases h : face.id = id
      · simp [Block.id, h]
      · simp [Block.id, h]

/-- `find?` returns the first block of the walk that has the id. -/
theorem Forest.find?_eq_walk (id : String) :
  ∀ t : List Block, Forest.find? id t = (Forest.walk t).find? fun c => c.id = id
  | [] => rfl
  | b :: bs => by
      rw [Forest.walk_cons, List.find?_append, ← Block.find?_eq_walk id b,
        ← Forest.find?_eq_walk id bs, Forest.find?_cons]

theorem Slots.find?_eq_walk (id : String) :
  ∀ cs : List (Content Block), Slots.find? id cs = (Slots.walk cs).find? fun c => c.id = id
  | [] => rfl
  | .block b :: cs => by
      rw [Slots.walk_block, List.find?_append, ← Block.find?_eq_walk id b,
        ← Slots.find?_eq_walk id cs, Slots.find?_block]
  | .empty :: cs => Slots.find?_eq_walk id cs
  | .literal _ :: cs => Slots.find?_eq_walk id cs

end

theorem Block.find?_eq_none_iff {id : String} {b : Block} :
  b.find? id = none ↔ id ∉ b.ids
  := by
  simp [Block.find?_eq_walk, Block.ids]

/-- Nothing is found exactly under the ids that are not there. -/
theorem Forest.find?_eq_none_iff {id : String} {t : Forest} :
  Forest.find? id t = none ↔ id ∉ Forest.ids t
  := by
  simp [Forest.find?_eq_walk, Forest.ids]

theorem Slots.find?_eq_none_iff {id : String} {cs : Slots} :
  Slots.find? id cs = none ↔ id ∉ Slots.ids cs
  := by
  simp [Slots.find?_eq_walk, Slots.ids]

/-- What `find?` returns has the id. -/
theorem Forest.id_of_find? {id : String} {t : Forest} {b : Block} (h : Forest.find? id t = some b) :
  b.id = id
  := by
  rw [Forest.find?_eq_walk] at h
  simpa using List.find?_some h

/-- What is found is there. -/
theorem Forest.mem_walk_of_find? {id : String} {t : Forest} {b : Block}
    (h : Forest.find? id t = some b) :
  b ∈ Forest.walk t
  := by
  rw [Forest.find?_eq_walk] at h
  apply List.mem_of_find?_eq_some h

/-- An id under which a block is found is there. -/
theorem Forest.mem_ids_of_find? {id : String} {t : Forest} {b : Block}
    (h : Forest.find? id t = some b) :
  id ∈ Forest.ids t
  := by
  rw [← Forest.id_of_find? h]
  apply List.mem_map_of_mem (Forest.mem_walk_of_find? h)

/-- In a list with different keys, searching for the key of an element finds that element. -/
theorem find?_key_of_mem {α : Type} {key : α → String} {xs : List α} (h : (xs.map key).Nodup) {x : α}
    (hx : x ∈ xs) :
  (xs.find? fun y => key y = key x) = some x
  := by
  cases hfind : xs.find? fun y => key y = key x with
  | none => simpa using List.find?_eq_none.mp hfind x hx
  | some y =>
    have hkey : key y = key x := by simpa using List.find?_some hfind
    rw [List.inj_on_of_nodup_map h (List.mem_of_find?_eq_some hfind) hx hkey]

/-- In a list of blocks with different ids, searching for the id of a block finds that block. -/
theorem find?_id_of_mem {bs : List Block} (hids : (bs.map Block.id).Nodup) {b : Block}
    (hb : b ∈ bs) :
  (bs.find? fun c => c.id = b.id) = some b
  := find?_key_of_mem hids hb

/-- Where all ids are different, every block of the workspace is found under its own id. -/
theorem Forest.find?_of_mem_walk {t : Forest} (hids : (Forest.ids t).Nodup) {b : Block}
    (hb : b ∈ Forest.walk t) :
  Forest.find? b.id t = some b
  := by
  rw [Forest.find?_eq_walk]
  apply find?_id_of_mem hids hb

mutual

/-- A block contains the ids of its walk. -/
theorem Block.contains_iff (id : String) :
  ∀ b : Block, b.contains id = true ↔ id ∈ b.ids
  | ⟨face, children, slots⟩ => by
      have hslots := Slots.contains_iff id slots
      rw [Block.ids_mk, List.mem_cons, List.mem_append, eq_comm (a := id)]
      match children with
      | some blocks =>
        have hchildren := Forest.contains_iff id blocks
        simp [Block.contains, hslots, hchildren, or_assoc]
      | none => simp [Block.contains, hslots]

/-- A workspace contains the ids that its walk meets. -/
theorem Forest.contains_iff (id : String) :
  ∀ t : List Block, Forest.contains id t = true ↔ id ∈ Forest.ids t
  | [] => by simp [Forest.contains]
  | b :: bs => by
      simp [Forest.contains, Block.contains_iff id b, Forest.contains_iff id bs]

theorem Slots.contains_iff (id : String) :
  ∀ cs : List (Content Block), Slots.contains id cs = true ↔ id ∈ Slots.ids cs
  | [] => by simp [Slots.contains]
  | .block b :: cs => by
      simp [Slots.contains, Block.contains_iff id b, Slots.contains_iff id cs]
  | .empty :: cs => by simp [Slots.contains, Slots.contains_iff id cs]
  | .literal _ :: cs => by simp [Slots.contains, Slots.contains_iff id cs]

end

mutual

/-- A walk meets as many blocks as there are. -/
theorem Block.length_walk :
  ∀ b : Block, b.walk.length = b.size
  | ⟨face, children, slots⟩ => by
      have hslots := Slots.length_walk slots
      match children with
      | some blocks =>
        have hchildren := Forest.length_walk blocks
        simp only [Block.walk, Block.size, List.length_cons, List.length_append, hslots,
          hchildren]
        omega
      | none =>
        simp only [Block.walk, Block.size, List.length_cons, List.length_append, hslots,
          List.length_nil]
        omega

/-- A walk meets as many blocks as there are. -/
theorem Forest.length_walk :
  ∀ t : List Block, (Forest.walk t).length = Forest.size t
  | [] => rfl
  | b :: bs => by
      rw [Forest.walk_cons, List.length_append, Block.length_walk b, Forest.length_walk bs,
        Forest.size]

theorem Slots.length_walk :
  ∀ cs : List (Content Block), (Slots.walk cs).length = Slots.size cs
  | [] => rfl
  | .block b :: cs => by
      rw [Slots.walk_block, List.length_append, Block.length_walk b, Slots.length_walk cs,
        Slots.size]
  | .empty :: cs => Slots.length_walk cs
  | .literal _ :: cs => Slots.length_walk cs

end

/-- There are as many ids as blocks, with repetitions. -/
theorem Forest.length_ids (t : Forest) :
  (Forest.ids t).length = Forest.size t
  := by
  rw [Forest.ids, List.length_map, Forest.length_walk]

/-! ### Changing the block with an id -/

/-- `update?` of a block, by what the block is made of. -/
theorem Block.update?_mk (id : String) (f : Block → Block) (face : Face)
    (children : Option Forest) (slots : Slots) :
  (Block.mk face children slots).update? id f
    = if face.id = id then some (f ⟨face, children, slots⟩)
      else
        ((children.bind (Forest.update? id f)).map fun blocks => ⟨face, some blocks, slots⟩).or
          ((Slots.update? id f slots).map fun slots => ⟨face, children, slots⟩)
  := by
  cases children <;> simp [Block.update?]

theorem Forest.update?_cons (id : String) (f : Block → Block) (b : Block) (bs : Forest) :
  Forest.update? id f (b :: bs)
    = ((b.update? id f).map (· :: bs)).or ((Forest.update? id f bs).map (b :: ·))
  := by
  rw [Forest.update?, Option.orElse_eq_orElse, Option.orElse_eq_or]

theorem Slots.update?_block (id : String) (f : Block → Block) (b : Block) (cs : Slots) :
  Slots.update? id f (.block b :: cs)
    = ((b.update? id f).map (.block · :: cs)).or ((Slots.update? id f cs).map (.block b :: ·))
  := by
  rw [Slots.update?, Option.orElse_eq_orElse, Option.orElse_eq_or]

theorem Slots.update?_empty (id : String) (f : Block → Block) (cs : Slots) :
  Slots.update? id f (.empty :: cs) = (Slots.update? id f cs).map (.empty :: ·)
  := rfl

theorem Slots.update?_literal (id : String) (f : Block → Block) (value : String) (cs : Slots) :
  Slots.update? id f (.literal value :: cs)
    = (Slots.update? id f cs).map (.literal value :: ·)
  := rfl

mutual

/-- Under an id that is not there, nothing is changed. -/
theorem Block.update?_eq_none {id : String} {f : Block → Block} :
  ∀ {b : Block}, id ∉ b.ids → b.update? id f = none
  | ⟨face, children, slots⟩, h => by
      simp only [Block.ids_mk, List.mem_cons, List.mem_append, not_or] at h
      obtain ⟨hface, hchildren, hslots⟩ := h
      rw [Block.update?_mk, if_neg (Ne.symm hface), Slots.update?_eq_none hslots, Option.map_none,
        Option.or_none]
      match children, hchildren with
      | some blocks, hchildren =>
        rw [Option.bind_some, Forest.update?_eq_none (t := blocks) hchildren]
        rfl
      | none, _ => rfl

/-- Nothing can be changed under an id that is not there. -/
theorem Forest.update?_eq_none {id : String} {f : Block → Block} :
  ∀ {t : List Block}, id ∉ Forest.ids t → Forest.update? id f t = none
  | [], _ => rfl
  | b :: bs, h => by
      rw [Forest.ids_cons, List.mem_append, not_or] at h
      rw [Forest.update?_cons, Block.update?_eq_none h.1, Forest.update?_eq_none h.2]
      rfl

theorem Slots.update?_eq_none {id : String} {f : Block → Block} :
  ∀ {s : List (Content Block)}, id ∉ Slots.ids s → Slots.update? id f s = none
  | [], _ => rfl
  | .block b :: cs, h => by
      rw [Slots.ids_block, List.mem_append, not_or] at h
      rw [Slots.update?_block, Block.update?_eq_none h.1, Slots.update?_eq_none h.2]
      rfl
  | .empty :: cs, h => by
      rw [Slots.update?_empty, Slots.update?_eq_none (s := cs) h, Option.map_none]
  | .literal _ :: cs, h => by
      rw [Slots.update?_literal, Slots.update?_eq_none (s := cs) h, Option.map_none]

end

/-- What stands before the block with the id stays as it is. -/
theorem Forest.update?_append {id : String} {f : Block → Block} {s t : Forest}
    (h : id ∉ Forest.ids s) :
  Forest.update? id f (s ++ t) = (Forest.update? id f t).map (s ++ ·)
  := by
  induction s with
  | nil => simp
  | cons b bs ih =>
    rw [Forest.ids_cons, List.mem_append, not_or] at h
    rw [List.cons_append, Forest.update?_cons, Block.update?_eq_none h.1, ih h.2, Option.map_none,
      Option.none_or, Option.map_map]
    rfl

/-- What stands before the occupant with the id stays as it is. -/
theorem Slots.update?_append {id : String} {f : Block → Block} {cs ds : Slots}
    (h : id ∉ Slots.ids cs) :
  Slots.update? id f (cs ++ ds) = (Slots.update? id f ds).map (cs ++ ·)
  := by
  induction cs with
  | nil => simp
  | cons c cs ih =>
    cases c with
    | block b =>
      rw [Slots.ids_block, List.mem_append, not_or] at h
      rw [List.cons_append, Slots.update?_block, Block.update?_eq_none h.1, ih h.2,
        Option.map_none, Option.none_or, Option.map_map]
      rfl
    | empty =>
      rw [List.cons_append, Slots.update?_empty, ih h, Option.map_map]
      rfl
    | literal value =>
      rw [List.cons_append, Slots.update?_literal, ih h, Option.map_map]
      rfl

end BlockEditor
