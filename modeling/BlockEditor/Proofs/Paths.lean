import BlockEditor.Proofs.Walk

/-!
# Paths

A path leads from the top level of a workspace down to a block, through positions in lists and through
slots.  Blocks with the same id, or with all that they hold the same, are told apart by their paths.  The
blocks at the ends of paths are those of the walk.
-/

namespace BlockEditor

/-- A step down, to a block of a list or to the occupant of a slot. -/
inductive Edge where
  | child (index : Nat)
  | slot (index : Nat)
deriving DecidableEq, Repr

/-- The steps down to a block, the first one first. -/
abbrev Path := List Edge

/-- The block that is one step down. -/
def Block.held? (b : Block) : Edge → Option Block
  | .child index => b.childList[index]?
  | .slot index => b.slots[index]?.bind Content.block?

/-- The block that is one step down from the top level, which has no slots. -/
def Forest.held? (t : Forest) : Edge → Option Block
  | .child index => t[index]?
  | .slot _ => none

/-- The block at the end of a path from a block. -/
def Block.at? (b : Block) : Path → Option Block
  | [] => some b
  | e :: p => (b.held? e).bind fun c => c.at? p

/-- The block at the end of a path. -/
def Forest.at? (t : Forest) : Path → Option Block
  | [] => none
  | e :: p => (held? t e).bind fun c => c.at? p

theorem Block.at?_cons_eq_some_iff {b c : Block} {e : Edge} {p : Path} :
  b.at? (e :: p) = some c ↔ ∃ d, b.held? e = some d ∧ d.at? p = some c
  := Option.bind_eq_some_iff

theorem Forest.at?_cons_eq_some_iff {t : Forest} {b : Block} {e : Edge} {p : Path} :
  Forest.at? t (e :: p) = some b ↔ ∃ c, Forest.held? t e = some c ∧ c.at? p = some b
  := Option.bind_eq_some_iff

/-- A path goes on where its first part ends. -/
theorem Block.at?_append (b : Block) (p q : Path) :
  b.at? (p ++ q) = (b.at? p).bind fun c => c.at? q
  := by
  induction p generalizing b with
  | nil => rfl
  | cons e p ih =>
    rw [List.cons_append, Block.at?, Block.at?, Option.bind_assoc]
    congr 1
    funext c
    apply ih c

/-- What is one step down from a block is what it holds. -/
theorem Block.exists_held?_iff {b c : Block} :
  (∃ e, b.held? e = some c) ↔ c ∈ b.childList ++ b.occupants
  := by
  rw [List.mem_append, List.mem_iff_getElem?, Block.occupants, List.mem_filterMap]
  constructor
  · rintro ⟨index | index, h⟩
    · exact Or.inl ⟨index, h⟩
    · obtain ⟨content, hcontent, hblock⟩ := Option.bind_eq_some_iff.mp h
      exact Or.inr ⟨content, List.mem_of_getElem? hcontent, hblock⟩
  · rintro (⟨index, h⟩ | ⟨content, hcontent, hblock⟩)
    · exact ⟨.child index, h⟩
    · obtain ⟨index, hindex⟩ := List.mem_iff_getElem?.mp hcontent
      use .slot index
      rw [Block.held?, hindex, Option.bind_some, hblock]

theorem Forest.exists_held?_iff {t : Forest} {b : Block} :
  (∃ e, Forest.held? t e = some b) ↔ b ∈ t
  := by
  rw [List.mem_iff_getElem?]
  constructor
  · rintro ⟨index | index, h⟩
    · exact ⟨index, h⟩
    · contradiction
  · rintro ⟨index, h⟩
    exact ⟨.child index, h⟩

theorem Block.mem_walk_iff_at? {b c : Block} :
  c ∈ b.walk ↔ ∃ p, b.at? p = some c
  := by
  induction b using Block.induct with
  | step b ih =>
    rw [Block.walk_eq, List.mem_cons, List.mem_flatMap]
    constructor
    · rintro (rfl | ⟨d, hd, hc⟩)
      · exact ⟨[], rfl⟩
      · obtain ⟨e, he⟩ := Block.exists_held?_iff.mpr hd
        obtain ⟨p, hp⟩ := (ih d hd).mp hc
        use e :: p
        apply Block.at?_cons_eq_some_iff.mpr ⟨d, he, hp⟩
    · rintro ⟨_ | ⟨e, p⟩, h⟩
      · cases h
        apply Or.inl rfl
      · obtain ⟨d, hd, hc⟩ := Block.at?_cons_eq_some_iff.mp h
        have hheld := Block.exists_held?_iff.mp ⟨e, hd⟩
        exact Or.inr ⟨d, hheld, (ih d hheld).mpr ⟨p, hc⟩⟩

/-- The blocks at the ends of paths are those of the walk. -/
theorem Forest.mem_walk_iff_at? {t : Forest} {b : Block} :
  b ∈ Forest.walk t ↔ ∃ p, Forest.at? t p = some b
  := by
  rw [Forest.walk_eq_flatMap, List.mem_flatMap]
  constructor
  · rintro ⟨c, hc, hb⟩
    obtain ⟨e, he⟩ := Forest.exists_held?_iff.mpr hc
    obtain ⟨p, hp⟩ := Block.mem_walk_iff_at?.mp hb
    use e :: p
    apply Forest.at?_cons_eq_some_iff.mpr ⟨c, he, hp⟩
  · rintro ⟨_ | ⟨e, p⟩, h⟩
    · contradiction
    · obtain ⟨c, hc, hb⟩ := Forest.at?_cons_eq_some_iff.mp h
      exact ⟨c, Forest.exists_held?_iff.mp ⟨e, hc⟩, Block.mem_walk_iff_at?.mpr ⟨p, hb⟩⟩

end BlockEditor
