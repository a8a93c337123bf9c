import BlockEditor.Gesture.Plan
import BlockEditor.Proofs.Holders
import BlockEditor.Proofs.Loop

/-!
# Climbing to a container

A drop over a block climbs from slot to slot until it comes to a list.  It finds the blocks by their ids,
which may be repeated, so that it need not follow the nesting of the blocks.  Yet it always comes to an
end: the first holder of the current id, with the workspace itself before the blocks of the walk, is further
ahead after each climb.
-/

namespace BlockEditor

namespace Plan

/-- One round of the climb from `current`: the answer, or the holder of the slot to climb from next. -/
def climbRound (t : Forest) (carriedId : Option String) (asked current : String) :
    Except Rejection Container ⊕ String :=
  match Forest.find? current t with
  | none => .inl (.error (.unknownBlock asked))
  | some b =>
    if b.kind.acceptsChildren && carriedId != some current then .inl (.ok (.children current))
    else
      match Forest.locate? current t with
      | none => .inl (.error (.unknownBlock asked))
      | some location =>
        match location.container with
        | .slot holder _ => .inr holder
        | container => .inl (.ok container)

/-- The block that the climb starts from: the carried one if the drop is over a part of it. -/
def climbStart (carried : Option Block) (id : String) : String :=
  match carried.filter (·.contains id) with
  | some b => b.id
  | none => id

variable {t : Forest} {carriedId : Option String} {asked current holder : String}

theorem nestContainer_eq_climb (t : Forest) (carried : Option Block) (id : String) :
  nestContainer t carried id
    = climb t (carried.map Block.id) id (Forest.size t + 1) (climbStart carried id)
  := rfl

theorem climb_succ (fuel : Nat) :
  climb t carriedId asked (fuel + 1) current
    = (climbRound t carriedId asked current).elim id (climb t carriedId asked fuel)
  := by
  rw [climb, climbRound]
  cases Forest.find? current t with
  | none => rfl
  | some b =>
    dsimp only
    split
    · rfl
    · cases Forest.locate? current t with
      | none => rfl
      | some location =>
        obtain ⟨container, index⟩ := location
        cases container <;> rfl

/-- The climb finds the end of the loop if it goes on for long enough. -/
theorem climb_of_ends {rounds : Nat} {answer : Except Rejection Container}
    (h : Loop.Ends (climbRound t carriedId asked) current rounds answer) {fuel : Nat}
    (hfuel : rounds < fuel) :
  climb t carriedId asked fuel current = answer
  := by
  induction h generalizing fuel with
  | stop h =>
    obtain ⟨fuel, rfl⟩ := Nat.exists_eq_add_one.mpr (Nat.zero_lt_of_lt hfuel)
    rw [climb_succ, h]
    rfl
  | again h _ ih =>
    obtain ⟨fuel, rfl⟩ := Nat.exists_eq_add_one.mpr (Nat.zero_lt_of_lt hfuel)
    rw [climb_succ, h]
    apply ih (Nat.lt_of_succ_lt_succ hfuel)

/-- The climb goes on only to the holder of the slot that `locate?` tells. -/
theorem exists_slot_of_climbRound (h : climbRound t carriedId asked current = .inr holder) :
  ∃ slot index, Forest.locate? current t = some ⟨.slot holder slot, index⟩
  := by
  rw [climbRound] at h
  cases hfind : Forest.find? current t with
  | none => simp [hfind] at h
  | some b =>
    simp only [hfind] at h
    split at h
    · contradiction
    · cases hlocate : Forest.locate? current t with
      | none => simp [hlocate] at h
      | some location =>
        obtain ⟨container, index⟩ := location
        cases container with
        | root => simp [hlocate] at h
        | children block => simp [hlocate] at h
        | slot block slot =>
          simp only [hlocate, Sum.inr.injEq] at h
          use slot, index
          rw [h]

end Plan

/-! ### The way to the front of the walk -/

/-- The position of the first holder of the id.  The workspace itself, which holds the blocks at the top
level, comes first, and after it the blocks of the walk. -/
def Forest.holderPosition? (id : String) (t : Forest) : Option Nat :=
  if id ∈ t.map Block.id then some 0
  else ((Forest.walk t).findIdx? (Block.holds id)).map (· + 1)

section

variable {t s u : Forest} {b : Block} {id : String} (hwalk : Forest.walk t = s ++ b :: u)

include hwalk

theorem Forest.holderPosition?_eq_some (htop : id ∉ t.map Block.id) (hb : b.holds id = true)
    (hs : ∀ c ∈ s, c.holds id = false) :
  Forest.holderPosition? id t = some (s.length + 1)
  := by
  rw [Forest.holderPosition?, if_neg htop, hwalk, List.findIdx?_append,
    List.findIdx?_eq_none_iff.mpr hs, List.findIdx?_cons, hb]
  simp

/-- Every block of the walk has its first holder before it. -/
theorem Forest.exists_holderPosition?_le :
  ∃ above ≤ s.length, Forest.holderPosition? b.id t = some above
  := by
  rw [Forest.holderPosition?]
  split
  case isTrue => exact ⟨0, Nat.zero_le _, rfl⟩
  case isFalse htop =>
    rcases Forest.exists_holder_of_walk_eq hwalk with hb | ⟨a, ha, hheld⟩
    · apply absurd (List.mem_map_of_mem hb) htop
    have hsome : (s.findIdx? (Block.holds b.id)).isSome = true := by
      rw [List.findIdx?_isSome, List.any_eq_true]
      use a, ha
      apply Block.holds_iff.mpr ⟨b, hheld, rfl⟩
    obtain ⟨above, habove⟩ := Option.isSome_iff_exists.mp hsome
    obtain ⟨hlt, -⟩ := List.findIdx?_eq_some_iff_getElem.mp habove
    use above + 1, hlt
    rw [hwalk, List.findIdx?_append, habove, Option.some_or]
    rfl

end

namespace Plan

variable {t : Forest} {carriedId : Option String} {asked current holder : String}

/-- A climb goes to the first holder of the current id, and the first holder of that one is further
ahead. -/
theorem exists_position_of_climbRound (h : climbRound t carriedId asked current = .inr holder) :
  ∃ position b, Forest.holderPosition? current t = some (position + 1)
    ∧ (Forest.walk t)[position]? = some b ∧ b.id = holder
    ∧ ∃ above < position + 1, Forest.holderPosition? holder t = some above
  := by
  obtain ⟨slot, index, hlocate⟩ := exists_slot_of_climbRound h
  have htop : current ∉ t.map Block.id := by
    intro hmem
    obtain ⟨top, hroot⟩ := Forest.exists_locate?_root hmem
    cases hroot.symm.trans hlocate
  obtain ⟨s, b, u, hwalk, rfl, hb, hs⟩ := Forest.exists_holder_of_locate? hlocate
  obtain ⟨above, hle, habove⟩ := Forest.exists_holderPosition?_le hwalk
  refine ⟨s.length, b, Forest.holderPosition?_eq_some hwalk htop hb hs, ?_, rfl,
    above, Nat.lt_succ_of_le hle, habove⟩
  rw [hwalk, List.getElem?_append_right (Nat.le_refl _), Nat.sub_self]
  rfl

/-- The climb ends within as many rounds as the position of the first holder tells. -/
theorem exists_ends {position : Nat} (h : Forest.holderPosition? current t = some position) :
  ∃ rounds ≤ position, ∃ answer, Loop.Ends (climbRound t carriedId asked) current rounds answer
  := by
  induction position using Nat.strongRecOn generalizing current with
  | ind position ih =>
    cases hround : climbRound t carriedId asked current with
    | inl answer => exact ⟨0, Nat.zero_le _, answer, .stop hround⟩
    | inr holder =>
      obtain ⟨position, b, hposition, -, -, above, hlt, habove⟩ := exists_position_of_climbRound hround
      cases Option.some.inj (h.symm.trans hposition)
      obtain ⟨rounds, hle, answer, hends⟩ := ih above hlt habove
      exact ⟨rounds + 1, Nat.lt_of_le_of_lt hle hlt, answer, .again hround hends⟩

/-- The search for the container of a drop ends in every workspace, whatever ids are repeated, from every
block and with every carried block: within as many rounds as there are blocks, with the container that is
returned.  Each climb leads to the first block of the walk that holds the current id, and the first holder
of the new id is strictly further ahead. -/
theorem nestContainer_ends (t : Forest) (carried : Option Block) (id : String) :
  (∃ rounds ≤ Forest.size t,
      Loop.Ends (climbRound t (carried.map Block.id) id) (climbStart carried id) rounds
        (nestContainer t carried id))
    ∧ ∀ current holder, climbRound t (carried.map Block.id) id current = .inr holder →
      ∃ position b, Forest.holderPosition? current t = some (position + 1)
        ∧ (Forest.walk t)[position]? = some b ∧ b.id = holder
        ∧ ∃ above < position + 1, Forest.holderPosition? holder t = some above
  := by
  constructor
  · obtain ⟨rounds, hle, answer, hends⟩ : ∃ rounds ≤ Forest.size t, ∃ answer,
        Loop.Ends (climbRound t (carried.map Block.id) id) (climbStart carried id) rounds answer := by
      cases hround : climbRound t (carried.map Block.id) id (climbStart carried id) with
      | inl answer => exact ⟨0, Nat.zero_le _, answer, .stop hround⟩
      | inr holder =>
        obtain ⟨position, b, hposition, hget, -⟩ := exists_position_of_climbRound hround
        obtain ⟨rounds, hle, answer, hends⟩ := exists_ends hposition
        obtain ⟨hlt, -⟩ := List.getElem?_eq_some_iff.mp hget
        rw [Forest.length_walk] at hlt
        exact ⟨rounds, Nat.le_trans hle hlt, answer, hends⟩
    use rounds, hle
    rw [nestContainer_eq_climb, climb_of_ends hends (Nat.lt_succ_of_le hle)]
    apply hends
  · intro current holder h
    apply exists_position_of_climbRound h

end Plan

/-- A block with one slot, which holds the given content. -/
def Block.withSlot (id : String) (content : Content Block) : Block :=
  ⟨⟨id, "cup", .plain .move [], "cup", none, false⟩, none, [content]⟩

/-- Blocks in the slots of each other, of which the second and the fourth have the same id. -/
def Forest.tangle : Forest :=
  [.withSlot "top" (.block (.withSlot "a" (.block (.withSlot "b" (.block (.withSlot "a"
    (.block (.withSlot "c" .empty))))))))]

/-- From the innermost block the search comes to the repeated id, and from there to the block that holds the
first one with this id. -/
theorem Plan.nestContainer_ends_tangle :
  Plan.climbRound Forest.tangle none "c" "c" = .inr "a"
    ∧ (∃ position b, Forest.holderPosition? "c" Forest.tangle = some (position + 1)
      ∧ (Forest.walk Forest.tangle)[position]? = some b ∧ b.id = "a"
      ∧ ∃ above < position + 1, Forest.holderPosition? "a" Forest.tangle = some above)
    ∧ ∃ rounds ≤ 5, Loop.Ends (Plan.climbRound Forest.tangle none "c") "c" rounds (.ok .root)
  := by
  have hround : Plan.climbRound Forest.tangle none "c" "c" = .inr "a" := by rfl
  obtain ⟨hends, hpositions⟩ := Plan.nestContainer_ends Forest.tangle none "c"
  exact ⟨hround, hpositions "c" "a" hround, hends⟩

end BlockEditor
