import BlockEditor.Proofs.Nodes
import BlockEditor.Proofs.Planning

/-!
# Nesting

The blocks that enclose a place are those of its context, the holder first, and a walk visits the block
in the place beneath them.  A drop over a block that is no part of the carried one climbs to the nearest
of the block and those that enclose it that takes children, and comes to the top level if there is none.
-/

namespace BlockEditor

/-! ### What encloses a place -/

/-- The place is a slot. -/
def Frame.inSlot : Frame → Bool
  | child _ _ _ _ => false
  | slot _ _ _ _ => true

namespace Context

/-- The place is a slot. -/
def inSlot : Context → Bool
  | top _ _ => false
  | inside _ F => F.inSlot

/-- The blocks that enclose the block in the place, its holder first. -/
def above : Context → Block → List Stop
  | top _ _, _ => []
  | inside C F, b => ⟨F.fill b, C.inSlot⟩ :: C.above (F.fill b)

end Context

/-- A place that is in a list is no slot. -/
theorem Context.inSlot_of_sequence? {C : Context} {t bs : Forest}
    (h : Forest.sequence? t C.location.container = some bs) :
  C.inSlot = false
  := by
  cases C with
  | top before after => rfl
  | inside C F =>
    cases F with
    | child face before after slots => rfl
    | slot face children before after => contradiction

theorem Frame.visits_subset (F : Frame) (b : Block) (inSlot : Bool) (above : List Stop) :
  b.visits F.inSlot (⟨F.fill b, inSlot⟩ :: above) ⊆ (F.fill b).visits inSlot above
  := by
  intro v hv
  rw [Block.visits_eq inSlot]
  apply List.mem_cons_of_mem
  cases F with
  | child face before after slots =>
    apply List.mem_append_left
    apply List.mem_flatMap.mpr
    refine ⟨b, ?_, hv⟩
    simp [Frame.fill, Block.childList]
  | slot face children before after =>
    apply List.mem_append_right
    apply List.mem_flatMap.mpr
    refine ⟨b, ?_, hv⟩
    simp [Frame.fill, Block.occupants, Content.block?]

/-- The visits of the block in a place are visits of the workspace. -/
theorem Context.visits_subset (C : Context) (b : Block) :
  b.visits C.inSlot (C.above b) ⊆ Forest.visits [] (C.fill b)
  := by
  induction C generalizing b with
  | top before after =>
    intro v hv
    rw [Forest.visits_eq_flatMap]
    apply List.mem_flatMap.mpr
    refine ⟨b, ?_, hv⟩
    simp [Context.fill]
  | inside C F ih => apply List.Subset.trans (F.visits_subset b _ _) (ih (F.fill b))

theorem Context.mem_visits (C : Context) (b : Block) :
  ⟨⟨b, C.inSlot⟩, C.above b⟩ ∈ Forest.visits [] (C.fill b)
  := by
  apply C.visits_subset b
  rw [Block.visits_eq]
  apply List.mem_cons_self

/-- The blocks that a walk visits have the ids of the workspace, in its order. -/
theorem Forest.map_id_visits (t : Forest) :
  (Forest.visits [] t).map (Block.id ∘ Visit.block) = Forest.ids t
  := by
  rw [← List.map_map, Forest.map_block_visits, Forest.ids]

theorem Forest.mem_walk_of_mem_visits {t : Forest} {v : Visit} (h : v ∈ Forest.visits [] t) :
  v.block ∈ Forest.walk t
  := by
  have hmem : v.block ∈ (Forest.visits [] t).map Visit.block := List.mem_map_of_mem h
  rw [Forest.map_block_visits] at hmem
  apply hmem

/-- Every placed block is visited. -/
theorem Forest.exists_visit {t : Forest} {id : String} (h : id ∈ Forest.ids t) :
  ∃ v ∈ Forest.visits [] t, v.block.id = id
  := by
  rw [← Forest.map_id_visits] at h
  apply List.mem_map.mp h

/-- Where all ids are different, a visit is the one of the context that its block stands in. -/
theorem Visit.exists_context {t : Forest} (hids : (Forest.ids t).Nodup) {v : Visit}
    (h : v ∈ Forest.visits [] t) :
  ∃ C : Context, t = C.fill v.block ∧ v = ⟨⟨v.block, C.inSlot⟩, C.above v.block⟩
  := by
  obtain ⟨C, hC, -, -⟩ :=
    Forest.exists_fill (Forest.find?_of_mem_walk hids (Forest.mem_walk_of_mem_visits h))
  use C, hC
  rw [← Forest.map_id_visits] at hids
  have hmem := C.mem_visits v.block
  rw [← hC] at hmem
  apply List.inj_on_of_nodup_map hids h hmem rfl

/-- What encloses a block is placed, and holds the block with all it holds. -/
theorem Context.mem_above {C : Context} {b : Block} {s : Stop} (h : s ∈ C.above b) :
  s.block ∈ Forest.walk (C.fill b) ∧ b.ids ⊆ s.block.ids
  := by
  induction C generalizing b with
  | top before after => cases h
  | inside C F ih =>
    have hids : b.ids ⊆ (F.fill b).ids := by
      rw [Frame.ids_fill]
      intro id hid
      apply List.mem_append_left _ (List.mem_append_right _ hid)
    rcases List.mem_cons.mp h with rfl | h
    · exact ⟨Forest.mem_walk_of_mem_visits (C.mem_visits (F.fill b)), hids⟩
    · obtain ⟨hwalk, hsubset⟩ := ih h
      exact ⟨hwalk, List.Subset.trans hids hsubset⟩

/-- What encloses a place is met before it. -/
theorem Context.id_mem_earlier {C : Context} {b : Block} {s : Stop} (h : s ∈ C.above b) :
  s.block.id ∈ C.earlier
  := by
  induction C generalizing b with
  | top before after => cases h
  | inside C F ih =>
    rcases List.mem_cons.mp h with rfl | h
    · apply List.mem_append_right
      rw [Frame.id_fill]
      apply F.face_id_mem_earlier
    · apply List.mem_append_left _ (ih h)

/-- Where all ids are different, the visits of the ids of a block are those of the block in its place. -/
theorem Context.mem_visits_of_mem_ids {C : Context} {b : Block} (hids : (Forest.ids (C.fill b)).Nodup)
    {v : Visit} (hv : v ∈ Forest.visits [] (C.fill b)) (hmem : v.block.id ∈ b.ids) :
  v ∈ b.visits C.inSlot (C.above b)
  := by
  have hwalk : (b.visits C.inSlot (C.above b)).map Visit.block = b.walk :=
    Block.map_block_visits C.inSlot b
  rw [Block.ids, ← hwalk, List.map_map] at hmem
  obtain ⟨w, hw, hid⟩ := List.mem_map.mp hmem
  rw [← Forest.map_id_visits] at hids
  have heq : w = v := List.inj_on_of_nodup_map hids (C.visits_subset b hw) hv hid
  rw [← heq]
  apply hw

/-- There are no more blocks around a place than ids before it. -/
theorem Context.length_above_le (C : Context) (b : Block) :
  (C.above b).length ≤ C.earlier.length
  := by
  induction C generalizing b with
  | top before after => apply Nat.zero_le
  | inside C F ih =>
    have hle := ih (F.fill b)
    have hpos := List.length_pos_of_mem F.face_id_mem_earlier
    rw [Context.above, Context.earlier, List.length_cons, List.length_append]
    omega

theorem Context.length_above_lt (C : Context) (b : Block) :
  (C.above b).length < Forest.size (C.fill b) + 1
  := by
  have hle := C.length_above_le b
  rw [← Forest.length_ids, C.ids_fill, List.length_append, List.length_append]
  omega

/-! ### Climbing -/

/-- A block that holds children has a list of them. -/
theorem Block.children_eq_some {holder b : Block} (h : b ∈ holder.childList) :
  holder.children = some holder.childList
  := by
  rw [Block.childList] at h ⊢
  cases hchildren : holder.children with
  | none =>
    rw [hchildren] at h
    cases h
  | some blocks => rfl

/-- The children of the nearest of the blocks that satisfies the condition, or the top level if none
does. -/
def Container.nearest (p : Block → Bool) (bs : List Block) : Container :=
  match bs.find? p with
  | some b => .children b.id
  | none => .root

namespace Container

variable {p : Block → Bool} {b : Block}

theorem nearest_cons_of_pos (h : p b = true) (bs : List Block) :
  nearest p (b :: bs) = .children b.id
  := by
  rw [nearest, List.find?_cons_of_pos h]

theorem nearest_cons_of_neg (h : p b = false) (bs : List Block) :
  nearest p (b :: bs) = nearest p bs
  := by
  rw [nearest, List.find?_cons_of_neg (Bool.eq_false_iff.mp h), nearest]

theorem nearest_congr {q : Block → Bool} {bs : List Block} (h : ∀ b ∈ bs, p b = q b) :
  nearest p bs = nearest q bs
  := by
  induction bs with
  | nil => rfl
  | cons b bs ih =>
    obtain ⟨hb, hbs⟩ := List.forall_mem_cons.mp h
    cases hp : p b with
    | true => rw [nearest_cons_of_pos hp, nearest_cons_of_pos (hb ▸ hp)]
    | false => rw [nearest_cons_of_neg hp, nearest_cons_of_neg (hb ▸ hp), ih hbs]

theorem nearest_append_of_neg {bs : List Block} (h : ∀ b ∈ bs, p b = false) (cs : List Block) :
  nearest p (bs ++ cs) = nearest p cs
  := by
  induction bs with
  | nil => rfl
  | cons b bs ih =>
    obtain ⟨hb, hbs⟩ := List.forall_mem_cons.mp h
    rw [List.cons_append, nearest_cons_of_neg hb, ih hbs]

end Container

/-- The block of the visit and the blocks that enclose it, on the way up. -/
def Visit.upward (v : Visit) : List Block :=
  v.block :: v.above.map Stop.block

section

variable {C : Context} {b : Block} {carriedId : Option String}

/-- The climb ends at a block that takes children and is not the carried one. -/
theorem Plan.climb_of_open (hids : (Forest.ids (C.fill b)).Nodup)
    (hopen : (b.kind.acceptsChildren && carriedId != some b.id) = true) (asked : String) (fuel : Nat) :
  Plan.climb (C.fill b) carriedId asked (fuel + 1) b.id = .ok (.children b.id)
  := by
  obtain ⟨hearlier, -⟩ := Context.notMem_of_nodup hids b.id_mem_ids
  rw [Plan.climb, Context.find?_fill_self hearlier]
  apply if_pos hopen

/-- From another block in a list it comes to that list. -/
theorem Plan.climb_of_list (hids : (Forest.ids (C.fill b)).Nodup)
    (hclosed : (b.kind.acceptsChildren && carriedId != some b.id) = false) (hlist : C.inSlot = false)
    (asked : String) (fuel : Nat) :
  Plan.climb (C.fill b) carriedId asked (fuel + 1) b.id = .ok C.location.container
  := by
  obtain ⟨hearlier, hlater⟩ := Context.notMem_of_nodup hids b.id_mem_ids
  rw [Plan.climb, Context.find?_fill_self hearlier, Context.locate?_fill_self hearlier hlater]
  apply Eq.trans (if_neg (Bool.eq_false_iff.mp hclosed))
  cases C with
  | top before after => rfl
  | inside C F =>
    cases F with
    | child face before after slots => rfl
    | slot face children before after => cases hlist

/-- From another block in a slot it goes on to the holder. -/
theorem Plan.climb_of_slot {face : Face} {children : Option Forest} {before after : Slots}
    (hids : (Forest.ids ((C.inside (.slot face children before after)).fill b)).Nodup)
    (hclosed : (b.kind.acceptsChildren && carriedId != some b.id) = false) (asked : String)
    (fuel : Nat) :
  Plan.climb ((C.inside (.slot face children before after)).fill b) carriedId asked (fuel + 1) b.id
    = Plan.climb ((C.inside (.slot face children before after)).fill b) carriedId asked fuel face.id
  := by
  obtain ⟨hearlier, hlater⟩ := Context.notMem_of_nodup hids b.id_mem_ids
  rw [Plan.climb, Context.find?_fill_self hearlier, Context.locate?_fill_self hearlier hlater]
  apply if_neg (Bool.eq_false_iff.mp hclosed)

/-- Climbing from the block in a place comes to the nearest block that takes children and is not the
carried one, as long as the carried one does not enclose the place. -/
theorem Plan.climb_fill (ht : Forest.Valid (C.fill b))
    (houtside : ∀ s ∈ C.above b, carriedId ≠ some s.block.id) (asked : String) {fuel : Nat}
    (hfuel : (C.above b).length < fuel) :
  Plan.climb (C.fill b) carriedId asked fuel b.id
    = .ok (Container.nearest (fun a => a.kind.acceptsChildren && carriedId != some a.id)
      (b :: (C.above b).map Stop.block))
  := by
  -- Only a slot is climbed out of: the holder of a list takes children.
  induction C generalizing b fuel with
  | top before after =>
    obtain ⟨fuel, rfl⟩ := Nat.exists_eq_succ_of_ne_zero (Nat.ne_zero_of_lt hfuel)
    cases hopen : b.kind.acceptsChildren && carriedId != some b.id with
    | true => rw [Plan.climb_of_open ht.nodup hopen, Container.nearest_cons_of_pos hopen]
    | false =>
      rw [Plan.climb_of_list ht.nodup hopen rfl, Container.nearest_cons_of_neg hopen]
      rfl
  | inside C F ih =>
    rw [Context.above, List.forall_mem_cons] at houtside
    obtain ⟨hholder, hrest⟩ := houtside
    obtain ⟨fuel, rfl⟩ := Nat.exists_eq_succ_of_ne_zero (Nat.ne_zero_of_lt hfuel)
    cases hopen : b.kind.acceptsChildren && carriedId != some b.id with
    | true => rw [Plan.climb_of_open ht.nodup hopen, Container.nearest_cons_of_pos hopen]
    | false =>
      rw [Container.nearest_cons_of_neg hopen, Context.above, List.map_cons]
      cases F with
      | child face before after slots =>
        have hsound := (Context.sound_of_fill (C := C) ht.sound).fitsKind.children
        rw [Plan.climb_of_list ht.nodup hopen rfl, Container.nearest_cons_of_pos]
        · rfl
        · rw [Bool.and_eq_true, bne_iff_ne, ← hsound]
          exact ⟨rfl, hholder⟩
      | slot face children before after =>
        rw [Context.above, List.length_cons] at hfuel
        rw [Nat.succ_eq_add_one, Plan.climb_of_slot ht.nodup hopen]
        apply ih ht hrest (Nat.lt_of_succ_lt_succ hfuel)

end

/-- A drop over a block outside of the carried one is not a drop over the carried one. -/
theorem Plan.nestContainer_of_outside {t : Forest} {carried : Option Block} {id : String}
    (houtside : ∀ c, carried = some c → id ∉ c.ids) :
  Plan.nestContainer t carried id
    = Plan.climb t (carried.map Block.id) id (Forest.size t + 1) id
  := by
  have hstart : carried.filter (·.contains id) = none := by
    apply Option.filter_eq_none_iff.mpr
    intro c hc
    rw [Block.contains_iff]
    apply houtside c hc
  rw [Plan.nestContainer, hstart]

/-- A drop over the carried block or a block beneath it is one over the carried block. -/
theorem Plan.nestContainer_of_inside {t : Forest} {c : Block} {id : String} (hinside : id ∈ c.ids) :
  Plan.nestContainer t (some c) id = Plan.climb t (some c.id) id (Forest.size t + 1) c.id
  := by
  have hstart : (some c).filter (·.contains id) = some c :=
    Option.filter_eq_some_iff.mpr ⟨rfl, (Block.contains_iff id c).mpr hinside⟩
  rw [Plan.nestContainer, hstart, Option.map_some]

/-- The block takes children and is no part of the carried block. -/
def Block.isOpenTo (carried : Option Block) (a : Block) : Bool :=
  a.kind.acceptsChildren && carried.all fun c => !c.contains a.id

/-- A block that is not beneath the carried one is a part of it only if it has its id. -/
theorem Block.isOpenTo_eq {carried : Option Block} {a : Block}
    (h : ∀ c, carried = some c → a.id ∈ c.ids → c.id = a.id) :
  (a.kind.acceptsChildren && carried.map Block.id != some a.id) = a.isOpenTo carried
  := by
  rw [Block.isOpenTo]
  apply congrArg (a.kind.acceptsChildren && ·)
  cases carried with
  | none => rfl
  | some c =>
    rw [Option.map_some, Option.all_some, Bool.eq_iff_iff, bne_iff_ne, Bool.not_eq_true',
      Bool.eq_false_iff, ne_eq, ne_eq, Block.contains_iff, Option.some.injEq, not_iff_not]
    constructor
    · intro hid
      rw [← hid]
      apply c.id_mem_ids
    · apply h c rfl

section

variable {t : Forest} (ht : Forest.Valid t) {carried : Option Block}
  (hcarried : ∀ c, carried = some c → Forest.find? c.id t = some c)

include ht hcarried

/-- What encloses a block outside of the carried one is outside of it too. -/
theorem Visit.id_notMem_of_outside {v : Visit} (hv : v ∈ Forest.visits [] t)
    (houtside : ∀ c, carried = some c → v.block.id ∉ c.ids) {a : Block} (ha : a ∈ v.upward) :
  ∀ c, carried = some c → a.id ∉ c.ids
  := by
  obtain ⟨C, hC, hcontext⟩ := Visit.exists_context ht.nodup hv
  intro c hc hmem
  -- Otherwise it would be beneath the carried block, with all it holds.
  have hholds : a ∈ Forest.walk t ∧ v.block.ids ⊆ a.ids := by
    have heq : v.upward = v.block :: (C.above v.block).map Stop.block :=
      congrArg Visit.upward hcontext
    rw [heq] at ha
    rcases List.mem_cons.mp ha with rfl | ha
    · exact ⟨Forest.mem_walk_of_mem_visits hv, List.Subset.refl _⟩
    · obtain ⟨s, hs, rfl⟩ := List.mem_map.mp ha
      rw [hC]
      apply Context.mem_above hs
  have hfind := Forest.find?_of_mem_walk ht.nodup hholds.1
  have hwalk := Forest.mem_walk_of_mem_ids ht.nodup (hcarried c hc) hfind hmem
  apply houtside c hc
  obtain ⟨d, hd, hid⟩ := List.mem_map.mp (hholds.2 v.block.id_mem_ids)
  rw [← hid]
  apply List.mem_map_of_mem (Block.walk_subset hwalk hd)

/-- A drop over a placed block nests in the nearest of the block and those that enclose it that takes
children and is no part of the carried block. -/
theorem Plan.nestContainer_of_visit {v : Visit} (hv : v ∈ Forest.visits [] t) :
  Plan.nestContainer t carried v.block.id
    = .ok (Container.nearest (Block.isOpenTo carried) v.upward)
  := by
  by_cases hinside : ∃ c, carried = some c ∧ v.block.id ∈ c.ids
  · -- The climb starts at the carried block, above everything that is a part of it.
    obtain ⟨c, rfl, hmem⟩ := hinside
    obtain ⟨C, rfl, -, -⟩ := Forest.exists_fill (hcarried c rfl)
    have habove : ∀ s ∈ C.above c, s.block.id ∉ c.ids := by
      intro s hs hpart
      apply (Context.notMem_of_nodup ht.nodup hpart).1 (Context.id_mem_earlier hs)
    obtain ⟨inner, hsplit, hinner⟩ :=
      Visit.exists_append_of_mem (Context.mem_visits_of_mem_ids ht.nodup hv hmem)
    have hupward : v.upward = inner.map Stop.block ++ c :: (C.above c).map Stop.block := by
      have hmap := congrArg (List.map Stop.block) hsplit
      rw [List.map_append] at hmap
      apply hmap
    have hother : ∀ s ∈ C.above c, some c.id ≠ some s.block.id := by
      intro s hs heq
      apply habove s hs
      rw [← Option.some.inj heq]
      apply c.id_mem_ids
    have hclimb := Plan.climb_fill ht hother v.block.id (C.length_above_lt c)
    rw [Plan.nestContainer_of_inside hmem, hclimb, hupward, Container.nearest_append_of_neg]
    · apply congrArg Except.ok (Container.nearest_congr _)
      intro a ha
      have hpart : ∀ d, some c = some d → a.id ∈ d.ids → d.id = a.id := by
        rintro _ ⟨⟩ hmem
        rcases List.mem_cons.mp ha with rfl | ha
        · rfl
        · obtain ⟨s, hs, rfl⟩ := List.mem_map.mp ha
          apply absurd hmem (habove s hs)
      exact Block.isOpenTo_eq hpart
    · intro a ha
      obtain ⟨s, hs, rfl⟩ := List.mem_map.mp ha
      have hpart : c.contains s.block.id = true :=
        (Block.contains_iff _ c).mpr (List.mem_map_of_mem (hinner s hs))
      rw [Block.isOpenTo, Option.all_some, hpart]
      apply Bool.and_false
  · -- The climb starts at the block, and never comes to a part of the carried one.
    have houtside : ∀ c, carried = some c → v.block.id ∉ c.ids :=
      fun c hc hmem => hinside ⟨c, hc, hmem⟩
    have hupward := fun a => Visit.id_notMem_of_outside ht hcarried hv houtside (a := a)
    obtain ⟨C, hC, hcontext⟩ := Visit.exists_context ht.nodup hv
    have heq : v.upward = v.block :: (C.above v.block).map Stop.block :=
      congrArg Visit.upward hcontext
    have habove : ∀ s ∈ C.above v.block, carried.map Block.id ≠ some s.block.id := by
      intro s hs hid
      obtain ⟨c, hc, hid⟩ := Option.map_eq_some_iff.mp hid
      have hmem : s.block ∈ v.upward := by
        rw [heq]
        apply List.mem_cons_of_mem _ (List.mem_map_of_mem hs)
      apply hupward _ hmem c hc (hid ▸ c.id_mem_ids)
    have hclimb := Plan.climb_fill (hC ▸ ht) habove v.block.id (C.length_above_lt v.block)
    rw [← hC, ← heq] at hclimb
    rw [Plan.nestContainer_of_outside houtside, hclimb]
    apply congrArg Except.ok (Container.nearest_congr _)
    intro a ha
    apply Block.isOpenTo_eq
    intro c hc hpart
    apply absurd hpart (hupward a ha c hc)

/-- A drop over a block outside of the carried one nests in the nearest of that block and those that
enclose it that takes children. -/
theorem Plan.nestContainer_eq {v : Visit} (hv : v ∈ Forest.visits [] t)
    (houtside : ∀ c, carried = some c → v.block.id ∉ c.ids) :
  Plan.nestContainer t carried v.block.id
    = .ok (Container.nearest (fun a => a.kind.acceptsChildren) v.upward)
  := by
  rw [Plan.nestContainer_of_visit ht hcarried hv]
  apply congrArg Except.ok (Container.nearest_congr _)
  intro a ha
  have hpart := Visit.id_notMem_of_outside ht hcarried hv houtside ha
  cases carried with
  | none => apply Bool.and_true
  | some c =>
    have hnot : c.contains a.id = false := by
      rw [Bool.eq_false_iff, ne_eq, Block.contains_iff]
      apply hpart c rfl
    rw [Block.isOpenTo, Option.all_some, hnot]
    apply Bool.and_true

/-- A drop that nests is over a placed block. -/
theorem Plan.exists_visit_of_nestContainer {id : String} {container : Container}
    (houtside : ∀ c, carried = some c → id ∉ c.ids)
    (h : Plan.nestContainer t carried id = .ok container) :
  ∃ v ∈ Forest.visits [] t, v.block.id = id
    ∧ container = Container.nearest (fun a => a.kind.acceptsChildren) v.upward
  := by
  have hid : id ∈ Forest.ids t := by
    by_contra hgone
    rw [Plan.nestContainer_of_outside houtside, Plan.climb, Forest.find?_eq_none_iff.mpr hgone] at h
    cases h
  obtain ⟨v, hv, rfl⟩ := Forest.exists_visit hid
  rw [Plan.nestContainer_eq ht hcarried hv houtside] at h
  exact ⟨v, hv, rfl, (Except.ok.inj h).symm⟩

/-- A drop over a block with children nests there, if one of the children is outside of the carried
block. -/
theorem Plan.nestContainer_children {id : String} {holder b : Block}
    (hfind : Forest.find? id t = some holder) (hb : b ∈ holder.childList)
    (houtside : ∀ c, carried = some c → b.id ∉ c.ids) :
  Plan.nestContainer t carried id = .ok (.children id)
  := by
  obtain rfl := Forest.id_of_find? hfind
  have hholder : ∀ c, carried = some c → holder.id ∉ c.ids := by
    intro c hc hmem
    have hwalk := Forest.mem_walk_of_mem_ids ht.nodup (hcarried c hc) hfind hmem
    apply houtside c hc
    apply List.mem_map_of_mem (Block.walk_subset hwalk _)
    apply Block.walk_subset_of_mem (List.mem_append_left _ hb) b.mem_walk_self
  have haccepts : holder.kind.acceptsChildren = true := by
    rw [← (ht.sound holder (Forest.mem_walk_of_find? hfind)).children, Block.children_eq_some hb]
    rfl
  obtain ⟨v, hv, hid⟩ := Forest.exists_visit (Forest.mem_ids_of_find? hfind)
  have hblock := Forest.find?_of_mem_walk ht.nodup (Forest.mem_walk_of_mem_visits hv)
  rw [hid, hfind, Option.some.injEq] at hblock
  rw [← hid] at hholder
  have hnest := Plan.nestContainer_eq ht hcarried hv hholder
  rw [Visit.upward, ← hblock, Container.nearest_cons_of_pos haccepts] at hnest
  apply hnest

end

end BlockEditor
