import BlockEditor.Proofs.Nesting
import BlockEditor.Proofs.Sessions

/-!
# The container of a drop over a block

A drop over a placed block goes to the children of the nearest block on the way up that takes children
and is no part of the carried block, or to the top level if there is none.  That list is there before
and after the carried block is taken out, and a block outside of the carried one has the same way up in
both workspaces, so that the drop goes to the same list.
-/

namespace BlockEditor

/-! ### Visits of what is left -/

/-- The stop at what is left of the block. -/
def Stop.prune (gone : Face → Bool) (s : Stop) : Stop :=
  ⟨s.block.prune gone, s.inSlot⟩

/-- The visit to what is left of the block. -/
def Visit.prune (gone : Face → Bool) (v : Visit) : Visit :=
  ⟨v.stop.prune gone, v.above.map (Stop.prune gone)⟩

section

variable {gone : Face → Bool} {v : Visit}

theorem Visit.upward_prune :
  (v.prune gone).upward = v.upward.map (Block.prune gone)
  := by
  simp [Visit.upward, Visit.prune, Visit.block, Stop.prune]

/-- A block is visited as before if nothing on the way up from it is gone. -/
theorem Block.prune_mem_visits {inSlot : Bool} {b : Block} {above : List Stop}
    (hv : v ∈ b.visits inSlot above) (hleft : ∀ a ∈ v.upward, gone a.face = false) :
  v.prune gone ∈ (b.prune gone).visits inSlot (above.map (Stop.prune gone))
  := by
  induction b using Block.induct generalizing inSlot above with
  | step b ih =>
    rw [Block.visits_eq] at hv ⊢
    rcases List.mem_cons.mp hv with rfl | hv
    · apply List.mem_cons_self
    have hon : ∀ (c : Block) slot, v ∈ c.visits slot (⟨b, inSlot⟩ :: above) → gone c.face = false := by
      intro c slot hc
      apply hleft
      have hstop : (⟨c, slot⟩ : Stop) ∈ v.stop :: v.above :=
        (Visit.suffix_of_mem hc).subset (List.mem_cons_self ..)
      exact List.mem_map_of_mem hstop
    apply List.mem_cons_of_mem
    rcases List.mem_append.mp hv with hv | hv
    · obtain ⟨c, hc, hv⟩ := List.mem_flatMap.mp hv
      apply List.mem_append_left
      apply List.mem_flatMap.mpr
      use c.prune gone, Block.mem_childList_prune hc (hon c false hv)
      apply ih c (List.mem_append_left _ hc) hv
    · obtain ⟨c, hc, hv⟩ := List.mem_flatMap.mp hv
      apply List.mem_append_right
      apply List.mem_flatMap.mpr
      use c.prune gone, Block.mem_occupants_prune hc (hon c true hv)
      apply ih c (List.mem_append_right _ hc) hv

theorem Forest.prune_mem_visits {t : Forest} (hv : v ∈ Forest.visits [] t)
    (hleft : ∀ a ∈ v.upward, gone a.face = false) :
  v.prune gone ∈ Forest.visits [] (Forest.prune gone t)
  := by
  rw [Forest.visits_eq_flatMap] at hv ⊢
  obtain ⟨b, hb, hv⟩ := List.mem_flatMap.mp hv
  have hgone : gone b.face = false := by
    apply hleft
    have hstop : (⟨b, false⟩ : Stop) ∈ v.stop :: v.above :=
      (Visit.suffix_of_mem hv).subset (List.mem_cons_self ..)
    exact List.mem_map_of_mem hstop
  apply List.mem_flatMap.mpr
  use b.prune gone
  constructor
  · rw [Forest.prune_eq_map]
    apply List.mem_map_of_mem
    apply List.mem_filter.mpr ⟨hb, by rw [hgone, Bool.not_false]⟩
  · apply Block.prune_mem_visits hv hleft

theorem Container.nearest_map_prune (bs : List Block) :
  Container.nearest (fun a => a.kind.acceptsChildren) (bs.map (Block.prune gone))
    = Container.nearest (fun a => a.kind.acceptsChildren) bs
  := by
  induction bs with
  | nil => rfl
  | cons b bs ih =>
    have hkind : (b.prune gone).kind = b.kind := by
      rw [Block.kind, Block.face_prune, Block.kind]
    rw [List.map_cons]
    cases haccepts : b.kind.acceptsChildren with
    | true =>
      rw [Container.nearest_cons_of_pos (hkind ▸ haccepts), Container.nearest_cons_of_pos haccepts,
        Block.id_prune]
    | false =>
      rw [Container.nearest_cons_of_neg (hkind ▸ haccepts), Container.nearest_cons_of_neg haccepts, ih]

end

/-! ### Taking the carried block out -/

section

variable {t : Forest} (ht : Forest.Valid t)

include ht

/-- A drop over a block outside of the carried one goes to the same list when the carried one has been
taken out. -/
theorem Plan.nestContainer_without {b : Block} (hb : Forest.find? b.id t = some b) {id : String}
    (houtside : id ∉ b.ids) :
  Plan.nestContainer (t.without b.id) none id = Plan.nestContainer t (some b) id
  := by
  have hcarried : ∀ c, some b = some c → Forest.find? c.id t = some c := by
    rintro _ ⟨⟩
    apply hb
  have hall : ∀ c, some b = some c → id ∉ c.ids := by
    rintro _ ⟨⟩
    apply houtside
  by_cases hid : id ∈ Forest.ids t
  · obtain ⟨v, hv, rfl⟩ := Forest.exists_visit hid
    have hleft : ∀ a ∈ v.upward, decide (a.face.id = b.id) = false := by
      intro a ha
      rw [decide_eq_false_iff_not]
      intro heq
      apply Visit.id_notMem_of_outside ht hcarried hv hall ha b rfl
      rw [Block.id, heq]
      apply b.id_mem_ids
    have hnone : ∀ c, none = some c → Forest.find? c.id (t.without b.id) = some c :=
      fun _ h => by cases h
    have hrest := Plan.nestContainer_eq (ht.without b.id) hnone (Forest.prune_mem_visits hv hleft)
      fun _ h => by cases h
    rw [Visit.upward_prune, Container.nearest_map_prune] at hrest
    rw [Plan.nestContainer_eq ht hcarried hv hall, ← hrest]
    congr 1
    symm
    apply Block.id_prune
  · -- The climb does not begin, in either workspace.
    have hgone : id ∉ Forest.ids (t.without b.id) :=
      fun h => hid ((Forest.ids_prune_sublist t).subset h)
    have hnone : ∀ c : Block, none = some c → id ∉ c.ids := fun _ h => by cases h
    rw [Plan.nestContainer_of_outside hall, Plan.nestContainer_of_outside hnone, Plan.climb,
      Plan.climb, Forest.find?_eq_none_iff.mpr hid, Forest.find?_eq_none_iff.mpr hgone]

/-- A list outside of a placed block is there before and after the block is taken out. -/
theorem Container.IsOpen.exists_detach {b : Block} (hb : Forest.find? b.id t = some b)
    {container : Container} (hopen : Container.IsOpen t (some b) container) :
  ∃ rest bs, Forest.detach b.id t = some (b, rest) ∧ Forest.sequence? rest container = some bs
  := by
  obtain ⟨⟨bs, hbs⟩, houtside⟩ := hopen
  have hplaced : (Carried.existing b).IsPlaced t := hb
  have hsequence := Carried.sequence?_rest ht.nodup hplaced hbs houtside
  use t.without b.id, Forest.prune (Carried.existing b).isFace bs
  constructor
  · rw [Forest.detach, Forest.takeOut_of_find? ht.nodup hb]
  · apply hsequence

end

/-- In a session that starts with the empty workspace, a drop over a placed block goes to the children of
the nearest block on the way up that takes children and is no part of the carried block, or to the top
level.  The list is there before and after the carried block is taken out, and it is not beneath it. -/
theorem Editor.nestContainer_nearest {catalog : Catalog} {registry : Registry} {clock : Clock}
    {e : Editor} (h : Editor.Reaches (.new catalog registry clock) e) {id : String}
    (hid : id ∈ Forest.ids e.tree) {carried : Option Block}
    (hcarried : ∀ c, carried = some c → c ∈ Forest.walk e.tree) :
  ∃ v ∈ Forest.visits [] e.tree, v.block.id = id ∧ ∃ container,
    Plan.nestContainer e.tree carried id = .ok container
      ∧ container = Container.nearest (Block.isOpenTo carried) v.upward
      ∧ (∃ bs, Forest.sequence? e.tree container = some bs)
      ∧ ∀ c, carried = some c →
        (∃ rest bs, Forest.detach c.id e.tree = some (c, rest)
          ∧ Forest.sequence? rest container = some bs)
        ∧ ∀ holder, container = .children holder → holder ∉ c.ids
  := by
  have ht := h.valid Forest.valid_nil
  have hplaced : ∀ c, carried = some c → Forest.find? c.id e.tree = some c :=
    fun c hc => Forest.find?_of_mem_walk ht.nodup (hcarried c hc)
  obtain ⟨v, hv, rfl⟩ := Forest.exists_visit hid
  have hnest := Plan.nestContainer_of_visit ht hplaced hv
  have hopen := Plan.isOpen_of_nestContainer ht hplaced hnest
  refine ⟨v, hv, rfl, _, hnest, rfl, hopen.1, ?_⟩
  rintro c rfl
  exact ⟨hopen.exists_detach ht (hplaced c rfl), hopen.2 c rfl⟩

/-- A drop of a nested block over the variable in its own slot goes to the list that it stands in. -/
theorem Editor.nestContainer_nearest_occupant :
  ∃ e inner, Editor.Reaches (.new .stock .standard (.fixed 0)) e
    ∧ inner ∈ Forest.walk e.tree ∧ inner.ids = ["block-repeat-1", "block-get-X-pos-2"]
    ∧ Plan.nestContainer e.tree (some inner) "block-get-X-pos-2" = .ok (.children "block-repeat-0")
    ∧ ∃ rest bs, Forest.detach inner.id e.tree = some (inner, rest)
      ∧ Forest.sequence? rest (.children "block-repeat-0") = some bs
  := by
  have houter := Editor.reaches_drop .stock .standard (.fixed 0) (.palette "block-repeat") .hidden
    (.workspace .zero)
  have hinner := houter.drag (.palette "block-repeat") .hidden (.block "block-repeat-0" .zero)
    (by decide)
  have hheld := hinner.drag (.palette "block-get-X-pos") .hidden (.slot "block-repeat-1" 0)
    (by decide)
  obtain ⟨e, inner, he, hfind, hids, hid, hnest⟩ :
      ∃ e inner, Editor.Reaches (.new .stock .standard (.fixed 0)) e
        ∧ Forest.find? "block-repeat-1" e.tree = some inner
        ∧ inner.ids = ["block-repeat-1", "block-get-X-pos-2"]
        ∧ "block-get-X-pos-2" ∈ Forest.ids e.tree
        ∧ Plan.nestContainer e.tree (some inner) "block-get-X-pos-2"
          = .ok (.children "block-repeat-0") :=
    ⟨_, _, hheld, rfl, rfl, by decide +kernel, rfl⟩
  have hmem := Forest.mem_walk_of_find? hfind
  have hplaced : ∀ c, some inner = some c → c ∈ Forest.walk e.tree := by
    rintro _ ⟨⟩
    apply hmem
  obtain ⟨v, -, -, container, hnest', -, -, hcarried⟩ :=
    Editor.nestContainer_nearest he hid hplaced
  obtain rfl : Container.children "block-repeat-0" = container :=
    Except.ok.inj (hnest.symm.trans hnest')
  exact ⟨e, inner, he, hmem, hids, hnest, (hcarried inner rfl).1⟩

end BlockEditor
