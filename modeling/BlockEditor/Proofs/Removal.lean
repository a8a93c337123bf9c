import BlockEditor.Proofs.Binding

/-!
# What the removal of a name reports

Purging a workspace takes out the topmost copies of a template with all that they hold, and reports the
ids of these copies.  So the ids of a workspace are those that are left and those in the trees of the
reported blocks.  The report of the removal of a name leaves out what the removed blocks hold, and is
complete exactly if they hold nothing.
-/

namespace BlockEditor

/-! ### The topmost blocks that are gone -/

mutual

/-- The blocks in the tree of the block that are gone, without those beneath another one that is. -/
def Block.topmost (gone : Face → Bool) : Block → List Block
  | ⟨face, children, slots⟩ =>
    if gone face then [⟨face, children, slots⟩]
    else
      (match children with
        | some blocks => Forest.topmost gone blocks
        | none => []) ++ Slots.topmost gone slots

def Forest.topmost (gone : Face → Bool) : List Block → List Block
  | [] => []
  | b :: bs => b.topmost gone ++ Forest.topmost gone bs

def Slots.topmost (gone : Face → Bool) : List (Content Block) → List Block
  | [] => []
  | .block b :: cs => b.topmost gone ++ Slots.topmost gone cs
  | _ :: cs => Slots.topmost gone cs

end

section

variable {gone : Face → Bool}

/-- The topmost blocks of a list, one tree after another. -/
theorem Forest.topmost_eq_flatMap (t : Forest) :
  Forest.topmost gone t = t.flatMap (Block.topmost gone)
  := by
  induction t with
  | nil => rfl
  | cons b bs ih => rw [Forest.topmost, ih, List.flatMap_cons]

theorem Slots.topmost_eq_flatMap (cs : Slots) :
  Slots.topmost gone cs = (cs.filterMap Content.block?).flatMap (Block.topmost gone)
  := by
  induction cs with
  | nil => rfl
  | cons c cs ih => cases c <;> simp [Slots.topmost, List.filterMap_cons, Content.block?, ih]

/-- The topmost blocks in a tree are its root, or those in the trees of what it holds. -/
theorem Block.topmost_eq (b : Block) :
  b.topmost gone = if gone b.face then [b]
    else (b.childList ++ b.occupants).flatMap (Block.topmost gone)
  := by
  obtain ⟨face, children, slots⟩ := b
  cases children <;>
    simp [Block.topmost, Block.childList, Block.occupants, Forest.topmost_eq_flatMap,
      Slots.topmost_eq_flatMap]

/-- A block that goes is its only topmost one, whatever it holds. -/
theorem Block.topmost_of_gone {b : Block} (h : gone b.face = true) :
  b.topmost gone = [b]
  := by
  rw [Block.topmost_eq, if_pos h]

theorem Block.topmost_of_not_gone {b : Block} (h : gone b.face = false) :
  b.topmost gone = (b.childList ++ b.occupants).flatMap (Block.topmost gone)
  := by
  rw [Block.topmost_eq, if_neg (by simp [h])]

/-- The topmost blocks that are gone are gone, and in the tree. -/
theorem Block.of_mem_topmost {b c : Block} (h : c ∈ b.topmost gone) :
  gone c.face = true ∧ c ∈ b.walk
  := by
  induction b using Block.induct with
  | step b ih =>
    cases hgone : gone b.face with
    | true =>
      rw [Block.topmost_of_gone hgone, List.mem_singleton] at h
      rw [h]
      exact ⟨hgone, b.mem_walk_self⟩
    | false =>
      rw [Block.topmost_of_not_gone hgone] at h
      obtain ⟨d, hd, hc⟩ := List.mem_flatMap.mp h
      obtain ⟨hgone', hwalk⟩ := ih d hd hc
      use hgone', Block.walk_subset_of_mem hd hwalk

/-- Topmost blocks go, and are blocks of the tree. -/
theorem Forest.of_mem_topmost {t : Forest} {c : Block} (h : c ∈ Forest.topmost gone t) :
  gone c.face = true ∧ c ∈ Forest.walk t
  := by
  rw [Forest.topmost_eq_flatMap] at h
  obtain ⟨b, hb, hc⟩ := List.mem_flatMap.mp h
  obtain ⟨hgone, hwalk⟩ := Block.of_mem_topmost hc
  use hgone, Forest.walk_subset (Forest.mem_walk_of_mem hb) hwalk

/-! ### The ids of what is left and of what is gone -/

theorem Forest.ids_prune (t : Forest) :
  Forest.ids (Forest.prune gone t) = t.flatMap fun b => Forest.ids (Forest.prune gone [b])
  := by
  induction t with
  | nil => rfl
  | cons b bs ih =>
    rw [List.flatMap_cons, ← ih, ← Forest.ids_append, ← Forest.prune_append, List.singleton_append]

theorem Slots.ids_prune (cs : Slots) :
  Slots.ids (Slots.prune gone cs)
    = (cs.filterMap Content.block?).flatMap fun b => Forest.ids (Forest.prune gone [b])
  := by
  induction cs with
  | nil => rfl
  | cons c cs ih =>
    cases c with
    | empty => apply ih
    | literal value => apply ih
    | block b =>
      rw [Slots.prune, List.filterMap_cons, Content.block?, List.flatMap_cons, ← ih, Forest.prune]
      cases gone b.face <;> simp [Forest.prune]

/-- The ids of a pruned block are its own and those that are left of what it holds. -/
theorem Block.ids_prune (b : Block) :
  (b.prune gone).ids = b.id :: (b.childList ++ b.occupants).flatMap fun c =>
    Forest.ids (Forest.prune gone [c])
  := by
  obtain ⟨face, children, slots⟩ := b
  rw [Block.prune_mk, Block.ids_mk, Slots.ids_prune, List.flatMap_append]
  cases children with
  | none => rfl
  | some blocks =>
    rw [Option.map_some, Option.getD_some, Forest.ids_prune]
    rfl

/-- Lists that are made of two parts for each element are made of all first and all second parts. -/
theorem flatMap_perm_append {α β : Type} {f g h : α → List β} {as : List α}
    (hf : ∀ a ∈ as, (f a).Perm (g a ++ h a)) :
  (as.flatMap f).Perm (as.flatMap g ++ as.flatMap h)
  := (List.Perm.flatMap_left as hf).trans (List.flatMap_append_perm as g h).symm

/-- A block keeps the ids of what stays of it, and loses those of the trees of its topmost blocks. -/
theorem Block.ids_perm_prune (b : Block) :
  b.ids.Perm (Forest.ids (Forest.prune gone [b]) ++ (b.topmost gone).flatMap Block.ids)
  := by
  induction b using Block.induct with
  | step b ih =>
    cases hgone : gone b.face with
    | true =>
      rw [Block.topmost_of_gone hgone, Forest.prune, if_pos hgone]
      simp [Forest.prune]
    | false =>
      have hids : b.ids = b.id :: (b.childList ++ b.occupants).flatMap Block.ids := by
        rw [Block.ids, Block.walk_eq, List.map_cons, List.map_flatMap]
        rfl
      rw [Block.topmost_of_not_gone hgone, Forest.prune, if_neg (by simp [hgone]), Forest.prune,
        Forest.ids_cons, Block.ids_prune, hids, List.flatMap_assoc, Forest.ids_nil, List.append_nil,
        List.cons_append]
      apply List.Perm.cons
      apply flatMap_perm_append ih

/-- The ids of a workspace are those that are left and those in the trees of the topmost blocks that are
gone. -/
theorem Forest.ids_perm_prune (gone : Face → Bool) (t : Forest) :
  (Forest.ids t).Perm
    (Forest.ids (Forest.prune gone t) ++ (Forest.topmost gone t).flatMap Block.ids)
  := by
  have hids : Forest.ids t = t.flatMap Block.ids := by
    rw [Forest.ids, Forest.walk_eq_flatMap, List.map_flatMap]
    rfl
  rw [hids, Forest.ids_prune, Forest.topmost_eq_flatMap, List.flatMap_assoc]
  apply flatMap_perm_append
  intro b _
  apply Block.ids_perm_prune

end

/-! ### Reports of purges -/

section

variable {templateId : String} {b : Block}

theorem Block.topmost_of_copy (h : b.templateId = templateId) :
  b.topmost (fun face => face.templateId = templateId) = [b]
  := Block.topmost_of_gone (decide_eq_true h)

theorem Block.topmost_of_not_copy (h : b.templateId ≠ templateId) :
  b.topmost (fun face => face.templateId = templateId)
    = (b.childList ++ b.occupants).flatMap (Block.topmost fun face => face.templateId = templateId)
  := Block.topmost_of_not_gone (decide_eq_false h)

end

mutual

theorem Block.purge_fst_perm (templateId : String) :
  ∀ b : Block, (b.purge templateId).1.Perm
    (((b.childList ++ b.occupants).flatMap
      (Block.topmost fun face => face.templateId = templateId)).map Block.id)
  | ⟨face, children, slots⟩ => by
      have hslots := Slots.purge_fst_perm templateId slots
      rw [Slots.topmost_eq_flatMap] at hslots
      rw [List.flatMap_append, List.map_append]
      match children with
      | some blocks =>
        have hchildren := Forest.purge_fst_perm templateId blocks
        rw [Forest.topmost_eq_flatMap] at hchildren
        apply hchildren.append hslots
      | none => apply hslots

/-- A purge reports the ids of the topmost copies. -/
theorem Forest.purge_fst_perm (templateId : String) :
  ∀ t : List Block, (Forest.purge templateId t).1.Perm
    ((Forest.topmost (fun face => face.templateId = templateId) t).map Block.id)
  | [] => .nil
  | b :: bs => by
      have hb := Block.purge_fst_perm templateId b
      have hbs := Forest.purge_fst_perm templateId bs
      rw [Forest.purge] at hbs ⊢
      rw [Forest.topmost, List.map_append]
      by_cases hcopy : b.templateId = templateId
      · have hself := Block.topmost_of_copy hcopy
        have hids : Forest.copyIds templateId (b :: bs) = b.id :: Forest.copyIds templateId bs := by
          simp [Forest.copyIds, hcopy]
        have hbeneath : (Forest.purgeBeneath templateId (b :: bs)).1
            = (Forest.purgeBeneath templateId bs).1 := by
          rw [Block.templateId] at hcopy
          simp [Forest.purgeBeneath, hcopy]
        rw [hself]
        dsimp only at hbs ⊢
        rw [hids, hbeneath]
        apply List.Perm.cons _ hbs
      · have hself := Block.topmost_of_not_copy hcopy
        have hids : Forest.copyIds templateId (b :: bs) = Forest.copyIds templateId bs := by
          simp [Forest.copyIds, hcopy]
        have hbeneath : (Forest.purgeBeneath templateId (b :: bs)).1
            = (b.purge templateId).1 ++ (Forest.purgeBeneath templateId bs).1 := by
          rw [Block.templateId] at hcopy
          simp [Forest.purgeBeneath, hcopy]
        rw [hself]
        dsimp only at hbs ⊢
        rw [hids, hbeneath]
        apply List.Perm.trans (List.perm_append_comm_assoc _ _ _)
        apply hb.append hbs

theorem Slots.purge_fst_perm (templateId : String) :
  ∀ cs : List (Content Block), (Slots.purge templateId cs).1.Perm
    ((Slots.topmost (fun face => face.templateId = templateId) cs).map Block.id)
  | [] => .nil
  | .block b :: cs => by
      have hb := Block.purge_fst_perm templateId b
      have hcs := Slots.purge_fst_perm templateId cs
      rw [Slots.topmost, List.map_append]
      by_cases hcopy : b.templateId = templateId
      · have hself := Block.topmost_of_copy hcopy
        have hpurge : (Slots.purge templateId (.block b :: cs)).1
            = b.id :: (Slots.purge templateId cs).1 := by
          rw [Block.templateId] at hcopy
          simp [Slots.purge, hcopy, Block.id]
        rw [hself, hpurge]
        apply List.Perm.cons _ hcs
      · have hself := Block.topmost_of_not_copy hcopy
        have hpurge : (Slots.purge templateId (.block b :: cs)).1
            = (b.purge templateId).1 ++ (Slots.purge templateId cs).1 := by
          rw [Block.templateId] at hcopy
          simp [Slots.purge, hcopy]
        rw [hself, hpurge]
        apply hb.append hcs
  | .empty :: cs => Slots.purge_fst_perm templateId cs
  | .literal _ :: cs => Slots.purge_fst_perm templateId cs

end

/-! ### What is missed after a purge -/

section

variable {gone : Face → Bool} {t : Forest}

/-- An id is missed in what is left exactly if it is in the tree of a topmost block that is gone. -/
theorem Forest.mem_topmost_iff (hids : (Forest.ids t).Nodup) {id : String} :
  id ∈ Forest.ids t ∧ id ∉ Forest.ids (Forest.prune gone t)
    ↔ ∃ b ∈ Forest.topmost gone t, id ∈ b.ids
  := by
  have hperm := Forest.ids_perm_prune gone t
  have hnodup := hperm.nodup_iff.mp hids
  rw [hperm.mem_iff, List.mem_append, ← List.mem_flatMap]
  constructor
  · rintro ⟨hleft | hgone, hmissed⟩
    · contradiction
    · apply hgone
  · intro hgone
    use Or.inr hgone
    intro hleft
    apply List.disjoint_of_nodup_append hnodup hleft hgone

/-- The trees of different topmost blocks that are gone have no ids in common. -/
theorem Forest.pairwise_topmost (hids : (Forest.ids t).Nodup) :
  (Forest.topmost gone t).Pairwise fun b c => b.ids.Disjoint c.ids
  := by
  have hnodup := (Forest.ids_perm_prune gone t).nodup_iff.mp hids
  apply (List.nodup_flatMap.mp (List.nodup_append.mp hnodup).2.1).2

/-- Where ids are distinct, no two topmost blocks share one. -/
theorem Forest.nodup_map_id_topmost (hids : (Forest.ids t).Nodup) :
  ((Forest.topmost gone t).map Block.id).Nodup
  := by
  apply List.pairwise_map.mpr
  apply (Forest.pairwise_topmost hids).imp
  intro b c hdisjoint heq
  apply hdisjoint b.id_mem_ids
  rw [heq]
  apply c.id_mem_ids

/-- Beneath a topmost block that is gone there is no other one. -/
theorem Forest.notMem_topmost_of_beneath (hids : (Forest.ids t).Nodup) {b c : Block}
    (hb : b ∈ Forest.topmost gone t) (hc : c ∈ b.childList ++ b.occupants) :
  c.id ∉ (Forest.topmost gone t).map Block.id
  := by
  have hcb : c.ids ⊆ b.ids := List.map_subset Block.id (Block.walk_subset_of_mem hc)
  intro hmem
  obtain ⟨d, hd, hdc⟩ := List.mem_map.mp hmem
  by_cases hbd : b = d
  · -- its own id would be met again among those of what it holds
    have hnodup := Forest.nodup_ids_of_mem hids (Forest.of_mem_topmost hb).2
    rw [Block.ids, Block.walk_eq, List.map_cons, List.nodup_cons] at hnodup
    apply hnodup.1
    rw [hbd, hdc]
    apply List.mem_map_of_mem
    apply List.mem_flatMap.mpr
    use c, hbd ▸ hc, c.mem_walk_self
  · have hsymm : Std.Symm fun b c : Block => b.ids.Disjoint c.ids := ⟨fun _ _ h => h.symm⟩
    have hdisjoint := (Forest.pairwise_topmost hids).forall hb hd hbd
    apply hdisjoint (hcb c.id_mem_ids)
    rw [← hdc]
    apply d.id_mem_ids

/-- Every block that is gone is in the tree of a topmost one. -/
theorem Forest.exists_topmost (hids : (Forest.ids t).Nodup) {b : Block} (hb : b ∈ Forest.walk t)
    (hgone : gone b.face = true) :
  ∃ c ∈ Forest.topmost gone t, b.id ∈ c.ids
  := by
  apply (Forest.mem_topmost_iff hids).mp
  use List.mem_map_of_mem hb
  intro hleft
  obtain ⟨x, hx, hid⟩ := List.mem_map.mp hleft
  have hnot := Forest.not_gone_of_mem_walk_prune t x hx
  obtain ⟨c, hc, rfl⟩ := Forest.mem_walk_prune hx
  rw [Block.id_prune] at hid
  rw [List.inj_on_of_nodup_map hids hc hb hid, Block.face_prune, hgone] at hnot
  contradiction

theorem Block.ids_eq_singleton {b : Block} (h : b.childList ++ b.occupants = []) :
  b.ids = [b.id]
  := by
  rw [Block.ids, Block.walk_eq, h]
  rfl

/-- The ids of the topmost blocks that are gone are all that is missed exactly if the blocks that are gone
hold nothing. -/
theorem Forest.map_id_topmost_iff (hids : (Forest.ids t).Nodup) :
  (∀ id, id ∈ (Forest.topmost gone t).map Block.id
      ↔ id ∈ Forest.ids t ∧ id ∉ Forest.ids (Forest.prune gone t))
    ↔ ∀ b ∈ Forest.walk t, gone b.face = true → b.childList ++ b.occupants = []
  := by
  simp only [Forest.mem_topmost_iff hids]
  constructor
  · intro hexact b hb hgone
    have hleaf : ∀ c ∈ Forest.topmost gone t, c.childList ++ c.occupants = [] := by
      intro c hc
      apply List.eq_nil_iff_forall_not_mem.mpr
      intro d hd
      apply Forest.notMem_topmost_of_beneath hids hc hd
      apply (hexact d.id).mpr
      use c, hc
      apply List.map_subset Block.id (Block.walk_subset_of_mem hd) d.id_mem_ids
    obtain ⟨c, hc, hid⟩ := Forest.exists_topmost hids hb hgone
    rw [Block.ids_eq_singleton (hleaf c hc), List.mem_singleton] at hid
    rw [List.inj_on_of_nodup_map hids hb (Forest.of_mem_topmost hc).2 hid]
    apply hleaf c hc
  · intro hleaf id
    rw [List.mem_map]
    apply exists_congr
    intro c
    apply and_congr_right
    intro hc
    obtain ⟨hgone, hwalk⟩ := Forest.of_mem_topmost hc
    rw [Block.ids_eq_singleton (hleaf c hwalk hgone), List.mem_singleton, eq_comm]

end

/-! ### Removing names -/

/-- The id is the one of a placed block that is no longer there when the name is removed. -/
def Editor.Loses (e : Editor) (name id : String) : Prop :=
  id ∈ Forest.ids e.tree ∧ id ∉ Forest.ids (e.removeName name).2.tree

/-- The removal of a name reports no id twice, and only ids of placed copies of the template of the name.
What the workspace loses are these blocks with all that they hold.  So the report has all ids that are
lost exactly if the name is not one that can be removed, or no copy of its template holds another block. -/
theorem Editor.reports_removed {catalog : Catalog} {registry : Registry} {clock : Clock} {e : Editor}
    (h : Editor.Reaches (.new catalog registry clock) e) (name : String) :
  (e.removeName name).1.Nodup
    ∧ (∀ id ∈ (e.removeName name).1,
      ∃ b ∈ Forest.walk e.tree, b.id = id ∧ b.templateId = Registry.paletteId name)
    ∧ (∀ id, e.Loses name id
      ↔ ∃ b ∈ Forest.walk e.tree, b.id ∈ (e.removeName name).1 ∧ id ∈ b.ids)
    ∧ ((∀ id, id ∈ (e.removeName name).1 ↔ e.Loses name id)
      ↔ (e.registry.remove name).1 = none
        ∨ ∀ b ∈ Forest.walk e.tree, b.templateId = Registry.paletteId name →
          b.childList ++ b.occupants = [])
  := by
  have hids := (h.valid Forest.valid_nil).nodup
  simp only [Editor.Loses]
  rcases e.removeName_cases name with ⟨hstays, hreport, htree⟩ | ⟨hgoes, hreport, htree⟩
  · rw [hreport, htree]
    simp [hstays]
  · have hperm := Forest.purge_fst_perm (Registry.paletteId name) e.tree
    rw [hreport, htree]
    simp only [hperm.nodup_iff, hperm.mem_iff, hgoes, false_or]
    refine ⟨Forest.nodup_map_id_topmost hids, ?_, ?_, ?_⟩
    · intro id hid
      obtain ⟨b, hb, rfl⟩ := List.mem_map.mp hid
      obtain ⟨hcopy, hwalk⟩ := Forest.of_mem_topmost hb
      use b, hwalk, rfl, of_decide_eq_true hcopy
    · intro id
      rw [Forest.mem_topmost_iff hids]
      constructor
      · rintro ⟨b, hb, hid⟩
        use b, (Forest.of_mem_topmost hb).2, List.mem_map_of_mem hb
      · rintro ⟨b, hb, hmem, hid⟩
        obtain ⟨c, hc, hcb⟩ := List.mem_map.mp hmem
        obtain rfl := List.inj_on_of_nodup_map hids (Forest.of_mem_topmost hc).2 hb hcb
        use c
    · rw [Forest.map_id_topmost_iff hids]
      simp only [decide_eq_true_eq]
      rfl

/-- A variable that is removed out of a slot is all that is lost. -/
theorem Editor.reports_removed_variable :
  ∃ e, Editor.Reaches (.new .stock .standard (.fixed 0)) e
    ∧ Forest.ids e.tree = ["block-repeat-0", "block-get-speed-pos-1"]
    ∧ (e.removeName "speed").1 = ["block-get-speed-pos-1"]
    ∧ ∀ id, id ∈ (e.removeName "speed").1 ↔ e.Loses "speed" id
  := by
  have hrepeat := Editor.reaches_drop .stock .standard (.fixed 0) (.palette "block-repeat") .hidden
    (.workspace .zero)
  have hname := hrepeat.perform (.addVariable "speed") trivial
  have hdrop := hname.drag (.palette "block-get-speed-pos") .hidden (.slot "block-repeat-0" 0)
    (by decide)
  obtain ⟨-, -, -, hexact⟩ := Editor.reports_removed hdrop "speed"
  refine ⟨_, hdrop, rfl, by decide, hexact.mpr (Or.inr ?_)⟩
  decide

/-- The variable in a slot of a position is lost with the position, and not reported. -/
theorem Editor.not_reported_position :
  ∃ e, Editor.Reaches (.new .stock .standard (.fixed 7)) e
    ∧ Forest.ids e.tree = ["block-get-q-pos-7", "block-get-X-pos-8"]
    ∧ (e.removeName "q").1 = ["block-get-q-pos-7"] ∧ (e.removeName "q").2.tree = []
    ∧ ¬ ∀ id, id ∈ (e.removeName "q").1 ↔ e.Loses "q" id
  := by
  have hstart : Editor.Reaches (.new .stock .standard (.fixed 7)) _ := .refl
  have hname := hstart.perform (.addPosition "q") trivial
  have hposition := hname.drag (.palette "block-get-q-pos") .hidden (.workspace .zero) (by decide)
  have hvariable := hposition.drag (.palette "block-get-X-pos") .hidden
    (.slot "block-get-q-pos-7" 0) (by decide)
  refine ⟨_, hvariable, rfl, by decide, rfl, ?_⟩
  intro hexact
  have hmem := (hexact "block-get-X-pos-8").mpr ⟨by decide, by decide⟩
  revert hmem
  decide

end BlockEditor
