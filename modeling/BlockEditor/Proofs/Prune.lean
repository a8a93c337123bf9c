import BlockEditor.Proofs.Context
import BlockEditor.Workspace.Purge

/-!
# Pruning

`Forest.prune gone` takes every block whose face satisfies `gone` out of a workspace, with all it
holds; a slot that held such a block is left empty.  What is left is the walk, in its order, without
some of its blocks, each of the others pruned itself.  `Forest.without id` prunes the block with an
id, and the workspace that `Forest.purge` leaves is pruned of the copies of a template.
-/

namespace BlockEditor

mutual

/-- The block without the blocks beneath it that are gone. -/
def Block.prune (gone : Face → Bool) : Block → Block
  | ⟨face, children, slots⟩ =>
    ⟨face,
      match children with
      | some blocks => some (Forest.prune gone blocks)
      | none => none,
      Slots.prune gone slots⟩

/-- The blocks of the list that are not gone, without those beneath them that are. -/
def Forest.prune (gone : Face → Bool) : List Block → List Block
  | [] => []
  | b :: bs => if gone b.face then Forest.prune gone bs else b.prune gone :: Forest.prune gone bs

/-- The slots, empty where the occupant is gone. -/
def Slots.prune (gone : Face → Bool) : List (Content Block) → List (Content Block)
  | [] => []
  | .block b :: cs =>
    (if gone b.face then .empty else .block (b.prune gone)) :: Slots.prune gone cs
  | c :: cs => c :: Slots.prune gone cs

end

/-- The content of a slot, empty if the occupant is gone. -/
def Content.prune (gone : Face → Bool) : Content Block → Content Block
  | .block b => if gone b.face then .empty else .block (b.prune gone)
  | c => c

/-- The block without the block beneath it that has the given id. -/
def Block.without (id : String) (b : Block) : Block :=
  b.prune fun face => face.id = id

/-- The workspace without the block with the given id and all it holds. -/
def Forest.without (id : String) (t : Forest) : Forest :=
  Forest.prune (fun face => face.id = id) t

section

variable {gone : Face → Bool}

theorem Block.prune_mk (face : Face) (children : Option Forest) (slots : Slots) :
  (Block.mk face children slots).prune gone
    = ⟨face, children.map (Forest.prune gone), Slots.prune gone slots⟩
  := by
  cases children <;> rfl

/-- A block that stays keeps its face, whatever goes from beneath it. -/
@[simp]
theorem Block.face_prune (b : Block) :
  (b.prune gone).face = b.face
  := by
  obtain ⟨face, children, slots⟩ := b
  rfl

@[simp]
theorem Block.id_prune (b : Block) :
  (b.prune gone).id = b.id
  := by
  rw [Block.id, Block.face_prune, Block.id]

theorem Block.children_prune (b : Block) :
  (b.prune gone).children = b.children.map (Forest.prune gone)
  := by
  obtain ⟨face, children, slots⟩ := b
  rw [Block.prune_mk]

theorem Block.slots_prune (b : Block) :
  (b.prune gone).slots = Slots.prune gone b.slots
  := by
  obtain ⟨face, children, slots⟩ := b
  rw [Block.prune_mk]

/-- Of a list, the blocks stay that do not go, without what goes from beneath them. -/
theorem Forest.prune_eq_map (bs : Forest) :
  Forest.prune gone bs = (bs.filter fun b => !gone b.face).map (Block.prune gone)
  := by
  induction bs with
  | nil => rfl
  | cons b bs ih =>
    rw [Forest.prune, List.filter_cons, ih]
    cases gone b.face <;> rfl

theorem Forest.prune_append (s t : Forest) :
  Forest.prune gone (s ++ t) = Forest.prune gone s ++ Forest.prune gone t
  := by
  rw [Forest.prune_eq_map, List.filter_append, List.map_append, ← Forest.prune_eq_map,
    ← Forest.prune_eq_map]

/-- Every slot stays, and one whose block goes is empty. -/
theorem Slots.prune_eq_map (cs : Slots) :
  Slots.prune gone cs = cs.map (Content.prune gone)
  := by
  induction cs with
  | nil => rfl
  | cons c cs ih => cases c <;> simp [Slots.prune, Content.prune, ih]

theorem Slots.prune_append (cs ds : Slots) :
  Slots.prune gone (cs ++ ds) = Slots.prune gone cs ++ Slots.prune gone ds
  := by
  simp only [Slots.prune_eq_map, List.map_append]

/-- The occupant of a slot is left, pruned, unless it is gone. -/
theorem Content.block?_prune (c : Content Block) :
  (c.prune gone).block? = (c.block?.filter fun b => !gone b.face).map (Block.prune gone)
  := by
  cases c with
  | empty => rfl
  | literal value => rfl
  | block b =>
    have hblock : (Content.block b).block? = some b := rfl
    rw [hblock, Option.filter_some, Content.prune]
    cases gone b.face <;> rfl

/-- A child that stays is a child afterwards. -/
theorem Block.mem_childList_prune {b c : Block} (hc : c ∈ b.childList) (hleft : gone c.face = false) :
  c.prune gone ∈ (b.prune gone).childList
  := by
  rw [Block.childList] at hc ⊢
  rw [Block.children_prune]
  cases hchildren : b.children with
  | none =>
    rw [hchildren] at hc
    contradiction
  | some blocks =>
    rw [hchildren] at hc
    rw [Option.map_some, Option.getD_some, Forest.prune_eq_map]
    apply List.mem_map_of_mem
    apply List.mem_filter.mpr ⟨hc, by rw [hleft, Bool.not_false]⟩

/-- A block in a slot that stays is in the slot afterwards. -/
theorem Block.mem_occupants_prune {b c : Block} (hc : c ∈ b.occupants) (hleft : gone c.face = false) :
  c.prune gone ∈ (b.prune gone).occupants
  := by
  obtain ⟨content, hcontent, hblock⟩ := List.mem_filterMap.mp hc
  rw [Block.occupants, Block.slots_prune, Slots.prune_eq_map, List.filterMap_map]
  apply List.mem_filterMap.mpr
  use content, hcontent
  rw [Function.comp_apply, Content.block?_prune, hblock, Option.filter_some, hleft]
  rfl

/-! ### What is left -/

mutual

theorem Block.walk_prune_sublist :
  ∀ b : Block, ((b.prune gone).walk).Sublist (b.walk.map (Block.prune gone))
  | ⟨face, children, slots⟩ => by
      have hslots := Slots.walk_prune_sublist slots
      have hchildren : (Forest.walk ((children.map (Forest.prune gone)).getD [])).Sublist
          ((Forest.walk (children.getD [])).map (Block.prune gone)) :=
        match children with
        | some blocks => Forest.walk_prune_sublist blocks
        | none => .slnil
      rw [Block.walk_mk, List.map_cons, List.map_append, Block.prune_mk, Block.walk_mk]
      apply List.Sublist.cons_cons
      apply List.Sublist.append hchildren hslots

/-- What is left is part of the walk, in its order, each block pruned. -/
theorem Forest.walk_prune_sublist :
  ∀ t : List Block,
    (Forest.walk (Forest.prune gone t)).Sublist ((Forest.walk t).map (Block.prune gone))
  | [] => .slnil
  | b :: bs => by
      have hbs := Forest.walk_prune_sublist bs
      rw [Forest.prune, Forest.walk_cons, List.map_append]
      split
      · apply List.Sublist.trans hbs
        apply List.sublist_append_right
      · apply List.Sublist.append (Block.walk_prune_sublist b) hbs

theorem Slots.walk_prune_sublist :
  ∀ cs : List (Content Block),
    (Slots.walk (Slots.prune gone cs)).Sublist ((Slots.walk cs).map (Block.prune gone))
  | [] => .slnil
  | .block b :: cs => by
      have hcs := Slots.walk_prune_sublist cs
      rw [Slots.prune, Slots.walk_block, List.map_append]
      split
      · apply List.Sublist.trans hcs
        apply List.sublist_append_right
      · apply List.Sublist.append (Block.walk_prune_sublist b) hcs
  | .empty :: cs => Slots.walk_prune_sublist cs
  | .literal _ :: cs => Slots.walk_prune_sublist cs

end

theorem map_id_prune (bs : List Block) :
  (bs.map (Block.prune gone)).map Block.id = bs.map Block.id
  := by
  rw [List.map_map]
  apply List.map_congr_left
  intro b _
  apply Block.id_prune

/-- Pruning brings no id, and leaves the order of those that stay. -/
theorem Forest.ids_prune_sublist (t : Forest) :
  (Forest.ids (Forest.prune gone t)).Sublist (Forest.ids t)
  := by
  have h : ((Forest.walk (Forest.prune gone t)).map Block.id).Sublist _ :=
    (Forest.walk_prune_sublist t).map Block.id
  rw [map_id_prune] at h
  apply h

/-- Different ids stay different. -/
theorem Forest.nodup_prune {t : Forest} (hids : (Forest.ids t).Nodup) :
  (Forest.ids (Forest.prune gone t)).Nodup
  := (Forest.ids_prune_sublist t).nodup hids

/-- Every block that is left is a block of the workspace, pruned. -/
theorem Forest.mem_walk_prune {t : Forest} {b : Block}
    (h : b ∈ Forest.walk (Forest.prune gone t)) :
  ∃ c ∈ Forest.walk t, c.prune gone = b
  := List.mem_map.mp ((Forest.walk_prune_sublist t).subset h)

/-- A block that is left is found as it was, pruned. -/
theorem Forest.find?_prune {t : Forest} (hids : (Forest.ids t).Nodup) {id : String}
    (h : id ∈ Forest.ids (Forest.prune gone t)) :
  Forest.find? id (Forest.prune gone t) = (Forest.find? id t).map (Block.prune gone)
  := by
  obtain ⟨b, hb, rfl⟩ := List.mem_map.mp h
  obtain ⟨c, hc, rfl⟩ := Forest.mem_walk_prune hb
  rw [Forest.find?_of_mem_walk (Forest.nodup_prune hids) hb, Block.id_prune,
    Forest.find?_of_mem_walk hids hc, Option.map_some]

theorem Forest.map_id_prune (t : Forest) :
  (Forest.prune gone t).map Block.id = (t.filter fun b => !gone b.face).map Block.id
  := by
  rw [Forest.prune_eq_map, BlockEditor.map_id_prune]

mutual

/-- Nothing that goes is met in a walk afterwards. -/
theorem Block.not_gone_of_mem_walk_prune :
  ∀ {b : Block}, gone b.face = false → ∀ c ∈ (b.prune gone).walk, gone c.face = false
  | ⟨face, children, slots⟩, h, c, hc => by
      have hchildren : ∀ c ∈ Forest.walk ((children.map (Forest.prune gone)).getD []),
          gone c.face = false :=
        match children with
        | some blocks => Forest.not_gone_of_mem_walk_prune blocks
        | none => fun _ hc => by cases hc
      rw [Block.prune_mk, Block.walk_mk, List.mem_cons, List.mem_append] at hc
      rcases hc with rfl | hc | hc
      · apply h
      · apply hchildren c hc
      · apply Slots.not_gone_of_mem_walk_prune slots c hc

/-- No block that is left is gone. -/
theorem Forest.not_gone_of_mem_walk_prune :
  ∀ t : List Block, ∀ c ∈ Forest.walk (Forest.prune gone t), gone c.face = false
  | b :: bs, c, hc => by
      rw [Forest.prune] at hc
      split at hc
      · apply Forest.not_gone_of_mem_walk_prune bs c hc
      · rename_i hb
        rcases List.mem_append.mp hc with hc | hc
        · apply Block.not_gone_of_mem_walk_prune (Bool.eq_false_iff.mpr hb) c hc
        · apply Forest.not_gone_of_mem_walk_prune bs c hc

theorem Slots.not_gone_of_mem_walk_prune :
  ∀ cs : List (Content Block), ∀ c ∈ Slots.walk (Slots.prune gone cs), gone c.face = false
  | .block b :: cs, c, hc => by
      rw [Slots.prune] at hc
      split at hc
      · apply Slots.not_gone_of_mem_walk_prune cs c hc
      · rename_i hb
        rcases List.mem_append.mp hc with hc | hc
        · apply Block.not_gone_of_mem_walk_prune (Bool.eq_false_iff.mpr hb) c hc
        · apply Slots.not_gone_of_mem_walk_prune cs c hc
  | .empty :: cs, c, hc => Slots.not_gone_of_mem_walk_prune cs c hc
  | .literal _ :: cs, c, hc => Slots.not_gone_of_mem_walk_prune cs c hc

end

end

/-! ### Where nothing is gone -/

mutual

theorem Block.prune_eq_self {gone : Face → Bool} :
  ∀ {b : Block}, (∀ c ∈ b.walk, gone c.face = false) → b.prune gone = b
  | ⟨face, children, slots⟩, h => by
      rw [Block.walk_mk] at h
      have hslots := Slots.prune_eq_self (s := slots) fun c hc =>
        h c (List.mem_cons_of_mem _ (List.mem_append_right _ hc))
      have hchildren : children.map (Forest.prune gone) = children :=
        match children, h with
        | some blocks, h => congrArg some (Forest.prune_eq_self fun c hc =>
            h c (List.mem_cons_of_mem _ (List.mem_append_left _ hc)))
        | none, _ => rfl
      rw [Block.prune_mk, hchildren, hslots]

/-- Pruning leaves a workspace as it is in which no block is gone. -/
theorem Forest.prune_eq_self {gone : Face → Bool} :
  ∀ {t : List Block}, (∀ c ∈ Forest.walk t, gone c.face = false) → Forest.prune gone t = t
  | [], _ => rfl
  | b :: bs, h => by
      rw [Forest.walk_cons] at h
      rw [Forest.prune, h b (List.mem_append_left _ b.mem_walk_self),
        Block.prune_eq_self fun c hc => h c (List.mem_append_left _ hc),
        Forest.prune_eq_self fun c hc => h c (List.mem_append_right _ hc)]
      rfl

theorem Slots.prune_eq_self {gone : Face → Bool} :
  ∀ {s : List (Content Block)}, (∀ c ∈ Slots.walk s, gone c.face = false) →
    Slots.prune gone s = s
  | [], _ => rfl
  | .block b :: cs, h => by
      rw [Slots.walk_block] at h
      rw [Slots.prune, h b (List.mem_append_left _ b.mem_walk_self),
        Block.prune_eq_self fun c hc => h c (List.mem_append_left _ hc),
        Slots.prune_eq_self fun c hc => h c (List.mem_append_right _ hc)]
      rfl
  | .empty :: cs, h => congrArg _ (Slots.prune_eq_self (s := cs) h)
  | .literal _ :: cs, h => congrArg _ (Slots.prune_eq_self (s := cs) h)

end

theorem Content.prune_eq_self {gone : Face → Bool} {c : Content Block}
    (h : ∀ b, c.block? = some b → ∀ x ∈ b.walk, gone x.face = false) :
  c.prune gone = c
  := by
  cases c with
  | empty => rfl
  | literal value => rfl
  | block b =>
    have hb := h b rfl
    rw [Content.prune, hb b b.mem_walk_self, Block.prune_eq_self hb]
    rfl

/-- Without an id that is not there, a workspace is as it was. -/
theorem Forest.without_of_notMem {id : String} {t : Forest} (h : id ∉ Forest.ids t) :
  t.without id = t
  := by
  apply Forest.prune_eq_self
  intro c hc
  rw [decide_eq_false_iff_not]
  rintro rfl
  apply h (List.mem_map_of_mem hc)

theorem Slots.without_of_notMem {id : String} {cs : Slots} (h : id ∉ Slots.ids cs) :
  Slots.prune (fun face => face.id = id) cs = cs
  := by
  apply Slots.prune_eq_self
  intro c hc
  rw [decide_eq_false_iff_not]
  rintro rfl
  apply h (List.mem_map_of_mem hc)

/-! ### Pruning twice -/

section

variable {first second : Face → Bool}

mutual

/-- What goes in two turns goes in one. -/
theorem Block.prune_prune :
  ∀ b : Block, (b.prune first).prune second = b.prune fun face => first face || second face
  | ⟨face, children, slots⟩ => by
      have hslots := Slots.prune_prune slots
      rw [Block.prune_mk, Block.prune_mk, Block.prune_mk, hslots]
      match children with
      | some blocks =>
        have hchildren := Forest.prune_prune blocks
        rw [Option.map_some, Option.map_some, Option.map_some, hchildren]
      | none => rfl

/-- Pruning twice takes out the blocks that are gone either time. -/
theorem Forest.prune_prune :
  ∀ t : List Block, Forest.prune second (Forest.prune first t)
    = Forest.prune (fun face => first face || second face) t
  | [] => rfl
  | b :: bs => by
      have hb := Block.prune_prune b
      have hbs := Forest.prune_prune bs
      rw [Forest.prune, Forest.prune, ← hb, ← hbs]
      cases hfirst : first b.face with
      | true => rfl
      | false => simp [Forest.prune]

theorem Slots.prune_prune :
  ∀ cs : List (Content Block), Slots.prune second (Slots.prune first cs)
    = Slots.prune (fun face => first face || second face) cs
  | [] => rfl
  | .block b :: cs => by
      have hb := Block.prune_prune b
      have hcs := Slots.prune_prune cs
      rw [Slots.prune, Slots.prune, ← hb, ← hcs]
      cases hfirst : first b.face with
      | true => rfl
      | false => simp [Slots.prune]
  | .empty :: cs => congrArg _ (Slots.prune_prune cs)
  | .literal _ :: cs => congrArg _ (Slots.prune_prune cs)

end

end

/-! ### Taking a block out of its place -/

/-- Taking a block with an id that is not met around the place. -/
theorem Frame.without_fill {F : Frame} {id : String} (he : id ∉ F.earlier) (hl : id ∉ F.later)
    (b : Block) :
  (F.fill b).without id = if b.id = id then F.clear else F.fill (b.without id)
  := by
  cases F with
  | child face before after slots =>
    simp only [Frame.earlier, Frame.later, List.mem_cons, List.mem_append, not_or] at he hl
    have hbefore := Forest.without_of_notMem he.2
    have hafter := Forest.without_of_notMem hl.1
    rw [Forest.without] at hbefore hafter
    rw [Frame.fill, Block.without, Block.prune_mk, Option.map_some, Forest.prune_append,
      Forest.prune, hbefore, hafter, Slots.without_of_notMem hl.2]
    by_cases hb : b.face.id = id <;> simp [hb, Block.id, Frame.clear, Frame.fill, Block.without]
  | slot face children before after =>
    simp only [Frame.earlier, Frame.later, List.mem_cons, List.mem_append, not_or] at he hl
    have hchildren : children.map (Forest.prune fun face => face.id = id) = children := by
      cases children with
      | none => rfl
      | some blocks => apply congrArg some (Forest.without_of_notMem he.2.1)
    rw [Frame.fill, Block.without, Block.prune_mk, Slots.prune_append, Slots.prune,
      Slots.without_of_notMem he.2.2, Slots.without_of_notMem hl]
    by_cases hb : b.face.id = id <;>
      simp [hb, Block.id, Frame.clear, Frame.fill, Block.without, hchildren]

/-- If an id is not around a place, it goes from within the place only: the place is closed, or what is
in it is pruned. -/
theorem Context.without_fill {C : Context} {id : String} (he : id ∉ C.earlier)
    (hl : id ∉ C.later) (b : Block) :
  (C.fill b).without id = if b.id = id then C.clear else C.fill (b.without id)
  := by
  induction C generalizing b with
  | top before after =>
    have hbefore := Forest.without_of_notMem he
    have hafter := Forest.without_of_notMem hl
    rw [Forest.without] at hbefore hafter
    rw [Context.fill, Forest.without, Forest.prune_append, Forest.prune, hbefore, hafter]
    by_cases hb : b.face.id = id <;> simp [hb, Block.id, Context.clear, Context.fill, Block.without]
  | inside C F ih =>
    simp only [Context.earlier, Context.later, List.mem_append, not_or] at he hl
    have hF : (F.fill b).id ≠ id := by
      rw [Frame.id_fill]
      rintro rfl
      apply he.2 F.face_id_mem_earlier
    rw [Context.fill, ih he.1 hl.2, if_neg hF, Frame.without_fill he.2 hl.1]
    split <;> rfl

/-- Taking the block in a place out closes the place. -/
theorem Context.without_fill_self {C : Context} {b : Block} (he : b.id ∉ C.earlier)
    (hl : b.id ∉ C.later) :
  (C.fill b).without b.id = C.clear
  := by
  rw [Context.without_fill he hl, if_pos rfl]

/-! ### Purging -/

mutual

/-- A purge leaves what pruning the copies of the template leaves. -/
theorem Block.purge_snd (templateId : String) :
  ∀ b : Block, (b.purge templateId).2 = b.prune fun face => face.templateId = templateId
  | ⟨face, children, slots⟩ => by
      have hslots := Slots.purge_snd templateId slots
      match children with
      | some blocks =>
        have hchildren := Forest.purgeBeneath_snd templateId blocks
        rw [Block.prune_mk, ← hslots, Option.map_some, ← hchildren]
        rfl
      | none =>
        rw [Block.prune_mk, ← hslots]
        rfl

theorem Forest.purgeBeneath_snd (templateId : String) :
  ∀ t : List Block, (Forest.purgeBeneath templateId t).2
    = Forest.prune (fun face => face.templateId = templateId) t
  | [] => rfl
  | b :: bs => by
      have hb := Block.purge_snd templateId b
      have hbs := Forest.purgeBeneath_snd templateId bs
      rw [Forest.purgeBeneath, Forest.prune, ← hb, ← hbs]
      by_cases h : b.face.templateId = templateId
      · simp only [h, if_true, decide_true]
      · simp only [h, if_false, decide_false]
        rfl

theorem Slots.purge_snd (templateId : String) :
  ∀ cs : List (Content Block), (Slots.purge templateId cs).2
    = Slots.prune (fun face => face.templateId = templateId) cs
  | [] => rfl
  | .block b :: cs => by
      have hb := Block.purge_snd templateId b
      have hcs := Slots.purge_snd templateId cs
      rw [Slots.purge, Slots.prune, ← hb, ← hcs]
      by_cases h : b.face.templateId = templateId
      · simp only [h, if_true, decide_true]
      · simp only [h, if_false, decide_false]
        rfl
  | .empty :: cs => congrArg _ (Slots.purge_snd templateId cs)
  | .literal _ :: cs => congrArg _ (Slots.purge_snd templateId cs)

end

/-- Purging prunes the workspace of the copies of the template. -/
theorem Forest.purge_snd (templateId : String) (t : Forest) :
  (Forest.purge templateId t).2 = Forest.prune (fun face => face.templateId = templateId) t
  := Forest.purgeBeneath_snd templateId t

end BlockEditor
