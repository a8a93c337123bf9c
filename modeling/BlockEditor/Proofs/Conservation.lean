import BlockEditor.Proofs.Sessions

/-!
# A drop loses nothing

`Forest.Moves` states what an accepted drop does to a workspace, told by what is found in it before
and after.  The block that is brought stands where the action says, with all it holds, and apart from
it the workspace is as before: `without` takes it out on both sides.  Only a slot that is filled gives
up what it held, a typed value for good and a block to the end of the top level.
-/

namespace BlockEditor

/-- What the source of a drop brings, with the ids that were not there before: a placed block with
all it holds, or a new block of a template. -/
inductive Forest.Brings (t : Forest) (palette : Palette) : Source → Block → List String → Prop where
  | placed {id : String} {b : Block} (hfind : Forest.find? id t = some b) :
      Brings t palette (.workspace id) b []
  | made {templateId : String} {template : Template} {stamp : UInt64}
      (htemplate : palette templateId = some template)
      (hnew : InstanceId.make template.id stamp ∉ Forest.ids t) :
      Brings t palette (.palette templateId)
        (template.instantiate (InstanceId.make template.id stamp))
        [InstanceId.make template.id stamp]

/-- What an accepted drop from `source` does to the workspace `t`: the action shown for it, its
outcome, and the workspace afterwards. -/
inductive Forest.Moves (t : Forest) (palette : Palette) (source : Source) :
    Action → Outcome → Forest → Prop where
  /-- The block stands in the list, directly in front of the anchor or last, and apart from it the
  workspace is as before. -/
  | insert {b : Block} {new : List String} {container : Container} {anchor : Anchor}
      {before after t' : Forest} (hbrings : t.Brings palette source b new)
      (hfind : Forest.find? b.id t' = some b)
      (hsequence : Forest.sequence? t' container = some (before ++ b :: after))
      (hmarks : anchor.Marks after) (hframe : t'.without b.id = t.without b.id)
      (hids : (Forest.ids t').Perm (new ++ Forest.ids t)) :
      Moves t palette source (.insert container anchor) (.inserted b.id container) t'
  /-- The block stands in the slot.  The block that was there, unless it was the same one, is now the
  last one at the top level, without the block if that was inside.  Apart from both the workspace is
  as before with the slot empty. -/
  | slot {b : Block} {new : List String} {holder : String} {index : Nat} {h h' : Block}
      {held : Content Block} {evicted : Option Block} {t' : Forest}
      (hbrings : t.Brings palette source b new)
      (hfind : Forest.find? b.id (t' ++ evicted.toList) = some b)
      (hholder' : Forest.find? holder (t' ++ evicted.toList) = some h')
      (hslot : h'.slots[index]? = some (.block b))
      (hholder : Forest.find? holder t = some h) (hheld : h.slots[index]? = some held)
      (hevicted : evicted = (held.block?.filter fun old => old.id ≠ b.id).map (Block.without b.id))
      (hframe : t'.without b.id = Forest.setSlot holder index .empty (t.without b.id))
      (hids : (Forest.ids (t' ++ evicted.toList)).Perm (new ++ Forest.ids t)) :
      Moves t palette source (.slot holder index (evicted.map Block.id))
        (.slotted b.id holder index (evicted.map Block.id)) (t' ++ evicted.toList)
  /-- The block is gone with all it held, and nothing else is. -/
  | delete {id : String} {b : Block} (hsource : source = .workspace id)
      (hfind : Forest.find? id t = some b)
      (hids : (Forest.ids t).Perm (b.ids ++ Forest.ids (t.without id))) :
      Moves t palette source (.dispose (some id)) (.deleted id b.ids.length) (t.without id)
  /-- What comes from the palette is thrown away before it is made. -/
  | ignore {templateId : String} (hsource : source = .palette templateId) :
      Moves t palette source (.dispose none) .ignored t

section

variable {c : Canvas} {palette : Palette} {source : Source} {carried : Carried}

/-- The ids that a drop adds. -/
def Canvas.newIds (c : Canvas) : Carried → List String
  | .fresh template => [(c.brought (.fresh template)).id]
  | .existing _ => []

theorem Canvas.brings_of_carry (hcarry : Plan.carry c.tree palette source = .ok carried)
    (hcan : c.CanBring carried) :
  Forest.Brings c.tree palette source (c.brought carried) (c.newIds carried)
  := by
  cases source with
  | palette templateId =>
    rw [Plan.carry] at hcarry
    split at hcarry
    · rename_i template htemplate
      cases hcarry
      apply Forest.Brings.made htemplate (Canvas.id_brought_notMem hcan)
    · contradiction
  | workspace id =>
    rw [Plan.carry] at hcarry
    split at hcarry
    · rename_i b hfind
      cases hcarry
      apply Forest.Brings.placed hfind
    · contradiction

/-- What is brought and the rest have the new ids and those that were there before. -/
theorem Canvas.ids_brought_perm (ht : Forest.Valid c.tree) (hplaced : carried.IsPlaced c.tree) :
  ((c.brought carried).ids ++ Forest.ids (carried.rest c.tree)).Perm
    (c.newIds carried ++ Forest.ids c.tree)
  := by
  cases carried with
  | fresh template =>
    rw [Canvas.brought, Template.ids_instantiate]
    apply List.Perm.refl
  | existing b => apply (Forest.ids_perm_without ht.nodup hplaced).symm

/-- The rest is the workspace without the id of what is brought: a new id is not there. -/
theorem Canvas.rest_eq_without (hcan : c.CanBring carried) :
  carried.rest c.tree = c.tree.without (c.brought carried).id
  := by
  cases carried with
  | fresh template => apply (Forest.without_of_notMem (Canvas.id_brought_notMem hcan)).symm
  | existing b => rfl

/-- The same of what a slot holds. -/
theorem Canvas.prune_held (hcan : c.CanBring carried) {holder : String} {h : Block}
    (hholder : Forest.find? holder c.tree = some h) {slot : Nat} {held : Content Block}
    (hheld : h.slots[slot]? = some held) :
  held.prune carried.isFace = held.prune fun face => face.id = (c.brought carried).id
  := by
  cases carried with
  | existing b =>
    rw [Carried.isFace_existing]
    rfl
  | fresh template =>
    have hself : held.prune (Carried.fresh template).isFace = held := by
      apply Content.prune_eq_self
      intro b _ x _
      apply Carried.isFace_fresh
    rw [hself]
    symm
    apply Content.prune_eq_self
    intro b hb x hx
    apply decide_eq_false
    intro hid
    apply Canvas.id_brought_notMem hcan
    rw [← hid]
    apply List.mem_map_of_mem (f := Block.id)
    apply Forest.walk_subset (Forest.mem_walk_of_find? hholder)
    cases held with
    | block old =>
      cases hb
      apply Block.walk_subset (Block.mem_walk_of_slot hheld) hx
    | empty => contradiction
    | literal value => contradiction

/-- What a slot gives up when the block is put into it. -/
theorem Content.block?_without (held : Content Block) (id : String) :
  (held.prune fun face => face.id = id).block?
    = (held.block?.filter fun old => old.id ≠ id).map (Block.without id)
  := by
  have hfilter : (fun b : Block => !decide (b.face.id = id)) = fun b => decide (b.id ≠ id) := by
    funext b
    rw [decide_not]
    rfl
  rw [Content.block?_prune, hfilter]
  rfl

end

theorem Canvas.Drops.moves {c : Canvas} {palette : Palette} {source : Source} {plan : Plan}
    {outcome : Outcome} {t : Forest} (ht : Forest.Valid c.tree)
    (h : c.Drops palette source plan outcome t)
    (hroom : ∀ carried, plan.carried? = some carried → c.CanBring carried) :
  Forest.Moves c.tree palette source plan.action outcome t
  := by
  have ht' := h.valid ht hroom
  cases h with
  | ignore templateId hsource => apply Forest.Moves.ignore hsource
  | @delete id b hsource hfind =>
    have hsize : b.size = b.ids.length := by rw [Block.ids, List.length_map, Block.length_walk]
    rw [hsize]
    apply Forest.Moves.delete hsource hfind
    obtain rfl := Forest.id_of_find? hfind
    apply Forest.ids_perm_without ht.nodup hfind
  | @insert carried container a before after C hcarry hclear hlocation hsequence hmarks =>
    have hplaced := Plan.isPlaced_of_carry hcarry
    have hcan := hroom carried rfl
    have hperm := Canvas.ids_brought_perm ht hplaced
    rw [← hclear] at hperm
    obtain ⟨he, hl⟩ := Context.notMem_of_nodup ht'.nodup (c.brought carried).id_mem_ids
    apply Forest.Moves.insert (Canvas.brings_of_carry hcarry hcan)
      (Context.find?_fill_self he) hsequence hmarks
    · rw [Context.without_fill_self he hl, hclear, Canvas.rest_eq_without hcan]
    · apply List.Perm.trans (C.ids_fill_perm (c.brought carried)) hperm
  | @slot carried face children before after h held content spec C hcarry hholder hheld hcontent
      hrest hspec haccepts =>
    have hplaced := Plan.isPlaced_of_carry hcarry
    have hcan := hroom carried rfl
    have hperm := Canvas.ids_brought_perm ht hplaced
    have hnodup := (Carried.valid_rest ht carried).nodup
    rw [hrest] at hperm hnodup
    have hids := ht'.nodup
    rw [Forest.ids_append] at hids
    have hfill := (List.nodup_append.mp hids).1
    obtain ⟨he, hl⟩ := Context.notMem_of_nodup hfill (c.brought carried).id_mem_ids
    have hC : face.id ∉ C.earlier := (Context.notMem_of_nodup hnodup (Block.id_mem_ids _)).1
    have hset := Context.setSlot_fill hC children before after content .empty
    apply Forest.Moves.slot (Canvas.brings_of_carry hcarry hcan)
      (Forest.find?_append_of_eq_some (Context.find?_fill_self he) _)
      (Forest.find?_append_of_eq_some (Context.find?_holder hfill) _) _ hholder hheld
    · rw [← hcontent, Canvas.prune_held hcan hholder hheld, Content.block?_without]
    · rw [Context.without_fill_self he hl, ← Canvas.rest_eq_without hcan, hrest]
      apply hset.symm
    · apply List.Perm.trans _ hperm
      apply Context.ids_evict_perm
    · simp [Frame.fill]

/-- An accepted drop moves what it says, where the action shown for it says, and loses nothing. -/
theorem Editor.drop_moves {catalog : Catalog} {registry : Registry} {clock : Clock} {e : Editor}
    (h : Editor.Reaches (.new catalog registry clock) e) {layout : Layout} {target : Target}
    (hroom : e.HasRoom (.drop layout target)) {outcome : Outcome}
    (hdrop : (e.drop layout target).1 = .ok outcome) :
  ∃ source action, e.canvas.gesture = some source ∧ e.hover layout target = .ok action
    ∧ Forest.Moves e.tree e.palette source action outcome (e.drop layout target).2.tree
  := by
  have ht : Forest.Valid e.canvas.tree := h.valid Forest.valid_nil
  have hok : (e.canvas.drop e.palette layout target).1 = .ok outcome := hdrop
  rcases Canvas.drop_cases ht e.palette layout target with
    ⟨reason, -, hresult, -⟩ | ⟨source, plan, outcome', hgesture, hplan, hhover, hresult, hdrops⟩
  · rw [hresult] at hok
    contradiction
  · rw [hresult] at hok
    cases hok
    use source, plan.action, hgesture, hhover
    apply Canvas.Drops.moves (c := e.canvas.cancel) ht hdrops
    intro carried hcarried
    apply hroom source plan carried hgesture hplan hcarried

/-- A variable from the palette replaces the value that was typed into a slot. -/
theorem Editor.drop_moves_variable :
  ∃ e, Editor.Reaches (.new .stock .standard (.fixed 0)) e
    ∧ (e.drop .hidden (.slot "block-repeat-0" 0)).1
      = .ok (.slotted "block-get-X-pos-1" "block-repeat-0" 0 none)
    ∧ ∃ source action, e.canvas.gesture = some source
      ∧ e.hover .hidden (.slot "block-repeat-0" 0) = .ok action
      ∧ Forest.Moves e.tree e.palette source action
        (.slotted "block-get-X-pos-1" "block-repeat-0" 0 none)
        (e.drop .hidden (.slot "block-repeat-0" 0)).2.tree
  := by
  have hfirst := Editor.reaches_drop .stock .standard (.fixed 0) (.palette "block-repeat") .hidden
    (.workspace .zero)
  have htyped := hfirst.perform (.setLiteral "block-repeat-0" 0 "5") trivial
  have hstart := htyped.perform (.startDrag (.palette "block-get-X-pos")) trivial
  exact ⟨_, hstart, rfl, Editor.drop_moves hstart (Editor.hasRoom_of_size_lt (by decide) _) rfl⟩

end BlockEditor
