import BlockEditor.Proofs.Paths
import BlockEditor.Proofs.Removal
import Mathlib.Data.Set.Function

/-!
# Purging a workspace

`Forest.IsPurged` states what the purge of a template leaves of a workspace, told by paths, so that
blocks with the same id are kept apart.  The blocks that are left are those on whose paths there is no
copy.  Each of them keeps its fields, its holder and its slot or its order among the blocks that are left
in its list, and a slot is empty if a copy was in it.  Purging twice is purging once, and the purges of
two templates can be done in either order.
-/

namespace BlockEditor

/-! ### Positions in a list of which some elements are left -/

/-- How many of the elements before a position are left. -/
def rank {α : Type} (left : α → Bool) (xs : List α) (index : Nat) : Nat :=
  (xs.take index).countP left

section

variable {α : Type} {left : α → Bool} {xs : List α} {x : α} {i j : Nat}

/-- Positions of elements that are left keep their order. -/
theorem rank_lt_rank (h : xs[i]? = some x) (hx : left x = true) (hlt : i < j) :
  rank left xs i < rank left xs j
  := by
  have hnext : rank left xs (i + 1) = rank left xs i + 1 := by
    simp [rank, List.take_add_one, h, hx]
  have hle : rank left xs (i + 1) ≤ rank left xs j :=
    (List.take_sublist_take_left hlt).countP_le
  omega

theorem rank_inj {y : α} (hi : xs[i]? = some x) (hx : left x = true) (hj : xs[j]? = some y)
    (hy : left y = true) (h : rank left xs i = rank left xs j) :
  i = j
  := by
  rcases Nat.lt_trichotomy i j with hlt | heq | hlt
  · have := rank_lt_rank hi hx hlt
    omega
  · apply heq
  · have := rank_lt_rank hj hy hlt
    omega

/-- An element that is left comes behind those that are left of the elements before it. -/
theorem getElem?_rank (h : xs[i]? = some x) (hx : left x = true) :
  (xs.filter left)[rank left xs i]? = some x
  := by
  obtain ⟨before, behind, rfl, rfl⟩ := exists_append_of_getElem? h
  rw [rank, List.take_left, List.filter_append, List.filter_cons_of_pos hx,
    List.countP_eq_length_filter, List.getElem?_append_right (Nat.le_refl _), Nat.sub_self]
  rfl

theorem exists_rank_eq (h : (xs.filter left)[j]? = some x) :
  ∃ i, xs[i]? = some x ∧ left x = true ∧ rank left xs i = j
  := by
  induction xs generalizing j with
  | nil => cases h
  | cons y ys ih =>
    cases hy : left y with
    | false =>
      rw [List.filter_cons_of_neg (by simp [hy])] at h
      obtain ⟨i, hi, hx, rfl⟩ := ih h
      use i + 1, hi, hx
      simp [rank, hy]
    | true =>
      rw [List.filter_cons_of_pos hy] at h
      cases j with
      | zero =>
        cases h
        exact ⟨0, rfl, hy, rfl⟩
      | succ j =>
        obtain ⟨i, hi, hx, rfl⟩ := ih h
        use i + 1, hi, hx
        simp [rank, hy]

end

/-! ### Paths in what is left of a workspace -/

section

variable {gone : Face → Bool}

/-- The step that leads in a pruned list to where the step leads in the list. -/
def Edge.pruned (gone : Face → Bool) (bs : Forest) : Edge → Edge
  | .child index => .child (rank (fun b : Block => !gone b.face) bs index)
  | .slot index => .slot index

/-- The block is at the end of the path from a block, and no block on the path is gone, apart from the
first one. -/
def Block.Spares (gone : Face → Bool) (b : Block) (p : Path) (c : Block) : Prop :=
  b.at? p = some c ∧ ∀ q d, q ≠ [] → q <+: p → b.at? q = some d → gone d.face = false

/-- The path in the pruned block to where the path leads in the block. -/
def Block.prunedPath (gone : Face → Bool) (b : Block) : Path → Path
  | [] => []
  | e :: p =>
    e.pruned gone b.childList :: (match b.held? e with
      | some c => c.prunedPath gone p
      | none => p)

theorem Block.held?_child_prune (b : Block) (index : Nat) :
  (b.prune gone).held? (.child index)
    = ((b.childList.filter fun c => !gone c.face)[index]?).map (Block.prune gone)
  := by
  have hchildList : (b.prune gone).childList = Forest.prune gone b.childList := by
    rw [Block.childList, Block.children_prune, Block.childList]
    cases b.children <;> rfl
  rw [Block.held?, hchildList, Forest.prune_eq_map, List.getElem?_map]

theorem Block.held?_slot_prune (b : Block) (index : Nat) :
  (b.prune gone).held? (.slot index)
    = ((b.held? (.slot index)).filter fun c => !gone c.face).map (Block.prune gone)
  := by
  rw [Block.held?, Block.held?, Block.slots_prune, Slots.prune_eq_map, List.getElem?_map]
  cases b.slots[index]? with
  | none => rfl
  | some content => apply Content.block?_prune

/-- What a block holds is held by what is left of it, one step down, if it is not gone. -/
theorem Block.held?_prune {b c : Block} {e : Edge} (h : b.held? e = some c)
    (hleft : gone c.face = false) :
  (b.prune gone).held? (e.pruned gone b.childList) = some (c.prune gone)
  := by
  cases e with
  | child index =>
    have hindex : (b.childList.filter fun c => !gone c.face)[rank (fun c : Block => !gone c.face)
        b.childList index]? = some c := getElem?_rank h (by rw [hleft, Bool.not_false])
    rw [Edge.pruned, Block.held?_child_prune, hindex, Option.map_some]
  | slot index =>
    rw [Edge.pruned, Block.held?_slot_prune, h, Option.filter_some, hleft]
    rfl

/-- What is left of a block holds only what is left of what the block holds. -/
theorem Block.exists_held?_of_prune {b c : Block} {e : Edge} (h : (b.prune gone).held? e = some c) :
  ∃ f d, b.held? f = some d ∧ gone d.face = false ∧ f.pruned gone b.childList = e ∧ d.prune gone = c
  := by
  cases e with
  | child index =>
    rw [Block.held?_child_prune] at h
    obtain ⟨d, hd, rfl⟩ := Option.map_eq_some_iff.mp h
    obtain ⟨position, hposition, hleft, rfl⟩ := exists_rank_eq hd
    exact ⟨.child position, d, hposition, by simpa using hleft, rfl, rfl⟩
  | slot index =>
    rw [Block.held?_slot_prune] at h
    obtain ⟨d, hd, rfl⟩ := Option.map_eq_some_iff.mp h
    obtain ⟨hheld, hleft⟩ := Option.filter_eq_some_iff.mp hd
    exact ⟨.slot index, d, hheld, by simpa using hleft, rfl, rfl⟩

theorem Block.pruned_inj {b c d : Block} {e f : Edge} (hc : b.held? e = some c)
    (hcleft : gone c.face = false) (hd : b.held? f = some d) (hdleft : gone d.face = false)
    (h : e.pruned gone b.childList = f.pruned gone b.childList) :
  e = f
  := by
  cases e with
  | child i =>
    cases f with
    | child j =>
      apply congrArg Edge.child
      apply rank_inj hc _ hd _ (Edge.child.inj h)
      · rw [hcleft, Bool.not_false]
      · rw [hdleft, Bool.not_false]
    | slot j => contradiction
  | slot i =>
    cases f with
    | child j => contradiction
    | slot j => apply h

theorem Block.spares_nil_iff {b c : Block} :
  b.Spares gone [] c ↔ c = b
  := by
  constructor
  · rintro ⟨h, -⟩
    cases h
    rfl
  · rintro rfl
    use rfl
    intro q d hq hstart
    apply absurd (List.prefix_nil.mp hstart) hq

theorem Block.spares_cons_iff {b c : Block} {e : Edge} {p : Path} :
  b.Spares gone (e :: p) c
    ↔ ∃ d, b.held? e = some d ∧ gone d.face = false ∧ d.Spares gone p c
  := by
  constructor
  · rintro ⟨hat, hpath⟩
    obtain ⟨d, hd, hc⟩ := Block.at?_cons_eq_some_iff.mp hat
    have hfirst : b.at? [e] = some d := Block.at?_cons_eq_some_iff.mpr ⟨d, hd, rfl⟩
    refine ⟨d, hd, hpath [e] d (List.cons_ne_nil e []) (by simp) hfirst, hc, ?_⟩
    intro q x _ hq hx
    apply hpath (e :: q) x (List.cons_ne_nil e q) (List.cons_prefix_cons.mpr ⟨rfl, hq⟩)
    apply Block.at?_cons_eq_some_iff.mpr ⟨d, hd, hx⟩
  · rintro ⟨d, hd, hleft, hat, hpath⟩
    use Block.at?_cons_eq_some_iff.mpr ⟨d, hd, hat⟩
    rintro (_ | ⟨f, q⟩) x hne hq hx
    · contradiction
    · obtain ⟨rfl, hrest⟩ := List.cons_prefix_cons.mp hq
      obtain ⟨d', hd', hx⟩ := Block.at?_cons_eq_some_iff.mp hx
      obtain rfl := Option.some.inj (hd.symm.trans hd')
      by_cases hnil : q = []
      · rw [hnil] at hx
        cases hx
        apply hleft
      · apply hpath q x hnil hrest hx

/-- A block that is spared is left at the end of the pruned path. -/
theorem Block.Spares.at?_prune {b c : Block} {p : Path} (h : b.Spares gone p c) :
  (b.prune gone).at? (b.prunedPath gone p) = some (c.prune gone)
  := by
  induction p generalizing b with
  | nil =>
    rw [Block.spares_nil_iff.mp h]
    rfl
  | cons e p ih =>
    obtain ⟨d, hd, hleft, hspares⟩ := Block.spares_cons_iff.mp h
    rw [Block.prunedPath, hd]
    apply Block.at?_cons_eq_some_iff.mpr
    use d.prune gone, Block.held?_prune hd hleft
    apply ih hspares

/-- What is left of a block has no other paths. -/
theorem Block.exists_spares {b c : Block} {p : Path} (h : (b.prune gone).at? p = some c) :
  ∃ q d, b.Spares gone q d ∧ b.prunedPath gone q = p ∧ d.prune gone = c
  := by
  induction p generalizing b with
  | nil =>
    cases h
    exact ⟨[], b, Block.spares_nil_iff.mpr rfl, rfl, rfl⟩
  | cons e p ih =>
    obtain ⟨c', hc', hat⟩ := Block.at?_cons_eq_some_iff.mp h
    obtain ⟨f, d, hd, hleft, hedge, rfl⟩ := Block.exists_held?_of_prune hc'
    obtain ⟨q, x, hspares, hpath, hx⟩ := ih hat
    use f :: q, x, Block.spares_cons_iff.mpr ⟨d, hd, hleft, hspares⟩
    rw [Block.prunedPath, hd, hedge]
    exact ⟨congrArg _ hpath, hx⟩

/-- Different paths to blocks that are spared stay different. -/
theorem Block.Spares.prunedPath_inj {b c d : Block} {p q : Path} (hp : b.Spares gone p c)
    (hq : b.Spares gone q d) (h : b.prunedPath gone p = b.prunedPath gone q) :
  p = q
  := by
  induction p generalizing b q with
  | nil =>
    cases q with
    | nil => rfl
    | cons f q => contradiction
  | cons e p ih =>
    cases q with
    | nil => contradiction
    | cons f q =>
      obtain ⟨x, hx, hxleft, hxp⟩ := Block.spares_cons_iff.mp hp
      obtain ⟨y, hy, hyleft, hyq⟩ := Block.spares_cons_iff.mp hq
      rw [Block.prunedPath, Block.prunedPath, hx, hy] at h
      obtain ⟨hedge, hpath⟩ := List.cons.inj h
      obtain rfl := Block.pruned_inj hx hxleft hy hyleft hedge
      obtain rfl := Option.some.inj (hx.symm.trans hy)
      rw [ih hxp hyq hpath]

/-- The last step of a path is pruned in the list of the block that it starts from. -/
theorem Block.prunedPath_append {b c : Block} {p : Path} (h : b.at? p = some c) (e : Edge) :
  b.prunedPath gone (p ++ [e]) = b.prunedPath gone p ++ [e.pruned gone c.childList]
  := by
  induction p generalizing b with
  | nil =>
    cases h
    simp only [List.nil_append, Block.prunedPath]
    cases c.held? e <;> rfl
  | cons f p ih =>
    obtain ⟨d, hd, hat⟩ := Block.at?_cons_eq_some_iff.mp h
    rw [List.cons_append, Block.prunedPath, Block.prunedPath, hd, List.cons_append]
    apply congrArg _ (ih hat)

end

/-! ### The blocks that a purge leaves -/

/-- A block that holds the workspace as its children. -/
def Forest.asBlock (t : Forest) : Block :=
  ⟨⟨"", "", .plain .control [], "", none, false⟩, some t, []⟩

theorem Forest.held?_asBlock (t : Forest) (e : Edge) :
  (Forest.asBlock t).held? e = Forest.held? t e
  := by
  cases e <;> rfl

theorem Forest.at?_asBlock (t : Forest) {p : Path} (h : p ≠ []) :
  (Forest.asBlock t).at? p = Forest.at? t p
  := by
  cases p with
  | nil => contradiction
  | cons e p => rw [Block.at?, Forest.held?_asBlock, Forest.at?]

theorem Forest.prune_asBlock (gone : Face → Bool) (t : Forest) :
  (Forest.asBlock t).prune gone = Forest.asBlock (Forest.prune gone t)
  := rfl

/-- The block is at the end of the path, and no block on the path is a copy of the template, neither the
block itself nor one that encloses it. -/
def Forest.Spares (t : Forest) (templateId : String) (p : Path) (b : Block) : Prop :=
  Forest.at? t p = some b
    ∧ ∀ q c, q <+: p → Forest.at? t q = some c → c.templateId ≠ templateId

/-- What a slot holds when the copies of a template are gone. -/
inductive Content.IsLeftOf (templateId : String) : Content Block → Content Block → Prop where
  | empty : IsLeftOf templateId .empty .empty
  | literal (value : String) : IsLeftOf templateId (.literal value) (.literal value)
  | copy {b : Block} (hcopy : b.templateId = templateId) : IsLeftOf templateId (.block b) .empty
  | block {b b' : Block} (hother : b.templateId ≠ templateId) (hface : b'.face = b.face) :
      IsLeftOf templateId (.block b) (.block b')

/-- The block when the copies of a template beneath it are gone: its fields and its slots are as they
were, but for the slots that held a copy. -/
structure Block.IsLeftOf (templateId : String) (b b' : Block) : Prop where
  face : b'.face = b.face
  children : b'.children.isSome = b.children.isSome
  slots : List.Forall₂ (Content.IsLeftOf templateId) b.slots b'.slots

/-- The workspace `t'` is what is left of `t` when the copies of a template are gone.  The blocks of `t'`
are those of `t` that are spared, and `path` takes the paths to them in `t` to those in `t'`. -/
structure Forest.IsPurged (templateId : String) (t t' : Forest) (path : Path → Path) : Prop where
  paths : Set.BijOn path {p | ∃ b, t.Spares templateId p b} {p | ∃ b, Forest.at? t' p = some b}
  /-- Each block keeps its fields and its slots, but for those that held a copy. -/
  blocks : ∀ p b, t.Spares templateId p b →
    ∃ b', Forest.at? t' (path p) = some b' ∧ b.IsLeftOf templateId b'
  top : path [] = []
  /-- A block in a slot stays in that slot of its holder. -/
  slots : ∀ p index b, t.Spares templateId (p ++ [.slot index]) b →
    path (p ++ [.slot index]) = path p ++ [.slot index]
  /-- The blocks of a list stay in the list of their holder, in their order. -/
  lists : ∀ p, ∃ position : Nat → Nat, ∀ index b, t.Spares templateId (p ++ [.child index]) b →
    path (p ++ [.child index]) = path p ++ [.child (position index)]
      ∧ ∀ later, index < later → position index < position later

section

variable {templateId : String} {t : Forest}

theorem Forest.spares_iff {p : Path} {b : Block} :
  t.Spares templateId p b
    ↔ p ≠ [] ∧ (Forest.asBlock t).Spares (fun face => face.templateId = templateId) p b
  := by
  constructor
  · rintro ⟨hat, hpath⟩
    have hne : p ≠ [] := by
      rintro rfl
      contradiction
    use hne, (t.at?_asBlock hne).trans hat
    intro q c hq hstart hc
    apply decide_eq_false
    apply hpath q c hstart ((t.at?_asBlock hq).symm.trans hc)
  · rintro ⟨hne, hat, hpath⟩
    use (t.at?_asBlock hne).symm.trans hat
    intro q c hstart hc
    have hq : q ≠ [] := by
      rintro rfl
      contradiction
    apply of_decide_eq_false (hpath q c hq hstart ((t.at?_asBlock hq).trans hc))

theorem Content.isLeftOf_prune (c : Content Block) :
  c.IsLeftOf templateId (c.prune fun face => face.templateId = templateId)
  := by
  cases c with
  | empty => apply Content.IsLeftOf.empty
  | literal value => apply Content.IsLeftOf.literal
  | block b =>
    rw [Content.prune]
    by_cases hcopy : b.face.templateId = templateId
    · rw [if_pos (decide_eq_true hcopy)]
      apply Content.IsLeftOf.copy hcopy
    · rw [if_neg (by simpa using hcopy)]
      apply Content.IsLeftOf.block hcopy (Block.face_prune b)

theorem Block.isLeftOf_prune (b : Block) :
  b.IsLeftOf templateId (b.prune fun face => face.templateId = templateId)
  := by
  constructor
  · apply Block.face_prune
  · rw [Block.children_prune, Option.isSome_map]
  · rw [Block.slots_prune, Slots.prune_eq_map, List.forall₂_map_right_iff]
    apply List.forall₂_same.mpr
    intro c _
    apply Content.isLeftOf_prune

/-- A block that is spared is left at the end of the pruned path. -/
theorem Forest.Spares.at?_prune {p : Path} {b : Block} (h : t.Spares templateId p b) :
  Forest.at? (Forest.prune (fun face => face.templateId = templateId) t)
      ((Forest.asBlock t).prunedPath (fun face => face.templateId = templateId) p)
    = some (b.prune fun face => face.templateId = templateId)
  := by
  obtain ⟨hne, hspares⟩ := Forest.spares_iff.mp h
  rw [← hspares.at?_prune, Forest.prune_asBlock, Forest.at?_asBlock]
  cases p with
  | nil => contradiction
  | cons e p => apply List.cons_ne_nil

/-- What is left of a workspace has no other paths. -/
theorem Forest.exists_spares {p : Path} {b : Block}
    (h : Forest.at? (Forest.prune (fun face => face.templateId = templateId) t) p = some b) :
  ∃ q c, t.Spares templateId q c
    ∧ (Forest.asBlock t).prunedPath (fun face => face.templateId = templateId) q = p
  := by
  have hne : p ≠ [] := by
    rintro rfl
    contradiction
  rw [← Forest.at?_asBlock _ hne, ← Forest.prune_asBlock] at h
  obtain ⟨q, c, hspares, rfl, -⟩ := Block.exists_spares h
  refine ⟨q, c, Forest.spares_iff.mpr ⟨?_, hspares⟩, rfl⟩
  rintro rfl
  contradiction

/-- The last step of the path to a block that is spared, in the block that it starts from. -/
theorem Forest.Spares.exists_holder {p : Path} {e : Edge} {b : Block}
    (h : t.Spares templateId (p ++ [e]) b) :
  ∃ c, (Forest.asBlock t).at? p = some c ∧ c.held? e = some b ∧ b.templateId ≠ templateId
  := by
  have hat : (Forest.asBlock t).at? (p ++ [e]) = some b := (Forest.spares_iff.mp h).2.1
  rw [Block.at?_append] at hat
  obtain ⟨c, hc, hlast⟩ := Option.bind_eq_some_iff.mp hat
  obtain ⟨d, hd, heq⟩ := Block.at?_cons_eq_some_iff.mp hlast
  cases heq
  use c, hc, hd
  apply h.2 _ b (List.prefix_refl _) h.1

/-- A purge leaves the blocks that it spares, each in its place. -/
theorem Forest.isPurged_purge (templateId : String) (t : Forest) :
  Forest.IsPurged templateId t (Forest.purge templateId t).2
    ((Forest.asBlock t).prunedPath fun face => face.templateId = templateId)
  := by
  rw [Forest.purge_snd]
  constructor
  case paths =>
    refine ⟨?_, ?_, ?_⟩
    · rintro p ⟨b, hb⟩
      exact ⟨_, hb.at?_prune⟩
    · rintro p ⟨b, hb⟩ q ⟨c, hc⟩ h
      apply (Forest.spares_iff.mp hb).2.prunedPath_inj (Forest.spares_iff.mp hc).2 h
    · rintro p ⟨b, hb⟩
      obtain ⟨q, c, hspares, hpath⟩ := Forest.exists_spares hb
      exact ⟨q, ⟨c, hspares⟩, hpath⟩
  case blocks =>
    intro p b hb
    exact ⟨_, hb.at?_prune, b.isLeftOf_prune⟩
  case top => rfl
  case slots =>
    intro p index b hb
    obtain ⟨c, hc, -⟩ := hb.exists_holder
    apply Block.prunedPath_append hc
  case lists =>
    intro p
    -- a path at whose end there is no block leads to no list
    let left (b : Block) : Bool := !decide (b.face.templateId = templateId)
    let list : Forest := (((Forest.asBlock t).at? p).map Block.childList).getD []
    use rank left list
    intro index b hb
    obtain ⟨c, hc, hheld, hother⟩ := hb.exists_holder
    have hlist : list = c.childList := by
      simp only [list, hc, Option.map_some, Option.getD_some]
    rw [hlist]
    use Block.prunedPath_append hc (.child index)
    intro later hlt
    apply rank_lt_rank hheld _ hlt
    rw [Bool.not_eq_true', decide_eq_false_iff_not]
    apply hother

end

/-- Where there is no copy of the template, a purge changes nothing and reports nothing. -/
theorem Forest.purge_eq_self {templateId : String} {t : Forest}
    (h : ∀ b ∈ Forest.walk t, b.templateId ≠ templateId) :
  Forest.purge templateId t = ([], t)
  := by
  have hreport : (Forest.purge templateId t).1 = [] := by
    have hnone : Forest.topmost (fun face => face.templateId = templateId) t = [] := by
      apply List.eq_nil_iff_forall_not_mem.mpr
      intro b hb
      obtain ⟨hcopy, hwalk⟩ := Forest.of_mem_topmost hb
      apply h b hwalk (of_decide_eq_true hcopy)
    apply List.Perm.eq_nil
    rw [← List.map_nil (f := Block.id), ← hnone]
    apply Forest.purge_fst_perm
  have hleft : (Forest.purge templateId t).2 = t := by
    rw [Forest.purge_snd]
    apply Forest.prune_eq_self
    intro b hb
    apply decide_eq_false (h b hb)
  apply Prod.ext hreport hleft

/-- A purge leaves no copy of the template at any depth.  The blocks that it leaves are those that are
not copies and have no copy above them, each with its fields, and in its place.  Purging again changes
nothing, and the purges of two templates can be done in either order. -/
theorem Forest.purge_takes_copies (templateId : String) (t : Forest) :
  (∀ b ∈ Forest.walk (Forest.purge templateId t).2, b.templateId ≠ templateId)
    ∧ (∃ path, Forest.IsPurged templateId t (Forest.purge templateId t).2 path)
    ∧ Forest.purge templateId (Forest.purge templateId t).2 = ([], (Forest.purge templateId t).2)
    ∧ ∀ other, (Forest.purge other (Forest.purge templateId t).2).2
      = (Forest.purge templateId (Forest.purge other t).2).2
  := by
  have hnone : ∀ b ∈ Forest.walk (Forest.purge templateId t).2, b.templateId ≠ templateId := by
    intro b hb
    rw [Forest.purge_snd] at hb
    apply of_decide_eq_false (Forest.not_gone_of_mem_walk_prune t b hb)
  use hnone, ⟨_, Forest.isPurged_purge templateId t⟩, Forest.purge_eq_self hnone
  intro other
  simp only [Forest.purge_snd, Forest.prune_prune, Bool.or_comm]

end BlockEditor
