import BlockEditor.Program.Outline
import BlockEditor.Proofs.Walk
import Mathlib.Data.List.Forall2

/-!
# The nodes of a program

`Node.Shows r n b` states that the node `n` shows the block `b`: it has the id, the type and the text
of the block, the variables that the slots ask for, and as its children nodes that show the blocks
that `b` holds, without entries of the palette and variables in slots.  A program shows the placed
blocks of the top level.

`Forest.visits` is the walk of a workspace in which every block comes with the blocks that enclose it.
A walk of the program meets nodes that show the blocks of those visits on which no block is hidden,
in that order, and every node in the node that shows the holder of its block.
-/

namespace BlockEditor

/-! ### Walks of programs -/

mutual

/-- The node and all nodes beneath it, a node before its children. -/
def Node.walk : Node → List Node
  | ⟨id, type, text, vars, children⟩ =>
    ⟨id, type, text, vars, children⟩ :: Program.walk children

/-- The nodes of the list and all nodes beneath them, a node before its children. -/
def Program.walk : List Node → List Node
  | [] => []
  | n :: ns => n.walk ++ Program.walk ns

end

mutual

/-- The walk of a node in which every node comes with the nodes that enclose it, its parent first. -/
def Node.visits (above : List Node) : Node → List (Node × List Node)
  | ⟨id, type, text, vars, children⟩ =>
    (⟨id, type, text, vars, children⟩, above) ::
      Program.visits (⟨id, type, text, vars, children⟩ :: above) children

/-- The visits of the nodes in a list, all beneath the same ones. -/
def Program.visits (above : List Node) : List Node → List (Node × List Node)
  | [] => []
  | n :: ns => n.visits above ++ Program.visits above ns

end

theorem Node.walk_eq (n : Node) :
  n.walk = n :: Program.walk n.children
  := by
  cases n
  rfl

theorem Node.visits_eq (above : List Node) (n : Node) :
  n.visits above = (n, above) :: Program.visits (n :: above) n.children
  := by
  cases n
  rfl

theorem Program.walk_eq_flatMap (p : Program) :
  Program.walk p = p.flatMap Node.walk
  := by
  induction p with
  | nil => rfl
  | cons n p ih => rw [Program.walk, ih, List.flatMap_cons]

theorem Program.walk_cons (n : Node) (p : List Node) :
  Program.walk (n :: p) = n.walk ++ Program.walk p
  := rfl

theorem Program.walk_singleton (n : Node) :
  Program.walk [n] = n.walk
  := by
  rw [Program.walk_cons, Program.walk, List.append_nil]

theorem Node.mem_walk_self (n : Node) :
  n ∈ n.walk
  := by
  rw [Node.walk_eq]
  apply List.mem_cons_self

/-- A node of a program is in the tree of a node at its top level. -/
theorem Program.mem_walk {p : List Node} {x : Node} :
  x ∈ Program.walk p ↔ ∃ n ∈ p, x ∈ n.walk
  := by
  rw [Program.walk_eq_flatMap, List.mem_flatMap]

theorem Program.visits_eq_flatMap (above : List Node) (p : Program) :
  Program.visits above p = p.flatMap (Node.visits above)
  := by
  induction p with
  | nil => rfl
  | cons n p ih => rw [Program.visits, ih, List.flatMap_cons]

/-! ### Walks of workspaces with what encloses the blocks -/

/-- A block with the kind of place that it is in. -/
structure Stop where
  block : Block
  /-- The block is in a slot, not in a list. -/
  inSlot : Bool

/-- The block is hidden from programs: it is an entry of the palette, or a variable in a slot. -/
def Stop.isHidden (s : Stop) : Bool :=
  s.block.palette || (s.inSlot && s.block.category = .var)

/-- A block as a walk meets it. -/
structure Visit where
  stop : Stop
  /-- The blocks that enclose it, its holder first. -/
  above : List Stop

namespace Visit

/-- The block that is visited. -/
def block (v : Visit) : Block :=
  v.stop.block

/-- Neither the block nor a block that encloses it is hidden. -/
def isShown (v : Visit) : Bool :=
  (v.stop :: v.above).all fun s => !s.isHidden

end Visit

mutual

/-- The walk of a block in which every block comes with those that enclose it. -/
def Block.visits (inSlot : Bool) (above : List Stop) : Block → List Visit
  | ⟨face, children, slots⟩ =>
    let stop : Stop := ⟨⟨face, children, slots⟩, inSlot⟩
    ⟨stop, above⟩ ::
      ((match children with
        | some blocks => Forest.visits (stop :: above) blocks
        | none => []) ++ Slots.visits (stop :: above) slots)

/-- The visits of the blocks in a list, which are in no slot. -/
def Forest.visits (above : List Stop) : List Block → List Visit
  | [] => []
  | b :: bs => b.visits false above ++ Forest.visits above bs

/-- The visits of the occupants of slots. -/
def Slots.visits (above : List Stop) : List (Content Block) → List Visit
  | [] => []
  | .block b :: cs => b.visits true above ++ Slots.visits above cs
  | _ :: cs => Slots.visits above cs

end

section

variable {above : List Stop}

theorem Forest.visits_eq_flatMap (t : Forest) :
  Forest.visits above t = t.flatMap (Block.visits false above)
  := by
  induction t with
  | nil => rfl
  | cons b bs ih => rw [Forest.visits, ih, List.flatMap_cons]

theorem Slots.visits_eq_flatMap (cs : Slots) :
  Slots.visits above cs = (cs.filterMap Content.block?).flatMap (Block.visits true above)
  := by
  induction cs with
  | nil => rfl
  | cons c cs ih => cases c <;> simp [Slots.visits, List.filterMap_cons, Content.block?, ih]

/-- The visits of a block are the one to the block and those to what it holds. -/
theorem Block.visits_eq (inSlot : Bool) (b : Block) :
  b.visits inSlot above = ⟨⟨b, inSlot⟩, above⟩ ::
    (b.childList.flatMap (Block.visits false (⟨b, inSlot⟩ :: above))
      ++ b.occupants.flatMap (Block.visits true (⟨b, inSlot⟩ :: above)))
  := by
  obtain ⟨face, children, slots⟩ := b
  cases children <;>
    simp [Block.visits, Block.childList, Block.occupants, Forest.visits_eq_flatMap,
      Slots.visits_eq_flatMap]

/-- Visits meet the blocks of the walk, in its order. -/
theorem Block.map_block_visits (inSlot : Bool) (b : Block) :
  (b.visits inSlot above).map Visit.block = b.walk
  := by
  induction b using Block.induct generalizing inSlot above with
  | step b ih =>
    have hchildren : ∀ above, b.childList.flatMap
        (fun c => (c.visits false above).map Visit.block) = b.childList.flatMap Block.walk := by
      intro above
      apply List.flatMap_congr
      intro c hc
      apply ih c (List.mem_append_left _ hc)
    have hoccupants : ∀ above, b.occupants.flatMap
        (fun c => (c.visits true above).map Visit.block) = b.occupants.flatMap Block.walk := by
      intro above
      apply List.flatMap_congr
      intro c hc
      apply ih c (List.mem_append_right _ hc)
    rw [Block.visits_eq, Block.walk_eq, List.map_cons, List.map_append, List.map_flatMap,
      List.map_flatMap, hchildren, hoccupants, List.flatMap_append]
    rfl

/-- Visits meet the blocks of the walk, in its order. -/
theorem Forest.map_block_visits (t : Forest) :
  (Forest.visits above t).map Visit.block = Forest.walk t
  := by
  rw [Forest.visits_eq_flatMap, List.map_flatMap, Forest.walk_eq_flatMap]
  apply List.flatMap_congr
  intro b _
  apply Block.map_block_visits

/-- The way up from a block leads through the walk of any block around it, then to that block and to
what encloses it. -/
theorem Visit.exists_append_of_mem {inSlot : Bool} {b : Block} {v : Visit}
    (h : v ∈ b.visits inSlot above) :
  ∃ inner, v.stop :: v.above = inner ++ ⟨b, inSlot⟩ :: above ∧ ∀ s ∈ inner, s.block ∈ b.walk
  := by
  induction b using Block.induct generalizing inSlot above with
  | step b ih =>
    rw [Block.visits_eq] at h
    rcases List.mem_cons.mp h with rfl | h
    · exact ⟨[], rfl, by simp⟩
    obtain ⟨c, hc, slot, hv⟩ :
        ∃ c ∈ b.childList ++ b.occupants, ∃ slot, v ∈ c.visits slot (⟨b, inSlot⟩ :: above) := by
      rcases List.mem_append.mp h with h | h
      · obtain ⟨c, hc, hv⟩ := List.mem_flatMap.mp h
        exact ⟨c, List.mem_append_left _ hc, false, hv⟩
      · obtain ⟨c, hc, hv⟩ := List.mem_flatMap.mp h
        exact ⟨c, List.mem_append_right _ hc, true, hv⟩
    obtain ⟨inner, hsplit, hinner⟩ := ih c hc hv
    use inner ++ [⟨c, slot⟩]
    constructor
    · rw [hsplit, List.append_assoc, List.singleton_append]
    · intro s hs
      apply Block.walk_subset_of_mem hc
      rcases List.mem_append.mp hs with hs | hs
      · apply hinner s hs
      · rw [List.mem_singleton.mp hs]
        apply c.mem_walk_self

/-- What encloses a block encloses everything beneath it. -/
theorem Visit.suffix_of_mem {inSlot : Bool} {b : Block} {v : Visit}
    (h : v ∈ b.visits inSlot above) :
  (⟨b, inSlot⟩ :: above) <:+ (v.stop :: v.above)
  := by
  obtain ⟨inner, hsplit, -⟩ := Visit.exists_append_of_mem h
  use inner, hsplit.symm

/-- Nothing is shown beneath a hidden block. -/
theorem Block.filter_visits_of_isHidden {inSlot : Bool} {b : Block}
    (h : (Stop.mk b inSlot).isHidden = true) :
  (b.visits inSlot above).filter Visit.isShown = []
  := by
  apply List.filter_eq_nil_iff.mpr
  intro v hv hshown
  have hmem := (Visit.suffix_of_mem hv).subset (List.mem_cons_self ..)
  have hs := List.all_eq_true.mp hshown _ hmem
  rw [h] at hs
  contradiction

end

/-! ### Nodes that show blocks -/

/-- The block becomes a node if it is in a place of the given kind. -/
def Block.isShown (inSlot : Bool) (b : Block) : Bool :=
  !(Stop.mk b inSlot).isHidden

/-- The blocks of the children container that become nodes. -/
def Block.shownChildren (b : Block) : List Block :=
  b.childList.filter (Block.isShown false)

/-- The blocks in slots that become nodes. -/
def Block.shownOccupants (b : Block) : List Block :=
  b.occupants.filter (Block.isShown true)

/-- The variable is what the part of an outline says.  The name of a blank is its id as well. -/
def Outline.Part.IsWritten : Outline.Part → Variable → Prop
  | .bound id name value, v => v = ⟨id, name, Category.var.wireName, value⟩
  | .blank value, v => v = ⟨v.id, v.id, Category.var.wireName, value⟩

/-- The node shows the block.  Its variables are those of the block on its own, followed by those that
positions in slots lend.  Its children show the children of the block, followed by what the slots
hold. -/
inductive Node.Shows (r : Registry) : Node → Block → Prop where
  | intro {b : Block} {own : List Variable} {nested held : List Node}
      (hown : List.Forall₂ Outline.Part.IsWritten (Outline.ownParts r b.face b.slots) own)
      (hnested : List.Forall₂ (Node.Shows r) nested b.shownChildren)
      (hheld : List.Forall₂ (Node.Shows r) held b.shownOccupants) :
      Node.Shows r ⟨b.id, b.category.wireName, b.wireText, own ++ Outline.lent held, nested ++ held⟩ b

/-- No other category is written as positions are. -/
theorem Category.eq_pos_of_wireName {c : Category} (h : c.wireName = Category.pos.wireName) :
  c = .pos
  := by
  revert h
  cases c <;> decide

section

variable {r : Registry}

theorem Node.Shows.id_eq {n : Node} {b : Block} (h : n.Shows r b) :
  n.id = b.id
  := by
  cases h
  rfl

theorem Node.Shows.type_eq {n : Node} {b : Block} (h : n.Shows r b) :
  n.type = b.category.wireName
  := by
  cases h
  rfl

/-- The outlines of a list are those of its blocks that become nodes. -/
theorem Forest.outline_eq_map (t : Forest) :
  Forest.outline r t = (t.filter (Block.isShown false)).map (Block.outline r)
  := by
  induction t with
  | nil => rfl
  | cons b bs ih =>
    rw [Forest.outline, ih, List.filter_cons]
    cases h : b.face.palette <;> simp [Block.isShown, Stop.isHidden, Block.palette, h]

theorem Slots.outline_eq_map (cs : Slots) :
  Slots.outline r cs
    = ((cs.filterMap Content.block?).filter (Block.isShown true)).map (Block.outline r)
  := by
  induction cs with
  | nil => rfl
  | cons c cs ih =>
    cases c with
    | empty => apply ih
    | literal value => apply ih
    | block b =>
      rw [Slots.outline, ih, List.filterMap_cons, Content.block?, List.filter_cons]
      cases h : b.face.palette <;> by_cases hcategory : b.face.kind.category = .var <;>
        simp [Block.isShown, Stop.isHidden, Block.palette, Block.category, h, hcategory]

/-- The outline of a block is made of the outlines of the blocks that it holds. -/
theorem Block.outline_eq (b : Block) :
  b.outline r = ⟨b.face, Outline.ownParts r b.face b.slots,
    b.shownChildren.map (Block.outline r), b.shownOccupants.map (Block.outline r)⟩
  := by
  obtain ⟨face, children, slots⟩ := b
  rw [Block.shownChildren, Block.shownOccupants, Block.occupants, ← Slots.outline_eq_map,
    ← Forest.outline_eq_map]
  cases children <;> rfl

variable {name : Nat → String}

/-- Variables are written for parts as the parts say, whatever names the blanks get. -/
theorem Outline.Part.forall₂_write (next : Nat) (ps : List Outline.Part) :
  List.Forall₂ Outline.Part.IsWritten ps (Outline.Part.write name next ps)
  := by
  induction ps generalizing next with
  | nil => apply List.Forall₂.nil
  | cons p ps ih =>
    cases p with
    | bound id text value =>
      apply List.Forall₂.cons
      · rfl
      · apply ih
    | blank value =>
      apply List.Forall₂.cons
      · rfl
      · apply ih

/-- What is written for blocks one by one is written for the list. -/
theorem Outline.forall₂_writeAll {bs : List Block}
    (h : ∀ b ∈ bs, ∀ next, ((b.outline r).write name next).Shows r b) (next : Nat) :
  List.Forall₂ (Node.Shows r) (Outline.writeAll name next (bs.map (Block.outline r))) bs
  := by
  induction bs generalizing next with
  | nil => apply List.Forall₂.nil
  | cons b bs ih =>
    obtain ⟨hb, hbs⟩ := List.forall_mem_cons.mp h
    apply List.Forall₂.cons (hb next) (ih hbs _)

/-- The node that is written for a block shows it. -/
theorem Block.shows_write (b : Block) (next : Nat) :
  ((b.outline r).write name next).Shows r b
  := by
  induction b using Block.induct generalizing next with
  | step b ih =>
    rw [Block.outline_eq, Outline.write]
    apply Node.Shows.intro
    · apply Outline.Part.forall₂_write
    · apply Outline.forall₂_writeAll
      intro c hc
      apply ih c (List.mem_append_left _ (List.mem_of_mem_filter hc))
    · apply Outline.forall₂_writeAll
      intro c hc
      apply ih c (List.mem_append_right _ (List.mem_of_mem_filter hc))

/-- A program shows the placed blocks of the top level. -/
theorem Program.shows_ofForest (r : Registry) (now : UInt64) (t : Forest) :
  List.Forall₂ (Node.Shows r) (Program.ofForest r now t) (t.filter (Block.isShown false))
  := by
  rw [Program.ofForest, Forest.outline_eq_map]
  apply Outline.forall₂_writeAll
  intro b _ next
  apply Block.shows_write

end

/-! ### The order of the nodes -/

/-- Lists that belong to related elements are joined. -/
theorem forall₂_flatMap {α β γ δ : Type} {S : β → α → Prop} {R : δ → γ → Prop}
    {f : β → List δ} {g : α → List γ} {as : List α} {bs : List β} (h : List.Forall₂ S bs as)
    (hjoin : ∀ a ∈ as, ∀ b, S b a → List.Forall₂ R (f b) (g a)) :
  List.Forall₂ R (bs.flatMap f) (as.flatMap g)
  := by
  induction h with
  | nil => apply List.Forall₂.nil
  | cons hb _ ih =>
    obtain ⟨ha, has⟩ := List.forall_mem_cons.mp hjoin
    rw [List.flatMap_cons, List.flatMap_cons]
    apply List.rel_append (ha _ hb) (ih has)

/-- Elements of whose lists nothing is kept may be left out. -/
theorem filter_flatMap_of_drop {α γ : Type} {keep : α → Bool} {p : γ → Bool} {g : α → List γ}
    {as : List α} (hdrop : ∀ a ∈ as, keep a = false → (g a).filter p = []) :
  (as.flatMap g).filter p = (as.filter keep).flatMap fun a => (g a).filter p
  := by
  induction as with
  | nil => rfl
  | cons a as ih =>
    obtain ⟨ha, has⟩ := List.forall_mem_cons.mp hdrop
    rw [List.flatMap_cons, List.filter_append, ih has, List.filter_cons]
    cases hkeep : keep a with
    | false =>
      rw [ha hkeep]
      rfl
    | true =>
      rw [if_pos rfl]
      rfl

/-- What a visit of a block keeps comes from the blocks that become nodes. -/
theorem Block.filter_flatMap_visits (inSlot : Bool) (above : List Stop) (bs : List Block) :
  (bs.flatMap (Block.visits inSlot above)).filter Visit.isShown
    = (bs.filter (Block.isShown inSlot)).flatMap fun b =>
      (b.visits inSlot above).filter Visit.isShown
  := by
  apply filter_flatMap_of_drop
  intro b _ hb
  apply Block.filter_visits_of_isHidden
  simpa [Block.isShown] using hb

/-- Nothing hides what stands beneath a shown block among shown blocks. -/
theorem Block.forall_isHidden_cons {inSlot : Bool} {b : Block} {above : List Stop}
    (hb : b.isShown inSlot = true) (habove : ∀ s ∈ above, s.isHidden = false) :
  ∀ s ∈ Stop.mk b inSlot :: above, s.isHidden = false
  := by
  intro s hs
  rcases List.mem_cons.mp hs with rfl | hs
  · simpa [Block.isShown] using hb
  · apply habove s hs

/-- The visits that are kept of a block that becomes a node. -/
theorem Block.filter_visits {inSlot : Bool} {b : Block} {above : List Stop}
    (hb : b.isShown inSlot = true) (habove : ∀ s ∈ above, s.isHidden = false) :
  (b.visits inSlot above).filter Visit.isShown = ⟨⟨b, inSlot⟩, above⟩ ::
    ((b.shownChildren.flatMap fun c =>
        (c.visits false (⟨b, inSlot⟩ :: above)).filter Visit.isShown)
      ++ b.shownOccupants.flatMap fun c =>
        (c.visits true (⟨b, inSlot⟩ :: above)).filter Visit.isShown)
  := by
  have hshown : (Visit.mk ⟨b, inSlot⟩ above).isShown = true := by
    apply List.all_eq_true.mpr
    intro s hs
    rw [Block.forall_isHidden_cons hb habove s hs]
    rfl
  rw [Block.visits_eq, List.filter_cons_of_pos hshown, List.filter_append,
    Block.filter_flatMap_visits, Block.filter_flatMap_visits]
  rfl

/-- The node shows the block of the visit, and the nodes that enclose it show the blocks that enclose
the block. -/
def Node.ShowsVisit (r : Registry) (n : Node × List Node) (v : Visit) : Prop :=
  n.1.Shows r v.block ∧ List.Forall₂ (Node.Shows r) n.2 (v.above.map Stop.block)

/-- The visits of a node answer to those visits of its block that show something, one for one. -/
theorem Node.Shows.visits {r : Registry} {n : Node} {b : Block} (h : n.Shows r b) {inSlot : Bool}
    (hb : b.isShown inSlot = true) {above : List Stop} {nodes : List Node}
    (habove : ∀ s ∈ above, s.isHidden = false)
    (hnodes : List.Forall₂ (Node.Shows r) nodes (above.map Stop.block)) :
  List.Forall₂ (Node.ShowsVisit r) (n.visits nodes) ((b.visits inSlot above).filter Visit.isShown)
  := by
  induction b using Block.induct generalizing n inSlot above nodes with
  | step b ih =>
    have hstops := Block.forall_isHidden_cons hb habove
    have hnodes' : List.Forall₂ (Node.Shows r) (n :: nodes)
        ((Stop.mk b inSlot :: above).map Stop.block) := List.Forall₂.cons h hnodes
    rw [Node.visits_eq, Block.filter_visits hb habove]
    apply List.Forall₂.cons ⟨h, hnodes⟩
    cases h with
    | intro hown hnested hheld =>
      rw [Program.visits_eq_flatMap, List.flatMap_append]
      apply List.rel_append
      · apply forall₂_flatMap hnested
        intro c hc m hm
        obtain ⟨hmem, hshown⟩ := List.mem_filter.mp hc
        apply ih c (List.mem_append_left _ hmem) hm hshown hstops hnodes'
      · apply forall₂_flatMap hheld
        intro c hc m hm
        obtain ⟨hmem, hshown⟩ := List.mem_filter.mp hc
        apply ih c (List.mem_append_right _ hmem) hm hshown hstops hnodes'

/-- The nodes that visits of a program meet show the blocks of the visits on which no block is
hidden. -/
theorem Program.forall₂_visits (r : Registry) (now : UInt64) (t : Forest) :
  List.Forall₂ (Node.ShowsVisit r) (Program.visits [] (Program.ofForest r now t))
    ((Forest.visits [] t).filter Visit.isShown)
  := by
  rw [Program.visits_eq_flatMap, Forest.visits_eq_flatMap, Block.filter_flatMap_visits]
  apply forall₂_flatMap (Program.shows_ofForest r now t)
  intro b hb n hn
  apply hn.visits (List.mem_filter.mp hb).2
  · intro _ hs
    cases hs
  · apply List.Forall₂.nil

mutual

theorem Node.map_fst_visits (above : List Node) :
  ∀ n : Node, (n.visits above).map Prod.fst = n.walk
  | ⟨id, type, text, vars, children⟩ => by
      rw [Node.visits, Node.walk, List.map_cons, Program.map_fst_visits _ children]

/-- Visits meet the nodes of the walk, in its order. -/
theorem Program.map_fst_visits (above : List Node) :
  ∀ p : List Node, (Program.visits above p).map Prod.fst = Program.walk p
  | [] => rfl
  | n :: ns => by
      rw [Program.visits, Program.walk, List.map_append, Node.map_fst_visits above n,
        Program.map_fst_visits above ns]

end

/-! ### The blocks that become nodes -/

mutual

/-- The block and the blocks beneath it that become nodes if it does, in pre-order. -/
def Block.shown : Block → List Block
  | ⟨face, children, slots⟩ =>
    ⟨face, children, slots⟩ ::
      ((match children with
        | some blocks => Forest.shown blocks
        | none => []) ++ Slots.shown slots)

/-- The blocks of a list and beneath it that become nodes, in pre-order. -/
def Forest.shown : List Block → List Block
  | [] => []
  | b :: bs => (if b.isShown false then b.shown else []) ++ Forest.shown bs

/-- The blocks in slots and beneath them that become nodes, in pre-order. -/
def Slots.shown : List (Content Block) → List Block
  | [] => []
  | .block b :: cs => (if b.isShown true then b.shown else []) ++ Slots.shown cs
  | _ :: cs => Slots.shown cs

end

theorem Forest.shown_eq_flatMap (t : Forest) :
  Forest.shown t = (t.filter (Block.isShown false)).flatMap Block.shown
  := by
  induction t with
  | nil => rfl
  | cons b bs ih =>
    rw [Forest.shown, ih, List.filter_cons]
    cases b.isShown false <;> simp

theorem Slots.shown_eq_flatMap (cs : Slots) :
  Slots.shown cs = ((cs.filterMap Content.block?).filter (Block.isShown true)).flatMap Block.shown
  := by
  induction cs with
  | nil => rfl
  | cons c cs ih =>
    cases c with
    | empty => apply ih
    | literal value => apply ih
    | block b =>
      rw [Slots.shown, ih, List.filterMap_cons, Content.block?, List.filter_cons]
      cases b.isShown true <;> simp

theorem Block.shown_eq (b : Block) :
  b.shown = b :: (b.shownChildren ++ b.shownOccupants).flatMap Block.shown
  := by
  obtain ⟨face, children, slots⟩ := b
  rw [List.flatMap_append, Block.shownOccupants, Block.occupants, ← Slots.shown_eq_flatMap,
    Block.shownChildren, ← Forest.shown_eq_flatMap]
  cases children <;> rfl

/-- The visits that show something meet the shown blocks. -/
theorem Block.map_block_filter_visits {inSlot : Bool} {b : Block} {above : List Stop}
    (hb : b.isShown inSlot = true) (habove : ∀ s ∈ above, s.isHidden = false) :
  ((b.visits inSlot above).filter Visit.isShown).map Visit.block = b.shown
  := by
  induction b using Block.induct generalizing inSlot above with
  | step b ih =>
    have hstops := Block.forall_isHidden_cons hb habove
    rw [Block.filter_visits hb habove, Block.shown_eq, List.map_cons, List.map_append,
      List.map_flatMap, List.map_flatMap, List.flatMap_append]
    congr 2
    · apply List.flatMap_congr
      intro c hc
      obtain ⟨hmem, hshown⟩ := List.mem_filter.mp hc
      apply ih c (List.mem_append_left _ hmem) hshown hstops
    · apply List.flatMap_congr
      intro c hc
      obtain ⟨hmem, hshown⟩ := List.mem_filter.mp hc
      apply ih c (List.mem_append_right _ hmem) hshown hstops

/-- The blocks that become nodes are those of the visits on which no block is hidden. -/
theorem Forest.map_block_filter_visits (t : Forest) :
  ((Forest.visits [] t).filter Visit.isShown).map Visit.block = Forest.shown t
  := by
  rw [Forest.visits_eq_flatMap, Block.filter_flatMap_visits, List.map_flatMap,
    Forest.shown_eq_flatMap]
  apply List.flatMap_congr
  intro b hb
  apply Block.map_block_filter_visits (List.mem_filter.mp hb).2
  intro _ hs
  cases hs

/-- The nodes in the tree of a node show the shown blocks beneath its block, one for one. -/
theorem Node.Shows.walk {r : Registry} {n : Node} {b : Block} (h : n.Shows r b) :
  List.Forall₂ (Node.Shows r) n.walk b.shown
  := by
  induction b using Block.induct generalizing n with
  | step b ih =>
    rw [Node.walk_eq, Block.shown_eq]
    apply List.Forall₂.cons h
    cases h with
    | intro hown hnested hheld =>
      rw [Program.walk_eq_flatMap]
      apply forall₂_flatMap (List.rel_append hnested hheld)
      intro c hc m hm
      apply ih c _ hm
      rcases List.mem_append.mp hc with hc | hc
      · apply List.mem_append_left _ (List.mem_of_mem_filter hc)
      · apply List.mem_append_right _ (List.mem_of_mem_filter hc)

/-- The nodes that a walk of a program meets show the blocks that become nodes. -/
theorem Program.forall₂_walk (r : Registry) (now : UInt64) (t : Forest) :
  List.Forall₂ (Node.Shows r) (Program.walk (Program.ofForest r now t)) (Forest.shown t)
  := by
  rw [Program.walk_eq_flatMap, Forest.shown_eq_flatMap]
  apply forall₂_flatMap (Program.shows_ofForest r now t)
  intro b _ n hn
  apply hn.walk

/-- The ids of a program are the ids of the shown blocks, in order. -/
theorem Program.map_id_walk (r : Registry) (now : UInt64) (t : Forest) :
  (Program.walk (Program.ofForest r now t)).map Node.id = (Forest.shown t).map Block.id
  := by
  have hids : List.Forall₂ Eq ((Program.walk (Program.ofForest r now t)).map Node.id)
      ((Forest.shown t).map Block.id) := by
    rw [List.forall₂_map_left_iff, List.forall₂_map_right_iff]
    apply (Program.forall₂_walk r now t).imp
    intro n b h
    apply h.id_eq
  rw [List.forall₂_eq_eq_eq] at hids
  apply hids

/-- A program emits every block once and in order.  The blocks that become nodes are those of the walk
that are not hidden and not enclosed by a hidden block.  A walk of the program meets their ids, in the
order of the workspace; and its nodes show these blocks, each within the nodes that show the holder of
the block and what encloses that. -/
theorem Program.walk_ofForest (r : Registry) (now : UInt64) (t : Forest) :
  (Forest.visits [] t).map Visit.block = Forest.walk t
    ∧ Forest.shown t = ((Forest.visits [] t).filter Visit.isShown).map Visit.block
    ∧ (Program.walk (Program.ofForest r now t)).map Node.id = (Forest.shown t).map Block.id
    ∧ (Program.visits [] (Program.ofForest r now t)).map Prod.fst
      = Program.walk (Program.ofForest r now t)
    ∧ List.Forall₂ (Node.ShowsVisit r) (Program.visits [] (Program.ofForest r now t))
      ((Forest.visits [] t).filter Visit.isShown)
  := by
  exact ⟨Forest.map_block_visits t, (Forest.map_block_filter_visits t).symm,
    Program.map_id_walk r now t, Program.map_fst_visits [] _, Program.forall₂_visits r now t⟩

end BlockEditor
