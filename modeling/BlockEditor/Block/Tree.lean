import BlockEditor.Block.Kind

/-!
# Trees of blocks

A block owns the blocks in its children container and the blocks in its slots.  A workspace is
a list of blocks, the top level.  `walk` lists all blocks of a tree in pre-order, a block before
what it holds and its children before the occupants of its slots.

Functions on blocks are defined together on blocks, on lists of blocks and on lists of slots:
`Block.walk`, `Forest.walk`, `Slots.walk`.
-/

namespace BlockEditor

/-- What a slot holds. -/
inductive Content (α : Type) where
  | empty
  /-- A typed value. -/
  | literal (value : String)
  | block (occupant : α)
deriving DecidableEq, Repr, Inhabited

namespace Content

variable {α : Type}

/-- The block in the slot. -/
def block? : Content α → Option α
  | .block b => some b
  | _ => none

def isEmpty : Content α → Bool
  | .empty => true
  | _ => false

end Content

/-- What is known of a block apart from what it holds. -/
structure Face where
  id : String
  /-- The id of the template that the block was made from. -/
  templateId : String
  kind : Kind
  label : String
  /-- The selected operator. -/
  operator : Option String
  /-- The block is an entry of the palette and not a placed block. -/
  palette : Bool
deriving DecidableEq, Repr

namespace Face

/-- The label, followed by the given form of the selected operator. -/
def textWith (f : Face) (form : String → String) : String :=
  match f.operator with
  | some operator => if operator.isEmpty then f.label else f.label ++ " " ++ form operator
  | none => f.label

/-- The displayed text: the label and the selected operator. -/
def text (f : Face) : String :=
  f.textWith fun operator => operator

/-- The text that the executor reads: the label and the token of the selected operator. -/
def wireText (f : Face) : String :=
  f.textWith f.kind.wireOperator

end Face

/-- A block, with all that it holds. -/
structure Block where
  face : Face
  /-- The children container, if the block has one. -/
  children : Option (List Block)
  slots : List (Content Block)
deriving Repr

/-- The blocks of a workspace at its top level. -/
abbrev Forest := List Block

/-- The contents of the slots of a block. -/
abbrev Slots := List (Content Block)

namespace Block

def id (b : Block) : String := b.face.id

def templateId (b : Block) : String := b.face.templateId

def kind (b : Block) : Kind := b.face.kind

/-- The category of its kind. -/
def category (b : Block) : Category := b.face.kind.category

def label (b : Block) : String := b.face.label

def operator (b : Block) : Option String := b.face.operator

def palette (b : Block) : Bool := b.face.palette

/-- The displayed text of the block. -/
def text (b : Block) : String := b.face.text

/-- The text of the block that the executor reads. -/
def wireText (b : Block) : String := b.face.wireText

/-- The blocks in the children container. -/
def childList (b : Block) : List Block :=
  b.children.getD []

/-- The blocks in the slots. -/
def occupants (b : Block) : List Block :=
  b.slots.filterMap Content.block?

end Block

mutual

/-- The block and all blocks beneath it, in pre-order. -/
def Block.walk : Block → List Block
  | ⟨face, children, slots⟩ =>
    ⟨face, children, slots⟩ ::
      ((match children with
        | some blocks => Forest.walk blocks
        | none => []) ++ Slots.walk slots)

/-- The blocks of the list and all blocks beneath them, in pre-order. -/
def Forest.walk : List Block → List Block
  | [] => []
  | b :: bs => b.walk ++ Forest.walk bs

/-- The occupants of the slots and all blocks beneath them, in pre-order. -/
def Slots.walk : List (Content Block) → List Block
  | [] => []
  | .block b :: cs => b.walk ++ Slots.walk cs
  | _ :: cs => Slots.walk cs

end

mutual

/-- The number of blocks in the tree of the block. -/
def Block.size : Block → Nat
  | ⟨_, children, slots⟩ =>
    1 + (match children with
      | some blocks => Forest.size blocks
      | none => 0) + Slots.size slots

/-- The number of blocks in the trees of the list. -/
def Forest.size : List Block → Nat
  | [] => 0
  | b :: bs => b.size + Forest.size bs

/-- The number of blocks in the trees of the occupants. -/
def Slots.size : List (Content Block) → Nat
  | [] => 0
  | .block b :: cs => b.size + Slots.size cs
  | _ :: cs => Slots.size cs

end

/-- The ids of all blocks, in pre-order. -/
def Forest.ids (t : Forest) : List String :=
  (Forest.walk t).map Block.id

/-- A list of blocks is walked one block after another. -/
theorem Forest.walk_eq_flatMap (t : Forest) :
  Forest.walk t = t.flatMap Block.walk
  := by
  induction t with
  | nil => rfl
  | cons b bs ih => simp [Forest.walk, ih]

/-- Slots are walked one occupant after another; typed values are passed over. -/
theorem Slots.walk_eq_flatMap (cs : Slots) :
  Slots.walk cs = (cs.filterMap Content.block?).flatMap Block.walk
  := by
  induction cs with
  | nil => rfl
  | cons c cs ih => cases c <;> simp [Slots.walk, List.filterMap_cons, Content.block?, ih]

/-- A walk is the block followed by the walks of what it holds. -/
theorem Block.walk_eq (b : Block) :
  b.walk = b :: (b.childList ++ b.occupants).flatMap Block.walk
  := by
  obtain ⟨face, children, slots⟩ := b
  cases children <;>
    simp [Block.walk, Block.childList, Block.occupants, Forest.walk_eq_flatMap,
      Slots.walk_eq_flatMap]

end BlockEditor
