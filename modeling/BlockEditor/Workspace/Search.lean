import BlockEditor.Block.Tree

/-!
# Searching a workspace

Blocks are addressed by id and containers by `Container`.  `find?` returns the first block with
an id in the order of `walk`.  `locate?` returns the place where a block sits; it looks at
everything that a block holds directly before it looks deeper.
-/

namespace BlockEditor

/-- A place that holds blocks. -/
inductive Container where
  /-- The top level of the workspace. -/
  | root
  /-- The children container of a block. -/
  | children (block : String)
  /-- A slot of a block. -/
  | slot (block : String) (slot : Nat)
deriving DecidableEq, Repr

/-- The place of a block. -/
structure Location where
  container : Container
  /-- The position within the container, `0` within a slot. -/
  index : Nat
deriving DecidableEq, Repr

mutual

/-- The first block with the given id in the tree of a block. -/
def Block.find? (id : String) : Block → Option Block
  | ⟨face, children, slots⟩ =>
    if face.id = id then some ⟨face, children, slots⟩
    else
      (match children with
        | some blocks => Forest.find? id blocks
        | none => none)
        <|> Slots.find? id slots

/-- The first block with the given id in a list of trees. -/
def Forest.find? (id : String) : List Block → Option Block
  | [] => none
  | b :: bs => b.find? id <|> Forest.find? id bs

/-- The first block with the given id in the trees of the occupants. -/
def Slots.find? (id : String) : List (Content Block) → Option Block
  | [] => none
  | .block b :: cs => b.find? id <|> Slots.find? id cs
  | _ :: cs => Slots.find? id cs

end

mutual

/-- The block or a block beneath it has the given id. -/
def Block.contains (id : String) : Block → Bool
  | ⟨face, children, slots⟩ =>
    face.id == id
      || (match children with
        | some blocks => Forest.contains id blocks
        | none => false)
      || Slots.contains id slots

def Forest.contains (id : String) : List Block → Bool
  | [] => false
  | b :: bs => b.contains id || Forest.contains id bs

def Slots.contains (id : String) : List (Content Block) → Bool
  | [] => false
  | .block b :: cs => b.contains id || Slots.contains id cs
  | _ :: cs => Slots.contains id cs

end

namespace Slots

/-- The first slot whose occupant has the given id. -/
def indexOf? (id : String) (cs : Slots) : Option Nat :=
  cs.findIdx? fun c =>
    match c with
    | .block b => b.id = id
    | _ => false

end Slots

namespace Forest

/-- The position of the first block of the list with the given id. -/
def indexOf? (id : String) (bs : Forest) : Option Nat :=
  bs.findIdx? fun b => b.id = id

end Forest

mutual

/-- The place of a block beneath the given one: among its children, in its slots, or else
further down, beneath its children before its occupants. -/
def Block.locate? (id : String) : Block → Option Location
  | ⟨face, children, slots⟩ =>
    (Forest.indexOf? id (children.getD [])).map (fun index => ⟨.children face.id, index⟩)
      <|> (Slots.indexOf? id slots).map (fun slot => ⟨.slot face.id slot, 0⟩)
      <|> (match children with
        | some blocks => Forest.locateBeneath? id blocks
        | none => none)
      <|> Slots.locateBeneath? id slots

/-- The place of a block beneath the blocks of a list. -/
def Forest.locateBeneath? (id : String) : List Block → Option Location
  | [] => none
  | b :: bs => b.locate? id <|> Forest.locateBeneath? id bs

/-- The place of a block beneath the occupants of slots. -/
def Slots.locateBeneath? (id : String) : List (Content Block) → Option Location
  | [] => none
  | .block b :: cs => b.locate? id <|> Slots.locateBeneath? id cs
  | _ :: cs => Slots.locateBeneath? id cs

end

namespace Forest

/-- The place of a block in a workspace. -/
def locate? (id : String) (t : Forest) : Option Location :=
  (indexOf? id t).map (fun index => ⟨.root, index⟩) <|> locateBeneath? id t

/-- The blocks of a container that holds a list of blocks, if there is such a container. -/
def sequence? (t : Forest) : Container → Option (List Block)
  | .root => some t
  | .children id => (find? id t).bind Block.children
  | .slot _ _ => none

end Forest

end BlockEditor
