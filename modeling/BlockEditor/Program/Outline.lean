import BlockEditor.Palette.Registry
import BlockEditor.Program.Node

/-!
# Outlines of programs

A program is written in two stages.  The outline of a workspace says which blocks become nodes
and which variables each of them has; values without a name of their own are blanks in it.
Writing an outline gives every blank a synthetic name.  So the outline is the program without its
synthetic names, and depends on neither the time nor the names that are taken.

Entries of the palette are left out with all they hold.  A variable block in a slot becomes a
variable of the node.  Other blocks in slots become nodes behind the children, and a position
among them lends its variables to the node that holds it.
-/

namespace BlockEditor

namespace Outline

/-- A variable of an outline. -/
inductive Part where
  /-- A variable block: its id, the name it stands for and the value of that name. -/
  | bound (id name : String) (value : Option String)
  /-- A value without a name; none for an axis of a position that is not given. -/
  | blank (value : Option String)
deriving DecidableEq, Repr

namespace Part

/-- The number of blanks. -/
def blanks : List Part → Nat
  | [] => 0
  | bound _ _ _ :: ps => blanks ps
  | blank _ :: ps => blanks ps + 1

/-- The variables with the names of the blanks, the first of which has the number `next`. -/
def write (name : Nat → String) (next : Nat) : List Part → List Variable
  | [] => []
  | bound id text value :: ps =>
    ⟨id, text, Category.var.wireName, value⟩ :: write name next ps
  | blank value :: ps =>
    ⟨name next, name next, Category.var.wireName, value⟩ :: write name (next + 1) ps

end Part

/-- The variable that a variable block stands for, if its name has an entry. -/
def bound? (r : Registry) (b : Block) : Option Part :=
  (r.lookup? b.label).map fun e => .bound b.id b.label e.value

/-- What a slot adds to the variables of its block: a typed value, or the variable that is in
it.  A variable block whose name has no entry adds nothing. -/
def slotPart? (r : Registry) : Content Block → Option Part
  | .empty => none
  | .literal value => some (.blank (some value))
  | .block b => if b.category = .var then bound? r b else none

/-- The names of the axes, in order. -/
def axes : List String := ["X", "Y", "Z"]

/-- The positions of the slots that stand for the axes: the slots that are named after them, or
the first three if one of the names is missing. -/
def axisSlots (k : Kind) : List Nat :=
  match axes.mapM fun axis => k.slots.findIdx? fun s => s.name = some axis with
  | some indices => indices
  | none => List.range axes.length

/-- The variable for an axis whose slot has the given content.  An axis has a variable whatever
is in its slot, and even if there is no slot. -/
def axisPart (r : Registry) (content : Option (Content Block)) : Part :=
  (content.bind (slotPart? r)).getD (.blank none)

/-- The variables of a block on its own: one for each axis of a position, and for other blocks
what their slots add, in order. -/
def ownParts (r : Registry) (face : Face) (slots : Slots) : List Part :=
  if face.kind.category = .pos then
    (axisSlots face.kind).map fun i => axisPart r slots[i]?
  else slots.filterMap (slotPart? r)

end Outline

structure Outline where
  face : Face
  /-- The variables of the block on its own. -/
  own : List Outline.Part
  /-- The outlines of the children. -/
  nested : List Outline
  /-- The outlines of the blocks in slots that become nodes. -/
  held : List Outline
deriving Repr

mutual

def Block.outline (r : Registry) : Block → Outline
  | ⟨face, children, slots⟩ =>
    ⟨face, Outline.ownParts r face slots,
      (match children with
        | some blocks => Forest.outline r blocks
        | none => []),
      Slots.outline r slots⟩

/-- The outlines of the placed blocks of a list. -/
def Forest.outline (r : Registry) : List Block → List Outline
  | [] => []
  | b :: bs =>
    if b.face.palette then Forest.outline r bs else b.outline r :: Forest.outline r bs

/-- The outlines of the blocks in slots that are placed blocks and not variables. -/
def Slots.outline (r : Registry) : List (Content Block) → List Outline
  | [] => []
  | .block b :: cs =>
    if b.face.kind.category = .var || b.face.palette then Slots.outline r cs
    else b.outline r :: Slots.outline r cs
  | _ :: cs => Slots.outline r cs

end

mutual

/-- The number of blanks in an outline. -/
def Outline.blanks : Outline → Nat
  | ⟨_, own, nested, held⟩ =>
    Outline.Part.blanks own + Outline.blanksOfAll nested + Outline.blanksOfAll held

def Outline.blanksOfAll : List Outline → Nat
  | [] => 0
  | o :: os => o.blanks + Outline.blanksOfAll os

end

namespace Outline

/-- The variables that nodes lend to the node that holds them: those of positions. -/
def lent (held : List Node) : List Variable :=
  (held.filter fun n => n.type == Category.pos.wireName).flatMap Node.vars

end Outline

mutual

/-- The node of an outline with the names of its blanks, the first of which has the number
`next`.  The blanks of a block come first, then those of its children, then those of the blocks
in its slots. -/
def Outline.write (name : Nat → String) (next : Nat) : Outline → Node
  | ⟨face, own, nested, held⟩ =>
    let afterOwn := next + Outline.Part.blanks own
    let nodes := Outline.writeAll name afterOwn nested
    let heldNodes := Outline.writeAll name (afterOwn + Outline.blanksOfAll nested) held
    ⟨face.id, face.kind.category.wireName, face.wireText,
      Outline.Part.write name next own ++ Outline.lent heldNodes, nodes ++ heldNodes⟩

def Outline.writeAll (name : Nat → String) (next : Nat) : List Outline → List Node
  | [] => []
  | o :: os => o.write name next :: Outline.writeAll name (next + o.blanks) os

end

namespace Program

/-- The names for the blanks of a program that is written at the given time: none is taken in
the registry, and no two are equal. -/
def syntheticNames (r : Registry) (now : UInt64) (count : Nat) : List String :=
  SyntheticName.several now (.seeded now) r.takenNames count

/-- The program of a workspace at the given time. -/
def ofForest (r : Registry) (now : UInt64) (t : Forest) : Program :=
  let outlines := Forest.outline r t
  let names := syntheticNames r now (Outline.blanksOfAll outlines)
  Outline.writeAll (fun number => names.getD number "") 0 outlines

end Program

end BlockEditor
