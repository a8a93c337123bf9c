import BlockEditor.Block.Tree
import BlockEditor.Text.Lowercase
import BlockEditor.Text.Scan

/-!
# Templates

A template is an entry of the palette, from which blocks are made.
-/

namespace BlockEditor

structure Template where
  id : String
  label : String
  kind : Kind
  /-- The number of variables that the executor expects, if it is fixed. -/
  expectedVars : Option UInt64
deriving DecidableEq, Repr

namespace Template

/-- A new block of the template: nothing is in its slots, no operator is selected, and its
children container is empty if its kind nests children. -/
def instantiate (t : Template) (id : String) : Block where
  face := ⟨id, t.id, t.kind, t.label, none, false⟩
  children := if t.kind.acceptsChildren then some [] else none
  slots := t.kind.slots.map fun _ => .empty

/-- The block that stands for the template in the palette. -/
def paletteBlock (t : Template) : Block :=
  let b := t.instantiate t.id
  { b with face := { b.face with palette := true } }

/-- The template is found by the query: the query is empty, or its lower case is part of the
lower case of the id or the label or part of the executor's name of the category. -/
def matchesQuery (t : Template) (query : String) : Bool :=
  if query.isEmpty then true
  else
    let q := Text.lowercase query.toList
    Scan.contains q (Text.lowercase t.id.toList)
      || Scan.contains q (Text.lowercase t.label.toList)
      || Scan.contains q t.kind.category.wireName.toList

end Template

end BlockEditor
