import BlockEditor.Program.Outline

/-!
# Programs in one pass

`Program.serialize` writes the program of a workspace in one walk, which keeps the generator of names
and the names that may not be given out.  A value without a name of its own is given one as soon as the
walk meets it: those of a block come first, then those of its children, then those of the blocks in its
slots.  A position in a slot lends its variables to the holder when its own node is written.

It is the program that is written from the outline of the workspace.
-/

namespace BlockEditor

/-- What is kept while a program is written. -/
structure Pass where
  entropy : Entropy
  /-- The names that may not be given out. -/
  taken : List String

namespace Pass

/-- Before the first name is given out, the names of the registry are taken. -/
def start (r : Registry) (now : UInt64) : Pass :=
  ⟨.seeded now, r.takenNames⟩

/-- Gives out a synthetic name. -/
def name (now : UInt64) (p : Pass) : String × Pass :=
  let (name, entropy) := SyntheticName.fresh now p.entropy p.taken
  (name, ⟨entropy, name :: p.taken⟩)

/-- The variable for a value without a name. -/
def unnamed (now : UInt64) (value : Option String) (p : Pass) : Variable × Pass :=
  let (name, p) := p.name now
  (⟨name, name, Category.var.wireName, value⟩, p)

/-- The variable that a variable block stands for, if its name has an entry. -/
def bound? (r : Registry) (b : Block) : Option Variable :=
  (r.lookup? b.label).map fun e => ⟨b.id, b.label, Category.var.wireName, e.value⟩

/-- The variables that slots add, in order. -/
def slotVariables (r : Registry) (now : UInt64) : Slots → Pass → List Variable × Pass
  | [], p => ([], p)
  | .empty :: cs, p => slotVariables r now cs p
  | .literal value :: cs, p =>
    let (v, p) := p.unnamed now (some value)
    let (vs, p) := slotVariables r now cs p
    (v :: vs, p)
  | .block b :: cs, p =>
    if b.category = .var then
      match bound? r b with
      | none => slotVariables r now cs p
      | some v =>
        let (vs, p) := slotVariables r now cs p
        (v :: vs, p)
    else slotVariables r now cs p

/-- The variable for an axis whose slot has the given content. -/
def axisVariable (r : Registry) (now : UInt64) (content : Option (Content Block)) (p : Pass) :
    Variable × Pass :=
  match content with
  | some (.literal value) => p.unnamed now (some value)
  | some (.block b) =>
    if b.category = .var then
      match bound? r b with
      | none => p.unnamed now none
      | some v => (v, p)
    else p.unnamed now none
  | _ => p.unnamed now none

/-- The variables for axes whose slots have the given positions. -/
def axisVariables (r : Registry) (now : UInt64) (slots : Slots) :
    List Nat → Pass → List Variable × Pass
  | [], p => ([], p)
  | i :: is, p =>
    let (v, p) := axisVariable r now slots[i]? p
    let (vs, p) := axisVariables r now slots is p
    (v :: vs, p)

/-- The variables of a block on its own. -/
def ownVariables (r : Registry) (now : UInt64) (face : Face) (slots : Slots) (p : Pass) :
    List Variable × Pass :=
  if face.kind.category = .pos then
    axisVariables r now slots (Outline.axisSlots face.kind) p
  else slotVariables r now slots p

end Pass

mutual

/-- The node of a block. -/
def Block.serialize (r : Registry) (now : UInt64) : Block → Pass → Node × Pass
  | ⟨face, children, slots⟩, p =>
    let (own, p) := Pass.ownVariables r now face slots p
    let (nested, p) :=
      match children with
      | some blocks => Forest.serialize r now blocks p
      | none => ([], p)
    let (vars, nodes, p) := Slots.serialize r now slots own nested p
    (⟨face.id, face.kind.category.wireName, face.wireText, vars, nodes⟩, p)

/-- The nodes of the placed blocks of a list. -/
def Forest.serialize (r : Registry) (now : UInt64) : List Block → Pass → List Node × Pass
  | [], p => ([], p)
  | b :: bs, p =>
    if b.face.palette then Forest.serialize r now bs p
    else
      let (n, p) := b.serialize r now p
      let (ns, p) := Forest.serialize r now bs p
      (n :: ns, p)

/-- Adds the nodes of the blocks in slots to the nodes of their holder, and the variables that
positions among them lend to its variables. -/
def Slots.serialize (r : Registry) (now : UInt64) :
    List (Content Block) → List Variable → List Node → Pass → List Variable × List Node × Pass
  | [], vars, nodes, p => (vars, nodes, p)
  | .block b :: cs, vars, nodes, p =>
    if b.face.kind.category = .var || b.face.palette then Slots.serialize r now cs vars nodes p
    else
      let (n, p) := b.serialize r now p
      let vars := if b.face.kind.category = .pos then vars ++ n.vars else vars
      Slots.serialize r now cs vars (nodes ++ [n]) p
  | _ :: cs, vars, nodes, p => Slots.serialize r now cs vars nodes p

end

/-- The program of a workspace at the given time, written in one pass. -/
def Program.serialize (r : Registry) (now : UInt64) (t : Forest) : Program :=
  (Forest.serialize r now t (.start r now)).1

end BlockEditor
