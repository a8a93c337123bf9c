import BlockEditor.Executor.Feedback
import BlockEditor.Gesture.Canvas
import BlockEditor.Palette.Stock
import BlockEditor.Program.Check
import BlockEditor.Program.Outline
import BlockEditor.Program.Request
import BlockEditor.Workspace.Purge

/-!
# Editing sessions

An editor joins a catalog, a registry and a canvas.  It has the operations that concern more than
one of them, such as the removal of a name with every placed block that stands for it, and the
edits of a placed block that need no gesture.
-/

namespace BlockEditor

/-- Everything that a session changes, and the catalog, which it does not. -/
structure Editor where
  catalog : Catalog
  registry : Registry
  canvas : Canvas

/-- Why an edit of a placed block is refused. -/
inductive EditError where
  | unknownBlock (id : String)
  | noSuchSlot (block : String) (slot : Nat)
  | notLiteralSlot (block : String) (slot : Nat)
  | slotOccupied (block : String) (slot : Nat)
  | unknownOperator (block operator : String)
deriving DecidableEq, Repr

def EditError.message : EditError → String
  | .unknownBlock id => s!"unknown block `{id}`"
  | .noSuchSlot block slot => s!"block `{block}` has no slot {slot}"
  | .notLiteralSlot block slot => s!"slot {slot} of `{block}` does not take typed values"
  | .slotOccupied block slot => s!"slot {slot} of `{block}` holds a block"
  | .unknownOperator block operator => s!"`{operator}` is not an operator of `{block}`"

namespace Editor

/-- An editor with an empty workspace. -/
def new (catalog : Catalog) (registry : Registry) (clock : Clock) : Editor :=
  ⟨catalog, registry, .ofForest [] clock⟩

/-- An editor with an empty workspace, the stock catalog and the standard registry. -/
def standard (clock : Clock) : Editor :=
  .new .stock .standard clock

/-- The workspace. -/
def tree (e : Editor) : Forest :=
  e.canvas.tree

/-- The palette: the catalog followed by the registry. -/
def palette (e : Editor) : Palette :=
  .both e.catalog e.registry

/-- Every template of the palette, those of the catalog first. -/
def paletteTemplates (e : Editor) : List Template :=
  e.catalog.templates ++ e.registry.templates

/-- The editor with another workspace. -/
def withTree (e : Editor) (t : Forest) : Editor :=
  { e with canvas := { e.canvas with tree := t } }

/-! ### Names -/

/-- Adds a name: whether that is accepted, and the editor afterwards. -/
def enterName (e : Editor) (name : String) (kind : Registry.EntryKind) :
    Except NameError Unit × Editor :=
  let (result, r) := e.registry.enter name kind
  (result.map fun _ => (), { e with registry := r })

/-- The editor with a name added, unless the name is refused. -/
def addName (e : Editor) (name : String) (kind : Registry.EntryKind) :
    Except NameError Editor :=
  accepted (e.enterName name kind)

def addVariable (e : Editor) (name : String) : Except NameError Editor :=
  e.addName name .var

def addPosition (e : Editor) (name : String) : Except NameError Editor :=
  e.addName name .position

/-- Removes a name with every placed block that stands for it; the ids of the removed blocks. -/
def removeName (e : Editor) (name : String) : List String × Editor :=
  match e.registry.remove name with
  | (none, r) => ([], { e with registry := r })
  | (some _, r) =>
    let (removed, t) := Forest.purge (Registry.paletteId name) e.tree
    (removed, { e.withTree t with registry := r })

/-- Sets the value of a variable: whether there is one, and the editor afterwards. -/
def assignValue (e : Editor) (name value : String) : Except NameError Unit × Editor :=
  let (result, r) := e.registry.assign name (some value)
  (result, { e with registry := r })

/-- The editor with a variable of another value, if there is one of that name. -/
def setVariableValue (e : Editor) (name value : String) : Except NameError Editor :=
  accepted (e.assignValue name value)

/-! ### Gestures -/

/-- Opens a gesture, in the place of one that is open. -/
def startDrag (e : Editor) (source : Source) : Editor :=
  { e with canvas := e.canvas.start source }

def cancelDrag (e : Editor) : Editor :=
  { e with canvas := e.canvas.cancel }

/-- What a drop on the target would do. -/
def hover (e : Editor) (layout : Layout) (target : Target) : Except Rejection Action :=
  e.canvas.hover e.palette layout target

/-- Ends the gesture over the target. -/
def drop (e : Editor) (layout : Layout) (target : Target) :
    Except Rejection Outcome × Editor :=
  let (result, canvas) := e.canvas.drop e.palette layout target
  (result, { e with canvas := canvas })

/-- Empties the workspace, if that is confirmed. -/
def clear (e : Editor) (confirmed : Bool) : Editor :=
  { e with canvas := e.canvas.clear confirmed }

/-! ### Edits of a placed block -/

/-- Changes a block unless `check` finds a reason against it. -/
def attempt (check : Block → Except EditError Unit) (change : Block → Block) (b : Block) :
    Except EditError Unit × Block :=
  match check b with
  | .error reason => (.error reason, b)
  | .ok () => (.ok (), change b)

/-- Edits the first block with the given id in its place: what the attempt leaves is put there,
whether it was refused or not. -/
def edit (e : Editor) (id : String) (check : Block → Except EditError Unit)
    (change : Block → Block) : Except EditError Unit × Editor :=
  match Forest.find? id e.tree with
  | none => (.error (.unknownBlock id), e)
  | some b =>
    let (result, b) := attempt check change b
    (result, e.withTree ((Forest.update? id (fun _ => b) e.tree).getD e.tree))

/-- Why a value cannot be typed into a slot, if it cannot: the kind has no such slot, the slot
takes no typed values, the block lacks the slot, or a block is in it. -/
def checkLiteral (id : String) (slot : Nat) (b : Block) : Except EditError Unit :=
  match b.kind.slots[slot]? with
  | none => .error (.noSuchSlot id slot)
  | some spec =>
    if spec.literal then
      match b.slots[slot]? with
      | none => .error (.noSuchSlot id slot)
      | some (.block _) => .error (.slotOccupied id slot)
      | some _ => .ok ()
    else .error (.notLiteralSlot id slot)

/-- The content of a slot into which a value is typed.  The empty value empties the slot. -/
def typed (value : String) : Content Block :=
  if value.isEmpty then .empty else .literal value

/-- Types a value into a slot. -/
def typeLiteral (e : Editor) (id : String) (slot : Nat) (value : String) :
    Except EditError Unit × Editor :=
  e.edit id (checkLiteral id slot) fun b =>
    { b with slots := b.slots.set slot (typed value) }

/-- The editor with a value typed into a slot, unless that is refused. -/
def setLiteral (e : Editor) (id : String) (slot : Nat) (value : String) :
    Except EditError Editor :=
  accepted (e.typeLiteral id slot value)

/-- An operator can be selected if it is one of the kind's operators. -/
def checkOperator (id : String) (operator : Option String) (b : Block) :
    Except EditError Unit :=
  match operator with
  | none => .ok ()
  | some operator =>
    if b.kind.operators.contains operator then .ok ()
    else .error (.unknownOperator id operator)

/-- Selects an operator, or none. -/
def selectOperator (e : Editor) (id : String) (operator : Option String) :
    Except EditError Unit × Editor :=
  e.edit id (checkOperator id operator) fun b =>
    { b with face := { b.face with operator := operator } }

/-- The editor with an operator selected, unless that is refused. -/
def setOperator (e : Editor) (id : String) (operator : Option String) :
    Except EditError Editor :=
  accepted (e.selectOperator id operator)

/-! ### Programs -/

/-- The program of the workspace at the next reading of the clock. -/
def program (e : Editor) : Program :=
  .ofForest e.registry e.canvas.clock.now e.tree

/-- What is wrong with the program at the next reading of the clock. -/
def preflight (e : Editor) : List Issue :=
  Program.check e.catalog e.registry e.program

/-- The request that submits the program at the next reading of the clock. -/
def submission (e : Editor) (endpoint : String) : Request :=
  .ofProgram endpoint e.program

/-- The editor after a reading of the clock. -/
def tick (e : Editor) : Editor :=
  { e with canvas := { e.canvas with clock := e.canvas.clock.tick } }

/-- The place of the block that a message is about. -/
def locateFeedback? (e : Editor) (f : Feedback) : Option Location :=
  f.blockId?.bind fun id => Forest.locate? id e.tree

end Editor

end BlockEditor
