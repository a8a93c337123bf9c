import BlockEditor.Palette.Catalog
import BlockEditor.Palette.Registry
import BlockEditor.Program.Node

/-!
# Checking a program

The executor refuses a node whose number of variables is not what it expects.  `Program.check`
finds such nodes beforehand, and with them nodes without an operator, without a position to move
to, and variables without a value.
-/

namespace BlockEditor

/-- What is wrong with a node. -/
inductive Issue where
  | arityMismatch (blockId : String) (expected found : Nat)
  | missingOperator (blockId : String)
  | missingPosition (blockId : String)
  | unsetValue (blockId variableName : String)
deriving DecidableEq, Repr

namespace Issue

/-- The id of the node that the issue is about. -/
def about : Issue → String
  | arityMismatch id _ _ => id
  | missingOperator id => id
  | missingPosition id => id
  | unsetValue id _ => id

def message : Issue → String
  | arityMismatch id expected found =>
    s!"block `{id}` expects {expected} variables, found {found}"
  | missingOperator id => s!"block `{id}` has no operator selected"
  | missingPosition id => s!"block `{id}` has no position to move to"
  | unsetValue id name => s!"variable `{name}` of block `{id}` has no value"

def toJson : Issue → Json
  | arityMismatch id expected found =>
    .record [
      ("issue", .text "arity_mismatch"),
      ("block_id", .text id),
      ("expected", .ofNat expected),
      ("found", .ofNat found)]
  | missingOperator id =>
    .record [("issue", .text "missing_operator"), ("block_id", .text id)]
  | missingPosition id =>
    .record [("issue", .text "missing_position"), ("block_id", .text id)]
  | unsetValue id name =>
    .record [("issue", .text "unset_value"), ("block_id", .text id), ("variable", .text name)]

end Issue

namespace Node

/-- The template of a node, by its id: the one of the catalog if the id has a stamp and the
catalog knows what stands before it, and otherwise the one of the registry, for which the stamp
may be empty. -/
def template? (c : Catalog) (r : Registry) (id : String) : Option Template :=
  match c.templateForInstance? id with
  | some t => some t
  | none =>
    match InstanceId.split? id with
    | some (base, _) => r.template? base
    | none => none

/-- What is wrong with a node of the given template. -/
def templateIssues (n : Node) (t : Template) : List Issue :=
  let arity :=
    match t.expectedVars with
    | some expected =>
      if n.vars.length = expected.toNat then []
      else [.arityMismatch n.id expected.toNat n.vars.length]
    | none => []
  let operator :=
    if !t.kind.operators.isEmpty && n.text == t.label then [.missingOperator n.id] else []
  let position :=
    if t.kind.slots.any SlotSpec.isPosition
        && !n.children.any fun child => child.type == Category.pos.wireName then
      [.missingPosition n.id]
    else []
  arity ++ operator ++ position

/-- A child of the node has a variable with the same id, from which this one was lent. -/
def isLent (n : Node) (v : Variable) : Bool :=
  n.children.any fun child => child.vars.any fun w => w.id == v.id

/-- The synthetic variables of a node that have no value.  A synthetic variable has its name for
an id, and the name is not in the registry.  Lent variables count where they come from. -/
def valueIssues (r : Registry) (n : Node) : List Issue :=
  (n.vars.filter fun v =>
    v.value.isNone && v.id == v.text && !n.isLent v && (r.lookup? v.text).isNone).map
      fun v => .unsetValue n.id v.text

/-- What is wrong with a node itself. -/
def ownIssues (c : Catalog) (r : Registry) (n : Node) : List Issue :=
  (match template? c r n.id with
    | some t => n.templateIssues t
    | none => [])
  ++ n.valueIssues r

end Node

mutual

/-- What is wrong with a node and the nodes beneath it, a node before its children. -/
def Node.check (c : Catalog) (r : Registry) : Node → List Issue
  | ⟨id, type, text, vars, children⟩ =>
    Node.ownIssues c r ⟨id, type, text, vars, children⟩ ++ Program.check c r children

/-- What is wrong with the nodes of a program. -/
def Program.check (c : Catalog) (r : Registry) : List Node → List Issue
  | [] => []
  | n :: ns => n.check c r ++ Program.check c r ns

end

end BlockEditor
