import BlockEditor.Block.Codec

/-!
# Programs

A program is a list of nodes, the form in which the executor reads a workspace.  A node carries
the variables of its block and the nodes of the blocks that its block holds.
-/

namespace BlockEditor

/-- A reference to a variable, with its value when the program was written. -/
structure Variable where
  id : String
  text : String
  type : String
  value : Option String
deriving DecidableEq, Repr

/-- What the executor reads of a block. -/
structure Node where
  id : String
  type : String
  text : String
  vars : List Variable
  children : List Node
deriving Repr

/-- The nodes at the top level. -/
abbrev Program := List Node

mutual

/-- The first node with the given id, a node before its children. -/
def Node.find? (id : String) : Node → Option Node
  | ⟨nodeId, type, text, vars, children⟩ =>
    if nodeId = id then some ⟨nodeId, type, text, vars, children⟩
    else Program.find? id children

/-- The first node with the given id, through the nodes of the list in order. -/
def Program.find? (id : String) : List Node → Option Node
  | [] => none
  | n :: ns =>
    match n.find? id with
    | some found => some found
    | none => Program.find? id ns

end

namespace Variable

def toJson (v : Variable) : Json :=
  .record [
    ("id", .text v.id),
    ("text", .text v.text),
    ("type", .text v.type),
    ("value", .ofOption .text v.value)]

/-- Reads a variable; a value that is left off is none. -/
def decoder : Decoder Variable := fun n v => do
  let r ← Record.decoder ["id", "text", "type", "value"] n v
  let id ← r.required "id" Decoder.text
  let text ← r.required "text" Decoder.text
  let type ← r.required "type" Decoder.text
  let value ← r.optional "value" Decoder.text
  return ⟨id, text, type, value⟩

end Variable

mutual

def Node.toJson : Node → Json
  | ⟨id, type, text, vars, children⟩ =>
    .record [
      ("id", .text id),
      ("type", .text type),
      ("text", .text text),
      ("variables", .ofList Variable.toJson vars),
      ("children", .array (Program.elements children))]

def Program.elements : List Node → List Json
  | [] => []
  | n :: ns => n.toJson :: Program.elements ns

end

/-- The JSON array of the nodes of a program. -/
def Program.toJson (p : Program) : Json :=
  .array (Program.elements p)

namespace Node

mutual

/-- Reads a node.  A node within another one is two steps deeper than that, so the number of
arrays and objects that may be opened bounds the depth of the nodes. -/
def decoder : Decoder Node
  | 0, _ => none
  | n + 1, v => do
    let r ← Record.decoder ["id", "type", "text", "variables", "children"] (n + 1) v
    let id ← r.required "id" Decoder.text
    let type ← r.required "type" Decoder.text
    let text ← r.required "text" Decoder.text
    let vars ← r.defaulted "variables" [] Variable.decoder.list
    -- a field of `r` may open `n` arrays and objects
    let children ← r.defaulted "children" [] fun _ => listDecoder n
    return ⟨id, type, text, vars, children⟩

/-- Reads an array of nodes. -/
def listDecoder : Decoder (List Node)
  | n + 1, .array vs => vs.mapM (decoder n)
  | _, _ => none

end

end Node

end BlockEditor
