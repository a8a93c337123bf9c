import BlockEditor.Block.Codec
import BlockEditor.Json.Reader
import BlockEditor.Json.Writer

/-!
# Scripts

A script describes an editing session: names to register, then steps such as dragging a template
into a block that was placed before.  Steps call placed blocks by handles that the script chooses,
since the ids of placed blocks depend on the time.

A script is stored as JSON.  A step names its operation in the field `op`; a target is a word or
a word in front of its data.
-/

namespace BlockEditor

namespace Script

/-- A variable to register, and the value to give it. -/
structure NewVariable where
  name : String
  value : Option String
deriving DecidableEq, Repr

/-- Where a drag of a script ends.  Blocks are called by their handles. -/
inductive Aim where
  /-- Below everything at the top level. -/
  | workspace
  /-- At the end of the list that a drop over the block inserts into. -/
  | into (handle : String)
  /-- In front of a block, in the list that holds it. -/
  | before (handle : String)
  | slot (handle : String) (slot : UInt64)
  | trash
  | outside
deriving DecidableEq, Repr

/-- One step of a script.  Placed blocks are called by their handles. -/
inductive Step where
  /-- Drags a template; `handle` names the placed block from then on. -/
  | place (template : String) (into : Aim) (handle : Option String)
  /-- Drags a placed block. -/
  | move (block : String) (into : Aim)
  /-- Throws a placed block away. -/
  | delete (block : String)
  | literal (block : String) (slot : UInt64) (value : String)
  | operator (block : String) (operator : Option String)
  /-- Empties the workspace. -/
  | clear
  | removeName (name : String)
deriving DecidableEq, Repr

end Script

/-- The names that a session starts with, and the steps that follow. -/
structure Script where
  /-- The variables to register, with the values to give them. -/
  newVariables : List Script.NewVariable
  /-- The positions to register. -/
  newPositions : List String
  steps : List Script.Step
deriving DecidableEq, Repr

namespace Script

namespace NewVariable

def toJson (v : NewVariable) : Json :=
  .record [("name", .text v.name), ("value", .ofOption .text v.value)]

/-- Reads a variable to register, which may come without a value. -/
def decoder : Decoder NewVariable := fun n v => do
  let r ← Record.decoder ["name", "value"] n v
  let name ← r.required "name" Decoder.text
  let value ← r.defaulted "value" none Decoder.text.nullable
  return ⟨name, value⟩

end NewVariable

namespace Aim

def toJson : Aim → Json
  | workspace => .text "workspace"
  | into handle => .record [("into", .text handle)]
  | before handle => .record [("before", .text handle)]
  | slot handle index =>
    .record [("slot", .record [("block", .text handle), ("slot", .ofWord index)])]
  | trash => .text "trash"
  | outside => .text "outside"

/-- The handle and the index of a slot. -/
def slotDecoder : Decoder (String × UInt64) := fun n v => do
  let r ← Record.decoder ["block", "slot"] n v
  let handle ← r.required "block" Decoder.text
  let index ← r.required "slot" Decoder.word
  return (handle, index)

/-- Reads an aim; `bare` says which choices carry no data. -/
def decoderWith (bare : Choice → Bool) : Decoder Aim := fun n v => do
  let choice ← Choice.decoder n v
  match choice.name with
  | "workspace" => if bare choice then some .workspace else none
  | "into" => (choice.data Decoder.text).map .into
  | "before" => (choice.data Decoder.text).map .before
  | "slot" => (choice.data slotDecoder).map fun (handle, index) => .slot handle index
  | "trash" => if bare choice then some .trash else none
  | "outside" => if bare choice then some .outside else none
  | _ => none

/-- Reads an aim that stands on its own. -/
def decoder : Decoder Aim :=
  decoderWith Choice.isBare

/-- Reads an aim within a step, which is kept before it is read. -/
def keptDecoder : Decoder Aim :=
  decoderWith Choice.isBareKept

end Aim

namespace Step

def toJson : Step → Json
  | place template into handle =>
    .record [
      ("op", .text "place"),
      ("template", .text template),
      ("into", into.toJson),
      ("as", .ofOption .text handle)]
  | move block into =>
    .record [("op", .text "move"), ("block", .text block), ("into", into.toJson)]
  | delete block => .record [("op", .text "delete"), ("block", .text block)]
  | literal block slot value =>
    .record [
      ("op", .text "literal"),
      ("block", .text block),
      ("slot", .ofWord slot),
      ("value", .text value)]
  | operator block selected =>
    .record [
      ("op", .text "operator"),
      ("block", .text block),
      ("operator", .ofOption .text selected)]
  | clear => .record [("op", .text "clear")]
  | removeName name => .record [("op", .text "remove_name"), ("name", .text name)]

/-- Reads a step.  An aim that is left off is the workspace; a handle or an operator that is left off is
none. -/
def decoder : Decoder Step := fun n v => do
  let t ← Tagged.decoder "op" n v
  match t.case with
  | "place" =>
    let r ← t.record? ["template", "into", "as"]
    let template ← r.required "template" Decoder.text
    let into ← r.defaulted "into" .workspace Aim.keptDecoder
    let handle ← r.defaulted "as" none Decoder.text.nullable
    return .place template into handle
  | "move" =>
    let r ← t.record? ["block", "into"]
    let block ← r.required "block" Decoder.text
    let into ← r.defaulted "into" .workspace Aim.keptDecoder
    return .move block into
  | "delete" =>
    let r ← t.record? ["block"]
    let block ← r.required "block" Decoder.text
    return .delete block
  | "literal" =>
    let r ← t.record? ["block", "slot", "value"]
    let block ← r.required "block" Decoder.text
    let slot ← r.required "slot" Decoder.word
    let value ← r.required "value" Decoder.text
    return .literal block slot value
  | "operator" =>
    let r ← t.record? ["block", "operator"]
    let block ← r.required "block" Decoder.text
    let operator ← r.defaulted "operator" none Decoder.text.nullable
    return .operator block operator
  | "clear" => if t.isBare then some .clear else none
  | "remove_name" =>
    let r ← t.record? ["name"]
    let name ← r.required "name" Decoder.text
    return .removeName name
  | _ => none

end Step

def toJson (s : Script) : Json :=
  .record [
    ("variables", .ofList NewVariable.toJson s.newVariables),
    ("positions", .ofList .text s.newPositions),
    ("steps", .ofList Step.toJson s.steps)]

/-- Reads a script, each of whose three lists may be left off. -/
def decoder : Decoder Script := fun n v => do
  let r ← Record.decoder ["variables", "positions", "steps"] n v
  let newVariables ← r.defaulted "variables" [] NewVariable.decoder.list
  let newPositions ← r.defaulted "positions" [] Decoder.text.list
  let steps ← r.defaulted "steps" [] Step.decoder.list
  return ⟨newVariables, newPositions, steps⟩

/-- The script that a text holds. -/
def read? (text : String) : Option Script :=
  (Json.read? text).bind (Json.decode? decoder)

end Script

end BlockEditor
