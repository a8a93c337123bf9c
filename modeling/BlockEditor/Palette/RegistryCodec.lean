import BlockEditor.Block.Codec
import BlockEditor.Palette.Registry

/-!
# Stored registries

The JSON form of the configuration of a registry and of its entries.
-/

namespace BlockEditor

namespace Registry

namespace Config

/-- A configuration is written with its limits first and the reserved names last. -/
def toJson (c : Config) : Json :=
  .record [
    ("max_name_len", .ofWord c.maxNameLen),
    ("forbidden", .ofList .text c.forbidden),
    ("builtin_variables", .ofList .text c.builtinVariables),
    ("builtin_positions", .ofList .text c.builtinPositions),
    ("reserved", .ofList .text c.reserved)]

/-- Reads a configuration, of which no field may be left out. -/
def decoder : Decoder Config := fun n v => do
  let r ← Record.decoder
    ["max_name_len", "forbidden", "builtin_variables", "builtin_positions", "reserved"] n v
  let maxNameLen ← r.required "max_name_len" Decoder.word
  let forbidden ← r.required "forbidden" Decoder.text.list
  let builtinVariables ← r.required "builtin_variables" Decoder.text.list
  let builtinPositions ← r.required "builtin_positions" Decoder.text.list
  let reserved ← r.required "reserved" Decoder.text.list
  return ⟨maxNameLen, forbidden, builtinVariables, builtinPositions, reserved⟩

end Config

namespace EntryKind

/-- The name of the kind in stored files. -/
def name : EntryKind → String
  | var => "variable"
  | position => "position"

/-- The kind of entries with the given name in stored files. -/
def ofName? (s : String) : Option EntryKind :=
  [var, position].find? fun k => k.name = s

/-- A kind of entries is written by its name. -/
def toJson (k : EntryKind) : Json :=
  .text k.name

/-- Reads a kind of entries, which is a choice without data. -/
def decoder : Decoder EntryKind := fun n v => do
  let choice ← Choice.decoder n v
  guard choice.isBare
  ofName? choice.name

end EntryKind

namespace Entry

/-- An entry is written with all its fields; one without a value has the value `null`. -/
def toJson (e : Entry) : Json :=
  .record [
    ("name", .text e.name),
    ("value", .ofOption .text e.value),
    ("source_block_id", .text e.sourceBlockId),
    ("kind", e.kind.toJson),
    ("builtin", .bool e.builtin)]

/-- Reads an entry.  The value may be left out, and an entry is built in only if that is said. -/
def decoder : Decoder Entry := fun n v => do
  let r ← Record.decoder ["name", "value", "source_block_id", "kind", "builtin"] n v
  let name ← r.required "name" Decoder.text
  let value ← r.optional "value" Decoder.text
  let sourceBlockId ← r.required "source_block_id" Decoder.text
  let kind ← r.required "kind" EntryKind.decoder
  let builtin ← r.defaulted "builtin" false Decoder.bool
  return ⟨name, value, sourceBlockId, kind, builtin⟩

end Entry

end Registry

end BlockEditor
