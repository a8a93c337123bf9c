import BlockEditor.Block.Template
import BlockEditor.Json.Decoder

/-!
# Stored kinds and templates

The JSON form of categories, slots, kinds and templates.  Fields are written in a fixed order,
missing values as `null`; only the table of operator tokens is left out when it is empty.
-/

namespace BlockEditor

namespace Category

/-- A category is written by its name in stored files. -/
def toJson (c : Category) : Json :=
  .text c.name

/-- Reads a category, which is a choice without data. -/
def decoder : Decoder Category := fun n v => do
  let choice ← Choice.decoder n v
  guard choice.isBare
  ofName? choice.name

end Category

namespace SlotSpec

/-- A slot is written with all its fields, and a slot without a name has the name `null`. -/
def toJson (s : SlotSpec) : Json :=
  .record [
    ("name", .ofOption .text s.name),
    ("accepts", .ofList Category.toJson s.accepts),
    ("literal", .bool s.literal)]

/-- Reads a slot.  A field that is left out has its default: no name, nothing accepted, no typed values.
-/
def decoder : Decoder SlotSpec := fun n v => do
  let r ← Record.decoder ["name", "accepts", "literal"] n v
  let name ← r.defaulted "name" none Decoder.text.nullable
  let accepts ← r.defaulted "accepts" [] Category.decoder.list
  let literal ← r.defaulted "literal" false Decoder.bool
  return ⟨name, accepts, literal⟩

end SlotSpec

namespace Kind

/-- A kind is written with the table of operator tokens behind the other fields, if the table is not
empty. -/
def toJson (k : Kind) : Json :=
  .record ([
    ("category", k.category.toJson),
    ("accepts_children", .bool k.acceptsChildren),
    ("slots", .ofList SlotSpec.toJson k.slots),
    ("operators", .ofList .text k.operators)]
  ++ if k.wireOperators.isEmpty then []
    else [("wire_operators",
      .record (k.wireOperators.entries.map fun (operator, token) => (operator, .text token)))])

/-- Reads a kind.  Only the category may not be left out. -/
def decoder : Decoder Kind := fun n v => do
  let r ← Record.decoder
    ["category", "accepts_children", "slots", "operators", "wire_operators"] n v
  let category ← r.required "category" Category.decoder
  let acceptsChildren ← r.defaulted "accepts_children" false Decoder.bool
  let slots ← r.defaulted "slots" [] SlotSpec.decoder.list
  let operators ← r.defaulted "operators" [] Decoder.text.list
  let wireOperators ← r.defaulted "wire_operators" .empty Decoder.text.table
  return ⟨category, acceptsChildren, slots, operators, wireOperators⟩

end Kind

namespace Template

/-- A template is written with its kind as a record within it. -/
def toJson (t : Template) : Json :=
  .record [
    ("id", .text t.id),
    ("label", .text t.label),
    ("kind", t.kind.toJson),
    ("expected_vars", .ofOption .ofWord t.expectedVars)]

/-- Reads a template.  Only the number of variables that it expects may be left out. -/
def decoder : Decoder Template := fun n v => do
  let r ← Record.decoder ["id", "label", "kind", "expected_vars"] n v
  let id ← r.required "id" Decoder.text
  let label ← r.required "label" Decoder.text
  let kind ← r.required "kind" Kind.decoder
  let expectedVars ← r.defaulted "expected_vars" none Decoder.word.nullable
  return ⟨id, label, kind, expectedVars⟩

end Template

end BlockEditor
