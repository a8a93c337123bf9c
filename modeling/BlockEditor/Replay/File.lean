import BlockEditor.Palette.Catalog
import BlockEditor.Replay.Script

/-!
# Stored scripts and catalogs

A file holds text in UTF-8.  `Script.ofFile` and `Catalog.ofFile` read what a file holds, with
`none` for a file that cannot be read; the messages name the file.
-/

namespace BlockEditor

/-- Why a file cannot be used. -/
inductive FileError where
  /-- The file is not there or holds no text. -/
  | unreadable (path : String)
  /-- The text does not have the form that is expected. -/
  | malformed (path : String)
deriving DecidableEq, Repr

/-- The text in a file. -/
def textOfFile (path : String) (content : Option ByteArray) : Except FileError String :=
  match content.bind String.fromUTF8? with
  | some text => .ok text
  | none => .error (.unreadable path)

namespace Script

/-- The script in a file. -/
def ofFile (path : String) (content : Option ByteArray) : Except FileError Script := do
  let text ← textOfFile path content
  match Script.read? text with
  | some script => return script
  | none => throw (.malformed path)

def fileMessage : FileError → String
  | .unreadable path => s!"Failed to read {path}"
  | .malformed path => s!"Failed to parse script {path}"

end Script

namespace Catalog

/-- The catalog in a file. -/
def ofFile (path : String) (content : Option ByteArray) : Except FileError Catalog := do
  let text ← textOfFile path content
  match Catalog.read text with
  | .ok catalog => return catalog
  | .error _ => throw (.malformed path)

def fileMessage : FileError → String
  | .unreadable path => s!"Read catalog {path}"
  | .malformed path => s!"Failed to parse catalog {path}"

end Catalog

end BlockEditor
