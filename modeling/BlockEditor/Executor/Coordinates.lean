import BlockEditor.Numeric.Reading
import BlockEditor.Text.Scan

/-!
# Robot coordinates

Coordinates are written as three numbers between commas.  Each number may follow a label and a
colon, and spaces may stand around everything.
-/

namespace BlockEditor

/-- A point in the space of the robot. -/
structure Coordinates where
  x : Double
  y : Double
  z : Double
deriving DecidableEq, Repr

/-- Why a text denotes no coordinates. -/
inductive CoordinatesError where
  /-- There are `found` values and not three. -/
  | count (found : Nat)
  /-- The value is no number. -/
  | value (text : String)
deriving DecidableEq, Repr

def CoordinatesError.message : CoordinatesError → String
  | .count found => s!"expected three comma separated values, got {found}"
  | .value text => s!"invalid coordinate `{text}`"

namespace Coordinates

/-- The number in one of the parts: what stands behind the last colon. -/
def readPart (part : List Char) : Except CoordinatesError Double :=
  let written :=
    match Scan.splitLast? ':' part with
    | some (_, after) => after
    | none => part
  match Binary.read? (Scan.trim written) with
  | some number => .ok number
  | none => .error (.value (String.ofList (Scan.trim part)))

/-- The coordinates that a text denotes. -/
def read (text : String) : Except CoordinatesError Coordinates :=
  match Scan.splitAll ',' (Scan.trim text.toList) with
  | [x, y, z] => do
    let x ← readPart x
    let y ← readPart y
    let z ← readPart z
    return ⟨x, y, z⟩
  | parts => .error (.count parts.length)

end Coordinates

end BlockEditor
