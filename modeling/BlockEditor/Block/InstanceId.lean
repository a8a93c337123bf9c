import BlockEditor.Text.Scan

/-!
# Ids of placed blocks

The id of a placed block is the id of its template, a dash and a stamp, the stamp a number in
decimal digits.  `InstanceId.split?` takes such an id apart at its last dash.
-/

namespace BlockEditor

namespace InstanceId

/-- The id of a block made from a template at the given stamp. -/
def make (templateId : String) (stamp : UInt64) : String :=
  templateId ++ "-" ++ toString stamp.toNat

/-- What stands before and after the last dash, if digits alone stand after it. -/
def split? (id : String) : Option (String × String) :=
  match Scan.splitLast? '-' id.toList with
  | some (base, stamp) =>
    if stamp.all Scan.isDigit then some (String.ofList base, String.ofList stamp) else none
  | none => none

end InstanceId

end BlockEditor
