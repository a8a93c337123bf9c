import BlockEditor.Executor.Coordinates
import BlockEditor.Json.Decoder
import BlockEditor.Json.Reader

/-!
# Messages from the executor

While a program runs the executor sends messages.  A message is a JSON object that names its kind
in the field `event`.
-/

namespace BlockEditor

/-- A message, by the kind of event that it reports. -/
inductive Feedback where
  /-- A block failed; no block is named for an error of the executor itself. -/
  | executionError (error : String) (blockId errorCode : Option String)
  /-- Progress. -/
  | update (data : String) (errorCode : Option String)
  /-- The position of the robot. -/
  | coords (data : String)
deriving DecidableEq, Repr

namespace Feedback

def toJson : Feedback → Json
  | executionError error blockId errorCode =>
    .record [
      ("event", .text "execution_error"),
      ("error", .text error),
      ("block_id", .ofOption .text blockId),
      ("error_code", .ofOption .text errorCode)]
  | update data errorCode =>
    .record [
      ("event", .text "update"),
      ("data", .text data),
      ("error_code", .ofOption .text errorCode)]
  | coords data => .record [("event", .text "coords"), ("data", .text data)]

/-- Reads a message.  Ids and codes may be left off, texts may not. -/
def decoder : Decoder Feedback := fun n v => do
  let t ← Tagged.decoder "event" n v
  match t.case with
  | "execution_error" =>
    let r ← t.record? ["error", "block_id", "error_code"]
    let error ← r.required "error" Decoder.text
    let blockId ← r.defaulted "block_id" none Decoder.text.nullable
    let errorCode ← r.defaulted "error_code" none Decoder.text.nullable
    return .executionError error blockId errorCode
  | "update" =>
    let r ← t.record? ["data", "error_code"]
    let data ← r.required "data" Decoder.text
    let errorCode ← r.defaulted "error_code" none Decoder.text.nullable
    return .update data errorCode
  | "coords" =>
    let r ← t.record? ["data"]
    let data ← r.required "data" Decoder.text
    return .coords data
  | _ => none

/-- The message that a text holds. -/
def read? (text : String) : Option Feedback :=
  (Json.read? text).bind (Json.decode? decoder)

/-- The id of the block that the message is about. -/
def blockId? : Feedback → Option String
  | executionError _ blockId _ => blockId
  | _ => none

/-- The coordinates in a message about the position of the robot. -/
def coordinates? : Feedback → Option (Except CoordinatesError Coordinates)
  | coords data => some (Coordinates.read data)
  | _ => none

end Feedback

end BlockEditor
