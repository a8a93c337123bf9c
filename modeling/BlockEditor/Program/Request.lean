import BlockEditor.Json.Reader
import BlockEditor.Json.Writer
import BlockEditor.Program.Node

/-!
# Submitting a program

A program is submitted to the executor in the body of a request, as the JSON array of its nodes.
-/

namespace BlockEditor

/-- A program on its way to an endpoint. -/
structure Request where
  endpoint : String
  contentType : String
  body : String
deriving DecidableEq, Repr

namespace Request

/-- The request that submits a program. -/
def ofProgram (endpoint : String) (p : Program) : Request :=
  ⟨endpoint, "application/json", p.toJson.render⟩

/-- The program in the body, `none` if the body holds none. -/
def program? (q : Request) : Option Program :=
  (Json.read? q.body).bind (Json.decode? Node.decoder.list)

def headers (q : Request) : List (String × String) :=
  [("Content-Type", q.contentType)]

end Request

end BlockEditor
