import BlockEditor.Table
import BlockEditor.Json.Value
import BlockEditor.Numeric.Scaling

/-!
# Reading typed values out of JSON

A `Decoder α` reads an `α` out of a JSON value.  It is told how many arrays and objects may
still be opened, so that a text which nests too deep is refused; only the arrays and objects
that the decoder itself opens count.

A record is written as an object, whose unknown members are ignored and whose known members may
stand in any order but not twice, or as the array of its fields in order.  A field is read by
`required`, `optional` (missing or `null` means `none`) or `defaulted` (missing means the
default).  An array may leave off trailing `defaulted` fields only.

A choice between cases is written with the name of the case: `Choice` for a case named in front
of its data, `Tagged` for a record that names its case in one of its fields.
-/

namespace BlockEditor

/-- A way to read an `α` out of a value in which at most so many arrays and objects are opened. -/
abbrev Decoder (α : Type) := Nat → Json → Option α

/-- The number of arrays and objects that a text may nest. -/
def Json.nestingLimit : Nat := 127

namespace Decoder

variable {α : Type}

def text : Decoder String
  | _, .string t => t
  | _, _ => none

def bool : Decoder Bool
  | _, .bool b => some b
  | _, _ => none

/-- A natural number below `2 ^ 64`, written as an integer. -/
def word : Decoder UInt64
  | _, .number n => n.toNat?.bind fun k => if k < UInt64.size then some (.ofNat k) else none
  | _, _ => none

/-- The value, or `null` for none. -/
def nullable (d : Decoder α) : Decoder (Option α)
  | _, .null => some none
  | n, v => (d n v).map some

/-- An array, which is opened, and each of its elements. -/
def list (d : Decoder α) : Decoder (List α)
  | n + 1, .array vs => vs.mapM (d n)
  | _, _ => none

/-- Inserts the members of an object into a table, in order. -/
def insertMembers (d : Decoder α) (n : Nat) (t : Table α) :
    List (Option String × Json) → Option (Table α)
  | [] => some t
  | (key, v) :: ms => do
    let key ← key
    let a ← d n v
    insertMembers d n (t.insert key a) ms

/-- An object with any keys.  A key that is repeated keeps its first place and its last value. -/
def table (d : Decoder α) : Decoder (Table α)
  | n + 1, .object ms => insertMembers d n .empty ms
  | _, _ => none

end Decoder

namespace Json

mutual

/-- A value that can be kept for later: strings and keys name texts, numbers are within the range
of double precision, and no more than `n` arrays and objects nest. -/
def keepable (n : Nat) : Json → Bool
  | .null => true
  | .bool _ => true
  | .number k => k.toDouble?.isSome
  | .string t => t.isSome
  | .array vs => n != 0 && elementsKeepable (n - 1) vs
  | .object ms => n != 0 && membersKeepable (n - 1) ms

def elementsKeepable (n : Nat) : List Json → Bool
  | [] => true
  | v :: vs => v.keepable n && elementsKeepable n vs

def membersKeepable (n : Nat) : List (Option String × Json) → Bool
  | [] => true
  | (k, v) :: ms => k.isSome && (v.keepable n && membersKeepable n ms)

end

end Json

/-- The fields of a record as they were found: those of an object under their names, or those of
an array under the names that their places stand for. -/
structure Record where
  positional : Bool
  fields : List (String × Json)
  /-- The number of arrays and objects that a field may open. -/
  room : Nat

namespace Record

variable {α : Type}

/-- The members of an object that have one of the names, unless one is there twice. -/
def select? (names : List String) :
    List (Option String × Json) → Option (List (String × Json))
  | [] => some []
  | (none, _) :: _ => none
  | (some key, v) :: ms => do
    let fields ← select? names ms
    if key ∈ names then
      if (fields.lookup key).isSome then none
      else return (key, v) :: fields
    else return fields

/-- The members of an object, as fields of a record with the given names. -/
def ofMembers? (names : List String) (room : Nat) (ms : List (Option String × Json)) :
    Option Record :=
  (select? names ms).map fun fields => ⟨false, fields, room⟩

/-- The elements of an array, as fields of a record with the given names. -/
def ofElements? (names : List String) (room : Nat) (vs : List Json) : Option Record :=
  if vs.length ≤ names.length then some ⟨true, names.zip vs, room⟩ else none

/-- Reads the fields of a record, from either of its two forms. -/
def decoder (names : List String) : Decoder Record
  | n + 1, .object ms => ofMembers? names n ms
  | n + 1, .array vs => ofElements? names n vs
  | _, _ => none

/-- A field that has to be there. -/
def required (r : Record) (name : String) (d : Decoder α) : Option α :=
  (r.fields.lookup name).bind (d r.room)

/-- A field that may be missing from an object, but not from an array. -/
def optional (r : Record) (name : String) (d : Decoder α) : Option (Option α) :=
  match r.fields.lookup name with
  | some v => d.nullable r.room v
  | none => if r.positional then none else some none

/-- A field that may be missing altogether. -/
def defaulted (r : Record) (name : String) (default : α) (d : Decoder α) : Option α :=
  match r.fields.lookup name with
  | some v => d r.room v
  | none => some default

end Record

/-- A case named in front of its data. -/
structure Choice where
  name : String
  /-- The data; `none` for a case written as its name alone. -/
  payload : Option Json
  /-- The number of arrays and objects that the data may open. -/
  room : Nat

namespace Choice

variable {α : Type}

/-- A case is written as its name, or as an object with its name as the only key. -/
def decoder : Decoder Choice
  | n, .string t => t.map fun name => ⟨name, none, n⟩
  | n + 1, .object [(key, v)] => key.map fun name => ⟨name, some v, n⟩
  | _, _ => none

/-- The data of a case that carries some. -/
def data (c : Choice) (d : Decoder α) : Option α :=
  c.payload.bind (d c.room)

/-- A case without data may be given `null` for it. -/
def isBare (c : Choice) : Bool :=
  match c.payload with
  | none => true
  | some .null => true
  | some _ => false

/-- A case without data within a value that was kept may be given an empty object as well. -/
def isBareKept (c : Choice) : Bool :=
  c.isBare ||
    match c.payload with
    | some (.object []) => true
    | _ => false

end Choice

/-- A record that names its case in one of its fields, or in front of the others if it is written
as an array.  The whole record is kept before its case is known, so every value in it is held to
`Json.keepable`, those of unknown members too. -/
structure Tagged where
  case : String
  content : (List Json) ⊕ (List (Option String × Json))
  /-- The number of arrays and objects that a field may open. -/
  room : Nat

namespace Tagged

/-- Takes the member with the given key out of an object, unless it is missing or there twice. -/
def take? (tag : String) :
    List (Option String × Json) → Option (String × List (Option String × Json))
  | [] => none
  | (key, v) :: ms =>
    if key = some tag then
      if ms.any (·.1 == some tag) then none
      else match v with
        | .string (some case) => some (case, ms)
        | _ => none
    else (take? tag ms).map fun (case, rest) => (case, (key, v) :: rest)

/-- Reads the case of a record and keeps the fields for it. -/
def decoder (tag : String) : Decoder Tagged
  | n + 1, .object ms => do
    guard (Json.membersKeepable n ms)
    let (case, rest) ← take? tag ms
    return ⟨case, .inr rest, n⟩
  | n + 1, .array (.string (some case) :: vs) => do
    guard (Json.elementsKeepable n vs)
    return ⟨case, .inl vs, n⟩
  | _, _ => none

/-- The fields of a case that has some. -/
def record? (t : Tagged) (names : List String) : Option Record :=
  match t.content with
  | .inl vs => Record.ofElements? names t.room vs
  | .inr ms => Record.ofMembers? names t.room ms

/-- A case without fields ignores all members, but no elements. -/
def isBare (t : Tagged) : Bool :=
  match t.content with
  | .inl vs => vs.isEmpty
  | .inr _ => true

end Tagged

namespace Json

variable {α : Type}

/-- Reads a value that nests no deeper than a text may. -/
def decode? (d : Decoder α) (v : Json) : Option α :=
  d nestingLimit v

/-- Reads a value of any depth. -/
def decodeDeep? (d : Decoder α) (v : Json) : Option α :=
  d v.depth v

end Json

end BlockEditor
