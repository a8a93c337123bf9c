import BlockEditor.Block.Template
import BlockEditor.Change
import BlockEditor.Text.Scan
import BlockEditor.Time.Clock
import BlockEditor.Time.SyntheticName

/-!
# The registry of names

The registry lists the names of variables and positions, which share one name space.  Every
entry stands in the palette with a block of its own, so the registry is the changing half of the
palette next to the catalog.

A name is taken if it has an entry or is reserved.  Reserved are the names that the
configuration reserves and the synthetic names that were given out; only the latter can be
released.
-/

namespace BlockEditor

namespace Registry

/-- The limits on names and the names that are there from the start. -/
structure Config where
  /-- The greatest number of characters of a name. -/
  maxNameLen : UInt64
  /-- The texts that may not be part of a name. -/
  forbidden : List String
  builtinVariables : List String
  builtinPositions : List String
  /-- Names that are taken without an entry. -/
  reserved : List String
deriving DecidableEq, Repr

/-- Names of up to 20 characters, for a robot with three axes and three stored positions. -/
def Config.standard : Config where
  maxNameLen := 20
  forbidden := ["\x7b", "\x7d", "[", "]", "/", "%", "&", "|", " ", "^", "~", "<<", ">>", "==",
    "<=", ">=", "<", ">", "=", ",", ";", "."]
  builtinVariables := ["X", "Y", "Z"]
  builtinPositions := ["p1", "p2", "p3"]
  reserved := ["x", "y", "z"]

/-- What a name stands for. -/
inductive EntryKind where
  | var
  | position
deriving DecidableEq, Repr

/-- A name, and its row in the palette. -/
structure Entry where
  name : String
  /-- The current value; positions and axes have none. -/
  value : Option String
  /-- The id of the entry's template in the palette. -/
  sourceBlockId : String
  kind : EntryKind
  /-- The entry cannot be removed. -/
  builtin : Bool
deriving DecidableEq, Repr

end Registry

/-- Why a name is refused. -/
inductive NameError where
  | tooLong (name : String) (max : UInt64)
  | forbiddenChar (name token : String)
  | duplicate (name : String)
  | empty
  | unknown (name : String)
deriving DecidableEq, Repr

def NameError.message : NameError → String
  | .tooLong name max => s!"name `{name}` is longer than {max} characters"
  | .forbiddenChar name token => s!"name `{name}` contains forbidden sequence `{token}`"
  | .duplicate name => s!"name `{name}` already exists"
  | .empty => "name must not be empty"
  | .unknown name => s!"no variable named `{name}`"

/-- The names of a session. -/
structure Registry where
  config : Registry.Config
  /-- The entries in the order in which they were added, the built-in ones first. -/
  entries : List Registry.Entry
  /-- The names that are taken without an entry. -/
  reserved : List String
deriving DecidableEq, Repr

namespace Registry

/-- The id of the template that stands for a name. -/
def paletteId (name : String) : String :=
  "block-get-" ++ name ++ "-pos"

namespace Entry

/-- An entry that is there from the start. -/
def ofBuiltin (name : String) (kind : EntryKind) : Entry :=
  ⟨name, none, paletteId name, kind, true⟩

/-- An entry that the user adds.  Variables start at `0`, positions without a value. -/
def ofUser (name : String) (kind : EntryKind) : Entry :=
  let value :=
    match kind with
    | .var => some "0"
    | .position => none
  ⟨name, value, paletteId name, kind, false⟩

/-- The template of an entry.  A position has a slot for each axis. -/
def template (e : Entry) : Template :=
  match e.kind with
  | .var => ⟨e.sourceBlockId, e.name, .plain .var [], none⟩
  | .position =>
    ⟨e.sourceBlockId, e.name,
      .plain .pos [.namedValue "X", .namedValue "Y", .namedValue "Z"], some 3⟩

end Entry

/-- Puts an entry in the place of the entry of the same name, or at the end if there is none. -/
def insertEntry (e : Entry) : List Entry → List Entry
  | [] => [e]
  | f :: fs => if f.name = e.name then e :: fs else f :: insertEntry e fs

/-- The entries that a configuration starts with. -/
def builtinEntries (config : Config) : List Entry :=
  (config.builtinVariables.map (Entry.ofBuiltin · .var)
    ++ config.builtinPositions.map (Entry.ofBuiltin · .position)).foldl
      (fun entries e => insertEntry e entries) []

/-- The registry that a configuration starts with. -/
def ofConfig (config : Config) : Registry :=
  ⟨config, builtinEntries config, config.reserved.eraseDups⟩

/-- The registry that the standard configuration starts with. -/
def standard : Registry :=
  ofConfig .standard

/-- The entry of a name. -/
def lookup? (r : Registry) (name : String) : Option Entry :=
  r.entries.find? fun e => e.name = name

/-- The name has an entry or is reserved. -/
def isTaken (r : Registry) (name : String) : Bool :=
  (r.lookup? name).isSome || r.reserved.contains name

/-- Every taken name. -/
def takenNames (r : Registry) : List String :=
  r.entries.map Entry.name ++ r.reserved

/-- Why `name` cannot be added, if it cannot: it is too long, contains a forbidden text, is
taken or is empty, the first of these that holds. -/
def check (r : Registry) (name : String) : Except NameError Unit :=
  if r.config.maxNameLen.toNat < name.toList.length then
    .error (.tooLong name r.config.maxNameLen)
  else
    match r.config.forbidden.find? fun token => Scan.contains token.toList name.toList with
    | some token => .error (.forbiddenChar name token)
    | none =>
      if r.isTaken name then .error (.duplicate name)
      else if name.isEmpty then .error .empty
      else .ok ()

/-- Adds a name at the end: the new entry, or why the name cannot be added, and the registry
afterwards. -/
def enter (r : Registry) (name : String) (kind : EntryKind) : Except NameError Entry × Registry :=
  match r.check name with
  | .error reason => (.error reason, r)
  | .ok () =>
    let e := Entry.ofUser name kind
    (.ok e, { r with entries := r.entries ++ [e] })

/-- The registry with one more name. -/
def add (r : Registry) (name : String) (kind : EntryKind) : Except NameError Registry :=
  accepted (r.enter name kind)

/-- Releases a name: the removed entry, if there was one that may be removed, and the registry
without it.  A name without an entry is no longer reserved, unless the configuration reserves
it. -/
def remove (r : Registry) (name : String) : Option Entry × Registry :=
  match r.lookup? name with
  | some e =>
    if e.builtin then (none, r)
    else (some e, { r with entries := r.entries.filter fun f => f.name ≠ name })
  | none =>
    if r.config.reserved.contains name then (none, r)
    else (none, { r with reserved := r.reserved.filter fun n => n ≠ name })

/-- Sets the value of an entry in its place: whether there is one, and the registry afterwards. -/
def assign (r : Registry) (name : String) (value : Option String) :
    Except NameError Unit × Registry :=
  match r.lookup? name with
  | none => (.error (.unknown name), r)
  | some _ =>
    (.ok (), { r with
      entries := r.entries.map fun e => if e.name = name then { e with value := value } else e })

/-- The registry with another value of an entry. -/
def setValue (r : Registry) (name : String) (value : Option String) :
    Except NameError Registry :=
  accepted (r.assign name value)

/-- Gives out a synthetic name that is not taken, and reserves it. -/
def freshName (r : Registry) (now : UInt64) : String × Registry :=
  let name := (SyntheticName.fresh now (.seeded now) r.takenNames).1
  (name, { r with reserved := r.reserved ++ [name] })

/-- The template whose id is `id`. -/
def template? (r : Registry) (id : String) : Option Template :=
  (r.entries.find? fun e => e.sourceBlockId = id).map Entry.template

/-- The templates of all entries. -/
def templates (r : Registry) : List Template :=
  r.entries.map Entry.template

end Registry

end BlockEditor
