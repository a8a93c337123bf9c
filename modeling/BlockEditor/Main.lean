import BlockEditor.Palette.Stock
import BlockEditor.Replay.File
import BlockEditor.Replay.Run
import Std.Time.DateTime.Timestamp

/-!
# Command line

Replays a script on an empty editor and prints the program, as JSON or as the request that
submits it.  Refused steps and what is wrong with the program go to the error output.
-/

namespace BlockEditor

/-- What the command line asks for. -/
structure Options where
  /-- The file of the script. -/
  script : Option String
  /-- The file of a catalog in place of the stock palette. -/
  catalog : Option String
  /-- The endpoint of the request to print. -/
  submit : Option String
  /-- Fail if something is wrong with the program. -/
  check : Bool
  /-- Print JSON without blanks. -/
  compact : Bool

namespace Options

/-- What an empty command line asks for. -/
def default : Options :=
  ⟨none, none, none, false, false⟩

def usage : String :=
  "Usage: SCRIPT [--catalog FILE] [--submit ENDPOINT] [--check] [--compact] [-v]"

/-- Reads the arguments one by one into the options. -/
def ofArgs (o : Options) : List String → Except String Options
  | [] => .ok o
  | "--catalog" :: path :: args => ofArgs { o with catalog := some path } args
  | "--submit" :: endpoint :: args => ofArgs { o with submit := some endpoint } args
  | "--check" :: args => ofArgs { o with check := true } args
  | "--compact" :: args => ofArgs { o with compact := true } args
  | "--verbose" :: args => ofArgs o args
  | arg :: args =>
    if arg.toList.head? = some '-' then
      if arg.toList.tail.all (· == 'v') then ofArgs o args
      else .error s!"unexpected argument '{arg}'"
    else if o.script.isSome then .error s!"unexpected argument '{arg}'"
    else ofArgs { o with script := some arg } args

/-- The JSON of a program as the options ask for it. -/
def render (o : Options) (p : Program) : String :=
  if o.compact then p.toJson.render else p.toJson.renderIndented

/-- What is printed for a program. -/
def output (o : Options) (p : Program) : String :=
  match o.submit with
  | none => o.render p
  | some endpoint =>
    let q := Request.ofProgram endpoint p
    let headers := q.headers.map fun (name, value) => s!"{name}: {value}\n"
    s!"POST {q.endpoint}\n" ++ String.join headers ++ "\n" ++ o.render p

end Options

namespace CommandLine

/-- The bytes of a file, if it can be read. -/
def readFile (path : String) : IO (Option ByteArray) := do
  try
    return some (← IO.FS.readBinFile path)
  catch _ => return none

/-- The wall clock, read once.  Stamps are kept apart by the canvas, so one reading serves a
whole replay. -/
def wallClock : IO Clock := do
  let now ← Std.Time.Timestamp.now
  return .fixed (.ofNat now.toMillisecondsSinceUnixEpoch.val.toNat)

def fail {α : Type} (message : String) : IO α :=
  throw (IO.userError message)

/-- The catalog of the options, the stock palette unless a file is named. -/
def loadCatalog (o : Options) : IO Catalog := do
  match o.catalog with
  | none => return .stock
  | some path =>
    match Catalog.ofFile path (← readFile path) with
    | .ok catalog => return catalog
    | .error reason => fail (Catalog.fileMessage reason)

/-- The script in a file. -/
def loadScript (path : String) : IO Script := do
  match Script.ofFile path (← readFile path) with
  | .ok script => return script
  | .error reason => fail (Script.fileMessage reason)

/-- Replays a script and prints what becomes of it. -/
def replay (o : Options) (path : String) : IO Unit := do
  let catalog ← loadCatalog o
  let script ← loadScript path
  match script.run (.new catalog .standard (← wallClock)) with
  | (.error abort, _) => fail s!"Failed to replay {path}: {abort.message}"
  | (.ok report, editor) =>
    for (index, reason) in report.rejected do
      IO.eprintln s!"step {index}: {reason.message}"
    let program := editor.program
    let issues := Program.check editor.catalog editor.registry program
    for issue in issues do
      IO.eprintln s!"preflight: {issue.message}"
    if o.check && !issues.isEmpty then
      fail s!"{issues.length} preflight issue(s)"
    IO.println (o.output program)

end CommandLine

end BlockEditor

open BlockEditor in
def main (args : List String) : IO UInt32 := do
  match Options.ofArgs .default args with
  | .error message =>
    IO.eprintln message
    IO.eprintln Options.usage
    return 2
  | .ok o =>
    match o.script with
    | none =>
      IO.eprintln Options.usage
      return 2
    | some path =>
      try
        CommandLine.replay o path
        return 0
      catch error =>
        IO.eprintln s!"Error: {error}"
        return 1
