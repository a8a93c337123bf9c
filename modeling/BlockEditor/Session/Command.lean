import BlockEditor.Session.Editor

/-!
# Commands

Everything that can be asked of an editor, with the answer to it and the editor afterwards.  A
session is a list of commands, carried out one after the other; a command that is refused is
answered by the reason and leaves its trace only where `Editor.perform` says so.
-/

namespace BlockEditor

inductive Command where
  | addVariable (name : String)
  | addPosition (name : String)
  | removeName (name : String)
  | setVariableValue (name value : String)
  | startDrag (source : Source)
  | hover (layout : Layout) (target : Target)
  | drop (layout : Layout) (target : Target)
  | cancelDrag
  /-- Empties the workspace, if that is confirmed. -/
  | clear (confirmed : Bool)
  | setLiteral (block : String) (slot : Nat) (value : String)
  | setOperator (block : String) (operator : Option String)
  /-- Asks for the program of the workspace. -/
  | program

/-- The answer to a command. -/
inductive Reply where
  | done
  | nameRefused (reason : NameError)
  | editRefused (reason : EditError)
  /-- The ids of the blocks that were removed. -/
  | removed (ids : List String)
  | hovered (result : Except Rejection Action)
  | dropped (result : Except Rejection Outcome)
  | program (program : Program)

namespace Editor

/-- The answer to a change of the names, and the editor afterwards. -/
def named : Except NameError Unit × Editor → Reply × Editor
  | (.ok (), e) => (.done, e)
  | (.error reason, e) => (.nameRefused reason, e)

/-- The answer to an edit of a placed block, and the editor afterwards. -/
def edited : Except EditError Unit × Editor → Reply × Editor
  | (.ok (), e) => (.done, e)
  | (.error reason, e) => (.editRefused reason, e)

/-- Carries out a command. -/
def perform (e : Editor) : Command → Reply × Editor
  | .addVariable name => named (e.enterName name .var)
  | .addPosition name => named (e.enterName name .position)
  | .removeName name =>
    let (ids, e) := e.removeName name
    (.removed ids, e)
  | .setVariableValue name value => named (e.assignValue name value)
  | .startDrag source => (.done, e.startDrag source)
  | .hover layout target => (.hovered (e.hover layout target), e)
  | .drop layout target =>
    let (result, e) := e.drop layout target
    (.dropped result, e)
  | .cancelDrag => (.done, e.cancelDrag)
  | .clear confirmed => (.done, e.clear confirmed)
  | .setLiteral block slot value => edited (e.typeLiteral block slot value)
  | .setOperator block operator => edited (e.selectOperator block operator)
  | .program => (.program e.program, e.tick)

end Editor

end BlockEditor
