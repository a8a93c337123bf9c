import BlockEditor.Replay.Script
import BlockEditor.Session.Editor

/-!
# Replaying a script

`Script.run` replays a script on an editor.  A step that the editor refuses is noted in the
report, and the replay goes on.  A name that cannot be registered, a handle that names no block
and an aim that cannot be found abort the replay; what was done before stays done.
-/

namespace BlockEditor

/-- Why the editor refuses a step. -/
inductive StepError where
  | drop (reason : Rejection)
  | edit (reason : EditError)
deriving DecidableEq, Repr

def StepError.message : StepError → String
  | .drop reason => reason.message
  | .edit reason => reason.message

/-- Why a step cannot be carried out at all. -/
inductive StepFault where
  | unknownHandle (handle : String)
  /-- The block to aim in front of is gone. -/
  | notPlaced (handle : String)
  /-- The block to aim in front of is in a slot. -/
  | inSlot (handle : String)
deriving DecidableEq, Repr

def StepFault.message : StepFault → String
  | .unknownHandle handle => s!"unknown block handle `{handle}`"
  | .notPlaced handle => s!"block `{handle}` is no longer placed"
  | .inSlot handle => s!"block `{handle}` sits in a slot"

/-- Why a replay stops. -/
inductive Abort where
  | variableRefused (name : String) (reason : NameError)
  | valueRefused (reason : NameError)
  | positionRefused (name : String) (reason : NameError)
  | stepFailed (index : Nat) (fault : StepFault)
deriving DecidableEq, Repr

def Abort.message : Abort → String
  | .variableRefused name reason =>
    let reason := reason.message
    s!"Cannot add variable `{name}`: {reason}"
  | .valueRefused reason => reason.message
  | .positionRefused name reason =>
    let reason := reason.message
    s!"Cannot add position `{name}`: {reason}"
  | .stepFailed index fault =>
    let fault := fault.message
    s!"Step {index} failed: {fault}"

/-- The ids of the blocks that handles name. -/
abbrev Handles := Table String

structure Report where
  /-- What the accepted drops did, in the order of the steps. -/
  outcomes : List Outcome
  /-- The refused steps. -/
  rejected : List (Nat × StepError)
  handles : Handles
deriving DecidableEq, Repr

namespace Report

def empty : Report :=
  ⟨[], [], .empty⟩

def addOutcome (r : Report) (o : Outcome) : Report :=
  { r with outcomes := r.outcomes ++ [o] }

def addRejected (r : Report) (index : Nat) (reason : StepError) : Report :=
  { r with rejected := r.rejected ++ [(index, reason)] }

/-- Lets a handle name a block from now on. -/
def bind (r : Report) (handle id : String) : Report :=
  { r with handles := r.handles.insert handle id }

end Report

/-- The id of the block that a drop put into the workspace. -/
def Outcome.placedId? : Outcome → Option String
  | .inserted id _ => some id
  | .slotted id _ _ _ => some id
  | .deleted _ _ => none
  | .ignored => none

namespace Script

/-- The height of the rows in the layout of a replay. -/
def rowHeight : Single :=
  .ofNat 40

/-- The layout of a replay. -/
def stack (e : Editor) : Stack :=
  .ofForest e.tree rowHeight

/-- The id of the block that a handle names. -/
def resolve (handles : Handles) (handle : String) : Except StepFault String :=
  match handles.get? handle with
  | some id => .ok id
  | none => .error (.unknownHandle handle)

/-- The target in front of a placed block: its list, with the pointer on its row. -/
def aimBefore (e : Editor) (handle id : String) : Except StepFault Target :=
  match Forest.locate? id e.tree with
  | none => .error (.notPlaced handle)
  | some location =>
    let pointer := ((stack e).pointerBefore? id).getD (stack e).pointerBelowAll
    match location.container with
    | .root => .ok (.workspace pointer)
    | .children parent => .ok (.block parent pointer)
    | .slot _ _ => .error (.inSlot handle)

/-- The target that an aim stands for in the layout of a replay. -/
def aimTarget (e : Editor) (handles : Handles) : Aim → Except StepFault Target
  | .workspace => .ok (.workspace (stack e).pointerBelowAll)
  | .into handle => do
    let id ← resolve handles handle
    return .block id (stack e).pointerBelowAll
  | .before handle => do
    let id ← resolve handles handle
    aimBefore e handle id
  | .slot handle index => do
    let id ← resolve handles handle
    return .slot id index.toNat
  | .trash => .ok .disposal
  | .outside => .ok .outside

/-- Drags a source to a target. -/
def drag (e : Editor) (source : Source) (target : Target) : Except Rejection Outcome × Editor :=
  let e := e.startDrag source
  e.drop (stack e).layout target

/-- What a step comes to: it is done, with what a drop did if it was a drag, or it is refused. -/
abbrev Done := Except StepError (Option Outcome)

/-- Drags a source and says what that came to. -/
def dragDone (e : Editor) (source : Source) (target : Target) : Done × Editor :=
  match drag e source target with
  | (.ok outcome, e) => (.ok (some outcome), e)
  | (.error reason, e) => (.error (.drop reason), e)

/-- What an edit came to, with the editor as the edit left it. -/
def editDone : Except EditError Unit × Editor → Done × Editor
  | (.ok (), e) => (.ok none, e)
  | (.error reason, e) => (.error (.edit reason), e)

/-- A step that is carried out, whether it is done or refused. -/
def carriedOut : Done × Editor → Except StepFault Done × Editor
  | (done, e) => (.ok done, e)

/-- Goes on with what was looked up.  If it was not found, the step ends with the editor as it is by
then. -/
def lookedUp {α : Type} (e : Editor) (found : Except StepFault α)
    (rest : α → Except StepFault Done × Editor) : Except StepFault Done × Editor :=
  match found with
  | .error fault => (.error fault, e)
  | .ok a => rest a

/-- Carries out a step: what it comes to, or why it cannot be carried out, and the editor afterwards.
What a step needs is looked up before its gesture begins. -/
def perform (e : Editor) (handles : Handles) : Step → Except StepFault Done × Editor
  | .place template into _ =>
    lookedUp e (aimTarget e handles into) fun target =>
      carriedOut (dragDone e (.palette template) target)
  | .move block into =>
    lookedUp e (resolve handles block) fun id =>
      lookedUp e (aimTarget e handles into) fun target =>
        carriedOut (dragDone e (.workspace id) target)
  | .delete block =>
    lookedUp e (resolve handles block) fun id =>
      carriedOut (dragDone e (.workspace id) .disposal)
  | .literal block slot value =>
    lookedUp e (resolve handles block) fun id =>
      carriedOut (editDone (e.typeLiteral id slot.toNat value))
  | .operator block operator =>
    lookedUp e (resolve handles block) fun id =>
      carriedOut (editDone (e.selectOperator id operator))
  | .clear => carriedOut (.ok none, e.clear true)
  | .removeName name => carriedOut (.ok none, (e.removeName name).2)

/-- The handle that a step gives to the block it places. -/
def handle? : Step → Option String
  | .place _ _ handle => handle
  | _ => none

/-- Notes in the report what a step came to. -/
def note (r : Report) (index : Nat) (step : Step) : Done → Report
  | .error reason => r.addRejected index reason
  | .ok none => r
  | .ok (some outcome) =>
    match handle? step, outcome.placedId? with
    | some handle, some id => (r.bind handle id).addOutcome outcome
    | _, _ => r.addOutcome outcome

/-- Carries out steps, the first of which has the given index. -/
def runSteps : (index : Nat) → List Step → Report → Editor → Except Abort Report × Editor
  | _, [], r, e => (.ok r, e)
  | index, step :: steps, r, e =>
    match perform e r.handles step with
    | (.error fault, e) => (.error (.stepFailed index fault), e)
    | (.ok done, e) => runSteps (index + 1) steps (note r index step done) e

/-- Registers variables. -/
def addVariables : List NewVariable → Editor → Except Abort Unit × Editor
  | [], e => (.ok (), e)
  | v :: vs, e =>
    match e.enterName v.name .var with
    | (.error reason, e) => (.error (.variableRefused v.name reason), e)
    | (.ok (), e) =>
      match v.value with
      | none => addVariables vs e
      | some value =>
        match e.assignValue v.name value with
        | (.error reason, e) => (.error (.valueRefused reason), e)
        | (.ok (), e) => addVariables vs e

/-- Registers positions. -/
def addPositions : List String → Editor → Except Abort Unit × Editor
  | [], e => (.ok (), e)
  | name :: names, e =>
    match e.enterName name .position with
    | (.error reason, e) => (.error (.positionRefused name reason), e)
    | (.ok (), e) => addPositions names e

/-- Replays the script. -/
def run (s : Script) (e : Editor) : Except Abort Report × Editor :=
  match addVariables s.newVariables e with
  | (.error abort, e) => (.error abort, e)
  | (.ok (), e) =>
    match addPositions s.newPositions e with
    | (.error abort, e) => (.error abort, e)
    | (.ok (), e) => runSteps 0 s.steps .empty e

end Script

end BlockEditor
