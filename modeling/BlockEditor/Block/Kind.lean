import BlockEditor.Table

/-!
# Kinds of blocks

A `Category` decides which slots accept a block and how the executor reads it.  A `Kind` is the
shape of a block: its category, whether it nests children, the slots it has and the operators
that can be selected on it.
-/

namespace BlockEditor

inductive Category where
  | move
  | control
  | event
  | var
  | calculation
  | time
  | measure
  | pos
  | debug
deriving DecidableEq, Repr, Inhabited

namespace Category

/-- The type by which the executor knows blocks of the category.  The executor reads the type
of control blocks with a double `l`. -/
def wireName : Category → String
  | move => "block-move"
  | control => "block-controll"
  | event => "block-event"
  | var => "block-variable"
  | calculation => "block-calc"
  | time => "block-time"
  | measure => "block-measure"
  | pos => "block-pos"
  | debug => "block-debug"

/-- The name of the category in stored files. -/
def name : Category → String
  | move => "move"
  | control => "control"
  | event => "event"
  | var => "variable"
  | calculation => "calc"
  | time => "time"
  | measure => "measure"
  | pos => "pos"
  | debug => "debug"

/-- The name of the category in messages. -/
def title : Category → String
  | move => "Move"
  | control => "Control"
  | event => "Event"
  | var => "Variable"
  | calculation => "Calc"
  | time => "Time"
  | measure => "Measure"
  | pos => "Pos"
  | debug => "Debug"

def all : List Category :=
  [move, control, event, var, calculation, time, measure, pos, debug]

/-- The category with the given name in stored files. -/
def ofName? (s : String) : Option Category :=
  all.find? fun c => c.name = s

@[simp]
theorem ofName?_name (c : Category) :
  ofName? c.name = some c
  := by
  cases c <;> decide

end Category

/-- A place on a block that holds at most one block or typed value. -/
structure SlotSpec where
  /-- The displayed name; a position block names its slots `X`, `Y` and `Z`. -/
  name : Option String
  /-- The categories of the blocks that may be dropped into the slot. -/
  accepts : List Category
  /-- The slot takes a typed value as well. -/
  literal : Bool
deriving DecidableEq, Repr

namespace SlotSpec

/-- A slot for a variable or a typed value. -/
def value : SlotSpec :=
  ⟨none, [.var], true⟩

/-- A slot for a variable or a typed value, with a displayed name. -/
def namedValue (name : String) : SlotSpec :=
  ⟨some name, [.var], true⟩

/-- A slot for a variable. -/
def var : SlotSpec :=
  ⟨none, [.var], false⟩

/-- A slot for a position. -/
def position : SlotSpec :=
  ⟨none, [.pos], false⟩

/-- The slot takes positions and nothing else. -/
def isPosition (s : SlotSpec) : Bool :=
  !s.literal && s.accepts == [.pos]

end SlotSpec

structure Kind where
  category : Category
  acceptsChildren : Bool
  slots : List SlotSpec
  /-- The operators that can be selected, as displayed. -/
  operators : List String
  /-- The operators that the executor reads under another token, with that token. -/
  wireOperators : Table String
deriving DecidableEq, Repr

namespace Kind

/-- A kind of the given category with the given slots, without children and operators. -/
def plain (category : Category) (slots : List SlotSpec) : Kind :=
  ⟨category, false, slots, [], .empty⟩

/-- The token that the executor reads for an operator. -/
def wireOperator (k : Kind) (operator : String) : String :=
  (k.wireOperators.get? operator).getD operator

end Kind

end BlockEditor
