import BlockEditor.Block.Kind
import BlockEditor.Numeric.Binary
import BlockEditor.Workspace.Edit

/-!
# Drag gestures

A gesture picks up a `Source` and ends over a `Target`.  What a drop would do is an `Action`, and
what it did an `Outcome`; a drop that is refused gives a `Rejection` instead.  A `Failure` is either a
refusal or a panic of the program.
-/

namespace BlockEditor

/-- What the pointer picked up. -/
inductive Source where
  /-- The template with the given id. -/
  | palette (templateId : String)
  /-- The placed block with the given id. -/
  | workspace (id : String)
deriving DecidableEq, Repr

/-- What the pointer is over. -/
inductive Target where
  | slot (block : String) (slot : Nat)
  /-- A placed block, over which a drop nests into the nearest block that takes children. -/
  | block (block : String) (pointer : Single)
  | workspace (pointer : Single)
  /-- The place where blocks are thrown away. -/
  | disposal
  /-- A place where nothing can be dropped. -/
  | outside
deriving DecidableEq, Repr

/-- What a drop would do. -/
inductive Action where
  /-- Puts the block into a slot; the block that is there moves to the top level. -/
  | slot (holder : String) (slot : Nat) (evicts : Option String)
  | insert (container : Container) (anchor : Anchor)
  /-- Throws a placed block away, or nothing if the block comes from the palette. -/
  | dispose (block : Option String)
deriving DecidableEq, Repr

/-- What a drop did. -/
inductive Outcome where
  | inserted (id : String) (container : Container)
  | slotted (id holder : String) (slot : Nat) (evicted : Option String)
  /-- The block is gone with all it held, `removed` blocks together. -/
  | deleted (id : String) (removed : Nat)
  | ignored
deriving DecidableEq, Repr

/-- Why a drop is refused. -/
inductive Rejection where
  | typeMismatch (category : Category) (holder : String) (slot : Nat)
  | noTarget
  | unknownTemplate (id : String)
  | unknownBlock (id : String)
  | intoOwnSubtree (carried : String)
  | notDragging
deriving DecidableEq, Repr

def Rejection.message : Rejection → String
  | .typeMismatch category holder slot =>
    let title := category.title
    s!"block type `{title}` not allowed in slot {slot} of `{holder}`"
  | .noTarget => "no drop target"
  | .unknownTemplate id => s!"unknown palette template `{id}`"
  | .unknownBlock id => s!"unknown block `{id}`"
  | .intoOwnSubtree carried => s!"`{carried}` cannot be dropped into its own subtree"
  | .notDragging => "no drag in progress"

/-- Why a drop comes to no outcome. -/
inductive Failure where
  | rejected (reason : Rejection)
  /-- The program panics: the block with the given id is located past the end of a list. -/
  | panicked (id : String)
deriving DecidableEq, Repr

/-- The reason of a refusal.  Where the program panics there is none, and what is carried counts as
unknown. -/
def Failure.reason : Failure → Rejection
  | .rejected reason => reason
  | .panicked id => .unknownBlock id

end BlockEditor
