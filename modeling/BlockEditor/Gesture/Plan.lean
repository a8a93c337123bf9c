import BlockEditor.Gesture.Basic
import BlockEditor.Palette.Lookup
import BlockEditor.View.Anchor

/-!
# Planning a drop

`Plan.ofGesture` decides what a drop would do, or why it is refused, from the workspace, the
palette and the layout.  It changes nothing, so it serves to show a drop before it happens and
to settle it before it is carried out.
-/

namespace BlockEditor

/-- What is carried to its target. -/
inductive Carried where
  /-- A block that is still to be made. -/
  | fresh (template : Template)
  /-- A placed block with all it holds. -/
  | existing (block : Block)

namespace Carried

def category : Carried → Category
  | fresh template => template.kind.category
  | existing block => block.category

/-- The placed block that is carried. -/
def block? : Carried → Option Block
  | fresh _ => none
  | existing block => some block

end Carried

/-- What a drop does. -/
inductive Plan where
  | slot (carried : Carried) (holder : String) (slot : Nat) (evicts : Option String)
  | insert (carried : Carried) (container : Container) (anchor : Anchor)
  | dispose (block : Option String)

namespace Plan

def action : Plan → Action
  | slot _ holder index evicts => .slot holder index evicts
  | insert _ container anchor => .insert container anchor
  | dispose block => .dispose block

/-- What the source of a gesture carries. -/
def carry (t : Forest) (palette : Palette) : Source → Except Rejection Carried
  | .palette id =>
    match palette id with
    | some template => .ok (.fresh template)
    | none => .error (.unknownTemplate id)
  | .workspace id =>
    match Forest.find? id t with
    | some b => .ok (.existing b)
    | none => .error (.unknownBlock id)

/-- Throwing away what a source carries.  What comes from the palette needs no template. -/
def ofDisposal (t : Forest) : Source → Except Rejection Plan
  | .palette _ => .ok (.dispose none)
  | .workspace id =>
    match Forest.find? id t with
    | some _ => .ok (.dispose (some id))
    | none => .error (.unknownBlock id)

/-- A drop into a slot: the holder is placed, its kind has the slot, it is not beneath the
carried block, the slot accepts the carried category, and the holder has the slot itself. -/
def ofSlot (t : Forest) (carried : Carried) (holder : String) (index : Nat) :
    Except Rejection Plan :=
  match Forest.find? holder t with
  | none => .error (.unknownBlock holder)
  | some h =>
    match h.kind.slots[index]? with
    | none => .error .noTarget
    | some spec =>
      match carried.block?.filter (·.contains holder) with
      | some b => .error (.intoOwnSubtree b.id)
      | none =>
        if spec.accepts.contains carried.category then
          match h.slots[index]? with
          | none => .error .noTarget
          | some content =>
            let carriedId := carried.block?.map Block.id
            let occupant := content.block?.filter fun b => carriedId ≠ some b.id
            .ok (.slot carried holder index (occupant.map Block.id))
        else .error (.typeMismatch carried.category holder index)

/-- Climbs from the block `current` to the nearest block that takes children and is not the
carried one, for no more than `fuel` blocks.  From a block in a slot it goes on to the holder of
the slot, from a block in a list it returns the list.  Each step leads to a block that `walk`
meets earlier, so as many steps suffice as there are blocks.  `asked` is the block that the drop
is over. -/
def climb (t : Forest) (carriedId : Option String) (asked : String) :
    (fuel : Nat) → (current : String) → Except Rejection Container
  | 0, _ => .error (.unknownBlock asked)
  | fuel + 1, current =>
    match Forest.find? current t with
    | none => .error (.unknownBlock asked)
    | some b =>
      if b.kind.acceptsChildren && carriedId != some current then .ok (.children current)
      else
        match Forest.locate? current t with
        | none => .error (.unknownBlock asked)
        | some location =>
          match location.container with
          | .slot holder _ => climb t carriedId asked fuel holder
          | container => .ok container

/-- The list that a drop over a block inserts into.  A drop over the carried block or a block
beneath it counts as a drop over the carried block. -/
def nestContainer (t : Forest) (carried : Option Block) (id : String) :
    Except Rejection Container :=
  let start :=
    match carried.filter (·.contains id) with
    | some b => b.id
    | none => id
  climb t (carried.map Block.id) id (Forest.size t + 1) start

/-- A drop into a list, at the height of the pointer.  The carried block is no anchor. -/
def ofInsert (t : Forest) (carried : Carried) (container : Container) (pointer : Single)
    (layout : Layout) : Plan :=
  let siblings := (Forest.sequence? t container).getD []
  let skip := carried.block?.map Block.id
  .insert carried container (.ofPointer siblings pointer layout skip)

/-- What a drop of `source` on `target` would do. -/
def ofGesture (t : Forest) (palette : Palette) (layout : Layout) (source : Source) :
    Target → Except Rejection Plan
  | .outside => .error .noTarget
  | .disposal => ofDisposal t source
  | .slot holder index => do
    let carried ← carry t palette source
    ofSlot t carried holder index
  | .block id pointer => do
    let carried ← carry t palette source
    let container ← nestContainer t carried.block? id
    return ofInsert t carried container pointer layout
  | .workspace pointer => do
    let carried ← carry t palette source
    return ofInsert t carried .root pointer layout

end Plan

end BlockEditor
