import BlockEditor.View.Layout
import BlockEditor.Workspace.Edit

/-!
# Where a drop inserts

A drop into a list of blocks inserts in front of the block whose middle is the nearest one below
the pointer, and at the end if no middle is below the pointer.
-/

namespace BlockEditor

namespace Anchor

/-- How far the middle of an extent is below the pointer, in units of single precision; `none`
if it is not below it or not at a finite distance. -/
def distanceBelow? (pointer : Single) (e : Extent) : Option Nat :=
  match pointer.sub e.middle with
  | .finite true units => if units = 0 then none else some units
  | _ => none

/-- How far a block is below the pointer, if drops can anchor at it: entries of the palette, the
skipped block and blocks that are not shown are left out. -/
def candidate? (layout : Layout) (pointer : Single) (skip : Option String) (b : Block) :
    Option (String × Nat) :=
  if b.palette || skip == some b.id then none
  else
    match layout b.id with
    | some e => (distanceBelow? pointer e).map fun distance => (b.id, distance)
    | none => none

/-- The first of the nearest candidates. -/
def nearest? : List (String × Nat) → Option (String × Nat)
  | [] => none
  | c :: cs =>
    match nearest? cs with
    | some d => if d.2 < c.2 then some d else some c
    | none => some c

/-- The anchor among the blocks of a list for a drop at the height of the pointer. -/
def ofPointer (siblings : List Block) (pointer : Single) (layout : Layout)
    (skip : Option String) : Anchor :=
  if pointer.isFinite then
    match nearest? (siblings.filterMap (candidate? layout pointer skip)) with
    | some (id, _) => .before id
    | none => .last
  else .last

end Anchor

end BlockEditor
