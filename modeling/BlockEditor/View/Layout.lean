import BlockEditor.Block.Tree
import BlockEditor.Numeric.Binary

/-!
# Layouts

A layout tells the vertical extent of the blocks that are shown.  `Stack` is the layout in which
all blocks of a workspace stand beneath each other in the order of `walk`, each on a row of the
same height; it serves where there is no view, as in the replay of a script.
-/

namespace BlockEditor

/-- The vertical extent of a block. -/
structure Extent where
  top : Single
  height : Single
deriving DecidableEq, Repr

namespace Extent

/-- The coordinate in the middle of the block. -/
def middle (e : Extent) : Single :=
  e.top.add (e.height.divNat 2)

end Extent

abbrev Layout := String → Option Extent

namespace Layout

/-- The layout that shows no block. -/
def hidden : Layout := fun _ => none

/-- The layout with the given extents; of two for the same block the later one counts. -/
def ofList (extents : List (String × Extent)) : Layout := fun id =>
  extents.reverse.lookup id

end Layout

/-- A row for each block, in the order of `walk`. -/
structure Stack where
  rows : List (String × Extent)
  rowHeight : Single

namespace Stack

/-- Rows for the given ids, the first at `top` and each one `rowHeight` further down. -/
def rowsFrom (rowHeight : Single) : (top : Single) → List String → List (String × Extent)
  | _, [] => []
  | top, id :: ids => (id, ⟨top, rowHeight⟩) :: rowsFrom rowHeight (top.add rowHeight) ids

/-- The stack of all blocks of a workspace. -/
def ofForest (t : Forest) (rowHeight : Single) : Stack :=
  ⟨rowsFrom rowHeight .zero (Forest.ids t), rowHeight⟩

/-- Of two rows for the same id the later one counts. -/
def layout (s : Stack) : Layout :=
  .ofList s.rows

/-- A coordinate in the upper half of the row of a block. -/
def pointerBefore? (s : Stack) (id : String) : Option Single :=
  (s.layout id).map fun e => e.top.add (s.rowHeight.divNat 4)

/-- A coordinate below all rows, if no id has two. -/
def pointerBelowAll (s : Stack) : Single :=
  (Binary.ofNat (s.rows.map Prod.fst).eraseDups.length).mul s.rowHeight

end Stack

end BlockEditor
