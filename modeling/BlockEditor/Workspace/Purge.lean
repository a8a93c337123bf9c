import BlockEditor.Block.Tree

/-!
# Removing the copies of a template

`Forest.purge` removes every block that was made from a template, at any depth, with all it
holds.  A slot that held such a block is left empty.  The ids of the removed blocks come in the
order of removal: the blocks of a list before the blocks beneath those that stay.
-/

namespace BlockEditor

/-- The ids of the copies of a template among the blocks of a list. -/
def Forest.copyIds (templateId : String) (bs : List Block) : List String :=
  (bs.filter fun b => b.templateId = templateId).map Block.id

mutual

/-- The block without the copies beneath it, and the ids of those. -/
def Block.purge (templateId : String) : Block → List String × Block
  | ⟨face, children, slots⟩ =>
    let (removed, children) :=
      match children with
      | some blocks =>
        let (beneath, kept) := Forest.purgeBeneath templateId blocks
        (Forest.copyIds templateId blocks ++ beneath, some kept)
      | none => ([], none)
    let (emptied, slots) := Slots.purge templateId slots
    (removed ++ emptied, ⟨face, children, slots⟩)

/-- The blocks of the list that are no copies, without the copies beneath them, and the ids of
the latter. -/
def Forest.purgeBeneath (templateId : String) : List Block → List String × List Block
  | [] => ([], [])
  | b :: bs =>
    let (rest, kept) := Forest.purgeBeneath templateId bs
    if b.face.templateId = templateId then (rest, kept)
    else
      let (removed, b) := b.purge templateId
      (removed ++ rest, b :: kept)

/-- The slots without the copies in them and beneath their occupants, and the ids of those. -/
def Slots.purge (templateId : String) :
    List (Content Block) → List String × List (Content Block)
  | [] => ([], [])
  | .block b :: cs =>
    let (rest, kept) := Slots.purge templateId cs
    if b.face.templateId = templateId then (b.face.id :: rest, .empty :: kept)
    else
      let (removed, b) := b.purge templateId
      (removed ++ rest, .block b :: kept)
  | c :: cs =>
    let (rest, kept) := Slots.purge templateId cs
    (rest, c :: kept)

end

namespace Forest

/-- The workspace without the copies of a template, and the ids of the removed blocks. -/
def purge (templateId : String) (t : Forest) : List String × Forest :=
  let (beneath, kept) := purgeBeneath templateId t
  (copyIds templateId t ++ beneath, kept)

end Forest

end BlockEditor
