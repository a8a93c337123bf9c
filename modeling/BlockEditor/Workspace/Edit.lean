import BlockEditor.Workspace.Search

/-!
# Editing a workspace

`update?` changes the first block with an id, the one that `find?` returns.  The operations below
move blocks in and out of containers.  They do not ask whether a slot accepts a block: that is
settled before a gesture is carried out.
-/

namespace BlockEditor

mutual

/-- Changes the first block with the given id; `none` if there is none. -/
def Block.update? (id : String) (f : Block → Block) : Block → Option Block
  | ⟨face, children, slots⟩ =>
    if face.id = id then some (f ⟨face, children, slots⟩)
    else
      (match children with
        | some blocks => (Forest.update? id f blocks).map fun blocks => ⟨face, some blocks, slots⟩
        | none => none)
        <|> (Slots.update? id f slots).map fun slots => ⟨face, children, slots⟩

def Forest.update? (id : String) (f : Block → Block) : List Block → Option (List Block)
  | [] => none
  | b :: bs => (b.update? id f).map (· :: bs) <|> (Forest.update? id f bs).map (b :: ·)

def Slots.update? (id : String) (f : Block → Block) :
    List (Content Block) → Option (List (Content Block))
  | [] => none
  | .block b :: cs =>
    (b.update? id f).map (.block · :: cs) <|> (Slots.update? id f cs).map (.block b :: ·)
  | c :: cs => (Slots.update? id f cs).map (c :: ·)

end

/-- What an anchor of an insertion says: in front of which block of the container. -/
inductive Anchor where
  | before (id : String)
  | last
deriving DecidableEq, Repr

namespace Anchor

/-- The position in a list of blocks at which the anchor inserts.  An anchor that is not in the
list inserts at the end. -/
def position (a : Anchor) (bs : List Block) : Nat :=
  match a with
  | .before id => (Forest.indexOf? id bs).getD bs.length
  | .last => bs.length

end Anchor

/-- What it comes to that a block is taken out of a workspace. -/
inductive Removal where
  | taken (b : Block)
  /-- There is no block at the place where it is located. -/
  | missing
  /-- The place is past the end of the list, and the program panics.  This is only so in a workspace
  with repeated ids, where the block that holds the place need not be the first one with its id. -/
  | panicked

namespace Forest

/-- Gives a slot of the first block with the given id another content, if there is such a slot. -/
def setSlot (holder : String) (slot : Nat) (content : Content Block) (t : Forest) : Forest :=
  (update? holder (fun h => { h with slots := h.slots.set slot content }) t).getD t

/-- Takes what a slot holds out of it.  What is no block is put back. -/
def takeFromSlot (holder : String) (slot : Nat) (t : Forest) : Removal × Forest :=
  match (find? holder t).bind fun h => h.slots[slot]? with
  | none => (.missing, t)
  | some content =>
    let emptied := setSlot holder slot .empty t
    match content with
    | .block b => (.taken b, emptied)
    | other => (.missing, setSlot holder slot other emptied)

/-- Takes the block at a position out of a list.  There may be no such list, and the list may end
before the position. -/
def takeFromList (container : Container) (index : Nat) (t : Forest) : Removal × Forest :=
  match sequence? t container with
  | none => (.missing, t)
  | some bs =>
    match bs[index]? with
    | none => (.panicked, t)
    | some b =>
      match container with
      | .children holder =>
        (.taken b, (update? holder
          (fun h => { h with children := h.children.map (·.eraseIdx index) }) t).getD t)
      | _ => (.taken b, t.eraseIdx index)

/-- Takes a block with all it holds out of the workspace, from where it is located, and leaves the
workspace without it.  A slot is left empty. -/
def takeOut (id : String) (t : Forest) : Removal × Forest :=
  match locate? id t with
  | none => (.missing, t)
  | some location =>
    match location.container with
    | .slot holder slot => takeFromSlot holder slot t
    | container => takeFromList container location.index t

/-- A block that is taken out, with the workspace that is left; `none` if no block is taken out, also if
the program panics. -/
def detach (id : String) (t : Forest) : Option (Block × Forest) :=
  match takeOut id t with
  | (.taken b, t) => some (b, t)
  | (_, _) => none

/-- Inserts a block into a container that holds a list; `none` if there is no such container. -/
def insert? (container : Container) (anchor : Anchor) (b : Block) (t : Forest) :
    Option Forest :=
  let insertInto (bs : List Block) : List Block := bs.insertIdx (anchor.position bs) b
  match container with
  | .root => some (insertInto t)
  | .children holder =>
    match sequence? t (.children holder) with
    | some _ => update? holder (fun h => { h with children := h.children.map insertInto }) t
    | none => none
  | .slot _ _ => none

/-- Puts a block into a slot, and returns what the slot held before with the new workspace;
`none` if there is no such slot. -/
def placeInSlot? (holder : String) (slot : Nat) (b : Block) (t : Forest) :
    Option (Content Block × Forest) := do
  let h ← find? holder t
  let previous ← h.slots[slot]?
  let t ← update? holder (fun h => { h with slots := h.slots.set slot (.block b) }) t
  return (previous, t)

end Forest

end BlockEditor
