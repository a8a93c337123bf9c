import BlockEditor.Block.InstanceId
import BlockEditor.Gesture.Plan
import BlockEditor.Time.Clock

/-!
# The canvas

A canvas is a workspace with the gesture in progress.  `Canvas.hover` shows what a drop would
do, and `Canvas.finish` does it.  A drop ends the gesture, and one that is refused leaves the
workspace as it was.  Where ids are repeated the program may panic in a drop.  `Canvas.drop` is the
drop as it is answered, where there is no word of a panic.

A block from the palette gets an id with a stamp: the time, or a later stamp if that one was
given out already or the id is in use.  Stamps are words, and the one after the greatest word is
zero: a program that is checked for overflow panics there.
-/

namespace BlockEditor

structure Canvas where
  tree : Forest
  /-- What the gesture in progress carries. -/
  gesture : Option Source
  clock : Clock
  /-- The stamp that was given out last. -/
  lastStamp : Option UInt64

namespace Canvas

/-- A canvas that begins with the given workspace. -/
def ofForest (t : Forest) (clock : Clock) : Canvas :=
  ⟨t, none, clock, none⟩

/-- Begins a gesture; one in progress is given up. -/
def start (c : Canvas) (source : Source) : Canvas :=
  { c with gesture := some source }

/-- Gives up the gesture in progress. -/
def cancel (c : Canvas) : Canvas :=
  { c with gesture := none }

/-- Empties the workspace, if that is confirmed. -/
def clear (c : Canvas) (confirmed : Bool) : Canvas :=
  if confirmed then { c with tree := [] } else c

/-- What a drop on the target would do. -/
def hover (c : Canvas) (palette : Palette) (layout : Layout) (target : Target) :
    Except Rejection Action :=
  match c.gesture with
  | none => .error .notDragging
  | some source => (Plan.ofGesture c.tree palette layout source target).map Plan.action

/-- The first stamp from `stamp` on with which no block is placed, among `fuel` stamps.  The search
goes on with zero after the greatest word, as a program does that is not checked for overflow. -/
def freeStamp (t : Forest) (templateId : String) : (fuel : Nat) → (stamp : UInt64) → UInt64
  | 0, stamp => stamp
  | fuel + 1, stamp =>
    if (Forest.find? (InstanceId.make templateId stamp) t).isSome then
      freeStamp t templateId fuel (stamp + 1)
    else stamp

/-- The first stamp that may be given to a new block: the reading of the clock, or the stamp after
the last one if the clock is not past that.  The stamp after the greatest word is zero, as it is in a
program that is not checked for overflow. -/
def firstStamp (c : Canvas) : UInt64 :=
  let now := c.clock.now
  match c.lastStamp with
  | some last => if now ≤ last then last + 1 else now
  | none => now

/-- The stamp for a new block of a template: the first one, or a later one if that is in use.
There are no more stamps in use than blocks. -/
def nextStamp (c : Canvas) (templateId : String) : UInt64 :=
  freeStamp c.tree templateId (Forest.size c.tree) c.firstStamp

/-- Makes a new block of a template. -/
def issue (c : Canvas) (template : Template) : Block × Canvas :=
  let stamp := c.nextStamp template.id
  (template.instantiate (InstanceId.make template.id stamp),
    { c with clock := c.clock.tick, lastStamp := some stamp })

/-- Takes up what a plan carries: makes the new block, or takes the placed one out of the
workspace. -/
def take (c : Canvas) : Carried → Except Failure Block × Canvas
  | .fresh template =>
    let (b, c) := c.issue template
    (.ok b, c)
  | .existing b =>
    match Forest.takeOut b.id c.tree with
    | (.taken b, tree) => (.ok b, { c with tree := tree })
    | (.missing, tree) => (.error (.rejected (.unknownBlock b.id)), { c with tree := tree })
    | (.panicked, tree) => (.error (.panicked b.id), { c with tree := tree })

/-- The block that a slot gives up when another one is put into it. -/
def evicted? (previous : Content Block) : Option Block :=
  previous.block?.map fun b => { b with face := { b.face with palette := false } }

/-- Puts a block into a slot and the block that was there at the end of the top level. -/
def putInSlot (t : Forest) (b : Block) (holder : String) (slot : Nat) :
    Except Rejection (Outcome × Forest) :=
  match Forest.placeInSlot? holder slot b t with
  | none => .error (.unknownBlock holder)
  | some (previous, t) =>
    match evicted? previous with
    | some old => .ok (.slotted b.id holder slot (some old.id), t ++ [old])
    | none => .ok (.slotted b.id holder slot none, t)

def putInList (t : Forest) (b : Block) (container : Container) (anchor : Anchor) :
    Except Rejection (Outcome × Forest) :=
  match Forest.insert? container anchor b t with
  | none => .error .noTarget
  | some t => .ok (.inserted b.id container, t)

/-- Takes up what is carried and puts it down.  If that is refused the workspace is as before; stamps
that were given out stay given out.  A panic comes before the workspace is put back. -/
def place (c : Canvas) (carried : Carried)
    (put : Forest → Block → Except Rejection (Outcome × Forest)) :
    Except Failure Outcome × Canvas :=
  match c.take carried with
  | (.error (.panicked id), after) => (.error (.panicked id), after)
  | (.error (.rejected e), after) => (.error (.rejected e), { after with tree := c.tree })
  | (.ok b, after) =>
    match put after.tree b with
    | .error e => (.error (.rejected e), { after with tree := c.tree })
    | .ok (outcome, tree) => (.ok outcome, { after with tree := tree })

/-- Throws a placed block away. -/
def dispose (c : Canvas) (id : String) : Except Failure Outcome × Canvas :=
  match Forest.takeOut id c.tree with
  | (.taken b, tree) => (.ok (.deleted id b.size), { c with tree := tree })
  | (.missing, tree) => (.error (.rejected (.unknownBlock id)), { c with tree := tree })
  | (.panicked, tree) => (.error (.panicked id), { c with tree := tree })

/-- Carries out a plan. -/
def apply (c : Canvas) : Plan → Except Failure Outcome × Canvas
  | .dispose none => (.ok .ignored, c)
  | .dispose (some id) => c.dispose id
  | .slot carried holder slot _ => c.place carried fun t b => putInSlot t b holder slot
  | .insert carried container anchor =>
    c.place carried fun t b => putInList t b container anchor

/-- Ends the gesture over the target. -/
def finish (c : Canvas) (palette : Palette) (layout : Layout) (target : Target) :
    Except Failure Outcome × Canvas :=
  match c.gesture with
  | none => (.error (.rejected .notDragging), c)
  | some source =>
    match Plan.ofGesture c.tree palette layout source target with
    | .error e => (.error (.rejected e), c.cancel)
    | .ok plan => c.cancel.apply plan

/-- Ends the gesture over the target, and answers with the outcome or the reason of the refusal. -/
def drop (c : Canvas) (palette : Palette) (layout : Layout) (target : Target) :
    Except Rejection Outcome × Canvas :=
  let (result, c) := c.finish palette layout target
  (result.mapError Failure.reason, c)

end Canvas

end BlockEditor
