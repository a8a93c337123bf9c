import BlockEditor.Program.Pass
import BlockEditor.Proofs.Blanks
import Mathlib.Logic.Function.Iterate

/-!
# The pass writes the outline

Counted from the beginning, the names that a pass gives out are `Pass.nameAt`, and `Pass.after` is what
it keeps by then.  A pass that has given out `k` names writes the node of a block as the outline of the
block is written with the names from number `k` on, and by then it has given out as many more as there
are blanks in the outline.  So a program that is written in one pass is the program of the outline.
-/

namespace BlockEditor

/-! ### The names of a pass -/

namespace Pass

/-- What is kept when as many names as are counted have been given out. -/
def after (now : UInt64) (p : Pass) (count : Nat) : Pass :=
  (fun p => (p.name now).2)^[count] p

/-- The name that is given out behind as many others as are counted. -/
def nameAt (now : UInt64) (p : Pass) (count : Nat) : String :=
  ((p.after now count).name now).1

section

variable {r : Registry} {now : UInt64} (p : Pass) (k : Nat)

/-- A draw gives the next name and leaves the state that many draws on. -/
theorem name_after :
  (p.after now k).name now = (p.nameAt now k, p.after now (k + 1))
  := by
  have hnext : p.after now (k + 1) = ((p.after now k).name now).2 :=
    Function.iterate_succ_apply' _ k p
  rw [hnext, nameAt]

theorem unnamed_after (value : Option String) :
  (p.after now k).unnamed now value
    = (⟨p.nameAt now k, p.nameAt now k, Category.var.wireName, value⟩, p.after now (k + 1))
  := by
  rw [unnamed, name_after]

/-- The names of a pass are those that are given out one after the other. -/
theorem getElem?_several {count : Nat} (hk : k < count) :
  (SyntheticName.several now p.entropy p.taken count)[k]? = some (p.nameAt now k)
  := by
  induction count generalizing p k with
  | zero => contradiction
  | succ count ih =>
    rw [SyntheticName.several_succ]
    cases k with
    | zero => rfl
    | succ k => apply ih (p.name now).2 k (Nat.lt_of_succ_lt_succ hk)

/-! ### Variables -/

/-- The variables of slots draw as many names as there are blanks among the parts of the slots. -/
theorem slotVariables_after (cs : Slots) :
  slotVariables r now cs (p.after now k)
    = (Outline.Part.write (p.nameAt now) k (cs.filterMap (Outline.slotPart? r)),
      p.after now (k + Outline.Part.blanks (cs.filterMap (Outline.slotPart? r))))
  := by
  induction cs generalizing k with
  | nil => rfl
  | cons c cs ih =>
    rw [List.filterMap_cons]
    cases c with
    | empty => apply ih
    | literal value =>
      rw [slotVariables, unnamed_after]
      dsimp only [Outline.slotPart?]
      rw [ih, Outline.Part.write, Outline.Part.blanks, Nat.add_right_comm, Nat.add_assoc]
    | block b =>
      rw [slotVariables, Outline.slotPart?, bound?, Outline.bound?]
      split
      · cases r.lookup? b.label with
        | none => apply ih
        | some entry =>
          dsimp only [Option.map_some]
          rw [ih, Outline.Part.write, Outline.Part.blanks]
      · apply ih

/-- An axis is written as its part of the outline says. -/
theorem axisVariable_after (content : Option (Content Block)) :
  axisVariable r now content (p.after now k)
    = match Outline.axisPart r content with
      | .bound id text value => (⟨id, text, Category.var.wireName, value⟩, p.after now k)
      | .blank value =>
        (⟨p.nameAt now k, p.nameAt now k, Category.var.wireName, value⟩, p.after now (k + 1))
  := by
  cases content with
  | none => apply unnamed_after
  | some content =>
    cases content with
    | empty => apply unnamed_after
    | literal value => apply unnamed_after
    | block b =>
      rw [axisVariable, Outline.axisPart, Option.bind_some, Outline.slotPart?, bound?, Outline.bound?]
      split
      · cases r.lookup? b.label with
        | none => apply unnamed_after
        | some entry => rfl
      · apply unnamed_after

/-- The variables of axes draw as many names as there are blanks among the axes. -/
theorem axisVariables_after (slots : Slots) (is : List Nat) :
  axisVariables r now slots is (p.after now k)
    = (Outline.Part.write (p.nameAt now) k (is.map fun i => Outline.axisPart r slots[i]?),
      p.after now (k + Outline.Part.blanks (is.map fun i => Outline.axisPart r slots[i]?)))
  := by
  induction is generalizing k with
  | nil => rfl
  | cons i is ih =>
    rw [axisVariables, axisVariable_after, List.map_cons]
    cases Outline.axisPart r slots[i]? with
    | bound id text value =>
      dsimp only
      rw [ih, Outline.Part.write, Outline.Part.blanks]
    | blank value =>
      dsimp only
      rw [ih, Outline.Part.write, Outline.Part.blanks, Nat.add_right_comm, Nat.add_assoc]

theorem ownVariables_after (face : Face) (slots : Slots) :
  ownVariables r now face slots (p.after now k)
    = (Outline.Part.write (p.nameAt now) k (Outline.ownParts r face slots),
      p.after now (k + Outline.Part.blanks (Outline.ownParts r face slots)))
  := by
  rw [ownVariables, Outline.ownParts]
  split
  · apply axisVariables_after
  · apply slotVariables_after

end

end Pass

/-! ### Nodes -/

/-- Behind the variables that are there already, the node of a position lends its own first. -/
theorem Outline.append_lent_cons {n : Node} {category : Category} (h : n.type = category.wireName)
    (vars : List Variable) (ns : List Node) :
  vars ++ Outline.lent (n :: ns)
    = (if category = .pos then vars ++ n.vars else vars) ++ Outline.lent ns
  := by
  by_cases hpos : category = .pos
  · rw [hpos] at h
    simp [Outline.lent, h, hpos]
  · have hother : n.type ≠ Category.pos.wireName := by
      rw [h]
      intro hname
      apply hpos (Category.eq_pos_of_wireName hname)
    simp [Outline.lent, hother, hpos]

theorem Block.type_write_outline (r : Registry) (name : Nat → String) (next : Nat) (b : Block) :
  ((b.outline r).write name next).type = b.face.kind.category.wireName
  := by
  rw [Block.outline_eq, Outline.write]

section

variable {r : Registry} {now : UInt64} (p : Pass)

mutual

/-- The node of a block is written as the outline of the block is. -/
theorem Block.serialize_after :
  ∀ (b : Block) (k : Nat), b.serialize r now (p.after now k)
    = ((b.outline r).write (p.nameAt now) k, p.after now (k + (b.outline r).blanks))
  | ⟨face, none, slots⟩, k => by
      rw [Block.serialize, Pass.ownVariables_after, Block.outline, Outline.write, Outline.blanks]
      dsimp only
      rw [Slots.serialize_after slots, Outline.blanksOfAll, Nat.add_zero, Nat.add_assoc]
      rfl
  | ⟨face, some blocks, slots⟩, k => by
      rw [Block.serialize, Pass.ownVariables_after, Block.outline, Outline.write, Outline.blanks]
      dsimp only
      rw [Forest.serialize_after blocks]
      dsimp only
      rw [Slots.serialize_after slots]
      simp only [Nat.add_assoc]

/-- A list of blocks is serialized from where the names before it end. -/
theorem Forest.serialize_after :
  ∀ (t : List Block) (k : Nat), Forest.serialize r now t (p.after now k)
    = (Outline.writeAll (p.nameAt now) k (Forest.outline r t),
      p.after now (k + Outline.blanksOfAll (Forest.outline r t)))
  | [], k => rfl
  | b :: bs, k => by
      rw [Forest.serialize, Forest.outline]
      split
      · apply Forest.serialize_after bs
      · rw [Block.serialize_after b]
        dsimp only
        rw [Forest.serialize_after bs, Outline.writeAll, Outline.blanksOfAll, Nat.add_assoc]

/-- The blocks in slots add their nodes to those before them, and what they lend to the variables. -/
theorem Slots.serialize_after :
  ∀ (cs : List (Content Block)) (vars : List Variable) (nodes : List Node) (k : Nat),
    Slots.serialize r now cs vars nodes (p.after now k)
    = (vars ++ Outline.lent (Outline.writeAll (p.nameAt now) k (Slots.outline r cs)),
      nodes ++ Outline.writeAll (p.nameAt now) k (Slots.outline r cs),
      p.after now (k + Outline.blanksOfAll (Slots.outline r cs)))
  | [], vars, nodes, k => by simp [Slots.serialize, Slots.outline, Outline.lent, Outline.writeAll,
      Outline.blanksOfAll]
  | .empty :: cs, vars, nodes, k => Slots.serialize_after cs vars nodes k
  | .literal _ :: cs, vars, nodes, k => Slots.serialize_after cs vars nodes k
  | .block b :: cs, vars, nodes, k => by
      rw [Slots.serialize, Slots.outline]
      split
      · apply Slots.serialize_after cs
      · have htype := Block.type_write_outline r (p.nameAt now) k b
        rw [Block.serialize_after b]
        dsimp only
        rw [Slots.serialize_after cs, Outline.writeAll, Outline.blanksOfAll,
          Outline.append_lent_cons htype]
        rw [List.append_assoc, List.singleton_append, Nat.add_assoc]

end

end

/-! ### Programs -/

section

variable {name name' : Nat → String} {bound : Nat}

theorem Outline.Part.write_of_agree (hname : ∀ k < bound, name k = name' k)
    (ps : List Outline.Part) {next : Nat} (hfit : next + Outline.Part.blanks ps ≤ bound) :
  Outline.Part.write name next ps = Outline.Part.write name' next ps
  := by
  induction ps generalizing next with
  | nil => rfl
  | cons part ps ih =>
    cases part with
    | bound id text value =>
      rw [Outline.Part.write, Outline.Part.write, ih hfit]
    | blank value =>
      rw [Outline.Part.blanks] at hfit
      rw [Outline.Part.write, Outline.Part.write, hname next (by omega), ih (by omega)]

mutual

/-- An outline is written with the names for its blanks, and with no others. -/
theorem Outline.write_of_agree (hname : ∀ k < bound, name k = name' k) :
  ∀ (o : Outline) {next : Nat}, next + o.blanks ≤ bound → o.write name next = o.write name' next
  | ⟨face, own, nested, held⟩, next, hfit => by
      rw [Outline.blanks] at hfit
      rw [Outline.write, Outline.write, Outline.Part.write_of_agree hname own (by omega),
        Outline.writeAll_of_agree hname nested (by omega),
        Outline.writeAll_of_agree hname held (by omega)]

/-- Outlines are written alike under namings that agree as far as the outlines count. -/
theorem Outline.writeAll_of_agree (hname : ∀ k < bound, name k = name' k) :
  ∀ (os : List Outline) {next : Nat}, next + Outline.blanksOfAll os ≤ bound →
    Outline.writeAll name next os = Outline.writeAll name' next os
  | [], _, _ => rfl
  | o :: os, next, hfit => by
      rw [Outline.blanksOfAll] at hfit
      rw [Outline.writeAll, Outline.writeAll, Outline.write_of_agree hname o (by omega),
        Outline.writeAll_of_agree hname os (by omega)]

end

end

/-- The program that is written in one pass is the one that is written from the outline. -/
theorem Program.serialize_eq_ofForest (r : Registry) (now : UInt64) (t : Forest) :
  Program.serialize r now t = Program.ofForest r now t
  := by
  have hpass : Forest.serialize r now t (.start r now) = _ := Forest.serialize_after (.start r now) t 0
  have hname : ∀ k < Outline.blanksOfAll (Forest.outline r t), (Pass.start r now).nameAt now k
      = (Program.syntheticNames r now (Outline.blanksOfAll (Forest.outline r t))).getD k "" := by
    intro k hk
    have hget : (SyntheticName.several now (.seeded now) r.takenNames _)[k]? = _ :=
      Pass.getElem?_several (.start r now) k hk
    rw [List.getD_eq_getElem?_getD, Program.syntheticNames, hget, Option.getD_some]
  rw [Program.serialize, hpass, Program.ofForest]
  apply Outline.writeAll_of_agree hname
  rw [Nat.zero_add]

end BlockEditor
