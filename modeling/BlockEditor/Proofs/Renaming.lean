import BlockEditor.Proofs.Naming
import Mathlib.Logic.Equiv.Basic

/-!
# Programs up to their synthetic names

`Program.rename ρ` puts other names into a program, for its synthetic names alone.  A program whose blanks
were given names becomes the one that is written with the names that `ρ` makes of them.  So the programs of
a workspace at two times are renamings of each other: both times the same number of names is given out,
and no two of them are equal.
-/

namespace BlockEditor

/-- The variable with another name if it has a synthetic one. -/
def Variable.rename (ρ : String → String) (v : Variable) : Variable :=
  if v.isSynthetic then { v with id := ρ v.id, text := ρ v.text } else v

mutual

/-- The node with other names for its synthetic variables, and for those of the nodes beneath it. -/
def Node.rename (ρ : String → String) : Node → Node
  | ⟨id, type, text, vars, children⟩ =>
    ⟨id, type, text, vars.map (Variable.rename ρ), Program.rename ρ children⟩

def Program.rename (ρ : String → String) : List Node → List Node
  | [] => []
  | n :: ns => n.rename ρ :: Program.rename ρ ns

end

section

variable {ρ : String → String}

theorem Node.rename_mk (id type text : String) (vars : List Variable) (children : List Node) :
  Node.rename ρ ⟨id, type, text, vars, children⟩
    = ⟨id, type, text, vars.map (Variable.rename ρ), Program.rename ρ children⟩
  := rfl

theorem Program.rename_append (p q : List Node) :
  Program.rename ρ (p ++ q) = Program.rename ρ p ++ Program.rename ρ q
  := by
  induction p with
  | nil => rfl
  | cons n p ih => rw [List.cons_append, Program.rename, Program.rename, ih, List.cons_append]

/-! ### Written outlines -/

/-- Renaming keeps what is lent: types are kept. -/
theorem Outline.lent_rename (held : List Node) :
  Outline.lent (Program.rename ρ held) = (Outline.lent held).map (Variable.rename ρ)
  := by
  induction held with
  | nil => rfl
  | cons n held ih =>
    obtain ⟨id, type, text, vars, children⟩ := n
    rw [Outline.lent] at ih ⊢
    rw [Program.rename, Node.rename_mk, List.filter_cons, Outline.lent, List.filter_cons]
    dsimp only
    split
    · rw [List.flatMap_cons, List.flatMap_cons, List.map_append, ih, Outline.lent]
    · rw [ih, Outline.lent]

section

variable {r : Registry} {name name' : Nat → String} {bound : Nat}

/-- The names that are written are synthetic, and `ρ` makes other ones of them. -/
structure SyntheticName.Renames (ρ : String → String) (name name' : Nat → String) (bound : Nat) :
    Prop where
  isName : ∀ k < bound, isName (name k) = true
  eq : ∀ k < bound, ρ (name k) = name' k

theorem Outline.Part.map_rename_write (hnames : SyntheticName.Renames ρ name name' bound) {next : Nat}
    {ps : List Part}
    (hbound : ∀ id text value, Part.bound id text value ∈ ps → SyntheticName.isName id = false)
    (hfit : next + Part.blanks ps ≤ bound) :
  (Part.write name next ps).map (Variable.rename ρ) = Part.write name' next ps
  := by
  induction ps generalizing next with
  | nil => rfl
  | cons p ps ih =>
    have hbound' : ∀ id text value, Part.bound id text value ∈ ps → SyntheticName.isName id = false :=
      fun id text value h => hbound id text value (List.mem_cons_of_mem p h)
    cases p with
    | bound id text value =>
      have hid := hbound id text value (List.mem_cons_self ..)
      have hplain : Variable.isSynthetic ⟨id, text, Category.var.wireName, value⟩ = false := hid
      rw [Part.blanks] at hfit
      rw [Part.write, Part.write, List.map_cons, ih hbound' hfit, Variable.rename, hplain]
      rfl
    | blank value =>
      rw [Part.blanks] at hfit
      have hname := hnames.isName next (by omega)
      have hsynthetic : Variable.isSynthetic ⟨name next, name next, Category.var.wireName, value⟩ = true :=
        hname
      rw [Part.write, Part.write, List.map_cons, ih hbound' (by omega), Variable.rename,
        if_pos hsynthetic]
      dsimp only
      rw [hnames.eq next (by omega)]

theorem Outline.rename_writeAll {bs : List Block}
    (h : ∀ b ∈ bs, ∀ next, next + (b.outline r).blanks ≤ bound →
      ((b.outline r).write name next).rename ρ = (b.outline r).write name' next)
    {next : Nat} (hfit : next + Outline.blanksOfAll (bs.map (Block.outline r)) ≤ bound) :
  Program.rename ρ (Outline.writeAll name next (bs.map (Block.outline r)))
    = Outline.writeAll name' next (bs.map (Block.outline r))
  := by
  induction bs generalizing next with
  | nil => rfl
  | cons b bs ih =>
    obtain ⟨hb, hbs⟩ := List.forall_mem_cons.mp h
    rw [List.map_cons, Outline.blanksOfAll] at hfit
    rw [List.map_cons, Outline.writeAll, Outline.writeAll, Program.rename, hb next (by omega),
      ih hbs (by omega)]

/-- The node that is written for a block, with the names replaced, is the one that is written with the
other names. -/
theorem Block.rename_write (hnames : SyntheticName.Renames ρ name name' bound) (b : Block)
    (hids : ∀ c ∈ b.walk, SyntheticName.isName c.id = false) {next : Nat}
    (hfit : next + (b.outline r).blanks ≤ bound) :
  ((b.outline r).write name next).rename ρ = (b.outline r).write name' next
  := by
  induction b using Block.induct generalizing next with
  | step b ih =>
    have hbeneath : ∀ c ∈ b.shownBeneath, ∀ next, next + (c.outline r).blanks ≤ bound →
        ((c.outline r).write name next).rename ρ = (c.outline r).write name' next := by
      intro c hc next hfit
      have hmem := Block.mem_of_mem_shownBeneath hc
      apply ih c hmem _ hfit
      intro d hd
      apply hids d (Block.walk_subset_of_mem hmem hd)
    obtain ⟨hchildren, hoccupants⟩ := List.forall_mem_append.mp hbeneath
    have hown : ∀ id text value, Outline.Part.bound id text value ∈ Outline.ownParts r b.face b.slots →
        SyntheticName.isName id = false := by
      intro id text value h
      obtain ⟨c, hc, -, rfl, -⟩ := Outline.of_bound_mem_ownParts h
      apply hids c (Block.mem_walk_of_mem_slots hc)
    rw [Block.outline_eq] at hfit ⊢
    rw [Outline.blanks] at hfit
    rw [Outline.write, Outline.write, Node.rename_mk, List.map_append, Program.rename_append,
      ← Outline.lent_rename, Outline.Part.map_rename_write hnames hown (by omega),
      Outline.rename_writeAll hchildren (by omega), Outline.rename_writeAll hoccupants (by omega)]

/-- A program, with its names replaced, is the one that is written with the other names. -/
theorem Program.rename_ofForest {now : UInt64} {t : Forest}
    (hids : ∀ id ∈ Forest.ids t, SyntheticName.isName id = false)
    (h : ∀ k < Outline.blanksOfAll (Forest.outline r t), ρ (Program.nameAt r now t k) = name' k) :
  Program.rename ρ (Program.ofForest r now t) = Outline.writeAll name' 0
    ((t.filter (Block.isShown false)).map (Block.outline r))
  := by
  have hnames : SyntheticName.Renames ρ (Program.nameAt r now t) name' _ :=
    ⟨fun _ hk => Program.isName_nameAt hk, h⟩
  rw [Program.ofForest_eq]
  rw [Forest.outline_eq_map] at hnames
  apply Outline.rename_writeAll _ (Nat.le_of_eq (Nat.zero_add _))
  intro b hb next hfit
  apply Block.rename_write hnames b _ hfit
  apply Forest.plain_of_mem hids (List.mem_of_mem_filter hb)

end

end

/-! ### Two times -/

/-- Lists without repetition that are of one length are images of each other under a permutation, which
moves nothing but what has a property that all of their elements have. -/
theorem exists_perm_map_eq {α : Type} [DecidableEq α] {P : α → Prop} {xs ys : List α}
    (hxs : xs.Nodup) (hys : ys.Nodup) (hlength : xs.length = ys.length) (hx : ∀ x ∈ xs, P x)
    (hy : ∀ y ∈ ys, P y) :
  ∃ ρ : Equiv.Perm α, xs.map ρ = ys ∧ ∀ a, ¬ P a → ρ a = a
  := by
  induction xs generalizing ys with
  | nil =>
    obtain rfl := List.length_eq_zero_iff.mp hlength.symm
    use Equiv.refl α, rfl
    intro a _
    rfl
  | cons x xs ih =>
    obtain ⟨y, ys, rfl⟩ := List.exists_cons_of_length_eq_add_one hlength.symm
    obtain ⟨hxnot, hxs⟩ := List.nodup_cons.mp hxs
    obtain ⟨hynot, hys⟩ := List.nodup_cons.mp hys
    obtain ⟨hPx, hx⟩ := List.forall_mem_cons.mp hx
    obtain ⟨hPy, hy⟩ := List.forall_mem_cons.mp hy
    obtain ⟨ρ, hρ, hfix⟩ := ih hxs hys (Nat.succ.inj hlength) hx hy
    -- The image of `x` is put where `y` belongs; neither of the two is an image of the other elements.
    have hPρ : P (ρ x) := by
      by_contra hnot
      apply hnot
      rw [ρ.injective (hfix _ hnot)]
      apply hPx
    use ρ.trans (Equiv.swap (ρ x) y)
    constructor
    · rw [List.map_cons, Equiv.trans_apply, Equiv.swap_apply_left]
      congr 1
      rw [← hρ]
      apply List.map_congr_left
      intro z hz
      rw [Equiv.trans_apply]
      apply Equiv.swap_apply_of_ne_of_ne
      · intro heq
        apply hxnot
        rw [← ρ.injective heq]
        apply hz
      · rintro rfl
        apply hynot
        rw [← hρ]
        apply List.mem_map_of_mem hz
    · intro a ha
      rw [Equiv.trans_apply, hfix a ha]
      apply Equiv.swap_apply_of_ne_of_ne
      · rintro rfl
        contradiction
      · rintro rfl
        contradiction

section

variable {r : Registry} {now now' : UInt64} {t : Forest}

/-- The names at one time are those at another one under a permutation of synthetic names. -/
theorem Program.exists_perm_nameAt (h : Program.HasNames r now t) (h' : Program.HasNames r now' t) :
  ∃ ρ : Equiv.Perm String, (∀ s, SyntheticName.isName s = false → ρ s = s)
    ∧ ∀ k < Outline.blanksOfAll (Forest.outline r t),
      ρ (Program.nameAt r now t k) = Program.nameAt r now' t k
  := by
  let count := Outline.blanksOfAll (Forest.outline r t)
  have hlength : (Program.syntheticNames r now count).length
      = (Program.syntheticNames r now' count).length := by
    rw [Program.length_syntheticNames, Program.length_syntheticNames]
  obtain ⟨ρ, hρ, hfix⟩ := exists_perm_map_eq (P := fun s => SyntheticName.isName s = true)
    (SyntheticName.nodup_several h).1 (SyntheticName.nodup_several h').1 hlength
    (fun _ hs => SyntheticName.isName_of_mem_several hs)
    (fun _ hs => SyntheticName.isName_of_mem_several hs)
  use ρ
  constructor
  · intro s hs
    apply hfix
    rw [hs]
    decide
  · intro k hk
    have hmap : (Program.syntheticNames r now count).map ρ = Program.syntheticNames r now' count := hρ
    have hget : ((Program.syntheticNames r now count).map ρ)[k]?
        = (Program.syntheticNames r now' count)[k]? := by
      rw [hmap]
    rw [List.getElem?_map, Program.getElem?_syntheticNames hk, Program.getElem?_syntheticNames hk] at hget
    apply Option.some.inj hget

end

/-- The programs of a workspace at two times are renamings of each other: a permutation of the synthetic
names makes the second one of the first.  That the names can be given out says that the search for each of
them ends, as it does at every time unless many names are taken. -/
theorem Program.ofForest_eq_rename {catalog : Catalog} {registry : Registry} {clock : Clock} {e : Editor}
    (h : Editor.Reaches (.new catalog registry clock) e) (now now' : UInt64) :
  (1000 * (e.registry.takenNames.length + ((Forest.shown e.tree).flatMap (Block.unnamed e.registry)).length)
      ≤ 2 ^ 64 →
    Program.HasNames e.registry now e.tree ∧ Program.HasNames e.registry now' e.tree)
    ∧ (Program.HasNames e.registry now e.tree → Program.HasNames e.registry now' e.tree →
      ∃ ρ : Equiv.Perm String, (∀ s, SyntheticName.isName s = false → ρ s = s)
        ∧ Program.ofForest e.registry now' e.tree
          = Program.rename ρ (Program.ofForest e.registry now e.tree))
  := by
  constructor
  · intro hcount
    exact ⟨Program.hasNames_of_length_le now hcount, Program.hasNames_of_length_le now' hcount⟩
  · intro hnow hnow'
    obtain ⟨ρ, hfix, hρ⟩ := Program.exists_perm_nameAt hnow hnow'
    use ρ, hfix
    rw [Program.rename_ofForest h.isName_eq_false hρ, Program.ofForest_eq]

/-- The program of a move to a position at the times 7 and 9. -/
theorem Program.ofForest_eq_rename_position :
  ∃ e, Editor.Reaches (.new .stock .standard (.fixed 7)) e
    ∧ (Program.walk (Program.ofForest e.registry 7 e.tree)).map (fun n => n.vars.map Variable.id)
      = [["var7", "var806", "var3214"], ["var7", "var806", "var3214"]]
    ∧ (Program.walk (Program.ofForest e.registry 9 e.tree)).map (fun n => n.vars.map Variable.id)
      = [["var9", "var478", "var1405"], ["var9", "var478", "var1405"]]
    ∧ ∃ ρ : Equiv.Perm String, (∀ s, SyntheticName.isName s = false → ρ s = s)
      ∧ Program.ofForest e.registry 9 e.tree = Program.rename ρ (Program.ofForest e.registry 7 e.tree)
  := by
  have hmove := Editor.reaches_drop .stock .standard (.fixed 7) (.palette "block-to-pos") .hidden
    (.workspace .zero)
  have hdrop := hmove.drag (.palette "block-get-p1-pos") .hidden (.slot "block-to-pos-7" 0) (by decide)
  have htyped := hdrop.perform (.setLiteral "block-get-p1-pos-8" 0 "5") trivial
  obtain ⟨hnames, hrename⟩ := Program.ofForest_eq_rename htyped 7 9
  obtain ⟨h7, h9⟩ := hnames (by decide)
  refine ⟨_, htyped, ?_, ?_, hrename h7 h9⟩
  · decide +kernel
  · decide +kernel

end BlockEditor
