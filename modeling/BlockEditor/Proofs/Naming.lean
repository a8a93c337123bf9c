import BlockEditor.Proofs.Blanks
import BlockEditor.Proofs.Copies
import Mathlib.Logic.Relation

/-!
# The synthetic names of a program

The nodes of a program have ranges of numbers of their own for their synthetic names.  So the variables
that are made for values without a name are all different, and two variables with the same synthetic id
are one variable that positions lend to their holders.
-/

namespace BlockEditor

/-- The synthetic variables that are made for blocks, in nodes that show them. -/
def Program.made (r : Registry) (nodes : List Node) (bs : List Block) : List Variable :=
  (nodes.zip bs).flatMap fun (n, b) => (n.own r b).filter Variable.isSynthetic

/-- The node holds the position `m` and repeats its variables. -/
def Node.Repeats (n m : Node) : Prop :=
  m ∈ n.children ∧ m.type = Category.pos.wireName ∧ m.vars <:+: n.vars

/-- A synthetic id that is met in both nodes belongs to one variable, which positions lend from `m`
upwards to `n`. -/
def Node.SharesLent (n m : Node) : Prop :=
  ∀ v ∈ n.vars, ∀ w ∈ m.vars, v.isSynthetic = true → v.id = w.id →
    v = w ∧ Relation.TransGen Node.Repeats n m

/-! ### Nodes with numbered names -/

/-- No synthetic id is met in both nodes. -/
def Node.Avoids (n m : Node) : Prop :=
  ∀ v ∈ n.vars, ∀ w ∈ m.vars, v.isSynthetic = true → v.id ≠ w.id

/-- The nodes of a list and those beneath them have names with the numbers from `lo` on and below
`hi`. -/
structure Program.Numbered (name : Nat → String) (lo hi : Nat) (p : List Node) : Prop where
  within : ∀ n ∈ Program.walk p, ∀ v ∈ n.vars, v.isSynthetic = true →
    ∃ k, lo ≤ k ∧ k < hi ∧ v.id = name k
  /-- The synthetic ids of each node are all different. -/
  distinct : ∀ n ∈ Program.walk p, ((n.vars.filter Variable.isSynthetic).map Variable.id).Nodup
  /-- No synthetic id is met in or beneath two nodes of the list. -/
  apart : p.Pairwise fun n m => ∀ x ∈ n.walk, ∀ y ∈ m.walk, x.Avoids y
  shared : (Program.walk p).Pairwise Node.SharesLent

section

variable {name : Nat → String} {bound : Nat}

theorem Variable.isSynthetic_of_id_eq {v w : Variable} (h : v.isSynthetic = true)
    (hid : v.id = w.id) :
  w.isSynthetic = true
  := by
  rw [Variable.isSynthetic, ← hid]
  apply h

theorem Node.Avoids.symm {n m : Node} (h : n.Avoids m) :
  m.Avoids n
  := by
  intro w hw v hv hsynthetic hid
  apply h v hv w hw (Variable.isSynthetic_of_id_eq hsynthetic hid) hid.symm

theorem Node.Avoids.sharesLent {n m : Node} (h : n.Avoids m) :
  n.SharesLent m
  := by
  intro v hv w hw hsynthetic hid
  apply absurd hid (h v hv w hw hsynthetic)

theorem Program.numbered_nil (lo hi : Nat) :
  Program.Numbered name lo hi []
  := by
  constructor
  · intro _ h
    cases h
  · intro _ h
    cases h
  · apply List.Pairwise.nil
  · apply List.Pairwise.nil

/-- Nodes whose names have numbers in different ranges meet no synthetic id in common. -/
theorem Program.Numbered.avoids (hnumbers : SyntheticName.Numbers name bound) {lo mid hi : Nat}
    {p q : List Node} (hp : Program.Numbered name lo mid p) (hq : Program.Numbered name mid hi q)
    (hhi : hi ≤ bound) {x y : Node} (hx : x ∈ Program.walk p)
    (hy : y ∈ Program.walk q) :
  x.Avoids y
  := by
  intro v hv w hw hsynthetic hid
  obtain ⟨j, -, hj, hvj⟩ := hp.within x hx v hv hsynthetic
  obtain ⟨k, hk, hk', hwk⟩ :=
    hq.within y hy w hw (Variable.isSynthetic_of_id_eq hsynthetic hid)
  have hjk := hnumbers.inj j (by omega) k (by omega) (by rw [← hvj, hid, hwk])
  omega

/-- Lists with ranges of numbers one after the other are joined. -/
theorem Program.Numbered.cons (hnumbers : SyntheticName.Numbers name bound) {lo mid hi : Nat}
    {n : Node} {p : List Node} (hn : Program.Numbered name lo mid [n])
    (hp : Program.Numbered name mid hi p) (hlo : lo ≤ mid) (hmid : mid ≤ hi) (hhi : hi ≤ bound) :
  Program.Numbered name lo hi (n :: p)
  := by
  have havoids : ∀ x ∈ n.walk, ∀ y ∈ Program.walk p, x.Avoids y := by
    intro x hx y hy
    rw [← Program.walk_singleton] at hx
    apply hn.avoids hnumbers hp hhi hx hy
  have hwithin := hn.within
  have hdistinct := hn.distinct
  have hshared := hn.shared
  rw [Program.walk_singleton] at hwithin hdistinct hshared
  constructor
  · intro x hx v hv hsynthetic
    rcases List.mem_append.mp hx with hx | hx
    · obtain ⟨k, hlo, hk, hid⟩ := hwithin x hx v hv hsynthetic
      use k, hlo, by omega, hid
    · obtain ⟨k, hk, hhi, hid⟩ := hp.within x hx v hv hsynthetic
      use k, by omega, hhi, hid
  · intro x hx
    rcases List.mem_append.mp hx with hx | hx
    · apply hdistinct x hx
    · apply hp.distinct x hx
  · apply List.pairwise_cons.mpr
    constructor
    · intro m hm x hx y hy
      apply havoids x hx
      rw [Program.walk_eq_flatMap]
      apply List.mem_flatMap.mpr
      use m, hm
    · apply hp.apart
  · rw [Program.walk_cons]
    apply List.pairwise_append.mpr
    use hshared, hp.shared
    intro x hx y hy
    apply (havoids x hx y hy).sharesLent

/-- The variables that a position lends are repeated by the node that holds it. -/
theorem Node.repeats_of_held {id type text : String} {own : List Variable} {nested held : List Node}
    {h : Node} (hheld : h ∈ held) (htype : h.type = Category.pos.wireName) :
  Node.Repeats ⟨id, type, text, own ++ Outline.lent held, nested ++ held⟩ h
  := by
  use List.mem_append_right _ hheld, htype
  apply List.IsInfix.trans _ (List.suffix_append own (Outline.lent held)).isInfix
  have hmem : h ∈ held.filter fun n => n.type == Category.pos.wireName :=
    List.mem_filter.mpr ⟨hheld, beq_iff_eq.mpr htype⟩
  obtain ⟨before, after, hsplit⟩ := List.append_of_mem hmem
  use before.flatMap Node.vars, after.flatMap Node.vars
  rw [Outline.lent, hsplit, List.flatMap_append, List.flatMap_cons, List.append_assoc]

theorem SyntheticName.Numbers.nodup_map (hnumbers : SyntheticName.Numbers name bound)
    {lo count : Nat} (hfit : lo + count ≤ bound) :
  ((List.range' lo count).map name).Nodup
  := by
  apply List.Nodup.map_on _ List.nodup_range'
  intro j hj k hk h
  rw [List.mem_range'_1] at hj hk
  apply hnumbers.inj j (by omega) k (by omega) h

section

variable {lo count hi : Nat} {own : List Variable} {nested held : List Node}

/-- A synthetic variable that is among those whose ids are the names of a range has its number in that
range. -/
theorem exists_number
    (hown : (own.filter Variable.isSynthetic).map Variable.id = (List.range' lo count).map name)
    {v : Variable} (hv : v ∈ own) (hsynthetic : v.isSynthetic = true) :
  ∃ k, lo ≤ k ∧ k < lo + count ∧ v.id = name k
  := by
  have hid : v.id ∈ (List.range' lo count).map name := by
    rw [← hown]
    apply List.mem_map_of_mem
    apply List.mem_filter.mpr ⟨hv, hsynthetic⟩
  obtain ⟨k, hk, hname⟩ := List.mem_map.mp hid
  rw [List.mem_range'_1] at hk
  use k, hk.1, hk.2, hname.symm

/-- The variables that are lent have numbers of the nodes that lend them. -/
theorem Program.Numbered.number_of_lent (hnodes : Program.Numbered name lo hi (nested ++ held))
    {v : Variable} (hv : v ∈ Outline.lent held) (hsynthetic : v.isSynthetic = true) :
  ∃ k, lo ≤ k ∧ k < hi ∧ v.id = name k
  := by
  obtain ⟨h, hmem, -, hv⟩ := Outline.mem_lent.mp hv
  apply hnodes.within h _ v hv hsynthetic
  apply Program.mem_walk.mpr
  use h, List.mem_append_right _ hmem, h.mem_walk_self

/-- The lent variables of a node have different synthetic ids, as those of each position have and
different positions have none in common. -/
theorem Program.Numbered.nodup_lent (hnodes : Program.Numbered name lo hi (nested ++ held)) :
  (((Outline.lent held).filter Variable.isSynthetic).map Variable.id).Nodup
  := by
  rw [Outline.lent, List.filter_flatMap, List.map_flatMap]
  apply List.nodup_flatMap.mpr
  constructor
  · intro h hmem
    apply hnodes.distinct h
    apply Program.mem_walk.mpr
    use h, List.mem_append_right _ (List.mem_of_mem_filter hmem), h.mem_walk_self
  · apply ((List.pairwise_append.mp hnodes.apart).2.1.sublist List.filter_sublist).imp
    intro h m havoids id hid hid'
    obtain ⟨v, hv, rfl⟩ := List.mem_map.mp hid
    obtain ⟨w, hw, hvw⟩ := List.mem_map.mp hid'
    obtain ⟨hv, hsynthetic⟩ := List.mem_filter.mp hv
    obtain ⟨hw, -⟩ := List.mem_filter.mp hw
    apply havoids h h.mem_walk_self m m.mem_walk_self v hv w hw hsynthetic hvw.symm

/-- A position shares its variables with nothing but what is beneath it, so a node that holds it and
repeats them does so too. -/
theorem Program.Numbered.sharesLent_of_held (hnodes : Program.Numbered name lo hi (nested ++ held))
    {n h m : Node} (hheld : h ∈ held) (hrepeats : n.Repeats h) (hm : m ∈ Program.walk (nested ++ held))
    {v w : Variable} (hv : v ∈ h.vars) (hw : w ∈ m.vars) (hsynthetic : v.isSynthetic = true)
    (hid : v.id = w.id) :
  v = w ∧ Relation.TransGen Node.Repeats n m
  := by
  have hmem : h ∈ nested ++ held := List.mem_append_right _ hheld
  obtain ⟨c, hc, hmc⟩ := Program.mem_walk.mp hm
  have hch : c = h := by
    by_contra hne
    have hsymm : Std.Symm fun n m : Node => ∀ x ∈ n.walk, ∀ y ∈ m.walk, x.Avoids y :=
      ⟨fun n m havoids x hx y hy => (havoids y hy x hx).symm⟩
    have havoids := hnodes.apart.forall hmem hc (Ne.symm hne) h h.mem_walk_self m hmc
    apply havoids v hv w hw hsynthetic hid
  subst hch
  rw [Node.walk_eq] at hmc
  rcases List.mem_cons.mp hmc with rfl | hmc
  · constructor
    · have hinj := hnodes.distinct m (Program.mem_walk.mpr ⟨m, hmem, m.mem_walk_self⟩)
      apply List.inj_on_of_nodup_map hinj _ _ hid
      · apply List.mem_filter.mpr ⟨hv, hsynthetic⟩
      · apply List.mem_filter.mpr ⟨hw, Variable.isSynthetic_of_id_eq hsynthetic hid⟩
    · apply Relation.TransGen.single hrepeats
  · have hsublist : (c :: Program.walk c.children).Sublist (Program.walk (nested ++ held)) := by
      rw [← Node.walk_eq, Program.walk_eq_flatMap]
      apply (List.infix_flatMap_of_mem hmem Node.walk).sublist
    have hshared := (List.pairwise_cons.mp (hnodes.shared.sublist hsublist)).1 m hmc
    obtain ⟨hvw, hpath⟩ := hshared v hv w hw hsynthetic hid
    use hvw
    apply Relation.TransGen.head hrepeats hpath

/-- The own variables of a node and those that it repeats have different synthetic ids. -/
theorem Program.Numbered.nodup_vars (hnumbers : SyntheticName.Numbers name bound)
    (hown : (own.filter Variable.isSynthetic).map Variable.id = (List.range' lo count).map name)
    (hnodes : Program.Numbered name (lo + count) hi (nested ++ held)) (hlo : lo + count ≤ hi)
    (hhi : hi ≤ bound) :
  (((own ++ Outline.lent held).filter Variable.isSynthetic).map Variable.id).Nodup
  := by
  rw [List.filter_append, List.map_append, hown]
  apply List.nodup_append.mpr
  use hnumbers.nodup_map (by omega), hnodes.nodup_lent
  rintro id hid _ hid' rfl
  obtain ⟨j, hj, rfl⟩ := List.mem_map.mp hid
  obtain ⟨v, hv, hname⟩ := List.mem_map.mp hid'
  obtain ⟨hv, hsynthetic⟩ := List.mem_filter.mp hv
  obtain ⟨k, hk, hk', hname'⟩ := hnodes.number_of_lent hv hsynthetic
  rw [List.mem_range'_1] at hj
  have hjk := hnumbers.inj j (by omega) k (by omega) (by rw [← hname, hname'])
  omega

/-- A node shares with what is beneath it the variables that it repeats, and no others. -/
theorem Program.Numbered.sharesLent (hnumbers : SyntheticName.Numbers name bound)
    {id type text : String}
    (hown : (own.filter Variable.isSynthetic).map Variable.id = (List.range' lo count).map name)
    (hnodes : Program.Numbered name (lo + count) hi (nested ++ held)) (hhi : hi ≤ bound) {m : Node}
    (hm : m ∈ Program.walk (nested ++ held)) :
  Node.SharesLent ⟨id, type, text, own ++ Outline.lent held, nested ++ held⟩ m
  := by
  intro v hv w hw hsynthetic hid
  rcases List.mem_append.mp hv with hv | hv
  · obtain ⟨j, hj, hj', hname⟩ := exists_number hown hv hsynthetic
    obtain ⟨k, hk, hk', hname'⟩ :=
      hnodes.within m hm w hw (Variable.isSynthetic_of_id_eq hsynthetic hid)
    have hjk := hnumbers.inj j (by omega) k (by omega) (by rw [← hname, hid, hname'])
    omega
  · obtain ⟨h, hmem, htype, hv⟩ := Outline.mem_lent.mp hv
    apply hnodes.sharesLent_of_held hmem (Node.repeats_of_held hmem htype) hm hv hw hsynthetic hid

/-- The own variables of a node have the first numbers, and what it holds has the rest. -/
theorem Program.Numbered.node (hnumbers : SyntheticName.Numbers name bound)
    (id type text : String)
    (hown : (own.filter Variable.isSynthetic).map Variable.id = (List.range' lo count).map name)
    (hnodes : Program.Numbered name (lo + count) hi (nested ++ held)) (hlo : lo + count ≤ hi)
    (hhi : hi ≤ bound) :
  Program.Numbered name lo hi [⟨id, type, text, own ++ Outline.lent held, nested ++ held⟩]
  := by
  have hwalk := Node.walk_eq ⟨id, type, text, own ++ Outline.lent held, nested ++ held⟩
  rw [← Program.walk_singleton] at hwalk
  constructor
  · intro m hm v hv hsynthetic
    rw [hwalk] at hm
    rcases List.mem_cons.mp hm with rfl | hm
    · rcases List.mem_append.mp hv with hv | hv
      · obtain ⟨k, hk, hk', hname⟩ := exists_number hown hv hsynthetic
        use k, hk, by omega, hname
      · obtain ⟨k, hk, hk', hname⟩ := hnodes.number_of_lent hv hsynthetic
        use k, by omega, hk', hname
    · obtain ⟨k, hk, hk', hname⟩ := hnodes.within m hm v hv hsynthetic
      use k, by omega, hk', hname
  · intro m hm
    rw [hwalk] at hm
    rcases List.mem_cons.mp hm with rfl | hm
    · apply hnodes.nodup_vars hnumbers hown hlo hhi
    · apply hnodes.distinct m hm
  · apply List.pairwise_singleton
  · rw [hwalk]
    apply List.pairwise_cons.mpr
    refine ⟨?_, hnodes.shared⟩
    intro m hm
    apply hnodes.sharesLent hnumbers hown hhi hm

end

end

/-! ### The names of a program -/

theorem Program.made_cons (r : Registry) (n : Node) (b : Block) (ns : List Node) (bs : List Block) :
  Program.made r (n :: ns) (b :: bs)
    = (n.own r b).filter Variable.isSynthetic ++ Program.made r ns bs
  := by
  rw [Program.made, List.zip_cons_cons, List.flatMap_cons]
  rfl

theorem Program.made_append {r : Registry} {ns ms : List Node} {bs cs : List Block}
    (h : ns.length = bs.length) :
  Program.made r (ns ++ ms) (bs ++ cs) = Program.made r ns bs ++ Program.made r ms cs
  := by
  rw [Program.made, List.zip_append h, List.flatMap_append]
  rfl

section

variable {r : Registry} {name : Nat → String} {bound : Nat}

/-- The nodes that are written for a list of blocks have consecutive ranges of numbers. -/
theorem Outline.numbered_writeAll (hnumbers : SyntheticName.Numbers name bound) {bs : List Block}
    (h : ∀ b ∈ bs, ∀ next, next + (b.outline r).blanks ≤ bound →
      Program.Numbered name next (next + (b.outline r).blanks) [(b.outline r).write name next])
    {next : Nat} (hfit : next + Outline.blanksOfAll (bs.map (Block.outline r)) ≤ bound) :
  Program.Numbered name next (next + Outline.blanksOfAll (bs.map (Block.outline r)))
    (Outline.writeAll name next (bs.map (Block.outline r)))
  := by
  induction bs generalizing next with
  | nil => apply Program.numbered_nil
  | cons b bs ih =>
    obtain ⟨hb, hbs⟩ := List.forall_mem_cons.mp h
    rw [List.map_cons, Outline.blanksOfAll] at hfit ⊢
    have hrest : Program.Numbered name (next + (b.outline r).blanks) _ _ := ih hbs (by omega)
    rw [Nat.add_assoc] at hrest
    apply (hb next (by omega)).cons hnumbers hrest (by omega) (by omega) (by omega)

/-- The nodes beneath the one that is written for a block have the numbers behind its own. -/
theorem Block.numbered_children (hnumbers : SyntheticName.Numbers name bound) {b : Block}
    (h : ∀ c ∈ b.shownBeneath, ∀ next, next + (c.outline r).blanks ≤ bound →
      Program.Numbered name next (next + (c.outline r).blanks) [(c.outline r).write name next])
    {next : Nat} (hfit : next + (b.outline r).blanks ≤ bound) :
  Program.Numbered name (next + (b.unnamed r).length) (next + (b.outline r).blanks)
    ((b.outline r).write name next).children
  := by
  obtain ⟨nested, held, hwrite, hchildren⟩ := b.write_outline r name next
  rw [Block.blanks_outline] at hfit ⊢
  rw [hwrite, hchildren, ← Nat.add_assoc]
  apply Outline.numbered_writeAll hnumbers h (by omega)

theorem Block.numbered_write (hnumbers : SyntheticName.Numbers name bound) (b : Block)
    (hids : ∀ c ∈ b.walk, SyntheticName.isName c.id = false) {next : Nat}
    (hfit : next + (b.outline r).blanks ≤ bound) :
  Program.Numbered name next (next + (b.outline r).blanks) [(b.outline r).write name next]
  := by
  induction b using Block.induct generalizing next with
  | step b ih =>
    have hnodes := Block.numbered_children hnumbers (b := b) (fun c hc next' hfit' =>
      ih c (Block.mem_of_mem_shownBeneath hc)
        (fun d hd => hids d (Block.walk_subset_of_mem (Block.mem_of_mem_shownBeneath hc) hd)) hfit')
      hfit
    obtain ⟨nested, held, hwrite, -⟩ := b.write_outline r name next
    rw [hwrite] at hnodes ⊢
    rw [Block.blanks_outline] at hnodes hfit ⊢
    apply hnodes.node hnumbers _ _ _ (Block.map_id_filter_own hnumbers hids (by omega))
    · omega
    · omega

theorem Block.numbered_beneath (hnumbers : SyntheticName.Numbers name bound) {b : Block}
    (hids : ∀ c ∈ b.walk, SyntheticName.isName c.id = false) {next : Nat}
    (hfit : next + (b.outline r).blanks ≤ bound) :
  Program.Numbered name (next + (b.unnamed r).length) (next + (b.outline r).blanks)
    ((b.outline r).write name next).children
  := by
  apply Block.numbered_children hnumbers _ hfit
  intro c hc next' hfit'
  apply Block.numbered_write hnumbers c _ hfit'
  intro d hd
  apply hids d (Block.walk_subset_of_mem (Block.mem_of_mem_shownBeneath hc) hd)

/-- The variables that are made for a list of blocks have the names of a range, in its order. -/
theorem Outline.map_id_made {bs : List Block}
    (h : ∀ b ∈ bs, ∀ next, next + (b.outline r).blanks ≤ bound →
      (Program.made r ((b.outline r).write name next).walk b.shown).map Variable.id
        = (List.range' next (b.outline r).blanks).map name)
    {next : Nat} (hfit : next + Outline.blanksOfAll (bs.map (Block.outline r)) ≤ bound) :
  (Program.made r (Program.walk (Outline.writeAll name next (bs.map (Block.outline r))))
      (bs.flatMap Block.shown)).map Variable.id
    = (List.range' next (Outline.blanksOfAll (bs.map (Block.outline r)))).map name
  := by
  induction bs generalizing next with
  | nil => rfl
  | cons b bs ih =>
    obtain ⟨hb, hbs⟩ := List.forall_mem_cons.mp h
    rw [List.map_cons, Outline.blanksOfAll] at hfit ⊢
    have hshows : ((b.outline r).write name next).Shows r b := b.shows_write next
    rw [Outline.writeAll, Program.walk_cons, List.flatMap_cons, Program.made_append hshows.walk.length_eq,
      List.map_append, hb next (by omega), ih hbs (by omega), ← List.map_append,
      List.range'_append_1]

theorem Block.map_id_made (hnumbers : SyntheticName.Numbers name bound) (b : Block)
    (hids : ∀ c ∈ b.walk, SyntheticName.isName c.id = false) {next : Nat}
    (hfit : next + (b.outline r).blanks ≤ bound) :
  (Program.made r ((b.outline r).write name next).walk b.shown).map Variable.id
    = (List.range' next (b.outline r).blanks).map name
  := by
  induction b using Block.induct generalizing next with
  | step b ih =>
    obtain ⟨nested, held, hwrite, hchildren⟩ := b.write_outline r name next
    have hown : ((b.outline r).write name next).own r b = _ := Node.WrittenFor.own_eq rfl
    rw [Block.blanks_outline] at hfit ⊢
    have hbeneath : ∀ c ∈ b.shownBeneath, ∀ next, next + (c.outline r).blanks ≤ bound →
        (Program.made r ((c.outline r).write name next).walk c.shown).map Variable.id
          = (List.range' next (c.outline r).blanks).map name := by
      intro c hc next' hfit'
      have hmem := Block.mem_of_mem_shownBeneath hc
      apply ih c hmem _ hfit'
      intro d hd
      apply hids d (Block.walk_subset_of_mem hmem hd)
    rw [Node.walk_eq, Block.shown_eq, Program.made_cons, List.map_append, hown,
      Block.map_id_filter_own hnumbers hids (by omega), hwrite, hchildren]
    rw [← Block.shownBeneath, Outline.map_id_made hbeneath (by omega), ← List.map_append,
      List.range'_append_1]

end

/-- The synthetic names of a program do not clash. -/
structure Program.NamedApart (r : Registry) (t : Forest) (p : Program) : Prop where
  /-- A node has a synthetic variable of its own for each value of its block that has no name. -/
  own : List.Forall₂
    (fun n b => ((n.own r b).filter Variable.isSynthetic).map Variable.value = b.unnamed r)
    (Program.walk p) (Forest.shown t)
  /-- All variables that are made have different names. -/
  nodup : ((Program.made r (Program.walk p) (Forest.shown t)).map Variable.id).Nodup
  /-- No name is the one of an entry, reserved, or the id of a placed block. -/
  free : ∀ v ∈ Program.made r (Program.walk p) (Forest.shown t),
    v.text = v.id ∧ r.lookup? v.id = none ∧ v.id ∉ r.reserved ∧ v.id ∉ Forest.ids t
  /-- A node has no two variables with the same synthetic id. -/
  distinct : ∀ n ∈ Program.walk p, ((n.vars.filter Variable.isSynthetic).map Variable.id).Nodup
  /-- Two nodes have variables with the same synthetic id only where the upper one repeats those of a
  position that it holds. -/
  shared : (Program.walk p).Pairwise Node.SharesLent

section

variable {r : Registry} {now : UInt64} {t : Forest}

/-- In a workspace without synthetic names for ids there are none beneath its blocks. -/
theorem Forest.plain_of_mem (hids : ∀ id ∈ Forest.ids t, SyntheticName.isName id = false) {b : Block}
    (hb : b ∈ t) :
  ∀ c ∈ b.walk, SyntheticName.isName c.id = false
  := by
  intro c hc
  apply hids
  apply List.mem_map_of_mem
  rw [Forest.walk_eq_flatMap]
  apply List.mem_flatMap.mpr
  use b, hb

theorem Program.numbered_ofForest (hids : ∀ id ∈ Forest.ids t, SyntheticName.isName id = false)
    (h : Program.HasNames r now t) :
  Program.Numbered (Program.nameAt r now t) 0 (Outline.blanksOfAll (Forest.outline r t))
    (Program.ofForest r now t)
  := by
  have hnumbers := Program.numbers_nameAt h
  rw [Program.ofForest_eq]
  rw [Forest.outline_eq_map] at hnumbers ⊢
  rw [← Nat.zero_add (Outline.blanksOfAll _)]
  apply Outline.numbered_writeAll hnumbers _ (Nat.le_of_eq (Nat.zero_add _))
  intro b hb next hfit
  apply Block.numbered_write hnumbers b _ hfit
  apply Forest.plain_of_mem hids (List.mem_of_mem_filter hb)

theorem Program.map_id_made (hids : ∀ id ∈ Forest.ids t, SyntheticName.isName id = false)
    (h : Program.HasNames r now t) :
  (Program.made r (Program.walk (Program.ofForest r now t)) (Forest.shown t)).map Variable.id
    = Program.syntheticNames r now (Outline.blanksOfAll (Forest.outline r t))
  := by
  have hnumbers := Program.numbers_nameAt h
  rw [← Program.map_nameAt, Program.ofForest_eq, Forest.shown_eq_flatMap]
  rw [Forest.outline_eq_map] at hnumbers ⊢
  apply Outline.map_id_made _ (Nat.le_of_eq (Nat.zero_add _))
  intro b hb next hfit
  apply Block.map_id_made hnumbers b _ hfit
  apply Forest.plain_of_mem hids (List.mem_of_mem_filter hb)

/-- Where the names can be given out, those of a program do not clash. -/
theorem Program.namedApart_ofForest (hids : ∀ id ∈ Forest.ids t, SyntheticName.isName id = false)
    (h : Program.HasNames r now t) :
  Program.NamedApart r t (Program.ofForest r now t)
  := by
  obtain ⟨hnodup, hfree⟩ := SyntheticName.nodup_several h
  have hmade := Program.map_id_made hids h
  have hown := Program.forall₂_own hids h
  have hnumbered := Program.numbered_ofForest hids h
  constructor
  · apply hown.imp
    rintro n b ⟨next, heq⟩
    rw [heq, List.map_map]
    apply List.zipIdx_map_fst
  · rw [hmade]
    apply hnodup
  · intro v hv
    have hid := List.mem_map_of_mem (f := Variable.id) hv
    rw [hmade] at hid
    have htaken := hfree v.id hid
    rw [Registry.takenNames, List.mem_append, not_or] at htaken
    refine ⟨?_, ?_, htaken.2, ?_⟩
    · obtain ⟨⟨n, b⟩, hnb, hv⟩ := List.mem_flatMap.mp hv
      obtain ⟨next, heq⟩ := List.forall₂_zip hown hnb
      dsimp only at hv
      rw [heq] at hv
      obtain ⟨x, -, rfl⟩ := List.mem_map.mp hv
      rfl
    · apply Registry.lookup?_eq_none_iff.mpr htaken.1
    · intro hblock
      have hname := SyntheticName.isName_of_mem_several hid
      rw [hids _ hblock] at hname
      contradiction
  · apply hnumbered.distinct
  · apply hnumbered.shared

end

/-- Synthetic names never clash: neither in the program of a workspace that a session leads to, nor in
the one of any other workspace without synthetic names for ids, whatever the registry and the time are.
That the names can be given out says that the search for each of them ends, as it does unless many names
are taken. -/
theorem Program.names_apart :
  (∀ {catalog : Catalog} {registry : Registry} {clock : Clock} {e : Editor},
      Editor.Reaches (.new catalog registry clock) e →
      ∀ id ∈ Forest.ids e.tree, SyntheticName.isName id = false)
    ∧ ∀ (r : Registry) (now : UInt64) (t : Forest),
      (∀ id ∈ Forest.ids t, SyntheticName.isName id = false) →
      (1000 * (r.takenNames.length + ((Forest.shown t).flatMap (Block.unnamed r)).length) ≤ 2 ^ 64 →
        Program.HasNames r now t)
      ∧ (Program.HasNames r now t → Program.NamedApart r t (Program.ofForest r now t))
  := by
  constructor
  · intro _ _ _ _ h
    apply h.isName_eq_false
  · intro r now t hids
    constructor
    · apply Program.hasNames_of_length_le
    · apply Program.namedApart_ofForest hids

/-- A position with one typed value lends its three variables, with the variable `var7` in the way of
the first name. -/
theorem Program.names_apart_position :
  ∃ e, Editor.Reaches (.new .stock .standard (.fixed 7)) e
    ∧ Forest.ids e.tree = ["block-to-pos-7", "block-get-p1-pos-8"]
    ∧ e.registry.takenNames = ["X", "Y", "Z", "p1", "p2", "p3", "var7", "x", "y", "z"]
    ∧ (Program.walk e.program).map (fun n => n.vars.map Variable.value)
      = [[some "5", none, none], [some "5", none, none]]
    ∧ Program.NamedApart e.registry e.tree (Program.ofForest e.registry 7 e.tree)
  := by
  have hmove := Editor.reaches_drop .stock .standard (.fixed 7) (.palette "block-to-pos") .hidden
    (.workspace .zero)
  have hname := hmove.perform (.addVariable "var7") trivial
  have hdrop := hname.drag (.palette "block-get-p1-pos") .hidden (.slot "block-to-pos-7" 0) (by decide)
  have htyped := hdrop.perform (.setLiteral "block-get-p1-pos-8" 0 "5") trivial
  obtain ⟨hnames, hapart⟩ := Program.names_apart.2 _ 7 _ (Program.names_apart.1 htyped)
  refine ⟨_, htyped, rfl, rfl, ?_, hapart (hnames ?_)⟩
  · decide
  · decide

end BlockEditor
