import BlockEditor.Proofs.Axes
import BlockEditor.Proofs.Binding
import BlockEditor.Proofs.Issues
import BlockEditor.Proofs.Naming

/-!
# Axes without a value

A program has variables without a value for the axes that are not given.  The check finds them by what
they look like: a variable counts if it has no value, its text for an id, and no entry, and if no child of
the node has a variable with that id.  These are the variables that were made for axes, each at the node of
its position: what a position lends is also a variable of that child, and every other variable has a value
or an entry.
-/

namespace BlockEditor

/-- The id of the block and the text of the variable, if the issue is a variable without a value. -/
def Issue.unset? : Issue → Option (String × String)
  | unsetValue id text => some (id, text)
  | _ => none

/-- The variables without a value that are made for blocks, in nodes that show them, each with the id of
its block. -/
def Program.unset (r : Registry) (nodes : List Node) (bs : List Block) : List (String × Variable) :=
  (nodes.zip bs).flatMap fun (n, b) =>
    ((n.own r b).filter fun v => v.isSynthetic && v.value.isNone).map fun v => (b.id, v)

/-- The block has the variable for one of its axes, by what is in the slot for the axis. -/
def Block.HasAxis (r : Registry) (names : List String) (b : Block) (v : Variable) : Prop :=
  ∃ axis number slot, (axis, number) ∈ [("X", 0), ("Y", 1), ("Z", 2)]
    ∧ b.kind.AxisSlot axis number slot ∧ v.IsAxis r names b.slots[slot]?

/-- The issues say which axes of the program have no value. -/
structure Program.ReportsUnset (r : Registry) (now : UInt64) (t : Forest) (issues : List Issue) :
    Prop where
  /-- They name the variables without a value that are made for blocks, in the order of the walk, each
  with its block. -/
  report : issues.filterMap Issue.unset?
    = (Program.unset r (Program.walk (Program.ofForest r now t)) (Forest.shown t)).map
      fun (id, v) => (id, v.text)
  /-- These variables are those without a value among all that are made. -/
  made : (Program.unset r (Program.walk (Program.ofForest r now t)) (Forest.shown t)).map Prod.snd
    = (Program.made r (Program.walk (Program.ofForest r now t)) (Forest.shown t)).filter
      fun v => v.value.isNone
  /-- No variable is named twice. -/
  nodup : ((issues.filterMap Issue.unset?).map Prod.snd).Nodup
  /-- Each of these variables is the one of an axis of its block, which is a position. -/
  axis : ∀ x ∈ Program.unset r (Program.walk (Program.ofForest r now t)) (Forest.shown t),
    ∃ b ∈ Forest.shown t, b.id = x.1 ∧ b.category = .pos
      ∧ b.HasAxis r (Program.syntheticNames r now (Outline.blanksOfAll (Forest.outline r t))) x.2
  /-- Variables with a value are not named, and bound ones are not either. -/
  others : ∀ n ∈ Program.walk (Program.ofForest r now t), ∀ v ∈ n.vars,
    v.value.isSome ∨ v.isSynthetic = false → ∀ id, .unsetValue id v.text ∉ issues

/-! ### Variables of nodes -/

section

variable {r : Registry} {name : Nat → String} {bound : Nat}

/-- A variable of a block on its own is the one of a variable block in a slot, or has a number of the
block. -/
theorem Block.of_mem_write {b : Block} {next : Nat} {v : Variable}
    (h : v ∈ Outline.Part.write name next (Outline.ownParts r b.face b.slots)) :
  (∃ c entry, .block c ∈ b.slots ∧ r.lookup? c.label = some entry ∧ v.id = c.id ∧ v.text = c.label)
    ∨ ∃ k, next ≤ k ∧ k < next + (b.unnamed r).length ∧ v.id = name k ∧ v.text = name k
  := by
  have hnames : List.Forall₂
      (Outline.Part.Names ((List.range' next (b.unnamed r).length).map name))
      (Outline.ownParts r b.face b.slots)
      (Outline.Part.write name next (Outline.ownParts r b.face b.slots)) := by
    apply Outline.Part.forall₂_names
    intro k hlo hhi
    rw [Outline.Part.blanks_eq_length, Outline.filterMap_blank?_ownParts] at hhi
    apply List.mem_map_of_mem
    rw [List.mem_range'_1]
    exact ⟨hlo, hhi⟩
  obtain ⟨part, hpart, hv⟩ := (exists_of_forall₂ hnames).2 v h
  cases hv with
  | bound =>
    obtain ⟨c, hc, -, rfl, rfl, hvalue⟩ := Outline.of_bound_mem_ownParts hpart
    obtain ⟨entry, hentry, -⟩ := Option.map_eq_some_iff.mp hvalue
    exact Or.inl ⟨c, entry, hc, hentry, rfl, rfl⟩
  | blank hname =>
    obtain ⟨k, hk, rfl⟩ := List.mem_map.mp hname
    rw [List.mem_range'_1] at hk
    exact Or.inr ⟨k, hk.1, hk.2, rfl, rfl⟩

/-- The text of a variable has an entry, or is a name that was given out and its id as well. -/
theorem Node.WrittenFor.of_mem_vars {n : Node} {b : Block} (h : n.WrittenFor r name bound b)
    {v : Variable} (hv : v ∈ n.vars) :
  (r.lookup? v.text).isSome ∨ ∃ k < bound, v.id = name k ∧ v.text = name k
  := by
  induction b using Block.induct generalizing n with
  | step b ih =>
    obtain ⟨next, nested, held, hfit, rfl, -, hheld⟩ := h.spec
    rcases List.mem_append.mp hv with hv | hv
    · rcases Block.of_mem_write hv with ⟨c, entry, -, hentry, -, htext⟩ | ⟨k, -, hk, hname⟩
      · apply Or.inl
        rw [htext, hentry, Option.isSome_some]
      · exact Or.inr ⟨k, by omega, hname⟩
    · obtain ⟨m, hm, -, hv⟩ := Outline.mem_lent.mp hv
      obtain ⟨c, hc, hwritten⟩ := (exists_of_forall₂ hheld).1 m hm
      apply ih c (Block.mem_of_mem_shownBeneath (List.mem_append_right _ hc)) hwritten hv

/-- The variables of a position on its own are those of its axes. -/
theorem Node.WrittenFor.hasAxis {names : List String} (hnames : ∀ k < bound, name k ∈ names) {n : Node}
    {b : Block} (h : n.WrittenFor r name bound b) (hpos : b.category = .pos) {v : Variable}
    (hv : v ∈ n.own r b) :
  b.HasAxis r names v
  := by
  obtain ⟨x, y, z, nested, held, hvars, -, -, ⟨i, hi, hx⟩, ⟨j, hj, hy⟩, k, hk, hz⟩ :=
    (h.hasAxes hnames hpos).vars
  have hown : n.own r b = [x, y, z] := by
    rw [Node.own, hvars, Outline.length_ownParts hpos]
    rfl
  simp only [hown, List.mem_cons, List.not_mem_nil, or_false] at hv
  rcases hv with rfl | rfl | rfl
  · exact ⟨"X", 0, i, by simp, hi, hx⟩
  · exact ⟨"Y", 1, j, by simp, hj, hy⟩
  · exact ⟨"Z", 2, k, by simp, hk, hz⟩

/-- A variable without a value is made for a position only: what is typed into other slots is a value. -/
theorem Block.category_of_unset (hnumbers : SyntheticName.Numbers name bound) {b : Block}
    (hids : ∀ c ∈ b.walk, SyntheticName.isName c.id = false) {next : Nat}
    (hfit : next + (b.unnamed r).length ≤ bound) {v : Variable}
    (hv : v ∈ Outline.Part.write name next (Outline.ownParts r b.face b.slots))
    (hsynthetic : v.isSynthetic = true) (hvalue : v.value = none) :
  b.category = .pos
  := by
  by_contra hcategory
  have hmem := List.mem_filter.mpr ⟨hv, hsynthetic⟩
  rw [Block.filter_own hnumbers hids hfit] at hmem
  obtain ⟨⟨value, k⟩, hk, rfl⟩ := List.mem_map.mp hmem
  have hunnamed : none ∈ b.unnamed r := by
    rw [← hvalue]
    apply List.fst_mem_of_mem_zipIdx hk
  rw [Block.unnamed, if_neg hcategory] at hunnamed
  obtain ⟨content, -, hcontent⟩ := List.mem_filterMap.mp hunnamed
  cases content <;> cases hcontent

end

/-! ### Issues of nodes -/

section

variable {catalog : Catalog} {r : Registry} {n : Node}

/-- The variables that are reported at a node. -/
theorem Node.filterMap_unset?_ownIssues (catalog : Catalog) (r : Registry) (n : Node) :
  (n.ownIssues catalog r).filterMap Issue.unset?
    = (n.vars.filter (n.reports r)).map fun v => (n.id, v.text)
  := by
  have htemplate : ∀ t, (n.templateIssues t).filterMap Issue.unset? = [] := by
    intro t
    apply List.filterMap_eq_nil_iff.mpr
    intro issue hissue
    rcases Node.templateIssues_cases hissue with ⟨expected, rfl⟩ | rfl | rfl <;> rfl
  have hvalue : ∀ vs : List Variable,
      (vs.map fun v => Issue.unsetValue n.id v.text).filterMap Issue.unset?
        = vs.map fun v => (n.id, v.text) := by
    intro vs
    rw [List.filterMap_map, ← List.filterMap_eq_map]
    rfl
  rw [Node.ownIssues, List.filterMap_append, Node.valueIssues_eq, hvalue]
  cases Node.template? catalog r n.id with
  | none => rfl
  | some t => rw [htemplate, List.nil_append]

theorem Node.exists_lacks {id text : String} (h : .unsetValue id text ∈ n.ownIssues catalog r) :
  ∃ v, n.Lacks r v ∧ v.text = text
  := by
  have hmem := (List.mem_filterMap (f := Issue.unset?)).mpr ⟨_, h, rfl⟩
  rw [Node.filterMap_unset?_ownIssues] at hmem
  obtain ⟨v, hv, heq⟩ := List.mem_map.mp hmem
  exact ⟨v, Node.lacks_iff.mpr hv, congrArg Prod.snd heq⟩

/-- What a position lends is not reported at the node that holds it. -/
theorem Node.filter_reports_lent {nested held : List Node} (h : n.children = nested ++ held) :
  (Outline.lent held).filter (n.reports r) = []
  := by
  apply List.filter_eq_nil_iff.mpr
  intro v hv
  obtain ⟨m, hm, -, hv⟩ := Outline.mem_lent.mp hv
  have hchild : m ∈ n.children := by
    rw [h]
    apply List.mem_append_right _ hm
  simp [Node.reports, Node.isLent_of_child hchild hv]

section

variable {name : Nat → String} {bound : Nat} (hnumbers : SyntheticName.Numbers name bound) {b : Block}
  (hids : ∀ c ∈ b.walk, SyntheticName.isName c.id = false) {next : Nat}

include hnumbers hids

/-- A name of a node is not met in its children, as their numbers come behind its own. -/
theorem Block.isLent_write (hfit : next + (b.outline r).blanks ≤ bound) {k : Nat}
    (hk : k < next + (b.unnamed r).length) {v : Variable} (hv : v.id = name k) :
  ((b.outline r).write name next).isLent v = false
  := by
  have hchildren := Block.numbered_beneath hnumbers hids hfit
  rw [Block.blanks_outline] at hfit hchildren
  rw [Bool.eq_false_iff]
  intro hlent
  obtain ⟨child, hchild, hlent⟩ := List.any_eq_true.mp hlent
  obtain ⟨w, hw, hwv⟩ := List.any_eq_true.mp hlent
  have hname : w.id = name k := (beq_iff_eq.mp hwv).trans hv
  have hsynthetic : w.isSynthetic = true := by
    rw [Variable.isSynthetic, hname]
    apply hnumbers.isName k (by omega)
  obtain ⟨j, hlo, hhi, hname'⟩ := hchildren.within child
    (Program.mem_walk.mpr ⟨child, hchild, child.mem_walk_self⟩) w hw hsynthetic
  have hjk := hnumbers.inj j (by omega) k (by omega) (by rw [← hname', hname])
  omega

/-- Of the variables that a node has on its own, those are reported that are made for it and have no
value. -/
theorem Block.reports_write (hfree : ∀ k < bound, r.lookup? (name k) = none)
    (hfit : next + (b.outline r).blanks ≤ bound) {v : Variable}
    (hv : v ∈ Outline.Part.write name next (Outline.ownParts r b.face b.slots)) :
  ((b.outline r).write name next).reports r v = (v.isSynthetic && v.value.isNone)
  := by
  rcases Block.of_mem_write hv with ⟨c, entry, hc, hentry, hid, htext⟩ | ⟨k, -, hk, hid, htext⟩
  · have hplain : v.isSynthetic = false := by
      rw [Variable.isSynthetic, hid]
      apply hids c (Block.mem_walk_of_mem_slots hc)
    simp [Node.reports, hplain, htext, hentry]
  · have hown := Block.isLent_write hnumbers hids hfit hk hid
    rw [Block.blanks_outline] at hfit
    have hsynthetic : v.isSynthetic = true := by
      rw [Variable.isSynthetic, hid]
      apply hnumbers.isName k (by omega)
    simp [Node.reports, hsynthetic, hown, hid, htext, hfree k (by omega)]

theorem Node.WrittenFor.filter_reports (hfree : ∀ k < bound, r.lookup? (name k) = none)
    (h : n.WrittenFor r name bound b) :
  n.vars.filter (n.reports r) = (n.own r b).filter fun v => v.isSynthetic && v.value.isNone
  := by
  obtain ⟨next, hfit, hn⟩ := h
  obtain ⟨nested, held, hwrite, -⟩ := b.write_outline r name next
  rw [← hn] at hwrite
  have hvars : n.vars = Outline.Part.write name next (Outline.ownParts r b.face b.slots)
      ++ Outline.lent held := by
    rw [hwrite]
  have hchildren : n.children = nested ++ held := by
    rw [hwrite]
  rw [hvars, List.filter_append, Node.filter_reports_lent hchildren, List.append_nil,
    Node.WrittenFor.own_eq hn]
  apply List.filter_congr
  intro v hv
  rw [hn]
  apply Block.reports_write hnumbers hids hfree hfit hv

end

end

/-! ### The report -/

/-- Lists that belong to the elements of one list, and to related pairs, are joined to the same list. -/
theorem flatMap_eq_flatMap_zip {α β γ : Type} {f : α → List γ} {g : α × β → List γ} {xs : List α}
    {ys : List β} (h : List.Forall₂ (fun x y => f x = g (x, y)) xs ys) :
  xs.flatMap f = (xs.zip ys).flatMap g
  := by
  induction h with
  | nil => rfl
  | cons hxy _ ih => rw [List.flatMap_cons, ih, List.zip_cons_cons, List.flatMap_cons, hxy]

theorem Program.map_snd_unset (r : Registry) (nodes : List Node) (bs : List Block) :
  (Program.unset r nodes bs).map Prod.snd
    = (Program.made r nodes bs).filter fun v => v.value.isNone
  := by
  rw [Program.unset, Program.made, List.map_flatMap, List.filter_flatMap]
  apply List.flatMap_congr
  rintro ⟨n, b⟩ -
  dsimp only
  rw [List.map_map, List.filter_filter]
  simp only [Bool.and_comm]
  apply List.map_id

section

variable {r : Registry} {now : UInt64} {t : Forest}

/-- A synthetic id that is met in both nodes belongs to the same variable. -/
def Node.Agrees (n m : Node) : Prop :=
  ∀ v ∈ n.vars, ∀ w ∈ m.vars, v.isSynthetic = true → v.id = w.id → v = w

theorem Node.Agrees.symm {n m : Node} (h : n.Agrees m) :
  m.Agrees n
  := by
  intro w hw v hv hsynthetic hid
  apply (h v hv w hw (Variable.isSynthetic_of_id_eq hsynthetic hid) hid.symm).symm

/-- Variables of a program with the same synthetic id are the same. -/
theorem Program.NamedApart.eq_of_id_eq {p : Program} (h : Program.NamedApart r t p) {n m : Node}
    (hn : n ∈ Program.walk p) (hm : m ∈ Program.walk p) {v w : Variable} (hv : v ∈ n.vars)
    (hw : w ∈ m.vars) (hsynthetic : v.isSynthetic = true) (hid : v.id = w.id) :
  v = w
  := by
  have hsymm : Std.Symm Node.Agrees := ⟨fun _ _ => Node.Agrees.symm⟩
  have hself : ∀ n ∈ Program.walk p, n.Agrees n := by
    intro n hn v hv w hw hsynthetic hid
    apply List.inj_on_of_nodup_map (h.distinct n hn) _ _ hid
    · apply List.mem_filter.mpr ⟨hv, hsynthetic⟩
    · apply List.mem_filter.mpr ⟨hw, Variable.isSynthetic_of_id_eq hsynthetic hid⟩
  have hpairs : (Program.walk p).Pairwise Node.Agrees := h.shared.imp
    fun hnm v hv w hw hsynthetic hid => (hnm v hv w hw hsynthetic hid).1
  apply hpairs.forall_of_forall hself hn hm v hv w hw hsynthetic hid

/-- The variables that are made have different texts, which are their ids. -/
theorem Program.NamedApart.nodup_text {p : Program} (h : Program.NamedApart r t p) :
  ((Program.made r (Program.walk p) (Forest.shown t)).map Variable.text).Nodup
  := by
  rw [List.map_congr_left fun v hv => (h.free v hv).1]
  apply h.nodup

/-- What the check reports is a variable of a node, without a value and without an entry. -/
theorem Program.exists_lacks {catalog : Catalog} {p : Program} {id text : String}
    (h : .unsetValue id text ∈ Program.check catalog r p) :
  ∃ n ∈ Program.walk p, ∃ v, n.Lacks r v ∧ v.text = text
  := by
  rw [Program.check_eq_flatMap] at h
  obtain ⟨n, hn, hissue⟩ := List.mem_flatMap.mp h
  use n, hn
  apply Node.exists_lacks hissue

/-- A variable that the check reports has no value and a name that was given out. -/
theorem Program.NamedApart.of_reported {catalog : Catalog}
    (h : Program.NamedApart r t (Program.ofForest r now t)) {n : Node}
    (hn : n ∈ Program.walk (Program.ofForest r now t)) {v : Variable} (hv : v ∈ n.vars) {id : String}
    (hreported : .unsetValue id v.text ∈ Program.check catalog r (Program.ofForest r now t)) :
  v.value = none ∧ v.isSynthetic = true
  := by
  obtain ⟨m, hm, w, hlacks, htext⟩ := Program.exists_lacks hreported
  obtain ⟨b, -, hwritten⟩ := (exists_of_forall₂ (Program.forall₂_writtenFor r now t)).1 n hn
  rcases hwritten.of_mem_vars hv with hentry | ⟨k, hk, hid, hname⟩
  · rw [← htext, hlacks.free] at hentry
    contradiction
  · have hsynthetic : v.isSynthetic = true := by
      rw [Variable.isSynthetic, hid]
      apply Program.isName_nameAt hk
    have hsame : v.id = w.id := by
      rw [hlacks.synthetic, htext, hid, hname]
    obtain rfl := h.eq_of_id_eq hn hm hv hlacks.mem hsynthetic hsame
    exact ⟨hlacks.value, hsynthetic⟩

section

variable (hids : ∀ id ∈ Forest.ids t, SyntheticName.isName id = false) (h : Program.HasNames r now t)

include hids h

theorem Program.filterMap_unset?_check (catalog : Catalog) :
  (Program.check catalog r (Program.ofForest r now t)).filterMap Issue.unset?
    = (Program.unset r (Program.walk (Program.ofForest r now t)) (Forest.shown t)).map
      fun (id, v) => (id, v.text)
  := by
  rw [Program.check_eq_flatMap, List.filterMap_flatMap, Program.unset, List.map_flatMap]
  apply flatMap_eq_flatMap_zip
  apply (Program.forall₂_plain hids).imp
  rintro n b ⟨hb, hn⟩
  rw [Node.filterMap_unset?_ownIssues,
    hn.filter_reports (Program.numbers_nameAt h) hb (fun _ => Program.lookup?_nameAt h),
    hn.shows.id_eq, List.map_map]
  rfl

/-- A variable without a value is made for an axis of a position. -/
theorem Program.exists_axis {id : String} {v : Variable}
    (hv : (id, v) ∈ Program.unset r (Program.walk (Program.ofForest r now t)) (Forest.shown t)) :
  ∃ b ∈ Forest.shown t, b.id = id ∧ b.category = .pos
    ∧ b.HasAxis r (Program.syntheticNames r now (Outline.blanksOfAll (Forest.outline r t))) v
  := by
  obtain ⟨⟨n, b⟩, hnb, hv⟩ := List.mem_flatMap.mp hv
  obtain ⟨w, hw, heq⟩ := List.mem_map.mp hv
  cases heq
  obtain ⟨hown, hunset⟩ := List.mem_filter.mp hw
  simp only [Bool.and_eq_true, Option.isNone_iff_eq_none] at hunset
  obtain ⟨hb, hn⟩ := List.forall₂_zip (Program.forall₂_plain hids) hnb
  have hpos : b.category = .pos := by
    obtain ⟨next, hfit, hwrite⟩ := hn
    rw [Node.WrittenFor.own_eq hwrite] at hown
    rw [Block.blanks_outline] at hfit
    apply Block.category_of_unset (Program.numbers_nameAt h) hb (by omega) hown hunset.1 hunset.2
  refine ⟨b, (List.of_mem_zip hnb).2, rfl, hpos, hn.hasAxis ?_ hpos hown⟩
  intro k hk
  apply List.mem_of_getElem? (Program.getElem?_syntheticNames hk)

/-- Where the names can be given out, the check reports the axes of a program without a value. -/
theorem Program.reportsUnset_check (catalog : Catalog) :
  Program.ReportsUnset r now t (Program.check catalog r (Program.ofForest r now t))
  := by
  have hapart := Program.namedApart_ofForest hids h
  have hreport := Program.filterMap_unset?_check hids h catalog
  have hmade := Program.map_snd_unset r (Program.walk (Program.ofForest r now t)) (Forest.shown t)
  constructor
  · apply hreport
  · apply hmade
  · have htexts : ∀ xs : List (String × Variable), (xs.map fun (id, v) => (id, v.text)).map Prod.snd
        = (xs.map Prod.snd).map Variable.text := by
      intro xs
      rw [List.map_map, List.map_map]
      rfl
    rw [hreport, htexts, hmade]
    apply (List.filter_sublist.map Variable.text).nodup hapart.nodup_text
  · intro x hx
    apply Program.exists_axis hids h hx
  · intro n hn v hv hother id hreported
    obtain ⟨hvalue, hsynthetic⟩ := hapart.of_reported hn hv hreported
    rcases hother with hsome | hbound
    · rw [hvalue] at hsome
      contradiction
    · rw [hsynthetic] at hbound
      contradiction

end

end

/-- The check of a session reports each axis without a value once, with the position that the axis is one
of, and nothing else as a variable without a value.  That the names can be given out says that the search
for each of them ends, as it does unless many names are taken. -/
theorem Editor.reports_unset {catalog : Catalog} {registry : Registry} {clock : Clock} {e : Editor}
    (h : Editor.Reaches (.new catalog registry clock) e) :
  (1000 * (e.registry.takenNames.length
        + ((Forest.shown e.tree).flatMap (Block.unnamed e.registry)).length) ≤ 2 ^ 64 →
      Program.HasNames e.registry e.canvas.clock.now e.tree)
    ∧ (Program.HasNames e.registry e.canvas.clock.now e.tree →
      Program.ReportsUnset e.registry e.canvas.clock.now e.tree e.preflight)
  := by
  constructor
  · apply Program.hasNames_of_length_le
  · intro hnames
    apply Program.reportsUnset_check h.isName_eq_false hnames

/-- A catalog with a position that holds another one. -/
def Catalog.frames : Catalog :=
  ⟨[⟨"frame", "frame", .plain .pos [.position], none⟩], by decide⟩

/-- Three positions in one another.  The innermost one has a typed value, a variable whose entry has no
value, and an empty slot. -/
theorem Editor.reports_unset_frames :
  ∃ e, Editor.Reaches (.new .frames .standard (.fixed 7)) e
    ∧ (Program.walk e.program).map (fun n => (n.id, n.vars.length))
      = [("frame-7", 9), ("frame-8", 6), ("block-get-p1-pos-9", 3)]
    ∧ (e.preflight.filterMap Issue.unset?).map Prod.fst
      = ["frame-7", "frame-7", "frame-7", "frame-8", "frame-8", "frame-8", "block-get-p1-pos-9"]
    ∧ Program.ReportsUnset e.registry 7 e.tree e.preflight
  := by
  have houter := Editor.reaches_drop .frames .standard (.fixed 7) (.palette "frame") .hidden
    (.workspace .zero)
  have hinner := houter.drag (.palette "frame") .hidden (.slot "frame-7" 0) (by decide)
  have hposition := hinner.drag (.palette "block-get-p1-pos") .hidden (.slot "frame-8" 0) (by decide)
  have htyped := hposition.perform (.setLiteral "block-get-p1-pos-9" 0 "5") trivial
  have hbound := htyped.drag (.palette "block-get-X-pos") .hidden (.slot "block-get-p1-pos-9" 1)
    (by decide)
  obtain ⟨hnames, hreports⟩ := Editor.reports_unset hbound
  refine ⟨_, hbound, ?_, ?_, hreports (hnames ?_)⟩
  · decide
  · decide
  · decide

end BlockEditor
