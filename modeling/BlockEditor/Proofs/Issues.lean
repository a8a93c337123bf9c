import BlockEditor.Palette.Lookup
import BlockEditor.Program.Check
import BlockEditor.Proofs.InstanceIds
import BlockEditor.Proofs.Nodes

/-!
# The issues of a program

The check of a program is the list of the issues of its nodes, in the order of the walk.  The template
of a node is found by its id if that was made from the template, and the issues of the node are those
that its variables, its text and its children leave with that template.
-/

namespace BlockEditor

/-! ### The template of a node -/

/-- The catalog is asked for what stands before the stamp of an id. -/
theorem Catalog.templateForInstance?_of_isStamped (catalog : Catalog) {base id : String}
    (h : InstanceId.IsStamped base id) :
  catalog.templateForInstance? id = catalog.get? base
  := by
  obtain ⟨stamp, hsplit, hstamp⟩ := h.exists_split?
  rw [templateForInstance?, hsplit]
  dsimp only
  apply if_neg (mt String.isEmpty_iff.mp hstamp)

/-- The template of a node whose id has a stamp is the one that the palette has for what stands before
the stamp. -/
theorem Node.template?_of_isStamped (catalog : Catalog) (r : Registry) {base id : String}
    (h : InstanceId.IsStamped base id) :
  Node.template? catalog r id = Palette.both catalog r base
  := by
  obtain ⟨stamp, hsplit, -⟩ := h.exists_split?
  rw [Node.template?, catalog.templateForInstance?_of_isStamped h, hsplit]
  rfl

/-- The template of a node whose id was made from a template is the one of the palette. -/
theorem Node.template?_make (catalog : Catalog) (r : Registry) (templateId : String)
    (stamp : UInt64) :
  Node.template? catalog r (InstanceId.make templateId stamp) = Palette.both catalog r templateId
  := Node.template?_of_isStamped catalog r (InstanceId.isStamped_make templateId stamp)

/-! ### The issues of nodes -/

mutual

theorem Node.check_eq_flatMap (catalog : Catalog) (r : Registry) :
  ∀ n : Node, n.check catalog r = n.walk.flatMap (Node.ownIssues catalog r)
  | ⟨id, type, text, vars, children⟩ => by
      rw [Node.check, Node.walk, List.flatMap_cons, Program.check_eq_flatMap catalog r children]

/-- The issues of a program are those of its nodes, in the order of the walk. -/
theorem Program.check_eq_flatMap (catalog : Catalog) (r : Registry) :
  ∀ p : List Node, Program.check catalog r p = (Program.walk p).flatMap (Node.ownIssues catalog r)
  | [] => rfl
  | n :: ns => by
      rw [Program.check, Program.walk, List.flatMap_append, Node.check_eq_flatMap catalog r n,
        Program.check_eq_flatMap catalog r ns]

end

/-! ### What issues are about -/

theorem Node.templateIssues_cases {n : Node} {t : Template} {issue : Issue}
    (h : issue ∈ n.templateIssues t) :
  (∃ expected, issue = .arityMismatch n.id expected n.vars.length) ∨ issue = .missingOperator n.id
    ∨ issue = .missingPosition n.id
  := by
  rw [Node.templateIssues, List.mem_append, List.mem_append] at h
  rcases h with (h | h) | h
  · split at h
    · split at h
      · cases h
      · exact Or.inl ⟨_, List.mem_singleton.mp h⟩
    · cases h
  · split at h
    · exact Or.inr (Or.inl (List.mem_singleton.mp h))
    · cases h
  · split at h
    · exact Or.inr (Or.inr (List.mem_singleton.mp h))
    · cases h

theorem Node.about_of_mem_ownIssues {catalog : Catalog} {r : Registry} {n : Node} {issue : Issue}
    (h : issue ∈ n.ownIssues catalog r) :
  issue.about = n.id
  := by
  rw [Node.ownIssues] at h
  rcases List.mem_append.mp h with h | h
  · split at h
    · rcases Node.templateIssues_cases h with ⟨expected, rfl⟩ | rfl | rfl <;> rfl
    · cases h
  · obtain ⟨v, -, rfl⟩ := List.mem_map.mp h
    rfl

/-- The issues of a program are about its nodes. -/
theorem Program.exists_about_of_mem_check {catalog : Catalog} {r : Registry} {p : Program}
    {issue : Issue} (h : issue ∈ Program.check catalog r p) :
  ∃ n ∈ Program.walk p, issue.about = n.id
  := by
  rw [Program.check_eq_flatMap] at h
  obtain ⟨n, hn, hissue⟩ := List.mem_flatMap.mp h
  use n, hn
  apply Node.about_of_mem_ownIssues hissue

/-- An issue is one of the node that it is about, if there is one such node. -/
theorem Program.mem_check_iff {catalog : Catalog} {r : Registry} {p : Program} {n : Node} {issue : Issue}
    (h : ((Program.walk p).filter fun m => m.id = issue.about) = [n]) :
  issue ∈ Program.check catalog r p ↔ issue ∈ n.ownIssues catalog r
  := by
  have hn : n ∈ (Program.walk p).filter fun m => m.id = issue.about := by
    rw [h]
    apply List.mem_singleton_self
  rw [Program.check_eq_flatMap, List.mem_flatMap]
  constructor
  · rintro ⟨m, hm, hissue⟩
    have hfilter : m ∈ (Program.walk p).filter fun m => m.id = issue.about :=
      List.mem_filter.mpr ⟨hm, decide_eq_true (Node.about_of_mem_ownIssues hissue).symm⟩
    rw [h, List.mem_singleton] at hfilter
    rw [← hfilter]
    apply hissue
  · intro hissue
    use n, List.mem_of_mem_filter hn

/-! ### Nodes without issues -/

/-- A node has what its template asks for. -/
structure Node.Meets (n : Node) (t : Template) : Prop where
  arity : ∀ expected, t.expectedVars = some expected → n.vars.length = expected.toNat
  operator : t.kind.operators ≠ [] → n.text ≠ t.label
  position : t.kind.slots.any SlotSpec.isPosition = true →
    ∃ child ∈ n.children, child.type = Category.pos.wireName

theorem Node.meets_iff (n : Node) (t : Template) :
  n.Meets t ↔ (∀ expected, t.expectedVars = some expected → n.vars.length = expected.toNat)
    ∧ (t.kind.operators ≠ [] → n.text ≠ t.label)
    ∧ (t.kind.slots.any SlotSpec.isPosition = true →
      ∃ child ∈ n.children, child.type = Category.pos.wireName)
  := ⟨fun h => ⟨h.arity, h.operator, h.position⟩, fun ⟨h, h', h''⟩ => ⟨h, h', h''⟩⟩

/-- The template finds nothing wrong with a node exactly if the node has what it asks for. -/
theorem Node.templateIssues_eq_nil_iff (n : Node) (t : Template) :
  n.templateIssues t = [] ↔ n.Meets t
  := by
  rw [Node.meets_iff, Node.templateIssues, List.append_eq_nil_iff, List.append_eq_nil_iff, and_assoc]
  apply and_congr
  · cases t.expectedVars <;> simp
  · apply and_congr
    · simp
    · simp

/-- The position of a node is reported missing if the template asks for one and no child is one. -/
theorem Node.missingPosition_mem_iff {catalog : Catalog} {r : Registry} {n : Node} {t : Template}
    (h : Node.template? catalog r n.id = some t) :
  .missingPosition n.id ∈ n.ownIssues catalog r
    ↔ t.kind.slots.any SlotSpec.isPosition = true
      ∧ ¬ ∃ child ∈ n.children, child.type = Category.pos.wireName
  := by
  have hvalue : .missingPosition n.id ∉ n.valueIssues r := by
    simp [Node.valueIssues]
  have htemplate : .missingPosition n.id ∈ n.templateIssues t
      ↔ t.kind.slots.any SlotSpec.isPosition = true
        ∧ ¬ ∃ child ∈ n.children, child.type = Category.pos.wireName := by
    cases hexpected : t.expectedVars <;> simp [Node.templateIssues, hexpected]
  rw [Node.ownIssues, h, List.mem_append, or_iff_left hvalue, htemplate]

/-- The variable is an unset one of the node itself. -/
structure Node.Lacks (r : Registry) (n : Node) (v : Variable) : Prop where
  mem : v ∈ n.vars
  value : v.value = none
  synthetic : v.id = v.text
  own : n.isLent v = false
  free : r.lookup? v.text = none

/-- The check takes the variable of the node for an unset one. -/
def Node.reports (r : Registry) (n : Node) (v : Variable) : Bool :=
  v.value.isNone && v.id == v.text && !n.isLent v && (r.lookup? v.text).isNone

theorem Node.valueIssues_eq (r : Registry) (n : Node) :
  n.valueIssues r = (n.vars.filter (n.reports r)).map fun v => .unsetValue n.id v.text
  := rfl

theorem Node.lacks_iff {r : Registry} {n : Node} {v : Variable} :
  n.Lacks r v ↔ v ∈ n.vars.filter (n.reports r)
  := by
  simp only [List.mem_filter, Node.reports, Bool.and_eq_true, Option.isNone_iff_eq_none, beq_iff_eq,
    Bool.not_eq_true']
  constructor
  · intro h
    exact ⟨h.mem, ⟨⟨h.value, h.synthetic⟩, h.own⟩, h.free⟩
  · rintro ⟨hmem, ⟨⟨hvalue, hsynthetic⟩, hown⟩, hfree⟩
    exact ⟨hmem, hvalue, hsynthetic, hown, hfree⟩

theorem Node.valueIssues_eq_nil_iff (r : Registry) (n : Node) :
  n.valueIssues r = [] ↔ ∀ v, ¬ n.Lacks r v
  := by
  simp only [Node.lacks_iff]
  rw [Node.valueIssues_eq, List.map_eq_nil_iff, List.eq_nil_iff_forall_not_mem]

/-- A variable of a child is lent. -/
theorem Node.isLent_of_child {n m : Node} (hm : m ∈ n.children) {v : Variable} (hv : v ∈ m.vars) :
  n.isLent v = true
  := by
  apply List.any_eq_true.mpr
  use m, hm
  apply List.any_eq_true.mpr
  use v, hv
  apply beq_self_eq_true

/-- A node without issues: it has what its template asks for, and no variable of its own is unset. -/
theorem Node.ownIssues_eq_nil_iff {catalog : Catalog} {r : Registry} {n : Node} {t : Template}
    (h : Node.template? catalog r n.id = some t) :
  n.ownIssues catalog r = [] ↔ n.Meets t ∧ ∀ v, ¬ n.Lacks r v
  := by
  rw [Node.ownIssues, h, List.append_eq_nil_iff, Node.valueIssues_eq_nil_iff,
    Node.templateIssues_eq_nil_iff]

end BlockEditor
