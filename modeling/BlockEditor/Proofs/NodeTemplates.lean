import BlockEditor.Palette.Stock
import BlockEditor.Proofs.Copies
import BlockEditor.Proofs.Issues

/-!
# The template of a node

A check finds the template of a node from the id of the node alone.  The id of a placed block is the id
of its template, a dash and a stamp, and for every id of that form the template is the one that the
palette has.  The registry is asked for ids in which nothing stands behind the dash as well, so these
lead to the templates of names though they have no stamp.
-/

namespace BlockEditor

namespace Node

section

variable (catalog : Catalog) (r : Registry)

/-- The registry alone is asked for an id that has only the dash. -/
theorem template?_of_isBare {base id : String} (h : InstanceId.IsBare base id) :
  template? catalog r id = r.template? base
  := by
  rw [template?, Catalog.templateForInstance?, h.split?_eq]
  rfl

/-- The template of a node is the one that the palette has for what stands before the stamp, or the one
of a name if the id has only the dash. -/
theorem template?_eq_some_iff {id : String} {t : Template} :
  template? catalog r id = some t
    ↔ InstanceId.IsStamped t.id id ∧ Palette.both catalog r t.id = some t
      ∨ InstanceId.IsBare t.id id ∧ r.template? t.id = some t
  := by
  constructor
  · intro h
    cases hsplit : InstanceId.split? id with
    | none =>
      rw [template?, Catalog.templateForInstance?, hsplit] at h
      contradiction
    | some parts =>
      obtain ⟨base, stamp⟩ := parts
      rcases InstanceId.isStamped_or_isBare hsplit with hstamped | hbare
      · rw [template?_of_isStamped catalog r hstamped] at h
        obtain rfl := Palette.id_of_both h
        exact Or.inl ⟨hstamped, h⟩
      · rw [template?_of_isBare catalog r hbare] at h
        obtain rfl := Registry.id_of_template? h
        exact Or.inr ⟨hbare, h⟩
  · rintro (⟨hstamped, h⟩ | ⟨hbare, h⟩)
    · rw [template?_of_isStamped catalog r hstamped, h]
    · rw [template?_of_isBare catalog r hbare, h]

/-- The id of a node leads to the template that stands before its stamp, and otherwise only from an id
with a bare dash to the template of a name.  So the form of the id alone decides if no template of a name
stands before a bare dash, and then a node whose id has no stamp has no issues with a template. -/
theorem template?_by_format (id : String) :
  (∀ t, template? catalog r id = some t
    ↔ InstanceId.IsStamped t.id id ∧ Palette.both catalog r t.id = some t
      ∨ InstanceId.IsBare t.id id ∧ r.template? t.id = some t)
    ∧ ((∀ t, InstanceId.IsBare t.id id → r.template? t.id ≠ some t) →
      (∀ t, template? catalog r id = some t
        ↔ InstanceId.IsStamped t.id id ∧ Palette.both catalog r t.id = some t)
      ∧ ((∀ base, ¬ InstanceId.IsStamped base id) →
        ∀ n : Node, n.id = id → n.ownIssues catalog r = n.valueIssues r))
  := by
  use fun t => template?_eq_some_iff catalog r
  intro hbare
  have hiff : ∀ t, template? catalog r id = some t
      ↔ InstanceId.IsStamped t.id id ∧ Palette.both catalog r t.id = some t := by
    intro t
    rw [template?_eq_some_iff]
    apply or_iff_left
    rintro ⟨hid, ht⟩
    apply hbare t hid ht
  use hiff
  rintro hstamped n rfl
  have hnone : template? catalog r n.id = none := by
    apply Option.eq_none_iff_forall_ne_some.mpr
    intro t ht
    apply hstamped t.id ((hiff t).mp ht).1
  rw [ownIssues, hnone, List.nil_append]

end

end Node

/-- A catalog with a template whose id ends in a dash and digits itself. -/
def Catalog.numbered : Catalog :=
  ⟨[⟨"spin-2", "spin", .plain .move [.value], some 1⟩], by decide⟩

/-- The id of that template with a second stamp leads to it, and a node without a stamp has no issues with
a template. -/
theorem Node.template?_by_format_numbered :
  Node.template? .numbered .standard "spin-2-07"
      = some ⟨"spin-2", "spin", .plain .move [.value], some 1⟩
    ∧ ∀ n : Node, n.id = "spin-2-x" → n.ownIssues .numbered .standard = n.valueIssues .standard
  := by
  obtain ⟨-, hstamped⟩ := Node.template?_by_format .numbered .standard "spin-2-07"
  obtain ⟨-, hnone⟩ := Node.template?_by_format .numbered .standard "spin-2-x"
  constructor
  · refine ((hstamped ?_).1 _).mpr ⟨⟨"07", rfl, by decide, List.all_eq_true.mp (by decide)⟩, by decide⟩
    intro t hbare
    have hsplit : InstanceId.split? "spin-2-07" = some ("spin-2", "07") := by decide
    rw [hbare.split?_eq, Option.some.injEq, Prod.mk.injEq] at hsplit
    apply absurd hsplit.2 (by decide)
  · have hsplit : InstanceId.split? "spin-2-x" = none := by decide
    apply (hnone ?_).2
    · intro base hbase
      obtain ⟨stamp, hsome, -⟩ := hbase.exists_split?
      rw [hsplit] at hsome
      contradiction
    · intro t hbare
      rw [hbare.split?_eq] at hsplit
      contradiction

/-- The id of the template of a name, followed by a bare dash, has no stamp and leads to that template: a
node with that id is found to lack its variables. -/
theorem Node.template?_bare_dash :
  Node.ownIssues .stock .standard ⟨"block-get-p1-pos-", "block-pos", "p1", [], []⟩
      = [.arityMismatch "block-get-p1-pos-" 3 0]
    ∧ (∀ base, ¬ InstanceId.IsStamped base "block-get-p1-pos-")
    ∧ ¬ ∀ t, Node.template? .stock .standard "block-get-p1-pos-" = some t
      ↔ InstanceId.IsStamped t.id "block-get-p1-pos-" ∧ Palette.both .stock .standard t.id = some t
  := by
  have hunstamped : ∀ base, ¬ InstanceId.IsStamped base "block-get-p1-pos-" := by
    intro base hbase
    obtain ⟨stamp, hsplit, hstamp⟩ := hbase.exists_split?
    have hbare : InstanceId.split? "block-get-p1-pos-" = some ("block-get-p1-pos", "") := by decide
    rw [hbare] at hsplit
    cases hsplit
    contradiction
  refine ⟨by decide, hunstamped, ?_⟩
  intro hformat
  have htemplate : Node.template? .stock .standard "block-get-p1-pos-"
      = some (Registry.Entry.ofBuiltin "p1" .position).template := by decide
  apply hunstamped _ ((hformat _).mp htemplate).1

end BlockEditor
