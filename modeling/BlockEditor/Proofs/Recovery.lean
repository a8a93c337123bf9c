import BlockEditor.Proofs.Copies
import BlockEditor.Proofs.Issues

/-!
# The template of a placed block

The id of a placed block is the id of its template, a dash and digits, and the template is recovered from
it.  That it is the right one rests on two facts.  An id is taken apart at its last dash, so dashes and
digits in the id of a template do no harm; and whatever is placed is a copy of a template that the palette
has at that moment, since a name is removed from the registry together with all copies of its template.
-/

namespace BlockEditor

section

variable {catalog : Catalog} {registry : Registry} {clock : Clock} {e : Editor}

/-- A placed block is a copy of the template that the palette has under the id of its template, and the
id of the block leads to it. -/
theorem Editor.Reaches.exists_template (h : Editor.Reaches (.new catalog registry clock) e)
    (harises : registry.Arises) {b : Block} (hb : b ∈ Forest.walk e.tree) :
  ∃ t, e.palette b.templateId = some t ∧ b.IsCopy t
    ∧ Node.template? e.catalog e.registry b.id = some t
  := by
  obtain ⟨t, ht, hcopy⟩ := h.copiesOf harises _ (List.mem_map_of_mem hb)
  obtain ⟨⟨stamp, hid⟩, htemplate, -, -⟩ := Block.IsCopy.spec hcopy
  use t, ht, hcopy
  rw [hid, Node.template?_make, ← htemplate]
  apply ht

/-- In a session with any catalog and any registry, the id of a placed block is the id of its template, a
dash and digits, and both lead to one template, which has the kind and the label of the block: the id of
the template by the palette as it is, and the id of the block by the look-up of the check. -/
theorem Editor.template_recovered (h : Editor.Reaches (.new catalog registry clock) e)
    (harises : registry.Arises) :
  ∀ b ∈ Forest.walk e.tree,
    (∃ digits, b.id = b.templateId ++ "-" ++ digits ∧ digits ≠ ""
      ∧ ∀ c ∈ digits.toList, Scan.isDigit c = true)
    ∧ ∃ t, Palette.both e.catalog e.registry b.templateId = some t
      ∧ t.id = b.templateId ∧ t.kind = b.kind ∧ t.label = b.label
      ∧ Node.template? e.catalog e.registry b.id = some t
  := by
  intro b hb
  obtain ⟨t, ht, hcopy, hrecovered⟩ := h.exists_template harises hb
  obtain ⟨⟨stamp, hid⟩, htemplate, hkind, hlabel⟩ := hcopy.spec
  constructor
  · use toString stamp.toNat
    rw [htemplate]
    exact ⟨hid, InstanceId.digits_stamp stamp⟩
  · exact ⟨t, ht, htemplate.symm, hkind.symm, hlabel.symm, hrecovered⟩

end

/-- A catalog in which the id of a template is the id of another one, a dash and digits. -/
def Catalog.nested : Catalog :=
  ⟨[⟨"a", "outer", .plain .move [], none⟩, ⟨"a-1", "inner", .plain .event [], none⟩], by decide⟩

/-- A block whose id could be cut at an earlier dash as well, and one of a name that was added again with
the other kind. -/
theorem Editor.template_recovered_nested :
  ∃ e b p, Editor.Reaches (.new .nested .standard (.fixed 2)) e ∧ e.tree = [b, p]
    ∧ b.id = "a-1-2" ∧ b.label = "inner" ∧ p.id = "block-get-n-pos-3" ∧ p.category = .pos
    ∧ (∃ t, Node.template? e.catalog e.registry b.id = some t ∧ t.label = b.label)
    ∧ ∃ t, Node.template? e.catalog e.registry p.id = some t ∧ t.kind = p.kind
  := by
  have hinner := Editor.reaches_drop .nested .standard (.fixed 2) (.palette "a-1") .hidden
    (.workspace .zero)
  have hvar := hinner.perform (.addVariable "n") trivial
  have hremove := hvar.perform (.removeName "n") trivial
  have hposition := hremove.perform (.addPosition "n") trivial
  have hdrop := hposition.drag (.palette "block-get-n-pos") .hidden (.workspace .zero) (by decide)
  have hrecovered := Editor.template_recovered hdrop (.ofConfig .standard)
  refine ⟨_, _, _, hdrop, rfl, rfl, rfl, rfl, rfl, ?_, ?_⟩
  · obtain ⟨-, t, -, -, -, hlabel, ht⟩ := hrecovered _ (List.mem_cons_self ..)
    use t, ht, hlabel
  · obtain ⟨-, t, -, -, hkind, -, ht⟩ :=
      hrecovered _ (List.mem_cons_of_mem _ (List.mem_cons_self ..))
    use t, ht, hkind

end BlockEditor
