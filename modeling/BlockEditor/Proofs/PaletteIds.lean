import BlockEditor.Palette.Stock
import BlockEditor.Proofs.Copies

/-!
# The ids of the palette

The palette shows the templates of the catalog and after them one for each name, and a look-up asks the
catalog first.  The ids of either half are different, but nothing keeps the ids of a catalog apart from
those that are made of names.  `Editor.KeepsApart` states that they are apart; then all ids of the palette
are different, and what is shown under an id is what the look-up finds.  Where they are not, the look-up
finds what is shown if it is the template of the catalog.
-/

namespace BlockEditor

/-! ### The two halves of the palette -/

namespace Registry

variable {r : Registry}

/-- The templates of names have the ids that are made of the names. -/
theorem Orderly.map_id_templates (h : Orderly r.entries) :
  r.templates.map Template.id = r.entries.map fun e => paletteId e.name
  := by
  rw [templates, List.map_map]
  apply List.map_congr_left
  intro e he
  rw [Function.comp_apply, Entry.id_template, h.source e he]

theorem Orderly.nodup_templates (h : Orderly r.entries) :
  (r.templates.map Template.id).Nodup
  := by
  have hid : Template.id ∘ Entry.template = Entry.sourceBlockId := by
    funext e
    apply Entry.id_template
  rw [templates, List.map_map, hid]
  apply h.nodup_source

/-- The template of a name is found under its id. -/
theorem Orderly.template?_of_mem (h : Orderly r.entries) {t : Template} (ht : t ∈ r.templates) :
  r.template? t.id = some t
  := by
  obtain ⟨e, he, rfl⟩ := List.mem_map.mp ht
  apply h.template?_eq_some_iff.mpr
  use e, he
  rw [Entry.id_template, h.source e he]
  exact ⟨rfl, rfl⟩

end Registry

/-! ### The palette of an editor -/

/-- No template of the catalog has the id of the template of a name. -/
def Editor.KeepsApart (e : Editor) : Prop :=
  ∀ entry ∈ e.registry.entries,
    Registry.paletteId entry.name ∉ e.catalog.templates.map Template.id

section

variable {e : Editor} (horderly : Registry.Orderly e.registry.entries)

include horderly

/-- The ids of the palette are different exactly if its halves are apart. -/
theorem Editor.nodup_paletteTemplates_iff :
  (e.paletteTemplates.map Template.id).Nodup ↔ e.KeepsApart
  := by
  rw [Editor.paletteTemplates, List.map_append, List.nodup_append, horderly.map_id_templates]
  constructor
  · rintro ⟨-, -, hdisjoint⟩ entry hentry hmem
    apply hdisjoint _ hmem _ (List.mem_map_of_mem hentry) rfl
  · intro hapart
    use e.catalog.nodup_ids
    constructor
    · rw [← horderly.map_id_templates]
      apply horderly.nodup_templates
    · rintro id hid _ hname rfl
      obtain ⟨entry, hentry, rfl⟩ := List.mem_map.mp hname
      apply hapart entry hentry hid

/-- A template that is shown is found under its id exactly if no other template of the catalog has that
id. -/
theorem Editor.palette_eq_some_iff {t : Template} (ht : t ∈ e.paletteTemplates) :
  e.palette t.id = some t ↔ ∀ s ∈ e.catalog.templates, s.id = t.id → s = t
  := by
  rw [Editor.palette, Palette.both]
  cases hget : e.catalog.get? t.id with
  | some s =>
    obtain ⟨hs, hid⟩ := Catalog.get?_eq_some_iff.mp hget
    constructor
    · intro h s' hs' hid'
      have hsame := (Catalog.get?_eq_some_iff.mpr ⟨hs', hid'⟩).symm.trans hget
      rw [Option.some.inj hsame, Option.some.inj h]
    · intro h
      rw [h s hs hid]
  | none =>
    have hnone : ∀ s ∈ e.catalog.templates, s.id ≠ t.id := by
      intro s hs hid
      rw [Catalog.get?_eq_some_iff.mpr ⟨hs, hid⟩] at hget
      contradiction
    constructor
    · intro _ s hs hid
      apply absurd hid (hnone s hs)
    · intro _
      apply horderly.template?_of_mem
      apply (List.mem_append.mp ht).resolve_left
      intro hcatalog
      apply hnone t hcatalog rfl

/-- Where the halves are apart, what is shown is what is found. -/
theorem Editor.palette_of_keepsApart (hapart : e.KeepsApart) {t : Template}
    (ht : t ∈ e.paletteTemplates) :
  e.palette t.id = some t
  := by
  rw [Editor.palette_eq_some_iff horderly ht]
  intro s hs hid
  have hnodup := (Editor.nodup_paletteTemplates_iff horderly).mpr hapart
  apply List.inj_on_of_nodup_map hnodup (List.mem_append_left _ hs) ht hid

end

/-- No id of the stock palette is made of a name. -/
theorem Catalog.paletteId_notMem_stock (name : String) :
  Registry.paletteId name ∉ Catalog.stock.templates.map Template.id
  := by
  have hother : ∀ id ∈ Catalog.stock.templates.map Template.id,
      ¬ "block-get-".toList <+: id.toList := by decide +kernel
  intro hmem
  apply hother _ hmem
  rw [Registry.paletteId, String.toList_append, String.toList_append, List.append_assoc]
  apply List.prefix_append

theorem Editor.keepsApart_of_stock {e : Editor} (h : e.catalog = .stock) :
  e.KeepsApart
  := by
  intro entry _
  rw [h]
  apply Catalog.paletteId_notMem_stock

/-- In a session with a registry from a configuration, the ids of the palette are different exactly if the
catalog has none that is made of a name, and then every template that is shown is found under its id.
In any case a template that is shown is found exactly if no other one of the catalog has its id. -/
theorem Editor.palette_shown {catalog : Catalog} {config : Registry.Config} {clock : Clock} {e : Editor}
    (h : Editor.Reaches (.new catalog (.ofConfig config) clock) e) :
  ((e.paletteTemplates.map Template.id).Nodup ↔ e.KeepsApart)
    ∧ (e.KeepsApart → ∀ t ∈ e.paletteTemplates, e.palette t.id = some t)
    ∧ ∀ t ∈ e.paletteTemplates,
      (e.palette t.id = some t ↔ ∀ s ∈ e.catalog.templates, s.id = t.id → s = t)
  := by
  have horderly := (h.arises (.ofConfig config)).1.orderly
  refine ⟨Editor.nodup_paletteTemplates_iff horderly, ?_, ?_⟩
  · intro hapart t ht
    apply Editor.palette_of_keepsApart horderly hapart ht
  · intro t ht
    apply Editor.palette_eq_some_iff horderly ht

/-- The stock catalog leaves room for the variable `speed`: what the palette shows is found under its
id. -/
theorem Editor.palette_shown_stock :
  ∃ e, Editor.Reaches (.new .stock (.ofConfig .standard) (.fixed 0)) e
    ∧ "block-get-speed-pos" ∈ e.paletteTemplates.map Template.id
    ∧ (e.paletteTemplates.map Template.id).Nodup
    ∧ ∀ t ∈ e.paletteTemplates, e.palette t.id = some t
  := by
  have hadd : Editor.Reaches (.new .stock (.ofConfig .standard) (.fixed 0)) _ :=
    Editor.Reaches.refl.perform (.addVariable "speed") trivial
  obtain ⟨hnodup, hfound, -⟩ := Editor.palette_shown hadd
  have hapart := Editor.keepsApart_of_stock (hadd.arises (.ofConfig .standard)).2
  exact ⟨_, hadd, by decide +kernel, hnodup.mpr hapart, hfound hapart⟩

/-- A catalog with a template under the id that is made of the name `speed`. -/
def Catalog.spin : Catalog :=
  ⟨[⟨"block-get-speed-pos", "spin", .plain .move [], none⟩], by decide⟩

/-- With that catalog, the variable `speed` is shown under an id that is there already, and the look-up
finds the template of the catalog in its place. -/
theorem Editor.palette_shown_twice :
  ∃ e, Editor.Reaches (.new .spin (.ofConfig .standard) (.fixed 0)) e
    ∧ ¬ (e.paletteTemplates.map Template.id).Nodup
    ∧ ∃ t ∈ e.paletteTemplates, e.palette t.id ≠ some t
  := by
  have hadd : Editor.Reaches (.new .spin (.ofConfig .standard) (.fixed 0)) _ :=
    Editor.Reaches.refl.perform (.addVariable "speed") trivial
  refine ⟨_, hadd, by decide +kernel, (Registry.Entry.ofUser "speed" .var).template, ?_, ?_⟩
  · decide +kernel
  · decide +kernel

end BlockEditor
