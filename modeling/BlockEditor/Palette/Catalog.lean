import BlockEditor.Block.Codec
import BlockEditor.Block.InstanceId
import BlockEditor.Json.Reader

/-!
# Catalogs

A catalog is the fixed part of the palette: templates in palette order, with different ids.
It is read from a JSON array of templates.  The id of a placed block is the id of its template,
a dash and a stamp of digits; `templateForInstance?` recovers the template from it.
-/

namespace BlockEditor

structure Catalog where
  templates : List Template
  nodup_ids : (templates.map Template.id).Nodup

inductive CatalogError where
  /-- Two templates have the same id. -/
  | duplicateTemplate (id : String)
  /-- The text is no JSON array of templates. -/
  | malformed
deriving DecidableEq, Repr

namespace Catalog

/-- The first id that is there before, if there is one. -/
def firstRepeated? : (seen : List String) → List String → Option String
  | _, [] => none
  | seen, id :: ids => if id ∈ seen then some id else firstRepeated? (id :: seen) ids

theorem disjoint_of_firstRepeated?_eq_none {seen ids : List String}
    (h : firstRepeated? seen ids = none) :
  ids.Nodup ∧ ∀ id ∈ ids, id ∉ seen
  := by
  induction ids generalizing seen with
  | nil => simp
  | cons id ids ih =>
    simp only [firstRepeated?] at h
    split at h
    · contradiction
    · obtain ⟨hnodup, hseen⟩ := ih h
      refine ⟨List.nodup_cons.mpr ⟨fun hmem => ?_, hnodup⟩, ?_⟩
      · exact hseen id hmem (List.mem_cons_self ..)
      · intro x hx
        rcases List.mem_cons.mp hx with rfl | hx
        · assumption
        · exact fun hs => hseen x hx (List.mem_cons_of_mem _ hs)

theorem nodup_of_firstRepeated?_eq_none {ids : List String}
    (h : firstRepeated? [] ids = none) :
  ids.Nodup
  := (disjoint_of_firstRepeated?_eq_none h).1

/-- The catalog of the given templates, unless an id is there twice. -/
def ofTemplates (templates : List Template) : Except CatalogError Catalog :=
  match h : firstRepeated? [] (templates.map Template.id) with
  | none => .ok ⟨templates, nodup_of_firstRepeated?_eq_none h⟩
  | some id => .error (.duplicateTemplate id)

/-- The catalog written in a text: a JSON array of templates. -/
def read (text : String) : Except CatalogError Catalog :=
  match (Json.read? text).bind (Json.decode? Template.decoder.list) with
  | none => .error .malformed
  | some templates => ofTemplates templates

/-- The template with the given id. -/
def get? (c : Catalog) (id : String) : Option Template :=
  c.templates.find? fun t => t.id = id

/-- The templates that a query finds, in palette order. -/
def search (c : Catalog) (query : String) : List Template :=
  c.templates.filter fun t => t.matchesQuery query

/-- The categories in the order of their first templates, each with its templates. -/
def byCategory (c : Catalog) : List (Category × List Template) :=
  (c.templates.map fun t => t.kind.category).eraseDups.map fun category =>
    (category, c.templates.filter fun t => t.kind.category = category)

/-- The template that a placed block was made from, by the id of the block. -/
def templateForInstance? (c : Catalog) (instanceId : String) : Option Template :=
  match InstanceId.split? instanceId with
  | some (base, stamp) => if stamp.isEmpty then none else c.get? base
  | none => none

end Catalog

/-- The message for a refused catalog. -/
def CatalogError.message : CatalogError → String
  | .duplicateTemplate id => s!"duplicate template id `{id}`"
  | .malformed => "invalid catalog JSON"

end BlockEditor
