import BlockEditor.Palette.Catalog
import BlockEditor.Palette.Registry

/-!
# Palettes

A palette answers which template has a given id.  The palette of an editor is its catalog
followed by its registry.
-/

namespace BlockEditor

abbrev Palette := String → Option Template

namespace Palette

/-- The catalog first, then the registry. -/
def both (c : Catalog) (r : Registry) : Palette := fun id =>
  match c.get? id with
  | some t => some t
  | none => r.template? id

end Palette

end BlockEditor
