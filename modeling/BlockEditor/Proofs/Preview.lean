import BlockEditor.Proofs.Sessions

/-!
# What is shown is what happens

In every workspace that a session reaches, a drop is refused exactly if the action shown for it is
refused, for the same reason, and otherwise its outcome is the one that the action foresees.  Once
a plan is settled, nothing fails any more when it is carried out.
-/

namespace BlockEditor

/-- The outcome is the one that the action foresees. -/
inductive Action.Foresees : Action → Outcome → Prop where
  | slot (id holder : String) (slot : Nat) (evicts : Option String) :
      Foresees (.slot holder slot evicts) (.slotted id holder slot evicts)
  | insert (id : String) (container : Container) (anchor : Anchor) :
      Foresees (.insert container anchor) (.inserted id container)
  | delete (id : String) (removed : Nat) : Foresees (.dispose (some id)) (.deleted id removed)
  | ignore : Foresees (.dispose none) .ignored

theorem Canvas.Drops.foresees {c : Canvas} {palette : Palette} {source : Source} {plan : Plan}
    {outcome : Outcome} {t : Forest} (h : c.Drops palette source plan outcome t) :
  plan.action.Foresees outcome
  := by
  cases h <;> constructor

/-- In a valid workspace, the action shown and the drop are refused for the same reason, or both are
accepted and agree. -/
theorem Canvas.hover_agrees {c : Canvas} (ht : Forest.Valid c.tree) (palette : Palette)
    (layout : Layout) (target : Target) :
  (∃ reason, c.hover palette layout target = .error reason
      ∧ (c.drop palette layout target).1 = .error reason)
    ∨ ∃ action outcome, c.hover palette layout target = .ok action
      ∧ (c.drop palette layout target).1 = .ok outcome ∧ action.Foresees outcome
  := by
  rcases Canvas.drop_cases ht palette layout target with
    ⟨reason, hhover, hdrop, -⟩ | ⟨_, plan, outcome, -, -, hhover, hdrop, hdrops⟩
  · left
    use reason, hhover, hdrop
  · right
    use plan.action, outcome, hhover, hdrop
    apply hdrops.foresees

/-- A session never shows what does not happen. -/
theorem Editor.hover_iff_drop {catalog : Catalog} {registry : Registry} {clock : Clock} {e : Editor}
    (h : Editor.Reaches (.new catalog registry clock) e) (layout : Layout) (target : Target) :
  (∀ reason, e.hover layout target = .error reason ↔ (e.drop layout target).1 = .error reason)
    ∧ (∀ container, (∃ anchor, e.hover layout target = .ok (.insert container anchor))
      ↔ ∃ id, (e.drop layout target).1 = .ok (.inserted id container))
    ∧ (∀ holder slot evicts, e.hover layout target = .ok (.slot holder slot evicts)
      ↔ ∃ id, (e.drop layout target).1 = .ok (.slotted id holder slot evicts))
    ∧ (∀ id, e.hover layout target = .ok (.dispose (some id))
      ↔ ∃ removed, (e.drop layout target).1 = .ok (.deleted id removed))
    ∧ (e.hover layout target = .ok (.dispose none)
      ↔ (e.drop layout target).1 = .ok .ignored)
  := by
  have ht : Forest.Valid e.canvas.tree := h.valid Forest.valid_nil
  have hdrop : (e.drop layout target).1 = (e.canvas.drop e.palette layout target).1 := rfl
  rw [Editor.hover, hdrop]
  rcases Canvas.hover_agrees ht e.palette layout target with
    ⟨reason, hhover, hdrop⟩ | ⟨action, outcome, hhover, hdrop, hforesees⟩
  · simp [hhover, hdrop]
  · rw [hhover, hdrop]
    cases hforesees <;> simp

/-- A loop cannot be dragged into its own slot, and can be thrown away. -/
theorem Editor.hover_iff_drop_repeat :
  ∃ e, Editor.Reaches (.new .stock .standard (.fixed 0)) e
    ∧ e.hover .hidden (.slot "block-repeat-0" 0)
      = .error (.intoOwnSubtree "block-repeat-0")
    ∧ (e.drop .hidden (.slot "block-repeat-0" 0)).1
      = .error (.intoOwnSubtree "block-repeat-0")
    ∧ e.hover .hidden .disposal = .ok (.dispose (some "block-repeat-0"))
    ∧ ∃ removed, (e.drop .hidden .disposal).1 = .ok (.deleted "block-repeat-0" removed)
  := by
  have hdrop := Editor.reaches_drop .stock .standard (.fixed 0) (.palette "block-repeat") .hidden
    (.workspace .zero)
  have hstart := hdrop.perform (.startDrag (.workspace "block-repeat-0")) trivial
  obtain ⟨hrefused, -⟩ := Editor.hover_iff_drop hstart .hidden (.slot "block-repeat-0" 0)
  obtain ⟨-, -, -, hdeleted, -⟩ := Editor.hover_iff_drop hstart .hidden .disposal
  exact ⟨_, hstart, rfl, (hrefused _).mp rfl, rfl, (hdeleted _).mp rfl⟩

end BlockEditor
