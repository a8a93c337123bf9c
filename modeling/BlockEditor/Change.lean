/-!
# Changes

A change of a state answers with a result or with the reason why it is refused.  It leaves a state in
either case, and that a refused one leaves the state as it was is a matter of the change.
-/

namespace BlockEditor

/-- The state that a change leaves if it is accepted, or the reason why it is refused. -/
def accepted {ε α σ : Type} : Except ε α × σ → Except ε σ
  | (.ok _, s) => .ok s
  | (.error reason, _) => .error reason

section

variable {ε α σ : Type} {change : Except ε α × σ} {s : σ}

theorem accepted_eq_ok_iff :
  accepted change = .ok s ↔ (∃ a, change.1 = .ok a) ∧ change.2 = s
  := by
  obtain ⟨result, s'⟩ := change
  cases result <;> simp [accepted]

theorem accepted_eq_error_iff {reason : ε} :
  accepted change = .error reason ↔ change.1 = .error reason
  := by
  obtain ⟨result, s'⟩ := change
  cases result <;> simp [accepted]

/-- If nothing is left of refused changes, the state that a change leaves has every property of the state
before which the states that it is accepted with have too. -/
theorem snd_of_accepted {P : σ → Prop} (hrefused : ∀ reason, change.1 = .error reason → change.2 = s)
    (hs : P s) (haccepted : ∀ s', accepted change = .ok s' → P s') :
  P change.2
  := by
  cases hresult : change.1 with
  | error reason =>
    rw [hrefused reason hresult]
    apply hs
  | ok a => apply haccepted _ (accepted_eq_ok_iff.mpr ⟨⟨a, hresult⟩, rfl⟩)

end

end BlockEditor
