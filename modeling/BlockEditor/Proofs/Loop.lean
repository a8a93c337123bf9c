import Mathlib.Logic.Basic

/-!
# Loops

A loop carries a state from round to round.  A round either ends the loop with a result or leads to the
state of the next one.  Nothing bounds the number of rounds, so a loop may also go on forever.
-/

namespace BlockEditor

/-- From the state, the loop goes round that many times and then ends with the result. -/
inductive Loop.Ends {σ ρ : Type} (round : σ → ρ ⊕ σ) : σ → Nat → ρ → Prop where
  | stop {state : σ} {result : ρ} (h : round state = .inl result) : Ends round state 0 result
  | again {state next : σ} {rounds : Nat} {result : ρ} (h : round state = .inr next)
      (hrest : Ends round next rounds result) : Ends round state (rounds + 1) result

end BlockEditor
