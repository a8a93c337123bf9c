import BlockEditor.Proofs.Replaying
import Mathlib.Logic.Relation

/-!
# The moments of a replay

A `Moment` is how far a replay has come: the steps that it has carried out with what each of them came
to, and the report and the editor at that time.  `Script.Passes` states that a replay comes to a moment.
A replay ends in the last moment that it passes, either because no step is left or because the next one
cannot be carried out.  The handles of the report are told by what the steps came to.
-/

namespace BlockEditor

/-! ### Tables -/

namespace Table

variable {α : Type}

/-- An insertion changes what is found under its own key alone. -/
theorem lookup_insertInto (key : String) (value : α) (es : List (String × α)) (k : String) :
  (insertInto key value es).lookup k = if k = key then some value else es.lookup k
  := by
  induction es with
  | nil =>
    by_cases hk : k = key
    · simp [insertInto, hk]
    · simp [insertInto, List.lookup_cons, hk, beq_eq_false_iff_ne.mpr hk]
  | cons e es ih =>
    obtain ⟨key', value'⟩ := e
    rw [insertInto]
    by_cases hkey : key' = key
    · subst hkey
      by_cases hk : k = key'
      · simp [hk]
      · simp [List.lookup_cons, hk, beq_eq_false_iff_ne.mpr hk]
    · rw [if_neg hkey]
      by_cases hk : k = key'
      · simp [hk, hkey]
      · simp [List.lookup_cons, beq_eq_false_iff_ne.mpr hk, ih]

/-- A key that is inserted has the new value, and other keys have theirs. -/
theorem get?_insert (t : Table α) (key : String) (value : α) (k : String) :
  (t.insert key value).get? k = if k = key then some value else t.get? k
  := lookup_insertInto key value t.entries k

end Table

namespace Script

/-! ### Moments -/

/-- A step that was carried out, and what it came to. -/
structure Deed where
  step : Step
  done : Done

/-- The step gave the handle to the block with the id, which it put into the workspace. -/
def Deed.Binds (d : Deed) (handle id : String) : Prop :=
  handle? d.step = some handle
    ∧ ∃ outcome, d.done = .ok (some outcome) ∧ outcome.placedId? = some id

/-- How far a replay has come. -/
structure Moment where
  past : List Deed
  report : Report
  editor : Editor

namespace Moment

/-- No step has been carried out. -/
def first (e : Editor) : Moment :=
  ⟨[], .empty, e⟩

/-- The moment after one more step. -/
def after (p : Moment) (d : Deed) (e : Editor) : Moment :=
  ⟨p.past ++ [d], note p.report p.past.length d.step d.done, e⟩

theorem length_past_after (p : Moment) (d : Deed) (e : Editor) :
  (p.after d e).past.length = p.past.length + 1
  := by
  rw [after, List.length_append, List.length_singleton]

end Moment

/-- The next of the steps leads from one moment to the other. -/
inductive Advances (steps : List Step) (p : Moment) : Moment → Prop where
  | step {d : Deed} {e : Editor} (hstep : steps[p.past.length]? = some d.step)
      (hperform : perform p.editor p.report.handles d.step = (.ok d.done, e)) :
      Advances steps p (p.after d e)

/-- Steps lead from one moment to the other. -/
def Later (steps : List Step) : Moment → Moment → Prop :=
  Relation.ReflTransGen (Advances steps)

/-- A replay of the script comes to the moment. -/
def Passes (s : Script) (e : Editor) (p : Moment) : Prop :=
  ∃ e₁ e₂, addVariables s.newVariables e = (.ok (), e₁)
    ∧ addPositions s.newPositions e₁ = (.ok (), e₂) ∧ Later s.steps (.first e₂) p

section

variable {s : Script} {e e' : Editor} {steps : List Step} {p q : Moment}

/-- A later moment of a run is one of its moments. -/
theorem Passes.later (h : s.Passes e p) (hlater : Later s.steps p q) :
  s.Passes e q
  := by
  obtain ⟨e₁, e₂, hvariables, hpositions, hp⟩ := h
  exact ⟨e₁, e₂, hvariables, hpositions, hp.trans hlater⟩

theorem Passes.advances (h : s.Passes e p) (hadvances : Advances s.steps p q) :
  s.Passes e q
  := h.later (.single hadvances)

/-- What holds before the first step, whatever the names, and what every step preserves, holds of all
moments of a replay. -/
theorem Passes.induct {P : Moment → Prop} (h : s.Passes e p)
    (hfirst : ∀ e', e'.canvas = e.canvas → P (.first e'))
    (hadvances : ∀ q r, s.Passes e q → Advances s.steps q r → P q → P r) :
  P p
  := by
  obtain ⟨e₁, e₂, hvariables, hpositions, hlater⟩ := h
  have hcanvas := canvas_of_registered hvariables hpositions
  induction hlater with
  | refl => apply hfirst e₂ hcanvas
  | @tail q r hlater hstep ih =>
    apply hadvances q r ⟨e₁, e₂, hvariables, hpositions, hlater⟩ hstep ih

/-! ### The end of a replay -/

/-- A step that can be carried out leads to the next moment, where the replay goes on. -/
theorem Advances.runSteps_eq (h : Advances steps p q) :
  runSteps p.past.length (steps.drop p.past.length) p.report p.editor
    = runSteps q.past.length (steps.drop q.past.length) q.report q.editor
  := by
  obtain ⟨hstep, hperform⟩ := h
  obtain ⟨hlt, hget⟩ := List.getElem?_eq_some_iff.mp hstep
  rw [List.drop_eq_getElem_cons hlt, runSteps, hget, hperform, Moment.after, List.length_append]
  rfl

/-- The rest of a run has one result, at whichever moment the rest begins. -/
theorem Later.runSteps_eq (h : Later steps p q) :
  runSteps p.past.length (steps.drop p.past.length) p.report p.editor
    = runSteps q.past.length (steps.drop q.past.length) q.report q.editor
  := by
  induction h with
  | refl => rfl
  | tail _ hstep ih => rw [ih, hstep.runSteps_eq]

theorem Passes.run_eq (h : s.Passes e p) :
  s.run e = runSteps p.past.length (s.steps.drop p.past.length) p.report p.editor
  := by
  obtain ⟨e₁, e₂, hvariables, hpositions, hlater⟩ := h
  have hrun := hlater.runSteps_eq
  rw [← hrun, run, hvariables]
  dsimp only
  rw [hpositions]
  rfl

/-- The replay has come to its end: no step is left, or the next one cannot be carried out. -/
inductive Ends (steps : List Step) (p : Moment) : Except Abort Report × Editor → Prop where
  | done (hlength : steps.length ≤ p.past.length) : Ends steps p (.ok p.report, p.editor)
  | stuck {step : Step} {fault : StepFault} {e : Editor}
      (hstep : steps[p.past.length]? = some step)
      (hperform : perform p.editor p.report.handles step = (.error fault, e)) :
      Ends steps p (.error (.stepFailed p.past.length fault), e)

/-- A run whose end is known has that end for its result. -/
theorem Ends.runSteps_eq {result : Except Abort Report × Editor} (h : Ends steps p result) :
  runSteps p.past.length (steps.drop p.past.length) p.report p.editor = result
  := by
  cases h with
  | done hlength =>
    rw [List.drop_eq_nil_of_le hlength]
    rfl
  | stuck hstep hperform =>
    obtain ⟨hlt, hget⟩ := List.getElem?_eq_some_iff.mp hstep
    rw [List.drop_eq_getElem_cons hlt, runSteps, hget, hperform]

theorem getElem?_of_drop_eq_cons {index : Nat} {step : Step} {rest : List Step}
    (h : steps.drop index = step :: rest) :
  steps[index]? = some step ∧ steps.drop (index + 1) = rest
  := by
  constructor
  · rw [← List.head?_drop, h]
    rfl
  · rw [← List.tail_drop, h]
    rfl

/-- Every run has an end, which is later than or at each of its moments. -/
theorem exists_later_ends (steps : List Step) (p : Moment) :
  ∃ q, Later steps p q
    ∧ Ends steps q (runSteps p.past.length (steps.drop p.past.length) p.report p.editor)
  := by
  generalize hrest : steps.drop p.past.length = rest
  induction rest generalizing p with
  | nil => exact ⟨p, .refl, .done (List.drop_eq_nil_iff.mp hrest)⟩
  | cons step rest ih =>
    obtain ⟨hstep, hdrop⟩ := getElem?_of_drop_eq_cons hrest
    rw [runSteps]
    rcases hperform : perform p.editor p.report.handles step with ⟨result, e⟩
    cases result with
    | error fault => exact ⟨p, .refl, .stuck hstep hperform⟩
    | ok done =>
      have hadvances : Advances steps p (p.after ⟨step, done⟩ e) := .step hstep hperform
      have hlength := p.length_past_after ⟨step, done⟩ e
      obtain ⟨q, hlater, hends⟩ := ih (p.after ⟨step, done⟩ e) (by rw [hlength, hdrop])
      rw [hlength] at hends
      exact ⟨q, hlater.head hadvances, hends⟩

/-- A replay that registers its names ends in a moment that it passes. -/
theorem exists_passes_ends {e₁ e₂ : Editor}
    (hvariables : addVariables s.newVariables e = (.ok (), e₁))
    (hpositions : addPositions s.newPositions e₁ = (.ok (), e₂)) :
  ∃ p, s.Passes e p ∧ Ends s.steps p (s.run e)
  := by
  have hstart : s.Passes e (.first e₂) := ⟨e₁, e₂, hvariables, hpositions, .refl⟩
  obtain ⟨p, hlater, hends⟩ := exists_later_ends s.steps (.first e₂)
  rw [← hstart.run_eq] at hends
  exact ⟨p, hstart.later hlater, hends⟩

/-- The result of a run is the one at its end. -/
theorem Passes.run_eq_of_ends (h : s.Passes e p) {result : Except Abort Report × Editor}
    (hends : Ends s.steps p result) :
  s.run e = result
  := by
  rw [h.run_eq, hends.runSteps_eq]

/-- The steps that were carried out are the first ones of the script. -/
theorem Passes.map_step (h : s.Passes e p) :
  p.past.map Deed.step = s.steps.take p.past.length
  := by
  apply h.induct (P := fun p => p.past.map Deed.step = s.steps.take p.past.length)
  · intro e' _
    rfl
  · intro q r _ hadvances ih
    obtain ⟨hstep, -⟩ := hadvances
    rw [Moment.after, List.map_append, ih, List.length_append, List.length_singleton,
      List.take_add_one, hstep]
    rfl

/-! ### Room and valid workspaces -/

/-- While there is room for the steps to come, there is at every later moment. -/
theorem Later.hasRoomFrom (h : Later steps p q)
    (hroom : HasRoomFrom p.past.length (steps.drop p.past.length) p.report p.editor) :
  HasRoomFrom q.past.length (steps.drop q.past.length) q.report q.editor
  := by
  induction h with
  | refl => apply hroom
  | tail _ hadvances ih =>
    obtain ⟨hstep, hperform⟩ := hadvances
    obtain ⟨hlt, hget⟩ := List.getElem?_eq_some_iff.mp hstep
    rw [List.drop_eq_getElem_cons hlt, hget] at ih
    have hrest := ih.2 _ _ hperform
    rw [Moment.after, List.length_append]
    apply hrest

theorem hasRoomFrom_of_later (hroom : ∀ q step, Later steps p q → steps[q.past.length]? = some step →
    step.HasRoom q.editor q.report.handles) :
  HasRoomFrom p.past.length (steps.drop p.past.length) p.report p.editor
  := by
  generalize hrest : steps.drop p.past.length = rest
  induction rest generalizing p with
  | nil => trivial
  | cons step rest ih =>
    obtain ⟨hstep, hdrop⟩ := getElem?_of_drop_eq_cons hrest
    use hroom p step .refl hstep
    intro done e hperform
    have hadvances : Advances steps p (p.after ⟨step, done⟩ e) := .step hstep hperform
    have hlength := p.length_past_after ⟨step, done⟩ e
    rw [← hlength]
    apply ih
    · intro q step' hlater
      apply hroom q step' (hlater.head hadvances)
    · rw [hlength, hdrop]

/-- There is room for a replay if there is room for the next step at every moment. -/
theorem hasRoom_of_passes (hroom : ∀ p step, s.Passes e p → s.steps[p.past.length]? = some step →
    step.HasRoom p.editor p.report.handles) :
  s.HasRoom e
  := by
  intro e₁ e₂ hvariables hpositions
  apply hasRoomFrom_of_later (p := .first e₂)
  intro q step hlater
  apply hroom q step ⟨e₁, e₂, hvariables, hpositions, hlater⟩

/-- While there is room, the next step of a replay has room. -/
theorem Passes.hasRoom (h : s.Passes e p) (hroom : s.HasRoom e) {step : Step}
    (hstep : s.steps[p.past.length]? = some step) :
  step.HasRoom p.editor p.report.handles
  := by
  obtain ⟨e₁, e₂, hvariables, hpositions, hlater⟩ := h
  have hroom' := hlater.hasRoomFrom (hroom e₁ e₂ hvariables hpositions)
  obtain ⟨hlt, hget⟩ := List.getElem?_eq_some_iff.mp hstep
  rw [List.drop_eq_getElem_cons hlt, hget] at hroom'
  apply hroom'.1

/-- While there is room, the workspace is valid at every moment. -/
theorem Passes.valid (h : s.Passes e p) (hroom : s.HasRoom e) (ht : Forest.Valid e.tree) :
  Forest.Valid p.editor.tree
  := by
  apply h.induct (P := fun p => Forest.Valid p.editor.tree)
  · intro e' hcanvas
    rw [Moment.first, Editor.tree, hcanvas]
    apply ht
  · intro q r hq hadvances ih
    obtain ⟨hstep, hperform⟩ := hadvances
    apply (performs_of_perform hperform).valid ih (hq.hasRoom hroom hstep)

/-- No gesture is in progress at any moment. -/
theorem Passes.gesture (h : s.Passes e p) (hgesture : e.canvas.gesture = none) :
  p.editor.canvas.gesture = none
  := by
  apply h.induct (P := fun p => p.editor.canvas.gesture = none)
  · intro e' hcanvas
    rw [Moment.first, hcanvas]
    apply hgesture
  · intro q r _ hadvances ih
    obtain ⟨-, hperform⟩ := hadvances
    apply (performs_of_perform hperform).gesture ih

end

/-! ### Handles -/

/-- A deed puts one block under a handle. -/
theorem Deed.Binds.unique {d : Deed} {handle id id' : String} (h : d.Binds handle id)
    (h' : d.Binds handle id') :
  id = id'
  := by
  obtain ⟨-, outcome, hdone, hid⟩ := h
  obtain ⟨-, outcome', hdone', hid'⟩ := h'
  rw [hdone] at hdone'
  cases hdone'
  rw [hid] at hid'
  cases hid'
  rfl

/-- The handle names the id since the last step that gave it to a block. -/
def Moment.Names (p : Moment) (handle id : String) : Prop :=
  ∃ before d after, p.past = before ++ d :: after ∧ d.Binds handle id
    ∧ ∀ d' ∈ after, ∀ id', ¬ d'.Binds handle id'

/-- A step that puts a block into the workspace gives its handle to that block. -/
theorem get?_handles_note_of_binds {r : Report} {index : Nat} {d : Deed} {handle id : String}
    (h : d.Binds handle id) :
  (note r index d.step d.done).handles.get? handle = some id
  := by
  obtain ⟨hhandle, outcome, hdone, hid⟩ := h
  rw [hdone, note]
  simp only [hhandle, hid, Report.addOutcome, Report.bind, Table.get?_insert, if_true]

/-- A step leaves the handles that it does not give. -/
theorem get?_handles_note_of_not_binds {r : Report} {index : Nat} {d : Deed} {handle : String}
    (h : ∀ id, ¬ d.Binds handle id) :
  (note r index d.step d.done).handles.get? handle = r.handles.get? handle
  := by
  obtain ⟨step, done⟩ := d
  cases done with
  | error reason => rfl
  | ok outcome =>
    cases outcome with
    | none => rfl
    | some outcome =>
      rw [note]
      split
      · rename_i handle' id hhandle hid
        have hne : handle ≠ handle' := by
          rintro rfl
          apply h id ⟨hhandle, outcome, rfl, hid⟩
        rw [Report.addOutcome, Report.bind, Table.get?_insert, if_neg hne]
      · rfl

/-- After one more step, a handle names what that step gave it to, or else what it named before. -/
theorem Moment.names_after {p : Moment} {d : Deed} {e : Editor} {handle id : String} :
  (p.after d e).Names handle id
    ↔ d.Binds handle id ∨ (∀ id', ¬ d.Binds handle id') ∧ p.Names handle id
  := by
  constructor
  · rintro ⟨before, d', after, hpast, hbinds, hafter⟩
    rw [Moment.after] at hpast
    rcases after.eq_nil_or_concat with rfl | ⟨rest, last, rfl⟩
    · obtain ⟨-, hd⟩ := List.append_inj' hpast rfl
      cases hd
      apply Or.inl hbinds
    · rw [List.concat_eq_append, ← List.cons_append, ← List.append_assoc] at hpast
      obtain ⟨hrest, hd⟩ := List.append_inj' hpast rfl
      cases hd
      rw [List.concat_eq_append, List.forall_mem_append] at hafter
      exact Or.inr ⟨hafter.2 d (List.mem_singleton.mpr rfl), before, d', rest, hrest, hbinds, hafter.1⟩
  · rintro (hbinds | ⟨hnone, before, d', after, hpast, hbinds, hafter⟩)
    · refine ⟨p.past, d, [], rfl, hbinds, ?_⟩
      intro d' hd'
      cases hd'
    · refine ⟨before, d', after ++ [d], ?_, hbinds, ?_⟩
      · rw [Moment.after, hpast, List.append_assoc, List.cons_append]
      · rw [List.forall_mem_append]
        use hafter
        intro d'' hd''
        rw [List.mem_singleton.mp hd'']
        apply hnone

/-- At every moment of a replay, a handle names the block that it was given to last. -/
theorem Passes.get?_handles_iff {s : Script} {e : Editor} {p : Moment} (h : s.Passes e p)
    {handle id : String} :
  p.report.handles.get? handle = some id ↔ p.Names handle id
  := by
  apply h.induct (P := fun p => p.report.handles.get? handle = some id ↔ p.Names handle id)
  · intro e' _
    constructor
    · intro hget
      cases hget
    · rintro ⟨before, d, after, hpast, -⟩
      simp [Moment.first] at hpast
  · rintro q _ - @⟨d, e', hstep, hperform⟩ ih
    rw [Moment.names_after, ← ih]
    change (note q.report q.past.length d.step d.done).handles.get? handle = some id ↔ _
    by_cases hbinds : ∃ id', d.Binds handle id'
    · obtain ⟨id', hid'⟩ := hbinds
      rw [get?_handles_note_of_binds hid', Option.some.injEq]
      constructor
      · rintro rfl
        apply Or.inl hid'
      · rintro (hid | ⟨hnone, -⟩)
        · apply Deed.Binds.unique hid' hid
        · apply absurd hid' (hnone id')
    · have hnone := not_exists.mp hbinds
      rw [get?_handles_note_of_not_binds hnone]
      constructor
      · intro hget
        apply Or.inr ⟨hnone, hget⟩
      · rintro (hid | ⟨-, hget⟩)
        · apply absurd hid (hnone id)
        · apply hget

/-- At every moment of a replay, a handle names nothing if no step has given it to a block. -/
theorem Passes.get?_handles_eq_none_iff {s : Script} {e : Editor} {p : Moment} (h : s.Passes e p)
    {handle : String} :
  p.report.handles.get? handle = none ↔ ∀ d ∈ p.past, ∀ id, ¬ d.Binds handle id
  := by
  apply h.induct (P := fun p =>
    p.report.handles.get? handle = none ↔ ∀ d ∈ p.past, ∀ id, ¬ d.Binds handle id)
  · intro e' _
    constructor
    · intro _ d hd
      cases hd
    · intro _
      rfl
  · rintro q _ - @⟨d, e', hstep, hperform⟩ ih
    rw [Moment.after, List.forall_mem_append, ← ih]
    change (note q.report q.past.length d.step d.done).handles.get? handle = none ↔ _
    by_cases hbinds : ∃ id', d.Binds handle id'
    · obtain ⟨id', hid'⟩ := hbinds
      rw [get?_handles_note_of_binds hid']
      constructor
      · intro hget
        cases hget
      · rintro ⟨-, hnone⟩
        apply absurd hid' (hnone d (List.mem_singleton.mpr rfl) id')
    · have hnone := not_exists.mp hbinds
      rw [get?_handles_note_of_not_binds hnone]
      constructor
      · intro hget
        use hget
        intro d' hd'
        rw [List.mem_singleton.mp hd']
        apply hnone
      · rintro ⟨hget, -⟩
        apply hget

end Script

end BlockEditor
