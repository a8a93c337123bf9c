import BlockEditor.Proofs.Conservation
import BlockEditor.Proofs.Copies
import BlockEditor.Proofs.Refusal
import BlockEditor.Replay.Run

/-!
# Refused steps leave no trace

In a valid workspace the editor refuses a drag only while it is planned, and an edit only while it is
checked, so a refused step leaves the whole editor: the stamps, the readings of the clock and the
gesture as well as the workspace.  A replay of the script without its refused steps then goes through
the same editors and comes to the same report.

The accepted steps keep the workspace valid as long as the stamps of new blocks do not run out.  A
step adds one block at most, so they do not if the blocks and the steps are no more than the words.
-/

namespace BlockEditor

/-! ### Refused drops -/

section

variable {c : Canvas} {palette : Palette} {layout : Layout} {target : Target}

theorem Canvas.cancel_eq_self (hgesture : c.gesture = none) :
  c.cancel = c
  := by rw [Canvas.cancel, ← hgesture]

/-- In a valid workspace, a drop that is refused does nothing but end the gesture: a plan that was
made is carried out. -/
theorem Canvas.drop_eq_cancel (ht : Forest.Valid c.tree) {reason : Rejection}
    (h : (c.drop palette layout target).1 = .error reason) :
  (c.drop palette layout target).2 = c.cancel
  := by
  obtain ⟨failure, hfailed, -⟩ := Canvas.drop_eq_error_iff.mp h
  rw [Canvas.drop_snd]
  rw [Canvas.finish] at hfailed ⊢
  cases hgesture : c.gesture with
  | none => apply (Canvas.cancel_eq_self hgesture).symm
  | some source =>
    rw [hgesture] at hfailed
    dsimp only at hfailed ⊢
    cases hplan : Plan.ofGesture c.tree palette layout source target with
    | error reason => rfl
    | ok plan =>
      rw [hplan] at hfailed
      obtain ⟨outcome, hresult, -⟩ :=
        Canvas.drops_of_settled (c := c.cancel) ht (Plan.settled_of_ofGesture ht hplan)
      dsimp only at hfailed
      rw [hresult] at hfailed
      contradiction

end

theorem Editor.gesture_edit {e : Editor} (hgesture : e.canvas.gesture = none) {id : String}
    {check : Block → Except EditError Unit} {change : Block → Block} :
  (e.edit id check change).2.canvas.gesture = none
  := by
  rw [Editor.edit]
  split <;> exact hgesture

/-! ### The number of blocks -/

/-- What is brought is one new block at most. -/
theorem Forest.Brings.size_le {t t' : Forest} {palette : Palette} {source : Source} {b : Block}
    {new : List String} (h : t.Brings palette source b new)
    (hids : (Forest.ids t').Perm (new ++ Forest.ids t)) :
  Forest.size t' ≤ Forest.size t + 1
  := by
  have hlength := hids.length_eq
  rw [List.length_append, Forest.length_ids, Forest.length_ids] at hlength
  have hnew : new.length ≤ 1 := by
    cases h with
    | placed _ => apply Nat.zero_le
    | made _ _ => apply Nat.le_refl
  omega

/-- A drop adds one block at most. -/
theorem Forest.Moves.size_le {t t' : Forest} {palette : Palette} {source : Source} {action : Action}
    {outcome : Outcome} (h : t.Moves palette source action outcome t') :
  Forest.size t' ≤ Forest.size t + 1
  := by
  cases h with
  | insert hbrings _ _ _ _ hids => apply hbrings.size_le hids
  | slot hbrings _ _ _ _ _ _ _ hids => apply hbrings.size_le hids
  | delete _ _ hids =>
    have hlength := hids.length_eq
    rw [List.length_append, Forest.length_ids, Forest.length_ids] at hlength
    omega
  | ignore _ => apply Nat.le_succ

/-- A workspace has no more blocks than one with all its faces. -/
theorem Forest.Valid.size_le {t t' : Forest} (ht' : Forest.Valid t')
    (h : Forest.bares t' ⊆ Forest.bares t) :
  Forest.size t' ≤ Forest.size t
  := by
  have hids : ∀ t : Forest, Forest.ids t = (Forest.bares t).map Face.id := by
    intro t
    rw [Forest.bares, List.map_map]
    rfl
  rw [← Forest.length_ids, ← Forest.length_ids]
  apply List.Subperm.length_le
  apply ht'.nodup.subperm
  rw [hids, hids]
  apply List.map_subset _ h

/-- A drop adds no more than one block. -/
theorem Canvas.size_drop_le {c : Canvas} (ht : Forest.Valid c.tree) {palette : Palette}
    {layout : Layout} {target : Target} (hroom : c.HasRoom palette layout target) :
  Forest.size (c.drop palette layout target).2.tree ≤ Forest.size c.tree + 1
  := by
  rcases Canvas.drop_cases ht palette layout target with
    ⟨_, -, -, htree⟩ | ⟨source, plan, outcome, hgesture, hplan, -, -, hdrops⟩
  · rw [htree]
    apply Nat.le_succ
  · apply Forest.Moves.size_le (t := c.tree)
    apply Canvas.Drops.moves (c := c.cancel) ht hdrops
    intro carried hcarried
    apply hroom source plan carried hgesture hplan hcarried

/-- The report without the refused steps. -/
def Report.accepted (r : Report) : Report :=
  { r with rejected := [] }

namespace Script

variable {e e' : Editor} {handles : Handles} {step : Step} {result : Done × Editor}

/-! ### Steps -/

@[simp]
theorem dragDone_snd (e : Editor) (source : Source) (target : Target) :
  (dragDone e source target).2 = (drag e source target).2
  := by
  rw [dragDone]
  generalize drag e source target = dragged
  obtain ⟨outcome, e'⟩ := dragged
  cases outcome <;> rfl

@[simp]
theorem editDone_snd (edit : Except EditError Unit × Editor) :
  (editDone edit).2 = edit.2
  := by
  obtain ⟨result, e⟩ := edit
  cases result <;> rfl

theorem of_dragDone_error {source : Source} {target : Target} {reason : StepError}
    (h : (dragDone e source target).1 = .error reason) :
  ∃ rejection, (drag e source target).1 = .error rejection
  := by
  rw [dragDone] at h
  generalize drag e source target = dragged at h
  obtain ⟨outcome, e'⟩ := dragged
  cases outcome with
  | ok outcome => contradiction
  | error rejection => use rejection

theorem of_editDone_error {edit : Except EditError Unit × Editor} {reason : StepError}
    (h : (editDone edit).1 = .error reason) :
  ∃ refusal, edit.1 = .error refusal
  := by
  obtain ⟨result, e⟩ := edit
  cases result with
  | ok _ => contradiction
  | error refusal => use refusal

/-- A step that is carried out comes to something. -/
theorem carriedOut_eq_iff {done : Done} :
  carriedOut result = (.ok done, e') ↔ result = (done, e')
  := by
  simp [carriedOut, Prod.ext_iff]

/-- A step that needs a block and does not abort has found it. -/
theorem of_lookedUp_eq_ok {α : Type} {found : Except StepFault α}
    {rest : α → Except StepFault Done × Editor} {done : Done}
    (h : lookedUp e found rest = (.ok done, e')) :
  ∃ a, found = .ok a ∧ rest a = (.ok done, e')
  := by
  cases found with
  | error fault =>
    rw [lookedUp] at h
    cases h
  | ok a => use a, rfl, h

/-- What cannot be looked up changes nothing, nor does what comes after it if it comes to a fault. -/
theorem lookedUp_of_fault {α : Type} {found : Except StepFault α}
    {rest : α → Except StepFault Done × Editor} {fault : StepFault}
    (hrest : ∀ a, (rest a).1 = .error fault → (rest a).2 = e)
    (h : (lookedUp e found rest).1 = .error fault) :
  (lookedUp e found rest).2 = e
  := by
  cases found with
  | error fault => rfl
  | ok a => apply hrest a h

theorem carriedOut_of_fault {fault : StepFault} (h : (carriedOut result).1 = .error fault) :
  (carriedOut result).2 = e
  := by
  rw [carriedOut] at h
  contradiction

/-- A step that cannot be carried out leaves the editor.  All that it needs is looked up before anything
is changed, so no gesture has begun by then. -/
theorem perform_of_fault {fault : StepFault} (h : (perform e handles step).1 = .error fault) :
  (perform e handles step).2 = e
  := by
  cases step with
  | place template into handle =>
    apply lookedUp_of_fault _ h
    intro target
    apply carriedOut_of_fault
  | move block into =>
    apply lookedUp_of_fault _ h
    intro id
    apply lookedUp_of_fault
    intro target
    apply carriedOut_of_fault
  | delete block =>
    apply lookedUp_of_fault _ h
    intro id
    apply carriedOut_of_fault
  | literal block slot value =>
    apply lookedUp_of_fault _ h
    intro id
    apply carriedOut_of_fault
  | operator block operator =>
    apply lookedUp_of_fault _ h
    intro id
    apply carriedOut_of_fault
  | clear => apply carriedOut_of_fault h
  | removeName name => apply carriedOut_of_fault h

theorem perform_eq_of_fault {fault : StepFault} (h : (perform e handles step).1 = .error fault) :
  perform e handles step = (.error fault, e)
  := Prod.ext h (perform_of_fault h)

/-- What a step drags, and where to. -/
inductive Drags (e : Editor) (handles : Handles) : Step → Source → Target → Prop where
  | place {template : String} {into : Aim} {handle : Option String} {target : Target}
      (haim : aimTarget e handles into = .ok target) :
      Drags e handles (.place template into handle) (.palette template) target
  | move {block id : String} {into : Aim} {target : Target}
      (hid : resolve handles block = .ok id) (haim : aimTarget e handles into = .ok target) :
      Drags e handles (.move block into) (.workspace id) target
  | delete {block id : String} (hid : resolve handles block = .ok id) :
      Drags e handles (.delete block) (.workspace id) .disposal

/-- What a step that can be carried out comes to. -/
inductive Performs (e : Editor) (handles : Handles) : Step → Done × Editor → Prop where
  | drag {step : Step} {source : Source} {target : Target}
      (hdrags : Drags e handles step source target) :
      Performs e handles step (dragDone e source target)
  | literal {block id : String} (hid : resolve handles block = .ok id) (slot : UInt64)
      (value : String) :
      Performs e handles (.literal block slot value) (editDone (e.typeLiteral id slot.toNat value))
  | operator {block id : String} (hid : resolve handles block = .ok id)
      (operator : Option String) :
      Performs e handles (.operator block operator) (editDone (e.selectOperator id operator))
  | clear : Performs e handles .clear (.ok none, e.clear true)
  | removeName (name : String) :
      Performs e handles (.removeName name) (.ok none, (e.removeName name).2)

/-- A step that does not abort does what the relation says of it. -/
theorem performs_of_perform {done : Done} (h : perform e handles step = (.ok done, e')) :
  Performs e handles step (done, e')
  := by
  cases step with
  | place template into handle =>
    obtain ⟨target, haim, hdone⟩ := of_lookedUp_eq_ok h
    rw [← carriedOut_eq_iff.mp hdone]
    apply Performs.drag (Drags.place haim)
  | move block into =>
    obtain ⟨id, hid, hrest⟩ := of_lookedUp_eq_ok h
    obtain ⟨target, haim, hdone⟩ := of_lookedUp_eq_ok hrest
    rw [← carriedOut_eq_iff.mp hdone]
    apply Performs.drag (Drags.move hid haim)
  | delete block =>
    obtain ⟨id, hid, hdone⟩ := of_lookedUp_eq_ok h
    rw [← carriedOut_eq_iff.mp hdone]
    apply Performs.drag (Drags.delete hid)
  | literal block slot value =>
    obtain ⟨id, hid, hdone⟩ := of_lookedUp_eq_ok h
    rw [← carriedOut_eq_iff.mp hdone]
    apply Performs.literal hid
  | operator block operator =>
    obtain ⟨id, hid, hdone⟩ := of_lookedUp_eq_ok h
    rw [← carriedOut_eq_iff.mp hdone]
    apply Performs.operator hid
  | clear =>
    rw [perform, carriedOut_eq_iff] at h
    rw [← h]
    apply Performs.clear
  | removeName name =>
    rw [perform, carriedOut_eq_iff] at h
    rw [← h]
    apply Performs.removeName

/-- If a step makes a new block, there is a stamp for it. -/
def Step.HasRoom (step : Step) (e : Editor) (handles : Handles) : Prop :=
  ∀ source target, Drags e handles step source target →
    (e.startDrag source).HasRoom (.drop (stack (e.startDrag source)).layout target)

namespace Performs

/-- A step keeps the workspace valid. -/
theorem valid (h : Performs e handles step result) (ht : Forest.Valid e.tree)
    (hroom : step.HasRoom e handles) :
  Forest.Valid result.2.tree
  := by
  cases h with
  | drag hdrags =>
    rw [dragDone_snd]
    apply Canvas.valid_drop (c := (e.startDrag _).canvas) ht (hroom _ _ hdrags)
  | literal _ slot value =>
    rw [editDone_snd]
    apply Editor.valid_typeLiteral ht
  | operator _ operator =>
    rw [editDone_snd]
    apply Editor.valid_selectOperator ht
  | clear => apply Forest.valid_nil
  | removeName name => apply Editor.valid_removeName ht

/-- A step leaves no gesture in progress. -/
theorem gesture (h : Performs e handles step result) (hgesture : e.canvas.gesture = none) :
  result.2.canvas.gesture = none
  := by
  cases h with
  | @drag _ source _ hdrags =>
    rw [dragDone_snd]
    apply Canvas.finish_gesture (c := (e.startDrag source).canvas)
  | literal _ slot value =>
    rw [editDone_snd]
    apply Editor.gesture_edit hgesture
  | operator _ operator =>
    rw [editDone_snd]
    apply Editor.gesture_edit hgesture
  | clear => apply hgesture
  | removeName name =>
    rw [Editor.removeName]
    split <;> exact hgesture

/-- A step adds one block at most. -/
theorem size_le (h : Performs e handles step result) (ht : Forest.Valid e.tree)
    (hroom : step.HasRoom e handles) :
  Forest.size result.2.tree ≤ Forest.size e.tree + 1
  := by
  have hvalid := h.valid ht hroom
  cases h with
  | @drag _ source target hdrags =>
    rw [dragDone_snd]
    apply Canvas.size_drop_le (c := (e.startDrag source).canvas) ht (hroom source target hdrags)
  | literal _ slot value =>
    rw [editDone_snd] at hvalid ⊢
    apply Nat.le_succ_of_le (hvalid.size_le (Editor.bares_typeLiteral_subset e _ _ value))
  | operator _ operator =>
    rw [editDone_snd] at hvalid ⊢
    apply Nat.le_succ_of_le (hvalid.size_le (Editor.bares_selectOperator_subset e _ operator))
  | clear => apply Nat.zero_le
  | removeName name =>
    apply Nat.le_succ_of_le (hvalid.size_le _)
    rcases e.removeName_cases name with ⟨-, -, htree⟩ | ⟨-, -, htree⟩
    · rw [htree]
      apply List.Subset.refl
    · rw [htree]
      apply Forest.bares_prune_subset

/-- In a valid workspace with no gesture in progress, a step that is refused leaves the editor. -/
theorem eq_of_refused (h : Performs e handles step result) (ht : Forest.Valid e.tree)
    (hgesture : e.canvas.gesture = none) {reason : StepError} (hrefused : result.1 = .error reason) :
  result.2 = e
  := by
  cases h with
  | @drag _ source target hdrags =>
    obtain ⟨rejection, hrejection⟩ := of_dragDone_error hrefused
    have hcanvas := Canvas.drop_eq_cancel (c := (e.startDrag source).canvas) ht hrejection
    rw [dragDone_snd]
    change { e with canvas := ((e.startDrag source).canvas.drop _ _ _).2 } = e
    rw [hcanvas]
    -- The gesture that the drag began is given up, and there was none before.
    change { e with canvas := e.canvas.cancel } = e
    rw [Canvas.cancel_eq_self hgesture]
  | literal _ slot value =>
    obtain ⟨refusal, hrefusal⟩ := of_editDone_error hrefused
    rw [editDone_snd]
    apply Editor.edit_of_error hrefusal
  | operator _ operator =>
    obtain ⟨refusal, hrefusal⟩ := of_editDone_error hrefused
    rw [editDone_snd]
    apply Editor.edit_of_error hrefusal
  | clear => contradiction
  | removeName name => contradiction

end Performs

/-! ### Replays -/

/-- There is a stamp for every block that steps make, carried out as `runSteps` does. -/
def HasRoomFrom : (index : Nat) → List Step → Report → Editor → Prop
  | _, [], _, _ => True
  | index, step :: steps, r, e =>
    step.HasRoom e r.handles ∧ ∀ done e', perform e r.handles step = (.ok done, e') →
      HasRoomFrom (index + 1) steps (note r index step done) e'

/-- There is a stamp for every block that a replay of the script makes. -/
def HasRoom (s : Script) (e : Editor) : Prop :=
  ∀ e₁ e₂, addVariables s.newVariables e = (.ok (), e₁) →
    addPositions s.newPositions e₁ = (.ok (), e₂) → HasRoomFrom 0 s.steps .empty e₂

/-- Steps, the first of which has the given index, less those at the given indices. -/
def stepsWithout (indices : List Nat) (index : Nat) (steps : List Step) : List Step :=
  ((steps.zipIdx index).filter fun step => step.2 ∉ indices).map Prod.fst

/-- The script less the steps at the given indices. -/
def without (s : Script) (indices : List Nat) : Script :=
  { s with steps := stepsWithout indices 0 s.steps }

theorem stepsWithout_cons_of_mem {indices : List Nat} {index : Nat} (h : index ∈ indices)
    (step : Step) (steps : List Step) :
  stepsWithout indices index (step :: steps) = stepsWithout indices (index + 1) steps
  := by
  rw [stepsWithout, List.zipIdx_cons, List.filter_cons_of_neg]
  · rfl
  · simp [h]

theorem stepsWithout_cons_of_notMem {indices : List Nat} {index : Nat} (h : index ∉ indices)
    (step : Step) (steps : List Step) :
  stepsWithout indices index (step :: steps) = step :: stepsWithout indices (index + 1) steps
  := by
  rw [stepsWithout, List.zipIdx_cons, List.filter_cons_of_pos]
  · rfl
  · simp [h]

/-- An index before the first one is the index of no step. -/
theorem stepsWithout_cons_of_lt {first index : Nat} (h : first < index) (indices : List Nat)
    (steps : List Step) :
  stepsWithout (first :: indices) index steps = stepsWithout indices index steps
  := by
  rw [stepsWithout, stepsWithout]
  congr 1
  apply List.filter_congr
  intro step hstep
  have hle := List.le_snd_of_mem_zipIdx hstep
  have hne : step.2 ≠ first := by omega
  simp [hne]

/-- What is noted of an accepted step does not depend on the refused ones. -/
theorem accepted_note (r : Report) (index index' : Nat) (step : Step) (outcome : Option Outcome) :
  (note r index step (.ok outcome)).accepted = note r.accepted index' step (.ok outcome)
  := by
  cases outcome with
  | none => rfl
  | some outcome =>
    rw [note, note]
    split <;> rfl

/-- An accepted step is not among the refused ones. -/
theorem rejected_note (r : Report) (index : Nat) (step : Step) (outcome : Option Outcome) :
  (note r index step (.ok outcome)).rejected = r.rejected
  := by
  cases outcome with
  | none => rfl
  | some outcome =>
    rw [note]
    split <;> rfl

/-- Less the steps that are refused, steps lead to the same editor and the same report, but for the
refused ones. -/
theorem runSteps_stepsWithout {steps : List Step} {index : Nat} {r report : Report}
    (ht : Forest.Valid e.tree) (hgesture : e.canvas.gesture = none)
    (hroom : HasRoomFrom index steps r e) (hrun : runSteps index steps r e = (.ok report, e')) :
  ∃ rejected, report.rejected = r.rejected ++ rejected
    ∧ (∀ refused ∈ rejected, index ≤ refused.1)
    ∧ ∀ index', runSteps index' (stepsWithout (rejected.map Prod.fst) index steps) r.accepted e
      = (.ok report.accepted, e')
  := by
  induction steps generalizing index r e with
  | nil =>
    cases hrun
    exact ⟨[], (List.append_nil _).symm, nofun, fun _ => rfl⟩
  | cons step steps ih =>
    rw [runSteps] at hrun
    rcases hperform : perform e r.handles step with ⟨result, e₁⟩
    rw [hperform] at hrun
    cases result with
    | error fault => cases hrun
    | ok done =>
      obtain ⟨hstepRoom, hrestRoom⟩ := hroom
      have hperforms := performs_of_perform hperform
      obtain ⟨rejected, hrejected, hafter, hagain⟩ := ih (hperforms.valid ht hstepRoom)
        (hperforms.gesture hgesture) (hrestRoom done e₁ hperform) hrun
      cases done with
      | error reason =>
        have heq : e₁ = e := hperforms.eq_of_refused ht hgesture rfl
        rw [heq] at hagain
        refine ⟨(index, reason) :: rejected, ?_, ?_, ?_⟩
        · rw [hrejected, note, Report.addRejected, List.append_assoc, List.singleton_append]
        · rw [List.forall_mem_cons]
          use Nat.le_refl index
          intro refused hrefused
          apply Nat.le_of_succ_le (hafter refused hrefused)
        · intro index'
          rw [List.map_cons, stepsWithout_cons_of_mem List.mem_cons_self,
            stepsWithout_cons_of_lt (Nat.lt_succ_self index)]
          apply hagain
      | ok outcome =>
        rw [rejected_note] at hrejected
        have hkept : index ∉ rejected.map Prod.fst := by
          intro hmem
          obtain ⟨refused, hrefused, heq⟩ := List.mem_map.mp hmem
          have hle := hafter refused hrefused
          omega
        refine ⟨rejected, hrejected, ?_, ?_⟩
        · intro refused hrefused
          apply Nat.le_of_succ_le (hafter refused hrefused)
        · intro index'
          have hperform' : perform e r.accepted.handles step = (.ok (.ok outcome), e₁) := hperform
          rw [stepsWithout_cons_of_notMem hkept, runSteps, hperform']
          dsimp only
          rw [← accepted_note r index]
          apply hagain

/-- There are stamps for the blocks that steps make, unless there are as many blocks and steps as
words. -/
theorem hasRoomFrom_of_size_le {steps : List Step} {index : Nat} {r : Report}
    (ht : Forest.Valid e.tree) (hsize : Forest.size e.tree + steps.length ≤ UInt64.size) :
  HasRoomFrom index steps r e
  := by
  induction steps generalizing index r e with
  | nil => trivial
  | cons step steps ih =>
    rw [List.length_cons] at hsize
    have hroom : step.HasRoom e r.handles := by
      intro source target _
      apply Editor.hasRoom_of_size_lt
      change Forest.size e.tree < UInt64.size
      omega
    use hroom
    intro done e' hperform
    have hperforms := performs_of_perform hperform
    have hle := hperforms.size_le ht hroom
    apply ih (hperforms.valid ht hroom)
    omega

/-! ### Scripts -/

/-- Names leave the canvas, whether they are refused or not. -/
theorem canvas_addVariables (vs : List NewVariable) (e : Editor) :
  (addVariables vs e).2.canvas = e.canvas
  := by
  induction vs generalizing e with
  | nil => rfl
  | cons v vs ih =>
    rw [addVariables]
    have hentered : (e.enterName v.name .var).2.canvas = e.canvas := rfl
    generalize e.enterName v.name .var = entered at hentered ⊢
    obtain ⟨result, e₁⟩ := entered
    cases result with
    | error reason => apply hentered
    | ok _ =>
      dsimp only
      cases v.value with
      | none => apply (ih e₁).trans hentered
      | some value =>
        dsimp only
        have hassigned : (e₁.assignValue v.name value).2.canvas = e₁.canvas := rfl
        generalize e₁.assignValue v.name value = assigned at hassigned ⊢
        obtain ⟨result, e₂⟩ := assigned
        cases result with
        | error reason => apply hassigned.trans hentered
        | ok _ =>
          calc
            (addVariables vs e₂).2.canvas = e₂.canvas := ih e₂
            _ = e₁.canvas := hassigned
            _ = e.canvas := hentered

theorem canvas_addPositions (names : List String) (e : Editor) :
  (addPositions names e).2.canvas = e.canvas
  := by
  induction names generalizing e with
  | nil => rfl
  | cons name names ih =>
    rw [addPositions]
    have hentered : (e.enterName name .position).2.canvas = e.canvas := rfl
    generalize e.enterName name .position = entered at hentered ⊢
    obtain ⟨result, e₁⟩ := entered
    cases result with
    | error reason => apply hentered
    | ok _ => apply (ih e₁).trans hentered

/-- When all names of a script are registered, the canvas is as before. -/
theorem canvas_of_registered {vs : List NewVariable} {names : List String} {e₁ e₂ : Editor}
    (hvariables : addVariables vs e = (.ok (), e₁))
    (hpositions : addPositions names e₁ = (.ok (), e₂)) :
  e₂.canvas = e.canvas
  := by
  have hfirst := canvas_addVariables vs e
  have hsecond := canvas_addPositions names e₁
  rw [hvariables] at hfirst
  rw [hpositions] at hsecond
  apply hsecond.trans hfirst

/-- There are stamps for the blocks that a script makes, unless there are as many blocks and steps as
words. -/
theorem hasRoom_of_size_le {s : Script} (ht : Forest.Valid e.tree)
    (hsize : Forest.size e.tree + s.steps.length ≤ UInt64.size) :
  s.HasRoom e
  := by
  intro e₁ e₂ hvariables hpositions
  have hcanvas := canvas_of_registered hvariables hpositions
  have htree : e₂.tree = e.tree := congrArg Canvas.tree hcanvas
  apply hasRoomFrom_of_size_le
  · rw [htree]
    apply ht
  · rw [htree]
    apply hsize

/-- Refused steps leave no trace: the script without them leads to the same editor, with the same
report but for the refusals.  That there is a stamp for every block says that the search for each of
them ends, as it does unless there are as many blocks as stamps. -/
theorem run_without {catalog : Catalog} {registry : Registry} {clock : Clock}
    (h : Editor.Reaches (.new catalog registry clock) e) (hgesture : e.canvas.gesture = none)
    {s : Script} (hroom : s.HasRoom e) {report : Report} (hrun : s.run e = (.ok report, e')) :
  (s.without (report.rejected.map Prod.fst)).run e = (.ok { report with rejected := [] }, e')
  := by
  rw [run] at hrun ⊢
  rw [without]
  cases hvariables : addVariables s.newVariables e with
  | mk result e₁ =>
    rw [hvariables] at hrun
    cases result with
    | error abort => cases hrun
    | ok _ =>
      dsimp only at hrun ⊢
      cases hpositions : addPositions s.newPositions e₁ with
      | mk result e₂ =>
        rw [hpositions] at hrun
        cases result with
        | error abort => cases hrun
        | ok _ =>
          have hcanvas := canvas_of_registered hvariables hpositions
          have ht : Forest.Valid e₂.canvas.tree := by
            rw [hcanvas]
            apply h.valid Forest.valid_nil
          rw [← hcanvas] at hgesture
          obtain ⟨rejected, hrejected, -, hagain⟩ :=
            runSteps_stepsWithout ht hgesture (hroom e₁ e₂ hvariables hpositions) hrun
          have hall : report.rejected = rejected := hrejected
          rw [hall]
          apply hagain

/-- Two of these steps are refused: a slot for values takes no movement, and there is no slot 7. -/
def stumbling : Script :=
  ⟨[], [], [
    .place "block-steps-x" .workspace (some "move"),
    .place "block-reset" (.slot "move" 0) (some "move"),
    .literal "move" 0 "5",
    .literal "move" 7 "1",
    .place "block-measure" .workspace none]⟩

theorem run_without_stumbling :
  ∃ report e', stumbling.run (.standard (.ticking 1000 1)) = (.ok report, e')
    ∧ report.rejected.map Prod.fst = [1, 3]
    ∧ report.outcomes
      = [.inserted "block-steps-x-1000" .root, .inserted "block-measure-1001" .root]
    ∧ (stumbling.without [1, 3]).run (.standard (.ticking 1000 1))
      = (.ok { report with rejected := [] }, e')
  := by
  have hroom : stumbling.HasRoom (.standard (.ticking 1000 1)) :=
    hasRoom_of_size_le Forest.valid_nil (by decide)
  let report : Report :=
    ⟨[.inserted "block-steps-x-1000" .root, .inserted "block-measure-1001" .root],
      [(1, .drop (.typeMismatch .move "block-steps-x-1000" 0)),
        (3, .edit (.noSuchSlot "block-steps-x-1000" 7))],
      Report.empty.handles.insert "move" "block-steps-x-1000"⟩
  have hreport : (stumbling.run (.standard (.ticking 1000 1))).1 = .ok report := by
    decide +kernel
  have hrun : stumbling.run (.standard (.ticking 1000 1))
      = (.ok report, (stumbling.run (.standard (.ticking 1000 1))).2) := by
    rw [← hreport]
  refine ⟨report, _, hrun, rfl, rfl, ?_⟩
  apply run_without Editor.Reaches.refl rfl hroom hrun

end Script

end BlockEditor
