import BlockEditor.Proofs.Highlighting
import BlockEditor.Proofs.Moments

/-!
# When a replay aborts

A replay aborts at a name that the registry refuses, or at a step that cannot be carried out: one that
names a handle which no step before it has bound, or that aims in front of a block which is not placed
any more or is in a slot.  The editor is then the one after the names and the steps before.  A replay
that does not abort tells in its report what every step came to.
-/

namespace BlockEditor

namespace Script

/-! ### Names -/

/-- A name that a script registers, with the value to give it. -/
structure Registration where
  name : String
  kind : Registry.EntryKind
  value : Option String

/-- The names that a script registers, in order. -/
def registrations (s : Script) : List Registration :=
  s.newVariables.map (fun v => ⟨v.name, .var, v.value⟩)
    ++ s.newPositions.map fun name => ⟨name, .position, none⟩

/-- The registry with the name. -/
def Registration.add (x : Registration) (r : Registry) : Except NameError Registry := do
  let added ← r.add x.name x.kind
  match x.value with
  | none => return added
  | some value => added.setValue x.name (some value)

/-- While the names are registered one after the other, one is refused in the editor `e'`. -/
inductive Refuses : Editor → List Registration → Editor → Prop where
  | here {e : Editor} {x : Registration} {xs : List Registration} {reason : NameError}
      (hrefused : e.registry.add x.name x.kind = .error reason) : Refuses e (x :: xs) e
  | later {e e' : Editor} {x : Registration} {xs : List Registration} {r : Registry}
      (hadd : x.add e.registry = .ok r) (h : Refuses { e with registry := r } xs e') :
      Refuses e (x :: xs) e'

theorem refuses_cons_iff {e e' : Editor} {x : Registration} {xs : List Registration} :
  Refuses e (x :: xs) e'
    ↔ (∃ reason, e.registry.add x.name x.kind = .error reason) ∧ e' = e
      ∨ ∃ r, x.add e.registry = .ok r ∧ Refuses { e with registry := r } xs e'
  := by
  constructor
  · rintro (⟨hrefused⟩ | ⟨hadd, h⟩)
    · exact Or.inl ⟨⟨_, hrefused⟩, rfl⟩
    · exact Or.inr ⟨_, hadd, h⟩
  · rintro (⟨⟨reason, hrefused⟩, rfl⟩ | ⟨r, hadd, h⟩)
    · apply Refuses.here hrefused
    · apply Refuses.later hadd h

/-- The value of a name can be set once the name is added. -/
theorem exists_setValue_of_add {r r' : Registry} {name : String} {kind : Registry.EntryKind}
    (h : r.add name kind = .ok r') (value : Option String) :
  ∃ r'', r'.setValue name value = .ok r''
  := by
  have hsome : (r'.lookup? name).isSome := by
    rw [Registry.lookup?, (Registry.of_add h).1, List.find?_append]
    simp [Registry.Entry.ofUser]
  obtain ⟨entry, hentry⟩ := Option.isSome_iff_exists.mp hsome
  rw [Registry.setValue, Registry.assign, hentry]
  exact ⟨_, rfl⟩

/-- A value that the registry accepts changes the registry, and nothing else of the editor. -/
theorem assignValue_of_setValue {e : Editor} {r : Registry} {name value : String}
    (h : e.registry.setValue name (some value) = .ok r) :
  e.assignValue name value = (.ok (), { e with registry := r })
  := by
  obtain ⟨⟨_, hresult⟩, hregistry⟩ := accepted_eq_ok_iff.mp h
  rw [Editor.assignValue]
  dsimp only
  rw [hresult, hregistry]

section

variable {e e' : Editor}

/-- A variable is refused, or the registration goes on in the editor with that variable. -/
theorem addVariables_cons (v : NewVariable) (vs : List NewVariable) (e : Editor) :
  (∃ reason, e.registry.add v.name .var = .error reason
      ∧ addVariables (v :: vs) e = (.error (.variableRefused v.name reason), e))
    ∨ ∃ r, Registration.add ⟨v.name, .var, v.value⟩ e.registry = .ok r
      ∧ addVariables (v :: vs) e = addVariables vs { e with registry := r }
  := by
  rw [addVariables, Registration.add]
  rcases e.enterName_cases v.name .var with ⟨reason, hadd, hentered⟩ | ⟨added, hadd, hentered⟩
  · rw [hadd, hentered]
    exact Or.inl ⟨reason, rfl, rfl⟩
  · right
    rw [hadd, hentered]
    cases v.value with
    | none => exact ⟨added, rfl, rfl⟩
    | some value =>
      obtain ⟨r, hset⟩ := exists_setValue_of_add hadd (some value)
      use r, hset
      dsimp only
      rw [assignValue_of_setValue (e := { e with registry := added }) hset]

/-- A name is refused while variables are registered, or while others are registered behind them. -/
theorem refuses_variables_iff (vs : List NewVariable) (xs : List Registration) :
  Refuses e (vs.map (fun v => ⟨v.name, .var, v.value⟩) ++ xs) e'
    ↔ (∃ abort, addVariables vs e = (.error abort, e'))
      ∨ ∃ e₁, addVariables vs e = (.ok (), e₁) ∧ Refuses e₁ xs e'
  := by
  induction vs generalizing e with
  | nil =>
    rw [List.map_nil, List.nil_append, addVariables]
    constructor
    · intro h
      exact Or.inr ⟨e, rfl, h⟩
    · rintro (⟨abort, habort⟩ | ⟨e₁, hok, h⟩)
      · cases habort
      · cases hok
        apply h
  | cons v vs ih =>
    rw [List.map_cons, List.cons_append, refuses_cons_iff]
    rcases addVariables_cons v vs e with ⟨reason, hrefused, hrun⟩ | ⟨r, hadd, hrun⟩
    · rw [hrun]
      constructor
      · rintro (⟨-, rfl⟩ | ⟨r, hadd, -⟩)
        · exact Or.inl ⟨_, rfl⟩
        · rw [Registration.add, hrefused] at hadd
          cases hadd
      · rintro (⟨abort, habort⟩ | ⟨e₁, hok, -⟩)
        · cases habort
          exact Or.inl ⟨⟨reason, hrefused⟩, rfl⟩
        · cases hok
    · rw [hrun, ← ih]
      constructor
      · rintro (⟨⟨reason, hrefused⟩, -⟩ | ⟨r', hadd', h⟩)
        · rw [Registration.add, hrefused] at hadd
          cases hadd
        · rw [hadd] at hadd'
          cases hadd'
          apply h
      · intro h
        exact Or.inr ⟨r, hadd, h⟩

/-- A name is refused while positions are registered. -/
theorem refuses_positions_iff (names : List String) :
  Refuses e (names.map fun name => ⟨name, .position, none⟩) e'
    ↔ ∃ abort, addPositions names e = (.error abort, e')
  := by
  induction names generalizing e with
  | nil =>
    constructor
    · intro h
      cases h
    · rintro ⟨abort, habort⟩
      cases habort
  | cons name names ih =>
    rw [List.map_cons, refuses_cons_iff, addPositions, Registration.add]
    rcases e.enterName_cases name .position with ⟨reason, hadd, hentered⟩ | ⟨added, hadd, hentered⟩
    · rw [hadd, hentered]
      constructor
      · rintro (⟨-, rfl⟩ | ⟨r, hadd', -⟩)
        · exact ⟨_, rfl⟩
        · cases hadd'
      · rintro ⟨abort, habort⟩
        cases habort
        exact Or.inl ⟨⟨reason, rfl⟩, rfl⟩
    · rw [hadd, hentered]
      dsimp only
      rw [← ih]
      constructor
      · rintro (⟨⟨reason, hrefused⟩, -⟩ | ⟨r, hadd', h⟩)
        · cases hrefused
        · cases hadd'
          apply h
      · intro h
        exact Or.inr ⟨added, rfl, h⟩

end

/-! ### Steps -/

/-- The handle that an aim names. -/
def Aim.handle? : Aim → Option String
  | .into handle => some handle
  | .before handle => some handle
  | .slot handle _ => some handle
  | _ => none

namespace Step

/-- Where a step drags to. -/
def aim? : Step → Option Aim
  | place _ into _ => some into
  | move _ into => some into
  | _ => none

/-- The handle of the placed block that a step is about. -/
def block? : Step → Option String
  | move block _ => some block
  | delete block => some block
  | literal block _ _ => some block
  | operator block _ => some block
  | _ => none

/-- The handles that a step names, other than the one that it gives. -/
def named (step : Step) : List String :=
  step.block?.toList ++ (step.aim?.bind Aim.handle?).toList

/-- The step is a drag. -/
def isDrag : Step → Bool
  | place _ _ _ => true
  | move _ _ => true
  | delete _ => true
  | _ => false

/-- The step cannot be carried out: a handle that it names is bound by no step before, or it aims in
front of a block that is not placed or is in a slot. -/
inductive IsStuck (step : Step) (p : Moment) : Prop where
  | unbound {handle : String} (hnamed : handle ∈ step.named)
      (hfree : ∀ d ∈ p.past, ∀ id, ¬ d.Binds handle id) : IsStuck step p
  | gone {handle id : String} (haim : step.aim? = some (.before handle)) (hnames : p.Names handle id)
      (hgone : id ∉ Forest.ids p.editor.tree) : IsStuck step p
  | held {handle : String} {holder b : Block} {slot : Nat}
      (haim : step.aim? = some (.before handle)) (hnames : p.Names handle b.id)
      (hholder : holder ∈ Forest.walk p.editor.tree)
      (hslot : holder.slots[slot]? = some (.block b)) : IsStuck step p

end Step

section

variable {e : Editor} {handles : Handles}

theorem resolve_eq_error_iff {handle : String} :
  (∃ fault, resolve handles handle = .error fault) ↔ handles.get? handle = none
  := by
  rw [resolve]
  cases handles.get? handle <;> simp

theorem resolve_eq_ok_iff {handle id : String} :
  resolve handles handle = .ok id ↔ handles.get? handle = some id
  := by
  rw [resolve]
  cases handles.get? handle <;> simp

/-- A computation fails if its first part does, or the rest with the result of the first part. -/
theorem bind_eq_error_iff {ε α β : Type} {x : Except ε α} {f : α → Except ε β} :
  (∃ reason, x >>= f = .error reason)
    ↔ (∃ reason, x = .error reason) ∨ ∃ a, x = .ok a ∧ ∃ reason, f a = .error reason
  := by
  cases x with
  | error reason =>
    constructor
    · intro _
      exact Or.inl ⟨reason, rfl⟩
    · intro _
      exact ⟨reason, rfl⟩
  | ok a =>
    constructor
    · intro h
      exact Or.inr ⟨a, rfl, h⟩
    · rintro (⟨reason, h⟩ | ⟨_, ⟨⟩, h⟩)
      · cases h
      · apply h

/-- In a workspace with different ids, there is no aiming in front of a block that is not placed or is
in a slot, and of no other one. -/
theorem aimBefore_eq_error_iff (hids : (Forest.ids e.tree).Nodup) {handle id : String} :
  (∃ fault, aimBefore e handle id = .error fault)
    ↔ id ∉ Forest.ids e.tree
      ∨ ∃ holder ∈ Forest.walk e.tree, ∃ (slot : Nat) (b : Block),
        holder.slots[slot]? = some (.block b) ∧ b.id = id
  := by
  rw [aimBefore]
  by_cases hmem : id ∈ Forest.ids e.tree
  · obtain ⟨b, hb, rfl⟩ := List.mem_map.mp hmem
    obtain ⟨location, hlocate, hsits⟩ := Forest.exists_locate?_eq_some hids hb
    rw [hlocate]
    constructor
    · rintro ⟨fault, hfault⟩
      cases hsits with
      | top _ => cases hfault
      | child _ _ => cases hfault
      | slot hfind hslot =>
        exact Or.inr ⟨_, Forest.mem_walk_of_find? hfind, _, b, hslot, rfl⟩
    · rintro (hgone | ⟨holder, hholder, slot, c, hslot, hid⟩)
      · contradiction
      · have hheld := Forest.locate?_of_slot hids hholder hslot
        rw [hid, hlocate] at hheld
        cases hheld
        exact ⟨_, rfl⟩
  · rw [Forest.locate?_eq_none hmem]
    constructor
    · intro _
      apply Or.inl hmem
    · intro _
      exact ⟨_, rfl⟩

/-- An aim cannot be found if its handle names nothing, or if it is in front of a block and cannot be
found for that. -/
theorem aimTarget_eq_error_iff {aim : Aim} :
  (∃ fault, aimTarget e handles aim = .error fault)
    ↔ (∃ handle, aim.handle? = some handle ∧ handles.get? handle = none)
      ∨ ∃ handle id, aim = .before handle ∧ handles.get? handle = some id
        ∧ ∃ fault, aimBefore e handle id = .error fault
  := by
  cases aim with
  | workspace => simp [aimTarget, Aim.handle?]
  | trash => simp [aimTarget, Aim.handle?]
  | outside => simp [aimTarget, Aim.handle?]
  | into handle =>
    rw [aimTarget, bind_eq_error_iff, resolve_eq_error_iff]
    simp [Aim.handle?, pure, Except.pure]
  | slot handle index =>
    rw [aimTarget, bind_eq_error_iff, resolve_eq_error_iff]
    simp [Aim.handle?, pure, Except.pure]
  | before handle =>
    rw [aimTarget, bind_eq_error_iff, resolve_eq_error_iff]
    simp [Aim.handle?, resolve_eq_ok_iff]

/-- A step that goes on with what is looked up ends there if that is not found, or else as it goes on. -/
theorem lookedUp_eq_error_iff {α : Type} {found : Except StepFault α}
    {rest : α → Except StepFault Done × Editor} :
  (∃ fault, (lookedUp e found rest).1 = .error fault)
    ↔ (∃ fault, found = .error fault) ∨ ∃ a, found = .ok a ∧ ∃ fault, (rest a).1 = .error fault
  := by
  cases found <;> simp [lookedUp]

/-- A step cannot be carried out if the handle of its block names nothing, or if its aim cannot be
found. -/
theorem perform_eq_error_iff {step : Step} :
  (∃ fault, (perform e handles step).1 = .error fault)
    ↔ (∃ handle, step.block? = some handle ∧ handles.get? handle = none)
      ∨ ∃ aim, step.aim? = some aim ∧ ∃ fault, aimTarget e handles aim = .error fault
  := by
  cases step with
  | clear => simp [perform, carriedOut, Step.block?, Step.aim?]
  | removeName name => simp [perform, carriedOut, Step.block?, Step.aim?]
  | place template into handle =>
    rw [perform, lookedUp_eq_error_iff]
    simp [carriedOut, Step.block?, Step.aim?]
  | delete block =>
    rw [perform, lookedUp_eq_error_iff, resolve_eq_error_iff]
    simp [carriedOut, Step.block?, Step.aim?]
  | literal block slot value =>
    rw [perform, lookedUp_eq_error_iff, resolve_eq_error_iff]
    simp [carriedOut, Step.block?, Step.aim?]
  | operator block operator =>
    rw [perform, lookedUp_eq_error_iff, resolve_eq_error_iff]
    simp [carriedOut, Step.block?, Step.aim?]
  | move block into =>
    rw [perform, lookedUp_eq_error_iff, resolve_eq_error_iff]
    simp only [lookedUp_eq_error_iff, resolve_eq_ok_iff]
    cases hget : handles.get? block <;> simp [carriedOut, Step.block?, Step.aim?, hget]

end

/-- In a valid workspace, the steps that cannot be carried out are those that are stuck. -/
theorem Passes.exists_fault_iff {s : Script} {e : Editor} {p : Moment} (h : s.Passes e p)
    (hids : (Forest.ids p.editor.tree).Nodup) {step : Step} :
  (∃ fault, (perform p.editor p.report.handles step).1 = .error fault) ↔ step.IsStuck p
  := by
  rw [perform_eq_error_iff]
  constructor
  · rintro (⟨handle, hblock, hget⟩ | ⟨aim, haim, hfault⟩)
    · have hnamed : handle ∈ step.named := by simp [Step.named, hblock]
      apply Step.IsStuck.unbound hnamed (h.get?_handles_eq_none_iff.mp hget)
    · rcases aimTarget_eq_error_iff.mp hfault with
        ⟨handle, hhandle, hget⟩ | ⟨handle, id, rfl, hget, hfault⟩
      · have hnamed : handle ∈ step.named := by simp [Step.named, haim, hhandle]
        apply Step.IsStuck.unbound hnamed (h.get?_handles_eq_none_iff.mp hget)
      · have hnames := h.get?_handles_iff.mp hget
        rcases (aimBefore_eq_error_iff hids).mp hfault with
          hgone | ⟨holder, hholder, slot, b, hslot, rfl⟩
        · apply Step.IsStuck.gone haim hnames hgone
        · apply Step.IsStuck.held haim hnames hholder hslot
  · rintro (⟨hnamed, hfree⟩ | ⟨haim, hnames, hgone⟩ | ⟨haim, hnames, hholder, hslot⟩)
    · have hget := h.get?_handles_eq_none_iff.mpr hfree
      rcases List.mem_append.mp hnamed with hblock | haim
      · exact Or.inl ⟨_, Option.mem_toList.mp hblock, hget⟩
      · obtain ⟨aim, haim, hhandle⟩ := Option.bind_eq_some_iff.mp (Option.mem_toList.mp haim)
        exact Or.inr ⟨aim, haim, aimTarget_eq_error_iff.mpr (Or.inl ⟨_, hhandle, hget⟩)⟩
    · right
      refine ⟨_, haim, aimTarget_eq_error_iff.mpr (Or.inr ?_)⟩
      refine ⟨_, _, rfl, h.get?_handles_iff.mpr hnames, ?_⟩
      apply (aimBefore_eq_error_iff hids).mpr (Or.inl hgone)
    · right
      refine ⟨_, haim, aimTarget_eq_error_iff.mpr (Or.inr ?_)⟩
      refine ⟨_, _, rfl, h.get?_handles_iff.mpr hnames, ?_⟩
      apply (aimBefore_eq_error_iff hids).mpr (Or.inr ⟨_, hholder, _, _, hslot, rfl⟩)

/-- The replay stops, with the editor as the names and steps before have left it: a name is refused, or
the next step cannot be carried out. -/
inductive Stops (s : Script) (e : Editor) : Editor → Prop where
  | name {e' : Editor} (hrefuses : Refuses e s.registrations e') : Stops s e e'
  | step {p : Moment} {step : Step} (hpasses : s.Passes e p)
      (hstep : s.steps[p.past.length]? = some step) (hstuck : step.IsStuck p) : Stops s e p.editor

/-! ### Reports -/

namespace Deed

/-- What the drop of an accepted drag did. -/
def outcome? (d : Deed) : Option Outcome :=
  match d.done with
  | .ok outcome => outcome
  | .error _ => none

/-- Why the step was refused. -/
def refusal? (d : Deed) : Option StepError :=
  match d.done with
  | .ok _ => none
  | .error reason => some reason

end Deed

theorem dragDone_cases (e : Editor) (source : Source) (target : Target) :
  (∃ reason, (dragDone e source target).1 = .error reason)
    ∨ ∃ outcome, (dragDone e source target).1 = .ok (some outcome)
  := by
  rw [dragDone]
  generalize drag e source target = dragged
  obtain ⟨result, e'⟩ := dragged
  cases result with
  | ok outcome => exact Or.inr ⟨outcome, rfl⟩
  | error reason => exact Or.inl ⟨_, rfl⟩

theorem editDone_cases (edit : Except EditError Unit × Editor) :
  (∃ reason, (editDone edit).1 = .error reason) ∨ (editDone edit).1 = .ok none
  := by
  obtain ⟨result, e⟩ := edit
  cases result with
  | ok _ => apply Or.inr rfl
  | error reason => exact Or.inl ⟨_, rfl⟩

theorem Drags.isDrag {e : Editor} {handles : Handles} {step : Step} {source : Source}
    {target : Target} (h : Drags e handles step source target) :
  step.isDrag = true
  := by
  cases h <;> rfl

/-- A step that is carried out is refused, or does something if it is a drag. -/
theorem Performs.done_cases {e : Editor} {handles : Handles} {step : Step} {result : Done × Editor}
    (h : Performs e handles step result) :
  (∃ reason, result.1 = .error reason)
    ∨ (step.isDrag = true ∧ ∃ outcome, result.1 = .ok (some outcome))
    ∨ (step.isDrag = false ∧ result.1 = .ok none)
  := by
  cases h with
  | drag hdrags => exact (dragDone_cases _ _ _).imp_right fun h => Or.inl ⟨hdrags.isDrag, h⟩
  | literal _ slot value => exact (editDone_cases _).imp_right fun h => Or.inr ⟨rfl, h⟩
  | operator _ operator => exact (editDone_cases _).imp_right fun h => Or.inr ⟨rfl, h⟩
  | clear => exact Or.inr (Or.inr ⟨rfl, rfl⟩)
  | removeName name => exact Or.inr (Or.inr ⟨rfl, rfl⟩)

/-- The report tells of the steps: the outcomes of the accepted drags in their order, and the refused
steps by their indices in ascending order.  Of every drag it tells the outcome or the refusal, and not
both; other steps have no outcome. -/
structure Tells (r : Report) (past : List Deed) : Prop where
  outcomes : r.outcomes = past.filterMap Deed.outcome?
  rejected : r.rejected
    = past.zipIdx.filterMap fun d => d.1.refusal?.map fun reason => (d.2, reason)
  ascending : (r.rejected.map Prod.fst).Pairwise (· < ·)
  drag : ∀ index d, past[index]? = some d → d.step.isDrag = true →
    (d.outcome?.isSome ↔ index ∉ r.rejected.map Prod.fst)
  other : ∀ d ∈ past, d.step.isDrag = false → d.outcome? = none

/-- The indices under which something is found are those of the elements for which it is. -/
theorem map_fst_filterMap {α β : Type} (f : α → Option β) (xs : List (α × Nat)) :
  (xs.filterMap fun x => (f x.1).map fun y => (x.2, y)).map Prod.fst
    = (xs.filter fun x => (f x.1).isSome).map Prod.snd
  := by
  induction xs with
  | nil => rfl
  | cons x xs ih =>
    rw [List.filterMap_cons, List.filter_cons]
    cases f x.1 with
    | none => apply ih
    | some y =>
      rw [Option.map_some, Option.isSome_some, if_pos rfl, List.map_cons, List.map_cons, ih]

section

variable {s : Script} {e : Editor} {p : Moment}

theorem Passes.outcomes_eq (h : s.Passes e p) :
  p.report.outcomes = p.past.filterMap Deed.outcome?
  := by
  apply h.induct (P := fun p => p.report.outcomes = p.past.filterMap Deed.outcome?)
  · intro e' _
    rfl
  · rintro q _ - @⟨d, e', hstep, hperform⟩ ih
    rw [Moment.after, List.filterMap_append, ← ih]
    obtain ⟨step, done⟩ := d
    cases done with
    | error reason => simp [note, Report.addRejected, Deed.outcome?]
    | ok outcome =>
      cases outcome with
      | none => simp [note, Deed.outcome?]
      | some outcome =>
        rw [note]
        split <;> simp [Report.addOutcome, Report.bind, Deed.outcome?]

theorem Passes.rejected_eq (h : s.Passes e p) :
  p.report.rejected
    = p.past.zipIdx.filterMap fun d => d.1.refusal?.map fun reason => (d.2, reason)
  := by
  apply h.induct (P := fun p => p.report.rejected
    = p.past.zipIdx.filterMap fun d => d.1.refusal?.map fun reason => (d.2, reason))
  · intro e' _
    rfl
  · rintro q _ - @⟨d, e', hstep, hperform⟩ ih
    rw [Moment.after, List.zipIdx_append, List.filterMap_append, ← ih]
    obtain ⟨step, done⟩ := d
    cases done with
    | error reason => simp [note, Report.addRejected, Deed.refusal?]
    | ok outcome =>
      rw [rejected_note]
      simp [Deed.refusal?]

theorem Passes.done_cases (h : s.Passes e p) :
  ∀ d ∈ p.past, (∃ reason, d.done = .error reason)
    ∨ (d.step.isDrag = true ∧ ∃ outcome, d.done = .ok (some outcome))
    ∨ (d.step.isDrag = false ∧ d.done = .ok none)
  := by
  apply h.induct (P := fun p => ∀ d ∈ p.past, (∃ reason, d.done = .error reason)
    ∨ (d.step.isDrag = true ∧ ∃ outcome, d.done = .ok (some outcome))
    ∨ (d.step.isDrag = false ∧ d.done = .ok none))
  · intro e' _ d hd
    cases hd
  · rintro q _ - @⟨d, e', hstep, hperform⟩ ih
    rw [Moment.after, List.forall_mem_append]
    use ih
    intro d' hd'
    rw [List.mem_singleton.mp hd']
    apply (performs_of_perform hperform).done_cases

/-- At every moment of a replay, the report tells of the steps that were carried out. -/
theorem Passes.tells (h : s.Passes e p) :
  Tells p.report p.past
  := by
  have hindices : p.report.rejected.map Prod.fst
      = (p.past.zipIdx.filter fun d => d.1.refusal?.isSome).map Prod.snd := by
    rw [h.rejected_eq, map_fst_filterMap]
  have hmem : ∀ index d, p.past[index]? = some d →
      (index ∈ p.report.rejected.map Prod.fst ↔ d.refusal?.isSome) := by
    intro index d hd
    rw [hindices]
    simp [List.mem_zipIdx_iff_getElem?, hd]
  constructor
  · apply h.outcomes_eq
  · apply h.rejected_eq
  · rw [hindices]
    have hall : (p.past.zipIdx.map Prod.snd).Pairwise (· < ·) := by
      rw [List.zipIdx_map_snd]
      apply List.pairwise_lt_range' 1 Nat.one_pos
    apply hall.sublist (List.filter_sublist.map Prod.snd)
  · intro index d hd hdrag
    rw [hmem index d hd, Deed.outcome?, Deed.refusal?]
    rcases h.done_cases d (List.mem_of_getElem? hd) with
      ⟨reason, hdone⟩ | ⟨-, outcome, hdone⟩ | ⟨hother, -⟩
    · simp [hdone]
    · simp [hdone]
    · rw [hdrag] at hother
      contradiction
  · intro d hd hother
    rw [Deed.outcome?]
    rcases h.done_cases d hd with ⟨reason, hdone⟩ | ⟨hdrag, -⟩ | ⟨-, hdone⟩
    · rw [hdone]
    · rw [hother] at hdrag
      contradiction
    · rw [hdone]

end

/-! ### Replays -/

section

variable {s : Script} {e e' : Editor}

/-- A refused name leaves the canvas. -/
theorem Refuses.canvas_eq {xs : List Registration} (h : Refuses e xs e') :
  e'.canvas = e.canvas
  := by
  induction h with
  | here _ => rfl
  | later _ _ ih => apply ih

/-- Either a name is refused, or the replay comes to the first step. -/
theorem refuses_or_registers (s : Script) (e : Editor) :
  (∃ abort e', s.run e = (.error abort, e') ∧ Refuses e s.registrations e')
    ∨ ∃ e₁ e₂, addVariables s.newVariables e = (.ok (), e₁)
      ∧ addPositions s.newPositions e₁ = (.ok (), e₂)
  := by
  rw [run]
  cases hvariables : addVariables s.newVariables e with
  | mk result e₁ =>
    cases result with
    | error abort =>
      exact Or.inl ⟨abort, e₁, rfl, (refuses_variables_iff _ _).mpr (Or.inl ⟨abort, hvariables⟩)⟩
    | ok _ =>
      dsimp only
      cases hpositions : addPositions s.newPositions e₁ with
      | mk result e₂ =>
        cases result with
        | error abort =>
          have hrefuses := (refuses_positions_iff _).mpr ⟨abort, hpositions⟩
          exact Or.inl ⟨abort, e₂, rfl,
            (refuses_variables_iff _ _).mpr (Or.inr ⟨e₁, hvariables, hrefuses⟩)⟩
        | ok _ => exact Or.inr ⟨e₁, e₂, rfl, hpositions⟩

theorem Refuses.run_eq_error (h : Refuses e s.registrations e') :
  ∃ abort, s.run e = (.error abort, e')
  := by
  rw [run]
  rcases (refuses_variables_iff _ _).mp h with ⟨abort, hvariables⟩ | ⟨e₁, hvariables, hrefuses⟩
  · rw [hvariables]
    exact ⟨abort, rfl⟩
  · obtain ⟨abort, hpositions⟩ := (refuses_positions_iff _).mp hrefuses
    rw [hvariables]
    dsimp only
    rw [hpositions]
    exact ⟨abort, rfl⟩

/-- A replay aborts exactly if a name is refused or a step is stuck, and the editor is then as the names
and steps before have left it, with no gesture in progress.  Otherwise it carries out all steps, and its
report tells of them. -/
theorem run_aborts_iff {catalog : Catalog} {registry : Registry} {clock : Clock}
    (h : Editor.Reaches (.new catalog registry clock) e) (hgesture : e.canvas.gesture = none)
    (hroom : s.HasRoom e) :
  (∀ e', (∃ abort, s.run e = (.error abort, e')) ↔ s.Stops e e')
    ∧ (∀ e', s.Stops e e' → e'.canvas.gesture = none)
    ∧ ∀ report e', s.run e = (.ok report, e') → ∃ past, s.Passes e ⟨past, report, e'⟩
      ∧ past.map Deed.step = s.steps ∧ Tells report past
  := by
  have ht : Forest.Valid e.tree := h.valid Forest.valid_nil
  refine ⟨fun e' => ⟨?_, ?_⟩, ?_, ?_⟩
  · rintro ⟨abort, hrun⟩
    rcases refuses_or_registers s e with ⟨_, e'', hrun', hrefuses⟩ | ⟨e₁, e₂, hvariables, hpositions⟩
    · rw [hrun] at hrun'
      cases hrun'
      apply Stops.name hrefuses
    · obtain ⟨p, hpasses, hends⟩ := exists_passes_ends hvariables hpositions
      rw [hrun] at hends
      cases hends with
      | stuck hstep hperform =>
        have hfault := congrArg Prod.fst hperform
        cases hperform.symm.trans (perform_eq_of_fault hfault)
        apply Stops.step hpasses hstep
        apply (hpasses.exists_fault_iff (hpasses.valid hroom ht).nodup).mp ⟨_, hfault⟩
  · rintro (⟨hrefuses⟩ | ⟨hpasses, hstep, hstuck⟩)
    · apply hrefuses.run_eq_error
    · obtain ⟨fault, hfault⟩ :=
        (hpasses.exists_fault_iff (hpasses.valid hroom ht).nodup).mpr hstuck
      exact ⟨_, hpasses.run_eq_of_ends (.stuck hstep (perform_eq_of_fault hfault))⟩
  · rintro e' (⟨hrefuses⟩ | ⟨hpasses, -, -⟩)
    · rw [hrefuses.canvas_eq, hgesture]
    · apply hpasses.gesture hgesture
  · intro report e' hrun
    rcases refuses_or_registers s e with ⟨_, _, hrun', -⟩ | ⟨e₁, e₂, hvariables, hpositions⟩
    · rw [hrun] at hrun'
      cases hrun'
    · obtain ⟨p, hpasses, hends⟩ := exists_passes_ends hvariables hpositions
      rw [hrun] at hends
      obtain ⟨past, report', e''⟩ := p
      cases hends with
      | done hlength =>
        refine ⟨past, hpasses, ?_, hpasses.tells⟩
        rw [hpasses.map_step, List.take_of_length_le hlength]

end

/-- The third step aims in front of a block that the second one has thrown away. -/
def interrupted : Script :=
  ⟨[⟨"speed", some "3"⟩], [], [
    .place "block-reset" .workspace (some "reset"),
    .delete "reset",
    .place "block-measure" (.before "reset") none,
    .clear]⟩

theorem run_aborts_iff_interrupted :
  ∃ e', interrupted.run (.standard (.ticking 1000 1))
      = (.error (.stepFailed 2 (.notPlaced "reset")), e')
    ∧ e'.registry.lookup? "speed"
      = some ⟨"speed", some "3", "block-get-speed-pos", .var, false⟩
    ∧ e'.canvas.lastStamp = some 1000 ∧ e'.canvas.gesture = none
    ∧ interrupted.Stops (.standard (.ticking 1000 1)) e'
  := by
  have hroom : interrupted.HasRoom (.standard (.ticking 1000 1)) :=
    hasRoom_of_size_le Forest.valid_nil (by decide)
  have hresult : (interrupted.run (.standard (.ticking 1000 1))).1
      = .error (.stepFailed 2 (.notPlaced "reset")) := by
    decide +kernel
  have hrun : interrupted.run (.standard (.ticking 1000 1))
      = (.error (.stepFailed 2 (.notPlaced "reset")),
        (interrupted.run (.standard (.ticking 1000 1))).2) := by
    rw [← hresult]
  obtain ⟨hiff, hgesture, -⟩ := run_aborts_iff Editor.Reaches.refl rfl hroom
  have hstops := (hiff _).mp ⟨_, hrun⟩
  exact ⟨_, hrun, by decide +kernel, by decide +kernel, hgesture _ hstops, hstops⟩

end Script

end BlockEditor
