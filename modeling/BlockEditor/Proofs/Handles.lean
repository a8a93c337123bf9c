import BlockEditor.Proofs.Issuing
import BlockEditor.Proofs.Moments

/-!
# What handles denote

An id is spent once a stamp as late as its own was given out.  As long as no stamp gets as far as the
greatest word, a step gives a new block an id that is not spent, and no step brings a block under a spent
id that was not there before.  So a handle denotes one block for ever: the one that the step made from
which the handle has its id, wherever it is moved, and no block once it is gone.
-/

namespace BlockEditor

/-! ### Spent ids -/

namespace Canvas

/-- The stamp of the id is no later than the last one that was given out. -/
def Spent (c : Canvas) (id : String) : Prop :=
  ∃ templateId stamp last, id = InstanceId.make templateId stamp ∧ c.lastStamp = some last
    ∧ stamp.toNat ≤ last.toNat

/-- The last stamp that was given out is before the greatest word. -/
def IsTimely (c : Canvas) : Prop :=
  ∀ last, c.lastStamp = some last → last.toNat < 2 ^ 64 - 1

section

variable {c : Canvas} {palette : Palette} {layout : Layout} {target : Target}

/-- The id of a new block is not spent. -/
theorem IsTimely.not_spent (h : c.IsTimely) {templateId : String} (htime : c.HasTime templateId) :
  ¬ c.Spent (InstanceId.make templateId (c.nextStamp templateId))
  := by
  rintro ⟨templateId', stamp, last, hid, hlast, hle⟩
  obtain ⟨-, rfl⟩ := InstanceId.make_inj hid
  have hlt := htime.lt_nextStamp hlast (h last hlast)
  omega

theorem makes?_of_plan {source : Source} {plan : Plan} (hgesture : c.gesture = some source)
    (hplan : Plan.ofGesture c.tree palette layout source target = .ok plan) :
  c.makes? (.drop palette layout target) = plan.carried?.bind Carried.template?
  := by
  simp only [makes?, hgesture, hplan]

/-- After a drop, a face is one of before or that of the block that the drop makes. -/
theorem mem_bares_drop (ht : Forest.Valid c.tree) {f : Face}
    (hf : f ∈ Forest.bares (c.drop palette layout target).2.tree) :
  f ∈ Forest.bares c.tree ∨ ∃ template, c.makes? (.drop palette layout target) = some template
    ∧ f.id = InstanceId.make template.id (c.nextStamp template.id)
  := by
  rcases Canvas.drop_cases ht palette layout target with
    ⟨_, -, -, htree⟩ | ⟨source, plan, outcome, hgesture, hplan, -, -, hdrops⟩
  · rw [htree] at hf
    apply Or.inl hf
  · rcases hdrops.mem_bares hf with hold | ⟨carried, hcarried, hcarry, hbrought⟩
    · apply Or.inl hold
    · cases carried with
      | existing b =>
        have hfind : Forest.find? b.id c.tree = some b := Plan.isPlaced_of_carry hcarry
        apply Or.inl (Block.bares_subset_of_mem_walk (Forest.mem_walk_of_find? hfind) hbrought)
      | fresh template =>
        right
        refine ⟨template, ?_, ?_⟩
        · rw [makes?_of_plan hgesture hplan, hcarried]
          rfl
        · rw [Canvas.brought, Block.bares, Template.walk_instantiate, List.map_singleton,
            List.mem_singleton] at hbrought
          rw [hbrought]
          rfl

theorem lastStamp_drop (c : Canvas) (palette : Palette) (layout : Layout) (target : Target) :
  (c.drop palette layout target).2.lastStamp
    = ((c.makes? (.drop palette layout target)).map fun t => c.nextStamp t.id).or c.lastStamp
  := c.lastStamp_after (.drop palette layout target)

theorem IsTimely.drop (h : c.IsTimely)
    (htime : ∀ template, c.makes? (.drop palette layout target) = some template →
      c.HasTime template.id) :
  (c.drop palette layout target).2.IsTimely
  := by
  rw [IsTimely, lastStamp_drop]
  cases hmakes : c.makes? (.drop palette layout target) with
  | none => apply h
  | some template =>
    rintro _ ⟨⟩
    apply (htime template hmakes).finds.2.2

theorem reading_drop (c : Canvas) (palette : Palette) (layout : Layout) (target : Target) :
  (c.drop palette layout target).2.clock.reading = c.clock.reading
  := by
  rw [read_drop (fun c => c.clock.reading) fun _ _ => rfl]
  cases c.makes? (.drop palette layout target) <;> rfl

/-- A drop gives out no stamp that is later than there are blocks. -/
theorem IsEarly.drop {bound : Nat} (h : c.IsEarly bound)
    (hsize : bound + 1 + Forest.size c.tree < 2 ^ 64 - 1) :
  (c.drop palette layout target).2.IsEarly (bound + 1 + Forest.size c.tree)
  := by
  constructor
  · intro i
    have hclock := h.clock i
    rw [reading_drop]
    omega
  · intro last hlast
    rw [lastStamp_drop] at hlast
    cases hmakes : c.makes? (.drop palette layout target) with
    | none =>
      rw [hmakes] at hlast
      have hle := h.last last hlast
      omega
    | some template =>
      rw [hmakes] at hlast
      obtain rfl : c.nextStamp template.id = last := Option.some.inj hlast
      have hfirst := h.firstStamp_le
      have hnext := (h.hasTime hsize template.id).nextStamp_le
      omega

/-- A drop leaves an id spent, and brings no block under it that was not there. -/
theorem Spent.drop (ht : Forest.Valid c.tree) (htimely : c.IsTimely)
    (htime : ∀ template, c.makes? (.drop palette layout target) = some template →
      c.HasTime template.id) {id : String} (h : c.Spent id) :
  (c.drop palette layout target).2.Spent id
    ∧ ∀ f ∈ Forest.bares (c.drop palette layout target).2.tree, f.id = id → f ∈ Forest.bares c.tree
  := by
  constructor
  · obtain ⟨templateId, stamp, last, hid, hlast, hle⟩ := h
    cases hmakes : c.makes? (.drop palette layout target) with
    | none =>
      refine ⟨templateId, stamp, last, hid, ?_, hle⟩
      rw [lastStamp_drop, hmakes, hlast]
      rfl
    | some template =>
      have hlt := (htime template hmakes).lt_nextStamp hlast (htimely last hlast)
      refine ⟨templateId, stamp, c.nextStamp template.id, hid, ?_, by omega⟩
      rw [lastStamp_drop, hmakes]
      rfl
  · intro f hf hid
    rcases mem_bares_drop ht hf with hold | ⟨template, hmakes, hnew⟩
    · apply hold
    · rw [← hid, hnew] at h
      apply absurd h (htimely.not_spent (htime template hmakes))

end

end Canvas

/-- What is put down from the palette has a new id and is a block of its template. -/
theorem Forest.Moves.of_palette {t t' : Forest} {palette : Palette} {action : Action}
    {outcome : Outcome} {templateId id : String}
    (h : t.Moves palette (.palette templateId) action outcome t') (hid : outcome.placedId? = some id) :
  id ∉ Forest.ids t ∧ ∃ b template, palette templateId = some template
    ∧ Forest.find? id t' = some b ∧ b.templateId = template.id
  := by
  cases h with
  | insert hbrings hfind _ _ _ _ =>
    cases hid
    cases hbrings with
    | made htemplate hnew => exact ⟨hnew, _, _, htemplate, hfind, rfl⟩
  | slot hbrings hfind _ _ _ _ _ _ _ =>
    cases hid
    cases hbrings with
    | made htemplate hnew => exact ⟨hnew, _, _, htemplate, hfind, rfl⟩
  | delete _ _ _ => cases hid
  | ignore _ => cases hid

theorem Outcome.placed?_eq_placedId? (o : Outcome) :
  o.placed? = o.placedId?
  := by
  cases o <;> rfl

namespace Script

/-! ### Steps -/

/-- If a step makes a block, the search for its stamp does not get as far as the greatest word. -/
def Step.HasTime (step : Step) (e : Editor) (handles : Handles) : Prop :=
  ∀ source target template, Drags e handles step source target →
    (e.startDrag source).canvas.makes?
      (.drop e.palette (stack (e.startDrag source)).layout target) = some template →
    (e.startDrag source).canvas.HasTime template.id

section

variable {e : Editor} {handles : Handles} {step : Step} {result : Done × Editor}

theorem Step.HasTime.hasRoom (h : step.HasTime e handles) :
  step.HasRoom e handles
  := by
  intro source target hdrags source' plan carried hgesture hplan hcarried
  cases carried with
  | existing b => trivial
  | fresh template =>
    have hmakes := Canvas.makes?_of_plan hgesture hplan
    rw [hcarried] at hmakes
    obtain ⟨⟨-, -, -, -, hfree⟩, -⟩ := (h source target template hdrags hmakes).finds
    exact ⟨_, hfree⟩

theorem exists_canvas_edit (e : Editor) (id : String) (check : Block → Except EditError Unit)
    (change : Block → Block) :
  ∃ t, (e.edit id check change).2.canvas = { e.canvas with tree := t }
  := by
  rw [Editor.edit]
  split <;> exact ⟨_, rfl⟩

/-- A step is a drag, or it changes no more of the canvas than the workspace and brings no block. -/
theorem Performs.drag_or_quiet (h : Performs e handles step result) :
  (∃ source target, Drags e handles step source target ∧ result = dragDone e source target)
    ∨ (∃ t, result.2.canvas = { e.canvas with tree := t })
      ∧ Forest.bares result.2.tree ⊆ Forest.bares e.tree
  := by
  cases h with
  | drag hdrags => exact Or.inl ⟨_, _, hdrags, rfl⟩
  | literal _ slot value =>
    rw [editDone_snd]
    exact Or.inr ⟨exists_canvas_edit _ _ _ _, e.bares_typeLiteral_subset _ _ _⟩
  | operator _ operator =>
    rw [editDone_snd]
    exact Or.inr ⟨exists_canvas_edit _ _ _ _, e.bares_selectOperator_subset _ _⟩
  | clear => exact Or.inr ⟨⟨[], rfl⟩, List.nil_subset _⟩
  | removeName name =>
    right
    constructor
    · rw [Editor.removeName]
      split <;> exact ⟨_, rfl⟩
    · rcases e.removeName_cases name with ⟨-, -, htree⟩ | ⟨-, -, htree⟩
      · rw [htree]
        apply List.Subset.refl
      · rw [htree]
        apply Forest.bares_prune_subset

theorem Performs.isTimely (h : Performs e handles step result) (htimely : e.canvas.IsTimely)
    (htime : step.HasTime e handles) :
  result.2.canvas.IsTimely
  := by
  rcases h.drag_or_quiet with ⟨source, target, hdrags, rfl⟩ | ⟨⟨t, hcanvas⟩, -⟩
  · rw [dragDone_snd]
    apply Canvas.IsTimely.drop (c := (e.startDrag source).canvas) htimely
    intro template
    apply htime source target template hdrags
  · rw [hcanvas]
    apply htimely

/-- A step leaves an id spent, and brings no block under it that was not there. -/
theorem Performs.spent (h : Performs e handles step result) (ht : Forest.Valid e.tree)
    (htimely : e.canvas.IsTimely) (htime : step.HasTime e handles) {id : String}
    (hspent : e.canvas.Spent id) :
  result.2.canvas.Spent id
    ∧ ∀ f ∈ Forest.bares result.2.tree, f.id = id → f ∈ Forest.bares e.tree
  := by
  rcases h.drag_or_quiet with ⟨source, target, hdrags, rfl⟩ | ⟨⟨t, hcanvas⟩, hbares⟩
  · rw [dragDone_snd]
    apply Canvas.Spent.drop (c := (e.startDrag source).canvas) ht htimely _ hspent
    intro template
    apply htime source target template hdrags
  · constructor
    · rw [hcanvas]
      apply hspent
    · intro f hf _
      apply hbares hf

theorem Step.hasTime_of_isEarly {bound : Nat} (hearly : e.canvas.IsEarly bound)
    (hsize : bound + 1 + Forest.size e.tree < 2 ^ 64 - 1) :
  step.HasTime e handles
  := by
  intro source target template _ _
  apply Canvas.IsEarly.hasTime (c := (e.startDrag source).canvas) ⟨hearly.clock, hearly.last⟩ hsize

theorem Performs.isEarly (h : Performs e handles step result) {bound : Nat}
    (hearly : e.canvas.IsEarly bound) (hsize : bound + 1 + Forest.size e.tree < 2 ^ 64 - 1) :
  result.2.canvas.IsEarly (bound + 1 + Forest.size e.tree)
  := by
  rcases h.drag_or_quiet with ⟨source, target, hdrags, rfl⟩ | ⟨⟨t, hcanvas⟩, -⟩
  · rw [dragDone_snd]
    apply Canvas.IsEarly.drop (c := (e.startDrag source).canvas) ⟨hearly.clock, hearly.last⟩ hsize
  · rw [hcanvas]
    constructor
    · intro i
      apply Nat.le_trans (hearly.clock i)
      omega
    · intro last hlast
      apply Nat.le_trans (hearly.last last hlast)
      omega

theorem drag_of_dragDone {source : Source} {target : Target} {outcome : Outcome}
    (h : (dragDone e source target).1 = .ok (some outcome)) :
  (drag e source target).1 = .ok outcome
  := by
  rw [dragDone] at h
  generalize drag e source target = dragged at h ⊢
  obtain ⟨result, e'⟩ := dragged
  cases result with
  | ok outcome' =>
    cases h
    rfl
  | error reason => cases h

/-- The id of a block that a step places was not spent before and is spent then, and the block is one of
the template that the step names. -/
theorem Performs.places {template : String} {into : Aim} {handle : Option String}
    (h : Performs e handles (.place template into handle) result) (ht : Forest.Valid e.tree)
    (htimely : e.canvas.IsTimely) (htime : Step.HasTime (.place template into handle) e handles)
    {outcome : Outcome} (hdone : result.1 = .ok (some outcome)) {id : String}
    (hid : outcome.placedId? = some id) :
  (¬ e.canvas.Spent id ∧ result.2.canvas.Spent id)
    ∧ id ∉ Forest.ids e.tree ∧ ∃ b, Forest.find? id result.2.tree = some b ∧ b.templateId = template
  := by
  cases h with
  | @drag _ source target hdrags =>
    have hroom := htime.hasRoom source target hdrags
    have hmaking := htime source target
    rw [dragDone_snd]
    have hdrop := drag_of_dragDone hdone
    cases hdrags with
    | place haim =>
      let c := (e.startDrag (.palette template)).canvas
      let layout := (stack (e.startDrag (.palette template))).layout
      constructor
      · rcases Canvas.placed?_drop (c := c) rfl hdrop with rfl | ⟨t, hmakes, hplaced⟩
        · cases hid
        rw [Outcome.placed?_eq_placedId?, hid, Option.some.injEq] at hplaced
        rw [hplaced]
        have htime' := hmaking t (.place haim) hmakes
        constructor
        · apply Canvas.IsTimely.not_spent (c := c) htimely htime'
        · refine ⟨t.id, c.nextStamp t.id, c.nextStamp t.id, rfl, ?_, Nat.le_refl _⟩
          have hlast := c.lastStamp_drop (e.startDrag (.palette template)).palette layout target
          rw [hmakes] at hlast
          apply hlast
      · rcases Canvas.drop_cases (c := c) ht e.palette layout target with
          ⟨_, -, hresult, -⟩ | ⟨source, plan, outcome', hgesture, hplan, -, hresult, hdrops⟩
        · cases hresult.symm.trans hdrop
        · cases hresult.symm.trans hdrop
          cases hgesture
          have hmoves := Canvas.Drops.moves (c := c.cancel) ht hdrops fun carried hcarried =>
            hroom _ plan carried rfl hplan hcarried
          obtain ⟨hnew, b, t, htemplate, hfind, hb⟩ := hmoves.of_palette hid
          refine ⟨hnew, b, hfind, ?_⟩
          rw [hb, Palette.id_of_both htemplate]

end

/-! ### Replays -/

/-- The step put a new block of the template into the workspace, under the id. -/
def Deed.Places (d : Deed) (template id : String) : Prop :=
  ∃ into handle outcome, d.step = .place template into handle ∧ d.done = .ok (some outcome)
    ∧ outcome.placedId? = some id

/-- What a step gives its handle to is the block that it places. -/
theorem Deed.Binds.places {d : Deed} {handle id : String} (h : d.Binds handle id) :
  ∃ template, d.Places template id
  := by
  obtain ⟨step, done⟩ := d
  obtain ⟨hhandle, outcome, hdone, hid⟩ := h
  cases step with
  | place template into handle' => exact ⟨template, into, handle', outcome, rfl, hdone, hid⟩
  | _ => cases hhandle

/-- At every moment of a replay, the next step has time. -/
def HasTime (s : Script) (e : Editor) : Prop :=
  ∀ p step, s.Passes e p → s.steps[p.past.length]? = some step →
    step.HasTime p.editor p.report.handles

section

variable {s : Script} {e : Editor} {p q : Moment}

theorem HasTime.hasRoom (h : s.HasTime e) :
  s.HasRoom e
  := by
  apply hasRoom_of_passes
  intro p step hp hstep
  apply (h p step hp hstep).hasRoom

theorem room_le {bound first steps size k room : Nat} (hroom : room = first + steps + 1)
    (hsize : bound + steps * room < 2 ^ 64 - 1) (hlt : k < steps) (hle : size ≤ first + k) :
  bound + k * room + 1 + size ≤ bound + (k + 1) * room
    ∧ bound + k * room + 1 + size < 2 ^ 64 - 1
  := by
  have hmul := Nat.mul_le_mul_right room (Nat.succ_le_of_lt hlt)
  rw [Nat.succ_eq_add_one] at hmul
  rw [Nat.add_one_mul] at hmul ⊢
  omega

section

variable {bound room : Nat} (ht : Forest.Valid e.tree) (hearly : e.canvas.IsEarly bound)
  (hroom : room = Forest.size e.tree + s.steps.length + 1)
  (hsize : bound + s.steps.length * room < 2 ^ 64 - 1)

include ht hearly hroom hsize

/-- Each step gives out a stamp that is later by no more than the blocks that there are. -/
theorem Passes.isEarly (hp : s.Passes e p) :
  Forest.Valid p.editor.tree ∧ Forest.size p.editor.tree ≤ Forest.size e.tree + p.past.length
    ∧ p.editor.canvas.IsEarly (bound + p.past.length * room)
  := by
  apply hp.induct (P := fun p => Forest.Valid p.editor.tree
    ∧ Forest.size p.editor.tree ≤ Forest.size e.tree + p.past.length
    ∧ p.editor.canvas.IsEarly (bound + p.past.length * room))
  · intro e' hcanvas
    rw [Moment.first, Editor.tree, hcanvas, List.length_nil, Nat.zero_mul]
    exact ⟨ht, Nat.le_refl _, hearly⟩
  · rintro q _ - @⟨d, e', hstep, hperform⟩ ⟨hvalid, hle, hearly'⟩
    obtain ⟨hlt, -⟩ := List.getElem?_eq_some_iff.mp hstep
    obtain ⟨hnext, hbound⟩ := room_le hroom hsize hlt hle
    have hperforms := performs_of_perform hperform
    have htime : d.step.HasTime q.editor q.report.handles :=
      Step.hasTime_of_isEarly hearly' hbound
    have hle' := hperforms.size_le hvalid htime.hasRoom
    have hearly'' := hperforms.isEarly hearly' hbound
    rw [q.length_past_after]
    refine ⟨hperforms.valid hvalid htime.hasRoom, ?_, ?_, ?_⟩
    · apply Nat.le_trans hle'
      omega
    · intro i
      apply Nat.le_trans (hearly''.clock i) hnext
    · intro last hlast
      apply Nat.le_trans (hearly''.last last hlast) hnext

/-- A replay has time, unless the readings of the clock and the stamps that were given out come near the
greatest word, or there are that many blocks and steps. -/
theorem hasTime_of_isEarly :
  s.HasTime e
  := by
  intro p step hp hstep
  obtain ⟨hlt, -⟩ := List.getElem?_eq_some_iff.mp hstep
  obtain ⟨-, hle, hearly'⟩ := hp.isEarly ht hearly hroom hsize
  apply Step.hasTime_of_isEarly hearly' (room_le hroom hsize hlt hle).2

end

theorem Passes.isTimely (hp : s.Passes e p) (htimely : e.canvas.IsTimely) (htime : s.HasTime e) :
  p.editor.canvas.IsTimely
  := by
  apply hp.induct (P := fun p => p.editor.canvas.IsTimely)
  · intro e' hcanvas
    rw [Moment.first, hcanvas]
    apply htimely
  · rintro q _ hq ⟨hstep, hperform⟩ ih
    apply (performs_of_perform hperform).isTimely ih (htime q _ hq hstep)

section

variable (ht : Forest.Valid e.tree) (htimely : e.canvas.IsTimely) (htime : s.HasTime e)

include ht htimely htime

/-- One step leaves an id spent, and brings no block under it that was not there. -/
theorem Passes.spent_of_advances (hp : s.Passes e p) (hadvances : Advances s.steps p q) {id : String}
    (hspent : p.editor.canvas.Spent id) :
  q.editor.canvas.Spent id
    ∧ ∀ f ∈ Forest.bares q.editor.tree, f.id = id → f ∈ Forest.bares p.editor.tree
  := by
  obtain ⟨hstep, hperform⟩ := hadvances
  apply (performs_of_perform hperform).spent (hp.valid htime.hasRoom ht)
    (hp.isTimely htimely htime) (htime p _ hp hstep) hspent

/-- An id stays spent, and no step brings a block under it. -/
theorem Passes.spent_of_later (hp : s.Passes e p) (hlater : Later s.steps p q) {id : String}
    (hspent : p.editor.canvas.Spent id) :
  q.editor.canvas.Spent id
    ∧ ∀ f ∈ Forest.bares q.editor.tree, f.id = id → f ∈ Forest.bares p.editor.tree
  := by
  induction hlater with
  | refl => exact ⟨hspent, fun f hf _ => hf⟩
  | tail hlater hadvances ih =>
    obtain ⟨hmiddle, hbefore⟩ := ih
    obtain ⟨hafter, hlast⟩ :=
      (hp.later hlater).spent_of_advances ht htimely htime hadvances hmiddle
    use hafter
    intro f hf hid
    apply hbefore f (hlast f hf hid) hid

/-- A step that places a block gives it an id that was not spent, and the block is there. -/
theorem Passes.places (hp : s.Passes e p) {d : Deed} {e' : Editor}
    (hstep : s.steps[p.past.length]? = some d.step)
    (hperform : perform p.editor p.report.handles d.step = (.ok d.done, e')) {template id : String}
    (hplaces : d.Places template id) :
  (¬ p.editor.canvas.Spent id ∧ e'.canvas.Spent id)
    ∧ id ∉ Forest.ids p.editor.tree
    ∧ ∃ b, Forest.find? id e'.tree = some b ∧ b.templateId = template
  := by
  obtain ⟨into, handle, outcome, hplace, hdone, hid⟩ := hplaces
  have hperforms := performs_of_perform hperform
  have htime' := htime p _ hp hstep
  rw [hplace] at hperforms htime'
  apply hperforms.places (hp.valid htime.hasRoom ht) (hp.isTimely htimely htime) htime' hdone hid

/-- The ids of all blocks that a replay has placed are spent, and no two steps gave the same one. -/
theorem Passes.places_apart (hp : s.Passes e p) :
  (∀ d ∈ p.past, ∀ template id, d.Places template id → p.editor.canvas.Spent id)
    ∧ p.past.Pairwise fun d d' => ∀ template template' id id', d.Places template id →
      d'.Places template' id' → id ≠ id'
  := by
  apply hp.induct (P := fun p =>
    (∀ d ∈ p.past, ∀ template id, d.Places template id → p.editor.canvas.Spent id)
      ∧ p.past.Pairwise fun d d' => ∀ template template' id id', d.Places template id →
        d'.Places template' id' → id ≠ id')
  · intro e' _
    constructor
    · intro d hd
      cases hd
    · apply List.Pairwise.nil
  · rintro q _ hq @⟨d, e', hstep, hperform⟩ ⟨hspent, happart⟩
    have hadvances : Advances s.steps q (q.after d e') := .step hstep hperform
    constructor
    · intro d' hd' template id hplaces
      rcases List.mem_append.mp hd' with hold | hnew
      · apply (hq.spent_of_advances ht htimely htime hadvances
          (hspent d' hold template id hplaces)).1
      · rw [List.mem_singleton.mp hnew] at hplaces
        apply (hq.places ht htimely htime hstep hperform hplaces).1.2
    · apply List.pairwise_append.mpr
      refine ⟨happart, List.pairwise_singleton _ _, ?_⟩
      intro d' hd' d'' hd'' template template' id id' hplaces hplaces' heq
      rw [List.mem_singleton.mp hd'', ← heq] at hplaces'
      apply (hq.places ht htimely htime hstep hperform hplaces').1.1
      apply hspent d' hd' template id hplaces

end

end

/-- In a workspace with different ids, a block that is found has the face that is listed under its id. -/
theorem face_bare_of_find? {t : Forest} (hids : (Forest.ids t).Nodup) {id : String} {b : Block}
    (hfind : Forest.find? id t = some b) {f : Face} (hf : f ∈ Forest.bares t) (hid : f.id = id) :
  f = b.face.bare
  := by
  obtain ⟨c, hc, rfl⟩ := List.mem_map.mp hf
  have hfound := Forest.find?_of_mem_walk hids hc
  have hcid : c.id = id := hid
  rw [hcid, hfind] at hfound
  cases hfound
  rfl

theorem mem_bares_of_find? {t : Forest} {id : String} {b : Block}
    (hfind : Forest.find? id t = some b) :
  b.face.bare ∈ Forest.bares t
  := List.mem_map_of_mem (Forest.mem_walk_of_find? hfind)

/-- A handle names the block that it was given to last.  The steps that put blocks into the workspace
give them different ids, and each block is made from the template that its step names.  Whatever is found
under the id later is that block, and once nothing is found under it nothing ever is.  That there is time
says that no stamp gets as far as the greatest word. -/
theorem handles_denote {catalog : Catalog} {registry : Registry} {clock : Clock} {e : Editor}
    (h : Editor.Reaches (.new catalog registry clock) e) {s : Script}
    (htimely : e.canvas.IsTimely) (htime : s.HasTime e) :
  (∀ p handle id, s.Passes e p →
      (p.report.handles.get? handle = some id ↔ p.Names handle id))
    ∧ (∀ p, s.Passes e p → p.past.Pairwise fun d d' => ∀ template template' id id',
      d.Places template id → d'.Places template' id' → id ≠ id')
    ∧ ∀ p d e' template id, s.Passes e p → s.steps[p.past.length]? = some d.step →
      perform p.editor p.report.handles d.step = (.ok d.done, e') → d.Places template id →
      id ∉ Forest.ids p.editor.tree ∧ ∃ b, Forest.find? id e'.tree = some b ∧ b.templateId = template
        ∧ ∀ q, Later s.steps (p.after d e') q →
          (∀ c, Forest.find? id q.editor.tree = some c → c.face.bare = b.face.bare)
          ∧ (id ∉ Forest.ids q.editor.tree → ∀ r, Later s.steps q r →
            id ∉ Forest.ids r.editor.tree)
  := by
  have ht : Forest.Valid e.tree := h.valid Forest.valid_nil
  refine ⟨fun p handle id hp => hp.get?_handles_iff,
    fun p hp => (hp.places_apart ht htimely htime).2, ?_⟩
  intro p d e' template id hp hstep hperform hplaces
  obtain ⟨⟨-, hspent⟩, hnew, b, hfind, htemplate⟩ :=
    hp.places ht htimely htime hstep hperform hplaces
  refine ⟨hnew, b, hfind, htemplate, ?_⟩
  have hafter : s.Passes e (p.after d e') := hp.advances (.step hstep hperform)
  have hids : (Forest.ids e'.tree).Nodup := (hafter.valid htime.hasRoom ht).nodup
  intro q hlater
  obtain ⟨hspent', hold⟩ := hafter.spent_of_later ht htimely htime hlater hspent
  constructor
  · intro c hc
    have hid : c.face.bare.id = id := Forest.id_of_find? hc
    apply face_bare_of_find? hids hfind (hold _ (mem_bares_of_find? hc) hid) hid
  · intro hgone r hlater'
    obtain ⟨-, hold'⟩ := (hafter.later hlater).spent_of_later ht htimely htime hlater' hspent'
    intro hmem
    obtain ⟨c, hc, rfl⟩ := List.mem_map.mp hmem
    obtain ⟨c', hc', hface⟩ := List.mem_map.mp (hold' _ (List.mem_map_of_mem hc) rfl)
    apply hgone
    have hid := congrArg Face.id hface
    change c'.id = c.id at hid
    rw [← hid]
    apply List.mem_map_of_mem hc'

/-- The handle is given to another block of the same template, at the same time on the clock. -/
def replaced : Script :=
  ⟨[], [], [
    .place "block-reset" .workspace (some "reset"),
    .delete "reset",
    .place "block-reset" .workspace (some "reset")]⟩

theorem handles_denote_replaced :
  ∃ p b, replaced.Passes (.standard (.fixed 1000)) p ∧ p.past.length = 1
    ∧ Forest.find? "block-reset-1000" p.editor.tree = some b ∧ b.templateId = "block-reset"
    ∧ (∀ q, Later replaced.steps p q → ∀ c,
      Forest.find? "block-reset-1000" q.editor.tree = some c → c.face.bare = b.face.bare)
    ∧ Forest.ids (replaced.run (.standard (.fixed 1000))).2.tree = ["block-reset-1001"]
  := by
  let e : Editor := .standard (.fixed 1000)
  let target : Target := .workspace (stack e).pointerBelowAll
  let d : Deed := ⟨.place "block-reset" .workspace (some "reset"),
    .ok (some (.inserted "block-reset-1000" .root))⟩
  have htimely : e.canvas.IsTimely := fun _ hlast => by cases hlast
  have hearly : e.canvas.IsEarly 1000 :=
    ⟨fun _ => Nat.le_refl _, fun _ hlast => by cases hlast⟩
  have htime : replaced.HasTime e :=
    hasTime_of_isEarly (e := e) Forest.valid_nil hearly rfl (by decide)
  have hpasses : replaced.Passes e (.first e) := ⟨e, e, rfl, rfl, .refl⟩
  have hdone : (dragDone e (.palette "block-reset") target).1 = d.done := by decide +kernel
  have hperform : perform e .empty d.step
      = (.ok d.done, (dragDone e (.palette "block-reset") target).2) := by
    rw [← hdone]
    rfl
  have hplaces : d.Places "block-reset" "block-reset-1000" := ⟨_, _, _, rfl, rfl, rfl⟩
  obtain ⟨-, -, hdenotes⟩ := handles_denote Editor.Reaches.refl htimely htime
  obtain ⟨-, b, hfind, hb, hlater⟩ := hdenotes _ d _ _ _ hpasses rfl hperform hplaces
  refine ⟨_, b, hpasses.advances (.step rfl hperform), rfl, hfind, hb, ?_, by decide +kernel⟩
  intro q hq
  apply (hlater q hq).1

end Script

end BlockEditor
