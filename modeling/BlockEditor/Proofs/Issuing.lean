import BlockEditor.Proofs.Sessions

/-!
# Ids are given out once

`Canvas.Leads c₀ made c` states that events lead from the canvas `c₀` to `c`, in any order, and that new
blocks were made on the way as `made` says, each of them on a canvas and from a template.  The workspace
may be any one at the start, and may be changed at any time in any way, so it tells nothing of the ids
that were given out: only the last stamp does.  Every new stamp comes after it, whatever the clock shows,
and an id tells its stamp.  So no id is given out again, also when its block is gone.
-/

namespace BlockEditor

/-! ### Events -/

/-- The block that was put down. -/
def Outcome.placed? : Outcome → Option String
  | inserted id _ => some id
  | slotted id _ _ _ => some id
  | _ => none

/-- What happens to a canvas. -/
inductive Canvas.Event where
  | start (source : Source)
  | cancel
  | drop (palette : Palette) (layout : Layout) (target : Target)
  | clear (confirmed : Bool)
  /-- The workspace is changed without a gesture. -/
  | change (f : Forest → Forest)
  /-- The clock is read, but not for a stamp. -/
  | read

namespace Canvas

/-- The canvas after an event. -/
def after (c : Canvas) : Event → Canvas
  | .start source => c.start source
  | .cancel => c.cancel
  | .drop palette layout target => (c.drop palette layout target).2
  | .clear confirmed => c.clear confirmed
  | .change f => { c with tree := f c.tree }
  | .read => { c with clock := c.clock.tick }

/-- The template of the block that an event makes.  Only a drop makes one, if its plan puts down what
comes from the palette. -/
def makes? (c : Canvas) : Event → Option Template
  | .drop palette layout target =>
    match c.gesture with
    | none => none
    | some source =>
      match Plan.ofGesture c.tree palette layout source target with
      | .error _ => none
      | .ok plan => plan.carried?.bind Carried.template?
  | _ => none

end Canvas

/-- The making of a block: the canvas at that moment, and the template. -/
structure Making where
  canvas : Canvas
  template : Template

namespace Making

def stamp (m : Making) : UInt64 :=
  m.canvas.nextStamp m.template.id

/-- The id of the new block. -/
def id (m : Making) : String :=
  (m.canvas.issue m.template).1.id

theorem id_eq (m : Making) :
  m.id = InstanceId.make m.template.id m.stamp
  := rfl

end Making

/-- Events lead from the canvas `c₀` to the given one, and blocks were made on the way, as long as no
stamp gets as far as the greatest word. -/
inductive Canvas.Leads (c₀ : Canvas) : List Making → Canvas → Prop where
  | refl : Leads c₀ [] c₀
  | event {made : List Making} {c : Canvas} (h : Leads c₀ made c) (event : Canvas.Event)
      (htime : ∀ template, c.makes? event = some template → c.HasTime template.id) :
      Leads c₀ (made ++ (c.makes? event).toList.map (Making.mk c)) (c.after event)

/-! ### The last stamp -/

namespace Canvas

/-- Apart from the workspace, a drop leaves the canvas as the end of the gesture and the making of the
new block leave it. -/
theorem read_drop {α : Type} (read : Canvas → α)
    (hread : ∀ (c : Canvas) (t : Forest), read { c with tree := t } = read c) (c : Canvas)
    (palette : Palette) (layout : Layout) (target : Target) :
  read (c.drop palette layout target).2
    = (c.makes? (.drop palette layout target)).elim (read c.cancel) fun template =>
      read (c.cancel.issue template).2
  := by
  rw [drop_snd, finish, makes?]
  cases hgesture : c.gesture with
  | none =>
    have hcancel : c.cancel = c := by rw [cancel, ← hgesture]
    rw [hcancel]
    rfl
  | some source =>
    dsimp only
    cases Plan.ofGesture c.tree palette layout source target with
    | error reason => rfl
    | ok plan => apply read_apply read hread

/-- An event that makes a block leaves its stamp as the last one, whether the block is put down or not,
and other events leave the last stamp. -/
theorem lastStamp_after (c : Canvas) (event : Event) :
  (c.after event).lastStamp
    = ((c.makes? event).map fun t => c.nextStamp t.id).or c.lastStamp
  := by
  cases event with
  | start source => rfl
  | cancel => rfl
  | clear confirmed => cases confirmed <;> rfl
  | change f => rfl
  | read => rfl
  | drop palette layout target =>
    rw [after, read_drop Canvas.lastStamp fun _ _ => rfl]
    cases c.makes? (.drop palette layout target) <;> rfl

end Canvas

/-! ### Blocks that are put down -/

theorem Plan.carried?_of_ofSlot {t : Forest} {carried : Carried} {holder : String} {index : Nat}
    {plan : Plan} (h : Plan.ofSlot t carried holder index = .ok plan) :
  plan.carried? = some carried
  := by
  rw [Plan.ofSlot] at h
  split at h
  · contradiction
  split at h
  · contradiction
  split at h
  · contradiction
  split at h
  · split at h
    · contradiction
    · cases h
      rfl
  · contradiction

theorem Plan.exists_fresh_of_carry {t : Forest} {palette : Palette} {templateId : String}
    {carried : Carried} (h : Plan.carry t palette (.palette templateId) = .ok carried) :
  ∃ template, carried = .fresh template
  := by
  rw [Plan.carry] at h
  split at h
  · rename_i template _
    cases h
    use template
  · contradiction

/-- A plan for what comes from the palette throws nothing away, or it puts down a new block. -/
theorem Plan.of_palette {t : Forest} {palette : Palette} {layout : Layout} {templateId : String}
    {target : Target} {plan : Plan}
    (h : Plan.ofGesture t palette layout (.palette templateId) target = .ok plan) :
  plan = .dispose none ∨ ∃ template, plan.carried? = some (.fresh template)
  := by
  cases target with
  | outside => contradiction
  | disposal =>
    cases h
    apply Or.inl rfl
  | slot holder index =>
    obtain ⟨carried, hcarry, hslot⟩ := exists_of_bind_eq_ok h
    obtain ⟨template, rfl⟩ := Plan.exists_fresh_of_carry hcarry
    exact Or.inr ⟨template, Plan.carried?_of_ofSlot hslot⟩
  | block id pointer =>
    obtain ⟨carried, hcarry, hrest⟩ := exists_of_bind_eq_ok h
    obtain ⟨template, rfl⟩ := Plan.exists_fresh_of_carry hcarry
    obtain ⟨container, -, hplan⟩ := exists_of_bind_eq_ok hrest
    cases hplan
    exact Or.inr ⟨template, rfl⟩
  | workspace pointer =>
    obtain ⟨carried, hcarry, hplan⟩ := exists_of_bind_eq_ok h
    obtain ⟨template, rfl⟩ := Plan.exists_fresh_of_carry hcarry
    cases hplan
    exact Or.inr ⟨template, rfl⟩

namespace Canvas

theorem placed?_putInSlot {t t' : Forest} {b : Block} {holder : String} {slot : Nat}
    {outcome : Outcome} (h : putInSlot t b holder slot = .ok (outcome, t')) :
  outcome.placed? = some b.id
  := by
  rw [putInSlot] at h
  split at h
  · contradiction
  · split at h <;> cases h <;> rfl

theorem placed?_putInList {t t' : Forest} {b : Block} {container : Container} {anchor : Anchor}
    {outcome : Outcome} (h : putInList t b container anchor = .ok (outcome, t')) :
  outcome.placed? = some b.id
  := by
  rw [putInList] at h
  split at h
  · contradiction
  · cases h
    rfl

theorem placed?_place {c : Canvas} {template : Template}
    {put : Forest → Block → Except Rejection (Outcome × Forest)}
    (hput : ∀ {t t' : Forest} {b : Block} {outcome : Outcome},
      put t b = .ok (outcome, t') → outcome.placed? = some b.id)
    {outcome : Outcome} (h : (c.place (.fresh template) put).1 = .ok outcome) :
  outcome.placed? = some (Making.mk c template).id
  := by
  rw [place, take] at h
  dsimp only at h
  split at h
  · contradiction
  · rename_i hok
    cases h
    apply hput hok

/-- A drop of what comes from the palette throws nothing away, or it puts down the block that it makes. -/
theorem placed?_drop {c : Canvas} {palette : Palette} {layout : Layout} {target : Target}
    {templateId : String} (hsource : c.gesture = some (.palette templateId)) {outcome : Outcome}
    (h : (c.drop palette layout target).1 = .ok outcome) :
  outcome = .ignored ∨ ∃ template, c.makes? (.drop palette layout target) = some template
    ∧ outcome.placed? = some (Making.mk c template).id
  := by
  rw [drop_eq_ok_iff, finish, hsource] at h
  dsimp only at h
  simp only [makes?, hsource]
  cases hplan : Plan.ofGesture c.tree palette layout (.palette templateId) target with
  | error reason =>
    rw [hplan] at h
    contradiction
  | ok plan =>
    rw [hplan] at h
    rcases Plan.of_palette hplan with rfl | ⟨template, hcarried⟩
    · cases h
      apply Or.inl rfl
    · right
      use template
      dsimp only
      rw [hcarried]
      use rfl
      cases plan with
      | dispose block => contradiction
      | slot carried holder slot evicts =>
        cases hcarried
        apply placed?_place placed?_putInSlot h
      | insert carried container anchor =>
        cases hcarried
        apply placed?_place placed?_putInList h

/-! ### Runs -/

/-- Nothing was given out yet, or the last stamp is before the greatest word, and no stamp of a new
block is after it. -/
structure Bounds (c : Canvas) (made : List Making) : Prop where
  last : ∀ last, c.lastStamp = some last → last.toNat < 2 ^ 64 - 1
  made : ∀ m ∈ made, ∃ last, c.lastStamp = some last ∧ m.stamp.toNat ≤ last.toNat

/-- The stamp of a new block comes after those of the blocks that were made before. -/
theorem Bounds.lt_nextStamp {c : Canvas} {made : List Making} (h : c.Bounds made)
    {templateId : String} (htime : c.HasTime templateId) :
  ∀ m ∈ made, m.stamp < c.nextStamp templateId
  := by
  intro m hm
  obtain ⟨last, hlast, hle⟩ := h.made m hm
  rw [UInt64.lt_iff_toNat_lt]
  apply Nat.lt_of_le_of_lt hle (htime.lt_nextStamp hlast (h.last last hlast))

theorem Bounds.after {c : Canvas} {made : List Making} (h : c.Bounds made) {event : Event}
    (htime : ∀ template, c.makes? event = some template → c.HasTime template.id) :
  (c.after event).Bounds (made ++ (c.makes? event).toList.map (Making.mk c))
  := by
  have hstamp := c.lastStamp_after event
  cases hmakes : c.makes? event with
  | none =>
    rw [hmakes] at hstamp
    constructor
    · rw [hstamp]
      apply h.last
    · rw [hstamp]
      simpa using h.made
  | some template =>
    rw [hmakes] at hstamp
    have htime := htime template hmakes
    obtain ⟨-, -, hbound⟩ := htime.finds
    constructor
    · rw [hstamp]
      rintro _ ⟨⟩
      apply hbound
    · intro m hm
      refine ⟨_, hstamp, ?_⟩
      rcases List.mem_append.mp hm with hm | hm
      · apply Nat.le_of_lt (UInt64.lt_iff_toNat_lt.mp (h.lt_nextStamp htime m hm))
      · rw [List.mem_singleton.mp hm]
        apply Nat.le_refl

section

variable {t : Forest} {clock : Clock} {made : List Making} {c : Canvas}

theorem Leads.bounds (h : Canvas.Leads (.ofForest t clock) made c) :
  c.Bounds made
  := by
  induction h with
  | refl => exact ⟨fun _ h => (by cases h), fun _ h => (by cases h)⟩
  | event _ event htime ih => apply ih.after htime

/-- The stamps of new blocks ascend. -/
theorem Leads.pairwise_lt (h : Canvas.Leads (.ofForest t clock) made c) :
  made.Pairwise fun m n => m.stamp < n.stamp
  := by
  induction h with
  | refl => apply List.Pairwise.nil
  | @event made c h event htime ih =>
    apply List.pairwise_append.mpr
    refine ⟨ih, ?_, ?_⟩
    · cases c.makes? event with
      | none => apply List.Pairwise.nil
      | some template => apply List.pairwise_singleton
    · intro m hm n hn
      obtain ⟨template, hmakes, rfl⟩ := List.mem_map.mp hn
      apply h.bounds.lt_nextStamp (htime template (Option.mem_toList.mp hmakes)) m hm

theorem Leads.finds (h : Canvas.Leads (.ofForest t clock) made c) :
  ∀ m ∈ made, m.canvas.Finds m.template.id m.stamp
  := by
  induction h with
  | refl =>
    intro m hm
    cases hm
  | event _ event htime ih =>
    intro m hm
    rcases List.mem_append.mp hm with hm | hm
    · apply ih m hm
    · obtain ⟨template, hmakes, rfl⟩ := List.mem_map.mp hm
      apply (htime template (Option.mem_toList.mp hmakes)).finds.1

/-- No id is given out again: an id tells its stamp. -/
theorem Leads.nodup_ids (h : Canvas.Leads (.ofForest t clock) made c) :
  (made.map Making.id).Nodup
  := by
  apply List.pairwise_map.mpr
  apply h.pairwise_lt.imp
  intro m n hlt heq
  rw [m.id_eq, n.id_eq] at heq
  apply UInt64.ne_of_lt hlt (InstanceId.make_inj heq).2

/-- On a canvas that began with any workspace and any clock, as long as no stamp gets as far as the
greatest word: the stamps of new blocks ascend, each search for a stamp ends at a free one, the id of a
new block is none in the workspace at that moment and none that was given out before, and what a drop
puts down from the palette is a new block. -/
theorem ids_given_once (h : Canvas.Leads (.ofForest t clock) made c) :
  made.Pairwise (fun m n => m.stamp < n.stamp)
    ∧ (made.map Making.id).Nodup
    ∧ (∀ m ∈ made,
      m.canvas.Finds m.template.id m.stamp ∧ m.id ∉ Forest.ids m.canvas.tree)
    ∧ ∀ palette layout target templateId outcome, c.gesture = some (.palette templateId) →
      (c.drop palette layout target).1 = .ok outcome →
      outcome = .ignored ∨ ∃ template, c.makes? (.drop palette layout target) = some template
        ∧ outcome.placed? = some (Making.mk c template).id
  := by
  refine ⟨h.pairwise_lt, h.nodup_ids, ?_, ?_⟩
  · intro m hm
    have hfinds := h.finds m hm
    use hfinds
    obtain ⟨-, -, -, -, hfree⟩ := hfinds
    apply hfree
  · intro palette layout target templateId outcome hsource hdrop
    apply placed?_drop hsource hdrop

end

/-- The block `a-5` is placed already, and after the reading of the clock it goes backwards.  The id of
a block that was cleared away does not come back. -/
theorem ids_given_once_cleared :
  ∃ made c, Canvas.Leads
      (.ofForest [Template.instantiate ⟨"a", "step", .plain .move [], none⟩ "a-5"]
        ⟨fun i => .ofNat (5 - i), 0⟩) made c
    ∧ made.map Making.stamp = [6, 7] ∧ Forest.ids c.tree = ["a-7"]
    ∧ (made.map Making.id).Nodup
  := by
  let template : Template := ⟨"a", "step", .plain .move [], none⟩
  let palette : Palette := fun _ => some template
  let c₀ : Canvas := .ofForest [template.instantiate "a-5"] ⟨fun i => .ofNat (5 - i), 0⟩
  have hrefl : Canvas.Leads c₀ [] c₀ := .refl
  have hstart := hrefl.event (.start (.palette "a")) nofun
  have hdrop := hstart.event (.drop palette .hidden (.workspace .zero)) (by
    rintro _ ⟨⟩ ⟨-, hused⟩
    exact absurd (hused 1 (by decide)) (by decide))
  have hclear := hdrop.event (.clear true) nofun
  have hagain := hclear.event (.start (.palette "a")) nofun
  have hlast := hagain.event (.drop palette .hidden (.workspace .zero)) (by
    rintro _ ⟨⟩ ⟨-, hused⟩
    exact absurd (hused 0 (by decide)) (by decide))
  exact ⟨_, _, hlast, by decide, by decide, (ids_given_once hlast).2.1⟩

end Canvas

/-! ### Sessions -/

/-- What a command does to the canvas of an editor is an event. -/
theorem Editor.exists_event (e : Editor) (command : Command) :
  ∃ event, (e.perform command).2.canvas = e.canvas.after event
  := by
  have hnamed : ∀ change : Except NameError Unit × Editor, change.2.canvas = e.canvas →
      (named change).2.canvas = e.canvas.after (.change id) := by
    intro change hchange
    rw [named_snd]
    apply hchange
  have hedited : ∀ id check change, ∃ event,
      (edited (e.edit id check change)).2.canvas = e.canvas.after event := by
    intro id check change
    rw [Editor.edited_snd, Editor.edit]
    split
    · use .change fun t => t
      rfl
    · rename_i b _
      use .change fun t => (Forest.update? id (fun _ => (attempt check change b).2) t).getD t
      rfl
  cases command with
  | addVariable name => exact ⟨_, hnamed _ rfl⟩
  | addPosition name => exact ⟨_, hnamed _ rfl⟩
  | setVariableValue name value => exact ⟨_, hnamed _ rfl⟩
  | removeName name =>
    rw [Editor.perform, Editor.removeName]
    cases e.registry.remove name with
    | mk removed r =>
      cases removed with
      | none => exact ⟨.change id, rfl⟩
      | some entry =>
        use .change fun t => (Forest.purge (Registry.paletteId name) t).2
        rfl
  | startDrag source => exact ⟨.start source, rfl⟩
  | hover layout target => exact ⟨.change id, rfl⟩
  | drop layout target => exact ⟨.drop e.palette layout target, rfl⟩
  | cancelDrag => exact ⟨.cancel, rfl⟩
  | clear confirmed => exact ⟨.clear confirmed, rfl⟩
  | setLiteral block slot value => apply hedited
  | setOperator block operator => apply hedited
  | program => exact ⟨.read, rfl⟩

end BlockEditor
