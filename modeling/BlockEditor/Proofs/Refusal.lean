import BlockEditor.Proofs.Dropping
import BlockEditor.Proofs.Names
import BlockEditor.Session.Command

/-!
# Refusals

A drop that is refused ends the gesture and leaves the workspace, and every other command that is
refused leaves the editor.  This holds of all workspaces, also of those that are not valid: where
ids are repeated, `locate?` and `find?` may mean different blocks.  What is taken out of a slot may
be no block then, and it is put back.  A place in a list may be past its end, and the program panics;
`Forest.Overruns` states when it does.
-/

namespace BlockEditor

/-! ### Putting back -/

/-- What is put back into a slot is there as before. -/
theorem Forest.setSlot_restore {t : Forest} {holder : String} {h : Block}
    (hfind : Forest.find? holder t = some h) {slot : Nat} {content : Content Block}
    (hslot : h.slots[slot]? = some content) (other : Content Block) :
  Forest.setSlot holder slot content (Forest.setSlot holder slot other t) = t
  := by
  obtain ⟨C, rfl, rfl, hC⟩ := Forest.exists_fill hfind
  obtain ⟨face, children, slots⟩ := h
  obtain ⟨hlt, rfl⟩ := List.getElem?_eq_some_iff.mp hslot
  have hagain := Context.update?_fill_self (C := C)
    (b := ⟨face, children, slots.set slot other⟩) hC
    fun h => { h with slots := h.slots.set slot slots[slot] }
  rw [Forest.setSlot, Forest.setSlot, Context.update?_fill_self hC, Option.getD_some]
  simp only [Block.id] at hagain ⊢
  rw [hagain, Option.getD_some, List.set_set, List.set_getElem_self]

/-- A block is taken out of a slot, or the workspace is left. -/
theorem Forest.takeFromSlot_cases (holder : String) (slot : Nat) (t : Forest) :
  (∃ b, (Forest.takeFromSlot holder slot t).1 = .taken b)
    ∨ Forest.takeFromSlot holder slot t = (.missing, t)
  := by
  rw [Forest.takeFromSlot]
  cases hcontent : (Forest.find? holder t).bind fun h => h.slots[slot]? with
  | none => apply Or.inr rfl
  | some content =>
    obtain ⟨h, hfind, hslot⟩ := Option.bind_eq_some_iff.mp hcontent
    have hrestore := Forest.setSlot_restore hfind hslot .empty
    cases content with
    | block b => apply Or.inl ⟨b, rfl⟩
    | empty =>
      dsimp only
      rw [hrestore]
      apply Or.inr rfl
    | literal value =>
      dsimp only
      rw [hrestore]
      apply Or.inr rfl

/-- There is a list in the container, and it ends before the position. -/
def Forest.EndsBefore (container : Container) (index : Nat) (t : Forest) : Prop :=
  ∃ bs, Forest.sequence? t container = some bs ∧ bs.length ≤ index

/-- The block with the given id is located past the end of the list that is found under the id of its
holder.  The holder shares its id with another block then. -/
def Forest.Overruns (id : String) (t : Forest) : Prop :=
  ∃ location, Forest.locate? id t = some location
    ∧ Forest.EndsBefore location.container location.index t

/-- A block is taken out of a list, or the workspace is left: there is no such list, or it ends before
the position. -/
theorem Forest.takeFromList_cases (container : Container) (index : Nat) (t : Forest) :
  (∃ b, (Forest.takeFromList container index t).1 = .taken b
      ∧ ¬ Forest.EndsBefore container index t)
    ∨ (Forest.takeFromList container index t = (.missing, t)
      ∧ ¬ Forest.EndsBefore container index t)
    ∨ Forest.takeFromList container index t = (.panicked, t)
      ∧ Forest.EndsBefore container index t
  := by
  rw [Forest.takeFromList, Forest.EndsBefore]
  cases hsequence : Forest.sequence? t container with
  | none => simp
  | some bs =>
    cases hb : bs[index]? with
    | none =>
      right; right
      exact ⟨by simp [hb], bs, rfl, List.getElem?_eq_none_iff.mp hb⟩
    | some b =>
      obtain ⟨hlt, rfl⟩ := List.getElem?_eq_some_iff.mp hb
      left
      use bs[index]
      cases container <;> simp [hlt]

/-- What it comes to that a block is taken out.  If none is, the workspace is left, and the program
panics exactly if the place of the block is past the end of its list. -/
theorem Forest.takeOut_cases (id : String) (t : Forest) :
  (∃ b, (Forest.takeOut id t).1 = .taken b ∧ ¬ Forest.Overruns id t)
    ∨ (Forest.takeOut id t = (.missing, t) ∧ ¬ Forest.Overruns id t)
    ∨ Forest.takeOut id t = (.panicked, t) ∧ Forest.Overruns id t
  := by
  rw [Forest.takeOut, Forest.Overruns]
  cases hlocate : Forest.locate? id t with
  | none => simp
  | some location =>
    obtain ⟨container, index⟩ := location
    have hlist := Forest.takeFromList_cases container index t
    cases container with
    | root => simpa using hlist
    | children holder => simpa using hlist
    | slot holder slot =>
      -- In a slot, there is no list that could end.
      have hslot := Forest.takeFromSlot_cases holder slot t
      simpa [Forest.EndsBefore, Forest.sequence?] using hslot

/-- If nothing is taken out, the workspace is left. -/
theorem Forest.takeOut_snd {id : String} {t : Forest}
    (h : ∀ b, (Forest.takeOut id t).1 ≠ .taken b) :
  (Forest.takeOut id t).2 = t
  := by
  rcases Forest.takeOut_cases id t with ⟨b, htaken, -⟩ | ⟨hmissing, -⟩ | ⟨hpanicked, -⟩
  · apply absurd htaken (h b)
  · rw [hmissing]
  · rw [hpanicked]

theorem Forest.takeOut_eq_panicked_iff {id : String} {t : Forest} :
  (Forest.takeOut id t).1 = .panicked ↔ Forest.Overruns id t
  := by
  rcases Forest.takeOut_cases id t with ⟨b, htaken, h⟩ | ⟨hmissing, h⟩ | ⟨hpanicked, h⟩
  · simp [htaken, h]
  · simp [hmissing, h]
  · simp [hpanicked, h]

/-- Where all ids are different, no place is past the end of its list. -/
theorem Forest.not_overruns {t : Forest} (hids : (Forest.ids t).Nodup) (id : String) :
  ¬ Forest.Overruns id t
  := by
  by_cases hid : id ∈ Forest.ids t
  · obtain ⟨b, hb, rfl⟩ := List.mem_map.mp hid
    rw [← Forest.takeOut_eq_panicked_iff,
      Forest.takeOut_of_find? hids (Forest.find?_of_mem_walk hids hb)]
    simp
  · rintro ⟨location, hlocate, -⟩
    rw [Forest.locate?_eq_none hid] at hlocate
    contradiction

/-! ### Plans that fail -/

/-- The id of the placed block that a gesture picked up. -/
def Source.placed? : Source → Option String
  | palette _ => none
  | workspace id => some id

/-- The id of the placed block that a plan takes out. -/
def Plan.takes? : Plan → Option String
  | slot carried _ _ _ => carried.block?.map Block.id
  | insert carried _ _ => carried.block?.map Block.id
  | dispose block => block

theorem Plan.placed?_of_carry {t : Forest} {palette : Palette} {source : Source}
    {carried : Carried} (h : Plan.carry t palette source = .ok carried) :
  carried.block?.map Block.id = source.placed?
  := by
  cases source with
  | palette id =>
    rw [Plan.carry] at h
    split at h
    · cases h
      rfl
    · contradiction
  | workspace id =>
    rw [Plan.carry] at h
    split at h
    · rename_i b hb
      cases h
      apply congrArg some (Forest.id_of_find? hb)
    · contradiction

/-- A plan takes out what the gesture picked up in the workspace, and nothing else. -/
theorem Plan.takes?_of_ofGesture {t : Forest} {palette : Palette} {layout : Layout}
    {source : Source} {target : Target} {plan : Plan}
    (h : Plan.ofGesture t palette layout source target = .ok plan) :
  plan.takes? = source.placed?
  := by
  cases target with
  | outside => contradiction
  | disposal =>
    cases source with
    | palette id =>
      cases h
      rfl
    | workspace id =>
      rw [Plan.ofGesture, Plan.ofDisposal] at h
      split at h
      · cases h
        rfl
      · contradiction
  | slot holder index =>
    obtain ⟨carried, hcarry, hslot⟩ := exists_of_bind_eq_ok h
    obtain ⟨_, _, _, -, -, -, -, -, rfl⟩ := Plan.exists_of_ofSlot hslot
    apply Plan.placed?_of_carry hcarry
  | block id pointer =>
    obtain ⟨carried, hcarry, hrest⟩ := exists_of_bind_eq_ok h
    obtain ⟨container, -, hplan⟩ := exists_of_bind_eq_ok hrest
    cases hplan
    apply Plan.placed?_of_carry hcarry
  | workspace pointer =>
    obtain ⟨carried, hcarry, hplan⟩ := exists_of_bind_eq_ok h
    cases hplan
    apply Plan.placed?_of_carry hcarry

namespace Canvas

theorem tree_place_of_error {c : Canvas} {carried : Carried}
    {put : Forest → Block → Except Rejection (Outcome × Forest)} {failure : Failure}
    (h : (c.place carried put).1 = .error failure) :
  (c.place carried put).2.tree = c.tree
  := by
  cases carried with
  | fresh template =>
    rw [place, take] at h ⊢
    dsimp only at h ⊢
    split at h
    · rfl
    · contradiction
  | existing b =>
    have htree := @Forest.takeOut_snd b.id c.tree
    rw [place, take] at h ⊢
    generalize Forest.takeOut b.id c.tree = taken at h htree ⊢
    obtain ⟨removal, tree⟩ := taken
    cases removal with
    | missing => rfl
    | panicked => apply htree (by simp)
    | taken b =>
      dsimp only at h ⊢
      split at h
      · rfl
      · contradiction

/-- A block that cannot be thrown away stays where it is. -/
theorem tree_dispose_of_error {c : Canvas} {id : String} {failure : Failure}
    (h : (c.dispose id).1 = .error failure) :
  (c.dispose id).2.tree = c.tree
  := by
  have htree := @Forest.takeOut_snd id c.tree
  rw [dispose] at h ⊢
  generalize Forest.takeOut id c.tree = taken at h htree ⊢
  obtain ⟨removal, tree⟩ := taken
  cases removal with
  | taken b => contradiction
  | missing => apply htree (by simp)
  | panicked => apply htree (by simp)

/-- A plan that fails when it is carried out leaves the workspace. -/
theorem tree_apply_of_error {c : Canvas} {plan : Plan} {failure : Failure}
    (h : (c.apply plan).1 = .error failure) :
  (c.apply plan).2.tree = c.tree
  := by
  cases plan with
  | slot carried holder slot evicts => apply tree_place_of_error h
  | insert carried container anchor => apply tree_place_of_error h
  | dispose block =>
    cases block with
    | none => contradiction
    | some id => apply tree_dispose_of_error h

theorem dispose_eq_panicked_iff {c : Canvas} {block id : String} :
  (c.dispose block).1 = .error (.panicked id) ↔ block = id ∧ Forest.Overruns id c.tree
  := by
  have hid : (block = id ∧ Forest.Overruns id c.tree)
      ↔ (block = id ∧ (Forest.takeOut block c.tree).1 = .panicked) := by
    apply and_congr_right
    rintro rfl
    rw [Forest.takeOut_eq_panicked_iff]
  rw [hid, dispose]
  generalize Forest.takeOut block c.tree = taken
  obtain ⟨removal, tree⟩ := taken
  cases removal <;> simp

/-- Only what is taken out of the workspace can be the cause of a panic. -/
theorem place_eq_panicked_iff {c : Canvas} {carried : Carried}
    {put : Forest → Block → Except Rejection (Outcome × Forest)} {id : String} :
  (c.place carried put).1 = .error (.panicked id)
    ↔ carried.block?.map Block.id = some id ∧ Forest.Overruns id c.tree
  := by
  cases carried with
  | fresh template =>
    rw [place, take]
    dsimp only
    split <;> simp [Carried.block?]
  | existing b =>
    rw [Carried.block?, Option.map_some, Option.some.injEq, ← dispose_eq_panicked_iff, place, take,
      dispose]
    generalize Forest.takeOut b.id c.tree = taken
    obtain ⟨removal, tree⟩ := taken
    cases removal with
    | missing => simp
    | panicked => simp
    | taken b' =>
      dsimp only
      split <;> simp

/-- A plan panics if the block that it takes out is located past the end of its list, and only then. -/
theorem apply_eq_panicked_iff {c : Canvas} {plan : Plan} {id : String} :
  (c.apply plan).1 = .error (.panicked id)
    ↔ plan.takes? = some id ∧ Forest.Overruns id c.tree
  := by
  cases plan with
  | slot carried holder slot evicts => apply place_eq_panicked_iff
  | insert carried container anchor => apply place_eq_panicked_iff
  | dispose block =>
    cases block with
    | none => simp [apply, Plan.takes?]
    | some block =>
      rw [apply, dispose_eq_panicked_iff, Plan.takes?, Option.some.injEq]

/-! ### Drops -/

/-- What is carried out leaves the gesture. -/
theorem apply_gesture (c : Canvas) (plan : Plan) :
  (c.apply plan).2.gesture = c.gesture
  := by
  rw [read_apply Canvas.gesture fun _ _ => rfl]
  cases plan.carried?.bind Carried.template? <;> rfl

section

variable {c : Canvas} {palette : Palette} {layout : Layout} {target : Target}

/-- Whatever a drop comes to, no gesture is in progress afterwards. -/
theorem finish_gesture :
  (c.finish palette layout target).2.gesture = none
  := by
  rw [finish]
  cases hgesture : c.gesture with
  | none => apply hgesture
  | some source =>
    dsimp only
    cases Plan.ofGesture c.tree palette layout source target with
    | error reason => rfl
    | ok plan => apply c.cancel.apply_gesture plan

/-- A drop that comes to no outcome leaves the workspace. -/
theorem finish_tree {failure : Failure}
    (h : (c.finish palette layout target).1 = .error failure) :
  (c.finish palette layout target).2.tree = c.tree
  := by
  rw [finish] at h ⊢
  cases hgesture : c.gesture with
  | none => rfl
  | some source =>
    rw [hgesture] at h
    dsimp only at h ⊢
    cases hplan : Plan.ofGesture c.tree palette layout source target with
    | error reason => rfl
    | ok plan =>
      rw [hplan] at h
      apply tree_apply_of_error h

/-- A drop panics if a placed block is carried, the drop is not refused beforehand, and the block is
located past the end of its list, and only then. -/
theorem finish_eq_panicked_iff {id : String} :
  (c.finish palette layout target).1 = .error (.panicked id)
    ↔ c.gesture = some (.workspace id)
      ∧ (∃ action, c.hover palette layout target = .ok action) ∧ Forest.Overruns id c.tree
  := by
  rw [finish, hover]
  cases hgesture : c.gesture with
  | none => simp
  | some source =>
    dsimp only
    cases hplan : Plan.ofGesture c.tree palette layout source target with
    | error reason => simp [Except.map]
    | ok plan =>
      dsimp only
      rw [apply_eq_panicked_iff, Plan.takes?_of_ofGesture hplan]
      cases source with
      | palette templateId => simp [Source.placed?]
      | workspace block => simp [Source.placed?, Except.map, cancel]

end

end Canvas

/-! ### Edits -/

namespace Editor

theorem attempt_of_error {check : Block → Except EditError Unit} {change : Block → Block}
    {b : Block} {reason : EditError} (h : (attempt check change b).1 = .error reason) :
  (attempt check change b).2 = b
  := by
  rw [attempt] at h ⊢
  cases hcheck : check b with
  | error reason => rfl
  | ok _ =>
    rw [hcheck] at h
    contradiction

/-- An edit that is refused puts the block back as it was, so it leaves the editor. -/
theorem edit_of_error {e : Editor} {id : String} {check : Block → Except EditError Unit}
    {change : Block → Block} {reason : EditError} (h : (e.edit id check change).1 = .error reason) :
  (e.edit id check change).2 = e
  := by
  rw [edit] at h ⊢
  cases hfind : Forest.find? id e.tree with
  | none => rfl
  | some b =>
    rw [hfind] at h
    obtain ⟨C, htree, rfl, hC⟩ := Forest.exists_fill hfind
    dsimp only at h ⊢
    rw [attempt_of_error h, htree, Context.update?_fill_self hC, Option.getD_some, ← htree]
    rfl

/-- A name that the registry refuses leaves the editor, and one that it accepts changes the registry. -/
theorem enterName_cases (e : Editor) (name : String) (kind : Registry.EntryKind) :
  (∃ reason, e.registry.add name kind = .error reason
      ∧ e.enterName name kind = (.error reason, e))
    ∨ ∃ r, e.registry.add name kind = .ok r
      ∧ e.enterName name kind = (.ok (), { e with registry := r })
  := by
  have hrefused := @Registry.enter_of_error e.registry name kind
  rw [Registry.add, enterName]
  generalize e.registry.enter name kind = entered at hrefused ⊢
  obtain ⟨result, r⟩ := entered
  cases result with
  | ok entry => exact Or.inr ⟨r, rfl, rfl⟩
  | error reason =>
    obtain rfl := hrefused rfl
    exact Or.inl ⟨reason, rfl, rfl⟩

/-- A change of the names that is refused leaves the editor, as it leaves the registry. -/
theorem enterName_of_error {e : Editor} {name : String} {kind : Registry.EntryKind}
    {reason : NameError} (h : (e.enterName name kind).1 = .error reason) :
  (e.enterName name kind).2 = e
  := by
  rcases e.enterName_cases name kind with ⟨_, -, hentered⟩ | ⟨_, -, hentered⟩
  · rw [hentered]
  · rw [hentered] at h
    contradiction

theorem assignValue_of_error {e : Editor} {name value : String} {reason : NameError}
    (h : (e.assignValue name value).1 = .error reason) :
  (e.assignValue name value).2 = e
  := by
  rw [assignValue] at h ⊢
  dsimp only at h ⊢
  rw [Registry.assign_of_error h]

/-- A command on the names or on a placed block that is refused leaves the editor. -/
theorem perform_of_refused {e : Editor} {command : Command}
    (h : (∃ reason, (e.perform command).1 = .nameRefused reason)
      ∨ ∃ reason, (e.perform command).1 = .editRefused reason) :
  (e.perform command).2 = e
  := by
  have hnamed : ∀ change : Except NameError Unit × Editor,
      (∀ reason, change.1 = .error reason → change.2 = e) →
      (∃ reason, (named change).1 = .nameRefused reason)
        ∨ (∃ reason, (named change).1 = .editRefused reason) → (named change).2 = e := by
    rintro ⟨result, e'⟩ hchange hresult
    cases result with
    | error reason => apply hchange reason rfl
    | ok _ => rcases hresult with ⟨_, hresult⟩ | ⟨_, hresult⟩ <;> cases hresult
  have hedited : ∀ edit : Except EditError Unit × Editor,
      (∀ reason, edit.1 = .error reason → edit.2 = e) →
      (∃ reason, (edited edit).1 = .nameRefused reason)
        ∨ (∃ reason, (edited edit).1 = .editRefused reason) → (edited edit).2 = e := by
    rintro ⟨result, e'⟩ hedit hresult
    cases result with
    | error reason => apply hedit reason rfl
    | ok _ => rcases hresult with ⟨_, hresult⟩ | ⟨_, hresult⟩ <;> cases hresult
  cases command with
  | addVariable name => apply hnamed _ (fun _ => enterName_of_error) h
  | addPosition name => apply hnamed _ (fun _ => enterName_of_error) h
  | setVariableValue name value => apply hnamed _ (fun _ => assignValue_of_error) h
  | setLiteral block slot value => apply hedited _ (fun _ => edit_of_error) h
  | setOperator block operator => apply hedited _ (fun _ => edit_of_error) h
  | _ => rcases h with ⟨_, h⟩ | ⟨_, h⟩ <;> cases h

/-- Refusals are all or nothing, in every workspace.  A drop that is answered by a reason ends the gesture
and leaves the workspace.  So does a drop that comes to no outcome, whether it is refused or the program
panics; it panics exactly if a placed block is carried to where it may go and is located past the end of
its list, and never if all ids are different.  Any other command that is refused leaves the editor. -/
theorem unchanged_of_refused :
  (∀ (c : Canvas) (palette : Palette) (layout : Layout) (target : Target),
      (∀ reason, (c.drop palette layout target).1 = .error reason →
        (c.drop palette layout target).2.tree = c.tree
          ∧ (c.drop palette layout target).2.gesture = none)
      ∧ (∀ failure, (c.finish palette layout target).1 = .error failure →
        (c.finish palette layout target).2.tree = c.tree
          ∧ (c.finish palette layout target).2.gesture = none)
      ∧ (∀ id, (c.finish palette layout target).1 = .error (.panicked id)
        ↔ c.gesture = some (.workspace id)
          ∧ (∃ action, c.hover palette layout target = .ok action)
          ∧ Forest.Overruns id c.tree)
      ∧ ((Forest.ids c.tree).Nodup → ∀ id,
        (c.finish palette layout target).1 ≠ .error (.panicked id)))
    ∧ ∀ (e : Editor) (command : Command),
      (∃ reason, (e.perform command).1 = .nameRefused reason)
        ∨ (∃ reason, (e.perform command).1 = .editRefused reason) →
      (e.perform command).2 = e
  := by
  constructor
  · intro c palette layout target
    refine ⟨?_, fun failure h => ⟨Canvas.finish_tree h, Canvas.finish_gesture⟩,
      fun id => Canvas.finish_eq_panicked_iff, ?_⟩
    · intro reason h
      obtain ⟨failure, hfailed, -⟩ := Canvas.drop_eq_error_iff.mp h
      rw [Canvas.drop_snd]
      exact ⟨Canvas.finish_tree hfailed, Canvas.finish_gesture⟩
    · intro hids id h
      obtain ⟨-, -, hoverruns⟩ := Canvas.finish_eq_panicked_iff.mp h
      apply Forest.not_overruns hids id hoverruns
  · intro e command h
    apply perform_of_refused h

/-- A block that need not fit its kind, with the given children and contents of slots. -/
def bare (id : String) (children : Option Forest) (slots : Slots) : Block :=
  ⟨⟨id, "t", .plain .var [.value], id, none, false⟩, children, slots⟩

/-- A workspace that is not valid: the id `h` is there twice, and `locate?` finds `a` in the slot of
one of the two blocks while `find?` returns the other one. -/
def tangled : Forest :=
  [bare "p" (some [
    bare "q" (some [bare "h" none [.literal "1"]]) [],
    bare "h" none [.block (bare "a" none [])]]) []]

/-- A workspace that is not valid: the id `a` is there twice, and `locate?` finds `c` in the list of one
of the two blocks while `find?` returns the other one, which has an empty list. -/
def overrun : Forest :=
  [bare "a" (some []) [], bare "b" (some [bare "a" (some [bare "c" none []]) []]) []]

/-- A block that is not found where it is located cannot be thrown away, and one that is located past
the end of a list makes the program panic.  A name that is taken and a slot that is not there are
refused. -/
theorem unchanged_of_refused_tangled :
  let c := (Canvas.ofForest tangled (.fixed 0)).start (.workspace "a")
  let d := (Canvas.ofForest overrun (.fixed 0)).start (.workspace "c")
  let e : Editor := ⟨.stock, .standard, c⟩
  ((c.drop e.palette .hidden .disposal).1 = .error (.unknownBlock "a")
      ∧ (c.finish e.palette .hidden .disposal).1 = .error (.rejected (.unknownBlock "a"))
      ∧ (c.drop e.palette .hidden .disposal).2.tree = c.tree
      ∧ (c.drop e.palette .hidden .disposal).2.gesture = none)
    ∧ ((d.finish e.palette .hidden .disposal).1 = .error (.panicked "c")
      ∧ (d.finish e.palette .hidden .disposal).2.tree = d.tree)
    ∧ ((e.perform (.addVariable "X")).1 = .nameRefused (.duplicate "X")
      ∧ (e.perform (.addVariable "X")).2 = e)
    ∧ (e.perform (.setLiteral "a" 0 "1")).1 = .editRefused (.noSuchSlot "a" 0)
      ∧ (e.perform (.setLiteral "a" 0 "1")).2 = e
  := by
  intro c d e
  obtain ⟨hdrop, hcommand⟩ := unchanged_of_refused
  obtain ⟨hrefused, -, -, -⟩ := hdrop c e.palette .hidden .disposal
  obtain ⟨-, hfailed, hpanicked, -⟩ := hdrop d e.palette .hidden .disposal
  have hpanic : (d.finish e.palette .hidden .disposal).1 = .error (.panicked "c") := by
    apply (hpanicked "c").mpr
    exact ⟨rfl, ⟨_, rfl⟩, ⟨.children "a", 0⟩, rfl, [], rfl, Nat.le_refl 0⟩
  refine ⟨⟨rfl, rfl, hrefused _ rfl⟩, ⟨hpanic, (hfailed _ hpanic).1⟩, ⟨rfl, ?_⟩, rfl, ?_⟩
  · apply hcommand e (.addVariable "X") (.inl ⟨.duplicate "X", rfl⟩)
  · apply hcommand e (.setLiteral "a" 0 "1") (.inr ⟨.noSuchSlot "a" 0, rfl⟩)

end Editor

end BlockEditor
