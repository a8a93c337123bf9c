import BlockEditor.Proofs.Handles
import BlockEditor.Proofs.Highlighting
import BlockEditor.Proofs.Nesting
import BlockEditor.Proofs.Rows
import BlockEditor.Proofs.Aborting

/-!
# Where aims lead

`Script.Aim.LeadsTo` states which list an aim stands for, and where in that list.  A replay puts the
pointer on a row for it, and the drop finds its place from the pointer.  In a workspace of fewer than
`2 ^ 18` blocks the two agree: what an accepted step drags lands where its aim leads, and the other
blocks of the list keep their order.
-/

namespace BlockEditor

/-! ### Lists -/

/-- The blocks of a list are placed. -/
theorem Forest.mem_walk_of_sequence? {t : Forest} {container : Container} {bs : List Block}
    (h : Forest.sequence? t container = some bs) {b : Block} (hb : b ∈ bs) :
  b ∈ Forest.walk t
  := by
  cases container with
  | root =>
    cases h
    apply Forest.mem_walk_of_mem hb
  | children id =>
    obtain ⟨holder, hfind, hchildren⟩ := Option.bind_eq_some_iff.mp h
    apply Forest.walk_subset (Forest.mem_walk_of_find? hfind)
    apply Block.walk_subset_of_mem (List.mem_append_left _ _) b.mem_walk_self
    rw [Block.childList, hchildren]
    apply hb
  | slot id slot => cases h

/-- When a place in a list is closed, the other blocks of the list are left. -/
theorem Context.sequence?_clear {C : Context} {b : Block} (hids : (Forest.ids (C.fill b)).Nodup)
    {container : Container} {before after : List Block}
    (hlocation : C.location = ⟨container, before.length⟩)
    (hsequence : Forest.sequence? (C.fill b) container = some (before ++ b :: after)) :
  Forest.sequence? C.clear container = some (before ++ after)
  := by
  cases C with
  | top s u =>
    rw [Context.location, Location.mk.injEq] at hlocation
    obtain ⟨rfl, hlength⟩ := hlocation
    obtain ⟨rfl, hrest⟩ := List.append_inj (Option.some.inj hsequence) hlength
    cases hrest
    rfl
  | inside C F =>
    rw [Context.location, Location.mk.injEq] at hlocation
    obtain ⟨rfl, hlength⟩ := hlocation
    cases F with
    | child face s u slots =>
      have hholder := Context.find?_holder hids
      have hearlier := (Context.notMem_of_nodup (C := C) hids (Block.id_mem_ids _)).1
      have hclear : Forest.find? face.id (C.fill ⟨face, some (s ++ u), slots⟩)
          = some ⟨face, some (s ++ u), slots⟩ :=
        Context.find?_fill_self (C := C) (b := ⟨face, some (s ++ u), slots⟩) hearlier
      rw [Frame.container, Forest.sequence?, Context.fill] at hsequence
      rw [Frame.face] at hholder
      rw [hholder] at hsequence
      obtain ⟨rfl, hrest⟩ := List.append_inj (Option.some.inj hsequence) hlength
      cases hrest
      rw [Frame.container, Forest.sequence?, Context.clear, Frame.clear, hclear]
      rfl
    | slot face children s u => cases hsequence

/-- The block is in the list of the container where the anchor says, and the other blocks of the list are
those of before, in their order. -/
def Forest.Lands (t t' : Forest) (b : Block) (container : Container) (anchor : Anchor) : Prop :=
  ∃ bs before after, Forest.sequence? t container = some bs
    ∧ Forest.sequence? t' container = some (before ++ b :: after) ∧ anchor.Marks after
    ∧ (before ++ after).map Block.id = (bs.map Block.id).filter (· ≠ b.id)

/-- What is left of a list when a block is carried away. -/
theorem Canvas.map_id_prune {c : Canvas} {carried : Carried} (hcan : c.CanBring carried)
    {bs : List Block} (hbs : ∀ b ∈ bs, b ∈ Forest.walk c.tree) :
  (Forest.prune carried.isFace bs).map Block.id
    = (bs.map Block.id).filter (· ≠ (c.brought carried).id)
  := by
  rw [Forest.map_id_prune, List.filter_map]
  apply congrArg (List.map Block.id)
  apply List.filter_congr
  intro b hb
  cases carried with
  | fresh template =>
    have hne : b.id ≠ (c.brought (.fresh template)).id := by
      rintro heq
      apply Canvas.id_brought_notMem hcan
      rw [← heq]
      apply List.mem_map_of_mem (hbs b hb)
    rw [Carried.isFace_fresh, Bool.not_false, Function.comp, decide_eq_true hne]
  | existing old =>
    rw [Carried.isFace_existing, Function.comp, decide_not]
    rfl

/-- An accepted drop into a list brings its block there, where the anchor says. -/
theorem Canvas.Drops.lands {c : Canvas} {palette : Palette} {source : Source} {carried : Carried}
    {container : Container} {anchor : Anchor} {outcome : Outcome} {t : Forest}
    (h : c.Drops palette source (.insert carried container anchor) outcome t)
    (ht : Forest.Valid c.tree) (hcan : c.CanBring carried)
    (hopen : Container.IsOpen c.tree carried.block? container) :
  ∃ b new, Forest.Brings c.tree palette source b new ∧ outcome = .inserted b.id container
    ∧ Forest.Lands c.tree t b container anchor
  := by
  have ht' : Forest.Valid t := h.valid ht fun carried' hcarried => by
    cases hcarried
    apply hcan
  cases h with
  | @insert _ _ _ before after C hcarry hclear hlocation hsequence hmarks =>
    obtain ⟨⟨bs, hbs⟩, houtside⟩ := hopen
    have hrest := Carried.sequence?_rest ht.nodup (Plan.isPlaced_of_carry hcarry) hbs houtside
    rw [← hclear, Context.sequence?_clear ht'.nodup hlocation hsequence, Option.some.injEq] at hrest
    refine ⟨c.brought carried, c.newIds carried, Canvas.brings_of_carry hcarry hcan, rfl, bs, before,
      after, hbs, hsequence, hmarks, ?_⟩
    rw [hrest]
    apply Canvas.map_id_prune hcan
    intro b hb
    apply Forest.mem_walk_of_sequence? hbs hb

namespace Script

/-! ### Aims -/

/-- The aim is a place in a list. -/
def Aim.isInList : Aim → Bool
  | .workspace => true
  | .into _ => true
  | .before _ => true
  | _ => false

/-- Where an aim in a list leads at a moment of a replay: the container, and the place in its list. -/
inductive Aim.LeadsTo (p : Moment) : Aim → Container → Anchor → Prop where
  /-- To the end of the top level. -/
  | workspace : LeadsTo p .workspace .root .last
  /-- To the end of the children of the nearest block that takes children, from the block that the
  handle names upwards, or of the top level if there is none. -/
  | into {handle : String} {v : Visit} (hnames : p.Names handle v.block.id)
      (hvisit : v ∈ Forest.visits [] p.editor.tree) :
      LeadsTo p (.into handle) (.nearest (fun a => a.kind.acceptsChildren) v.upward) .last
  /-- To the front of the block that the handle names, in the list that it is in. -/
  | before {handle : String} {b : Block} {container : Container} {bs : List Block}
      (hnames : p.Names handle b.id)
      (hsequence : Forest.sequence? p.editor.tree container = some bs) (hb : b ∈ bs) :
      LeadsTo p (.before handle) container (.before b.id)

/-- The plan puts what the source carries where the aim leads. -/
def Aim.IsMet (p : Moment) (palette : Palette) (source : Source) (aim : Aim) (plan : Plan) : Prop :=
  ∃ carried container anchor, plan = .insert carried container anchor
    ∧ Plan.carry p.editor.tree palette source = .ok carried
    ∧ Container.IsOpen p.editor.tree carried.block? container ∧ aim.LeadsTo p container anchor

/-- The target in front of a placed block is the list that it is in, with the pointer in front of it. -/
theorem aimBefore_eq_ok {e : Editor} (hids : (Forest.ids e.tree).Nodup)
    (hsize : Forest.size e.tree < 2 ^ 18) {handle id : String} {target : Target}
    (h : aimBefore e handle id = .ok target) :
  ∃ b pointer, b.id = id ∧ (stack e).pointerBefore? id = some pointer
    ∧ (b ∈ e.tree ∧ target = .workspace pointer
      ∨ ∃ holder, Forest.find? holder.id e.tree = some holder ∧ b ∈ holder.childList
        ∧ target = .block holder.id pointer)
  := by
  have hmem : id ∈ Forest.ids e.tree := by
    by_contra hgone
    rw [aimBefore, Forest.locate?_eq_none hgone] at h
    cases h
  obtain ⟨b, hb, rfl⟩ := List.mem_map.mp hmem
  obtain ⟨location, hlocate, hsits⟩ := Forest.exists_locate?_eq_some hids hb
  obtain ⟨i, hi⟩ := List.mem_iff_getElem?.mp hmem
  have hpointer := pointerBefore?_stack hids hsize hi
  rw [aimBefore, hlocate, hpointer, Option.getD_some] at h
  refine ⟨b, _, rfl, hpointer, ?_⟩
  cases hsits with
  | top hget =>
    cases h
    exact Or.inl ⟨List.mem_of_getElem? hget, rfl⟩
  | child hfind hget =>
    obtain rfl := Forest.id_of_find? hfind
    cases h
    exact Or.inr ⟨_, hfind, List.mem_of_getElem? hget, rfl⟩
  | slot hfind hslot => cases h

/-- The target in front of a block at the top level. -/
theorem aimTarget_before_root {e : Editor} {handles : Handles} {handle id : String} {index : Nat}
    (hget : handles.get? handle = some id) (hlocate : Forest.locate? id e.tree = some ⟨.root, index⟩) :
  aimTarget e handles (.before handle)
    = .ok (.workspace (((stack e).pointerBefore? id).getD (stack e).pointerBelowAll))
  := by
  have hbefore : aimTarget e handles (.before handle) = aimBefore e handle id := by
    rw [aimTarget, resolve_eq_ok_iff.mpr hget]
    rfl
  rw [hbefore, aimBefore, hlocate]

section

variable {p : Moment} (ht : Forest.Valid p.editor.tree) (hsize : Forest.size p.editor.tree < 2 ^ 18)
  {palette : Palette} {source : Source} {plan : Plan}

include ht hsize

/-- A drop below everything at the top level is planned for its end. -/
theorem isMet_workspace (h : Plan.ofGesture p.editor.tree palette (stack p.editor).layout source
      (.workspace (stack p.editor).pointerBelowAll) = .ok plan) :
  Aim.IsMet p palette source .workspace plan
  := by
  obtain ⟨carried, hcarry, hplan⟩ := exists_of_bind_eq_ok h
  cases hplan
  refine ⟨carried, .root, .last, ?_, hcarry, Container.isOpen_root _ _, .workspace⟩
  rw [Plan.ofInsert, ofPointer_belowAll ht.nodup hsize]

section

variable {handle id : String} (hnames : p.Names handle id)
  (houtside : ∀ carried, Plan.carry p.editor.tree palette source = .ok carried →
    ∀ c, carried.block? = some c → id ∉ c.ids)

include hnames houtside

/-- A drop over a block, below everything, is planned for the end of the list that it nests in. -/
theorem isMet_into (h : Plan.ofGesture p.editor.tree palette (stack p.editor).layout source
      (.block id (stack p.editor).pointerBelowAll) = .ok plan) :
  Aim.IsMet p palette source (.into handle) plan
  := by
  obtain ⟨carried, hcarry, hrest⟩ := exists_of_bind_eq_ok h
  obtain ⟨container, hnest, hplan⟩ := exists_of_bind_eq_ok hrest
  cases hplan
  have hcarried := (Plan.isPlaced_of_carry hcarry).find?
  have hopen := Plan.isOpen_of_nestContainer ht hcarried hnest
  obtain ⟨v, hvisit, rfl, rfl⟩ :=
    Plan.exists_visit_of_nestContainer ht hcarried (houtside carried hcarry) hnest
  refine ⟨carried, _, .last, ?_, hcarry, hopen, .into hnames hvisit⟩
  rw [Plan.ofInsert, ofPointer_belowAll ht.nodup hsize]

/-- A drop in front of a block is planned for the place in front of it, in the list that it is in. -/
theorem isMet_before {target : Target} (htarget : aimBefore p.editor handle id = .ok target)
    (h : Plan.ofGesture p.editor.tree palette (stack p.editor).layout source target = .ok plan) :
  Aim.IsMet p palette source (.before handle) plan
  := by
  obtain ⟨b, pointer, rfl, hpointer, hlist⟩ := aimBefore_eq_ok ht.nodup hsize htarget
  obtain ⟨carried, container, bs, hcarry, hopen, hsequence, hb, rfl⟩ : ∃ carried container bs,
      Plan.carry p.editor.tree palette source = .ok carried
        ∧ Container.IsOpen p.editor.tree carried.block? container
        ∧ Forest.sequence? p.editor.tree container = some bs ∧ b ∈ bs
        ∧ plan = Plan.ofInsert p.editor.tree carried container pointer (stack p.editor).layout := by
    rcases hlist with ⟨hb, rfl⟩ | ⟨holder, hfind, hb, rfl⟩
    · obtain ⟨carried, hcarry, hplan⟩ := exists_of_bind_eq_ok h
      cases hplan
      exact ⟨carried, .root, _, hcarry, Container.isOpen_root _ _, rfl, hb, rfl⟩
    · obtain ⟨carried, hcarry, hrest⟩ := exists_of_bind_eq_ok h
      obtain ⟨container, hnest, hplan⟩ := exists_of_bind_eq_ok hrest
      cases hplan
      have hcarried := (Plan.isPlaced_of_carry hcarry).find?
      have hopen := Plan.isOpen_of_nestContainer ht hcarried hnest
      rw [Plan.nestContainer_children ht hcarried hfind hb (houtside carried hcarry)] at hnest
      cases hnest
      refine ⟨carried, _, holder.childList, hcarry, hopen, ?_, hb, rfl⟩
      rw [Forest.sequence?, hfind, Option.bind_some, Block.children_eq_some hb]
  have hpalette := (ht.sound b (Forest.mem_walk_of_sequence? hsequence hb)).placed
  have hskip : carried.block?.map Block.id ≠ some b.id := by
    intro heq
    obtain ⟨c, hc, hid⟩ := Option.map_eq_some_iff.mp heq
    apply houtside carried hcarry c hc
    rw [← hid]
    apply c.id_mem_ids
  refine ⟨carried, container, .before b.id, ?_, hcarry, hopen, .before hnames hsequence hb⟩
  rw [Plan.ofInsert, hsequence, Option.getD_some,
    ofPointer_before ht.nodup hsize hb hpalette hskip hpointer]

end

end

/-- What a step drags at a moment of a replay. -/
inductive Step.Takes (p : Moment) : Step → Source → Prop where
  | place (template : String) (into : Aim) (handle : Option String) :
      Takes p (.place template into handle) (.palette template)
  | move {block id : String} (into : Aim) (hnames : p.Names block id) :
      Takes p (.move block into) (.workspace id)

/-- The block that the aim of the step names is no part of the block that the step moves. -/
def Step.AimsApart (step : Step) (p : Moment) : Prop :=
  ∀ aim handle id c, step.aim? = some aim → aim.handle? = some handle → p.Names handle id →
    step.Takes p (.workspace c.id) → Forest.find? c.id p.editor.tree = some c → id ∉ c.ids

section

variable {s : Script} {e : Editor} {p : Moment}

/-- A step with an aim drags something to the target that the aim stands for. -/
theorem exists_drag_of_aim? (hp : s.Passes e p) {step : Step} {aim : Aim}
    (haim : step.aim? = some aim) {done : Done} {e' : Editor}
    (hperform : perform p.editor p.report.handles step = (.ok done, e')) :
  ∃ source target, step.Takes p source ∧ aimTarget p.editor p.report.handles aim = .ok target
    ∧ Drags p.editor p.report.handles step source target
    ∧ dragDone p.editor source target = (done, e')
  := by
  cases step with
  | place template into handle =>
    cases haim
    obtain ⟨target, htarget, hdone⟩ := of_lookedUp_eq_ok hperform
    exact ⟨_, target, .place _ _ _, htarget, .place htarget, carriedOut_eq_iff.mp hdone⟩
  | move block into =>
    cases haim
    obtain ⟨id, hid, hrest⟩ := of_lookedUp_eq_ok hperform
    obtain ⟨target, htarget, hdone⟩ := of_lookedUp_eq_ok hrest
    have hnames := hp.get?_handles_iff.mp (resolve_eq_ok_iff.mp hid)
    exact ⟨_, target, .move _ hnames, htarget, .move hid htarget, carriedOut_eq_iff.mp hdone⟩
  | _ => cases haim

/-- A step that drags can be carried out. -/
theorem perform_of_drags {e : Editor} {handles : Handles} {step : Step} {source : Source}
    {target : Target} (h : Drags e handles step source target) {done : Done}
    (hdone : (dragDone e source target).1 = done) :
  perform e handles step = (.ok done, (dragDone e source target).2)
  := by
  rw [← hdone]
  cases h with
  | place haim => rw [perform, haim, lookedUp, carriedOut]
  | move hid haim => rw [perform, hid, haim, lookedUp, lookedUp, carriedOut]
  | delete hid => rw [perform, hid, lookedUp, carriedOut]

/-- A drag leads to the next moment of a replay. -/
theorem Passes.advances_drag (hp : s.Passes e p) {d : Deed} {source : Source} {target : Target}
    (hstep : s.steps[p.past.length]? = some d.step)
    (hdrags : Drags p.editor p.report.handles d.step source target)
    (hdone : (dragDone p.editor source target).1 = d.done) :
  s.Passes e (p.after d (dragDone p.editor source target).2)
  := hp.advances (.step hstep (perform_of_drags hdrags hdone))

/-- What is carried is placed only if it is the block that the source names. -/
theorem eq_workspace_of_carry {t : Forest} {palette : Palette} {source : Source} {carried : Carried}
    (hcarry : Plan.carry t palette source = .ok carried) {c : Block} (hc : carried.block? = some c) :
  source = .workspace c.id
  := by
  cases source with
  | palette id =>
    rw [Plan.carry] at hcarry
    split at hcarry
    · cases hcarry
      cases hc
    · cases hcarry
  | workspace id =>
    rw [Plan.carry] at hcarry
    split at hcarry
    · rename_i b hfind
      cases hcarry
      cases hc
      rw [Forest.id_of_find? hfind]
    · cases hcarry

/-- A plan for what a step drags puts it where the aim of the step leads. -/
theorem isMet_of_plan (hp : s.Passes e p) (ht : Forest.Valid p.editor.tree)
    (hsize : Forest.size p.editor.tree < 2 ^ 18) {step : Step} {aim : Aim}
    (haim : step.aim? = some aim) (hlist : aim.isInList = true) (hapart : step.AimsApart p)
    {source : Source} (htakes : step.Takes p source) {target : Target}
    (htarget : aimTarget p.editor p.report.handles aim = .ok target) {palette : Palette} {plan : Plan}
    (hplan : Plan.ofGesture p.editor.tree palette (stack p.editor).layout source target = .ok plan) :
  aim.IsMet p palette source plan
  := by
  have houtside : ∀ handle id, aim.handle? = some handle → p.Names handle id →
      ∀ carried, Plan.carry p.editor.tree palette source = .ok carried →
      ∀ c, carried.block? = some c → id ∉ c.ids := by
    intro handle id hhandle hnames carried hcarry c hc
    have hfind := (Plan.isPlaced_of_carry hcarry).find? c hc
    obtain rfl := eq_workspace_of_carry hcarry hc
    apply hapart aim handle id c haim hhandle hnames htakes hfind
  cases aim with
  | workspace =>
    cases htarget
    apply isMet_workspace ht hsize hplan
  | into handle =>
    obtain ⟨id, hid, hblock⟩ := exists_of_bind_eq_ok htarget
    cases hblock
    have hnames := hp.get?_handles_iff.mp (resolve_eq_ok_iff.mp hid)
    apply isMet_into ht hsize hnames (houtside handle id rfl hnames) hplan
  | before handle =>
    obtain ⟨id, hid, hbefore⟩ := exists_of_bind_eq_ok htarget
    have hnames := hp.get?_handles_iff.mp (resolve_eq_ok_iff.mp hid)
    apply isMet_before ht hsize hnames (houtside handle id rfl hnames) hbefore hplan
  | slot handle index => cases hlist
  | trash => cases hlist
  | outside => cases hlist

/-- What an accepted step drags to a list lands where its aim leads: last at the top level, last in the
list in which the block that it names nests, or directly in front of that block.  The block that the aim
names is no part of the one that is dragged, and there are fewer than `2 ^ 18` blocks. -/
theorem lands_where_aimed {catalog : Catalog} {registry : Registry} {clock : Clock}
    (h : Editor.Reaches (.new catalog registry clock) e) (hroom : s.HasRoom e) (hp : s.Passes e p)
    (hsize : Forest.size p.editor.tree < 2 ^ 18) {step : Step}
    (hstep : s.steps[p.past.length]? = some step) {aim : Aim} (haim : step.aim? = some aim)
    (hlist : aim.isInList = true) (hapart : step.AimsApart p) {outcome : Outcome} {e' : Editor}
    (hperform : perform p.editor p.report.handles step = (.ok (.ok (some outcome)), e')) :
  ∃ source b new container anchor, step.Takes p source
    ∧ Forest.Brings p.editor.tree p.editor.palette source b new ∧ aim.LeadsTo p container anchor
    ∧ outcome = .inserted b.id container ∧ Forest.Lands p.editor.tree e'.tree b container anchor
  := by
  have ht : Forest.Valid p.editor.tree := hp.valid hroom (h.valid Forest.valid_nil)
  obtain ⟨source, target, htakes, htarget, hdrags, hresult⟩ := exists_drag_of_aim? hp haim hperform
  have hdrop : (drag p.editor source target).1 = .ok outcome := by
    apply drag_of_dragDone
    rw [hresult]
  have he' : e' = (drag p.editor source target).2 := by
    rw [← dragDone_snd, hresult]
  let c := (p.editor.startDrag source).canvas
  rcases Canvas.drop_cases (c := c) ht p.editor.palette (stack p.editor).layout target with
    ⟨_, -, hrefused, -⟩ | ⟨source', plan, outcome', hgesture, hplan, -, hdone, hdrops⟩
  · cases hrefused.symm.trans hdrop
  · cases hdone.symm.trans hdrop
    cases hgesture
    obtain ⟨carried, container, anchor, rfl, hcarry, hopen, hleads⟩ :=
      isMet_of_plan hp ht hsize haim hlist hapart htakes htarget hplan
    have hcan : c.CanBring carried :=
      hp.hasRoom hroom hstep source target hdrags source _ carried rfl hplan rfl
    obtain ⟨b, new, hbrings, houtcome, hlands⟩ :=
      Canvas.Drops.lands (c := c.cancel) hdrops ht hcan hopen
    rw [he']
    exact ⟨source, b, new, container, anchor, htakes, hbrings, hleads, houtcome, hlands⟩

end

/-- The last step drags a block out of a loop and in front of it. -/
def outward : Script :=
  ⟨[], [], [
    .place "block-repeat" .workspace (some "loop"),
    .place "block-measure" (.into "loop") (some "measure"),
    .move "measure" (.before "loop")]⟩

theorem lands_where_aimed_outward :
  ∃ p e' b, outward.Passes (.standard (.fixed 1000)) p ∧ p.past.length = 2
    ∧ perform p.editor p.report.handles (.move "measure" (.before "loop"))
      = (.ok (.ok (some (.inserted "block-measure-1001" .root))), e')
    ∧ b.id = "block-measure-1001"
    ∧ Forest.Lands p.editor.tree e'.tree b .root (.before "block-repeat-1000")
  := by
  let e : Editor := .standard (.fixed 1000)
  have hroom : outward.HasRoom e := hasRoom_of_size_le Forest.valid_nil (by decide)
  have hp₀ : outward.Passes e (.first e) := ⟨e, e, rfl, rfl, .refl⟩
  let d₁ : Deed := ⟨.place "block-repeat" .workspace (some "loop"),
    .ok (some (.inserted "block-repeat-1000" .root))⟩
  let p₁ := (Moment.first e).after d₁
    (dragDone e (.palette "block-repeat") (.workspace (stack e).pointerBelowAll)).2
  have hp₁ : outward.Passes e p₁ := hp₀.advances_drag rfl (.place rfl) (by decide +kernel)
  let d₂ : Deed := ⟨.place "block-measure" (.into "loop") (some "measure"),
    .ok (some (.inserted "block-measure-1001" (.children "block-repeat-1000")))⟩
  have haim₂ : aimTarget p₁.editor p₁.report.handles (.into "loop")
      = .ok (.block "block-repeat-1000" (stack p₁.editor).pointerBelowAll) := rfl
  let p₂ := p₁.after d₂ (dragDone p₁.editor (.palette "block-measure")
    (.block "block-repeat-1000" (stack p₁.editor).pointerBelowAll)).2
  have hp₂ : outward.Passes e p₂ := hp₁.advances_drag rfl (.place haim₂) (by decide +kernel)
  let pointer := ((stack p₂.editor).pointerBefore? "block-repeat-1000").getD
    (stack p₂.editor).pointerBelowAll
  have hloop : p₂.report.handles.get? "loop" = some "block-repeat-1000" := rfl
  have hlocate : Forest.locate? "block-repeat-1000" p₂.editor.tree = some ⟨.root, 0⟩ := by
    decide +kernel
  have haim : aimTarget p₂.editor p₂.report.handles (.before "loop") = .ok (.workspace pointer) :=
    aimTarget_before_root hloop hlocate
  have hdone : (dragDone p₂.editor (.workspace "block-measure-1001") (.workspace pointer)).1
      = .ok (some (.inserted "block-measure-1001" .root)) := by decide +kernel
  have hperform : perform p₂.editor p₂.report.handles (.move "measure" (.before "loop"))
      = (.ok (.ok (some (.inserted "block-measure-1001" .root))),
        (dragDone p₂.editor (.workspace "block-measure-1001") (.workspace pointer)).2) :=
    perform_of_drags (.move rfl haim) hdone
  have hloop' : ∀ id, p₂.Names "loop" id → id = "block-repeat-1000" := by
    intro id hnames
    apply Option.some.inj (Eq.trans (hp₂.get?_handles_iff.mpr hnames).symm hloop)
  have hmeasure : (Forest.find? "block-measure-1001" p₂.editor.tree).map Block.ids
      = some ["block-measure-1001"] := by decide +kernel
  have hapart : Step.AimsApart (.move "measure" (.before "loop")) p₂ := by
    rintro _ _ id c ⟨⟩ ⟨⟩ hnames htakes hfind
    generalize hsource : Source.workspace c.id = source at htakes
    cases htakes with
    | move _ hnames' =>
      cases hsource
      have hid : "block-measure-1001" = c.id :=
        Option.some.inj (hp₂.get?_handles_iff.mpr hnames')
      rw [hid, hfind, Option.map_some, Option.some.injEq, ← hid] at hmeasure
      rw [hloop' id hnames, hmeasure]
      decide
  obtain ⟨source, b, new, container, anchor, -, -, hleads, houtcome, hlands⟩ :=
    lands_where_aimed Editor.Reaches.refl hroom hp₂ (by decide +kernel) rfl rfl rfl hapart hperform
  cases hleads with
  | before hnames _ _ =>
    rw [hloop' _ hnames] at hlands
    obtain ⟨hid, rfl⟩ := Outcome.inserted.inj houtcome
    exact ⟨p₂, _, b, hp₂, rfl, hperform, hid.symm, hlands⟩

end Script

end BlockEditor
