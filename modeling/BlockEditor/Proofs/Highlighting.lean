import BlockEditor.Proofs.Binding
import BlockEditor.Proofs.Issues

/-!
# Highlighting blocks

Messages from the executor, and the issues that a check finds, name blocks by their ids.  In a valid
workspace `locate?` leads from the id of a placed block to the place where that block sits, and the
ids in a program are those of placed blocks but for the synthetic ones, which lead nowhere.
-/

namespace BlockEditor

/-! ### The place of a block -/

/-- The block sits at the location: in that position of a list, or in that slot of its holder. -/
inductive Forest.Sits (t : Forest) (b : Block) : Location → Prop where
  | top {index : Nat} (hb : t[index]? = some b) : Sits t b ⟨.root, index⟩
  | child {id : String} {holder : Block} {index : Nat} (hfind : Forest.find? id t = some holder)
      (hb : holder.childList[index]? = some b) : Sits t b ⟨.children id, index⟩
  | slot {id : String} {holder : Block} {slot : Nat} (hfind : Forest.find? id t = some holder)
      (hb : holder.slots[slot]? = some (.block b)) : Sits t b ⟨.slot id slot, 0⟩

/-- A block in a place sits there. -/
theorem Context.sits_fill {C : Context} {b : Block} (hids : (Forest.ids (C.fill b)).Nodup) :
  Forest.Sits (C.fill b) b C.location
  := by
  cases C with
  | top before after =>
    apply Forest.Sits.top
    simp [Context.fill]
  | inside C F =>
    have hholder := Context.find?_holder hids
    cases F with
    | child face before after slots =>
      apply Forest.Sits.child hholder
      simp [Frame.fill, Frame.index, Block.childList]
    | slot face children before after =>
      apply Forest.Sits.slot hholder
      simp [Frame.fill]

/-- Where all ids are different, `locate?` leads to the place of every block. -/
theorem Forest.exists_locate?_eq_some {t : Forest} (hids : (Forest.ids t).Nodup) {b : Block}
    (hb : b ∈ Forest.walk t) :
  ∃ location, Forest.locate? b.id t = some location ∧ Forest.Sits t b location
  := by
  obtain ⟨C, rfl, -, -⟩ := Forest.exists_fill (Forest.find?_of_mem_walk hids hb)
  obtain ⟨hearlier, hlater⟩ := Context.notMem_of_nodup hids b.id_mem_ids
  use C.location
  constructor
  · apply Context.locate?_fill_self hearlier hlater
  · apply Context.sits_fill hids

/-- Where all ids are different, `locate?` leads from the block in a slot to that slot. -/
theorem Forest.locate?_of_slot {t : Forest} (hids : (Forest.ids t).Nodup) {holder b : Block}
    (hholder : holder ∈ Forest.walk t) {slot : Nat} (hslot : holder.slots[slot]? = some (.block b)) :
  Forest.locate? b.id t = some ⟨.slot holder.id slot, 0⟩
  := by
  obtain ⟨C, face, children, before, after, rfl, rfl, rfl, -⟩ :=
    Forest.exists_fill_of_slot (Forest.find?_of_mem_walk hids hholder) hslot
  obtain ⟨hearlier, hlater⟩ :=
    Context.notMem_of_nodup (C := C.inside (.slot face children before after)) hids b.id_mem_ids
  apply Context.locate?_fill_self hearlier hlater

/-! ### Messages -/

/-- The block is the only one with the id, and messages that name the id lead to its place. -/
structure Editor.Highlights (e : Editor) (id : String) (b : Block) : Prop where
  only : ((Forest.walk e.tree).filter fun c => c.id = id) = [b]
  place : ∃ location, Forest.Sits e.tree b location ∧ ∀ error code,
    e.locateFeedback? (.executionError error (some id) code) = some location

theorem Editor.exists_highlights {e : Editor} (hids : (Forest.ids e.tree).Nodup) {id : String}
    (h : id ∈ Forest.ids e.tree) :
  ∃ b, e.Highlights id b
  := by
  obtain ⟨b, hb, rfl⟩ := List.mem_map.mp h
  obtain ⟨location, hlocate, hsits⟩ := Forest.exists_locate?_eq_some hids hb
  use b
  constructor
  · apply filter_key_of_mem hids hb
  · use location, hsits
    intro error code
    apply hlocate

/-! ### Ids in programs -/

section

variable {r : Registry} {now : UInt64} {t : Forest}

theorem Program.id_mem_ids {n : Node} (hn : n ∈ Program.walk (Program.ofForest r now t)) :
  n.id ∈ Forest.ids t
  := by
  have hid : n.id ∈ (Program.walk (Program.ofForest r now t)).map Node.id := List.mem_map_of_mem hn
  rw [Program.map_id_walk] at hid
  apply ((Forest.shown_sublist t).map Block.id).subset hid

/-- The ids of the variables of a program are synthetic, or those of placed blocks. -/
theorem Program.isSynthetic_or_mem_ids {n : Node}
    (hn : n ∈ Program.walk (Program.ofForest r now t)) {v : Variable} (hv : v ∈ n.vars) :
  v.isSynthetic = true ∨ v.id ∈ Forest.ids t
  := by
  obtain ⟨b, hb, hwritten⟩ := (exists_of_forall₂ (Program.forall₂_writtenFor r now t)).1 n hn
  apply (hwritten.isSynthetic_or_mem (fun k hk => Program.isName_nameAt hk) v hv).imp_right
  intro hid
  have hwalk := Forest.walk_subset ((Forest.shown_sublist t).subset hb)
  apply List.map_subset Block.id hwalk
  obtain ⟨face, children, slots⟩ := b
  rw [← Block.ids, Block.ids_mk]
  apply List.mem_cons_of_mem _ (List.mem_append_right _ hid)

end

/-- All blocks that a program and its check name can be highlighted: messages about the nodes, the
bound variables and the issues lead to the places of the only blocks with these ids.  Messages about
synthetic variables lead nowhere. -/
theorem Editor.highlights_named {catalog : Catalog} {registry : Registry} {clock : Clock} {e : Editor}
    (h : Editor.Reaches (.new catalog registry clock) e) :
  (∀ n ∈ Program.walk e.program, (∃ b, e.Highlights n.id b)
      ∧ ∀ v ∈ n.vars,
        (v.isSynthetic = false → ∃ b, e.Highlights v.id b)
        ∧ (v.isSynthetic = true → ∀ error code,
          e.locateFeedback? (.executionError error (some v.id) code) = none))
    ∧ ∀ issue ∈ e.preflight, ∃ b, e.Highlights issue.about b
  := by
  have hids := (h.valid Forest.valid_nil).nodup
  constructor
  · intro n hn
    use Editor.exists_highlights hids (Program.id_mem_ids hn)
    intro v hv
    constructor
    · intro hbound
      rcases Program.isSynthetic_or_mem_ids hn hv with hsynthetic | hid
      · rw [hbound] at hsynthetic
        contradiction
      · apply Editor.exists_highlights hids hid
    · intro hsynthetic error code
      apply Forest.locate?_eq_none
      intro hid
      have hplain := h.isName_eq_false v.id hid
      rw [Variable.isSynthetic, hplain] at hsynthetic
      contradiction
  · intro issue hissue
    obtain ⟨n, hn, habout⟩ := Program.exists_about_of_mem_check hissue
    rw [habout]
    apply Editor.exists_highlights hids (Program.id_mem_ids hn)

/-- Messages about a loop and about the variable in its slot. -/
theorem Editor.highlights_named_repeat :
  ∃ e holder v, Editor.Reaches (.new .stock .standard (.fixed 0)) e ∧ e.tree = [holder]
    ∧ holder.slots = [.block v] ∧ e.Highlights holder.id holder ∧ e.Highlights v.id v
  := by
  have hrepeat := Editor.reaches_drop .stock .standard (.fixed 0) (.palette "block-repeat") .hidden
    (.workspace .zero)
  have hname := hrepeat.perform (.addVariable "speed") trivial
  have hdrop := hname.drag (.palette "block-get-speed-pos") .hidden (.slot "block-repeat-0" 0)
    (by decide)
  obtain ⟨hnodes, -⟩ := Editor.highlights_named hdrop
  obtain ⟨⟨b, hb⟩, hvars⟩ := hnodes _ (List.mem_cons_self ..)
  obtain ⟨c, hc⟩ := (hvars _ (List.mem_cons_self ..)).1 rfl
  refine ⟨_, _, _, hdrop, rfl, rfl, ?_, ?_⟩
  · cases hb.only
    apply hb
  · cases hc.only
    apply hc

end BlockEditor
