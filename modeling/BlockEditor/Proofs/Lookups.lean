import BlockEditor.Proofs.Detaching
import BlockEditor.Proofs.Holders

/-!
# Looking blocks up

The searches of a workspace and the walk tell the same blocks, also where ids are repeated: `find?` and
`update?` are about the first block of the walk with an id, `locate?` and `contains` succeed for the same
ids, and the sizes count the blocks of the walk.  Where all ids are different, the block at the place that
`locate?` tells is the one that `find?` returns.
-/

namespace BlockEditor

variable {id : String} {t : Forest}

/-- `locate?` tells a place for every id of the workspace, and for no other. -/
theorem Forest.isSome_locate?_iff :
  (Forest.locate? id t).isSome = true ↔ id ∈ Forest.ids t
  := by
  constructor
  · intro h
    by_contra hid
    rw [Forest.locate?_eq_none hid] at h
    contradiction
  · intro hid
    obtain ⟨b, hb, rfl⟩ := List.mem_map.mp hid
    obtain ⟨s, u, hwalk⟩ := List.append_of_mem hb
    rcases Forest.exists_holder_of_walk_eq hwalk with hb | ⟨a, ha, hheld⟩
    · obtain ⟨index, hindex⟩ := Forest.exists_locate?_root (List.mem_map_of_mem hb)
      rw [hindex]
      rfl
    · have hholds : a.holds b.id = true := Block.holds_iff.mpr ⟨b, hheld, rfl⟩
      rw [Forest.locate?_eq_walk, Option.isSome_or, List.isSome_findSome?, Bool.or_eq_true]
      apply Or.inr
      apply List.any_eq_true.mpr
      refine ⟨a, ?_, ?_⟩
      · rw [hwalk]
        apply List.mem_append_left _ ha
      · rw [Block.isSome_locateHeld?, hholds]

theorem Forest.isSome_find?_iff :
  (Forest.find? id t).isSome = true ↔ id ∈ Forest.ids t
  := by
  rw [Option.isSome_iff_ne_none, ne_eq, Forest.find?_eq_none_iff, not_not]

/-- The ids of the workspace are those that the blocks at the top level contain. -/
theorem Forest.exists_contains_iff :
  (∃ b ∈ t, b.contains id = true) ↔ id ∈ Forest.ids t
  := by
  rw [← Forest.contains_iff]
  induction t with
  | nil => simp [Forest.contains]
  | cons b bs ih =>
    rw [Forest.contains, Bool.or_eq_true, ← ih]
    apply List.exists_mem_cons_iff

/-- At most one block sits at a location. -/
theorem Forest.Sits.unique {b c : Block} {location : Location} (hb : Forest.Sits t b location)
    (hc : Forest.Sits t c location) :
  b = c
  := by
  cases hb with
  | top hb =>
    cases hc with
    | top hc => exact Option.some.inj (hb.symm.trans hc)
  | child hfind hb =>
    cases hc with
    | child hfind' hc =>
      cases Option.some.inj (hfind.symm.trans hfind')
      exact Option.some.inj (hb.symm.trans hc)
  | slot hfind hb =>
    cases hc with
    | slot hfind' hc =>
      cases Option.some.inj (hfind.symm.trans hfind')
      cases Option.some.inj (hb.symm.trans hc)
      rfl

/-- Where all ids are different, the block at the place that `locate?` tells is the one that `find?`
returns. -/
theorem Forest.sits_locate?_iff (hids : (Forest.ids t).Nodup) {location : Location}
    (h : Forest.locate? id t = some location) (b : Block) :
  Forest.Sits t b location ↔ Forest.find? id t = some b
  := by
  have hid : id ∈ Forest.ids t := by
    apply Forest.isSome_locate?_iff.mp
    rw [h]
    rfl
  obtain ⟨c, hc, rfl⟩ := List.mem_map.mp hid
  obtain ⟨location', hlocate, hsits⟩ := Forest.exists_locate?_eq_some hids hc
  cases Option.some.inj (h.symm.trans hlocate)
  rw [Forest.find?_of_mem_walk hids hc, Option.some.injEq]
  constructor
  · apply hsits.unique
  · rintro rfl
    apply hsits

/-- All look-ups see the same workspace, whatever ids are repeated.  `find?` returns the first block of the
walk with the id, and `update?` changes the block in its place and nothing around it.  `find?`, `locate?`
and the test whether a block at the top level contains the id succeed alike, and the sizes count the blocks
that a walk meets.  Where all ids are different, the block at the place that `locate?` tells is the one
that `find?` returns. -/
theorem Forest.lookups_agree (t : Forest) (id : String) :
  Forest.find? id t = (Forest.walk t).find? (fun b => b.id = id)
    ∧ (∀ b, Forest.find? id t = some b → ∃ C : Context, t = C.fill b ∧ id ∉ C.earlier
      ∧ ∀ f, Forest.update? id f t = some (C.fill (f b)))
    ∧ (Forest.find? id t = none → ∀ f, Forest.update? id f t = none)
    ∧ ((Forest.locate? id t).isSome = true ↔ (Forest.find? id t).isSome = true)
    ∧ ((∃ b ∈ t, b.contains id = true) ↔ (Forest.find? id t).isSome = true)
    ∧ Forest.size t = (Forest.walk t).length
    ∧ (∀ b : Block, b.size = b.walk.length)
    ∧ ((Forest.ids t).Nodup → ∀ location, Forest.locate? id t = some location →
      ∀ b, Forest.Sits t b location ↔ Forest.find? id t = some b)
  := by
  refine ⟨Forest.find?_eq_walk id t, ?_, ?_, ?_, ?_, (Forest.length_walk t).symm,
    fun b => b.length_walk.symm, fun hids _ h b => Forest.sits_locate?_iff hids h b⟩
  · intro b hb
    obtain ⟨C, rfl, rfl, hearlier⟩ := Forest.exists_fill hb
    use C, rfl, hearlier
    apply Context.update?_fill_self hearlier
  · intro h f
    apply Forest.update?_eq_none (Forest.find?_eq_none_iff.mp h)
  · rw [Forest.isSome_locate?_iff, Forest.isSome_find?_iff]
  · rw [Forest.exists_contains_iff, Forest.isSome_find?_iff]

/-- The variable in the slot of the loop is found where it is located, and changed there. -/
theorem Forest.lookups_agree_count :
  (Forest.ids Forest.loop).Nodup
    ∧ ∃ b, Forest.find? "count" Forest.loop = some b ∧ Forest.Sits Forest.loop b ⟨.slot "loop" 0, 0⟩
      ∧ ∃ C : Context, Forest.loop = C.fill b
        ∧ ∀ f, Forest.update? "count" f Forest.loop = some (C.fill (f b))
  := by
  have hids : (Forest.ids Forest.loop).Nodup := by decide
  have hlocate : Forest.locate? "count" Forest.loop = some ⟨.slot "loop" 0, 0⟩ := by decide
  obtain ⟨-, hupdate, -, hsome, -, -, -, hsits⟩ := Forest.lookups_agree Forest.loop "count"
  obtain ⟨b, hb⟩ := Option.isSome_iff_exists.mp (hsome.mp (Option.isSome_of_eq_some hlocate))
  obtain ⟨C, hC, -, hfill⟩ := hupdate b hb
  exact ⟨hids, b, hb, (hsits hids _ hlocate b).mpr hb, C, hC, hfill⟩

end BlockEditor
