import BlockEditor.Proofs.Planning
import BlockEditor.Proofs.Scaling
import BlockEditor.Replay.Run

/-!
# The rows of a replay

Natural numbers with no more significant bits than a format has are in the format, and arithmetic on
them is exact.  In a workspace of fewer than `2 ^ 18` blocks this is so of all coordinates of the layout
of a replay: the row of each block is found under its id, a pointer below all rows anchors nothing, and
the pointer in front of a block anchors at that block, whichever other blocks it is listed with.
-/

namespace BlockEditor

/-! ### Exact arithmetic -/

namespace Binary

/-- A division without a remainder is not rounded. -/
theorem roundQuotient_mul (n : Nat) {den : Nat} (hden : 0 < den) :
  roundQuotient (n * den) den = n
  := by
  rw [roundQuotient, Nat.mul_div_cancel n hden, Nat.mul_mod_left]
  apply if_pos hden

/-- Nothing is rounded away from a number with few significant bits. -/
theorem roundUnits_eq_self {F : Format} {n : Nat} (hn : n < Nat.pow 2 F.precision) (shift : Nat)
    {den : Nat} (hden : 0 < den) :
  roundUnits F (n * Nat.pow 2 shift * den) den = n * Nat.pow 2 shift
  := by
  rw [roundUnits, Nat.mul_div_cancel _ hden]
  dsimp only
  split
  · apply roundQuotient_mul _ hden
  · rename_i hlarge
    have hne : n * Nat.pow 2 shift ≠ 0 := by
      intro hzero
      apply hlarge
      rw [hzero]
      apply Nat.pow_pos (by decide)
    -- The step between neighbours is a power of two no greater than the one in the number.
    have hlog : (n * Nat.pow 2 shift).log2 < F.precision + shift := by
      apply (Nat.log2_lt hne).mpr
      rw [Nat.pow_add]
      apply Nat.mul_lt_mul_of_pos_right hn (Nat.pow_pos (by decide))
    obtain ⟨k, hk⟩ : ∃ k, shift = k + ((n * Nat.pow 2 shift).log2 + 1 - F.precision) :=
      ⟨shift - ((n * Nat.pow 2 shift).log2 + 1 - F.precision), by omega⟩
    generalize (n * Nat.pow 2 shift).log2 + 1 - F.precision = bits at hk ⊢
    have hsplit : n * Nat.pow 2 shift = n * Nat.pow 2 k * Nat.pow 2 bits := by
      rw [hk, Nat.mul_assoc]
      apply congrArg (n * ·) (Nat.pow_add 2 k bits)
    have hstep : 0 < den * Nat.pow 2 bits := Nat.mul_pos hden (Nat.pow_pos (by decide))
    rw [hsplit, Nat.mul_assoc _ _ den, Nat.mul_comm _ den, roundQuotient_mul _ hstep]

/-- The natural number as a number of the format. -/
def whole (F : Format) (n : Nat) : Binary F :=
  .finite false (n * Nat.pow 2 F.scale)

section

variable {F : Format} (hrange : F.precision + F.scale ≤ F.ceiling)

include hrange

/-- A whole number of the precision is not rounded. -/
theorem ofUnits_whole {n : Nat} (hn : n < Nat.pow 2 F.precision) {den : Nat} (hden : 0 < den)
    (negative : Bool) :
  ofUnits F negative (n * Nat.pow 2 F.scale * den) den = .finite negative (n * Nat.pow 2 F.scale)
  := by
  rw [ofUnits, roundUnits_eq_self hn _ hden]
  apply if_pos
  calc n * Nat.pow 2 F.scale
      < 2 ^ F.precision * 2 ^ F.scale := Nat.mul_lt_mul_of_pos_right hn (Nat.pow_pos (by decide))
    _ = 2 ^ (F.precision + F.scale) := (Nat.pow_add 2 F.precision F.scale).symm
    _ ≤ 2 ^ F.ceiling := Nat.pow_le_pow_right (by decide) hrange

theorem ofNat_eq_whole {n : Nat} (hn : n < Nat.pow 2 F.precision) :
  ofNat n = whole F n
  := by
  have h := ofUnits_whole hrange hn Nat.one_pos false
  rw [Nat.mul_one] at h
  apply h

theorem add_whole {m n : Nat} (h : m + n < Nat.pow 2 F.precision) :
  (whole F m).add (whole F n) = whole F (m + n)
  := by
  have hsum := ofUnits_whole hrange h Nat.one_pos false
  rw [Nat.mul_one, Nat.add_mul] at hsum
  rw [whole, whole, add, if_pos rfl, hsum, whole, Nat.add_mul]

theorem mul_whole {m n : Nat} (h : m * n < Nat.pow 2 F.precision) :
  (whole F m).mul (whole F n) = whole F (m * n)
  := by
  have hproduct := ofUnits_whole hrange h (Nat.pow_pos (a := 2) (n := F.scale) (by decide)) false
  rw [whole, whole, mul, Nat.mul_mul_mul_comm, ← Nat.mul_assoc]
  apply hproduct

theorem divNat_whole {n d : Nat} (hn : n < Nat.pow 2 F.precision) (hd : 0 < d) :
  (whole F (n * d)).divNat d = whole F n
  := by
  rw [whole, divNat, Nat.mul_right_comm]
  apply ofUnits_whole hrange hn hd

/-- The difference from a greater number is negative. -/
theorem sub_whole_of_lt {m n : Nat} (hlt : m < n) (hn : n < Nat.pow 2 F.precision) :
  (whole F m).sub (whole F n) = .finite true ((n - m) * Nat.pow 2 F.scale)
  := by
  have hpos : 0 < Nat.pow 2 F.scale := Nat.pow_pos (by decide)
  have hunits := Nat.mul_lt_mul_of_pos_right hlt hpos
  have hdiff := ofUnits_whole hrange (Nat.lt_of_le_of_lt (Nat.sub_le n m) hn) Nat.one_pos true
  rw [Nat.mul_one, Nat.sub_mul] at hdiff
  rw [whole, whole, sub, neg, add, if_neg (by decide), if_neg (by omega), if_pos hunits,
    Nat.sub_mul]
  apply hdiff

theorem sub_whole_of_le {m n : Nat} (hle : n ≤ m) (hm : m < Nat.pow 2 F.precision) :
  (whole F m).sub (whole F n) = whole F (m - n)
  := by
  have hpos : 0 < Nat.pow 2 F.scale := Nat.pow_pos (by decide)
  rw [whole, whole, sub, neg, add, if_neg (by decide)]
  rcases Nat.eq_or_lt_of_le hle with rfl | hlt
  · rw [if_neg (Nat.lt_irrefl _), if_neg (Nat.lt_irrefl _), whole, Nat.sub_self, Nat.zero_mul]
    rfl
  · have hunits := Nat.mul_lt_mul_of_pos_right hlt hpos
    have hdiff := ofUnits_whole hrange (Nat.lt_of_le_of_lt (Nat.sub_le m n) hm) Nat.one_pos false
    rw [Nat.mul_one, Nat.sub_mul] at hdiff
    rw [if_pos hunits, whole, Nat.sub_mul]
    apply hdiff

end

end Binary

/-! ### Rows -/

/-- Single precision has the natural numbers below `2 ^ 24`. -/
theorem Format.lt_single {n : Nat} (h : n < 2 ^ 24) :
  n < Nat.pow 2 Format.single.precision
  := h

/-- In a table with different keys, a key is looked up to the value that it is listed with. -/
theorem lookup_eq_some_iff_mem {α : Type} {es : List (String × α)} (hkeys : (es.map Prod.fst).Nodup)
    {key : String} {value : α} :
  es.lookup key = some value ↔ (key, value) ∈ es
  := by
  rw [List.lookup_eq_some_iff]
  constructor
  · rintro ⟨before, after, rfl, -⟩
    apply List.mem_append_right _ (List.mem_cons_self ..)
  · intro hmem
    obtain ⟨before, after, rfl⟩ := List.append_of_mem hmem
    use before, after, rfl
    intro e he
    rw [List.map_append, List.nodup_append] at hkeys
    obtain ⟨-, -, hdisjoint⟩ := hkeys
    rw [bne_iff_ne]
    exact (hdisjoint e.1 (List.mem_map_of_mem he) key (by simp)).symm

theorem eraseDups_eq_self {xs : List String} (h : xs.Nodup) :
  xs.eraseDups = xs
  := by
  induction xs with
  | nil => rfl
  | cons x xs ih =>
    obtain ⟨hnot, hrest⟩ := List.nodup_cons.mp h
    have hfilter : (xs.filter fun y => !y == x) = xs := by
      apply List.filter_eq_self.mpr
      intro y hy
      simp [ne_of_mem_of_not_mem hy hnot]
    rw [List.eraseDups_cons, hfilter, ih hrest]

namespace Script

/-- The row of the block that a walk meets after `i` others. -/
def row (i : Nat) : Extent :=
  ⟨.whole _ (40 * i), .whole _ 40⟩

theorem rowHeight_eq :
  rowHeight = .whole _ 40
  := Binary.ofNat_eq_whole (by decide) (by decide)

/-- The middle of a row is exact. -/
theorem middle_row {i : Nat} (h : i < 2 ^ 18) :
  (row i).middle = .whole _ (40 * i + 20)
  := by
  have hhalf : (Binary.whole Format.single (20 * 2)).divNat 2 = .whole _ 20 :=
    Binary.divNat_whole (by decide) (by decide) (by decide)
  rw [Extent.middle, row, hhalf]
  apply Binary.add_whole (by decide) (Format.lt_single (by omega))

/-- The tops of rows are exact. -/
theorem rowsFrom_whole (ids : List String) :
  ∀ first, first + ids.length < 2 ^ 18 →
    Stack.rowsFrom rowHeight (.whole _ (40 * first)) ids
      = (ids.zipIdx first).map fun (id, i) => (id, row i)
  := by
  induction ids with
  | nil =>
    intro first _
    rfl
  | cons id ids ih =>
    intro first h
    rw [List.length_cons] at h
    have hnext : (Binary.whole Format.single (40 * first)).add (.whole _ 40)
        = .whole _ (40 * (first + 1)) :=
      Binary.add_whole (by decide) (Format.lt_single (by omega))
    have hrest := ih (first + 1) (by omega)
    rw [rowHeight_eq] at hrest ⊢
    rw [Stack.rowsFrom, hnext, hrest, List.zipIdx_cons, List.map_cons]
    rfl

section

variable {e : Editor} (hids : (Forest.ids e.tree).Nodup) (hsize : Forest.size e.tree < 2 ^ 18)

theorem rowHeight_stack (e : Editor) :
  (stack e).rowHeight = .whole _ 40
  := by
  rw [stack, Stack.ofForest, rowHeight_eq]

include hsize

/-- The rows follow one another in the order of the walk. -/
theorem rows_stack :
  (stack e).rows = (Forest.ids e.tree).zipIdx.map fun (id, i) => (id, row i)
  := by
  have hzero : (Binary.zero : Single) = .whole _ (40 * 0) := by
    rw [Binary.whole, Nat.mul_zero, Nat.zero_mul]
    rfl
  rw [stack, Stack.ofForest, hzero]
  apply rowsFrom_whole
  rw [Forest.length_ids, Nat.zero_add]
  apply hsize

theorem map_fst_rows_stack :
  (stack e).rows.map Prod.fst = Forest.ids e.tree
  := by
  rw [rows_stack hsize, List.map_map]
  apply List.zipIdx_map_fst

theorem lt_of_getElem?_ids {id : String} {i : Nat} (h : (Forest.ids e.tree)[i]? = some id) :
  i < 2 ^ 18
  := by
  obtain ⟨hlt, -⟩ := List.getElem?_eq_some_iff.mp h
  rw [Forest.length_ids] at hlt
  omega

include hids

/-- Every block has the row of its position in the walk, and no other id has one. -/
theorem layout_stack_iff {id : String} {extent : Extent} :
  (stack e).layout id = some extent
    ↔ ∃ i, (Forest.ids e.tree)[i]? = some id ∧ row i = extent
  := by
  have hkeys : ((stack e).rows.reverse.map Prod.fst).Nodup := by
    rw [List.map_reverse, List.nodup_reverse, map_fst_rows_stack hsize]
    apply hids
  rw [Stack.layout, Layout.ofList, lookup_eq_some_iff_mem hkeys, List.mem_reverse,
    rows_stack hsize, List.mem_map]
  constructor
  · rintro ⟨⟨id', i⟩, hmem, heq⟩
    cases heq
    use i, List.mk_mem_zipIdx_iff_getElem?.mp hmem
  · rintro ⟨i, hget, rfl⟩
    use (id, i), List.mk_mem_zipIdx_iff_getElem?.mpr hget

/-- The pointer in front of a block is a quarter of a row below the top of its row. -/
theorem pointerBefore?_stack {id : String} {i : Nat} (h : (Forest.ids e.tree)[i]? = some id) :
  (stack e).pointerBefore? id = some (.whole _ (40 * i + 10))
  := by
  have hlt := lt_of_getElem?_ids hsize h
  have hlayout := (layout_stack_iff hids hsize).mpr ⟨i, h, rfl⟩
  have hquarter : (Binary.whole Format.single (10 * 4)).divNat 4 = .whole _ 10 :=
    Binary.divNat_whole (by decide) (by decide) (by decide)
  rw [Stack.pointerBefore?, hlayout, Option.map_some, rowHeight_stack, row, hquarter]
  apply congrArg some (Binary.add_whole (by decide) (Format.lt_single (by omega)))

/-- The pointer below all rows is as many rows down as there are blocks. -/
theorem pointerBelowAll_stack :
  (stack e).pointerBelowAll = .whole _ (40 * Forest.size e.tree)
  := by
  have hcount : ((stack e).rows.map Prod.fst).eraseDups.length = Forest.size e.tree := by
    rw [map_fst_rows_stack hsize, eraseDups_eq_self hids, Forest.length_ids]
  have hofNat : Binary.ofNat (Forest.size e.tree) = .whole Format.single (Forest.size e.tree) :=
    Binary.ofNat_eq_whole (by decide) (Format.lt_single (by omega))
  rw [Stack.pointerBelowAll, hcount, hofNat, rowHeight_stack, Nat.mul_comm]
  apply Binary.mul_whole (by decide) (Format.lt_single (by omega))

end

end Script

/-! ### Anchors -/

namespace Script

/-- A row is below a pointer if its middle is. -/
theorem distanceBelow?_row {m i : Nat} (hm : m < 2 ^ 24) (hi : i < 2 ^ 18) :
  Anchor.distanceBelow? (.whole _ m) (row i)
    = if m < 40 * i + 20 then some ((40 * i + 20 - m) * Nat.pow 2 Format.single.scale) else none
  := by
  have hmiddle := Format.lt_single (n := 40 * i + 20) (by omega)
  rw [Anchor.distanceBelow?, middle_row hi]
  by_cases hlt : m < 40 * i + 20
  · have hpos : (40 * i + 20 - m) * Nat.pow 2 Format.single.scale ≠ 0 := by
      apply Nat.mul_ne_zero (by omega)
      apply Nat.ne_of_gt (Nat.pow_pos (by decide))
    rw [Binary.sub_whole_of_lt (by decide) hlt hmiddle, if_pos hlt]
    dsimp only
    rw [if_neg hpos]
  · rw [Binary.sub_whole_of_le (by decide) (Nat.not_lt.mp hlt) (Format.lt_single hm), if_neg hlt]
    rfl

section

variable {e : Editor} (hids : (Forest.ids e.tree).Nodup) (hsize : Forest.size e.tree < 2 ^ 18)

include hids hsize

/-- The candidates for a pointer are the blocks whose middle is below it, at exact distances. -/
theorem candidate?_stack_iff {m : Nat} (hm : m < 2 ^ 24) {skip : Option String} {b : Block}
    {c : String × Nat} :
  Anchor.candidate? (stack e).layout (.whole _ m) skip b = some c
    ↔ (b.palette = false ∧ skip ≠ some b.id) ∧ ∃ i, (Forest.ids e.tree)[i]? = some b.id
      ∧ m < 40 * i + 20 ∧ c = (b.id, (40 * i + 20 - m) * Nat.pow 2 Format.single.scale)
  := by
  rw [Anchor.candidate?]
  constructor
  · intro hc
    split at hc
    · cases hc
    · rename_i hskip
      split at hc
      · rename_i extent hlayout
        obtain ⟨i, hget, rfl⟩ := (layout_stack_iff hids hsize).mp hlayout
        rw [distanceBelow?_row hm (lt_of_getElem?_ids hsize hget)] at hc
        split at hc
        · rename_i hlt
          cases hc
          exact ⟨by simpa using hskip, i, hget, hlt, rfl⟩
        · cases hc
      · cases hc
  · rintro ⟨⟨hpalette, hskip⟩, i, hget, hlt, rfl⟩
    have hlayout := (layout_stack_iff hids hsize).mpr ⟨i, hget, rfl⟩
    rw [if_neg (by simp [hpalette, hskip]), hlayout]
    dsimp only
    rw [distanceBelow?_row hm (lt_of_getElem?_ids hsize hget), if_pos hlt, Option.map_some]

/-- Nothing is below a pointer below all rows. -/
theorem ofPointer_belowAll (bs : List Block) (skip : Option String) :
  Anchor.ofPointer bs (stack e).pointerBelowAll (stack e).layout skip = .last
  := by
  have hm : 40 * Forest.size e.tree < 2 ^ 24 := by omega
  have hnone : bs.filterMap (Anchor.candidate? (stack e).layout
      (.whole _ (40 * Forest.size e.tree)) skip) = [] := by
    apply List.filterMap_eq_nil_iff.mpr
    intro b _
    rw [Option.eq_none_iff_forall_ne_some]
    intro c hc
    obtain ⟨-, i, hget, hlt, -⟩ := (candidate?_stack_iff hids hsize hm).mp hc
    obtain ⟨hi, -⟩ := List.getElem?_eq_some_iff.mp hget
    rw [Forest.length_ids] at hi
    omega
  rw [pointerBelowAll_stack hids hsize, Anchor.ofPointer, hnone]
  rfl

/-- The pointer in front of a block anchors at that block, in every list that it is in. -/
theorem ofPointer_before {bs : List Block} {b : Block} (hb : b ∈ bs) (hpalette : b.palette = false)
    {skip : Option String} (hskip : skip ≠ some b.id) {pointer : Single}
    (hpointer : (stack e).pointerBefore? b.id = some pointer) :
  Anchor.ofPointer bs pointer (stack e).layout skip = .before b.id
  := by
  obtain ⟨extent, hlayout, -⟩ := Option.map_eq_some_iff.mp hpointer
  obtain ⟨i, hget, -⟩ := (layout_stack_iff hids hsize).mp hlayout
  have hi := lt_of_getElem?_ids hsize hget
  have hm : 40 * i + 10 < 2 ^ 24 := by omega
  obtain rfl : Binary.whole Format.single (40 * i + 10) = pointer := by
    rw [pointerBefore?_stack hids hsize hget] at hpointer
    apply Option.some.inj hpointer
  -- The middle of the block is ten further down than the pointer, other middles below it fifty or more.
  have hnearest : Anchor.nearest? (bs.filterMap
      (Anchor.candidate? (stack e).layout (.whole _ (40 * i + 10)) skip))
      = some (b.id, 10 * Nat.pow 2 Format.single.scale) := by
    apply Anchor.nearest?_eq_some
    · apply List.mem_filterMap.mpr
      use b, hb
      apply (candidate?_stack_iff hids hsize hm).mpr
      refine ⟨⟨hpalette, hskip⟩, i, hget, by omega, ?_⟩
      rw [Nat.add_sub_add_left]
    · intro d hd
      obtain ⟨c, -, hc⟩ := List.mem_filterMap.mp hd
      obtain ⟨-, j, hget', hlt, rfl⟩ := (candidate?_stack_iff hids hsize hm).mp hc
      rcases Nat.lt_trichotomy i j with hlt' | rfl | hlt'
      · right
        apply Nat.mul_lt_mul_of_pos_right _ (Nat.pow_pos (by decide))
        omega
      · left
        rw [Option.some.inj (hget'.symm.trans hget), Nat.add_sub_add_left]
      · omega
  rw [Anchor.ofPointer, hnearest]
  rfl

end

end Script

end BlockEditor
