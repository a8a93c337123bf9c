import BlockEditor.Proofs.Decoding
import BlockEditor.Proofs.Scaling

/-!
# Records, tables and tagged records

What is written as an object is read back field by field.  A record is read exactly if all of its fields
are, so if none of them nests deeper than the record leaves room for.  A tagged record is kept before it is
read, and it can be kept if that holds of its fields, as it does of texts, words and records of these.
A table is read with its keys in the order that they are written in.
-/

namespace BlockEditor

/-! ### Depths -/

namespace Json

@[simp]
theorem depth_text (t : String) :
  (text t).depth = 0
  := rfl

@[simp]
theorem depth_bool (b : Bool) :
  (bool b).depth = 0
  := rfl

@[simp]
theorem depth_ofWord (w : UInt64) :
  (ofWord w).depth = 0
  := rfl

@[simp]
theorem depth_ofOption_text (t : Option String) :
  (ofOption text t).depth = 0
  := by
  cases t <;> rfl

@[simp]
theorem depth_ofOption_ofWord (w : Option UInt64) :
  (ofOption ofWord w).depth = 0
  := by
  cases w <;> rfl

/-- The members of a record nest as deep as the deepest of its fields. -/
theorem depthOfMembers_le_iff {fields : List (String × Json)} {n : Nat} :
  depthOfMembers (fields.map fun (key, value) => (some key, value)) ≤ n
    ↔ ∀ field ∈ fields, field.2.depth ≤ n
  := by
  induction fields with
  | nil => simp [depthOfMembers]
  | cons field fields ih =>
    rw [List.map_cons, depthOfMembers, Nat.max_le, ih, List.forall_mem_cons]

/-- A record is one step deeper than its fields. -/
theorem depth_record_le_iff {fields : List (String × Json)} {n : Nat} :
  (record fields).depth ≤ n + 1 ↔ ∀ field ∈ fields, field.2.depth ≤ n
  := by
  rw [record, depth, Nat.add_le_add_iff_right, depthOfMembers_le_iff]

theorem not_depth_record_le_zero (fields : List (String × Json)) :
  ¬ (record fields).depth ≤ 0
  := Nat.not_succ_le_zero _

/-- An array is one step deeper than its elements. -/
theorem depth_ofList_le_iff {α : Type} {f : α → Json} {as : List α} {n : Nat} :
  (ofList f as).depth ≤ n + 1 ↔ ∀ a ∈ as, (f a).depth ≤ n
  := by
  rw [ofList, depth, Nat.add_le_add_iff_right]
  induction as with
  | nil => simp [depthOfElements]
  | cons a as ih =>
    rw [List.map_cons, depthOfElements, Nat.max_le, ih, List.forall_mem_cons]

end Json

/-! ### Scalars, names and tables -/

/-- A bare word is a case without data. -/
theorem Choice.decoder_text (n : Nat) (name : String) :
  Choice.decoder n (.text name) = some ⟨name, none, n⟩
  := by
  cases n <;> rfl

namespace Decoder

variable {α β : Type}

/-- If the first of two values is read under one condition and the second one under another, then both are
read under both. -/
theorem bind_eq_ite {p q r : Prop} [Decidable p] [Decidable q] [Decidable r] {x : Option α}
    {k : α → Option β} {a : α} {b : β} (hx : x = if p then some a else none)
    (hk : k a = if q then some b else none) (hr : r ↔ p ∧ q) :
  x.bind k = if r then some b else none
  := by
  rw [hx]
  by_cases hp : p
  · rw [if_pos hp, Option.bind_some, hk]
    simp only [hr, hp, true_and]
  · rw [if_neg hp, Option.bind_none, if_neg]
    intro h
    apply hp (hr.mp h).1

theorem inverts_bool :
  Inverts bool Json.bool
  := by
  intro n b
  exact (if_pos (Nat.zero_le n)).symm

theorem inverts_word :
  Inverts word Json.ofWord
  := by
  intro n w
  rw [Json.depth_ofWord, if_pos (Nat.zero_le n), Json.ofWord, Json.ofNat, word, Numeral.toNat?_ofNat,
    Option.bind_some, if_pos w.toNat_lt_size, UInt64.ofNat_toNat]

/-- A value that is written as its name. -/
theorem inverts_name {name : α → String} {ofName? : String → Option α}
    (h : ∀ a, ofName? (name a) = some a) {d : Decoder α}
    (hd : ∀ n v, d n v = (Choice.decoder n v).bind fun choice =>
      (guard choice.isBare : Option Unit).bind fun _ => ofName? choice.name) :
  Inverts d fun a => .text (name a)
  := by
  intro n a
  rw [hd, Choice.decoder_text, Json.depth_text, if_pos (Nat.zero_le n), ← h a]
  rfl

end Decoder

/-- A new key goes to the end. -/
theorem Table.insertInto_of_notMem {α : Type} {key : String} {value : α} {es : List (String × α)}
    (h : key ∉ es.map Prod.fst) :
  insertInto key value es = es ++ [(key, value)]
  := by
  induction es with
  | nil => rfl
  | cons e es ih =>
    obtain ⟨hne, hes⟩ := not_or.mp (mt List.mem_cons.mpr h)
    rw [insertInto, if_neg (Ne.symm hne), ih hes, List.cons_append]

/-- The object with the values of a table under their keys, in order. -/
def Table.toJson {α : Type} (f : α → Json) (t : Table α) : Json :=
  .record (t.entries.map fun (key, a) => (key, f a))

namespace Decoder

variable {α : Type} {d : Decoder α} {f : α → Json}

/-- Members with new keys are put behind those that are in the table already. -/
theorem insertMembers_eq (h : Inverts d f) {n : Nat} {es : List (String × α)} {t whole : Table α}
    (hwhole : whole.entries = t.entries ++ es) :
  insertMembers d n t (es.map fun (key, a) => (some key, f a))
    = if ∀ e ∈ es, (f e.2).depth ≤ n then some whole else none
  := by
  induction es generalizing t with
  | nil =>
    obtain ⟨entries, hnodup⟩ := t
    obtain ⟨_, hnodup'⟩ := whole
    obtain rfl : _ = entries := by simpa using hwhole
    rw [if_pos nofun]
    rfl
  | cons e es ih =>
    obtain ⟨key, a⟩ := e
    have hkey : key ∉ t.entries.map Prod.fst := by
      have hnodup := whole.nodup_keys
      rw [hwhole, List.map_append, List.nodup_append] at hnodup
      intro hmem
      apply hnodup.2.2 key hmem key (List.mem_cons_self ..) rfl
    have hinsert : (t.insert key a).entries = t.entries ++ [(key, a)] :=
      Table.insertInto_of_notMem hkey
    have hrest : whole.entries = (t.insert key a).entries ++ es := by
      rw [hinsert, hwhole, List.append_assoc, List.singleton_append]
    exact bind_eq_ite (h n a) (ih hrest) List.forall_mem_cons

/-- Tables are read back from the objects they are written as.  The keys of a table differ, so none
overwrites another. -/
theorem Inverts.table (h : Inverts d f) :
  Inverts d.table (Table.toJson f)
  := by
  intro n t
  cases n with
  | zero => rfl
  | succ n =>
    have hmembers : insertMembers d n .empty (t.entries.map fun (key, a) => (some key, f a))
        = if ∀ e ∈ t.entries, (f e.2).depth ≤ n then some t else none :=
      insertMembers_eq h (List.nil_append _).symm
    have hdepth : (Table.toJson f t).depth ≤ n + 1 ↔ ∀ e ∈ t.entries, (f e.2).depth ≤ n := by
      rw [Table.toJson, Json.depth_record_le_iff]
      apply List.forall_mem_map
    simp only [hdepth]
    rw [Table.toJson, Json.record, List.map_map, Decoder.table]
    exact hmembers

end Decoder

/-! ### Records -/

namespace Record

variable {α β : Type}

/-- The next field of a record is read, and then the others. -/
theorem bind_field {name : String} {v : Json} {fields : List (String × Json)} {room : Nat}
    {x : Option α} {k : α → Option β} {a : α} {b : β}
    (hx : x = if v.depth ≤ room then some a else none)
    (hk : k a = if ∀ field ∈ fields, field.2.depth ≤ room then some b else none) :
  x.bind k = if ∀ field ∈ (name, v) :: fields, field.2.depth ≤ room then some b else none
  := Decoder.bind_eq_ite hx hk List.forall_mem_cons

/-- A record is read exactly if its fields are. -/
theorem bind_decoder {names : List String} {fields : List (String × Json)} {build : Record → Option α}
    {a : α} (hnames : ∀ name ∈ fields.map Prod.fst, name ∈ names)
    (hnodup : (fields.map Prod.fst).Nodup)
    (hbuild : ∀ room, build ⟨false, fields, room⟩
      = if ∀ field ∈ fields, field.2.depth ≤ room then some a else none) (n : Nat) :
  (decoder names n (.record fields)).bind build
    = if (Json.record fields).depth ≤ n then some a else none
  := by
  cases n with
  | zero =>
    rw [if_neg (Json.not_depth_record_le_zero fields)]
    rfl
  | succ room =>
    rw [decoder_record hnames hnodup, Option.bind_some, hbuild]
    simp only [Json.depth_record_le_iff]

end Record

/-! ### Values that are kept -/

namespace Json

/-- The value can be kept unless it nests too deep. -/
def Kept (v : Json) : Prop :=
  ∀ n, v.keepable n = decide (v.depth ≤ n)

theorem kept_text (t : String) :
  (text t).Kept
  := by
  intro n
  exact (decide_eq_true (Nat.zero_le n)).symm

theorem kept_ofOption_text (t : Option String) :
  (ofOption text t).Kept
  := by
  cases t with
  | none =>
    intro n
    exact (decide_eq_true (Nat.zero_le n)).symm
  | some t => apply kept_text

/-- A word is within the range of the numbers that are kept. -/
theorem kept_ofWord (w : UInt64) :
  (ofWord w).Kept
  := by
  intro n
  rw [depth_ofWord, decide_eq_true (Nat.zero_le n), ofWord, ofNat, keepable]
  apply Numeral.isSome_toDouble?_ofNat w.toNat_lt_size

/-- Members that are kept whole are only held to the depth. -/
theorem membersKeepable_eq {fields : List (String × Json)} (h : ∀ field ∈ fields, field.2.Kept)
    (n : Nat) :
  membersKeepable n (fields.map fun (key, value) => (some key, value))
    = decide (∀ field ∈ fields, field.2.depth ≤ n)
  := by
  induction fields with
  | nil => simp [membersKeepable]
  | cons field fields ih =>
    obtain ⟨hfield, hfields⟩ := List.forall_mem_cons.mp h
    rw [List.map_cons, membersKeepable, hfield n, ih hfields]
    simp only [Option.isSome_some, Bool.true_and, List.forall_mem_cons, Bool.decide_and]

/-- A record of fields that are kept is kept. -/
theorem kept_record {fields : List (String × Json)} (h : ∀ field ∈ fields, field.2.Kept) :
  (record fields).Kept
  := by
  intro n
  cases n with
  | zero =>
    rw [decide_eq_false (not_depth_record_le_zero fields)]
    rfl
  | succ n =>
    simp only [depth_record_le_iff]
    rw [record, keepable, Nat.add_sub_cancel, membersKeepable_eq h]
    rfl

end Json

/-! ### Tagged records -/

namespace Tagged

variable {α : Type}

/-- A tagged record is read exactly if its fields are, whatever its case does with them. -/
theorem bind_decoder {tag case : String} {fields : List (String × Json)} {build : Tagged → Option α}
    {a : α} (hkept : ∀ field ∈ fields, field.2.Kept) (htag : tag ∉ fields.map Prod.fst)
    (hbuild : ∀ room, (∀ field ∈ fields, field.2.depth ≤ room) →
      build ⟨case, .inr (fields.map fun (key, value) => (some key, value)), room⟩ = some a) (n : Nat) :
  (decoder tag n (.record ((tag, .text case) :: fields))).bind build
    = if (Json.record ((tag, .text case) :: fields)).depth ≤ n then some a else none
  := by
  cases n with
  | zero =>
    rw [if_neg (Json.not_depth_record_le_zero _)]
    rfl
  | succ room =>
    have hall : ∀ field ∈ (tag, Json.text case) :: fields, field.2.Kept :=
      List.forall_mem_cons.mpr ⟨Json.kept_text case, hkept⟩
    have htake : take? tag (((tag, Json.text case) :: fields).map fun (key, value) => (some key, value))
        = some (case, fields.map fun (key, value) => (some key, value)) := by
      rw [List.map_cons, Json.text, take?, if_pos rfl, if_neg]
      simpa using htag
    simp only [Json.depth_record_le_iff]
    rw [Json.record, decoder, Json.membersKeepable_eq hall, htake]
    by_cases hdepth : ∀ field ∈ (tag, Json.text case) :: fields, field.2.depth ≤ room
    · rw [if_pos hdepth, decide_eq_true hdepth, ← hbuild room (List.forall_mem_cons.mp hdepth).2]
      rfl
    · rw [if_neg hdepth, decide_eq_false hdepth]
      rfl

/-- A case with fields reads them as a record. -/
theorem bind_fields (names : List String) {tag case : String} {fields : List (String × Json)}
    {build : Tagged → Option α} {read : Record → Option α} {a : α}
    (hkept : ∀ field ∈ fields, field.2.Kept) (htag : tag ∉ fields.map Prod.fst)
    (hnames : ∀ name ∈ fields.map Prod.fst, name ∈ names) (hnodup : (fields.map Prod.fst).Nodup)
    (hbuild : ∀ content room, build ⟨case, content, room⟩
      = (record? ⟨case, content, room⟩ names).bind read)
    (hread : ∀ room, read ⟨false, fields, room⟩
      = if ∀ field ∈ fields, field.2.depth ≤ room then some a else none) (n : Nat) :
  (decoder tag n (.record ((tag, .text case) :: fields))).bind build
    = if (Json.record ((tag, .text case) :: fields)).depth ≤ n then some a else none
  := by
  apply bind_decoder hkept htag
  intro room hroom
  have hrecord : record? ⟨case, .inr (fields.map fun (key, value) => (some key, value)), room⟩ names
      = some ⟨false, fields, room⟩ := by
    simp only [record?, Record.ofMembers?, Record.select?_record hnames hnodup, Option.map_some]
  rw [hbuild, hrecord, Option.bind_some, hread, if_pos hroom]

end Tagged

end BlockEditor
