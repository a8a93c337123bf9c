import BlockEditor.Json.Decoder
import BlockEditor.Program.Node
import Mathlib.Data.List.Nodup
import Mathlib.Order.Basic

/-!
# Decoders and what they undo

`Decoder.Inverts d f` states that the decoder `d` undoes `f`: from the value that `f` makes of `a` it reads
`a` again if it may open as many arrays and objects as the value nests, and nothing at all if it may open
fewer.  It never reads anything but `a`.
-/

namespace BlockEditor

namespace Decoder

variable {α : Type}

/-- The decoder reads what was written, and refuses it exactly if it nests too deep. -/
def Inverts (d : Decoder α) (f : α → Json) : Prop :=
  ∀ n a, d n (f a) = if (f a).depth ≤ n then some a else none

/-- A text is read at any depth, for it opens nothing. -/
theorem inverts_text :
  Inverts text Json.text
  := by
  intro n t
  exact (if_pos (Nat.zero_le n)).symm

/-- A value that may be missing, if no value that is there is written as `null`. -/
theorem Inverts.nullable {d : Decoder α} {f : α → Json} (h : Inverts d f) (hnull : ∀ a, f a ≠ .null) :
  Inverts d.nullable (Json.ofOption f)
  := by
  intro n a
  cases a with
  | none => exact (if_pos (Nat.zero_le n)).symm
  | some a =>
    rw [Json.ofOption, Decoder.nullable, h n a]
    · split <;> rfl
    · apply hnull a

/-- If the first value is read and the others are, then all of them are, as long as none nests too deep.
-/
theorem mapM_cons {d : Decoder α} {n : Nat} {v : Json} {vs : List Json} {a : α} {as : List α}
    (hv : d n v = if v.depth ≤ n then some a else none)
    (hvs : vs.mapM (d n) = if Json.depthOfElements vs ≤ n then some as else none) :
  (v :: vs).mapM (d n) = if Json.depthOfElements (v :: vs) ≤ n then some (a :: as) else none
  := by
  rw [List.mapM_cons, hv, hvs, Json.depthOfElements]
  simp only [Nat.max_le]
  by_cases h : v.depth ≤ n <;> by_cases hs : Json.depthOfElements vs ≤ n <;> simp [h, hs]

/-- An array is read if its elements are, with one array less to open. -/
theorem list_array {d : Decoder α} {vs : List Json} {as : List α}
    (h : ∀ n, vs.mapM (d n) = if Json.depthOfElements vs ≤ n then some as else none) (n : Nat) :
  d.list n (.array vs) = if (Json.array vs).depth ≤ n then some as else none
  := by
  cases n with
  | zero => rfl
  | succ n =>
    rw [Decoder.list, h, Json.depth]
    simp only [Nat.add_le_add_iff_right]

/-- A decoder that undoes `f` undoes it in each element of an array. -/
theorem Inverts.list {d : Decoder α} {f : α → Json} (h : Inverts d f) :
  Inverts d.list (Json.ofList f)
  := by
  intro n as
  apply list_array
  intro n
  induction as with
  | nil => exact (if_pos (Nat.zero_le n)).symm
  | cons a as ih => apply mapM_cons (h n a) ih

end Decoder

/-! ### Records -/

namespace Record

/-- The members of a record are its fields, if all of them are known and none is there twice. -/
theorem select?_record {names : List String} {fields : List (String × Json)}
    (hnames : ∀ name ∈ fields.map Prod.fst, name ∈ names) (hnodup : (fields.map Prod.fst).Nodup) :
  select? names (fields.map fun (key, value) => (some key, value)) = some fields
  := by
  induction fields with
  | nil => rfl
  | cons field fields ih =>
    obtain ⟨key, v⟩ := field
    obtain ⟨hkey, hnames⟩ := List.forall_mem_cons.mp hnames
    obtain ⟨hnot, hnodup⟩ := List.nodup_cons.mp hnodup
    have hlookup : fields.lookup key = none := by
      apply List.lookup_eq_none_iff.mpr
      intro field hfield
      apply bne_iff_ne.mpr
      intro heq
      apply hnot
      rw [heq]
      apply List.mem_map_of_mem hfield
    rw [List.map_cons, select?, ih hnames hnodup]
    simp [hkey, hlookup]

/-- A record whose fields are known and different is read with all its fields, and its values may open
as much as is left. -/
theorem decoder_record {names : List String} {fields : List (String × Json)}
    (hnames : ∀ name ∈ fields.map Prod.fst, name ∈ names) (hnodup : (fields.map Prod.fst).Nodup)
    (n : Nat) :
  decoder names (n + 1) (.record fields) = some ⟨false, fields, n⟩
  := by
  rw [Json.record, decoder, ofMembers?, select?_record hnames hnodup]
  rfl

section

variable {α : Type} {r : Record} {name : String} {d : Decoder α} {f : α → Json}

/-! A field that is there is read, unless it nests too deep for the room that the record leaves it. -/

theorem required_eq (hd : Decoder.Inverts d f) {a : α} (h : r.fields.lookup name = some (f a)) :
  r.required name d = if (f a).depth ≤ r.room then some a else none
  := by
  rw [required, h, Option.bind_some, hd]

theorem optional_eq (hd : Decoder.Inverts d f) (hnull : ∀ a, f a ≠ .null) {a : Option α}
    (h : r.fields.lookup name = some (.ofOption f a)) :
  r.optional name d = if (Json.ofOption f a).depth ≤ r.room then some a else none
  := by
  rw [optional, h]
  apply hd.nullable hnull

theorem defaulted_eq (hd : Decoder.Inverts d f) {a default : α}
    (h : r.fields.lookup name = some (f a)) :
  r.defaulted name default d = if (f a).depth ≤ r.room then some a else none
  := by
  rw [defaulted, h]
  apply hd

theorem required_text {t : String} (h : r.fields.lookup name = some (.text t)) :
  r.required name Decoder.text = some t
  := by
  rw [required_eq Decoder.inverts_text h]
  apply if_pos (Nat.zero_le _)

theorem optional_text {t : Option String} (h : r.fields.lookup name = some (.ofOption .text t)) :
  r.optional name Decoder.text = some t
  := by
  rw [optional_eq Decoder.inverts_text nofun h]
  cases t <;> apply if_pos (Nat.zero_le _)

end

end Record

/-! ### Variables and nodes -/

/-- A variable opens one object, whatever it says. -/
theorem Variable.depth_toJson (v : Variable) :
  v.toJson.depth = 1
  := by
  obtain ⟨id, text, type, value⟩ := v
  cases value <;> rfl

/-- Variables are read back as they were written. -/
theorem Variable.inverts :
  Decoder.Inverts Variable.decoder Variable.toJson
  := by
  intro n v
  cases n with
  | zero =>
    rw [v.depth_toJson]
    rfl
  | succ n =>
    let r : Record := ⟨false, [("id", .text v.id), ("text", .text v.text), ("type", .text v.type),
      ("value", .ofOption .text v.value)], n⟩
    have hrecord : Record.decoder ["id", "text", "type", "value"] (n + 1) v.toJson = some r := by
      apply Record.decoder_record <;> simp
    have hid : r.required "id" Decoder.text = some v.id := Record.required_text rfl
    have htext : r.required "text" Decoder.text = some v.text := Record.required_text rfl
    have htype : r.required "type" Decoder.text = some v.type := Record.required_text rfl
    have hvalue : r.optional "value" Decoder.text = some v.value := Record.optional_text rfl
    rw [Variable.decoder, hrecord, v.depth_toJson, if_pos (Nat.le_add_left 1 n)]
    simp only [Option.bind_eq_bind, Option.bind_some, hid, htext, htype, hvalue]
    rfl

/-- A node opens one object more than its variables and its children do. -/
theorem Node.depth_toJson (n : Node) :
  n.toJson.depth
    = max (Json.ofList Variable.toJson n.vars).depth (Program.toJson n.children).depth + 1
  := by
  obtain ⟨id, type, text, vars, children⟩ := n
  simp [Node.toJson, Json.record, Json.depth, Json.depthOfMembers, Json.text, Program.toJson]

/-- The nodes within a node are read like those of a program. -/
theorem Node.listDecoder_eq :
  Node.listDecoder = Node.decoder.list
  := by
  funext n v
  cases n with
  | zero => cases v <;> rfl
  | succ n => cases v <;> rfl

mutual

/-- A node is read back, with the nodes in it, if it nests no deeper than may be opened. -/
theorem Node.decoder_toJson : ∀ (node : Node) (n : Nat),
    Node.decoder n node.toJson = if node.toJson.depth ≤ n then some node else none
  | ⟨id, type, text, vars, children⟩, 0 => by
      rw [Node.depth_toJson, if_neg (Nat.not_succ_le_zero _), Node.decoder]
  | ⟨id, type, text, vars, children⟩, n + 1 => by
      let r : Record := ⟨false, [("id", .text id), ("type", .text type), ("text", .text text),
        ("variables", .ofList Variable.toJson vars), ("children", Program.toJson children)], n⟩
      have hrecord : Record.decoder ["id", "type", "text", "variables", "children"] (n + 1)
          (Node.toJson ⟨id, type, text, vars, children⟩) = some r := by
        rw [Node.toJson]
        apply Record.decoder_record <;> simp
      have hid : r.required "id" Decoder.text = some id := Record.required_text rfl
      have htype : r.required "type" Decoder.text = some type := Record.required_text rfl
      have htext : r.required "text" Decoder.text = some text := Record.required_text rfl
      have hvars : r.defaulted "variables" [] Variable.decoder.list
          = if (Json.ofList Variable.toJson vars).depth ≤ n then some vars else none :=
        Record.defaulted_eq Variable.inverts.list rfl
      have hchildren : r.defaulted "children" [] (fun _ => Node.listDecoder n)
          = if (Program.toJson children).depth ≤ n then some children else none := by
        rw [Node.listDecoder_eq]
        apply Decoder.list_array (Program.mapM_elements children)
      rw [Node.decoder, hrecord, Node.depth_toJson]
      simp only [Option.bind_eq_bind, Option.bind_some, hid, htype, htext, hvars, hchildren,
        Nat.add_le_add_iff_right, Nat.max_le]
      by_cases h : (Json.ofList Variable.toJson vars).depth ≤ n <;>
        by_cases h' : (Program.toJson children).depth ≤ n <;> simp [h, h']

theorem Program.mapM_elements : ∀ (p : List Node) (n : Nat),
    (Program.elements p).mapM (Node.decoder n)
      = if Json.depthOfElements (Program.elements p) ≤ n then some p else none
  | [], n => (if_pos (Nat.zero_le n)).symm
  | node :: p, n => Decoder.mapM_cons (Node.decoder_toJson node n) (Program.mapM_elements p n)

end

/-- Programs are read back as they were written. -/
theorem Program.inverts :
  Decoder.Inverts Node.decoder.list Program.toJson
  := fun n p => Decoder.list_array (Program.mapM_elements p) n

end BlockEditor
