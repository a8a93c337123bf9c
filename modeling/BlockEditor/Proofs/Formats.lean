import BlockEditor.Executor.Feedback
import BlockEditor.Palette.Catalog
import BlockEditor.Palette.RegistryCodec
import BlockEditor.Proofs.JsonText
import BlockEditor.Proofs.Records
import BlockEditor.Replay.Script

/-!
# Stored values are read back

Slots, kinds and templates, configurations and entries of a registry, scripts with their aims and steps, and
messages from the executor are written as JSON of a small depth, and each of them is read back from its
text.  So a catalog is read back from the array of its templates.
-/

namespace BlockEditor

open Decoder (inverts_bool inverts_text inverts_word)

/-! ### Kinds and templates -/

/-- Categories are read back by their names, which are different. -/
theorem Category.inverts :
  Decoder.Inverts Category.decoder Category.toJson
  := Decoder.inverts_name Category.ofName?_name fun _ _ => rfl

/-- Slots are read back field by field. -/
theorem SlotSpec.inverts :
  Decoder.Inverts SlotSpec.decoder SlotSpec.toJson
  := by
  intro n s
  apply Record.bind_decoder (by simp) (by simp)
  intro room
  apply Record.bind_field (Record.defaulted_eq (inverts_text.nullable nofun) rfl)
  apply Record.bind_field (Record.defaulted_eq Category.inverts.list rfl)
  apply Record.bind_field (Record.defaulted_eq inverts_bool rfl)
  exact (if_pos nofun).symm

theorem Table.eq_empty_of_isEmpty {α : Type} {t : Table α} (h : t.isEmpty = true) :
  t = .empty
  := by
  obtain ⟨entries, _⟩ := t
  obtain rfl : entries = [] := List.isEmpty_iff.mp h
  rfl

/-- Kinds are read back, also those whose table of operator tokens is not written. -/
theorem Kind.inverts :
  Decoder.Inverts Kind.decoder Kind.toJson
  := by
  intro n k
  let wire : List (String × Json) :=
    if k.wireOperators.isEmpty then [] else [("wire_operators", k.wireOperators.toJson .text)]
  -- An empty table is not written, and the default that is read instead is the empty table.
  have hwire : ∀ room, (Record.mk false wire room).defaulted "wire_operators" .empty Decoder.text.table
      = if ∀ field ∈ wire, field.2.depth ≤ room then some k.wireOperators else none := by
    intro room
    by_cases hempty : k.wireOperators.isEmpty = true
    · simp only [wire, if_pos hempty]
      rw [if_pos nofun, Table.eq_empty_of_isEmpty hempty]
      rfl
    · simp only [wire, if_neg hempty, List.forall_mem_singleton]
      apply Record.defaulted_eq inverts_text.table rfl
  have hkeys : wire.map Prod.fst = [] ∨ wire.map Prod.fst = ["wire_operators"] := by
    dsimp only [wire]
    split
    · exact .inl rfl
    · exact .inr rfl
  change Kind.decoder n (.record (_ ++ wire)) = if (Json.record (_ ++ wire)).depth ≤ n then _ else _
  apply Record.bind_decoder
  · rcases hkeys with hkeys | hkeys <;> simp [hkeys]
  · rcases hkeys with hkeys | hkeys <;> simp [hkeys]
  · intro room
    apply Record.bind_field (Record.required_eq Category.inverts rfl)
    apply Record.bind_field (Record.defaulted_eq inverts_bool rfl)
    apply Record.bind_field (Record.defaulted_eq SlotSpec.inverts.list rfl)
    apply Record.bind_field (Record.defaulted_eq inverts_text.list rfl)
    exact Decoder.bind_eq_ite (hwire room) (if_pos trivial).symm (and_iff_left trivial).symm

/-- Templates are read back with their kinds. -/
theorem Template.inverts :
  Decoder.Inverts Template.decoder Template.toJson
  := by
  intro n t
  apply Record.bind_decoder (by simp) (by simp)
  intro room
  apply Record.bind_field (Record.required_eq inverts_text rfl)
  apply Record.bind_field (Record.required_eq inverts_text rfl)
  apply Record.bind_field (Record.required_eq Kind.inverts rfl)
  apply Record.bind_field (Record.defaulted_eq (inverts_word.nullable nofun) rfl)
  exact (if_pos nofun).symm

/-! ### Registries -/

namespace Registry

/-- Configurations of registries are read back field by field. -/
theorem Config.inverts :
  Decoder.Inverts Config.decoder Config.toJson
  := by
  intro n c
  apply Record.bind_decoder (by simp) (by simp)
  intro room
  apply Record.bind_field (Record.required_eq inverts_word rfl)
  apply Record.bind_field (Record.required_eq inverts_text.list rfl)
  apply Record.bind_field (Record.required_eq inverts_text.list rfl)
  apply Record.bind_field (Record.required_eq inverts_text.list rfl)
  apply Record.bind_field (Record.required_eq inverts_text.list rfl)
  exact (if_pos nofun).symm

theorem EntryKind.inverts :
  Decoder.Inverts EntryKind.decoder EntryKind.toJson
  := by
  have hname : ∀ k : EntryKind, ofName? k.name = some k := by
    intro k
    cases k <;> decide
  exact Decoder.inverts_name hname fun _ _ => rfl

/-- Entries are read back, with a value or without one. -/
theorem Entry.inverts :
  Decoder.Inverts Entry.decoder Entry.toJson
  := by
  intro n e
  apply Record.bind_decoder (by simp) (by simp)
  intro room
  apply Record.bind_field (Record.required_eq inverts_text rfl)
  apply Record.bind_field (Record.optional_eq inverts_text nofun rfl)
  apply Record.bind_field (Record.required_eq inverts_text rfl)
  apply Record.bind_field (Record.required_eq EntryKind.inverts rfl)
  apply Record.bind_field (Record.defaulted_eq inverts_bool rfl)
  exact (if_pos nofun).symm

end Registry

/-! ### Scripts -/

namespace Script

theorem NewVariable.inverts :
  Decoder.Inverts NewVariable.decoder NewVariable.toJson
  := by
  intro n v
  apply Record.bind_decoder (by simp) (by simp)
  intro room
  apply Record.bind_field (Record.required_eq inverts_text rfl)
  apply Record.bind_field (Record.defaulted_eq (inverts_text.nullable nofun) rfl)
  exact (if_pos nofun).symm

namespace Aim

/-- The data of an aim at a slot are one object, and it is read if it may be opened. -/
theorem slotDecoder_record (handle : String) (index : UInt64) (n : Nat) :
  slotDecoder n (.record [("block", .text handle), ("slot", .ofWord index)])
    = if 1 ≤ n then some (handle, index) else none
  := by
  apply Record.bind_decoder (by simp) (by simp)
  intro room
  apply Record.bind_field (Record.required_eq inverts_text rfl)
  apply Record.bind_field (Record.required_eq inverts_word rfl)
  exact (if_pos nofun).symm

/-- An aim is read back however the choices without data are told, if those without any are among them. -/
theorem inverts_with {bare : Choice → Bool} (hbare : ∀ name room, bare ⟨name, none, room⟩ = true) :
  Decoder.Inverts (decoderWith bare) toJson
  := by
  intro n aim
  cases aim with
  | workspace =>
    rw [toJson, decoderWith, Choice.decoder_text]
    exact (if_pos (hbare _ _)).trans (if_pos (Nat.zero_le n)).symm
  | into handle => cases n <;> rfl
  | before handle => cases n <;> rfl
  | slot handle index =>
    cases n with
    | zero => rfl
    | succ n =>
      have hslot : decoderWith bare (n + 1) (toJson (.slot handle index))
          = (slotDecoder n (.record [("block", .text handle), ("slot", .ofWord index)])).map
            fun slot => .slot slot.1 slot.2 := rfl
      have hdepth : (toJson (.slot handle index)).depth ≤ n + 1 ↔ 1 ≤ n := by
        rw [toJson, Json.depth_record_le_iff, List.forall_mem_singleton]
        rfl
      rw [hslot, slotDecoder_record]
      simp only [hdepth]
      split <;> rfl
  | trash =>
    rw [toJson, decoderWith, Choice.decoder_text]
    exact (if_pos (hbare _ _)).trans (if_pos (Nat.zero_le n)).symm
  | outside =>
    rw [toJson, decoderWith, Choice.decoder_text]
    exact (if_pos (hbare _ _)).trans (if_pos (Nat.zero_le n)).symm

/-- Aims are read back where nothing is kept. -/
theorem inverts :
  Decoder.Inverts decoder toJson
  := inverts_with fun _ _ => rfl

/-- Aims are read back from values that are kept until the tag of the step is known. -/
theorem inverts_kept :
  Decoder.Inverts keptDecoder toJson
  := inverts_with fun _ _ => rfl

/-- Nothing of an aim is lost while it is kept. -/
theorem kept_toJson (aim : Aim) :
  aim.toJson.Kept
  := by
  cases aim with
  | workspace => apply Json.kept_text
  | into handle =>
    apply Json.kept_record
    simp [Json.kept_text]
  | before handle =>
    apply Json.kept_record
    simp [Json.kept_text]
  | slot handle index =>
    apply Json.kept_record
    rw [List.forall_mem_singleton]
    apply Json.kept_record
    simp [Json.kept_text, Json.kept_ofWord]
  | trash => apply Json.kept_text
  | outside => apply Json.kept_text

end Aim

/-- Steps are read back by their tags, each with its own fields. -/
theorem Step.inverts :
  Decoder.Inverts Step.decoder Step.toJson
  := by
  intro n step
  cases step with
  | place template into handle =>
    apply Tagged.bind_fields ["template", "into", "as"]
      (by simp [Json.kept_text, into.kept_toJson, Json.kept_ofOption_text]) (by simp) (by simp) (by simp)
      (fun _ _ => rfl)
    intro room
    apply Record.bind_field (Record.required_eq inverts_text rfl)
    apply Record.bind_field (Record.defaulted_eq Aim.inverts_kept rfl)
    apply Record.bind_field (Record.defaulted_eq (inverts_text.nullable nofun) rfl)
    exact (if_pos nofun).symm
  | move block into =>
    apply Tagged.bind_fields ["block", "into"]
      (by simp [Json.kept_text, into.kept_toJson]) (by simp) (by simp) (by simp) (fun _ _ => rfl)
    intro room
    apply Record.bind_field (Record.required_eq inverts_text rfl)
    apply Record.bind_field (Record.defaulted_eq Aim.inverts_kept rfl)
    exact (if_pos nofun).symm
  | delete block =>
    apply Tagged.bind_fields ["block"]
      (by simp [Json.kept_text]) (by simp) (by simp) (by simp) (fun _ _ => rfl)
    intro room
    apply Record.bind_field (Record.required_eq inverts_text rfl)
    exact (if_pos nofun).symm
  | literal block slot value =>
    apply Tagged.bind_fields ["block", "slot", "value"]
      (by simp [Json.kept_text, Json.kept_ofWord]) (by simp) (by simp) (by simp) (fun _ _ => rfl)
    intro room
    apply Record.bind_field (Record.required_eq inverts_text rfl)
    apply Record.bind_field (Record.required_eq inverts_word rfl)
    apply Record.bind_field (Record.required_eq inverts_text rfl)
    exact (if_pos nofun).symm
  | operator block selected =>
    apply Tagged.bind_fields ["block", "operator"]
      (by simp [Json.kept_text, Json.kept_ofOption_text]) (by simp) (by simp) (by simp) (fun _ _ => rfl)
    intro room
    apply Record.bind_field (Record.required_eq inverts_text rfl)
    apply Record.bind_field (Record.defaulted_eq (inverts_text.nullable nofun) rfl)
    exact (if_pos nofun).symm
  | clear =>
    apply Tagged.bind_decoder (List.forall_mem_nil _) List.not_mem_nil
    intro room _
    rfl
  | removeName name =>
    apply Tagged.bind_fields ["name"]
      (by simp [Json.kept_text]) (by simp) (by simp) (by simp) (fun _ _ => rfl)
    intro room
    apply Record.bind_field (Record.required_eq inverts_text rfl)
    exact (if_pos nofun).symm

/-- Scripts are read back with all their names and steps. -/
theorem inverts :
  Decoder.Inverts decoder toJson
  := by
  intro n s
  apply Record.bind_decoder (by simp) (by simp)
  intro room
  apply Record.bind_field (Record.defaulted_eq NewVariable.inverts.list rfl)
  apply Record.bind_field (Record.defaulted_eq inverts_text.list rfl)
  apply Record.bind_field (Record.defaulted_eq Step.inverts.list rfl)
  exact (if_pos nofun).symm

end Script

/-! ### Messages from the executor -/

/-- Messages are read back by their tags, each with its own fields. -/
theorem Feedback.inverts :
  Decoder.Inverts Feedback.decoder Feedback.toJson
  := by
  intro n message
  cases message with
  | executionError error blockId errorCode =>
    apply Tagged.bind_fields ["error", "block_id", "error_code"]
      (by simp [Json.kept_text, Json.kept_ofOption_text]) (by simp) (by simp) (by simp) (fun _ _ => rfl)
    intro room
    apply Record.bind_field (Record.required_eq inverts_text rfl)
    apply Record.bind_field (Record.defaulted_eq (inverts_text.nullable nofun) rfl)
    apply Record.bind_field (Record.defaulted_eq (inverts_text.nullable nofun) rfl)
    exact (if_pos nofun).symm
  | update data errorCode =>
    apply Tagged.bind_fields ["data", "error_code"]
      (by simp [Json.kept_text, Json.kept_ofOption_text]) (by simp) (by simp) (by simp) (fun _ _ => rfl)
    intro room
    apply Record.bind_field (Record.required_eq inverts_text rfl)
    apply Record.bind_field (Record.defaulted_eq (inverts_text.nullable nofun) rfl)
    exact (if_pos nofun).symm
  | coords data =>
    apply Tagged.bind_fields ["data"]
      (by simp [Json.kept_text]) (by simp) (by simp) (by simp) (fun _ _ => rfl)
    intro room
    apply Record.bind_field (Record.required_eq inverts_text rfl)
    exact (if_pos nofun).symm

/-! ### Depths -/

namespace Json

theorem depth_record_le {fields : List (String × Json)} {n : Nat}
    (h : ∀ field ∈ fields, field.2.depth ≤ n) :
  (record fields).depth ≤ n + 1
  := depth_record_le_iff.mpr h

theorem depth_ofList_le {α : Type} {f : α → Json} {n : Nat} (h : ∀ a, (f a).depth ≤ n) (as : List α) :
  (ofList f as).depth ≤ n + 1
  := depth_ofList_le_iff.mpr fun a _ => h a

theorem depth_ofList_text_le (ts : List String) :
  (ofList text ts).depth ≤ 1
  := depth_ofList_le (fun _ => Nat.le_refl 0) ts

end Json

theorem Table.depth_toJson_text_le (t : Table String) :
  (t.toJson .text).depth ≤ 1
  := by
  apply Json.depth_record_le
  rw [List.forall_mem_map]
  intro _ _
  apply Nat.le_refl

/-- A slot opens an object and the array of what it accepts. -/
theorem SlotSpec.depth_toJson_le (s : SlotSpec) :
  s.toJson.depth ≤ 2
  := by
  have haccepts : (Json.ofList Category.toJson s.accepts).depth ≤ 1 :=
    Json.depth_ofList_le (fun _ => Nat.le_refl 0) s.accepts
  apply Json.depth_record_le
  simp [haccepts]

/-- A kind opens an object and the array of its slots. -/
theorem Kind.depth_toJson_le (k : Kind) :
  k.toJson.depth ≤ 4
  := by
  have hcategory : k.category.toJson.depth = 0 := rfl
  have hslots : (Json.ofList SlotSpec.toJson k.slots).depth ≤ 3 :=
    Json.depth_ofList_le SlotSpec.depth_toJson_le k.slots
  have hoperators : (Json.ofList .text k.operators).depth ≤ 3 :=
    le_trans (Json.depth_ofList_text_le k.operators) (by decide)
  have hwire : (k.wireOperators.toJson .text).depth ≤ 3 :=
    le_trans k.wireOperators.depth_toJson_text_le (by decide)
  apply Json.depth_record_le
  rw [List.forall_mem_append]
  constructor
  · simp [hcategory, hslots, hoperators]
  · split
    · apply List.forall_mem_nil
    · rw [List.forall_mem_singleton]
      apply hwire

/-- A template opens one object more than its kind. -/
theorem Template.depth_toJson_le (t : Template) :
  t.toJson.depth ≤ 5
  := by
  apply Json.depth_record_le
  simp [t.kind.depth_toJson_le]

theorem Registry.Config.depth_toJson_le (c : Config) :
  c.toJson.depth ≤ 2
  := by
  apply Json.depth_record_le
  simp [Json.depth_ofList_text_le]

theorem Registry.Entry.depth_toJson_le (e : Entry) :
  e.toJson.depth ≤ 1
  := by
  have hkind : e.kind.toJson.depth = 0 := rfl
  apply Json.depth_record_le
  simp [hkind]

namespace Script

theorem NewVariable.depth_toJson_le (v : NewVariable) :
  v.toJson.depth ≤ 1
  := by
  apply Json.depth_record_le
  simp

theorem Aim.depth_toJson_le (aim : Aim) :
  aim.toJson.depth ≤ 2
  := by
  cases aim <;> exact Nat.le_of_ble_eq_true rfl

/-- A step opens one object more than its aim. -/
theorem Step.depth_toJson_le (step : Step) :
  step.toJson.depth ≤ 3
  := by
  cases step <;> apply Json.depth_record_le <;> simp [Aim.depth_toJson_le]

/-- A script opens an object and the array of its steps. -/
theorem depth_toJson_le (s : Script) :
  s.toJson.depth ≤ 5
  := by
  have hvariables : (Json.ofList NewVariable.toJson s.newVariables).depth ≤ 4 :=
    le_trans (Json.depth_ofList_le NewVariable.depth_toJson_le s.newVariables) (by decide)
  have hpositions : (Json.ofList .text s.newPositions).depth ≤ 4 :=
    le_trans (Json.depth_ofList_text_le s.newPositions) (by decide)
  have hsteps : (Json.ofList Step.toJson s.steps).depth ≤ 4 :=
    Json.depth_ofList_le Step.depth_toJson_le s.steps
  apply Json.depth_record_le
  simp [hvariables, hpositions, hsteps]

end Script

theorem Feedback.depth_toJson_le (message : Feedback) :
  message.toJson.depth ≤ 1
  := by
  cases message <;> apply Json.depth_record_le <;> simp

/-! ### Texts -/

/-- What `f` writes as a text is read back from the text by `d`. -/
def Decoder.ReadsBack {α : Type} (d : Decoder α) (f : α → Json) : Prop :=
  ∀ a, (Json.read? (f a).render).bind (Json.decode? d) = some a

/-- What is undone is read back from its text, if it nests no deeper than any text may. -/
theorem Decoder.Inverts.readsBack {α : Type} {d : Decoder α} {f : α → Json} {n : Nat} (h : Inverts d f)
    (hdepth : ∀ a, (f a).depth ≤ n) (hlimit : n ≤ Json.nestingLimit) :
  ReadsBack d f
  := by
  intro a
  rw [Json.read?_render, Option.bind_some, Json.decode?, h]
  apply if_pos (le_trans (hdepth a) hlimit)

namespace Catalog

/-- Different ids, none of which was seen before, do not repeat one. -/
theorem firstRepeated?_eq_none {seen ids : List String} (hnodup : ids.Nodup)
    (hseen : ∀ id ∈ ids, id ∉ seen) :
  firstRepeated? seen ids = none
  := by
  induction ids generalizing seen with
  | nil => rfl
  | cons id ids ih =>
    obtain ⟨hid, hnodup⟩ := List.nodup_cons.mp hnodup
    rw [firstRepeated?, if_neg (hseen id (List.mem_cons_self ..))]
    apply ih hnodup
    intro other hother hmem
    rcases List.mem_cons.mp hmem with rfl | hmem
    · apply hid hother
    · apply hseen other (List.mem_cons_of_mem id hother) hmem

/-- The templates of a catalog make up that catalog again, for their ids are different. -/
theorem ofTemplates_templates (c : Catalog) :
  ofTemplates c.templates = .ok c
  := by
  have hnone := firstRepeated?_eq_none c.nodup_ids fun _ _ => List.not_mem_nil
  rw [ofTemplates]
  split
  · rfl
  · rename_i hsome
    rw [hnone] at hsome
    contradiction

/-- A catalog is read back from the array of its templates. -/
theorem read_render (c : Catalog) :
  Catalog.read (Json.ofList Template.toJson c.templates).render = .ok c
  := by
  have hback : Decoder.ReadsBack Template.decoder.list (Json.ofList Template.toJson) :=
    Template.inverts.list.readsBack (Json.depth_ofList_le Template.depth_toJson_le) (by decide)
  rw [Catalog.read, hback c.templates]
  apply ofTemplates_templates

end Catalog

/-- Every stored value is read back from its text as it was written, and a catalog from the text of its
templates, in their order. -/
theorem Decoder.readsBack_stored :
  ReadsBack SlotSpec.decoder SlotSpec.toJson
    ∧ ReadsBack Kind.decoder Kind.toJson
    ∧ ReadsBack Template.decoder Template.toJson
    ∧ ReadsBack Registry.Config.decoder Registry.Config.toJson
    ∧ ReadsBack Registry.Entry.decoder Registry.Entry.toJson
    ∧ (∀ s : Script, Script.read? s.toJson.render = some s)
    ∧ ReadsBack Script.Step.decoder Script.Step.toJson
    ∧ ReadsBack Script.Aim.decoder Script.Aim.toJson
    ∧ (∀ message : Feedback, Feedback.read? message.toJson.render = some message)
    ∧ ∀ c : Catalog, Catalog.read (Json.ofList Template.toJson c.templates).render = .ok c
  := by
  exact ⟨SlotSpec.inverts.readsBack SlotSpec.depth_toJson_le (by decide),
    Kind.inverts.readsBack Kind.depth_toJson_le (by decide),
    Template.inverts.readsBack Template.depth_toJson_le (by decide),
    Registry.Config.inverts.readsBack Registry.Config.depth_toJson_le (by decide),
    Registry.Entry.inverts.readsBack Registry.Entry.depth_toJson_le (by decide),
    Script.inverts.readsBack Script.depth_toJson_le (by decide),
    Script.Step.inverts.readsBack Script.Step.depth_toJson_le (by decide),
    Script.Aim.inverts.readsBack Script.Aim.depth_toJson_le (by decide),
    Feedback.inverts.readsBack Feedback.depth_toJson_le (by decide),
    Catalog.read_render⟩

end BlockEditor
