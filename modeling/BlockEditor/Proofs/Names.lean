import BlockEditor.Palette.Lookup
import BlockEditor.Proofs.Walk

/-!
# The entries of a registry

`Registry.Arises r` states that operations lead from some configuration to the registry `r`.  In such a
registry every name has one entry, and the template of the entry has an id of its own.  So the look-up
of a template finds the one entry that it belongs to, whatever the other entries are.
-/

namespace BlockEditor

namespace Registry

/-- Operations lead from a configuration to the registry. -/
inductive Arises : Registry → Prop where
  | ofConfig (config : Config) : Arises (.ofConfig config)
  | add {r r' : Registry} {name : String} {kind : EntryKind} (h : Arises r)
      (hadd : r.add name kind = .ok r') : Arises r'
  | remove {r : Registry} (h : Arises r) (name : String) : Arises (r.remove name).2
  | setValue {r r' : Registry} {name : String} {value : Option String} (h : Arises r)
      (hset : r.setValue name value = .ok r') : Arises r'
  | freshName {r : Registry} (h : Arises r) (now : UInt64) : Arises (r.freshName now).2

/-- Every name has one entry, and the template of an entry has the id that is made of its name. -/
structure Orderly (entries : List Entry) : Prop where
  nodup : (entries.map Entry.name).Nodup
  source : ∀ e ∈ entries, e.sourceBlockId = paletteId e.name

/-- The template of an entry has the id that the entry tells. -/
theorem Entry.id_template (e : Entry) :
  e.template.id = e.sourceBlockId
  := by
  rw [Entry.template]
  split <;> rfl

/-- Different names have different templates. -/
theorem paletteId_inj {a b : String} (h : paletteId a = paletteId b) :
  a = b
  := by
  apply (String.append_right_inj "block-get-").mp
  apply (String.append_left_inj "-pos").mp h

/-! ### Entries from the start -/

/-- A name that is inserted again keeps its place, and a new one comes last. -/
theorem map_name_insertEntry (e : Entry) (es : List Entry) :
  (insertEntry e es).map Entry.name
    = if e.name ∈ es.map Entry.name then es.map Entry.name else es.map Entry.name ++ [e.name]
  := by
  induction es with
  | nil => simp [insertEntry]
  | cons f fs ih =>
    by_cases hf : f.name = e.name
    · simp [insertEntry, hf]
    · have hf' : e.name ≠ f.name := fun h => hf h.symm
      simp only [insertEntry, hf, if_false, List.map_cons, ih, List.mem_cons, hf', false_or]
      split <;> simp

theorem mem_insertEntry {e f : Entry} {es : List Entry} (h : f ∈ insertEntry e es) :
  f = e ∨ f ∈ es
  := by
  induction es with
  | nil => simpa [insertEntry] using h
  | cons g gs ih =>
    rw [insertEntry] at h
    split at h
    · rcases List.mem_cons.mp h with h | h
      · apply Or.inl h
      · apply Or.inr (List.mem_cons_of_mem _ h)
    · rcases List.mem_cons.mp h with rfl | h
      · apply Or.inr (List.mem_cons_self ..)
      · apply (ih h).imp_right (List.mem_cons_of_mem _)

/-- An entry may be inserted if its template has the id for its name. -/
theorem Orderly.insertEntry {e : Entry} {es : List Entry} (h : Orderly es)
    (he : e.sourceBlockId = paletteId e.name) :
  Orderly (insertEntry e es)
  := by
  constructor
  · rw [map_name_insertEntry]
    split
    · apply h.nodup
    · rename_i hname
      apply List.Nodup.append h.nodup (List.nodup_singleton _)
      simpa using hname
  · intro f hf
    rcases mem_insertEntry hf with rfl | hf
    · apply he
    · apply h.source f hf

theorem Orderly.foldl_insertEntry {es : List Entry} (h : Orderly es) {fs : List Entry}
    (hfs : ∀ f ∈ fs, f.sourceBlockId = paletteId f.name) :
  Orderly (fs.foldl (fun entries e => Registry.insertEntry e entries) es)
  := by
  induction fs generalizing es with
  | nil => apply h
  | cons f fs ih =>
    obtain ⟨hf, hfs⟩ := List.forall_mem_cons.mp hfs
    apply ih (h.insertEntry hf) hfs

/-- The entries that a configuration starts with are orderly. -/
theorem orderly_ofConfig (config : Config) :
  Orderly (ofConfig config).entries
  := by
  have hempty : Orderly [] := ⟨List.nodup_nil, fun _ he => by cases he⟩
  apply hempty.foldl_insertEntry
  intro f hf
  rcases List.mem_append.mp hf with hf | hf <;> obtain ⟨name, -, rfl⟩ := List.mem_map.mp hf <;> rfl

/-! ### Operations on entries -/

section

variable {r r' : Registry} {name : String}

/-- Nothing is found exactly under the names without an entry. -/
theorem lookup?_eq_none_iff :
  r.lookup? name = none ↔ name ∉ r.entries.map Entry.name
  := by
  simp [lookup?]

/-- A name that is refused leaves the registry. -/
theorem enter_of_error {kind : EntryKind} {reason : NameError}
    (h : (r.enter name kind).1 = .error reason) :
  (r.enter name kind).2 = r
  := by
  rw [enter] at h ⊢
  cases hcheck : r.check name with
  | error reason => rfl
  | ok _ =>
    rw [hcheck] at h
    contradiction

/-- A value for a name without an entry leaves the registry. -/
theorem assign_of_error {value : Option String} {reason : NameError}
    (h : (r.assign name value).1 = .error reason) :
  (r.assign name value).2 = r
  := by
  rw [assign] at h ⊢
  cases hlookup : r.lookup? name with
  | none => rfl
  | some e =>
    rw [hlookup] at h
    contradiction

/-- A name that passes the check is added with its entry at the end. -/
theorem add_eq (r : Registry) (name : String) (kind : EntryKind) :
  r.add name kind
    = (r.check name).map fun _ => { r with entries := r.entries ++ [Entry.ofUser name kind] }
  := by
  rw [add, enter]
  cases r.check name <;> rfl

/-- A name that is added is new, and its entry stands at the end. -/
theorem of_add {kind : EntryKind} (h : r.add name kind = .ok r') :
  r'.entries = r.entries ++ [Entry.ofUser name kind] ∧ name ∉ r.entries.map Entry.name
  := by
  rw [add_eq] at h
  cases hcheck : r.check name with
  | error reason =>
    rw [hcheck] at h
    contradiction
  | ok _ =>
    rw [hcheck] at h
    cases h
    constructor
    · rfl
    · rw [← lookup?_eq_none_iff]
      simp only [check] at hcheck
      split at hcheck
      · contradiction
      split at hcheck
      · contradiction
      split at hcheck
      · contradiction
      · rename_i htaken
        rw [isTaken, Bool.or_eq_true, not_or] at htaken
        simpa using htaken.1

/-- A value that is set is the one of every entry with the name. -/
theorem of_setValue {value : Option String} (h : r.setValue name value = .ok r') :
  r'.entries = r.entries.map fun e => if e.name = name then { e with value := value } else e
  := by
  rw [setValue, assign] at h
  cases hlookup : r.lookup? name with
  | none =>
    rw [hlookup] at h
    contradiction
  | some e =>
    rw [hlookup] at h
    cases h
    rfl

/-- A removal meets an entry that was there from the start and stays, an entry that goes, a name that
stays reserved, or a name that is reserved no longer, if it was. -/
theorem remove_cases (r : Registry) (name : String) :
  (∃ e ∈ r.entries, e.name = name ∧ e.builtin = true ∧ r.remove name = (none, r))
    ∨ (∃ e ∈ r.entries, e.name = name ∧ e.builtin = false
      ∧ r.remove name = (some e, { r with entries := r.entries.filter fun f => f.name ≠ name }))
    ∨ (name ∉ r.entries.map Entry.name ∧ name ∈ r.config.reserved ∧ r.remove name = (none, r))
    ∨ (name ∉ r.entries.map Entry.name ∧ name ∉ r.config.reserved
      ∧ r.remove name = (none, { r with reserved := r.reserved.filter fun n => n ≠ name }))
  := by
  cases hlookup : r.lookup? name with
  | some e =>
    have hmem := List.mem_of_find?_eq_some hlookup
    have hname : e.name = name := by simpa using List.find?_some hlookup
    cases hbuiltin : e.builtin with
    | true => exact Or.inl ⟨e, hmem, hname, hbuiltin, by simp [remove, hlookup, hbuiltin]⟩
    | false => exact Or.inr (Or.inl ⟨e, hmem, hname, hbuiltin, by simp [remove, hlookup, hbuiltin]⟩)
  | none =>
    have hname := lookup?_eq_none_iff.mp hlookup
    right
    right
    by_cases hreserved : name ∈ r.config.reserved
    · exact Or.inl ⟨hname, hreserved, by simp [remove, hlookup, hreserved]⟩
    · exact Or.inr ⟨hname, hreserved, by simp [remove, hlookup, hreserved]⟩

theorem entries_remove_of_none (h : (r.remove name).1 = none) :
  (r.remove name).2.entries = r.entries
  := by
  rcases r.remove_cases name with ⟨e, -, -, -, heq⟩ | ⟨e, -, -, -, heq⟩ | ⟨-, -, heq⟩ | ⟨-, -, heq⟩
  · rw [heq]
  · rw [heq] at h
    contradiction
  · rw [heq]
  · rw [heq]

/-- An entry that is removed was not there from the start, and the other ones stay. -/
theorem of_remove_some {e : Entry} (h : (r.remove name).1 = some e) :
  e ∈ r.entries ∧ e.name = name ∧ e.builtin = false
    ∧ (r.remove name).2 = { r with entries := r.entries.filter fun f => f.name ≠ name }
  := by
  rcases r.remove_cases name with ⟨f, -, -, -, heq⟩ | ⟨f, hf, hname, hbuiltin, heq⟩ | ⟨-, -, heq⟩
      | ⟨-, -, heq⟩
  · rw [heq] at h
    contradiction
  · rw [heq] at h ⊢
    cases h
    exact ⟨hf, hname, hbuiltin, rfl⟩
  · rw [heq] at h
    contradiction
  · rw [heq] at h
    contradiction

theorem entries_remove_of_some {e : Entry} (h : (r.remove name).1 = some e) :
  (r.remove name).2.entries = r.entries.filter fun f => f.name ≠ name
  := by
  rw [(of_remove_some h).2.2.2]

/-- A name that is added leaves the entries orderly, for it is new. -/
theorem Orderly.add (h : Orderly r.entries) {kind : EntryKind} (hadd : r.add name kind = .ok r') :
  Orderly r'.entries
  := by
  obtain ⟨hentries, hname⟩ := of_add hadd
  rw [hentries]
  constructor
  · rw [List.map_append]
    apply List.Nodup.append h.nodup (List.nodup_singleton _)
    simpa [Entry.ofUser] using hname
  · intro e he
    rcases List.mem_append.mp he with he | he
    · apply h.source e he
    · rw [List.mem_singleton.mp he]
      rfl

theorem Orderly.setValue (h : Orderly r.entries) {value : Option String}
    (hset : r.setValue name value = .ok r') :
  Orderly r'.entries
  := by
  rw [of_setValue hset]
  constructor
  · rw [List.map_map]
    have hname : (Entry.name ∘ fun e => if e.name = name then { e with value := value } else e)
        = Entry.name := by
      funext e
      dsimp only [Function.comp]
      split <;> rfl
    rw [hname]
    apply h.nodup
  · intro e he
    obtain ⟨f, hf, rfl⟩ := List.mem_map.mp he
    split <;> apply h.source f hf

/-- A removal leaves the entries orderly, whether it is refused or not. -/
theorem Orderly.remove (h : Orderly r.entries) (name : String) :
  Orderly (r.remove name).2.entries
  := by
  cases hremoved : (r.remove name).1 with
  | none =>
    rw [entries_remove_of_none hremoved]
    apply h
  | some e =>
    rw [entries_remove_of_some hremoved]
    constructor
    · apply (List.filter_sublist.map Entry.name).nodup h.nodup
    · intro f hf
      apply h.source f (List.mem_of_mem_filter hf)

theorem Arises.enter (h : Arises r) (name : String) (kind : EntryKind) :
  Arises (r.enter name kind).2
  := by
  apply snd_of_accepted (P := Arises) (fun _ => enter_of_error) h
  intro r' hadd
  apply h.add hadd

theorem Arises.assign (h : Arises r) (name : String) (value : Option String) :
  Arises (r.assign name value).2
  := by
  apply snd_of_accepted (P := Arises) (fun _ => assign_of_error) h
  intro r' hset
  apply h.setValue hset

/-- However a registry arises, its entries are orderly. -/
theorem Arises.orderly (h : Arises r) :
  Orderly r.entries
  := by
  induction h with
  | ofConfig config => apply orderly_ofConfig
  | add _ hadd ih => apply ih.add hadd
  | remove _ name ih => apply ih.remove
  | setValue _ hset ih => apply ih.setValue hset
  | freshName _ now ih => apply ih

/-! ### Looking up -/

/-- An entry is found under its name. -/
theorem Orderly.lookup?_of_mem (h : Orderly r.entries) {e : Entry} (he : e ∈ r.entries) :
  r.lookup? e.name = some e
  := find?_key_of_mem h.nodup he

/-- No two entries have templates with the same id. -/
theorem Orderly.nodup_source (h : Orderly r.entries) :
  (r.entries.map Entry.sourceBlockId).Nodup
  := by
  rw [List.map_congr_left h.source]
  apply List.Nodup.map_on _ (List.Nodup.of_map _ h.nodup)
  intro e he f hf hid
  apply List.inj_on_of_nodup_map h.nodup he hf (paletteId_inj hid)

/-- The template with an id is the one of the entry that has that id for its template. -/
theorem Orderly.template?_eq_some_iff (h : Orderly r.entries) {id : String} {t : Template} :
  r.template? id = some t ↔ ∃ e ∈ r.entries, paletteId e.name = id ∧ e.template = t
  := by
  constructor
  · intro ht
    obtain ⟨e, he, rfl⟩ := Option.map_eq_some_iff.mp ht
    have hmem := List.mem_of_find?_eq_some he
    have hid : e.sourceBlockId = id := by simpa using List.find?_some he
    use e, hmem
    rw [← h.source e hmem, hid]
    exact ⟨rfl, rfl⟩
  · rintro ⟨e, he, rfl, rfl⟩
    rw [template?, ← h.source e he, find?_key_of_mem h.nodup_source he, Option.map_some]

/-- A template stays when a name is added. -/
theorem Orderly.template?_add (h : Orderly r.entries) {kind : EntryKind}
    (hadd : r.add name kind = .ok r') {id : String} {t : Template} (ht : r.template? id = some t) :
  r'.template? id = some t
  := by
  obtain ⟨e, he, hid, htemplate⟩ := h.template?_eq_some_iff.mp ht
  have hmem : e ∈ r'.entries := by
    rw [(of_add hadd).1]
    apply List.mem_append_left _ he
  apply (h.add hadd).template?_eq_some_iff.mpr
  use e, hmem, hid

/-- A template does not depend on the value of its entry. -/
theorem Orderly.template?_setValue (h : Orderly r.entries) {value : Option String}
    (hset : r.setValue name value = .ok r') {id : String} {t : Template}
    (ht : r.template? id = some t) :
  r'.template? id = some t
  := by
  obtain ⟨e, he, hid, htemplate⟩ := h.template?_eq_some_iff.mp ht
  have hmem : (if e.name = name then { e with value := value } else e) ∈ r'.entries := by
    rw [of_setValue hset]
    apply List.mem_map_of_mem he
  apply (h.setValue hset).template?_eq_some_iff.mpr
  refine ⟨_, hmem, ?_⟩
  split <;> exact ⟨hid, htemplate⟩

/-- A template stays when a name is entered, whether the name is accepted or not. -/
theorem Orderly.template?_enter (h : Orderly r.entries) (name : String) (kind : EntryKind)
    {id : String} {t : Template} (ht : r.template? id = some t) :
  (r.enter name kind).2.template? id = some t
  := by
  apply snd_of_accepted (P := fun r' : Registry => r'.template? id = some t)
    (fun _ => enter_of_error) ht
  intro r' hadd
  apply h.template?_add hadd ht

theorem Orderly.template?_assign (h : Orderly r.entries) (name : String) (value : Option String)
    {id : String} {t : Template} (ht : r.template? id = some t) :
  (r.assign name value).2.template? id = some t
  := by
  apply snd_of_accepted (P := fun r' : Registry => r'.template? id = some t)
    (fun _ => assign_of_error) ht
  intro r' hset
  apply h.template?_setValue hset ht

/-- A template stays when another name is removed. -/
theorem Orderly.template?_remove (h : Orderly r.entries) {id : String}
    (hother : id ≠ paletteId name) {t : Template} (ht : r.template? id = some t) :
  (r.remove name).2.template? id = some t
  := by
  obtain ⟨e, he, hid, htemplate⟩ := h.template?_eq_some_iff.mp ht
  have hmem : e ∈ (r.remove name).2.entries := by
    cases hremoved : (r.remove name).1 with
    | none =>
      rw [entries_remove_of_none hremoved]
      apply he
    | some f =>
      rw [entries_remove_of_some hremoved]
      apply List.mem_filter.mpr
      use he
      apply decide_eq_true
      rintro rfl
      apply hother hid.symm
  apply (h.remove name).template?_eq_some_iff.mpr
  use e, hmem, hid

/-- The templates are those of the entries. -/
theorem template?_congr (h : r'.entries = r.entries) (id : String) :
  r'.template? id = r.template? id
  := by
  rw [template?, h, template?]

end

end Registry

end BlockEditor
