import BlockEditor.Proofs.Names
import BlockEditor.Proofs.SyntheticName

/-!
# The history of a registry

`Registry.Runs config past r` states that operations lead from the configuration to the registry `r`, and
`past` tells what became of names on the way: they were added, released or given out.  The events that no
later release undoes are the standing ones.  The registry is no more than its configuration and they are:
its entries are the names from the start, and then the names that were added, in the order of their
standing events.
-/

namespace BlockEditor

namespace Registry

/-! ### Names from the start -/

/-- The names that are there from the start, in the order in which they are mentioned first. -/
def Config.builtins (config : Config) : List String :=
  (config.builtinVariables ++ config.builtinPositions).eraseDups

/-- The kind of a name that is there from the start.  One that is mentioned as a variable and as a
position is a position. -/
def Config.builtinKind (config : Config) (name : String) : EntryKind :=
  if name ∈ config.builtinPositions then .position else .var

theorem eraseDups_concat (names : List String) (name : String) :
  (names ++ [name]).eraseDups
    = if name ∈ names.eraseDups then names.eraseDups else names.eraseDups ++ [name]
  := by
  rw [List.eraseDups_append, List.removeAll]
  by_cases h : name ∈ names <;> simp [h, List.eraseDups_cons]

section

variable {f : String → Entry}

/-- An entry that is put among entries of different names takes the place of the one of its name. -/
theorem insertEntry_map (hname : ∀ name, (f name).name = name) (e : Entry) {names : List String}
    (hnodup : names.Nodup) :
  insertEntry e (names.map f)
    = (if e.name ∈ names then names else names ++ [e.name]).map
      fun name => if name = e.name then e else f name
  := by
  induction names with
  | nil => simp [insertEntry]
  | cons name names ih =>
    obtain ⟨hnot, hnodup⟩ := List.nodup_cons.mp hnodup
    rw [List.map_cons, insertEntry, hname]
    by_cases heq : name = e.name
    · subst heq
      rw [if_pos rfl, if_pos (List.mem_cons_self ..), List.map_cons, if_pos rfl]
      congr 1
      apply List.map_congr_left
      rintro n hn
      rw [if_neg (ne_of_mem_of_not_mem hn hnot)]
    · have heq' : e.name ≠ name := fun h => heq h.symm
      rw [if_neg heq, ih hnodup]
      by_cases hmem : e.name ∈ names <;> simp [hmem, heq, heq']

theorem nodup_eraseDups (names : List String) :
  names.eraseDups.Nodup
  := by
  induction names using List.reverseRecOn with
  | nil => apply List.nodup_nil
  | append_singleton names name ih =>
    rw [eraseDups_concat]
    split
    · apply ih
    · rename_i hname
      apply ih.append (List.nodup_singleton _)
      simpa using hname

/-- Names of one kind are put in the places of those that are there already, or at the end. -/
theorem foldl_insertEntry_map (hname : ∀ name, (f name).name = name) (kind : EntryKind)
    (names more : List String) :
  (more.map (Entry.ofBuiltin · kind)).foldl (fun entries e => insertEntry e entries)
      (names.eraseDups.map f)
    = (names ++ more).eraseDups.map
      fun name => if name ∈ more then Entry.ofBuiltin name kind else f name
  := by
  induction more using List.reverseRecOn with
  | nil => simp
  | append_singleton more name ih =>
    rw [List.map_append, List.foldl_append, ih, List.map_singleton, List.foldl_cons, List.foldl_nil,
      insertEntry_map _ _ (nodup_eraseDups _), ← List.append_assoc, eraseDups_concat]
    · apply List.map_congr_left
      intro n _
      by_cases h : n = name <;> simp [h, Entry.ofBuiltin]
    · intro n
      split
      · rfl
      · apply hname

end

/-- The entries of the start are those of the built-in names, each once and in order. -/
theorem entries_ofConfig (config : Config) :
  (ofConfig config).entries
    = config.builtins.map fun name => Entry.ofBuiltin name (config.builtinKind name)
  := by
  have hvars := foldl_insertEntry_map (f := (Entry.ofBuiltin · .var)) (fun _ => rfl) .var []
    config.builtinVariables
  simp only [ite_self, List.eraseDups_nil, List.map_nil, List.nil_append] at hvars
  have hpositions := foldl_insertEntry_map (f := (Entry.ofBuiltin · .var)) (fun _ => rfl) .position
    config.builtinVariables config.builtinPositions
  rw [ofConfig, builtinEntries, List.foldl_append, hvars, hpositions]
  apply List.map_congr_left
  intro name _
  rw [Config.builtinKind]
  split <;> rfl

/-! ### Adding and taking -/

/-- A name keeps to the limits of a configuration. -/
structure Config.Admits (config : Config) (name : String) : Prop where
  length : name.toList.length ≤ config.maxNameLen.toNat
  forbidden : ∀ token ∈ config.forbidden, ¬ token.toList <:+: name.toList
  nonempty : name ≠ ""

section

variable {r r' : Registry} {name : String} {kind : EntryKind}

/-- Taken are the names with an entry and the reserved ones. -/
theorem isTaken_iff :
  r.isTaken name = true ↔ name ∈ r.takenNames
  := by
  simp [isTaken, takenNames, lookup?]

/-- A name is fine exactly if it keeps to the limits and is not taken. -/
theorem check_eq_ok_iff :
  r.check name = .ok () ↔ r.config.Admits name ∧ r.isTaken name = false
  := by
  have hforbidden : (r.config.forbidden.find? fun token => Scan.contains token.toList name.toList)
      = none ↔ ∀ token ∈ r.config.forbidden, ¬ token.toList <:+: name.toList := by
    simp [Scan.contains_iff]
  constructor
  · intro h
    simp only [check] at h
    split at h
    · contradiction
    rename_i hlength
    split at h
    · contradiction
    rename_i hfind
    split at h
    · contradiction
    rename_i htaken
    split at h
    · contradiction
    rename_i hempty
    refine ⟨⟨Nat.le_of_not_lt hlength, hforbidden.mp hfind, ?_⟩, Bool.not_eq_true _ ▸ htaken⟩
    simpa using hempty
  · rintro ⟨hadmits, htaken⟩
    have hempty : ¬ name.isEmpty = true := by simpa using hadmits.nonempty
    simp only [check, Nat.not_lt.mpr hadmits.length, hforbidden.mpr hadmits.forbidden, htaken, hempty,
      if_false, Bool.false_eq_true]

/-- A name is added exactly if it is admitted and free, and goes to the end. -/
theorem add_eq_ok_iff :
  r.add name kind = .ok r' ↔ (r.config.Admits name ∧ r.isTaken name = false)
    ∧ r' = { r with entries := r.entries ++ [Entry.ofUser name kind] }
  := by
  rw [← check_eq_ok_iff, add_eq]
  cases r.check name with
  | error reason => simp [Except.map]
  | ok _ => simp [Except.map, eq_comm]

theorem exists_add_iff :
  (∃ r', r.add name kind = .ok r') ↔ r.config.Admits name ∧ r.isTaken name = false
  := by
  constructor
  · rintro ⟨r', h⟩
    apply (add_eq_ok_iff.mp h).1
  · intro h
    exact ⟨_, add_eq_ok_iff.mpr ⟨h, rfl⟩⟩

end

/-! ### Events -/

/-- What can be asked of a registry. -/
inductive Operation where
  | add (name : String) (kind : EntryKind)
  | remove (name : String)
  | setValue (name : String) (value : Option String)
  | freshName (now : UInt64)

/-- What becomes of a name. -/
inductive Event where
  | added (name : String) (kind : EntryKind)
  | released (name : String)
  | given (name : String)
deriving DecidableEq

namespace Event

/-- The name that the event is about. -/
def name : Event → String
  | added name _ => name
  | released name => name
  | given name => name

/-- The entry that is added. -/
def entry? : Event → Option Entry
  | added name kind => some (.ofUser name kind)
  | _ => none

end Event

/-- The registry that an operation leaves, whether it is accepted or refused. -/
def after (r : Registry) : Operation → Registry
  | .add name kind => (r.enter name kind).2
  | .remove name => (r.remove name).2
  | .setValue name value => (r.assign name value).2
  | .freshName now => (r.freshName now).2

/-- What an operation means for a name, if it does not leave all names as they were. -/
def event? (r : Registry) : Operation → Option Event
  | .add name kind => (r.enter name kind).1.toOption.map fun _ => .added name kind
  | .remove name => some (.released name)
  | .setValue _ _ => none
  | .freshName now => some (.given (r.freshName now).1)

/-- Operations lead from the configuration to the registry, with the events of the past.  A search for a
synthetic name ends, as some candidate is free. -/
inductive Runs (config : Config) : List Event → Registry → Prop where
  | refl : Runs config [] (.ofConfig config)
  | step {past : List Event} {r : Registry} (h : Runs config past r) (op : Operation)
      (hends : ∀ now, op = .freshName now → SyntheticName.HasName now (.seeded now) r.takenNames) :
      Runs config (past ++ (r.event? op).toList) (r.after op)

/-- The events that add a name or give one out and that no later release undoes. -/
def standing : List Event → List Event
  | [] => []
  | e :: later =>
    if .released e.name ∈ e :: later then standing later else e :: standing later

/-- After the release of a name no event of that name stands. -/
theorem standing_released (past : List Event) (name : String) :
  standing (past ++ [.released name]) = (standing past).filter fun e => e.name ≠ name
  := by
  induction past with
  | nil =>
    rw [List.nil_append]
    apply if_pos (List.mem_singleton_self _)
  | cons e past ih =>
    have hmem : Event.released e.name ∈ e :: (past ++ [.released name])
        ↔ .released e.name ∈ e :: past ∨ e.name = name := by
      rw [← List.cons_append, List.mem_append, List.mem_singleton, Event.released.injEq]
    rw [List.cons_append, standing, standing, ih]
    by_cases hreleased : Event.released e.name ∈ e :: past
    · rw [if_pos hreleased, if_pos (hmem.mpr (Or.inl hreleased))]
    · rw [if_neg hreleased, List.filter_cons]
      by_cases hname : e.name = name
      · rw [if_pos (hmem.mpr (Or.inr hname)), if_neg (by simpa using hname)]
      · rw [if_neg (fun h => (hmem.mp h).elim hreleased hname), if_pos (by simpa using hname)]

/-- A release ends what stands of its name, and nothing else. -/
theorem mem_standing_released {past : List Event} {name : String} {e : Event} :
  e ∈ standing (past ++ [.released name]) ↔ e ∈ standing past ∧ e.name ≠ name
  := by
  rw [standing_released, List.mem_filter, decide_eq_true_iff]

/-- What is not a release undoes nothing, and stands at first. -/
theorem standing_concat (past : List Event) {e : Event} (he : ∀ name, e ≠ .released name) :
  standing (past ++ [e]) = standing past ++ [e]
  := by
  have hlast : ∀ name, Event.released name ∉ [e] := by
    intro name hmem
    apply he name (List.mem_singleton.mp hmem).symm
  induction past with
  | nil =>
    rw [List.nil_append]
    apply if_neg (hlast _)
  | cons f past ih =>
    have hmem : Event.released f.name ∈ f :: (past ++ [e]) ↔ .released f.name ∈ f :: past := by
      rw [← List.cons_append, List.mem_append, or_iff_left (hlast _)]
    rw [List.cons_append, standing, standing, ih]
    by_cases hreleased : Event.released f.name ∈ f :: past
    · rw [if_pos hreleased, if_pos (hmem.mpr hreleased)]
    · rw [if_neg hreleased, if_neg (mt hmem.mp hreleased), List.cons_append]

/-- A release does not stand itself. -/
theorem released_notMem_standing (past : List Event) (name : String) :
  .released name ∉ standing past
  := by
  induction past with
  | nil => apply List.not_mem_nil
  | cons e past ih =>
    rw [standing]
    split
    · apply ih
    · rename_i hreleased
      intro hmem
      rcases List.mem_cons.mp hmem with rfl | hmem
      · apply hreleased (List.mem_cons_self ..)
      · apply ih hmem

/-! ### What the past tells of a registry -/

namespace Entry

/-- The entry without its value. -/
def bare (e : Entry) : Entry :=
  { e with value := none }

theorem map_name_map_bare (entries : List Entry) :
  (entries.map bare).map name = entries.map name
  := by
  rw [List.map_map]
  rfl

theorem map_bare_filter (entries : List Entry) (name : String) :
  (entries.filter fun e => e.name ≠ name).map bare
    = (entries.map bare).filter fun e => e.name ≠ name
  := by
  rw [List.filter_map]
  rfl

end Entry

/-- The entries of a registry, apart from their values, as the past tells of them. -/
def Config.entriesAfter (config : Config) (past : List Event) : List Entry :=
  (config.builtins.map fun name => Entry.ofBuiltin name (config.builtinKind name))
    ++ ((standing past).filterMap Event.entry?).map Entry.bare

/-- The registry is what its configuration and its past tell of it. -/
structure Follows (r : Registry) (config : Config) (past : List Event) : Prop where
  config_eq : r.config = config
  entries : r.entries.map Entry.bare = config.entriesAfter past
  reserved : ∀ name, name ∈ r.reserved ↔ name ∈ config.reserved ∨ .given name ∈ standing past
  /-- A name that was added keeps to the limits, and nothing else stands for it. -/
  added : ∀ name kind, .added name kind ∈ standing past →
    config.Admits name ∧ name ∉ config.builtins ∧ name ∉ r.reserved
  given : ∀ name, .given name ∈ standing past → name ∉ config.builtins ∧ name ∉ config.reserved

/-- The entries of a past are those of its additions. -/
theorem mem_filterMap_entry? {events : List Event} {e : Entry} :
  e ∈ events.filterMap Event.entry?
    ↔ ∃ name kind, .added name kind ∈ events ∧ e = .ofUser name kind
  := by
  rw [List.mem_filterMap]
  constructor
  · rintro ⟨event, hevent, he⟩
    cases event with
    | added name kind => exact ⟨name, kind, hevent, (Option.some.inj he).symm⟩
    | released name => contradiction
    | given name => contradiction
  · rintro ⟨name, kind, hevent, rfl⟩
    exact ⟨_, hevent, rfl⟩

theorem filterMap_entry?_filter (events : List Event) (name : String) :
  (events.filter fun e => e.name ≠ name).filterMap Event.entry?
    = (events.filterMap Event.entry?).filter fun e => e.name ≠ name
  := by
  rw [List.filterMap_filter, List.filter_filterMap]
  apply List.filterMap_congr
  intro event _
  cases event with
  | added other kind =>
    by_cases hname : other = name <;>
      simp [Event.entry?, Event.name, Entry.ofUser, Option.filter_some, hname]
  | released other => apply ite_self
  | given other => apply ite_self

section

variable {config : Config} {past : List Event} {r r' : Registry} {name : String}

/-- A released name loses its entry, unless it was built in. -/
theorem entriesAfter_released (hname : name ∉ config.builtins) :
  config.entriesAfter (past ++ [.released name])
    = (config.entriesAfter past).filter fun e => e.name ≠ name
  := by
  have hbuiltins : (config.builtins.map fun name => Entry.ofBuiltin name (config.builtinKind name)).filter
      (fun e => e.name ≠ name)
      = config.builtins.map fun name => Entry.ofBuiltin name (config.builtinKind name) := by
    apply List.filter_eq_self.mpr
    intro e he
    obtain ⟨other, hother, rfl⟩ := List.mem_map.mp he
    apply decide_eq_true (ne_of_mem_of_not_mem hother hname)
  rw [Config.entriesAfter, Config.entriesAfter, standing_released, filterMap_entry?_filter,
    Entry.map_bare_filter, List.filter_append, hbuiltins]

namespace Follows

/-- An entry is there from the start, or it was added. -/
theorem of_mem (h : r.Follows config past) {e : Entry} (he : e ∈ r.entries) :
  (e.builtin = true ∧ e.name ∈ config.builtins)
    ∨ (e.builtin = false ∧ ∃ kind, .added e.name kind ∈ standing past)
  := by
  have hbare := List.mem_map_of_mem (f := Entry.bare) he
  rw [h.entries] at hbare
  rcases List.mem_append.mp hbare with hbare | hbare
  · obtain ⟨name, hname, heq⟩ := List.mem_map.mp hbare
    have hbuiltin : true = e.builtin := congrArg Entry.builtin heq
    have hsame : name = e.name := congrArg Entry.name heq
    exact Or.inl ⟨hbuiltin.symm, hsame ▸ hname⟩
  · obtain ⟨f, hf, heq⟩ := List.mem_map.mp hbare
    obtain ⟨name, kind, hevent, rfl⟩ := mem_filterMap_entry?.mp hf
    have hbuiltin : false = e.builtin := congrArg Entry.builtin heq
    have hsame : name = e.name := congrArg Entry.name heq
    exact Or.inr ⟨hbuiltin.symm, kind, hsame ▸ hevent⟩

/-- An entry that cannot be removed is of a built-in name. -/
theorem mem_builtins (h : r.Follows config past) {e : Entry} (he : e ∈ r.entries)
    (hbuiltin : e.builtin = true) :
  e.name ∈ config.builtins
  := by
  rcases h.of_mem he with ⟨-, hname⟩ | ⟨hfalse, -⟩
  · apply hname
  · rw [hbuiltin] at hfalse
    contradiction

/-- An entry that can be removed was added, and not released since. -/
theorem exists_added (h : r.Follows config past) {e : Entry} (he : e ∈ r.entries)
    (hbuiltin : e.builtin = false) :
  ∃ kind, .added e.name kind ∈ standing past
  := by
  rcases h.of_mem he with ⟨htrue, -⟩ | ⟨-, hevent⟩
  · rw [hbuiltin] at htrue
    contradiction
  · apply hevent

/-- Listed are the built-in names and those added and not released since. -/
theorem mem_names_iff (h : r.Follows config past) :
  name ∈ r.entries.map Entry.name
    ↔ name ∈ config.builtins ∨ ∃ kind, .added name kind ∈ standing past
  := by
  constructor
  · intro hname
    obtain ⟨e, he, rfl⟩ := List.mem_map.mp hname
    apply (h.of_mem he).imp And.right And.right
  · intro hname
    rw [← Entry.map_name_map_bare, h.entries, Config.entriesAfter, List.map_append,
      Entry.map_name_map_bare, List.map_map, List.mem_append]
    apply hname.imp
    · intro hbuiltin
      apply List.mem_map.mpr ⟨name, hbuiltin, rfl⟩
    · rintro ⟨kind, hevent⟩
      apply List.mem_map.mpr ⟨.ofUser name kind, mem_filterMap_entry?.mpr ⟨_, _, hevent, rfl⟩, rfl⟩

/-- A name is taken if it is there from the start, reserved by the configuration, added or given out. -/
theorem isTaken_iff (h : r.Follows config past) :
  r.isTaken name = true
    ↔ name ∈ config.builtins ∨ name ∈ config.reserved
      ∨ (∃ kind, .added name kind ∈ standing past) ∨ .given name ∈ standing past
  := by
  rw [Registry.isTaken_iff, takenNames, List.mem_append, h.mem_names_iff, h.reserved]
  tauto

/-! #### Each operation -/

theorem ofConfig (config : Config) :
  (Registry.ofConfig config).Follows config []
  := by
  constructor
  · rfl
  · rw [entries_ofConfig, Config.entriesAfter, List.map_map]
    apply (List.append_nil _).symm
  · intro name
    rw [Registry.ofConfig, List.mem_eraseDups]
    simp [standing]
  · intro name kind hevent
    cases hevent
  · intro name hevent
    cases hevent

/-- Values mean nothing to the past. -/
theorem setValue (h : r.Follows config past) {value : Option String}
    (hset : r.setValue name value = .ok r') :
  r'.Follows config past
  := by
  have hbare : r'.entries.map Entry.bare = r.entries.map Entry.bare := by
    rw [of_setValue hset, List.map_map]
    apply List.map_congr_left
    intro e _
    dsimp only [Function.comp]
    split <;> rfl
  rw [Registry.setValue, assign] at hset
  cases hlookup : r.lookup? name with
  | none =>
    rw [hlookup] at hset
    contradiction
  | some e =>
    rw [hlookup] at hset
    cases hset
    exact ⟨h.config_eq, hbare.trans h.entries, h.reserved, h.added, h.given⟩

theorem add (h : r.Follows config past) {kind : EntryKind} (hadd : r.add name kind = .ok r') :
  r'.Follows config (past ++ [.added name kind])
  := by
  obtain ⟨⟨hadmits, htaken⟩, rfl⟩ := add_eq_ok_iff.mp hadd
  have hfree : name ∉ r.takenNames := by
    rw [← Registry.isTaken_iff, htaken]
    apply Bool.false_ne_true
  rw [takenNames, List.mem_append, not_or, h.mem_names_iff, not_or] at hfree
  have hstanding := standing_concat past (e := .added name kind) nofun
  constructor
  · apply h.config_eq
  · rw [List.map_append, h.entries, Config.entriesAfter, Config.entriesAfter, hstanding,
      List.filterMap_append, List.map_append, List.append_assoc]
    rfl
  · intro name'
    rw [h.reserved, hstanding]
    simp
  · intro name' kind' hevent
    rw [hstanding] at hevent
    rcases List.mem_append.mp hevent with hevent | hevent
    · apply h.added _ _ hevent
    · cases List.mem_singleton.mp hevent
      exact ⟨h.config_eq ▸ hadmits, hfree.1.1, hfree.2⟩
  · intro name' hevent
    apply h.given
    rw [hstanding] at hevent
    simpa using hevent

/-- A name given out goes into the past, if the search for it ends. -/
theorem freshName (h : r.Follows config past) {now : UInt64}
    (hends : SyntheticName.HasName now (.seeded now) r.takenNames) :
  (r.freshName now).2.Follows config (past ++ [.given (r.freshName now).1])
  := by
  have hfree : (r.freshName now).1 ∉ r.takenNames := SyntheticName.fresh_notMem hends
  have hreserved : (r.freshName now).2.reserved = r.reserved ++ [(r.freshName now).1] := rfl
  generalize (r.freshName now).1 = name at hfree hreserved ⊢
  rw [takenNames, List.mem_append, not_or, h.mem_names_iff, not_or] at hfree
  have hstanding := standing_concat past (e := .given name) nofun
  constructor
  · apply h.config_eq
  · rw [Config.entriesAfter, hstanding, List.filterMap_append]
    apply h.entries.trans
    rw [Config.entriesAfter, show [Event.given name].filterMap Event.entry? = [] from rfl,
      List.append_nil]
  · intro name'
    rw [hreserved, hstanding, List.mem_append, List.mem_append, h.reserved, or_assoc,
      List.mem_singleton, List.mem_singleton, Event.given.injEq]
  · intro name' kind hevent
    rw [hstanding] at hevent
    have hevent' : .added name' kind ∈ standing past := by simpa using hevent
    obtain ⟨hadmits, hbuiltin, hnot⟩ := h.added _ _ hevent'
    refine ⟨hadmits, hbuiltin, ?_⟩
    rw [hreserved, List.mem_append, List.mem_singleton, not_or]
    use hnot
    rintro rfl
    apply hfree.1.2 ⟨_, hevent'⟩
  · intro name' hevent
    rw [hstanding] at hevent
    rcases List.mem_append.mp hevent with hevent | hevent
    · apply h.given _ hevent
    · cases List.mem_singleton.mp hevent
      use hfree.1.1
      intro hconfig
      apply hfree.2 ((h.reserved _).mpr (Or.inl hconfig))

/-- The release of a name for which no event stands changes nothing. -/
theorem released_of_notMem (h : r.Follows config past)
    (hadded : ∀ kind, .added name kind ∉ standing past) (hgiven : .given name ∉ standing past) :
  r.Follows config (past ++ [.released name])
  := by
  have hstanding : standing (past ++ [.released name]) = standing past := by
    rw [standing_released, List.filter_eq_self]
    rintro e he
    apply decide_eq_true
    rintro rfl
    cases e with
    | added name kind => apply hadded kind he
    | released name => apply released_notMem_standing past name he
    | given name => apply hgiven he
  constructor
  · apply h.config_eq
  · rw [h.entries, Config.entriesAfter, Config.entriesAfter, hstanding]
  · rw [hstanding]
    apply h.reserved
  · rw [hstanding]
    apply h.added
  · rw [hstanding]
    apply h.given

/-- The release of a name that was added takes its entry away, and nothing else stood for it. -/
theorem removeEntry (h : r.Follows config past) {kind : EntryKind}
    (hevent : .added name kind ∈ standing past) :
  Follows { r with entries := r.entries.filter fun f => f.name ≠ name } config
    (past ++ [.released name])
  := by
  obtain ⟨-, hnot, hfree⟩ := h.added _ _ hevent
  constructor
  · apply h.config_eq
  · rw [entriesAfter_released hnot, ← h.entries]
    apply Entry.map_bare_filter
  · intro other
    rw [mem_standing_released]
    refine (h.reserved other).trans (or_congr_right (and_iff_left_of_imp ?_).symm)
    rintro hother rfl
    apply hfree ((h.reserved _).mpr (Or.inr hother))
  · intro other kind hother
    apply h.added _ _ (mem_standing_released.mp hother).1
  · intro other hother
    apply h.given _ (mem_standing_released.mp hother).1

/-- The release of a name that has no entry leaves it reserved no longer, unless the configuration
reserves it. -/
theorem removeReserved (h : r.Follows config past) (hname : name ∉ r.entries.map Entry.name)
    (hconfig : name ∉ config.reserved) :
  Follows { r with reserved := r.reserved.filter fun n => n ≠ name } config
    (past ++ [.released name])
  := by
  have hnot := hname
  rw [h.mem_names_iff, not_or] at hnot
  constructor
  · apply h.config_eq
  · rw [entriesAfter_released hnot.1, ← h.entries, ← Entry.map_bare_filter]
    congr 1
    apply (List.filter_eq_self.mpr _).symm
    intro e he
    apply decide_eq_true (ne_of_mem_of_not_mem (List.mem_map_of_mem he) hname)
  · intro other
    rw [mem_standing_released, List.mem_filter, decide_eq_true_iff, h.reserved, or_and_right]
    refine or_congr_left (and_iff_left_of_imp ?_)
    rintro hother rfl
    apply hconfig hother
  · intro other kind hother
    obtain ⟨hadmits, hbuiltin, hfree⟩ := h.added _ _ (mem_standing_released.mp hother).1
    refine ⟨hadmits, hbuiltin, ?_⟩
    intro hmem
    apply hfree (List.mem_of_mem_filter hmem)
  · intro other hother
    apply h.given _ (mem_standing_released.mp hother).1

/-- A release takes away what stands for the name, among the entries or among what is reserved. -/
theorem remove (h : r.Follows config past) (name : String) :
  (r.remove name).2.Follows config (past ++ [.released name])
  := by
  rcases r.remove_cases name with ⟨e, he, rfl, hbuiltin, heq⟩ | ⟨e, he, rfl, hbuiltin, heq⟩
      | ⟨hname, hconfig, heq⟩ | ⟨hname, hconfig, heq⟩ <;> rw [heq]
  · have hmem := h.mem_builtins he hbuiltin
    apply h.released_of_notMem
    · intro kind hevent
      apply (h.added _ _ hevent).2.1 hmem
    · intro hevent
      apply (h.given _ hevent).1 hmem
  · obtain ⟨kind, hevent⟩ := h.exists_added he hbuiltin
    apply h.removeEntry hevent
  · apply h.released_of_notMem
    · intro kind hevent
      apply hname (h.mem_names_iff.mpr (Or.inr ⟨kind, hevent⟩))
    · intro hevent
      rw [h.config_eq] at hconfig
      apply (h.given _ hevent).2 hconfig
  · rw [h.config_eq] at hconfig
    apply h.removeReserved hname hconfig

/-- An operation leaves the registry that its event accounts for. -/
theorem after (h : r.Follows config past) (op : Operation)
    (hends : ∀ now, op = .freshName now → SyntheticName.HasName now (.seeded now) r.takenNames) :
  (r.after op).Follows config (past ++ (r.event? op).toList)
  := by
  cases op with
  | add name kind =>
    rw [Registry.after, event?]
    cases hresult : (r.enter name kind).1 with
    | error reason =>
      rw [enter_of_error hresult]
      simpa [Except.toOption] using h
    | ok e => apply h.add (accepted_eq_ok_iff.mpr ⟨⟨e, hresult⟩, rfl⟩)
  | remove name => apply h.remove
  | setValue name value =>
    rw [Registry.after, event?, Option.toList_none, List.append_nil]
    apply snd_of_accepted (P := fun r' : Registry => r'.Follows config past)
      (fun _ => assign_of_error) h
    intro r' hset
    apply h.setValue hset
  | freshName now => apply h.freshName (hends now rfl)

/-- Names from the start stay. -/
theorem remove_builtin (h : r.Follows config past) (hname : name ∈ config.builtins) :
  r.remove name = (none, r)
  := by
  have hmem := h.mem_names_iff.mpr (Or.inl hname)
  rcases r.remove_cases name with ⟨e, -, -, -, heq⟩ | ⟨e, he, rfl, hbuiltin, -⟩ | ⟨-, -, heq⟩
      | ⟨hnot, -⟩
  · apply heq
  · obtain ⟨kind, hevent⟩ := h.exists_added he hbuiltin
    exact absurd hname (h.added _ _ hevent).2.1
  · apply heq
  · exact absurd hmem hnot

/-- A name whose entry was removed can be added again. -/
theorem exists_add_of_remove (h : r.Follows config past) {e : Entry}
    (hremove : (r.remove name).1 = some e) (kind : EntryKind) :
  ∃ r', (r.remove name).2.add name kind = .ok r'
  := by
  obtain ⟨he, rfl, hentry, -⟩ := of_remove_some hremove
  obtain ⟨kind', hevent⟩ := h.exists_added he hentry
  obtain ⟨hadmits, hbuiltin, hfree⟩ := h.added _ _ hevent
  have hafter := h.remove e.name
  apply exists_add_iff.mpr
  rw [hafter.config_eq]
  use hadmits
  rw [Bool.eq_false_iff, Ne, hafter.isTaken_iff, not_or, not_or, not_or]
  refine ⟨hbuiltin, ?_, ?_, ?_⟩
  · intro hconfig
    apply hfree ((h.reserved _).mpr (Or.inl hconfig))
  · rintro ⟨kind, hstands⟩
    apply (mem_standing_released.mp hstands).2 rfl
  · intro hstands
    apply (mem_standing_released.mp hstands).2 rfl

end Follows

/-! ### Runs -/

theorem Runs.follows (h : Runs config past r) :
  r.Follows config past
  := by
  induction h with
  | refl => apply Follows.ofConfig
  | step _ op hends ih => apply ih.after op hends

theorem Runs.arises (h : Runs config past r) :
  r.Arises
  := by
  induction h with
  | refl => apply Arises.ofConfig
  | @step past r _ op _ ih =>
    cases op with
    | add name kind => apply ih.enter
    | remove name => apply ih.remove
    | setValue name value => apply ih.assign
    | freshName now => apply ih.freshName

/-- A registry is the ordered list of names that its past tells of.  Its entries are the names from the
start, which stay, and then those that were added, in the order in which they were added last.  A name
is taken exactly if it is there from the start, reserved by the configuration, or added or given out
and not released since, and it can be added exactly if it is not taken and keeps to the limits.  A
synthetic name that is given out was not taken. -/
theorem follows_names (h : Runs config past r) :
  r.entries.map Entry.bare = config.entriesAfter past
    ∧ (∀ e ∈ r.entries, e.sourceBlockId = paletteId e.name ∧ r.lookup? e.name = some e)
    ∧ (∀ name ∈ config.builtins, r.remove name = (none, r))
    ∧ (∀ name, r.isTaken name = true
      ↔ name ∈ config.builtins ∨ name ∈ config.reserved
        ∨ (∃ kind, .added name kind ∈ standing past) ∨ .given name ∈ standing past)
    ∧ (∀ name kind, (∃ r', r.add name kind = .ok r')
      ↔ config.Admits name ∧ r.isTaken name = false)
    ∧ (∀ name kind reason, r.add name kind = .error reason → r.after (.add name kind) = r)
    ∧ (∀ name e kind, (r.remove name).1 = some e →
      ∃ r', (r.remove name).2.add name kind = .ok r')
    ∧ ∀ now, (1000 * r.takenNames.length < 2 ^ 64 →
        SyntheticName.HasName now (.seeded now) r.takenNames)
      ∧ (SyntheticName.HasName now (.seeded now) r.takenNames →
        r.isTaken (r.freshName now).1 = false)
  := by
  have hfollows := h.follows
  have horderly := h.arises.orderly
  refine ⟨hfollows.entries, ?_, ?_, ?_, ?_, ?_, ?_, ?_⟩
  · intro e he
    exact ⟨horderly.source e he, horderly.lookup?_of_mem he⟩
  · intro name hname
    apply hfollows.remove_builtin hname
  · intro name
    apply hfollows.isTaken_iff
  · intro name kind
    rw [exists_add_iff, hfollows.config_eq]
  · intro name kind reason hadd
    apply enter_of_error (accepted_eq_error_iff.mp hadd)
  · intro name e kind hremove
    apply hfollows.exists_add_of_remove hremove
  · intro now
    constructor
    · apply SyntheticName.hasName_of_length_lt
    · intro hends
      rw [Bool.eq_false_iff, Ne, isTaken_iff]
      apply SyntheticName.fresh_notMem hends

end

/-- A name that is given out and released, and one that is added again with the other kind. -/
theorem follows_names_again :
  ∃ past r, Runs .standard past r
    ∧ past = [.given "var7", .added "n" .var, .released "n", .added "n" .position, .released "var7"]
    ∧ r.entries.map Entry.name = ["X", "Y", "Z", "p1", "p2", "p3", "n"]
    ∧ r.entries.map Entry.bare = Config.standard.entriesAfter past
    ∧ r.isTaken "n" = true ∧ ∃ r', (r.remove "n").2.add "n" .var = .ok r'
  := by
  have hstart : Runs .standard [] (.ofConfig .standard) := .refl
  have hgiven := hstart.step (.freshName 7) (by
    rintro now ⟨⟩
    apply SyntheticName.hasName_of_length_lt
    decide)
  have hadded := hgiven.step (.add "n" .var) nofun
  have hremoved := hadded.step (.remove "n") nofun
  have hagain := hremoved.step (.add "n" .position) nofun
  have hreleased := hagain.step (.remove "var7") nofun
  obtain ⟨hentries, -, -, htaken, -, -, hadd, -⟩ := follows_names hreleased
  refine ⟨_, _, hreleased, rfl, rfl, hentries, ?_, ?_⟩
  · apply (htaken "n").mpr
    exact Or.inr (Or.inr (Or.inl ⟨.position, by decide⟩))
  · apply hadd "n" _ .var rfl

end Registry

end BlockEditor
