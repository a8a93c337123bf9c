/-!
# Tables

A `Table` holds values under keys, each key once, in the order in which the keys were first
inserted.
-/

namespace BlockEditor

/-- Values under keys, no key twice. -/
structure Table (α : Type) where
  entries : List (String × α)
  nodup_keys : (entries.map Prod.fst).Nodup
deriving DecidableEq, Repr

namespace Table

variable {α : Type}

def empty : Table α :=
  ⟨[], List.nodup_nil⟩

instance : Inhabited (Table α) :=
  ⟨empty⟩

/-- Replaces the value under a key in its place, or adds the key at the end. -/
def insertInto (key : String) (value : α) : List (String × α) → List (String × α)
  | [] => [(key, value)]
  | (k, v) :: es => if k = key then (k, value) :: es else (k, v) :: insertInto key value es

/-- The keys after an insertion: the same ones, or the new key behind them. -/
theorem keys_insertInto (key : String) (value : α) (es : List (String × α)) :
  (insertInto key value es).map Prod.fst
    = if key ∈ es.map Prod.fst then es.map Prod.fst else es.map Prod.fst ++ [key]
  := by
  induction es with
  | nil => simp [insertInto]
  | cons e es ih =>
    obtain ⟨k, v⟩ := e
    by_cases hk : k = key
    · simp [insertInto, hk]
    · have hk' : key ≠ k := fun h => hk h.symm
      simp only [insertInto, hk, if_false, List.map_cons, ih, List.mem_cons, hk', false_or]
      split <;> simp

theorem nodup_insertInto {key : String} {value : α} {es : List (String × α)}
    (h : (es.map Prod.fst).Nodup) :
  ((insertInto key value es).map Prod.fst).Nodup
  := by
  rw [keys_insertInto]
  split
  · assumption
  · next hkey =>
    rw [List.nodup_append]
    refine ⟨h, by simp, ?_⟩
    intro a ha b hb
    simp only [List.mem_singleton] at hb
    subst hb
    exact fun hab => hkey (hab ▸ ha)

/-- Puts a value under a key.  A key that is there already keeps its place. -/
def insert (t : Table α) (key : String) (value : α) : Table α :=
  ⟨insertInto key value t.entries, nodup_insertInto t.nodup_keys⟩

/-- The value under a key. -/
def get? (t : Table α) (key : String) : Option α :=
  t.entries.lookup key

def isEmpty (t : Table α) : Bool :=
  t.entries.isEmpty

end Table

end BlockEditor
