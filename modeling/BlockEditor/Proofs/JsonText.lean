import BlockEditor.Proofs.Digits

/-!
# Reading what was written

`Json.read?` reads back every value that `Json.render` writes, whatever its strings, its numerals and its
depth are.  The readers stop where the writer does: a string ends at its quote, an array and an object at
their brackets, and behind a numeral there is never a character that could belong to it.
-/

namespace BlockEditor

namespace Json

/-! ### Strings -/

theorem hexValue?_hexDigit {n : Nat} (h : n < 16) :
  hexValue? (hexDigit n) = some n
  := by
  have hall : ∀ n < 16, hexValue? (hexDigit n) = some n := by decide
  apply hall n h

/-- A control character is spelled by two hexadecimal digits. -/
theorem hexUnit?_control {n : Nat} (h : n < 32) :
  hexUnit? '0' '0' (hexDigit (n / 16)) (hexDigit (n % 16)) = some n
  := by
  have hzero : hexValue? '0' = some 0 := rfl
  rw [hexUnit?, hzero, hexValue?_hexDigit (by omega), hexValue?_hexDigit (by omega)]
  dsimp only [bind, Option.bind, pure]
  rw [Nat.zero_mul, Nat.zero_add, Nat.div_add_mod']

theorem ofUnit_toNat {c : Char} (h : c.toNat < 32) :
  Piece.ofUnit c.toNat = .char c
  := by
  rw [Piece.ofUnit, if_neg (by omega), if_neg (by omega), Char.ofNat_toNat]

/-- A two-character escape is read back as the character it was written for. -/
theorem readPieces_short {e c : Char} (h : shortEscape? e = some c) (cs : List Char) :
  readPieces ('\\' :: e :: cs) = (readPieces cs).map fun (ps, rest) => (.char c :: ps, rest)
  := by
  rw [readPieces, h]
  · cases readPieces cs <;> rfl
  · rintro _ _ _ _ _ rfl
    contradiction

/-- A control character is read back from its four hexadecimal digits, of which the first two are zero.
-/
theorem readPieces_control {c : Char} (h : c.toNat < 32) (cs : List Char) :
  readPieces ('\\' :: 'u' :: '0' :: '0' :: hexDigit (c.toNat / 16) :: hexDigit (c.toNat % 16) :: cs)
    = (readPieces cs).map fun (ps, rest) => (.char c :: ps, rest)
  := by
  rw [readPieces, hexUnit?_control h, ← ofUnit_toNat h]
  cases readPieces cs <;> rfl

theorem readPieces_plain {c : Char} (hquote : c ≠ '"') (hslash : c ≠ '\\') (h : ¬ c.toNat < 32)
    (cs : List Char) :
  readPieces (c :: cs) = (readPieces cs).map fun (ps, rest) => (.char c :: ps, rest)
  := by
  rw [readPieces, if_neg h]
  · cases readPieces cs <;> rfl
  · apply hquote
  · rintro _ _ _ _ _ rfl
    contradiction
  · rintro _ _ rfl
    contradiction

/-- What stands for a character is read as that character. -/
theorem readPieces_escape (c : Char) (cs : List Char) :
  readPieces (escape c ++ cs) = (readPieces cs).map fun (ps, rest) => (.char c :: ps, rest)
  := by
  rw [escape]
  split_ifs with hquote hslash hback htab hline hform hreturn hcontrol
  · subst hquote
    apply readPieces_short rfl
  · subst hslash
    apply readPieces_short rfl
  · exact hback ▸ readPieces_short rfl cs
  · exact htab ▸ readPieces_short rfl cs
  · exact hline ▸ readPieces_short rfl cs
  · exact hform ▸ readPieces_short rfl cs
  · exact hreturn ▸ readPieces_short rfl cs
  · apply readPieces_control hcontrol
  · apply readPieces_plain hquote hslash hcontrol

/-- The pieces of a written text are its characters, up to the closing quote. -/
theorem readPieces_flatMap (cs rest : List Char) :
  readPieces (cs.flatMap escape ++ '"' :: rest) = some (cs.map .char, rest)
  := by
  induction cs with
  | nil => rw [List.flatMap_nil, List.nil_append, readPieces, List.map_nil]
  | cons c cs ih =>
    rw [List.flatMap_cons, List.append_assoc, readPieces_escape, ih, Option.map_some, List.map_cons]

theorem join?_map_char (cs : List Char) :
  Piece.join? (cs.map .char) = some cs
  := by
  induction cs with
  | nil => rfl
  | cons c cs ih => rw [List.map_cons, Piece.join?, ih, Option.map_some]

/-- The characters of a string literal behind its opening quote. -/
def textTail : Option String → List Char
  | some s => s.toList.flatMap escape ++ ['"']
  | none => ['\\', 'u', 'd', '8', '0', '0', '"']

theorem textChars_eq (t : Option String) :
  textChars t = '"' :: textTail t
  := by
  cases t <;> rfl

/-- A string is read back, also one that names no text. -/
theorem readText_textTail (t : Option String) (rest : List Char) :
  readText (textTail t ++ rest) = some (t, rest)
  := by
  cases t with
  | none => rfl
  | some s =>
    rw [textTail, List.append_assoc, List.singleton_append, readText, readPieces_flatMap]
    dsimp only [bind, Option.bind, pure]
    rw [join?_map_char, Option.map_some, String.ofList_toList]

/-! ### Values -/

theorem skipBlanks_cons {c : Char} (h : isBlank c = false) (cs : List Char) :
  skipBlanks (c :: cs) = c :: cs
  := by
  rw [skipBlanks, List.dropWhile_cons, if_neg (by simpa using h)]

/-- The first character of a value: it is not taken for a blank or the end of an array. -/
def Begins (c : Char) : Prop :=
  isBlank c = false ∧ c ≠ ']'

theorem begins_of_isDigit {c : Char} (h : isDigit c = true) :
  Begins c
  := by
  have hne : ∀ other, isDigit other = false → c ≠ other := by
    rintro other hother rfl
    rw [h] at hother
    contradiction
  constructor
  · simp [isBlank, hne ' ' rfl, hne '\t' rfl, hne '\n' rfl, hne '\r' rfl]
  · apply hne ']' rfl

/-- A numeral begins with a minus sign or a digit. -/
theorem exists_cons_numeral (n : Numeral) :
  ∃ c cs, n.chars = c :: cs ∧ (c = '-' ∨ isDigit c = true)
  := by
  rw [Numeral.chars]
  cases n.negative with
  | true => exact ⟨_, _, rfl, Or.inl rfl⟩
  | false =>
    obtain ⟨d, ds, hds, hdigit⟩ := exists_cons_toDigits n.whole
    rw [Numeral.wholeDigits, hds]
    exact ⟨d, _, rfl, Or.inr hdigit⟩

/-- No value is written as nothing, nor with a blank in front. -/
theorem exists_cons_chars (v : Json) :
  ∃ c cs, v.chars = c :: cs ∧ Begins c
  := by
  cases v with
  | null => exact ⟨_, _, rfl, rfl, by decide⟩
  | bool b => cases b <;> exact ⟨_, _, rfl, rfl, by decide⟩
  | number n =>
    obtain ⟨c, cs, hcs, hc⟩ := exists_cons_numeral n
    refine ⟨c, cs, hcs, ?_⟩
    rcases hc with rfl | hdigit
    · exact ⟨rfl, by decide⟩
    · apply begins_of_isDigit hdigit
  | string t => exact ⟨_, _, textChars_eq t, rfl, by decide⟩
  | array vs => cases vs <;> exact ⟨_, _, rfl, rfl, by decide⟩
  | object ms => cases ms <;> exact ⟨_, _, rfl, rfl, by decide⟩

theorem readValue_numeral {c : Char} (hc : c = '-' ∨ isDigit c = true) (fuel : Nat)
    (cs : List Char) :
  readValue (fuel + 1) (c :: cs) = (readNumeral (c :: cs)).map fun (n, rest) => (.number n, rest)
  := by
  have hblank : isBlank c = false := by
    rcases hc with rfl | hdigit
    · rfl
    · apply (begins_of_isDigit hdigit).1
  rw [readValue, skipBlanks_cons hblank]
  split
  case h_7 => rfl
  all_goals
    rename_i heq
    cases heq
    exact absurd hc (by decide)

theorem readValue_quote (fuel : Nat) (cs : List Char) :
  readValue (fuel + 1) ('"' :: cs) = (readText cs).map fun (t, rest) => (.string t, rest)
  := rfl

/-- An array with elements; the empty one is a case of its own for the reader. -/
theorem readValue_array {c : Char} (hc : Begins c) (fuel : Nat) (cs : List Char) :
  readValue (fuel + 1) ('[' :: c :: cs)
    = (readElements fuel (c :: cs)).map fun (vs, rest) => (.array vs, rest)
  := by
  rw [readValue, skipBlanks_cons rfl]
  split
  case h_5 heq =>
    cases heq
    rw [skipBlanks_cons hc.1]
    split
    · rename_i heq
      cases heq
      exact absurd rfl hc.2
    · rfl
  case h_7 =>
    rename_i hopen _
    exact absurd rfl (hopen _)
  all_goals
    rename_i heq
    cases heq

theorem readValue_object (fuel : Nat) (cs : List Char) :
  readValue (fuel + 1) ('{' :: '"' :: cs)
    = (readMembers fuel ('"' :: cs)).map fun (ms, rest) => (.object ms, rest)
  := rfl

/-! ### Elements and members -/

/-- The characters of an array behind its opening bracket. -/
def arrayTail : List Json → List Char
  | [] => [']']
  | v :: vs => v.chars ++ elementChars vs

/-- The characters of an object behind its opening brace. -/
def objectTail : List (Option String × Json) → List Char
  | [] => ['\x7d']
  | (k, v) :: ms => textChars k ++ ':' :: (v.chars ++ memberChars ms)

/-- Behind a value stands a comma or what closes an array or an object. -/
theorem leavesNumeral_cons {c : Char} (hc : c ∈ [',', ']', '\x7d']) (cs : List Char) :
  LeavesNumeral (c :: cs)
  := by
  have hends : c = ',' ∨ c = ']' ∨ c = '\x7d' := by simpa using hc
  constructor
  · rintro _ ⟨⟩
    rcases hends with rfl | rfl | rfl <;> rfl
  · rcases hends with rfl | rfl | rfl <;> simp
  · rcases hends with rfl | rfl | rfl <;> simp

/-- The last element, in front of the closing bracket. -/
theorem readElements_last {fuel : Nat} {cs rest : List Char} {v : Json}
    (h : readValue fuel cs = some (v, ']' :: rest)) :
  readElements (fuel + 1) cs = some ([v], rest)
  := by
  rw [readElements, h]
  rfl

/-- An element in front of others. -/
theorem readElements_comma {fuel : Nat} {cs rest more : List Char} {v : Json} {vs : List Json}
    (h : readValue fuel cs = some (v, ',' :: more)) (hmore : readElements fuel more = some (vs, rest)) :
  readElements (fuel + 1) cs = some (v :: vs, rest)
  := by
  have hstep : readElements (fuel + 1) cs
      = (readElements fuel more).bind fun (vs, rest) => some (v :: vs, rest) := by
    rw [readElements, h]
    rfl
  rw [hstep, hmore]
  rfl

/-- The last member, in front of the closing brace. -/
theorem readMembers_last {fuel : Nat} {cs rest : List Char} {v : Json} (k : Option String)
    (h : readValue fuel cs = some (v, '\x7d' :: rest)) :
  readMembers (fuel + 1) (textChars k ++ ':' :: cs) = some ([(k, v)], rest)
  := by
  rw [textChars_eq, List.cons_append]
  change (readText (textTail k ++ ':' :: cs)).bind _ = _
  rw [readText_textTail]
  change (readValue fuel cs).bind _ = _
  rw [h]
  rfl

/-- A member in front of others. -/
theorem readMembers_comma {fuel : Nat} {cs rest more : List Char} {v : Json} (k : Option String)
    {ms : List (Option String × Json)} (h : readValue fuel cs = some (v, ',' :: more))
    (hmore : readMembers fuel more = some (ms, rest)) :
  readMembers (fuel + 1) (textChars k ++ ':' :: cs) = some ((k, v) :: ms, rest)
  := by
  rw [textChars_eq, List.cons_append]
  change (readText (textTail k ++ ':' :: cs)).bind _ = _
  rw [readText_textTail]
  change (readValue fuel cs).bind _ = _
  rw [h]
  change (readMembers fuel more).bind _ = _
  rw [hmore]
  rfl

/-! ### Whole texts -/

theorem length_chars_pos (v : Json) :
  0 < v.chars.length
  := by
  obtain ⟨c, cs, hcs, -⟩ := exists_cons_chars v
  rw [hcs]
  apply Nat.succ_pos

/-- An array is its brackets with its elements between them. -/
theorem chars_array (vs : List Json) :
  (array vs).chars = '[' :: arrayTail vs
  := by
  cases vs <;> rfl

theorem chars_object (ms : List (Option String × Json)) :
  (object ms).chars = '\x7b' :: objectTail ms
  := by
  cases ms <;> rfl

mutual

/-- A value is read back from its characters, and the reader stops behind them. -/
theorem readValue_chars : ∀ (v : Json) {fuel : Nat} {rest : List Char}, LeavesNumeral rest →
    v.chars.length ≤ fuel → readValue fuel (v.chars ++ rest) = some (v, rest)
  | v, 0, rest, _, hfuel => by
      have hpos := length_chars_pos v
      omega
  | .null, fuel + 1, rest, _, _ => rfl
  | .bool true, fuel + 1, rest, _, _ => rfl
  | .bool false, fuel + 1, rest, _, _ => rfl
  | .number n, fuel + 1, rest, hrest, _ => by
      obtain ⟨c, cs, hcs, hc⟩ := exists_cons_numeral n
      have hread := readNumeral_chars n hrest
      rw [chars]
      rw [hcs, List.cons_append] at hread ⊢
      rw [readValue_numeral hc, hread, Option.map_some]
  | .string t, fuel + 1, rest, _, _ => by
      rw [chars, textChars_eq, List.cons_append, readValue_quote, readText_textTail, Option.map_some]
  | .array [], fuel + 1, rest, _, _ => rfl
  | .array (v :: vs), fuel + 1, rest, _, hfuel => by
      obtain ⟨c, cs, hcs, hc⟩ := exists_cons_chars v
      rw [chars_array] at hfuel ⊢
      have hread : readElements fuel (arrayTail (v :: vs) ++ rest) = some (v :: vs, rest) :=
        readElements_arrayTail (v :: vs) (List.cons_ne_nil v vs) (Nat.le_of_succ_le_succ hfuel)
      rw [arrayTail, hcs, List.cons_append] at hread ⊢
      rw [List.cons_append, List.cons_append, readValue_array hc, ← List.cons_append, hread,
        Option.map_some]
  | .object [], fuel + 1, rest, _, _ => rfl
  | .object ((k, v) :: ms), fuel + 1, rest, _, hfuel => by
      rw [chars_object] at hfuel ⊢
      have hread : readMembers fuel (objectTail ((k, v) :: ms) ++ rest) = some ((k, v) :: ms, rest) :=
        readMembers_objectTail ((k, v) :: ms) (List.cons_ne_nil _ ms) (Nat.le_of_succ_le_succ hfuel)
      rw [objectTail, textChars_eq, List.cons_append, List.cons_append] at hread
      rw [objectTail, textChars_eq, List.cons_append, List.cons_append, List.cons_append,
        readValue_object, hread, Option.map_some]

/-- The elements of an array are read back, with as much fuel as they have characters. -/
theorem readElements_arrayTail : ∀ (vs : List Json) {fuel : Nat} {rest : List Char}, vs ≠ [] →
    (arrayTail vs).length ≤ fuel → readElements fuel (arrayTail vs ++ rest) = some (vs, rest)
  | [], _, _, hne, _ => absurd rfl hne
  | v :: vs, 0, rest, _, hfuel => by
      have hpos := length_chars_pos v
      rw [arrayTail, List.length_append] at hfuel
      omega
  | [v], fuel + 1, rest, _, hfuel => by
      rw [arrayTail, elementChars, List.length_append, List.length_singleton] at hfuel
      rw [arrayTail, elementChars, List.append_assoc, List.singleton_append]
      apply readElements_last
      apply readValue_chars v (leavesNumeral_cons (by decide) rest) (Nat.le_of_succ_le_succ hfuel)
  | v :: w :: vs, fuel + 1, rest, _, hfuel => by
      have hpos := length_chars_pos v
      have htail : elementChars (w :: vs) = ',' :: arrayTail (w :: vs) := rfl
      rw [arrayTail, htail, List.length_append, List.length_cons] at hfuel
      rw [arrayTail, htail, List.append_assoc, List.cons_append]
      apply readElements_comma
      · apply readValue_chars v (leavesNumeral_cons (by decide) _) (by omega)
      · apply readElements_arrayTail (w :: vs) (List.cons_ne_nil w vs) (by omega)

/-- The members of an object are read back, with as much fuel as they have characters. -/
theorem readMembers_objectTail : ∀ (ms : List (Option String × Json)) {fuel : Nat} {rest : List Char},
    ms ≠ [] → (objectTail ms).length ≤ fuel →
    readMembers fuel (objectTail ms ++ rest) = some (ms, rest)
  | [], _, _, hne, _ => absurd rfl hne
  | (k, v) :: ms, 0, rest, _, hfuel => by
      rw [objectTail, textChars_eq] at hfuel
      contradiction
  | [(k, v)], fuel + 1, rest, _, hfuel => by
      rw [objectTail, memberChars, List.length_append, List.length_cons, List.length_append] at hfuel
      rw [objectTail, memberChars, List.append_assoc, List.cons_append, List.append_assoc,
        List.singleton_append]
      apply readMembers_last
      apply readValue_chars v (leavesNumeral_cons (by decide) rest) (by omega)
  | (k, v) :: (l, w) :: ms, fuel + 1, rest, _, hfuel => by
      have htail : memberChars ((l, w) :: ms) = ',' :: objectTail ((l, w) :: ms) := rfl
      rw [objectTail, htail, List.length_append, List.length_cons, List.length_append,
        List.length_cons] at hfuel
      rw [objectTail, htail, List.append_assoc, List.cons_append, List.append_assoc, List.cons_append]
      apply readMembers_comma
      · apply readValue_chars v (leavesNumeral_cons (by decide) _) (by omega)
      · apply readMembers_objectTail ((l, w) :: ms) (List.cons_ne_nil _ ms) (by omega)

end

/-- Every value is read back from the text that is written for it. -/
theorem read?_render (v : Json) :
  read? v.render = some v
  := by
  have hend : LeavesNumeral [] := ⟨nofun, nofun, nofun, nofun⟩
  have hread : readValue (v.chars.length + 1) (v.chars ++ []) = some (v, []) :=
    readValue_chars v hend (Nat.le_succ _)
  rw [List.append_nil] at hread
  rw [render, read?, String.toList_ofList, hread]
  rfl

end Json

end BlockEditor
