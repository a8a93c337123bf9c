import BlockEditor.Palette.Catalog
import BlockEditor.Text.Lowercase
import Mathlib.Data.List.Forall2
import Mathlib.Data.List.TakeWhile

/-!
# Searching the palette

A query finds a template if its lower case is part of the lower case of the id or of the label.  The
lower case of a text is that of its characters one by one, but for a capital sigma, which becomes `ς` or
`σ` by what stands around it.  So a query that is written in a label is found where its sigmas become the
same letters in the label and in the query alone.  `Text.IsSettled` states that they do in every text,
and the settled queries are those that are found wherever they are written.
-/

namespace BlockEditor

namespace Text

/-! ### The end of a word -/

section

variable {cs ds : List Char}

/-- Characters that do not interrupt a word are passed over. -/
theorem meetsCased_append_of_ignorable (h : ∀ c ∈ cs, inRanges caseIgnorable c = true) :
  meetsCased (cs ++ ds) = meetsCased ds
  := by
  rw [meetsCased, List.dropWhile_append_of_pos h, meetsCased]

theorem meetsCased_of_ignorable (h : ∀ c ∈ cs, inRanges caseIgnorable c = true) :
  meetsCased cs = false
  := by
  rw [← List.append_nil cs, meetsCased_append_of_ignorable h]
  rfl

/-- If a character interrupts the word, what stands behind it does not count. -/
theorem meetsCased_append (h : ¬ ∀ c ∈ cs, inRanges caseIgnorable c = true) :
  meetsCased (cs ++ ds) = meetsCased cs
  := by
  have hne : cs.dropWhile (inRanges caseIgnorable) ≠ [] := by
    intro hnil
    apply h (List.dropWhile_eq_nil_iff.mp hnil)
  rw [meetsCased, meetsCased, List.dropWhile_append]
  cases hrest : cs.dropWhile (inRanges caseIgnorable) with
  | nil => contradiction
  | cons c rest => rfl

/-- Where a letter is met, what stands behind it does not count. -/
theorem meetsCased_append_of_true (h : meetsCased cs = true) :
  meetsCased (cs ++ ds) = true
  := by
  rw [meetsCased_append, h]
  intro hall
  rw [meetsCased_of_ignorable hall] at h
  contradiction

theorem meetsCased_letter :
  meetsCased ['a'] = true
  := by
  decide +kernel

theorem meetsCased_append_letter (cs : List Char) :
  meetsCased (cs ++ ['a']) = true ∨ meetsCased (cs ++ ['a']) = meetsCased cs
  := by
  by_cases h : ∀ c ∈ cs, inRanges caseIgnorable c = true
  · left
    rw [meetsCased_append_of_ignorable h, meetsCased_letter]
  · right
    apply meetsCased_append h

end

/-! ### The lower case of a part of a text -/

/-- The lower case of a character between the given ones, those before it the nearest first. -/
def lowerAt (before : List Char) (c : Char) (behind : List Char) : List Char :=
  if c = 'Σ' then [lowerSigma before behind]
  else if c = 'İ' then ['i', '\u0307']
  else [lowerChar c]

/-- The lower case of a part of a text between the given characters, those before it the nearest
first. -/
def lowerPart (before : List Char) : (part behind : List Char) → List Char
  | [], _ => []
  | c :: cs, behind => lowerAt before c (cs ++ behind) ++ lowerPart (c :: before) cs behind

/-- The lower case of a text is made of those of its parts, each of them where it stands. -/
theorem lowerFrom_append (before part behind : List Char) :
  lowerFrom before (part ++ behind)
    = lowerPart before part behind ++ lowerFrom (part.reverse ++ before) behind
  := by
  induction part generalizing before with
  | nil => rfl
  | cons c cs ih =>
    rw [List.cons_append, lowerFrom, ih, lowerPart, List.reverse_cons, List.append_assoc,
      List.append_assoc, List.singleton_append]
    rfl

theorem lowerFrom_eq_lowerPart (before cs : List Char) :
  lowerFrom before cs = lowerPart before cs []
  := by
  have h := lowerFrom_append before cs []
  rw [List.append_nil, lowerFrom, List.append_nil] at h
  apply h

/-- The lower cases of a part alone and of the part between other characters are related letter by letter
exactly if those of its capital sigmas are. -/
theorem forall₂_lowerPart_iff {R : Char → Char → Prop} (hrefl : ∀ c, R c c)
    (front before part behind : List Char) :
  List.Forall₂ R (lowerPart front part []) (lowerPart (front ++ before) part behind)
    ↔ ∀ fore back, part = fore ++ 'Σ' :: back →
      R (lowerSigma (fore.reverse ++ front) back)
        (lowerSigma (fore.reverse ++ front ++ before) (back ++ behind))
  := by
  induction part generalizing front with
  | nil => simp [lowerPart]
  | cons c cs ih =>
    have htail := ih (c :: front)
    rw [lowerPart, lowerPart, List.append_nil]
    have hcons : (∀ fore back, c :: cs = fore ++ 'Σ' :: back →
          R (lowerSigma (fore.reverse ++ front) back)
            (lowerSigma (fore.reverse ++ front ++ before) (back ++ behind)))
        ↔ (c = 'Σ' → R (lowerSigma front cs) (lowerSigma (front ++ before) (cs ++ behind)))
          ∧ ∀ fore back, cs = fore ++ 'Σ' :: back →
            R (lowerSigma (fore.reverse ++ c :: front) back)
              (lowerSigma (fore.reverse ++ c :: front ++ before) (back ++ behind)) := by
      constructor
      · intro h
        constructor
        · rintro rfl
          apply h [] cs rfl
        · rintro fore back rfl
          simpa using h (c :: fore) back rfl
      · rintro ⟨hhead, htail⟩ fore back hsplit
        cases fore with
        | nil =>
          cases hsplit
          apply hhead rfl
        | cons d fore =>
          cases hsplit
          simpa using htail fore back rfl
    rw [hcons, ← htail, lowerAt, lowerAt]
    split
    · rename_i hc
      simp [hc]
    · rename_i hc
      split <;> simp [hc, hrefl]

/-! ### Sigmas -/

/-- Each capital sigma of the part has the same lower case between the given characters, those before it
the nearest first, as in the part alone. -/
def KeepsSigmas (before part behind : List Char) : Prop :=
  ∀ fore back, part = fore ++ 'Σ' :: back →
    lowerSigma (fore.reverse ++ before) (back ++ behind) = lowerSigma fore.reverse back

/-- The capital sigmas of the part have the same lower cases in every text. -/
def IsSettled (part : List Char) : Prop :=
  ∀ before behind, KeepsSigmas before part behind

/-- The part is written in the text, at a place where its sigmas have the lower cases that they have in
the part alone. -/
def StandsIn (part text : List Char) : Prop :=
  ∃ before behind, text = before ++ part ++ behind ∧ KeepsSigmas before.reverse part behind

variable {part text : List Char}

/-- A part keeps its lower case exactly where its sigmas do. -/
theorem keepsSigmas_iff {before behind : List Char} :
  KeepsSigmas before part behind ↔ lowerPart before part behind = lowercase part
  := by
  have h := forall₂_lowerPart_iff (R := Eq) (fun _ => rfl) [] before part behind
  simp only [List.forall₂_eq_eq_eq, List.append_nil, List.nil_append] at h
  rw [lowercase, lowerFrom_eq_lowerPart, eq_comm (a := lowerPart before part behind), h, KeepsSigmas]
  simp only [eq_comm]

/-- What stands in a text is found in it. -/
theorem StandsIn.lowercase_part (h : StandsIn part text) :
  lowercase part <:+: lowercase text
  := by
  obtain ⟨before, behind, rfl, hkeeps⟩ := h
  have hpart := keepsSigmas_iff.mp hkeeps
  have hsplit : lowercase (before ++ part ++ behind)
      = lowerPart [] before (part ++ behind)
        ++ (lowercase part ++ lowerFrom (part.reverse ++ before.reverse) behind) := by
    rw [lowercase, List.append_assoc, lowerFrom_append, List.append_nil, lowerFrom_append, hpart]
  rw [hsplit, ← List.append_assoc]
  apply List.infix_append

theorem IsSettled.standsIn (h : IsSettled part) (hpart : part <:+: text) :
  StandsIn part text
  := by
  obtain ⟨before, behind, htext⟩ := hpart
  use before, behind, htext.symm
  apply h

/-- A part is settled if each capital sigma in it has a letter behind it. -/
theorem isSettled_of_meetsCased
    (h : ∀ fore back, part = fore ++ 'Σ' :: back → meetsCased back = true) :
  IsSettled part
  := by
  intro before behind fore back hsplit
  have hback := h fore back hsplit
  rw [lowerSigma, lowerSigma, hback, meetsCased_append_of_true hback, Bool.not_true, Bool.and_false,
    Bool.and_false]

theorem lowerSigma_eq_iff {before before' behind behind' : List Char} :
  lowerSigma before behind = lowerSigma before' behind'
    ↔ (meetsCased before && !meetsCased behind) = (meetsCased before' && !meetsCased behind')
  := by
  rw [lowerSigma, lowerSigma]
  cases meetsCased before && !meetsCased behind <;>
    cases meetsCased before' && !meetsCased behind' <;> decide

/-- If a letter at either end of a part does not change the lower case of its sigmas, then nothing
does. -/
theorem isSettled_iff :
  IsSettled part ↔ KeepsSigmas [] part ['a'] ∧ KeepsSigmas ['a'] part []
  := by
  constructor
  · intro h
    exact ⟨h [] ['a'], h ['a'] []⟩
  rintro ⟨hbehind, hbefore⟩ before behind fore back hsplit
  have h₁ := hbehind fore back hsplit
  have h₂ := hbefore fore back hsplit
  rw [lowerSigma_eq_iff, List.append_nil] at h₁ h₂
  rw [lowerSigma_eq_iff]
  by_cases hfore : ∀ c ∈ fore.reverse, inRanges caseIgnorable c = true
  · -- the sigma would begin a word that a letter before it continues
    have hletter : meetsCased back = true := by
      rw [meetsCased_append_of_ignorable hfore, meetsCased_letter, meetsCased_of_ignorable hfore] at h₂
      simpa using h₂
    rw [hletter, meetsCased_append_of_true hletter, Bool.not_true, Bool.and_false, Bool.and_false]
  rw [meetsCased_append hfore]
  by_cases hback : ∀ c ∈ back, inRanges caseIgnorable c = true
  · -- the sigma would end a word that a letter behind it continues
    have hletter : meetsCased fore.reverse = false := by
      rw [meetsCased_append_of_ignorable hback, meetsCased_letter, meetsCased_of_ignorable hback] at h₁
      simpa using h₁.symm
    rw [hletter, Bool.false_and, Bool.false_and]
  · rw [meetsCased_append hback]

/-- Letters of which some have become another one are the same if no less of the first are left. -/
theorem eq_of_count_le {a b : Char} (hne : b ≠ a) {xs ys : List Char}
    (h : List.Forall₂ (fun x y => x = y ∨ x = a ∧ y = b) xs ys) :
  ys.count a ≤ xs.count a ∧ (xs.count a ≤ ys.count a → xs = ys)
  := by
  induction h with
  | nil => simp
  | cons hxy _ ih =>
    obtain ⟨hle, heq⟩ := ih
    rcases hxy with rfl | ⟨rfl, rfl⟩
    · constructor
      · simpa [List.count_cons] using hle
      · intro hcount
        rw [heq (by simpa [List.count_cons] using hcount)]
    · rw [List.count_cons_self, List.count_cons_of_ne hne]
      omega

/-- The sigmas of a part keep their lower cases if the only change there can be is one from the first
letter to the second, and no less of the first are left. -/
theorem keepsSigmas_of_count_le {a b : Char} (hne : b ≠ a) {before behind : List Char}
    (hchange : ∀ fore back, part = fore ++ 'Σ' :: back →
      lowerSigma fore.reverse back = lowerSigma (fore.reverse ++ before) (back ++ behind)
        ∨ lowerSigma fore.reverse back = a
          ∧ lowerSigma (fore.reverse ++ before) (back ++ behind) = b)
    (hcount : (lowercase part).count a ≤ (lowerPart before part behind).count a) :
  KeepsSigmas before part behind
  := by
  have hrel := (forall₂_lowerPart_iff (R := fun x y => x = y ∨ x = a ∧ y = b) (fun _ => Or.inl rfl)
    [] before part behind).mpr (by simpa only [List.append_nil] using hchange)
  rw [List.nil_append, ← lowerFrom_eq_lowerPart] at hrel
  apply keepsSigmas_iff.mpr
  apply ((eq_of_count_le hne hrel).2 hcount).symm

theorem lowerFrom_letter (before cs : List Char) :
  lowerFrom before ('a' :: cs) = 'a' :: lowerFrom ('a' :: before) cs
  := by
  have h : lowerChar 'a' = 'a' := by decide +kernel
  simp [lowerFrom, h]

/-- A part that is found in front of a letter and behind one is settled. -/
theorem isSettled_of_found (hbehind : lowercase part <:+: lowercase (part ++ ['a']))
    (hbefore : lowercase part <:+: lowercase ('a' :: part)) :
  IsSettled part
  := by
  apply isSettled_iff.mpr
  constructor
  · -- a letter behind the part can only make a final sigma one that is not final
    apply keepsSigmas_of_count_le (a := 'ς') (b := 'σ') (by decide)
    · intro fore back _
      rw [List.append_nil, lowerSigma, lowerSigma]
      rcases meetsCased_append_letter back with h | h
      · rw [h]
        cases meetsCased fore.reverse && !meetsCased back <;> simp
      · rw [h]
        apply Or.inl rfl
    · have hsplit : lowercase (part ++ ['a']) = lowerPart [] part ['a'] ++ ['a'] := by
        rw [lowercase, lowerFrom_append, lowerFrom_letter, lowerFrom]
      rw [hsplit] at hbehind
      simpa [List.count_append] using hbehind.sublist.count_le 'ς'
  · -- a letter before it can only make a sigma that is not final one that is
    apply keepsSigmas_of_count_le (a := 'σ') (b := 'ς') (by decide)
    · intro fore back _
      rw [List.append_nil, lowerSigma, lowerSigma]
      rcases meetsCased_append_letter fore.reverse with h | h
      · rw [h]
        cases meetsCased fore.reverse <;> cases meetsCased back <;> simp
      · rw [h]
        apply Or.inl rfl
    · have hsplit : lowercase ('a' :: part) = 'a' :: lowerPart ['a'] part [] := by
        rw [lowercase, lowerFrom_letter, lowerFrom_eq_lowerPart]
      rw [hsplit] at hbefore
      simpa using hbefore.sublist.count_le 'σ'

/-- A part that is not settled has a sigma in its lower case. -/
theorem exists_sigma_of_not_isSettled (h : ¬ IsSettled part) :
  ∃ c ∈ lowercase part, c = 'ς' ∨ c = 'σ'
  := by
  simp only [IsSettled, KeepsSigmas, not_forall] at h
  obtain ⟨before, behind, fore, back, rfl, -⟩ := h
  refine ⟨lowerSigma fore.reverse back, ?_, ?_⟩
  · rw [lowercase, lowerFrom_append, List.append_nil]
    apply List.mem_append_right
    apply List.mem_append_left
    apply List.mem_singleton_self
  · rw [lowerSigma]
    split <;> simp

end Text

/-! ### Queries -/

namespace Template

/-- The query is part of the id or of the label, character by character. -/
def Writes (t : Template) (query : String) : Prop :=
  query.toList <:+: t.id.toList ∨ query.toList <:+: t.label.toList

/-- The query is part of the id or of the label, at a place where its capital sigmas have the lower cases
that they have in the query alone. -/
def Shows (t : Template) (query : String) : Prop :=
  Text.StandsIn query.toList t.id.toList ∨ Text.StandsIn query.toList t.label.toList

variable {t : Template} {query : String}

/-- A query finds the templates whose id, label or category has its lower case. -/
theorem matchesQuery_iff :
  t.matchesQuery query = true
    ↔ query = "" ∨ Text.lowercase query.toList <:+: Text.lowercase t.id.toList
      ∨ Text.lowercase query.toList <:+: Text.lowercase t.label.toList
      ∨ Text.lowercase query.toList <:+: t.kind.category.wireName.toList
  := by
  rw [matchesQuery, ← String.isEmpty_iff]
  cases query.isEmpty <;> simp [Scan.contains_iff, or_assoc]

theorem matchesQuery_of_shows (h : t.Shows query) :
  t.matchesQuery query = true
  := by
  apply matchesQuery_iff.mpr
  rcases h with h | h
  · exact Or.inr (Or.inl h.lowercase_part)
  · exact Or.inr (Or.inr (Or.inl h.lowercase_part))

theorem shows_of_isSettled (hsettled : Text.IsSettled query.toList) (h : t.Writes query) :
  t.Shows query
  := h.imp hsettled.standsIn hsettled.standsIn

/-- A query that is not settled and found wherever it is written is found by its lower case: the category
has no sigma. -/
theorem lowercase_part_of_found (hunsettled : ¬ Text.IsSettled query.toList)
    (h : ∀ t : Template, t.Writes query → t.matchesQuery query = true) {text : List Char}
    (hpart : query.toList <:+: text) :
  Text.lowercase query.toList <:+: Text.lowercase text
  := by
  obtain ⟨c, hc, hsigma⟩ := Text.exists_sigma_of_not_isSettled hunsettled
  have htext : (String.ofList text).toList = text := String.toList_ofList
  have hfound := h ⟨String.ofList text, String.ofList text, .plain .move [], none⟩
    (Or.inl (htext.symm ▸ hpart))
  rw [matchesQuery_iff, htext] at hfound
  rcases hfound with rfl | hfound | hfound | hfound
  · cases hc
  · apply hfound
  · apply hfound
  · have hplain : "block-move".toList.all (fun c => !decide (c = 'ς' ∨ c = 'σ')) = true := by decide
    have hc := List.all_eq_true.mp hplain c (hfound.subset hc)
    rw [Bool.not_eq_true', decide_eq_false_iff_not] at hc
    contradiction

/-- The queries that are found wherever they are written are those that are settled. -/
theorem isSettled_iff_forall_matchesQuery :
  Text.IsSettled query.toList ↔ ∀ t : Template, t.Writes query → t.matchesQuery query = true
  := by
  constructor
  · intro h t ht
    apply matchesQuery_of_shows (shows_of_isSettled h ht)
  · intro h
    by_contra hunsettled
    apply hunsettled
    apply Text.isSettled_of_found
    · apply lowercase_part_of_found hunsettled h
      apply (List.prefix_append _ _).isInfix
    · apply lowercase_part_of_found hunsettled h
      apply (List.suffix_cons _ _).isInfix

/-- A template is found by every query that is written in its id or its label at a place where the sigmas
of the query have the lower cases that they have in the query alone.  The queries that are found wherever
they are written are the settled ones, and a settled query is found by what is found by a longer text
that has it and is written in the template. -/
theorem found_where_written (query : String) :
  (∀ t : Template, t.Shows query → t.matchesQuery query = true)
    ∧ ((∀ t : Template, t.Writes query → t.matchesQuery query = true)
      ↔ Text.IsSettled query.toList)
    ∧ (Text.IsSettled query.toList → ∀ (catalog : Catalog) (longer : String),
      query.toList <:+: longer.toList → ∀ t ∈ catalog.search longer, t.Writes longer →
        t ∈ catalog.search query)
  := by
  refine ⟨fun t => matchesQuery_of_shows, isSettled_iff_forall_matchesQuery.symm, ?_⟩
  intro hsettled catalog longer hlonger t ht hwrites
  have hquery : t.Writes query := hwrites.imp hlonger.trans hlonger.trans
  apply List.mem_filter.mpr
  use (List.mem_filter.mp ht).1
  apply isSettled_iff_forall_matchesQuery.mp hsettled t hquery

end Template

/-- A catalog with a label in which a sigma stands in front of a letter. -/
def Catalog.motion : Catalog :=
  ⟨[⟨"block-motion", "ΚΙΝΗΣΗ", .plain .move [], none⟩], by decide⟩

/-- The end of the label is settled, since a letter stands behind its sigma, and it is found. -/
theorem Template.found_where_written_motion :
  Text.IsSettled "ΗΣΗ".toList
    ∧ (∀ t ∈ Catalog.motion.templates, t.matchesQuery "ΗΣΗ" = true)
    ∧ ∀ t ∈ Catalog.motion.search "ΚΙΝΗΣΗ", t ∈ Catalog.motion.search "ΗΣΗ"
  := by
  have hsettled : Text.IsSettled "ΗΣΗ".toList := by
    apply Text.isSettled_of_meetsCased
    intro fore back h
    have hlist : "ΗΣΗ".toList = ['Η', 'Σ', 'Η'] := by decide
    have hback : back = ['Η'] := by
      rw [hlist] at h
      rcases fore with _ | ⟨_, _ | ⟨_, _ | ⟨_, fore⟩⟩⟩ <;> simp at h
      apply h.2.symm
    rw [hback]
    decide +kernel
  have hlabel : ∀ t ∈ Catalog.motion.templates, t.label = "ΚΙΝΗΣΗ" := by decide
  have hpart : "ΗΣΗ".toList <:+: "ΚΙΝΗΣΗ".toList := by
    use ['Κ', 'Ι', 'Ν'], []
    decide
  obtain ⟨-, hwritten, hlonger⟩ := Template.found_where_written "ΗΣΗ"
  refine ⟨hsettled, ?_, ?_⟩
  · intro t ht
    apply hwritten.mpr hsettled t (Or.inr _)
    rw [hlabel t ht]
    apply hpart
  · intro t ht
    apply hlonger hsettled .motion "ΚΙΝΗΣΗ" hpart t ht
    exact Or.inr (hlabel t (List.mem_filter.mp ht).1 ▸ List.infix_refl _)

/-- The beginning of the label is not: a sigma at its end ends the word in the query and not in the label.
So the template is found by a shorter query and by a longer one, and in between it is hidden. -/
theorem Template.hidden_while_typing :
  ∃ t ∈ Catalog.motion.templates, t.matchesQuery "ΚΙΝΗ" = true
    ∧ (t.Writes "ΚΙΝΗΣ" ∧ t.matchesQuery "ΚΙΝΗΣ" = false) ∧ t.matchesQuery "ΚΙΝΗΣΗ" = true
  := by
  refine ⟨_, List.mem_cons_self .., by decide +kernel, ⟨Or.inr ?_, by decide +kernel⟩,
    by decide +kernel⟩
  use [], ['Η']
  decide

end BlockEditor
