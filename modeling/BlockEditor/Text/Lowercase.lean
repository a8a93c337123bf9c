import BlockEditor.Text.CaseData

/-!
# Lower case

`lowercase` maps a text to lower case by the full mapping of Unicode.  Two characters are
special.  The capital I with a dot above becomes two characters, `i` and a combining dot.  The
capital sigma becomes `ς` at the end of a word and `σ` elsewhere, so the lower case of a part of
a text need not be a part of the lower case of the text.
-/

namespace BlockEditor

namespace Text

/-- The lower case of a character on its own, if it is a single character. -/
def lowerChar (c : Char) : Char :=
  match lowerRuns.find? fun r =>
      r.first ≤ c.toNat && c.toNat ≤ r.last && (c.toNat - r.first) % r.step == 0 with
  | some r => Char.ofNat ((c.toNat : Int) + r.distance).toNat
  | none => c

def inRanges (ranges : List (Nat × Nat)) (c : Char) : Bool :=
  ranges.any fun r => r.1 ≤ c.toNat && c.toNat ≤ r.2

/-- The first character that is not case-ignorable is a letter with case. -/
def meetsCased (cs : List Char) : Bool :=
  match cs.dropWhile (inRanges caseIgnorable) with
  | c :: _ => inRanges casedLetters c
  | [] => false

/-- The lower case of a capital sigma: `before` are the characters in front of it, the nearest
first, and `behind` those behind it. -/
def lowerSigma (before behind : List Char) : Char :=
  if meetsCased before && !meetsCased behind then 'ς' else 'σ'

/-- The lower case of `cs`, in front of which stand the characters `before`, the nearest
first. -/
def lowerFrom (before : List Char) : List Char → List Char
  | [] => []
  | c :: cs =>
    (if c = 'Σ' then [lowerSigma before cs]
      else if c = 'İ' then ['i', '\u0307']
      else [lowerChar c])
    ++ lowerFrom (c :: before) cs

/-- The lower case of a text. -/
def lowercase (cs : List Char) : List Char :=
  lowerFrom [] cs

end Text

end BlockEditor
