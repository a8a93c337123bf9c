import BlockEditor.Json.Value

/-!
# Written JSON

`Json.render` writes a value without blanks, members in order.  Within a string only the quote,
the backslash and the characters below U+0020 are escaped, with the short escape where there is
one.  `Json.renderIndented` writes one element or member a line instead.
-/

namespace BlockEditor

namespace Json

/-- The lower-case hexadecimal digit of a number below 16. -/
def hexDigit (n : Nat) : Char :=
  if n < 10 then Char.ofNat (48 + n) else Char.ofNat (87 + n)

/-- The characters that stand for `c` within a written string. -/
def escape (c : Char) : List Char :=
  if c = '"' then ['\\', '"']
  else if c = '\\' then ['\\', '\\']
  else if c = '\x08' then ['\\', 'b']
  else if c = '\t' then ['\\', 't']
  else if c = '\n' then ['\\', 'n']
  else if c = '\x0c' then ['\\', 'f']
  else if c = '\r' then ['\\', 'r']
  else if c.toNat < 32 then
    ['\\', 'u', '0', '0', hexDigit (c.toNat / 16), hexDigit (c.toNat % 16)]
  else [c]

/-- The string literal that names `s`. -/
def quoted (s : String) : List Char :=
  '"' :: (s.toList.flatMap escape ++ ['"'])

/-- The string literal of a text, or one whose only escape is an unpaired surrogate. -/
def textChars : Option String → List Char
  | some s => quoted s
  | none => ['"', '\\', 'u', 'd', '8', '0', '0', '"']

end Json

/-- The point and the digits behind it, if there are any. -/
def Numeral.placeChars (n : Numeral) : List Char :=
  if n.places = 0 then [] else '.' :: n.placeDigits

/-- The exponent part of a numeral. -/
def Numeral.exponentChars : Option Int → List Char
  | none => []
  | some (.ofNat n) => 'e' :: Nat.toDigits 10 n
  | some (.negSucc n) => 'e' :: '-' :: Nat.toDigits 10 (n + 1)

/-- The sign, the digits and the exponent of a numeral. -/
def Numeral.chars (n : Numeral) : List Char :=
  (if n.negative then ['-'] else [])
    ++ (n.wholeDigits ++ (n.placeChars ++ Numeral.exponentChars n.exponent))

namespace Json

mutual

/-- The written form of a value. -/
def chars : Json → List Char
  | .null => ['n', 'u', 'l', 'l']
  | .bool true => ['t', 'r', 'u', 'e']
  | .bool false => ['f', 'a', 'l', 's', 'e']
  | .number n => n.chars
  | .string t => textChars t
  | .array [] => ['[', ']']
  | .array (v :: vs) => '[' :: (v.chars ++ elementChars vs)
  | .object [] => ['{', '}']
  | .object ((k, v) :: ms) => '{' :: (textChars k ++ ':' :: (v.chars ++ memberChars ms))

/-- The elements after the first, each behind its comma, and the closing bracket. -/
def elementChars : List Json → List Char
  | [] => [']']
  | v :: vs => ',' :: (v.chars ++ elementChars vs)

/-- The members after the first, each behind its comma, and the closing brace. -/
def memberChars : List (Option String × Json) → List Char
  | [] => ['}']
  | (k, v) :: ms => ',' :: (textChars k ++ ':' :: (v.chars ++ memberChars ms))

end

/-- The text of a value, without blanks. -/
def render (v : Json) : String :=
  String.ofList v.chars

/-- A new line with `level` indentations of two blanks. -/
def newLine (level : Nat) : List Char :=
  '\n' :: List.replicate (2 * level) ' '

mutual

/-- The written form of a value that begins at indentation `level`. -/
def indentedChars (level : Nat) : Json → List Char
  | .array (v :: vs) =>
    '[' :: (newLine (level + 1) ++ (v.indentedChars (level + 1) ++ indentedElements level vs))
  | .object ((k, v) :: ms) =>
    '{' :: (newLine (level + 1) ++ (textChars k ++ ':' :: ' ' ::
      (v.indentedChars (level + 1) ++ indentedMembers level ms)))
  | v => v.chars

/-- The elements after the first, a line each, and the closing bracket on a line. -/
def indentedElements (level : Nat) : List Json → List Char
  | [] => newLine level ++ [']']
  | v :: vs =>
    ',' :: (newLine (level + 1) ++ (v.indentedChars (level + 1) ++ indentedElements level vs))

/-- The members after the first, a line each, and the closing brace on a line. -/
def indentedMembers (level : Nat) : List (Option String × Json) → List Char
  | [] => newLine level ++ ['}']
  | (k, v) :: ms =>
    ',' :: (newLine (level + 1) ++ (textChars k ++ ':' :: ' ' ::
      (v.indentedChars (level + 1) ++ indentedMembers level ms)))

end

/-- The text of a value with one element or member a line. -/
def renderIndented (v : Json) : String :=
  String.ofList (v.indentedChars 0)

end Json

end BlockEditor
