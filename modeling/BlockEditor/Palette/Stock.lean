import BlockEditor.Palette.Catalog

/-!
# The stock palette

The catalog of a robot that moves along three axes.
-/

namespace BlockEditor

namespace Catalog

/-- The comparisons of a conditional block. -/
def comparisons : List String := ["==", "<=", ">=", "<", ">"]

/-- The operations of a calculation block. -/
def operations : List String :=
  ["+", "-", "*", "/", "pow", "sqrt", "mod", "and", "or", "xor", "not", "<<", ">>"]

/-- The operations that the executor reads under another token. -/
def operationTokens : Table String :=
  ⟨[("+", "\x7b"), ("-", "\x7d"), ("*", "[")], by decide⟩

def stockTemplates : List Template := [
  -- movement
  ⟨"block-steps-x", "move X by", .plain .move [.value], some 1⟩,
  ⟨"block-steps-y", "move Y by", .plain .move [.value], some 1⟩,
  ⟨"block-steps-z", "move Z by", .plain .move [.value], some 1⟩,
  ⟨"block-reset", "reset position", .plain .move [], some 0⟩,
  -- the three axes of the position are lent to the move
  ⟨"block-to-pos", "move to position", .plain .move [.position], some 3⟩,
  -- control
  ⟨"block-repeat", "repeat", ⟨.control, true, [.value], [], .empty⟩, some 1⟩,
  ⟨"block-if", "if", ⟨.control, true, [.value, .value], comparisons, .empty⟩, some 2⟩,
  -- events
  ⟨"block-break", "break", .plain .event [], some 0⟩,
  -- calculation
  ⟨"block-calc", "calculate",
    ⟨.calculation, false, [.var, .value, .value], operations, operationTokens⟩, some 3⟩,
  -- time
  ⟨"block-seconds", "wait seconds", .plain .time [.value], some 1⟩,
  ⟨"block-minutes", "wait minutes", .plain .time [.value], some 1⟩,
  -- measurement
  ⟨"block-measure", "measure", .plain .measure [], some 0⟩,
  -- debugging
  ⟨"block-print", "print", .plain .debug [.var, .var, .var], none⟩]

/-- The stock palette. -/
def stock : Catalog :=
  ⟨stockTemplates, by decide⟩

end Catalog

end BlockEditor
