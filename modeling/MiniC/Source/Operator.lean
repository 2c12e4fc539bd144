/-!
# Operators of source expressions

Every operator of the C subset can be written; which of them a checked program may use is decided
later. An assignment is plain or combines a binary operator with `=`.
-/

namespace MiniC.Source

inductive BinaryOp where
  | add
  | sub
  | mul
  | div
  | mod
  | bitAnd
  | bitOr
  | bitXor
  | shiftLeft
  | shiftRight
  deriving DecidableEq, Repr

namespace BinaryOp

def symbol : BinaryOp → String
  | .add => "+"
  | .sub => "-"
  | .mul => "*"
  | .div => "/"
  | .mod => "%"
  | .bitAnd => "&"
  | .bitOr => "|"
  | .bitXor => "^"
  | .shiftLeft => "<<"
  | .shiftRight => ">>"

def ofSymbol? : String → Option BinaryOp
  | "+" => some .add
  | "-" => some .sub
  | "*" => some .mul
  | "/" => some .div
  | "%" => some .mod
  | "&" => some .bitAnd
  | "|" => some .bitOr
  | "^" => some .bitXor
  | "<<" => some .shiftLeft
  | ">>" => some .shiftRight
  | _ => none

theorem ofSymbol?_symbol (op : BinaryOp) : ofSymbol? op.symbol = some op := by
  cases op <;> rfl

end BinaryOp

inductive AssignOp where
  | plain
  | compound (op : BinaryOp)
  deriving DecidableEq, Repr

namespace AssignOp

def symbol : AssignOp → String
  | .plain => "="
  | .compound op => op.symbol ++ "="

def ofSymbol? : String → Option AssignOp
  | "=" => some .plain
  | "+=" => some (.compound .add)
  | "-=" => some (.compound .sub)
  | "*=" => some (.compound .mul)
  | "/=" => some (.compound .div)
  | "%=" => some (.compound .mod)
  | "&=" => some (.compound .bitAnd)
  | "|=" => some (.compound .bitOr)
  | "^=" => some (.compound .bitXor)
  | "<<=" => some (.compound .shiftLeft)
  | ">>=" => some (.compound .shiftRight)
  | _ => none

theorem ofSymbol?_symbol (op : AssignOp) : ofSymbol? op.symbol = some op := by
  cases op with
  | plain => rfl
  | compound op => cases op <;> rfl

end AssignOp

end MiniC.Source
