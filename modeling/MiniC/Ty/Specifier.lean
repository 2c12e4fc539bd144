/-!
# Type specifiers

The words a declaration is written with. A word that is no keyword is kept as a name.
-/

namespace MiniC

inductive Specifier where
  | void
  | char
  | short
  | int
  | long
  | float
  | double
  | signed
  | unsigned
  | named (word : String)
  deriving DecidableEq, Repr

namespace Specifier

def ofWord : String → Specifier
  | "void" => .void
  | "char" => .char
  | "short" => .short
  | "int" => .int
  | "long" => .long
  | "float" => .float
  | "double" => .double
  | "signed" => .signed
  | "unsigned" => .unsigned
  | word => .named word

def word : Specifier → String
  | .void => "void"
  | .char => "char"
  | .short => "short"
  | .int => "int"
  | .long => "long"
  | .float => "float"
  | .double => "double"
  | .signed => "signed"
  | .unsigned => "unsigned"
  | .named word => word

/-- A list of specifiers as it is written: the words, one space between two of them. -/
def listText (specifiers : List Specifier) : String :=
  " ".intercalate (specifiers.map word)

end Specifier

end MiniC
