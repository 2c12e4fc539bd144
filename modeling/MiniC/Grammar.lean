import MiniC.Json.Value

/-!
# The two shapes of a module tree

A *tagged* tree has nodes with a tag and positional children, and its root is an array. A
*declarative* tree has nodes with named children, and its root is an object. `auto` decides by the
root.
-/

namespace MiniC

inductive Grammar where
  | tagged
  | declarative
  | auto
  deriving DecidableEq, Repr

namespace Grammar

def name : Grammar → String
  | .tagged => "tagged"
  | .declarative => "declarative"
  | .auto => "auto"

def ofName? : String → Option Grammar
  | "tagged" => some .tagged
  | "declarative" => some .declarative
  | "auto" => some .auto
  | _ => none

/-- The grammar that a root is read with. -/
def detect : Grammar → Json → Grammar
  | .auto, .arr _ => .tagged
  | .auto, _ => .declarative
  | g, _ => g

end Grammar

end MiniC
