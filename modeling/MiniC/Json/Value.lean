import MiniC.Json.Number

/-!
# JSON values

The fields of an object keep their order. Where a key is repeated the last field counts.
-/

namespace MiniC

inductive Json where
  | null
  | bool (value : Bool)
  | num (value : Number)
  | str (value : String)
  | arr (items : List Json)
  | obj (fields : List (String × Json))
  deriving Repr, Inhabited

namespace Json

/-- The whole number `n`. -/
def int (n : Int) : Json := .num (.int n)

/-- The last field with a key. -/
def lookup (key : String) : List (String × Json) → Option Json
  | [] => none
  | (k, v) :: rest =>
    match lookup key rest with
    | some found => some found
    | none => if k = key then some v else none

/-- A field of an object; other values have none. -/
def get? (key : String) : Json → Option Json
  | .obj fields => lookup key fields
  | _ => none

def str? : Json → Option String
  | .str s => some s
  | _ => none

end Json

end MiniC
