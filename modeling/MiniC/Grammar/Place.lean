import MiniC.Json.Value
import MiniC.Location
import MiniC.Text.Shown

/-!
# Places written in a tree

Nodes of either grammar may carry the place they come from: an object with `line` and `column`, or
an array of the two numbers. A `Misfit` is what is wrong with a value that should have a known
shape.
-/

namespace MiniC

inductive Misfit where
  | wrongKind (found : Json) (expected : String)
  | outOfRange (found : Int)
  | missing (field : String)
  | wrongLength (found : Nat) (expected : String)
  | unknownNode

namespace Misfit

/-- What kind of value this is, with its content where that is a single word. -/
def kindText : Json → String
  | .null => "null"
  | .bool true => "boolean `true`"
  | .bool false => "boolean `false`"
  | .num (.int n) => "integer `" ++ Decimal.ofInt n ++ "`"
  | .num (.real x) => "floating point `" ++ Number.realText x ++ "`"
  | .str s => "string " ++ Text.shown s
  | .arr _ => "sequence"
  | .obj _ => "map"

def message : Misfit → String
  | .wrongKind found expected => "invalid type: " ++ kindText found ++ ", expected " ++ expected
  | .outOfRange found => "invalid value: integer `" ++ Decimal.ofInt found ++ "`, expected u32"
  | .missing field => "missing field `" ++ field ++ "`"
  | .wrongLength found expected =>
    "invalid length " ++ Decimal.ofNat found ++ ", expected " ++ expected
  | .unknownNode => "data did not match any variant of untagged enum Known"

/-- More items than fields. -/
def tooLong (found : Nat) : Misfit :=
  .wrongLength found "fewer elements in array"

end Misfit

namespace Place

/-- A line or column: a whole number of 32 bits. -/
def coordinate : Json → Except Misfit UInt32
  | .num (.int n) =>
    if 0 ≤ n ∧ n < UInt32.size then .ok (UInt32.ofNat n.toNat) else .error (.outOfRange n)
  | v => .error (.wrongKind v "u32")

/-- The columns of a place are looked at before its lines. -/
def ofFields (fields : List (String × Json)) : Except Misfit Location := do
  let column ← (Json.lookup "column" fields).mapM coordinate
  let line ← (Json.lookup "line" fields).mapM coordinate
  match line, column with
  | none, _ => throw (.missing "line")
  | some _, none => throw (.missing "column")
  | some line, some column => return .inInput line column

def ofItems : List Json → Except Misfit Location
  | [] => .error (.wrongLength 0 "struct Loc with 2 elements")
  | [line] => do
    let _ ← coordinate line
    throw (.wrongLength 1 "struct Loc with 2 elements")
  | line :: column :: rest => do
    let line ← coordinate line
    let column ← coordinate column
    if rest.isEmpty then return .inInput line column else throw (.tooLong (rest.length + 2))

def decode : Json → Except Misfit Location
  | .obj fields => ofFields fields
  | .arr items => ofItems items
  | v => .error (.wrongKind v "struct Loc")

/-- The span of a node with the given place. -/
def span (place : Option Location) : Span :=
  .point (place.getD .unknown)

end Place

end MiniC
