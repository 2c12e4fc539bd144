import MiniC.Location

/-!
# Faults of a source module

A fault is the reason why a tree is not accepted. Each has a place; a redefinition has the place of
the earlier definition as well.
-/

namespace MiniC

inductive Fault where
  | undefined (name : String) (place : Location)
  | mismatch (expected found : String) (place : Location)
  | notAssignable (place : Location)
  | unsupported (construct : String) (place : Location)
  | redefined (name : String) (previous place : Location)
  deriving DecidableEq, Repr

namespace Fault

def place : Fault → Location
  | .undefined _ place | .mismatch _ _ place | .notAssignable place | .unsupported _ place
  | .redefined _ _ place => place

def message : Fault → String
  | .undefined name place => "Undefined variable '" ++ name ++ "' at " ++ place.text
  | .mismatch expected found place =>
    "Type mismatch at " ++ place.text ++ ": expected " ++ expected ++ ", found " ++ found
  | .notAssignable place => "Invalid assignment target at " ++ place.text
  | .unsupported construct place => "Unsupported construct at " ++ place.text ++ ": " ++ construct
  | .redefined name previous place =>
    "Redefinition of '" ++ name ++ "' at " ++ place.text ++
      " (previous definition at " ++ previous.text ++ ")"

end Fault

end MiniC
