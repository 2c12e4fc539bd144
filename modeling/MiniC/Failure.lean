import MiniC.Fault

/-!
# Failures of a run and their diagnostics

A run fails because its input cannot be read, because the module has a fault, or because a file
cannot be used. A diagnostic is a failure made ready to be shown, with notes.
-/

namespace MiniC

inductive Failure where
  | input (reason : String)
  | semantic (reason : String) (place : Location)
  | typing (reason : String) (place : Location)
  | io (reason : String)
  | internal (reason : String)
  deriving DecidableEq, Repr

namespace Failure

/-- A mismatch of types is a failure of typing, every other fault one of meaning. -/
def ofFault (fault : Fault) : Failure :=
  match fault with
  | .mismatch _ _ place => .typing fault.message place
  | _ => .semantic fault.message fault.place

def place? : Failure → Option Location
  | .semantic _ place | .typing _ place => some place
  | _ => none

def message : Failure → String
  | .input reason => "Input error: " ++ reason
  | .semantic reason place => "Semantic error at " ++ place.text ++ ": " ++ reason
  | .typing reason place => "Type error at " ++ place.text ++ ": " ++ reason
  | .io reason => "IO error: " ++ reason
  | .internal reason => "Internal compiler error: " ++ reason

end Failure

structure Diagnostic where
  message : String
  span : Span
  notes : List String
  deriving DecidableEq, Repr

namespace Diagnostic

def ofFailure (failure : Failure) : Diagnostic :=
  ⟨failure.message, .point (failure.place?.getD .unknown), []⟩

def withNote (d : Diagnostic) (note : String) : Diagnostic :=
  { d with notes := d.notes ++ [note] }

/-- The message and, on lines of their own, the notes. -/
def text (d : Diagnostic) : String :=
  d.notes.foldl (fun shown note => shown ++ "\n  note: " ++ note) ("error: " ++ d.message)

end Diagnostic

end MiniC
