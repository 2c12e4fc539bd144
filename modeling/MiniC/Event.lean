import MiniC.Grammar
import MiniC.Text.Terminal
import MiniC.Ty

/-!
# Events of a run

What a run reports while it works. Every event has a level of detail, the part of the compiler it
belongs to, and a message.
-/

namespace MiniC

inductive Level where
  | trace
  | debug
  | info
  deriving DecidableEq, Repr

namespace Level

def name : Level → String
  | .trace => "TRACE"
  | .debug => "DEBUG"
  | .info => "INFO"

end Level

inductive Event where
  | lowering (grammar : Grammar)
  | forked (depth : Nat)
  | renamed (name unique : String)
  | declared (name unique : String) (depth : Nat)
  | checking (function : String) (ty : Ty)
  | analyzed (functions : Nat)
  | bareReturn (value : Int)
  | emitted (function : String) (statements : Nat)
  | generated (wrapper : String) (functions : Nat)
  | written (path : String)
  deriving DecidableEq, Repr

namespace Event

def level : Event → Level
  | .forked _ | .renamed _ _ | .declared _ _ _ | .bareReturn _ | .emitted _ _ => .trace
  | .lowering _ | .checking _ _ | .analyzed _ | .generated _ _ => .debug
  | .written _ => .info

/-- The name of the part that an event belongs to, as it is shown in a log. -/
def component : Event → String
  | .lowering _ => "casm_frontend"
  | .forked _ | .renamed _ _ => "casm_frontend::semantic::scope"
  | .declared _ _ _ => "casm_frontend::semantic::statements"
  | .checking _ _ => "casm_frontend::semantic::functions"
  | .analyzed _ => "casm_frontend::semantic"
  | .bareReturn _ => "casm_frontend::codegen::annotations"
  | .emitted _ _ => "casm_frontend::codegen::functions"
  | .generated _ _ => "casm_frontend::codegen"
  | .written _ => "casmc"

def message : Event → String
  | .lowering grammar => "lowering input with the " ++ grammar.name ++ " grammar"
  | .forked depth => "forked scope at depth " ++ Decimal.ofNat depth
  | .renamed name unique => "renamed '" ++ name ++ "' to '" ++ unique ++ "'"
  | .declared name unique depth =>
    "declared '" ++ name ++ "' as '" ++ unique ++ "' at scope depth " ++ Decimal.ofNat depth
  | .checking function ty => "checking function '" ++ function ++ "': " ++ ty.text
  | .analyzed functions => "analyzed " ++ Decimal.ofNat functions ++ " function(s)"
  | .bareReturn value => "return literal " ++ Decimal.ofInt value ++ " left unannotated"
  | .emitted function statements =>
    "emitted function '" ++ function ++ "' with " ++ Decimal.ofNat statements ++ " statement(s)"
  | .generated wrapper functions =>
    "generated module '" ++ wrapper ++ "' exporting " ++ Decimal.ofNat functions ++ " function(s)"
  | .written path => "module written to " ++ path

/-- The message, with the lines after the first one indented by four spaces. -/
def indentedMessage (event : Event) : String :=
  String.ofList (event.message.toList.flatMap fun c =>
    if c = '\n' then ['\n', ' ', ' ', ' ', ' '] else [c])

/-- The record of an event in a log: level, padded to five characters, component and message, and a
line end. Each record is freed from terminal controls by itself, so a sequence that its message
leaves open may take the line end with it, but nothing of the next record. -/
def record (event : Event) : String :=
  let level := event.level.name
  let padding := String.ofList (List.replicate (5 - level.length) ' ')
  Text.withoutControls
    ("[" ++ level ++ padding ++ " " ++ event.component ++ "] " ++ event.indentedMessage ++ "\n")

end Event

end MiniC
