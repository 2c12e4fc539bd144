import MiniC.Check.Module
import MiniC.Emit
import MiniC.Failure
import MiniC.Grammar.Declarative.Lower
import MiniC.Grammar.Tagged
import MiniC.Json.Reader

/-!
# Compilation

From the text of a module to an emitted program: the text is read as JSON, the tree is lowered to a
source module, the module is checked, and the typed module is emitted. The events of each step are
functions of the same inputs.
-/

namespace MiniC

/-- How deeply the arrays and objects of a module text may nest. -/
def nestingLimit : Nat := 127

/-- The source module of a tree. -/
def Grammar.lower (grammar : Grammar) (root : Json) : Except Fault Source.Module :=
  match grammar.detect root with
  | .tagged => Tagged.readModule root
  | _ => Declarative.readModule root

/-- The source module that a text holds. -/
def parseModule (text : String) (grammar : Grammar) : Except Failure Source.Module :=
  match Json.parse? nestingLimit text with
  | none => .error (.input "invalid JSON")
  | some root => (grammar.lower root).mapError .ofFault

/-- The program of a module. -/
def Source.Module.compile (m : Source.Module) (options : Options) :
    Except Fault Estree.Program := do
  let typed ← m.analyze
  return typed.emit options

/-- The program of a module given as text. -/
def compileText (text : String) (grammar : Grammar) (options : Options) :
    Except Failure Estree.Program := do
  let m ← parseModule text grammar
  (m.compile options).mapError .ofFault

/-! ## Events -/

def parseEvents (text : String) (grammar : Grammar) : List Event :=
  match Json.parse? nestingLimit text with
  | none => []
  | some root => [.lowering (grammar.detect root)]

def Source.Module.checkEvents (m : Source.Module) : List Event :=
  match m.check .initial with
  | .ok _ s | .error _ s => s.log.toList

def Source.Module.compileEvents (m : Source.Module) (options : Options) : List Event :=
  match m.analyze with
  | .ok typed => m.checkEvents ++ typed.emitEvents options
  | .error _ => m.checkEvents

/-- The events of checking a text, with those of reading it. -/
def checkTextEvents (text : String) (grammar : Grammar) : List Event :=
  match parseModule text grammar with
  | .ok m => parseEvents text grammar ++ m.checkEvents
  | .error _ => parseEvents text grammar

/-- The events of compiling a text. -/
def compileTextEvents (text : String) (grammar : Grammar) (options : Options) : List Event :=
  match parseModule text grammar with
  | .ok m => parseEvents text grammar ++ m.compileEvents options
  | .error _ => parseEvents text grammar

end MiniC
