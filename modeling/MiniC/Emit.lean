import MiniC.Estree.Tree
import MiniC.Event
import MiniC.Options
import MiniC.Typed

/-!
# Emission

A typed module becomes one function that declares the module's functions and returns an object with
all of them. Where a value enters or leaves a function its type is made visible: a parameter is
assigned to itself and a returned value is combined with `|0`, unless it is a literal in the signed
range. The variables of all blocks of a function are declared once, at its top.
-/

namespace MiniC

namespace Typed

mutual

def Expr.emit : Expr → Estree.Expr
  | .int value _ => .num value
  | .var name _ => .ident name
  | .add left right _ => .binary .add left.emit right.emit
  | .assign target value _ => .assign target.emit value.emit
  | .call callee args _ => .call callee.emit (Expr.emitAll args)

def Expr.emitAll : List Expr → List Estree.Expr
  | [] => []
  | e :: rest => e.emit :: Expr.emitAll rest

end

/-- The expression `e|0`. -/
def coerceSigned (e : Estree.Expr) : Estree.Expr :=
  .binary .bitOr e (.num 0)

/-- An expression made to show the type it is meant to have. -/
def coerce (e : Estree.Expr) (intended : Option Ty) : Estree.Expr :=
  if intended = some .signed then coerceSigned e else e

/-- The assignment `p = p|0` that shows the type of a parameter. -/
def Param.emit (p : Param) : Estree.Stmt :=
  .expr (.assign (.ident p.name) (coerce (.ident p.name) p.intended))

/-- The value of a literal that already shows a signed type. -/
def Expr.signedLiteral? (e : Expr) : Option Int64 :=
  e.constant?.filter fun value => -0x80000000 ≤ value.toInt ∧ value.toInt ≤ 0x7fffffff

/-- The value of a return in a function with the given result. -/
def Expr.emitReturned (e : Expr) (result : Ty) : Estree.Expr :=
  if e.signedLiteral?.isSome then e.emit else coerce e.emit result.intended

def Declarator.emit (d : Declarator) : String × Estree.Expr :=
  (d.name, d.init.emit)

mutual

/-- The variables of a block and of the blocks inside it, in the order they are written. -/
def Block.variables : Block → List (String × Estree.Expr)
  | ⟨declarators, stmts⟩ => declarators.map Declarator.emit ++ Stmt.variablesAll stmts

def Stmt.variablesAll : List Stmt → List (String × Estree.Expr)
  | [] => []
  | s :: rest => s.variables ++ Stmt.variablesAll rest

def Stmt.variables : Stmt → List (String × Estree.Expr)
  | .block body => body.variables
  | _ => []

end

/-- One declaration for all variables of a block, if there are any. -/
def Block.emitVariables (block : Block) : Option Estree.Stmt :=
  if block.variables.isEmpty then none else some (.var block.variables)

mutual

def Stmt.emit (result : Ty) : Stmt → Estree.Stmt
  | .expr value => .expr value.emit
  | .ret value => .ret (some (value.emitReturned result))
  | .block ⟨_, stmts⟩ => .block (Stmt.emitAll result stmts)

def Stmt.emitAll (result : Ty) : List Stmt → List Estree.Stmt
  | [] => []
  | s :: rest => s.emit result :: Stmt.emitAll result rest

end

/-- The statements of a block; its variables are declared elsewhere. -/
def Block.emitStmts (block : Block) (result : Ty) : List Estree.Stmt :=
  Stmt.emitAll result block.stmts

def Function.emitBody (f : Function) : List Estree.Stmt :=
  f.params.map Param.emit ++ f.body.emitVariables.toList ++ f.body.emitStmts f.result

def Function.emit (f : Function) : Estree.Stmt :=
  .function f.name (f.params.map (·.name)) f.emitBody

/-- The statements of the function around the module. -/
def Module.emitBody (m : Module) (options : Options) : List Estree.Stmt :=
  .expr (.str options.directive) :: m.functions.map Function.emit ++
    [.ret (some (.object (m.functions.map fun f => (f.name, .ident f.name))))]

def Module.emit (m : Module) (options : Options) : Estree.Program :=
  ⟨[.function options.moduleName [] (m.emitBody options)]⟩

mutual

/-- The events of emitting a statement: one for each literal that is returned as it is. -/
def Stmt.emitEvents : Stmt → List Event
  | .expr _ => []
  | .ret value => (value.signedLiteral?.map fun n => Event.bareReturn n.toInt).toList
  | .block ⟨_, stmts⟩ => Stmt.emitEventsAll stmts

def Stmt.emitEventsAll : List Stmt → List Event
  | [] => []
  | s :: rest => s.emitEvents ++ Stmt.emitEventsAll rest

end

def Function.emitEvents (f : Function) : List Event :=
  Stmt.emitEventsAll f.body.stmts ++ [.emitted f.name f.emitBody.length]

/-- The events of emitting a module, in the order they occur. -/
def Module.emitEvents (m : Module) (options : Options) : List Event :=
  m.functions.flatMap Function.emitEvents ++
    [.generated options.moduleName m.functions.length]

end Typed

end MiniC
