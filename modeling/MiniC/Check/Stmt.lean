import MiniC.Check.Expr
import MiniC.Check.State

/-!
# Checking declarations, statements and blocks

A declared name is visible in its own initial value, which must be a constant all the same. Every
nested block is checked in a fork of the scope around it; the body of a function is not, so that it
shares the frame of the parameters.
-/

namespace MiniC.Source

/-- The least initial value. -/
def initMin : Int := -0x80000000

/-- The initial values stay below this number. -/
def initLimit : Int := 0x100000000

/-- The initial value of a declarator of type `ty`, already checked as an expression. -/
def checkInit (init : Expr) (typed : Typed.Expr) (ty : Ty) : Except Fault Unit :=
  match typed.constant? with
  | none => .error (.mismatch "constant" init.describe init.place)
  | some value => do
    expectType ty typed.ty init.place
    if initMin ≤ value.toInt ∧ value.toInt < initLimit then
      return ()
    else
      throw (.mismatch
        (ty.text ++ " in [" ++ Decimal.ofInt initMin ++ ", " ++ Decimal.ofInt initLimit ++ ")")
        (Decimal.ofInt value.toInt) init.place)

/-- Zero where no initial value is written. -/
def Declarator.checkValue (d : Declarator) (ty : Ty) (scope : Scope) : Except Fault Typed.Expr :=
  match d.init with
  | none => .ok (.int 0 .int)
  | some init => do
    let typed ← init.check scope
    checkInit init typed ty
    return typed

def Declarator.check (d : Declarator) (ty : Ty) : Check Typed.Declarator := do
  let emitted ← Check.declare d.name ty d.span.start
  let scope ← Check.scope
  let init ← Check.ofExcept (d.checkValue ty scope)
  Check.report (.declared d.name emitted scope.depth)
  return ⟨emitted, ty, init⟩

def Declarator.checkAll (ty : Ty) : List Declarator → Check (List Typed.Declarator)
  | [] => return []
  | d :: rest => do
    let first ← d.check ty
    let others ← Declarator.checkAll ty rest
    return first :: others

/-- Variables are of type `int`. -/
def Decl.check (d : Decl) : Check (List Typed.Declarator) :=
  match Ty.ofSpecifiers d.specifiers with
  | some .int => Declarator.checkAll .int d.declarators
  | _ => throw (.unsupported ("variable type '" ++ Specifier.listText d.specifiers ++ "'")
      d.span.start)

def Decl.checkAll : List Decl → Check (List Typed.Declarator)
  | [] => return []
  | d :: rest => do
    let first ← d.check
    let others ← Decl.checkAll rest
    return first ++ others

/-- The value of a return, in a scope whose functions give `result`. -/
def checkReturn (value : Option Expr) (place : Location) (scope : Scope) :
    Except Fault Typed.Expr :=
  match scope.result, value with
  | none, _ => .error (.unsupported "return outside of a function" place)
  | some result, none => .error (.mismatch result.text Ty.void.text place)
  | some result, some e => do
    let typed ← e.check scope
    expectType result typed.ty e.place
    return typed

mutual

def Stmt.check : Stmt → Check Typed.Stmt
  | .expr value _ => do
    let scope ← Check.scope
    let typed ← Check.ofExcept (value.check scope)
    return .expr typed
  | .ret value span => do
    let scope ← Check.scope
    let typed ← Check.ofExcept (checkReturn value span.start scope)
    return .ret typed
  | .block body _ => do
    let typed ← Check.inFork body.checkHere
    return .block typed

def Stmt.checkAll : List Stmt → Check (List Typed.Stmt)
  | [] => return []
  | s :: rest => do
    let first ← s.check
    let others ← Stmt.checkAll rest
    return first :: others

/-- Checks a block in the current scope itself. -/
def Block.checkHere : Block → Check Typed.Block
  | ⟨decls, stmts, _⟩ => do
    let declarators ← Decl.checkAll decls
    let typed ← Stmt.checkAll stmts
    return ⟨declarators, typed⟩

end

/-- Checks a block in a fork of the current scope. -/
def Block.check (block : Block) : Check Typed.Block :=
  Check.inFork block.checkHere

end MiniC.Source
