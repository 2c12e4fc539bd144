import MiniC.Ty

/-!
# Typed trees

What checking makes of a source tree: names are emitted names, constants are numbers and every
expression has its type. Only addition and plain assignment are left of the operators.
-/

namespace MiniC.Typed

inductive Expr where
  | int (value : Int64) (ty : Ty)
  | var (name : String) (ty : Ty)
  | add (left right : Expr) (ty : Ty)
  | assign (target value : Expr) (ty : Ty)
  | call (callee : Expr) (args : List Expr) (ty : Ty)

namespace Expr

def ty : Expr → Ty
  | .int _ ty | .var _ ty | .add _ _ ty | .assign _ _ ty | .call _ _ ty => ty

/-- The value of an integer literal. -/
def constant? : Expr → Option Int64
  | .int value _ => some value
  | _ => none

/-- Whether the expression may stand on the left of an assignment. -/
def isAssignable : Expr → Bool
  | .var _ _ => true
  | _ => false

end Expr

structure Declarator where
  name : String
  ty : Ty
  init : Expr

mutual

inductive Stmt where
  | expr (value : Expr)
  | ret (value : Expr)
  | block (body : Block)

structure Block where
  declarators : List Declarator
  stmts : List Stmt

end

structure Param where
  name : String
  ty : Ty
  /-- The type the parameter is coerced to on entry. -/
  intended : Option Ty
  deriving DecidableEq, Repr

structure Function where
  name : String
  result : Ty
  params : List Param
  body : Block

structure Module where
  functions : List Function

end MiniC.Typed
