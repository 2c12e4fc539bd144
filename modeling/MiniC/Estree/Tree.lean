/-!
# Emitted programs

The part of the ESTree format that a generated module uses: function and variable declarations,
blocks, expression and return statements, and six kinds of expression.
-/

namespace MiniC.Estree

inductive BinaryOp where
  | add
  | bitOr
  deriving DecidableEq, Repr

inductive Expr where
  | ident (name : String)
  | num (value : Int64)
  | str (value : String)
  | binary (op : BinaryOp) (left right : Expr)
  | assign (left right : Expr)
  | call (callee : Expr) (args : List Expr)
  /-- An object whose properties have plain keys. -/
  | object (properties : List (String × Expr))

inductive Stmt where
  | function (name : String) (params : List String) (body : List Stmt)
  | block (body : List Stmt)
  /-- Variables with their initial values. -/
  | var (declarators : List (String × Expr))
  | expr (value : Expr)
  | ret (value : Option Expr)

structure Program where
  body : List Stmt

end MiniC.Estree
