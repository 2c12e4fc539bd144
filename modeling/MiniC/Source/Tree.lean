import MiniC.Location
import MiniC.Source.Operator
import MiniC.Ty

/-!
# Source trees

A unit is a list of function definitions and declarations. A block holds its declarations before
its statements, and a statement may be a block again. Every node carries the span it was read from.
-/

namespace MiniC.Source

inductive Expr where
  /-- A constant, kept as written. -/
  | const (text : String) (span : Span)
  | ident (name : String) (span : Span)
  | binary (op : BinaryOp) (left right : Expr) (span : Span)
  | assign (op : AssignOp) (target value : Expr) (span : Span)
  | call (callee : Expr) (args : List Expr) (span : Span)
  deriving Repr

namespace Expr

def span : Expr → Span
  | .const _ span | .ident _ span | .binary _ _ _ span | .assign _ _ _ span | .call _ _ span => span

/-- Where the expression starts. -/
def place (e : Expr) : Location := e.span.start

/-- What kind of expression this is, in words. -/
def describe : Expr → String
  | .const _ _ => "constant"
  | .ident _ _ => "identifier"
  | .binary _ _ _ _ => "binary expression"
  | .assign _ _ _ _ => "assignment"
  | .call _ _ _ => "function call"

end Expr

/-- A declared name with its initial value, if one is written. -/
structure Declarator where
  name : String
  init : Option Expr
  span : Span
  deriving Repr

structure Decl where
  specifiers : List Specifier
  declarators : List Declarator
  span : Span
  deriving Repr

mutual

inductive Stmt where
  | expr (value : Expr) (span : Span)
  | ret (value : Option Expr) (span : Span)
  | block (body : Block) (span : Span)

structure Block where
  decls : List Decl
  stmts : List Stmt
  span : Span

end

namespace Stmt

def span : Stmt → Span
  | .expr _ span | .ret _ span | .block _ span => span

end Stmt

/-- A parameter; a prototype may leave its name out. -/
structure Param where
  name : Option String
  specifiers : List Specifier
  span : Span
  deriving Repr

structure Function where
  name : String
  result : List Specifier
  params : List Param
  body : Block
  span : Span

inductive Item where
  | function (definition : Function)
  | declaration (decl : Decl)

namespace Item

def span : Item → Span
  | .function f => f.span
  | .declaration d => d.span

end Item

/-- Everything that is compiled together. -/
structure Module where
  items : List Item
  span : Span

end MiniC.Source
