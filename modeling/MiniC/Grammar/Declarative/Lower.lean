import MiniC.Fault
import MiniC.Grammar.Declarative
import MiniC.Source.Tree
import MiniC.Text.Blank

/-!
# Source trees of declarative trees

In a declarative tree declarations may stand anywhere in a list of statements and hold from there to
the end of the list. The declarations at the start of a list become those of the block; one that
follows a statement opens a nested block with the rest of the list.
-/

namespace MiniC.Declarative

open Source

/-- The fault of an unknown node. -/
def unknownFault (category : String) (tag : Option String) (place : Option Location) : Fault :=
  let construct := match tag with
    | some tag => "unsupported or malformed " ++ category ++ " '" ++ tag ++ "'"
    | none => "untagged " ++ category
  .unsupported construct (Place.span place).start

/-- The specifiers of a type, which is written as one text. -/
def specifiers (type : String) : List Specifier :=
  (Text.words type).map .ofWord

mutual

def ExprNode.lower : ExprNode → Except Fault Expr
  | .add left right place => do
    let left ← left.lower
    let right ← right.lower
    return .binary .add left right (Place.span place)
  | .binary symbol left right place =>
    match BinaryOp.ofSymbol? symbol with
    | none => .error (.unsupported ("binary operator '" ++ symbol ++ "'") (Place.span place).start)
    | some op => do
      let left ← left.lower
      let right ← right.lower
      return .binary op left right (Place.span place)
  | .assign symbol target value place =>
    match AssignOp.ofSymbol? symbol with
    | none =>
      .error (.unsupported ("assignment operator '" ++ symbol ++ "'") (Place.span place).start)
    | some op => do
      let target ← target.lower
      let value ← value.lower
      return .assign op target value (Place.span place)
  | .const text place => return .const text (Place.span place)
  | .call callee args place => do
    let callee ← callee.lower
    let args ← ExprNode.lowerAll args
    return .call callee args (Place.span place)
  | .var name place => return .ident name (Place.span place)
  | .unknown tag place => .error (unknownFault "expression" tag place)

def ExprNode.lowerAll : List ExprNode → Except Fault (List Expr)
  | [] => return []
  | node :: rest => do
    let first ← node.lower
    let others ← ExprNode.lowerAll rest
    return first :: others

end

def VarNode.lower (node : VarNode) : Except Fault Declarator :=
  match node.init with
  | none => return ⟨node.name, none, Place.span node.place⟩
  | some init => do
    let init ← init.lower
    return ⟨node.name, some init, Place.span node.place⟩

def VarNode.lowerAll : List VarNode → Except Fault (List Declarator)
  | [] => return []
  | node :: rest => do
    let first ← node.lower
    let others ← VarNode.lowerAll rest
    return first :: others

def lowerDecl (type : String) (vars : List VarNode) (place : Option Location) :
    Except Fault Decl := do
  let declarators ← VarNode.lowerAll vars
  return ⟨specifiers type, declarators, Place.span place⟩

def lowerReturn (value : Option ExprNode) (place : Option Location) : Except Fault Stmt :=
  match value with
  | none => return .ret none (Place.span place)
  | some value => do
    let value ← value.lower
    return .ret (some value) (Place.span place)

mutual

/-- A statement that is no declaration. -/
def StmtNode.lower : StmtNode → Except Fault Stmt
  | .block stmts place => do
    let (decls, stmts) ← StmtNode.lowerList stmts
    return .block ⟨decls, stmts, Place.span place⟩ (Place.span place)
  | .expr value place => do
    let value ← value.lower
    return .expr value (Place.span place)
  | .ret value place => lowerReturn value place
  | .decl _ _ place => .error (.unsupported "misplaced declaration" (Place.span place).start)
  | .unknown tag place => .error (unknownFault "statement" tag place)

/-- The declarations and statements of a list in which no statement has been seen yet. -/
def StmtNode.lowerList : List StmtNode → Except Fault (List Decl × List Stmt)
  | [] => return ([], [])
  | .decl type vars place :: rest => do
    let decl ← lowerDecl type vars place
    let (decls, stmts) ← StmtNode.lowerList rest
    return (decl :: decls, stmts)
  | node :: rest => do
    let stmt ← node.lower
    let stmts ← StmtNode.lowerTail rest
    return ([], stmt :: stmts)

/-- The statements of a list behind a statement. -/
def StmtNode.lowerTail : List StmtNode → Except Fault (List Stmt)
  | [] => return []
  | .decl type vars place :: rest => do
    let decl ← lowerDecl type vars place
    let (decls, stmts) ← StmtNode.lowerList rest
    return [.block ⟨decl :: decls, stmts, Place.span place⟩ (Place.span place)]
  | node :: rest => do
    let stmt ← node.lower
    let stmts ← StmtNode.lowerTail rest
    return stmt :: stmts

end

/-- The block that a list of statements makes. -/
def lowerBlock (nodes : List StmtNode) (span : Span) : Except Fault Block := do
  let (decls, stmts) ← StmtNode.lowerList nodes
  return ⟨decls, stmts, span⟩

def ParamNode.lower (node : ParamNode) : Param :=
  ⟨node.name, specifiers node.type, Place.span node.place⟩

def FunctionNode.lower (node : FunctionNode) : Except Fault Function := do
  let span := Place.span node.place
  let body ← lowerBlock node.body span
  return ⟨node.name, specifiers node.result, node.params.map ParamNode.lower, body, span⟩

def DeclNode.lower : DeclNode → Except Fault Item
  | .function f => do
    let f ← f.lower
    return .function f
  | .unknown tag place => .error (unknownFault "declaration" tag place)

def DeclNode.lowerAll : List DeclNode → Except Fault (List Item)
  | [] => return []
  | node :: rest => do
    let first ← node.lower
    let others ← DeclNode.lowerAll rest
    return first :: others

/-- The whole tree is read before any part of it is lowered. -/
def readModule (root : Json) : Except Fault Module :=
  match ModuleNode.read root with
  | .error misfit =>
    .error (.unsupported ("malformed declarative tree: " ++ misfit.message) .unknown)
  | .ok node => do
    let items ← DeclNode.lowerAll node.decls
    return ⟨items, Place.span node.place⟩

end MiniC.Declarative
