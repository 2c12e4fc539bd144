import MiniC.Fault
import MiniC.Grammar.Place
import MiniC.Json.Part
import MiniC.Source.Tree

/-!
# Tagged trees

A node is an object with a `type`, which is its tag, and a list `params` of children; the place
stands under `loc`, and a place that cannot be read counts as none. Children are looked at in the
order in which the definitions below name them, and the first fault ends the reading.
-/

namespace MiniC.Tagged

open Source

/-- The span of a node. -/
def spanOf (v : Json) : Span :=
  Place.span ((v.get? "loc").bind fun place => (Place.decode place).toOption)

/-- A value read as a node. -/
structure Node (whole : Json) where
  tag : String
  params : List Json
  span : Span
  smaller : sizeOf params < sizeOf whole

def untagged {α : Type} (v : Json) : Except Fault α :=
  .error (.unsupported "node without a type tag" (spanOf v).start)

def malformedTag (tag : String) (span : Span) : Fault :=
  .unsupported ("malformed '" ++ tag ++ "' node") span.start

theorem sizeOf_nil_lt (fields : List (String × Json)) :
    sizeOf ([] : List Json) < sizeOf (Json.obj fields) := by
  cases fields with
  | nil => simp only [List.nil.sizeOf_spec, Json.obj.sizeOf_spec]; omega
  | cons field rest =>
    simp only [List.nil.sizeOf_spec, Json.obj.sizeOf_spec, List.cons.sizeOf_spec]
    omega

namespace Node

variable {whole : Json}

/-- A node without `params` has no children. -/
def read : (v : Json) → Except Fault (Node v)
  | .obj fields =>
    match Json.lookup "type" fields with
    | some (.str tag) =>
      match Json.fieldPart? "params" fields (Json.sizeOf_fields_lt fields) with
      | none => .ok ⟨tag, [], spanOf (.obj fields), sizeOf_nil_lt fields⟩
      | some ⟨.arr params, smaller⟩ =>
        .ok ⟨tag, params, spanOf (.obj fields), Nat.lt_trans (Json.sizeOf_items_lt params) smaller⟩
      | some _ => .error (malformedTag tag (spanOf (.obj fields)))
    | _ => untagged (.obj fields)
  | v => untagged v

def place (node : Node whole) : Location := node.span.start

def malformed {α : Type} (node : Node whole) : Except Fault α :=
  .error (malformedTag node.tag node.span)

def unsupported {α : Type} (node : Node whole) : Except Fault α :=
  .error (.unsupported ("node '" ++ node.tag ++ "'") node.place)

/-- A node that must have a given tag. -/
def expect (v : Json) (tag : String) : Except Fault (Node v) := do
  let node ← read v
  if node.tag = tag then return node
  else throw (.unsupported ("node '" ++ node.tag ++ "' where '" ++ tag ++ "' was expected")
    node.place)

def param? (node : Node whole) (index : Nat) : Option (Json.Part whole) :=
  Json.itemPart? node.params node.smaller index

def param (node : Node whole) (index : Nat) : Except Fault (Json.Part whole) :=
  match node.param? index with
  | some part => .ok part
  | none => node.malformed

/-- A child that may be left out or null. -/
def optional (node : Node whole) (index : Nat) : Option (Json.Part whole) :=
  match node.param? index with
  | some ⟨.null, _⟩ => none
  | part => part

def list (node : Node whole) (index : Nat) : Except Fault (Json.Items whole) := do
  let part ← node.param index
  match part.items? with
  | some items => return items
  | none => node.malformed

def string (node : Node whole) (index : Nat) : Except Fault String := do
  let part ← node.param index
  match part.1 with
  | .str s => return s
  | _ => node.malformed

end Node

/-- A specifier is a word or a node around a word. -/
def readSpecifier : Json → Except Fault Specifier
  | .str word => .ok (.ofWord word)
  | v => do
    let node ← Node.expect v "TypeSpecifier"
    return .ofWord (← node.string 0)

def readSpecifierList : List Json → Except Fault (List Specifier)
  | [] => return []
  | v :: rest => do
    let first ← readSpecifier v
    let others ← readSpecifierList rest
    return first :: others

/-- The specifiers that stand first among the children of a node. -/
def readSpecifiers {whole : Json} (owner : Node whole) : Except Fault (List Specifier) := do
  let part ← owner.param 0
  match part.1 with
  | .arr items => readSpecifierList items
  | _ => owner.malformed

def readIdentifier (v : Json) : Except Fault String := do
  let node ← Node.expect v "Identifier"
  node.string 0

mutual

def readExpr (v : Json) : Except Fault Expr := do
  let node ← Node.read v
  match node.tag with
  | "Add" =>
    let ⟨left, _⟩ ← node.param 0
    let left ← readExpr left
    let ⟨right, _⟩ ← node.param 1
    let right ← readExpr right
    return .binary .add left right node.span
  | "Assign" =>
    let symbol ← node.string 1
    match AssignOp.ofSymbol? symbol with
    | none => throw (.unsupported ("assignment operator '" ++ symbol ++ "'") node.place)
    | some op =>
      let ⟨target, _⟩ ← node.param 0
      let target ← readExpr target
      let ⟨value, _⟩ ← node.param 2
      let value ← readExpr value
      return .assign op target value node.span
  | "Const" =>
    let constant ← node.param 0
    match constant.1 with
    | .str text => return .const text node.span
    | .num n => return .const n.text node.span
    | _ => node.malformed
  | "FunctionCall" =>
    let ⟨callee, _⟩ ← node.param 0
    let callee ← readExpr callee
    let ⟨args, _⟩ ← node.list 1
    let args ← readExprs args
    return .call callee args node.span
  | "Var" =>
    let name ← node.string 0
    return .ident name node.span
  | _ => node.unsupported
termination_by sizeOf v

def readExprs (items : List Json) : Except Fault (List Expr) :=
  match items with
  | [] => return []
  | v :: rest => do
    let first ← readExpr v
    let others ← readExprs rest
    return first :: others
termination_by sizeOf items

end

def readDeclarator (v : Json) : Except Fault Declarator := do
  let node ← Node.expect v "InitDeclarator"
  let name ← readIdentifier (← node.param 0).1
  match node.optional 1 with
  | none => return ⟨name, none, node.span⟩
  | some init =>
    let init ← readExpr init.1
    return ⟨name, some init, node.span⟩

def readDeclarators : List Json → Except Fault (List Declarator)
  | [] => return []
  | v :: rest => do
    let first ← readDeclarator v
    let others ← readDeclarators rest
    return first :: others

def readDecl {whole : Json} (node : Node whole) : Except Fault Decl := do
  let specifiers ← readSpecifiers node
  let declarators ← readDeclarators (← node.list 1).1
  return ⟨specifiers, declarators, node.span⟩

def readDecls : List Json → Except Fault (List Decl)
  | [] => return []
  | v :: rest => do
    let first ← readDecl (← Node.expect v "Declaration")
    let others ← readDecls rest
    return first :: others

mutual

def readStmt (v : Json) : Except Fault Stmt := do
  let node ← Node.read v
  match node.tag with
  | "ExpressionStatement" =>
    let value ← readExpr (← node.param 0).1
    return .expr value node.span
  | "Return" =>
    match node.optional 0 with
    | none => return .ret none node.span
    | some value =>
      let value ← readExpr value.1
      return .ret (some value) node.span
  | "Block" =>
    let ⟨decls, _⟩ ← node.list 0
    let decls ← readDecls decls
    let ⟨stmts, _⟩ ← node.list 1
    let stmts ← readStmts stmts
    return .block ⟨decls, stmts, node.span⟩ node.span
  | _ => node.unsupported
termination_by sizeOf v

def readStmts (items : List Json) : Except Fault (List Stmt) :=
  match items with
  | [] => return []
  | v :: rest => do
    let first ← readStmt v
    let others ← readStmts rest
    return first :: others
termination_by sizeOf items

end

/-- A block on its own. -/
def readBlock (v : Json) : Except Fault Block := do
  let node ← Node.expect v "Block"
  let decls ← readDecls (← node.list 0).1
  let stmts ← readStmts (← node.list 1).1
  return ⟨decls, stmts, node.span⟩

def readParam (v : Json) : Except Fault Param := do
  let node ← Node.read v
  match node.tag with
  | "ParameterDeclaration" =>
    let name ← readIdentifier (← node.param 1).1
    let specifiers ← readSpecifiers node
    return ⟨some name, specifiers, node.span⟩
  | "TypeOnlyParameterDeclaration" =>
    let specifiers ← readSpecifiers node
    return ⟨none, specifiers, node.span⟩
  | _ => node.unsupported

def readParams : List Json → Except Fault (List Param)
  | [] => return []
  | v :: rest => do
    let first ← readParam v
    let others ← readParams rest
    return first :: others

/-- A function: specifiers, a declarator with the name and the parameters, an empty list, and the
body. -/
def readFunction {whole : Json} (node : Node whole) : Except Fault Function := do
  let result ← readSpecifiers node
  let declarator ← Node.expect (← node.param 1).1 "FunctionDeclarator"
  let name ← readIdentifier (← declarator.param 0).1
  let params ← readParams (← declarator.list 1).1
  let oldStyle ← node.list 2
  if !oldStyle.1.isEmpty then
    throw (.unsupported "old-style parameter declarations" node.place)
  let body ← readBlock (← node.param 3).1
  return ⟨name, result, params, body, node.span⟩

def readItem (v : Json) : Except Fault Item := do
  let node ← Node.read v
  match node.tag with
  | "FunctionDefinition" => return .function (← readFunction node)
  | "Declaration" => return .declaration (← readDecl node)
  | _ => node.unsupported

def readItems : List Json → Except Fault (List Item)
  | [] => return []
  | v :: rest => do
    let first ← readItem v
    let others ← readItems rest
    return first :: others

/-- The root is an array and has no place. -/
def readModule : Json → Except Fault Module
  | .arr items => do
    let items ← readItems items
    return ⟨items, .unknown⟩
  | _ => .error (.unsupported "module root that is not an array" .unknown)

end MiniC.Tagged
