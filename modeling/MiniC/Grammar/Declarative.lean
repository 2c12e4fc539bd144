import MiniC.Grammar.Place
import MiniC.Json.Part

/-!
# Declarative trees

A node is an object with named fields or an array of its fields in a fixed order. Declarations,
statements and expressions have a tag, which says what kind of node it is: the field
`declarationType`, `statementType` or `expressionType`, or the first item of the array. A tag is the
name of a kind, or its position among the kinds, counted from zero.

A declaration, statement or expression that does not fit its kind is kept as an unknown node if at
least a tag and a place can be read from it. Otherwise the node around it does not fit either.
-/

namespace MiniC.Declarative

open Json (Part Items)

inductive ExprNode where
  | add (left right : ExprNode) (place : Option Location)
  | binary (symbol : String) (left right : ExprNode) (place : Option Location)
  | assign (symbol : String) (target value : ExprNode) (place : Option Location)
  | const (text : String) (place : Option Location)
  | call (callee : ExprNode) (args : List ExprNode) (place : Option Location)
  | var (name : String) (place : Option Location)
  | unknown (tag : Option String) (place : Option Location)

structure VarNode where
  name : String
  init : Option ExprNode
  place : Option Location

inductive StmtNode where
  | block (stmts : List StmtNode) (place : Option Location)
  | decl (type : String) (vars : List VarNode) (place : Option Location)
  | expr (value : ExprNode) (place : Option Location)
  | ret (value : Option ExprNode) (place : Option Location)
  | unknown (tag : Option String) (place : Option Location)

structure ParamNode where
  name : Option String
  type : String
  place : Option Location

structure FunctionNode where
  name : String
  result : String
  params : List ParamNode
  body : List StmtNode
  place : Option Location

inductive DeclNode where
  | function (definition : FunctionNode)
  | unknown (tag : Option String) (place : Option Location)

structure ModuleNode where
  decls : List DeclNode
  place : Option Location

/-! ## Fields of a node -/

/-- The fields of a node, by name or by position. -/
inductive Body (whole : Json) where
  | named (fields : List (String × Json)) (smaller : sizeOf fields < sizeOf whole)
  | positional (items : List Json) (smaller : sizeOf items < sizeOf whole)

namespace Body

variable {whole : Json}

def read? : (v : Json) → Option (Body v)
  | .obj fields => some (.named fields (Json.sizeOf_fields_lt fields))
  | .arr items => some (.positional items (Json.sizeOf_items_lt items))
  | _ => none

/-- The tag of a node and its fields. -/
def tagged? (key : String) : (v : Json) → Option (Json × Body v)
  | .obj fields => (Json.lookup key fields).map fun tag =>
      (tag, .named fields (Json.sizeOf_fields_lt fields))
  | .arr (tag :: items) => some (tag, .positional items (Json.sizeOf_tail_lt tag items))
  | _ => none

/-- The values of some fields. By name any of them may be missing; by position there must be exactly
as many items as fields. -/
def select? (names : List String) : Body whole → Option (List (Option (Part whole)))
  | .named fields smaller =>
    some (names.map fun name => Json.fieldPart? name fields smaller)
  | .positional items smaller =>
    if items.length = names.length then
      some ((Json.itemParts items smaller).map some)
    else none

end Body

/-- A field that may be missing or null. -/
def optional {whole : Json} : Option (Part whole) → Option (Part whole)
  | some ⟨.null, _⟩ => none
  | field => field

def stringField? {whole : Json} (field : Option (Part whole)) : Option String :=
  field.bind (·.1.str?)

/-- The place of a node, which may be missing or null but not malformed. -/
def placeField? {whole : Json} (field : Option (Part whole)) : Option (Option Location) :=
  match optional field with
  | none => some none
  | some part => (Place.decode part.1).toOption.map some

/-- The kind that a tag stands for. -/
def kind? (kinds : List String) : Json → Option String
  | .str name => if name ∈ kinds then some name else none
  | .num (.int n) => if 0 ≤ n then kinds[n.toNat]? else none
  | _ => none

/-- A node with a single field that is a string. -/
def wordOf? (name : String) (v : Json) : Option String := do
  let body ← Body.read? v
  match ← body.select? [name] with
  | [word] => stringField? word
  | _ => none

/-- What can be read from a node that does not fit its kind. The tag may stand under any of four
keys, but only under one of them. -/
def unknown? (v : Json) : Option (Option String × Option Location) := do
  let body ← Body.read? v
  let (tag, place) ← match body with
    | .named fields _ =>
      let tags := ["tag", "declarationType", "statementType", "expressionType"].filterMap
        (Json.lookup · fields)
      match tags with
      | [] => some (Json.null, Json.lookup "loc" fields)
      | [tag] => some (tag, Json.lookup "loc" fields)
      | _ => none
    | .positional [tag, place] _ => some (tag, some place)
    | .positional _ _ => none
  let tag ← match tag with
    | .null => some none
    | .str name => some (some name)
    | _ => none
  let place ← match place with
    | none | some .null => some none
    | some place => (Place.decode place).toOption.map some
  some (tag, place)

/-! ## Expressions -/

def exprKinds : List String :=
  ["AddExpression", "BinaryExpression", "AssignmentExpression", "ConstExpression",
    "FunctionCallExpression", "VariableExpression"]

/-- The text of a constant: a string or a number. -/
def constantText? : Json → Option String
  | .str text => some text
  | .num n => some n.text
  | _ => none

mutual

/-- An expression of a known kind, or an unknown node. -/
def ExprNode.read? (v : Json) : Option ExprNode :=
  let known : Option ExprNode := do
    let (tag, body) ← Body.tagged? "expressionType" v
    match ← kind? exprKinds tag with
    | "AddExpression" =>
      match ← body.select? ["left", "right", "loc"] with
      | [some ⟨left, _⟩, some ⟨right, _⟩, place] =>
        let left ← ExprNode.read? left
        let right ← ExprNode.read? right
        let place ← placeField? place
        some (.add left right place)
      | _ => none
    | "BinaryExpression" =>
      match ← body.select? ["operator", "left", "right", "loc"] with
      | [symbol, some ⟨left, _⟩, some ⟨right, _⟩, place] =>
        let symbol ← stringField? symbol
        let left ← ExprNode.read? left
        let right ← ExprNode.read? right
        let place ← placeField? place
        some (.binary symbol left right place)
      | _ => none
    | "AssignmentExpression" =>
      match ← body.select? ["operator", "left", "right", "loc"] with
      | [symbol, some ⟨target, _⟩, some ⟨value, _⟩, place] =>
        let symbol ← stringField? symbol
        let target ← ExprNode.read? target
        let value ← ExprNode.read? value
        let place ← placeField? place
        some (.assign symbol target value place)
      | _ => none
    | "ConstExpression" =>
      match ← body.select? ["value", "loc"] with
      | [some value, place] =>
        let text ← constantText? value.1
        let place ← placeField? place
        some (.const text place)
      | _ => none
    | "FunctionCallExpression" =>
      match ← body.select? ["callee", "arguments", "loc"] with
      | [some ⟨callee, _⟩, args, place] =>
        let callee ← ExprNode.read? callee
        let args ← match args with
          | none => some []
          | some part =>
            match part.items? with
            | some ⟨items, _⟩ => ExprNode.readAll? items
            | none => none
        let place ← placeField? place
        some (.call callee args place)
      | _ => none
    | "VariableExpression" =>
      match ← body.select? ["variable", "loc"] with
      | [some target, place] =>
        let name ← wordOf? "name" target.1
        let place ← placeField? place
        some (.var name place)
      | _ => none
    | _ => none
  match known with
  | some node => some node
  | none => (unknown? v).map fun (tag, place) => .unknown tag place
termination_by sizeOf v

def ExprNode.readAll? (items : List Json) : Option (List ExprNode) :=
  match items with
  | [] => some []
  | v :: rest => do
    let first ← ExprNode.read? v
    let others ← ExprNode.readAll? rest
    some (first :: others)
termination_by sizeOf items

end

/-- An expression that may be missing or null. -/
def optionalExpr? {whole : Json} (field : Option (Part whole)) : Option (Option ExprNode) :=
  match optional field with
  | none => some none
  | some part => (ExprNode.read? part.1).map some

/-! ## Statements -/

def VarNode.read? (v : Json) : Option VarNode := do
  let body ← Body.read? v
  match ← body.select? ["variable", "initialValueExpression", "loc"] with
  | [some target, init, place] =>
    let name ← wordOf? "name" target.1
    let init ← optionalExpr? init
    let place ← placeField? place
    some ⟨name, init, place⟩
  | _ => none

def VarNode.readAll? : List Json → Option (List VarNode)
  | [] => some []
  | v :: rest => do
    let first ← VarNode.read? v
    let others ← VarNode.readAll? rest
    some (first :: others)

def stmtKinds : List String :=
  ["BlockStatement", "DeclarationStatement", "ExpressionStatement", "ReturnStatement"]

mutual

/-- A statement of a known kind, or an unknown node. -/
def StmtNode.read? (v : Json) : Option StmtNode :=
  let known : Option StmtNode := do
    let (tag, body) ← Body.tagged? "statementType" v
    match ← kind? stmtKinds tag with
    | "BlockStatement" =>
      match ← body.select? ["statements", "loc"] with
      | [some part, place] =>
        match part.items? with
        | some ⟨items, _⟩ =>
          let stmts ← StmtNode.readAll? items
          let place ← placeField? place
          some (.block stmts place)
        | none => none
      | _ => none
    | "DeclarationStatement" =>
      match ← body.select? ["type", "variableDeclarations", "loc"] with
      | [some type, some vars, place] =>
        let type ← wordOf? "category" type.1
        let items ← vars.items?
        let vars ← VarNode.readAll? items.1
        let place ← placeField? place
        some (.decl type vars place)
      | _ => none
    | "ExpressionStatement" =>
      match ← body.select? ["expression", "loc"] with
      | [some value, place] =>
        let value ← ExprNode.read? value.1
        let place ← placeField? place
        some (.expr value place)
      | _ => none
    | "ReturnStatement" =>
      match ← body.select? ["expression", "loc"] with
      | [value, place] =>
        let value ← optionalExpr? value
        let place ← placeField? place
        some (.ret value place)
      | _ => none
    | _ => none
  match known with
  | some node => some node
  | none => (unknown? v).map fun (tag, place) => .unknown tag place
termination_by sizeOf v

def StmtNode.readAll? (items : List Json) : Option (List StmtNode) :=
  match items with
  | [] => some []
  | v :: rest => do
    let first ← StmtNode.read? v
    let others ← StmtNode.readAll? rest
    some (first :: others)
termination_by sizeOf items

end

/-! ## Functions and modules -/

def ParamNode.read? (v : Json) : Option ParamNode := do
  let body ← Body.read? v
  match ← body.select? ["name", "type", "loc"] with
  | [name, some type, place] =>
    let name ← match optional name with
      | none => some none
      | some part => part.1.str?.map some
    let type ← wordOf? "category" type.1
    let place ← placeField? place
    some ⟨name, type, place⟩
  | _ => none

def ParamNode.readAll? : List Json → Option (List ParamNode)
  | [] => some []
  | v :: rest => do
    let first ← ParamNode.read? v
    let others ← ParamNode.readAll? rest
    some (first :: others)

def declKinds : List String := ["FunctionDefinition"]

/-- A function definition. Its list of parameters may be missing. -/
def FunctionNode.read? (v : Json) : Option FunctionNode := do
  let (tag, body) ← Body.tagged? "declarationType" v
  let _ ← kind? declKinds tag
  match ← body.select? ["name", "returnType", "parameters", "body", "loc"] with
  | [name, some result, params, some stmts, place] =>
    let name ← stringField? name
    let result ← wordOf? "category" result.1
    let params ← match params with
      | none => some []
      | some part =>
        match part.items? with
        | some items => ParamNode.readAll? items.1
        | none => none
    let items ← stmts.items?
    let stmts ← StmtNode.readAll? items.1
    let place ← placeField? place
    some ⟨name, result, params, stmts, place⟩
  | _ => none

def DeclNode.read? (v : Json) : Option DeclNode :=
  match FunctionNode.read? v with
  | some f => some (.function f)
  | none => (unknown? v).map fun (tag, place) => .unknown tag place

def DeclNode.readAll : List Json → Except Misfit (List DeclNode)
  | [] => return []
  | v :: rest =>
    match DeclNode.read? v with
    | none => throw .unknownNode
    | some first => do
      let others ← DeclNode.readAll rest
      return first :: others

def DeclNode.readList : Json → Except Misfit (List DeclNode)
  | .arr items => DeclNode.readAll items
  | v => .error (.wrongKind v "a sequence")

/-- The place of the root. -/
def readRootPlace : Json → Except Misfit (Option Location)
  | .null => return none
  | v => do
    let place ← Place.decode v
    return some place

namespace ModuleNode

def ofFields (fields : List (String × Json)) : Except Misfit ModuleNode := do
  let decls ← (Json.lookup "declarations" fields).mapM DeclNode.readList
  let place ← (Json.lookup "loc" fields).mapM readRootPlace
  match decls with
  | none => throw (.missing "declarations")
  | some decls => return ⟨decls, place.join⟩

def ofItems : List Json → Except Misfit ModuleNode
  | [] => .error (.wrongLength 0 "struct ModuleNode with 2 elements")
  | [decls] => do
    let _ ← DeclNode.readList decls
    throw (.wrongLength 1 "struct ModuleNode with 2 elements")
  | decls :: place :: rest => do
    let decls ← DeclNode.readList decls
    let place ← readRootPlace place
    if rest.isEmpty then return ⟨decls, place⟩ else throw (.tooLong (rest.length + 2))

/-- The root of a tree. -/
def read : Json → Except Misfit ModuleNode
  | .obj fields => ofFields fields
  | .arr items => ofItems items
  | v => .error (.wrongKind v "struct ModuleNode")

end ModuleNode

end MiniC.Declarative
