import MiniC.Estree.Tree
import MiniC.Json.Printer

/-!
# The JSON form of emitted programs

Every node is an object that starts with its type; the other fields follow in a fixed order.
-/

namespace MiniC.Estree

/-- An object with a type. -/
def node (type : String) (fields : List (String × Json)) : Json :=
  .obj (("type", .str type) :: fields)

def identJson (name : String) : Json :=
  node "Identifier" [("name", .str name)]

namespace BinaryOp

def symbol : BinaryOp → String
  | .add => "+"
  | .bitOr => "|"

end BinaryOp

namespace Expr

mutual

def toJson : Expr → Json
  | .ident name => identJson name
  | .num value => node "Literal" [("value", .int value.toInt)]
  | .str value => node "Literal" [("value", .str value)]
  | .binary op left right => node "BinaryExpression"
      [("operator", .str op.symbol), ("left", toJson left), ("right", toJson right)]
  | .assign left right => node "AssignmentExpression"
      [("operator", .str "="), ("left", toJson left), ("right", toJson right)]
  | .call callee args => node "CallExpression"
      [("callee", toJson callee), ("arguments", .arr (listJson args))]
  | .object properties => node "ObjectExpression" [("properties", .arr (propertiesJson properties))]

def listJson : List Expr → List Json
  | [] => []
  | e :: rest => toJson e :: listJson rest

def propertiesJson : List (String × Expr) → List Json
  | [] => []
  | (key, value) :: rest =>
    node "Property" [("key", identJson key), ("value", toJson value), ("kind", .str "init")] ::
      propertiesJson rest

end

end Expr

def declaratorJson (declarator : String × Expr) : Json :=
  node "VariableDeclarator" [("id", identJson declarator.1), ("init", declarator.2.toJson)]

namespace Stmt

mutual

def toJson : Stmt → Json
  | .function name params body => node "FunctionDeclaration"
      [("id", identJson name), ("params", .arr (params.map identJson)), ("body", blockJson body)]
  | .block body => blockJson body
  | .var declarators => node "VariableDeclaration"
      [("declarations", .arr (declarators.map declaratorJson)), ("kind", .str "var")]
  | .expr value => node "ExpressionStatement" [("expression", value.toJson)]
  | .ret value => node "ReturnStatement" [("argument", (value.map Expr.toJson).getD .null)]

def blockJson (body : List Stmt) : Json :=
  node "BlockStatement" [("body", .arr (listJson body))]

def listJson : List Stmt → List Json
  | [] => []
  | s :: rest => toJson s :: listJson rest

end

end Stmt

namespace Program

def toJson (program : Program) : Json :=
  node "Program" [("body", .arr (Stmt.listJson program.body)), ("sourceType", .str "script")]

/-- The text of a program, indented or without blanks. -/
def render (program : Program) (indented : Bool) : String :=
  if indented then program.toJson.pretty else program.toJson.compact

end Program

end MiniC.Estree
