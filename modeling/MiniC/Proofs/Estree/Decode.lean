import MiniC.Estree.Encode
import MiniC.Proofs.Json.Layout

/-!
# A program can be recovered from its text

The JSON form of a program is read from the leaves upward: each value is given its `Reading`, and
the reading of a node is made from those of its fields, which are found by their keys. The fields
may stand in any order, and nothing is said about how the value was written down.
-/

namespace MiniC.Estree

/-- What a JSON value stands for in a program. -/
inductive Reading where
  | null
  | text (value : String)
  | whole (value : Int)
  | items (readings : List Reading)
  | ident (name : String)
  | expr (value : Expr)
  | property (key : String) (value : Expr)
  | declarator (name : String) (init : Expr)
  | stmt (value : Stmt)
  | program (value : Program)
  | nothing

def BinaryOp.ofSymbol? : String → Option BinaryOp
  | "+" => some .add
  | "|" => some .bitOr
  | _ => none

namespace Reading

def text? : Reading → Option String
  | .text value => some value
  | _ => none

def name? : Reading → Option String
  | .ident name => some name
  | _ => none

def expr? : Reading → Option Expr
  | .ident name => some (.ident name)
  | .expr value => some value
  | _ => none

/-- An expression that may be absent. -/
def optional? : Reading → Option (Option Expr)
  | .null => some none
  | reading => reading.expr?.map some

def property? : Reading → Option (String × Expr)
  | .property key value => some (key, value)
  | _ => none

def declarator? : Reading → Option (String × Expr)
  | .declarator name init => some (name, init)
  | _ => none

def stmt? : Reading → Option Stmt
  | .stmt value => some value
  | _ => none

def block? : Reading → Option (List Stmt)
  | .stmt (.block body) => some body
  | _ => none

def literal? : Reading → Option Expr
  | .whole value => some (.num (Int64.ofInt value))
  | .text value => some (.str value)
  | _ => none

/-- The parts of an array that are all of one kind. -/
def all? {α : Type} (part : Reading → Option α) : Reading → Option (List α)
  | .items readings => readings.mapM part
  | _ => none

/-- The last field with a key. -/
def field (fields : List (String × Reading)) (key : String) : Reading :=
  (fields.reverse.lookup key).getD .nothing

/-- The reading of a node with the given fields. -/
def node? (fields : List (String × Reading)) : Option Reading := do
  let get := field fields
  match ← (get "type").text? with
  | "Identifier" => return .ident (← (get "name").text?)
  | "Literal" => return .expr (← (get "value").literal?)
  | "BinaryExpression" =>
    let op ← BinaryOp.ofSymbol? (← (get "operator").text?)
    return .expr (.binary op (← (get "left").expr?) (← (get "right").expr?))
  | "AssignmentExpression" => return .expr (.assign (← (get "left").expr?) (← (get "right").expr?))
  | "CallExpression" =>
    return .expr (.call (← (get "callee").expr?) (← (get "arguments").all? expr?))
  | "ObjectExpression" => return .expr (.object (← (get "properties").all? property?))
  | "Property" => return .property (← (get "key").name?) (← (get "value").expr?)
  | "VariableDeclarator" => return .declarator (← (get "id").name?) (← (get "init").expr?)
  | "FunctionDeclaration" =>
    return .stmt (.function (← (get "id").name?) (← (get "params").all? name?)
      (← (get "body").block?))
  | "BlockStatement" => return .stmt (.block (← (get "body").all? stmt?))
  | "VariableDeclaration" => return .stmt (.var (← (get "declarations").all? declarator?))
  | "ExpressionStatement" => return .stmt (.expr (← (get "expression").expr?))
  | "ReturnStatement" => return .stmt (.ret (← (get "argument").optional?))
  | "Program" => return .program ⟨← (get "body").all? stmt?⟩
  | _ => none

mutual

def ofJson : Json → Reading
  | .null => .null
  | .str value => .text value
  | .num (.int value) => .whole value
  | .arr values => .items (ofItems values)
  | .obj fields => (node? (ofFields fields)).getD .nothing
  | _ => .nothing

def ofItems : List Json → List Reading
  | [] => []
  | v :: rest => ofJson v :: ofItems rest

def ofFields : List (String × Json) → List (String × Reading)
  | [] => []
  | (key, v) :: rest => (key, ofJson v) :: ofFields rest

end

lemma ofSymbol?_symbol (op : BinaryOp) : BinaryOp.ofSymbol? op.symbol = some op := by
  cases op <;> rfl

/-- Nothing that is an expression is absent. -/
lemma optional?_of_expr? {reading : Reading} {e : Expr} (h : reading.expr? = some e) :
    reading.optional? = some (some e) := by
  cases reading <;> cases h <;> rfl

end Reading

open Reading

/-! ## Expressions -/

mutual

theorem Expr.expr?_toJson : ∀ e : Expr, (ofJson e.toJson).expr? = some e
  | .ident name => rfl
  | .num value => by
    have read : ofJson (Expr.num value).toJson = .expr (.num (Int64.ofInt value.toInt)) := rfl
    rw [read, Int64.ofInt_toInt]
    rfl
  | .str value => rfl
  | .binary op left right => by
    have read : ofJson (Expr.binary op left right).toJson = Option.getD (do
      let op ← BinaryOp.ofSymbol? op.symbol
      return .expr (.binary op (← (ofJson left.toJson).expr?) (← (ofJson right.toJson).expr?)))
        .nothing := rfl
    rw [read, ofSymbol?_symbol, Expr.expr?_toJson left, Expr.expr?_toJson right]
    rfl
  | .assign left right => by
    have read : ofJson (Expr.assign left right).toJson = Option.getD (do
      return .expr (.assign (← (ofJson left.toJson).expr?) (← (ofJson right.toJson).expr?)))
        .nothing := rfl
    rw [read, Expr.expr?_toJson left, Expr.expr?_toJson right]
    rfl
  | .call callee args => by
    have read : ofJson (Expr.call callee args).toJson = Option.getD (do
      return .expr (.call (← (ofJson callee.toJson).expr?)
        (← (ofItems (Expr.listJson args)).mapM expr?))) .nothing := rfl
    rw [read, Expr.expr?_toJson callee, Expr.mapM_listJson args]
    rfl
  | .object properties => by
    have read : ofJson (Expr.object properties).toJson = Option.getD (do
      return .expr (.object (← (ofItems (Expr.propertiesJson properties)).mapM property?)))
        .nothing := rfl
    rw [read, Expr.mapM_propertiesJson properties]
    rfl

theorem Expr.mapM_listJson : ∀ es : List Expr, (ofItems (Expr.listJson es)).mapM expr? = some es
  | [] => rfl
  | e :: rest => by
    rw [Expr.listJson, ofItems, List.mapM_cons, Expr.expr?_toJson e, Expr.mapM_listJson rest]
    rfl

theorem Expr.mapM_propertiesJson : ∀ properties : List (String × Expr),
    (ofItems (Expr.propertiesJson properties)).mapM property? = some properties
  | [] => rfl
  | (key, value) :: rest => by
    have read : ofJson (node "Property"
        [("key", identJson key), ("value", value.toJson), ("kind", .str "init")]) =
      Option.getD (do return .property key (← (ofJson value.toJson).expr?)) .nothing := rfl
    rw [Expr.propertiesJson, ofItems, List.mapM_cons, read, Expr.expr?_toJson value,
      Expr.mapM_propertiesJson rest]
    rfl

end

/-! ## Statements -/

lemma mapM_ofItems {α : Type} {encode : α → Json} {part : Reading → Option α}
    (each : ∀ a, part (ofJson (encode a)) = some a) (as : List α) :
    (ofItems (as.map encode)).mapM part = some as := by
  induction as with
  | nil => rfl
  | cons a rest ih =>
    rw [List.map_cons, ofItems, List.mapM_cons, each, ih]
    rfl

lemma name?_identJson (name : String) : (ofJson (identJson name)).name? = some name := rfl

lemma declarator?_declaratorJson (d : String × Expr) :
    (ofJson (declaratorJson d)).declarator? = some d := by
  have read : ofJson (declaratorJson d) =
    Option.getD (do return .declarator d.1 (← (ofJson d.2.toJson).expr?)) .nothing := rfl
  rw [read, Expr.expr?_toJson]
  rfl

lemma ofJson_blockJson {body : List Stmt}
    (h : (ofItems (Stmt.listJson body)).mapM stmt? = some body) :
    ofJson (Stmt.blockJson body) = .stmt (.block body) := by
  have read : ofJson (Stmt.blockJson body) = Option.getD (do
    return .stmt (.block (← (ofItems (Stmt.listJson body)).mapM stmt?))) .nothing := by
      rw [Stmt.blockJson]
      rfl
  rw [read, h]
  rfl

mutual

theorem Stmt.ofJson_toJson : ∀ s : Stmt, ofJson s.toJson = .stmt s
  | .function name params body => by
    have read : ofJson (Stmt.function name params body).toJson = Option.getD (do
      return .stmt (.function name (← (ofItems (params.map identJson)).mapM name?)
        (← (ofJson (Stmt.blockJson body)).block?))) .nothing := by
      rw [Stmt.toJson]
      rfl
    rw [read, mapM_ofItems name?_identJson, ofJson_blockJson (Stmt.mapM_listJson body)]
    rfl
  | .block body => by
    rw [Stmt.toJson]
    exact ofJson_blockJson (Stmt.mapM_listJson body)
  | .var declarators => by
    have read : ofJson (Stmt.var declarators).toJson = Option.getD (do
      return .stmt (.var (← (ofItems (declarators.map declaratorJson)).mapM declarator?)))
        .nothing := by
      rw [Stmt.toJson]
      rfl
    rw [read, mapM_ofItems declarator?_declaratorJson]
    rfl
  | .expr value => by
    have read : ofJson (Stmt.expr value).toJson = Option.getD (do
      return .stmt (.expr (← (ofJson value.toJson).expr?))) .nothing := by
      rw [Stmt.toJson]
      rfl
    rw [read, Expr.expr?_toJson]
    rfl
  | .ret none => by
    rw [Stmt.toJson]
    rfl
  | .ret (some value) => by
    have read : ofJson (Stmt.ret (some value)).toJson = Option.getD (do
      return .stmt (.ret (← (ofJson value.toJson).optional?))) .nothing := by
      rw [Stmt.toJson]
      rfl
    rw [read, optional?_of_expr? (Expr.expr?_toJson value)]
    rfl

theorem Stmt.mapM_listJson : ∀ body : List Stmt,
    (ofItems (Stmt.listJson body)).mapM stmt? = some body
  | [] => by
    rw [Stmt.listJson]
    rfl
  | s :: rest => by
    rw [Stmt.listJson, ofItems, List.mapM_cons, Stmt.ofJson_toJson s, Stmt.mapM_listJson rest]
    rfl

end

/-! ## Numbers -/

open Json (Plain PlainItems)

lemma plain_int (value : Int64) : (Json.int value.toInt).Plain := by
  have lower := value.le_toInt
  have upper := value.toInt_lt
  exact ⟨lower, by omega⟩

mutual

theorem Expr.plain_toJson : ∀ e : Expr, e.toJson.Plain
  | .ident _ => ⟨trivial, trivial, trivial⟩
  | .num value => ⟨trivial, plain_int value, trivial⟩
  | .str _ => ⟨trivial, trivial, trivial⟩
  | .binary _ left right =>
    ⟨trivial, trivial, Expr.plain_toJson left, Expr.plain_toJson right, trivial⟩
  | .assign left right =>
    ⟨trivial, trivial, Expr.plain_toJson left, Expr.plain_toJson right, trivial⟩
  | .call callee args => ⟨trivial, Expr.plain_toJson callee, Expr.plain_listJson args, trivial⟩
  | .object properties => ⟨trivial, Expr.plain_propertiesJson properties, trivial⟩

theorem Expr.plain_listJson : ∀ es : List Expr, PlainItems (Expr.listJson es)
  | [] => trivial
  | e :: rest => ⟨Expr.plain_toJson e, Expr.plain_listJson rest⟩

theorem Expr.plain_propertiesJson : ∀ properties : List (String × Expr),
    PlainItems (Expr.propertiesJson properties)
  | [] => trivial
  | (_, value) :: rest =>
    ⟨⟨trivial, ⟨trivial, trivial, trivial⟩, Expr.plain_toJson value, trivial, trivial⟩,
      Expr.plain_propertiesJson rest⟩

end

lemma plain_identJson (name : String) : (identJson name).Plain := ⟨trivial, trivial, trivial⟩

lemma plainItems_map {α : Type} {encode : α → Json} (each : ∀ a, (encode a).Plain) (as : List α) :
    PlainItems (as.map encode) := by
  induction as with
  | nil => trivial
  | cons a rest ih => exact ⟨each a, ih⟩

lemma plain_declaratorJson (d : String × Expr) : (declaratorJson d).Plain :=
  ⟨trivial, plain_identJson d.1, d.2.plain_toJson, trivial⟩

lemma plain_blockJson {body : List Stmt} (h : PlainItems (Stmt.listJson body)) :
    (Stmt.blockJson body).Plain := by
  rw [Stmt.blockJson]
  exact ⟨trivial, h, trivial⟩

mutual

theorem Stmt.plain_toJson : ∀ s : Stmt, s.toJson.Plain
  | .function name params body => by
    rw [Stmt.toJson]
    exact ⟨trivial, plain_identJson name, plainItems_map plain_identJson params,
      plain_blockJson (Stmt.plain_listJson body), trivial⟩
  | .block body => by
    rw [Stmt.toJson]
    exact plain_blockJson (Stmt.plain_listJson body)
  | .var declarators => by
    rw [Stmt.toJson]
    exact ⟨trivial, plainItems_map plain_declaratorJson declarators, trivial, trivial⟩
  | .expr value => by
    rw [Stmt.toJson]
    exact ⟨trivial, value.plain_toJson, trivial⟩
  | .ret none => by
    rw [Stmt.toJson]
    exact ⟨trivial, trivial, trivial⟩
  | .ret (some value) => by
    rw [Stmt.toJson]
    exact ⟨trivial, value.plain_toJson, trivial⟩

theorem Stmt.plain_listJson : ∀ body : List Stmt, PlainItems (Stmt.listJson body)
  | [] => by
    rw [Stmt.listJson]
    trivial
  | s :: rest => by
    rw [Stmt.listJson]
    exact ⟨Stmt.plain_toJson s, Stmt.plain_listJson rest⟩

end

/-! ## Programs -/

namespace Program

/-- The program that a JSON value stands for. -/
def ofJson? (v : Json) : Option Program :=
  match Reading.ofJson v with
  | .program p => some p
  | _ => none

lemma ofJson?_toJson (p : Program) : ofJson? p.toJson = some p := by
  have read : Reading.ofJson p.toJson = Option.getD (do
    return .program ⟨← (ofItems (Stmt.listJson p.body)).mapM stmt?⟩) .nothing := rfl
  rw [ofJson?, read, Stmt.mapM_listJson]
  rfl

lemma toJson_injective : Function.Injective toJson := by
  intro p q same
  have recovered := ofJson?_toJson p
  rw [same, ofJson?_toJson] at recovered
  exact (Option.some.inj recovered).symm

lemma plain_toJson (p : Program) : p.toJson.Plain :=
  ⟨trivial, Stmt.plain_listJson p.body, trivial, trivial⟩

/-- Both texts of a program are read as its JSON form. -/
lemma decodes_render (p : Program) (indented : Bool) :
    Json.Decodes (p.render indented) p.toJson := by
  cases indented with
  | false => exact Json.decodes_compact p.plain_toJson
  | true => exact Json.decodes_pretty p.plain_toJson

/-- The text of a program, compact or indented, is laid out and escaped by the rules of the format,
and it determines the program: it is read as the JSON form of the program, from which the program can
be recovered. So programs with the same text are the same. -/
theorem render_determines_program (p : Program) :
    (∀ indented, Json.Decodes (p.render indented) p.toJson) ∧ ofJson? p.toJson = some p ∧
    (∀ q indented indented', p.render indented = q.render indented' → p = q) ∧
    (p.render false).toList = Json.Layout.compact.print 0 p.toJson ∧
    (p.render true).toList = Json.Layout.indented.print 0 p.toJson ∧
    ∀ c, Quoted.Escapes c (Quoted.escape c) := by
  refine ⟨p.decodes_render, p.ofJson?_toJson, ?_, ?_, ?_, Quoted.escapes_escape⟩
  · intro q indented indented' same
    have read := q.decodes_render indented'
    rw [← same] at read
    exact toJson_injective ((p.decodes_render indented).unique read)
  · rw [render, if_neg (by decide), Json.compact, String.toList_ofList]
    exact Json.Layout.compactChars_eq p.toJson 0
  · rw [render, if_pos rfl, Json.pretty, String.toList_ofList]
    exact Json.Layout.prettyChars_eq p.toJson 0

end Program

end MiniC.Estree
