import MiniC.Proofs.Grammar.Declarative.Division
import MiniC.Proofs.Grammar.Positions

/-!
# What a declarative value comes to

A declarative tree is read as a whole before any part of it is lowered. What a value comes to is
therefore an optional outcome: none if it cannot be read, else what its node is lowered to. The
outcome of a node that is written as an object depends on its other fields and on the outcomes of
the nodes below it alone. There is one equation for each kind of node that has nodes below it; in
all of them the node is of this kind or strange.
-/

namespace MiniC.Declarative

open Source

/-- What a value is read as and lowered to. -/
def exprOf (v : Json) : Option (Except Fault Expr) :=
  (ExprNode.read? v).map ExprNode.lower

def declaratorOf (v : Json) : Option (Except Fault Declarator) :=
  (VarNode.read? v).map VarNode.lower

def stmtOf (v : Json) : Option (Except Fault (Decl ⊕ Stmt)) :=
  (StmtNode.read? v).map StmtNode.lowerAlone

def itemOf (v : Json) : Option (Except Fault Item) :=
  (DeclNode.read? v).map DeclNode.lower

/-- The outcome of a value that is no node of a known kind. -/
def strange {α : Type} (category : String) (v : Json) : Option (Except Fault α) :=
  (unknown? v).map fun (tag, place) => .error (unknownFault category tag place)

/-! ## Nodes written as objects -/

section Fields

variable {fields : List (String × Json)} {tag : Json}

/-- The place among some fields, which may be missing or null. -/
def placeIn (fields : List (String × Json)) : Option (Option Location) :=
  match Json.lookup "loc" fields with
  | none | some .null => some none
  | some place => (Place.decode place).toOption.map some

/-- The part of a field and the field itself. -/
lemma fieldPart?_cases {whole : Json} (key : String) (smaller : sizeOf fields < sizeOf whole) :
    (Json.fieldPart? key fields smaller = none ∧ Json.lookup key fields = none) ∨
      ∃ part, Json.fieldPart? key fields smaller = some part ∧
        Json.lookup key fields = some part.1 := by
  rw [← Json.fieldPart?_eq_lookup key fields smaller]
  cases Json.fieldPart? key fields smaller <;> simp

lemma fieldPart?_of_lookup {whole v : Json} {key : String} (found : Json.lookup key fields = some v)
    (smaller : sizeOf fields < sizeOf whole) :
    ∃ below, Json.fieldPart? key fields smaller = some ⟨v, below⟩ := by
  rw [← Json.fieldPart?_eq_lookup key fields smaller] at found
  obtain ⟨⟨_, below⟩, part, rfl⟩ := Option.map_eq_some_iff.mp found
  exact ⟨below, part⟩

lemma placeField?_eq_placeIn {whole : Json} (smaller : sizeOf fields < sizeOf whole) :
    placeField? (Json.fieldPart? "loc" fields smaller) = placeIn fields := by
  rw [placeIn, ← Json.fieldPart?_eq_lookup "loc" fields smaller]
  cases Json.fieldPart? "loc" fields smaller with
  | none => rfl
  | some part =>
    obtain ⟨v, _⟩ := part
    cases v <;> rfl

lemma stringField?_fieldPart? {whole : Json} (key : String)
    (smaller : sizeOf fields < sizeOf whole) :
    stringField? (Json.fieldPart? key fields smaller) =
      (Json.lookup key fields).bind Json.str? := by
  rw [← Json.fieldPart?_eq_lookup key fields smaller, stringField?]
  cases Json.fieldPart? key fields smaller <;> rfl

/-- An expression among some fields, which may be missing or null. -/
def optionalIn (key : String) (fields : List (String × Json)) :
    Option (Except Fault (Option Expr)) :=
  match Json.lookup key fields with
  | none | some .null => some (pure none)
  | some v => (exprOf v).map (some <$> ·)

/-- The arguments of a call, which may be missing. -/
def argsIn (fields : List (String × Json)) : Option (Except Fault (List Expr)) :=
  match Json.lookup "arguments" fields with
  | none => some (.ok [])
  | some (.arr items) => (ExprNode.readAll? items).map ExprNode.lowerAll
  | some _ => none

/-- The parameters of a function, which may be missing. -/
def paramsIn (fields : List (String × Json)) : Option (List ParamNode) :=
  match Json.lookup "parameters" fields with
  | none => some []
  | some (.arr items) => ParamNode.readAll? items
  | some _ => none

lemma exprOf_add (tagged : Json.lookup "expressionType" fields = some tag)
    (known : kind? exprKinds tag = some "AddExpression") : exprOf (.obj fields) = ((do
      let left ← (Json.lookup "left" fields).bind exprOf
      let right ← (Json.lookup "right" fields).bind exprOf
      let place ← placeIn fields
      some (do
        let left ← left
        let right ← right
        return .binary .add left right (Place.span place))) <|>
      strange "expression" (.obj fields)) := by
  rw [exprOf, ExprNode.read?]
  simp only [Body.tagged?, tagged, Option.map_some, known, Body.select?, List.map,
    Option.bind_eq_bind, Option.bind_some]
  obtain ⟨part, found⟩ | ⟨l, part, left⟩ := fieldPart?_cases "left" (Json.sizeOf_fields_lt fields)
  · simp [part, found, strange, Function.comp_def, ExprNode.lower]
  obtain ⟨part', found⟩ | ⟨r, part', right⟩ :=
    fieldPart?_cases "right" (Json.sizeOf_fields_lt fields)
  · simp [part, part', left, found, strange, Function.comp_def, ExprNode.lower]
  simp only [part, part', left, right, Option.bind_some, placeField?_eq_placeIn, exprOf]
  cases ExprNode.read? l.1 <;> cases ExprNode.read? r.1 <;> cases placeIn fields <;>
    simp [strange, Function.comp_def, ExprNode.lower]

lemma ExprNode.lower_binary (symbol : String) (left right : ExprNode) (place : Option Location) :
    (ExprNode.binary symbol left right place).lower = (do
      let op ← operator "binary" symbol (BinaryOp.ofSymbol? symbol) (Place.span place)
      let left ← left.lower
      let right ← right.lower
      return .binary op left right (Place.span place)) := by
  rw [lower]
  unfold operator
  cases BinaryOp.ofSymbol? symbol <;> rfl

lemma ExprNode.lower_assign (symbol : String) (target value : ExprNode) (place : Option Location) :
    (ExprNode.assign symbol target value place).lower = (do
      let op ← operator "assignment" symbol (AssignOp.ofSymbol? symbol) (Place.span place)
      let target ← target.lower
      let value ← value.lower
      return .assign op target value (Place.span place)) := by
  rw [lower]
  unfold operator
  cases AssignOp.ofSymbol? symbol <;> rfl

lemma ExprNode.lower_unknown (tag : Option String) (place : Option Location) :
    (ExprNode.unknown tag place).lower = .error (unknownFault "expression" tag place) := by
  rw [lower]

lemma exprOf_binary (tagged : Json.lookup "expressionType" fields = some tag)
    (known : kind? exprKinds tag = some "BinaryExpression") : exprOf (.obj fields) = ((do
      let symbol ← (Json.lookup "operator" fields).bind Json.str?
      let left ← (Json.lookup "left" fields).bind exprOf
      let right ← (Json.lookup "right" fields).bind exprOf
      let place ← placeIn fields
      some (do
        let op ← operator "binary" symbol (BinaryOp.ofSymbol? symbol) (Place.span place)
        let left ← left
        let right ← right
        return .binary op left right (Place.span place))) <|>
      strange "expression" (.obj fields)) := by
  rw [exprOf, ExprNode.read?]
  simp only [Body.tagged?, tagged, Option.map_some, known, Body.select?, List.map,
    Option.bind_eq_bind, Option.bind_some]
  obtain ⟨part, found⟩ | ⟨l, part, left⟩ := fieldPart?_cases "left" (Json.sizeOf_fields_lt fields)
  · simp [part, found, strange, Function.comp_def, ExprNode.lower]
  obtain ⟨part', found⟩ | ⟨r, part', right⟩ :=
    fieldPart?_cases "right" (Json.sizeOf_fields_lt fields)
  · simp [part, part', left, found, strange, Function.comp_def, ExprNode.lower]
  simp only [part, part', left, right, Option.bind_some, placeField?_eq_placeIn,
    stringField?_fieldPart?, exprOf]
  cases (Json.lookup "operator" fields).bind Json.str? <;> cases ExprNode.read? l.1 <;>
    cases ExprNode.read? r.1 <;> cases placeIn fields <;>
    simp [strange, Function.comp_def, ExprNode.lower_unknown, ExprNode.lower_binary]

lemma exprOf_assign (tagged : Json.lookup "expressionType" fields = some tag)
    (known : kind? exprKinds tag = some "AssignmentExpression") : exprOf (.obj fields) = ((do
      let symbol ← (Json.lookup "operator" fields).bind Json.str?
      let target ← (Json.lookup "left" fields).bind exprOf
      let value ← (Json.lookup "right" fields).bind exprOf
      let place ← placeIn fields
      some (do
        let op ← operator "assignment" symbol (AssignOp.ofSymbol? symbol) (Place.span place)
        let target ← target
        let value ← value
        return .assign op target value (Place.span place))) <|>
      strange "expression" (.obj fields)) := by
  rw [exprOf, ExprNode.read?]
  simp only [Body.tagged?, tagged, Option.map_some, known, Body.select?, List.map,
    Option.bind_eq_bind, Option.bind_some]
  obtain ⟨part, found⟩ | ⟨l, part, left⟩ := fieldPart?_cases "left" (Json.sizeOf_fields_lt fields)
  · simp [part, found, strange, Function.comp_def, ExprNode.lower]
  obtain ⟨part', found⟩ | ⟨r, part', right⟩ :=
    fieldPart?_cases "right" (Json.sizeOf_fields_lt fields)
  · simp [part, part', left, found, strange, Function.comp_def, ExprNode.lower]
  simp only [part, part', left, right, Option.bind_some, placeField?_eq_placeIn,
    stringField?_fieldPart?, exprOf]
  cases (Json.lookup "operator" fields).bind Json.str? <;> cases ExprNode.read? l.1 <;>
    cases ExprNode.read? r.1 <;> cases placeIn fields <;>
    simp [strange, Function.comp_def, ExprNode.lower_unknown, ExprNode.lower_assign]

lemma exprOf_call (tagged : Json.lookup "expressionType" fields = some tag)
    (known : kind? exprKinds tag = some "FunctionCallExpression") : exprOf (.obj fields) = ((do
      let callee ← (Json.lookup "callee" fields).bind exprOf
      let args ← argsIn fields
      let place ← placeIn fields
      some (do
        let callee ← callee
        let args ← args
        return .call callee args (Place.span place))) <|>
      strange "expression" (.obj fields)) := by
  rw [exprOf, ExprNode.read?]
  simp only [Body.tagged?, tagged, Option.map_some, known, Body.select?, List.map,
    Option.bind_eq_bind, Option.bind_some]
  obtain ⟨part, found⟩ | ⟨c, part, callee⟩ :=
    fieldPart?_cases "callee" (Json.sizeOf_fields_lt fields)
  · simp [part, found, strange, Function.comp_def, ExprNode.lower]
  simp only [part, callee, Option.bind_some, placeField?_eq_placeIn, exprOf, argsIn]
  obtain ⟨part', found⟩ | ⟨⟨a, _⟩, part', args⟩ :=
    fieldPart?_cases "arguments" (Json.sizeOf_fields_lt fields)
  · simp only [part', found]
    cases ExprNode.read? c.1 <;> cases placeIn fields <;>
      simp [strange, Function.comp_def, ExprNode.lower, ExprNode.lowerAll]
    rfl
  · cases a with
    | arr items =>
      simp only [part', args, Json.Part.items?]
      cases ExprNode.read? c.1 <;> cases ExprNode.readAll? items <;> cases placeIn fields <;>
        simp [strange, Function.comp_def, ExprNode.lower]
    | _ =>
      simp only [part', args, Json.Part.items?]
      cases ExprNode.read? c.1 <;> simp [strange, Function.comp_def, ExprNode.lower]

lemma optionalExpr?_fieldPart? {whole : Json} (key : String)
    (smaller : sizeOf fields < sizeOf whole) :
    (optionalExpr? (Json.fieldPart? key fields smaller)).map
      (fun value => value.mapM ExprNode.lower) = optionalIn key fields := by
  rw [optionalIn, optionalExpr?]
  obtain ⟨part, found⟩ | ⟨⟨v, _⟩, part, found⟩ := fieldPart?_cases key smaller
  · rw [part, found]
    rfl
  · rw [part, found]
    cases v <;> simp [optional, exprOf, Function.comp_def]

lemma declaratorOf_obj : declaratorOf (.obj fields) = (do
    let name ← (Json.lookup "variable" fields).bind (wordOf? "name")
    let init ← optionalIn "initialValueExpression" fields
    let place ← placeIn fields
    some (do
      let init ← init
      return ⟨name, init, Place.span place⟩)) := by
  rw [declaratorOf, VarNode.read?, ← optionalExpr?_fieldPart? _ (Json.sizeOf_fields_lt fields)]
  simp only [Body.read?, Body.select?, List.map, Option.bind_eq_bind, Option.bind_some]
  obtain ⟨part, found⟩ | ⟨x, part, variable_found⟩ :=
    fieldPart?_cases "variable" (Json.sizeOf_fields_lt fields)
  · simp [part, found]
  simp only [part, variable_found, Option.bind_some, placeField?_eq_placeIn]
  cases wordOf? "name" x.1 with
  | none => rfl
  | some name =>
    cases optionalExpr? (Json.fieldPart? "initialValueExpression" fields
        (Json.sizeOf_fields_lt fields)) with
    | none => rfl
    | some init =>
      cases placeIn fields with
      | none => rfl
      | some place => cases init <;> simp [VarNode.lower]

lemma stmtOf_block {items : List Json} (tagged : Json.lookup "statementType" fields = some tag)
    (known : kind? stmtKinds tag = some "BlockStatement")
    (found : Json.lookup "statements" fields = some (.arr items)) : stmtOf (.obj fields) = ((do
      let parts ← (StmtNode.readAll? items).map StmtNode.lowerList
      let place ← placeIn fields
      some (do
        let parts ← parts
        return .inr (.block ⟨parts.1, parts.2, Place.span place⟩ (Place.span place)))) <|>
      strange "statement" (.obj fields)) := by
  obtain ⟨_, part⟩ := fieldPart?_of_lookup found (Json.sizeOf_fields_lt fields)
  rw [stmtOf, StmtNode.read?]
  simp only [Body.tagged?, tagged, Option.map_some, known, Body.select?, List.map, part,
    Json.Part.items?, Option.bind_eq_bind, Option.bind_some, placeField?_eq_placeIn]
  cases StmtNode.readAll? items <;> cases placeIn fields <;>
    simp [strange, Function.comp_def, StmtNode.lowerAlone, StmtNode.lower]

lemma stmtOf_decl {items : List Json} (tagged : Json.lookup "statementType" fields = some tag)
    (known : kind? stmtKinds tag = some "DeclarationStatement")
    (found : Json.lookup "variableDeclarations" fields = some (.arr items)) :
    stmtOf (.obj fields) = ((do
      let type ← (Json.lookup "type" fields).bind (wordOf? "category")
      let declarators ← (VarNode.readAll? items).map VarNode.lowerAll
      let place ← placeIn fields
      some (do
        let declarators ← declarators
        return .inl ⟨specifiers type, declarators, Place.span place⟩)) <|>
      strange "statement" (.obj fields)) := by
  obtain ⟨_, part⟩ := fieldPart?_of_lookup found (Json.sizeOf_fields_lt fields)
  rw [stmtOf, StmtNode.read?]
  simp only [Body.tagged?, tagged, Option.map_some, known, Body.select?, List.map, part,
    Option.bind_eq_bind, Option.bind_some]
  obtain ⟨part', found'⟩ | ⟨t, part', type⟩ :=
    fieldPart?_cases "type" (Json.sizeOf_fields_lt fields)
  · simp [part', found', strange, Function.comp_def, StmtNode.lowerAlone, StmtNode.lower]
  simp only [part', type, Json.Part.items?, Option.bind_some, placeField?_eq_placeIn]
  cases wordOf? "category" t.1 <;> cases VarNode.readAll? items <;> cases placeIn fields <;>
    simp [strange, Function.comp_def, StmtNode.lowerAlone, StmtNode.lower, lowerDecl]

lemma stmtOf_expr (tagged : Json.lookup "statementType" fields = some tag)
    (known : kind? stmtKinds tag = some "ExpressionStatement") : stmtOf (.obj fields) = ((do
      let value ← (Json.lookup "expression" fields).bind exprOf
      let place ← placeIn fields
      some (do
        let value ← value
        return .inr (.expr value (Place.span place)))) <|>
      strange "statement" (.obj fields)) := by
  rw [stmtOf, StmtNode.read?]
  simp only [Body.tagged?, tagged, Option.map_some, known, Body.select?, List.map,
    Option.bind_eq_bind, Option.bind_some]
  obtain ⟨part, found⟩ | ⟨x, part, found⟩ :=
    fieldPart?_cases "expression" (Json.sizeOf_fields_lt fields)
  · simp [part, found, strange, Function.comp_def, StmtNode.lowerAlone, StmtNode.lower]
  simp only [part, found, Option.bind_some, placeField?_eq_placeIn, exprOf]
  cases ExprNode.read? x.1 <;> cases placeIn fields <;>
    simp [strange, Function.comp_def, StmtNode.lowerAlone, StmtNode.lower]

lemma stmtOf_ret (tagged : Json.lookup "statementType" fields = some tag)
    (known : kind? stmtKinds tag = some "ReturnStatement") : stmtOf (.obj fields) = ((do
      let value ← optionalIn "expression" fields
      let place ← placeIn fields
      some (do
        let value ← value
        return .inr (.ret value (Place.span place)))) <|>
      strange "statement" (.obj fields)) := by
  rw [stmtOf, StmtNode.read?, ← optionalExpr?_fieldPart? _ (Json.sizeOf_fields_lt fields)]
  simp only [Body.tagged?, tagged, Option.map_some, known, Body.select?, List.map,
    Option.bind_eq_bind, Option.bind_some, placeField?_eq_placeIn]
  cases optionalExpr? (Json.fieldPart? "expression" fields (Json.sizeOf_fields_lt fields)) with
  | none => simp [strange, Function.comp_def, StmtNode.lowerAlone, StmtNode.lower]
  | some value =>
    cases placeIn fields with
    | none => simp [strange, Function.comp_def, StmtNode.lowerAlone, StmtNode.lower]
    | some place => cases value <;> simp [StmtNode.lowerAlone, StmtNode.lower, lowerReturn]

lemma itemOf_function {kind : String} {items : List Json}
    (tagged : Json.lookup "declarationType" fields = some tag)
    (known : kind? declKinds tag = some kind)
    (found : Json.lookup "body" fields = some (.arr items)) : itemOf (.obj fields) = ((do
      let name ← (Json.lookup "name" fields).bind Json.str?
      let result ← (Json.lookup "returnType" fields).bind (wordOf? "category")
      let params ← paramsIn fields
      let parts ← (StmtNode.readAll? items).map StmtNode.lowerList
      let place ← placeIn fields
      some (do
        let parts ← parts
        return .function ⟨name, specifiers result, params.map ParamNode.lower,
          ⟨parts.1, parts.2, Place.span place⟩, Place.span place⟩)) <|>
      strange "declaration" (.obj fields)) := by
  obtain ⟨_, part⟩ := fieldPart?_of_lookup found (Json.sizeOf_fields_lt fields)
  rw [itemOf, DeclNode.read?, FunctionNode.read?]
  simp only [Body.tagged?, tagged, Option.map_some, known, Body.select?, List.map, part,
    Option.bind_eq_bind, Option.bind_some]
  obtain ⟨part', found'⟩ | ⟨r, part', result⟩ :=
    fieldPart?_cases "returnType" (Json.sizeOf_fields_lt fields)
  · simp [part', found', strange, Function.comp_def, DeclNode.lower]
  simp only [part', result, Json.Part.items?, Option.bind_some, placeField?_eq_placeIn,
    stringField?_fieldPart?, paramsIn]
  obtain ⟨part'', found''⟩ | ⟨⟨p, _⟩, part'', found''⟩ :=
    fieldPart?_cases "parameters" (Json.sizeOf_fields_lt fields)
  · simp only [part'', found'']
    cases (Json.lookup "name" fields).bind Json.str? <;> cases wordOf? "category" r.1 <;>
      cases StmtNode.readAll? items <;> cases placeIn fields <;>
      simp [strange, Function.comp_def, DeclNode.lower, FunctionNode.lower, lowerBlock]
  · cases p with
    | arr ps =>
      simp only [part'', found'']
      cases (Json.lookup "name" fields).bind Json.str? <;> cases wordOf? "category" r.1 <;>
        cases ParamNode.readAll? ps <;> cases StmtNode.readAll? items <;> cases placeIn fields <;>
        simp [strange, Function.comp_def, DeclNode.lower, FunctionNode.lower, lowerBlock]
    | _ =>
      simp only [part'', found'']
      cases (Json.lookup "name" fields).bind Json.str? <;> cases wordOf? "category" r.1 <;>
        simp [strange, Function.comp_def, DeclNode.lower]

end Fields

end MiniC.Declarative
