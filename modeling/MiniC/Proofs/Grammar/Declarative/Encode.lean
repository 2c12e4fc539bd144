import MiniC.Grammar.Declarative.Lower
import MiniC.Proofs.Grammar.Fits

/-!
# Declarative trees of source trees

`Declarative.encode` writes the functions of a module as a declarative tree. Reading the tree gives
the module back, apart from the spans of function bodies, which stand for the whole function there
(`readModule_encode`).
-/

namespace MiniC.Declarative

open Source

/-! ## Writing -/

/-- A node with its tag, its own fields and its place. -/
def encodeNode (key kind : String) (fields : List (String × Json)) (span : Span) : Json :=
  .obj ((key, .str kind) :: (fields ++ Place.fields span))

def encodeName (name : String) : Json :=
  .obj [("name", .str name)]

def encodeType (specifiers : List Specifier) : Json :=
  .obj [("category", .str (Specifier.listText specifiers))]

mutual

/-- The node of an expression; addition has a kind of its own. -/
def encodeExpr : Expr → Json
  | .const text span => encodeNode "expressionType" "ConstExpression" [("value", .str text)] span
  | .ident name span =>
    encodeNode "expressionType" "VariableExpression" [("variable", encodeName name)] span
  | .binary .add left right span =>
    encodeNode "expressionType" "AddExpression"
      [("left", encodeExpr left), ("right", encodeExpr right)] span
  | .binary op left right span =>
    encodeNode "expressionType" "BinaryExpression"
      [("operator", .str op.symbol), ("left", encodeExpr left), ("right", encodeExpr right)] span
  | .assign op target value span =>
    encodeNode "expressionType" "AssignmentExpression"
      [("operator", .str op.symbol), ("left", encodeExpr target), ("right", encodeExpr value)] span
  | .call callee args span =>
    encodeNode "expressionType" "FunctionCallExpression"
      [("callee", encodeExpr callee), ("arguments", .arr (encodeExprs args))] span

def encodeExprs : List Expr → List Json
  | [] => []
  | e :: rest => encodeExpr e :: encodeExprs rest

end

def encodeOptional : Option Expr → Json
  | none => .null
  | some e => encodeExpr e

def encodeDeclarator (d : Declarator) : Json :=
  .obj (("variable", encodeName d.name) :: ("initialValueExpression", encodeOptional d.init) ::
    Place.fields d.span)

def encodeDecl (d : Decl) : Json :=
  encodeNode "statementType" "DeclarationStatement" [("type", encodeType d.specifiers),
    ("variableDeclarations", .arr (d.declarators.map encodeDeclarator))] d.span

mutual

def encodeStmt : Stmt → Json
  | .expr value span =>
    encodeNode "statementType" "ExpressionStatement" [("expression", encodeExpr value)] span
  | .ret value span =>
    encodeNode "statementType" "ReturnStatement" [("expression", encodeOptional value)] span
  | .block body span =>
    encodeNode "statementType" "BlockStatement" [("statements", .arr (encodeBlock body))] span

def encodeStmts : List Stmt → List Json
  | [] => []
  | s :: rest => encodeStmt s :: encodeStmts rest

/-- The declarations of a block stand before its statements. -/
def encodeBlock : Block → List Json
  | ⟨decls, stmts, _⟩ => decls.map encodeDecl ++ encodeStmts stmts

end

def encodeParam (p : Param) : Json :=
  .obj (("name", p.name.elim .null .str) :: ("type", encodeType p.specifiers) ::
    Place.fields p.span)

def encodeFunction (f : Function) : Json :=
  encodeNode "declarationType" "FunctionDefinition" [("name", .str f.name),
    ("returnType", encodeType f.result), ("parameters", .arr (f.params.map encodeParam)),
    ("body", .arr (encodeBlock f.body))] f.span

/-- A declaration outside of functions has no form. -/
def encodeItem? : Item → Option Json
  | .function f => some (encodeFunction f)
  | .declaration _ => none

/-- The tree of a module. -/
def encode (m : Module) : Json :=
  .obj (("declarations", .arr (m.items.filterMap encodeItem?)) :: Place.fields m.span)

/-! ## Reading what was written -/

/-- What a declarative tree can express and its reader gives. -/
def shape : Shape where
  span := Span.IsReadable
  block inner outer := inner = outer
  operator _ := True
  specifier s := s.IsRead ∧ s.IsPlain

variable {whole : Json}

@[simp]
lemma lookup_cons_of_ne {key k : String} (other : k ≠ key) (v : Json)
    (rest : List (String × Json)) : Json.lookup key ((k, v) :: rest) = Json.lookup key rest := by
  rw [Json.lookup]
  cases Json.lookup key rest <;> simp [other]

lemma sizeOf_tail_lt {field : String × Json} {rest : List (String × Json)}
    (smaller : sizeOf (field :: rest) < sizeOf whole) : sizeOf rest < sizeOf whole := by
  simp only [List.cons.sizeOf_spec] at smaller
  omega

lemma sizeOf_value_lt {key : String} {v : Json} {rest : List (String × Json)}
    (smaller : sizeOf ((key, v) :: rest) < sizeOf whole) : sizeOf v < sizeOf whole := by
  simp only [List.cons.sizeOf_spec, Prod.mk.sizeOf_spec] at smaller
  omega

@[simp]
lemma fieldPart?_cons_of_ne {key k : String} (other : k ≠ key) (v : Json)
    (rest : List (String × Json)) (smaller : sizeOf ((k, v) :: rest) < sizeOf whole) :
    Json.fieldPart? key ((k, v) :: rest) smaller =
      Json.fieldPart? key rest (sizeOf_tail_lt smaller) := by
  rw [Json.fieldPart?]
  cases Json.fieldPart? key rest _ <;> simp [other]

@[simp]
lemma fieldPart?_cons_self {key : String} (v : Json) {rest : List (String × Json)}
    (absent : Json.lookup key rest = none) (smaller : sizeOf ((key, v) :: rest) < sizeOf whole) :
    Json.fieldPart? key ((key, v) :: rest) smaller = some ⟨v, sizeOf_value_lt smaller⟩ := by
  rw [← Json.fieldPart?_eq_lookup key rest (sizeOf_tail_lt smaller),
    Option.map_eq_none_iff] at absent
  rw [Json.fieldPart?, absent]
  simp

@[simp]
lemma tagged?_encodeNode {key : String} (kind : String) {fields : List (String × Json)}
    {span : Span} (absent : Json.lookup key (fields ++ Place.fields span) = none) :
    Body.tagged? key (encodeNode key kind fields span) =
      some (.str kind, .named _ (Json.sizeOf_fields_lt _)) := by
  simp [Body.tagged?, encodeNode, Json.lookup, absent]

lemma placeField?_fields {span : Span} (readable : span.IsReadable)
    (smaller : sizeOf (Place.fields span) < sizeOf whole) :
    placeField? (Json.fieldPart? "loc" (Place.fields span) smaller) = some (Place.ofSpan span) := by
  have same := Json.fieldPart?_eq_lookup "loc" (Place.fields span) smaller
  obtain ⟨placed, absent⟩ | ⟨place, v, placed, found, decoded⟩ := Place.lookup_loc_fields readable
  · rw [absent, Option.map_eq_none_iff] at same
    rw [same, placed]
    rfl
  · rw [found] at same
    obtain ⟨⟨w, small⟩, part, rfl⟩ := Option.map_eq_some_iff.mp same
    rw [part, placed]
    cases w with
    | null => cases decoded
    | _ => simp [placeField?, optional, decoded, Except.toOption]

lemma wordOf?_single (name word : String) :
    wordOf? name (.obj [(name, .str word)]) = some word := by
  have found := fieldPart?_cons_self (.str word) (rfl : Json.lookup name [] = none)
    (Json.sizeOf_fields_lt [(name, .str word)])
  simp [wordOf?, Body.read?, Body.select?, found, stringField?, Json.str?]

lemma specifiers_listText {words : List Specifier} (fit : ∀ s ∈ words, shape.specifier s) :
    specifiers (Specifier.listText words) = words := by
  have plain : ∀ word ∈ words.map Specifier.word, Text.IsWord word :=
    List.forall_mem_map.mpr fun s member => (fit s member).2
  rw [specifiers, Specifier.listText, Text.words_intercalate plain, List.map_map]
  exact (List.map_congr_left fun s member => (fit s member).1).trans (List.map_id words)

section ExprNodes

variable {span : Span} (readable : span.IsReadable)

include readable

lemma ExprNode.read?_const (text : String) :
    ExprNode.read? (encodeNode "expressionType" "ConstExpression" [("value", .str text)] span) =
      some (.const text (Place.ofSpan span)) := by
  rw [ExprNode.read?]
  simp [kind?, exprKinds, Body.select?, constantText?, placeField?_fields readable]

lemma ExprNode.read?_var (name : String) :
    ExprNode.read? (encodeNode "expressionType" "VariableExpression"
      [("variable", encodeName name)] span) = some (.var name (Place.ofSpan span)) := by
  rw [ExprNode.read?]
  simp [kind?, exprKinds, Body.select?, encodeName, wordOf?_single, placeField?_fields readable]

variable {left right : Json} {l r : ExprNode} (left_read : ExprNode.read? left = some l)
  (right_read : ExprNode.read? right = some r)

include left_read

lemma ExprNode.read?_call {items : List Json} {nodes : List ExprNode}
    (items_read : ExprNode.readAll? items = some nodes) :
    ExprNode.read? (encodeNode "expressionType" "FunctionCallExpression"
      [("callee", left), ("arguments", .arr items)] span) =
        some (.call l nodes (Place.ofSpan span)) := by
  rw [ExprNode.read?]
  simp [kind?, exprKinds, Body.select?, Json.Part.items?, placeField?_fields readable, left_read,
    items_read]

include right_read

lemma ExprNode.read?_add :
    ExprNode.read? (encodeNode "expressionType" "AddExpression"
      [("left", left), ("right", right)] span) = some (.add l r (Place.ofSpan span)) := by
  rw [ExprNode.read?]
  simp [kind?, exprKinds, Body.select?, placeField?_fields readable, left_read, right_read]

lemma ExprNode.read?_binary (symbol : String) :
    ExprNode.read? (encodeNode "expressionType" "BinaryExpression"
      [("operator", .str symbol), ("left", left), ("right", right)] span) =
        some (.binary symbol l r (Place.ofSpan span)) := by
  rw [ExprNode.read?]
  simp [kind?, exprKinds, Body.select?, stringField?, Json.str?, placeField?_fields readable,
    left_read, right_read]

lemma ExprNode.read?_assign (symbol : String) :
    ExprNode.read? (encodeNode "expressionType" "AssignmentExpression"
      [("operator", .str symbol), ("left", left), ("right", right)] span) =
        some (.assign symbol l r (Place.ofSpan span)) := by
  rw [ExprNode.read?]
  simp [kind?, exprKinds, Body.select?, stringField?, Json.str?, placeField?_fields readable,
    left_read, right_read]

end ExprNodes

mutual

theorem readExpr_encodeExpr : ∀ (e : Expr), e.Fits shape →
    ∃ node, ExprNode.read? (encodeExpr e) = some node ∧ node.lower = .ok e
  | .const text span, fits => by
    rw [encodeExpr]
    refine ⟨_, ExprNode.read?_const fits text, ?_⟩
    rw [ExprNode.lower, Place.span_ofSpan fits]
    rfl
  | .ident name span, fits => by
    rw [encodeExpr]
    refine ⟨_, ExprNode.read?_var fits name, ?_⟩
    rw [ExprNode.lower, Place.span_ofSpan fits]
    rfl
  | .binary op left right span, ⟨_, left_fits, right_fits, fits⟩ => by
    obtain ⟨l, left_read, left_lower⟩ := readExpr_encodeExpr left left_fits
    obtain ⟨r, right_read, right_lower⟩ := readExpr_encodeExpr right right_fits
    by_cases addition : op = .add
    · subst addition
      rw [encodeExpr]
      refine ⟨_, ExprNode.read?_add fits left_read right_read, ?_⟩
      rw [ExprNode.lower, left_lower, right_lower, Place.span_ofSpan fits]
      rfl
    · rw [encodeExpr.eq_4 op left right span addition]
      refine ⟨_, ExprNode.read?_binary fits left_read right_read op.symbol, ?_⟩
      rw [ExprNode.lower, BinaryOp.ofSymbol?_symbol, left_lower, right_lower,
        Place.span_ofSpan fits]
      rfl
  | .assign op target value span, ⟨target_fits, value_fits, fits⟩ => by
    obtain ⟨l, target_read, target_lower⟩ := readExpr_encodeExpr target target_fits
    obtain ⟨r, value_read, value_lower⟩ := readExpr_encodeExpr value value_fits
    rw [encodeExpr]
    refine ⟨_, ExprNode.read?_assign fits target_read value_read op.symbol, ?_⟩
    rw [ExprNode.lower, AssignOp.ofSymbol?_symbol, target_lower, value_lower,
      Place.span_ofSpan fits]
    rfl
  | .call callee args span, ⟨callee_fits, args_fit, fits⟩ => by
    obtain ⟨c, callee_read, callee_lower⟩ := readExpr_encodeExpr callee callee_fits
    obtain ⟨nodes, args_read, args_lower⟩ := readExprs_encodeExprs args args_fit
    rw [encodeExpr]
    refine ⟨_, ExprNode.read?_call fits callee_read args_read, ?_⟩
    rw [ExprNode.lower, callee_lower, args_lower, Place.span_ofSpan fits]
    rfl

theorem readExprs_encodeExprs : ∀ (es : List Expr), Expr.AllFit shape es →
    ∃ nodes, ExprNode.readAll? (encodeExprs es) = some nodes ∧ ExprNode.lowerAll nodes = .ok es
  | [], _ => ⟨[], by rw [encodeExprs, ExprNode.readAll?], rfl⟩
  | e :: rest, ⟨first, others⟩ => by
    obtain ⟨node, read, lower⟩ := readExpr_encodeExpr e first
    obtain ⟨nodes, rest_read, rest_lower⟩ := readExprs_encodeExprs rest others
    refine ⟨node :: nodes, ?_, ?_⟩
    · rw [encodeExprs, ExprNode.readAll?, read, rest_read]
      rfl
    · rw [ExprNode.lowerAll, lower, rest_lower]
      rfl

end

lemma encodeExpr_ne_null (e : Expr) : encodeExpr e ≠ .null := by
  cases e with
  | binary op => cases op <;> simp [encodeExpr, encodeNode]
  | _ => simp [encodeExpr, encodeNode]

lemma optionalExpr?_of_ne_null {v : Json} (present : v ≠ .null)
    (small : sizeOf v < sizeOf whole) :
    optionalExpr? (some ⟨v, small⟩) = (ExprNode.read? v).map some := by
  cases v with
  | null => exact absurd rfl present
  | _ => rfl

/-- A field with an expression that may be missing is read as null or as its node. -/
lemma optionalExpr?_encodeOptional {value : Option Expr} (fit : ∀ e ∈ value, e.Fits shape) :
    ∃ node, (∀ (whole : Json) (small : sizeOf (encodeOptional value) < sizeOf whole),
        optionalExpr? (some ⟨encodeOptional value, small⟩) = some node) ∧
      Option.Rel (fun n e => ExprNode.lower n = .ok e) node value := by
  cases value with
  | none => exact ⟨none, fun _ _ => rfl, .none⟩
  | some e =>
    obtain ⟨node, read, lower⟩ := readExpr_encodeExpr e (fit e rfl)
    refine ⟨some node, fun whole small => ?_, .some lower⟩
    have found := optionalExpr?_of_ne_null (encodeExpr_ne_null e) small
    rw [read] at found
    exact found

lemma readVar_encodeDeclarator {d : Declarator} (fits : d.Fits shape) :
    ∃ node, VarNode.read? (encodeDeclarator d) = some node ∧ node.lower = .ok d := by
  obtain ⟨name, init, span⟩ := d
  obtain ⟨init_fits, span_fits⟩ := fits
  obtain ⟨init_node, init_read, init_lower⟩ := optionalExpr?_encodeOptional init_fits
  refine ⟨⟨name, init_node, Place.ofSpan span⟩, ?_, ?_⟩
  · simp [encodeDeclarator, VarNode.read?, Body.read?, Body.select?, encodeName, wordOf?_single,
      init_read, placeField?_fields span_fits]
  · cases init_lower with
    | none =>
      rw [VarNode.lower, Place.span_ofSpan span_fits]
      rfl
    | some lower =>
      simp only [VarNode.lower, lower, Place.span_ofSpan span_fits]
      rfl

lemma readVars_map {declarators : List Declarator} (fit : ∀ d ∈ declarators, d.Fits shape) :
    ∃ nodes, VarNode.readAll? (declarators.map encodeDeclarator) = some nodes ∧
      VarNode.lowerAll nodes = .ok declarators := by
  induction declarators with
  | nil => exact ⟨[], rfl, rfl⟩
  | cons d rest ih =>
    obtain ⟨node, read, lower⟩ := readVar_encodeDeclarator (fit d (.head _))
    obtain ⟨nodes, rest_read, rest_lower⟩ := ih fun x member => fit x (.tail _ member)
    refine ⟨node :: nodes, ?_, ?_⟩
    · rw [List.map_cons, VarNode.readAll?, read, rest_read]
      rfl
    · rw [VarNode.lowerAll, lower, rest_lower]
      rfl

section StmtNodes

variable {span : Span} (readable : span.IsReadable)

include readable

lemma StmtNode.read?_decl (type : String) {items : List Json} {nodes : List VarNode}
    (items_read : VarNode.readAll? items = some nodes) :
    StmtNode.read? (encodeNode "statementType" "DeclarationStatement"
      [("type", .obj [("category", .str type)]), ("variableDeclarations", .arr items)] span) =
        some (.decl type nodes (Place.ofSpan span)) := by
  rw [StmtNode.read?]
  simp [kind?, stmtKinds, Body.select?, wordOf?_single, Json.Part.items?, items_read,
    placeField?_fields readable]

lemma StmtNode.read?_expr {value : Json} {node : ExprNode}
    (value_read : ExprNode.read? value = some node) :
    StmtNode.read? (encodeNode "statementType" "ExpressionStatement" [("expression", value)] span) =
      some (.expr node (Place.ofSpan span)) := by
  rw [StmtNode.read?]
  simp [kind?, stmtKinds, Body.select?, value_read, placeField?_fields readable]

lemma StmtNode.read?_ret {value : Json} {node : Option ExprNode}
    (value_read : ∀ (whole : Json) (small : sizeOf value < sizeOf whole),
      optionalExpr? (some ⟨value, small⟩) = some node) :
    StmtNode.read? (encodeNode "statementType" "ReturnStatement" [("expression", value)] span) =
      some (.ret node (Place.ofSpan span)) := by
  rw [StmtNode.read?]
  simp [kind?, stmtKinds, Body.select?, value_read, placeField?_fields readable]

lemma StmtNode.read?_block {items : List Json} {nodes : List StmtNode}
    (items_read : StmtNode.readAll? items = some nodes) :
    StmtNode.read? (encodeNode "statementType" "BlockStatement"
      [("statements", .arr items)] span) = some (.block nodes (Place.ofSpan span)) := by
  rw [StmtNode.read?]
  simp [kind?, stmtKinds, Body.select?, Json.Part.items?, items_read, placeField?_fields readable]

end StmtNodes

lemma readDecl_encodeDecl {d : Decl} (fits : d.Fits shape) :
    ∃ type vars place, StmtNode.read? (encodeDecl d) = some (.decl type vars place) ∧
      lowerDecl type vars place = .ok d := by
  obtain ⟨words, declarators, span⟩ := d
  obtain ⟨words_fit, declarators_fit, span_fits⟩ := fits
  obtain ⟨nodes, nodes_read, nodes_lower⟩ := readVars_map declarators_fit
  refine ⟨Specifier.listText words, nodes, Place.ofSpan span, ?_, ?_⟩
  · exact StmtNode.read?_decl span_fits _ nodes_read
  · rw [lowerDecl, nodes_lower, specifiers_listText words_fit, Place.span_ofSpan span_fits]
    rfl

/-- A node that stands for a declaration. -/
def StmtNode.IsDecl : StmtNode → Prop
  | .decl _ _ _ => True
  | _ => False

lemma StmtNode.isDecl_iff {node : StmtNode} :
    node.IsDecl ↔ ∃ type vars place, node = .decl type vars place := by
  cases node <;> simp [StmtNode.IsDecl]

lemma StmtNode.lowerList_cons {node : StmtNode} (statement : ¬ node.IsDecl)
    (rest : List StmtNode) : StmtNode.lowerList (node :: rest) = (do
      let stmt ← node.lower
      let stmts ← StmtNode.lowerTail rest
      return ([], stmt :: stmts)) := by
  cases node with
  | decl => exact absurd trivial statement
  | _ => simp [StmtNode.lowerList]

lemma StmtNode.lowerTail_cons {node : StmtNode} (statement : ¬ node.IsDecl)
    (rest : List StmtNode) : StmtNode.lowerTail (node :: rest) = (do
      let stmt ← node.lower
      let stmts ← StmtNode.lowerTail rest
      return stmt :: stmts) := by
  cases node with
  | decl => exact absurd trivial statement
  | _ => simp [StmtNode.lowerTail]

/-- Statements are lowered alike at the start of a list and behind a statement. -/
lemma StmtNode.lowerList_of_lowerTail {nodes : List StmtNode} {stmts : List Stmt}
    (statements : ∀ node ∈ nodes, ¬ node.IsDecl) (lower : StmtNode.lowerTail nodes = .ok stmts) :
    StmtNode.lowerList nodes = .ok ([], stmts) := by
  cases nodes with
  | nil =>
    cases lower
    rfl
  | cons node rest =>
    have statement := statements node (.head _)
    rw [StmtNode.lowerTail_cons statement] at lower
    obtain ⟨stmt, stmt_lower, lower⟩ := except_bind_ok_iff.mp lower
    obtain ⟨others, others_lower, lower⟩ := except_bind_ok_iff.mp lower
    cases lower
    rw [StmtNode.lowerList_cons statement, stmt_lower, others_lower]
    rfl

/-- Declarations before statements become the declarations of the block. -/
lemma readAll_map_decls {decls : List Decl} (fit : ∀ d ∈ decls, d.Fits shape) {items : List Json}
    {nodes : List StmtNode} {stmts : List Stmt} (read : StmtNode.readAll? items = some nodes)
    (lower : StmtNode.lowerList nodes = .ok ([], stmts)) :
    ∃ all, StmtNode.readAll? (decls.map encodeDecl ++ items) = some all ∧
      StmtNode.lowerList all = .ok (decls, stmts) := by
  induction decls with
  | nil => exact ⟨nodes, read, lower⟩
  | cons d rest ih =>
    obtain ⟨type, vars, place, decl_read, decl_lower⟩ := readDecl_encodeDecl (fit d (.head _))
    obtain ⟨others, others_read, others_lower⟩ := ih fun x member => fit x (.tail _ member)
    refine ⟨.decl type vars place :: others, ?_, ?_⟩
    · rw [List.map_cons, List.cons_append, StmtNode.readAll?, decl_read, others_read]
      rfl
    · rw [StmtNode.lowerList, decl_lower, others_lower]
      rfl

mutual

theorem readStmt_encodeStmt : ∀ (s : Stmt), s.Fits shape →
    ∃ node, StmtNode.read? (encodeStmt s) = some node ∧ ¬ node.IsDecl ∧ node.lower = .ok s
  | .expr value span, ⟨value_fits, span_fits⟩ => by
    obtain ⟨node, read, lower⟩ := readExpr_encodeExpr value value_fits
    rw [encodeStmt]
    refine ⟨_, StmtNode.read?_expr span_fits read, id, ?_⟩
    rw [StmtNode.lower, lower, Place.span_ofSpan span_fits]
    rfl
  | .ret value span, ⟨value_fits, span_fits⟩ => by
    obtain ⟨node, read, lower⟩ := optionalExpr?_encodeOptional value_fits
    rw [encodeStmt]
    refine ⟨_, StmtNode.read?_ret span_fits read, id, ?_⟩
    cases lower with
    | none =>
      rw [StmtNode.lower, lowerReturn, Place.span_ofSpan span_fits]
      rfl
    | some lower =>
      simp only [StmtNode.lower, lowerReturn, lower, Place.span_ofSpan span_fits]
      rfl
  | .block ⟨decls, stmts, inner⟩ span, ⟨block_fits, same⟩ => by
    obtain ⟨nodes, read, lower⟩ := readBlock_encodeBlock ⟨decls, stmts, inner⟩ block_fits
    have same : inner = span := same
    subst same
    have span_fits := block_fits.2.2
    rw [encodeStmt]
    refine ⟨_, StmtNode.read?_block span_fits read, id, ?_⟩
    rw [StmtNode.lower, lower, Place.span_ofSpan span_fits]
    rfl

theorem readStmts_encodeStmts : ∀ (stmts : List Stmt), Stmt.AllFit shape stmts →
    ∃ nodes, StmtNode.readAll? (encodeStmts stmts) = some nodes ∧
      (∀ node ∈ nodes, ¬ node.IsDecl) ∧ StmtNode.lowerTail nodes = .ok stmts
  | [], _ => ⟨[], by rw [encodeStmts, StmtNode.readAll?], by simp, rfl⟩
  | s :: rest, ⟨first, others⟩ => by
    obtain ⟨node, read, statement, lower⟩ := readStmt_encodeStmt s first
    obtain ⟨nodes, rest_read, statements, rest_lower⟩ := readStmts_encodeStmts rest others
    refine ⟨node :: nodes, ?_, List.forall_mem_cons.mpr ⟨statement, statements⟩, ?_⟩
    · rw [encodeStmts, StmtNode.readAll?, read, rest_read]
      rfl
    · rw [StmtNode.lowerTail_cons statement, lower, rest_lower]
      rfl

theorem readBlock_encodeBlock : ∀ (block : Block), block.Fits shape →
    ∃ nodes, StmtNode.readAll? (encodeBlock block) = some nodes ∧
      StmtNode.lowerList nodes = .ok (block.decls, block.stmts)
  | ⟨decls, stmts, span⟩, ⟨decls_fit, stmts_fit, _⟩ => by
    obtain ⟨nodes, read, statements, lower⟩ := readStmts_encodeStmts stmts stmts_fit
    rw [encodeBlock]
    exact readAll_map_decls decls_fit read (StmtNode.lowerList_of_lowerTail statements lower)

end

lemma readParam_encodeParam {p : Param} (fits : p.Fits shape) :
    ∃ node, ParamNode.read? (encodeParam p) = some node ∧ node.lower = p := by
  obtain ⟨name, words, span⟩ := p
  obtain ⟨words_fit, span_fits⟩ := fits
  refine ⟨⟨name, Specifier.listText words, Place.ofSpan span⟩, ?_, ?_⟩
  · cases name with
    | none =>
      simp [encodeParam, ParamNode.read?, Body.read?, Body.select?, optional, encodeType,
        wordOf?_single, placeField?_fields span_fits]
    | some name =>
      simp [encodeParam, ParamNode.read?, Body.read?, Body.select?, optional, encodeType,
        wordOf?_single, placeField?_fields span_fits, Json.str?]
  · rw [ParamNode.lower, specifiers_listText words_fit, Place.span_ofSpan span_fits]

lemma readParams_map {params : List Param} (fit : ∀ p ∈ params, p.Fits shape) :
    ∃ nodes, ParamNode.readAll? (params.map encodeParam) = some nodes ∧
      nodes.map ParamNode.lower = params := by
  induction params with
  | nil => exact ⟨[], rfl, rfl⟩
  | cons p rest ih =>
    obtain ⟨node, read, lower⟩ := readParam_encodeParam (fit p (.head _))
    obtain ⟨nodes, rest_read, rest_lower⟩ := ih fun x member => fit x (.tail _ member)
    refine ⟨node :: nodes, ?_, ?_⟩
    · rw [List.map_cons, ParamNode.readAll?, read, rest_read]
      rfl
    · rw [List.map_cons, lower, rest_lower]

/-- The item that is read for an item: the body of a function stands where the function does. -/
def settle : Item → Item
  | .function f => .function { f with body := { f.body with span := f.span } }
  | .declaration d => .declaration d

lemma readFunction_encodeFunction {f : Function} (fits : f.Fits shape) :
    ∃ node, DeclNode.read? (encodeFunction f) = some node ∧
      node.lower = .ok (settle (.function f)) := by
  obtain ⟨name, result, params, body, span⟩ := f
  obtain ⟨result_fits, params_fit, body_fits, span_fits⟩ := fits
  obtain ⟨param_nodes, params_read, params_lower⟩ := readParams_map params_fit
  obtain ⟨nodes, body_read, body_lower⟩ := readBlock_encodeBlock body body_fits
  refine ⟨.function ⟨name, Specifier.listText result, param_nodes, nodes, Place.ofSpan span⟩,
    ?_, ?_⟩
  · rw [encodeFunction, DeclNode.read?, FunctionNode.read?]
    simp [kind?, declKinds, Body.select?, stringField?, Json.str?, encodeType, wordOf?_single,
      Json.Part.items?, params_read, body_read, placeField?_fields span_fits]
  · rw [DeclNode.lower, FunctionNode.lower, lowerBlock, body_lower,
      specifiers_listText result_fits, params_lower, Place.span_ofSpan span_fits]
    rfl

lemma readItems_filterMap {items : List Item} (fit : ∀ item ∈ items, item.Fits shape)
    (functions : ∀ item ∈ items, ∃ f, item = .function f) :
    ∃ nodes, DeclNode.readAll (items.filterMap encodeItem?) = .ok nodes ∧
      DeclNode.lowerAll nodes = .ok (items.map settle) := by
  induction items with
  | nil => exact ⟨[], rfl, rfl⟩
  | cons item rest ih =>
    obtain ⟨f, rfl⟩ := functions item (.head _)
    obtain ⟨node, read, lower⟩ := readFunction_encodeFunction (fit _ (.head _))
    obtain ⟨nodes, rest_read, rest_lower⟩ :=
      ih (fun x member => fit x (.tail _ member)) (fun x member => functions x (.tail _ member))
    refine ⟨node :: nodes, ?_, ?_⟩
    · rw [List.filterMap_cons_some (by rfl), DeclNode.readAll, read, rest_read]
      rfl
    · rw [DeclNode.lowerAll, lower, rest_lower]
      rfl

lemma readRootPlace_fields {span : Span} (readable : span.IsReadable) :
    (Json.lookup "loc" (Place.fields span)).mapM readRootPlace =
      .ok ((Place.ofSpan span).map some) := by
  obtain ⟨placed, absent⟩ | ⟨place, v, placed, found, decoded⟩ := Place.lookup_loc_fields readable
  · rw [absent, placed]
    rfl
  · have read : readRootPlace v = .ok (some place) := by
      cases v with
      | null => cases decoded
      | _ => simp [readRootPlace, decoded, bind, Except.bind, pure, Except.pure]
    rw [found, placed, option_mapM_some, read]
    rfl

/-- Reading the tree of a module without other declarations gives its functions back. -/
theorem readModule_encode {m : Module} (fits : m.Fits shape)
    (functions : ∀ item ∈ m.items, ∃ f, item = .function f) :
    readModule (encode m) = .ok ⟨m.items.map settle, m.span⟩ := by
  obtain ⟨nodes, read, lower⟩ := readItems_filterMap fits.1 functions
  have declarations : Json.lookup "declarations" (("declarations",
      .arr (m.items.filterMap encodeItem?)) :: Place.fields m.span) =
      some (.arr (m.items.filterMap encodeItem?)) := by
    simp [Json.lookup]
  have root : ModuleNode.read (encode m) = .ok ⟨nodes, Place.ofSpan m.span⟩ := by
    rw [encode, ModuleNode.read, ModuleNode.ofFields, declarations, option_mapM_some,
      DeclNode.readList, read, lookup_cons_of_ne (by decide), readRootPlace_fields fits.2]
    cases Place.ofSpan m.span <;> rfl
  rw [readModule, root]
  simp only [lower, Place.span_ofSpan fits.2]
  rfl

end MiniC.Declarative
