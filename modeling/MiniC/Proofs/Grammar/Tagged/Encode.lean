import MiniC.Grammar.Tagged
import MiniC.Proofs.Grammar.Fits

/-!
# Tagged trees of source trees

`Tagged.encode` writes a module as a tagged tree. Reading the tree gives the module back, apart from
the span of the root, which tagged trees do not have (`readModule_encode`).
-/

namespace MiniC.Tagged

open Source

/-! ## Writing -/

def encodeNode (tag : String) (params : List Json) (span : Span) : Json :=
  .obj (("type", .str tag) :: ("params", .arr params) :: Place.fields span)

def encodeIdentifier (name : String) : Json :=
  encodeNode "Identifier" [.str name] .unknown

def encodeSpecifiers (specifiers : List Specifier) : Json :=
  .arr (specifiers.map fun s => .str s.word)

mutual

/-- The node of an expression; the only binary operator is addition. -/
def encodeExpr : Expr → Json
  | .const text span => encodeNode "Const" [.str text] span
  | .ident name span => encodeNode "Var" [.str name] span
  | .binary _ left right span => encodeNode "Add" [encodeExpr left, encodeExpr right] span
  | .assign op target value span =>
    encodeNode "Assign" [encodeExpr target, .str op.symbol, encodeExpr value] span
  | .call callee args span =>
    encodeNode "FunctionCall" [encodeExpr callee, .arr (encodeExprs args)] span

def encodeExprs : List Expr → List Json
  | [] => []
  | e :: rest => encodeExpr e :: encodeExprs rest

end

def encodeOptional : Option Expr → Json
  | none => .null
  | some e => encodeExpr e

def encodeDeclarator (d : Declarator) : Json :=
  encodeNode "InitDeclarator" [encodeIdentifier d.name, encodeOptional d.init] d.span

def declParams (d : Decl) : List Json :=
  [encodeSpecifiers d.specifiers, .arr (d.declarators.map encodeDeclarator)]

def encodeDecl (d : Decl) : Json :=
  encodeNode "Declaration" (declParams d) d.span

mutual

def encodeStmt : Stmt → Json
  | .expr value span => encodeNode "ExpressionStatement" [encodeExpr value] span
  | .ret value span => encodeNode "Return" [encodeOptional value] span
  | .block body _ => encodeBlock body

def encodeStmts : List Stmt → List Json
  | [] => []
  | s :: rest => encodeStmt s :: encodeStmts rest

def encodeBlock : Block → Json
  | ⟨decls, stmts, span⟩ =>
    encodeNode "Block" [.arr (decls.map encodeDecl), .arr (encodeStmts stmts)] span

end

def encodeParam (p : Param) : Json :=
  match p.name with
  | some name => encodeNode "ParameterDeclaration"
      [encodeSpecifiers p.specifiers, encodeIdentifier name] p.span
  | none => encodeNode "TypeOnlyParameterDeclaration" [encodeSpecifiers p.specifiers] p.span

def functionParams (f : Function) : List Json :=
  [encodeSpecifiers f.result,
    encodeNode "FunctionDeclarator" [encodeIdentifier f.name, .arr (f.params.map encodeParam)]
      .unknown,
    .arr [], encodeBlock f.body]

def encodeFunction (f : Function) : Json :=
  encodeNode "FunctionDefinition" (functionParams f) f.span

def encodeItem : Item → Json
  | .function f => encodeFunction f
  | .declaration d => encodeDecl d

/-- The tree of a module. -/
def encode (m : Module) : Json :=
  .arr (m.items.map encodeItem)

/-! ## Reading what was written -/

/-- What a tagged tree can express and its reader gives. -/
def shape : Shape where
  span := Span.IsReadable
  block inner outer := inner = outer
  operator op := op = .add
  specifier := Specifier.IsRead

lemma spanOf_obj_cons {key : String} (v : Json) {fields : List (String × Json)}
    (other : key ≠ "loc") : spanOf (.obj ((key, v) :: fields)) = spanOf (.obj fields) := by
  simp only [spanOf, Json.get?, Json.lookup]
  cases Json.lookup "loc" fields <;> simp [other]

lemma spanOf_fields {span : Span} (readable : span.IsReadable) :
    spanOf (.obj (Place.fields span)) = span := by
  have written := Place.span_ofSpan readable
  obtain ⟨placed, absent⟩ | ⟨place, v, placed, found, decoded⟩ := Place.lookup_loc_fields readable
  · simpa [spanOf, Json.get?, absent, placed] using written
  · simpa [spanOf, Json.get?, found, decoded, Except.toOption, placed] using written

lemma Node.read_encodeNode (tag : String) (params : List Json) {span : Span}
    (readable : span.IsReadable) : ∃ smaller,
    Node.read (encodeNode tag params span) = .ok ⟨tag, params, span, smaller⟩ := by
  have type : Json.lookup "type" (("type", .str tag) :: ("params", .arr params) ::
      Place.fields span) = some (.str tag) := by
    simp [Json.lookup, Place.lookup_fields_of_ne]
  have children := Json.fieldPart?_eq_lookup "params" (("type", .str tag) ::
    ("params", .arr params) :: Place.fields span) (Json.sizeOf_fields_lt _)
  rw [Json.lookup, Json.lookup, Place.lookup_fields_of_ne span (by decide)] at children
  obtain ⟨⟨_, smaller⟩, found, rfl⟩ := Option.map_eq_some_iff.mp children
  refine ⟨Nat.lt_trans (Json.sizeOf_items_lt params) smaller, ?_⟩
  have place : spanOf (.obj (("type", .str tag) :: ("params", .arr params) ::
      Place.fields span)) = span := by
    rw [spanOf_obj_cons _ (by decide), spanOf_obj_cons _ (by decide), spanOf_fields readable]
  simp only [encodeNode, Node.read, type, found, place]

mutual

theorem readExpr_encodeExpr : ∀ (e : Expr), e.Fits shape → readExpr (encodeExpr e) = .ok e
  | .const text span, fits => by
    obtain ⟨_, read⟩ := Node.read_encodeNode "Const" [.str text] fits
    rw [encodeExpr, readExpr, read]
    rfl
  | .ident name span, fits => by
    obtain ⟨_, read⟩ := Node.read_encodeNode "Var" [.str name] fits
    rw [encodeExpr, readExpr, read]
    rfl
  | .binary op left right span, ⟨op_eq, left_fits, right_fits, fits⟩ => by
    obtain ⟨_, read⟩ := Node.read_encodeNode "Add" [encodeExpr left, encodeExpr right] fits
    have left_read := readExpr_encodeExpr left left_fits
    have right_read := readExpr_encodeExpr right right_fits
    have op_eq : op = .add := op_eq
    rw [encodeExpr, readExpr, read]
    simp [bind, Except.bind, Node.param, Node.param?, Json.itemPart?, left_read, right_read, op_eq,
      pure, Except.pure]
  | .assign op target value span, ⟨target_fits, value_fits, fits⟩ => by
    obtain ⟨_, read⟩ := Node.read_encodeNode "Assign"
      [encodeExpr target, .str op.symbol, encodeExpr value] fits
    have target_read := readExpr_encodeExpr target target_fits
    have value_read := readExpr_encodeExpr value value_fits
    rw [encodeExpr, readExpr, read]
    simp [bind, Except.bind, Node.string, Node.param, Node.param?, Json.itemPart?,
      AssignOp.ofSymbol?_symbol, target_read, value_read, pure, Except.pure]
  | .call callee args span, ⟨callee_fits, args_fit, fits⟩ => by
    obtain ⟨_, read⟩ := Node.read_encodeNode "FunctionCall"
      [encodeExpr callee, .arr (encodeExprs args)] fits
    have callee_read := readExpr_encodeExpr callee callee_fits
    have args_read := readExprs_encodeExprs args args_fit
    rw [encodeExpr, readExpr, read]
    simp [bind, Except.bind, Node.list, Node.param, Node.param?, Json.itemPart?, Json.Part.items?,
      callee_read, args_read, pure, Except.pure]

theorem readExprs_encodeExprs : ∀ (es : List Expr), Expr.AllFit shape es →
    readExprs (encodeExprs es) = .ok es
  | [], _ => by rw [encodeExprs, readExprs]; rfl
  | e :: rest, ⟨first, others⟩ => by
    rw [encodeExprs, readExprs, readExpr_encodeExpr e first, readExprs_encodeExprs rest others]
    rfl

end

lemma Node.expect_encodeNode (tag : String) (params : List Json) {span : Span}
    (readable : span.IsReadable) : ∃ smaller,
    Node.expect (encodeNode tag params span) tag = .ok ⟨tag, params, span, smaller⟩ := by
  obtain ⟨smaller, read⟩ := Node.read_encodeNode tag params readable
  refine ⟨smaller, ?_⟩
  rw [Node.expect, read]
  exact if_pos rfl

lemma readIdentifier_encodeIdentifier (name : String) :
    readIdentifier (encodeIdentifier name) = .ok name := by
  obtain ⟨_, read⟩ := Node.expect_encodeNode "Identifier" [.str name] Span.isReadable_unknown
  rw [readIdentifier, encodeIdentifier, read]
  rfl

lemma readSpecifierList_map {specifiers : List Specifier} (fit : ∀ s ∈ specifiers, s.IsRead) :
    readSpecifierList (specifiers.map fun s => .str s.word) = .ok specifiers := by
  rw [eq_mapM readSpecifierList readSpecifier rfl fun _ _ => rfl]
  refine mapM_map_pure fun s member => ?_
  rw [readSpecifier, fit s member]
  rfl

lemma readSpecifiers_mk {whole : Json} {tag : String} {rest : List Json} {span : Span}
    {specifiers : List Specifier} (fit : ∀ s ∈ specifiers, s.IsRead)
    (smaller : sizeOf (encodeSpecifiers specifiers :: rest) < sizeOf whole) :
    readSpecifiers ⟨tag, encodeSpecifiers specifiers :: rest, span, smaller⟩ = .ok specifiers := by
  exact readSpecifierList_map fit

/-- An expression that may be missing is read as missing or as its node. -/
lemma Node.optional_encodeOptional {whole : Json} {node : Node whole} {i : Nat}
    {value : Option Expr} (found : node.params[i]? = some (encodeOptional value)) :
    (node.optional i).map (·.1) = value.map encodeExpr := by
  rw [← Json.itemPart?_eq_getElem? node.params node.smaller] at found
  obtain ⟨⟨v, smaller⟩, part, rfl⟩ := Option.map_eq_some_iff.mp found
  have part : node.param? i = some ⟨encodeOptional value, smaller⟩ := part
  rw [Node.optional, part]
  cases value with
  | none => rfl
  | some e => cases e <;> rfl

lemma readDeclarator_encodeDeclarator {d : Declarator} (fits : d.Fits shape) :
    readDeclarator (encodeDeclarator d) = .ok d := by
  obtain ⟨name, init, span⟩ := d
  obtain ⟨init_fits, span_fits⟩ := fits
  obtain ⟨smaller, read⟩ := Node.expect_encodeNode "InitDeclarator"
    [encodeIdentifier name, encodeOptional init] span_fits
  have found : (Node.optional ⟨"InitDeclarator", _, span, smaller⟩ 1).map (·.1) =
      init.map encodeExpr := Node.optional_encodeOptional rfl
  rw [readDeclarator, encodeDeclarator, read]
  simp only [bind, Except.bind, Node.param, Node.param?, Json.itemPart?,
    readIdentifier_encodeIdentifier]
  cases init with
  | none => rw [Option.map_eq_none_iff.mp found]; rfl
  | some e =>
    obtain ⟨part, part_found, part_eq⟩ := Option.map_eq_some_iff.mp found
    rw [part_found]
    simp only [part_eq, readExpr_encodeExpr e (init_fits e rfl)]
    rfl

lemma readDecl_mk {whole : Json} {tag : String} {d : Decl} (fits : d.Fits shape)
    (smaller : sizeOf (declParams d) < sizeOf whole) :
    readDecl ⟨tag, declParams d, d.span, smaller⟩ = .ok d := by
  have declarators_read : readDeclarators (d.declarators.map encodeDeclarator) =
      .ok d.declarators := by
    rw [eq_mapM readDeclarators readDeclarator rfl fun _ _ => rfl]
    exact mapM_map_pure fun x member => readDeclarator_encodeDeclarator (fits.2.1 x member)
  rw [readDecl]
  unfold declParams at smaller ⊢
  rw [readSpecifiers_mk fits.1]
  simp only [bind, Except.bind, Node.list, Node.param, Node.param?, Json.itemPart?,
    Json.Part.items?, pure, Except.pure, declarators_read]

lemma readDecls_eq_mapM (items : List Json) : readDecls items =
    items.mapM (fun v => Node.expect v "Declaration" >>= readDecl) :=
  eq_mapM readDecls _ rfl (fun _ _ => by simp [readDecls]) items

lemma readDecls_map {decls : List Decl} (fit : ∀ d ∈ decls, d.Fits shape) :
    readDecls (decls.map encodeDecl) = .ok decls := by
  rw [readDecls_eq_mapM]
  refine mapM_map_pure fun d member => ?_
  obtain ⟨_, read⟩ := Node.expect_encodeNode "Declaration" (declParams d) (fit d member).2.2
  rw [encodeDecl, read]
  exact readDecl_mk (fit d member) _

mutual

theorem readStmt_encodeStmt : ∀ (s : Stmt), s.Fits shape → readStmt (encodeStmt s) = .ok s
  | .expr value span, ⟨value_fits, span_fits⟩ => by
    obtain ⟨_, read⟩ := Node.read_encodeNode "ExpressionStatement" [encodeExpr value] span_fits
    rw [encodeStmt, readStmt, read]
    simp [bind, Except.bind, Node.param, Node.param?, Json.itemPart?, pure, Except.pure,
      readExpr_encodeExpr value value_fits]
  | .ret value span, ⟨value_fits, span_fits⟩ => by
    obtain ⟨smaller, read⟩ := Node.read_encodeNode "Return" [encodeOptional value] span_fits
    have found : (Node.optional ⟨"Return", _, span, smaller⟩ 0).map (·.1) =
      value.map encodeExpr := Node.optional_encodeOptional rfl
    rw [encodeStmt, readStmt, read]
    cases value with
    | none => simp [bind, Except.bind, Option.map_eq_none_iff.mp found, pure, Except.pure]
    | some e =>
      obtain ⟨part, part_found, part_eq⟩ := Option.map_eq_some_iff.mp found
      simp [bind, Except.bind, part_found, part_eq, readExpr_encodeExpr e (value_fits e rfl),
        pure, Except.pure]
  | .block ⟨decls, stmts, span⟩ outer, ⟨⟨decls_fit, stmts_fit, span_fits⟩, same⟩ => by
    obtain ⟨_, read⟩ := Node.read_encodeNode "Block"
      [.arr (decls.map encodeDecl), .arr (encodeStmts stmts)] span_fits
    have same : span = outer := same
    rw [encodeStmt, encodeBlock, readStmt, read]
    simp [bind, Except.bind, Node.list, Node.param, Node.param?, Json.itemPart?, Json.Part.items?,
      pure, Except.pure, readDecls_map decls_fit, readStmts_encodeStmts stmts stmts_fit, same]

theorem readStmts_encodeStmts : ∀ (stmts : List Stmt), Stmt.AllFit shape stmts →
    readStmts (encodeStmts stmts) = .ok stmts
  | [], _ => by rw [encodeStmts, readStmts]; rfl
  | s :: rest, ⟨first, others⟩ => by
    rw [encodeStmts, readStmts, readStmt_encodeStmt s first, readStmts_encodeStmts rest others]
    rfl

end

lemma readBlock_encodeBlock {block : Block} (fits : block.Fits shape) :
    readBlock (encodeBlock block) = .ok block := by
  obtain ⟨decls, stmts, span⟩ := block
  obtain ⟨decls_fit, stmts_fit, span_fits⟩ := fits
  obtain ⟨_, read⟩ := Node.expect_encodeNode "Block"
    [.arr (decls.map encodeDecl), .arr (encodeStmts stmts)] span_fits
  rw [encodeBlock, readBlock, read]
  simp only [bind, Except.bind, Node.list, Node.param, Node.param?, Json.itemPart?,
    Json.Part.items?, pure, Except.pure, readDecls_map decls_fit,
    readStmts_encodeStmts stmts stmts_fit]

lemma readParam_encodeParam {p : Param} (fits : p.Fits shape) :
    readParam (encodeParam p) = .ok p := by
  obtain ⟨name, specifiers, span⟩ := p
  obtain ⟨specifiers_fit, span_fits⟩ := fits
  cases name with
  | none =>
    obtain ⟨_, read⟩ := Node.read_encodeNode "TypeOnlyParameterDeclaration"
      [encodeSpecifiers specifiers] span_fits
    simp only [encodeParam]
    rw [readParam, read]
    simp [bind, Except.bind, readSpecifiers_mk specifiers_fit, pure, Except.pure]
  | some name =>
    obtain ⟨_, read⟩ := Node.read_encodeNode "ParameterDeclaration"
      [encodeSpecifiers specifiers, encodeIdentifier name] span_fits
    simp only [encodeParam]
    rw [readParam, read]
    simp [bind, Except.bind, Node.param, Node.param?, Json.itemPart?,
      readIdentifier_encodeIdentifier, readSpecifiers_mk specifiers_fit, pure, Except.pure]

lemma readFunction_mk {whole : Json} {tag : String} {f : Function} (fits : f.Fits shape)
    (smaller : sizeOf (functionParams f) < sizeOf whole) :
    readFunction ⟨tag, functionParams f, f.span, smaller⟩ = .ok f := by
  obtain ⟨result_fits, params_fit, body_fits, _⟩ := fits
  obtain ⟨_, declarator_read⟩ := Node.expect_encodeNode "FunctionDeclarator"
    [encodeIdentifier f.name, .arr (f.params.map encodeParam)] Span.isReadable_unknown
  have params_read : readParams (f.params.map encodeParam) = .ok f.params := by
    rw [eq_mapM readParams readParam rfl fun _ _ => rfl]
    exact mapM_map_pure fun p member => readParam_encodeParam (params_fit p member)
  rw [readFunction]
  unfold functionParams at smaller ⊢
  rw [readSpecifiers_mk result_fits]
  simp [bind, Except.bind, Node.list, Node.param, Node.param?, Json.itemPart?,
    Json.Part.items?, pure, Except.pure, declarator_read, readIdentifier_encodeIdentifier,
    params_read, readBlock_encodeBlock body_fits]

lemma readItem_encodeItem {item : Item} (fits : item.Fits shape) :
    readItem (encodeItem item) = .ok item := by
  cases item with
  | function f =>
    obtain ⟨_, read⟩ := Node.read_encodeNode "FunctionDefinition" (functionParams f) fits.2.2.2
    rw [encodeItem, encodeFunction, readItem, read]
    simp [bind, Except.bind, readFunction_mk fits, pure, Except.pure]
  | declaration d =>
    obtain ⟨_, read⟩ := Node.read_encodeNode "Declaration" (declParams d) fits.2.2
    rw [encodeItem, encodeDecl, readItem, read]
    simp [bind, Except.bind, readDecl_mk fits, pure, Except.pure]

/-- Reading the tree of a module gives its items back. -/
theorem readModule_encode {m : Module} (fits : m.Fits shape) :
    readModule (encode m) = .ok { m with span := .unknown } := by
  have items_read : readItems (m.items.map encodeItem) = .ok m.items := by
    rw [eq_mapM readItems readItem rfl fun _ _ => rfl]
    exact mapM_map_pure fun item member => readItem_encodeItem (fits.1 item member)
  rw [encode, readModule, items_read]
  rfl

end MiniC.Tagged
