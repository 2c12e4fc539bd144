import MiniC.Proofs.Grammar.Positions
import MiniC.Proofs.Grammar.Tagged.Accepted

/-!
# Children of tagged nodes

Changing what lies below a child of a node changes this child and nothing else of the node
(`child_of_follows`). What a reader gives depends on the children that it takes alone: there is one
equation for each kind of node that has nodes below it.
-/

namespace MiniC

def Json.items? : Json → Option (List Json)
  | .arr items => some items
  | _ => none

namespace Tagged

open Source

/-! ## Nodes and their children -/

/-- A value that is read as a node. -/
def IsNode (v : Json) (tag : String) (params : List Json) (span : Span) : Prop :=
  ∃ smaller, Node.read v = .ok ⟨tag, params, span, smaller⟩

variable {v w : Json} {tag : String} {params : List Json} {span : Span}

/-- A declaration on its own. -/
def readDeclaration (v : Json) : Except Fault Decl := do
  readDecl (← Node.expect v "Declaration")

lemma get?_type_of_isNode (node : IsNode v tag params span) :
    v.get? "type" = some (.str tag) := by
  obtain ⟨_, read⟩ := node
  unfold Node.read at read
  split at read
  · split at read
    · next type =>
      split at read <;> cases read
      · exact type
      · exact type
    · cases read
  · cases read

lemma IsNode.expect (node : IsNode v tag params span) :
    ∃ smaller, Node.expect v tag = .ok ⟨tag, params, span, smaller⟩ := by
  obtain ⟨smaller, read⟩ := node
  refine ⟨smaller, ?_⟩
  rw [Node.expect, read]
  exact if_pos rfl

lemma Node.expect_ok {node : Node v} (h : Node.expect v tag = .ok node) :
    IsNode v tag node.params node.span := by
  obtain ⟨found, read, h⟩ := except_bind_ok_iff.mp h
  split at h
  · next same =>
    cases h
    subst same
    exact ⟨_, read⟩
  · cases h

lemma isNode_obj {fields : List (String × Json)}
    (type : Json.lookup "type" fields = some (.str tag))
    (children : Json.lookup "params" fields = some (.arr params)) :
    IsNode (.obj fields) tag params (spanOf (.obj fields)) := by
  rw [← Json.fieldPart?_eq_lookup "params" fields (Json.sizeOf_fields_lt _)] at children
  obtain ⟨⟨_, smaller⟩, found, rfl⟩ := Option.map_eq_some_iff.mp children
  refine ⟨Nat.lt_trans (Json.sizeOf_items_lt params) smaller, ?_⟩
  simp only [Node.read, type, found]

/-- A way that begins at a child of a node. Changing what lies at its end changes this child and
nothing else of the node. -/
lemma child_of_follows {i : Nat} {legs : List Leg} {path : Json.Path}
    (type : v.get? "type" = some (.str tag)) (along : Follows (param i legs) v path w) :
    ∃ (params : List Json) (params' : (Json → Json) → List Json) (span : Span) (x : Json)
        (rest : Json.Path), IsNode v tag params span ∧
      (∀ f, IsNode (v.updateAt path f) tag (params' f) span) ∧ params[i]? = some x ∧
      (∀ f, (params' f)[i]? = some (x.updateAt rest f)) ∧
      (∀ f k, k ≠ i → (params' f)[k]? = params[k]?) ∧ Follows legs x rest w := by
  cases along with
  | @field _ fields _ _ _ _ children onward =>
    cases onward with
    | @item _ items x _ _ rest found onward =>
      refine ⟨items, fun f => items.modify i (Json.updateAt rest f), _, x, rest,
        isNode_obj type children, fun f => ?_, found, fun f => ?_, fun f k other => ?_, onward⟩
      · let change := Json.update (.item i) (Json.updateAt rest f)
        have type' : Json.lookup "type" (Json.updateField "params" change fields) =
            some (.str tag) := by
          rw [Json.lookup_updateField_of_ne (by decide)]
          exact type
        have children' : Json.lookup "params" (Json.updateField "params" change fields) =
            some (.arr (items.modify i (Json.updateAt rest f))) := by
          rw [Json.lookup_updateField_self, children]
          rfl
        have span' : spanOf (.obj (Json.updateField "params" change fields)) =
            spanOf (.obj fields) := by
          rw [spanOf, Json.get?, Json.lookup_updateField_of_ne (by decide)]
          rfl
        exact span' ▸ isNode_obj type' children'
      · rw [List.getElem?_modify_eq, found]
        rfl
      · simp [other.symm]

/-- A way to a child. -/
lemma child_at {i : Nat} {path : Json.Path} (type : v.get? "type" = some (.str tag))
    (along : Follows (param i []) v path w) :
    ∃ (params : List Json) (params' : (Json → Json) → List Json) (span : Span),
      IsNode v tag params span ∧
      (∀ f, IsNode (v.updateAt path f) tag (params' f) span) ∧ params[i]? = some w ∧
      (∀ f, (params' f)[i]? = some (f w)) ∧ ∀ f k, k ≠ i → (params' f)[k]? = params[k]? := by
  obtain ⟨params, params', span, _, _, node, node', found, found', others, ⟨⟩⟩ :=
    child_of_follows type along
  exact ⟨params, params', span, node, node', found, found', others⟩

/-- A way to an item of a list of children. -/
lemma item_at {i : Nat} {path : Json.Path} (type : v.get? "type" = some (.str tag))
    (along : Follows (param i [.each]) v path w) :
    ∃ (params : List Json) (params' : (Json → Json) → List Json) (span : Span) (items : List Json)
        (j : Nat), IsNode v tag params span ∧
      (∀ f, IsNode (v.updateAt path f) tag (params' f) span) ∧ params[i]? = some (.arr items) ∧
      (∀ f, (params' f)[i]? = some (.arr (items.modify j f))) ∧
      (∀ f k, k ≠ i → (params' f)[k]? = params[k]?) ∧ items[j]? = some w := by
  obtain ⟨params, params', span, _, _, node, node', found, found', others, onward⟩ :=
    child_of_follows type along
  obtain ⟨⟩ | ⟨⟩ | ⟨⟩ | ⟨item, ⟨⟩⟩ := onward
  exact ⟨params, params', span, _, _, node, node', found, found', others, item⟩

/-! ## Children without their sizes

Readers take a child together with the fact that it is smaller than the node. What they give depends
on the child alone. -/

/-- What is read from a child of a node, which must be there and have the right form. -/
def child {α : Type} (tag : String) (params : List Json) (span : Span) (i : Nat)
    (form : Json → Option α) : Except Fault α :=
  match params[i]?.bind form with
  | some a => .ok a
  | none => .error (malformedTag tag span)

/-- What is read from a child that may be left out or null. -/
def optionalChild {α : Type} (params : List Json) (i : Nat) (read : Json → Except Fault α) :
    Except Fault (Option α) :=
  match params[i]? with
  | none | some .null => return none
  | some w => some <$> read w

section Children

variable {whole : Json} (node : Node whole) (i : Nat)

lemma Node.param_eq_child :
    (·.1) <$> node.param i = child node.tag node.params node.span i some := by
  rw [child, ← Json.itemPart?_eq_getElem? node.params node.smaller, Node.param, Node.param?]
  cases Json.itemPart? node.params node.smaller i <;> rfl

lemma Node.list_eq_child :
    (·.1) <$> node.list i = child node.tag node.params node.span i Json.items? := by
  rw [child, ← Json.itemPart?_eq_getElem? node.params node.smaller, Node.list, Node.param,
    Node.param?]
  cases Json.itemPart? node.params node.smaller i with
  | none => rfl
  | some part =>
    obtain ⟨v, smaller⟩ := part
    cases v <;> rfl

lemma Node.string_eq_child :
    node.string i = child node.tag node.params node.span i Json.str? := by
  rw [child, ← Json.itemPart?_eq_getElem? node.params node.smaller, Node.string, Node.param,
    Node.param?]
  cases Json.itemPart? node.params node.smaller i with
  | none => rfl
  | some part =>
    obtain ⟨v, smaller⟩ := part
    cases v <;> rfl

lemma Node.optional_eq_child {α : Type} (read : Json → Except Fault α) :
    (match node.optional i with
      | none => return none
      | some part => some <$> read part.1) = optionalChild node.params i read := by
  rw [optionalChild, ← Json.itemPart?_eq_getElem? node.params node.smaller, Node.optional,
    Node.param?]
  cases Json.itemPart? node.params node.smaller i with
  | none => rfl
  | some part =>
    obtain ⟨v, smaller⟩ := part
    cases v <;> rfl

end Children

section Found

variable {i : Nat}

lemma child_some (found : params[i]? = some w) (tag : String) (span : Span) :
    child tag params span i some = pure w := by
  rw [child, found]
  rfl

lemma child_items {items : List Json} (found : params[i]? = some (.arr items)) (tag : String)
    (span : Span) : child tag params span i Json.items? = pure items := by
  rw [child, found]
  rfl

lemma child_congr {params' : List Json} (same : params'[i]? = params[i]?) (α : Type) (tag : String)
    (span : Span) (form : Json → Option α) :
    child tag params' span i form = child tag params span i form := by
  rw [child, child, same]

end Found

/-! ## What each reader takes from its children -/

section Readers

lemma readExprs_eq_mapM (items : List Json) : readExprs items = items.mapM readExpr :=
  eq_mapM readExprs readExpr (by rw [readExprs]) (fun _ _ => by rw [readExprs]) items

lemma readStmts_eq_mapM (items : List Json) : readStmts items = items.mapM readStmt :=
  eq_mapM readStmts readStmt (by rw [readStmts]) (fun _ _ => by rw [readStmts]) items

lemma readExpr_add (node : IsNode v "Add" params span) : readExpr v = (do
      let left ← readExpr (← child "Add" params span 0 some)
      let right ← readExpr (← child "Add" params span 1 some)
      return .binary .add left right span) := by
  obtain ⟨_, read⟩ := node
  rw [readExpr, read, ← Node.param_eq_child ⟨_, _, _, _⟩, ← Node.param_eq_child ⟨_, _, _, _⟩]
  simp only [bind_map_left]
  rfl

lemma readExpr_assign (node : IsNode v "Assign" params span) : readExpr v = (do
      let symbol ← child "Assign" params span 1 Json.str?
      let op ← operator "assignment" symbol (AssignOp.ofSymbol? symbol) span
      let target ← readExpr (← child "Assign" params span 0 some)
      let value ← readExpr (← child "Assign" params span 2 some)
      return .assign op target value span) := by
  obtain ⟨smaller, read⟩ := node
  rw [readExpr, read, ← Node.param_eq_child ⟨_, _, _, smaller⟩,
    ← Node.param_eq_child ⟨_, _, _, smaller⟩, ← Node.string_eq_child ⟨_, _, _, smaller⟩]
  simp only [bind_map_left]
  change (Node.string ⟨"Assign", params, span, smaller⟩ 1 >>= _) = _
  refine bind_congr fun symbol => ?_
  unfold operator
  cases AssignOp.ofSymbol? symbol <;> rfl

lemma readExpr_call (node : IsNode v "FunctionCall" params span) : readExpr v = (do
      let callee ← readExpr (← child "FunctionCall" params span 0 some)
      let args ← (← child "FunctionCall" params span 1 Json.items?).mapM readExpr
      return .call callee args span) := by
  obtain ⟨_, read⟩ := node
  rw [readExpr, read, ← Node.param_eq_child ⟨_, _, _, _⟩, ← Node.list_eq_child ⟨_, _, _, _⟩]
  simp only [bind_map_left, ← readExprs_eq_mapM]
  rfl

lemma readStmt_expr (node : IsNode v "ExpressionStatement" params span) : readStmt v = (do
      let value ← readExpr (← child "ExpressionStatement" params span 0 some)
      return .expr value span) := by
  obtain ⟨_, read⟩ := node
  rw [readStmt, read, ← Node.param_eq_child ⟨_, _, _, _⟩]
  simp only [bind_map_left]
  rfl

lemma readStmt_ret (node : IsNode v "Return" params span) : readStmt v = (do
      let value ← optionalChild params 0 readExpr
      return .ret value span) := by
  obtain ⟨smaller, read⟩ := node
  rw [readStmt, read, ← Node.optional_eq_child ⟨"Return", params, span, smaller⟩]
  change (match Node.optional ⟨"Return", params, span, smaller⟩ 0 with
    | none => _
    | some value => _) = _
  cases Node.optional ⟨"Return", params, span, smaller⟩ 0 with
  | none => rfl
  | some part => simp only [bind_map_left]

/-- The parts of a block. -/
def readParts (params : List Json) (span : Span) : Except Fault Block := do
  let decls ← (← child "Block" params span 0 Json.items?).mapM readDeclaration
  let stmts ← (← child "Block" params span 1 Json.items?).mapM readStmt
  return ⟨decls, stmts, span⟩

lemma readDecls_eq_mapM_readDeclaration (items : List Json) :
    readDecls items = items.mapM readDeclaration :=
  readDecls_eq_mapM items

lemma readStmt_block (node : IsNode v "Block" params span) :
    readStmt v = (fun block => .block block span) <$> readParts params span := by
  obtain ⟨_, read⟩ := node
  rw [readStmt, read, readParts, ← Node.list_eq_child ⟨_, _, _, _⟩,
    ← Node.list_eq_child ⟨_, _, _, _⟩]
  simp only [bind_map_left, map_bind, map_pure, ← readDecls_eq_mapM_readDeclaration,
    ← readStmts_eq_mapM]
  rfl

lemma readBlock_parts (node : IsNode v "Block" params span) :
    readBlock v = readParts params span := by
  obtain ⟨_, read⟩ := node.expect
  rw [readBlock, read, readParts, ← Node.list_eq_child ⟨_, _, _, _⟩,
    ← Node.list_eq_child ⟨_, _, _, _⟩]
  simp only [bind_map_left, ← readDecls_eq_mapM_readDeclaration,
    ← readStmts_eq_mapM]
  rfl

lemma readSpecifiers_eq_child {whole : Json} (node : Node whole) : readSpecifiers node =
    child node.tag node.params node.span 0 Json.items? >>= readSpecifierList := by
  rw [readSpecifiers, child, ← Json.itemPart?_eq_getElem? node.params node.smaller, Node.param,
    Node.param?]
  cases Json.itemPart? node.params node.smaller 0 with
  | none => rfl
  | some part =>
    obtain ⟨v, smaller⟩ := part
    cases v <;> rfl

lemma readDeclarator_init (node : IsNode v "InitDeclarator" params span) : readDeclarator v = (do
      let name ← readIdentifier (← child "InitDeclarator" params span 0 some)
      let init ← optionalChild params 1 readExpr
      return ⟨name, init, span⟩) := by
  obtain ⟨smaller, read⟩ := node.expect
  rw [readDeclarator, read, ← Node.param_eq_child ⟨_, _, _, smaller⟩,
    ← Node.optional_eq_child ⟨"InitDeclarator", params, span, smaller⟩]
  simp only [bind_map_left]
  change (Node.param ⟨"InitDeclarator", params, span, smaller⟩ 0 >>= _) = _
  refine bind_congr fun part => bind_congr fun name => ?_
  change (match Node.optional ⟨"InitDeclarator", params, span, smaller⟩ 1 with
    | none => _
    | some value => _) = _
  cases Node.optional ⟨"InitDeclarator", params, span, smaller⟩ 1 with
  | none => rfl
  | some part => simp only [bind_map_left]

lemma readDeclaration_parts (node : IsNode v "Declaration" params span) :
    readDeclaration v = (do
      let specifiers ← child "Declaration" params span 0 Json.items? >>= readSpecifierList
      let declarators ← (← child "Declaration" params span 1 Json.items?).mapM readDeclarator
      return ⟨specifiers, declarators, span⟩) := by
  obtain ⟨smaller, read⟩ := node.expect
  rw [readDeclaration, read, ← readSpecifiers_eq_child ⟨"Declaration", params, span, smaller⟩,
    ← Node.list_eq_child ⟨_, _, _, smaller⟩]
  simp only [bind_map_left, ← eq_mapM readDeclarators readDeclarator rfl fun _ _ => rfl]
  rfl

/-- The name and the parameters of a function. -/
def readHead (v : Json) : Except Fault (String × List Param) := do
  let declarator ← Node.expect v "FunctionDeclarator"
  let name ← readIdentifier (← declarator.param 0).1
  let params ← readParams (← declarator.list 1).1
  return (name, params)

def refuseOldStyle (items : List Json) (span : Span) : Except Fault Unit :=
  if !items.isEmpty then .error (.unsupported "old-style parameter declarations" span.start)
  else .ok ()

lemma readItem_function (node : IsNode v "FunctionDefinition" params span) : readItem v = (do
      let result ← child "FunctionDefinition" params span 0 Json.items? >>= readSpecifierList
      let head ← readHead (← child "FunctionDefinition" params span 1 some)
      refuseOldStyle (← child "FunctionDefinition" params span 2 Json.items?) span
      let body ← readBlock (← child "FunctionDefinition" params span 3 some)
      return .function ⟨head.1, result, head.2, body, span⟩) := by
  obtain ⟨smaller, read⟩ := node
  rw [readItem, read, ← readSpecifiers_eq_child ⟨"FunctionDefinition", params, span, smaller⟩,
    ← Node.list_eq_child ⟨_, _, _, smaller⟩, ← Node.param_eq_child ⟨_, _, _, smaller⟩,
    ← Node.param_eq_child ⟨_, _, _, smaller⟩]
  change (readFunction ⟨"FunctionDefinition", params, span, smaller⟩ >>= _) = _
  rw [readFunction]
  simp only [bind_map_left, readHead, bind_assoc, pure_bind]
  refine bind_congr fun _ => bind_congr fun _ => bind_congr fun _ => bind_congr fun _ =>
    bind_congr fun _ => bind_congr fun _ => bind_congr fun _ => bind_congr fun old => ?_
  rw [refuseOldStyle]
  cases old.1.isEmpty with
  | false => rfl
  | true =>
    simp only [Bool.not_true, Bool.false_eq_true, if_false, bind_assoc, pure_bind]
    rfl

lemma readItem_declaration (node : IsNode v "Declaration" params span) :
    readItem v = .declaration <$> readDeclaration v := by
  obtain ⟨smaller, expected⟩ := node.expect
  obtain ⟨_, read⟩ := node
  rw [readItem, read, readDeclaration, expected]
  rfl

end Readers

end Tagged

end MiniC
