import MiniC.Proofs.Grammar.Tagged.Encode

/-!
# Tagged trees that are read

Whatever is read from a tagged tree has the shape that can be written (`readModule_fits`): a place
that cannot be read counts as none, additions are the only binary expressions, and a block is one
statement.
-/

namespace MiniC.Tagged

open Source

lemma spanOf_isReadable (v : Json) : (spanOf v).IsReadable := by
  unfold spanOf
  cases v.get? "loc" with
  | none => exact .inl rfl
  | some place =>
    cases decoded : Place.decode place with
    | error misfit => exact .inl (by simp [decoded, Except.toOption, Place.span, Span.unknown])
    | ok found =>
      simpa [decoded, Except.toOption] using Place.span_isReadable decoded

lemma Node.read_span {v : Json} {node : Node v} (h : Node.read v = .ok node) :
    node.span.IsReadable := by
  unfold Node.read at h
  split at h
  · split at h
    · split at h
      · cases h
        exact spanOf_isReadable _
      · cases h
        exact spanOf_isReadable _
      · cases h
    · cases h
  · cases h

lemma Node.expect_span {v : Json} {tag : String} {node : Node v}
    (h : Node.expect v tag = .ok node) : node.span.IsReadable := by
  obtain ⟨found, read, rest⟩ := except_bind_ok_iff.mp h
  split at rest
  · cases rest
    exact Node.read_span read
  · cases rest

lemma readSpecifier_fits {v : Json} {s : Specifier} (h : readSpecifier v = .ok s) :
    s.IsRead := by
  unfold readSpecifier at h
  split at h
  · cases h
    exact Specifier.isRead_ofWord _
  · obtain ⟨_, _, rest⟩ := except_bind_ok_iff.mp h
    obtain ⟨_, _, made⟩ := except_bind_ok_iff.mp rest
    cases made
    exact Specifier.isRead_ofWord _

lemma readSpecifiers_fit {whole : Json} {node : Node whole} {specifiers : List Specifier}
    (h : readSpecifiers node = .ok specifiers) : ∀ s ∈ specifiers, shape.specifier s := by
  obtain ⟨part, _, rest⟩ := except_bind_ok_iff.mp h
  split at rest
  · rw [eq_mapM readSpecifierList readSpecifier rfl fun _ _ => rfl] at rest
    exact forall_of_mapM_ok (fun _ _ => readSpecifier_fits) rest
  · cases rest

mutual

theorem readExpr_fits (v : Json) (e : Expr) (h : readExpr v = .ok e) : e.Fits shape := by
  rw [readExpr] at h
  obtain ⟨node, node_read, h⟩ := except_bind_ok_iff.mp h
  have span_fits := Node.read_span node_read
  split at h
  · -- `Add`
    obtain ⟨⟨l, l_smaller⟩, _, h⟩ := except_bind_ok_iff.mp h
    obtain ⟨left, left_read, h⟩ := except_bind_ok_iff.mp h
    obtain ⟨⟨r, r_smaller⟩, _, h⟩ := except_bind_ok_iff.mp h
    obtain ⟨right, right_read, h⟩ := except_bind_ok_iff.mp h
    cases h
    exact ⟨rfl, readExpr_fits l left left_read, readExpr_fits r right right_read, span_fits⟩
  · -- `Assign`
    obtain ⟨symbol, _, h⟩ := except_bind_ok_iff.mp h
    split at h
    · cases h
    · obtain ⟨⟨l, l_smaller⟩, _, h⟩ := except_bind_ok_iff.mp h
      obtain ⟨target, target_read, h⟩ := except_bind_ok_iff.mp h
      obtain ⟨⟨r, r_smaller⟩, _, h⟩ := except_bind_ok_iff.mp h
      obtain ⟨value, value_read, h⟩ := except_bind_ok_iff.mp h
      cases h
      exact ⟨readExpr_fits l target target_read, readExpr_fits r value value_read, span_fits⟩
  · -- `Const`
    obtain ⟨constant, _, h⟩ := except_bind_ok_iff.mp h
    split at h <;> cases h <;> exact span_fits
  · -- `FunctionCall`
    obtain ⟨⟨c, c_smaller⟩, _, h⟩ := except_bind_ok_iff.mp h
    obtain ⟨callee, callee_read, h⟩ := except_bind_ok_iff.mp h
    obtain ⟨⟨items, items_smaller⟩, _, h⟩ := except_bind_ok_iff.mp h
    obtain ⟨args, args_read, h⟩ := except_bind_ok_iff.mp h
    cases h
    exact ⟨readExpr_fits c callee callee_read, readExprs_fit items args args_read, span_fits⟩
  · -- `Var`
    obtain ⟨name, _, h⟩ := except_bind_ok_iff.mp h
    cases h
    exact span_fits
  · cases h
termination_by sizeOf v

theorem readExprs_fit (items : List Json) (es : List Expr) (h : readExprs items = .ok es) :
    Expr.AllFit shape es := by
  cases items with
  | nil =>
    rw [readExprs] at h
    cases h
    trivial
  | cons v rest =>
    rw [readExprs] at h
    obtain ⟨first, first_read, h⟩ := except_bind_ok_iff.mp h
    obtain ⟨others, others_read, h⟩ := except_bind_ok_iff.mp h
    cases h
    exact ⟨readExpr_fits v first first_read, readExprs_fit rest others others_read⟩
termination_by sizeOf items

end

lemma readDeclarator_fits {v : Json} {d : Declarator} (h : readDeclarator v = .ok d) :
    d.Fits shape := by
  obtain ⟨node, node_read, h⟩ := except_bind_ok_iff.mp h
  have span_fits := Node.expect_span node_read
  obtain ⟨part, _, h⟩ := except_bind_ok_iff.mp h
  obtain ⟨name, _, h⟩ := except_bind_ok_iff.mp h
  split at h
  · cases h
    exact ⟨by simp, span_fits⟩
  · obtain ⟨init, init_read, h⟩ := except_bind_ok_iff.mp h
    cases h
    exact ⟨by simpa using readExpr_fits _ init init_read, span_fits⟩

lemma readDecl_fits {v : Json} {node : Node v} {d : Decl} (span_fits : node.span.IsReadable)
    (h : readDecl node = .ok d) : d.Fits shape := by
  obtain ⟨specifiers, specifiers_read, h⟩ := except_bind_ok_iff.mp h
  obtain ⟨items, _, h⟩ := except_bind_ok_iff.mp h
  obtain ⟨declarators, declarators_read, h⟩ := except_bind_ok_iff.mp h
  cases h
  rw [eq_mapM readDeclarators readDeclarator rfl fun _ _ => rfl] at declarators_read
  exact ⟨readSpecifiers_fit specifiers_read,
    forall_of_mapM_ok (fun _ _ => readDeclarator_fits) declarators_read, span_fits⟩

lemma readDecls_fit {items : List Json} {decls : List Decl} (h : readDecls items = .ok decls) :
    ∀ d ∈ decls, d.Fits shape := by
  rw [readDecls_eq_mapM] at h
  refine forall_of_mapM_ok (fun v d read => ?_) h
  obtain ⟨node, node_read, decl_read⟩ := except_bind_ok_iff.mp read
  exact readDecl_fits (Node.expect_span node_read) decl_read

mutual

theorem readStmt_fits (v : Json) (s : Stmt) (h : readStmt v = .ok s) : s.Fits shape := by
  rw [readStmt] at h
  obtain ⟨node, node_read, h⟩ := except_bind_ok_iff.mp h
  have span_fits := Node.read_span node_read
  split at h
  · obtain ⟨part, _, h⟩ := except_bind_ok_iff.mp h
    obtain ⟨value, value_read, h⟩ := except_bind_ok_iff.mp h
    cases h
    exact ⟨readExpr_fits _ value value_read, span_fits⟩
  · split at h
    · cases h
      exact ⟨by simp, span_fits⟩
    · obtain ⟨value, value_read, h⟩ := except_bind_ok_iff.mp h
      cases h
      exact ⟨by simpa using readExpr_fits _ value value_read, span_fits⟩
  · obtain ⟨⟨decl_items, _⟩, _, h⟩ := except_bind_ok_iff.mp h
    obtain ⟨decls, decls_read, h⟩ := except_bind_ok_iff.mp h
    obtain ⟨⟨items, items_smaller⟩, _, h⟩ := except_bind_ok_iff.mp h
    obtain ⟨stmts, stmts_read, h⟩ := except_bind_ok_iff.mp h
    cases h
    exact ⟨⟨readDecls_fit decls_read, readStmts_fit items stmts stmts_read, span_fits⟩, rfl⟩
  · cases h
termination_by sizeOf v

theorem readStmts_fit (items : List Json) (stmts : List Stmt) (h : readStmts items = .ok stmts) :
    Stmt.AllFit shape stmts := by
  cases items with
  | nil =>
    rw [readStmts] at h
    cases h
    trivial
  | cons v rest =>
    rw [readStmts] at h
    obtain ⟨first, first_read, h⟩ := except_bind_ok_iff.mp h
    obtain ⟨others, others_read, h⟩ := except_bind_ok_iff.mp h
    cases h
    exact ⟨readStmt_fits v first first_read, readStmts_fit rest others others_read⟩
termination_by sizeOf items

end

lemma readBlock_fits {v : Json} {block : Block} (h : readBlock v = .ok block) :
    block.Fits shape := by
  obtain ⟨node, node_read, h⟩ := except_bind_ok_iff.mp h
  obtain ⟨_, _, h⟩ := except_bind_ok_iff.mp h
  obtain ⟨decls, decls_read, h⟩ := except_bind_ok_iff.mp h
  obtain ⟨_, _, h⟩ := except_bind_ok_iff.mp h
  obtain ⟨stmts, stmts_read, h⟩ := except_bind_ok_iff.mp h
  cases h
  exact ⟨readDecls_fit decls_read, readStmts_fit _ stmts stmts_read, Node.expect_span node_read⟩

lemma readParam_fits {v : Json} {p : Param} (h : readParam v = .ok p) : p.Fits shape := by
  obtain ⟨node, node_read, h⟩ := except_bind_ok_iff.mp h
  have span_fits := Node.read_span node_read
  split at h
  · obtain ⟨_, _, h⟩ := except_bind_ok_iff.mp h
    obtain ⟨name, _, h⟩ := except_bind_ok_iff.mp h
    obtain ⟨specifiers, specifiers_read, h⟩ := except_bind_ok_iff.mp h
    cases h
    exact ⟨readSpecifiers_fit specifiers_read, span_fits⟩
  · obtain ⟨specifiers, specifiers_read, h⟩ := except_bind_ok_iff.mp h
    cases h
    exact ⟨readSpecifiers_fit specifiers_read, span_fits⟩
  · cases h

lemma readFunction_fits {v : Json} {node : Node v} {f : Function}
    (span_fits : node.span.IsReadable) (h : readFunction node = .ok f) : f.Fits shape := by
  obtain ⟨result, result_read, h⟩ := except_bind_ok_iff.mp h
  obtain ⟨_, _, h⟩ := except_bind_ok_iff.mp h
  obtain ⟨declarator, _, h⟩ := except_bind_ok_iff.mp h
  obtain ⟨_, _, h⟩ := except_bind_ok_iff.mp h
  obtain ⟨name, _, h⟩ := except_bind_ok_iff.mp h
  obtain ⟨_, _, h⟩ := except_bind_ok_iff.mp h
  obtain ⟨params, params_read, h⟩ := except_bind_ok_iff.mp h
  obtain ⟨oldStyle, _, h⟩ := except_bind_ok_iff.mp h
  split at h
  · cases h
  · obtain ⟨_, _, h⟩ := except_bind_ok_iff.mp h
    obtain ⟨body, body_read, h⟩ := except_bind_ok_iff.mp h
    cases h
    rw [eq_mapM readParams readParam rfl fun _ _ => rfl] at params_read
    exact ⟨readSpecifiers_fit result_read,
      forall_of_mapM_ok (fun _ _ => readParam_fits) params_read, readBlock_fits body_read,
      span_fits⟩

lemma readItem_fits {v : Json} {item : Item} (h : readItem v = .ok item) : item.Fits shape := by
  obtain ⟨node, node_read, h⟩ := except_bind_ok_iff.mp h
  have span_fits := Node.read_span node_read
  split at h
  · obtain ⟨f, function_read, h⟩ := except_bind_ok_iff.mp h
    cases h
    exact readFunction_fits span_fits function_read
  · obtain ⟨d, decl_read, h⟩ := except_bind_ok_iff.mp h
    cases h
    exact readDecl_fits span_fits decl_read
  · cases h

/-- A module that was read fits the shape of tagged trees, and its root has no place. -/
theorem readModule_fits {root : Json} {m : Module} (h : readModule root = .ok m) :
    m.Fits shape ∧ m.span = .unknown := by
  unfold readModule at h
  split at h
  · obtain ⟨items, items_read, h⟩ := except_bind_ok_iff.mp h
    cases h
    rw [eq_mapM readItems readItem rfl fun _ _ => rfl] at items_read
    exact ⟨⟨forall_of_mapM_ok (fun _ _ => readItem_fits) items_read, .inl rfl⟩, rfl⟩
  · cases h

end MiniC.Tagged
