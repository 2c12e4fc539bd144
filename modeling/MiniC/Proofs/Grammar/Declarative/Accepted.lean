import MiniC.Proofs.Grammar.Declarative.Encode

/-!
# Declarative trees that are read

Whatever is read from a declarative tree has the shape that can be written (`readModule_fits`):
every place that is kept is a place of the text, and the specifiers of a type are the words between
its blanks.
-/

namespace MiniC.Declarative

open Source

variable {whole : Json}

lemma placeField?_isReadable {field : Option (Json.Part whole)} {place : Option Location}
    (h : placeField? field = some place) : (Place.span place).IsReadable := by
  unfold placeField? at h
  split at h
  · cases h
    exact .inl rfl
  · next part _ =>
    cases decoded : Place.decode part.1 with
    | error misfit => simp [decoded, Except.toOption] at h
    | ok found =>
      simp only [decoded, Except.toOption, Option.map_some, Option.some.injEq] at h
      exact h ▸ Place.span_isReadable decoded

lemma specifiers_fit (type : String) : ∀ s ∈ specifiers type, shape.specifier s := by
  refine List.forall_mem_map.mpr fun word member => ⟨Specifier.isRead_ofWord word, ?_⟩
  rw [Specifier.IsPlain, Specifier.word_ofWord]
  exact Text.isWord_of_mem_words member

/-! ## Nodes -/

mutual

/-- Every place in the node is a place of the text; unknown nodes do not count. -/
def ExprNode.Placed : ExprNode → Prop
  | .add left right place => left.Placed ∧ right.Placed ∧ (Place.span place).IsReadable
  | .binary _ left right place => left.Placed ∧ right.Placed ∧ (Place.span place).IsReadable
  | .assign _ target value place => target.Placed ∧ value.Placed ∧ (Place.span place).IsReadable
  | .const _ place => (Place.span place).IsReadable
  | .call callee args place =>
    callee.Placed ∧ ExprNode.AllPlaced args ∧ (Place.span place).IsReadable
  | .var _ place => (Place.span place).IsReadable
  | .unknown _ _ => True

def ExprNode.AllPlaced : List ExprNode → Prop
  | [] => True
  | node :: rest => node.Placed ∧ ExprNode.AllPlaced rest

end

def VarNode.Placed (node : VarNode) : Prop :=
  (∀ init ∈ node.init, init.Placed) ∧ (Place.span node.place).IsReadable

mutual

def StmtNode.Placed : StmtNode → Prop
  | .block stmts place => StmtNode.AllPlaced stmts ∧ (Place.span place).IsReadable
  | .decl _ vars place => (∀ node ∈ vars, node.Placed) ∧ (Place.span place).IsReadable
  | .expr value place => value.Placed ∧ (Place.span place).IsReadable
  | .ret value place => (∀ node ∈ value, node.Placed) ∧ (Place.span place).IsReadable
  | .unknown _ _ => True

def StmtNode.AllPlaced : List StmtNode → Prop
  | [] => True
  | node :: rest => node.Placed ∧ StmtNode.AllPlaced rest

end

mutual

theorem ExprNode.read?_placed (v : Json) (node : ExprNode) (h : ExprNode.read? v = some node) :
    node.Placed := by
  rw [ExprNode.read?] at h
  split at h
  · next known =>
    cases h
    obtain ⟨⟨tag, body⟩, _, known⟩ := Option.bind_eq_some_iff.mp known
    obtain ⟨kind, _, known⟩ := Option.bind_eq_some_iff.mp known
    split at known
    · -- `AddExpression`
      obtain ⟨_, _, known⟩ := Option.bind_eq_some_iff.mp known
      split at known
      · next left _ right _ _ _ =>
        obtain ⟨_, left_read, known⟩ := Option.bind_eq_some_iff.mp known
        obtain ⟨_, right_read, known⟩ := Option.bind_eq_some_iff.mp known
        obtain ⟨_, place_read, known⟩ := Option.bind_eq_some_iff.mp known
        cases known
        exact ⟨read?_placed left _ left_read, read?_placed right _ right_read,
          placeField?_isReadable place_read⟩
      · cases known
    · -- `BinaryExpression`
      obtain ⟨_, _, known⟩ := Option.bind_eq_some_iff.mp known
      split at known
      · next left _ right _ _ _ =>
        obtain ⟨_, _, known⟩ := Option.bind_eq_some_iff.mp known
        obtain ⟨_, left_read, known⟩ := Option.bind_eq_some_iff.mp known
        obtain ⟨_, right_read, known⟩ := Option.bind_eq_some_iff.mp known
        obtain ⟨_, place_read, known⟩ := Option.bind_eq_some_iff.mp known
        cases known
        exact ⟨read?_placed left _ left_read, read?_placed right _ right_read,
          placeField?_isReadable place_read⟩
      · cases known
    · -- `AssignmentExpression`
      obtain ⟨_, _, known⟩ := Option.bind_eq_some_iff.mp known
      split at known
      · next target _ value _ _ _ =>
        obtain ⟨_, _, known⟩ := Option.bind_eq_some_iff.mp known
        obtain ⟨_, target_read, known⟩ := Option.bind_eq_some_iff.mp known
        obtain ⟨_, value_read, known⟩ := Option.bind_eq_some_iff.mp known
        obtain ⟨_, place_read, known⟩ := Option.bind_eq_some_iff.mp known
        cases known
        exact ⟨read?_placed target _ target_read, read?_placed value _ value_read,
          placeField?_isReadable place_read⟩
      · cases known
    · -- `ConstExpression`
      obtain ⟨_, _, known⟩ := Option.bind_eq_some_iff.mp known
      split at known
      · obtain ⟨_, _, known⟩ := Option.bind_eq_some_iff.mp known
        obtain ⟨_, place_read, known⟩ := Option.bind_eq_some_iff.mp known
        cases known
        exact placeField?_isReadable place_read
      · cases known
    · -- `FunctionCallExpression`
      obtain ⟨_, _, known⟩ := Option.bind_eq_some_iff.mp known
      split at known
      · next callee _ _ _ _ =>
        obtain ⟨_, callee_read, known⟩ := Option.bind_eq_some_iff.mp known
        split at known
        · obtain ⟨_, no_args, known⟩ := Option.bind_eq_some_iff.mp known
          obtain ⟨_, place_read, known⟩ := Option.bind_eq_some_iff.mp known
          cases no_args
          cases known
          exact ⟨read?_placed callee _ callee_read, trivial, placeField?_isReadable place_read⟩
        · split at known
          · next items _ _ =>
            obtain ⟨_, args_read, known⟩ := Option.bind_eq_some_iff.mp known
            obtain ⟨_, place_read, known⟩ := Option.bind_eq_some_iff.mp known
            cases known
            exact ⟨read?_placed callee _ callee_read, readAll?_placed items _ args_read,
              placeField?_isReadable place_read⟩
          · cases known
      · cases known
    · -- `VariableExpression`
      obtain ⟨_, _, known⟩ := Option.bind_eq_some_iff.mp known
      split at known
      · obtain ⟨_, _, known⟩ := Option.bind_eq_some_iff.mp known
        obtain ⟨_, place_read, known⟩ := Option.bind_eq_some_iff.mp known
        cases known
        exact placeField?_isReadable place_read
      · cases known
    · cases known
  · obtain ⟨⟨tag, place⟩, _, made⟩ := Option.map_eq_some_iff.mp h
    cases made
    trivial
termination_by sizeOf v

theorem ExprNode.readAll?_placed (items : List Json) (nodes : List ExprNode)
    (h : ExprNode.readAll? items = some nodes) : ExprNode.AllPlaced nodes := by
  cases items with
  | nil =>
    rw [ExprNode.readAll?] at h
    cases h
    trivial
  | cons v rest =>
    rw [ExprNode.readAll?] at h
    obtain ⟨_, first_read, h⟩ := Option.bind_eq_some_iff.mp h
    obtain ⟨_, others_read, h⟩ := Option.bind_eq_some_iff.mp h
    cases h
    exact ⟨read?_placed v _ first_read, readAll?_placed rest _ others_read⟩
termination_by sizeOf items

end

lemma optionalExpr?_placed {field : Option (Json.Part whole)} {value : Option ExprNode}
    (h : optionalExpr? field = some value) : ∀ node ∈ value, node.Placed := by
  unfold optionalExpr? at h
  split at h
  · cases h
    simp
  · next part _ =>
    obtain ⟨node, read, made⟩ := Option.map_eq_some_iff.mp h
    cases made
    simpa using ExprNode.read?_placed part.1 node read

lemma VarNode.read?_placed {v : Json} {node : VarNode} (h : VarNode.read? v = some node) :
    node.Placed := by
  obtain ⟨_, _, h⟩ := Option.bind_eq_some_iff.mp h
  obtain ⟨_, _, h⟩ := Option.bind_eq_some_iff.mp h
  split at h
  · obtain ⟨_, _, h⟩ := Option.bind_eq_some_iff.mp h
    obtain ⟨_, init_read, h⟩ := Option.bind_eq_some_iff.mp h
    obtain ⟨_, place_read, h⟩ := Option.bind_eq_some_iff.mp h
    cases h
    exact ⟨optionalExpr?_placed init_read, placeField?_isReadable place_read⟩
  · cases h

lemma VarNode.readAll?_placed {items : List Json} {nodes : List VarNode}
    (h : VarNode.readAll? items = some nodes) : ∀ node ∈ nodes, node.Placed := by
  rw [eq_mapM VarNode.readAll? VarNode.read? rfl fun _ _ => rfl] at h
  exact forall_of_mapM_some (fun _ _ => VarNode.read?_placed) h

mutual

theorem StmtNode.read?_placed (v : Json) (node : StmtNode) (h : StmtNode.read? v = some node) :
    node.Placed := by
  rw [StmtNode.read?] at h
  split at h
  · next known =>
    cases h
    obtain ⟨⟨tag, body⟩, _, known⟩ := Option.bind_eq_some_iff.mp known
    obtain ⟨kind, _, known⟩ := Option.bind_eq_some_iff.mp known
    split at known
    · -- `BlockStatement`
      obtain ⟨_, _, known⟩ := Option.bind_eq_some_iff.mp known
      split at known
      · split at known
        · next items _ _ =>
          obtain ⟨_, stmts_read, known⟩ := Option.bind_eq_some_iff.mp known
          obtain ⟨_, place_read, known⟩ := Option.bind_eq_some_iff.mp known
          cases known
          exact ⟨readAll?_placed items _ stmts_read, placeField?_isReadable place_read⟩
        · cases known
      · cases known
    · -- `DeclarationStatement`
      obtain ⟨_, _, known⟩ := Option.bind_eq_some_iff.mp known
      split at known
      · obtain ⟨_, _, known⟩ := Option.bind_eq_some_iff.mp known
        obtain ⟨_, _, known⟩ := Option.bind_eq_some_iff.mp known
        obtain ⟨_, vars_read, known⟩ := Option.bind_eq_some_iff.mp known
        obtain ⟨_, place_read, known⟩ := Option.bind_eq_some_iff.mp known
        cases known
        exact ⟨VarNode.readAll?_placed vars_read, placeField?_isReadable place_read⟩
      · cases known
    · -- `ExpressionStatement`
      obtain ⟨_, _, known⟩ := Option.bind_eq_some_iff.mp known
      split at known
      · obtain ⟨_, value_read, known⟩ := Option.bind_eq_some_iff.mp known
        obtain ⟨_, place_read, known⟩ := Option.bind_eq_some_iff.mp known
        cases known
        exact ⟨ExprNode.read?_placed _ _ value_read, placeField?_isReadable place_read⟩
      · cases known
    · -- `ReturnStatement`
      obtain ⟨_, _, known⟩ := Option.bind_eq_some_iff.mp known
      split at known
      · obtain ⟨_, value_read, known⟩ := Option.bind_eq_some_iff.mp known
        obtain ⟨_, place_read, known⟩ := Option.bind_eq_some_iff.mp known
        cases known
        exact ⟨optionalExpr?_placed value_read, placeField?_isReadable place_read⟩
      · cases known
    · cases known
  · obtain ⟨⟨tag, place⟩, _, made⟩ := Option.map_eq_some_iff.mp h
    cases made
    trivial
termination_by sizeOf v

theorem StmtNode.readAll?_placed (items : List Json) (nodes : List StmtNode)
    (h : StmtNode.readAll? items = some nodes) : StmtNode.AllPlaced nodes := by
  cases items with
  | nil =>
    rw [StmtNode.readAll?] at h
    cases h
    trivial
  | cons v rest =>
    rw [StmtNode.readAll?] at h
    obtain ⟨_, first_read, h⟩ := Option.bind_eq_some_iff.mp h
    obtain ⟨_, others_read, h⟩ := Option.bind_eq_some_iff.mp h
    cases h
    exact ⟨read?_placed v _ first_read, readAll?_placed rest _ others_read⟩
termination_by sizeOf items

end

/-! ## Source trees -/

mutual

theorem ExprNode.lower_fits : ∀ (node : ExprNode), node.Placed →
    ∀ e, node.lower = .ok e → e.Fits shape
  | .add left right place, ⟨left_placed, right_placed, placed⟩, e, h => by
    rw [ExprNode.lower] at h
    obtain ⟨_, left_lower, h⟩ := except_bind_ok_iff.mp h
    obtain ⟨_, right_lower, h⟩ := except_bind_ok_iff.mp h
    cases h
    exact ⟨trivial, lower_fits left left_placed _ left_lower,
      lower_fits right right_placed _ right_lower, placed⟩
  | .binary symbol left right place, ⟨left_placed, right_placed, placed⟩, e, h => by
    rw [ExprNode.lower] at h
    split at h
    · cases h
    · obtain ⟨_, left_lower, h⟩ := except_bind_ok_iff.mp h
      obtain ⟨_, right_lower, h⟩ := except_bind_ok_iff.mp h
      cases h
      exact ⟨trivial, lower_fits left left_placed _ left_lower,
        lower_fits right right_placed _ right_lower, placed⟩
  | .assign symbol target value place, ⟨target_placed, value_placed, placed⟩, e, h => by
    rw [ExprNode.lower] at h
    split at h
    · cases h
    · obtain ⟨_, target_lower, h⟩ := except_bind_ok_iff.mp h
      obtain ⟨_, value_lower, h⟩ := except_bind_ok_iff.mp h
      cases h
      exact ⟨lower_fits target target_placed _ target_lower,
        lower_fits value value_placed _ value_lower, placed⟩
  | .const text place, placed, e, h => by
    cases h
    exact placed
  | .call callee args place, ⟨callee_placed, args_placed, placed⟩, e, h => by
    rw [ExprNode.lower] at h
    obtain ⟨_, callee_lower, h⟩ := except_bind_ok_iff.mp h
    obtain ⟨_, args_lower, h⟩ := except_bind_ok_iff.mp h
    cases h
    exact ⟨lower_fits callee callee_placed _ callee_lower,
      lowerAll_fit args args_placed _ args_lower, placed⟩
  | .var name place, placed, e, h => by
    cases h
    exact placed
  | .unknown tag place, _, e, h => by cases h

theorem ExprNode.lowerAll_fit : ∀ (nodes : List ExprNode), ExprNode.AllPlaced nodes →
    ∀ es, ExprNode.lowerAll nodes = .ok es → Expr.AllFit shape es
  | [], _, es, h => by
    cases h
    trivial
  | node :: rest, ⟨first, others⟩, es, h => by
    rw [ExprNode.lowerAll] at h
    obtain ⟨_, first_lower, h⟩ := except_bind_ok_iff.mp h
    obtain ⟨_, others_lower, h⟩ := except_bind_ok_iff.mp h
    cases h
    exact ⟨lower_fits node first _ first_lower, lowerAll_fit rest others _ others_lower⟩

end

lemma VarNode.lower_fits {node : VarNode} (placed : node.Placed) {d : Declarator}
    (h : node.lower = .ok d) : d.Fits shape := by
  unfold VarNode.lower at h
  split at h
  · cases h
    exact ⟨by simp, placed.2⟩
  · next init present =>
    obtain ⟨_, init_lower, h⟩ := except_bind_ok_iff.mp h
    cases h
    have init_fits := ExprNode.lower_fits init (placed.1 init present) _ init_lower
    exact ⟨by simpa using init_fits, placed.2⟩

lemma VarNode.lowerAll_fit {nodes : List VarNode} (placed : ∀ node ∈ nodes, node.Placed)
    {declarators : List Declarator} (h : VarNode.lowerAll nodes = .ok declarators) :
    ∀ d ∈ declarators, d.Fits shape := by
  induction nodes generalizing declarators with
  | nil =>
    cases h
    simp
  | cons node rest ih =>
    obtain ⟨first, others⟩ := List.forall_mem_cons.mp placed
    obtain ⟨_, first_lower, h⟩ := except_bind_ok_iff.mp h
    obtain ⟨_, others_lower, h⟩ := except_bind_ok_iff.mp h
    cases h
    exact List.forall_mem_cons.mpr ⟨VarNode.lower_fits first first_lower, ih others others_lower⟩

lemma lowerDecl_fits {type : String} {vars : List VarNode} {place : Option Location}
    (placed : (StmtNode.decl type vars place).Placed) {d : Decl}
    (h : lowerDecl type vars place = .ok d) : d.Fits shape := by
  obtain ⟨_, vars_lower, h⟩ := except_bind_ok_iff.mp h
  cases h
  exact ⟨specifiers_fit type, VarNode.lowerAll_fit placed.1 vars_lower, placed.2⟩

mutual

theorem StmtNode.lower_fits : ∀ (node : StmtNode), node.Placed →
    ∀ s, node.lower = .ok s → s.Fits shape
  | .block stmts place, ⟨stmts_placed, placed⟩, s, h => by
    rw [StmtNode.lower] at h
    obtain ⟨⟨decls, body⟩, list_lower, h⟩ := except_bind_ok_iff.mp h
    cases h
    obtain ⟨decls_fit, body_fits⟩ := lowerList_fit stmts stmts_placed _ _ list_lower
    exact ⟨⟨decls_fit, body_fits, placed⟩, rfl⟩
  | .expr value place, ⟨value_placed, placed⟩, s, h => by
    rw [StmtNode.lower] at h
    obtain ⟨_, value_lower, h⟩ := except_bind_ok_iff.mp h
    cases h
    exact ⟨ExprNode.lower_fits value value_placed _ value_lower, placed⟩
  | .ret none place, ⟨_, placed⟩, s, h => by
    cases h
    exact ⟨by simp, placed⟩
  | .ret (some value) place, ⟨value_placed, placed⟩, s, h => by
    rw [StmtNode.lower, lowerReturn] at h
    obtain ⟨_, value_lower, h⟩ := except_bind_ok_iff.mp h
    cases h
    have value_fits := ExprNode.lower_fits value (value_placed value rfl) _ value_lower
    exact ⟨by simpa using value_fits, placed⟩
  | .decl _ _ _, _, s, h => by cases h
  | .unknown _ _, _, s, h => by cases h

theorem StmtNode.lowerList_fit : ∀ (nodes : List StmtNode), StmtNode.AllPlaced nodes →
    ∀ decls stmts, StmtNode.lowerList nodes = .ok (decls, stmts) →
      (∀ d ∈ decls, d.Fits shape) ∧ Stmt.AllFit shape stmts
  | [], _, decls, stmts, h => by
    cases h
    exact ⟨by simp, trivial⟩
  | node :: rest, ⟨first, others⟩, decls, stmts, h => by
    by_cases declaration : node.IsDecl
    · obtain ⟨type, vars, place, rfl⟩ := StmtNode.isDecl_iff.mp declaration
      rw [StmtNode.lowerList] at h
      obtain ⟨_, decl_lower, h⟩ := except_bind_ok_iff.mp h
      obtain ⟨⟨more, body⟩, rest_lower, h⟩ := except_bind_ok_iff.mp h
      cases h
      obtain ⟨more_fit, body_fits⟩ := lowerList_fit rest others _ _ rest_lower
      exact ⟨List.forall_mem_cons.mpr ⟨lowerDecl_fits first decl_lower, more_fit⟩, body_fits⟩
    · rw [StmtNode.lowerList_cons declaration] at h
      obtain ⟨_, first_lower, h⟩ := except_bind_ok_iff.mp h
      obtain ⟨_, others_lower, h⟩ := except_bind_ok_iff.mp h
      cases h
      exact ⟨by simp, lower_fits node first _ first_lower,
        lowerTail_fit rest others _ others_lower⟩

theorem StmtNode.lowerTail_fit : ∀ (nodes : List StmtNode), StmtNode.AllPlaced nodes →
    ∀ stmts, StmtNode.lowerTail nodes = .ok stmts → Stmt.AllFit shape stmts
  | [], _, stmts, h => by
    cases h
    trivial
  | node :: rest, ⟨first, others⟩, stmts, h => by
    by_cases declaration : node.IsDecl
    · obtain ⟨type, vars, place, rfl⟩ := StmtNode.isDecl_iff.mp declaration
      rw [StmtNode.lowerTail] at h
      obtain ⟨_, decl_lower, h⟩ := except_bind_ok_iff.mp h
      obtain ⟨⟨more, body⟩, rest_lower, h⟩ := except_bind_ok_iff.mp h
      cases h
      obtain ⟨more_fit, body_fits⟩ := lowerList_fit rest others _ _ rest_lower
      have decls_fit := List.forall_mem_cons.mpr ⟨lowerDecl_fits first decl_lower, more_fit⟩
      exact ⟨⟨⟨decls_fit, body_fits, first.2⟩, rfl⟩, trivial⟩
    · rw [StmtNode.lowerTail_cons declaration] at h
      obtain ⟨_, first_lower, h⟩ := except_bind_ok_iff.mp h
      obtain ⟨_, others_lower, h⟩ := except_bind_ok_iff.mp h
      cases h
      exact ⟨lower_fits node first _ first_lower, lowerTail_fit rest others _ others_lower⟩

end

/-! ## Functions and modules -/

lemma ParamNode.read?_fits {v : Json} {node : ParamNode} (h : ParamNode.read? v = some node) :
    node.lower.Fits shape := by
  obtain ⟨_, _, h⟩ := Option.bind_eq_some_iff.mp h
  obtain ⟨_, _, h⟩ := Option.bind_eq_some_iff.mp h
  split at h
  · split at h
    all_goals
      obtain ⟨_, _, h⟩ := Option.bind_eq_some_iff.mp h
      obtain ⟨type, _, h⟩ := Option.bind_eq_some_iff.mp h
      obtain ⟨_, place_read, h⟩ := Option.bind_eq_some_iff.mp h
      cases h
      exact ⟨specifiers_fit type, placeField?_isReadable place_read⟩
  · cases h

lemma ParamNode.readAll?_fit {items : List Json} {nodes : List ParamNode}
    (h : ParamNode.readAll? items = some nodes) :
    ∀ p ∈ nodes.map ParamNode.lower, p.Fits shape := by
  rw [eq_mapM ParamNode.readAll? ParamNode.read? rfl fun _ _ => rfl] at h
  exact List.forall_mem_map.mpr (forall_of_mapM_some (fun _ _ => ParamNode.read?_fits) h)

/-- The parts of a function node that lowering depends on. -/
lemma FunctionNode.read?_placed {v : Json} {node : FunctionNode}
    (h : FunctionNode.read? v = some node) :
    (∀ p ∈ node.params.map ParamNode.lower, p.Fits shape) ∧ StmtNode.AllPlaced node.body ∧
      (Place.span node.place).IsReadable := by
  obtain ⟨⟨tag, body⟩, _, h⟩ := Option.bind_eq_some_iff.mp h
  obtain ⟨_, _, h⟩ := Option.bind_eq_some_iff.mp h
  obtain ⟨_, _, h⟩ := Option.bind_eq_some_iff.mp h
  split at h
  · obtain ⟨_, _, h⟩ := Option.bind_eq_some_iff.mp h
    obtain ⟨_, _, h⟩ := Option.bind_eq_some_iff.mp h
    -- The parameters are missing, a list, or no list; what follows them is read alike.
    split at h
    · obtain ⟨_, no_params, h⟩ := Option.bind_eq_some_iff.mp h
      obtain ⟨_, _, h⟩ := Option.bind_eq_some_iff.mp h
      obtain ⟨_, stmts_read, h⟩ := Option.bind_eq_some_iff.mp h
      obtain ⟨_, place_read, h⟩ := Option.bind_eq_some_iff.mp h
      cases no_params
      cases h
      exact ⟨by simp, StmtNode.readAll?_placed _ _ stmts_read, placeField?_isReadable place_read⟩
    · split at h
      · obtain ⟨_, params_read, h⟩ := Option.bind_eq_some_iff.mp h
        obtain ⟨_, _, h⟩ := Option.bind_eq_some_iff.mp h
        obtain ⟨_, stmts_read, h⟩ := Option.bind_eq_some_iff.mp h
        obtain ⟨_, place_read, h⟩ := Option.bind_eq_some_iff.mp h
        cases h
        exact ⟨ParamNode.readAll?_fit params_read, StmtNode.readAll?_placed _ _ stmts_read,
          placeField?_isReadable place_read⟩
      · cases h
  · cases h

lemma DeclNode.lower_fits {v : Json} {node : DeclNode} (h : DeclNode.read? v = some node)
    {item : Item} (lower : node.lower = .ok item) :
    ∃ f, item = .function f ∧ f.Fits shape ∧ f.body.span = f.span := by
  unfold DeclNode.read? at h
  split at h
  · next read =>
    cases h
    obtain ⟨params_fit, body_placed, placed⟩ := FunctionNode.read?_placed read
    obtain ⟨f, f_lower, lower⟩ := except_bind_ok_iff.mp lower
    cases lower
    obtain ⟨block, block_lower, f_lower⟩ := except_bind_ok_iff.mp f_lower
    cases f_lower
    obtain ⟨⟨decls, stmts⟩, list_lower, block_lower⟩ := except_bind_ok_iff.mp block_lower
    cases block_lower
    obtain ⟨decls_fit, stmts_fit⟩ := StmtNode.lowerList_fit _ body_placed _ _ list_lower
    exact ⟨_, rfl, ⟨specifiers_fit _, params_fit, ⟨decls_fit, stmts_fit, placed⟩, placed⟩, rfl⟩
  · obtain ⟨⟨tag, place⟩, _, made⟩ := Option.map_eq_some_iff.mp h
    cases made
    cases lower

lemma DeclNode.lowerAll_fit {items : List Json} {nodes : List DeclNode}
    (h : DeclNode.readAll items = .ok nodes) {found : List Item}
    (lower : DeclNode.lowerAll nodes = .ok found) :
    ∀ item ∈ found, ∃ f, item = .function f ∧ f.Fits shape ∧ f.body.span = f.span := by
  induction items generalizing nodes found with
  | nil =>
    cases h
    cases lower
    simp
  | cons v rest ih =>
    rw [DeclNode.readAll] at h
    split at h
    · cases h
    · next read =>
      obtain ⟨_, others_read, h⟩ := except_bind_ok_iff.mp h
      cases h
      obtain ⟨_, first_lower, lower⟩ := except_bind_ok_iff.mp lower
      obtain ⟨_, others_lower, lower⟩ := except_bind_ok_iff.mp lower
      cases lower
      exact List.forall_mem_cons.mpr ⟨DeclNode.lower_fits read first_lower,
        ih others_read others_lower⟩

lemma DeclNode.readList_ok {v : Json} {nodes : List DeclNode}
    (h : DeclNode.readList v = .ok nodes) : ∃ items, DeclNode.readAll items = .ok nodes := by
  cases v with
  | arr items => exact ⟨items, h⟩
  | _ => cases h

lemma readRootPlace_isReadable {v : Json} {place : Option Location}
    (h : readRootPlace v = .ok place) : (Place.span place).IsReadable := by
  unfold readRootPlace at h
  split at h
  · cases h
    exact .inl rfl
  · obtain ⟨_, decoded, h⟩ := except_bind_ok_iff.mp h
    cases h
    exact Place.span_isReadable decoded

lemma ModuleNode.read_ok {root : Json} {node : ModuleNode} (h : ModuleNode.read root = .ok node) :
    (∃ items, DeclNode.readAll items = .ok node.decls) ∧ (Place.span node.place).IsReadable := by
  cases root with
  | obj fields =>
    obtain ⟨decls?, decls_read, h⟩ := except_bind_ok_iff.mp h
    obtain ⟨place?, place_read, h⟩ := except_bind_ok_iff.mp h
    split at h
    · cases h
    · cases h
      obtain ⟨_, made⟩ | ⟨v, decls, _, read, made⟩ := option_mapM_ok decls_read
      · cases made
      · cases made
        refine ⟨DeclNode.readList_ok read, ?_⟩
        obtain ⟨_, rfl⟩ | ⟨w, place, _, found, rfl⟩ := option_mapM_ok place_read
        · exact .inl rfl
        · exact readRootPlace_isReadable found
  | arr items =>
    match items, h with
    | [_], h =>
      obtain ⟨_, _, short⟩ := except_bind_ok_iff.mp h
      cases short
    | _ :: _ :: rest, h =>
      obtain ⟨_, decls_read, h⟩ := except_bind_ok_iff.mp h
      obtain ⟨_, place_read, h⟩ := except_bind_ok_iff.mp h
      split at h
      · cases h
        exact ⟨DeclNode.readList_ok decls_read, readRootPlace_isReadable place_read⟩
      · cases h
  | _ => cases h

/-- A module that was read fits the shape of declarative trees; it holds functions only, and their
bodies stand where they do. -/
theorem readModule_fits {root : Json} {m : Module} (h : readModule root = .ok m) :
    m.Fits shape ∧ ∀ item ∈ m.items, ∃ f, item = .function f ∧ f.body.span = f.span := by
  unfold readModule at h
  split at h
  · cases h
  · next read =>
    obtain ⟨⟨items, items_read⟩, placed⟩ := ModuleNode.read_ok read
    obtain ⟨found, lower, h⟩ := except_bind_ok_iff.mp h
    cases h
    have functions := DeclNode.lowerAll_fit items_read lower
    refine ⟨⟨fun item member => ?_, placed⟩, fun item member => ?_⟩
    · obtain ⟨f, rfl, fits, _⟩ := functions item member
      exact fits
    · obtain ⟨f, rfl, _, same⟩ := functions item member
      exact ⟨f, rfl, same⟩

end MiniC.Declarative
