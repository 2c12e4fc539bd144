import MiniC.Proofs.Grammar.Declarative.Encode
import MiniC.Proofs.Grammar.Declarative.Sequential

/-!
# What lowering gives

`StmtLowers`, `ListLowers` and `TailLowers` relate a declarative tree to the source tree it is
lowered to, one case for each way in which lowering can go on. Facts about lowered trees are proved
by induction on them.
-/

namespace MiniC.Declarative

open Source

/-! ## Expressions and statements -/

mutual

/-- A node and the expression it is lowered to. -/
inductive ExprLowers : ExprNode → Expr → Prop
  | add {left right : ExprNode} {l r : Expr} {place : Option Location}
      (hl : ExprLowers left l) (hr : ExprLowers right r) :
      ExprLowers (.add left right place) (.binary .add l r (Place.span place))
  | binary {symbol : String} {op : BinaryOp} {left right : ExprNode} {l r : Expr}
      {place : Option Location} (hl : ExprLowers left l) (hr : ExprLowers right r) :
      ExprLowers (.binary symbol left right place) (.binary op l r (Place.span place))
  | assign {symbol : String} {op : AssignOp} {target value : ExprNode} {l r : Expr}
      {place : Option Location} (hl : ExprLowers target l) (hr : ExprLowers value r) :
      ExprLowers (.assign symbol target value place) (.assign op l r (Place.span place))
  | const {text : String} {place : Option Location} :
      ExprLowers (.const text place) (.const text (Place.span place))
  | call {callee : ExprNode} {args : List ExprNode} {c : Expr} {as : List Expr}
      {place : Option Location} (hc : ExprLowers callee c) (has : ExprsLower args as) :
      ExprLowers (.call callee args place) (.call c as (Place.span place))
  | var {name : String} {place : Option Location} :
      ExprLowers (.var name place) (.ident name (Place.span place))

inductive ExprsLower : List ExprNode → List Expr → Prop
  | nil : ExprsLower [] []
  | cons {node : ExprNode} {e : Expr} {rest : List ExprNode} {es : List Expr}
      (first : ExprLowers node e) (others : ExprsLower rest es) :
      ExprsLower (node :: rest) (e :: es)

end

mutual

theorem ExprNode.lower_ok : ∀ (node : ExprNode) {e : Expr}, node.lower = .ok e → ExprLowers node e
  | .add left right place, e, h => by
    rw [ExprNode.lower] at h
    obtain ⟨l, hl, h⟩ := except_bind_ok_iff.mp h
    obtain ⟨r, hr, made⟩ := except_bind_ok_iff.mp h
    cases made
    exact .add (ExprNode.lower_ok left hl) (ExprNode.lower_ok right hr)
  | .binary symbol left right place, e, h => by
    rw [ExprNode.lower] at h
    split at h
    · cases h
    · obtain ⟨l, hl, h⟩ := except_bind_ok_iff.mp h
      obtain ⟨r, hr, made⟩ := except_bind_ok_iff.mp h
      cases made
      exact .binary (ExprNode.lower_ok left hl) (ExprNode.lower_ok right hr)
  | .assign symbol target value place, e, h => by
    rw [ExprNode.lower] at h
    split at h
    · cases h
    · obtain ⟨l, hl, h⟩ := except_bind_ok_iff.mp h
      obtain ⟨r, hr, made⟩ := except_bind_ok_iff.mp h
      cases made
      exact .assign (ExprNode.lower_ok target hl) (ExprNode.lower_ok value hr)
  | .const text place, e, h => by
    cases h
    exact .const
  | .call callee args place, e, h => by
    rw [ExprNode.lower] at h
    obtain ⟨c, hc, h⟩ := except_bind_ok_iff.mp h
    obtain ⟨as, has, made⟩ := except_bind_ok_iff.mp h
    cases made
    exact .call (ExprNode.lower_ok callee hc) (ExprNode.lowerAll_ok args has)
  | .var name place, e, h => by
    cases h
    exact .var
  | .unknown tag place, e, h => by cases h

theorem ExprNode.lowerAll_ok : ∀ (nodes : List ExprNode) {es : List Expr},
    ExprNode.lowerAll nodes = .ok es → ExprsLower nodes es
  | [], es, h => by
    cases h
    exact .nil
  | node :: rest, es, h => by
    rw [ExprNode.lowerAll] at h
    obtain ⟨e, first, h⟩ := except_bind_ok_iff.mp h
    obtain ⟨others, below, made⟩ := except_bind_ok_iff.mp h
    cases made
    exact .cons (ExprNode.lower_ok node first) (ExprNode.lowerAll_ok rest below)

end

mutual

/-- A node and the statement it is lowered to; a declaration is not lowered alone. -/
inductive StmtLowers : StmtNode → Stmt → Prop
  | block {nodes : List StmtNode} {decls : List Decl} {stmts : List Stmt}
      {place : Option Location} (inner : ListLowers nodes decls stmts) :
      StmtLowers (.block nodes place) (.block ⟨decls, stmts, Place.span place⟩ (Place.span place))
  | expr {value : ExprNode} {e : Expr} {place : Option Location} (lowered : value.lower = .ok e) :
      StmtLowers (.expr value place) (.expr e (Place.span place))
  | ret {value : ExprNode} {e : Expr} {place : Option Location} (lowered : value.lower = .ok e) :
      StmtLowers (.ret (some value) place) (.ret (some e) (Place.span place))
  | retNone {place : Option Location} : StmtLowers (.ret none place) (.ret none (Place.span place))

/-- A list, the declarations it begins with and the statements behind them. -/
inductive ListLowers : List StmtNode → List Decl → List Stmt → Prop
  | nil : ListLowers [] [] []
  | decl {type : String} {vars : List VarNode} {place : Option Location} {d : Decl}
      {rest : List StmtNode} {decls : List Decl} {stmts : List Stmt}
      (lowered : lowerDecl type vars place = .ok d) (others : ListLowers rest decls stmts) :
      ListLowers (.decl type vars place :: rest) (d :: decls) stmts
  | stmt {node : StmtNode} {s : Stmt} {rest : List StmtNode} {stmts : List Stmt}
      (first : StmtLowers node s) (others : TailLowers rest stmts) :
      ListLowers (node :: rest) [] (s :: stmts)

/-- A list behind a statement. Its first declaration opens a block for all that follows. -/
inductive TailLowers : List StmtNode → List Stmt → Prop
  | nil : TailLowers [] []
  | decl {type : String} {vars : List VarNode} {place : Option Location} {d : Decl}
      {rest : List StmtNode} {decls : List Decl} {stmts : List Stmt}
      (lowered : lowerDecl type vars place = .ok d) (others : ListLowers rest decls stmts) :
      TailLowers (.decl type vars place :: rest)
        [.block ⟨d :: decls, stmts, Place.span place⟩ (Place.span place)]
  | stmt {node : StmtNode} {s : Stmt} {rest : List StmtNode} {stmts : List Stmt}
      (first : StmtLowers node s) (others : TailLowers rest stmts) :
      TailLowers (node :: rest) (s :: stmts)

end

mutual

theorem StmtNode.lower_ok : ∀ (node : StmtNode) {s : Stmt}, node.lower = .ok s → StmtLowers node s
  | .block nodes place, s, h => by
    rw [StmtNode.lower] at h
    obtain ⟨⟨decls, stmts⟩, inner, made⟩ := except_bind_ok_iff.mp h
    cases made
    exact .block (StmtNode.lowerList_ok nodes inner)
  | .expr value place, s, h => by
    rw [StmtNode.lower] at h
    obtain ⟨e, lowered, made⟩ := except_bind_ok_iff.mp h
    cases made
    exact .expr lowered
  | .ret none place, s, h => by
    cases h
    exact .retNone
  | .ret (some value) place, s, h => by
    rw [StmtNode.lower, lowerReturn] at h
    obtain ⟨e, lowered, made⟩ := except_bind_ok_iff.mp h
    cases made
    exact .ret lowered
  | .decl type vars place, s, h => by cases h
  | .unknown tag place, s, h => by cases h

theorem StmtNode.lowerList_ok : ∀ (nodes : List StmtNode) {decls : List Decl} {stmts : List Stmt},
    StmtNode.lowerList nodes = .ok (decls, stmts) → ListLowers nodes decls stmts
  | [], decls, stmts, h => by
    cases h
    exact .nil
  | node :: rest, decls, stmts, h => by
    by_cases declaration : node.IsDecl
    · obtain ⟨type, vars, place, rfl⟩ := StmtNode.isDecl_iff.mp declaration
      rw [StmtNode.lowerList] at h
      obtain ⟨d, lowered, h⟩ := except_bind_ok_iff.mp h
      obtain ⟨⟨others, tail⟩, below, made⟩ := except_bind_ok_iff.mp h
      cases made
      exact .decl lowered (StmtNode.lowerList_ok rest below)
    · rw [StmtNode.lowerList_cons declaration] at h
      obtain ⟨s, lowered, h⟩ := except_bind_ok_iff.mp h
      obtain ⟨tail, below, made⟩ := except_bind_ok_iff.mp h
      cases made
      exact .stmt (StmtNode.lower_ok node lowered) (StmtNode.lowerTail_ok rest below)

theorem StmtNode.lowerTail_ok : ∀ (nodes : List StmtNode) {stmts : List Stmt},
    StmtNode.lowerTail nodes = .ok stmts → TailLowers nodes stmts
  | [], stmts, h => by
    cases h
    exact .nil
  | node :: rest, stmts, h => by
    by_cases declaration : node.IsDecl
    · obtain ⟨type, vars, place, rfl⟩ := StmtNode.isDecl_iff.mp declaration
      rw [StmtNode.lowerTail] at h
      obtain ⟨d, lowered, h⟩ := except_bind_ok_iff.mp h
      obtain ⟨⟨others, tail⟩, below, made⟩ := except_bind_ok_iff.mp h
      cases made
      exact .decl lowered (StmtNode.lowerList_ok rest below)
    · rw [StmtNode.lowerTail_cons declaration] at h
      obtain ⟨s, lowered, h⟩ := except_bind_ok_iff.mp h
      obtain ⟨tail, below, made⟩ := except_bind_ok_iff.mp h
      cases made
      exact .stmt (StmtNode.lower_ok node lowered) (StmtNode.lowerTail_ok rest below)

end

/-- A node that is lowered alone leaves what is in sight as it was, and ends a run. -/
lemma StmtLowers.after_eq {node : StmtNode} {s : Stmt} (h : StmtLowers node s) (env : Env)
    (next : Nat) : node.after env next = env := by
  cases h <;> rfl

lemma StmtLowers.run_eq {node : StmtNode} {s : Stmt} (h : StmtLowers node s) (run : List String) :
    node.run run = [] := by
  cases h <;> rfl

/-! ## Declarations -/

lemma VarNode.lower_ok {node : VarNode} {d : Declarator} (h : node.lower = .ok d) :
    d.name = node.name ∧ (d.WellFormed ↔ node.Accepted) := by
  obtain ⟨name, init, place⟩ := node
  cases init with
  | none =>
    cases h
    exact ⟨rfl, fun _ => .inl rfl, fun _ => .inl rfl⟩
  | some value =>
    obtain ⟨e, lowered, made⟩ := except_bind_ok_iff.mp h
    cases made
    refine ⟨rfl, ?_, ?_⟩
    · rintro (missing | ⟨text, span, n, constant, numeral, small⟩)
      · cases missing
      · cases constant
        cases ExprNode.lower_ok value lowered
        exact .inr ⟨text, _, n, rfl, numeral, small⟩
    · rintro (missing | ⟨text, place', n, constant, numeral, small⟩)
      · cases missing
      · cases constant
        cases lowered
        exact .inr ⟨text, _, n, rfl, numeral, small⟩

lemma VarNode.lowerAll_ok {vars : List VarNode} {ds : List Declarator}
    (h : VarNode.lowerAll vars = .ok ds) :
    ds.map (·.name) = vars.map (·.name) ∧
      ((∀ d ∈ ds, d.WellFormed) ↔ ∀ v ∈ vars, v.Accepted) := by
  induction vars generalizing ds with
  | nil =>
    cases h
    simp
  | cons v rest ih =>
    obtain ⟨d, first, h⟩ := except_bind_ok_iff.mp h
    obtain ⟨others, below, made⟩ := except_bind_ok_iff.mp h
    cases made
    obtain ⟨name, accepted⟩ := VarNode.lower_ok first
    obtain ⟨names, allAccepted⟩ := ih below
    exact ⟨by rw [List.map_cons, List.map_cons, name, names],
      by rw [List.forall_mem_cons, List.forall_mem_cons, accepted, allAccepted]⟩

/-- A declaration puts its names in front of those of the others. -/
lemma declaredNames_cons {type : String} {vars : List VarNode} {place : Option Location} {d : Decl}
    (h : lowerDecl type vars place = .ok d) (decls : List Decl) :
    declaredNames (d :: decls) = vars.map (·.name) ++ declaredNames decls := by
  obtain ⟨ds, lowered, made⟩ := except_bind_ok_iff.mp h
  cases made
  rw [← (VarNode.lowerAll_ok lowered).1]
  exact List.map_append

lemma declsWellFormed_cons {type : String} {vars : List VarNode} {place : Option Location}
    {d : Decl} (h : lowerDecl type vars place = .ok d) (decls : List Decl) :
    DeclsWellFormed (d :: decls) ↔ (Ty.ofSpecifiers (specifiers type) = some .int ∧
      ∀ v ∈ vars, v.Accepted) ∧ DeclsWellFormed decls := by
  obtain ⟨ds, lowered, made⟩ := except_bind_ok_iff.mp h
  cases made
  have all : declaratorsOf (⟨specifiers type, ds, Place.span place⟩ :: decls) =
      ds ++ declaratorsOf decls := rfl
  rw [DeclsWellFormed, DeclsWellFormed, all, List.forall_mem_cons, List.forall_mem_append,
    (VarNode.lowerAll_ok lowered).2]
  exact and_and_and_comm

mutual

/-- Lowering keeps the declarations of a node, in the order they are written. -/
theorem StmtLowers.declared : ∀ {node : StmtNode} {s : Stmt}, StmtLowers node s →
    s.declarators.map (·.name) = node.declared
  | _, _, .block inner => by
    rw [Stmt.declarators, Block.declarators, List.map_append]
    exact inner.declared
  | _, _, .expr _ => rfl
  | _, _, .ret _ => rfl
  | _, _, .retNone => rfl

theorem ListLowers.declared : ∀ {nodes : List StmtNode} {decls : List Decl} {stmts : List Stmt},
    ListLowers nodes decls stmts →
      declaredNames decls ++ (Stmt.declaratorsAll stmts).map (·.name) = StmtNode.declaredAll nodes
  | _, _, _, .nil => rfl
  | _, _, _, .decl lowered others => by
    rw [declaredNames_cons lowered, List.append_assoc, others.declared]
    rfl
  | _, _, _, .stmt first others => by
    rw [Stmt.declaratorsAll, List.map_append, first.declared, others.declared]
    rfl

theorem TailLowers.declared : ∀ {nodes : List StmtNode} {stmts : List Stmt},
    TailLowers nodes stmts → (Stmt.declaratorsAll stmts).map (·.name) = StmtNode.declaredAll nodes
  | _, _, .nil => rfl
  | _, _, .decl lowered others => by
    rw [Stmt.declaratorsAll, Stmt.declaratorsAll, List.append_nil, Stmt.declarators,
      Block.declarators, List.map_append, ← declaredNames, declaredNames_cons lowered,
      List.append_assoc, others.declared]
    rfl
  | _, _, .stmt first others => by
    rw [Stmt.declaratorsAll, List.map_append, first.declared, others.declared]
    rfl

end

end MiniC.Declarative
