import MiniC.Proofs.Grammar.Declarative.Encode

/-!
# How a list of statements is divided

A list of declarative statements is divided into the declarations it begins with, the statements up
to the next declaration, and a remainder that begins with that declaration. The first two parts are
lowered node by node; a remainder becomes one nested block, which is the block of the remainder
itself. If a node cannot be lowered, the fault is that of the first such node.

The lowering of a single statement has a fault of its own for declarations. No list and no module
ever meets it, since declarations are taken out of a list before its statements are lowered.
-/

namespace MiniC.Declarative

open Source

instance (node : StmtNode) : Decidable node.IsDecl :=
  match node with
  | .decl _ _ _ => .isTrue trivial
  | .block _ _ | .expr _ _ | .ret _ _ | .unknown _ _ => .isFalse id

namespace StmtNode

/-- What a node of a list is lowered to by itself, as a declaration or as a statement. -/
def lowerAlone : StmtNode → Except Fault (Decl ⊕ Stmt)
  | .decl type vars place => Sum.inl <$> lowerDecl type vars place
  | node => Sum.inr <$> node.lower

/-- A node that can be lowered by itself. -/
def Lowers (node : StmtNode) : Prop :=
  ∃ part, node.lowerAlone = .ok part

/-- The declarations that a list begins with. -/
def opening (nodes : List StmtNode) : List StmtNode :=
  nodes.takeWhile (·.IsDecl)

/-- The nodes behind them, up to the next declaration. -/
def statements (nodes : List StmtNode) : List StmtNode :=
  (nodes.dropWhile (·.IsDecl)).takeWhile (¬ ·.IsDecl)

/-- The rest of a list, from a declaration behind a statement on. -/
def remainder (nodes : List StmtNode) : List StmtNode :=
  (nodes.dropWhile (·.IsDecl)).dropWhile (¬ ·.IsDecl)

/-! ## One node in front of a list -/

section Front

variable {node : StmtNode} {decl : Decl} {stmt : Stmt} {fault : Fault}

lemma lowerAlone_of_not_isDecl (statement : ¬ node.IsDecl) :
    node.lowerAlone = Sum.inr <$> node.lower := by
  cases node with
  | decl => exact absurd trivial statement
  | _ => rfl

lemma lowerAlone_inl_iff : node.lowerAlone = .ok (.inl decl) ↔
    ∃ type vars place, node = .decl type vars place ∧ lowerDecl type vars place = .ok decl := by
  by_cases declaration : node.IsDecl
  · obtain ⟨type, vars, place, rfl⟩ := isDecl_iff.mp declaration
    cases lowered : lowerDecl type vars place <;> simp [lowerAlone, lowered]
  · have other : ∀ type vars place, node ≠ .decl type vars place := fun type vars place same =>
      declaration (isDecl_iff.mpr ⟨type, vars, place, same⟩)
    rw [lowerAlone_of_not_isDecl declaration]
    cases lowered : node.lower <;> simp [other]

lemma lowerAlone_inr_iff :
    node.lowerAlone = .ok (.inr stmt) ↔ ¬ node.IsDecl ∧ node.lower = .ok stmt := by
  by_cases declaration : node.IsDecl
  · obtain ⟨type, vars, place, rfl⟩ := isDecl_iff.mp declaration
    cases lowered : lowerDecl type vars place <;> simp [lowerAlone, lowered, IsDecl]
  · rw [lowerAlone_of_not_isDecl declaration]
    cases lowered : node.lower <;> simp [declaration]

lemma lowerList_cons_inl (alone : node.lowerAlone = .ok (.inl decl)) (rest : List StmtNode) :
    lowerList (node :: rest) =
      (fun parts => (decl :: parts.1, parts.2)) <$> lowerList rest := by
  obtain ⟨type, vars, place, rfl, lowered⟩ := lowerAlone_inl_iff.mp alone
  rw [lowerList, lowered]
  cases lowerList rest <;> rfl

/-- A declaration behind a statement opens a block, which stands where the declaration does. -/
lemma lowerTail_cons_inl (alone : node.lowerAlone = .ok (.inl decl)) (rest : List StmtNode) :
    lowerTail (node :: rest) =
      (fun parts => [.block ⟨decl :: parts.1, parts.2, decl.span⟩ decl.span]) <$>
        lowerList rest := by
  obtain ⟨type, vars, place, rfl, lowered⟩ := lowerAlone_inl_iff.mp alone
  have placed : decl.span = Place.span place := by
    obtain ⟨_, _, made⟩ := except_bind_ok_iff.mp lowered
    cases made
    rfl
  rw [lowerTail, lowered, placed]
  cases lowerList rest <;> rfl

lemma lowerList_cons_inr (alone : node.lowerAlone = .ok (.inr stmt)) (rest : List StmtNode) :
    lowerList (node :: rest) = (fun stmts => ([], stmt :: stmts)) <$> lowerTail rest := by
  obtain ⟨statement, lowered⟩ := lowerAlone_inr_iff.mp alone
  rw [lowerList_cons statement, lowered]
  cases lowerTail rest <;> rfl

lemma lowerTail_cons_inr (alone : node.lowerAlone = .ok (.inr stmt)) (rest : List StmtNode) :
    lowerTail (node :: rest) = (stmt :: ·) <$> lowerTail rest := by
  obtain ⟨statement, lowered⟩ := lowerAlone_inr_iff.mp alone
  rw [lowerTail_cons statement, lowered]
  cases lowerTail rest <;> rfl

lemma lower_cons_error (alone : node.lowerAlone = .error fault) (rest : List StmtNode) :
    lowerList (node :: rest) = .error fault ∧ lowerTail (node :: rest) = .error fault := by
  by_cases declaration : node.IsDecl
  · obtain ⟨type, vars, place, rfl⟩ := isDecl_iff.mp declaration
    rw [lowerList, lowerTail, except_map_error_iff.mp alone]
    exact ⟨rfl, rfl⟩
  · rw [lowerAlone_of_not_isDecl declaration] at alone
    rw [lowerList_cons declaration, lowerTail_cons declaration, except_map_error_iff.mp alone]
    exact ⟨rfl, rfl⟩

end Front

/-! ## Whole lists -/

/-- A list whose nodes can all be lowered can be lowered, at the start and behind a statement. -/
lemma lowers_of_all {nodes : List StmtNode} (each : ∀ node ∈ nodes, node.Lowers) :
    (∃ parts, lowerList nodes = .ok parts) ∧ ∃ stmts, lowerTail nodes = .ok stmts := by
  induction nodes with
  | nil => exact ⟨⟨_, rfl⟩, ⟨_, rfl⟩⟩
  | cons node rest ih =>
    obtain ⟨⟨part, alone⟩, others⟩ := List.forall_mem_cons.mp each
    obtain ⟨⟨parts, list⟩, ⟨stmts, tail⟩⟩ := ih others
    cases part with
    | inl decl =>
      rw [lowerList_cons_inl alone, lowerTail_cons_inl alone, list]
      exact ⟨⟨_, rfl⟩, ⟨_, rfl⟩⟩
    | inr stmt =>
      rw [lowerList_cons_inr alone, lowerTail_cons_inr alone, tail]
      exact ⟨⟨_, rfl⟩, ⟨_, rfl⟩⟩

/-- The first node that cannot be lowered gives the fault of the list. -/
lemma fails_at_first {before : List StmtNode} {node : StmtNode} {fault : Fault}
    (each : ∀ other ∈ before, other.Lowers) (fails : node.lowerAlone = .error fault)
    (after : List StmtNode) :
    lowerList (before ++ node :: after) = .error fault ∧
      lowerTail (before ++ node :: after) = .error fault := by
  induction before with
  | nil => exact lower_cons_error fails after
  | cons other rest ih =>
    obtain ⟨⟨part, alone⟩, others⟩ := List.forall_mem_cons.mp each
    obtain ⟨list, tail⟩ := ih others
    rw [List.cons_append]
    cases part with
    | inl decl =>
      rw [lowerList_cons_inl alone, lowerTail_cons_inl alone, list]
      exact ⟨rfl, rfl⟩
    | inr stmt =>
      rw [lowerList_cons_inr alone, lowerTail_cons_inr alone, tail]
      exact ⟨rfl, rfl⟩

end StmtNode

open StmtNode

/-- What a remainder becomes: nothing if it is empty, else one block. The block is that of the
remainder and stands, like the statement around it, where the first declaration does. -/
def Nests (rest : List StmtNode) (stmts : List Stmt) : Prop :=
  (rest = [] ∧ stmts = []) ∨ ∃ type vars place later block,
    rest = .decl type vars place :: later ∧ lowerBlock rest (Place.span place) = .ok block ∧
      block.span = Place.span place ∧ stmts = [.block block (Place.span place)]

/-- Behind a statement, statements are lowered one by one up to a remainder. -/
lemma lowerTail_divides {nodes : List StmtNode} (each : ∀ node ∈ nodes, node.Lowers) :
    ∃ stmts nested,
      List.Forall₂ (fun node stmt => node.lowerAlone = .ok (.inr stmt))
        (nodes.takeWhile (¬ ·.IsDecl)) stmts ∧
      Nests (nodes.dropWhile (¬ ·.IsDecl)) nested ∧ lowerTail nodes = .ok (stmts ++ nested) := by
  induction nodes with
  | nil => exact ⟨[], [], .nil, .inl ⟨rfl, rfl⟩, rfl⟩
  | cons node rest ih =>
    obtain ⟨⟨part, alone⟩, others⟩ := List.forall_mem_cons.mp each
    cases part with
    | inl decl =>
      obtain ⟨⟨parts, list⟩, _⟩ := lowers_of_all others
      have block (span : Span) : lowerBlock (node :: rest) span =
          .ok ⟨decl :: parts.1, parts.2, span⟩ := by
        rw [lowerBlock, lowerList_cons_inl alone, list]
        rfl
      have tail := lowerTail_cons_inl alone rest
      rw [list] at tail
      obtain ⟨type, vars, place, rfl, lowered⟩ := lowerAlone_inl_iff.mp alone
      obtain ⟨_, _, made⟩ := except_bind_ok_iff.mp lowered
      cases made
      exact ⟨[], _, .nil, .inr ⟨type, vars, place, rest, _, rfl, block _, rfl, rfl⟩, tail⟩
    | inr stmt =>
      obtain ⟨stmts, nested, run, nests, tail⟩ := ih others
      have statement := (lowerAlone_inr_iff.mp alone).1
      refine ⟨stmt :: stmts, nested, ?_, ?_, ?_⟩
      · rw [List.takeWhile_cons_of_pos (by simpa using statement)]
        exact .cons alone run
      · rwa [List.dropWhile_cons_of_pos (by simpa using statement)]
      · rw [lowerTail_cons_inr alone, tail]
        rfl

/-- At the start of a list, declarations are lowered one by one up to the first statement. -/
lemma lowerList_divides {nodes : List StmtNode} (each : ∀ node ∈ nodes, node.Lowers) :
    ∃ decls stmts,
      List.Forall₂ (fun node decl => node.lowerAlone = .ok (.inl decl)) (opening nodes) decls ∧
      lowerTail (nodes.dropWhile (·.IsDecl)) = .ok stmts ∧
      lowerList nodes = .ok (decls, stmts) := by
  induction nodes with
  | nil => exact ⟨[], [], .nil, rfl, rfl⟩
  | cons node rest ih =>
    obtain ⟨⟨part, alone⟩, others⟩ := List.forall_mem_cons.mp each
    cases part with
    | inl decl =>
      obtain ⟨decls, stmts, run, tail, list⟩ := ih others
      have declaration : node.IsDecl := by
        obtain ⟨type, vars, place, rfl, _⟩ := lowerAlone_inl_iff.mp alone
        trivial
      refine ⟨decl :: decls, stmts, ?_, ?_, ?_⟩
      · rw [opening, List.takeWhile_cons_of_pos (by simpa using declaration)]
        exact .cons alone run
      · rwa [List.dropWhile_cons_of_pos (by simpa using declaration)]
      · rw [lowerList_cons_inl alone, list]
        rfl
    | inr stmt =>
      obtain ⟨_, ⟨stmts, tail⟩⟩ := lowers_of_all others
      have statement := (lowerAlone_inr_iff.mp alone).1
      refine ⟨[], stmt :: stmts, ?_, ?_, ?_⟩
      · rw [opening, List.takeWhile_cons_of_neg (by simpa using statement)]
        exact .nil
      · rw [List.dropWhile_cons_of_neg (by simpa using statement), lowerTail_cons_inr alone, tail]
        rfl
      · rw [lowerList_cons_inr alone, tail]
        rfl

/-! ## The fault of a misplaced declaration -/

/-- The fault that the lowering of a single declaration as a statement would give. -/
def IsMisplaced (fault : Fault) : Prop :=
  ∃ place, fault = .unsupported "misplaced declaration" place

lemma not_isMisplaced {first rest : String} {place : Location}
    (differs : ¬ first.toList <+: "misplaced declaration".toList) :
    ¬ IsMisplaced (.unsupported (first ++ rest) place) := by
  rintro ⟨_, same⟩
  obtain ⟨texts, _⟩ := Fault.unsupported.inj same
  apply differs
  rw [← texts, String.toList_append]
  exact List.prefix_append _ _

lemma not_isMisplaced_unknownFault (category : String) (tag : Option String)
    (place : Option Location) : ¬ IsMisplaced (unknownFault category tag place) := by
  cases tag with
  | none => exact not_isMisplaced (by decide)
  | some tag =>
    simp only [unknownFault, String.append_assoc]
    exact not_isMisplaced (by decide)

mutual

theorem ExprNode.lower_not_misplaced : ∀ (node : ExprNode) {fault : Fault},
    node.lower = .error fault → ¬ IsMisplaced fault
  | .add left right _, fault, h => by
    rw [ExprNode.lower] at h
    obtain left_fails | ⟨_, _, h⟩ := except_bind_error_iff.mp h
    · exact ExprNode.lower_not_misplaced left left_fails
    · obtain right_fails | ⟨_, _, made⟩ := except_bind_error_iff.mp h
      · exact ExprNode.lower_not_misplaced right right_fails
      · cases made
  | .binary symbol left right _, fault, h => by
    rw [ExprNode.lower] at h
    split at h
    · cases h
      rw [String.append_assoc]
      exact not_isMisplaced (by decide)
    · obtain left_fails | ⟨_, _, h⟩ := except_bind_error_iff.mp h
      · exact ExprNode.lower_not_misplaced left left_fails
      · obtain right_fails | ⟨_, _, made⟩ := except_bind_error_iff.mp h
        · exact ExprNode.lower_not_misplaced right right_fails
        · cases made
  | .assign symbol target value _, fault, h => by
    rw [ExprNode.lower] at h
    split at h
    · cases h
      rw [String.append_assoc]
      exact not_isMisplaced (by decide)
    · obtain target_fails | ⟨_, _, h⟩ := except_bind_error_iff.mp h
      · exact ExprNode.lower_not_misplaced target target_fails
      · obtain value_fails | ⟨_, _, made⟩ := except_bind_error_iff.mp h
        · exact ExprNode.lower_not_misplaced value value_fails
        · cases made
  | .const _ _, fault, h => by cases h
  | .call callee args _, fault, h => by
    rw [ExprNode.lower] at h
    obtain callee_fails | ⟨_, _, h⟩ := except_bind_error_iff.mp h
    · exact ExprNode.lower_not_misplaced callee callee_fails
    · obtain args_fail | ⟨_, _, made⟩ := except_bind_error_iff.mp h
      · exact ExprNode.lowerAll_not_misplaced args args_fail
      · cases made
  | .var _ _, fault, h => by cases h
  | .unknown tag place, fault, h => by
    cases h
    exact not_isMisplaced_unknownFault _ tag place

theorem ExprNode.lowerAll_not_misplaced : ∀ (nodes : List ExprNode) {fault : Fault},
    ExprNode.lowerAll nodes = .error fault → ¬ IsMisplaced fault
  | [], fault, h => by cases h
  | node :: rest, fault, h => by
    rw [ExprNode.lowerAll] at h
    obtain first_fails | ⟨_, _, h⟩ := except_bind_error_iff.mp h
    · exact ExprNode.lower_not_misplaced node first_fails
    · obtain others_fail | ⟨_, _, made⟩ := except_bind_error_iff.mp h
      · exact ExprNode.lowerAll_not_misplaced rest others_fail
      · cases made

end

lemma VarNode.lowerAll_not_misplaced {nodes : List VarNode} {fault : Fault}
    (h : VarNode.lowerAll nodes = .error fault) : ¬ IsMisplaced fault := by
  induction nodes with
  | nil => cases h
  | cons node rest ih =>
    obtain first_fails | ⟨_, _, h⟩ := except_bind_error_iff.mp h
    · unfold VarNode.lower at first_fails
      split at first_fails
      · cases first_fails
      · obtain init_fails | ⟨_, _, made⟩ := except_bind_error_iff.mp first_fails
        · exact ExprNode.lower_not_misplaced _ init_fails
        · cases made
    · obtain others_fail | ⟨_, _, made⟩ := except_bind_error_iff.mp h
      · exact ih others_fail
      · cases made

lemma lowerDecl_not_misplaced {type : String} {vars : List VarNode} {place : Option Location}
    {fault : Fault} (h : lowerDecl type vars place = .error fault) : ¬ IsMisplaced fault := by
  obtain vars_fail | ⟨_, _, made⟩ := except_bind_error_iff.mp h
  · exact VarNode.lowerAll_not_misplaced vars_fail
  · cases made

mutual

/-- Only a declaration gives the fault of a misplaced one. -/
theorem StmtNode.lower_not_misplaced : ∀ (node : StmtNode), ¬ node.IsDecl → ∀ {fault : Fault},
    node.lower = .error fault → ¬ IsMisplaced fault
  | .block stmts _, _, fault, h => by
    rw [StmtNode.lower] at h
    obtain list_fails | ⟨_, _, made⟩ := except_bind_error_iff.mp h
    · exact (StmtNode.lists_not_misplaced stmts fault).1 list_fails
    · cases made
  | .expr value _, _, fault, h => by
    rw [StmtNode.lower] at h
    obtain value_fails | ⟨_, _, made⟩ := except_bind_error_iff.mp h
    · exact ExprNode.lower_not_misplaced value value_fails
    · cases made
  | .ret none _, _, fault, h => by cases h
  | .ret (some value) _, _, fault, h => by
    rw [StmtNode.lower, lowerReturn] at h
    obtain value_fails | ⟨_, _, made⟩ := except_bind_error_iff.mp h
    · exact ExprNode.lower_not_misplaced value value_fails
    · cases made
  | .decl _ _ _, statement, fault, h => absurd trivial statement
  | .unknown tag place, _, fault, h => by
    cases h
    exact not_isMisplaced_unknownFault _ tag place

/-- A list never gives this fault. -/
theorem StmtNode.lists_not_misplaced : ∀ (nodes : List StmtNode) (fault : Fault),
    (StmtNode.lowerList nodes = .error fault → ¬ IsMisplaced fault) ∧
      (StmtNode.lowerTail nodes = .error fault → ¬ IsMisplaced fault)
  | [], fault => ⟨fun h => (by cases h), fun h => (by cases h)⟩
  | node :: rest, fault => by
    obtain ⟨list, tail⟩ := StmtNode.lists_not_misplaced rest fault
    cases alone : node.lowerAlone with
    | error found =>
      have harmless : ¬ IsMisplaced found := by
        by_cases declaration : node.IsDecl
        · obtain ⟨type, vars, place, rfl⟩ := isDecl_iff.mp declaration
          exact lowerDecl_not_misplaced (except_map_error_iff.mp alone)
        · rw [lowerAlone_of_not_isDecl declaration] at alone
          exact StmtNode.lower_not_misplaced node declaration (except_map_error_iff.mp alone)
      obtain ⟨list_fails, tail_fails⟩ := lower_cons_error alone rest
      rw [list_fails, tail_fails]
      exact ⟨fun h => Except.error.inj h ▸ harmless, fun h => Except.error.inj h ▸ harmless⟩
    | ok part =>
      cases part with
      | inl decl =>
        rw [lowerList_cons_inl alone, lowerTail_cons_inl alone, except_map_error_iff,
          except_map_error_iff]
        exact ⟨list, list⟩
      | inr stmt =>
        rw [lowerList_cons_inr alone, lowerTail_cons_inr alone, except_map_error_iff,
          except_map_error_iff]
        exact ⟨tail, tail⟩

end

lemma lowerBlock_not_misplaced {nodes : List StmtNode} {span : Span} {fault : Fault}
    (h : lowerBlock nodes span = .error fault) : ¬ IsMisplaced fault := by
  obtain list_fails | ⟨_, _, made⟩ := except_bind_error_iff.mp h
  · exact (StmtNode.lists_not_misplaced nodes fault).1 list_fails
  · cases made

lemma DeclNode.lowerAll_not_misplaced {nodes : List DeclNode} {fault : Fault}
    (h : DeclNode.lowerAll nodes = .error fault) : ¬ IsMisplaced fault := by
  induction nodes with
  | nil => cases h
  | cons node rest ih =>
    obtain first_fails | ⟨_, _, h⟩ := except_bind_error_iff.mp h
    · cases node with
      | function f =>
        obtain function_fails | ⟨_, _, made⟩ := except_bind_error_iff.mp first_fails
        · obtain body_fails | ⟨_, _, made⟩ := except_bind_error_iff.mp function_fails
          · exact lowerBlock_not_misplaced body_fails
          · cases made
        · cases made
      | unknown tag place =>
        cases first_fails
        exact not_isMisplaced_unknownFault _ tag place
    · obtain others_fail | ⟨_, _, made⟩ := except_bind_error_iff.mp h
      · exact ih others_fail
      · cases made

lemma readModule_not_misplaced {root : Json} {fault : Fault} (h : readModule root = .error fault) :
    ¬ IsMisplaced fault := by
  unfold readModule at h
  split at h
  · cases h
    exact not_isMisplaced (by decide)
  · obtain items_fail | ⟨_, _, made⟩ := except_bind_error_iff.mp h
    · exact DeclNode.lowerAll_not_misplaced items_fail
    · cases made

/-- A list of statements loses, doubles and moves nothing. If all its nodes can be lowered, its
block has the declarations that the list begins with and the statements behind them, each in order,
and behind these the block of the remainder, if there is a remainder. Otherwise the fault is that of
the first node that cannot be lowered. No list and no tree gives the fault of a misplaced
declaration. -/
theorem lowerBlock_divides_list (nodes : List StmtNode) (span : Span) :
    nodes = opening nodes ++ statements nodes ++ remainder nodes ∧
    ((∀ node ∈ nodes, node.Lowers) → ∃ decls stmts nested,
      List.Forall₂ (fun node decl => node.lowerAlone = .ok (.inl decl)) (opening nodes) decls ∧
      List.Forall₂ (fun node stmt => node.lowerAlone = .ok (.inr stmt)) (statements nodes) stmts ∧
      Nests (remainder nodes) nested ∧
      lowerBlock nodes span = .ok ⟨decls, stmts ++ nested, span⟩) ∧
    (∀ before node after fault, nodes = before ++ node :: after →
      (∀ other ∈ before, other.Lowers) → node.lowerAlone = .error fault →
      lowerBlock nodes span = .error fault) ∧
    ∀ place, lowerBlock nodes span ≠ .error (.unsupported "misplaced declaration" place) ∧
      ∀ root, readModule root ≠ .error (.unsupported "misplaced declaration" place) := by
  refine ⟨?_, ?_, ?_, ?_⟩
  · rw [List.append_assoc, opening, statements, remainder, List.takeWhile_append_dropWhile,
      List.takeWhile_append_dropWhile]
  · intro each
    obtain ⟨decls, stmts, run, tail, list⟩ := lowerList_divides each
    have behind : ∀ node ∈ nodes.dropWhile (·.IsDecl), node.Lowers := fun node member =>
      each node ((List.dropWhile_sublist _).subset member)
    obtain ⟨found, nested, others, nests, divided⟩ := lowerTail_divides behind
    rw [divided] at tail
    cases tail
    refine ⟨decls, found, nested, run, others, nests, ?_⟩
    rw [lowerBlock, list]
    rfl
  · intro before node after fault split each fails
    rw [lowerBlock, split, (fails_at_first each fails after).1]
    rfl
  · intro place
    exact ⟨fun h => lowerBlock_not_misplaced h ⟨place, rfl⟩,
      fun root h => readModule_not_misplaced h ⟨place, rfl⟩⟩

end MiniC.Declarative
