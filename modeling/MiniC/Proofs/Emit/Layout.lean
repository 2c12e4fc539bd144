import MiniC.Proofs.Emit.Sites

/-!
# The layout of emitted modules

What an emitted program looks like, for every typed module: one function around the module, in it
the directive, the functions and the object of all functions, and in each function the annotations
of its parameters, at most one declaration of variables, and its statements. Statements are compared
at every depth at once, by listing a statement before the statements inside it. What a module of
checked functions has beyond that is in `Function.Annotated`.
-/

namespace MiniC

namespace Estree

mutual

/-- A statement and all statements inside it, in the order they are written. -/
def Stmt.nested : Stmt → List Stmt
  | .function name params body => .function name params body :: Stmt.nestedAll body
  | .block body => .block body :: Stmt.nestedAll body
  | s => [s]

def Stmt.nestedAll : List Stmt → List Stmt
  | [] => []
  | s :: rest => s.nested ++ Stmt.nestedAll rest

end

/-- The statement declares variables or a function. -/
def Stmt.IsDeclaration : Stmt → Prop
  | .function _ _ _ => True
  | .var _ => True
  | _ => False

/-- The expression is of signed type by its form: a literal in the range, or `x|0`. -/
def Expr.ShowsSigned (e : Expr) : Prop :=
  (∃ n : Int64, e = .num n ∧ -0x80000000 ≤ n.toInt ∧ n.toInt ≤ 0x7fffffff) ∨
    ∃ x, e = .binary .bitOr x (.num 0)

/-- Every return among the statements, at any depth, gives a value of signed form. -/
def Stmt.ReturnSigned (stmts : List Stmt) : Prop :=
  ∀ value, .ret value ∈ Stmt.nestedAll stmts → ∃ e, value = some e ∧ e.ShowsSigned

end Estree

namespace Typed

mutual

/-- A statement and all statements inside it, in the order they are written. -/
def Stmt.nested : Stmt → List Stmt
  | .block ⟨declarators, stmts⟩ => .block ⟨declarators, stmts⟩ :: Stmt.nestedAll stmts
  | s => [s]

def Stmt.nestedAll : List Stmt → List Stmt
  | [] => []
  | s :: rest => s.nested ++ Stmt.nestedAll rest

end

/-- What is emitted for one statement, apart from the statements inside it. -/
def Stmt.EmittedAs (result : Ty) : Stmt → Estree.Stmt → Prop
  | .expr value, x => x = .expr value.emit
  | .ret value, x => ∃ returned, x = .ret (some returned) ∧
      (returned = value.emit ∨ returned = .binary .bitOr value.emit (.num 0)) ∧
      (result = .int ∨ result = .signed → returned.ShowsSigned)
  | .block body, x => ∃ inner, x = .block inner ∧ inner.length = body.stmts.length

/-- What is emitted for a parameter: `p = p|0` where it is meant to be signed, else `p = p`. -/
def Param.AnnotatedBy (p : Param) (s : Estree.Stmt) : Prop :=
  (p.intended = some .signed → s = Estree.selfCoercion p.name) ∧
    (p.intended ≠ some .signed → s = .expr (.assign (.ident p.name) (.ident p.name)))

/-- The parts of an emitted function. -/
structure Function.Layout (f : Function) (annotations : List Estree.Stmt)
    (vars : List (String × Estree.Expr)) (stmts : List Estree.Stmt) : Prop where
  annotated : List.Forall₂ Param.AnnotatedBy f.params annotations
  /-- The variables are those of all blocks, in the order they are written and each once. -/
  declared : ∃ declarators, f.body.Declares declarators ∧
    vars = declarators.map fun d => (d.name, d.init.emit)
  /-- There are variables exactly where some block declares one. -/
  needed : vars ≠ [] ↔ ∃ site d, f.body.declarator? site = some d
  /-- The statements are emitted one by one, at every depth. -/
  emitted : List.Forall₂ (Stmt.EmittedAs f.result) (Stmt.nestedAll f.body.stmts)
    (Estree.Stmt.nestedAll stmts)
  flat : ∀ s ∈ Estree.Stmt.nestedAll stmts, ¬ s.IsDeclaration
  returns : f.result = .int ∨ f.result = .signed → Estree.Stmt.ReturnSigned stmts

/-- What is known besides of the parts of a function that was checked, in a module with the given
functions. -/
structure Function.Annotated (f : Function) (functions : List String)
    (annotations : List Estree.Stmt) (vars : List (String × Estree.Expr))
    (stmts : List Estree.Stmt) : Prop where
  coerced : annotations = f.params.map fun p => Estree.selfCoercion p.name
  returns : Estree.Stmt.ReturnSigned stmts
  literals : ∀ var ∈ vars, ∃ n : Int64, var.2 = .num n ∧ 0 ≤ n.toInt ∧ n.toInt < 0x100000000
  distinct : (f.params.map (·.name) ++ vars.map (·.1)).Nodup
  apart : ∀ x ∈ f.params.map (·.name) ++ vars.map (·.1), x ∉ functions

/-! ## Statements -/

lemma Expr.signedLiteral?_eq_some {e : Expr} {n : Int64} (h : e.signedLiteral? = some n) :
    e.emit = .num n ∧ -0x80000000 ≤ n.toInt ∧ n.toInt ≤ 0x7fffffff := by
  obtain ⟨constant, range⟩ := Option.filter_eq_some_iff.mp h
  cases e with
  | int value ty =>
    cases constant
    exact ⟨rfl, by simpa using range⟩
  | var _ _ => cases constant
  | add _ _ _ => cases constant
  | assign _ _ _ => cases constant
  | call _ _ _ => cases constant

/-- A returned value is emitted as it is where it is a literal in the range, and is coerced to the
result of the function otherwise. -/
lemma Expr.emitReturned_cases (e : Expr) (result : Ty) :
    (∃ n : Int64, e.emitReturned result = e.emit ∧ e.emit = .num n ∧
      -0x80000000 ≤ n.toInt ∧ n.toInt ≤ 0x7fffffff) ∨
      e.emitReturned result = coerce e.emit result.intended := by
  unfold Expr.emitReturned
  cases literal : e.signedLiteral? with
  | none => exact .inr rfl
  | some n => exact .inl ⟨n, rfl, Expr.signedLiteral?_eq_some literal⟩

lemma Stmt.ret_emittedAs (value : Expr) (result : Ty) :
    (Stmt.ret value).EmittedAs result ((Stmt.ret value).emit result) := by
  refine ⟨value.emitReturned result, rfl, ?_, ?_⟩
  · rcases value.emitReturned_cases result with ⟨_, same, _⟩ | coerced
    · exact .inl same
    · rw [coerced]
      unfold coerce
      split
      · exact .inr rfl
      · exact .inl rfl
  · intro integer
    rcases value.emitReturned_cases result with ⟨n, same, literal, low, high⟩ | coerced
    · exact .inl ⟨n, same.trans literal, low, high⟩
    · have signed : result.intended = some .signed := by
        rcases integer with rfl | rfl <;> rfl
      rw [coerced, coerce, if_pos signed]
      exact .inr ⟨value.emit, rfl⟩

lemma Stmt.length_emitAll (result : Ty) (stmts : List Stmt) :
    (Stmt.emitAll result stmts).length = stmts.length := by
  induction stmts with
  | nil => rfl
  | cons s rest ih => rw [Stmt.emitAll, List.length_cons, List.length_cons, ih]

mutual

theorem Stmt.nested_emit (result : Ty) : ∀ s : Stmt,
    List.Forall₂ (Stmt.EmittedAs result) s.nested (s.emit result).nested
  | .expr _ => .cons rfl .nil
  | .ret value => .cons (Stmt.ret_emittedAs value result) .nil
  | .block ⟨_, stmts⟩ =>
    .cons ⟨_, rfl, Stmt.length_emitAll result stmts⟩ (Stmt.nestedAll_emitAll result stmts)

theorem Stmt.nestedAll_emitAll (result : Ty) : ∀ stmts : List Stmt,
    List.Forall₂ (Stmt.EmittedAs result) (Stmt.nestedAll stmts)
      (Estree.Stmt.nestedAll (Stmt.emitAll result stmts))
  | [] => .nil
  | s :: rest => List.rel_append (Stmt.nested_emit result s) (Stmt.nestedAll_emitAll result rest)

end

lemma Stmt.EmittedAs.not_isDeclaration {result : Ty} {s : Stmt} {x : Estree.Stmt}
    (h : s.EmittedAs result x) : ¬ x.IsDeclaration := by
  cases s with
  | expr value =>
    rw [show x = .expr value.emit from h]
    exact id
  | ret value =>
    obtain ⟨returned, rfl, _⟩ := h
    exact id
  | block body =>
    obtain ⟨inner, rfl, _⟩ := h
    exact id

lemma Stmt.EmittedAs.returnsSigned {result : Ty} {s : Stmt} {value : Option Estree.Expr}
    (h : s.EmittedAs result (.ret value)) (integer : result = .int ∨ result = .signed) :
    ∃ e, value = some e ∧ e.ShowsSigned := by
  cases s with
  | expr value => cases h
  | ret value =>
    obtain ⟨returned, same, _, signed⟩ := h
    cases same
    exact ⟨returned, rfl, signed integer⟩
  | block body =>
    obtain ⟨inner, same, _⟩ := h
    cases same

/-! ## Functions -/

lemma Param.annotatedBy_emit (p : Param) : p.AnnotatedBy p.emit := by
  constructor
  · intro signed
    simp [Param.emit, coerce, signed, Estree.selfCoercion]
  · intro other
    simp [Param.emit, coerce, other]

lemma Block.emitVariables_toList (block : Block) :
    block.emitVariables.toList = Estree.hoisted block.variables := by
  unfold Block.emitVariables Estree.hoisted
  split <;> rfl

lemma Function.emit_eq (f : Function) :
    f.emit = .function f.name (f.params.map (·.name))
      (f.params.map Param.emit ++ Estree.hoisted f.body.variables ++ f.body.emitStmts f.result) := by
  rw [Function.emit, Function.emitBody, Block.emitVariables_toList]

theorem Function.layout (f : Function) :
    f.Layout (f.params.map Param.emit) f.body.variables (f.body.emitStmts f.result) := by
  have emitted := Stmt.nestedAll_emitAll f.result f.body.stmts
  refine ⟨?_, ⟨f.body.hoisted, f.body.declares_hoisted, f.body.variables_eq⟩, ?_, emitted, ?_, ?_⟩
  · rw [List.forall₂_map_right_iff, List.forall₂_same]
    exact fun p _ => p.annotatedBy_emit
  · rw [← f.body.hoisted_ne_nil_iff, f.body.variables_eq, ne_eq, List.map_eq_nil_iff]
  · exact forall_of_forall₂ emitted fun _ _ made => made.not_isDeclaration
  · intro integer value member
    exact forall_of_forall₂ (P := fun x => ∀ value, x = .ret value → ∃ e, value = some e ∧
      e.ShowsSigned) emitted (fun _ _ made _ same => (same ▸ made).returnsSigned integer) _ member
      value rfl

/-- A function that is well typed in its module is annotated throughout. -/
theorem Function.WellTyped.annotated {functions : List (String × Ty)} {f : Function}
    (h : f.WellTyped functions) : f.Annotated (functions.map (·.1)) (f.params.map Param.emit)
      f.body.variables (f.body.emitStmts f.result) := by
  refine ⟨?_, f.layout.returns (.inl h.result), ?_, h.distinct, ?_⟩
  · apply List.map_congr_left
    intro p member
    refine p.annotatedBy_emit.1 ?_
    rw [h.params p member]
    rfl
  · intro var member
    rw [f.body.variables_eq] at member
    obtain ⟨d, hd, rfl⟩ := List.mem_map.mp member
    obtain ⟨n, small, made⟩ := Block.WellTyped.hoisted f.body h.body d hd
    have value : (Int64.ofNat n).toInt = n := Int64.toInt_ofNat_of_lt (by omega)
    refine ⟨Int64.ofNat n, by rw [made]; rfl, ?_, ?_⟩ <;> omega
  · intro x member listed
    obtain ⟨g, hg, rfl⟩ := List.mem_map.mp listed
    have differs := List.lookup_eq_none_iff.mp (h.apart _ member) g hg
    simp at differs

/-! ## Modules -/

/-- Every emitted program is one function without parameters, named by the options. Its body is the
directive, the functions of the module in order, and a return of an object that gives each function
under its own name. The functions are laid out as in `Function.Layout`, and if the module was
checked, as in `Function.Annotated`. -/
theorem Module.emit_layout (m : Module) (options : Options) :
    ∃ functions : List Estree.Stmt,
      m.emit options = ⟨[.function options.moduleName []
        (.expr (.str options.directive) :: functions ++
          [.ret (some (.object (m.functions.map fun f => (f.name, .ident f.name))))])]⟩ ∧
      List.Forall₂ (fun f emitted => ∃ annotations vars stmts,
        emitted = .function f.name (f.params.map (·.name))
          (annotations ++ Estree.hoisted vars ++ stmts) ∧
        f.Layout annotations vars stmts ∧
        ∀ source : Source.Module, source.analyze = .ok m →
          f.Annotated (m.functions.map (·.name)) annotations vars stmts)
        m.functions functions := by
  refine ⟨m.functions.map Function.emit, rfl, ?_⟩
  rw [List.forall₂_map_right_iff, List.forall₂_same]
  intro f member
  refine ⟨_, _, _, f.emit_eq, f.layout, ?_⟩
  intro source accepted
  have wellTyped := (Source.Module.analyze_wellTyped accepted).functions f member
  have names : m.frame.map (·.1) = (m.functions.map (·.name)).reverse := by
    simp [Module.frame, Function.comp_def]
  obtain ⟨coerced, returns, literals, distinct, apart⟩ := wellTyped.annotated
  refine ⟨coerced, returns, literals, distinct, ?_⟩
  intro x inside listed
  exact apart x inside (by rw [names]; exact List.mem_reverse.mpr listed)

end Typed

end MiniC
