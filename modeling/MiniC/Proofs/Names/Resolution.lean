import MiniC.Proofs.Names.Hoisting

/-!
# What emitted identifiers mean

In an emitted function all variables are on one level, so a name means the variable of that name or
else a function of the module. The identifier of a site means that site and the identifier of a
function means that function, and no other identifier occurs: hoisting and renaming keep what the
nearest block gave.
-/

namespace MiniC

namespace Estree

namespace Expr

mutual

/-- The identifiers that stand in an expression, keys of objects apart. -/
def idents : Expr → List String
  | .ident name => [name]
  | .num _ => []
  | .str _ => []
  | .binary _ left right => idents left ++ idents right
  | .assign left right => idents left ++ idents right
  | .call callee args => idents callee ++ identsAll args
  | .object properties => identsOf properties

def identsAll : List Expr → List String
  | [] => []
  | e :: rest => idents e ++ identsAll rest

def identsOf : List (String × Expr) → List String
  | [] => []
  | (_, value) :: rest => idents value ++ identsOf rest

end

end Expr

namespace Stmt

mutual

/-- The identifiers that stand in a statement, those that are declared included. -/
def idents : Stmt → List String
  | .function name params body => name :: params ++ identsAll body
  | .block body => identsAll body
  | .var declarators => declarators.flatMap fun d => d.1 :: d.2.idents
  | .expr value => value.idents
  | .ret value => value.elim [] Expr.idents

def identsAll : List Stmt → List String
  | [] => []
  | s :: rest => idents s ++ identsAll rest

end

lemma identsAll_append (first second : List Stmt) :
    identsAll (first ++ second) = identsAll first ++ identsAll second := by
  induction first with
  | nil => rfl
  | cons s rest ih => simp [identsAll, ih]

end Stmt

end Estree

variable {functions : List String} {names : Nat → String}

/-! ## Lookup on one level -/

/-- The name of a site means that site. -/
lemma FunctionMirror.ofEmitted?_site {f : Source.Function} {params : List String}
    {vars : List (String × Estree.Expr)} {stmts : List Estree.Stmt}
    (mirror : FunctionMirror functions names f params vars stmts) {i : Nat}
    (bound : i < f.sites.length) :
    Referent.ofEmitted? functions (params ++ vars.map (·.1)) (names i) = some (.site i) := by
  have position : ((List.range f.sites.length).map names).idxOf? (names i) = some i := by
    refine List.findIdx?_eq_some_iff_getElem.mpr ⟨by simpa using bound, by simp, ?_⟩
    intro j before same
    simp only [List.getElem_map, List.getElem_range, beq_iff_eq] at same
    have equal := mirror.distinct j i (Nat.lt_trans before bound) bound same
    omega
  rw [Referent.ofEmitted?, mirror.sites, position]

/-- No variable of a function hides a function of the module. -/
lemma FunctionMirror.ofEmitted?_function {f : Source.Function} {params : List String}
    {vars : List (String × Estree.Expr)} {stmts : List Estree.Stmt}
    (mirror : FunctionMirror functions names f params vars stmts) {g : String}
    (member : g ∈ functions) :
    Referent.ofEmitted? functions (params ++ vars.map (·.1)) g = some (.function g) := by
  have absent : (params ++ vars.map (·.1)).idxOf? g = none := by
    refine List.findIdx?_eq_none_iff.mpr ?_
    intro x hx
    obtain ⟨i, bound, rfl⟩ := mirror.mem_locals_iff.mp hx
    have differs : names i ≠ g := fun same => mirror.apart i bound (same ▸ member)
    simpa using differs
  simp [Referent.ofEmitted?, absent, member]

/-! ## No other identifier occurs -/

/-- A name is the name of one of the first sites, or of a function of the module. -/
def IsKnown (functions : List String) (names : Nat → String) (count : Nat) (name : String) : Prop :=
  (∃ i < count, names i = name) ∨ name ∈ functions

lemma Referent.isKnown_identifier {frames : Frames Nat} {count : Nat} (h : frames.Within count)
    {name : String} {r : Referent} (means : Referent.ofSource? functions frames name = some r) :
    IsKnown functions names count (r.identifier names) := by
  rcases Referent.ofSource?_eq_some means with ⟨index, nearest, rfl⟩ | ⟨_, member, rfl⟩
  · exact .inl ⟨index, h _ (Frames.mem_entries_of_nearest nearest), rfl⟩
  · exact .inr member

mutual

theorem ExprMirror.isKnown {frames : Frames Nat} {count : Nat} (h : frames.Within count) :
    ∀ {e : Source.Expr} {x : Estree.Expr}, ExprMirror functions names frames e x →
      ∀ name ∈ x.idents, IsKnown functions names count name
  | _, _, .const _ _, name, member => by cases member
  | _, _, .ident means, name, member => by
    cases List.mem_singleton.mp member
    exact Referent.isKnown_identifier h means
  | _, _, .add hl hr, name, member => by
    rcases List.mem_append.mp member with left | right
    · exact hl.isKnown h name left
    · exact hr.isKnown h name right
  | _, _, .assign hl hr, name, member => by
    rcases List.mem_append.mp member with left | right
    · exact hl.isKnown h name left
    · exact hr.isKnown h name right
  | _, _, .call hc has, name, member => by
    rcases List.mem_append.mp member with callee | args
    · exact hc.isKnown h name callee
    · exact has.isKnown h name args

theorem ExprsMirror.isKnown {frames : Frames Nat} {count : Nat} (h : frames.Within count) :
    ∀ {es : List Source.Expr} {xs : List Estree.Expr}, ExprsMirror functions names frames es xs →
      ∀ name ∈ Estree.Expr.identsAll xs, IsKnown functions names count name
  | _, _, .nil, name, member => by cases member
  | _, _, .cons first others, name, member => by
    rcases List.mem_append.mp member with here | later
    · exact first.isKnown h name here
    · exact others.isKnown h name later

end

lemma Returned.idents_eq {x r : Estree.Expr} (h : Returned x r) : r.idents = x.idents := by
  cases h with
  | bare _ _ => rfl
  | coerced => exact List.append_nil _

mutual

theorem StmtMirror.isKnown : ∀ {frames : Frames Nat} {next count : Nat} {stmt : Source.Stmt}
    {x : Estree.Stmt}, StmtMirror functions names frames next stmt x → frames.Within next →
      next + stmt.declarators.length ≤ count →
      ∀ name ∈ x.idents, IsKnown functions names count name
  | _, next, count, _, _, .expr value, within, room, name, member =>
    value.isKnown (within.mono (by omega)) name member
  | _, next, count, _, _, .ret value returned, within, room, name, member =>
    value.isKnown (within.mono (by omega)) name (returned.idents_eq ▸ member)
  | _, next, count, .block ⟨decls, _, _⟩ _, _, .block body, within, room, name, member => by
    have inside := within.push ((Source.declaratorsOf decls).map (·.name))
    rw [List.length_map] at inside
    refine body.isKnown inside ?_ name member
    simpa [Source.Stmt.declarators, Source.Block.declarators, Nat.add_assoc] using room

theorem StmtsMirror.isKnown : ∀ {frames : Frames Nat} {next count : Nat}
    {stmts : List Source.Stmt} {xs : List Estree.Stmt},
      StmtsMirror functions names frames next stmts xs → frames.Within next →
      next + (Source.Stmt.declaratorsAll stmts).length ≤ count →
      ∀ name ∈ Estree.Stmt.identsAll xs, IsKnown functions names count name
  | _, _, _, _, _, .nil, _, _, name, member => by cases member
  | _, next, count, _, _, .cons first others, within, room, name, member => by
    simp only [Source.Stmt.declaratorsAll, List.length_append] at room
    rcases List.mem_append.mp member with here | later
    · exact first.isKnown within (by omega) name here
    · exact others.isKnown (within.mono (by omega)) (by omega) name later

end

lemma identsAll_selfCoercions (params : List String) :
    ∀ name ∈ Estree.Stmt.identsAll (params.map Estree.selfCoercion), name ∈ params := by
  induction params with
  | nil => simp [Estree.Stmt.identsAll]
  | cons param rest ih =>
    intro name member
    rcases List.mem_append.mp member with here | later
    · have same : name = param := by
        simpa [Estree.selfCoercion, Typed.coerceSigned, Estree.Stmt.idents, Estree.Expr.idents]
          using here
      simp [same]
    · exact List.mem_cons_of_mem _ (ih name later)

lemma identsAll_hoisted {declarators : List Source.Declarator}
    {vars : List (String × Estree.Expr)}
    (hoists : List.Forall₂ Source.Declarator.Hoists declarators vars) :
    ∀ name ∈ Estree.Stmt.identsAll (Estree.hoisted vars), name ∈ vars.map (·.1) := by
  intro name member
  have declared : name ∈ vars.flatMap fun d => d.1 :: d.2.idents := by
    unfold Estree.hoisted at member
    split at member
    · cases member
    · simpa [Estree.Stmt.identsAll, Estree.Stmt.idents] using member
  obtain ⟨var, hvar, inside⟩ := List.mem_flatMap.mp declared
  obtain ⟨v, value⟩ := Source.Declarator.literal_of_hoists hoists var hvar
  rw [value, Estree.Expr.idents, List.mem_singleton] at inside
  exact List.mem_map.mpr ⟨var, hvar, inside.symm⟩

/-- Every identifier of an emitted function is one of its variables or a function. -/
theorem FunctionMirror.mem_idents {f : Source.Function} {params : List String}
    {vars : List (String × Estree.Expr)} {stmts : List Estree.Stmt}
    (mirror : FunctionMirror functions names f params vars stmts) {name : String}
    (member : name ∈ Estree.Stmt.identsAll (Estree.functionBody params vars stmts)) :
    name ∈ params ++ vars.map (·.1) ∨ name ∈ functions := by
  rw [Estree.functionBody, Estree.Stmt.identsAll_append, Estree.Stmt.identsAll_append] at member
  rcases List.mem_append.mp member with top | body
  · rcases List.mem_append.mp top with coerced | declared
    · exact .inl (List.mem_append_left _ (identsAll_selfCoercions params name coerced))
    · exact .inl (List.mem_append_right _ (identsAll_hoisted mirror.hoists name declared))
  · have empty : Frames.Within [] 0 := by
      intro site member
      cases member
    have within := (empty.push f.paramNames).push ((Source.declaratorsOf f.body.decls).map (·.name))
    simp only [Nat.zero_add, List.length_map] at within
    have room := Nat.le_of_eq f.length_sites.symm
    rcases mirror.body.isKnown within room name body with site | function
    · exact .inl (mirror.mem_locals_iff.mpr site)
    · exact .inr function

namespace Source

/-- Hoisting and renaming keep what identifiers mean. The sites of each function of an accepted
module have names that differ from each other and from all functions; the parameters and variables
of the emitted function are these names in the order of the sites; each identifier is emitted under
the name of what the nearest block gives for it (the `body` of the mirror); looking that name up on
the one level of the emitted function gives the same site or function back; and no identifier of the
emitted function is unbound. -/
theorem Module.compile_keeps_resolution {m : Module} {options : Options}
    {program : Estree.Program} (accepted : m.compile options = .ok program) {f : Function}
    (member : f ∈ m.functions) :
    ∃ (params : List String) (vars : List (String × Estree.Expr)) (stmts : List Estree.Stmt)
      (names : Nat → String),
      program.function? f.name = some (params, Estree.functionBody params vars stmts) ∧
      FunctionMirror m.functionNames names f params vars stmts ∧
      (∀ i < f.sites.length, Referent.ofEmitted? m.functionNames (params ++ vars.map (·.1))
        (names i) = some (.site i)) ∧
      (∀ g ∈ m.functionNames, Referent.ofEmitted? m.functionNames (params ++ vars.map (·.1))
        g = some (.function g)) ∧
      ∀ name ∈ Estree.Stmt.identsAll (Estree.functionBody params vars stmts),
        (Referent.ofEmitted? m.functionNames (params ++ vars.map (·.1)) name).isSome := by
  obtain ⟨params, vars, stmts, names, mirror, emitted⟩ := Module.compile_mirrors accepted member
  refine ⟨params, vars, stmts, names, emitted, mirror, fun i => mirror.ofEmitted?_site,
    fun g => mirror.ofEmitted?_function, ?_⟩
  intro name occurs
  rcases mirror.mem_idents occurs with site | function
  · obtain ⟨i, bound, rfl⟩ := mirror.mem_locals_iff.mp site
    simp [mirror.ofEmitted?_site bound]
  · simp [mirror.ofEmitted?_function function]

/-- `int inc(int x) { return x + 1; }` -/
def Function.increment : Function :=
  let sum : Expr := .binary .add (.ident "x" .unknown) (.const "1" .unknown) .unknown
  ⟨"inc", [.int], [⟨some "x", [.int], .unknown⟩], ⟨[], [.ret (some sum) .unknown], .unknown⟩,
    .unknown⟩

/-- `int f(int x) { int y = 5; { int x, inc = 7; y = x = inc; } return inc(y) + x; }` -/
def Function.shadowing : Function :=
  let x : Expr := .ident "x" .unknown
  let y : Expr := .ident "y" .unknown
  let inc : Expr := .ident "inc" .unknown
  let inner : Block := ⟨[⟨[.int], [⟨"x", none, .unknown⟩,
      ⟨"inc", some (.const "7" .unknown), .unknown⟩], .unknown⟩],
    [.expr (.assign .plain y (.assign .plain x inc .unknown) .unknown) .unknown], .unknown⟩
  let result : Expr := .binary .add (.call inc [y] .unknown) x .unknown
  ⟨"f", [.int], [⟨some "x", [.int], .unknown⟩],
    ⟨[⟨[.int], [⟨"y", some (.const "5" .unknown), .unknown⟩], .unknown⟩],
      [.block inner .unknown, .ret (some result) .unknown], .unknown⟩, .unknown⟩

def Module.shadowing : Module :=
  ⟨[.function .increment, .function .shadowing], .unknown⟩

lemma Module.shadowing_accepted : (Module.shadowing.compile .default).isOk := by
  decide +kernel

/-- Two variables of one function are called `x` and one is called like the other function. -/
theorem Module.shadowing_keeps_resolution :
    ∃ program, Module.shadowing.compile .default = .ok program ∧
      Function.shadowing ∈ Module.shadowing.functions ∧
      Function.shadowing.sites = ["x", "y", "x", "inc"] ∧
      ∃ params vars stmts names,
        program.function? "f" = some (params, Estree.functionBody params vars stmts) ∧
        FunctionMirror ["inc", "f"] names Function.shadowing params vars stmts ∧
        ∀ i < 4, Referent.ofEmitted? ["inc", "f"] (params ++ vars.map (·.1)) (names i) =
          some (.site i) := by
  obtain ⟨program, accepted⟩ := exists_ok_of_isOk Module.shadowing_accepted
  have member : Function.shadowing ∈ Module.shadowing.functions :=
    List.mem_cons_of_mem _ List.mem_cons_self
  obtain ⟨params, vars, stmts, names, emitted, mirror, sites, _⟩ :=
    Module.compile_keeps_resolution accepted member
  exact ⟨program, accepted, member, rfl, params, vars, stmts, names, emitted, mirror, sites⟩

end Source

end MiniC
