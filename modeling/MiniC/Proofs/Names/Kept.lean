import MiniC.Proofs.Names.Resolution
import MiniC.Proofs.Scope.Search

/-!
# Where no name is changed

A name is changed only where it is occupied. So a function whose parameters and variables have
pairwise different names, none of them the name of a function, is emitted under its own names: its
parameters, its variables and every identifier of its statements.
-/

namespace MiniC

open Check (State)

/-! ## Declared names -/

namespace Scope.Unused

variable {scope : Scope} {taken first second : List String}

lemma left (h : scope.Unused taken (first ++ second)) : scope.Unused taken first :=
  ⟨h.1.of_append_left, fun x member => h.2 x (List.mem_append_left _ member)⟩

/-- When the first names are taken, the others still are unused. -/
lemma right (h : scope.Unused taken (first ++ second)) :
    scope.Unused (first.reverse ++ taken) second := by
  obtain ⟨_, distinct, apart⟩ := List.nodup_append.mp h.1
  refine ⟨distinct, fun x member => ?_⟩
  obtain ⟨untaken, hidden⟩ := h.2 x (List.mem_append_right _ member)
  refine ⟨fun listed => ?_, hidden⟩
  rcases List.mem_append.mp listed with earlier | older
  · exact apart x (List.mem_reverse.mp earlier) x member rfl
  · exact untaken older

end Scope.Unused

namespace Source

/-- Declarations of unused names keep them, and what else was unused is so afterwards. -/
lemma Decl.checkAll_keeps {decls : List Decl} {s t : State} {typed : List Typed.Declarator}
    (h : Decl.checkAll decls s = .ok typed t) {rest : List String}
    (unused : s.scope.Unused s.taken ((declaratorsOf decls).map (·.name) ++ rest)) :
    typed.map (·.name) = (declaratorsOf decls).map (·.name) ∧ t.scope.Unused t.taken rest := by
  obtain ⟨inits, declares⟩ := Decl.checkAll_declares h
  have names := Declarator.bindings_names inits
  rw [← names] at unused
  obtain ⟨kept, left⟩ := declares.kept_of_unused unused
  refine ⟨?_, left⟩
  rw [← Declarator.bindings_emitted inits, ← names]
  exact List.map_congr_left kept

mutual

theorem Stmt.check_keeps : ∀ (stmt : Stmt) {s t : State} {typed : Typed.Stmt},
    stmt.check s = .ok typed t → s.scope.Unused s.taken (stmt.declarators.map (·.name)) →
      typed.variables.map (·.1) = stmt.declarators.map (·.name)
  | .expr e span, s, t, typed, h, unused => by
    obtain ⟨_, _, rfl, _⟩ := Stmt.check_expr_ok_iff.mp h
    rfl
  | .ret value span, s, t, typed, h, unused => by
    obtain ⟨_, _, _, _, _, rfl, _⟩ := Stmt.check_ret_ok_iff.mp h
    rfl
  | .block body span, s, t, typed, h, unused => by
    obtain ⟨b, r, checked, rfl, _⟩ := Stmt.check_block_ok_iff.mp h
    -- What is unused in a scope is unused in its fork.
    exact Block.checkHere_keeps body checked unused

theorem Stmt.checkAll_keeps : ∀ (stmts : List Stmt) {s t : State} {typed : List Typed.Stmt},
    Stmt.checkAll stmts s = .ok typed t →
      s.scope.Unused s.taken ((Stmt.declaratorsAll stmts).map (·.name)) →
      (Typed.Stmt.variablesAll typed).map (·.1) = (Stmt.declaratorsAll stmts).map (·.name)
  | [], s, t, typed, h, unused => by
    obtain ⟨rfl, _⟩ := Check.pure_ok_iff.mp h
    rfl
  | stmt :: rest, s, t, typed, h, unused => by
    obtain ⟨first, others, r, hfirst, hrest, rfl⟩ := Stmt.checkAll_cons_ok_iff.mp h
    rw [Stmt.declaratorsAll, List.map_append] at unused ⊢
    have here := Stmt.check_keeps stmt hfirst unused.left
    obtain ⟨scope, takes⟩ := Stmt.check_takes stmt hfirst
    have left := unused.right
    rw [← here, ← takes.taken, ← scope] at left
    rw [Typed.Stmt.variablesAll, List.map_append, here, Stmt.checkAll_keeps rest hrest left]

theorem Block.checkHere_keeps : ∀ (block : Block) {s t : State} {typed : Typed.Block},
    block.checkHere s = .ok typed t →
      s.scope.Unused s.taken (block.declarators.map (·.name)) →
      typed.variables.map (·.1) = block.declarators.map (·.name)
  | ⟨decls, stmts, span⟩, s, t, typed, h, unused => by
    obtain ⟨ds, ss, r, hds, hss, rfl⟩ := Block.checkHere_ok_iff.mp h
    rw [Block.declarators, List.map_append] at unused ⊢
    obtain ⟨declared, left⟩ := Decl.checkAll_keeps hds unused
    have names : (Typed.Block.mk ds ss).variables.map (·.1) =
        ds.map (·.name) ++ (Typed.Stmt.variablesAll ss).map (·.1) := by
      simp [Typed.Block.variables, Typed.Declarator.emit]
    rw [names, declared, Stmt.checkAll_keeps stmts hss left]

end

/-- A function keeps the names of its parameters and variables where they are pairwise different and
nothing of that name is in sight. -/
theorem Function.check_keeps {f : Function} {signature : Signature} {s t : State}
    {typed : Typed.Function} (hsig : f.signature = .ok signature)
    (h : f.check signature s = .ok typed t) (distinct : f.sites.Nodup)
    (hidden : ∀ x ∈ f.sites, s.scope.binding? x = none) :
    typed.params.map (·.name) = f.paramNames ∧
      typed.body.variables.map (·.1) = f.body.declarators.map (·.name) := by
  obtain ⟨_, _, _, paramNames, _⟩ := Function.signature_ok hsig
  obtain ⟨params, body, r, u, hparams, hbody, rfl, _⟩ := Function.check_ok_iff.mp h
  have unused : (f.entry signature s).scope.Unused (f.entry signature s).taken f.sites := by
    refine ⟨distinct, fun x member => ⟨by simp, ?_⟩⟩
    rw [Function.entry_scope, Scope.binding?_forFunction, hidden x member]
  obtain ⟨bindings, declares, names, _, rfl⟩ := declareParams_declares hparams
  rw [paramNames] at names
  rw [Function.sites, ← names] at unused
  obtain ⟨kept, left⟩ := declares.kept_of_unused unused
  refine ⟨?_, Block.checkHere_keeps f.body hbody left⟩
  rw [List.map_map, ← names]
  exact List.map_congr_left kept

/-! ## Identifiers -/

mutual

/-- The identifiers of an expression, from left to right. -/
def Expr.idents : Expr → List String
  | .const _ _ => []
  | .ident name _ => [name]
  | .binary _ left right _ => left.idents ++ right.idents
  | .assign _ target value _ => target.idents ++ value.idents
  | .call callee args _ => callee.idents ++ Expr.identsAll args

def Expr.identsAll : List Expr → List String
  | [] => []
  | e :: rest => e.idents ++ Expr.identsAll rest

end

mutual

/-- The identifiers of a statement, in the order they are written. Initial values are constants and
have none. -/
def Stmt.idents : Stmt → List String
  | .expr value _ => value.idents
  | .ret value _ => value.elim [] Expr.idents
  | .block ⟨_, stmts, _⟩ _ => Stmt.identsAll stmts

def Stmt.identsAll : List Stmt → List String
  | [] => []
  | s :: rest => s.idents ++ Stmt.identsAll rest

end

end Source

variable {functions : List String} {names : Nat → String}

/-- The sites from `next` on have these names. -/
def NamedFrom (names : Nat → String) (next : Nat) (declared : List String) : Prop :=
  ∀ j x, declared[j]? = some x → names (next + j) = x

lemma NamedFrom.append {next : Nat} {first second : List String}
    (h : NamedFrom names next (first ++ second)) :
    NamedFrom names next first ∧ NamedFrom names (next + first.length) second := by
  refine ⟨fun j x found => ?_, fun j x found => ?_⟩
  · have bound := (List.getElem?_eq_some_iff.mp found).1
    exact h j x ((List.getElem?_append_left bound).trans found)
  · rw [Nat.add_assoc]
    refine h (first.length + j) x ?_
    rw [List.getElem?_append_right (Nat.le_add_right _ _), Nat.add_sub_cancel_left, found]

lemma namedFrom_nameAt (declared : List String) :
    NamedFrom (Source.nameAt declared) 0 declared := by
  intro j x found
  simp [Source.nameAt, found]

/-- What is in sight is named as it is looked up. -/
def Frames.Own (frames : Frames Nat) (names : Nat → String) : Prop :=
  ∀ name index, frames.nearest name = some index → names index = name

lemma Frames.Own.push {frames : Frames Nat} (own : frames.Own names) {next : Nat}
    {declared : List String} (named : NamedFrom names next declared) :
    Frames.Own (siteFrame next declared :: frames) names := by
  intro name index found
  rw [Frames.nearest_cons, Option.or_eq_some_iff] at found
  rcases found with here | ⟨_, outer⟩
  · obtain ⟨before, after, split, _⟩ := List.lookup_eq_some_iff.mp here
    have listed : (name, index) ∈ siteFrame next declared := by simp [split]
    rw [siteFrame, List.mem_reverse, List.mk_mem_zipIdx_iff_le_and_getElem?_sub] at listed
    obtain ⟨low, position⟩ := listed
    have same := named _ _ position
    rwa [Nat.add_sub_cancel' low] at same
  · exact own name index outer

lemma Referent.identifier_eq {frames : Frames Nat} (own : frames.Own names) {name : String}
    {r : Referent} (means : Referent.ofSource? functions frames name = some r) :
    r.identifier names = name := by
  rcases Referent.ofSource?_eq_some means with ⟨index, nearest, rfl⟩ | ⟨_, _, rfl⟩
  · exact own name index nearest
  · rfl

mutual

theorem ExprMirror.idents_eq {frames : Frames Nat} (own : frames.Own names) :
    ∀ {e : Source.Expr} {x : Estree.Expr}, ExprMirror functions names frames e x →
      x.idents = e.idents
  | _, _, .const _ _ => rfl
  | _, _, .ident means => congrArg (fun name => [name]) (Referent.identifier_eq own means)
  | _, _, .add hl hr => congrArg₂ (· ++ ·) (hl.idents_eq own) (hr.idents_eq own)
  | _, _, .assign hl hr => congrArg₂ (· ++ ·) (hl.idents_eq own) (hr.idents_eq own)
  | _, _, .call hc has => congrArg₂ (· ++ ·) (hc.idents_eq own) (has.idents_eq own)

theorem ExprsMirror.idents_eq {frames : Frames Nat} (own : frames.Own names) :
    ∀ {es : List Source.Expr} {xs : List Estree.Expr}, ExprsMirror functions names frames es xs →
      Estree.Expr.identsAll xs = Source.Expr.identsAll es
  | _, _, .nil => rfl
  | _, _, .cons first others => congrArg₂ (· ++ ·) (first.idents_eq own) (others.idents_eq own)

end

mutual

theorem StmtMirror.idents_eq : ∀ {frames : Frames Nat} {next : Nat} {stmt : Source.Stmt}
    {x : Estree.Stmt}, StmtMirror functions names frames next stmt x → frames.Own names →
      NamedFrom names next (stmt.declarators.map (·.name)) → x.idents = stmt.idents
  | _, _, _, _, .expr value, own, _ => value.idents_eq own
  | _, _, _, _, .ret value returned, own, _ => returned.idents_eq.trans (value.idents_eq own)
  | _, _, .block ⟨_, _, _⟩ _, _, .block body, own, named => by
    rw [Source.Stmt.declarators, Source.Block.declarators, List.map_append] at named
    obtain ⟨here, inside⟩ := named.append
    rw [List.length_map] at inside
    exact body.idents_eq (own.push here) inside

theorem StmtsMirror.idents_eq : ∀ {frames : Frames Nat} {next : Nat} {stmts : List Source.Stmt}
    {xs : List Estree.Stmt}, StmtsMirror functions names frames next stmts xs →
      frames.Own names →
      NamedFrom names next ((Source.Stmt.declaratorsAll stmts).map (·.name)) →
      Estree.Stmt.identsAll xs = Source.Stmt.identsAll stmts
  | _, _, _, _, .nil, _, _ => rfl
  | _, _, _, _, .cons first others, own, named => by
    rw [Source.Stmt.declaratorsAll, List.map_append] at named
    obtain ⟨here, later⟩ := named.append
    rw [List.length_map] at later
    exact congrArg₂ (· ++ ·) (first.idents_eq own here) (others.idents_eq own later)

end

/-- Where each site is named as in the source, so is every identifier. -/
theorem FunctionMirror.identsAll_eq {f : Source.Function} {params : List String}
    {vars : List (String × Estree.Expr)} {stmts : List Estree.Stmt}
    (mirror : FunctionMirror functions names f params vars stmts)
    (named : NamedFrom names 0 f.sites) :
    Estree.Stmt.identsAll stmts = Source.Stmt.identsAll f.body.stmts := by
  rw [Source.Function.sites, Source.Block.declarators_eq, List.map_append] at named
  obtain ⟨params, body⟩ := named.append
  obtain ⟨declared, inside⟩ := body.append
  rw [Nat.zero_add] at declared inside
  rw [List.length_map] at inside
  have nothing : Frames.Own [] names := fun name index found => by cases found
  exact mirror.body.idents_eq ((nothing.push params).push declared) inside

namespace Source

/-! ## Modules -/

/-- The functions of an accepted module keep the names of their parameters and variables where they
are pairwise different and different from all functions. -/
theorem Module.analyze_keeps {m : Module} {typed : Typed.Module} (h : m.analyze = .ok typed) :
    List.Forall₂ (fun f tf => tf.name = f.name ∧
      (f.sites.Nodup → (∀ x ∈ f.sites, x ∉ m.functionNames) →
        tf.params.map (·.name) = f.paramNames ∧
          tf.body.variables.map (·.1) = f.body.declarators.map (·.name)))
      m.functions typed.functions := by
  obtain ⟨declared, functions, r, t, hdecl, hcheck, rfl⟩ := Module.analyze_ok_iff.mp h
  obtain ⟨functionsEq, _, bindings, names, _, kept, found⟩ := Item.declareAll_initial hdecl
  obtain ⟨_, signatures, _⟩ := Item.declareAll_declares hdecl
  have own := Module.emitted_of_binding? names kept found
  rw [functionsEq, List.forall₂_map_left_iff]
  refine ((List.forall₂_and_left ..).mpr ⟨signatures, Function.checkAll_forall₂ hcheck⟩).imp ?_
  rintro d tf ⟨hsig, q, u, scope, checked⟩
  refine ⟨Function.check_name checked, fun distinct apart => ?_⟩
  refine Function.check_keeps hsig checked distinct fun x member => ?_
  have unknown := own x
  rw [if_neg (apart x member), Option.map_eq_none_iff, ← scope] at unknown
  exact unknown

/-- Such a function is emitted under its own names throughout. -/
theorem Module.compile_keeps {m : Module} {options : Options} {program : Estree.Program}
    (accepted : m.compile options = .ok program) {f : Function} (member : f ∈ m.functions)
    (distinct : f.sites.Nodup) (apart : ∀ x ∈ f.sites, x ∉ m.functionNames) :
    ∃ vars stmts, program.function? f.name =
        some (f.paramNames, Estree.functionBody f.paramNames vars stmts) ∧
      vars.map (·.1) = f.body.declarators.map (·.name) ∧
      Estree.Stmt.identsAll stmts = Stmt.identsAll f.body.stmts := by
  obtain ⟨typed, analyzed, rfl⟩ := Module.compile_ok_iff.mp accepted
  obtain ⟨_, _, _, _, hdecl, _, _⟩ := Module.analyze_ok_iff.mp analyzed
  have functionsDistinct := (Item.declareAll_initial hdecl).2.1
  obtain ⟨tf, hit, _, mirror, body⟩ := find?_of_forall₂ (Module.analyze_mirrors analyzed)
    (fun _ _ mirrored => mirrored.1) functionsDistinct member
  obtain ⟨tf', hit', _, keeps⟩ := find?_of_forall₂ (Module.analyze_keeps analyzed)
    (fun _ _ kept => kept.1) functionsDistinct member
  cases Option.some.inj (hit.symm.trans hit')
  obtain ⟨params, vars⟩ := keeps distinct apart
  rw [params, vars] at mirror
  rw [params] at body
  refine ⟨tf.body.variables, tf.body.emitStmts .int, ?_, vars,
    mirror.identsAll_eq (namedFrom_nameAt f.sites)⟩
  rw [Typed.Module.function?_emit, hit, ← body, Option.map_some, params]

end Source

/-- Inside a block of a function with a variable `x` and a variable that is called `x$2` itself,
after another block with a variable `x$1`. -/
def Check.State.crowded : State :=
  let outer := (Scope.empty.forFunction .int).bind ⟨"x", "x", .int, .unknown⟩
  ⟨(outer.bind ⟨"x$2", "x$2", .int, .unknown⟩).fork, ["x$2", "x$1", "x"], #[]⟩

/-- `int g(int a) { int b; { int a$1 = 3; b = inc(a$1); } return a + b; }` -/
def Source.Function.unclashing : Function :=
  let a : Expr := .ident "a" .unknown
  let b : Expr := .ident "b" .unknown
  let call : Expr := .call (.ident "inc" .unknown) [.ident "a$1" .unknown] .unknown
  let inner : Block := ⟨[⟨[.int], [⟨"a$1", some (.const "3" .unknown), .unknown⟩], .unknown⟩],
    [.expr (.assign .plain b call .unknown) .unknown], .unknown⟩
  ⟨"g", [.int], [⟨some "a", [.int], .unknown⟩],
    ⟨[⟨[.int], [⟨"b", none, .unknown⟩], .unknown⟩],
      [.block inner .unknown, .ret (some (.binary .add a b .unknown)) .unknown], .unknown⟩,
    .unknown⟩

def Source.Module.unclashing : Module :=
  ⟨[.function .increment, .function .unclashing], .unknown⟩

end MiniC
