import MiniC.Proofs.Meaning.Simulation
import MiniC.Proofs.Names.Resolution

/-!
# Translation preserves meaning

A call of an emitted function first takes its parameters into the signed range and then sets all its
variables; after that it holds what a call of the source function holds. With the simulation of
statements this makes calls agree, by induction on how deep they may nest.
-/

namespace MiniC

open Estree (Env)

/-! ## The start of a call -/

namespace Estree

variable {functions : Functions Int}

/-- Statements that do not return are followed by the next ones. -/
lemma Stmt.execAll_append {first second : List Stmt} {env env' : Env}
    (h : Stmt.execAll functions first env = .ok (none, env')) :
    Stmt.execAll functions (first ++ second) env = Stmt.execAll functions second env' := by
  induction first generalizing env with
  | nil =>
    cases h
    rfl
  | cons s rest ih =>
    simp only [List.cons_append, Stmt.execAll] at h ⊢
    cases run : s.exec functions env with
    | error halt =>
      rw [run] at h
      cases h
    | ok outcome =>
      obtain ⟨result, after⟩ := outcome
      rw [run] at h
      cases result with
      | some t => cases h
      | none => exact ih h

/-- Each variable holds an integer congruent to the one it held, and there are no new ones. -/
structure Env.Congruent (env env' : Env) : Prop where
  held : ∀ {name t}, env name = some t → ∃ t', env' name = some t' ∧ Int32.ofInt t' = Int32.ofInt t
  absent : ∀ {name}, env name = none → env' name = none

lemma Env.Congruent.refl (env : Env) : env.Congruent env :=
  ⟨fun held => ⟨_, held, rfl⟩, id⟩

lemma Env.Congruent.trans {env env' env'' : Env} (first : env.Congruent env')
    (second : env'.Congruent env'') : env.Congruent env'' := by
  refine ⟨fun held => ?_, fun absent => second.absent (first.absent absent)⟩
  obtain ⟨t', held', congruent⟩ := first.held held
  obtain ⟨t'', held'', congruent'⟩ := second.held held'
  exact ⟨t'', held'', congruent'.trans congruent⟩

lemma Env.Congruent.put {env : Env} {name : String} {t t' : Int} (held : env name = some t)
    (congruent : Int32.ofInt t' = Int32.ofInt t) : env.Congruent (env.put name t') := by
  constructor
  · intro other s other_held
    by_cases same : other = name
    · subst same
      cases other_held.symm.trans held
      exact ⟨t', env.put_self _ _, congruent⟩
    · exact ⟨s, by rw [env.put_of_ne t' same, other_held], rfl⟩
  · intro other absent
    have differs : other ≠ name := by
      rintro rfl
      cases absent.symm.trans held
    rw [env.put_of_ne t' differs, absent]

lemma exec_selfCoercion {param : String} {env : Env} {t : Int} (held : env param = some t) :
    (selfCoercion param).exec functions env =
      .ok (none, env.put param (combineBits t 0)) := by
  simp [selfCoercion, Typed.coerceSigned, Stmt.exec, Expr.eval, held, Value.toNumber,
    BinaryOp.apply, bind, Except.bind]

/-- Taking parameters into the signed range keeps them up to congruence. -/
lemma execAll_selfCoercions (functions : Functions Int) (params : List String) {env : Env}
    (bound : ∀ p ∈ params, (env p).isSome) :
    ∃ env', Stmt.execAll functions (params.map selfCoercion) env = .ok (none, env') ∧
      env.Congruent env' := by
  induction params generalizing env with
  | nil => exact ⟨env, rfl, .refl env⟩
  | cons param rest ih =>
    obtain ⟨here, later⟩ := List.forall_mem_cons.mp bound
    obtain ⟨t, held⟩ := Option.isSome_iff_exists.mp here
    have reduced : env.Congruent (env.put param (combineBits t 0)) := by
      refine .put held ?_
      rw [combineBits_zero_eq_toInt, Int32.ofInt_toInt]
    have stillBound : ∀ p ∈ rest, (env.put param (combineBits t 0) p).isSome := by
      intro p member
      obtain ⟨s, holds⟩ := Option.isSome_iff_exists.mp (later p member)
      obtain ⟨s', holds', _⟩ := reduced.held holds
      simp [holds']
    obtain ⟨env', run, congruent⟩ := ih stillBound
    refine ⟨env', ?_, reduced.trans congruent⟩
    rw [List.map_cons, Stmt.execAll, exec_selfCoercion held]
    exact run

/-- Variables with literals as initial values are set to them, and nothing else changes. -/
lemma declareVars_ok (functions : Functions Int) {vars : List (String × Expr)}
    (literals : ∀ var ∈ vars, ∃ v, var.2 = .num v) (distinct : (vars.map (·.1)).Nodup) (env : Env) :
    ∃ env', declareVars functions vars env = .ok env' ∧
      (∀ name, name ∉ vars.map (·.1) → env' name = env name) ∧
      ∀ var ∈ vars, ∀ v, var.2 = .num v → env' var.1 = some v.toInt := by
  induction vars generalizing env with
  | nil => exact ⟨env, rfl, by simp, by simp⟩
  | cons var rest ih =>
    obtain ⟨name, init⟩ := var
    obtain ⟨⟨v, value⟩, others⟩ := List.forall_mem_cons.mp literals
    obtain ⟨fresh, distinct⟩ := List.nodup_cons.mp distinct
    obtain ⟨env', run, kept, set⟩ := ih others distinct (env.put name v.toInt)
    cases value
    refine ⟨env', run, ?_, ?_⟩
    · intro other outside
      obtain ⟨differs, later⟩ := not_or.mp (fun h => outside (List.mem_cons.mpr h))
      rw [kept other later, env.put_of_ne _ differs]
    · intro var member w literal
      rcases List.mem_cons.mp member with rfl | later
      · cases literal
        rw [kept name fresh, env.put_self]
      · exact set var later w literal

lemma execAll_hoisted {vars : List (String × Expr)} {env env' : Env}
    (h : declareVars functions vars env = .ok env') :
    Stmt.execAll functions (hoisted vars) env = .ok (none, env') := by
  unfold hoisted
  split
  · rename_i empty
    cases List.isEmpty_iff.mp empty
    cases h
    rfl
  · simp only [Stmt.execAll, Stmt.exec, h]
    rfl

lemma bindParams_of_notMem {params : List String} {args : List Int} {name : String}
    (absent : name ∉ params) : bindParams params args name = none := by
  induction params generalizing args with
  | nil => rfl
  | cons param rest ih =>
    cases args with
    | nil => rfl
    | cons arg args =>
      obtain ⟨differs, later⟩ := not_or.mp (fun h => absent (List.mem_cons.mpr h))
      rw [bindParams, Env.put_of_ne _ _ differs, ih later]

lemma bindParams_getElem? {params : List String} {args : List Int} (distinct : params.Nodup)
    {i : Nat} {name : String} {t : Int} (param : params[i]? = some name)
    (arg : args[i]? = some t) : bindParams params args name = some t := by
  induction params generalizing args i with
  | nil => cases param
  | cons first rest ih =>
    obtain ⟨fresh, distinct⟩ := List.nodup_cons.mp distinct
    cases args with
    | nil => cases arg
    | cons first_arg args =>
      cases i with
      | zero =>
        cases param
        cases arg
        rw [bindParams, Env.put_self]
      | succ i =>
        have differs : name ≠ first := by
          rintro rfl
          exact fresh (List.mem_of_getElem? param)
        rw [bindParams, Env.put_of_ne _ _ differs]
        exact ih distinct param arg

end Estree

/-! ## Functions -/

/-- The value that the variable of a site is declared with. -/
def startOf (first : Nat) (vars : List (String × Estree.Expr)) (site : Nat) : Int :=
  match vars[site - first]? with
  | some (_, .num v) => v.toInt
  | _ => 0

lemma startsFrom_startOf {first : Nat} {declarators : List Source.Declarator}
    {vars : List (String × Estree.Expr)}
    (hoists : List.Forall₂ Source.Declarator.Hoists declarators vars) :
    StartsFrom (startOf first vars) first declarators := by
  intro j d at_j
  obtain ⟨bound, rfl⟩ := List.getElem?_eq_some_iff.mp at_j
  have within : j < vars.length := hoists.length_eq ▸ bound
  obtain ⟨n, starts, value⟩ := hoists.get bound within
  refine ⟨n, starts, ?_⟩
  have small : n < 0x8000000000000000 := by
    have limit := starts.2
    omega
  have declared : vars[j]? = some (vars[j].1, .num (Int64.ofNat n)) := by
    rw [List.getElem?_eq_getElem within, ← value]
    rfl
  rw [startOf, Nat.add_sub_cancel_left, declared]
  exact Int64.toInt_ofNat_of_lt small

namespace FunctionMirror

variable {functionNames : List String} {names : Nat → String} {f : Source.Function}
  {params : List String} {vars : List (String × Estree.Expr)} {stmts : List Estree.Stmt}

lemma layout (mirror : FunctionMirror functionNames names f params vars stmts) :
    NamesApart functionNames names f.sites.length :=
  ⟨mirror.distinct, mirror.apart⟩

lemma nodup (mirror : FunctionMirror functionNames names f params vars stmts) :
    (params ++ vars.map (·.1)).Nodup := by
  rw [mirror.sites]
  refine List.Nodup.map_on ?_ List.nodup_range
  intro i hi j hj
  exact mirror.distinct i j (List.mem_range.mp hi) (List.mem_range.mp hj)

lemma sites_length (mirror : FunctionMirror functionNames names f params vars stmts) :
    f.sites.length = f.paramNames.length + vars.length := by
  rw [← mirror.hoists.length_eq]
  simp [Source.Function.sites]

lemma getElem?_eq (mirror : FunctionMirror functionNames names f params vars stmts) {i : Nat}
    (bound : i < f.sites.length) : (params ++ vars.map (·.1))[i]? = some (names i) := by
  rw [mirror.sites]
  simp [bound]

lemma param_getElem? (mirror : FunctionMirror functionNames names f params vars stmts) {i : Nat}
    (bound : i < f.paramNames.length) : params[i]? = some (names i) := by
  have within := mirror.sites_length
  have named := mirror.getElem?_eq (i := i) (by omega)
  rwa [List.getElem?_append_left (mirror.arity ▸ bound)] at named

lemma var_getElem? (mirror : FunctionMirror functionNames names f params vars stmts) {i : Nat}
    (low : f.paramNames.length ≤ i) (high : i < f.sites.length) :
    ∃ var, vars[i - f.paramNames.length]? = some var ∧ var.1 = names i := by
  have named := mirror.getElem?_eq high
  rw [List.getElem?_append_right (mirror.arity ▸ low), List.getElem?_map, mirror.arity] at named
  exact Option.map_eq_some_iff.mp named

/-- Parameters are bound to their arguments under the names of their sites. -/
lemma bindParams_site (mirror : FunctionMirror functionNames names f params vars stmts)
    {args : List Int} (arity : f.paramNames.length = args.length) {i : Nat}
    (inside : i < args.length) : Estree.bindParams params args (names i) = some args[i] := by
  have distinct := (List.nodup_append.mp mirror.nodup).1
  refine Estree.bindParams_getElem? distinct (mirror.param_getElem? (by omega)) ?_
  exact List.getElem?_eq_getElem inside

lemma bindParams_isSome (mirror : FunctionMirror functionNames names f params vars stmts)
    {args : List Int} (arity : f.paramNames.length = args.length) :
    ∀ p ∈ params, (Estree.bindParams params args p).isSome := by
  intro p member
  obtain ⟨i, inside, rfl⟩ := List.mem_iff_getElem.mp member
  have width := mirror.arity
  have named := mirror.param_getElem? (i := i) (by omega)
  rw [List.getElem?_eq_getElem inside] at named
  rw [Option.some.inj named, mirror.bindParams_site arity (by omega)]
  rfl

/-- The frame of the parameters and the environment of a call that has just set its variables. -/
lemma stores_params (mirror : FunctionMirror functionNames names f params vars stmts)
    {args : List Int} (arity : f.paramNames.length = args.length) {reduced env : Env}
    (congruent : (Estree.bindParams params args).Congruent reduced)
    (kept : ∀ name, name ∉ vars.map (·.1) → env name = reduced name) :
    FrameStores names env (siteFrame 0 f.paramNames)
      (f.paramNames.zip (args.map Int32.ofInt)).reverse := by
  obtain ⟨_, _, disjoint⟩ := List.nodup_append.mp mirror.nodup
  refine List.forall₂_reverse_iff.mpr (List.forall₂_of_length_eq_of_get (by simp [arity]) ?_)
  intro i here there
  have inside : i < args.length := by simpa [arity] using here
  obtain ⟨t, held, same⟩ := congruent.held (mirror.bindParams_site arity inside)
  have param : names i ∈ params := List.mem_of_getElem? (mirror.param_getElem? (by omega))
  have outside : names i ∉ vars.map (·.1) := fun member => disjoint _ param _ member rfl
  refine ⟨by simp, t, ?_, by simpa using same⟩
  simpa [held] using kept _ outside

/-- Once a call of the emitted function has set its parameters and variables, it holds what a call
of the source function starts with. -/
theorem start (mirror : FunctionMirror functionNames names f params vars stmts)
    (emitted : Functions Int) {args : List Int} (arity : f.paramNames.length = args.length) :
    ∃ env, Estree.Stmt.execAll emitted (params.map Estree.selfCoercion ++ Estree.hoisted vars)
        (Estree.bindParams params args) = .ok (none, env) ∧
      Holds functionNames names f.sites.length (startOf f.paramNames.length vars)
        [siteFrame 0 f.paramNames] f.paramNames.length
        [(f.paramNames.zip (args.map Int32.ofInt)).reverse] env := by
  obtain ⟨_, distinct, _⟩ := List.nodup_append.mp mirror.nodup
  have literals := Source.Declarator.literal_of_hoists mirror.hoists
  obtain ⟨reduced, coerced, congruent⟩ :=
    Estree.execAll_selfCoercions emitted params (mirror.bindParams_isSome arity)
  obtain ⟨env, declared, kept, set⟩ := Estree.declareVars_ok emitted literals distinct reduced
  have outer : Frames.Within [] 0 := by
    intro site member
    cases member
  have width := mirror.sites_length
  refine ⟨env, ?_, .cons (mirror.stores_params arity congruent kept) .nil, ?_, ?_, ?_, ?_,
    by omega⟩
  · rw [Estree.Stmt.execAll_append coerced, Estree.execAll_hoisted declared]
  · intro i low high
    obtain ⟨var, at_i, named⟩ := mirror.var_getElem? low high
    have member := List.mem_of_getElem? at_i
    obtain ⟨v, literal⟩ := literals var member
    have start : startOf f.paramNames.length vars i = v.toInt := by
      obtain ⟨name, init⟩ := var
      cases literal
      rw [startOf, at_i]
    rw [start, ← named, set var member v literal]
  · intro g member
    have absent : g ∉ params ++ vars.map (·.1) := by
      rw [mirror.mem_locals_iff]
      rintro ⟨i, inside, rfl⟩
      exact mirror.apart i inside member
    obtain ⟨noParam, noVar⟩ := not_or.mp (fun h => absent (List.mem_append.mpr h))
    rw [kept g noVar, congruent.absent (Estree.bindParams_of_notMem noParam)]
  · simpa using outer.push f.paramNames
  · simp [Frames.entries, siteFrame_sites, List.nodup_range']

/-- A function and its emitted form agree when the functions they call do. -/
theorem agrees (mirror : FunctionMirror functionNames names f params vars stmts)
    {source : Functions Int32} {emitted : Functions Int}
    (functions : FunctionsAgree source emitted) (args : List Int) :
    Agrees (fun w t => t = w.toInt) (f.run source (args.map Int32.ofInt))
      (Estree.runFunction emitted (params, Estree.functionBody params vars stmts) args) := by
  unfold Source.Function.run Estree.runFunction
  rw [List.length_map, mirror.arity]
  by_cases arity : f.paramNames.length = args.length
  · rw [if_pos arity, if_pos arity]
    obtain ⟨env, run, holds⟩ := mirror.start emitted arity
    rw [Estree.functionBody, Estree.Stmt.execAll_append run]
    have room : f.paramNames.length + f.body.declarators.length ≤ f.sites.length := by
      simp [Source.Function.sites]
    refine (holds.agrees_block f.body (startsFrom_startOf mirror.hoists) room ?_).bind ?_
    · intro frames entered inside
      simp only [Source.Block.declarators_eq, List.length_append, ← Nat.add_assoc] at room ⊢
      exact mirror.body.agrees mirror.layout functions entered inside room
    · rintro _ _ (@⟨frames, env, holds⟩ | @⟨w, frames, env⟩)
      · exact .stuck
      · exact .ok rfl
  · rw [if_neg arity, if_neg arity]
    exact .stuck

end FunctionMirror

/-! ## Modules -/

/-- The module exports each of its functions under its own name. -/
lemma Typed.Module.exported?_emit (m : Typed.Module) (options : Options) (key : String) :
    (m.emit options).exported? key =
      if key ∈ m.functions.map (·.name) then some key else none := by
  have lookup : ∀ functions : List Typed.Function,
      (functions.map fun f => (f.name, Estree.Expr.ident f.name)).lookup key =
        if key ∈ functions.map (·.name) then some (.ident key) else none := by
    intro functions
    induction functions with
    | nil => rfl
    | cons f rest ih =>
      rw [List.map_cons, Frames.lookup_cons_eq, ih]
      by_cases same : f.name = key
      · simp [same]
      · simp [same, Ne.symm same]
  simp only [Module.emit, Module.emitBody, Estree.Program.exported?, Estree.Program.moduleBody?,
    Option.bind_some, List.getLast?_append, List.getLast?_singleton, Option.some_or,
    Estree.Stmt.exported?, lookup]
  by_cases member : key ∈ m.functions.map (·.name)
  · simp [member]
  · simp [member]

namespace Source

variable {m : Module} {options : Options} {program : Estree.Program}

lemma Module.compile_exported? (h : m.compile options = .ok program) (key : String) :
    program.exported? key = if key ∈ m.functionNames then some key else none := by
  obtain ⟨typed, analyzed, rfl⟩ := Module.compile_ok_iff.mp h
  rw [Typed.Module.exported?_emit, Module.analyze_names analyzed]

lemma Module.compile_function?_none (h : m.compile options = .ok program) {name : String}
    (absent : name ∉ m.functionNames) : program.function? name = none := by
  obtain ⟨typed, analyzed, rfl⟩ := Module.compile_ok_iff.mp h
  rw [← Module.analyze_names analyzed] at absent
  rw [Typed.Module.function?_emit, Option.map_eq_none_iff, List.find?_eq_none]
  intro f member same
  exact absent (List.mem_map.mpr ⟨f, member, of_decide_eq_true same⟩)

lemma Module.function?_eq_some {name : String} {f : Function} (h : m.function? name = some f) :
    f ∈ m.functions ∧ f.name = name :=
  ⟨List.mem_of_find?_eq_some h, by simpa using List.find?_some h⟩

lemma Module.function?_eq_none_iff {name : String} :
    m.function? name = none ↔ name ∉ m.functionNames := by
  simp [Module.function?, Module.functionNames]

lemma Module.functionsWithin_of_notMem {name : String} (absent : name ∉ m.functionNames)
    (fuel : Nat) : m.functionsWithin fuel name = none := by
  have missing := Module.function?_eq_none_iff.mpr absent
  cases fuel with
  | zero => simp [Module.functionsWithin, missing]
  | succ fuel => simp [Module.functionsWithin, missing]

/-- The functions of a module agree with the emitted ones when mirrored functions do. -/
lemma Module.functionsAgree_of_mirror (h : m.compile options = .ok program)
    {run : Function → List Int32 → Except Halt Int32}
    {run' : List String × List Estree.Stmt → List Int → Except Halt Int}
    (agree : ∀ {f params vars stmts names},
      FunctionMirror m.functionNames names f params vars stmts → ∀ args : List Int,
        Agrees (fun w t => t = w.toInt) (run f (args.map Int32.ofInt))
          (run' (params, Estree.functionBody params vars stmts) args)) :
    FunctionsAgree (fun name => (m.function? name).map run)
      (fun name => (program.function? name).map run') := by
  intro name
  cases found : m.function? name with
  | some f =>
    obtain ⟨member, rfl⟩ := Module.function?_eq_some found
    obtain ⟨params, vars, stmts, names, mirror, emitted⟩ := Module.compile_mirrors h member
    simp only [found, emitted]
    exact .some (agree mirror)
  | none =>
    simp only [found, Module.compile_function?_none h (Module.function?_eq_none_iff.mp found)]
    exact .none

/-- Calls agree however deep they may nest. -/
theorem Module.functionsAgree (h : m.compile options = .ok program) (fuel : Nat) :
    FunctionsAgree (m.functionsWithin fuel) (program.functionsWithin fuel) := by
  induction fuel with
  | zero => exact Module.functionsAgree_of_mirror h fun _ _ => .halt .exhausted
  | succ fuel ih => exact Module.functionsAgree_of_mirror h fun mirror => mirror.agrees ih

/-- Translation preserves meaning: with the same fuel and the same arguments, a function of an
accepted module and the function that the emitted program exports under its name give the same
number, or both get stuck, or both need more fuel. -/
theorem Module.compile_preserves_meaning (accepted : m.compile options = .ok program) (fuel : Nat)
    (name : String) (args : List Int) :
    program.run fuel name args = (m.run fuel name args).map Int32.toInt := by
  refine Agrees.eq_map ?_
  have agree := Module.functionsAgree accepted fuel
  unfold Module.run Estree.Program.run
  rw [Module.compile_exported? accepted]
  by_cases member : name ∈ m.functionNames
  · rw [if_pos member]
    exact agree.call name args
  · rw [if_neg member, Functions.call, Module.functionsWithin_of_notMem member]
    exact .stuck

/-- The inner variables are renamed, and the sum of the result wraps around. -/
theorem Module.shadowing_preserves_meaning :
    ∃ program, Module.shadowing.compile .default = .ok program ∧
      Module.shadowing.run 2 "f" [2147483647] = .ok (-2147483641) ∧
      program.run 2 "f" [2147483647] = .ok (-2147483641) := by
  obtain ⟨program, accepted⟩ := exists_ok_of_isOk Module.shadowing_accepted
  have source : Module.shadowing.run 2 "f" [2147483647] = .ok (-2147483641) := by decide +kernel
  refine ⟨program, accepted, source, ?_⟩
  rw [Module.compile_preserves_meaning accepted, source]
  rfl

end Source

end MiniC
