import MiniC.Proofs.Names.Renamings
import MiniC.Proofs.Names.Resolution
import MiniC.Proofs.Text.Decimal

/-!
# Hoisting is a fixpoint

A typed module can be written down as a source module again: every variable of a function is
declared at the top of its body under its emitted name, and inner blocks keep their statements only.
This hoisted source is accepted, none of its names is changed on the way, and it compiles to the
program of the module it was made from (`Typed.Module.WellTyped.analyze_hoisted`). Emitted names are
unique in a function and differ from all functions of the module, so each of them is unused when its
declaration is reached.
-/

namespace MiniC

/-- The decimal text of a literal is read as its value. -/
lemma Decimal.toNat?_literal {n : Nat} (small : n < 0x8000000000000000) :
    Decimal.toNat? (Decimal.ofInt (Int64.ofNat n).toInt) = some n := by
  rw [Int64.toInt_ofNat_of_lt small]
  exact Decimal.toNat?_ofNat n

namespace Typed

/-! ## The hoisted source -/

mutual

/-- An expression under its emitted names, literals in decimal. -/
def Expr.source : Expr → Source.Expr
  | .int value _ => .const (Decimal.ofInt value.toInt) .unknown
  | .var name _ => .ident name .unknown
  | .add left right _ => .binary .add left.source right.source .unknown
  | .assign target value _ => .assign .plain target.source value.source .unknown
  | .call callee args _ => .call callee.source (Expr.sourceAll args) .unknown

def Expr.sourceAll : List Expr → List Source.Expr
  | [] => []
  | e :: rest => e.source :: Expr.sourceAll rest

end

mutual

/-- A statement without the declarations of its blocks. -/
def Stmt.source : Stmt → Source.Stmt
  | .expr value => .expr value.source .unknown
  | .ret value => .ret (some value.source) .unknown
  | .block ⟨_, stmts⟩ => .block ⟨[], Stmt.sourceAll stmts, .unknown⟩ .unknown

def Stmt.sourceAll : List Stmt → List Source.Stmt
  | [] => []
  | s :: rest => s.source :: Stmt.sourceAll rest

end

def Declarator.source (d : Declarator) : Source.Declarator :=
  ⟨d.name, some d.init.source, .unknown⟩

def Param.source (p : Param) : Source.Param :=
  ⟨some p.name, [.int], .unknown⟩

/-- A function with the variables of all its blocks declared at the top of its body. -/
def Function.hoisted (f : Function) : Source.Function :=
  ⟨f.name, [.int], f.params.map Param.source,
    ⟨f.body.hoisted.map fun d => ⟨[.int], [d.source], .unknown⟩, Stmt.sourceAll f.body.stmts,
      .unknown⟩, .unknown⟩

def Module.hoisted (m : Module) : Source.Module :=
  ⟨m.functions.map fun f => .function f.hoisted, .unknown⟩

/-! ## The hoisted typed tree -/

mutual

/-- A typed statement without the variables of its blocks. -/
def Stmt.bare : Stmt → Stmt
  | .expr value => .expr value
  | .ret value => .ret value
  | .block ⟨_, stmts⟩ => .block ⟨[], Stmt.bareAll stmts⟩

def Stmt.bareAll : List Stmt → List Stmt
  | [] => []
  | s :: rest => s.bare :: Stmt.bareAll rest

end

/-- The function with its variables at the top of its body. -/
def Function.flat (f : Function) : Function :=
  { f with body := ⟨f.body.hoisted, Stmt.bareAll f.body.stmts⟩ }

def Module.flat (m : Module) : Module :=
  ⟨m.functions.map Function.flat⟩

mutual

lemma Stmt.hoisted_bare : ∀ s : Stmt, s.bare.hoisted = []
  | .expr _ => rfl
  | .ret _ => rfl
  | .block ⟨_, stmts⟩ => Stmt.hoistedAll_bareAll stmts

lemma Stmt.hoistedAll_bareAll : ∀ stmts : List Stmt, Stmt.hoistedAll (Stmt.bareAll stmts) = []
  | [] => rfl
  | s :: rest => by
    rw [Stmt.bareAll, Stmt.hoistedAll, Stmt.hoisted_bare, Stmt.hoistedAll_bareAll, List.append_nil]

end

mutual

lemma Stmt.source_bare : ∀ s : Stmt, s.bare.source = s.source
  | .expr _ => rfl
  | .ret _ => rfl
  | .block ⟨_, stmts⟩ => by rw [Stmt.bare, Stmt.source, Stmt.source, Stmt.sourceAll_bareAll]

lemma Stmt.sourceAll_bareAll : ∀ stmts : List Stmt,
    Stmt.sourceAll (Stmt.bareAll stmts) = Stmt.sourceAll stmts
  | [] => rfl
  | s :: rest => by
    rw [Stmt.bareAll, Stmt.sourceAll, Stmt.sourceAll, Stmt.source_bare, Stmt.sourceAll_bareAll]

end

mutual

lemma Stmt.emit_bare (result : Ty) : ∀ s : Stmt, s.bare.emit result = s.emit result
  | .expr _ => rfl
  | .ret _ => rfl
  | .block ⟨_, stmts⟩ => by rw [Stmt.bare, Stmt.emit, Stmt.emit, Stmt.emitAll_bareAll]

lemma Stmt.emitAll_bareAll (result : Ty) : ∀ stmts : List Stmt,
    Stmt.emitAll result (Stmt.bareAll stmts) = Stmt.emitAll result stmts
  | [] => rfl
  | s :: rest => by
    rw [Stmt.bareAll, Stmt.emitAll, Stmt.emitAll, Stmt.emit_bare, Stmt.emitAll_bareAll]

end

@[simp]
lemma Function.name_flat (f : Function) : f.flat.name = f.name := rfl

lemma Function.body_hoisted_flat (f : Function) : f.flat.body.hoisted = f.body.hoisted := by
  simp only [Function.flat, Block.hoisted, Stmt.hoistedAll_bareAll, List.append_nil]

lemma Function.variables_flat (f : Function) : f.flat.body.variables = f.body.variables := by
  rw [Block.variables_eq, Block.variables_eq, Function.body_hoisted_flat]

lemma Function.locals_flat (f : Function) : f.flat.locals = f.locals := by
  rw [Function.locals, Function.variables_flat]
  rfl

lemma Function.emit_flat (f : Function) : f.flat.emit = f.emit := by
  have body : f.flat.emitBody = f.emitBody := by
    simp only [Function.emitBody, Block.emitVariables, Function.variables_flat]
    simp only [Function.flat, Block.emitStmts, Stmt.emitAll_bareAll]
  rw [Function.emit, body]
  rfl

/-- Hoisting keeps the emitted program. -/
lemma Module.emit_flat (m : Module) (options : Options) : m.flat.emit options = m.emit options := by
  simp [Module.emit, Module.emitBody, Module.flat, Function.emit_flat, Function.comp_def]

/-- What is hoisted stays where it is. -/
lemma Module.hoisted_flat (m : Module) : m.flat.hoisted = m.hoisted := by
  have same : ∀ f : Function, f.flat.hoisted = f.hoisted := by
    intro f
    rw [Function.hoisted, Function.body_hoisted_flat]
    simp only [Function.flat, Stmt.sourceAll_bareAll, Function.hoisted]
  simp [Module.hoisted, Module.flat, same, Function.comp_def]

end Typed

/-! ## Checking the hoisted source -/

open Check (State)

section Check

variable {scope : Scope} {frames : Frames Ty}

lemma Scope.OwnNames.binding? (own : scope.OwnNames) (types : scope.Types frames) {name : String}
    {ty : Ty} (bound : frames.nearest name = some ty) :
    ∃ b, scope.binding? name = some b ∧ b.emitted = name ∧ b.ty = ty := by
  rw [← types] at bound
  obtain ⟨b, found, same⟩ := Option.map_eq_some_iff.mp bound
  exact ⟨b, found, own name b found, same⟩

mutual

/-- The source of a well-typed expression is checked to the expression. -/
theorem Typed.Expr.WellTyped.check_source (types : scope.Types frames) (own : scope.OwnNames) :
    ∀ {e : Typed.Expr}, e.WellTyped frames → e.source.check scope = .ok e
  | _, .int small =>
    Source.Expr.check_const_ok_iff.mpr ⟨_, Decimal.toNat?_literal small, small, rfl⟩
  | _, .var bound => by
    obtain ⟨b, found, rfl, rfl⟩ := own.binding? types bound
    exact Source.Expr.check_ident_ok_iff.mpr ⟨b, found, rfl⟩
  | _, .add hl hr same => Source.Expr.check_binary_ok_iff.mpr
      ⟨rfl, _, _, hl.check_source types own, hr.check_source types own, same, rfl⟩
  | _, .assign bound hv => by
    have target := (Typed.Expr.WellTyped.var bound).check_source types own
    exact Source.Expr.check_assign_ok_iff.mpr
      ⟨rfl, _, _, target, rfl, hv.check_source types own, rfl, rfl⟩
  | _, .call hc function has => by
    obtain ⟨args, count⟩ := has.checkArgs_source types own
    exact Source.Expr.check_call_ok_iff.mpr
      ⟨_, _, _, _, hc.check_source types own, function, count, args, rfl⟩

theorem Typed.Expr.AllWellTyped.checkArgs_source (types : scope.Types frames)
    (own : scope.OwnNames) : ∀ {args : List Typed.Expr} {params : List Ty},
      Typed.Expr.AllWellTyped frames args params →
      Source.Expr.checkArgs scope params (Typed.Expr.sourceAll args) = .ok args ∧
        params.length = (Typed.Expr.sourceAll args).length
  | _, _, .nil => ⟨rfl, rfl⟩
  | _, _, .cons first others => by
    obtain ⟨rest, count⟩ := others.checkArgs_source types own
    refine ⟨Source.Expr.checkArgs_cons_ok_iff.mpr
      ⟨_, _, first.check_source types own, rfl, rest, rfl⟩, ?_⟩
    simp [Typed.Expr.sourceAll, count]

end

mutual

/-- The source of a well-typed statement is checked to the statement without its variables. -/
theorem Typed.Stmt.check_source : ∀ (stmt : Typed.Stmt) {s : State}, stmt.WellTyped frames →
    s.scope.Types frames → s.scope.OwnNames → s.scope.result = some .int →
      ∃ t, stmt.source.check s = .ok stmt.bare t
  | .expr e, s, typed, types, own, result =>
    ⟨s, Source.Stmt.check_expr_ok_iff.mpr ⟨e, typed.check_source types own, rfl, rfl⟩⟩
  | .ret e, s, typed, types, own, result => by
    have same : s.scope.result = some e.ty := by rw [result, typed.2]
    exact ⟨s, Source.Stmt.check_ret_ok_iff.mpr
      ⟨_, e, rfl, typed.1.check_source types own, same, rfl, rfl⟩⟩
  | .block ⟨declarators, stmts⟩, s, typed, types, own, result => by
    -- The block declares nothing, so its statements are checked in the bare fork.
    obtain ⟨t, run⟩ := Typed.Stmt.checkAll_source stmts (s := s.entered s.scope.fork) typed.2
      types own result
    exact ⟨_, Source.Stmt.check_block_ok_iff.mpr ⟨_, t, Source.Block.checkHere_ok_iff.mpr
      ⟨[], _, _, rfl, run, rfl⟩, rfl, rfl⟩⟩

theorem Typed.Stmt.checkAll_source : ∀ (stmts : List Typed.Stmt) {s : State},
    Typed.Stmt.AllWellTyped frames stmts → s.scope.Types frames → s.scope.OwnNames →
      s.scope.result = some .int →
      ∃ t, Source.Stmt.checkAll (Typed.Stmt.sourceAll stmts) s = .ok (Typed.Stmt.bareAll stmts) t
  | [], s, typed, types, own, result => ⟨s, rfl⟩
  | stmt :: rest, s, typed, types, own, result => by
    obtain ⟨r, first⟩ := Typed.Stmt.check_source stmt typed.1 types own result
    have scope := (Source.Stmt.check_takes _ first).1
    obtain ⟨t, others⟩ := Typed.Stmt.checkAll_source rest (s := r) typed.2 (scope ▸ types)
      (scope ▸ own) (scope ▸ result)
    exact ⟨t, Source.Stmt.checkAll_cons_ok_iff.mpr ⟨_, _, r, first, others, rfl⟩⟩

end

end Check

/-! ## Declarations of the hoisted source -/

lemma Typed.Declarator.WellTyped.starts {d : Typed.Declarator} (typed : d.WellTyped) :
    ∃ n, d.source.Starts n ∧ d = ⟨d.name, .int, .int (.ofNat n) .int⟩ := by
  obtain ⟨n, small, made⟩ := typed
  have initial : d.source.initial? = some n := by
    rw [made]
    exact Decimal.toNat?_literal (by omega)
  exact ⟨n, ⟨initial, small⟩, made⟩

/-- A hoisted declarator that keeps its name is checked to what it was made from. -/
lemma Typed.Declarator.WellTyped.eq_of_initializes {d checked : Typed.Declarator}
    (typed : d.WellTyped) (init : d.source.Initializes checked) (name : checked.name = d.name) :
    checked = d := by
  obtain ⟨n, ⟨value, _⟩, made⟩ := typed.starts
  obtain ⟨k, ⟨value', _⟩, made'⟩ := init
  have same : k = n := Option.some.inj (value'.symm.trans value)
  rw [made', made, same, name]

lemma Typed.Declarator.eq_of_initializes {ds checked : List Typed.Declarator}
    (typed : ∀ d ∈ ds, d.WellTyped)
    (inits : List.Forall₂ Source.Declarator.Initializes (ds.map Typed.Declarator.source) checked)
    (names : checked.map (·.name) = ds.map (·.name)) : checked = ds := by
  induction ds generalizing checked with
  | nil =>
    cases inits
    rfl
  | cons d rest ih =>
    obtain ⟨first, others⟩ := List.forall_mem_cons.mp typed
    cases inits with
    | cons init later =>
      obtain ⟨name, tail⟩ := List.cons.inj names
      rw [first.eq_of_initializes init name, ih others later tail]

namespace Source

lemma declaratorsOf_hoisted (ds : List Typed.Declarator) :
    declaratorsOf (ds.map fun d => ⟨[.int], [d.source], .unknown⟩) =
      ds.map Typed.Declarator.source := by
  rw [declaratorsOf, List.flatMap_map, List.map_eq_flatMap]

/-- Declarations of unused names are checked as they are, and leave the names that they bind. -/
lemma Decl.checkAll_hoisted {ds : List Typed.Declarator} {s : State}
    (typed : ∀ d ∈ ds, d.WellTyped) (own : s.scope.OwnNames)
    (unused : s.scope.Unused s.taken (ds.map (·.name))) :
    ∃ t, Decl.checkAll (ds.map fun d => ⟨[.int], [d.source], .unknown⟩) s = .ok ds t ∧
      t.scope.OwnNames := by
  have names : (ds.map Typed.Declarator.source).map (·.name) = ds.map (·.name) := by
    rw [List.map_map]
    rfl
  have succeeds : ∃ checked t, Decl.checkAll (ds.map fun d =>
      (⟨[.int], [d.source], .unknown⟩ : Decl)) s = .ok checked t := by
    refine Decl.checkAll_succeeds_iff.mpr ⟨?_, ?_, ?_⟩
    · simp [Decl.IsInt, Ty.ofSpecifiers]
    · rw [declaratorsOf_hoisted]
      intro d member
      obtain ⟨td, inside, rfl⟩ := List.mem_map.mp member
      obtain ⟨n, starts, _⟩ := (typed td inside).starts
      exact ⟨n, starts⟩
    · rw [declaratorsOf_hoisted, names]
      exact unused.free
  obtain ⟨checked, t, run⟩ := succeeds
  obtain ⟨inits, declares⟩ := Decl.checkAll_declares run
  rw [declaratorsOf_hoisted] at inits declares
  have bound := (Declarator.bindings_names inits).trans names
  obtain ⟨kept, _⟩ := declares.kept_of_unused (by rwa [bound, List.append_nil])
  have same : checked.map (·.name) = ds.map (·.name) := by
    rw [← Declarator.bindings_emitted inits, ← bound]
    exact List.map_congr_left kept
  rw [Typed.Declarator.eq_of_initializes typed inits same] at run
  exact ⟨t, run, declares.ownNames own kept⟩

/-! ## Functions and modules -/

lemma declareParams_hoisted {params : List Signature.Param} {typed : List Typed.Param} {s : State}
    (names : params.map (·.name) = typed.map (·.name)) (ints : ∀ p ∈ params, p.ty = .int)
    (plain : ∀ p ∈ typed, p = ⟨p.name, .int, Ty.int.intended⟩) {rest : List String}
    (own : s.scope.OwnNames) (unused : s.scope.Unused s.taken (typed.map (·.name) ++ rest)) :
    ∃ t, declareParams params s = .ok typed t ∧ t.scope.OwnNames ∧ t.scope.Unused t.taken rest := by
  have free : s.scope.Free (params.map (·.name)) := by
    rw [names]
    exact ⟨unused.1.of_append_left, fun name member =>
      unused.free.2 name (List.mem_append_left _ member)⟩
  obtain ⟨checked, t, run⟩ := declareParams_succeeds_iff.mpr free
  obtain ⟨bindings, declares, bound, tys, rfl⟩ := declareParams_declares run
  rw [names] at bound
  obtain ⟨kept, left⟩ := declares.kept_of_unused (by rwa [bound])
  have same : bindings.map (fun b => (⟨b.emitted, b.ty, b.ty.intended⟩ : Typed.Param)) = typed := by
    have int : ∀ b ∈ bindings, b.ty = .int := by
      intro b member
      have listed : b.ty ∈ params.map (·.ty) := tys ▸ List.mem_map.mpr ⟨b, member, rfl⟩
      obtain ⟨p, hp, same⟩ := List.mem_map.mp listed
      exact same ▸ ints p hp
    calc bindings.map (fun b => (⟨b.emitted, b.ty, b.ty.intended⟩ : Typed.Param))
        = bindings.map (fun b => ⟨b.name, .int, Ty.int.intended⟩) :=
          List.map_congr_left fun b member => by rw [kept b member, int b member]
      _ = (typed.map (·.name)).map (fun name => ⟨name, .int, Ty.int.intended⟩) := by
          rw [← bound, List.map_map]
          rfl
      _ = typed := by
          rw [List.map_map]
          exact (List.map_congr_left fun p member => (plain p member).symm).trans (List.map_id typed)
  rw [same] at run
  exact ⟨t, run, declares.ownNames own kept, left⟩

end Source

lemma Typed.Function.paramNames_hoisted (f : Typed.Function) :
    f.hoisted.paramNames = f.params.map (·.name) := by
  simp [Function.hoisted, Source.Function.paramNames, List.filterMap_map, Function.comp_def,
    Param.source]

lemma Typed.Function.declaredNames_hoisted (f : Typed.Function) :
    Source.declaredNames f.hoisted.body.decls = f.body.variables.map (·.1) := by
  rw [Source.declaredNames, Function.hoisted, Source.declaratorsOf_hoisted, Block.variables_eq,
    List.map_map, List.map_map]
  rfl

/-- Frames of type `int` on top of each other are like one. -/
lemma nearest_intFrame_append (first second : List String) (frames : Frames Ty) (name : String) :
    Frames.nearest (intFrame second :: intFrame first :: frames) name =
      Frames.nearest (intFrame (first ++ second) :: frames) name := by
  simp only [nearest_intFrame, List.mem_append]
  by_cases later : name ∈ second
  · simp [later]
  · simp [later]

open Source in
/-- The hoisted source of a well-typed function is checked to the function with its variables at the
top, wherever the functions of the module are in sight under their own names. -/
theorem Typed.Function.WellTyped.check_hoisted {functions : List (String × Ty)}
    {f : Typed.Function} (typed : f.WellTyped functions) :
    ∃ signature, f.hoisted.signature = .ok signature ∧
      ∀ s : State, s.scope.Types [functions] → s.scope.OwnNames →
        ∃ t, f.hoisted.check signature s = .ok f.flat t := by
  have named : f.hoisted.HasParams := .inr fun p member => by
    obtain ⟨q, _, rfl⟩ := List.mem_map.mp member
    exact ⟨rfl, rfl⟩
  obtain ⟨signature, hsig⟩ := Function.signature_succeeds (f := f.hoisted) rfl named
  refine ⟨signature, hsig, fun s types own => ?_⟩
  obtain ⟨_, _, int, paramNames, ints⟩ := Function.signature_ok hsig
  rw [f.paramNames_hoisted] at paramNames
  have unused : (f.hoisted.entry signature s).scope.Unused
      (f.hoisted.entry signature s).taken f.locals := by
    refine ⟨typed.distinct, fun x member => ⟨by simp, ?_⟩⟩
    rw [Function.entry_scope, Scope.binding?_forFunction, ← Option.map_eq_none_iff, types x,
      Frames.nearest_singleton, typed.apart x member]
  obtain ⟨r, hparams, ownParams, left⟩ :=
    declareParams_hoisted (s := f.hoisted.entry signature s) paramNames ints typed.params own unused
  have names : f.body.variables.map (·.1) = f.body.hoisted.map (·.name) := by
    rw [Typed.Block.variables_eq, List.map_map]
    rfl
  rw [names] at left
  have wellTyped := Typed.Block.WellTyped.hoisted f.body typed.body
  obtain ⟨q, hdecls, ownBody⟩ := Decl.checkAll_hoisted wellTyped ownParams left
  have bodyTypes : q.scope.Types [intFrame f.locals, functions] := by
    have nested : q.scope.Types [intFrame (declaredNames f.hoisted.body.decls),
        intFrame f.hoisted.paramNames, functions] :=
      Decl.checkAll_types hdecls (declareParams_types hsig hparams types)
    intro name
    rw [nested name, f.declaredNames_hoisted, f.paramNames_hoisted, nearest_intFrame_append]
    rfl
  have result : q.scope.result = some .int := by
    obtain ⟨_, declares, _⟩ := declareParams_declares hparams
    rw [(Decl.checkAll_declares hdecls).2.result, declares.result, Function.entry_scope, ← int]
    rfl
  obtain ⟨u, hstmts⟩ := Typed.Stmt.checkAll_source f.body.stmts typed.body.stmts bodyTypes ownBody
    result
  have flat : f.flat = ⟨f.name, signature.result, f.params,
      ⟨f.body.hoisted, Typed.Stmt.bareAll f.body.stmts⟩⟩ := by
    rw [int, ← typed.result]
    rfl
  exact ⟨_, Function.check_ok_iff.mpr ⟨f.params, _, r, u, hparams,
    Block.checkHere_ok_iff.mpr ⟨_, _, q, hdecls, hstmts, rfl⟩, flat, rfl⟩⟩

mutual

lemma Typed.Stmt.declarators_source : ∀ stmt : Typed.Stmt, stmt.source.declarators = []
  | .expr _ => rfl
  | .ret _ => rfl
  | .block ⟨_, stmts⟩ => Typed.Stmt.declaratorsAll_source stmts

lemma Typed.Stmt.declaratorsAll_source : ∀ stmts : List Typed.Stmt,
    Source.Stmt.declaratorsAll (Typed.Stmt.sourceAll stmts) = []
  | [] => rfl
  | stmt :: rest => by
    rw [Typed.Stmt.sourceAll, Source.Stmt.declaratorsAll, Typed.Stmt.declarators_source,
      Typed.Stmt.declaratorsAll_source, List.append_nil]

end

/-- The sites of the hoisted source are the emitted names, in the same order. -/
lemma Typed.Function.sites_hoisted (f : Typed.Function) : f.hoisted.sites = f.locals := by
  have declared : f.hoisted.body.declarators.map (·.name) = f.body.variables.map (·.1) := by
    rw [Source.Block.declarators_eq, ← f.declaredNames_hoisted, Source.declaredNames]
    simp only [Function.hoisted, Typed.Stmt.declaratorsAll_source, List.append_nil]
  rw [Source.Function.sites, f.paramNames_hoisted, declared]
  rfl

namespace Typed.Module

lemma functions_hoisted (m : Module) : m.hoisted.functions = m.functions.map Function.hoisted := by
  rw [hoisted, Source.Module.functions, List.filterMap_map]
  exact congrFun List.filterMap_eq_map _

lemma frame_hoisted {m : Module} (typed : m.WellTyped) : m.hoisted.frame = m.frame := by
  rw [Source.Module.frame, functions_hoisted, frame, List.map_map]
  congr 1
  refine List.map_congr_left fun f member => ?_
  have plain := typed.functions f member
  have ints : f.params.map (·.ty) = f.params.map fun _ => Ty.int :=
    List.map_congr_left fun p inside => by rw [plain.params p inside]
  have same : f.hoisted.ty = f.ty := by
    rw [Source.Function.ty, Function.paramNames_hoisted, Function.ty, plain.result, ints,
      List.map_map]
    rfl
  exact Prod.ext rfl same

/-- The hoisted source of a well-typed module is accepted, as the module with the variables of each
function at its top. -/
theorem WellTyped.analyze_hoisted {m : Module} (typed : m.WellTyped) :
    m.hoisted.analyze = .ok m.flat := by
  refine Source.Module.analyze_of_functions ?_ ?_ ?_
  · intro item member
    obtain ⟨f, _, rfl⟩ := List.mem_map.mp member
    exact ⟨_, rfl⟩
  · rw [Source.Module.functionNames, functions_hoisted, List.map_map]
    exact typed.distinct
  · rw [functions_hoisted, List.forall₂_map_left_iff, List.forall₂_map_right_iff,
      List.forall₂_same, frame_hoisted typed]
    exact fun f member => (typed.functions f member).check_hoisted

end Typed.Module

namespace Source

/-- Hoisting and renaming is a fixpoint. The source that is read off the typed tree of an accepted
module is accepted; hoisting it again changes nothing; each parameter and variable of it keeps its
name, and no renaming is reported; and it compiles to the same program. -/
theorem Module.hoisting_is_fixpoint {m : Module} {typed : Typed.Module}
    (accepted : m.analyze = .ok typed) :
    ∃ again, typed.hoisted.analyze = .ok again ∧ again.hoisted = typed.hoisted ∧
      List.Forall₂ (fun f tf => tf.name = f.name ∧ tf.locals = f.sites)
        typed.hoisted.functions again.functions ∧
      (∀ name unique, Event.renamed name unique ∉ typed.hoisted.checkEvents) ∧
      ∀ options, typed.hoisted.compile options = m.compile options := by
  have again := (Module.analyze_wellTyped accepted).analyze_hoisted
  have kept : List.Forall₂ (fun f tf => tf.name = f.name ∧ tf.locals = f.sites)
      typed.hoisted.functions typed.flat.functions := by
    rw [typed.functions_hoisted, Typed.Module.flat, List.forall₂_map_left_iff,
      List.forall₂_map_right_iff, List.forall₂_same]
    exact fun f _ => ⟨rfl, f.locals_flat.trans f.sites_hoisted.symm⟩
  refine ⟨typed.flat, again, typed.hoisted_flat, kept, ?_, ?_⟩
  · intro name unique reported
    have listed : (name, unique) ∈ typed.hoisted.checkEvents.filterMap Event.renaming? :=
      List.mem_filterMap.mpr ⟨_, reported, rfl⟩
    rw [Module.renamings_eq again, Typed.Module.functions_hoisted, Typed.Module.flat,
      List.zipWith_map] at listed
    simp [Typed.Function.locals_flat, Typed.Function.sites_hoisted] at listed
  · intro options
    rw [Module.compile, Module.compile, again, accepted]
    exact congrArg Except.ok (typed.emit_flat options)

/-- Two variables of one function are called `x` and one is called like the other function. -/
theorem Module.shadowing_hoisting_is_fixpoint :
    ∃ typed again, Module.shadowing.analyze = .ok typed ∧
      typed.hoisted.functions.map (·.sites) = [["x"], ["x", "y", "x$1", "inc$1"]] ∧
      typed.hoisted.analyze = .ok again ∧ again.hoisted = typed.hoisted ∧
      ∀ options, typed.hoisted.compile options = Module.shadowing.compile options := by
  have evaluated : Module.shadowing.analyze.toOption.map
      (fun typed => typed.hoisted.functions.map (·.sites)) =
        some [["x"], ["x", "y", "x$1", "inc$1"]] := by
    decide +kernel
  cases accepted : Module.shadowing.analyze with
  | error fault =>
    rw [accepted] at evaluated
    cases evaluated
  | ok typed =>
    rw [accepted] at evaluated
    obtain ⟨again, checked, same, _, _, compiled⟩ := Module.hoisting_is_fixpoint accepted
    exact ⟨typed, again, rfl, Option.some.inj evaluated, checked, same, compiled⟩

end Source

end MiniC
