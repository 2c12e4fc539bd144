import MiniC.Proofs.Names.Mirror

/-!
# Hoisting keeps what names mean

The names that a function takes, in the order it takes them, are the emitted names of its sites: the
checker visits declarations in the order they are written, and gives each a name that is not taken
and no visible source name. The invariant that carries the proof is `Scope.Shows`: looking a name up
in the scope gives the emitted name of the site that the nearest block gives.
-/

namespace MiniC

open Check (State)
open Source (Takes)

variable {functions : List String} {names : Nat → String} {frames : Frames Nat}

lemma Referent.ofSource?_push (key name : String) (index : Nat) (frame : List (String × Nat)) :
    ofSource? functions (((key, index) :: frame) :: frames) name =
      if key = name then some (.site index) else ofSource? functions (frame :: frames) name := by
  by_cases same : key = name
  · simp [ofSource?, Frames.nearest_push, same]
  · simp [ofSource?, Frames.nearest_push, same]

/-- A scope shows for each name the identifier of what the name stands for. -/
def Scope.Shows (scope : Scope) (functions : List String) (names : Nat → String)
    (frames : Frames Nat) : Prop :=
  ∀ name, (scope.binding? name).map (·.emitted) =
    (Referent.ofSource? functions frames name).map (·.identifier names)

lemma Scope.Shows.enter {scope : Scope} (h : scope.Shows functions names frames) :
    scope.Shows functions names ([] :: frames) := by
  intro name
  rw [h name]
  simp [Referent.ofSource?]

lemma Scope.Shows.bind {scope : Scope} {frame : List (String × Nat)}
    (h : scope.Shows functions names (frame :: frames)) {b : Binding} {index : Nat}
    (emitted : names index = b.emitted) :
    (scope.bind b).Shows functions names (((b.name, index) :: frame) :: frames) := by
  intro name
  rw [binding?_bind, Referent.ofSource?_push]
  by_cases same : b.name = name
  · simp [same, Referent.identifier, emitted]
  · simpa [same] using h name

/-- The names taken so far, the latest first, are those of the first sites. -/
def NamesSites (names : Nat → String) (taken : List String) : Prop :=
  ∀ index x, taken.reverse[index]? = some x → names index = x

lemma NamesSites.of_append {later taken : List String} (h : NamesSites names (later ++ taken)) :
    NamesSites names taken := by
  intro index x hx
  refine h index x ?_
  have bound := (List.getElem?_eq_some_iff.mp hx).1
  rw [List.reverse_append, List.getElem?_append_left bound, hx]

lemma NamesSites.before {s t : State} {later : List String} (sites : NamesSites names t.taken)
    (takes : Takes s t later) : NamesSites names s.taken := by
  rw [takes.taken] at sites
  exact sites.of_append

lemma Scope.Declares.shows {scope after : Scope} {taken takenAfter : List String}
    {bindings : List Binding} (h : scope.Declares taken bindings after takenAfter)
    (sites : NamesSites names takenAfter) {frame : List (String × Nat)}
    (shows : scope.Shows functions names (frame :: frames)) :
    after.Shows functions names
      ((siteFrame taken.length (bindings.map (·.name)) ++ frame) :: frames) := by
  induction h generalizing frame with
  | nil => exact shows
  | @cons scope after taken takenAfter b rest _ _ others ih =>
    have here : names taken.length = b.emitted := by
      have before := others.taken_eq ▸ sites
      refine before.of_append taken.length b.emitted ?_
      simp
    have later := ih sites (shows.bind here)
    simpa [siteFrame] using later

/-! ## Expressions -/

namespace Source

mutual

theorem Expr.check_mirrors {scope : Scope} (shows : scope.Shows functions names frames) :
    ∀ (e : Expr) {typed : Typed.Expr}, e.check scope = .ok typed →
      ExprMirror functions names frames e typed.emit
  | .const text span, typed, h => by
    obtain ⟨n, hn, small, rfl⟩ := Expr.check_const_ok_iff.mp h
    exact .const hn (Int64.toInt_ofNat_of_lt small)
  | .ident name span, typed, h => by
    obtain ⟨b, hb, rfl⟩ := Expr.check_ident_ok_iff.mp h
    have found := shows name
    rw [hb, Option.map_some] at found
    obtain ⟨r, hr, same⟩ := Option.map_eq_some_iff.mp found.symm
    rw [Typed.Expr.emit, ← same]
    exact .ident hr
  | .binary op left right span, typed, h => by
    obtain ⟨rfl, l, r, hl, hr, _, rfl⟩ := Expr.check_binary_ok_iff.mp h
    exact .add (Expr.check_mirrors shows left hl) (Expr.check_mirrors shows right hr)
  | .assign op target value span, typed, h => by
    obtain ⟨rfl, l, r, hl, _, hr, _, rfl⟩ := Expr.check_assign_ok_iff.mp h
    exact .assign (Expr.check_mirrors shows target hl) (Expr.check_mirrors shows value hr)
  | .call callee args span, typed, h => by
    obtain ⟨c, result, params, as, hc, _, count, has, rfl⟩ := Expr.check_call_ok_iff.mp h
    exact .call (Expr.check_mirrors shows callee hc)
      (Expr.checkArgs_mirrors shows args count has)

theorem Expr.checkArgs_mirrors {scope : Scope} (shows : scope.Shows functions names frames) :
    ∀ (args : List Expr) {params : List Ty} {typed : List Typed.Expr},
      params.length = args.length → Expr.checkArgs scope params args = .ok typed →
      ExprsMirror functions names frames args (Typed.Expr.emitAll typed)
  | [], params, typed, count, h => by
    cases List.length_eq_zero_iff.mp count
    cases h
    exact .nil
  | arg :: args, [], typed, count, h => by simp at count
  | arg :: args, param :: params, typed, count, h => by
    obtain ⟨a, rest, ha, _, hrest, rfl⟩ := Expr.checkArgs_cons_ok_iff.mp h
    exact .cons (Expr.check_mirrors shows arg ha)
      (Expr.checkArgs_mirrors shows args (Nat.succ.inj count) hrest)

end

end Source

lemma Typed.Expr.returned_emitReturned (e : Typed.Expr) :
    Returned e.emit (e.emitReturned .int) := by
  unfold Typed.Expr.emitReturned
  split
  · rename_i literal
    obtain ⟨value, hvalue⟩ := Option.isSome_iff_exists.mp literal
    obtain ⟨constant, range⟩ := Option.filter_eq_some_iff.mp hvalue
    cases e with
    | int v ty =>
      cases constant
      simp only [decide_eq_true_eq] at range
      exact .bare (by omega) (by omega)
    | var _ _ => cases constant
    | add _ _ _ => cases constant
    | assign _ _ _ => cases constant
    | call _ _ _ => cases constant
  · exact .coerced

/-- A function body: the coercions of the parameters, the variables, the statements. -/
lemma Typed.Function.emitBody_eq (name : String) {params : List Typed.Param}
    (body : Typed.Block)
    (coerced : params.map Typed.Param.emit = (params.map (·.name)).map Estree.selfCoercion) :
    Typed.Function.emitBody ⟨name, .int, params, body⟩ =
      Estree.functionBody (params.map (·.name)) body.variables
        (Typed.Stmt.emitAll .int body.stmts) := by
  simp only [Typed.Function.emitBody, Estree.functionBody, Typed.Block.emitStmts, coerced]
  congr 2
  unfold Typed.Block.emitVariables Estree.hoisted
  split <;> rfl

/-! ## Statements -/

namespace Source

lemma Decl.checkAll_hoists {decls : List Decl} {s t : State} {typed : List Typed.Declarator}
    (h : Decl.checkAll decls s = .ok typed t) :
    List.Forall₂ Declarator.Hoists (declaratorsOf decls) (typed.map Typed.Declarator.emit) := by
  have inits := (Decl.checkAll_declares h).1
  rw [List.forall₂_map_right_iff]
  refine inits.imp ?_
  rintro d typed ⟨n, starts, made⟩
  refine ⟨n, starts, ?_⟩
  rw [made]
  rfl

mutual

theorem Stmt.check_hoists : ∀ (stmt : Stmt) {s t : State} {typed : Typed.Stmt},
    stmt.check s = .ok typed t → List.Forall₂ Declarator.Hoists stmt.declarators typed.variables
  | .expr e span, s, t, typed, h => by
    obtain ⟨value, _, rfl, _⟩ := Stmt.check_expr_ok_iff.mp h
    exact .nil
  | .ret value span, s, t, typed, h => by
    obtain ⟨e, v, _, _, _, rfl, _⟩ := Stmt.check_ret_ok_iff.mp h
    exact .nil
  | .block body span, s, t, typed, h => by
    obtain ⟨b, r, hb, rfl, _⟩ := Stmt.check_block_ok_iff.mp h
    exact Block.checkHere_hoists body hb

theorem Stmt.checkAll_hoists : ∀ (stmts : List Stmt) {s t : State} {typed : List Typed.Stmt},
    Stmt.checkAll stmts s = .ok typed t →
      List.Forall₂ Declarator.Hoists (Stmt.declaratorsAll stmts) (Typed.Stmt.variablesAll typed)
  | [], s, t, typed, h => by
    obtain ⟨rfl, _⟩ := Check.pure_ok_iff.mp h
    exact .nil
  | stmt :: rest, s, t, typed, h => by
    obtain ⟨first, others, r, hfirst, hrest, rfl⟩ := Stmt.checkAll_cons_ok_iff.mp h
    exact List.rel_append (Stmt.check_hoists stmt hfirst) (Stmt.checkAll_hoists rest hrest)

theorem Block.checkHere_hoists : ∀ (block : Block) {s t : State} {typed : Typed.Block},
    block.checkHere s = .ok typed t →
      List.Forall₂ Declarator.Hoists block.declarators typed.variables
  | ⟨decls, stmts, span⟩, s, t, typed, h => by
    obtain ⟨ds, ss, r, hds, hss, rfl⟩ := Block.checkHere_ok_iff.mp h
    exact List.rel_append (Decl.checkAll_hoists hds) (Stmt.checkAll_hoists stmts hss)

end

/-- The number of sites behind a statement: one for each name it takes. -/
lemma Stmt.taken_length {stmt : Stmt} {s t : State} {typed : Typed.Stmt}
    (h : stmt.check s = .ok typed t) :
    t.taken.length = s.taken.length + stmt.declarators.length := by
  have takes := (Stmt.check_takes stmt h).2.taken
  have count := (Stmt.check_hoists stmt h).length_eq
  rw [takes, count]
  simp [Nat.add_comm]

/-- After the declarations of a block the scope shows a frame for them. -/
lemma Decl.checkAll_shows {decls : List Decl} {s t : State} {typed : List Typed.Declarator}
    (h : Decl.checkAll decls s = .ok typed t) (sites : NamesSites names t.taken)
    (shows : s.scope.Shows functions names frames) :
    t.scope.Shows functions names
        (siteFrame s.taken.length ((declaratorsOf decls).map (·.name)) :: frames) ∧
      t.taken.length = s.taken.length + (declaratorsOf decls).length := by
  obtain ⟨inits, declares⟩ := Decl.checkAll_declares h
  have later := declares.shows sites shows.enter
  rw [Declarator.bindings_names inits, List.append_nil] at later
  refine ⟨later, ?_⟩
  rw [declares.taken_eq, Declarator.bindings_emitted inits, inits.length_eq]
  simp [Nat.add_comm]

mutual

theorem Stmt.check_mirrors : ∀ (stmt : Stmt) {frames : Frames Nat} {s t : State}
    {typed : Typed.Stmt}, stmt.check s = .ok typed t → NamesSites names t.taken →
      s.scope.Shows functions names frames →
      StmtMirror functions names frames s.taken.length stmt (typed.emit .int)
  | .expr e span, frames, s, t, typed, h, sites, shows => by
    obtain ⟨value, hvalue, rfl, _⟩ := Stmt.check_expr_ok_iff.mp h
    exact .expr (Expr.check_mirrors shows e hvalue)
  | .ret value span, frames, s, t, typed, h, sites, shows => by
    obtain ⟨e, v, rfl, hv, _, rfl, _⟩ := Stmt.check_ret_ok_iff.mp h
    exact .ret (Expr.check_mirrors shows e hv) v.returned_emitReturned
  | .block ⟨decls, stmts, inner⟩ span, frames, s, t, typed, h, sites, shows => by
    obtain ⟨b, r, hb, rfl, rfl⟩ := Stmt.check_block_ok_iff.mp h
    obtain ⟨ds, ss, q, hds, hss, rfl⟩ := Block.checkHere_ok_iff.mp hb
    have earlier := NamesSites.before (t := r) sites (Stmt.checkAll_takes stmts hss).2
    obtain ⟨visible, count⟩ := Decl.checkAll_shows hds earlier shows
    have body := Stmt.checkAll_mirrors stmts hss sites visible
    rw [count] at body
    exact .block body

theorem Stmt.checkAll_mirrors : ∀ (stmts : List Stmt) {frames : Frames Nat} {s t : State}
    {typed : List Typed.Stmt}, Stmt.checkAll stmts s = .ok typed t → NamesSites names t.taken →
      s.scope.Shows functions names frames →
      StmtsMirror functions names frames s.taken.length stmts (Typed.Stmt.emitAll .int typed)
  | [], frames, s, t, typed, h, sites, shows => by
    obtain ⟨rfl, _⟩ := Check.pure_ok_iff.mp h
    exact .nil
  | stmt :: rest, frames, s, t, typed, h, sites, shows => by
    obtain ⟨first, others, r, hfirst, hrest, rfl⟩ := Stmt.checkAll_cons_ok_iff.mp h
    have earlier := sites.before (Stmt.checkAll_takes rest hrest).2
    have scope := (Stmt.check_takes stmt hfirst).1
    have tail := Stmt.checkAll_mirrors rest hrest sites (scope ▸ shows)
    rw [Stmt.taken_length hfirst] at tail
    exact .cons (Stmt.check_mirrors stmt hfirst earlier shows) tail

end

/-! ## Functions -/

lemma declareParams_takes {params : List Signature.Param} {s t : State} {typed : List Typed.Param}
    (h : declareParams params s = .ok typed t) :
    Takes s t (typed.map (·.name)) ∧
      ∀ x, t.scope.binding? x = none → s.scope.binding? x = none := by
  obtain ⟨bindings, declares, _, _, rfl⟩ := declareParams_declares h
  have emitted : (bindings.map fun b => (⟨b.emitted, b.ty, b.ty.intended⟩ : Typed.Param)).map
      (·.name) = bindings.map (·.emitted) := by simp
  exact ⟨⟨emitted ▸ declares.taken_eq, emitted ▸ declares.unused⟩, declares.visible⟩

lemma Function.check_takes {f : Function} {signature : Signature} {s r t : State}
    {params : List Typed.Param} {body : Typed.Block}
    (hparams : declareParams signature.params (f.entry signature s) = .ok params r)
    (hbody : f.body.checkHere r = .ok body t) :
    Takes (f.entry signature s) t (params.map (·.name) ++ body.variables.map (·.1)) := by
  obtain ⟨takes, visible⟩ := declareParams_takes hparams
  exact takes.append (Block.checkHere_takes f.body hbody) visible

/-- Parameters of type `int` are coerced to themselves. -/
lemma declareParams_emit {params : List Signature.Param} {s t : State} {typed : List Typed.Param}
    (h : declareParams params s = .ok typed t) (ints : ∀ p ∈ params, p.ty = .int) :
    typed.map Typed.Param.emit = (typed.map (·.name)).map Estree.selfCoercion := by
  obtain ⟨bindings, _, _, tys, rfl⟩ := declareParams_declares h
  rw [List.map_map, List.map_map, List.map_map]
  apply List.map_congr_left
  intro b hb
  have member : b.ty ∈ params.map (·.ty) := tys ▸ List.mem_map.mpr ⟨b, hb, rfl⟩
  obtain ⟨p, hp, same⟩ := List.mem_map.mp member
  have int : b.ty = .int := same ▸ ints p hp
  simp [Typed.Param.emit, Estree.selfCoercion, Typed.coerce, int, Ty.intended]

/-- The name of a site is the name taken at its position. -/
def nameAt (taken : List String) (index : Nat) : String :=
  taken.getD index ""

lemma nameAt_eq_getElem {taken : List String} {index : Nat} (bound : index < taken.length) :
    nameAt taken index = taken[index] := by
  simp [nameAt, bound]

lemma nameAt_injective {taken : List String} (distinct : taken.Nodup) {i j : Nat}
    (hi : i < taken.length) (hj : j < taken.length) (same : nameAt taken i = nameAt taken j) :
    i = j := by
  rw [nameAt_eq_getElem hi, nameAt_eq_getElem hj] at same
  exact (List.Nodup.getElem_inj_iff distinct).mp same

lemma namesSites_nameAt (taken : List String) : NamesSites (nameAt taken.reverse) taken := by
  intro index x found
  simp [nameAt, found]

lemma eq_map_nameAt (taken : List String) :
    taken = (List.range taken.length).map (nameAt taken) := by
  apply List.ext_getElem (by simp)
  intro i hi _
  simp [nameAt_eq_getElem hi]

/-- A function starts with the functions of the module in sight, and nothing of its own. -/
lemma Function.entry_shows (f : Function) (signature : Signature) {s : State}
    (names : Nat → String) (own : ∀ name, (s.scope.binding? name).map (·.emitted) =
      if name ∈ functions then some name else none) :
    (f.entry signature s).scope.Shows functions names [[]] := by
  intro name
  rw [Function.entry_scope, Scope.binding?_forFunction, own name]
  by_cases member : name ∈ functions
  · simp [Referent.ofSource?, Frames.nearest, member, Referent.identifier]
  · simp [Referent.ofSource?, Frames.nearest, member]

/-- A checked function is a mirror of its source, its sites named by its parameters and variables in
the order they are declared. -/
theorem Function.check_functionMirror {f : Function} {signature : Signature} {s t : State}
    {typed : Typed.Function} (hsig : f.signature = .ok signature)
    (h : f.check signature s = .ok typed t)
    (own : ∀ name, (s.scope.binding? name).map (·.emitted) =
      if name ∈ functions then some name else none) :
    FunctionMirror functions
      (nameAt (typed.params.map (·.name) ++ typed.body.variables.map (·.1))) f
      (typed.params.map (·.name)) typed.body.variables (typed.body.emitStmts .int) := by
  obtain ⟨_, _, _, paramNames, _⟩ := Function.signature_ok hsig
  obtain ⟨params, body, r, u, hparams, hbody, rfl, _⟩ := Function.check_ok_iff.mp h
  let taken := params.map (·.name) ++ body.variables.map (·.1)
  have takes := Function.check_takes hparams hbody
  have final : u.taken.reverse = taken := by simp [takes.taken, taken]
  have sites : NamesSites (nameAt taken) u.taken := final ▸ namesSites_nameAt u.taken
  have hoists := Block.checkHere_hoists f.body hbody
  obtain ⟨bindings, declares, names, _, rfl⟩ := declareParams_declares hparams
  have arity : bindings.length = f.paramNames.length := by
    rw [← paramNames, ← names, List.length_map]
  have count : taken.length = f.sites.length := by
    simp only [taken, List.length_append, List.length_map, Function.sites, arity,
      hoists.length_eq]
  have start := Function.entry_shows f signature (nameAt taken) own
  obtain ⟨ds, ss, q, hds, hss, rfl⟩ := Block.checkHere_ok_iff.mp hbody
  have later := sites.before (Stmt.checkAll_takes f.body.stmts hss).2
  have earlier := later.before (Decl.checkAll_takes hds).1
  have paramsShown := declares.shows earlier start
  rw [names, paramNames, Function.entry_taken, List.append_nil] at paramsShown
  obtain ⟨bodyShown, width⟩ := Decl.checkAll_shows hds later paramsShown
  have first : r.taken.length = f.paramNames.length := by
    rw [declares.taken_eq]
    simp [arity]
  have mirrored := Stmt.checkAll_mirrors f.body.stmts hss sites bodyShown
  rw [width, first] at mirrored
  have distinct := takes.unused.1
  refine ⟨?_, ?_, ?_, by simp [arity], hoists, mirrored⟩
  · intro i j hi hj same
    rw [← count] at hi hj
    exact nameAt_injective distinct hi hj same
  · intro i hi member
    rw [← count] at hi
    rw [nameAt_eq_getElem hi] at member
    have hidden := (takes.unused.2 _ (List.getElem_mem hi)).2
    rw [Function.entry_scope, Scope.binding?_forFunction] at hidden
    have shown := own taken[i]
    rw [hidden, if_pos member] at shown
    cases shown
  · rw [← count]
    exact eq_map_nameAt taken

lemma Function.check_emitBody {f : Function} {signature : Signature} {s t : State}
    {typed : Typed.Function} (hsig : f.signature = .ok signature)
    (h : f.check signature s = .ok typed t) :
    typed.emitBody = Estree.functionBody (typed.params.map (·.name)) typed.body.variables
      (typed.body.emitStmts .int) := by
  obtain ⟨_, _, int, _, ints⟩ := Function.signature_ok hsig
  obtain ⟨params, body, r, u, hparams, _, rfl, _⟩ := Function.check_ok_iff.mp h
  rw [int]
  exact Typed.Function.emitBody_eq f.name body (declareParams_emit hparams ints)

end Source

/-! ## Modules -/

lemma Typed.Function.findSome?_emit (functions : List Typed.Function) (name : String) :
    (functions.map Function.emit).findSome? (Estree.Stmt.declaration? name) =
      (functions.find? (·.name = name)).map fun f => (f.params.map (·.name), f.emitBody) := by
  induction functions with
  | nil => rfl
  | cons f rest ih =>
    by_cases same : f.name = name
    · simp [Function.emit, same]
    · simpa [Function.emit, same] using ih

/-- Looking a function up in an emitted module finds the first typed function of that name. -/
lemma Typed.Module.function?_emit (m : Typed.Module) (options : Options) (name : String) :
    (m.emit options).function? name =
      (m.functions.find? (·.name = name)).map fun f => (f.params.map (·.name), f.emitBody) := by
  simp [Module.emit, Module.emitBody, Estree.Program.function?, Estree.Program.moduleBody?,
    List.findSome?_cons, List.findSome?_append, Function.findSome?_emit]

namespace Source

lemma find?_of_forall₂ {functions : List Function} {typed : List Typed.Function}
    {R : Function → Typed.Function → Prop} (related : List.Forall₂ R functions typed)
    (names : ∀ f tf, R f tf → tf.name = f.name) (distinct : (functions.map (·.name)).Nodup)
    {f : Function} (member : f ∈ functions) :
    ∃ tf, typed.find? (·.name = f.name) = some tf ∧ R f tf := by
  induction related with
  | nil => cases member
  | @cons first tf rest others here there ih =>
    have fresh := List.nodup_cons.mp distinct
    rcases List.mem_cons.mp member with rfl | later
    · exact ⟨tf, by simp [names _ _ here], here⟩
    · have differs : first.name ≠ f.name := by
        intro same
        exact fresh.1 (List.mem_map.mpr ⟨f, later, same.symm⟩)
      obtain ⟨found, hit, holds⟩ := ih fresh.2 later
      exact ⟨found, by simpa [names _ _ here, differs] using hit, holds⟩

lemma Function.check_name {f : Function} {signature : Signature} {s t : State}
    {typed : Typed.Function} (h : f.check signature s = .ok typed t) : typed.name = f.name := by
  obtain ⟨_, _, _, _, _, _, rfl, _⟩ := Function.check_ok_iff.mp h
  rfl

/-- The functions of an accepted module are checked one by one to mirrors of their source, and keep
their names. -/
theorem Module.analyze_mirrors {m : Module} {typed : Typed.Module} (h : m.analyze = .ok typed) :
    List.Forall₂ (fun f tf => tf.name = f.name ∧
      FunctionMirror m.functionNames
        (nameAt (tf.params.map (·.name) ++ tf.body.variables.map (·.1))) f
        (tf.params.map (·.name)) tf.body.variables (tf.body.emitStmts .int) ∧
      tf.emitBody = Estree.functionBody (tf.params.map (·.name)) tf.body.variables
        (tf.body.emitStmts .int)) m.functions typed.functions := by
  obtain ⟨declared, functions, r, t, hdecl, hcheck, rfl⟩ := Module.analyze_ok_iff.mp h
  obtain ⟨functionsEq, _, bindings, names, _, kept, found⟩ := Item.declareAll_initial hdecl
  obtain ⟨_, signatures, _⟩ := Item.declareAll_declares hdecl
  have own := Module.emitted_of_binding? names kept found
  rw [functionsEq, List.forall₂_map_left_iff]
  refine ((List.forall₂_and_left ..).mpr ⟨signatures, Function.checkAll_forall₂ hcheck⟩).imp ?_
  rintro d tf ⟨hsig, q, u, scope, checked⟩
  exact ⟨Function.check_name checked, Function.check_functionMirror hsig checked (scope ▸ own),
    Function.check_emitBody hsig checked⟩

/-- What related members of two lists have in common. -/
lemma map_eq_map_of_forall₂ {α β γ : Type} {R : α → β → Prop} {as : List α} {bs : List β}
    {f : α → γ} {g : β → γ} (related : List.Forall₂ R as bs) (same : ∀ a b, R a b → f a = g b) :
    as.map f = bs.map g := by
  induction related with
  | nil => rfl
  | cons here _ ih => rw [List.map_cons, List.map_cons, same _ _ here, ih]

/-- The functions of an accepted module keep their names. -/
lemma Module.analyze_names {m : Module} {typed : Typed.Module} (h : m.analyze = .ok typed) :
    typed.functions.map (·.name) = m.functionNames :=
  (map_eq_map_of_forall₂ (Module.analyze_mirrors h) fun _ _ mirrored => mirrored.1.symm).symm

/-- Every function of an accepted module is in the emitted program, as a mirror of its source. -/
theorem Module.compile_mirrors {m : Module} {options : Options} {program : Estree.Program}
    (h : m.compile options = .ok program) {f : Function} (member : f ∈ m.functions) :
    ∃ params vars stmts names, FunctionMirror m.functionNames names f params vars stmts ∧
      program.function? f.name = some (params, Estree.functionBody params vars stmts) := by
  obtain ⟨typed, analyzed, rfl⟩ := Module.compile_ok_iff.mp h
  obtain ⟨_, _, r, _, hdecl, _, _⟩ := Module.analyze_ok_iff.mp analyzed
  have distinct := (Item.declareAll_initial hdecl).2.1
  obtain ⟨tf, hit, _, mirror, body⟩ :=
    find?_of_forall₂ (Module.analyze_mirrors analyzed) (fun _ _ mirrored => mirrored.1) distinct
      member
  refine ⟨_, _, _, _, mirror, ?_⟩
  rw [Typed.Module.function?_emit, hit, ← body]
  rfl

end Source

end MiniC
