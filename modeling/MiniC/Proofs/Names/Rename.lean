import MiniC.Proofs.Typing.Elaborated

/-!
# The same function in two modules

One and the same function may be checked in two modules. Where the second one shows every function
that the first one shows, and more, the second check gives the same typed function up to the names
of its parameters and variables: a name that is free in the first module may be the name of a
function in the second. `Typed.Function.Renaming` says what may be renamed, and how.

Both checks are given. They visit the same declarations in the same order, so the names that they
take correspond by position; the renaming is read off the names taken at the end, and every earlier
state agrees with it (`Source.Takes.renamed`).
-/

namespace MiniC

namespace Typed

/-! ## Renaming a typed tree -/

mutual

def Expr.rename (g : String → String) : Expr → Expr
  | .int value ty => .int value ty
  | .var name ty => .var (g name) ty
  | .add left right ty => .add (left.rename g) (right.rename g) ty
  | .assign target value ty => .assign (target.rename g) (value.rename g) ty
  | .call callee args ty => .call (callee.rename g) (Expr.renameAll g args) ty

def Expr.renameAll (g : String → String) : List Expr → List Expr
  | [] => []
  | e :: rest => e.rename g :: Expr.renameAll g rest

end

def Declarator.rename (g : String → String) (d : Declarator) : Declarator :=
  ⟨g d.name, d.ty, d.init.rename g⟩

mutual

def Stmt.rename (g : String → String) : Stmt → Stmt
  | .expr value => .expr (value.rename g)
  | .ret value => .ret (value.rename g)
  | .block body => .block (body.rename g)

def Stmt.renameAll (g : String → String) : List Stmt → List Stmt
  | [] => []
  | s :: rest => s.rename g :: Stmt.renameAll g rest

def Block.rename (g : String → String) : Block → Block
  | ⟨declarators, stmts⟩ => ⟨declarators.map (Declarator.rename g), Stmt.renameAll g stmts⟩

end

def Param.rename (g : String → String) (p : Param) : Param :=
  { p with name := g p.name }

/-- A function with all names of its parameters and its body changed; its own name stays. -/
def Function.rename (g : String → String) (f : Function) : Function :=
  ⟨f.name, f.result, f.params.map (Param.rename g), f.body.rename g⟩

/-- Parameters and variables of a function are renamed, and nothing else: different ones to
different names, and none to the name of a function. -/
structure Function.Renaming (functions : List String) (f : Function) (g : String → String) :
    Prop where
  injective : ∀ x ∈ f.locals, ∀ y ∈ f.locals, g x = g y → x = y
  fixed : ∀ x, x ∉ f.locals → g x = x
  apart : ∀ x ∈ f.locals, g x ∉ functions

/-- Functions that are the same up to the names of parameters and variables. -/
def Function.SameUpToLocals (functions : List String) (f other : Function) : Prop :=
  ∃ g, f.Renaming functions g ∧ other = f.rename g

@[simp]
lemma Expr.ty_rename (g : String → String) (e : Expr) : (e.rename g).ty = e.ty := by
  cases e <;> rfl

@[simp]
lemma Expr.isAssignable_rename (g : String → String) (e : Expr) :
    (e.rename g).isAssignable = e.isAssignable := by
  cases e <;> rfl

end Typed

open Check (State)

variable {g : String → String}

/-! ## Scopes -/

/-- A binding of the same name and type, emitted under the other name. -/
structure Binding.Renamed (g : String → String) (b c : Binding) : Prop where
  name : c.name = b.name
  emitted : c.emitted = g b.emitted
  ty : c.ty = b.ty

lemma Binding.forall₂_renamed {bindings others : List Binding}
    (names : others.map (·.name) = bindings.map (·.name))
    (emitted : others.map (·.emitted) = (bindings.map (·.emitted)).map g)
    (tys : others.map (·.ty) = bindings.map (·.ty)) :
    List.Forall₂ (Binding.Renamed g) bindings others := by
  induction bindings generalizing others with
  | nil =>
    cases others with
    | nil => exact .nil
    | cons c rest => cases names
  | cons b later ih =>
    cases others with
    | nil => cases names
    | cons c rest =>
      obtain ⟨name, names⟩ := List.cons.inj names
      obtain ⟨unique, emitted⟩ := List.cons.inj emitted
      obtain ⟨ty, tys⟩ := List.cons.inj tys
      exact .cons ⟨name, unique, ty⟩ (ih names emitted tys)

/-- Every visible name is visible in the other scope as well, with its emitted name changed. -/
def Scope.RenamedIn (g : String → String) (scope other : Scope) : Prop :=
  ∀ name b, scope.binding? name = some b →
    ∃ c, other.binding? name = some c ∧ c.emitted = g b.emitted ∧ c.ty = b.ty

namespace Scope.RenamedIn

variable {scope other : Scope}

lemma bind (h : scope.RenamedIn g other) {b c : Binding} (same : b.Renamed g c) :
    (scope.bind b).RenamedIn g (other.bind c) := by
  intro name found bound
  rw [binding?_bind] at bound
  rw [binding?_bind, same.name]
  split at bound
  · next here =>
    obtain rfl : b = found := Option.some.inj bound
    exact ⟨c, by rw [if_pos here], same.emitted, same.ty⟩
  · next differs =>
    rw [if_neg differs]
    exact h name found bound

lemma declares (h : scope.RenamedIn g other) {after after' : Scope}
    {taken taken' takenAfter takenAfter' : List String} {bindings others : List Binding}
    (run : scope.Declares taken bindings after takenAfter)
    (run' : other.Declares taken' others after' takenAfter')
    (same : List.Forall₂ (Binding.Renamed g) bindings others) : after.RenamedIn g after' := by
  induction run generalizing other taken' others with
  | nil =>
    cases same
    cases run'
    exact h
  | cons _ _ _ ih =>
    cases same with
    | cons first rest =>
      cases run' with
      | cons _ _ later => exact ih (h.bind first) later rest

end Scope.RenamedIn

namespace Source

/-! ## Expressions -/

mutual

theorem Expr.check_renamed {scope other : Scope} (renamed : scope.RenamedIn g other) :
    ∀ (e : Expr) {typed : Typed.Expr}, e.check scope = .ok typed →
      e.check other = .ok (typed.rename g)
  | .const text span, typed, h => by
    obtain ⟨n, read, small, rfl⟩ := Expr.check_const_ok_iff.mp h
    exact Expr.check_const_ok_iff.mpr ⟨n, read, small, rfl⟩
  | .ident name span, typed, h => by
    obtain ⟨b, found, rfl⟩ := Expr.check_ident_ok_iff.mp h
    obtain ⟨c, found', emitted, ty⟩ := renamed name b found
    exact Expr.check_ident_ok_iff.mpr ⟨c, found', by rw [emitted, ty, Typed.Expr.rename]⟩
  | .binary op left right span, typed, h => by
    obtain ⟨plus, l, r, hl, hr, same, rfl⟩ := Expr.check_binary_ok_iff.mp h
    exact Expr.check_binary_ok_iff.mpr ⟨plus, _, _, Expr.check_renamed renamed left hl,
      Expr.check_renamed renamed right hr, by simpa using same, by simp [Typed.Expr.rename]⟩
  | .assign op target value span, typed, h => by
    obtain ⟨plain, l, r, hl, named, hr, same, rfl⟩ := Expr.check_assign_ok_iff.mp h
    exact Expr.check_assign_ok_iff.mpr ⟨plain, _, _, Expr.check_renamed renamed target hl,
      by simpa using named, Expr.check_renamed renamed value hr, by simpa using same,
      by simp [Typed.Expr.rename]⟩
  | .call callee args span, typed, h => by
    obtain ⟨c, result, params, as, hc, function, count, has, rfl⟩ := Expr.check_call_ok_iff.mp h
    exact Expr.check_call_ok_iff.mpr ⟨_, result, params, _, Expr.check_renamed renamed callee hc,
      by simpa using function, count, Expr.checkArgs_renamed renamed args count has, rfl⟩

theorem Expr.checkArgs_renamed {scope other : Scope} (renamed : scope.RenamedIn g other) :
    ∀ (args : List Expr) {params : List Ty} {typed : List Typed.Expr},
      params.length = args.length → Expr.checkArgs scope params args = .ok typed →
      Expr.checkArgs other params args = .ok (Typed.Expr.renameAll g typed)
  | [], params, typed, count, h => by
    cases List.length_eq_zero_iff.mp count
    cases h
    rfl
  | arg :: args, [], typed, count, h => by cases count
  | arg :: args, param :: params, typed, count, h => by
    obtain ⟨a, rest, ha, same, hrest, rfl⟩ := Expr.checkArgs_cons_ok_iff.mp h
    exact Expr.checkArgs_cons_ok_iff.mpr ⟨_, _, Expr.check_renamed renamed arg ha,
      by simpa using same, Expr.checkArgs_renamed renamed args (Nat.succ.inj count) hrest, rfl⟩

end

/-! ## Declarations and statements -/

/-- Two runs that take equally many names: where the names taken at the end correspond, so do those
taken before and those taken in between. -/
lemma Takes.renamed {s t s' t' : State} {names names' : List String} (h : Takes s t names)
    (h' : Takes s' t' names') (count : names'.length = names.length)
    (final : t'.taken = t.taken.map g) :
    s'.taken = s.taken.map g ∧ names' = names.map g := by
  rw [h.taken, h'.taken, List.map_append] at final
  obtain ⟨inside, before⟩ := List.append_inj final (by simpa using count)
  refine ⟨before, List.reverse_injective ?_⟩
  rw [inside, List.map_reverse]

lemma Declarator.Initializes.rename {d : Declarator} {typed typed' : Typed.Declarator}
    (h : d.Initializes typed) (h' : d.Initializes typed') (name : typed'.name = g typed.name) :
    typed' = typed.rename g := by
  obtain ⟨n, ⟨initial, _⟩, made⟩ := h
  obtain ⟨n', ⟨initial', _⟩, made'⟩ := h'
  obtain rfl : n = n' := Option.some.inj (initial.symm.trans initial')
  rw [made', name, made]
  rfl

lemma Declarator.initializes_rename {ds : List Declarator} {typed typed' : List Typed.Declarator}
    (inits : List.Forall₂ Declarator.Initializes ds typed)
    (inits' : List.Forall₂ Declarator.Initializes ds typed')
    (names : typed'.map (·.name) = (typed.map (·.name)).map g) :
    typed' = typed.map (Typed.Declarator.rename g) := by
  induction inits generalizing typed' with
  | nil =>
    cases inits'
    rfl
  | cons first _ ih =>
    cases inits' with
    | cons first' rest' =>
      obtain ⟨name, names⟩ := List.cons.inj names
      rw [first.rename first' name, ih rest' names, List.map_cons]

lemma Declarator.bindings_tys {ds : List Declarator} {typed : List Typed.Declarator}
    (inits : List.Forall₂ Declarator.Initializes ds typed) :
    (Declarator.bindings ds typed).map (·.ty) = ds.map fun _ => .int := by
  induction inits with
  | nil => rfl
  | cons _ _ ih => simpa [bindings, binding] using ih

lemma Decl.checkAll_renamed {decls : List Decl} {s t s' t' : State}
    {typed typed' : List Typed.Declarator} (h : Decl.checkAll decls s = .ok typed t)
    (h' : Decl.checkAll decls s' = .ok typed' t') (final : t'.taken = t.taken.map g)
    (renamed : s.scope.RenamedIn g s'.scope) :
    typed' = typed.map (Typed.Declarator.rename g) ∧ t.scope.RenamedIn g t'.scope := by
  obtain ⟨inits, declares⟩ := Decl.checkAll_declares h
  obtain ⟨inits', declares'⟩ := Decl.checkAll_declares h'
  have count : (typed'.map (·.name)).length = (typed.map (·.name)).length := by
    rw [List.length_map, List.length_map, ← inits.length_eq, inits'.length_eq]
  have names := ((Decl.checkAll_takes h).1.renamed (Decl.checkAll_takes h').1 count final).2
  refine ⟨Declarator.initializes_rename inits inits' names, renamed.declares declares declares' ?_⟩
  apply Binding.forall₂_renamed
  · rw [Declarator.bindings_names inits, Declarator.bindings_names inits']
  · rw [Declarator.bindings_emitted inits, Declarator.bindings_emitted inits', names]
  · rw [Declarator.bindings_tys inits, Declarator.bindings_tys inits']

/-- Statements take as many names as they have declarators, in every scope. -/
lemma Stmt.checkAll_takes_alike {stmts : List Stmt} {s t s' t' : State}
    {typed typed' : List Typed.Stmt} (h : Stmt.checkAll stmts s = .ok typed t)
    (h' : Stmt.checkAll stmts s' = .ok typed' t') (final : t'.taken = t.taken.map g) :
    s'.taken = s.taken.map g := by
  have count := (Stmt.checkAll_hoists stmts h).length_eq
  have count' := (Stmt.checkAll_hoists stmts h').length_eq
  refine ((Stmt.checkAll_takes stmts h).2.renamed (Stmt.checkAll_takes stmts h').2 ?_ final).1
  rw [List.length_map, List.length_map, ← count, count']

mutual

theorem Stmt.check_renamed : ∀ (stmt : Stmt) {s t s' t' : State} {typed typed' : Typed.Stmt},
    stmt.check s = .ok typed t → stmt.check s' = .ok typed' t' → t'.taken = t.taken.map g →
      s.scope.RenamedIn g s'.scope → typed' = typed.rename g
  | .expr e span, s, t, s', t', typed, typed', h, h', final, renamed => by
    obtain ⟨value, checked, rfl, _⟩ := Stmt.check_expr_ok_iff.mp h
    obtain ⟨value', checked', rfl, _⟩ := Stmt.check_expr_ok_iff.mp h'
    have same := (Expr.check_renamed renamed e checked).symm.trans checked'
    rw [Typed.Stmt.rename, Except.ok.inj same]
  | .ret value span, s, t, s', t', typed, typed', h, h', final, renamed => by
    obtain ⟨e, v, rfl, checked, _, rfl, _⟩ := Stmt.check_ret_ok_iff.mp h
    obtain ⟨e', v', again, checked', _, rfl, _⟩ := Stmt.check_ret_ok_iff.mp h'
    cases again
    have same := (Expr.check_renamed renamed e checked).symm.trans checked'
    rw [Typed.Stmt.rename, Except.ok.inj same]
  | .block body span, s, t, s', t', typed, typed', h, h', final, renamed => by
    obtain ⟨b, r, hb, rfl, rfl⟩ := Stmt.check_block_ok_iff.mp h
    obtain ⟨b', r', hb', rfl, rfl⟩ := Stmt.check_block_ok_iff.mp h'
    -- The fork shows what the scope shows.
    rw [Typed.Stmt.rename, Block.checkHere_renamed body hb hb' final renamed]

theorem Stmt.checkAll_renamed : ∀ (stmts : List Stmt) {s t s' t' : State}
    {typed typed' : List Typed.Stmt}, Stmt.checkAll stmts s = .ok typed t →
      Stmt.checkAll stmts s' = .ok typed' t' → t'.taken = t.taken.map g →
      s.scope.RenamedIn g s'.scope → typed' = Typed.Stmt.renameAll g typed
  | [], s, t, s', t', typed, typed', h, h', final, renamed => by
    obtain ⟨rfl, _⟩ := Check.pure_ok_iff.mp h
    obtain ⟨rfl, _⟩ := Check.pure_ok_iff.mp h'
    rfl
  | stmt :: rest, s, t, s', t', typed, typed', h, h', final, renamed => by
    obtain ⟨first, others, r, hfirst, hrest, rfl⟩ := Stmt.checkAll_cons_ok_iff.mp h
    obtain ⟨first', others', r', hfirst', hrest', rfl⟩ := Stmt.checkAll_cons_ok_iff.mp h'
    have between := Stmt.checkAll_takes_alike hrest hrest' final
    have scope := (Stmt.check_takes stmt hfirst).1
    have scope' := (Stmt.check_takes stmt hfirst').1
    rw [Typed.Stmt.renameAll, Stmt.check_renamed stmt hfirst hfirst' between renamed,
      Stmt.checkAll_renamed rest hrest hrest' final (scope ▸ scope' ▸ renamed)]

theorem Block.checkHere_renamed : ∀ (block : Block) {s t s' t' : State}
    {typed typed' : Typed.Block}, block.checkHere s = .ok typed t →
      block.checkHere s' = .ok typed' t' → t'.taken = t.taken.map g →
      s.scope.RenamedIn g s'.scope → typed' = typed.rename g
  | ⟨decls, stmts, span⟩, s, t, s', t', typed, typed', h, h', final, renamed => by
    obtain ⟨ds, ss, r, hds, hss, rfl⟩ := Block.checkHere_ok_iff.mp h
    obtain ⟨ds', ss', r', hds', hss', rfl⟩ := Block.checkHere_ok_iff.mp h'
    have between := Stmt.checkAll_takes_alike hss hss' final
    obtain ⟨declarators, visible⟩ := Decl.checkAll_renamed hds hds' between renamed
    rw [Typed.Block.rename, declarators, Stmt.checkAll_renamed stmts hss hss' final visible]

end

/-! ## Functions -/

lemma declareParams_renamed {params : List Signature.Param} {s t s' t' : State}
    {typed typed' : List Typed.Param} (h : declareParams params s = .ok typed t)
    (h' : declareParams params s' = .ok typed' t') (final : t'.taken = t.taken.map g)
    (renamed : s.scope.RenamedIn g s'.scope) :
    typed' = typed.map (Typed.Param.rename g) ∧ t.scope.RenamedIn g t'.scope := by
  have takes := (declareParams_takes h).1
  have takes' := (declareParams_takes h').1
  obtain ⟨bindings, declares, names, tys, rfl⟩ := declareParams_declares h
  obtain ⟨others, declares', names', tys', rfl⟩ := declareParams_declares h'
  have same : others.map (·.name) = bindings.map (·.name) := names'.trans names.symm
  have count : others.length = bindings.length := by simpa using congrArg List.length same
  have emitted : others.map (·.emitted) = (bindings.map (·.emitted)).map g := by
    simpa [Function.comp_def] using (takes.renamed takes' (by simpa using count) final).2
  have related : List.Forall₂ (Binding.Renamed g) bindings others :=
    Binding.forall₂_renamed same emitted (tys'.trans tys.symm)
  refine ⟨?_, renamed.declares declares declares' related⟩
  rw [List.map_map]
  refine (map_eq_map_of_forall₂ related fun b c renamed => ?_).symm
  simp [Typed.Param.rename, renamed.emitted, renamed.ty]

lemma declareParams_length {params : List Signature.Param} {s t : State} {typed : List Typed.Param}
    (h : declareParams params s = .ok typed t) : typed.length = params.length := by
  obtain ⟨bindings, _, names, _, rfl⟩ := declareParams_declares h
  simpa using congrArg List.length names

/-- The name that stands where a name stood; other names stay. -/
def renameBy (names others : List String) (x : String) : String :=
  others.getD (names.idxOf x) x

lemma renameBy_of_notMem {names others : List String} (count : others.length = names.length)
    {x : String} (absent : x ∉ names) : renameBy names others x = x := by
  rw [renameBy, List.idxOf_eq_length absent, ← count]
  simp

lemma map_renameBy {names others : List String} (distinct : names.Nodup)
    (count : others.length = names.length) : names.map (renameBy names others) = others := by
  apply List.ext_getElem (by simp [count])
  intro i bound bound'
  simp [renameBy, distinct.idxOf_getElem, bound']

/-- A function that is checked in two modules, of which the second shows all functions of the first,
is checked to the same typed function up to its parameters and variables. -/
theorem Function.check_sameUpToLocals {f : Function} {signature : Signature} {s t s' t' : State}
    {typed typed' : Typed.Function} (h : f.check signature s = .ok typed t)
    (h' : f.check signature s' = .ok typed' t') (own : s.scope.OwnNames)
    (own' : s'.scope.OwnNames) {functions : List String}
    (shown : ∀ name b, s.scope.binding? name = some b →
      ∃ c, s'.scope.binding? name = some c ∧ c.ty = b.ty)
    (known : ∀ name ∈ functions, s'.scope.binding? name ≠ none) :
    typed.SameUpToLocals functions typed' := by
  obtain ⟨params, body, r, u, hparams, hbody, rfl, _⟩ := Function.check_ok_iff.mp h
  obtain ⟨params', body', r', u', hparams', hbody', rfl, _⟩ := Function.check_ok_iff.mp h'
  have takes := Function.check_takes hparams hbody
  have takes' := Function.check_takes hparams' hbody'
  let locals := params.map (·.name) ++ body.variables.map (·.1)
  let locals' := params'.map (·.name) ++ body'.variables.map (·.1)
  let g := renameBy locals locals'
  have sameLength : body'.variables.length = body.variables.length := by
    rw [← (Block.checkHere_hoists f.body hbody).length_eq,
      (Block.checkHere_hoists f.body hbody').length_eq]
  have count : locals'.length = locals.length := by
    simp only [locals, locals', List.length_append, List.length_map, sameLength,
      declareParams_length hparams, declareParams_length hparams']
  have map : locals.map g = locals' := map_renameBy takes.unused.1 count
  have final : u'.taken = u.taken.map g := by
    rw [takes.taken, takes'.taken, Function.entry_taken, Function.entry_taken, List.append_nil,
      List.append_nil, List.map_reverse, map]
  have hidden : ∀ x ∈ locals, s.scope.binding? x = none := fun x member =>
    (takes.unused.2 x member).2
  have entry : (f.entry signature s).scope.RenamedIn g (f.entry signature s').scope := by
    intro name b found
    obtain ⟨c, found', ty⟩ := shown name b found
    have outside : name ∉ locals := fun inside => by
      rw [Function.entry_scope, Scope.binding?_forFunction, hidden name inside] at found
      cases found
    refine ⟨c, found', ?_, ty⟩
    rw [own' name c found', own name b found]
    exact (renameBy_of_notMem count outside).symm
  have between := ((Block.checkHere_takes f.body hbody).renamed
    (Block.checkHere_takes f.body hbody') (by simpa using sameLength) final).1
  obtain ⟨sameParams, visible⟩ := declareParams_renamed hparams hparams' between entry
  have sameBody := Block.checkHere_renamed f.body hbody hbody' final visible
  refine ⟨g, ⟨?_, ?_, ?_⟩, by rw [Typed.Function.rename, sameParams, sameBody]⟩
  · intro x hx y hy same
    have distinct : (locals.map g).Nodup := map ▸ takes'.unused.1
    exact List.inj_on_of_nodup_map distinct hx hy same
  · intro x outside
    exact renameBy_of_notMem count outside
  · intro x member function
    have inside : g x ∈ locals' := map ▸ List.mem_map.mpr ⟨x, member, rfl⟩
    exact known (g x) function (takes'.unused.2 (g x) inside).2

end Source

end MiniC
