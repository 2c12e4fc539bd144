import MiniC.Proofs.Check.Module

/-!
# Checks in scopes that look alike

Two scopes look alike when every name has the same emitted name and type in both, and the same names
can be declared. Where the bindings were declared, what they hide and in which order they were made
may differ. A check that succeeds in one state succeeds in every state that looks alike, with the
same typed tree: each step of the check reads no more of the scope than that.
-/

namespace MiniC

namespace Scope

/-- The same names may be declared, and every name shows the same emitted name and type. -/
structure Alike (scope other : Scope) : Prop where
  result : scope.result = other.result
  free : ∀ name, scope.local? name = none ↔ other.local? name = none
  shown : ∀ name, (scope.binding? name).map (fun b => (b.emitted, b.ty)) =
    (other.binding? name).map fun b => (b.emitted, b.ty)

namespace Alike

variable {scope other : Scope}

lemma binding? (h : scope.Alike other) {name : String} {b : Binding}
    (found : scope.binding? name = some b) :
    ∃ c, other.binding? name = some c ∧ c.emitted = b.emitted ∧ c.ty = b.ty := by
  have shown := h.shown name
  rw [found, Option.map_some] at shown
  obtain ⟨c, found', same⟩ := Option.map_eq_some_iff.mp shown.symm
  exact ⟨c, found', congrArg Prod.fst same, congrArg Prod.snd same⟩

lemma freshName_eq (h : scope.Alike other) (taken : List String) (name : String) :
    scope.freshName taken name = other.freshName taken name := by
  refine freshName_congr (fun x => ?_) name
  have shown := congrArg Option.isSome (h.shown x)
  rw [Option.isSome_map, Option.isSome_map] at shown
  rw [isOccupied, isOccupied, shown]

lemma fork (h : scope.Alike other) : scope.fork.Alike other.fork :=
  ⟨h.result, fun _ => Iff.rfl, h.shown⟩

lemma bind (h : scope.Alike other) {b c : Binding} (name : b.name = c.name)
    (emitted : b.emitted = c.emitted) (ty : b.ty = c.ty) :
    (scope.bind b).Alike (other.bind c) := by
  refine ⟨h.result, fun x => ?_, fun x => ?_⟩
  · rw [local?_bind, local?_bind, name]
    by_cases same : c.name = x
    · simp [same]
    · simpa [same] using h.free x
  · rw [binding?_bind, binding?_bind, name]
    by_cases same : c.name = x
    · simp [same, emitted, ty]
    · simpa [same] using h.shown x

end Alike

end Scope

namespace Source

/-! ## Expressions -/

mutual

theorem Expr.check_alike {scope other : Scope} (alike : scope.Alike other) :
    ∀ (e : Expr) {typed : Typed.Expr}, e.check scope = .ok typed → e.check other = .ok typed
  | .const text span, typed, h => by
    exact Expr.check_const_ok_iff.mpr (Expr.check_const_ok_iff.mp h)
  | .ident name span, typed, h => by
    obtain ⟨b, found, rfl⟩ := Expr.check_ident_ok_iff.mp h
    obtain ⟨c, found', emitted, ty⟩ := alike.binding? found
    exact Expr.check_ident_ok_iff.mpr ⟨c, found', by rw [emitted, ty]⟩
  | .binary op left right span, typed, h => by
    obtain ⟨plus, l, r, hl, hr, same, rfl⟩ := Expr.check_binary_ok_iff.mp h
    exact Expr.check_binary_ok_iff.mpr ⟨plus, l, r, Expr.check_alike alike left hl,
      Expr.check_alike alike right hr, same, rfl⟩
  | .assign op target value span, typed, h => by
    obtain ⟨plain, l, r, hl, named, hr, same, rfl⟩ := Expr.check_assign_ok_iff.mp h
    exact Expr.check_assign_ok_iff.mpr ⟨plain, l, r, Expr.check_alike alike target hl, named,
      Expr.check_alike alike value hr, same, rfl⟩
  | .call callee args span, typed, h => by
    obtain ⟨c, result, params, as, hc, function, count, has, rfl⟩ := Expr.check_call_ok_iff.mp h
    exact Expr.check_call_ok_iff.mpr ⟨c, result, params, as, Expr.check_alike alike callee hc,
      function, count, Expr.checkArgs_alike alike args count has, rfl⟩

theorem Expr.checkArgs_alike {scope other : Scope} (alike : scope.Alike other) :
    ∀ (args : List Expr) {params : List Ty} {typed : List Typed.Expr},
      params.length = args.length → Expr.checkArgs scope params args = .ok typed →
      Expr.checkArgs other params args = .ok typed
  | [], params, typed, count, h => by
    cases List.length_eq_zero_iff.mp count
    exact h
  | arg :: args, [], typed, count, h => by cases count
  | arg :: args, param :: params, typed, count, h => by
    obtain ⟨a, rest, ha, same, hrest, rfl⟩ := Expr.checkArgs_cons_ok_iff.mp h
    exact Expr.checkArgs_cons_ok_iff.mpr ⟨a, rest, Expr.check_alike alike arg ha, same,
      Expr.checkArgs_alike alike args (Nat.succ.inj count) hrest, rfl⟩

end

end Source

/-! ## Checks -/

namespace Check

/-- States in which the same is visible and the same names are taken; their logs may differ. -/
structure State.Alike (s s' : State) : Prop where
  scope : s.scope.Alike s'.scope
  taken : s.taken = s'.taken

/-- Where the first check succeeds, the second one succeeds in every state that looks alike, with
the same value, and the states after them look alike. -/
def Alike {α : Type} (x y : Check α) : Prop :=
  ∀ ⦃s s' : State⦄, s.Alike s' → ∀ a t, x s = .ok a t → ∃ t', y s' = .ok a t' ∧ t.Alike t'

namespace Alike

variable {α β : Type} {x y : Check α}

lemma pure (a : α) : Alike (pure a) (pure a) := by
  intro s s' alike b t h
  obtain ⟨rfl, rfl⟩ := pure_ok_iff.mp h
  exact ⟨s', rfl, alike⟩

lemma bind {f g : α → Check β} (first : Alike x y) (next : ∀ a, Alike (f a) (g a)) :
    Alike (x >>= f) (y >>= g) := by
  intro s s' alike b t h
  obtain ⟨a, r, hx, hf⟩ := bind_ok_iff.mp h
  obtain ⟨r', hy, between⟩ := first alike a r hx
  obtain ⟨t', hg, after⟩ := next a between b t hf
  exact ⟨t', bind_ok_iff.mpr ⟨a, r', hy, hg⟩, after⟩

/-- A check that never succeeds is followed by any other. -/
lemma throw (fault : Fault) : Alike (throw fault) y :=
  fun _ _ _ _ _ h => (throw_ok_iff.mp h).elim

lemma ofExcept {result other : Except Fault α} (h : ∀ a, result = .ok a → other = .ok a) :
    Alike (ofExcept result) (ofExcept other) := by
  intro s s' alike a t run
  obtain ⟨found, rfl⟩ := ofExcept_ok_iff.mp run
  exact ⟨s', ofExcept_ok_iff.mpr ⟨h a found, rfl⟩, alike⟩

/-- What is read from the scope may be anything that scopes that look alike agree on. -/
lemma scope_bind {f g : Scope → Check α}
    (next : ∀ scope other, scope.Alike other → Alike (f scope) (g other)) :
    Alike (scope >>= f) (scope >>= g) := by
  intro s s' alike a t h
  obtain ⟨_, _, read, hf⟩ := bind_ok_iff.mp h
  obtain ⟨rfl, rfl⟩ := scope_ok_iff.mp read
  obtain ⟨t', hg, after⟩ := next s.scope s'.scope alike.scope alike a t hf
  exact ⟨t', bind_ok_iff.mpr ⟨s'.scope, s', scope_ok_iff.mpr ⟨rfl, rfl⟩, hg⟩, after⟩

lemma report (event event' : Event) : Alike (report event) (report event') := by
  intro s s' alike _ t h
  obtain rfl := report_ok_iff.mp h
  exact ⟨_, report_ok_iff.mpr rfl, alike.scope, alike.taken⟩

lemma declare (name : String) (ty : Ty) (place : Location) :
    Alike (declare name ty place) (declare name ty place) := by
  intro s s' alike emitted t h
  obtain ⟨new, rfl, rfl⟩ := declare_ok_iff.mp h
  have fresh : s.scope.freshName s.taken name = s'.scope.freshName s'.taken name := by
    rw [alike.scope.freshName_eq, alike.taken]
  refine ⟨_, declare_ok_iff.mpr ⟨(alike.scope.free name).mp new, fresh.symm, rfl⟩, ?_, ?_⟩
  · rw [State.declared_scope, State.declared_scope]
    exact alike.scope.bind rfl fresh rfl
  · rw [State.declared_taken, State.declared_taken, fresh, alike.taken]

lemma inFork (h : Alike x y) : Alike (inFork x) (inFork y) := by
  intro s s' alike a t run
  obtain ⟨r, hx, rfl⟩ := inFork_ok_iff.mp run
  have entered : (s.entered s.scope.fork).Alike (s'.entered s'.scope.fork) :=
    ⟨alike.scope.fork, alike.taken⟩
  obtain ⟨r', hy, after⟩ := h entered a r hx
  exact ⟨_, inFork_ok_iff.mpr ⟨r', hy, rfl⟩, alike.scope, after.taken⟩

end Alike

end Check

/-! ## Declarations and statements -/

namespace Source

open Check (State)

lemma Declarator.checkValue_alike (d : Declarator) (ty : Ty) {scope other : Scope}
    (alike : scope.Alike other) {typed : Typed.Expr} (h : d.checkValue ty scope = .ok typed) :
    d.checkValue ty other = .ok typed := by
  obtain ⟨name, init, span⟩ := d
  cases init with
  | none => exact h
  | some init =>
    simp only [Declarator.checkValue, except_bind_ok_iff] at h ⊢
    obtain ⟨value, checked, rest⟩ := h
    exact ⟨value, Expr.check_alike alike init checked, rest⟩

lemma Declarator.check_alike (d : Declarator) (ty : Ty) : Check.Alike (d.check ty) (d.check ty) := by
  refine .bind (.declare d.name ty d.span.start) fun emitted => .scope_bind fun scope other h => ?_
  exact .bind (.ofExcept fun _ => d.checkValue_alike ty h) fun init =>
    .bind (.report _ _) fun _ => .pure _

lemma Declarator.checkAll_alike (ty : Ty) (ds : List Declarator) :
    Check.Alike (Declarator.checkAll ty ds) (Declarator.checkAll ty ds) := by
  induction ds with
  | nil => exact .pure _
  | cons d rest ih => exact .bind (d.check_alike ty) fun _ => .bind ih fun _ => .pure _

lemma Decl.check_alike (d : Decl) : Check.Alike d.check d.check := by
  unfold Decl.check
  split
  · exact Declarator.checkAll_alike .int d.declarators
  · exact .throw _

lemma Decl.checkAll_alike (decls : List Decl) :
    Check.Alike (Decl.checkAll decls) (Decl.checkAll decls) := by
  induction decls with
  | nil => exact .pure _
  | cons d rest ih => exact .bind d.check_alike fun _ => .bind ih fun _ => .pure _

lemma checkReturn_alike (value : Option Expr) (place : Location) {scope other : Scope}
    (alike : scope.Alike other) {typed : Typed.Expr}
    (h : checkReturn value place scope = .ok typed) : checkReturn value place other = .ok typed := by
  obtain ⟨e, rfl, checked, result⟩ := checkReturn_ok_iff.mp h
  exact checkReturn_ok_iff.mpr
    ⟨e, rfl, Expr.check_alike alike e checked, alike.result.symm.trans result⟩

mutual

theorem Stmt.check_alike : ∀ stmt : Stmt, Check.Alike stmt.check stmt.check
  | .expr e span => by
    rw [Stmt.check]
    exact .scope_bind fun scope other alike =>
      .bind (.ofExcept fun _ => Expr.check_alike alike e) fun _ => .pure _
  | .ret value span => by
    rw [Stmt.check]
    exact .scope_bind fun scope other alike =>
      .bind (.ofExcept fun _ => checkReturn_alike value span.start alike) fun _ => .pure _
  | .block body span => by
    rw [Stmt.check]
    exact .bind (.inFork (Block.checkHere_alike body)) fun _ => .pure _

theorem Stmt.checkAll_alike : ∀ stmts : List Stmt,
    Check.Alike (Stmt.checkAll stmts) (Stmt.checkAll stmts)
  | [] => .pure _
  | stmt :: rest => by
    rw [Stmt.checkAll]
    exact .bind (Stmt.check_alike stmt) fun _ => .bind (Stmt.checkAll_alike rest) fun _ => .pure _

theorem Block.checkHere_alike : ∀ block : Block,
    Check.Alike block.checkHere block.checkHere
  | ⟨decls, stmts, span⟩ => by
    rw [Block.checkHere]
    exact .bind (Decl.checkAll_alike decls) fun _ =>
      .bind (Stmt.checkAll_alike stmts) fun _ => .pure _

end

/-! ## Functions -/

lemma declareParams_alike (params : List Signature.Param) :
    Check.Alike (declareParams params) (declareParams params) := by
  induction params with
  | nil => exact .pure _
  | cons p rest ih => exact .bind (.declare p.name p.ty p.place) fun _ => .bind ih fun _ => .pure _

/-- A function is checked to the same typed function wherever the module around it shows the same
emitted names and types. -/
theorem Function.check_alike {f : Function} {signature : Signature} {s t : State}
    {typed : Typed.Function} (h : f.check signature s = .ok typed t) {s' : State}
    (shown : ∀ name, (s.scope.binding? name).map (fun b => (b.emitted, b.ty)) =
      (s'.scope.binding? name).map fun b => (b.emitted, b.ty)) :
    ∃ t', f.check signature s' = .ok typed t' := by
  obtain ⟨params, body, r, u, hparams, hbody, rfl, _⟩ := Function.check_ok_iff.mp h
  -- Both functions start in an empty frame, with no names taken.
  have entry : (f.entry signature s).Alike (f.entry signature s') :=
    ⟨⟨rfl, fun _ => Iff.rfl, shown⟩, rfl⟩
  obtain ⟨r', hparams', between⟩ := declareParams_alike signature.params entry params r hparams
  obtain ⟨u', hbody', _⟩ := Block.checkHere_alike f.body between body u hbody
  exact ⟨_, Function.check_ok_iff.mpr ⟨params, body, r', u', hparams', hbody', rfl, rfl⟩⟩

end Source

end MiniC
