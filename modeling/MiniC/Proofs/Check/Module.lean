import MiniC.Compile
import MiniC.Proofs.Check.Stmt

/-!
# When functions and modules are accepted

Signatures, parameters, functions and modules, in the same form as for statements. Every function of
a module is checked in one and the same scope, in which all functions are declared under their own
names.
-/

namespace MiniC.Source

open Check (State)

variable {s t : State}

/-! ## Signatures -/

lemma Param.resolve_ok_iff {p : Param} {resolved : Signature.Param} :
    p.resolve = .ok resolved ↔
      ∃ name, p.name = some name ∧ Ty.ofSpecifiers p.specifiers = some .int ∧
        resolved = ⟨name, .int, p.span.start⟩ := by
  unfold Param.resolve
  cases p.name with
  | none => simp
  | some name =>
    cases Ty.ofSpecifiers p.specifiers with
    | none => simp
    | some ty => cases ty <;> simp [eq_comm]

/-- Parameters that all have a name and the type `int`. -/
def Param.IsNamedInt (p : Param) : Prop :=
  p.name.isSome = true ∧ Ty.ofSpecifiers p.specifiers = some .int

lemma Param.resolveAll_ok {params : List Param} {resolved : List Signature.Param}
    (h : Param.resolveAll params = .ok resolved) :
    (∀ p ∈ params, p.IsNamedInt) ∧ resolved.map (·.name) = params.filterMap (·.name) ∧
      ∀ r ∈ resolved, r.ty = .int := by
  induction params generalizing resolved with
  | nil =>
    cases h
    simp
  | cons p rest ih =>
    simp only [Param.resolveAll, except_bind_ok_iff, Param.resolve_ok_iff] at h
    obtain ⟨_, ⟨name, hname, hty, rfl⟩, others, hrest, made⟩ := h
    cases made
    obtain ⟨named, names, ints⟩ := ih hrest
    refine ⟨List.forall_mem_cons.mpr ⟨⟨by simp [hname], hty⟩, named⟩, ?_, ?_⟩
    · simp [hname, names]
    · exact List.forall_mem_cons.mpr ⟨rfl, ints⟩

lemma Param.resolveAll_succeeds {params : List Param} (h : ∀ p ∈ params, p.IsNamedInt) :
    ∃ resolved, Param.resolveAll params = .ok resolved := by
  induction params with
  | nil => exact ⟨[], rfl⟩
  | cons p rest ih =>
    obtain ⟨⟨named, hty⟩, hrest⟩ := List.forall_mem_cons.mp h
    obtain ⟨name, hname⟩ := Option.isSome_iff_exists.mp named
    obtain ⟨others, run⟩ := ih hrest
    refine ⟨⟨name, .int, p.span.start⟩ :: others, ?_⟩
    simp only [Param.resolveAll, except_bind_ok_iff]
    exact ⟨_, Param.resolve_ok_iff.mpr ⟨name, hname, hty, rfl⟩, others, run, rfl⟩

lemma Param.isVoidList_iff {params : List Param} :
    Param.isVoidList params = true ↔
      ∃ p, params = [p] ∧ p.name = none ∧ Ty.ofSpecifiers p.specifiers = some .void := by
  unfold Param.isVoidList
  split
  · simp
  · rename_i others
    simp only [Bool.false_eq_true, false_iff, not_exists, not_and]
    intro p single
    exact absurd single (others p)

/-- The names of a function's parameters; a single `void` has none. -/
def Function.paramNames (f : Function) : List String :=
  f.params.filterMap (·.name)

lemma Function.paramNames_of_isVoidList {f : Function} (h : Param.isVoidList f.params = true) :
    f.paramNames = [] := by
  obtain ⟨p, single, unnamed, _⟩ := Param.isVoidList_iff.mp h
  simp [paramNames, single, unnamed]

/-- A list of parameters is a single unnamed `void`, or all are named and of type `int`. -/
def Function.HasParams (f : Function) : Prop :=
  (∃ p, f.params = [p] ∧ p.name = none ∧ Ty.ofSpecifiers p.specifiers = some .void) ∨
    ∀ p ∈ f.params, p.IsNamedInt

lemma Ty.isInteger_ofSpecifiers {specifiers : List Specifier} {ty : Ty}
    (h : Ty.ofSpecifiers specifiers = some ty) : ty.isInteger = true ↔ ty = .int := by
  unfold Ty.ofSpecifiers at h
  split at h <;> cases h <;> simp [Ty.isInteger]

/-- The signature of a function: its result is `int`, and so are its parameters. -/
lemma Function.signature_ok {f : Function} {signature : Signature}
    (h : f.signature = .ok signature) :
    Ty.ofSpecifiers f.result = some .int ∧ f.HasParams ∧ signature.result = .int ∧
      signature.params.map (·.name) = f.paramNames ∧ ∀ p ∈ signature.params, p.ty = .int := by
  unfold Function.signature at h
  cases hresult : Ty.ofSpecifiers f.result with
  | none =>
    rw [hresult] at h
    cases h
  | some result =>
    simp only [hresult] at h
    by_cases integer : result.isInteger = true
    · have int := (Ty.isInteger_ofSpecifiers hresult).mp integer
      subst int
      by_cases empty : Param.isVoidList f.params = true
      · simp only [integer, empty, if_true] at h
        cases h
        exact ⟨rfl, Or.inl (Param.isVoidList_iff.mp empty), rfl,
          by simp [paramNames_of_isVoidList empty], by simp⟩
      · simp only [integer, empty, if_true, Bool.false_eq_true, if_false,
          except_bind_ok_iff] at h
        obtain ⟨params, hparams, made⟩ := h
        cases made
        obtain ⟨named, names, ints⟩ := Param.resolveAll_ok hparams
        exact ⟨rfl, Or.inr named, rfl, names, ints⟩
    · simp only [integer] at h
      cases h

lemma Function.signature_succeeds {f : Function} (result : Ty.ofSpecifiers f.result = some .int)
    (params : f.HasParams) : ∃ signature, f.signature = .ok signature := by
  simp only [Function.signature, result, Ty.isInteger, if_true]
  by_cases empty : Param.isVoidList f.params = true
  · exact ⟨⟨.int, []⟩, by simp [empty, bind, Except.bind, pure, Except.pure]⟩
  · have named := params.resolve_left fun void => empty (Param.isVoidList_iff.mpr void)
    obtain ⟨resolved, run⟩ := Param.resolveAll_succeeds named
    exact ⟨⟨.int, resolved⟩, by simp [empty, run, bind, Except.bind, pure, Except.pure]⟩

/-! ## Functions -/

lemma declareParams_declares {params : List Signature.Param} {typed : List Typed.Param}
    (h : declareParams params s = .ok typed t) :
    ∃ bindings, s.scope.Declares s.taken bindings t.scope t.taken ∧
      bindings.map (·.name) = params.map (·.name) ∧ bindings.map (·.ty) = params.map (·.ty) ∧
      typed = bindings.map fun b => ⟨b.emitted, b.ty, b.ty.intended⟩ := by
  induction params generalizing s typed with
  | nil =>
    obtain ⟨rfl, rfl⟩ := Check.pure_ok_iff.mp h
    exact ⟨[], .nil, rfl, rfl, rfl⟩
  | cons p rest ih =>
    simp only [declareParams, Check.bind_ok_iff, Check.pure_ok_iff, Check.declare_ok_iff] at h
    obtain ⟨_, _, ⟨new, rfl, rfl⟩, others, r, hrest, rfl, rfl⟩ := h
    obtain ⟨bindings, declares, names, tys, rfl⟩ := ih hrest
    rw [State.declared_scope, State.declared_taken] at declares
    exact ⟨s.fresh p.name p.ty p.place :: bindings, .cons new rfl declares,
      by simpa [State.fresh] using names, by simpa [State.fresh] using tys,
      by simp [State.fresh]⟩

lemma declareParams_succeeds_iff {params : List Signature.Param} :
    (∃ typed t, declareParams params s = .ok typed t) ↔
      s.scope.Free (params.map (·.name)) := by
  induction params generalizing s with
  | nil => exact ⟨fun _ => Scope.free_nil _, fun _ => ⟨[], s, rfl⟩⟩
  | cons p rest ih =>
    have cons : s.scope.Free (p.name :: rest.map (·.name)) ↔ _ :=
      Scope.free_cons_iff (s.fresh p.name p.ty p.place)
    rw [List.map_cons, cons]
    simp only [declareParams, Check.bind_ok_iff, Check.pure_ok_iff, Check.declare_ok_iff]
    constructor
    · rintro ⟨_, _, _, _, ⟨new, _, rfl⟩, others, r, hrest, _, _⟩
      have step := ih.mp ⟨_, _, hrest⟩
      rw [State.declared_scope] at step
      exact ⟨new, step⟩
    · rintro ⟨new, free⟩
      obtain ⟨others, r, hrest⟩ := (ih (s := s.declared p.name p.ty p.place)).mpr
        (by rw [State.declared_scope]; exact free)
      exact ⟨_, r, _, _, ⟨new, rfl, rfl⟩, others, r, hrest, rfl, rfl⟩

/-- The state in which the parameters and the body of a function are checked. -/
def Function.entry (f : Function) (signature : Signature) (s : State) : State :=
  { s.logged (.checking f.name signature.ty) with taken := [] }.entered
    (s.scope.forFunction signature.result)

@[simp]
lemma Function.entry_scope (f : Function) (signature : Signature) (s : State) :
    (f.entry signature s).scope = s.scope.forFunction signature.result := rfl

@[simp]
lemma Function.entry_taken (f : Function) (signature : Signature) (s : State) :
    (f.entry signature s).taken = [] := rfl

lemma Function.check_ok_iff {f : Function} {signature : Signature} {typed : Typed.Function} :
    f.check signature s = .ok typed t ↔
      ∃ params body r u, declareParams signature.params (f.entry signature s) = .ok params r ∧
        f.body.checkHere r = .ok body u ∧ typed = ⟨f.name, signature.result, params, body⟩ ∧
        t = { u with scope := s.scope, taken := s.taken } := by
  simp only [Function.check, Check.bind_ok_iff, Check.report_ok_iff, Check.inFunction_ok_iff,
    Check.pure_ok_iff]
  constructor
  · rintro ⟨_, _, rfl, _, ⟨params, r, hparams, body, u, hbody, rfl, rfl⟩, rfl⟩
    exact ⟨params, body, r, u, hparams, hbody, rfl, rfl⟩
  · rintro ⟨params, body, r, u, hparams, hbody, rfl, rfl⟩
    exact ⟨(), _, rfl, u, ⟨params, r, hparams, body, u, hbody, rfl, rfl⟩, rfl⟩

/-! ## Modules -/

lemma Item.declareAll_declares {items : List Item} {declared : List (Function × Signature)}
    (h : Item.declareAll items s = .ok declared t) :
    items = declared.map (fun d => .function d.1) ∧
      (∀ d ∈ declared, d.1.signature = .ok d.2) ∧
      ∃ bindings, s.scope.Declares s.taken bindings t.scope t.taken ∧
        bindings.map (·.name) = declared.map (·.1.name) ∧
        bindings.map (·.ty) = declared.map (·.2.ty) := by
  induction items generalizing s declared with
  | nil =>
    obtain ⟨rfl, rfl⟩ := Check.pure_ok_iff.mp h
    exact ⟨rfl, by simp, [], .nil, rfl, rfl⟩
  | cons item rest ih =>
    cases item with
    | declaration d => exact (Check.throw_ok_iff.mp h).elim
    | function f =>
      simp only [Item.declareAll, Check.bind_ok_iff, Check.pure_ok_iff, Check.ofExcept_ok_iff,
        Check.declare_ok_iff] at h
      obtain ⟨signature, _, ⟨hsig, rfl⟩, _, _, ⟨new, rfl, rfl⟩, others, r, hrest, rfl, rfl⟩ := h
      obtain ⟨rfl, signatures, bindings, declares, names, tys⟩ := ih hrest
      rw [State.declared_scope, State.declared_taken] at declares
      refine ⟨rfl, List.forall_mem_cons.mpr ⟨hsig, signatures⟩,
        s.fresh f.name signature.ty f.span.start :: bindings, .cons new rfl declares, ?_, ?_⟩
      · simpa [State.fresh] using names
      · simpa [State.fresh] using tys

lemma Item.declareAll_succeeds {declared : List (Function × Signature)}
    (signatures : ∀ d ∈ declared, d.1.signature = .ok d.2)
    (free : s.scope.Free (declared.map (·.1.name))) :
    ∃ t, Item.declareAll (declared.map (fun d => .function d.1)) s = .ok declared t := by
  induction declared generalizing s with
  | nil => exact ⟨s, rfl⟩
  | cons d rest ih =>
    obtain ⟨f, signature⟩ := d
    obtain ⟨hsig, hrest⟩ := List.forall_mem_cons.mp signatures
    obtain ⟨new, free'⟩ :=
      (Scope.free_cons_iff (s.fresh f.name signature.ty f.span.start)).mp free
    obtain ⟨t, run⟩ := ih (s := s.declared f.name signature.ty f.span.start) hrest
      (by rw [State.declared_scope]; exact free')
    refine ⟨t, ?_⟩
    simp only [List.map_cons, Item.declareAll, Check.bind_ok_iff, Check.pure_ok_iff,
      Check.ofExcept_ok_iff, Check.declare_ok_iff]
    exact ⟨signature, s, ⟨hsig, rfl⟩, _, _, ⟨new, rfl, rfl⟩, rest, t, run, rfl, rfl⟩

lemma Function.checkAll_cons_ok_iff {f : Function} {signature : Signature}
    {rest : List (Function × Signature)} {typed : List Typed.Function} :
    Function.checkAll ((f, signature) :: rest) s = .ok typed t ↔
      ∃ first others r, f.check signature s = .ok first r ∧
        Function.checkAll rest r = .ok others t ∧ typed = first :: others := by
  simp only [Function.checkAll, Check.bind_ok_iff, Check.pure_ok_iff]
  constructor
  · rintro ⟨first, r, hfirst, others, _, hrest, rfl, rfl⟩
    exact ⟨first, others, r, hfirst, hrest, rfl⟩
  · rintro ⟨first, others, r, hfirst, hrest, rfl⟩
    exact ⟨first, r, hfirst, others, t, hrest, rfl, rfl⟩

/-- Each function is checked in the scope that the list is checked in. -/
lemma Function.checkAll_forall₂ {declared : List (Function × Signature)}
    {typed : List Typed.Function} (h : Function.checkAll declared s = .ok typed t) :
    List.Forall₂ (fun d tf => ∃ r u, r.scope = s.scope ∧ d.1.check d.2 r = .ok tf u)
      declared typed := by
  induction declared generalizing s typed with
  | nil =>
    obtain ⟨rfl, rfl⟩ := Check.pure_ok_iff.mp h
    exact .nil
  | cons d rest ih =>
    obtain ⟨first, others, r, hfirst, hrest, rfl⟩ := Function.checkAll_cons_ok_iff.mp h
    obtain ⟨_, _, _, u, _, _, _, hr⟩ := Function.check_ok_iff.mp hfirst
    have scope : r.scope = s.scope := by rw [hr]
    exact .cons ⟨s, r, rfl, hfirst⟩ (scope ▸ ih hrest)

/-- Functions that are checked in every state with a given scope are checked one after the other. -/
lemma Function.checkAll_of_forall₂ {declared : List (Function × Signature)} {scope : Scope}
    {typed : List Typed.Function}
    (h : List.Forall₂ (fun d tf => ∀ r : State, r.scope = scope →
      ∃ u, d.1.check d.2 r = .ok tf u) declared typed) (same : s.scope = scope) :
    ∃ t, Function.checkAll declared s = .ok typed t := by
  induction h generalizing s with
  | nil => exact ⟨s, rfl⟩
  | @cons d tf rest others first _ ih =>
    obtain ⟨r, hfirst⟩ := first s same
    obtain ⟨_, _, _, u, _, _, _, hr⟩ := Function.check_ok_iff.mp hfirst
    have kept : r.scope = scope := by rw [hr, same]
    obtain ⟨t, hrest⟩ := ih kept
    exact ⟨t, Function.checkAll_cons_ok_iff.mpr ⟨tf, others, r, hfirst, hrest, rfl⟩⟩

lemma Function.check_of_checkAll {declared : List (Function × Signature)}
    {typed : List Typed.Function} (h : Function.checkAll declared s = .ok typed t) :
    ∀ d ∈ declared, ∃ r tf u, r.scope = s.scope ∧ d.1.check d.2 r = .ok tf u := by
  have each := Function.checkAll_forall₂ h
  clear h
  induction each with
  | nil => simp
  | cons first _ ih =>
    obtain ⟨r, u, scope, run⟩ := first
    exact List.forall_mem_cons.mpr ⟨⟨r, _, u, scope, run⟩, ih⟩

lemma Module.analyze_ok_iff {m : Module} {typed : Typed.Module} :
    m.analyze = .ok typed ↔
      ∃ declared functions r t, Item.declareAll m.items .initial = .ok declared r ∧
        Function.checkAll declared r = .ok functions t ∧ typed = ⟨functions⟩ := by
  have run : m.analyze = .ok typed ↔ ∃ t, m.check .initial = .ok typed t := by
    unfold Module.analyze
    cases m.check .initial with
    | ok a t => simp
    | error fault t => simp
  rw [run]
  simp only [Module.check, Check.bind_ok_iff, Check.pure_ok_iff, Check.report_ok_iff]
  constructor
  · rintro ⟨_, declared, r, hdeclared, functions, t, hfunctions, _, _, rfl, rfl, rfl⟩
    exact ⟨declared, functions, r, t, hdeclared, hfunctions, rfl⟩
  · rintro ⟨declared, functions, r, t, hdeclared, hfunctions, rfl⟩
    exact ⟨_, declared, r, hdeclared, functions, t, hfunctions, (), _, rfl, rfl, rfl⟩

/-- The functions that a module defines. -/
def Module.functions (m : Module) : List Function :=
  m.items.filterMap fun
    | .function f => some f
    | .declaration _ => none

def Module.functionNames (m : Module) : List String :=
  m.functions.map (·.name)

/-- What is known of the scope in which the functions of a module are checked. -/
lemma Item.declareAll_initial {m : Module} {declared : List (Function × Signature)}
    (h : Item.declareAll m.items .initial = .ok declared t) :
    m.functions = declared.map (·.1) ∧ m.functionNames.Nodup ∧
      ∃ bindings : List Binding, bindings.map (·.name) = m.functionNames ∧
        bindings.map (·.ty) = declared.map (·.2.ty) ∧ (∀ b ∈ bindings, b.emitted = b.name) ∧
        ∀ name, t.scope.binding? name = Frame.find? bindings.reverse name := by
  obtain ⟨items, _, bindings, declares, names, tys⟩ := Item.declareAll_declares h
  have functions : m.functions = declared.map (·.1) := by
    rw [Module.functions, items, List.filterMap_map]
    exact congrFun List.filterMap_eq_map declared
  have named : bindings.map (·.name) = m.functionNames := by
    rw [names, Module.functionNames, functions, List.map_map]
    rfl
  refine ⟨functions, named ▸ declares.free.1, bindings, named, tys, ?_, ?_⟩
  · exact declares.emitted_eq_name rfl (by simp [State.initial])
  · intro name
    rw [declares.binding?_eq]
    cases Frame.find? bindings.reverse name <;> rfl

lemma Item.declareAll_ownNames {m : Module} {declared : List (Function × Signature)}
    (h : Item.declareAll m.items .initial = .ok declared t) : t.scope.OwnNames := by
  obtain ⟨_, _, bindings, declares, _⟩ := Item.declareAll_declares h
  have empty : State.initial.scope.OwnNames := fun name b found => by cases found
  exact declares.ownNames empty (declares.emitted_eq_name rfl (by simp [State.initial]))

/-- Functions are emitted under their own names. -/
lemma Module.emitted_of_binding? {m : Module} {bindings : List Binding} {scope : Scope}
    (names : bindings.map (·.name) = m.functionNames) (kept : ∀ b ∈ bindings, b.emitted = b.name)
    (found : ∀ name, scope.binding? name = Frame.find? bindings.reverse name) (name : String) :
    (scope.binding? name).map (·.emitted) = if name ∈ m.functionNames then some name else none := by
  rw [found, ← names]
  cases hit : Frame.find? bindings.reverse name with
  | none =>
    have absent : name ∉ bindings.map (·.name) := by
      intro member
      obtain ⟨b, hb, rfl⟩ := List.mem_map.mp member
      have miss := List.find?_eq_none.mp hit b (List.mem_reverse.mpr hb)
      simp at miss
    simp only [absent, if_false, Option.map_none]
  | some b =>
    have member := List.mem_reverse.mp (List.mem_of_find?_eq_some hit)
    have same : b.name = name := by simpa using List.find?_some hit
    have present : name ∈ bindings.map (·.name) := List.mem_map.mpr ⟨b, member, same⟩
    simp only [present, if_true, Option.map_some, kept b member, same]

lemma Module.compile_ok_iff {m : Module} {options : Options} {program : Estree.Program} :
    m.compile options = .ok program ↔
      ∃ typed, m.analyze = .ok typed ∧ program = typed.emit options := by
  simp only [Module.compile, except_bind_ok_iff]
  constructor
  · rintro ⟨typed, h, made⟩
    exact ⟨typed, h, (Except.ok.inj made).symm⟩
  · rintro ⟨typed, h, rfl⟩
    exact ⟨typed, h, rfl⟩

end MiniC.Source
