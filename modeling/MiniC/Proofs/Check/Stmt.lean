import MiniC.Emit
import MiniC.Proofs.Check.Expr

/-!
# When declarations, statements and blocks are accepted

A list of declarations is accepted where its types are `int`, its initial values are constants in
range and its names are free; it then is a run of declarations in the sense of `Scope.Declares`. A
statement leaves the scope as it was and takes only unused names, which are those of the variables
that are emitted for it, in order.
-/

namespace MiniC.Source

open Check (State)

variable {s t : State}

/-! ## Declarators -/

/-- The initial value of a declarator: zero, or that of a constant. -/
def Declarator.initial? (d : Declarator) : Option Nat :=
  match d.init with
  | none => some 0
  | some (.const text _) => Decimal.toNat? text
  | some _ => none

/-- The value a variable starts with fits 32 bits without a sign. -/
def Declarator.Starts (d : Declarator) (n : Nat) : Prop :=
  d.initial? = some n ∧ n < 0x100000000

/-- A declarator and the typed declarator it is checked to. -/
def Declarator.Initializes (d : Declarator) (typed : Typed.Declarator) : Prop :=
  ∃ n, d.Starts n ∧ typed = ⟨typed.name, .int, .int (Int64.ofNat n) .int⟩

lemma checkInit_ok_iff {init : Expr} {typed : Typed.Expr} {ty : Ty} {u : Unit} :
    checkInit init typed ty = .ok u ↔
      ∃ value, typed.constant? = some value ∧ ty = typed.ty ∧
        initMin ≤ value.toInt ∧ value.toInt < initLimit := by
  rw [checkInit]
  cases typed.constant? with
  | none => simp
  | some value =>
    simp only [except_bind_ok_iff, expectType_ok_iff]
    by_cases fits : initMin ≤ value.toInt ∧ value.toInt < initLimit
    · simp [fits, pure, Except.pure]
    · simp [fits, throw, throwThe, MonadExceptOf.throw]

lemma Declarator.checkValue_ok_iff {d : Declarator} {scope : Scope} {typed : Typed.Expr} :
    d.checkValue .int scope = .ok typed ↔
      ∃ n, d.Starts n ∧ typed = .int (Int64.ofNat n) .int := by
  obtain ⟨name, init, span⟩ := d
  cases init with
  | none =>
    simp only [checkValue, Starts, initial?]
    constructor
    · intro h
      exact ⟨0, ⟨rfl, by decide⟩, (Except.ok.inj h).symm⟩
    · rintro ⟨n, ⟨hn, _⟩, rfl⟩
      cases hn
      rfl
  | some init =>
    simp only [checkValue, except_bind_ok_iff, checkInit_ok_iff]
    constructor
    · rintro ⟨typed', hcheck, _, ⟨value, hvalue, hty, low, high⟩, made⟩
      cases made
      obtain ⟨text, span', n, rfl, hn, small, rfl⟩ := (Expr.constant?_check_iff hcheck).mp hvalue
      obtain ⟨n', hn', _, rfl⟩ := Expr.check_const_ok_iff.mp hcheck
      rw [Int64.toInt_ofNat_of_lt small, initLimit] at high
      have same : n = n' := Option.some.inj (hn.symm.trans hn')
      exact ⟨n', ⟨hn', by omega⟩, rfl⟩
    · rintro ⟨n, ⟨hn, below⟩, rfl⟩
      cases init with
      | const text span' =>
        have small : n < 0x8000000000000000 := by omega
        refine ⟨_, Expr.check_const_ok_iff.mpr ⟨n, hn, small, rfl⟩, (),
          ⟨_, rfl, rfl, ?_, ?_⟩, rfl⟩
        · rw [Int64.toInt_ofNat_of_lt small, initMin]
          omega
        · rw [Int64.toInt_ofNat_of_lt small, initLimit]
          omega
      | ident _ _ => cases hn
      | binary _ _ _ _ => cases hn
      | assign _ _ _ _ => cases hn
      | call _ _ _ => cases hn

lemma Declarator.check_ok_iff {d : Declarator} {typed : Typed.Declarator} :
    d.check .int s = .ok typed t ↔
      s.scope.local? d.name = none ∧ d.Initializes typed ∧
        typed.name = s.scope.freshName s.taken d.name ∧
        t = (s.declared d.name .int d.span.start).logged (.declared d.name typed.name
          (s.declared d.name .int d.span.start).scope.depth) := by
  simp only [Declarator.check, Check.bind_ok_iff, Check.declare_ok_iff, Check.scope_ok_iff,
    Check.ofExcept_ok_iff, Check.report_ok_iff, Check.pure_ok_iff, checkValue_ok_iff, Initializes]
  constructor
  · rintro ⟨emitted, _, ⟨new, rfl, rfl⟩, _, _, ⟨rfl, rfl⟩, init, _, ⟨⟨n, hn, rfl⟩, rfl⟩,
      _, _, rfl, rfl, rfl⟩
    exact ⟨new, ⟨n, hn, rfl⟩, rfl, rfl⟩
  · rintro ⟨new, ⟨n, hn, htyped⟩, hname, rfl⟩
    refine ⟨typed.name, _, ⟨new, hname.symm, rfl⟩, _, _, ⟨rfl, rfl⟩, _, _, ⟨⟨n, hn, rfl⟩, rfl⟩,
      (), _, rfl, htyped.symm, rfl⟩

/-- The binding that a declarator makes. -/
def Declarator.binding (d : Declarator) (typed : Typed.Declarator) : Binding :=
  ⟨d.name, typed.name, .int, d.span.start⟩

/-- The bindings that declarators make. -/
def Declarator.bindings : List Declarator → List Typed.Declarator → List Binding :=
  List.zipWith Declarator.binding

lemma Declarator.bindings_names {ds : List Declarator} {typed : List Typed.Declarator}
    (h : List.Forall₂ Declarator.Initializes ds typed) :
    (Declarator.bindings ds typed).map (·.name) = ds.map (·.name) := by
  induction h with
  | nil => rfl
  | cons _ _ ih => simpa [bindings, binding] using ih

lemma Declarator.bindings_emitted {ds : List Declarator} {typed : List Typed.Declarator}
    (h : List.Forall₂ Declarator.Initializes ds typed) :
    (Declarator.bindings ds typed).map (·.emitted) = typed.map (·.name) := by
  induction h with
  | nil => rfl
  | cons _ _ ih => simpa [bindings, binding] using ih

lemma Declarator.checkAll_declares {ds : List Declarator} {typed : List Typed.Declarator}
    (h : Declarator.checkAll .int ds s = .ok typed t) :
    List.Forall₂ Declarator.Initializes ds typed ∧
      s.scope.Declares s.taken (Declarator.bindings ds typed) t.scope t.taken := by
  induction ds generalizing s typed with
  | nil =>
    obtain ⟨rfl, rfl⟩ := Check.pure_ok_iff.mp h
    exact ⟨.nil, .nil⟩
  | cons d rest ih =>
    simp only [Declarator.checkAll, Check.bind_ok_iff, Check.pure_ok_iff,
      Declarator.check_ok_iff] at h
    obtain ⟨first, r, ⟨new, hfirst, fresh, rfl⟩, others, r', hrest, rfl, rfl⟩ := h
    obtain ⟨inits, declares⟩ := ih hrest
    refine ⟨.cons hfirst inits, .cons new fresh.symm ?_⟩
    simpa [State.fresh, binding, bindings, fresh] using declares

lemma Declarator.checkAll_succeeds_iff {ds : List Declarator} :
    (∃ typed t, Declarator.checkAll .int ds s = .ok typed t) ↔
      (∀ d ∈ ds, ∃ n, d.Starts n) ∧ s.scope.Free (ds.map (·.name)) := by
  induction ds generalizing s with
  | nil =>
    simp only [List.not_mem_nil, false_implies, implies_true, List.map_nil, true_and]
    exact ⟨fun _ => Scope.free_nil _, fun _ => ⟨[], s, rfl⟩⟩
  | cons d rest ih =>
    have cons : s.scope.Free (d.name :: rest.map (·.name)) ↔ _ :=
      Scope.free_cons_iff (s.fresh d.name .int d.span.start)
    rw [List.forall_mem_cons, List.map_cons, cons]
    simp only [Declarator.checkAll, Check.bind_ok_iff, Check.pure_ok_iff, Declarator.check_ok_iff]
    constructor
    · rintro ⟨_, _, first, _, ⟨new, ⟨n, hn, _⟩, _, rfl⟩, others, _, hrest, _, _⟩
      have step := ih.mp ⟨_, _, hrest⟩
      simp only [State.logged_scope, State.declared_scope] at step
      exact ⟨⟨⟨n, hn⟩, step.1⟩, new, step.2⟩
    · rintro ⟨⟨⟨n, hn⟩, starts⟩, new, free⟩
      let name := s.scope.freshName s.taken d.name
      let r := (s.declared d.name .int d.span.start).logged (.declared d.name name
        (s.declared d.name .int d.span.start).scope.depth)
      obtain ⟨others, u, hrest⟩ := (ih (s := r)).mpr ⟨starts, by simpa [r] using free⟩
      exact ⟨_, u, ⟨name, .int, .int (Int64.ofNat n) .int⟩, r, ⟨new, ⟨n, hn, rfl⟩, rfl, rfl⟩,
        others, u, hrest, rfl, rfl⟩

/-! ## Declarations -/

/-- The declarators of a list of declarations, in order. -/
def declaratorsOf (decls : List Decl) : List Declarator :=
  decls.flatMap (·.declarators)

/-- Declarations of type `int`. -/
def Decl.IsInt (d : Decl) : Prop :=
  Ty.ofSpecifiers d.specifiers = some .int

lemma Decl.check_ok_iff {d : Decl} {typed : List Typed.Declarator} :
    d.check s = .ok typed t ↔ d.IsInt ∧ Declarator.checkAll .int d.declarators s = .ok typed t := by
  unfold Decl.check Decl.IsInt
  cases Ty.ofSpecifiers d.specifiers with
  | none => simp [Check.throw_ok_iff]
  | some ty => cases ty <;> simp [Check.throw_ok_iff]

lemma Decl.checkAll_cons_ok_iff {d : Decl} {rest : List Decl} {typed : List Typed.Declarator} :
    Decl.checkAll (d :: rest) s = .ok typed t ↔
      ∃ first others r, d.IsInt ∧ Declarator.checkAll .int d.declarators s = .ok first r ∧
        Decl.checkAll rest r = .ok others t ∧ typed = first ++ others := by
  simp only [Decl.checkAll, Check.bind_ok_iff, Check.pure_ok_iff, Decl.check_ok_iff]
  constructor
  · rintro ⟨first, r, ⟨int, hfirst⟩, others, _, hrest, rfl, rfl⟩
    exact ⟨first, others, r, int, hfirst, hrest, rfl⟩
  · rintro ⟨first, others, r, int, hfirst, hrest, rfl⟩
    exact ⟨first, r, ⟨int, hfirst⟩, others, t, hrest, rfl, rfl⟩

lemma Decl.checkAll_declares {decls : List Decl} {typed : List Typed.Declarator}
    (h : Decl.checkAll decls s = .ok typed t) :
    List.Forall₂ Declarator.Initializes (declaratorsOf decls) typed ∧
      s.scope.Declares s.taken (Declarator.bindings (declaratorsOf decls) typed)
        t.scope t.taken := by
  induction decls generalizing s typed with
  | nil =>
    obtain ⟨rfl, rfl⟩ := Check.pure_ok_iff.mp h
    exact ⟨.nil, .nil⟩
  | cons d rest ih =>
    obtain ⟨first, others, r, _, hfirst, hrest, rfl⟩ := Decl.checkAll_cons_ok_iff.mp h
    obtain ⟨inits, declares⟩ := Declarator.checkAll_declares hfirst
    obtain ⟨inits', declares'⟩ := ih hrest
    refine ⟨List.rel_append inits inits', ?_⟩
    have split : Declarator.bindings (declaratorsOf (d :: rest)) (first ++ others) =
        Declarator.bindings d.declarators first ++
          Declarator.bindings (declaratorsOf rest) others :=
      List.zipWith_append inits.length_eq
    rw [split]
    exact declares.append declares'

lemma Decl.checkAll_succeeds_iff {decls : List Decl} :
    (∃ typed t, Decl.checkAll decls s = .ok typed t) ↔
      (∀ d ∈ decls, d.IsInt) ∧ (∀ d ∈ declaratorsOf decls, ∃ n, d.Starts n) ∧
        s.scope.Free ((declaratorsOf decls).map (·.name)) := by
  induction decls generalizing s with
  | nil =>
    simp only [declaratorsOf, List.flatMap_nil, List.not_mem_nil, false_implies, implies_true,
      List.map_nil, true_and]
    exact ⟨fun _ => Scope.free_nil _, fun _ => ⟨[], s, rfl⟩⟩
  | cons d rest ih =>
    have all : declaratorsOf (d :: rest) = d.declarators ++ declaratorsOf rest := rfl
    rw [List.forall_mem_cons, all, List.forall_mem_append, List.map_append]
    simp only [Decl.checkAll_cons_ok_iff]
    constructor
    · rintro ⟨_, _, first, others, r, int, hfirst, hrest, _⟩
      obtain ⟨inits, declares⟩ := Declarator.checkAll_declares hfirst
      obtain ⟨starts, free⟩ := Declarator.checkAll_succeeds_iff.mp ⟨_, _, hfirst⟩
      obtain ⟨ints, starts', free'⟩ := ih.mp ⟨_, _, hrest⟩
      refine ⟨⟨int, ints⟩, ⟨starts, starts'⟩, (Scope.free_append_iff ?_).mpr ⟨free, free'⟩⟩
      intro name
      rw [declares.local?_eq_none_iff, Declarator.bindings_names inits]
    · rintro ⟨⟨int, ints⟩, ⟨starts, starts'⟩, free⟩
      have apart : s.scope.Free (d.declarators.map (·.name)) :=
        ⟨free.1.of_append_left, fun name h => free.2 name (List.mem_append_left _ h)⟩
      obtain ⟨first, r, hfirst⟩ := Declarator.checkAll_succeeds_iff.mpr ⟨starts, apart⟩
      obtain ⟨inits, declares⟩ := Declarator.checkAll_declares hfirst
      have left : r.scope.Free ((declaratorsOf rest).map (·.name)) := by
        refine ((Scope.free_append_iff ?_).mp free).2
        intro name
        rw [declares.local?_eq_none_iff, Declarator.bindings_names inits]
      obtain ⟨others, u, hrest⟩ := ih.mpr ⟨ints, starts', left⟩
      exact ⟨_, u, first, others, r, int, hfirst, hrest, rfl⟩

/-! ## Statements -/

variable {span : Span}

lemma Stmt.check_expr_ok_iff {e : Expr} {typed : Typed.Stmt} :
    (Stmt.expr e span).check s = .ok typed t ↔
      ∃ value, e.check s.scope = .ok value ∧ typed = .expr value ∧ s = t := by
  simp only [Stmt.check, Check.bind_ok_iff, Check.scope_ok_iff, Check.ofExcept_ok_iff,
    Check.pure_ok_iff]
  constructor
  · rintro ⟨_, _, ⟨rfl, rfl⟩, value, _, ⟨hvalue, rfl⟩, rfl, rfl⟩
    exact ⟨value, hvalue, rfl, rfl⟩
  · rintro ⟨value, hvalue, rfl, rfl⟩
    exact ⟨_, _, ⟨rfl, rfl⟩, value, _, ⟨hvalue, rfl⟩, rfl, rfl⟩

lemma checkReturn_ok_iff {value : Option Expr} {place : Location} {scope : Scope}
    {typed : Typed.Expr} :
    checkReturn value place scope = .ok typed ↔
      ∃ e, value = some e ∧ e.check scope = .ok typed ∧ scope.result = some typed.ty := by
  unfold checkReturn
  cases scope.result with
  | none => simp
  | some result =>
    cases value with
    | none => simp
    | some e =>
      simp only [except_bind_ok_iff, expectType_ok_iff, Option.some.injEq]
      constructor
      · rintro ⟨typed', hcheck, _, same, made⟩
        cases made
        exact ⟨e, rfl, hcheck, same⟩
      · rintro ⟨_, rfl, hcheck, same⟩
        exact ⟨typed, hcheck, (), same, rfl⟩

lemma Stmt.check_ret_ok_iff {value : Option Expr} {typed : Typed.Stmt} :
    (Stmt.ret value span).check s = .ok typed t ↔
      ∃ e v, value = some e ∧ e.check s.scope = .ok v ∧ s.scope.result = some v.ty ∧
        typed = .ret v ∧ s = t := by
  simp only [Stmt.check, Check.bind_ok_iff, Check.scope_ok_iff, Check.ofExcept_ok_iff,
    Check.pure_ok_iff, checkReturn_ok_iff]
  constructor
  · rintro ⟨_, _, ⟨rfl, rfl⟩, v, _, ⟨⟨e, rfl, hcheck, same⟩, rfl⟩, rfl, rfl⟩
    exact ⟨e, v, rfl, hcheck, same, rfl, rfl⟩
  · rintro ⟨e, v, rfl, hcheck, same, rfl, rfl⟩
    exact ⟨_, _, ⟨rfl, rfl⟩, v, _, ⟨⟨e, rfl, hcheck, same⟩, rfl⟩, rfl, rfl⟩

lemma Stmt.check_block_ok_iff {body : Block} {typed : Typed.Stmt} :
    (Stmt.block body span).check s = .ok typed t ↔
      ∃ b r, body.checkHere (s.entered s.scope.fork) = .ok b r ∧ typed = .block b ∧
        { r with scope := s.scope } = t := by
  simp only [Stmt.check, Check.bind_ok_iff, Check.inFork_ok_iff, Check.pure_ok_iff]
  constructor
  · rintro ⟨b, _, ⟨r, hb, rfl⟩, rfl, rfl⟩
    exact ⟨b, r, hb, rfl, rfl⟩
  · rintro ⟨b, r, hb, rfl, rfl⟩
    exact ⟨b, _, ⟨r, hb, rfl⟩, rfl, rfl⟩

lemma Stmt.checkAll_cons_ok_iff {stmt : Stmt} {rest : List Stmt} {typed : List Typed.Stmt} :
    Stmt.checkAll (stmt :: rest) s = .ok typed t ↔
      ∃ first others r, stmt.check s = .ok first r ∧ Stmt.checkAll rest r = .ok others t ∧
        typed = first :: others := by
  simp only [Stmt.checkAll, Check.bind_ok_iff, Check.pure_ok_iff]
  constructor
  · rintro ⟨first, r, hfirst, others, _, hrest, rfl, rfl⟩
    exact ⟨first, others, r, hfirst, hrest, rfl⟩
  · rintro ⟨first, others, r, hfirst, hrest, rfl⟩
    exact ⟨first, r, hfirst, others, t, hrest, rfl, rfl⟩

lemma Block.checkHere_ok_iff {block : Block} {typed : Typed.Block} :
    block.checkHere s = .ok typed t ↔
      ∃ ds ss r, Decl.checkAll block.decls s = .ok ds r ∧
        Stmt.checkAll block.stmts r = .ok ss t ∧ typed = ⟨ds, ss⟩ := by
  obtain ⟨decls, stmts, span⟩ := block
  simp only [Block.checkHere, Check.bind_ok_iff, Check.pure_ok_iff]
  constructor
  · rintro ⟨ds, r, hds, ss, _, hss, rfl, rfl⟩
    exact ⟨ds, ss, r, hds, hss, rfl⟩
  · rintro ⟨ds, ss, r, hds, hss, rfl⟩
    exact ⟨ds, r, hds, ss, t, hss, rfl, rfl⟩

/-! ## The names a statement takes -/

/-- A run that takes names, in this order, none of them taken or visible before. -/
structure Takes (s t : State) (names : List String) : Prop where
  taken : t.taken = names.reverse ++ s.taken
  unused : s.scope.Unused s.taken names

lemma Takes.nil (s : State) : Takes s s [] := ⟨rfl, Scope.unused_nil _ _⟩

lemma Takes.append {s r t : State} {first second : List String} (h : Takes s r first)
    (h' : Takes r t second)
    (visible : ∀ x, r.scope.binding? x = none → s.scope.binding? x = none) :
    Takes s t (first ++ second) := by
  refine ⟨by simp [h'.taken, h.taken], ?_⟩
  have later := h'.unused
  rw [h.taken] at later
  exact h.unused.append later visible

lemma Decl.checkAll_takes {decls : List Decl} {typed : List Typed.Declarator}
    (h : Decl.checkAll decls s = .ok typed t) :
    Takes s t (typed.map (·.name)) ∧
      ∀ x, t.scope.binding? x = none → s.scope.binding? x = none := by
  obtain ⟨inits, declares⟩ := Decl.checkAll_declares h
  have emitted := Declarator.bindings_emitted inits
  exact ⟨⟨emitted ▸ declares.taken_eq, emitted ▸ declares.unused⟩, declares.visible⟩

mutual

theorem Stmt.check_takes : ∀ (stmt : Stmt) {s t : State} {typed : Typed.Stmt},
    stmt.check s = .ok typed t →
      t.scope = s.scope ∧ Takes s t (typed.variables.map (·.1))
  | .expr e span, s, t, typed, h => by
    obtain ⟨value, _, rfl, rfl⟩ := Stmt.check_expr_ok_iff.mp h
    exact ⟨rfl, .nil s⟩
  | .ret value span, s, t, typed, h => by
    obtain ⟨e, v, _, _, _, rfl, rfl⟩ := Stmt.check_ret_ok_iff.mp h
    exact ⟨rfl, .nil s⟩
  | .block body span, s, t, typed, h => by
    obtain ⟨b, r, hb, rfl, rfl⟩ := Stmt.check_block_ok_iff.mp h
    have inner := Block.checkHere_takes body hb
    -- A fork shows what the scope shows, so unused names inside are unused outside.
    exact ⟨rfl, inner.taken, inner.unused⟩

theorem Stmt.checkAll_takes : ∀ (stmts : List Stmt) {s t : State} {typed : List Typed.Stmt},
    Stmt.checkAll stmts s = .ok typed t →
      t.scope = s.scope ∧ Takes s t ((Typed.Stmt.variablesAll typed).map (·.1))
  | [], s, t, typed, h => by
    obtain ⟨rfl, rfl⟩ := Check.pure_ok_iff.mp h
    exact ⟨rfl, .nil s⟩
  | stmt :: rest, s, t, typed, h => by
    obtain ⟨first, others, r, hfirst, hrest, rfl⟩ := Stmt.checkAll_cons_ok_iff.mp h
    obtain ⟨scope, takes⟩ := Stmt.check_takes stmt hfirst
    obtain ⟨scope', takes'⟩ := Stmt.checkAll_takes rest hrest
    refine ⟨scope'.trans scope, ?_⟩
    rw [Typed.Stmt.variablesAll, List.map_append]
    exact takes.append takes' (fun x hidden => scope ▸ hidden)

theorem Block.checkHere_takes : ∀ (block : Block) {s t : State} {typed : Typed.Block},
    block.checkHere s = .ok typed t → Takes s t (typed.variables.map (·.1))
  | ⟨decls, stmts, span⟩, s, t, typed, h => by
    obtain ⟨ds, ss, r, hds, hss, rfl⟩ := Block.checkHere_ok_iff.mp h
    obtain ⟨takes, visible⟩ := Decl.checkAll_takes hds
    obtain ⟨_, takes'⟩ := Stmt.checkAll_takes stmts hss
    have names : (Typed.Block.mk ds ss).variables.map (·.1) =
        ds.map (·.name) ++ (Typed.Stmt.variablesAll ss).map (·.1) := by
      simp [Typed.Block.variables, Typed.Declarator.emit]
    rw [names]
    exact takes.append takes' visible

end

end MiniC.Source
