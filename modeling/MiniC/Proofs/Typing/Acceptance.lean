import MiniC.Proofs.Typing.Judgement

/-!
# A module is accepted exactly when it is well formed

Both directions at once: the lemmas on checks are equivalences, and a check in a scope corresponds
to the judgement in frames that give every name the same type. That correspondence, `Scope.Types`,
is all that the proof has to carry along; the scope's emitted names play no part.
-/

namespace MiniC

open Check (State)

/-! ## Numerals -/

lemma Decimal.value_eq_ofDigits (digits : List Char) :
    Decimal.value digits =
      Nat.ofDigits 10 (digits.reverse.map fun c => c.toNat - '0'.toNat) := by
  rw [Decimal.value, List.foldl_eq_foldr_reverse, Nat.ofDigits_eq_foldr, List.foldr_map]
  congr 1
  funext c n
  simp only [Decimal.digitValue, Nat.cast_id]
  omega

lemma Decimal.toNat?_eq_some_iff {text : String} {n : Nat} :
    Decimal.toNat? text = some n ↔ IsNumeral text n := by
  have digits : text.toList.all Decimal.isDigit = true ↔
      ∀ c ∈ text.toList, '0' ≤ c ∧ c ≤ '9' := by
    simp [Decimal.isDigit]
  rw [Decimal.toNat?, IsNumeral, ← Decimal.value_eq_ofDigits, ← digits, ne_eq, ← List.isEmpty_iff]
  cases text.toList.isEmpty with
  | true => simp
  | false =>
    cases text.toList.all Decimal.isDigit with
    | true => simp [eq_comm]
    | false => simp

/-! ## Scopes and frames -/

/-- A scope and frames give every name the same type. -/
def Scope.Types (scope : Scope) (frames : Frames Ty) : Prop :=
  ∀ name, (scope.binding? name).map (·.ty) = frames.nearest name

lemma Frame.find?_ty (frame : Frame) (name : String) :
    (frame.find? name).map (·.ty) = (frame.map fun b => (b.name, b.ty)).lookup name := by
  induction frame with
  | nil => rfl
  | cons b rest ih =>
    rw [List.map_cons, Frames.lookup_cons_eq, ← ih, Frame.find?, List.find?_cons]
    by_cases same : b.name = name
    · simp [same]
    · simp [same, Frame.find?]

/-- A run of declarations corresponds to one more frame. -/
lemma Scope.Declares.types {scope after : Scope} {taken takenAfter : List String}
    {bindings : List Binding} (h : scope.Declares taken bindings after takenAfter)
    {frames : Frames Ty} (types : scope.Types frames) :
    after.Types ((bindings.map fun b => (b.name, b.ty)).reverse :: frames) := by
  intro name
  rw [h.binding?_eq, Frames.nearest_cons, ← types name, ← List.map_reverse, ← Frame.find?_ty]
  cases Frame.find? bindings.reverse name <;> rfl

/-- Bindings of type `int` correspond to a frame of their names. -/
lemma map_bindings_eq_intFrame {bindings : List Binding} {names : List String}
    (same : bindings.map (·.name) = names) (ints : ∀ b ∈ bindings, b.ty = .int) :
    (bindings.map fun b => (b.name, b.ty)).reverse = intFrame names := by
  rw [intFrame, ← same, List.map_map]
  congr 1
  apply List.map_congr_left
  intro b member
  simp [ints b member]

namespace Source

/-! ## Expressions -/

mutual

theorem Expr.hasType_of_check {scope : Scope} {frames : Frames Ty} (types : scope.Types frames) :
    ∀ (e : Expr) {typed : Typed.Expr}, e.check scope = .ok typed → HasType frames e typed.ty
  | .const text span, typed, h => by
    obtain ⟨n, read, small, rfl⟩ := Expr.check_const_ok_iff.mp h
    exact .const (Decimal.toNat?_eq_some_iff.mp read) small
  | .ident name span, typed, h => by
    obtain ⟨b, found, rfl⟩ := Expr.check_ident_ok_iff.mp h
    refine .ident ?_
    rw [← types name, found]
    rfl
  | .binary op left right span, typed, h => by
    obtain ⟨rfl, l, r, hl, hr, same, rfl⟩ := Expr.check_binary_ok_iff.mp h
    have first := Expr.hasType_of_check types left hl
    have second := Expr.hasType_of_check types right hr
    exact .add first (same ▸ second)
  | .assign op target value span, typed, h => by
    obtain ⟨rfl, l, r, hl, named, hr, same, rfl⟩ := Expr.check_assign_ok_iff.mp h
    obtain ⟨name, inner, rfl⟩ := (Expr.isAssignable_check_iff hl).mp named
    have second := Expr.hasType_of_check types value hr
    cases Expr.hasType_of_check types _ hl with
    | ident bound => exact .assign bound (same ▸ second)
  | .call callee args span, typed, h => by
    obtain ⟨c, result, params, as, hc, signature, count, has, rfl⟩ := Expr.check_call_ok_iff.mp h
    have function := Expr.hasType_of_check types callee hc
    rw [signature] at function
    exact .call function (Expr.haveTypes_of_checkArgs types args count has)

theorem Expr.haveTypes_of_checkArgs {scope : Scope} {frames : Frames Ty}
    (types : scope.Types frames) :
    ∀ (args : List Expr) {params : List Ty} {typed : List Typed.Expr},
      params.length = args.length → Expr.checkArgs scope params args = .ok typed →
      HaveTypes frames args params
  | [], params, typed, count, h => by
    cases List.length_eq_zero_iff.mp count
    exact .nil
  | arg :: args, [], typed, count, h => by cases count
  | arg :: args, param :: params, typed, count, h => by
    obtain ⟨a, rest, ha, same, hrest, rfl⟩ := Expr.checkArgs_cons_ok_iff.mp h
    subst same
    exact .cons (Expr.hasType_of_check types arg ha)
      (Expr.haveTypes_of_checkArgs types args (Nat.succ.inj count) hrest)

end

mutual

theorem HasType.check {scope : Scope} {frames : Frames Ty} (types : scope.Types frames) :
    ∀ {e : Expr} {ty : Ty}, HasType frames e ty →
      ∃ typed, e.check scope = .ok typed ∧ typed.ty = ty
  | _, _, .const numeral small =>
    ⟨_, Expr.check_const_ok_iff.mpr
      ⟨_, Decimal.toNat?_eq_some_iff.mpr numeral, small, rfl⟩, rfl⟩
  | _, _, .ident bound => by
    rw [← types] at bound
    obtain ⟨b, found, rfl⟩ := Option.map_eq_some_iff.mp bound
    exact ⟨_, Expr.check_ident_ok_iff.mpr ⟨b, found, rfl⟩, rfl⟩
  | _, _, .add hl hr => by
    obtain ⟨l, left, rfl⟩ := hl.check types
    obtain ⟨r, right, same⟩ := hr.check types
    exact ⟨_, Expr.check_binary_ok_iff.mpr ⟨rfl, l, r, left, right, same.symm, rfl⟩, rfl⟩
  | _, _, .assign bound hv => by
    rw [← types] at bound
    obtain ⟨b, found, rfl⟩ := Option.map_eq_some_iff.mp bound
    obtain ⟨r, value, same⟩ := hv.check types
    exact ⟨_, Expr.check_assign_ok_iff.mpr ⟨rfl, _, r,
      Expr.check_ident_ok_iff.mpr ⟨b, found, rfl⟩, rfl, value, same.symm, rfl⟩, rfl⟩
  | _, _, .call hc has => by
    obtain ⟨c, callee, signature⟩ := hc.check types
    obtain ⟨as, args, count⟩ := has.checkArgs types
    exact ⟨_, Expr.check_call_ok_iff.mpr ⟨c, _, _, as, callee, signature, count, args, rfl⟩, rfl⟩

theorem HaveTypes.checkArgs {scope : Scope} {frames : Frames Ty} (types : scope.Types frames) :
    ∀ {args : List Expr} {params : List Ty}, HaveTypes frames args params →
      ∃ typed, Expr.checkArgs scope params args = .ok typed ∧ params.length = args.length
  | _, _, .nil => ⟨[], Expr.checkArgs_nil, rfl⟩
  | _, _, .cons first others => by
    obtain ⟨a, arg, rfl⟩ := first.check types
    obtain ⟨rest, args, count⟩ := others.checkArgs types
    exact ⟨_, Expr.checkArgs_cons_ok_iff.mpr ⟨a, rest, arg, rfl, args, rfl⟩, by simp [count]⟩

end

/-! ## Statements -/

lemma Declarator.wellFormed_iff {d : Declarator} : d.WellFormed ↔ ∃ n, d.Starts n := by
  obtain ⟨name, init, span⟩ := d
  constructor
  · rintro (rfl | ⟨text, inner, n, rfl, numeral, small⟩)
    · exact ⟨0, rfl, by decide⟩
    · exact ⟨n, Decimal.toNat?_eq_some_iff.mpr numeral, small⟩
  · rintro ⟨n, initial, small⟩
    cases init with
    | none => exact .inl rfl
    | some init =>
      cases init with
      | const text inner =>
        exact .inr ⟨text, inner, n, rfl, Decimal.toNat?_eq_some_iff.mp initial, small⟩
      | ident _ _ => cases initial
      | binary _ _ _ _ => cases initial
      | assign _ _ _ _ => cases initial
      | call _ _ _ => cases initial

/-- Declarations of a block correspond to a frame of type `int`. -/
lemma Decl.checkAll_types {decls : List Decl} {s t : State} {typed : List Typed.Declarator}
    (h : Decl.checkAll decls s = .ok typed t) {frames : Frames Ty}
    (types : s.scope.Types frames) :
    t.scope.Types (intFrame (declaredNames decls) :: frames) := by
  obtain ⟨inits, declares⟩ := Decl.checkAll_declares h
  have ints : ∀ b ∈ Declarator.bindings (declaratorsOf decls) typed, b.ty = .int := by
    intro b member
    rw [Declarator.bindings, ← List.map_uncurry_zip_eq_zipWith] at member
    obtain ⟨_, _, rfl⟩ := List.mem_map.mp member
    rfl
  have frame := map_bindings_eq_intFrame (Declarator.bindings_names inits) ints
  exact frame ▸ declares.types types

/-- A block is accepted when its names are free, its declarations are well formed and its statements
are accepted behind them. -/
lemma Block.checkHere_succeeds_iff (block : Block) {s : State} {frames : Frames Ty}
    (types : s.scope.Types frames) (result : s.scope.result = some .int) {accepted : Prop}
    (stmts : ∀ {r : State},
      r.scope.Types (intFrame (declaredNames block.decls) :: frames) →
      r.scope.result = some .int →
      ((∃ typed t, Stmt.checkAll block.stmts r = .ok typed t) ↔ accepted)) :
    (∃ typed t, block.checkHere s = .ok typed t) ↔
      s.scope.Free (declaredNames block.decls) ∧ DeclsWellFormed block.decls ∧ accepted := by
  have decls : (∃ typed t, Decl.checkAll block.decls s = .ok typed t) ↔ _ :=
    Decl.checkAll_succeeds_iff
  simp only [← Declarator.wellFormed_iff] at decls
  simp only [Block.checkHere_ok_iff]
  constructor
  · rintro ⟨_, t, ds, ss, r, hds, hss, rfl⟩
    obtain ⟨ints, starts, free⟩ := decls.mp ⟨ds, r, hds⟩
    have sameResult := (Decl.checkAll_declares hds).2.result.trans result
    exact ⟨free, ⟨ints, starts⟩, (stmts (Decl.checkAll_types hds types) sameResult).mp ⟨ss, t, hss⟩⟩
  · rintro ⟨free, ⟨ints, starts⟩, rest⟩
    obtain ⟨ds, r, hds⟩ := decls.mpr ⟨ints, starts, free⟩
    have sameResult := (Decl.checkAll_declares hds).2.result.trans result
    obtain ⟨ss, t, hss⟩ := (stmts (Decl.checkAll_types hds types) sameResult).mpr rest
    exact ⟨_, t, ds, ss, r, hds, hss, rfl⟩

mutual

theorem Stmt.check_succeeds_iff : ∀ (stmt : Stmt) {s : State} {frames : Frames Ty},
    s.scope.Types frames → s.scope.result = some .int →
      ((∃ typed t, stmt.check s = .ok typed t) ↔ stmt.WellFormed frames)
  | .expr e span, s, frames, types, result => by
    simp only [Stmt.check_expr_ok_iff, Stmt.WellFormed]
    constructor
    · rintro ⟨_, _, value, checked, _, _⟩
      exact ⟨_, Expr.hasType_of_check types e checked⟩
    · rintro ⟨ty, typing⟩
      obtain ⟨value, checked, _⟩ := typing.check types
      exact ⟨_, _, value, checked, rfl, rfl⟩
  | .ret value span, s, frames, types, result => by
    simp only [Stmt.check_ret_ok_iff, Stmt.WellFormed, result]
    constructor
    · rintro ⟨_, _, e, v, rfl, checked, int, _, _⟩
      have typing := Expr.hasType_of_check types e checked
      exact ⟨e, rfl, Option.some.inj int ▸ typing⟩
    · rintro ⟨e, rfl, typing⟩
      obtain ⟨v, checked, int⟩ := typing.check types
      exact ⟨_, _, e, v, rfl, checked, by rw [int], rfl, rfl⟩
  | .block ⟨decls, stmts, inner⟩ span, s, frames, types, result => by
    have inside := Block.checkHere_succeeds_iff ⟨decls, stmts, inner⟩
      (s := s.entered s.scope.fork) types result
      (fun types result => Stmt.checkAll_succeeds_iff stmts types result)
    simp only [Stmt.check_block_ok_iff, Stmt.WellFormed]
    rw [← Scope.free_fork_iff]
    refine Iff.trans ?_ inside
    constructor
    · rintro ⟨_, _, b, r, checked, _, _⟩
      exact ⟨b, r, checked⟩
    · rintro ⟨b, r, checked⟩
      exact ⟨_, _, b, r, checked, rfl, rfl⟩

theorem Stmt.checkAll_succeeds_iff : ∀ (stmts : List Stmt) {s : State} {frames : Frames Ty},
    s.scope.Types frames → s.scope.result = some .int →
      ((∃ typed t, Stmt.checkAll stmts s = .ok typed t) ↔ Stmt.AllWellFormed frames stmts)
  | [], s, frames, types, result => by
    simp only [Stmt.AllWellFormed, iff_true]
    exact ⟨[], s, rfl⟩
  | stmt :: rest, s, frames, types, result => by
    have first := Stmt.check_succeeds_iff stmt types result
    simp only [Stmt.checkAll_cons_ok_iff, Stmt.AllWellFormed]
    constructor
    · rintro ⟨_, t, one, others, r, hone, hrest, _⟩
      have scope := (Stmt.check_takes stmt hone).1
      refine ⟨first.mp ⟨one, r, hone⟩, ?_⟩
      exact (Stmt.checkAll_succeeds_iff rest (scope ▸ types) (scope ▸ result)).mp ⟨others, t, hrest⟩
    · rintro ⟨here, later⟩
      obtain ⟨one, r, hone⟩ := first.mpr here
      have scope := (Stmt.check_takes stmt hone).1
      obtain ⟨others, t, hrest⟩ :=
        (Stmt.checkAll_succeeds_iff rest (scope ▸ types) (scope ▸ result)).mpr later
      exact ⟨_, t, one, others, r, hone, hrest, rfl⟩

end

/-! ## Functions and modules -/

/-- The parameters of a function correspond to a frame of type `int`. -/
lemma declareParams_types {f : Function} {signature : Signature} {s t : State}
    {typed : List Typed.Param} (hsig : f.signature = .ok signature)
    (h : declareParams signature.params s = .ok typed t) {frames : Frames Ty}
    (types : s.scope.Types frames) : t.scope.Types (intFrame f.paramNames :: frames) := by
  obtain ⟨_, _, _, paramNames, ints⟩ := Function.signature_ok hsig
  obtain ⟨bindings, declares, names, tys, _⟩ := declareParams_declares h
  have allInts : ∀ b ∈ bindings, b.ty = .int := by
    intro b member
    have listed : b.ty ∈ signature.params.map (·.ty) := tys ▸ List.mem_map.mpr ⟨b, member, rfl⟩
    obtain ⟨p, hp, same⟩ := List.mem_map.mp listed
    exact same ▸ ints p hp
  have frame := map_bindings_eq_intFrame (names.trans paramNames) allInts
  exact frame ▸ declares.types types

/-- Names may be declared behind the parameters of a function when all are different. -/
lemma declareParams_free_iff {f : Function} {signature : Signature} {s r : State}
    {typed : List Typed.Param} (hsig : f.signature = .ok signature)
    (h : declareParams signature.params (f.entry signature s) = .ok typed r)
    (names : List String) : (f.paramNames ++ names).Nodup ↔ r.scope.Free names := by
  obtain ⟨_, _, _, paramNames, _⟩ := Function.signature_ok hsig
  obtain ⟨bindings, declares, named, _, _⟩ := declareParams_declares h
  have distinct : (f.entry signature s).scope.Free f.paramNames :=
    paramNames ▸ declareParams_succeeds_iff.mp ⟨typed, r, h⟩
  have split : (f.entry signature s).scope.Free (f.paramNames ++ names) ↔ _ :=
    Scope.free_append_iff fun name => by
      rw [declares.local?_eq_none_iff, named, paramNames]
  rw [Function.entry_scope, Scope.free_forFunction_iff] at split
  exact split.trans ⟨And.right, fun free => ⟨distinct, free⟩⟩

theorem Function.check_succeeds_iff {f : Function} {signature : Signature}
    (hsig : f.signature = .ok signature) {s : State} {frames : Frames Ty}
    (types : s.scope.Types frames) :
    (∃ typed t, f.check signature s = .ok typed t) ↔ f.WellFormed frames := by
  obtain ⟨intResult, hasParams, int, paramNames, _⟩ := Function.signature_ok hsig
  have body : ∀ {ps : List Typed.Param} {r : State},
      declareParams signature.params (f.entry signature s) = .ok ps r →
      ((∃ typed u, f.body.checkHere r = .ok typed u) ↔
        (f.paramNames ++ declaredNames f.body.decls).Nodup ∧ DeclsWellFormed f.body.decls ∧
        Stmt.AllWellFormed
          (intFrame (declaredNames f.body.decls) :: intFrame f.paramNames :: frames)
          f.body.stmts) := by
    intro ps r hparams
    have result : r.scope.result = some .int := by
      obtain ⟨_, declares, _⟩ := declareParams_declares hparams
      rw [declares.result, Function.entry_scope, ← int]
      rfl
    rw [declareParams_free_iff hsig hparams]
    exact Block.checkHere_succeeds_iff f.body (declareParams_types hsig hparams types) result
      fun types result => Stmt.checkAll_succeeds_iff f.body.stmts types result
  simp only [Function.check_ok_iff]
  constructor
  · rintro ⟨_, _, ps, b, r, u, hparams, hbody, _, _⟩
    obtain ⟨distinct, decls, stmts⟩ := (body hparams).mp ⟨b, u, hbody⟩
    exact ⟨intResult, hasParams, distinct, decls, stmts⟩
  · rintro ⟨_, _, distinct, decls, stmts⟩
    have free : (f.entry signature s).scope.Free (signature.params.map (·.name)) := by
      rw [paramNames, Function.entry_scope, Scope.free_forFunction_iff]
      exact distinct.of_append_left
    obtain ⟨ps, r, hparams⟩ := declareParams_succeeds_iff.mpr free
    obtain ⟨b, u, hbody⟩ := (body hparams).mpr ⟨distinct, decls, stmts⟩
    exact ⟨_, _, ps, b, r, u, hparams, hbody, rfl, rfl⟩

lemma Function.checkAll_succeeds {declared : List (Function × Signature)} {s : State}
    (each : ∀ d ∈ declared, ∀ r : State, r.scope = s.scope →
      ∃ typed t, d.1.check d.2 r = .ok typed t) :
    ∃ typed t, Function.checkAll declared s = .ok typed t := by
  induction declared generalizing s with
  | nil => exact ⟨[], s, rfl⟩
  | cons d rest ih =>
    obtain ⟨here, later⟩ := List.forall_mem_cons.mp each
    obtain ⟨first, r, hfirst⟩ := here s rfl
    have scope : r.scope = s.scope := by
      obtain ⟨_, _, _, _, _, _, _, rfl⟩ := Function.check_ok_iff.mp hfirst
      rfl
    obtain ⟨others, t, hrest⟩ := ih fun d member q same => later d member q (same.trans scope)
    exact ⟨_, t, Function.checkAll_cons_ok_iff.mpr ⟨first, others, r, hfirst, hrest, rfl⟩⟩

lemma Function.signature_ty {f : Function} {signature : Signature}
    (h : f.signature = .ok signature) : signature.ty = f.ty := by
  obtain ⟨_, _, int, paramNames, ints⟩ := Function.signature_ok h
  rw [Signature.ty, Function.ty, int, ← paramNames, List.map_map]
  congr 1
  exact List.map_congr_left ints

/-- The scope in which the functions of a module are checked gives each its type. -/
lemma Item.declareAll_types {m : Module} {declared : List (Function × Signature)} {t : State}
    (h : Item.declareAll m.items .initial = .ok declared t) : t.scope.Types [m.frame] := by
  obtain ⟨_, signatures, bindings, declares, names, tys⟩ := Item.declareAll_declares h
  have functions := (Item.declareAll_initial h).1
  have outer : State.initial.scope.Types [] := fun name => rfl
  have frame : (bindings.map fun b => (b.name, b.ty)).reverse = m.frame := by
    rw [Module.frame, functions, List.map_map, ← List.zip_map', names, tys, List.zip_map']
    congr 1
    apply List.map_congr_left
    intro d member
    simp [Function.signature_ty (signatures d member)]
  exact frame ▸ declares.types outer

/-- Signatures for functions that all have one. -/
lemma Function.exists_signatures {functions : List Function}
    (h : ∀ f ∈ functions, ∃ signature, f.signature = .ok signature) :
    ∃ declared : List (Function × Signature), declared.map (·.1) = functions ∧
      ∀ d ∈ declared, d.1.signature = .ok d.2 := by
  induction functions with
  | nil => exact ⟨[], rfl, by simp⟩
  | cons f rest ih =>
    obtain ⟨⟨signature, hsig⟩, others⟩ := List.forall_mem_cons.mp h
    obtain ⟨declared, same, signatures⟩ := ih others
    exact ⟨(f, signature) :: declared, by simp [same],
      List.forall_mem_cons.mpr ⟨hsig, signatures⟩⟩

lemma Module.items_eq {m : Module} (h : ∀ item ∈ m.items, ∃ f, item = .function f) :
    m.items = m.functions.map .function := by
  obtain ⟨items, span⟩ := m
  induction items with
  | nil => rfl
  | cons item rest ih =>
    obtain ⟨⟨f, rfl⟩, others⟩ := List.forall_mem_cons.mp h
    exact congrArg (Item.function f :: ·) (ih others)

lemma Module.wellFormed_of_analyze {m : Module} {typed : Typed.Module}
    (h : m.analyze = .ok typed) : m.WellFormed := by
  obtain ⟨declared, functions, r, t, hdecl, hcheck, rfl⟩ := Module.analyze_ok_iff.mp h
  obtain ⟨items, signatures, _⟩ := Item.declareAll_declares hdecl
  obtain ⟨functionsEq, distinct, _⟩ := Item.declareAll_initial hdecl
  have types := Item.declareAll_types hdecl
  refine ⟨?_, distinct, ?_⟩
  · intro item member
    rw [items] at member
    obtain ⟨d, _, rfl⟩ := List.mem_map.mp member
    exact ⟨d.1, rfl⟩
  · intro f member
    rw [functionsEq] at member
    obtain ⟨d, hd, rfl⟩ := List.mem_map.mp member
    obtain ⟨q, tf, u, scope, checked⟩ := Function.check_of_checkAll hcheck d hd
    exact (Function.check_succeeds_iff (signatures d hd) (scope ▸ types)).mp ⟨tf, u, checked⟩

lemma Module.WellFormed.analyze {m : Module} (h : m.WellFormed) :
    ∃ typed, m.analyze = .ok typed := by
  have signed : ∀ f ∈ m.functions, ∃ signature, f.signature = .ok signature := fun f member =>
    Function.signature_succeeds (h.functions f member).result (h.functions f member).params
  obtain ⟨declared, functions, signatures⟩ := Function.exists_signatures signed
  have items : m.items = declared.map fun d => .function d.1 := by
    rw [Module.items_eq h.onlyFunctions, ← functions, List.map_map]
    rfl
  have free : State.initial.scope.Free (declared.map (·.1.name)) := by
    refine ⟨?_, fun name _ => rfl⟩
    have distinct := h.distinct
    rwa [Module.functionNames, ← functions, List.map_map] at distinct
  obtain ⟨r, hdecl⟩ := Item.declareAll_succeeds signatures free
  rw [← items] at hdecl
  obtain ⟨typed, t, hcheck⟩ := Function.checkAll_succeeds (s := r) fun d member q same => by
    have types := same ▸ Item.declareAll_types hdecl
    have inside : d.1 ∈ m.functions := functions ▸ List.mem_map.mpr ⟨d, member, rfl⟩
    exact (Function.check_succeeds_iff (signatures d member) types).mpr (h.functions _ inside)
  exact ⟨⟨typed⟩, Module.analyze_ok_iff.mpr ⟨declared, typed, r, t, hdecl, hcheck, rfl⟩⟩

/-- The checker accepts exactly the well-formed modules. -/
theorem Module.analyze_accepts_iff_wellFormed (m : Module) :
    (∃ typed, m.analyze = .ok typed) ↔ m.WellFormed :=
  ⟨fun ⟨_, h⟩ => Module.wellFormed_of_analyze h, fun h => h.analyze⟩

end Source

end MiniC
