import MiniC.Proofs.Typing.Elaborated

/-!
# The renamings that a check reports

Checking reports a renaming when it gives a declared name another emitted name. For an accepted
module these reports are, function by function and in the order of the declarations, exactly the
sites whose names differ in the source and in the emitted code (`Source.Module.renamings_eq`).
-/

namespace MiniC

/-- The names of a reported renaming. -/
def Event.renaming? : Event → Option (String × String)
  | .renamed name unique => some (name, unique)
  | _ => none

/-- The names that are emitted as something else, each with its emitted name. -/
def renamed (names emitted : List String) : List (String × String) :=
  (names.zip emitted).filter fun p => p.1 ≠ p.2

lemma renamed_append {first second emitted later : List String}
    (count : first.length = emitted.length) :
    renamed (first ++ second) (emitted ++ later) = renamed first emitted ++ renamed second later := by
  rw [renamed, List.zip_append count, List.filter_append]
  rfl

@[simp]
lemma renamed_self (names : List String) : renamed names names = [] := by
  induction names with
  | nil => rfl
  | cons name rest ih => simpa [renamed] using ih

namespace Check

/-- The renamings reported so far. -/
def State.renamings (s : State) : List (String × String) :=
  s.log.toList.filterMap Event.renaming?

lemma State.renamings_logged (s : State) {event : Event} (other : event.renaming? = none) :
    (s.logged event).renamings = s.renamings := by
  simp [renamings, logged, other]

lemma State.renamings_entered (s : State) (inner : Scope) :
    (s.entered inner).renamings = s.renamings := by
  simp [renamings, entered, Event.renaming?]

/-- A run that declares names in this order: it takes an emitted name for each, and reports those
that differ. -/
def Reports (s t : State) (names : List String) : Prop :=
  ∃ emitted, emitted.length = names.length ∧ t.taken = emitted.reverse ++ s.taken ∧
    t.renamings = s.renamings ++ renamed names emitted

namespace Reports

variable {s r t : State}

lemma refl (s : State) : Reports s s [] :=
  ⟨[], rfl, rfl, by simp [renamed]⟩

lemma append {first second : List String} (h : Reports s r first) (h' : Reports r t second) :
    Reports s t (first ++ second) := by
  obtain ⟨emitted, count, taken, reports⟩ := h
  obtain ⟨later, count', taken', reports'⟩ := h'
  refine ⟨emitted ++ later, by simp [count, count'], ?_, ?_⟩
  · simp [taken', taken]
  · rw [reports', reports, renamed_append count.symm, List.append_assoc]

lemma declared (s : State) (name : String) (ty : Ty) (place : Location) :
    Reports s (s.declared name ty place) [name] := by
  refine ⟨[s.scope.freshName s.taken name], rfl, by simp, ?_⟩
  by_cases kept : s.scope.freshName s.taken name = name
  · simp [State.declared, State.fresh, kept, State.bound, State.renamings, renamed]
  · simp [State.declared, State.fresh, kept, State.bound, State.renamings, State.logged, renamed,
      Event.renaming?, Ne.symm kept]

/-- Events of other kinds are no reports. -/
lemma logged {names : List String} (h : Reports s t names) {event : Event}
    (other : event.renaming? = none) : Reports s (t.logged event) names := by
  obtain ⟨emitted, count, taken, reports⟩ := h
  exact ⟨emitted, count, taken, (State.renamings_logged t other).trans reports⟩

end Reports

end Check

namespace Source

open Check (State Reports)

/-! ## Declarations and statements -/

lemma Declarator.checkAll_reports {ds : List Declarator} {s t : State}
    {typed : List Typed.Declarator} (h : Declarator.checkAll .int ds s = .ok typed t) :
    Reports s t (ds.map (·.name)) := by
  induction ds generalizing s typed with
  | nil =>
    obtain ⟨_, rfl⟩ := Check.pure_ok_iff.mp h
    exact .refl s
  | cons d rest ih =>
    simp only [Declarator.checkAll, Check.bind_ok_iff, Check.pure_ok_iff,
      Declarator.check_ok_iff] at h
    obtain ⟨first, _, ⟨_, _, _, rfl⟩, others, _, hrest, _, rfl⟩ := h
    exact ((Reports.declared s d.name .int d.span.start).logged rfl).append (ih hrest)

lemma Decl.checkAll_reports {decls : List Decl} {s t : State} {typed : List Typed.Declarator}
    (h : Decl.checkAll decls s = .ok typed t) :
    Reports s t ((declaratorsOf decls).map (·.name)) := by
  induction decls generalizing s typed with
  | nil =>
    obtain ⟨_, rfl⟩ := Check.pure_ok_iff.mp h
    exact .refl s
  | cons d rest ih =>
    obtain ⟨first, others, r, _, hfirst, hrest, _⟩ := Decl.checkAll_cons_ok_iff.mp h
    have all : declaratorsOf (d :: rest) = d.declarators ++ declaratorsOf rest := rfl
    rw [all, List.map_append]
    exact (Declarator.checkAll_reports hfirst).append (ih hrest)

mutual

theorem Stmt.check_reports : ∀ (stmt : Stmt) {s t : State} {typed : Typed.Stmt},
    stmt.check s = .ok typed t → Reports s t (stmt.declarators.map (·.name))
  | .expr e span, s, t, typed, h => by
    obtain ⟨_, _, _, rfl⟩ := Stmt.check_expr_ok_iff.mp h
    exact .refl s
  | .ret value span, s, t, typed, h => by
    obtain ⟨_, _, _, _, _, _, rfl⟩ := Stmt.check_ret_ok_iff.mp h
    exact .refl s
  | .block body span, s, t, typed, h => by
    obtain ⟨b, r, hb, _, rfl⟩ := Stmt.check_block_ok_iff.mp h
    obtain ⟨emitted, count, taken, reports⟩ := Block.checkHere_reports body hb
    rw [State.renamings_entered] at reports
    exact ⟨emitted, count, taken, reports⟩

theorem Stmt.checkAll_reports : ∀ (stmts : List Stmt) {s t : State} {typed : List Typed.Stmt},
    Stmt.checkAll stmts s = .ok typed t → Reports s t ((Stmt.declaratorsAll stmts).map (·.name))
  | [], s, t, typed, h => by
    obtain ⟨_, rfl⟩ := Check.pure_ok_iff.mp h
    exact .refl s
  | stmt :: rest, s, t, typed, h => by
    obtain ⟨first, others, r, hfirst, hrest, _⟩ := Stmt.checkAll_cons_ok_iff.mp h
    rw [Stmt.declaratorsAll, List.map_append]
    exact (Stmt.check_reports stmt hfirst).append (Stmt.checkAll_reports rest hrest)

theorem Block.checkHere_reports : ∀ (block : Block) {s t : State} {typed : Typed.Block},
    block.checkHere s = .ok typed t → Reports s t (block.declarators.map (·.name))
  | ⟨decls, stmts, span⟩, s, t, typed, h => by
    obtain ⟨ds, ss, r, hds, hss, _⟩ := Block.checkHere_ok_iff.mp h
    rw [Block.declarators, List.map_append]
    exact (Decl.checkAll_reports hds).append (Stmt.checkAll_reports stmts hss)

end

/-! ## Functions and modules -/

lemma declareParams_reports {params : List Signature.Param} {s t : State}
    {typed : List Typed.Param} (h : declareParams params s = .ok typed t) :
    Reports s t (params.map (·.name)) := by
  induction params generalizing s typed with
  | nil =>
    obtain ⟨_, rfl⟩ := Check.pure_ok_iff.mp h
    exact .refl s
  | cons p rest ih =>
    simp only [declareParams, Check.bind_ok_iff, Check.pure_ok_iff, Check.declare_ok_iff] at h
    obtain ⟨_, _, ⟨_, _, rfl⟩, others, r, hrest, _, rfl⟩ := h
    exact (Reports.declared s p.name p.ty p.place).append (ih hrest)

/-- The renamings of a function are those of its sites. -/
theorem Function.check_renamings {f : Function} {signature : Signature} {s t : State}
    {typed : Typed.Function} (hsig : f.signature = .ok signature)
    (h : f.check signature s = .ok typed t) :
    t.renamings = s.renamings ++ renamed f.sites typed.locals := by
  obtain ⟨_, _, _, paramNames, _⟩ := Function.signature_ok hsig
  obtain ⟨params, body, r, u, hparams, hbody, rfl, rfl⟩ := Function.check_ok_iff.mp h
  have reports := (declareParams_reports hparams).append (Block.checkHere_reports f.body hbody)
  rw [paramNames] at reports
  obtain ⟨emitted, _, taken, known⟩ := reports
  have locals : emitted = params.map (·.name) ++ body.variables.map (·.1) := by
    rw [(Function.check_takes hparams hbody).taken, Function.entry_taken] at taken
    simpa using taken.symm
  have entry : (f.entry signature s).renamings = s.renamings :=
    (State.renamings_entered _ _).trans (State.renamings_logged s rfl)
  rw [entry, locals] at known
  exact known

lemma Function.checkAll_renamings {declared : List (Function × Signature)} {s t : State}
    {typed : List Typed.Function} (signatures : ∀ d ∈ declared, d.1.signature = .ok d.2)
    (h : Function.checkAll declared s = .ok typed t) :
    t.renamings = s.renamings ++
      (List.zipWith (fun d tf => renamed d.1.sites tf.locals) declared typed).flatten := by
  induction declared generalizing s typed with
  | nil =>
    obtain ⟨rfl, rfl⟩ := Check.pure_ok_iff.mp h
    simp
  | cons d rest ih =>
    obtain ⟨hsig, others⟩ := List.forall_mem_cons.mp signatures
    obtain ⟨first, later, r, hfirst, hrest, rfl⟩ := Function.checkAll_cons_ok_iff.mp h
    rw [ih others hrest, Function.check_renamings hsig hfirst]
    simp

lemma Item.declareAll_reports {items : List Item} {declared : List (Function × Signature)}
    {s t : State} (h : Item.declareAll items s = .ok declared t) :
    Reports s t (declared.map (·.1.name)) := by
  induction items generalizing s declared with
  | nil =>
    obtain ⟨rfl, rfl⟩ := Check.pure_ok_iff.mp h
    exact .refl s
  | cons item rest ih =>
    cases item with
    | declaration d => exact (Check.throw_ok_iff.mp h).elim
    | function f =>
      simp only [Item.declareAll, Check.bind_ok_iff, Check.pure_ok_iff, Check.ofExcept_ok_iff,
        Check.declare_ok_iff] at h
      obtain ⟨signature, _, ⟨_, rfl⟩, _, _, ⟨_, _, rfl⟩, others, r, hrest, rfl, rfl⟩ := h
      exact (Reports.declared s f.name signature.ty f.span.start).append (ih hrest)

/-- Functions keep their names, so declaring them is not reported. -/
lemma Item.declareAll_renamings {m : Module} {declared : List (Function × Signature)} {t : State}
    (h : Item.declareAll m.items .initial = .ok declared t) : t.renamings = [] := by
  obtain ⟨_, _, bindings, declares, names, _⟩ := Item.declareAll_declares h
  obtain ⟨emitted, _, taken, reports⟩ := Item.declareAll_reports h
  have kept : bindings.map (·.emitted) = bindings.map (·.name) :=
    List.map_congr_left (declares.emitted_eq_name rfl (by simp [State.initial]))
  have same : emitted = declared.map (·.1.name) := by
    rw [declares.taken_eq, kept, names] at taken
    exact (List.reverse_injective (List.append_cancel_right taken)).symm
  rw [reports, same, renamed_self]
  rfl

/-- An accepted module reports a renaming for exactly the sites that are emitted under another name,
function by function and in the order they are declared. -/
theorem Module.renamings_eq {m : Module} {typed : Typed.Module} (h : m.analyze = .ok typed) :
    m.checkEvents.filterMap Event.renaming? =
      (List.zipWith (fun f tf => renamed f.sites tf.locals) m.functions typed.functions).flatten := by
  obtain ⟨declared, functions, r, t, hdecl, hcheck, rfl⟩ := Module.analyze_ok_iff.mp h
  have run : m.check .initial = .ok ⟨functions⟩ (t.logged (.analyzed functions.length)) := by
    simp only [Module.check, Check.bind_ok_iff, Check.pure_ok_iff, Check.report_ok_iff]
    exact ⟨declared, r, hdecl, functions, t, hcheck, (), _, rfl, rfl, rfl⟩
  have events : m.checkEvents.filterMap Event.renaming? = t.renamings := by
    rw [Module.checkEvents, run]
    exact State.renamings_logged t rfl
  obtain ⟨_, signatures, _⟩ := Item.declareAll_declares hdecl
  rw [events, Function.checkAll_renamings signatures hcheck, Item.declareAll_renamings hdecl,
    List.nil_append, (Item.declareAll_initial hdecl).1, List.zipWith_map_left]

end Source

end MiniC
