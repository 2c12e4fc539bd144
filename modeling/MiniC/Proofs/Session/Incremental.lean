import MiniC.Proofs.Names.Rename
import MiniC.Proofs.Session.Registered
import MiniC.Proofs.Typing.Separate

/-!
# Modules in a row and one module

Modules that are accepted one after the other, each in the scope that those before it left, can be
joined to one module. That module is accepted as well, since more functions are visible in it and
none has another type. A function of an earlier module was checked when later functions were still
free names, so its variables may have taken their names; in the joined module they have others. The
functions of the last module saw all others already.
-/

namespace MiniC

open Check (State)

/-- Lists that correspond to a common one correspond to each other. -/
lemma forall₂_of_common {α β γ : Type} {R : α → β → Prop} {R' : α → γ → Prop} {S : β → γ → Prop}
    {as : List α} {bs : List β} {cs : List γ} (first : List.Forall₂ R as bs)
    (second : List.Forall₂ R' as cs) (both : ∀ a b c, R a b → R' a c → S b c) :
    List.Forall₂ S bs cs := by
  induction first generalizing cs with
  | nil =>
    cases second
    exact .nil
  | cons here _ ih =>
    cases second with
    | cons here' rest' => exact .cons (both _ _ _ here here') (ih rest')

/-! ## More names -/

/-- What has a type in some frames has the same type in the others. -/
def Frames.KeptIn (frames others : Frames Ty) : Prop :=
  ∀ name ty, frames.nearest name = some ty → others.nearest name = some ty

lemma Frames.KeptIn.push {frames others : Frames Ty} (kept : frames.KeptIn others)
    (frame : List (String × Ty)) : Frames.KeptIn (frame :: frames) (frame :: others) := by
  intro name ty found
  rw [Frames.nearest_cons, Option.or_eq_some_iff] at found ⊢
  exact found.imp_right fun ⟨absent, before⟩ => ⟨absent, kept name ty before⟩

namespace Source

mutual

theorem HasType.mono {frames others : Frames Ty} (kept : frames.KeptIn others) :
    ∀ {e : Expr} {ty : Ty}, HasType frames e ty → HasType others e ty
  | _, _, .const numeral small => .const numeral small
  | _, _, .ident bound => .ident (kept _ _ bound)
  | _, _, .add hl hr => .add (hl.mono kept) (hr.mono kept)
  | _, _, .assign bound hv => .assign (kept _ _ bound) (hv.mono kept)
  | _, _, .call hc has => .call (hc.mono kept) (has.mono kept)

theorem HaveTypes.mono {frames others : Frames Ty} (kept : frames.KeptIn others) :
    ∀ {args : List Expr} {tys : List Ty}, HaveTypes frames args tys → HaveTypes others args tys
  | _, _, .nil => .nil
  | _, _, .cons first rest => .cons (first.mono kept) (rest.mono kept)

end

mutual

theorem Stmt.WellFormed.mono : ∀ {stmt : Stmt} {frames others : Frames Ty},
    frames.KeptIn others → stmt.WellFormed frames → stmt.WellFormed others
  | .expr e span, frames, others, kept, h => by
    obtain ⟨ty, typed⟩ := h
    exact ⟨ty, typed.mono kept⟩
  | .ret value span, frames, others, kept, h => by
    obtain ⟨e, rfl, typed⟩ := h
    exact ⟨e, rfl, typed.mono kept⟩
  | .block ⟨decls, stmts, inner⟩ span, frames, others, kept, h => by
    obtain ⟨distinct, declared, inside⟩ := h
    exact ⟨distinct, declared, Stmt.AllWellFormed.mono (kept.push _) inside⟩

theorem Stmt.AllWellFormed.mono : ∀ {stmts : List Stmt} {frames others : Frames Ty},
    frames.KeptIn others → Stmt.AllWellFormed frames stmts → Stmt.AllWellFormed others stmts
  | [], _, _, _, _ => trivial
  | _ :: _, _, _, kept, h =>
    ⟨Stmt.WellFormed.mono kept h.1, Stmt.AllWellFormed.mono kept h.2⟩

end

lemma Function.WellFormed.mono {frames others : Frames Ty} (kept : frames.KeptIn others)
    {f : Function} (h : f.WellFormed frames) : f.WellFormed others :=
  { h with stmts := Stmt.AllWellFormed.mono ((kept.push _).push _) h.stmts }

/-! ## Declaring functions in several steps -/

namespace Registers

variable {items : List Item} {functions others : List Function} {s r t : State}

lemma of_registrable (registrable : Registrable s.scope functions)
    (frame : t.scope.frame = (functions.map Function.binding).reverse ++ s.scope.frame)
    (left : AtModule t) : Registers (functions.map .function) functions s t := by
  refine ⟨⟨List.prefix_refl _, registrable, ?_⟩, frame, left⟩
  intro more start _
  have injective : (Item.function : Function → Item).Injective := fun _ _ same => by
    injection same
  exact (List.prefix_map_iff_of_injective injective).mp start

lemma local?_eq_none_iff (h : Registers items functions s t) (name : String) :
    t.scope.local? name = none ↔ s.scope.local? name = none ∧ name ∉ functions.map (·.name) := by
  constructor
  · intro free
    refine ⟨?_, ?_⟩
    · cases bound : s.scope.local? name with
      | none => rfl
      | some b => rw [h.kept bound] at free; cases free
    · intro member
      obtain ⟨f, inside, rfl⟩ := List.mem_map.mp member
      rw [h.new inside] at free
      cases free
  · rintro ⟨free, absent⟩
    cases bound : t.scope.local? name with
    | none => rfl
    | some b =>
      rcases h.origin bound with ⟨f, inside, same, _⟩ | before
      · exact absurd (List.mem_map.mpr ⟨f, inside, same⟩) absent
      · rw [free] at before
        cases before

/-- Functions may be declared in two steps. -/
lemma append (first : Registers (functions.map .function) functions s r)
    (second : Registers (others.map .function) others r t) :
    Registers ((functions ++ others).map .function) (functions ++ others) s t := by
  obtain ⟨resolvable, free⟩ := first.longest.registrable
  obtain ⟨resolvable', free'⟩ := second.longest.registrable
  refine of_registrable ⟨?_, ?_⟩ ?_ second.left
  · exact List.forall_mem_append.mpr ⟨resolvable, resolvable'⟩
  · rw [List.map_append]
    exact (Scope.free_append_iff first.local?_eq_none_iff).mpr ⟨free, free'⟩
  · rw [second.frame, first.frame, List.map_append, List.reverse_append, List.append_assoc]

lemma binding?_kept (h : Registers items functions s t) (before : AtModule s) {name : String}
    {b : Binding} (bound : s.scope.binding? name = some b) :
    t.scope.binding? name = some b := by
  rw [before.binding?_eq_local?] at bound
  rw [h.left.binding?_eq_local?]
  exact h.kept bound

/-- Functions that are declared first of all are all there is, under their own names. -/
lemma ownNames (h : Registers items functions .initial t) : t.scope.OwnNames := by
  intro name b bound
  rw [h.left.binding?_eq_local?] at bound
  rcases h.origin bound with ⟨f, _, rfl, rfl⟩ | before
  · rfl
  · cases before

lemma types (h : Registers items functions .initial t) :
    t.scope.Types [(functions.map fun f => (f.name, f.ty)).reverse] := by
  intro name
  have empty : State.initial.scope.local? name = none := rfl
  rw [h.left.binding?_eq_local?, h.local?_eq, empty, Option.or_none, Frame.find?_ty,
    Frames.nearest_singleton, List.map_reverse, List.map_map]
  rfl

end Registers

/-! ## Modules in a row -/

/-- One module with the items of several. -/
def Module.joined (modules : List Module) (span : Span) : Module :=
  ⟨modules.flatMap (·.items), span⟩

lemma Module.functions_joined (modules : List Module) (span : Span) :
    (Module.joined modules span).functions = modules.flatMap (·.functions) := by
  simp only [Module.functions, Module.joined, List.flatMap, List.filterMap_flatten, List.map_map,
    Function.comp_def]

/-- A function is checked to a typed function in the scope of a module. -/
def Function.ChecksIn (scope : Scope) (f : Function) (typed : Typed.Function) : Prop :=
  ∃ signature s t, f.signature = .ok signature ∧ s.scope = scope ∧ f.check signature s = .ok typed t

/-- The check of a module declares all its functions, and checks each where all are declared. -/
lemma Module.check_ok {m : Module} {s t : State} {typed : Typed.Module} (before : AtModule s)
    (h : m.check s = .ok typed t) :
    m.items = m.functions.map .function ∧ Registers m.items m.functions s t ∧
      List.Forall₂ (Function.ChecksIn t.scope) m.functions typed.functions := by
  obtain ⟨functions, registers⟩ := m.check_registers before
  have scope := (m.check_after s).1
  rw [Check.after_of_ok h] at registers scope
  simp only [Module.check, Check.bind_ok_iff, Check.pure_ok_iff, Check.report_ok_iff] at h
  obtain ⟨declared, r, hdecl, checked, u, hcheck, _, _, _, rfl, _⟩ := h
  obtain ⟨items, signatures, _⟩ := Item.declareAll_declares hdecl
  obtain rfl := registers.functions_eq hdecl
  have functions : m.functions = declared.map (·.1) := by
    apply Module.functions_of_items
    rw [items, List.map_map]
    rfl
  rw [Check.after_of_ok hdecl] at scope
  refine ⟨?_, registers, ?_⟩
  · rw [functions, items, List.map_map]
    rfl
  · rw [functions, List.forall₂_map_left_iff]
    have both := (List.forall₂_and_left ..).mpr ⟨signatures, Function.checkAll_forall₂ hcheck⟩
    refine both.imp ?_
    rintro d tf ⟨hsig, s, u, same, run⟩
    exact ⟨d.2, s, u, hsig, same.trans scope.symm, run⟩

/-- What a scope shows is still shown by a later one. -/
structure Earlier (scope later : Scope) : Prop where
  own : scope.OwnNames
  types : ∃ frames, scope.Types frames
  kept : ∀ name b, scope.binding? name = some b → later.binding? name = some b

/-- Modules were accepted one after the other. -/
structure InRow (modules : List Module) (typed : List Typed.Module) (t : State) : Prop where
  items : ∀ m ∈ modules, m.items = m.functions.map .function
  registers : Registers ((modules.flatMap (·.functions)).map .function)
    (modules.flatMap (·.functions)) .initial t
  checked : List.Forall₂ (fun f tf => ∃ scope, Earlier scope t.scope ∧ f.ChecksIn scope tf)
    (modules.flatMap (·.functions)) (typed.flatMap (·.functions))
  last : ∀ tm, typed.getLast? = some tm → ∃ past m, modules = past ++ [m] ∧
    List.Forall₂ (Function.ChecksIn t.scope) m.functions tm.functions

lemma InRow.nil : InRow [] [] .initial where
  items := by simp
  registers := .of_registrable (registrable_nil _) rfl .initial
  checked := .nil
  last := by simp

lemma InRow.snoc {past : List Module} {typed : List Typed.Module} {m : Module}
    {tm : Typed.Module} {s t : State} (h : InRow past typed s) (run : m.check s = .ok tm t) :
    InRow (past ++ [m]) (typed ++ [tm]) t := by
  obtain ⟨items, registers, checked⟩ := Module.check_ok h.registers.left run
  have all := h.registers.append (items ▸ registers)
  have functions : (past ++ [m]).flatMap (·.functions) =
      past.flatMap (·.functions) ++ m.functions := by simp
  have now : Earlier t.scope t.scope := ⟨all.ownNames, ⟨_, all.types⟩, fun _ _ => id⟩
  refine ⟨?_, functions ▸ all, ?_, ?_⟩
  · intro m' member
    rcases List.mem_append.mp member with before | here
    · exact h.items m' before
    · rw [List.mem_singleton.mp here]
      exact items
  · rw [functions, List.flatMap_append]
    refine List.rel_append ?_ ?_
    · refine h.checked.imp ?_
      rintro f tf ⟨scope, earlier, checks⟩
      refine ⟨scope, ⟨earlier.own, earlier.types, fun name b bound => ?_⟩, checks⟩
      exact registers.binding?_kept h.registers.left (earlier.kept name b bound)
    · simpa using checked.imp fun f tf checks => ⟨t.scope, now, checks⟩
  · intro last found
    have same : tm = last := by simpa using found
    exact ⟨past, m, rfl, same ▸ checked⟩

/-- Checks that succeed one after the other leave modules in a row. -/
lemma inRow_of_mapM {modules : List Module} {typed : List Typed.Module} {t : State}
    (h : modules.mapM Module.check .initial = .ok typed t) : InRow modules typed t := by
  induction modules using List.reverseRecOn generalizing typed t with
  | nil =>
    obtain ⟨rfl, rfl⟩ := Check.pure_ok_iff.mp h
    exact .nil
  | append_singleton past m ih =>
    simp only [List.mapM_append, List.mapM_cons, List.mapM_nil, Check.bind_ok_iff,
      Check.pure_ok_iff] at h
    obtain ⟨before, s, hpast, _, _, ⟨tm, u, hm, _, _, ⟨rfl, rfl⟩, rfl, rfl⟩, rfl, rfl⟩ := h
    exact (ih hpast).snoc hm

namespace InRow

variable {modules : List Module} {typed : List Typed.Module} {t : State}

lemma types (h : InRow modules typed t) (span : Span) :
    t.scope.Types [(Module.joined modules span).frame] := by
  rw [Module.frame, Module.functions_joined]
  exact h.registers.types

/-- The joined module is well formed, since no function lost sight of what it uses. -/
lemma wellFormed (h : InRow modules typed t) (span : Span) :
    (Module.joined modules span).WellFormed := by
  have functions := Module.functions_joined modules span
  refine ⟨?_, ?_, ?_⟩
  · intro item member
    obtain ⟨m, inside, here⟩ := List.mem_flatMap.mp member
    rw [h.items m inside] at here
    obtain ⟨f, _, rfl⟩ := List.mem_map.mp here
    exact ⟨f, rfl⟩
  · rw [Module.functionNames, functions]
    exact h.registers.longest.registrable.2.1
  · rw [functions]
    refine forall_of_forall₂ h.checked.flip ?_
    rintro tf f ⟨scope, ⟨_, ⟨frames, types⟩, kept⟩, signature, s, u, hsig, rfl, run⟩
    have shown : frames.KeptIn [(Module.joined modules span).frame] := by
      intro name ty found
      rw [← types name] at found
      obtain ⟨b, bound, rfl⟩ := Option.map_eq_some_iff.mp found
      rw [← h.types span name, kept name b bound]
      rfl
    exact ((Function.check_succeeds_iff hsig types).mp ⟨tf, u, run⟩).mono shown

/-- Two scopes that show the functions of the joined module under their own names look alike. -/
lemma shown (h : InRow modules typed t) {span : Span} {scope : Scope}
    (types : scope.Types [(Module.joined modules span).frame]) (own : scope.OwnNames)
    (name : String) : (t.scope.binding? name).map (fun b => (b.emitted, b.ty)) =
      (scope.binding? name).map fun b => (b.emitted, b.ty) := by
  rw [(h.types span).shown h.registers.ownNames, types.shown own]

/-- The functions of the modules are those of the joined one up to parameters and variables. -/
lemma sameUpToLocals (h : InRow modules typed t) {span : Span} {whole : Typed.Module}
    (joined : (Module.joined modules span).analyze = .ok whole) :
    List.Forall₂ (Typed.Function.SameUpToLocals (Module.joined modules span).functionNames)
      (typed.flatMap (·.functions)) whole.functions := by
  obtain ⟨scope, types, own, checked⟩ := Module.analyze_functions joined
  rw [Module.functions_joined] at checked
  refine forall₂_of_common h.checked checked ?_
  rintro f tf tf' ⟨_, earlier, signature, s, u, hsig, rfl, run⟩
    ⟨signature', s', u', hsig', rfl, run'⟩
  obtain rfl : signature = signature' := Except.ok.inj (hsig.symm.trans hsig')
  refine Function.check_sameUpToLocals run run' earlier.own own ?_ ?_
  · intro name b bound
    have look := h.shown types own name
    rw [earlier.kept name b bound, Option.map_some] at look
    obtain ⟨c, found, same⟩ := Option.map_eq_some_iff.mp look.symm
    exact ⟨c, found, congrArg Prod.snd same⟩
  · intro name member free
    rw [Module.functionNames, Module.functions_joined] at member
    obtain ⟨f, inside, rfl⟩ := List.mem_map.mp member
    have look := h.shown types own f.name
    rw [h.registers.left.binding?_eq_local?, h.registers.new inside, free] at look
    cases look

/-- The functions of the last module are those at the end of the joined one. -/
lemma last_suffix (h : InRow modules typed t) {span : Span} {whole tm : Typed.Module}
    (joined : (Module.joined modules span).analyze = .ok whole)
    (final : typed.getLast? = some tm) : tm.functions <:+ whole.functions := by
  obtain ⟨past, m, rfl, checks⟩ := h.last tm final
  obtain ⟨scope, types, own, checked⟩ := Module.analyze_functions joined
  rw [Module.functions_joined, List.flatMap_append, List.flatMap_singleton] at checked
  have atEnd := (List.forall₂_drop_append _ _ _ checked.flip).flip
  have equal : List.Forall₂ Eq tm.functions
      (whole.functions.drop (past.flatMap (·.functions)).length) := by
    refine forall₂_of_common checks atEnd ?_
    rintro f tf tf' ⟨signature, s, u, hsig, here, run⟩ ⟨signature', s', u', hsig', rfl, run'⟩
    obtain rfl : signature = signature' := Except.ok.inj (hsig.symm.trans hsig')
    have look := h.shown types own
    rw [← here] at look
    obtain ⟨t', again⟩ := Function.check_alike run look
    rw [run'] at again
    injection again with same
    exact same.symm
  rw [List.forall₂_eq_eq_eq] at equal
  rw [equal]
  exact List.drop_suffix _ _

end InRow

/-- Modules that are accepted one after the other are accepted as one module. Its functions are
those of the modules in order, each up to the names of its parameters and variables; those of the
last module are the very same. -/
theorem Module.joined_as_in_row {modules : List Module} {typed : List Typed.Module} {t : State}
    (accepted : modules.mapM Module.check .initial = .ok typed t) (span : Span) :
    ∃ whole, (Module.joined modules span).analyze = .ok whole ∧
      List.Forall₂ (Typed.Function.SameUpToLocals (Module.joined modules span).functionNames)
        (typed.flatMap (·.functions)) whole.functions ∧
      ∀ last, typed.getLast? = some last → last.functions <:+ whole.functions := by
  have row := inRow_of_mapM accepted
  obtain ⟨whole, joined⟩ := (row.wellFormed span).analyze
  exact ⟨whole, joined, row.sameUpToLocals joined, fun _ => row.last_suffix joined⟩

/-- `int f(int g) { return g; }` -/
def Module.early : Module :=
  ⟨[.function ⟨"f", [.int], [⟨some "g", [.int], .unknown⟩],
    ⟨[], [.ret (some (.ident "g" .unknown)) .unknown], .unknown⟩, .unknown⟩], .unknown⟩

/-- `int g(int f) { return g(f); }` -/
def Module.late : Module :=
  ⟨[.function ⟨"g", [.int], [⟨some "f", [.int], .unknown⟩],
    ⟨[], [.ret (some (.call (.ident "g" .unknown) [.ident "f" .unknown] .unknown)) .unknown],
      .unknown⟩, .unknown⟩], .unknown⟩

/-- The parameter of the first function has the name of the second one, which is not known yet when
the first module is checked. -/
theorem Module.early_late_joined_as_in_row :
    ∃ typed t whole, [Module.early, Module.late].mapM Module.check .initial = .ok typed t ∧
      (Module.joined [Module.early, Module.late] .unknown).analyze = .ok whole ∧
      (typed.flatMap (·.functions)).map (·.locals) = [["g"], ["f$1"]] ∧
      whole.functions.map (·.locals) = [["g$1"], ["f$1"]] ∧
      List.Forall₂ (Typed.Function.SameUpToLocals ["f", "g"])
        (typed.flatMap (·.functions)) whole.functions ∧
      ∀ last, typed.getLast? = some last → last.functions <:+ whole.functions := by
  have names : (match [Module.early, Module.late].mapM Module.check .initial with
      | .ok typed _ => some ((typed.flatMap (·.functions)).map (·.locals))
      | .error _ _ => none) = some [["g"], ["f$1"]] := by
    decide +kernel
  have names' : (Module.joined [Module.early, Module.late] .unknown).analyze.map
      (fun whole => whole.functions.map (·.locals)) = .ok [["g$1"], ["f$1"]] := by
    decide +kernel
  split at names
  case h_1 typed t accepted =>
    obtain ⟨whole, joined, same, last⟩ := Module.joined_as_in_row accepted .unknown
    rw [joined] at names'
    exact ⟨typed, t, whole, accepted, joined, Option.some.inj names, Except.ok.inj names', same,
      last⟩
  case h_2 => cases names

end Source

end MiniC
