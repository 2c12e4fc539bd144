import MiniC.Proofs.Names.Hoisting
import MiniC.Proofs.Typing.Acceptance

/-!
# Checked trees are well typed

A typed function can be judged without the source it came from. Its parameters and variables stand
under their emitted names in one frame of type `int`, the functions of the module in the frame
around it, and every node must have the type that it carries. Checking gives such functions only
(`Source.Module.analyze_wellTyped`). Blocks open no frames here: emitted names are unique in a
function, so one frame serves all of its blocks.
-/

namespace MiniC

lemma nearest_intFrame (names : List String) (frames : Frames Ty) (name : String) :
    Frames.nearest (intFrame names :: frames) name =
      if name ∈ names then some .int else frames.nearest name := by
  have found : (intFrame names).lookup name = if name ∈ names then some .int else none := by
    split
    · next member =>
      cases hit : (intFrame names).lookup name with
      | none =>
        have listed : (name, Ty.int) ∈ intFrame names := by simpa [intFrame] using member
        have differs := List.lookup_eq_none_iff.mp hit _ listed
        simp at differs
      | some ty =>
        obtain ⟨_, _, split, _⟩ := List.lookup_eq_some_iff.mp hit
        have listed : (name, ty) ∈ intFrame names := by simp [split]
        have int : Ty.int = ty := by simpa [intFrame, member] using listed
        rw [int]
    · next absent =>
      refine List.lookup_eq_none_iff.mpr ?_
      intro entry listed
      have member : entry.1 ∈ names := by
        obtain ⟨x, hx, rfl⟩ := List.mem_map.mp (List.mem_reverse.mp listed)
        exact hx
      have differs : name ≠ entry.1 := fun same => absent (same ▸ member)
      simpa using differs
  rw [Frames.nearest_cons, found]
  split <;> rfl

/-- What follows for each right-hand member of related lists. -/
lemma forall_of_forall₂ {α β : Type} {R : α → β → Prop} {P : β → Prop} {as : List α} {bs : List β}
    (related : List.Forall₂ R as bs) (each : ∀ a b, R a b → P b) : ∀ b ∈ bs, P b := by
  induction related with
  | nil => simp
  | cons here _ ih => exact List.forall_mem_cons.mpr ⟨each _ _ here, ih⟩

namespace Typed

/-! ## The judgement -/

mutual

/-- An expression has the type that it carries, and so have its parts. -/
inductive Expr.WellTyped (frames : Frames Ty) : Expr → Prop
  | int {n : Nat} (small : n < 0x8000000000000000) : Expr.WellTyped frames (.int (.ofNat n) .int)
  | var {name : String} {ty : Ty} (bound : frames.nearest name = some ty) :
      Expr.WellTyped frames (.var name ty)
  | add {left right : Expr} (hl : Expr.WellTyped frames left) (hr : Expr.WellTyped frames right)
      (same : left.ty = right.ty) : Expr.WellTyped frames (.add left right left.ty)
  | assign {name : String} {value : Expr} (bound : frames.nearest name = some value.ty)
      (hv : Expr.WellTyped frames value) :
      Expr.WellTyped frames (.assign (.var name value.ty) value value.ty)
  | call {callee : Expr} {args : List Expr} {result : Ty} {params : List Ty}
      (hc : Expr.WellTyped frames callee) (function : callee.ty = .func result params)
      (has : Expr.AllWellTyped frames args params) : Expr.WellTyped frames (.call callee args result)

/-- Arguments have the types that they carry, and these are the given ones. -/
inductive Expr.AllWellTyped (frames : Frames Ty) : List Expr → List Ty → Prop
  | nil : Expr.AllWellTyped frames [] []
  | cons {e : Expr} {rest : List Expr} {tys : List Ty} (first : Expr.WellTyped frames e)
      (others : Expr.AllWellTyped frames rest tys) :
      Expr.AllWellTyped frames (e :: rest) (e.ty :: tys)

end

/-- A variable of type `int` that starts with a literal of 32 bits. -/
def Declarator.WellTyped (d : Declarator) : Prop :=
  ∃ n, n < 0x100000000 ∧ d = ⟨d.name, .int, .int (.ofNat n) .int⟩

mutual

def Stmt.WellTyped (frames : Frames Ty) : Stmt → Prop
  | .expr value => value.WellTyped frames
  | .ret value => value.WellTyped frames ∧ value.ty = .int
  | .block body => body.WellTyped frames

def Stmt.AllWellTyped (frames : Frames Ty) : List Stmt → Prop
  | [] => True
  | s :: rest => s.WellTyped frames ∧ Stmt.AllWellTyped frames rest

def Block.WellTyped (frames : Frames Ty) : Block → Prop
  | ⟨declarators, stmts⟩ => (∀ d ∈ declarators, d.WellTyped) ∧ Stmt.AllWellTyped frames stmts

end

lemma Block.WellTyped.stmts {frames : Frames Ty} {block : Block} (h : block.WellTyped frames) :
    Stmt.AllWellTyped frames block.stmts := by
  cases block
  exact h.2

mutual

/-- The variables of a block and of the blocks inside it, in the order they are written. -/
def Block.hoisted : Block → List Declarator
  | ⟨declarators, stmts⟩ => declarators ++ Stmt.hoistedAll stmts

def Stmt.hoistedAll : List Stmt → List Declarator
  | [] => []
  | s :: rest => s.hoisted ++ Stmt.hoistedAll rest

def Stmt.hoisted : Stmt → List Declarator
  | .block body => body.hoisted
  | _ => []

end

mutual

lemma Block.variables_eq : ∀ block : Block, block.variables = block.hoisted.map Declarator.emit
  | ⟨declarators, stmts⟩ => by
    rw [Block.variables, Block.hoisted, Stmt.variablesAll_eq, List.map_append]

lemma Stmt.variablesAll_eq : ∀ stmts : List Stmt,
    Stmt.variablesAll stmts = (Stmt.hoistedAll stmts).map Declarator.emit
  | [] => rfl
  | s :: rest => by
    rw [Stmt.variablesAll, Stmt.hoistedAll, Stmt.variables_eq, Stmt.variablesAll_eq,
      List.map_append]

lemma Stmt.variables_eq : ∀ s : Stmt, s.variables = s.hoisted.map Declarator.emit
  | .expr _ => rfl
  | .ret _ => rfl
  | .block body => Block.variables_eq body

end

mutual

lemma Block.WellTyped.hoisted {frames : Frames Ty} : ∀ (block : Block), block.WellTyped frames →
    ∀ d ∈ block.hoisted, d.WellTyped
  | ⟨declarators, stmts⟩, h, d, member => by
    rcases List.mem_append.mp member with here | later
    · exact h.1 d here
    · exact Stmt.AllWellTyped.hoisted stmts h.2 d later

lemma Stmt.AllWellTyped.hoisted {frames : Frames Ty} : ∀ (stmts : List Stmt),
    Stmt.AllWellTyped frames stmts → ∀ d ∈ Stmt.hoistedAll stmts, d.WellTyped
  | [], _, d, member => by cases member
  | s :: rest, h, d, member => by
    rcases List.mem_append.mp member with here | later
    · exact Stmt.WellTyped.hoisted s h.1 d here
    · exact Stmt.AllWellTyped.hoisted rest h.2 d later

lemma Stmt.WellTyped.hoisted {frames : Frames Ty} : ∀ (s : Stmt), s.WellTyped frames →
    ∀ d ∈ s.hoisted, d.WellTyped
  | .expr _, _, d, member => by cases member
  | .ret _, _, d, member => by cases member
  | .block body, h, d, member => Block.WellTyped.hoisted body h d member

end

/-- The names of the parameters and variables of a function, in the order they are declared. -/
def Function.locals (f : Function) : List String :=
  f.params.map (·.name) ++ f.body.variables.map (·.1)

/-- Parameters and results are numbers; the names of a function differ from each other and from all
functions of the module, and its body is well typed where both are in sight. -/
structure Function.WellTyped (functions : List (String × Ty)) (f : Function) : Prop where
  result : f.result = .int
  params : ∀ p ∈ f.params, p = ⟨p.name, .int, Ty.int.intended⟩
  distinct : f.locals.Nodup
  apart : ∀ x ∈ f.locals, functions.lookup x = none
  body : f.body.WellTyped [intFrame f.locals, functions]

def Function.ty (f : Function) : Ty :=
  .func f.result (f.params.map (·.ty))

/-- The frame of all functions of a module. -/
def Module.frame (m : Module) : List (String × Ty) :=
  (m.functions.map fun f => (f.name, f.ty)).reverse

structure Module.WellTyped (m : Module) : Prop where
  distinct : (m.functions.map (·.name)).Nodup
  functions : ∀ f ∈ m.functions, f.WellTyped m.frame

end Typed

/-! ## Checking gives well-typed trees -/

open Check (State)

/-- Every visible binding has the type that frames give to its emitted name. -/
def Scope.Emits (scope : Scope) (frames : Frames Ty) : Prop :=
  ∀ name b, scope.binding? name = some b → frames.nearest b.emitted = some b.ty

lemma Scope.Declares.emits {scope after : Scope} {taken takenAfter : List String}
    {bindings : List Binding} (h : scope.Declares taken bindings after takenAfter)
    {frames : Frames Ty} (emits : scope.Emits frames)
    (new : ∀ b ∈ bindings, frames.nearest b.emitted = some b.ty) : after.Emits frames := by
  intro name b found
  rw [h.binding?_eq] at found
  cases hit : Frame.find? bindings.reverse name with
  | some c =>
    rw [hit] at found
    obtain rfl : c = b := Option.some.inj found
    exact new c (List.mem_reverse.mp (List.mem_of_find?_eq_some hit))
  | none =>
    rw [hit] at found
    exact emits name b found

lemma Scope.Declares.emitted_mem {scope after : Scope} {taken takenAfter : List String}
    {bindings : List Binding} (h : scope.Declares taken bindings after takenAfter) {b : Binding}
    (member : b ∈ bindings) : b.emitted ∈ takenAfter := by
  rw [h.taken_eq]
  exact List.mem_append_left _ (List.mem_reverse.mpr (List.mem_map.mpr ⟨b, member, rfl⟩))

/-- What a module scope shows is still in sight behind variables that hide nothing of it. -/
lemma Scope.Types.emits {scope : Scope} {functions : List (String × Ty)}
    (types : scope.Types [functions]) (own : scope.OwnNames) {locals : List String}
    (apart : ∀ x ∈ locals, functions.lookup x = none) :
    scope.Emits [intFrame locals, functions] := by
  intro name b found
  have listed := types name
  rw [found, Option.map_some, Frames.nearest_singleton] at listed
  have outside : name ∉ locals := by
    intro inside
    rw [apart name inside] at listed
    cases listed
  rw [own name b found, nearest_intFrame, if_neg outside, Frames.nearest_singleton]
  exact listed.symm

namespace Source

mutual

theorem Expr.check_wellTyped {scope : Scope} {frames : Frames Ty} (emits : scope.Emits frames) :
    ∀ (e : Expr) {typed : Typed.Expr}, e.check scope = .ok typed → typed.WellTyped frames
  | .const text span, typed, h => by
    obtain ⟨n, _, small, rfl⟩ := Expr.check_const_ok_iff.mp h
    exact .int small
  | .ident name span, typed, h => by
    obtain ⟨b, found, rfl⟩ := Expr.check_ident_ok_iff.mp h
    exact .var (emits name b found)
  | .binary op left right span, typed, h => by
    obtain ⟨_, l, r, hl, hr, same, rfl⟩ := Expr.check_binary_ok_iff.mp h
    exact .add (Expr.check_wellTyped emits left hl) (Expr.check_wellTyped emits right hr) same
  | .assign op target value span, typed, h => by
    obtain ⟨_, l, r, hl, named, hr, same, rfl⟩ := Expr.check_assign_ok_iff.mp h
    obtain ⟨name, inner, rfl⟩ := (Expr.isAssignable_check_iff hl).mp named
    obtain ⟨b, found, rfl⟩ := Expr.check_ident_ok_iff.mp hl
    have bound := emits name b found
    have int : b.ty = r.ty := same
    simp only [Typed.Expr.ty, int] at bound ⊢
    exact .assign bound (Expr.check_wellTyped emits value hr)
  | .call callee args span, typed, h => by
    obtain ⟨c, result, params, as, hc, function, count, has, rfl⟩ := Expr.check_call_ok_iff.mp h
    exact .call (Expr.check_wellTyped emits callee hc) function
      (Expr.checkArgs_wellTyped emits args count has)

theorem Expr.checkArgs_wellTyped {scope : Scope} {frames : Frames Ty}
    (emits : scope.Emits frames) :
    ∀ (args : List Expr) {params : List Ty} {typed : List Typed.Expr},
      params.length = args.length → Expr.checkArgs scope params args = .ok typed →
      Typed.Expr.AllWellTyped frames typed params
  | [], params, typed, count, h => by
    cases List.length_eq_zero_iff.mp count
    cases h
    exact .nil
  | arg :: args, [], typed, count, h => by cases count
  | arg :: args, param :: params, typed, count, h => by
    obtain ⟨a, rest, ha, rfl, hrest, rfl⟩ := Expr.checkArgs_cons_ok_iff.mp h
    exact .cons (Expr.check_wellTyped emits arg ha)
      (Expr.checkArgs_wellTyped emits args (Nat.succ.inj count) hrest)

end

lemma Takes.mem_of_mem {s t : State} {names : List String} (h : Takes s t names) {x : String}
    (member : x ∈ s.taken) : x ∈ t.taken := by
  rw [h.taken]
  exact List.mem_append_right _ member

lemma Declarator.Initializes.wellTyped {d : Declarator} {typed : Typed.Declarator}
    (h : d.Initializes typed) : typed.WellTyped := by
  obtain ⟨n, ⟨_, small⟩, made⟩ := h
  exact ⟨n, small, made⟩

/-- Declarations of a block put bindings of type `int` in sight. -/
lemma Decl.checkAll_wellTyped {decls : List Decl} {s t : State} {typed : List Typed.Declarator}
    (h : Decl.checkAll decls s = .ok typed t) {frames : Frames Ty}
    (emits : s.scope.Emits frames) (ints : ∀ x ∈ t.taken, frames.nearest x = some .int) :
    (∀ d ∈ typed, d.WellTyped) ∧ t.scope.Emits frames := by
  obtain ⟨inits, declares⟩ := Decl.checkAll_declares h
  refine ⟨?_, declares.emits emits ?_⟩
  · exact forall_of_forall₂ inits fun _ _ init => Declarator.Initializes.wellTyped init
  · intro b member
    have int : b.ty = .int := by
      rw [Declarator.bindings, ← List.map_uncurry_zip_eq_zipWith] at member
      obtain ⟨_, _, rfl⟩ := List.mem_map.mp member
      rfl
    rw [int]
    exact ints _ (declares.emitted_mem member)

mutual

theorem Stmt.check_wellTyped {frames : Frames Ty} : ∀ (stmt : Stmt) {s t : State}
    {typed : Typed.Stmt}, stmt.check s = .ok typed t → s.scope.result = some .int →
      s.scope.Emits frames → (∀ x ∈ t.taken, frames.nearest x = some .int) →
      typed.WellTyped frames
  | .expr e span, s, t, typed, h, result, emits, ints => by
    obtain ⟨value, checked, rfl, _⟩ := Stmt.check_expr_ok_iff.mp h
    exact Expr.check_wellTyped emits e checked
  | .ret value span, s, t, typed, h, result, emits, ints => by
    obtain ⟨e, v, rfl, checked, same, rfl, _⟩ := Stmt.check_ret_ok_iff.mp h
    rw [result] at same
    exact ⟨Expr.check_wellTyped emits e checked, (Option.some.inj same).symm⟩
  | .block body span, s, t, typed, h, result, emits, ints => by
    obtain ⟨b, r, checked, rfl, rfl⟩ := Stmt.check_block_ok_iff.mp h
    -- The fork shows what the scope shows, and the names taken inside stay taken.
    exact Block.checkHere_wellTyped body checked result emits ints

theorem Stmt.checkAll_wellTyped {frames : Frames Ty} : ∀ (stmts : List Stmt) {s t : State}
    {typed : List Typed.Stmt}, Stmt.checkAll stmts s = .ok typed t →
      s.scope.result = some .int → s.scope.Emits frames →
      (∀ x ∈ t.taken, frames.nearest x = some .int) → Typed.Stmt.AllWellTyped frames typed
  | [], s, t, typed, h, result, emits, ints => by
    obtain ⟨rfl, _⟩ := Check.pure_ok_iff.mp h
    trivial
  | stmt :: rest, s, t, typed, h, result, emits, ints => by
    obtain ⟨first, others, r, hfirst, hrest, rfl⟩ := Stmt.checkAll_cons_ok_iff.mp h
    have scope := (Stmt.check_takes stmt hfirst).1
    have later := (Stmt.checkAll_takes rest hrest).2
    exact ⟨Stmt.check_wellTyped stmt hfirst result emits fun x hx => ints x (later.mem_of_mem hx),
      Stmt.checkAll_wellTyped rest hrest (scope ▸ result) (scope ▸ emits) ints⟩

theorem Block.checkHere_wellTyped {frames : Frames Ty} : ∀ (block : Block) {s t : State}
    {typed : Typed.Block}, block.checkHere s = .ok typed t → s.scope.result = some .int →
      s.scope.Emits frames → (∀ x ∈ t.taken, frames.nearest x = some .int) →
      typed.WellTyped frames
  | ⟨decls, stmts, span⟩, s, t, typed, h, result, emits, ints => by
    obtain ⟨ds, ss, r, hds, hss, rfl⟩ := Block.checkHere_ok_iff.mp h
    have later := (Stmt.checkAll_takes stmts hss).2
    obtain ⟨declarators, visible⟩ :=
      Decl.checkAll_wellTyped hds emits fun x hx => ints x (later.mem_of_mem hx)
    have sameResult := (Decl.checkAll_declares hds).2.result.trans result
    exact ⟨declarators, Stmt.checkAll_wellTyped stmts hss sameResult visible ints⟩

end

/-! ## Functions and modules -/

/-- A function that is checked in a module scope is well typed among the functions of the scope. -/
theorem Function.check_wellTyped {f : Function} {signature : Signature} {s t : State}
    {typed : Typed.Function} (hsig : f.signature = .ok signature)
    (h : f.check signature s = .ok typed t) {functions : List (String × Ty)}
    (types : s.scope.Types [functions]) (own : s.scope.OwnNames) :
    typed.WellTyped functions := by
  obtain ⟨_, _, int, _, ints⟩ := Function.signature_ok hsig
  obtain ⟨params, body, r, u, hparams, hbody, rfl, _⟩ := Function.check_ok_iff.mp h
  have takes := Function.check_takes hparams hbody
  let locals := params.map (·.name) ++ body.variables.map (·.1)
  have apart : ∀ x ∈ locals, functions.lookup x = none := by
    intro x hx
    have hidden := (takes.unused.2 x hx).2
    rw [Function.entry_scope, Scope.binding?_forFunction] at hidden
    rw [← Frames.nearest_singleton, ← types x, hidden]
    rfl
  have taken : u.taken = locals.reverse := by
    rw [takes.taken, Function.entry_taken, List.append_nil]
  have local_int : ∀ x ∈ u.taken, Frames.nearest [intFrame locals, functions] x = some .int := by
    intro x hx
    rw [taken, List.mem_reverse] at hx
    rw [nearest_intFrame, if_pos hx]
  have start : (f.entry signature s).scope.Emits [intFrame locals, functions] :=
    types.emits own apart
  obtain ⟨bindings, declares, _, tys, rfl⟩ := declareParams_declares hparams
  have paramInts : ∀ b ∈ bindings, b.ty = .int := by
    intro b member
    have listed : b.ty ∈ signature.params.map (·.ty) := tys ▸ List.mem_map.mpr ⟨b, member, rfl⟩
    obtain ⟨p, hp, same⟩ := List.mem_map.mp listed
    exact same ▸ ints p hp
  have inside : r.scope.Emits [intFrame locals, functions] := by
    refine declares.emits start ?_
    intro b member
    rw [paramInts b member]
    exact local_int _ ((Block.checkHere_takes f.body hbody).mem_of_mem (declares.emitted_mem member))
  have result : r.scope.result = some .int := by
    rw [declares.result, Function.entry_scope, ← int]
    rfl
  refine ⟨int, ?_, takes.unused.1, apart, ?_⟩
  · intro p member
    obtain ⟨b, hb, rfl⟩ := List.mem_map.mp member
    simp [paramInts b hb]
  · exact Block.checkHere_wellTyped f.body hbody result inside local_int

lemma Function.check_ty {f : Function} {signature : Signature} {s t : State}
    {typed : Typed.Function} (hsig : f.signature = .ok signature)
    (h : f.check signature s = .ok typed t) : typed.ty = f.ty := by
  rw [← Function.signature_ty hsig]
  obtain ⟨params, body, r, u, hparams, _, rfl, _⟩ := Function.check_ok_iff.mp h
  obtain ⟨bindings, _, _, tys, rfl⟩ := declareParams_declares hparams
  simp [Typed.Function.ty, Signature.ty, ← tys, Function.comp_def]

/-- Each function of an accepted module with its signature and the typed function it is checked to,
in order, and what is known of the scope they are all checked in. -/
lemma Module.analyze_functions {m : Module} {typed : Typed.Module} (h : m.analyze = .ok typed) :
    ∃ scope : Scope, scope.Types [m.frame] ∧ scope.OwnNames ∧
      List.Forall₂ (fun f tf => ∃ signature s t, f.signature = .ok signature ∧
        s.scope = scope ∧ f.check signature s = .ok tf t) m.functions typed.functions := by
  obtain ⟨declared, functions, r, t, hdecl, hcheck, rfl⟩ := Module.analyze_ok_iff.mp h
  obtain ⟨_, signatures, _⟩ := Item.declareAll_declares hdecl
  refine ⟨r.scope, Item.declareAll_types hdecl, Item.declareAll_ownNames hdecl, ?_⟩
  rw [(Item.declareAll_initial hdecl).1, List.forall₂_map_left_iff]
  have checked := (List.forall₂_and_left ..).mpr ⟨signatures, Function.checkAll_forall₂ hcheck⟩
  refine checked.imp ?_
  rintro d tf ⟨hsig, s, u, scope, run⟩
  exact ⟨d.2, s, u, hsig, scope, run⟩

/-- A module is accepted when its functions are, in every scope that shows them all under their own
names. -/
lemma Module.analyze_of_functions {m : Module} {typed : List Typed.Function}
    (onlyFunctions : ∀ item ∈ m.items, ∃ f, item = .function f) (distinct : m.functionNames.Nodup)
    (each : List.Forall₂ (fun f tf => ∃ signature, f.signature = .ok signature ∧
      ∀ s : State, s.scope.Types [m.frame] → s.scope.OwnNames →
        ∃ t, f.check signature s = .ok tf t) m.functions typed) :
    m.analyze = .ok ⟨typed⟩ := by
  have signed : ∀ f ∈ m.functions, ∃ signature, f.signature = .ok signature :=
    forall_of_forall₂ each.flip fun _ _ ⟨signature, hsig, _⟩ => ⟨signature, hsig⟩
  obtain ⟨declared, functions, signatures⟩ := Function.exists_signatures signed
  have items : m.items = declared.map fun d => .function d.1 := by
    rw [Module.items_eq onlyFunctions, ← functions, List.map_map]
    rfl
  have free : State.initial.scope.Free (declared.map (·.1.name)) := by
    refine ⟨?_, fun name _ => rfl⟩
    rwa [Module.functionNames, ← functions, List.map_map] at distinct
  obtain ⟨r, hdecl⟩ := Item.declareAll_succeeds signatures free
  rw [← items] at hdecl
  rw [← functions, List.forall₂_map_left_iff] at each
  have checked : List.Forall₂ (fun d tf => ∀ q : State, q.scope = r.scope →
      ∃ u, d.1.check d.2 q = .ok tf u) declared typed := by
    refine ((List.forall₂_and_left ..).mpr ⟨signatures, each⟩).imp ?_
    rintro d tf ⟨known, signature, hsig, run⟩ q same
    obtain rfl : d.2 = signature := Except.ok.inj (known.symm.trans hsig)
    exact run q (same ▸ Item.declareAll_types hdecl) (same ▸ Item.declareAll_ownNames hdecl)
  obtain ⟨t, hcheck⟩ := Function.checkAll_of_forall₂ checked rfl
  exact Module.analyze_ok_iff.mpr ⟨declared, typed, r, t, hdecl, hcheck, rfl⟩

/-- The functions of a typed module have the names and types of the source, in order. -/
lemma Module.analyze_frame {m : Module} {typed : Typed.Module} (h : m.analyze = .ok typed) :
    typed.frame = m.frame := by
  obtain ⟨_, _, _, checked⟩ := Module.analyze_functions h
  rw [Typed.Module.frame, Module.frame]
  congr 1
  refine (map_eq_map_of_forall₂ checked ?_).symm
  rintro f tf ⟨signature, s, t, hsig, _, run⟩
  rw [Function.check_name run, Function.check_ty hsig run]

/-- Checking gives well-typed modules. -/
theorem Module.analyze_wellTyped {m : Module} {typed : Typed.Module} (h : m.analyze = .ok typed) :
    typed.WellTyped := by
  obtain ⟨scope, types, own, checked⟩ := Module.analyze_functions h
  refine ⟨?_, ?_⟩
  · rw [Module.analyze_names h]
    exact (Module.wellFormed_of_analyze h).distinct
  · rw [Module.analyze_frame h]
    refine forall_of_forall₂ checked ?_
    rintro f tf ⟨signature, s, t, hsig, same, run⟩
    exact Function.check_wellTyped hsig run (same ▸ types) (same ▸ own)

end Source

end MiniC
