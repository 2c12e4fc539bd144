import MiniC.Proofs.Typing.Acceptance
import Mathlib.Data.List.Induction
import Mathlib.Data.List.Nodup

/-!
# What stays of a module in the scope

Several modules may be checked one after the other, each in the state that the one before it left,
whether that one was accepted or not. Only declarations at module level outlive a module. They are
the functions it begins with, up to the first item that cannot be declared, and they stay even if a
body turns out to be wrong.

The invariant is `AtModule`: there is one frame, and its names are the taken ones. It is what makes
every function keep its own name.
-/

namespace MiniC

/-! ## The state that a check leaves -/

namespace Check

variable {α β : Type} {s r : State}

/-- The state after a check, which may have stopped at a fault. -/
def after (x : Check α) (s : State) : State :=
  match x s with
  | .ok _ t => t
  | .error _ t => t

lemma after_of_ok {x : Check α} {a : α} (h : x s = .ok a r) : x.after s = r := by
  rw [after, h]

lemma after_of_error {x : Check α} {fault : Fault} (h : x s = .error fault r) :
    x.after s = r := by
  rw [after, h]

lemma after_bind_of_ok {x : Check α} {f : α → Check β} {a : α} (h : x s = .ok a r) :
    (x >>= f).after s = (f a).after r := by
  simp only [after, bind, EStateM.bind, h]

lemma bind_of_error {x : Check α} {f : α → Check β} {fault : Fault} (h : x s = .error fault r) :
    (x >>= f) s = .error fault r := by
  simp only [bind, EStateM.bind, h]

lemma after_bind_pure (x : Check α) (f : α → β) (s : State) :
    (x >>= fun a => pure (f a)).after s = x.after s := by
  cases run : x s with
  | ok a r =>
    rw [after_bind_of_ok run, after_of_ok run]
    rfl
  | error fault r => rw [after_of_error (bind_of_error run), after_of_error run]

/-- A check that leaves the scope and the taken names as they were, also where it stops at a
fault. -/
def Restores (x : Check α) : Prop :=
  ∀ s, (x.after s).scope = s.scope ∧ (x.after s).taken = s.taken

lemma restores_pure (a : α) : Restores (pure a) := fun _ => ⟨rfl, rfl⟩

lemma restores_report (event : Event) : Restores (report event) := fun _ => ⟨rfl, rfl⟩

lemma Restores.bind {x : Check α} {f : α → Check β} (first : x.Restores)
    (second : ∀ a, (f a).Restores) : (x >>= f).Restores := by
  intro s
  have before := first s
  cases run : x s with
  | ok a r =>
    rw [after_of_ok run] at before
    rw [after_bind_of_ok run]
    obtain ⟨scope, taken⟩ := second a r
    exact ⟨scope.trans before.1, taken.trans before.2⟩
  | error fault r =>
    rw [after_of_error run] at before
    rwa [after_of_error (bind_of_error run)]

lemma restores_inFunction (result : Ty) (x : Check α) : (inFunction result x).Restores := by
  intro s
  simp only [after, inFunction, inScope]
  cases x { scope := s.scope.forFunction result, taken := [],
            log := s.log.push (.forked (s.scope.forFunction result).depth) } with
  | ok a t => exact ⟨rfl, rfl⟩
  | error fault t => exact ⟨rfl, rfl⟩

end Check

namespace Source

open Check (State)

variable {s : State}

lemma Function.check_restores (f : Function) (signature : Signature) :
    (f.check signature).Restores :=
  (Check.restores_report _).bind fun _ => Check.restores_inFunction _ _

lemma Function.checkAll_restores (declared : List (Function × Signature)) :
    (Function.checkAll declared).Restores := by
  induction declared with
  | nil => exact Check.restores_pure _
  | cons d rest ih =>
    refine (Function.check_restores d.1 d.2).bind fun first => ?_
    exact ih.bind fun others => Check.restores_pure _

/-- Checking bodies changes nothing that the declarations of a module left. -/
lemma Module.check_after (m : Module) (s : State) :
    (m.check.after s).scope = ((Item.declareAll m.items).after s).scope ∧
      (m.check.after s).taken = ((Item.declareAll m.items).after s).taken := by
  cases run : Item.declareAll m.items s with
  | ok declared r =>
    have bodies := (Function.checkAll_restores declared).bind fun functions =>
      (Check.restores_report (.analyzed functions.length)).bind fun _ =>
        Check.restores_pure (Typed.Module.mk functions)
    rw [Check.after_of_ok run, Module.check, Check.after_bind_of_ok run]
    exact bodies r
  | error fault r =>
    rw [Check.after_of_error run, Module.check, Check.after_of_error (Check.bind_of_error run)]
    exact ⟨rfl, rfl⟩

/-! ## Functions that can be declared -/

/-- The signature of a function can be resolved. -/
def Function.Resolvable (f : Function) : Prop :=
  Ty.ofSpecifiers f.result = some .int ∧ f.HasParams

lemma Function.resolvable_iff {f : Function} :
    f.Resolvable ↔ ∃ signature, f.signature = .ok signature := by
  constructor
  · rintro ⟨result, params⟩
    exact Function.signature_succeeds result params
  · rintro ⟨signature, h⟩
    obtain ⟨result, params, _⟩ := Function.signature_ok h
    exact ⟨result, params⟩

/-- The binding of a function in a module scope. -/
def Function.binding (f : Function) : Binding :=
  ⟨f.name, f.name, f.ty, f.span.start⟩

/-- Functions that can be declared one after the other in a scope. -/
def Registrable (scope : Scope) (functions : List Function) : Prop :=
  (∀ f ∈ functions, f.Resolvable) ∧ scope.Free (functions.map (·.name))

lemma registrable_nil (scope : Scope) : Registrable scope [] :=
  ⟨by simp, scope.free_nil⟩

lemma registrable_cons_iff {scope : Scope} {f : Function} {rest : List Function} :
    Registrable scope (f :: rest) ↔
      f.Resolvable ∧ scope.local? f.name = none ∧ Registrable (scope.bind f.binding) rest := by
  have names : scope.Free (f.name :: rest.map (·.name)) ↔ _ := Scope.free_cons_iff f.binding
  simp only [Registrable, List.forall_mem_cons, List.map_cons, names]
  constructor
  · rintro ⟨⟨here, later⟩, new, free⟩
    exact ⟨here, new, later, free⟩
  · rintro ⟨here, new, later, free⟩
    exact ⟨⟨here, later⟩, new, free⟩

/-- The longest run of functions that items begin with and that can be declared in a scope. -/
structure LongestStart (scope : Scope) (items : List Item) (functions : List Function) :
    Prop where
  start : functions.map .function <+: items
  registrable : Registrable scope functions
  longest : ∀ more : List Function, more.map .function <+: items → Registrable scope more →
    more <+: functions

namespace LongestStart

variable {scope : Scope} {rest : List Item} {f : Function}

/-- Nothing is declared where the first item cannot be. -/
lemma of_stuck {items : List Item}
    (stuck : ∀ f : Function, items.head? = some (.function f) → ¬ Registrable scope [f]) :
    LongestStart scope items [] := by
  refine ⟨List.nil_prefix, registrable_nil scope, ?_⟩
  intro more start registrable
  cases more with
  | nil => exact List.nil_prefix
  | cons f others =>
    obtain ⟨resolvable, new, _⟩ := registrable_cons_iff.mp registrable
    obtain ⟨left, rfl⟩ := start
    exact absurd (registrable_cons_iff.mpr ⟨resolvable, new, registrable_nil _⟩) (stuck f rfl)

lemma cons {functions : List Function} (resolvable : f.Resolvable)
    (new : scope.local? f.name = none)
    (later : LongestStart (scope.bind f.binding) rest functions) :
    LongestStart scope (.function f :: rest) (f :: functions) := by
  refine ⟨?_, registrable_cons_iff.mpr ⟨resolvable, new, later.registrable⟩, ?_⟩
  · exact List.cons_prefix_cons.mpr ⟨rfl, later.start⟩
  · intro more start registrable
    cases more with
    | nil => exact List.nil_prefix
    | cons g others =>
      obtain ⟨same, tail⟩ := List.cons_prefix_cons.mp start
      cases same
      obtain ⟨_, _, registrable⟩ := registrable_cons_iff.mp registrable
      exact List.cons_prefix_cons.mpr ⟨rfl, later.longest others tail registrable⟩

/-- Items that can all be declared are their own longest start. -/
lemma eq_of_registrable {functions all : List Function}
    (h : LongestStart scope (all.map .function) functions) (registrable : Registrable scope all) :
    functions = all := by
  have most := h.longest all (List.prefix_refl _) registrable
  have least := h.start.length_le
  rw [List.length_map, List.length_map] at least
  exact (most.eq_of_length_le least).symm

end LongestStart

/-! ## The scope of a module -/

/-- A state between modules. -/
structure AtModule (s : State) : Prop where
  single : s.scope.outer = []
  taken : s.taken = s.scope.frame.map (·.name)

namespace AtModule

lemma initial : AtModule .initial := ⟨rfl, rfl⟩

lemma binding?_eq_local? (h : AtModule s) (name : String) :
    s.scope.binding? name = s.scope.local? name := by
  rw [Scope.binding?_eq, h.single]
  exact Option.or_none

/-- A name that is not bound yet is emitted as it is. -/
lemma fresh_eq (h : AtModule s) {name : String} (new : s.scope.local? name = none) (ty : Ty)
    (place : Location) : s.fresh name ty place = ⟨name, name, ty, place⟩ := by
  have untaken : name ∉ s.taken := by
    rw [h.taken]
    intro member
    obtain ⟨b, hb, same⟩ := List.mem_map.mp member
    have miss := List.find?_eq_none.mp new b hb
    simp [same] at miss
  have unused : s.scope.Unused s.taken [name] := by
    refine ⟨List.nodup_singleton _, fun x member => ?_⟩
    rw [List.mem_singleton.mp member, h.binding?_eq_local?]
    exact ⟨untaken, new⟩
  rw [State.fresh, unused.freshName_eq]

/-- Declaring a function keeps its name and leaves a module scope again. -/
lemma declared (h : AtModule s) {f : Function} {signature : Signature}
    (hsig : f.signature = .ok signature) (new : s.scope.local? f.name = none) :
    (s.declared f.name signature.ty f.span.start).scope = s.scope.bind f.binding ∧
      AtModule (s.declared f.name signature.ty f.span.start) := by
  have fresh : s.fresh f.name signature.ty f.span.start = f.binding := by
    rw [h.fresh_eq new, Function.signature_ty hsig, Function.binding]
  have scope : (s.declared f.name signature.ty f.span.start).scope = s.scope.bind f.binding := by
    rw [State.declared_scope, fresh]
  refine ⟨scope, ?_, ?_⟩
  · rw [scope]
    exact h.single
  · have emitted : s.scope.freshName s.taken f.name = f.name := congrArg Binding.emitted fresh
    rw [State.declared_taken, scope, emitted, h.taken]
    rfl

end AtModule

/-- From one state to another, the items of a module are declared as far as possible, and nothing
else changes. -/
structure Registers (items : List Item) (functions : List Function) (s t : State) : Prop where
  longest : LongestStart s.scope items functions
  frame : t.scope.frame = (functions.map Function.binding).reverse ++ s.scope.frame
  left : AtModule t

lemma Registers.of_stuck {items : List Item} (h : AtModule s)
    (stuck : ∀ f : Function, items.head? = some (.function f) → ¬ Registrable s.scope [f]) :
    Registers items [] s s :=
  ⟨.of_stuck stuck, rfl, h⟩

lemma Registers.cons {items : List Item} {functions : List Function} {f : Function} {r t : State}
    (resolvable : f.Resolvable) (new : s.scope.local? f.name = none)
    (scope : r.scope = s.scope.bind f.binding) (later : Registers items functions r t) :
    Registers (.function f :: items) (f :: functions) s t := by
  refine ⟨.cons resolvable new (scope ▸ later.longest), ?_, later.left⟩
  rw [later.frame, scope, List.map_cons, List.reverse_cons, List.append_assoc]
  rfl

lemma Item.declareAll_after_cons {f : Function} {signature : Signature} {rest : List Item}
    (hsig : f.signature = .ok signature) (new : s.scope.local? f.name = none) :
    (Item.declareAll (.function f :: rest)).after s =
      (Item.declareAll rest).after (s.declared f.name signature.ty f.span.start) := by
  have resolved := Check.ofExcept_ok_iff.mpr ⟨hsig, (rfl : s = s)⟩
  have declared := Check.declare_ok_iff.mpr
    ⟨new, rfl, (rfl : s.declared f.name signature.ty f.span.start = _)⟩
  rw [Item.declareAll, Check.after_bind_of_ok resolved, Check.after_bind_of_ok declared]
  exact Check.after_bind_pure _ _ _

lemma Item.declareAll_after_of_stuck {f : Function} {rest : List Item}
    (stuck : ¬ Registrable s.scope [f]) :
    (Item.declareAll (.function f :: rest)).after s = s := by
  cases hsig : f.signature with
  | error fault =>
    rw [Item.declareAll, hsig]
    rfl
  | ok signature =>
    have resolved := Check.ofExcept_ok_iff.mpr ⟨hsig, (rfl : s = s)⟩
    cases found : s.scope.local? f.name with
    | some previous =>
      rw [Item.declareAll, Check.after_bind_of_ok resolved,
        Check.after_of_error (Check.bind_of_error (Check.declare_of_local? found))]
    | none =>
      have resolvable := Function.resolvable_iff.mpr ⟨signature, hsig⟩
      exact absurd (registrable_cons_iff.mpr ⟨resolvable, found, registrable_nil _⟩) stuck

/-- The declarations of a module end at the first item that cannot be declared. -/
theorem Item.declareAll_registers (items : List Item) (h : AtModule s) :
    ∃ functions, Registers items functions s ((Item.declareAll items).after s) := by
  induction items generalizing s with
  | nil => exact ⟨[], .of_stuck h (by simp)⟩
  | cons item rest ih =>
    cases item with
    | declaration d => exact ⟨[], .of_stuck h (by simp)⟩
    | function f =>
      by_cases ready : Registrable s.scope [f]
      · obtain ⟨resolvable, new, _⟩ := registrable_cons_iff.mp ready
        obtain ⟨signature, hsig⟩ := Function.resolvable_iff.mp resolvable
        obtain ⟨scope, inside⟩ := h.declared hsig new
        obtain ⟨functions, later⟩ := ih inside
        rw [Item.declareAll_after_cons hsig new]
        exact ⟨f :: functions, later.cons resolvable new scope⟩
      · rw [Item.declareAll_after_of_stuck ready]
        refine ⟨[], .of_stuck h ?_⟩
        rintro _ ⟨rfl⟩
        exact ready

/-- Checking a module declares what it begins with, whatever becomes of its bodies. -/
lemma Module.check_registers (m : Module) (h : AtModule s) :
    ∃ functions, Registers m.items functions s (m.check.after s) := by
  obtain ⟨functions, longest, frame, left⟩ := Item.declareAll_registers m.items h
  obtain ⟨scope, taken⟩ := m.check_after s
  refine ⟨functions, longest, scope ▸ frame, ?_, ?_⟩
  · rw [scope]
    exact left.single
  · rw [scope, taken]
    exact left.taken

/-- A module whose declarations are all accepted is registered as a whole. -/
lemma Registers.functions_eq {m : Module} {functions : List Function} {t r : State}
    {declared : List (Function × Signature)} (h : Registers m.items functions s t)
    (run : Item.declareAll m.items s = .ok declared r) : functions = m.functions := by
  obtain ⟨items, signatures, bindings, declares, names, _⟩ := Item.declareAll_declares run
  have all : m.items = (declared.map (·.1)).map .function := by
    rw [items, List.map_map]
    rfl
  have registrable : Registrable s.scope (declared.map (·.1)) := by
    refine ⟨?_, ?_⟩
    · intro f member
      obtain ⟨d, hd, rfl⟩ := List.mem_map.mp member
      exact Function.resolvable_iff.mpr ⟨d.2, signatures d hd⟩
    · have free := declares.free
      rw [names] at free
      rwa [List.map_map]
  have longest := h.longest
  rw [all] at longest
  rw [longest.eq_of_registrable registrable, Module.functions, items, List.filterMap_map]
  exact (congrFun List.filterMap_eq_map declared).symm

namespace Registers

variable {items : List Item} {functions : List Function} {t : State}

/-- A name is looked up among the new functions first. -/
lemma local?_eq (h : Registers items functions s t) (name : String) :
    t.scope.local? name =
      (Frame.find? (functions.map Function.binding).reverse name).or (s.scope.local? name) := by
  rw [Scope.local?, h.frame]
  exact List.find?_append

lemma find?_binding_eq_some {name : String} {b : Binding}
    (found : Frame.find? (functions.map Function.binding).reverse name = some b) :
    ∃ f ∈ functions, f.name = name ∧ b = f.binding := by
  obtain ⟨f, member, rfl⟩ :=
    List.mem_map.mp (List.mem_reverse.mp (List.mem_of_find?_eq_some found))
  have named : f.binding.name = name := by simpa using List.find?_some found
  exact ⟨f, member, named, rfl⟩

/-- A name that was bound before is not declared again. -/
lemma kept (h : Registers items functions s t) {name : String} {b : Binding}
    (bound : s.scope.local? name = some b) : t.scope.local? name = some b := by
  cases found : Frame.find? (functions.map Function.binding).reverse name with
  | none => rw [h.local?_eq, found, Option.none_or, bound]
  | some c =>
    obtain ⟨f, member, rfl, rfl⟩ := find?_binding_eq_some found
    have new := h.longest.registrable.2.2 f.name (List.mem_map.mpr ⟨f, member, rfl⟩)
    rw [bound] at new
    cases new

lemma new (h : Registers items functions s t) {f : Function} (member : f ∈ functions) :
    t.scope.local? f.name = some f.binding := by
  cases found : Frame.find? (functions.map Function.binding).reverse f.name with
  | none =>
    have miss := List.find?_eq_none.mp found f.binding
      (List.mem_reverse.mpr (List.mem_map.mpr ⟨f, member, rfl⟩))
    simp [Function.binding] at miss
  | some c =>
    obtain ⟨g, inside, same, rfl⟩ := find?_binding_eq_some found
    have distinct := h.longest.registrable.2.1
    rw [h.local?_eq, found, List.inj_on_of_nodup_map distinct inside member same, Option.some_or]

lemma origin (h : Registers items functions s t) {name : String} {b : Binding}
    (bound : t.scope.local? name = some b) :
    (∃ f ∈ functions, f.name = name ∧ b = f.binding) ∨ s.scope.local? name = some b := by
  rw [h.local?_eq, Option.or_eq_some_iff] at bound
  rcases bound with here | ⟨_, before⟩
  · exact .inl (find?_binding_eq_some here)
  · exact .inr before

lemma mem_functions {m : Module} (h : Registers m.items functions s t) {f : Function}
    (member : f ∈ functions) : f ∈ m.functions := by
  have item : Item.function f ∈ m.items :=
    h.longest.start.subset (List.mem_map.mpr ⟨f, member, rfl⟩)
  exact List.mem_filterMap.mpr ⟨_, item, rfl⟩

end Registers

/-! ## Sessions -/

/-- The state after modules were checked one after the other, whatever became of each. -/
def session (modules : List Module) : State :=
  modules.foldl (fun s m => m.check.after s) .initial

lemma session_append (past : List Module) (m : Module) :
    session (past ++ [m]) = m.check.after (session past) := by
  rw [session, List.foldl_append]
  rfl

lemma session_atModule (modules : List Module) : AtModule (session modules) := by
  induction modules using List.reverseRecOn with
  | nil => exact .initial
  | append_singleton past m ih =>
    obtain ⟨_, registers⟩ := m.check_registers ih
    rw [session_append]
    exact registers.left

lemma session_registers (past : List Module) (m : Module) :
    ∃ functions, Registers m.items functions (session past) (session (past ++ [m])) := by
  rw [session_append]
  exact m.check_registers (session_atModule past)

lemma session_binding? (modules : List Module) (name : String) :
    (session modules).scope.binding? name = (session modules).scope.local? name :=
  (session_atModule modules).binding?_eq_local? name

/-- Only functions of the modules are bound, and under their own names. -/
lemma session_origin {modules : List Module} {name : String} {b : Binding}
    (bound : (session modules).scope.binding? name = some b) :
    ∃ m ∈ modules, ∃ f ∈ m.functions, f.name = name ∧ b = f.binding := by
  rw [session_binding?] at bound
  induction modules using List.reverseRecOn with
  | nil => cases bound
  | append_singleton past m ih =>
    obtain ⟨functions, registers⟩ := session_registers past m
    rcases registers.origin bound with ⟨f, member, same, rfl⟩ | before
    · exact ⟨m, by simp, f, registers.mem_functions member, same, rfl⟩
    · obtain ⟨m', member, origin⟩ := ih before
      exact ⟨m', List.mem_append_left _ member, origin⟩

/-- What the check of a module makes of the scope that is kept for later modules. -/
structure Module.Extends (m : Module) (functions : List Function) (before after : Scope) :
    Prop where
  longest : LongestStart before m.items functions
  bound : ∀ name, after.binding? name ≠ none ↔
    before.binding? name ≠ none ∨ name ∈ functions.map (·.name)
  new : ∀ f ∈ functions, after.binding? f.name = some f.binding
  kept : ∀ name b, before.binding? name = some b → after.binding? name = some b
  /-- Neither parameters nor variables are left behind, and no block stays open. -/
  frame : after.frame = (functions.map Function.binding).reverse ++ before.frame
  single : after.outer = []

lemma session_extends (past : List Module) (m : Module) {functions : List Function}
    (h : Registers m.items functions (session past) (session (past ++ [m]))) :
    m.Extends functions (session past).scope (session (past ++ [m])).scope where
  longest := h.longest
  bound := by
    intro name
    simp only [session_binding?, ← Option.isSome_iff_ne_none, Option.isSome_iff_exists]
    constructor
    · rintro ⟨b, bound⟩
      rcases h.origin bound with ⟨f, member, same, _⟩ | before
      · exact .inr (List.mem_map.mpr ⟨f, member, same⟩)
      · exact .inl ⟨b, before⟩
    · rintro (⟨b, before⟩ | member)
      · exact ⟨b, h.kept before⟩
      · obtain ⟨f, here, rfl⟩ := List.mem_map.mp member
        exact ⟨f.binding, h.new here⟩
  new := by
    intro f member
    rw [session_binding?]
    exact h.new member
  kept := by
    intro name b before
    rw [session_binding?] at before ⊢
    exact h.kept before
  frame := h.frame
  single := h.left.single

/-- Modules are checked one after the other, accepted or not. Each adds to the scope the longest run
of functions it begins with that can be declared, all of its functions if only bodies are wrong.
Nothing that was bound before changes, and every name that is bound is that of a function from
numbers to a number, emitted as it is. -/
theorem session_keeps_functions (past : List Module) (m : Module) :
    (∃ functions, m.Extends functions (session past).scope (session (past ++ [m])).scope ∧
      ∀ declared r, Item.declareAll m.items (session past) = .ok declared r →
        functions = m.functions) ∧
    ∀ name b, (session (past ++ [m])).scope.binding? name = some b →
      b.name = name ∧ b.emitted = name ∧ (∃ arity, b.ty = .func .int (.replicate arity .int)) ∧
        ∃ u ∈ past ++ [m], ∃ f ∈ u.functions, b = f.binding := by
  refine ⟨?_, ?_⟩
  · obtain ⟨functions, registers⟩ := session_registers past m
    exact ⟨functions, session_extends past m registers, fun _ _ run => registers.functions_eq run⟩
  · intro name b bound
    obtain ⟨u, member, f, inside, rfl, rfl⟩ := session_origin bound
    refine ⟨rfl, rfl, ⟨f.paramNames.length, ?_⟩, u, member, f, inside, rfl⟩
    exact congrArg (Ty.func .int) List.map_const'

end Source

end MiniC
