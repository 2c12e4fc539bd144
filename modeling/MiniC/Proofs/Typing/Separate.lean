import MiniC.Proofs.Check.Alike
import MiniC.Proofs.Names.Resolution
import MiniC.Proofs.Places.Erasure
import MiniC.Proofs.Typing.Elaborated

/-!
# Functions are translated separately

What a function is checked to depends on its own text and on the names and types of the functions of
its module, not on their order, their bodies or the names of their parameters. So the items of a
module can be put in any order, and a function can be moved to any module with the same signatures,
and its typed tree stays the same (`Module.checked_elsewhere`).
-/

namespace MiniC

open Check (State)

/-- A scope that gives types and emits names as they are shows nothing but the types. -/
lemma Scope.Types.shown {scope : Scope} {frames : Frames Ty} (types : scope.Types frames)
    (own : scope.OwnNames) (name : String) :
    (scope.binding? name).map (fun b => (b.emitted, b.ty)) =
      (frames.nearest name).map (Prod.mk name) := by
  rw [← types name, Option.map_map]
  cases found : scope.binding? name with
  | none => rfl
  | some b => simp [own name b found]

/-- In a frame without repeated names every entry is found. -/
lemma lookup_eq_some_iff_mem {frame : List (String × Ty)} (distinct : (frame.map (·.1)).Nodup)
    {name : String} {ty : Ty} : frame.lookup name = some ty ↔ (name, ty) ∈ frame := by
  induction frame with
  | nil => simp
  | cons entry rest ih =>
    obtain ⟨key, value⟩ := entry
    obtain ⟨new, others⟩ := List.nodup_cons.mp distinct
    rw [Frames.lookup_cons_eq]
    by_cases same : key = name
    · have absent : (name, ty) ∉ rest := fun member =>
        new (List.mem_map.mpr ⟨(name, ty), member, same.symm⟩)
      simp [same, absent, eq_comm]
    · simp [same, Ne.symm same, ih others]

lemma lookup_congr {frame other : List (String × Ty)} (distinct : (frame.map (·.1)).Nodup)
    (distinct' : (other.map (·.1)).Nodup) (same : ∀ entry, entry ∈ frame ↔ entry ∈ other)
    (name : String) : frame.lookup name = other.lookup name := by
  apply Option.ext
  intro ty
  rw [lookup_eq_some_iff_mem distinct, lookup_eq_some_iff_mem distinct', same]

/-! ## Lists in another order -/

section Pick

variable {α β : Type}

/-- The members of a list at the given positions, in their order. -/
def pick (members : List α) (positions : List Nat) : List α :=
  positions.filterMap (members[·]?)

lemma pick_map (g : α → β) (members : List α) (positions : List Nat) :
    pick (members.map g) positions = (pick members positions).map g := by
  simp [pick, List.map_filterMap]

lemma pick_range (members : List α) : pick members (List.range members.length) = members := by
  induction members with
  | nil => rfl
  | cons first rest ih =>
    rw [pick, List.length_cons, List.range_succ_eq_map, List.filterMap_cons]
    simpa [pick, List.filterMap_map, Function.comp_def] using ih

/-- Positions that list each place once pick every member once. -/
lemma pick_perm {members : List α} {positions : List Nat}
    (order : positions.Perm (List.range members.length)) : (pick members positions).Perm members := by
  have picked := order.filterMap (members[·]?)
  rwa [show (List.range members.length).filterMap (members[·]?) = members from
    pick_range members] at picked

lemma pick_forall₂ {R : α → β → Prop} {as : List α} {bs : List β} (related : List.Forall₂ R as bs)
    (positions : List Nat) : List.Forall₂ R (pick as positions) (pick bs positions) := by
  induction positions with
  | nil => exact .nil
  | cons i rest ih =>
    simp only [pick, List.filterMap_cons]
    by_cases inside : i < as.length
    · have inside' : i < bs.length := related.length_eq ▸ inside
      rw [List.getElem?_eq_getElem inside, List.getElem?_eq_getElem inside']
      exact .cons (List.Forall₂.get related inside inside') ih
    · have outside' : bs.length ≤ i := related.length_eq ▸ Nat.not_lt.mp inside
      rw [List.getElem?_eq_none (Nat.not_lt.mp inside), List.getElem?_eq_none outside']
      exact ih

end Pick

namespace Source

/-- A module with its items in another order. -/
def Module.inOrder (m : Module) (positions : List Nat) : Module :=
  { m with items := pick m.items positions }

lemma Module.functions_of_items {m : Module} {functions : List Function}
    (items : m.items = functions.map .function) : m.functions = functions := by
  rw [Module.functions, items, List.filterMap_map]
  exact (congrFun List.filterMap_eq_map _).trans (List.map_id functions)

lemma Module.frame_names (m : Module) : m.frame.map (·.1) = m.functionNames.reverse := by
  rw [Module.frame, List.map_reverse, List.map_map]
  rfl

/-- Each function of an accepted module is checked to the same typed function in every scope that
shows functions with the same names and types. -/
theorem Module.checked_elsewhere {m : Module} {typed : Typed.Module} (h : m.analyze = .ok typed)
    {functions : List (String × Ty)} (distinct : (functions.map (·.1)).Nodup)
    (same : ∀ entry, entry ∈ m.frame ↔ entry ∈ functions) :
    List.Forall₂ (fun f tf => ∃ signature, f.signature = .ok signature ∧
      ∀ s : State, s.scope.Types [functions] → s.scope.OwnNames →
        ∃ t, f.check signature s = .ok tf t) m.functions typed.functions := by
  have distinctHere : (m.frame.map (·.1)).Nodup := by
    rw [Module.frame_names, List.nodup_reverse]
    exact (Module.wellFormed_of_analyze h).distinct
  have nearest : ∀ name, Frames.nearest [m.frame] name = Frames.nearest [functions] name := by
    intro name
    rw [Frames.nearest_singleton, Frames.nearest_singleton,
      lookup_congr distinctHere distinct same]
  obtain ⟨scope, types, own, checked⟩ := Module.analyze_functions h
  refine checked.imp ?_
  rintro f tf ⟨signature, s, t, hsig, rfl, run⟩
  refine ⟨signature, hsig, fun s' types' own' => Function.check_alike run fun name => ?_⟩
  rw [types.shown own, types'.shown own', nearest]

/-- The items of an accepted module may stand in any order; its typed functions then stand in that
order. -/
theorem Module.analyze_inOrder {m : Module} {typed : Typed.Module} (h : m.analyze = .ok typed)
    {positions : List Nat} (order : positions.Perm (List.range m.items.length)) :
    (m.inOrder positions).analyze = .ok ⟨pick typed.functions positions⟩ := by
  have wellFormed := Module.wellFormed_of_analyze h
  have items := Module.items_eq wellFormed.onlyFunctions
  have functions : (m.inOrder positions).functions = pick m.functions positions := by
    apply Module.functions_of_items
    rw [Module.inOrder, ← pick_map, ← items]
  have perm : (pick m.functions positions).Perm m.functions := by
    have count : m.items.length = m.functions.length := by
      rw [items, List.length_map]
    exact pick_perm (count ▸ order)
  have distinct : (m.inOrder positions).functionNames.Nodup := by
    rw [Module.functionNames, functions]
    exact ((perm.map _).nodup_iff).mpr wellFormed.distinct
  have frame : ∀ entry, entry ∈ m.frame ↔ entry ∈ (m.inOrder positions).frame := by
    intro entry
    rw [Module.frame, Module.frame, functions, List.mem_reverse, List.mem_reverse]
    exact (perm.map _).mem_iff.symm
  refine Module.analyze_of_functions ?_ distinct ?_
  · intro item member
    exact wellFormed.onlyFunctions item ((pick_perm order).mem_iff.mp member)
  · rw [functions]
    refine pick_forall₂ (Module.checked_elsewhere h ?_ frame) positions
    rwa [Module.frame_names, List.nodup_reverse]

/-- A function that stands in two accepted modules with the same signatures is checked to the same
typed function in both. -/
lemma Module.checked_alike {m w : Module} {typed typed' : Typed.Module}
    (h : m.analyze = .ok typed) (h' : w.analyze = .ok typed')
    (same : ∀ entry, entry ∈ m.frame ↔ entry ∈ w.frame) {i j : Nat} {f : Function}
    (here : m.functions[i]? = some f) (there : w.functions[j]? = some f) :
    ∃ tf, typed.functions[i]? = some tf ∧ typed'.functions[j]? = some tf := by
  have distinct : (w.frame.map (·.1)).Nodup := by
    rw [Module.frame_names, List.nodup_reverse]
    exact (Module.wellFormed_of_analyze h').distinct
  obtain ⟨scope, types, own, checked'⟩ := Module.analyze_functions h'
  have checked := Module.checked_elsewhere h distinct same
  obtain ⟨inside, rfl⟩ := List.getElem?_eq_some_iff.mp here
  obtain ⟨inside', found⟩ := List.getElem?_eq_some_iff.mp there
  have bound : i < typed.functions.length := checked.length_eq ▸ inside
  have bound' : j < typed'.functions.length := checked'.length_eq ▸ inside'
  obtain ⟨signature, hsig, run⟩ := List.Forall₂.get checked inside bound
  obtain ⟨signature', s, t, hsig', rfl, run'⟩ := List.Forall₂.get checked' inside' bound'
  simp only [List.get_eq_getElem, found] at hsig run hsig' run'
  obtain rfl : signature = signature' := Except.ok.inj (hsig.symm.trans hsig')
  obtain ⟨u, again⟩ := run s types own
  rw [run'] at again
  have equal : typed'.functions[j] = typed.functions[i] := by
    injection again
  exact ⟨typed.functions[i], List.getElem?_eq_getElem bound,
    equal ▸ List.getElem?_eq_getElem bound'⟩

/-! ## Places -/

lemma Module.functions_erase (m : Module) : m.erase.functions = m.functions.map Function.erase := by
  rw [Module.functions, Module.functions, Module.erase, List.filterMap_map, List.map_filterMap]
  congr 1
  funext item
  cases item <;> rfl

lemma Module.frame_erase (m : Module) : m.erase.frame = m.frame := by
  have same : ∀ f : Function, f.erase.ty = f.ty := by
    intro f
    rw [Function.ty, Function.ty, Function.paramNames, Function.erase, List.filterMap_map]
    rfl
  rw [Module.frame, Module.frame, Module.functions_erase, List.map_map]
  congr 1
  exact List.map_congr_left fun f _ => Prod.ext rfl (same f)

lemma Module.analyze_erase {m : Module} {typed : Typed.Module} (h : m.analyze = .ok typed) :
    m.erase.analyze = .ok typed := by
  have erased : m.erase.analyze = _ := m.analyze_erased
  rw [erased, h]
  rfl

lemma Module.functions_getElem? {m : Module} {typed : Typed.Module} (h : m.analyze = .ok typed)
    {i : Nat} {f : Function} (item : m.items[i]? = some (.function f)) :
    m.functions[i]? = some f := by
  rw [Module.items_eq (Module.wellFormed_of_analyze h).onlyFunctions, List.getElem?_map] at item
  obtain ⟨g, found, same⟩ := Option.map_eq_some_iff.mp item
  rw [found, Item.function.inj same]

end Source

/-- The functions of an emitted module follow its directive, in order. -/
lemma Typed.Module.emitBody_getElem? {m : Typed.Module} {i : Nat} {f : Typed.Function}
    (found : m.functions[i]? = some f) (options : Options) :
    (m.emitBody options)[i + 1]? = some f.emit := by
  have bound : i + 1 < (Estree.Stmt.expr (.str options.directive) ::
      m.functions.map Typed.Function.emit).length := by
    have inside := (List.getElem?_eq_some_iff.mp found).1
    simpa using inside
  rw [Typed.Module.emitBody, List.getElem?_append_left bound, List.getElem?_cons_succ,
    List.getElem?_map, found]
  rfl

namespace Source

/-- A function is translated from its own text and the signatures of its module alone. The items of
an accepted module may stand in any order, its typed functions then stand in the same order; and in
every accepted module with the same names and types of functions, a function with the same text,
places apart, has the same typed function and is emitted as the same declaration. -/
theorem Module.functions_translate_separately {m : Module} {typed : Typed.Module}
    (accepted : m.analyze = .ok typed) :
    (∀ positions : List Nat, positions.Perm (List.range m.items.length) →
      (m.inOrder positions).analyze = .ok ⟨pick typed.functions positions⟩) ∧
    ∀ (w : Module) (typed' : Typed.Module), w.analyze = .ok typed' →
      (∀ entry, entry ∈ m.frame ↔ entry ∈ w.frame) →
      ∀ (i j : Nat) (f g : Function), m.items[i]? = some (.function f) →
        w.items[j]? = some (.function g) → f.erase = g.erase →
        ∃ tf, typed.functions[i]? = some tf ∧ typed'.functions[j]? = some tf ∧
          ∀ options, (typed.emitBody options)[i + 1]? = some tf.emit ∧
            (typed'.emitBody options)[j + 1]? = some tf.emit := by
  refine ⟨fun positions order => Module.analyze_inOrder accepted order, ?_⟩
  intro w typed' accepted' same i j f g here there text
  have first : m.erase.functions[i]? = some f.erase := by
    rw [Module.functions_erase, List.getElem?_map, Module.functions_getElem? accepted here]
    rfl
  have second : w.erase.functions[j]? = some f.erase := by
    rw [Module.functions_erase, List.getElem?_map, Module.functions_getElem? accepted' there, text]
    rfl
  obtain ⟨tf, found, found'⟩ := Module.checked_alike (Module.analyze_erase accepted)
    (Module.analyze_erase accepted') (by simpa only [Module.frame_erase] using same) first second
  exact ⟨tf, found, found', fun options => ⟨Typed.Module.emitBody_getElem? found options,
    Typed.Module.emitBody_getElem? found' options⟩⟩

/-- `int inc(int y) { { int inc = 2; y = y + inc; } return y; }` -/
def Function.incrementByTwo : Function :=
  let y : Expr := .ident "y" .unknown
  let sum : Expr := .binary .add y (.ident "inc" .unknown) .unknown
  let inner : Block := ⟨[⟨[.int], [⟨"inc", some (.const "2" .unknown), .unknown⟩], .unknown⟩],
    [.expr (.assign .plain y sum .unknown) .unknown], .unknown⟩
  ⟨"inc", [.int], [⟨some "y", [.int], .unknown⟩],
    ⟨[], [.block inner .unknown, .ret (some y) .unknown], .unknown⟩, .unknown⟩

/-- The second function of `Module.shadowing`, in front of another one of the same signature as the
first. -/
def Module.shadowingFirst : Module :=
  ⟨[.function .shadowing, .function .incrementByTwo], .unknown⟩

theorem Module.shadowing_translates_separately :
    ∃ typed typed' tf, Module.shadowing.analyze = .ok typed ∧
      Module.shadowingFirst.analyze = .ok typed' ∧
      (Module.shadowing.inOrder [1, 0]).analyze = .ok ⟨pick typed.functions [1, 0]⟩ ∧
      typed.functions[1]? = some tf ∧ typed'.functions[0]? = some tf ∧
      ∀ options, (typed.emitBody options)[2]? = some tf.emit ∧
        (typed'.emitBody options)[1]? = some tf.emit := by
  have accepts : Module.shadowing.analyze.isOk ∧ Module.shadowingFirst.analyze.isOk := by
    decide +kernel
  obtain ⟨typed, accepted⟩ := exists_ok_of_isOk accepts.1
  obtain ⟨typed', accepted'⟩ := exists_ok_of_isOk accepts.2
  have signatures : ∀ entry, entry ∈ Module.shadowing.frame ↔ entry ∈ Module.shadowingFirst.frame :=
    fun entry => (List.Perm.swap _ _ []).mem_iff
  obtain ⟨reordered, moved⟩ := Module.functions_translate_separately accepted
  obtain ⟨tf, found, found', emitted⟩ := moved Module.shadowingFirst typed' accepted' signatures 1 0
    Function.shadowing Function.shadowing rfl rfl rfl
  exact ⟨typed, typed', tf, accepted, accepted', reordered [1, 0] (List.Perm.swap 0 1 []), found,
    found', emitted⟩

end Source

end MiniC
