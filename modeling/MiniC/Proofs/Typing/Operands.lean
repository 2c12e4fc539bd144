import MiniC.Proofs.Typing.Elaborated

/-!
# What is added and assigned

Operands are only asked to have the same type, and a name of a function is an expression like any
other, so functions can be added and assigned. They stay among themselves: an expression of function
type is a name of a function, or a sum or an assignment of such expressions of one type, and where a
number stands on one side of a sum or an assignment, numbers stand everywhere. In the emitted program
no sum and no assignment mixes functions with anything else.
-/

namespace MiniC

namespace Typed

mutual

/-- An expression and all expressions inside it. -/
def Expr.parts : Expr → List Expr
  | .int value ty => [.int value ty]
  | .var name ty => [.var name ty]
  | .add left right ty => .add left right ty :: (left.parts ++ right.parts)
  | .assign target value ty => .assign target value ty :: (target.parts ++ value.parts)
  | .call callee args ty => .call callee args ty :: (callee.parts ++ Expr.partsAll args)

def Expr.partsAll : List Expr → List Expr
  | [] => []
  | e :: rest => e.parts ++ Expr.partsAll rest

end

mutual

/-- The expressions that stand in a statement, at any depth. -/
def Stmt.exprs : Stmt → List Expr
  | .expr value => value.parts
  | .ret value => value.parts
  | .block body => body.exprs

def Stmt.exprsAll : List Stmt → List Expr
  | [] => []
  | s :: rest => s.exprs ++ Stmt.exprsAll rest

/-- The expressions that stand in a block, initial values included. -/
def Block.exprs : Block → List Expr
  | ⟨declarators, stmts⟩ => declarators.flatMap (·.init.parts) ++ Stmt.exprsAll stmts

end

/-- A sum or an assignment is a number, and so are both its sides. Nothing is said of other
expressions. -/
def Expr.OnIntegers : Expr → Prop
  | .add left right ty => left.ty = .int ∧ right.ty = .int ∧ ty = .int
  | .assign target value ty => target.ty = .int ∧ value.ty = .int ∧ ty = .int
  | _ => True

instance (e : Expr) : Decidable e.OnIntegers :=
  match e with
  | .int _ _ | .var _ _ | .call _ _ _ => .isTrue trivial
  | .add left right ty => inferInstanceAs (Decidable (left.ty = .int ∧ right.ty = .int ∧ ty = .int))
  | .assign target value ty =>
    inferInstanceAs (Decidable (target.ty = .int ∧ value.ty = .int ∧ ty = .int))

/-- An expression made of nothing but names of functions of one type, sums and assignments. -/
inductive Expr.OfFunctions (functions : List (String × Ty)) (ty : Ty) : Expr → Prop
  | var {name : String} (listed : (name, ty) ∈ functions) : OfFunctions functions ty (.var name ty)
  | add {left right : Expr} (hl : OfFunctions functions ty left)
      (hr : OfFunctions functions ty right) : OfFunctions functions ty (.add left right ty)
  | assign {name : String} {value : Expr} (listed : (name, ty) ∈ functions)
      (hv : OfFunctions functions ty value) :
      OfFunctions functions ty (.assign (.var name ty) value ty)

lemma Expr.OfFunctions.exists_name {functions : List (String × Ty)} {ty : Ty} {e : Expr}
    (h : e.OfFunctions functions ty) : ∃ name, (name, ty) ∈ functions := by
  induction h with
  | var listed => exact ⟨_, listed⟩
  | add _ _ ih _ => exact ih
  | assign listed _ _ => exact ⟨_, listed⟩

/-! ## Parts of well-typed trees -/

section Parts

variable {frames : Frames Ty}

mutual

theorem Expr.WellTyped.parts : ∀ {e : Expr}, e.WellTyped frames → ∀ x ∈ e.parts, x.WellTyped frames
  | _, .int small, x, member => by
    cases List.mem_singleton.mp member
    exact .int small
  | _, .var bound, x, member => by
    cases List.mem_singleton.mp member
    exact .var bound
  | _, .add hl hr same, x, member => by
    rcases List.mem_cons.mp member with rfl | inside
    · exact .add hl hr same
    · rcases List.mem_append.mp inside with left | right
      · exact hl.parts x left
      · exact hr.parts x right
  | _, .assign bound hv, x, member => by
    rcases List.mem_cons.mp member with rfl | inside
    · exact .assign bound hv
    · rcases List.mem_append.mp inside with target | value
      · cases List.mem_singleton.mp target
        exact .var bound
      · exact hv.parts x value
  | _, .call hc function has, x, member => by
    rcases List.mem_cons.mp member with rfl | inside
    · exact .call hc function has
    · rcases List.mem_append.mp inside with callee | args
      · exact hc.parts x callee
      · exact has.parts x args

theorem Expr.AllWellTyped.parts : ∀ {es : List Expr} {tys : List Ty},
    Expr.AllWellTyped frames es tys → ∀ x ∈ Expr.partsAll es, x.WellTyped frames
  | _, _, .nil, x, member => by cases member
  | _, _, .cons first others, x, member => by
    rcases List.mem_append.mp member with here | later
    · exact first.parts x here
    · exact others.parts x later

end

lemma Declarator.WellTyped.parts {d : Declarator} (h : d.WellTyped) :
    ∀ x ∈ d.init.parts, x.WellTyped frames := by
  obtain ⟨n, small, made⟩ := h
  rw [made]
  exact Expr.WellTyped.parts (.int (by omega))

mutual

theorem Stmt.WellTyped.exprs : ∀ (s : Stmt), s.WellTyped frames → ∀ x ∈ s.exprs, x.WellTyped frames
  | .expr _, h, x, member => Expr.WellTyped.parts h x member
  | .ret _, h, x, member => Expr.WellTyped.parts h.1 x member
  | .block body, h, x, member => Block.WellTyped.exprs body h x member

theorem Stmt.AllWellTyped.exprs : ∀ (stmts : List Stmt), Stmt.AllWellTyped frames stmts →
    ∀ x ∈ Stmt.exprsAll stmts, x.WellTyped frames
  | [], _, x, member => by cases member
  | s :: rest, h, x, member => by
    rcases List.mem_append.mp member with here | later
    · exact Stmt.WellTyped.exprs s h.1 x here
    · exact Stmt.AllWellTyped.exprs rest h.2 x later

theorem Block.WellTyped.exprs : ∀ (block : Block), block.WellTyped frames →
    ∀ x ∈ block.exprs, x.WellTyped frames
  | ⟨declarators, stmts⟩, h, x, member => by
    rcases List.mem_append.mp member with init | later
    · obtain ⟨d, hd, inside⟩ := List.mem_flatMap.mp init
      exact (h.1 d hd).parts x inside
    · exact Stmt.AllWellTyped.exprs stmts h.2 x later

end

end Parts

/-! ## Numbers and functions -/

/-- Frames in which every name is a number or one of the given functions, and not both; functions
give numbers. -/
structure NumbersOr (functions : List (String × Ty)) (frames : Frames Ty) : Prop where
  names : ∀ name ty, frames.nearest name = some ty → ty = .int ∨ (name, ty) ∈ functions
  apart : ∀ name, frames.nearest name = some .int → name ∉ functions.map (·.1)
  results : ∀ f ∈ functions, ∃ params, f.2 = .func .int params

namespace NumbersOr

variable {functions : List (String × Ty)} {frames : Frames Ty}

lemma ofFunctions_ne_int (h : NumbersOr functions frames) {ty : Ty} {e : Expr}
    (made : e.OfFunctions functions ty) : ty ≠ .int := by
  obtain ⟨name, listed⟩ := made.exists_name
  obtain ⟨params, same⟩ := h.results _ listed
  rintro rfl
  cases same

/-- An expression is a number or made of functions. -/
theorem int_or_ofFunctions (h : NumbersOr functions frames) :
    ∀ {e : Expr}, e.WellTyped frames → e.ty = .int ∨ e.OfFunctions functions e.ty
  | _, .int _ => .inl rfl
  | _, .var bound => by
    rcases h.names _ _ bound with int | listed
    · exact .inl int
    · exact .inr (.var listed)
  | .add left right _, .add hl hr same => by
    rcases h.int_or_ofFunctions hl with int | functionsLeft
    · exact .inl int
    · rcases h.int_or_ofFunctions hr with int | functionsRight
      · exact .inl (same.trans int)
      · exact .inr (.add functionsLeft (same ▸ functionsRight))
  | _, .assign bound hv => by
    rcases h.int_or_ofFunctions hv with int | functionsValue
    · exact .inl int
    · have listed := (h.names _ _ bound).resolve_left (h.ofFunctions_ne_int functionsValue)
      exact .inr (.assign listed functionsValue)
  | _, .call hc function _ => by
    rcases h.int_or_ofFunctions hc with int | functionsCallee
    · rw [function] at int
      cases int
    · obtain ⟨name, listed⟩ := functionsCallee.exists_name
      obtain ⟨params, same⟩ := h.results _ listed
      have result : Ty.func .int params = _ := same.symm.trans function
      cases result
      exact .inl rfl

/-- A sum or an assignment is on numbers, or made of functions. -/
theorem onIntegers_or_ofFunctions (h : NumbersOr functions frames) {e : Expr}
    (typed : e.WellTyped frames) : e.OnIntegers ∨ e.OfFunctions functions e.ty := by
  refine (h.int_or_ofFunctions typed).imp_left ?_
  intro int
  cases typed with
  | int _ => trivial
  | var _ => trivial
  | add _ _ same => exact ⟨int, same.symm.trans int, int⟩
  | assign _ _ => exact ⟨int, int, int⟩
  | call _ _ _ => trivial

end NumbersOr

end Typed

/-! ## Emitted expressions -/

namespace Estree

mutual

/-- An expression and all expressions inside it. -/
def Expr.parts : Expr → List Expr
  | .ident name => [.ident name]
  | .num value => [.num value]
  | .str value => [.str value]
  | .binary op left right => .binary op left right :: (left.parts ++ right.parts)
  | .assign left right => .assign left right :: (left.parts ++ right.parts)
  | .call callee args => .call callee args :: (callee.parts ++ Expr.partsAll args)
  | .object properties => .object properties :: Expr.partsOf properties

def Expr.partsAll : List Expr → List Expr
  | [] => []
  | e :: rest => e.parts ++ Expr.partsAll rest

def Expr.partsOf : List (String × Expr) → List Expr
  | [] => []
  | (_, value) :: rest => value.parts ++ Expr.partsOf rest

end

mutual

/-- The expressions that stand in a statement, at any depth. -/
def Stmt.exprs : Stmt → List Expr
  | .function _ _ body => Stmt.exprsAll body
  | .block body => Stmt.exprsAll body
  | .var declarators => declarators.flatMap (·.2.parts)
  | .expr value => value.parts
  | .ret value => value.elim [] Expr.parts

def Stmt.exprsAll : List Stmt → List Expr
  | [] => []
  | s :: rest => s.exprs ++ Stmt.exprsAll rest

end

/-- Whether an expression stands for a function of the module: a name of one, or a sum or an
assignment of such. -/
def Expr.IsFunction (functions : List String) : Expr → Prop
  | .ident name => name ∈ functions
  | .binary .add left right => left.IsFunction functions ∧ right.IsFunction functions
  | .assign _ right => right.IsFunction functions
  | _ => False

/-- A sum has functions on both sides or on none. An assignment is to a name, and gives a function
to a function and anything else to a variable. -/
def Expr.Unmixed (functions : List String) : Expr → Prop
  | .binary .add left right => left.IsFunction functions ↔ right.IsFunction functions
  | .assign left right => ∃ name, left = .ident name ∧
      (name ∈ functions ↔ right.IsFunction functions)
  | _ => True

lemma Expr.isFunction_congr {functions others : List String}
    (same : ∀ name, name ∈ functions ↔ name ∈ others) :
    ∀ e : Expr, e.IsFunction functions ↔ e.IsFunction others
  | .ident name => same name
  | .num _ => .rfl
  | .str _ => .rfl
  | .binary .add left right => and_congr (isFunction_congr same left) (isFunction_congr same right)
  | .binary .bitOr _ _ => .rfl
  | .assign _ right => isFunction_congr same right
  | .call _ _ => .rfl
  | .object _ => .rfl

lemma Expr.Unmixed.congr {functions others : List String}
    (same : ∀ name, name ∈ functions ↔ name ∈ others) :
    ∀ {e : Expr}, e.Unmixed functions → e.Unmixed others
  | .binary .add left right, h =>
    (isFunction_congr same left).symm.trans (Iff.trans h (isFunction_congr same right))
  | .assign _ right, ⟨name, target, h⟩ =>
    ⟨name, target, (same name).symm.trans (h.trans (isFunction_congr same right))⟩
  | .ident _, _ | .num _, _ | .str _, _ | .binary .bitOr _ _, _ | .call _ _, _ | .object _, _ =>
    trivial

lemma Stmt.mem_exprsAll {stmts : List Stmt} {x : Expr} :
    x ∈ Stmt.exprsAll stmts ↔ ∃ s ∈ stmts, x ∈ s.exprs := by
  induction stmts with
  | nil => simp [Stmt.exprsAll]
  | cons s rest ih => simp [Stmt.exprsAll, ih]

lemma Expr.mem_partsOf {properties : List (String × Expr)} {x : Expr} :
    x ∈ Expr.partsOf properties ↔ ∃ p ∈ properties, x ∈ p.2.parts := by
  induction properties with
  | nil => simp [Expr.partsOf]
  | cons p rest ih => simp [Expr.partsOf, ih]

end Estree

namespace Typed

mutual

lemma Expr.parts_emit : ∀ e : Expr, e.emit.parts = e.parts.map Expr.emit
  | .int _ _ => rfl
  | .var _ _ => rfl
  | .add left right _ => by
    simp [Expr.emit, Expr.parts, Estree.Expr.parts, Expr.parts_emit left, Expr.parts_emit right]
  | .assign target value _ => by
    simp [Expr.emit, Expr.parts, Estree.Expr.parts, Expr.parts_emit target, Expr.parts_emit value]
  | .call callee args _ => by
    simp [Expr.emit, Expr.parts, Estree.Expr.parts, Expr.parts_emit callee, Expr.partsAll_emit args]

lemma Expr.partsAll_emit : ∀ es : List Expr,
    Estree.Expr.partsAll (Expr.emitAll es) = (Expr.partsAll es).map Expr.emit
  | [] => rfl
  | e :: rest => by
    simp [Expr.emitAll, Expr.partsAll, Estree.Expr.partsAll, Expr.parts_emit e,
      Expr.partsAll_emit rest]

end

namespace NumbersOr

variable {functions : List (String × Ty)} {frames : Frames Ty}

/-- What is emitted for an expression stands for a function exactly when its type is no number. -/
theorem isFunction_emit (h : NumbersOr functions frames) {e : Expr} (typed : e.WellTyped frames) :
    e.emit.IsFunction (functions.map (·.1)) ↔ e.ty ≠ .int := by
  cases typed with
  | int _ => simp [Expr.emit, Estree.Expr.IsFunction, Expr.ty]
  | @var name ty bound =>
    simp only [Expr.emit, Estree.Expr.IsFunction, Expr.ty]
    constructor
    · rintro member rfl
      exact h.apart name bound member
    · intro other
      have listed := (h.names name ty bound).resolve_left other
      exact List.mem_map.mpr ⟨_, listed, rfl⟩
  | @add left right hl hr same =>
    change left.emit.IsFunction _ ∧ right.emit.IsFunction _ ↔ left.ty ≠ .int
    rw [h.isFunction_emit hl, h.isFunction_emit hr, same, and_self]
  | assign bound hv =>
    simpa only [Expr.emit, Estree.Expr.IsFunction, Expr.ty] using h.isFunction_emit hv
  | call hc function has =>
    simp only [Expr.emit, Estree.Expr.IsFunction, Expr.ty, false_iff, not_not]
    rcases h.int_or_ofFunctions (.call hc function has) with int | made
    · exact int
    · cases made

theorem unmixed_emit (h : NumbersOr functions frames) {e : Expr}
    (typed : e.WellTyped frames) : e.emit.Unmixed (functions.map (·.1)) := by
  cases typed with
  | int _ => trivial
  | var _ => trivial
  | call _ _ _ => trivial
  | add hl hr same =>
    simp only [Expr.emit, Estree.Expr.Unmixed]
    rw [h.isFunction_emit hl, h.isFunction_emit hr, same]
  | @assign name value bound hv =>
    refine ⟨name, rfl, ?_⟩
    have target := h.isFunction_emit (Expr.WellTyped.var bound)
    rw [h.isFunction_emit hv]
    exact target

/-- No part of what is emitted for an expression mixes functions with anything else. -/
theorem unmixed_parts (h : NumbersOr functions frames) {e : Expr}
    (typed : e.WellTyped frames) : ∀ x ∈ e.emit.parts, x.Unmixed (functions.map (·.1)) := by
  intro x member
  rw [Expr.parts_emit] at member
  obtain ⟨part, inside, rfl⟩ := List.mem_map.mp member
  exact h.unmixed_emit (typed.parts part inside)

lemma unmixed_returned (h : NumbersOr functions frames) {e : Expr} (typed : e.WellTyped frames)
    (result : Ty) : ∀ x ∈ (e.emitReturned result).parts, x.Unmixed (functions.map (·.1)) := by
  intro x member
  unfold Expr.emitReturned coerce at member
  split at member
  · exact h.unmixed_parts typed x member
  · split at member
    · rcases List.mem_cons.mp member with rfl | inside
      · trivial
      · rcases List.mem_append.mp inside with left | zero
        · exact h.unmixed_parts typed x left
        · cases List.mem_singleton.mp zero
          trivial
    · exact h.unmixed_parts typed x member

mutual

theorem unmixed_stmt (h : NumbersOr functions frames) (result : Ty) : ∀ s : Stmt,
    s.WellTyped frames → ∀ x ∈ (s.emit result).exprs, x.Unmixed (functions.map (·.1))
  | .expr _, typed, x, member => h.unmixed_parts typed x member
  | .ret _, typed, x, member => h.unmixed_returned typed.1 result x member
  | .block ⟨_, stmts⟩, typed, x, member => h.unmixed_stmts result stmts typed.2 x member

theorem unmixed_stmts (h : NumbersOr functions frames) (result : Ty) : ∀ stmts : List Stmt,
    Stmt.AllWellTyped frames stmts →
      ∀ x ∈ Estree.Stmt.exprsAll (Stmt.emitAll result stmts), x.Unmixed (functions.map (·.1))
  | [], _, x, member => by cases member
  | s :: rest, typed, x, member => by
    rcases List.mem_append.mp member with here | later
    · exact h.unmixed_stmt result s typed.1 x here
    · exact h.unmixed_stmts result rest typed.2 x later

end

end NumbersOr

lemma Declarator.WellTyped.unmixed {d : Declarator} (h : d.WellTyped) (functions : List String) :
    ∀ x ∈ d.emit.2.parts, x.Unmixed functions := by
  obtain ⟨n, _, made⟩ := h
  rw [made]
  intro x member
  cases List.mem_singleton.mp member
  trivial

namespace Function.WellTyped

variable {functions : List (String × Ty)} {f : Function}

/-- The frames of a function give numbers to its own names and to no name of a function. -/
lemma numbersOr (h : f.WellTyped functions)
    (results : ∀ g ∈ functions, ∃ params, g.2 = .func .int params) :
    NumbersOr functions [intFrame f.locals, functions] := by
  have listed : ∀ {name ty}, functions.lookup name = some ty → (name, ty) ∈ functions := by
    intro name ty found
    obtain ⟨_, _, split, _⟩ := List.lookup_eq_some_iff.mp found
    simp [split]
  refine ⟨?_, ?_, results⟩
  · intro name ty bound
    rw [nearest_intFrame, Frames.nearest_singleton] at bound
    split at bound
    · exact .inl (Option.some.inj bound).symm
    · exact .inr (listed bound)
  · intro name bound member
    rw [nearest_intFrame, Frames.nearest_singleton] at bound
    split at bound
    · next inside =>
      obtain ⟨g, hg, rfl⟩ := List.mem_map.mp member
      have differs := List.lookup_eq_none_iff.mp (h.apart _ inside) g hg
      simp at differs
    · obtain ⟨params, same⟩ := results _ (listed bound)
      cases same

/-- No sum and no assignment of an emitted function mixes functions with anything else. -/
theorem unmixed_emitBody (h : f.WellTyped functions)
    (results : ∀ g ∈ functions, ∃ params, g.2 = .func .int params) :
    ∀ x ∈ Estree.Stmt.exprsAll f.emitBody, x.Unmixed (functions.map (·.1)) := by
  have numbers := h.numbersOr results
  intro x member
  obtain ⟨s, hs, inside⟩ := Estree.Stmt.mem_exprsAll.mp member
  rcases List.mem_append.mp hs with top | body
  · rcases List.mem_append.mp top with coerced | declared
    · obtain ⟨p, hp, rfl⟩ := List.mem_map.mp coerced
      have own : p.name ∈ f.locals := List.mem_append_left _ (List.mem_map.mpr ⟨p, hp, rfl⟩)
      have apart : p.name ∉ functions.map (·.1) := by
        apply numbers.apart
        rw [nearest_intFrame, if_pos own]
      have signed : p.intended = some .signed := by rw [h.params p hp]; rfl
      simp only [Param.emit, coerce, signed, if_true, coerceSigned, Estree.Stmt.exprs,
        Estree.Expr.parts, List.singleton_append, List.mem_cons, List.not_mem_nil,
        or_false] at inside
      rcases inside with rfl | rfl | rfl | rfl | rfl
      · exact ⟨p.name, rfl, by simp [apart, Estree.Expr.IsFunction]⟩
      all_goals trivial
    · unfold Block.emitVariables at declared
      split at declared
      · cases declared
      · cases List.mem_singleton.mp declared
        obtain ⟨var, hvar, within⟩ := List.mem_flatMap.mp inside
        rw [Block.variables_eq] at hvar
        obtain ⟨d, hd, rfl⟩ := List.mem_map.mp hvar
        exact (Block.WellTyped.hoisted f.body h.body d hd).unmixed _ x within
  · exact numbers.unmixed_stmts f.result f.body.stmts h.body.stmts x
      (Estree.Stmt.mem_exprsAll.mpr ⟨s, body, inside⟩)

end Function.WellTyped

lemma Module.WellTyped.frame_results {m : Module} (h : m.WellTyped) :
    ∀ g ∈ m.frame, ∃ params, g.2 = .func .int params := by
  intro g member
  obtain ⟨f, hf, rfl⟩ := List.mem_map.mp (List.mem_reverse.mp member)
  exact ⟨_, by rw [Function.ty, (h.functions f hf).result]⟩

/-- No sum and no assignment of an emitted program mixes functions with anything else. -/
theorem Module.WellTyped.unmixed_emit {m : Module} (h : m.WellTyped) (options : Options) :
    ∀ x ∈ Estree.Stmt.exprsAll (m.emit options).body, x.Unmixed (m.functions.map (·.name)) := by
  intro x member
  have within : x ∈ Estree.Stmt.exprsAll (m.emitBody options) := by
    simpa [Module.emit, Estree.Stmt.exprsAll, Estree.Stmt.exprs] using member
  obtain ⟨s, hs, inside⟩ := Estree.Stmt.mem_exprsAll.mp within
  simp only [Module.emitBody, List.mem_append, List.mem_cons, List.not_mem_nil, or_false] at hs
  rcases hs with (rfl | emitted) | rfl
  · cases List.mem_singleton.mp inside
    trivial
  · obtain ⟨f, hf, rfl⟩ := List.mem_map.mp emitted
    have names : ∀ name, name ∈ m.frame.map (·.1) ↔ name ∈ m.functions.map (·.name) := by
      simp [Module.frame]
    exact ((h.functions f hf).unmixed_emitBody h.frame_results x inside).congr names
  · rcases List.mem_cons.mp inside with rfl | property
    · trivial
    · obtain ⟨p, hp, within⟩ := Estree.Expr.mem_partsOf.mp property
      obtain ⟨f, _, rfl⟩ := List.mem_map.mp hp
      cases List.mem_singleton.mp within
      trivial

end Typed

namespace Source

/-- `int f(int x) { f = f + f; x = x + 1; return x; }` -/
def Module.functionSum : Module :=
  let f : Expr := .ident "f" .unknown
  let x : Expr := .ident "x" .unknown
  let sum (left right : Expr) : Expr := .binary .add left right .unknown
  let update (target value : Expr) : Stmt := .expr (.assign .plain target value .unknown) .unknown
  ⟨[.function ⟨"f", [.int], [⟨some "x", [.int], .unknown⟩],
    ⟨[], [update f (sum f f), update x (sum x (.const "1" .unknown)), .ret (some x) .unknown],
      .unknown⟩, .unknown⟩], .unknown⟩

/-- The type of the function is on both sides of a sum and of an assignment. -/
def Module.functionSumTyped : Typed.Module :=
  let ty : Ty := .func .int [.int]
  let f : Typed.Expr := .var "f" ty
  let x : Typed.Expr := .var "x" .int
  ⟨[⟨"f", .int, [⟨"x", .int, some .signed⟩], ⟨[], [.expr (.assign f (.add f f ty) ty),
    .expr (.assign x (.add x (.int 1 .int) .int) .int), .ret x]⟩⟩]⟩

end Source

end MiniC
