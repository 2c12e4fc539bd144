import MiniC.Proofs.Check.Module
import MiniC.Proofs.Names.Frames
import Mathlib.Data.Nat.Digits.Defs

/-!
# Well-formed modules

The language, said without a checker: which expressions have which types while some blocks are open,
and which statements, functions and modules are well formed. Types are looked up in frames, the
nearest block first. Emitted names, scopes and typed trees are not mentioned.
-/

namespace MiniC

/-- A text is a number in decimal notation: digits only, at least one. -/
def IsNumeral (text : String) (n : Nat) : Prop :=
  text.toList ≠ [] ∧ (∀ c ∈ text.toList, '0' ≤ c ∧ c ≤ '9') ∧
    n = Nat.ofDigits 10 (text.toList.reverse.map fun c => c.toNat - '0'.toNat)

/-- A frame for names of type `int` that are declared in order. -/
def intFrame (names : List String) : List (String × Ty) :=
  (names.map (·, Ty.int)).reverse

namespace Source

/-! ## Expressions -/

mutual

/-- An expression has a type while the given frames are open. -/
inductive HasType (frames : Frames Ty) : Expr → Ty → Prop
  | const {text : String} {n : Nat} {span : Span} (numeral : IsNumeral text n)
      (small : n < 0x8000000000000000) : HasType frames (.const text span) .int
  | ident {name : String} {ty : Ty} {span : Span} (bound : frames.nearest name = some ty) :
      HasType frames (.ident name span) ty
  | add {left right : Expr} {ty : Ty} {span : Span} (hl : HasType frames left ty)
      (hr : HasType frames right ty) : HasType frames (.binary .add left right span) ty
  | assign {name : String} {value : Expr} {ty : Ty} {inner span : Span}
      (bound : frames.nearest name = some ty) (hv : HasType frames value ty) :
      HasType frames (.assign .plain (.ident name inner) value span) ty
  | call {callee : Expr} {args : List Expr} {result : Ty} {params : List Ty} {span : Span}
      (hc : HasType frames callee (.func result params)) (has : HaveTypes frames args params) :
      HasType frames (.call callee args span) result

/-- Arguments have types, one by one. -/
inductive HaveTypes (frames : Frames Ty) : List Expr → List Ty → Prop
  | nil : HaveTypes frames [] []
  | cons {e : Expr} {rest : List Expr} {ty : Ty} {tys : List Ty} (first : HasType frames e ty)
      (others : HaveTypes frames rest tys) : HaveTypes frames (e :: rest) (ty :: tys)

end

/-! ## Statements -/

/-- A declarator has no initial value, or a constant that fits 32 bits without a sign. -/
def Declarator.WellFormed (d : Declarator) : Prop :=
  d.init = none ∨
    ∃ text span n, d.init = some (.const text span) ∧ IsNumeral text n ∧ n < 0x100000000

/-- The names that a list of declarations declares, in order. -/
def declaredNames (decls : List Decl) : List String :=
  (declaratorsOf decls).map (·.name)

/-- Declarations of type `int` whose declarators are well formed. -/
def DeclsWellFormed (decls : List Decl) : Prop :=
  (∀ d ∈ decls, d.IsInt) ∧ ∀ d ∈ declaratorsOf decls, d.WellFormed

mutual

/-- A statement is well formed while the given frames are open. -/
def Stmt.WellFormed (frames : Frames Ty) : Stmt → Prop
  | .expr e _ => ∃ ty, HasType frames e ty
  | .ret value _ => ∃ e, value = some e ∧ HasType frames e .int
  | .block ⟨decls, stmts, _⟩ _ =>
    (declaredNames decls).Nodup ∧ DeclsWellFormed decls ∧
      Stmt.AllWellFormed (intFrame (declaredNames decls) :: frames) stmts

def Stmt.AllWellFormed (frames : Frames Ty) : List Stmt → Prop
  | [] => True
  | s :: rest => s.WellFormed frames ∧ Stmt.AllWellFormed frames rest

end

/-! ## Functions and modules -/

/-- A function is well formed in the given frames. Its parameters and the declarations at the top of
its body share one block. -/
structure Function.WellFormed (frames : Frames Ty) (f : Function) : Prop where
  result : Ty.ofSpecifiers f.result = some .int
  params : f.HasParams
  distinct : (f.paramNames ++ declaredNames f.body.decls).Nodup
  decls : DeclsWellFormed f.body.decls
  stmts : Stmt.AllWellFormed
    (intFrame (declaredNames f.body.decls) :: intFrame f.paramNames :: frames) f.body.stmts

/-- A function takes numbers and gives a number. -/
def Function.ty (f : Function) : Ty :=
  .func .int (f.paramNames.map fun _ => .int)

/-- The frame of all functions of a module. -/
def Module.frame (m : Module) : List (String × Ty) :=
  (m.functions.map fun f => (f.name, f.ty)).reverse

/-- A module is well formed: it has functions only, under different names, and each of them is well
formed where all of them are visible. -/
structure Module.WellFormed (m : Module) : Prop where
  onlyFunctions : ∀ item ∈ m.items, ∃ f, item = .function f
  distinct : m.functionNames.Nodup
  functions : ∀ f ∈ m.functions, f.WellFormed [m.frame]

end Source

end MiniC
