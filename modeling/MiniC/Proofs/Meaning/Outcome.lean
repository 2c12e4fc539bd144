import MiniC.Proofs.Names.Frames

/-!
# Outcomes of runs

A run of a function gives a number, gets stuck, or needs more nested calls than it is allowed.
Source and emitted programs differ in the numbers they compute with, so values and functions are
parameterised by them. `Agrees` compares the outcomes of two runs: both give results that are
related, or both stop for the same reason.
-/

namespace MiniC

/-- Why a run gives no result. -/
inductive Halt where
  | stuck
  | exhausted
  deriving DecidableEq, Repr

/-- An expression stands for a number or for a function of the module. -/
inductive Value (α : Type) where
  | number (n : α)
  | function (name : String)
  deriving DecidableEq, Repr

/-- The number that a value is; functions cannot be computed with. -/
def Value.toNumber {α : Type} : Value α → Except Halt α
  | .number n => .ok n
  | .function _ => .error .stuck

/-- The function that a value is. -/
def Value.toFunction {α : Type} : Value α → Except Halt String
  | .number _ => .error .stuck
  | .function name => .ok name

/-- What the functions of a module do with their arguments. -/
abbrev Functions (α : Type) := String → Option (List α → Except Halt α)

/-- Calls the function of a name. -/
def Functions.call {α : Type} (functions : Functions α) (name : String) (args : List α) :
    Except Halt α :=
  match functions name with
  | some run => run args
  | none => .error .stuck

/-- Two outcomes with related results, or with the same reason to stop. -/
inductive Agrees {α β : Type} (R : α → β → Prop) : Except Halt α → Except Halt β → Prop
  | ok {a : α} {b : β} (related : R a b) : Agrees R (.ok a) (.ok b)
  | halt (reason : Halt) : Agrees R (.error reason) (.error reason)

namespace Agrees

variable {α β γ δ : Type} {R : α → β → Prop} {S : γ → δ → Prop}

lemma bind {x : Except Halt α} {y : Except Halt β} {f : α → Except Halt γ} {g : β → Except Halt δ}
    (h : Agrees R x y) (next : ∀ a b, R a b → Agrees S (f a) (g b)) :
    Agrees S (x >>= f) (y >>= g) := by
  cases h with
  | ok related => exact next _ _ related
  | halt reason => exact .halt reason

lemma bind_left {T : γ → β → Prop} {x : Except Halt α} {y : Except Halt β}
    {f : α → Except Halt γ} (h : Agrees R x y) (next : ∀ a b, R a b → Agrees T (f a) (.ok b)) :
    Agrees T (x >>= f) y := by
  cases h with
  | ok related => exact next _ _ related
  | halt reason => exact .halt reason

lemma stuck : Agrees R (.error .stuck) (.error .stuck) := .halt .stuck

/-- Outcomes whose results are related by a function are equal up to that function. -/
lemma eq_map {x : Except Halt α} {y : Except Halt β} {f : α → β}
    (h : Agrees (fun a b => b = f a) x y) : y = x.map f := by
  cases h with
  | ok related => simp [related, Except.map]
  | halt reason => rfl

end Agrees

end MiniC
