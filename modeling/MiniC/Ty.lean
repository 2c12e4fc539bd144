import MiniC.Ty.Specifier

/-!
# Types

`signed` is the type that a 32-bit coercion gives; source programs never name it apart from `int`.
Two types are interchangeable only when they are the same tree (`same_iff`), and function types
may nest in either position.
-/

namespace MiniC

inductive Ty where
  | int
  | signed
  | void
  | func (result : Ty) (params : List Ty)
  deriving Repr

namespace Ty

mutual

/-- Structural equality. -/
def same : Ty → Ty → Bool
  | .int, .int => true
  | .signed, .signed => true
  | .void, .void => true
  | .func r ps, .func r' ps' => same r r' && sameAll ps ps'
  | _, _ => false

/-- Structural equality of two lists, of one length and position by position. -/
def sameAll : List Ty → List Ty → Bool
  | [], [] => true
  | t :: ts, u :: us => same t u && sameAll ts us
  | _, _ => false

end

mutual

theorem same_iff : ∀ a b : Ty, same a b = true ↔ a = b
  | .int, b => by cases b <;> simp [same]
  | .signed, b => by cases b <;> simp [same]
  | .void, b => by cases b <;> simp [same]
  | .func r ps, b => by
    cases b with
    | func r' ps' => simp [same, same_iff r r', sameAll_iff ps ps']
    | _ => simp [same]

theorem sameAll_iff : ∀ as bs : List Ty, sameAll as bs = true ↔ as = bs
  | [], bs => by cases bs <;> simp [sameAll]
  | t :: ts, bs => by
    cases bs with
    | nil => simp [sameAll]
    | cons u us => simp [sameAll, same_iff t u, sameAll_iff ts us]

end

instance : DecidableEq Ty := fun a b =>
  decidable_of_iff (same a b = true) (same_iff a b)

mutual

/-- The text of a type; a function type is its result followed by its parameters. -/
def text : Ty → String
  | .int => "int"
  | .signed => "signed"
  | .void => "void"
  | .func r ps => text r ++ " (" ++ listText ps ++ ")"

/-- Types separated by a comma and a space. -/
def listText : List Ty → String
  | [] => ""
  | [t] => text t
  | t :: u :: ts => text t ++ ", " ++ listText (u :: ts)

end

def isInteger : Ty → Bool
  | .int | .signed => true
  | _ => false

def isFunction : Ty → Bool
  | .func _ _ => true
  | _ => false

/-- Result and parameters of a function type. -/
def signature? : Ty → Option (Ty × List Ty)
  | .func r ps => some (r, ps)
  | _ => none

/-- The type a value is coerced to where it enters or leaves a function, if any. -/
def intended : Ty → Option Ty
  | .int | .signed => some .signed
  | _ => none

/-- The types that a list of specifiers can stand for. -/
def ofSpecifiers : List Specifier → Option Ty
  | [.int] | [.signed] | [.signed, .int] | [.int, .signed] => some .int
  | [.void] => some .void
  | _ => none

end Ty

end MiniC
