import MiniC.Scope
import MiniC.Source.Tree
import MiniC.Typed

/-!
# Checking expressions

An expression is checked against a scope and changes nothing. There are no implicit conversions:
operands, assigned values and arguments must have exactly the type that is asked for.
-/

namespace MiniC

/-- The value of an integer constant: ASCII digits only, and below `2 ^ 63`. -/
def literal (text : String) (place : Location) : Except Fault Int64 :=
  match Decimal.toNat? text with
  | none => .error (.unsupported ("integer literal '" ++ text ++ "'") place)
  | some n =>
    if n < UInt64.size / 2 then .ok (Int64.ofNat n)
    else .error (.unsupported ("integer literal '" ++ text ++ "' out of range") place)

/-- Two types that must be the same. -/
def expectType (expected found : Ty) (place : Location) : Except Fault Unit :=
  if expected = found then .ok () else .error (.mismatch expected.text found.text place)

/-- A number of things, in words. -/
def plural (n : Nat) (noun : String) : String :=
  if n = 1 then "1 " ++ noun else Decimal.ofNat n ++ " " ++ noun ++ "s"

namespace Source

mutual

def Expr.check (scope : Scope) : Expr → Except Fault Typed.Expr
  | .const text span => do
    let value ← literal text span.start
    return .int value .int
  | .ident name span => do
    let binding ← scope.resolve name span.start
    return .var binding.emitted binding.ty
  | .binary op left right span => do
    if op ≠ .add then
      throw (.unsupported ("binary operator '" ++ op.symbol ++ "'") span.start)
    let left ← left.check scope
    let right ← right.check scope
    expectType left.ty right.ty span.start
    return .add left right left.ty
  | .assign op target value span => do
    let lhs ← target.check scope
    if !lhs.isAssignable then
      throw (.notAssignable target.place)
    if op ≠ .plain then
      throw (.unsupported ("assignment operator '" ++ op.symbol ++ "'") span.start)
    let rhs ← value.check scope
    expectType lhs.ty rhs.ty value.place
    return .assign lhs rhs lhs.ty
  | .call callee args span => do
    let function ← callee.check scope
    match function.ty.signature? with
    | none => throw (.mismatch "function" function.ty.text callee.place)
    | some (result, params) =>
      if params.length ≠ args.length then
        throw (.mismatch (plural params.length "argument") (plural args.length "argument")
          span.start)
      let args ← Expr.checkArgs scope params args
      return .call function args result

/-- Arguments in order, each against its parameter. -/
def Expr.checkArgs (scope : Scope) : List Ty → List Expr → Except Fault (List Typed.Expr)
  | param :: params, arg :: args => do
    let typed ← arg.check scope
    expectType param typed.ty arg.place
    let rest ← Expr.checkArgs scope params args
    return typed :: rest
  | _, _ => return []

end

end Source

end MiniC
