import MiniC.Check.Stmt

/-!
# Checking functions and modules

Signatures come first: every function of a module is declared before any body is checked, so that
bodies may call functions defined later. The scope a module was checked in can be kept for the
next module; after a fault it holds the functions that were declared before.
-/

namespace MiniC

structure Signature.Param where
  name : String
  ty : Ty
  place : Location
  deriving DecidableEq, Repr

/-- The types that a function definition states. -/
structure Signature where
  result : Ty
  params : List Signature.Param
  deriving DecidableEq, Repr

namespace Signature

def ty (signature : Signature) : Ty :=
  .func signature.result (signature.params.map (·.ty))

end Signature

namespace Source

/-- A parameter needs a name and the type `int`. -/
def Param.resolve (p : Param) : Except Fault Signature.Param :=
  match p.name, Ty.ofSpecifiers p.specifiers with
  | none, _ => .error (.unsupported "unnamed parameter" p.span.start)
  | some name, some .int => .ok ⟨name, .int, p.span.start⟩
  | some name, _ => .error (.unsupported
      ("parameter type '" ++ Specifier.listText p.specifiers ++ "' of '" ++ name ++ "'")
      p.span.start)

def Param.resolveAll : List Param → Except Fault (List Signature.Param)
  | [] => return []
  | p :: rest => do
    let first ← p.resolve
    let others ← Param.resolveAll rest
    return first :: others

/-- One unnamed parameter of type `void` stands for an empty list. -/
def Param.isVoidList : List Param → Bool
  | [p] => p.name.isNone && Ty.ofSpecifiers p.specifiers = some .void
  | _ => false

/-- The signature of a function, without a look at its body. -/
def Function.signature (f : Function) : Except Fault Signature :=
  match Ty.ofSpecifiers f.result with
  | some result =>
    if result.isInteger then do
      let params ← if Param.isVoidList f.params then .ok [] else Param.resolveAll f.params
      return ⟨result, params⟩
    else unusable
  | none => unusable
where
  unusable : Except Fault Signature := .error (.unsupported
    ("return type '" ++ Specifier.listText f.result ++ "' of function '" ++ f.name ++ "'")
    f.span.start)

def declareParams : List Signature.Param → Check (List Typed.Param)
  | [] => return []
  | p :: rest => do
    let emitted ← Check.declare p.name p.ty p.place
    let others ← declareParams rest
    return ⟨emitted, p.ty, p.ty.intended⟩ :: others

/-- Checks the body of a function whose module scope is the current one. -/
def Function.check (f : Function) (signature : Signature) : Check Typed.Function := do
  Check.report (.checking f.name signature.ty)
  Check.inFunction signature.result do
    let params ← declareParams signature.params
    let body ← f.body.checkHere
    return ⟨f.name, signature.result, params, body⟩

/-- Declares the functions of a module in the current scope. -/
def Item.declareAll : List Item → Check (List (Function × Signature))
  | [] => return []
  | .declaration d :: _ => throw (.unsupported "top-level declaration" d.span.start)
  | .function f :: rest => do
    let signature ← Check.ofExcept f.signature
    let _ ← Check.declare f.name signature.ty f.span.start
    let others ← Item.declareAll rest
    return (f, signature) :: others

def Function.checkAll : List (Function × Signature) → Check (List Typed.Function)
  | [] => return []
  | (f, signature) :: rest => do
    let first ← f.check signature
    let others ← Function.checkAll rest
    return first :: others

/-- Checks a module with the current scope as the module scope. -/
def Module.check (m : Module) : Check Typed.Module := do
  let declared ← Item.declareAll m.items
  let functions ← Function.checkAll declared
  Check.report (.analyzed functions.length)
  return ⟨functions⟩

/-- Checks a module on its own. -/
def Module.analyze (m : Module) : Except Fault Typed.Module :=
  match m.check .initial with
  | .ok typed _ => .ok typed
  | .error fault _ => .error fault

end Source

end MiniC
