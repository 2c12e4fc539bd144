import MiniC.Proofs.Meaning.Outcome
import MiniC.Proofs.Names.Mirror

/-!
# The meaning of emitted programs

Numbers are integers without bounds: a sum is exact, and only the operator `|` takes its operands
into the signed range. A call has one environment for its parameters and variables, and blocks open
none. An identifier that is not in the environment stands for a function of the module. A program is
run through the object that its module returns.
-/

namespace MiniC

namespace Estree

/-- The variables of a call. -/
abbrev Env := String → Option Int

def Env.empty : Env := fun _ => none

/-- The environment in which a name has a value. -/
def Env.put (env : Env) (name : String) (value : Int) : Env :=
  fun x => if x = name then some value else env x

@[simp]
lemma Env.put_self (env : Env) (name : String) (value : Int) :
    env.put name value name = some value := by
  simp [Env.put]

lemma Env.put_of_ne (env : Env) {name other : String} (value : Int) (h : other ≠ name) :
    env.put name value other = env other := by
  simp [Env.put, h]

/-- The bits of two integers combined in the signed range. -/
def combineBits (a b : Int) : Int :=
  (BitVec.ofInt 32 a ||| BitVec.ofInt 32 b).toInt

/-- The expression `e|0` takes a number into the signed range. -/
lemma combineBits_zero (a : Int) : combineBits a 0 = a.bmod 0x100000000 := by
  simp [combineBits]

def BinaryOp.apply : BinaryOp → Int → Int → Int
  | .add, a, b => a + b
  | .bitOr, a, b => combineBits a b

/-! ## Expressions -/

mutual

/-- The value of an expression and the environment after it is computed. -/
def Expr.eval (functions : Functions Int) : Expr → Env → Except Halt (Value Int × Env)
  | .ident name, env =>
    match env name with
    | some t => .ok (.number t, env)
    | none => if (functions name).isSome then .ok (.function name, env) else .error .stuck
  | .num value, env => .ok (.number value.toInt, env)
  | .str _, _ => .error .stuck
  | .binary op left right, env => do
    let (a, env) ← left.eval functions env
    let a ← a.toNumber
    let (b, env) ← right.eval functions env
    let b ← b.toNumber
    .ok (.number (op.apply a b), env)
  | .assign (.ident name) value, env => do
    let (t, env) ← value.eval functions env
    let t ← t.toNumber
    if (env name).isSome then .ok (.number t, env.put name t) else .error .stuck
  | .assign _ _, _ => .error .stuck
  | .call callee args, env => do
    let (f, env) ← callee.eval functions env
    let f ← f.toFunction
    let (ts, env) ← Expr.evalAll functions args env
    let t ← functions.call f ts
    .ok (.number t, env)
  | .object _, _ => .error .stuck

/-- The numbers that arguments are, from left to right. -/
def Expr.evalAll (functions : Functions Int) : List Expr → Env → Except Halt (List Int × Env)
  | [], env => .ok ([], env)
  | e :: rest, env => do
    let (t, env) ← e.eval functions env
    let t ← t.toNumber
    let (ts, env) ← Expr.evalAll functions rest env
    .ok (t :: ts, env)

end

/-! ## Statements -/

/-- The environment after variables are declared with their initial values. -/
def declareVars (functions : Functions Int) : List (String × Expr) → Env → Except Halt Env
  | [], env => .ok env
  | (name, init) :: rest, env => do
    let (t, env) ← init.eval functions env
    let t ← t.toNumber
    declareVars functions rest (env.put name t)

mutual

/-- The number that a statement returns, if it returns, and the environment after it is done. -/
def Stmt.exec (functions : Functions Int) : Stmt → Env → Except Halt (Option Int × Env)
  | .function _ _ _, _ => .error .stuck
  | .block body, env => Stmt.execAll functions body env
  | .var declarators, env => do
    let env ← declareVars functions declarators env
    .ok (none, env)
  | .expr value, env => do
    let (_, env) ← value.eval functions env
    .ok (none, env)
  | .ret (some value), env => do
    let (t, env) ← value.eval functions env
    let t ← t.toNumber
    .ok (some t, env)
  | .ret none, _ => .error .stuck

/-- Statements in order, up to the first that returns. -/
def Stmt.execAll (functions : Functions Int) : List Stmt → Env → Except Halt (Option Int × Env)
  | [], env => .ok (none, env)
  | s :: rest, env => do
    let (result, env) ← s.exec functions env
    match result with
    | some t => .ok (some t, env)
    | none => Stmt.execAll functions rest env

end

/-! ## Functions and programs -/

def bindParams : List String → List Int → Env
  | param :: params, arg :: args => (bindParams params args).put param arg
  | _, _ => .empty

/-- A call binds the parameters and runs the body, which has to return. -/
def runFunction (functions : Functions Int) (f : List String × List Stmt) (args : List Int) :
    Except Halt Int :=
  if f.1.length = args.length then do
    let (result, _) ← Stmt.execAll functions f.2 (bindParams f.1 args)
    match result with
    | some t => .ok t
    | none => .error .stuck
  else .error .stuck

/-- What the functions of a program do when calls may nest as deep as the fuel allows. -/
def Program.functionsWithin (program : Program) : Nat → Functions Int
  | 0 => fun name => (program.function? name).map fun _ _ => .error .exhausted
  | fuel + 1 => fun name =>
    (program.function? name).map (runFunction (program.functionsWithin fuel))

/-- The identifier that a returned object has under a key. -/
def Stmt.exported? (key : String) : Stmt → Option String
  | .ret (some (.object properties)) =>
    match properties.lookup key with
    | some (.ident name) => some name
    | _ => none
  | _ => none

/-- The function that a module exports under a key. -/
def Program.exported? (program : Program) (key : String) : Option String :=
  (program.moduleBody?.bind (·.getLast?)).bind (Stmt.exported? key)

/-- Runs the function that the module exports under a key. -/
def Program.run (program : Program) (fuel : Nat) (key : String) (args : List Int) :
    Except Halt Int :=
  match program.exported? key with
  | some name => (program.functionsWithin fuel).call name args
  | none => .error .stuck

end Estree

end MiniC
