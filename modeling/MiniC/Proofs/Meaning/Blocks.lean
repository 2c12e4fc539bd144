import MiniC.Proofs.Check.Module
import MiniC.Proofs.Meaning.Outcome

/-!
# The meaning of source modules

Numbers are words of 32 bits with a sign, and arithmetic wraps around. Each block that is entered
puts a frame with its variables on the stack and removes it when it is left; an identifier reads and
writes the nearest frame that has its name, and otherwise stands for a function of the module. A
return leaves the whole function. The number of nested calls is bounded.
-/

namespace MiniC

/-! ## Writing to frames -/

/-- Replaces the first entry of a name. -/
def writeFrame {α : Type} (name : String) (value : α) :
    List (String × α) → Option (List (String × α))
  | [] => none
  | (key, old) :: rest =>
    if key = name then some ((key, value) :: rest)
    else (writeFrame name value rest).map ((key, old) :: ·)

/-- Replaces the nearest entry of a name. -/
def Frames.write {α : Type} (name : String) (value : α) : Frames α → Option (Frames α)
  | [] => none
  | frame :: rest =>
    match writeFrame name value frame with
    | some written => some (written :: rest)
    | none => (Frames.write name value rest).map (frame :: ·)

namespace Source

/-! ## Expressions -/

mutual

/-- The value of an expression and the frames after it is computed. -/
def Expr.eval (functions : Functions Int32) :
    Expr → Frames Int32 → Except Halt (Value Int32 × Frames Int32)
  | .const text _, frames =>
    match Decimal.toNat? text with
    | some n => .ok (.number (Int32.ofNat n), frames)
    | none => .error .stuck
  | .ident name _, frames =>
    match frames.nearest name with
    | some w => .ok (.number w, frames)
    | none => if (functions name).isSome then .ok (.function name, frames) else .error .stuck
  | .binary .add left right _, frames => do
    let (a, frames) ← left.eval functions frames
    let a ← a.toNumber
    let (b, frames) ← right.eval functions frames
    let b ← b.toNumber
    .ok (.number (a + b), frames)
  | .binary _ _ _ _, _ => .error .stuck
  | .assign .plain (.ident name _) value _, frames => do
    let (w, frames) ← value.eval functions frames
    let w ← w.toNumber
    match frames.write name w with
    | some frames => .ok (.number w, frames)
    | none => .error .stuck
  | .assign _ _ _ _, _ => .error .stuck
  | .call callee args _, frames => do
    let (f, frames) ← callee.eval functions frames
    let f ← f.toFunction
    let (ws, frames) ← Expr.evalAll functions args frames
    let w ← functions.call f ws
    .ok (.number w, frames)

/-- The numbers that arguments are, from left to right. -/
def Expr.evalAll (functions : Functions Int32) :
    List Expr → Frames Int32 → Except Halt (List Int32 × Frames Int32)
  | [], frames => .ok ([], frames)
  | e :: rest, frames => do
    let (w, frames) ← e.eval functions frames
    let w ← w.toNumber
    let (ws, frames) ← Expr.evalAll functions rest frames
    .ok (w :: ws, frames)

end

/-! ## Statements -/

/-- The entries of declarators, in the order they are written. -/
def Declarator.entries : List Declarator → Except Halt (List (String × Int32))
  | [] => .ok []
  | d :: rest =>
    match d.initial? with
    | some n => do
      let entries ← Declarator.entries rest
      .ok ((d.name, Int32.ofNat n) :: entries)
    | none => .error .stuck

mutual

/-- The number that a statement returns, if it returns, and the frames after it is done. -/
def Stmt.exec (functions : Functions Int32) :
    Stmt → Frames Int32 → Except Halt (Option Int32 × Frames Int32)
  | .expr e _, frames => do
    let (_, frames) ← e.eval functions frames
    .ok (none, frames)
  | .ret (some e) _, frames => do
    let (w, frames) ← e.eval functions frames
    let w ← w.toNumber
    .ok (some w, frames)
  | .ret none _, _ => .error .stuck
  | .block body _, frames => body.exec functions frames

/-- Statements in order, up to the first that returns. -/
def Stmt.execAll (functions : Functions Int32) :
    List Stmt → Frames Int32 → Except Halt (Option Int32 × Frames Int32)
  | [], frames => .ok (none, frames)
  | s :: rest, frames => do
    let (result, frames) ← s.exec functions frames
    match result with
    | some w => .ok (some w, frames)
    | none => Stmt.execAll functions rest frames

/-- A block has a frame of its own, with the latest declaration first. -/
def Block.exec (functions : Functions Int32) :
    Block → Frames Int32 → Except Halt (Option Int32 × Frames Int32)
  | ⟨decls, stmts, _⟩, frames => do
    let entries ← Declarator.entries (declaratorsOf decls)
    let (result, frames) ← Stmt.execAll functions stmts (entries.reverse :: frames)
    .ok (result, frames.tail)

end

/-! ## Functions and modules -/

/-- A call binds the parameters and runs the body, which has to return. -/
def Function.run (functions : Functions Int32) (f : Function) (args : List Int32) :
    Except Halt Int32 :=
  if f.paramNames.length = args.length then do
    let (result, _) ← f.body.exec functions [(f.paramNames.zip args).reverse]
    match result with
    | some w => .ok w
    | none => .error .stuck
  else .error .stuck

def Module.function? (m : Module) (name : String) : Option Function :=
  m.functions.find? (·.name = name)

/-- What the functions of a module do when calls may nest as deep as the fuel allows. -/
def Module.functionsWithin (m : Module) : Nat → Functions Int32
  | 0 => fun name => (m.function? name).map fun _ _ => .error .exhausted
  | fuel + 1 => fun name => (m.function? name).map (Function.run (m.functionsWithin fuel))

/-- Runs a function of the module; arguments are taken into the signed range. -/
def Module.run (m : Module) (fuel : Nat) (name : String) (args : List Int) : Except Halt Int32 :=
  (m.functionsWithin fuel).call name (args.map Int32.ofInt)

end Source

end MiniC
