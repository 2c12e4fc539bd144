import MiniC.Grammar.Declarative.Lower
import MiniC.Proofs.Names.Resolution
import MiniC.Proofs.Typing.Elaborated

/-!
# Declarations that hold to the end of their list

A declarative tree lets declarations stand between statements. What it means can be said in one pass
from left to right, without blocks being opened for the declarations: each declaration is in sight
of the rest of its list, a nested list adds nothing to what is in sight behind it, and a name means
its latest declaration in sight, then a parameter, then a function of the module. A name may be
declared again as soon as a statement that is no declaration stands between.

The pass carries the declarations in sight, numbered in the order they are written, and the names of
the run of declarations that is going on. The parameters of a function are in sight of its body, and
the run at the start of the body goes on from them.
-/

namespace MiniC.Declarative

open Source

/-! ## Identifiers and declarations -/

mutual

/-- The identifiers of an expression, from left to right. -/
def ExprNode.idents : ExprNode → List String
  | .add left right _ => left.idents ++ right.idents
  | .binary _ left right _ => left.idents ++ right.idents
  | .assign _ target value _ => target.idents ++ value.idents
  | .const _ _ => []
  | .call callee args _ => callee.idents ++ ExprNode.identsAll args
  | .var name _ => [name]
  | .unknown _ _ => []

def ExprNode.identsAll : List ExprNode → List String
  | [] => []
  | node :: rest => node.idents ++ ExprNode.identsAll rest

end

mutual

/-- The names that are declared in a node and in the lists inside it, in the order they are
written. -/
def StmtNode.declared : StmtNode → List String
  | .block stmts _ => StmtNode.declaredAll stmts
  | .decl _ vars _ => vars.map (·.name)
  | .expr _ _ => []
  | .ret _ _ => []
  | .unknown _ _ => []

def StmtNode.declaredAll : List StmtNode → List String
  | [] => []
  | node :: rest => node.declared ++ StmtNode.declaredAll rest

end

/-- The declarations in sight, the latest first, each with its number. -/
abbrev Env := List (String × Nat)

/-- The types of what is in sight: declarations are numbers, and the functions of the module stand
around them. -/
def Env.types (env : Env) (functions : List (String × Ty)) : Frames Ty :=
  [intFrame (env.map (·.1)), functions]

/-- What is in sight behind a node whose first declaration has the number `next`. -/
def StmtNode.after (env : Env) (next : Nat) : StmtNode → Env
  | .decl _ vars _ => siteFrame next (vars.map (·.name)) ++ env
  | _ => env

/-- The names of the run of declarations behind a node; any other statement ends the run. -/
def StmtNode.run (run : List String) : StmtNode → List String
  | .decl _ vars _ => run ++ vars.map (·.name)
  | _ => []

/-! ## What is accepted -/

/-- A variable has no initial value, or a constant that fits 32 bits without a sign. -/
def VarNode.Accepted (node : VarNode) : Prop :=
  node.init = none ∨
    ∃ text place n, node.init = some (.const text place) ∧ IsNumeral text n ∧ n < 0x100000000

mutual

/-- A node is accepted where `env` is in sight and `run` is going on. -/
def StmtNode.Accepted (functions : List (String × Ty)) (env : Env) (run : List String)
    (next : Nat) : StmtNode → Prop
  | .block stmts _ => StmtNode.AllAccepted functions env [] next stmts
  | .decl type vars _ => Ty.ofSpecifiers (specifiers type) = some .int ∧
      (∀ v ∈ vars, v.Accepted) ∧ (run ++ vars.map (·.name)).Nodup
  | .expr value _ => ∃ e ty, value.lower = .ok e ∧ HasType (env.types functions) e ty
  | .ret value _ => ∃ v e, value = some v ∧ v.lower = .ok e ∧
      HasType (env.types functions) e .int
  | .unknown _ _ => False

/-- A list is accepted from left to right. -/
def StmtNode.AllAccepted (functions : List (String × Ty)) (env : Env) (run : List String)
    (next : Nat) : List StmtNode → Prop
  | [] => True
  | node :: rest => node.Accepted functions env run next ∧
      StmtNode.AllAccepted functions (node.after env next) (node.run run)
        (next + node.declared.length) rest

end

/-! ## What identifiers mean -/

mutual

/-- What the identifiers of a node stand for, from left to right. -/
def StmtNode.referents (functions : List String) (env : Env) (next : Nat) :
    StmtNode → List (Option Referent)
  | .block stmts _ => StmtNode.referentsAll functions env next stmts
  | .decl _ _ _ => []
  | .expr value _ => value.idents.map (Referent.ofSource? functions [env])
  | .ret value _ => (value.elim [] ExprNode.idents).map (Referent.ofSource? functions [env])
  | .unknown _ _ => []

def StmtNode.referentsAll (functions : List String) (env : Env) (next : Nat) :
    List StmtNode → List (Option Referent)
  | [] => []
  | node :: rest => node.referents functions env next ++
      StmtNode.referentsAll functions (node.after env next) (next + node.declared.length) rest

end

/-! ## Functions and modules -/

namespace FunctionNode

def paramNames (f : FunctionNode) : List String :=
  f.params.filterMap (·.name)

/-- The names declared in a function, by number. -/
def sites (f : FunctionNode) : List String :=
  f.paramNames ++ StmtNode.declaredAll f.body

/-- The parameters, which are in sight of the whole body. -/
def env (f : FunctionNode) : Env :=
  siteFrame 0 f.paramNames

/-- One unnamed parameter of type `void`, or parameters that all have a name and the type `int`. -/
def HasParams (f : FunctionNode) : Prop :=
  (∃ p, f.params = [p] ∧ p.name = none ∧ Ty.ofSpecifiers (specifiers p.type) = some .void) ∨
    ∀ p ∈ f.params, p.name.isSome = true ∧ Ty.ofSpecifiers (specifiers p.type) = some .int

structure Accepted (functions : List (String × Ty)) (f : FunctionNode) : Prop where
  result : Ty.ofSpecifiers (specifiers f.result) = some .int
  params : f.HasParams
  distinct : f.paramNames.Nodup
  body : StmtNode.AllAccepted functions f.env f.paramNames f.paramNames.length f.body

/-- What the identifiers of a function stand for, from left to right. -/
def referents (functions : List String) (f : FunctionNode) : List (Option Referent) :=
  StmtNode.referentsAll functions f.env f.paramNames.length f.body

def ty (f : FunctionNode) : Ty :=
  .func .int (f.paramNames.map fun _ => .int)

end FunctionNode

namespace ModuleNode

def functions (m : ModuleNode) : List FunctionNode :=
  m.decls.filterMap fun
    | .function f => some f
    | .unknown _ _ => none

def functionNames (m : ModuleNode) : List String :=
  m.functions.map (·.name)

/-- The frame of all functions of a module. -/
def frame (m : ModuleNode) : List (String × Ty) :=
  (m.functions.map fun f => (f.name, f.ty)).reverse

/-- The functions of a module have different names, and each is accepted where all are in sight. -/
structure Accepted (m : ModuleNode) : Prop where
  distinct : m.functionNames.Nodup
  functions : ∀ f ∈ m.functions, f.Accepted m.frame

end ModuleNode

end MiniC.Declarative
