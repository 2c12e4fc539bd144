import MiniC.Proofs.Check.Module
import MiniC.Proofs.Names.Frames

/-!
# Emitted trees that mirror source trees

The declaration sites of a function are its parameters and the declarators of all its blocks,
numbered in the order they are written. An identifier of the source stands for a site or for a
function of the module, by the nearest block that declares it. `ExprMirror` and `StmtMirror` say
that an emitted tree has the shape of a source tree, node by node, and that each identifier is
emitted under the name given to what it stands for. They mention neither scopes nor typed trees.
-/

namespace MiniC

namespace Source

mutual

/-- The declarators of a block and of the blocks inside it, in the order they are written. -/
def Block.declarators : Block → List Declarator
  | ⟨decls, stmts, _⟩ => declaratorsOf decls ++ Stmt.declaratorsAll stmts

def Stmt.declaratorsAll : List Stmt → List Declarator
  | [] => []
  | s :: rest => s.declarators ++ Stmt.declaratorsAll rest

def Stmt.declarators : Stmt → List Declarator
  | .block body _ => body.declarators
  | _ => []

end

lemma Block.declarators_eq (block : Block) :
    block.declarators = declaratorsOf block.decls ++ Stmt.declaratorsAll block.stmts := by
  cases block
  rfl

/-- The source names of the declaration sites of a function, by number. -/
def Function.sites (f : Function) : List String :=
  f.paramNames ++ f.body.declarators.map (·.name)

lemma Function.length_sites (f : Function) : f.sites.length = f.paramNames.length +
    (declaratorsOf f.body.decls).length + (Stmt.declaratorsAll f.body.stmts).length := by
  simp [Function.sites, Block.declarators_eq, Nat.add_assoc]

/-- An emitted variable starts with the initial value of its declarator. -/
def Declarator.Hoists (d : Declarator) (emitted : String × Estree.Expr) : Prop :=
  ∃ n, d.Starts n ∧ emitted.2 = .num (Int64.ofNat n)

lemma Declarator.literal_of_hoists {declarators : List Declarator}
    {vars : List (String × Estree.Expr)} (hoists : List.Forall₂ Hoists declarators vars) :
    ∀ var ∈ vars, ∃ v, var.2 = .num v := by
  induction hoists with
  | nil => simp
  | cons first _ ih =>
    obtain ⟨n, _, value⟩ := first
    exact List.forall_mem_cons.mpr ⟨⟨_, value⟩, ih⟩

end Source

/-- A frame for names that are declared in order at the sites from `first` on. -/
def siteFrame (first : Nat) (names : List String) : List (String × Nat) :=
  (names.zipIdx first).reverse

lemma siteFrame_sites (first : Nat) (names : List String) :
    (siteFrame first names).map (·.2) = (List.range' first names.length).reverse := by
  rw [siteFrame, List.map_reverse, List.zipIdx_map_snd]

/-- The open frames hold no sites but the first ones. -/
def Frames.Within (frames : Frames Nat) (count : Nat) : Prop :=
  ∀ site ∈ frames.entries, site < count

lemma Frames.Within.mono {frames : Frames Nat} {count larger : Nat} (h : frames.Within count)
    (le : count ≤ larger) : frames.Within larger :=
  fun site member => Nat.lt_of_lt_of_le (h site member) le

lemma Frames.Within.push {frames : Frames Nat} {count : Nat} (h : frames.Within count)
    (declared : List String) :
    Frames.Within (siteFrame count declared :: frames) (count + declared.length) := by
  intro site member
  rw [Frames.entries_cons, siteFrame_sites, List.mem_append] at member
  rcases member with here | outer
  · rw [List.mem_reverse, List.mem_range'_1] at here
    exact here.2
  · have bound := h site outer
    omega

/-- The sites that the statements of a function's body see: those of the parameters, and those of
the declarations at the top of the body. -/
def Source.Function.bodyFrames (f : Function) : Frames Nat :=
  [siteFrame f.paramNames.length ((declaratorsOf f.body.decls).map (·.name)),
    siteFrame 0 f.paramNames]

/-- What an identifier stands for. -/
inductive Referent where
  | site (index : Nat)
  | function (name : String)
  deriving DecidableEq, Repr

namespace Referent

/-- The declaration that a name of the source means, by the nearest block. -/
def ofSource? (functions : List String) (frames : Frames Nat) (name : String) : Option Referent :=
  match frames.nearest name with
  | some index => some (.site index)
  | none => if name ∈ functions then some (.function name) else none

lemma ofSource?_eq_some {functions : List String} {frames : Frames Nat} {name : String}
    {r : Referent} (h : ofSource? functions frames name = some r) :
    (∃ index, frames.nearest name = some index ∧ r = .site index) ∨
      (frames.nearest name = none ∧ name ∈ functions ∧ r = .function name) := by
  unfold ofSource? at h
  cases nearest : frames.nearest name with
  | some index =>
    rw [nearest] at h
    exact .inl ⟨index, rfl, (Option.some.inj h).symm⟩
  | none =>
    rw [nearest] at h
    obtain ⟨member, same⟩ := Option.ite_none_right_eq_some.mp h
    exact .inr ⟨rfl, member, (Option.some.inj same).symm⟩

/-- The declaration that a name of an emitted function means, where all variables are on one level:
the position of the name among them, or a function of the module. -/
def ofEmitted? (functions locals : List String) (name : String) : Option Referent :=
  match locals.idxOf? name with
  | some index => some (.site index)
  | none => if name ∈ functions then some (.function name) else none

/-- The identifier that is written for a referent when sites have the given names. -/
def identifier (names : Nat → String) : Referent → String
  | .site index => names index
  | .function name => name

end Referent

section Mirror

variable (functions : List String) (names : Nat → String)

mutual

/-- An emitted expression mirrors a source expression in which the given frames are open. -/
inductive ExprMirror (frames : Frames Nat) : Source.Expr → Estree.Expr → Prop
  | const {text : String} {span : Span} {n : Nat} {value : Int64}
      (read : Decimal.toNat? text = some n) (same : value.toInt = n) :
      ExprMirror frames (.const text span) (.num value)
  | ident {name : String} {span : Span} {r : Referent}
      (means : Referent.ofSource? functions frames name = some r) :
      ExprMirror frames (.ident name span) (.ident (r.identifier names))
  | add {left right : Source.Expr} {l r : Estree.Expr} {span : Span}
      (hl : ExprMirror frames left l) (hr : ExprMirror frames right r) :
      ExprMirror frames (.binary .add left right span) (.binary .add l r)
  | assign {target value : Source.Expr} {l r : Estree.Expr} {span : Span}
      (hl : ExprMirror frames target l) (hr : ExprMirror frames value r) :
      ExprMirror frames (.assign .plain target value span) (.assign l r)
  | call {callee : Source.Expr} {args : List Source.Expr} {c : Estree.Expr}
      {as : List Estree.Expr} {span : Span}
      (hc : ExprMirror frames callee c) (has : ExprsMirror frames args as) :
      ExprMirror frames (.call callee args span) (.call c as)

inductive ExprsMirror (frames : Frames Nat) : List Source.Expr → List Estree.Expr → Prop
  | nil : ExprsMirror frames [] []
  | cons {e : Source.Expr} {rest : List Source.Expr} {x : Estree.Expr} {xs : List Estree.Expr}
      (first : ExprMirror frames e x) (others : ExprsMirror frames rest xs) :
      ExprsMirror frames (e :: rest) (x :: xs)

end

/-- A returned value is a literal of the signed range as it is, or any value with `|0`. -/
inductive Returned : Estree.Expr → Estree.Expr → Prop
  | bare {value : Int64} (low : -0x80000000 ≤ value.toInt) (high : value.toInt < 0x80000000) :
      Returned (.num value) (.num value)
  | coerced {x : Estree.Expr} : Returned x (Typed.coerceSigned x)

mutual

/-- An emitted statement mirrors a source statement in which the given frames are open and whose
first declaration, if it has any, is at site `next`. -/
inductive StmtMirror : Frames Nat → Nat → Source.Stmt → Estree.Stmt → Prop
  | expr {frames : Frames Nat} {next : Nat} {e : Source.Expr} {x : Estree.Expr} {span : Span}
      (value : ExprMirror functions names frames e x) :
      StmtMirror frames next (.expr e span) (.expr x)
  | ret {frames : Frames Nat} {next : Nat} {e : Source.Expr} {x r : Estree.Expr} {span : Span}
      (value : ExprMirror functions names frames e x) (returned : Returned x r) :
      StmtMirror frames next (.ret (some e) span) (.ret (some r))
  | block {frames : Frames Nat} {next : Nat} {decls : List Source.Decl}
      {stmts : List Source.Stmt} {xs : List Estree.Stmt} {inner span : Span}
      (body : StmtsMirror (siteFrame next ((Source.declaratorsOf decls).map (·.name)) :: frames)
        (next + (Source.declaratorsOf decls).length) stmts xs) :
      StmtMirror frames next (.block ⟨decls, stmts, inner⟩ span) (.block xs)

inductive StmtsMirror : Frames Nat → Nat → List Source.Stmt → List Estree.Stmt → Prop
  | nil {frames : Frames Nat} {next : Nat} : StmtsMirror frames next [] []
  | cons {frames : Frames Nat} {next : Nat} {stmt : Source.Stmt} {rest : List Source.Stmt}
      {x : Estree.Stmt} {xs : List Estree.Stmt} (first : StmtMirror frames next stmt x)
      (others : StmtsMirror frames (next + stmt.declarators.length) rest xs) :
      StmtsMirror frames next (stmt :: rest) (x :: xs)

end

/-- A function is emitted with these parameters, variables and statements when its sites have these
names. -/
structure FunctionMirror (f : Source.Function) (params : List String)
    (vars : List (String × Estree.Expr)) (stmts : List Estree.Stmt) : Prop where
  distinct : ∀ i j, i < f.sites.length → j < f.sites.length → names i = names j → i = j
  apart : ∀ i, i < f.sites.length → names i ∉ functions
  sites : params ++ vars.map (·.1) = (List.range f.sites.length).map names
  arity : params.length = f.paramNames.length
  hoists : List.Forall₂ Source.Declarator.Hoists f.body.declarators vars
  body : StmtsMirror functions names f.bodyFrames
    (f.paramNames.length + (Source.declaratorsOf f.body.decls).length) f.body.stmts stmts

end Mirror

lemma FunctionMirror.mem_locals_iff {functions : List String} {names : Nat → String}
    {f : Source.Function} {params : List String}
    {vars : List (String × Estree.Expr)} {stmts : List Estree.Stmt}
    (mirror : FunctionMirror functions names f params vars stmts) {name : String} :
    name ∈ params ++ vars.map (·.1) ↔ ∃ i < f.sites.length, names i = name := by
  rw [mirror.sites]
  simp

/-! ## Emitted functions -/

namespace Estree

/-- The statement `p = p|0`. -/
def selfCoercion (param : String) : Stmt :=
  .expr (.assign (.ident param) (Typed.coerceSigned (.ident param)))

/-- One declaration for all variables, unless there are none. -/
def hoisted (vars : List (String × Expr)) : List Stmt :=
  if vars.isEmpty then [] else [.var vars]

/-- The body of an emitted function: coercions of its parameters, its variables, its statements. -/
def functionBody (params : List String) (vars : List (String × Expr)) (stmts : List Stmt) :
    List Stmt :=
  params.map selfCoercion ++ hoisted vars ++ stmts

/-- Parameters and body of a declaration of the function with a given name. -/
def Stmt.declaration? (name : String) : Stmt → Option (List String × List Stmt)
  | .function declared params body => if declared = name then some (params, body) else none
  | _ => none

@[simp]
lemma Stmt.declaration?_function (name declared : String) (params : List String)
    (body : List Stmt) : (Stmt.function declared params body).declaration? name =
      if declared = name then some (params, body) else none := rfl

@[simp]
lemma Stmt.declaration?_expr (name : String) (value : Expr) :
    (Stmt.expr value).declaration? name = none := rfl

@[simp]
lemma Stmt.declaration?_ret (name : String) (value : Option Expr) :
    (Stmt.ret value).declaration? name = none := rfl

/-- The body of the function around a module. -/
def Program.moduleBody? : Program → Option (List Stmt)
  | ⟨[.function _ [] body]⟩ => some body
  | _ => none

/-- Parameters and body of a function of the module. -/
def Program.function? (program : Program) (name : String) : Option (List String × List Stmt) :=
  program.moduleBody?.bind fun body => body.findSome? (Stmt.declaration? name)

end Estree

end MiniC
