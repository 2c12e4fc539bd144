import MiniC.Compile
import Mathlib.Tactic.Common

/-!
# Erasing places

`erase` puts the unknown place everywhere in a tree, a scope or a fault. A check of an erased tree
in an erased scope does what the check of the tree does, with the places erased: `Erased` says so of
two results, `Check.Erased` of two checks, and both are kept by sequencing.
-/

namespace MiniC

/-- A fault without its places: its kind, its names and its texts. -/
def Fault.erase : Fault → Fault
  | .undefined name _ => .undefined name .unknown
  | .mismatch expected found _ => .mismatch expected found .unknown
  | .notAssignable _ => .notAssignable .unknown
  | .unsupported construct _ => .unsupported construct .unknown
  | .redefined name _ _ => .redefined name .unknown .unknown

def Binding.erase (b : Binding) : Binding :=
  { b with place := .unknown }

def Scope.erase (scope : Scope) : Scope :=
  ⟨scope.frame.map Binding.erase, scope.outer.map (List.map Binding.erase), scope.result⟩

def Check.State.erase (s : State) : State :=
  { s with scope := s.scope.erase }

def Signature.Param.erase (p : Signature.Param) : Signature.Param :=
  { p with place := .unknown }

def Signature.erase (signature : Signature) : Signature :=
  { signature with params := signature.params.map Param.erase }

lemma Signature.ty_erase (signature : Signature) : signature.erase.ty = signature.ty := by
  simp [ty, erase, Param.erase, Function.comp_def]

namespace Source

mutual

def Expr.erase : Expr → Expr
  | .const text _ => .const text .unknown
  | .ident name _ => .ident name .unknown
  | .binary op left right _ => .binary op left.erase right.erase .unknown
  | .assign op target value _ => .assign op target.erase value.erase .unknown
  | .call callee args _ => .call callee.erase (Expr.eraseAll args) .unknown

def Expr.eraseAll : List Expr → List Expr
  | [] => []
  | e :: rest => e.erase :: Expr.eraseAll rest

end

def Declarator.erase (d : Declarator) : Declarator :=
  ⟨d.name, d.init.map Expr.erase, .unknown⟩

def Decl.erase (d : Decl) : Decl :=
  ⟨d.specifiers, d.declarators.map Declarator.erase, .unknown⟩

mutual

def Stmt.erase : Stmt → Stmt
  | .expr value _ => .expr value.erase .unknown
  | .ret value _ => .ret (value.map Expr.erase) .unknown
  | .block body _ => .block body.erase .unknown

def Stmt.eraseAll : List Stmt → List Stmt
  | [] => []
  | s :: rest => s.erase :: Stmt.eraseAll rest

def Block.erase : Block → Block
  | ⟨decls, stmts, _⟩ => ⟨decls.map Decl.erase, Stmt.eraseAll stmts, .unknown⟩

end

def Param.erase (p : Param) : Param :=
  { p with span := .unknown }

def Function.erase (f : Function) : Function :=
  ⟨f.name, f.result, f.params.map Param.erase, f.body.erase, .unknown⟩

def Item.erase : Item → Item
  | .function f => .function f.erase
  | .declaration d => .declaration d.erase

def Module.erase (m : Module) : Module :=
  ⟨m.items.map Item.erase, .unknown⟩

end Source

/-! ## Results -/

/-- The second result is the first one with its places erased; `g` erases those of a value. -/
def Erased {α β : Type} (g : α → β) (x : Except Fault α) (y : Except Fault β) : Prop :=
  y = (x.map g).mapError Fault.erase

namespace Erased

variable {α β γ δ : Type} {g : α → β}

lemma ok (g : α → β) (a : α) : Erased g (.ok a) (.ok (g a)) := rfl

lemma error (g : α → β) (fault : Fault) : Erased g (.error fault) (.error fault.erase) := rfl

lemma bind {k : γ → δ} {x : Except Fault α} {y : Except Fault β} {f : α → Except Fault γ}
    {f' : β → Except Fault δ} (first : Erased g x y) (next : ∀ a, Erased k (f a) (f' (g a))) :
    Erased k (x >>= f) (y >>= f') := by
  cases first
  cases x with
  | error fault => rfl
  | ok a => exact next a

/-- Nothing is run behind a fault. -/
lemma throw_bind (fault : Fault) (f : γ → Except Fault α) (f' : δ → Except Fault β) :
    Erased g (throw fault >>= f) (throw fault.erase >>= f') := rfl

lemma ite {c : Prop} [Decidable c] {x x' : Except Fault α} {y y' : Except Fault β}
    (yes : Erased g x y) (no : Erased g x' y') :
    Erased g (if c then x else x') (if c then y else y') := by
  split
  · exact yes
  · exact no

end Erased

lemma literal_erased (text : String) (place : Location) :
    Erased id (literal text place) (literal text .unknown) := by
  unfold literal
  split
  · exact .error ..
  · exact .ite (.ok ..) (.error ..)

lemma expectType_erased (expected found : Ty) (place : Location) :
    Erased id (expectType expected found place) (expectType expected found .unknown) :=
  .ite (.ok ..) (.error ..)

/-! ## Scopes -/

namespace Scope

lemma find?_erase (frame : Frame) (name : String) :
    Frame.find? (frame.map Binding.erase) name = (frame.find? name).map Binding.erase := by
  unfold Frame.find?
  rw [List.find?_map]
  rfl

lemma binding?_erase (scope : Scope) (name : String) :
    scope.erase.binding? name = (scope.binding? name).map Binding.erase := by
  have frames : scope.erase.frame :: scope.erase.outer =
      (scope.frame :: scope.outer).map (List.map Binding.erase) := rfl
  rw [binding?, binding?, frames, List.findSome?_map, List.map_findSome?]
  congr 1
  funext frame
  exact find?_erase frame name

lemma size_erase (scope : Scope) : scope.erase.size = scope.size := by
  simp [size, erase, List.map_map, Function.comp_def]

lemma depth_erase (scope : Scope) : scope.erase.depth = scope.depth := by
  simp [depth, erase]

lemma freshName_erase (scope : Scope) (taken : List String) (name : String) :
    scope.erase.freshName taken name = scope.freshName taken name := by
  have occupied (k : String) : scope.erase.isOccupied taken k = scope.isOccupied taken k := by
    simp [isOccupied, binding?_erase]
  simp only [freshName, size_erase, occupied]

lemma resolve_erased (scope : Scope) (name : String) (place : Location) :
    Erased Binding.erase (scope.resolve name place) (scope.erase.resolve name .unknown) := by
  unfold resolve
  rw [binding?_erase]
  cases scope.binding? name with
  | none => exact .error ..
  | some b => exact .ok ..

lemma declare_erased (scope : Scope) (taken : List String) (name : String) (ty : Ty)
    (place : Location) :
    Erased (fun found => (found.1.erase, found.2.erase)) (scope.declare taken name ty place)
      (scope.erase.declare taken name ty .unknown) := by
  have here : scope.erase.local? name = (scope.local? name).map Binding.erase :=
    find?_erase scope.frame name
  unfold declare
  rw [here, freshName_erase]
  cases scope.local? name with
  | none => exact .ok ..
  | some previous => exact .error ..

end Scope

/-! ## Expressions -/

namespace Source

@[simp]
lemma Expr.place_erase (e : Expr) : e.erase.place = .unknown := by
  cases e <;> simp [Expr.erase, Expr.place, Expr.span, Span.unknown, Span.point]

@[simp]
lemma Expr.length_eraseAll (es : List Expr) : (Expr.eraseAll es).length = es.length := by
  induction es with
  | nil => rfl
  | cons e rest ih => simp [Expr.eraseAll, ih]

mutual

theorem Expr.check_erased (scope : Scope) :
    ∀ e : Expr, Erased id (e.check scope) (e.erase.check scope.erase)
  | .const text span => by
    rw [Expr.erase, Expr.check, Expr.check]
    exact .bind (literal_erased text span.start) fun value => .ok id _
  | .ident name span => by
    rw [Expr.erase, Expr.check, Expr.check]
    exact .bind (scope.resolve_erased name span.start) fun b => .ok id _
  | .binary op left right span => by
    rw [Expr.erase, Expr.check, Expr.check]
    refine .ite (.throw_bind ..) ?_
    exact .bind (Expr.check_erased scope left) fun l =>
      .bind (Expr.check_erased scope right) fun r =>
      .bind (expectType_erased l.ty r.ty span.start) fun _ => .ok id _
  | .assign op target value span => by
    rw [Expr.erase, Expr.check, Expr.check]
    refine .bind (Expr.check_erased scope target) fun lhs => ?_
    rw [Expr.place_erase, Expr.place_erase]
    refine .ite (.throw_bind ..) (.ite (.throw_bind ..) ?_)
    exact .bind (Expr.check_erased scope value) fun rhs =>
      .bind (expectType_erased lhs.ty rhs.ty value.place) fun _ => .ok id _
  | .call callee args span => by
    rw [Expr.erase, Expr.check, Expr.check]
    refine .bind (Expr.check_erased scope callee) fun function => ?_
    rw [Expr.place_erase, Expr.length_eraseAll]
    simp only [id]
    split
    · exact .error id _
    · next result params _ =>
      refine .ite (.throw_bind ..) ?_
      exact .bind (Expr.checkArgs_erased scope params args) fun typed => .ok id _

theorem Expr.checkArgs_erased (scope : Scope) : ∀ (params : List Ty) (args : List Expr),
    Erased id (Expr.checkArgs scope params args)
      (Expr.checkArgs scope.erase params (Expr.eraseAll args))
  | [], args => by
    rw [Expr.checkArgs, Expr.checkArgs]
    · exact .ok id _
    all_goals simp
  | _ :: _, [] => by
    rw [Expr.eraseAll, Expr.checkArgs]
    · exact .ok id _
    all_goals simp
  | param :: params, arg :: args => by
    rw [Expr.eraseAll, Expr.checkArgs, Expr.checkArgs, Expr.place_erase]
    exact .bind (Expr.check_erased scope arg) fun typed =>
      .bind (expectType_erased param typed.ty arg.place) fun _ =>
      .bind (Expr.checkArgs_erased scope params args) fun rest => .ok id _

end

end Source

/-! ## Checks -/

namespace Check

/-- The outcome of a check with its places erased. -/
def eraseResult {α β : Type} (g : α → β) :
    EStateM.Result Fault State α → EStateM.Result Fault State β
  | .ok a s => .ok (g a) s.erase
  | .error fault s => .error fault.erase s.erase

/-- In erased states the second check does what the first one does. -/
def Erased {α β : Type} (g : α → β) (x : Check α) (y : Check β) : Prop :=
  ∀ s, y s.erase = eraseResult g (x s)

namespace Erased

variable {α β γ δ : Type} {g : α → β}

lemma pure (g : α → β) (a : α) : Erased g (pure a : Check α) (pure (g a)) :=
  fun _ => rfl

lemma throw (g : α → β) (fault : Fault) :
    Erased g (throw fault : Check α) (throw fault.erase) :=
  fun _ => rfl

lemma bind {k : γ → δ} {x : Check α} {y : Check β} {f : α → Check γ} {f' : β → Check δ}
    (first : Erased g x y) (next : ∀ a, Erased k (f a) (f' (g a))) :
    Erased k (x >>= f) (y >>= f') := by
  intro s
  simp only [Bind.bind, EStateM.bind, first s]
  cases x s with
  | ok a t => exact next a t
  | error fault t => rfl

lemma ite {c : Prop} [Decidable c] {x x' : Check α} {y y' : Check β} (yes : Erased g x y)
    (no : Erased g x' y') : Erased g (if c then x else x') (if c then y else y') := by
  split
  · exact yes
  · exact no

lemma ofExcept {x : Except Fault α} {y : Except Fault β} (h : MiniC.Erased g x y) :
    Erased g (ofExcept x) (ofExcept y) := by
  cases h
  cases x with
  | ok a => exact .pure g a
  | error fault => exact .throw g fault

lemma scope : Erased Scope.erase Check.scope Check.scope :=
  fun _ => rfl

lemma report (event : Event) : Erased id (report event) (report event) :=
  fun _ => rfl

lemma declare (name : String) (ty : Ty) (place : Location) :
    Erased id (declare name ty place) (declare name ty .unknown) := by
  refine .bind (g := State.erase) (fun _ => rfl) fun s => ?_
  refine .bind (.ofExcept (s.scope.declare_erased s.taken name ty place)) fun found => ?_
  refine .bind (g := id) (fun _ => rfl) fun _ => ?_
  exact .ite (.bind (.report _) fun _ => .pure id _) (.pure id _)

lemma inScope (inner : Scope) {x : Check α} {y : Check β} (h : Erased g x y) :
    Erased g (inScope inner x) (inScope inner.erase y) := by
  intro s
  have forked := h { s with scope := inner, log := s.log.push (.forked inner.depth) }
  rw [State.erase] at forked
  simp only [Check.inScope, State.erase, inner.depth_erase, forked]
  cases x { s with scope := inner, log := s.log.push (.forked inner.depth) } <;> rfl

lemma inFork {x : Check α} {y : Check β} (h : Erased g x y) : Erased g (inFork x) (inFork y) :=
  .bind .scope fun s => .inScope s.fork h

lemma inFunction (result : Ty) {x : Check α} {y : Check β} (h : Erased g x y) :
    Erased g (inFunction result x) (inFunction result y) := by
  intro s
  have inside : Check.inScope (s.erase.scope.forFunction result) y { s.erase with taken := [] } =
      eraseResult g (Check.inScope (s.scope.forFunction result) x { s with taken := [] }) :=
    inScope (s.scope.forFunction result) h { s with taken := [] }
  simp only [Check.inFunction, inside]
  cases Check.inScope (s.scope.forFunction result) x { s with taken := [] } <;> rfl

end Erased

end Check

/-! ## Declarations, statements and blocks -/

namespace Source

lemma checkInit_erased (init : Expr) (typed : Typed.Expr) (ty : Ty) :
    Erased id (checkInit init typed ty) (checkInit init.erase typed ty) := by
  unfold checkInit
  have described : init.erase.describe = init.describe := by cases init <;> rfl
  rw [described, Expr.place_erase]
  split
  · exact .error id _
  · exact .bind (expectType_erased ty typed.ty init.place) fun _ => .ite (.ok id _) (.error id _)

lemma Declarator.checkValue_erased (d : Declarator) (ty : Ty) (scope : Scope) :
    Erased id (d.checkValue ty scope) (d.erase.checkValue ty scope.erase) := by
  obtain ⟨name, init, span⟩ := d
  cases init with
  | none => exact .ok id _
  | some init =>
    exact .bind (init.check_erased scope) fun typed =>
      .bind (checkInit_erased init typed ty) fun _ => .ok id _

lemma Declarator.check_erased (d : Declarator) (ty : Ty) :
    Check.Erased id (d.check ty) (d.erase.check ty) := by
  refine .bind (.declare d.name ty d.span.start) fun emitted => .bind .scope fun scope => ?_
  refine .bind (.ofExcept (d.checkValue_erased ty scope)) fun init => ?_
  rw [scope.depth_erase]
  exact .bind (.report _) fun _ => .pure id _

lemma Declarator.checkAll_erased (ty : Ty) (ds : List Declarator) :
    Check.Erased id (Declarator.checkAll ty ds)
      (Declarator.checkAll ty (ds.map Declarator.erase)) := by
  induction ds with
  | nil => exact .pure id _
  | cons d rest ih => exact .bind (d.check_erased ty) fun _ => .bind ih fun _ => .pure id _

lemma Decl.check_erased (d : Decl) : Check.Erased id d.check d.erase.check := by
  have same : d.erase.specifiers = d.specifiers := rfl
  unfold Decl.check
  rw [same]
  split
  · exact Declarator.checkAll_erased .int d.declarators
  · exact .throw id _

lemma Decl.checkAll_erased (ds : List Decl) :
    Check.Erased id (Decl.checkAll ds) (Decl.checkAll (ds.map Decl.erase)) := by
  induction ds with
  | nil => exact .pure id _
  | cons d rest ih => exact .bind d.check_erased fun _ => .bind ih fun _ => .pure id _

lemma checkReturn_erased (value : Option Expr) (place : Location) (scope : Scope) :
    Erased id (checkReturn value place scope)
      (checkReturn (value.map Expr.erase) .unknown scope.erase) := by
  have result : scope.erase.result = scope.result := rfl
  unfold checkReturn
  rw [result]
  cases scope.result with
  | none => exact .error id _
  | some ty =>
    cases value with
    | none => exact .error id _
    | some e =>
      simp only [Option.map_some, Expr.place_erase]
      exact .bind (e.check_erased scope) fun typed =>
        .bind (expectType_erased ty typed.ty e.place) fun _ => .ok id _

mutual

theorem Stmt.check_erased : ∀ s : Stmt, Check.Erased id s.check s.erase.check
  | .expr value span => by
    rw [Stmt.erase, Stmt.check, Stmt.check]
    exact .bind .scope fun scope => .bind (.ofExcept (value.check_erased scope)) fun _ => .pure id _
  | .ret value span => by
    rw [Stmt.erase, Stmt.check, Stmt.check]
    exact .bind .scope fun scope =>
      .bind (.ofExcept (checkReturn_erased value span.start scope)) fun _ => .pure id _
  | .block body span => by
    rw [Stmt.erase, Stmt.check, Stmt.check]
    exact .bind (.inFork (Block.checkHere_erased body)) fun _ => .pure id _

theorem Stmt.checkAll_erased : ∀ stmts : List Stmt,
    Check.Erased id (Stmt.checkAll stmts) (Stmt.checkAll (Stmt.eraseAll stmts))
  | [] => .pure id _
  | s :: rest => by
    rw [Stmt.eraseAll, Stmt.checkAll, Stmt.checkAll]
    exact .bind (Stmt.check_erased s) fun _ => .bind (Stmt.checkAll_erased rest) fun _ => .pure id _

theorem Block.checkHere_erased :
    ∀ block : Block, Check.Erased id block.checkHere block.erase.checkHere
  | ⟨decls, stmts, span⟩ => by
    rw [Block.erase, Block.checkHere, Block.checkHere]
    exact .bind (Decl.checkAll_erased decls) fun _ =>
      .bind (Stmt.checkAll_erased stmts) fun _ => .pure id _

end

/-! ## Functions and modules -/

lemma Param.resolve_erased (p : Param) :
    Erased Signature.Param.erase p.resolve p.erase.resolve := by
  have name : p.erase.name = p.name := rfl
  have specifiers : p.erase.specifiers = p.specifiers := rfl
  unfold Param.resolve
  rw [name, specifiers]
  split
  · exact .error ..
  · exact .ok ..
  · exact .error ..

lemma Param.resolveAll_erased (ps : List Param) :
    Erased (List.map Signature.Param.erase) (Param.resolveAll ps)
      (Param.resolveAll (ps.map Param.erase)) := by
  induction ps with
  | nil => exact .ok ..
  | cons p rest ih => exact .bind p.resolve_erased fun _ => .bind ih fun _ => .ok ..

lemma Param.isVoidList_erase (ps : List Param) :
    Param.isVoidList (ps.map Param.erase) = Param.isVoidList ps := by
  match ps with
  | [] => rfl
  | [_] => rfl
  | _ :: _ :: _ => rfl

lemma Function.signature_erased (f : Function) :
    Erased Signature.erase f.signature f.erase.signature := by
  have unusable : Erased Signature.erase (Function.signature.unusable f)
      (Function.signature.unusable f.erase) := .error ..
  have result : f.erase.result = f.result := rfl
  have params : f.erase.params = f.params.map Param.erase := rfl
  unfold Function.signature
  rw [result, params, Param.isVoidList_erase]
  split
  · exact .ite (.ite (.ok ..) (.bind (Param.resolveAll_erased f.params) fun _ => .ok ..)) unusable
  · exact unusable

lemma declareParams_erased (ps : List Signature.Param) :
    Check.Erased id (declareParams ps) (declareParams (ps.map Signature.Param.erase)) := by
  induction ps with
  | nil => exact .pure id _
  | cons p rest ih =>
    exact .bind (.declare p.name p.ty p.place) fun _ => .bind ih fun _ => .pure id _

lemma Function.check_erased (f : Function) (signature : Signature) :
    Check.Erased id (f.check signature) (f.erase.check signature.erase) := by
  unfold Function.check
  rw [signature.ty_erase]
  refine .bind (.report _) fun _ => .inFunction signature.result ?_
  exact .bind (declareParams_erased signature.params) fun _ =>
    .bind (Block.checkHere_erased f.body) fun _ => .pure id _

lemma Item.declareAll_erased (items : List Item) :
    Check.Erased (List.map fun d => (d.1.erase, d.2.erase)) (Item.declareAll items)
      (Item.declareAll (items.map Item.erase)) := by
  induction items with
  | nil => exact .pure _ _
  | cons item rest ih =>
    cases item with
    | declaration d => exact .throw _ _
    | function f =>
      refine .bind (.ofExcept f.signature_erased) fun signature => ?_
      rw [signature.ty_erase]
      exact .bind (.declare f.name signature.ty f.span.start) fun _ => .bind ih fun _ => .pure _ _

lemma Function.checkAll_erased (declared : List (Function × Signature)) :
    Check.Erased id (Function.checkAll declared)
      (Function.checkAll (declared.map fun d => (d.1.erase, d.2.erase))) := by
  induction declared with
  | nil => exact .pure id _
  | cons d rest ih => exact .bind (d.1.check_erased d.2) fun _ => .bind ih fun _ => .pure id _

lemma Module.check_erased (m : Module) : Check.Erased id m.check m.erase.check := by
  refine .bind (Item.declareAll_erased m.items) fun declared => ?_
  exact .bind (Function.checkAll_erased declared) fun _ => .bind (.report _) fun _ => .pure id _

lemma Module.analyze_erased (m : Module) : Erased id m.analyze m.erase.analyze := by
  have checked : m.erase.check .initial = Check.eraseResult id (m.check .initial) :=
    m.check_erased .initial
  unfold Module.analyze
  rw [checked]
  cases m.check .initial with
  | ok typed s => exact .ok id _
  | error fault s => exact .error id _

/-- Compiling an erased module gives the program of the module or its fault, erased. -/
theorem Module.compile_erased (m : Module) (options : Options) :
    Erased id (m.compile options) (m.erase.compile options) :=
  .bind m.analyze_erased fun _ => .ok id _

/-- Modules that differ in places only give the same program, or the same fault up to places. -/
theorem Module.compile_of_erase_eq {m n : Module} (same : m.erase = n.erase) (options : Options) :
    (m.compile options).mapError Fault.erase = (n.compile options).mapError Fault.erase := by
  have erased (k : Module) :
      k.erase.compile options = (k.compile options).mapError Fault.erase := by
    rw [k.compile_erased options]
    cases k.compile options <;> rfl
  rw [← erased m, ← erased n, same]

end Source

end MiniC
