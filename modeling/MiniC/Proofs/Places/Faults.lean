import MiniC.Proofs.Check.Ends
import MiniC.Proofs.Check.Module

/-!
# Where faults stand

The fault of a module that is not accepted stands where one of its nodes starts. A redefinition has
two places: those of the first and the second declaration of a name in one frame, which holds the
functions of the module, the parameters and variables of a function, or the variables of a nested
block. It is reported at the first declaration that repeats an earlier one of its frame.

The frame that a scope has open lists the declarations so far (`Scope.Lists`). A declaration adds
itself to the list or is the first to repeat a name in it; this one step is what every redefinition
comes from.
-/

namespace MiniC

namespace Source

/-! ## The nodes of a module -/

mutual

/-- The spans of an expression and all its parts. -/
def Expr.spans : Expr → List Span
  | .const _ span | .ident _ span => [span]
  | .binary _ left right span => span :: (left.spans ++ right.spans)
  | .assign _ target value span => span :: (target.spans ++ value.spans)
  | .call callee args span => span :: (callee.spans ++ Expr.allSpans args)

def Expr.allSpans : List Expr → List Span
  | [] => []
  | e :: rest => e.spans ++ Expr.allSpans rest

end

def Expr.optionalSpans : Option Expr → List Span
  | none => []
  | some e => e.spans

def Declarator.spans (d : Declarator) : List Span :=
  d.span :: Expr.optionalSpans d.init

def Decl.spans (d : Decl) : List Span :=
  d.span :: d.declarators.flatMap Declarator.spans

mutual

def Stmt.spans : Stmt → List Span
  | .expr value span => span :: value.spans
  | .ret value span => span :: Expr.optionalSpans value
  | .block body span => span :: body.spans

def Stmt.allSpans : List Stmt → List Span
  | [] => []
  | stmt :: rest => stmt.spans ++ Stmt.allSpans rest

def Block.spans : Block → List Span
  | ⟨decls, stmts, span⟩ => span :: (decls.flatMap Decl.spans ++ Stmt.allSpans stmts)

end

def Function.spans (f : Function) : List Span :=
  f.span :: (f.params.map (·.span) ++ f.body.spans)

def Item.spans : Item → List Span
  | .function f => f.spans
  | .declaration d => d.spans

/-- The spans of all nodes of a module. -/
def Module.spans (m : Module) : List Span :=
  m.span :: m.items.flatMap Item.spans

/-! ## The declarations of a module, frame by frame -/

end Source

/-- Declared names with the places of their declarations, in the order of the source. -/
abbrev Declared := List (String × Location)

def Signature.Param.naming (p : Signature.Param) : String × Location := (p.name, p.place)

namespace Source

def Declarator.naming (d : Declarator) : String × Location := (d.name, d.span.start)

def declaredIn (decls : List Decl) : Declared := (declaratorsOf decls).map Declarator.naming

mutual

/-- The frames of the blocks in a statement. -/
def Stmt.frames : Stmt → List Declared
  | .block body _ => body.frames
  | .expr _ _ | .ret _ _ => []

def Stmt.allFrames : List Stmt → List Declared
  | [] => []
  | stmt :: rest => stmt.frames ++ Stmt.allFrames rest

def Block.frames : Block → List Declared
  | ⟨decls, stmts, _⟩ => declaredIn decls :: Stmt.allFrames stmts

end

/-- An unnamed parameter declares nothing. -/
def Param.naming? (p : Param) : Option (String × Location) :=
  p.name.map fun name => (name, p.span.start)

/-- The parameters and the variables of the body share a frame. -/
def Function.frame (f : Function) : Declared :=
  f.params.filterMap Param.naming? ++ declaredIn f.body.decls

def Item.frames : Item → List Declared
  | .function f => f.frame :: Stmt.allFrames f.body.stmts
  | .declaration _ => []

def Item.naming? : Item → Option (String × Location)
  | .function f => some (f.name, f.span.start)
  | .declaration _ => none

/-- The functions of a module share a frame; every other frame is inside one of them. -/
def Module.frames (m : Module) : List Declared :=
  m.items.filterMap Item.naming? :: m.items.flatMap Item.frames

end Source

/-- The two places are those of the first and the second declaration of the name, and the second is
the first declaration that repeats an earlier one. -/
def Declared.Redefines (frame : Declared) (name : String) (previous place : Location) : Prop :=
  ∃ i j, i < j ∧ frame[i]? = some (name, previous) ∧ frame[j]? = some (name, place) ∧
    ((frame.take j).map Prod.fst).Nodup

/-- The fault stands where one of the spans starts; if it is a redefinition, it is one in one of the
frames. -/
def Fault.Explained (fault : Fault) (spans : List Span) (frames : List Declared) : Prop :=
  (∃ span ∈ spans, fault.place = span.start) ∧
    ∀ name previous place, fault = .redefined name previous place →
      ∃ frame ∈ frames, frame.Redefines name previous place

/-- The place of the earlier definition. -/
def Fault.previous? : Fault → Option Location
  | .redefined _ previous _ => some previous
  | _ => none

lemma Fault.Explained.at_node {fault : Fault} {spans : List Span} {frames : List Declared}
    {span : Span} (member : span ∈ spans) (place : fault.place = span.start)
    (alone : fault.previous? = none) : fault.Explained spans frames := by
  refine ⟨⟨span, member, place⟩, ?_⟩
  rintro _ _ _ rfl
  cases alone

/-! ## One declaration -/

namespace Scope

variable {scope : Scope} {declared : Declared}

/-- The innermost frame has these declarations, of pairwise different names. -/
structure Lists (scope : Scope) (declared : Declared) : Prop where
  bindings : scope.frame.reverse.map (fun b => (b.name, b.place)) = declared
  distinct : (declared.map Prod.fst).Nodup

lemma lists_nil (empty : scope.frame = []) : scope.Lists [] :=
  ⟨by simp [empty], List.nodup_nil⟩

lemma Lists.notMem_iff (h : scope.Lists declared) {name : String} :
    scope.local? name = none ↔ name ∉ declared.map Prod.fst := by
  rw [← h.bindings]
  simp [local?, Frame.find?]

lemma Lists.mem (h : scope.Lists declared) {name : String} {previous : Binding}
    (found : scope.local? name = some previous) : (name, previous.place) ∈ declared := by
  have same : previous.name = name := by simpa using List.find?_some found
  rw [← h.bindings, ← same]
  exact List.mem_map_of_mem (List.mem_reverse.mpr (List.mem_of_find?_eq_some found))

lemma Lists.bind (h : scope.Lists declared) {b : Binding} (new : scope.local? b.name = none) :
    (scope.bind b).Lists (declared ++ [(b.name, b.place)]) := by
  refine ⟨by simp [Scope.bind, ← h.bindings], ?_⟩
  rw [List.map_append, List.nodup_append]
  refine ⟨h.distinct, by simp, ?_⟩
  rintro _ member _ same rfl
  cases List.mem_singleton.mp same
  exact h.notMem_iff.mp new member

end Scope

lemma Declared.redefines_of_mem {before after : Declared} {name : String}
    {previous place : Location} (member : (name, previous) ∈ before)
    (distinct : (before.map Prod.fst).Nodup) :
    Redefines (before ++ (name, place) :: after) name previous place := by
  obtain ⟨i, bound, found⟩ := List.mem_iff_getElem.mp member
  refine ⟨i, before.length, bound, ?_, ?_, ?_⟩
  · rw [List.getElem?_append_left bound, List.getElem?_eq_getElem bound, found]
  · simp
  · simpa using distinct

namespace Source

open Check (Ends State)

variable {spans : List Span} {frames : List Declared}

/-! ## Expressions -/

section Leaves

variable {span : Span}

lemma expectType_fails (expected found : Ty) (member : span ∈ spans) :
    FailsWith (expectType expected found span.start) (·.Explained spans frames) := by
  unfold expectType
  split
  · exact .ok ()
  · exact .error (.at_node member rfl rfl)

lemma literal_fails (text : String) (member : span ∈ spans) :
    FailsWith (literal text span.start) (·.Explained spans frames) := by
  unfold literal
  split
  · exact .error (.at_node member rfl rfl)
  · split
    · exact .ok _
    · exact .error (.at_node member rfl rfl)

lemma resolve_fails (scope : Scope) (name : String) (member : span ∈ spans) :
    FailsWith (scope.resolve name span.start) (·.Explained spans frames) := by
  unfold Scope.resolve
  split
  · exact .ok _
  · exact .error (.at_node member rfl rfl)

end Leaves

lemma Expr.span_mem_spans (e : Expr) : e.span ∈ e.spans := by
  cases e <;> simp [Expr.span, Expr.spans]

mutual

theorem Expr.check_fails (scope : Scope) : ∀ (e : Expr), e.spans ⊆ spans →
    FailsWith (e.check scope) (·.Explained spans frames)
  | .const text span, inside => by
    rw [Expr.check]
    exact .bind (literal_fails text (inside (by simp [Expr.spans]))) fun _ => .ok _
  | .ident name span, inside => by
    rw [Expr.check]
    exact .bind (resolve_fails scope name (inside (by simp [Expr.spans]))) fun _ => .ok _
  | .binary op left right span, inside => by
    simp only [Expr.spans, List.cons_subset, List.append_subset] at inside
    obtain ⟨here, in_left, in_right⟩ := inside
    rw [Expr.check]
    refine .refuse (.at_node here rfl rfl) ?_
    exact .bind (Expr.check_fails scope left in_left) fun _ =>
      .bind (Expr.check_fails scope right in_right) fun _ =>
      .bind (expectType_fails _ _ here) fun _ => .ok _
  | .assign op target value span, inside => by
    simp only [Expr.spans, List.cons_subset, List.append_subset] at inside
    obtain ⟨here, in_target, in_value⟩ := inside
    rw [Expr.check]
    refine .bind (Expr.check_fails scope target in_target) fun lhs => ?_
    refine .refuse (.at_node (in_target target.span_mem_spans) rfl rfl) ?_
    refine .refuse (.at_node here rfl rfl) ?_
    exact .bind (Expr.check_fails scope value in_value) fun _ =>
      .bind (expectType_fails _ _ (in_value value.span_mem_spans)) fun _ => .ok _
  | .call callee args span, inside => by
    simp only [Expr.spans, List.cons_subset, List.append_subset] at inside
    obtain ⟨here, in_callee, in_args⟩ := inside
    rw [Expr.check]
    refine .bind (Expr.check_fails scope callee in_callee) fun function => ?_
    split
    · exact .error (.at_node (in_callee callee.span_mem_spans) rfl rfl)
    · refine .refuse (.at_node here rfl rfl) ?_
      exact .bind (Expr.checkArgs_fails scope _ args in_args) fun _ => .ok _

theorem Expr.checkArgs_fails (scope : Scope) : ∀ (params : List Ty) (args : List Expr),
    Expr.allSpans args ⊆ spans →
    FailsWith (Expr.checkArgs scope params args) (·.Explained spans frames)
  | param :: params, arg :: args, inside => by
    simp only [Expr.allSpans, List.append_subset] at inside
    obtain ⟨in_arg, in_args⟩ := inside
    rw [Expr.checkArgs]
    exact .bind (Expr.check_fails scope arg in_arg) fun _ =>
      .bind (expectType_fails _ _ (in_arg arg.span_mem_spans)) fun _ =>
      .bind (Expr.checkArgs_fails scope params args in_args) fun _ => .ok _
  | [], _, _ => by
    unfold Expr.checkArgs
    exact .ok _
  | _ :: _, [], _ => by
    unfold Expr.checkArgs
    exact .ok _

end

/-! ## Declarations -/

lemma checkInit_fails (init : Expr) (typed : Typed.Expr) (ty : Ty) (member : init.span ∈ spans) :
    FailsWith (checkInit init typed ty) (·.Explained spans frames) := by
  unfold checkInit
  split
  · exact .error (.at_node member rfl rfl)
  · refine .bind (expectType_fails _ _ member) fun _ => ?_
    split
    · exact .ok ()
    · exact .error (.at_node member rfl rfl)

lemma Declarator.checkValue_fails (d : Declarator) (ty : Ty) (scope : Scope)
    (inside : Expr.optionalSpans d.init ⊆ spans) :
    FailsWith (d.checkValue ty scope) (·.Explained spans frames) := by
  unfold Declarator.checkValue
  cases init : d.init with
  | none => exact .ok _
  | some e =>
    rw [init] at inside
    exact .bind (Expr.check_fails scope e inside) fun typed =>
      .bind (checkInit_fails e typed ty (inside e.span_mem_spans)) fun _ => .ok _

/-- A declaration adds itself to the frame or repeats one of it. -/
lemma declare_bind_ends {α : Type} {s : State} {earlier later : Declared} {name : String} {ty : Ty}
    {place : Location} {f : String → Check α} {after : α → State → Prop}
    (lists : s.scope.Lists earlier) (stands : ∃ span ∈ spans, place = span.start)
    (frame : earlier ++ (name, place) :: later ∈ frames)
    (next : ∀ emitted t, t.scope.Lists (earlier ++ [(name, place)]) →
      Ends (f emitted) t after (·.Explained spans frames)) :
    Ends (Check.declare name ty place >>= f) s after (·.Explained spans frames) := by
  -- The names so far are distinct, so that a binding of this name is the only one.
  refine .declare_bind (fun new emitted => next emitted _ ?_) fun previous found => ?_
  · rw [State.declared_scope]
    exact lists.bind (b := s.fresh name ty place) new
  · refine ⟨stands, ?_⟩
    rintro _ _ _ ⟨⟩
    exact ⟨_, frame, Declared.redefines_of_mem (lists.mem found) lists.distinct⟩

lemma Declarator.checkAll_ends (ty : Ty) {ds : List Declarator} {s : State}
    {earlier later : Declared} (lists : s.scope.Lists earlier)
    (inside : ds.flatMap Declarator.spans ⊆ spans)
    (frame : earlier ++ ds.map Declarator.naming ++ later ∈ frames) :
    Ends (Declarator.checkAll ty ds) s
      (fun _ t => t.scope.Lists (earlier ++ ds.map Declarator.naming))
      (·.Explained spans frames) := by
  induction ds generalizing s earlier with
  | nil => exact .pure (by simpa using lists)
  | cons d rest ih =>
    simp only [List.flatMap_cons, List.append_subset, Declarator.spans, List.cons_subset] at inside
    obtain ⟨⟨here, in_init⟩, in_rest⟩ := inside
    simp only [List.map_cons, Declarator.naming, List.append_assoc, List.cons_append] at frame ⊢
    rw [Declarator.checkAll, Declarator.check]
    simp only [bind_assoc, pure_bind]
    refine declare_bind_ends lists ⟨_, here, rfl⟩ frame fun emitted t listed => ?_
    refine .scope_bind (.ofExcept_bind (d.checkValue_fails ty _ in_init) fun init _ => ?_)
    refine .report_bind (.bind (ih (by simpa using listed) in_rest (by simpa using frame)) ?_)
    intro others u all
    exact .pure (by simpa using all)

lemma Decl.checkAll_ends {decls : List Decl} {s : State} {earlier later : Declared}
    (lists : s.scope.Lists earlier) (inside : decls.flatMap Decl.spans ⊆ spans)
    (frame : earlier ++ declaredIn decls ++ later ∈ frames) :
    Ends (Decl.checkAll decls) s (fun _ t => t.scope.Lists (earlier ++ declaredIn decls))
      (·.Explained spans frames) := by
  induction decls generalizing s earlier with
  | nil => exact .pure (by simpa [declaredIn, declaratorsOf] using lists)
  | cons d rest ih =>
    simp only [List.flatMap_cons, List.append_subset, Decl.spans, List.cons_subset] at inside
    obtain ⟨⟨here, in_declarators⟩, in_rest⟩ := inside
    have split : declaredIn (d :: rest) =
        d.declarators.map Declarator.naming ++ declaredIn rest := by
      simp [declaredIn, declaratorsOf]
    rw [split] at frame ⊢
    have first : Ends d.check s (fun _ t => t.scope.Lists
        (earlier ++ d.declarators.map Declarator.naming)) (·.Explained spans frames) := by
      unfold Decl.check
      split
      · exact Declarator.checkAll_ends .int lists in_declarators (by simpa using frame)
      · exact .throw (.at_node here rfl rfl)
    rw [Decl.checkAll]
    refine .bind first fun _ t listed => ?_
    refine .bind (ih listed in_rest (by simpa using frame)) fun _ u all => ?_
    exact .pure (by simpa using all)

/-! ## Statements and blocks -/

lemma checkReturn_fails (value : Option Expr) {span : Span} (scope : Scope) (here : span ∈ spans)
    (inside : Expr.optionalSpans value ⊆ spans) :
    FailsWith (checkReturn value span.start scope) (·.Explained spans frames) := by
  unfold checkReturn
  split
  · exact .error (.at_node here rfl rfl)
  · exact .error (.at_node here rfl rfl)
  · next result e _ =>
    exact .bind (Expr.check_fails scope e inside) fun _ =>
      .bind (expectType_fails _ _ (inside e.span_mem_spans)) fun _ => .ok _

lemma Block.frames_eq (block : Block) :
    block.frames = declaredIn block.decls :: Stmt.allFrames block.stmts := by
  cases block
  rw [Block.frames]

mutual

theorem Stmt.check_ends : ∀ (stmt : Stmt) (s : State), stmt.spans ⊆ spans →
    stmt.frames ⊆ frames → Ends stmt.check s (fun _ _ => True) (·.Explained spans frames)
  | .expr value span, s, inside, _ => by
    simp only [Stmt.spans, List.cons_subset] at inside
    rw [Stmt.check]
    exact .scope_bind (.ofExcept_bind (Expr.check_fails _ value inside.2) fun _ _ => .pure trivial)
  | .ret value span, s, inside, _ => by
    simp only [Stmt.spans, List.cons_subset] at inside
    obtain ⟨here, in_value⟩ := inside
    rw [Stmt.check]
    exact .scope_bind (.ofExcept_bind (checkReturn_fails value _ here in_value) fun _ _ =>
      .pure trivial)
  | .block body span, s, inside, framed => by
    simp only [Stmt.spans, List.cons_subset] at inside
    rw [Stmt.frames, body.frames_eq, List.cons_subset] at framed
    have checked : Ends (Check.inFork body.checkHere) s (fun _ _ => True)
        (·.Explained spans frames) :=
      .inFork (Block.checkHere_ends body _ [] (Scope.lists_nil rfl) inside.2 framed.1 framed.2)
    rw [Stmt.check]
    exact .bind checked fun _ _ _ => .pure trivial

theorem Stmt.checkAll_ends : ∀ (stmts : List Stmt) (s : State), Stmt.allSpans stmts ⊆ spans →
    Stmt.allFrames stmts ⊆ frames →
    Ends (Stmt.checkAll stmts) s (fun _ _ => True) (·.Explained spans frames)
  | [], s, _, _ => by
    rw [Stmt.checkAll]
    exact .pure trivial
  | stmt :: rest, s, inside, framed => by
    simp only [Stmt.allSpans, Stmt.allFrames, List.append_subset] at inside framed
    rw [Stmt.checkAll]
    exact .bind (Stmt.check_ends stmt s inside.1 framed.1) fun _ t _ =>
      .bind (Stmt.checkAll_ends rest t inside.2 framed.2) fun _ _ _ => .pure trivial

/-- The frame of a block that is checked in the current scope starts with what is declared there. -/
theorem Block.checkHere_ends : ∀ (block : Block) (s : State) (earlier : Declared),
    s.scope.Lists earlier → block.spans ⊆ spans → earlier ++ declaredIn block.decls ∈ frames →
    Stmt.allFrames block.stmts ⊆ frames →
    Ends block.checkHere s (fun _ _ => True) (·.Explained spans frames)
  | ⟨decls, stmts, span⟩, s, earlier, lists, inside, frame, framed => by
    simp only [Block.spans, List.cons_subset, List.append_subset] at inside
    obtain ⟨-, in_decls, in_stmts⟩ := inside
    rw [Block.checkHere]
    rw [← List.append_nil (_ ++ _)] at frame
    exact .bind (Decl.checkAll_ends lists in_decls frame) fun _ t _ =>
      .bind (Stmt.checkAll_ends stmts t in_stmts framed) fun _ _ _ => .pure trivial

end

/-! ## Functions -/

lemma Param.resolve_fails {p : Param} (member : p.span ∈ spans) :
    FailsWith p.resolve (·.Explained spans frames) := by
  unfold Param.resolve
  split
  · exact .error (.at_node member rfl rfl)
  · exact .ok _
  · exact .error (.at_node member rfl rfl)

lemma Param.resolveAll_fails {params : List Param} (inside : params.map (·.span) ⊆ spans) :
    FailsWith (Param.resolveAll params) (·.Explained spans frames) := by
  induction params with
  | nil => exact .ok _
  | cons p rest ih =>
    rw [List.map_cons, List.cons_subset] at inside
    rw [Param.resolveAll]
    exact .bind (Param.resolve_fails inside.1) fun _ => .bind (ih inside.2) fun _ => .ok _

lemma Function.signature_fails {f : Function} (inside : f.spans ⊆ spans) :
    FailsWith f.signature (·.Explained spans frames) := by
  simp only [Function.spans, List.cons_subset, List.append_subset] at inside
  obtain ⟨here, in_params, -⟩ := inside
  have unusable : FailsWith (Function.signature.unusable f) (·.Explained spans frames) :=
    .error (.at_node here rfl rfl)
  unfold Function.signature
  split
  · split
    · split
      · exact .ok _
      · exact .bind (Param.resolveAll_fails in_params) fun _ => .ok _
    · exact unusable
  · exact unusable

lemma Param.resolveAll_namings {params : List Param} {resolved : List Signature.Param}
    (h : Param.resolveAll params = .ok resolved) :
    resolved.map Signature.Param.naming = params.filterMap Param.naming? := by
  induction params generalizing resolved with
  | nil =>
    cases h
    rfl
  | cons p rest ih =>
    simp only [Param.resolveAll, except_bind_ok_iff, Param.resolve_ok_iff] at h
    obtain ⟨_, ⟨name, named, -, rfl⟩, others, hrest, made⟩ := h
    cases made
    simp [Signature.Param.naming, Param.naming?, named, ih hrest]

lemma Function.signature_namings {f : Function} {signature : Signature}
    (h : f.signature = .ok signature) :
    signature.params.map Signature.Param.naming = f.params.filterMap Param.naming? := by
  unfold Function.signature at h
  split at h
  · split at h
    · split at h
      · next void =>
        obtain ⟨p, single, unnamed, _⟩ := Param.isVoidList_iff.mp void
        cases h
        simp [single, Param.naming?, unnamed]
      · obtain ⟨params, resolved, made⟩ := except_bind_ok_iff.mp h
        cases made
        exact Param.resolveAll_namings resolved
    · cases h
  · cases h

lemma declareParams_ends {params : List Signature.Param} {s : State} {earlier later : Declared}
    (lists : s.scope.Lists earlier) (stand : ∀ p ∈ params, ∃ span ∈ spans, p.place = span.start)
    (frame : earlier ++ params.map Signature.Param.naming ++ later ∈ frames) :
    Ends (declareParams params) s
      (fun _ t => t.scope.Lists (earlier ++ params.map Signature.Param.naming))
      (·.Explained spans frames) := by
  induction params generalizing s earlier with
  | nil => exact .pure (by simpa using lists)
  | cons p rest ih =>
    obtain ⟨here, others⟩ := List.forall_mem_cons.mp stand
    simp only [List.map_cons, Signature.Param.naming, List.append_assoc,
      List.cons_append] at frame ⊢
    rw [declareParams]
    refine declare_bind_ends lists here frame fun emitted t listed => ?_
    refine .bind (ih listed others (by simpa using frame)) fun _ u all => ?_
    exact .pure (by simpa using all)

/-- The parameters and the body of a function are checked in one frame. -/
lemma Function.check_ends {f : Function} {signature : Signature} (s : State)
    (stated : f.signature = .ok signature) (inside : f.spans ⊆ spans)
    (framed : (Item.function f).frames ⊆ frames) :
    Ends (f.check signature) s (fun _ _ => True) (·.Explained spans frames) := by
  have namings := Function.signature_namings stated
  simp only [Function.spans, List.cons_subset, List.append_subset] at inside
  obtain ⟨-, in_params, in_body⟩ := inside
  simp only [Item.frames, Function.frame, ← namings, List.cons_subset] at framed
  have stand : ∀ p ∈ signature.params, ∃ span ∈ spans, p.place = span.start := by
    intro p member
    have listed : p.naming ∈ f.params.filterMap Param.naming? :=
      namings ▸ List.mem_map_of_mem member
    obtain ⟨q, written, same⟩ := List.mem_filterMap.mp listed
    obtain ⟨name, -, naming⟩ := Option.map_eq_some_iff.mp same
    exact ⟨q.span, in_params (List.mem_map_of_mem written), (congrArg Prod.snd naming).symm⟩
  rw [Function.check]
  refine .report_bind (.inFunction ?_)
  refine .bind (declareParams_ends (Scope.lists_nil rfl) stand framed.1) fun _ t lists => ?_
  exact .bind (Block.checkHere_ends f.body t _ lists in_body framed.1 framed.2) fun _ _ _ =>
    .pure trivial

lemma Function.checkAll_ends {declared : List (Function × Signature)} (s : State)
    (stated : ∀ d ∈ declared, d.1.signature = .ok d.2)
    (inside : ∀ d ∈ declared, d.1.spans ⊆ spans)
    (framed : ∀ d ∈ declared, (Item.function d.1).frames ⊆ frames) :
    Ends (Function.checkAll declared) s (fun _ _ => True) (·.Explained spans frames) := by
  induction declared generalizing s with
  | nil => exact .pure trivial
  | cons d rest ih =>
    rw [List.forall_mem_cons] at stated inside framed
    rw [Function.checkAll]
    exact .bind (Function.check_ends s stated.1 inside.1 framed.1) fun _ t _ =>
      .bind (ih t stated.2 inside.2 framed.2) fun _ _ _ => .pure trivial

/-! ## Modules -/

lemma Item.declareAll_ends {items : List Item} {s : State} {earlier : Declared}
    (lists : s.scope.Lists earlier) (inside : items.flatMap Item.spans ⊆ spans)
    (frame : earlier ++ items.filterMap Item.naming? ∈ frames) :
    Ends (Item.declareAll items) s (fun _ _ => True) (·.Explained spans frames) := by
  induction items generalizing s earlier with
  | nil => exact .pure trivial
  | cons item rest ih =>
    rw [List.flatMap_cons, List.append_subset] at inside
    cases item with
    | declaration d =>
      have here : d.span ∈ spans := inside.1 (by simp [Item.spans, Decl.spans])
      rw [Item.declareAll]
      exact .throw (.at_node here rfl rfl)
    | function f =>
      have here : f.span ∈ spans := inside.1 (by simp [Item.spans, Function.spans])
      simp only [List.filterMap_cons, Item.naming?] at frame
      rw [Item.declareAll]
      refine .ofExcept_bind (Function.signature_fails inside.1) fun signature _ => ?_
      refine declare_bind_ends lists ⟨_, here, rfl⟩ frame fun emitted t listed => ?_
      exact .bind (ih listed inside.2 (by simpa using frame)) fun _ _ _ => .pure trivial

lemma Module.check_ends (m : Module) {s : State} (empty : s.scope.frame = []) :
    Ends m.check s (fun _ _ => True) (·.Explained m.spans m.frames) := by
  have in_items : m.items.flatMap Item.spans ⊆ m.spans := List.subset_cons_self _ _
  have in_frames : m.items.flatMap Item.frames ⊆ m.frames := List.subset_cons_self _ _
  have functions : [] ++ m.items.filterMap Item.naming? ∈ m.frames := List.mem_cons_self
  have declares := Item.declareAll_ends (Scope.lists_nil empty) in_items functions
  rw [Module.check]
  refine .bind declares.ran fun declared t run => ?_
  -- All signatures are good by now: the parameters that are declared are those of the source.
  obtain ⟨items, stated, -⟩ := Item.declareAll_declares run.1
  have listed : ∀ d ∈ declared, Item.function d.1 ∈ m.items := by
    intro d member
    rw [items]
    exact List.mem_map_of_mem member
  have checks := Function.checkAll_ends t stated
    (fun d member _ part => in_items (List.mem_flatMap.mpr ⟨_, listed d member, part⟩))
    (fun d member _ part => in_frames (List.mem_flatMap.mpr ⟨_, listed d member, part⟩))
  exact .bind checks fun _ _ _ => .report_bind (.pure trivial)

/-- A module that is not accepted is told where: the fault stands at one of its nodes, and a
redefinition at the two declarations of one frame that it is about. -/
theorem Module.analyze_fault_explained (m : Module) (fault : Fault)
    (failed : m.analyze = .error fault) : fault.Explained m.spans m.frames := by
  have ends := m.check_ends (s := .initial) rfl
  unfold Ends at ends
  unfold Module.analyze at failed
  split at failed
  · cases failed
  · next run =>
    cases failed
    rwa [run] at ends

/-- `int f(int a, int b) { int c = 1, b = 2, b; { int a; } return a; }`: the inner `a` is no
repetition, and of the three declarations of `b` the second is the one that is told. -/
def Module.thrice : Module :=
  let span (line column : UInt32) : Span := .point (.inInput line column)
  let c : Declarator := ⟨"c", some (.const "1" (span 2 11)), span 2 7⟩
  let b : Declarator := ⟨"b", some (.const "2" (span 2 18)), span 2 14⟩
  let inner : Block := ⟨[⟨[.int], [⟨"a", none, span 3 9⟩], span 3 5⟩], [], span 3 3⟩
  let body : Block := ⟨[⟨[.int], [c, b, ⟨"b", none, span 2 21⟩], span 2 3⟩],
    [.block inner (span 3 3), .ret (some (.ident "a" (span 4 10))) (span 4 3)], span 1 21⟩
  ⟨[.function ⟨"f", [.int], [⟨some "a", [.int], span 1 7⟩, ⟨some "b", [.int], span 1 14⟩], body,
    span 1 1⟩], span 1 1⟩

theorem Module.thrice_told_at_second :
    Module.thrice.analyze = .error (.redefined "b" (.inInput 1 14) (.inInput 2 14)) ∧
      ∃ frame ∈ Module.thrice.frames,
        frame.Redefines "b" (.inInput 1 14) (.inInput 2 14) := by
  have failed : Module.thrice.analyze =
      .error (.redefined "b" (.inInput 1 14) (.inInput 2 14)) :=
    (except_map_error_iff (f := fun _ => ())).mp (by decide +kernel)
  exact ⟨failed, (Module.analyze_fault_explained _ _ failed).2 _ _ _ rfl⟩

end Source

end MiniC
