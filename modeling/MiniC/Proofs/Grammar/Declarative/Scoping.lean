import MiniC.Proofs.Grammar.Declarative.Lowered

/-!
# Lowering keeps the sequential meaning

Lowering opens a block for each run of declarations that follows a statement. The nested frames of
these blocks give every name what the one list of declarations in sight gives it, so the lowered
module is well formed exactly when the tree is accepted from left to right, and its identifiers
stand for the same declarations.
-/

namespace MiniC

open Source

lemma forall₂_trans {α β γ : Type} {R : α → β → Prop} {S : β → γ → Prop} {T : α → γ → Prop}
    {as : List α} {bs : List β} {cs : List γ} (first : List.Forall₂ R as bs)
    (second : List.Forall₂ S bs cs) (both : ∀ a b c, R a b → S b c → T a c) :
    List.Forall₂ T as cs := by
  induction first generalizing cs with
  | nil =>
    cases second
    exact .nil
  | cons here _ ih =>
    cases second with
    | cons there others => exact .cons (both _ _ _ here there) (ih others)

/-! ## Frames and what is in sight -/

mutual

theorem Source.HasType.congr {frames other : Frames Ty}
    (same : ∀ name, frames.nearest name = other.nearest name) :
    ∀ {e : Expr} {ty : Ty}, HasType frames e ty → HasType other e ty
  | _, _, .const numeral small => .const numeral small
  | _, _, .ident bound => .ident (same _ ▸ bound)
  | _, _, .add hl hr => .add (hl.congr same) (hr.congr same)
  | _, _, .assign bound hv => .assign (same _ ▸ bound) (hv.congr same)
  | _, _, .call hc has => .call (hc.congr same) (has.congr same)

theorem Source.HaveTypes.congr {frames other : Frames Ty}
    (same : ∀ name, frames.nearest name = other.nearest name) :
    ∀ {es : List Expr} {tys : List Ty}, HaveTypes frames es tys → HaveTypes other es tys
  | _, _, .nil => .nil
  | _, _, .cons first others => .cons (first.congr same) (others.congr same)

end

lemma siteFrame_append (next : Nat) (first second : List String) :
    siteFrame next (first ++ second) =
      siteFrame (next + first.length) second ++ siteFrame next first := by
  rw [siteFrame, List.zipIdx_append, List.reverse_append]
  rfl

lemma siteFrame_names (next : Nat) (names : List String) :
    (siteFrame next names).map (·.1) = names.reverse := by
  rw [siteFrame, List.map_reverse, List.zipIdx_map_fst]

/-! ## Identifiers of typed trees -/

namespace Typed

mutual

/-- The identifiers of a typed expression, from left to right. -/
def Expr.occurrences : Expr → List String
  | .int _ _ => []
  | .var name _ => [name]
  | .add left right _ => left.occurrences ++ right.occurrences
  | .assign target value _ => target.occurrences ++ value.occurrences
  | .call callee args _ => callee.occurrences ++ Expr.occurrencesAll args

def Expr.occurrencesAll : List Expr → List String
  | [] => []
  | e :: rest => e.occurrences ++ Expr.occurrencesAll rest

end

mutual

/-- The identifiers of a block, those of initial values included. -/
def Block.occurrences : Block → List String
  | ⟨declarators, stmts⟩ =>
    declarators.flatMap (·.init.occurrences) ++ Stmt.occurrencesAll stmts

def Stmt.occurrencesAll : List Stmt → List String
  | [] => []
  | s :: rest => s.occurrences ++ Stmt.occurrencesAll rest

def Stmt.occurrences : Stmt → List String
  | .expr value => value.occurrences
  | .ret value => value.occurrences
  | .block body => body.occurrences

end

mutual

lemma Expr.idents_emit : ∀ e : Expr, e.emit.idents = e.occurrences
  | .int _ _ => rfl
  | .var _ _ => rfl
  | .add left right _ => by
    rw [Expr.emit, Estree.Expr.idents, Expr.idents_emit left, Expr.idents_emit right]
    rfl
  | .assign target value _ => by
    rw [Expr.emit, Estree.Expr.idents, Expr.idents_emit target, Expr.idents_emit value]
    rfl
  | .call callee args _ => by
    rw [Expr.emit, Estree.Expr.idents, Expr.idents_emit callee, Expr.identsAll_emitAll args]
    rfl

lemma Expr.identsAll_emitAll : ∀ es : List Expr,
    Estree.Expr.identsAll (Expr.emitAll es) = Expr.occurrencesAll es
  | [] => rfl
  | e :: rest => by
    rw [Expr.emitAll, Estree.Expr.identsAll, Expr.idents_emit e, Expr.identsAll_emitAll rest]
    rfl

end

lemma Expr.idents_emitReturned (e : Expr) (result : Ty) :
    (e.emitReturned result).idents = e.occurrences := by
  rw [← Expr.idents_emit]
  unfold Expr.emitReturned coerce
  split
  · rfl
  · split
    · exact List.append_nil _
    · rfl

/-- Variables start with literals. -/
lemma Declarator.occurrences_init {declarators : List Declarator}
    (h : ∀ d ∈ declarators, d.WellTyped) : declarators.flatMap (·.init.occurrences) = [] := by
  refine List.flatMap_eq_nil_iff.mpr ?_
  intro d member
  obtain ⟨n, _, literal⟩ := h d member
  rw [literal]
  rfl

mutual

/-- Emission keeps the identifiers of a well-typed block. -/
lemma Block.identsAll_emitStmts {frames : Frames Ty} (result : Ty) : ∀ block : Block,
    block.WellTyped frames →
      Estree.Stmt.identsAll (block.emitStmts result) = block.occurrences
  | ⟨declarators, stmts⟩, h => by
    rw [Block.emitStmts, Stmt.identsAll_emitAll result stmts h.2, Block.occurrences,
      Declarator.occurrences_init h.1, List.nil_append]

lemma Stmt.identsAll_emitAll {frames : Frames Ty} (result : Ty) : ∀ stmts : List Stmt,
    Stmt.AllWellTyped frames stmts →
      Estree.Stmt.identsAll (Stmt.emitAll result stmts) = Stmt.occurrencesAll stmts
  | [], _ => rfl
  | s :: rest, h => by
    rw [Stmt.emitAll, Estree.Stmt.identsAll, Stmt.idents_emit result s h.1,
      Stmt.identsAll_emitAll result rest h.2]
    rfl

lemma Stmt.idents_emit {frames : Frames Ty} (result : Ty) : ∀ s : Stmt, s.WellTyped frames →
    (s.emit result).idents = s.occurrences
  | .expr value, _ => Expr.idents_emit value
  | .ret value, _ => Expr.idents_emitReturned value result
  | .block ⟨declarators, stmts⟩, h => Block.identsAll_emitStmts result ⟨declarators, stmts⟩ h

end

end Typed

namespace Declarative

/-- Frames give every name the type that it has by what is in sight. -/
def Env.Types (env : Env) (functions : List (String × Ty)) (frames : Frames Ty) : Prop :=
  ∀ name, frames.nearest name = (env.types functions).nearest name

lemma Env.Types.push {env : Env} {functions : List (String × Ty)} {frames : Frames Ty}
    (types : env.Types functions frames) (next : Nat) (names : List String) :
    Env.Types (siteFrame next names ++ env) functions (intFrame names :: frames) := by
  intro name
  rw [nearest_intFrame, types name, Env.types, Env.types, nearest_intFrame, nearest_intFrame,
    List.map_append, siteFrame_names]
  by_cases declared : name ∈ names
  · simp [declared]
  · simp only [declared, if_false, List.mem_append, List.mem_reverse, false_or]

/-! ## What is accepted -/

section Accepted

variable {functions : List (String × Ty)}

/-- A declaration in front of a list that is accepted as a block with declarations. -/
lemma allAccepted_decl_iff {type : String} {vars : List VarNode} {place : Option Location}
    {d : Decl} (lowered : lowerDecl type vars place = .ok d) {rest : List StmtNode}
    {decls : List Decl} {env : Env} {run : List String} {next : Nat} {inner : Prop}
    (others : (run ++ vars.map (·.name)).Nodup →
      (StmtNode.AllAccepted functions (siteFrame next (vars.map (·.name)) ++ env)
          (run ++ vars.map (·.name)) (next + (vars.map (·.name)).length) rest ↔
        ((run ++ vars.map (·.name)) ++ declaredNames decls).Nodup ∧ DeclsWellFormed decls ∧
          inner)) :
    StmtNode.AllAccepted functions env run next (.decl type vars place :: rest) ↔
      (run ++ declaredNames (d :: decls)).Nodup ∧ DeclsWellFormed (d :: decls) ∧ inner := by
  rw [declaredNames_cons lowered, declsWellFormed_cons lowered, ← List.append_assoc]
  constructor
  · rintro ⟨⟨int, values, distinct⟩, accepted⟩
    obtain ⟨all, wellFormed, rest⟩ := (others distinct).mp accepted
    exact ⟨all, ⟨⟨int, values⟩, wellFormed⟩, rest⟩
  · rintro ⟨all, ⟨⟨int, values⟩, wellFormed⟩, rest⟩
    have distinct := all.of_append_left
    exact ⟨⟨int, values, distinct⟩, (others distinct).mpr ⟨all, wellFormed, rest⟩⟩

mutual

theorem StmtLowers.accepted_iff : ∀ {node : StmtNode} {s : Stmt}, StmtLowers node s →
    ∀ {env : Env} {run : List String} {next : Nat} {frames : Frames Ty},
      env.Types functions frames →
      (node.Accepted functions env run next ↔ s.WellFormed frames)
  | _, _, .block inner, env, run, next, frames, types =>
    inner.accepted_iff List.nodup_nil (types.push next _)
  | _, _, .expr lowered, env, run, next, frames, types => by
    constructor
    · rintro ⟨e, ty, again, typing⟩
      cases lowered.symm.trans again
      exact ⟨ty, typing.congr fun name => (types name).symm⟩
    · rintro ⟨ty, typing⟩
      exact ⟨_, ty, lowered, typing.congr types⟩
  | _, _, .ret lowered, env, run, next, frames, types => by
    constructor
    · rintro ⟨v, e, same, again, typing⟩
      cases same
      cases lowered.symm.trans again
      exact ⟨_, rfl, typing.congr fun name => (types name).symm⟩
    · rintro ⟨e, same, typing⟩
      cases same
      exact ⟨_, _, rfl, lowered, typing.congr types⟩
  | _, _, .retNone, env, run, next, frames, types => by
    constructor
    · rintro ⟨v, e, same, _⟩
      cases same
    · rintro ⟨e, same, _⟩
      cases same

/-- The frames show the declarations that the list begins with. -/
theorem ListLowers.accepted_iff : ∀ {nodes : List StmtNode} {decls : List Decl}
    {stmts : List Stmt}, ListLowers nodes decls stmts →
    ∀ {env : Env} {run : List String} {next : Nat} {frames : Frames Ty}, run.Nodup →
      Env.Types (siteFrame next (declaredNames decls) ++ env) functions frames →
      (StmtNode.AllAccepted functions env run next nodes ↔
        (run ++ declaredNames decls).Nodup ∧ DeclsWellFormed decls ∧
          Stmt.AllWellFormed frames stmts)
  | _, _, _, .nil, env, run, next, frames, distinct, types => by
    have kept : (run ++ declaredNames []).Nodup := (List.append_nil run).symm ▸ distinct
    exact ⟨fun _ => ⟨kept, ⟨nofun, nofun⟩, trivial⟩, fun _ => trivial⟩
  | _, _, _, .decl lowered others, env, run, next, frames, _, types => by
    refine allAccepted_decl_iff lowered fun distinct => others.accepted_iff distinct ?_
    rwa [declaredNames_cons lowered, siteFrame_append, List.append_assoc] at types
  | _, _, _, .stmt first others, env, run, next, frames, distinct, types => by
    have kept : (run ++ declaredNames []).Nodup := (List.append_nil run).symm ▸ distinct
    have visible : env.Types functions frames := types
    rw [StmtNode.AllAccepted, first.after_eq, first.run_eq, first.accepted_iff visible,
      others.accepted_iff visible, Stmt.AllWellFormed]
    exact ⟨fun accepted => ⟨kept, ⟨nofun, nofun⟩, accepted⟩, fun ⟨_, _, accepted⟩ => accepted⟩

theorem TailLowers.accepted_iff : ∀ {nodes : List StmtNode} {stmts : List Stmt},
    TailLowers nodes stmts → ∀ {env : Env} {next : Nat} {frames : Frames Ty},
      env.Types functions frames →
      (StmtNode.AllAccepted functions env [] next nodes ↔ Stmt.AllWellFormed frames stmts)
  | _, _, .nil, env, next, frames, types => Iff.rfl
  | _, _, .decl lowered others, env, next, frames, types => by
    rw [Stmt.AllWellFormed, Stmt.AllWellFormed, Stmt.WellFormed, and_true]
    -- The block that is opened here gets a frame for its whole run at once, which is what the
    -- environment holds when the run has ended.
    refine allAccepted_decl_iff lowered fun distinct => others.accepted_iff distinct ?_
    rw [← List.append_assoc, ← siteFrame_append, ← declaredNames_cons lowered]
    exact types.push next _
  | _, _, .stmt first others, env, next, frames, types => by
    rw [StmtNode.AllAccepted, first.after_eq, first.run_eq, first.accepted_iff types,
      others.accepted_iff types, Stmt.AllWellFormed]

end

end Accepted

/-! ## What identifiers mean -/

/-- The frames hold what is in sight, all of it declared before the number `next`. -/
structure Env.Sites (env : Env) (next : Nat) (frames : Frames Nat) : Prop where
  nearest : ∀ name, frames.nearest name = env.lookup name
  within : frames.Within next

lemma Env.Sites.mono {env : Env} {next later : Nat} {frames : Frames Nat}
    (sites : env.Sites next frames) (le : next ≤ later) : env.Sites later frames :=
  ⟨sites.nearest, sites.within.mono le⟩

lemma Env.Sites.push {env : Env} {next : Nat} {frames : Frames Nat}
    (sites : env.Sites next frames) (names : List String) :
    Env.Sites (siteFrame next names ++ env) (next + names.length)
      (siteFrame next names :: frames) := by
  refine ⟨?_, sites.within.push names⟩
  intro name
  rw [Frames.nearest_cons, sites.nearest, List.lookup_append]

lemma length_declaredNames (decls : List Decl) :
    (declaredNames decls).length = (declaratorsOf decls).length :=
  List.length_map _

lemma Env.Sites.pushDecls {env : Env} {next : Nat} {frames : Frames Nat}
    (sites : env.Sites next frames) (decls : List Decl) :
    Env.Sites (siteFrame next (declaredNames decls) ++ env) (next + (declaratorsOf decls).length)
      (siteFrame next ((declaratorsOf decls).map (·.name)) :: frames) := by
  rw [← length_declaredNames]
  exact sites.push (declaredNames decls)

lemma Env.Sites.ofSource?_eq {env : Env} {next : Nat} {frames : Frames Nat}
    (sites : env.Sites next frames) (functions : List String) :
    Referent.ofSource? functions frames = Referent.ofSource? functions [env] := by
  funext name
  rw [Referent.ofSource?, Referent.ofSource?, sites.nearest, Frames.nearest_singleton]

/-- Looking names up gives back the first sites and the functions that they are written for. -/
structure Recovers (functions : List String) (names : Nat → String) (count : Nat)
    (look : String → Option Referent) : Prop where
  site : ∀ i < count, look (names i) = some (.site i)
  function : ∀ g ∈ functions, look g = some (.function g)

section Resolves

variable {functions : List String} {names : Nat → String} {count : Nat}
  {look : String → Option Referent}

lemma Recovers.identifier (recovers : Recovers functions names count look) {frames : Frames Nat}
    (within : frames.Within count) {name : String} {r : Referent}
    (means : Referent.ofSource? functions frames name = some r) :
    look (r.identifier names) = some r := by
  rcases Referent.ofSource?_eq_some means with ⟨index, nearest, rfl⟩ | ⟨_, member, rfl⟩
  · exact recovers.site index (within _ (Frames.mem_entries_of_nearest nearest))
  · exact recovers.function name member

mutual

/-- The identifiers of an emitted expression are found to be what those of the node stand for. -/
theorem ExprLowers.resolves (recovers : Recovers functions names count look)
    {frames : Frames Nat} (within : frames.Within count) : ∀ {node : ExprNode} {e : Expr}
    {x : Estree.Expr}, ExprLowers node e → ExprMirror functions names frames e x →
      x.idents.map look = node.idents.map (Referent.ofSource? functions frames)
  | _, _, _, .add hl hr, mirror => by
    cases mirror with
    | add ml mr =>
      rw [Estree.Expr.idents, ExprNode.idents, List.map_append, List.map_append,
        hl.resolves recovers within ml, hr.resolves recovers within mr]
  | _, _, _, .binary hl hr, mirror => by
    cases mirror with
    | add ml mr =>
      rw [Estree.Expr.idents, ExprNode.idents, List.map_append, List.map_append,
        hl.resolves recovers within ml, hr.resolves recovers within mr]
  | _, _, _, .assign hl hr, mirror => by
    cases mirror with
    | assign ml mr =>
      rw [Estree.Expr.idents, ExprNode.idents, List.map_append, List.map_append,
        hl.resolves recovers within ml, hr.resolves recovers within mr]
  | _, _, _, .const, mirror => by
    cases mirror
    rfl
  | _, _, _, .call hc has, mirror => by
    cases mirror with
    | call mc mas =>
      rw [Estree.Expr.idents, ExprNode.idents, List.map_append, List.map_append,
        hc.resolves recovers within mc, has.resolves recovers within mas]
  | _, _, _, .var, mirror => by
    cases mirror with
    | ident means =>
      rw [Estree.Expr.idents, ExprNode.idents, List.map_singleton, List.map_singleton, means,
        recovers.identifier within means]

theorem ExprsLower.resolves (recovers : Recovers functions names count look)
    {frames : Frames Nat} (within : frames.Within count) : ∀ {nodes : List ExprNode}
    {es : List Expr} {xs : List Estree.Expr}, ExprsLower nodes es →
      ExprsMirror functions names frames es xs →
      (Estree.Expr.identsAll xs).map look =
        (ExprNode.identsAll nodes).map (Referent.ofSource? functions frames)
  | _, _, _, .nil, .nil => rfl
  | _, _, _, .cons first others, .cons mfirst mothers => by
    rw [Estree.Expr.identsAll, ExprNode.identsAll, List.map_append, List.map_append,
      first.resolves recovers within mfirst, others.resolves recovers within mothers]

end

/-- The value of an expression or a return, in what is in sight there. -/
lemma ExprNode.resolves (recovers : Recovers functions names count look) {env : Env} {next : Nat}
    {frames : Frames Nat} (sites : env.Sites next frames) (room : next ≤ count)
    {node : ExprNode} {e : Expr} {x : Estree.Expr} (lowered : node.lower = .ok e)
    (mirror : ExprMirror functions names frames e x) :
    x.idents.map look = node.idents.map (Referent.ofSource? functions [env]) := by
  rw [← sites.ofSource?_eq functions]
  exact (ExprNode.lower_ok node lowered).resolves recovers (sites.within.mono room) mirror

/-- A declaration in front of a list. Behind it the numbers go on, and its names are in sight. -/
lemma referentsAll_decl {type : String} {vars : List VarNode} {place : Option Location} {d : Decl}
    (lowered : lowerDecl type vars place = .ok d) {rest : List StmtNode} {decls : List Decl}
    {stmts : List Stmt} {xs : List Estree.Stmt}
    (others : ∀ {env : Env} {next : Nat} {frames : Frames Nat},
      Env.Sites (siteFrame next (declaredNames decls) ++ env)
        (next + (declaratorsOf decls).length) frames →
      next + (declaratorsOf decls).length + (Stmt.declaratorsAll stmts).length ≤ count →
      StmtsMirror functions names frames (next + (declaratorsOf decls).length) stmts xs →
      (Estree.Stmt.identsAll xs).map look = StmtNode.referentsAll functions env next rest)
    {env : Env} {next : Nat} {frames : Frames Nat}
    (sites : Env.Sites (siteFrame next (declaredNames (d :: decls)) ++ env)
      (next + (declaratorsOf (d :: decls)).length) frames)
    (room : next + (declaratorsOf (d :: decls)).length + (Stmt.declaratorsAll stmts).length ≤ count)
    (mirror : StmtsMirror functions names frames (next + (declaratorsOf (d :: decls)).length)
      stmts xs) :
    (Estree.Stmt.identsAll xs).map look =
      StmtNode.referentsAll functions env next (.decl type vars place :: rest) := by
  have width : (declaratorsOf (d :: decls)).length =
      (vars.map (·.name)).length + (declaratorsOf decls).length := by
    rw [← length_declaredNames, ← length_declaredNames, declaredNames_cons lowered,
      List.length_append]
  -- The frame of the block is that of the later declarations in front of that of the first one.
  rw [declaredNames_cons lowered, siteFrame_append, List.append_assoc] at sites
  rw [width, ← Nat.add_assoc] at sites room mirror
  exact others sites room mirror

lemma referentsAll_stmt {node : StmtNode} {s : Stmt} (first : StmtLowers node s)
    {rest : List StmtNode} {env : Env} {next : Nat} {x : Estree.Stmt} {xs : List Estree.Stmt}
    (here : x.idents.map look = node.referents functions env next)
    (later : (Estree.Stmt.identsAll xs).map look =
      StmtNode.referentsAll functions env (next + s.declarators.length) rest) :
    (Estree.Stmt.identsAll (x :: xs)).map look =
      StmtNode.referentsAll functions env next (node :: rest) := by
  rw [Estree.Stmt.identsAll, List.map_append, here, later, StmtNode.referentsAll, first.after_eq,
    ← first.declared, List.length_map]

lemma room_cons {s : Stmt} {rest : List Stmt} {next count : Nat}
    (room : next + (Stmt.declaratorsAll (s :: rest)).length ≤ count) :
    next + s.declarators.length ≤ count ∧
      next + s.declarators.length + (Stmt.declaratorsAll rest).length ≤ count := by
  rw [Stmt.declaratorsAll, List.length_append] at room
  omega

mutual

theorem StmtLowers.resolves (recovers : Recovers functions names count look) :
    ∀ {node : StmtNode} {s : Stmt}, StmtLowers node s →
    ∀ {env : Env} {next : Nat} {frames : Frames Nat} {x : Estree.Stmt}, env.Sites next frames →
      next + s.declarators.length ≤ count → StmtMirror functions names frames next s x →
      x.idents.map look = node.referents functions env next
  | _, _, .block inner, env, next, frames, _, sites, room, .block body => by
    rw [Stmt.declarators, Block.declarators, List.length_append, ← Nat.add_assoc] at room
    exact inner.resolves recovers (sites.pushDecls _) room body
  | _, _, .expr lowered, env, next, frames, _, sites, room, .expr value =>
    ExprNode.resolves recovers sites (Nat.le_of_add_right_le room) lowered value
  | _, _, .ret lowered, env, next, frames, _, sites, room, .ret value returned => by
    have found := ExprNode.resolves recovers sites (Nat.le_of_add_right_le room) lowered value
    rw [← returned.idents_eq] at found
    exact found

/-- The frames hold the declarations that the list begins with. -/
theorem ListLowers.resolves (recovers : Recovers functions names count look) :
    ∀ {nodes : List StmtNode} {decls : List Decl} {stmts : List Stmt},
    ListLowers nodes decls stmts →
    ∀ {env : Env} {next : Nat} {frames : Frames Nat} {xs : List Estree.Stmt},
      Env.Sites (siteFrame next (declaredNames decls) ++ env)
        (next + (declaratorsOf decls).length) frames →
      next + (declaratorsOf decls).length + (Stmt.declaratorsAll stmts).length ≤ count →
      StmtsMirror functions names frames (next + (declaratorsOf decls).length) stmts xs →
      (Estree.Stmt.identsAll xs).map look = StmtNode.referentsAll functions env next nodes
  | _, _, _, .nil, env, next, frames, _, _, _, .nil => rfl
  | _, _, _, .decl lowered others, env, next, frames, _, sites, room, mirror =>
    referentsAll_decl lowered (others.resolves recovers) sites room mirror
  | _, _, _, .stmt first others, env, next, frames, _, sites, room, .cons mfirst mothers => by
    obtain ⟨here, later⟩ := room_cons room
    exact referentsAll_stmt first (first.resolves recovers sites here mfirst)
      (others.resolves recovers (sites.mono (Nat.le_add_right ..)) later mothers)

theorem TailLowers.resolves (recovers : Recovers functions names count look) :
    ∀ {nodes : List StmtNode} {stmts : List Stmt}, TailLowers nodes stmts →
    ∀ {env : Env} {next : Nat} {frames : Frames Nat} {xs : List Estree.Stmt},
      env.Sites next frames → next + (Stmt.declaratorsAll stmts).length ≤ count →
      StmtsMirror functions names frames next stmts xs →
      (Estree.Stmt.identsAll xs).map look = StmtNode.referentsAll functions env next nodes
  | _, _, .nil, env, next, frames, _, _, _, .nil => rfl
  | _, _, .decl lowered others, env, next, frames, _, sites, room, .cons (.block body) .nil => by
    rw [Stmt.declaratorsAll, Stmt.declaratorsAll, List.append_nil, Stmt.declarators,
      Block.declarators, List.length_append, ← Nat.add_assoc] at room
    rw [Estree.Stmt.identsAll, Estree.Stmt.identsAll, List.append_nil]
    exact referentsAll_decl lowered (others.resolves recovers) (sites.pushDecls _) room body
  | _, _, .stmt first others, env, next, frames, _, sites, room, .cons mfirst mothers => by
    obtain ⟨here, later⟩ := room_cons room
    exact referentsAll_stmt first (first.resolves recovers sites here mfirst)
      (others.resolves recovers (sites.mono (Nat.le_add_right ..)) later mothers)

end

end Resolves

/-! ## Functions -/

lemma FunctionNode.lower_ok {f : FunctionNode} {lowered : Function} (h : f.lower = .ok lowered) :
    ∃ decls stmts span, ListLowers f.body decls stmts ∧
      lowered = ⟨f.name, specifiers f.result, f.params.map ParamNode.lower, ⟨decls, stmts, span⟩,
        span⟩ := by
  obtain ⟨body, h, made⟩ := except_bind_ok_iff.mp h
  obtain ⟨⟨decls, stmts⟩, inner, block⟩ := except_bind_ok_iff.mp h
  cases block
  cases made
  exact ⟨decls, stmts, _, StmtNode.lowerList_ok f.body inner, rfl⟩

lemma FunctionNode.lower_name {f : FunctionNode} {lowered : Function} (h : f.lower = .ok lowered) :
    lowered.name = f.name := by
  obtain ⟨_, _, _, _, rfl⟩ := FunctionNode.lower_ok h
  rfl

lemma FunctionNode.lower_paramNames {f : FunctionNode} {lowered : Function}
    (h : f.lower = .ok lowered) : lowered.paramNames = f.paramNames := by
  obtain ⟨_, _, _, _, rfl⟩ := FunctionNode.lower_ok h
  exact List.filterMap_map

lemma FunctionNode.lower_sites {f : FunctionNode} {lowered : Function}
    (h : f.lower = .ok lowered) : lowered.sites = f.sites := by
  rw [Function.sites, FunctionNode.lower_paramNames h, FunctionNode.sites]
  obtain ⟨decls, stmts, span, body, rfl⟩ := FunctionNode.lower_ok h
  rw [Block.declarators, List.map_append, ← declaredNames, body.declared]

lemma FunctionNode.lower_hasParams {f : FunctionNode} {lowered : Function}
    (h : f.lower = .ok lowered) : lowered.HasParams ↔ f.HasParams := by
  obtain ⟨_, _, _, _, rfl⟩ := FunctionNode.lower_ok h
  refine or_congr ?_ List.forall_mem_map
  constructor
  · rintro ⟨p, single, unnamed, void⟩
    obtain ⟨node, params, rfl⟩ := List.map_eq_singleton_iff.mp single
    exact ⟨node, params, unnamed, void⟩
  · rintro ⟨node, params, unnamed, void⟩
    exact ⟨node.lower, List.map_eq_singleton_iff.mpr ⟨node, params, rfl⟩, unnamed, void⟩

/-- A function is well formed exactly when its node is accepted. -/
theorem FunctionNode.accepted_iff {f : FunctionNode} {lowered : Function}
    (h : f.lower = .ok lowered) (functions : List (String × Ty)) :
    lowered.WellFormed [functions] ↔ f.Accepted functions := by
  have params := FunctionNode.lower_hasParams h
  have names := FunctionNode.lower_paramNames h
  obtain ⟨decls, stmts, span, body, rfl⟩ := FunctionNode.lower_ok h
  have outside : Env.Types [] functions [functions] := fun name => by
    rw [Env.types, nearest_intFrame]
    rfl
  -- Parameters and the first declarations have frames of their own but form one run.
  have types := (outside.push 0 f.paramNames).push f.paramNames.length (declaredNames decls)
  rw [List.append_nil] at types
  constructor
  · rintro ⟨result, hasParams, distinct, declsWellFormed, stmtsWellFormed⟩
    rw [names] at distinct stmtsWellFormed
    have distinctParams := distinct.of_append_left
    exact ⟨result, params.mp hasParams, distinctParams,
      (body.accepted_iff distinctParams types).mpr ⟨distinct, declsWellFormed, stmtsWellFormed⟩⟩
  · rintro ⟨result, hasParams, distinctParams, accepted⟩
    obtain ⟨distinct, declsWellFormed, stmtsWellFormed⟩ :=
      (body.accepted_iff distinctParams types).mp accepted
    rw [← names] at distinct stmtsWellFormed
    exact ⟨result, params.mpr hasParams, distinct, declsWellFormed, stmtsWellFormed⟩

/-- A typed function in which every identifier means what it means in the node. Each declaration
of the node has a name of its own, which no other declaration and no function of the module has; the
names stand in the order of the declarations, so that looking an identifier up among them gives the
number of a declaration. -/
structure FunctionNode.Resolves (functions : List String) (f : FunctionNode)
    (typed : Typed.Function) : Prop where
  name : typed.name = f.name
  locals : typed.locals.length = f.sites.length
  distinct : typed.locals.Nodup
  apart : ∀ x ∈ typed.locals, x ∉ functions
  identifiers : typed.body.occurrences.map (Referent.ofEmitted? functions typed.locals) =
    f.referents functions
  bound : none ∉ f.referents functions

/-- The emitted statements of a function are found to mean what its node means. -/
theorem FunctionNode.lower_referents {functions : List String} {names : Nat → String}
    {f : FunctionNode} {lowered : Function} (h : f.lower = .ok lowered) {params : List String}
    {vars : List (String × Estree.Expr)} {stmts : List Estree.Stmt}
    (mirror : FunctionMirror functions names lowered params vars stmts) :
    (Estree.Stmt.identsAll stmts).map (Referent.ofEmitted? functions (params ++ vars.map (·.1))) =
      f.referents functions := by
  have recovers : Recovers functions names lowered.sites.length
      (Referent.ofEmitted? functions (params ++ vars.map (·.1))) :=
    ⟨fun _ => mirror.ofEmitted?_site, fun _ => mirror.ofEmitted?_function⟩
  have paramNames := FunctionNode.lower_paramNames h
  have mirrored := mirror.body
  have room := Nat.le_of_eq lowered.length_sites.symm
  rw [Function.bodyFrames, paramNames] at mirrored
  rw [paramNames] at room
  obtain ⟨decls, _, span, body, rfl⟩ := FunctionNode.lower_ok h
  have outside : Env.Sites [] 0 [] := ⟨fun _ => rfl, nofun⟩
  have sites := (outside.push f.paramNames).pushDecls decls
  rw [Nat.zero_add, List.append_nil] at sites
  exact body.resolves recovers sites room mirrored

lemma FunctionNode.bound_referents {functions : List String} {names : Nat → String}
    {f : FunctionNode} {lowered : Function} (h : f.lower = .ok lowered) {params : List String}
    {vars : List (String × Estree.Expr)} {stmts : List Estree.Stmt}
    (mirror : FunctionMirror functions names lowered params vars stmts) :
    none ∉ f.referents functions := by
  rw [← FunctionNode.lower_referents h mirror, List.mem_map]
  rintro ⟨x, member, missing⟩
  have inside : x ∈ Estree.Stmt.identsAll (Estree.functionBody params vars stmts) := by
    rw [Estree.functionBody, Estree.Stmt.identsAll_append]
    exact List.mem_append_right _ member
  rcases mirror.mem_idents inside with site | function
  · obtain ⟨i, bound, rfl⟩ := mirror.mem_locals_iff.mp site
    cases missing.symm.trans (mirror.ofEmitted?_site bound)
  · cases missing.symm.trans (mirror.ofEmitted?_function function)

theorem FunctionNode.resolves {f : FunctionNode} {lowered : Function} (h : f.lower = .ok lowered)
    {typed : Typed.Function} {frame : List (String × Ty)} (wellTyped : typed.WellTyped frame)
    {functions : List String} (name : typed.name = lowered.name)
    (mirror : FunctionMirror functions (nameAt typed.locals) lowered (typed.params.map (·.name))
      typed.body.variables (typed.body.emitStmts .int)) : f.Resolves functions typed := by
  refine ⟨name.trans (FunctionNode.lower_name h), ?_, wellTyped.distinct, ?_, ?_,
    FunctionNode.bound_referents h mirror⟩
  · rw [Typed.Function.locals, mirror.sites, List.length_map, List.length_range,
      FunctionNode.lower_sites h]
  · intro x member
    obtain ⟨i, bound, rfl⟩ := mirror.mem_locals_iff.mp member
    exact mirror.apart i bound
  · rw [← Typed.Block.identsAll_emitStmts .int typed.body wellTyped.body]
    exact FunctionNode.lower_referents h mirror

/-! ## Modules -/

/-- A tree and the module it is lowered to: both have only functions, which correspond one by
one. -/
structure ModuleNode.Lowers (node : ModuleNode) (m : Module) : Prop where
  onlyFunctions : ∀ item ∈ m.items, ∃ f, item = .function f
  functions : List.Forall₂ (fun f lowered => f.lower = .ok lowered) node.functions m.functions

lemma DeclNode.lowerAll_ok {decls : List DeclNode} {items : List Item}
    (h : DeclNode.lowerAll decls = .ok items) (place : Option Location) (span : Span) :
    ModuleNode.Lowers ⟨decls, place⟩ ⟨items, span⟩ := by
  induction decls generalizing items with
  | nil =>
    cases h
    exact ⟨nofun, .nil⟩
  | cons decl rest ih =>
    obtain ⟨item, first, h⟩ := except_bind_ok_iff.mp h
    obtain ⟨others, below, made⟩ := except_bind_ok_iff.mp h
    cases made
    have ⟨onlyFunctions, functions⟩ := ih below
    cases decl with
    | unknown tag place => cases first
    | function f =>
      obtain ⟨lowered, lower, made⟩ := except_bind_ok_iff.mp first
      cases made
      exact ⟨List.forall_mem_cons.mpr ⟨⟨lowered, rfl⟩, onlyFunctions⟩, .cons lower functions⟩

lemma readModule_lowers {root : Json} {m : Module} (h : readModule root = .ok m) :
    ∃ node, ModuleNode.read root = .ok node ∧ node.Lowers m := by
  unfold readModule at h
  split at h
  · cases h
  · next node read =>
    obtain ⟨items, lowered, made⟩ := except_bind_ok_iff.mp h
    cases made
    exact ⟨node, read, DeclNode.lowerAll_ok lowered node.place _⟩

namespace ModuleNode.Lowers

variable {node : ModuleNode} {m : Module}

lemma functionNames (h : node.Lowers m) : node.functionNames = m.functionNames :=
  map_eq_map_of_forall₂ h.functions fun _ _ lower => (FunctionNode.lower_name lower).symm

lemma frame (h : node.Lowers m) : node.frame = m.frame := by
  rw [ModuleNode.frame, Module.frame]
  congr 1
  refine map_eq_map_of_forall₂ h.functions fun f lowered lower => ?_
  rw [FunctionNode.ty, Function.ty, FunctionNode.lower_name lower,
    FunctionNode.lower_paramNames lower]

theorem wellFormed_iff (h : node.Lowers m) : m.WellFormed ↔ node.Accepted := by
  constructor
  · rintro ⟨_, distinct, wellFormed⟩
    refine ⟨h.functionNames ▸ distinct, ?_⟩
    have both := (List.forall₂_and_left ..).mpr ⟨wellFormed, h.functions.flip⟩
    refine forall_of_forall₂ both ?_
    rintro lowered f ⟨here, lower⟩
    rw [h.frame]
    exact (FunctionNode.accepted_iff lower m.frame).mp here
  · rintro ⟨distinct, accepted⟩
    refine ⟨h.onlyFunctions, h.functionNames ▸ distinct, ?_⟩
    have both := (List.forall₂_and_left ..).mpr ⟨accepted, h.functions⟩
    refine forall_of_forall₂ both ?_
    rintro f lowered ⟨here, lower⟩
    rw [← h.frame]
    exact (FunctionNode.accepted_iff lower node.frame).mpr here

theorem resolves (h : node.Lowers m) {typed : Typed.Module} (analyzed : m.analyze = .ok typed) :
    List.Forall₂ (FunctionNode.Resolves node.functionNames) node.functions typed.functions := by
  have mirrored := (Module.analyze_mirrors analyzed).flip
  have wellTyped := (Module.analyze_wellTyped analyzed).functions
  have checked := ((List.forall₂_and_left ..).mpr ⟨wellTyped, mirrored⟩).flip
  refine forall₂_trans h.functions checked ?_
  rintro f lowered tf lower ⟨wellTyped, name, mirror, _⟩
  rw [h.functionNames]
  exact FunctionNode.resolves lower wellTyped name mirror

end ModuleNode.Lowers

/-- What a declarative tree means can be read from left to right. The module that a tree is lowered
to is accepted exactly when the tree is accepted in one pass that keeps the declarations in sight
and the run of declarations that is going on; and then every identifier of every function means the
declaration, parameter or function that the pass gives for it. -/
theorem readModule_scopes_sequentially {root : Json} {m : Module}
    (lowered : readModule root = .ok m) :
    ∃ node, ModuleNode.read root = .ok node ∧
      ((∃ typed, m.analyze = .ok typed) ↔ node.Accepted) ∧
      ∀ typed, m.analyze = .ok typed →
        List.Forall₂ (FunctionNode.Resolves node.functionNames) node.functions typed.functions := by
  obtain ⟨node, read, lowers⟩ := readModule_lowers lowered
  refine ⟨node, read, ?_, fun typed => lowers.resolves⟩
  rw [← lowers.wellFormed_iff]
  exact ⟨fun ⟨_, analyzed⟩ => Module.wellFormed_of_analyze analyzed, fun h => h.analyze⟩

/-- `int f(int x) { x = 1; int x = 2; { x = inc(x); int x, y; y = x; } return x; }`, after a function
`inc`. -/
def interleaved : Json :=
  let x : Expr := .ident "x" .unknown
  let declare (declarators : List Declarator) : Json :=
    encodeDecl ⟨[.int], declarators, .unknown⟩
  let assign (target value : Expr) : Json :=
    encodeStmt (.expr (.assign .plain target value .unknown) .unknown)
  let inner : List Json := [assign x (.call (.ident "inc" .unknown) [x] .unknown),
    declare [⟨"x", none, .unknown⟩, ⟨"y", none, .unknown⟩], assign (.ident "y" .unknown) x]
  let body : List Json := [assign x (.const "1" .unknown),
    declare [⟨"x", some (.const "2" .unknown), .unknown⟩],
    encodeNode "statementType" "BlockStatement" [("statements", .arr inner)] .unknown,
    encodeStmt (.ret (some x) .unknown)]
  let f : Json := encodeNode "declarationType" "FunctionDefinition" [("name", .str "f"),
    ("returnType", encodeType [.int]),
    ("parameters", .arr [encodeParam ⟨some "x", [.int], .unknown⟩]), ("body", .arr body)] .unknown
  .obj [("declarations", .arr [encodeFunction .increment, f])]

lemma interleaved_accepted : (readModule interleaved >>= Module.analyze).isOk := by
  decide +kernel

lemma interleaved_referents : ((ModuleNode.read interleaved).toOption.map fun node =>
    node.functions.map (·.referents node.functionNames)) =
      some [[some (.site 0)], [some (.site 0), some (.site 1), some (.function "inc"),
        some (.site 1), some (.site 3), some (.site 2), some (.site 1)]] := by
  decide +kernel

/-- Three declarations of one name, each in sight of what follows it in its list. -/
theorem interleaved_scopes_sequentially :
    ∃ m node typed, readModule interleaved = .ok m ∧ ModuleNode.read interleaved = .ok node ∧
      m.analyze = .ok typed ∧ node.Accepted ∧
      node.functions.map (·.referents node.functionNames) =
        [[some (.site 0)], [some (.site 0), some (.site 1), some (.function "inc"),
          some (.site 1), some (.site 3), some (.site 2), some (.site 1)]] ∧
      List.Forall₂ (FunctionNode.Resolves node.functionNames) node.functions typed.functions := by
  obtain ⟨typed, accepted⟩ := exists_ok_of_isOk interleaved_accepted
  obtain ⟨m, lowered, analyzed⟩ := except_bind_ok_iff.mp accepted
  obtain ⟨node, read, iff, resolves⟩ := readModule_scopes_sequentially lowered
  have referents := interleaved_referents
  rw [read] at referents
  exact ⟨m, node, typed, lowered, read, analyzed, iff.mp ⟨typed, analyzed⟩,
    Option.some.inj referents, resolves typed analyzed⟩

end Declarative

end MiniC
