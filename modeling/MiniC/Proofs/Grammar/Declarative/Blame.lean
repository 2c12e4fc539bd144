import MiniC.Proofs.Grammar.Declarative.Outcome

/-!
# Faults inside declarative trees

An unknown node can be read. So a node with an unknown node in the place of a good one is still read
as a node of its kind, and lowering it meets the fault of the unknown node first. Every slot of a
declarative node carries faults in this way, and an unknown node anywhere in a tree is what the tree
is rejected for (`schema_governs`).
-/

namespace MiniC.Declarative

open Source

/-! ## Outcomes that need a part -/

/-- Lowering is good only if the part is, and a fault of the part is its fault if all else is
good. -/
def Passes {α β : Type} (lowers : Except Fault β → Except Fault α) : Prop :=
  ∀ x a, lowers x = .ok a → (∃ b, x = .ok b) ∧ ∀ fault, lowers (.error fault) = .error fault

/-- The same of an outcome, which is there whatever the part is lowered to. -/
def Strict {α β : Type} (needs : Except Fault β → Option (Except Fault α)) : Prop :=
  ∀ x a, needs x = some (.ok a) →
    (∃ b, x = .ok b) ∧ ∀ fault, needs (.error fault) = some (.error fault)

section Strict

variable {α β γ : Type}

lemma Passes.first {next : β → Except Fault α} : Passes fun x => x >>= next := by
  intro x a ok
  obtain ⟨b, found, _⟩ := except_bind_ok_iff.mp ok
  exact ⟨⟨b, found⟩, fun _ => rfl⟩

lemma Passes.later {before : Except Fault γ} {lowers : γ → Except Fault β → Except Fault α}
    (passes : ∀ c, Passes (lowers c)) : Passes fun x => before >>= fun c => lowers c x := by
  intro x a ok
  obtain ⟨c, before_ok, ok⟩ := except_bind_ok_iff.mp ok
  obtain ⟨part_ok, fails⟩ := passes c x a ok
  refine ⟨part_ok, fun fault => ?_⟩
  simp only [before_ok]
  exact fails fault

lemma Passes.strict {lowers : Except Fault β → Except Fault α} (passes : Passes lowers) :
    Strict fun x => some (lowers x) := by
  intro x a ok
  obtain ⟨part_ok, fails⟩ := passes x a (Option.some.inj ok)
  exact ⟨part_ok, fun fault => congrArg some (fails fault)⟩

lemma Strict.later {before : Option γ} {needs : γ → Except Fault β → Option (Except Fault α)}
    (strict : ∀ c, Strict (needs c)) : Strict fun x => before >>= fun c => needs c x := by
  intro x a ok
  obtain ⟨c, found, ok⟩ := Option.bind_eq_some_iff.mp ok
  obtain ⟨part_ok, fails⟩ := strict c x a ok
  refine ⟨part_ok, fun fault => ?_⟩
  simp only [found]
  exact fails fault

end Strict

/-- A value with an outcome. -/
def reader {α : Type} (outcome : Json → Option (Except Fault α)) : Reader where
  Accepts v := ∃ a, outcome v = some (.ok a)
  Rejects v fault := outcome v = some (.error fault)

/-- An outcome that takes in the outcome of the part `w`. Where it is good, so is that of the part,
and with a part whose outcome is a fault in its place it is this fault. -/
def Relays {α β : Type} (inner : Json → Option (Except Fault β)) (w : Json)
    (outcome : Option (Except Fault α)) (changed : (Json → Json) → Option (Except Fault α)) :
    Prop :=
  ∀ a, outcome = some (.ok a) → (∃ b, inner w = some (.ok b)) ∧
    ∀ f fault, f w ≠ .null → inner (f w) = some (.error fault) → changed f = some (.error fault)

namespace Relays

variable {α β γ : Type} {inner : Json → Option (Except Fault β)} {w : Json}

lemma part : Relays inner w (inner w) fun f => inner (f w) :=
  fun b ok => ⟨⟨b, ok⟩, fun _ _ _ fails => fails⟩

lemma bind {outcome : Option (Except Fault α)} {changed : (Json → Json) → Option (Except Fault α)}
    {needs : Except Fault α → Option (Except Fault γ)} (relays : Relays inner w outcome changed)
    (strict : Strict needs) :
    Relays inner w (outcome >>= needs) fun f => changed f >>= needs := by
  intro c ok
  obtain ⟨x, found, ok⟩ := Option.bind_eq_some_iff.mp ok
  obtain ⟨⟨a, rfl⟩, fails⟩ := strict x c ok
  obtain ⟨part_ok, carry⟩ := relays a found
  refine ⟨part_ok, fun f fault present rejected => ?_⟩
  simp only [carry f fault present rejected]
  exact fails fault

lemma later {before : Option γ} {next : γ → Option (Except Fault α)}
    {next' : (Json → Json) → γ → Option (Except Fault α)}
    (relays : ∀ c, Relays inner w (next c) fun f => next' f c) :
    Relays inner w (before >>= next) fun f => before >>= next' f := by
  intro a ok
  obtain ⟨c, found, ok⟩ := Option.bind_eq_some_iff.mp ok
  obtain ⟨part_ok, carry⟩ := relays c a ok
  refine ⟨part_ok, fun f fault present rejected => ?_⟩
  simp only [found]
  exact carry f fault present rejected

/-- A strange node has no good outcome. -/
lemma orStrange {outcome : Option (Except Fault α)} {category : String} {v : Json}
    {v' : (Json → Json) → Json} {changed : (Json → Json) → Option (Except Fault α)}
    (relays : Relays inner w outcome changed) :
    Relays inner w (outcome <|> strange category v)
      fun f => changed f <|> strange category (v' f) := by
  intro a ok
  have known : outcome = some (.ok a) := by
    cases outcome with
    | some x => exact ok
    | none =>
      obtain ⟨p, _, made⟩ := Option.map_eq_some_iff.mp ok
      cases made
  obtain ⟨part_ok, carry⟩ := relays a known
  refine ⟨part_ok, fun f fault present rejected => ?_⟩
  simp only [carry f fault present rejected]
  rfl

lemma carries {outer : Json → Option (Except Fault α)} {v : Json} {path : Json.Path}
    (relays : Relays inner w (outer v) fun f => outer (v.updateAt path f)) :
    (reader outer).Carries (reader inner) v path w := by
  rintro ⟨a, ok⟩
  exact relays a ok

end Relays

/-! ## Lists -/

/-- A list is lowered only if each of its nodes is, and fails with the first node that does. -/
structure StopsFirst {N α β : Type} (lower : N → Except Fault α)
    (lowerAll : List N → Except Fault β) : Prop where
  each {nodes : List N} {b : β} (ok : lowerAll nodes = .ok b) :
    ∀ node ∈ nodes, ∃ a, lower node = .ok a
  first {before : List N} {node : N} {fault : Fault}
    (good : ∀ other ∈ before, ∃ a, lower other = .ok a)
    (fails : lower node = .error fault) (after : List N) :
    lowerAll (before ++ node :: after) = .error fault

lemma stopsFirst_mapM {N α : Type} (lower : N → Except Fault α) :
    StopsFirst lower fun nodes => nodes.mapM lower where
  each := by
    intro nodes b ok
    induction nodes generalizing b with
    | nil => simp
    | cons node rest ih =>
      rw [List.mapM_cons] at ok
      obtain ⟨a, first, ok⟩ := except_bind_ok_iff.mp ok
      obtain ⟨_, others, _⟩ := except_bind_ok_iff.mp ok
      exact List.forall_mem_cons.mpr ⟨⟨a, first⟩, ih others⟩
  first := by
    intro before node fault good fails after
    induction before with
    | nil =>
      rw [List.nil_append, List.mapM_cons, fails]
      rfl
    | cons other rest ih =>
      obtain ⟨⟨a, first⟩, others⟩ := List.forall_mem_cons.mp good
      rw [List.cons_append, List.mapM_cons, first, ih others]
      rfl

lemma ExprNode.readAll?_eq_mapM (items : List Json) :
    ExprNode.readAll? items = items.mapM ExprNode.read? :=
  eq_mapM ExprNode.readAll? ExprNode.read? (by rw [readAll?]; rfl)
    (fun _ _ => by rw [readAll?]; rfl) items

lemma StmtNode.readAll?_eq_mapM (items : List Json) :
    StmtNode.readAll? items = items.mapM StmtNode.read? :=
  eq_mapM StmtNode.readAll? StmtNode.read? (by rw [readAll?]; rfl)
    (fun _ _ => by rw [readAll?]; rfl) items

lemma VarNode.readAll?_eq_mapM (items : List Json) :
    VarNode.readAll? items = items.mapM VarNode.read? :=
  eq_mapM VarNode.readAll? VarNode.read? rfl (fun _ _ => rfl) items

lemma ExprNode.stopsFirst : StopsFirst ExprNode.lower ExprNode.lowerAll := by
  rw [funext (eq_mapM ExprNode.lowerAll ExprNode.lower rfl fun _ _ => by rw [lowerAll])]
  exact stopsFirst_mapM ExprNode.lower

lemma VarNode.stopsFirst : StopsFirst VarNode.lower VarNode.lowerAll := by
  rw [funext (eq_mapM VarNode.lowerAll VarNode.lower rfl fun _ _ => rfl)]
  exact stopsFirst_mapM VarNode.lower

lemma DeclNode.stopsFirst : StopsFirst DeclNode.lower DeclNode.lowerAll := by
  rw [funext (eq_mapM DeclNode.lowerAll DeclNode.lower rfl fun _ _ => rfl)]
  exact stopsFirst_mapM DeclNode.lower

/-- In a list that is lowered, at the start or behind a statement, every node is. -/
lemma StmtNode.lowers_of_lowered {nodes : List StmtNode} :
    (∀ parts, StmtNode.lowerList nodes = .ok parts → ∀ node ∈ nodes, node.Lowers) ∧
      ∀ stmts, StmtNode.lowerTail nodes = .ok stmts → ∀ node ∈ nodes, node.Lowers := by
  induction nodes with
  | nil => simp
  | cons node rest ih =>
    obtain ⟨list_lowers, tail_lowers⟩ := ih
    cases alone : node.lowerAlone with
    | error fault =>
      obtain ⟨list, tail⟩ := lower_cons_error alone rest
      rw [list, tail]
      exact ⟨fun _ ok => (nomatch ok), fun _ ok => (nomatch ok)⟩
    | ok part =>
      have others (rest_lowers : ∀ other ∈ rest, other.Lowers) :
          ∀ other ∈ node :: rest, other.Lowers :=
        List.forall_mem_cons.mpr ⟨⟨part, alone⟩, rest_lowers⟩
      cases part with
      | inl decl =>
        simp only [lowerList_cons_inl alone, lowerTail_cons_inl alone, map_eq_pure_bind,
          except_bind_ok_iff]
        exact ⟨fun _ ⟨parts, ok, _⟩ => others (list_lowers parts ok),
          fun _ ⟨parts, ok, _⟩ => others (list_lowers parts ok)⟩
      | inr stmt =>
        simp only [lowerList_cons_inr alone, lowerTail_cons_inr alone, map_eq_pure_bind,
          except_bind_ok_iff]
        exact ⟨fun _ ⟨stmts, ok, _⟩ => others (tail_lowers stmts ok),
          fun _ ⟨stmts, ok, _⟩ => others (tail_lowers stmts ok)⟩

lemma StmtNode.stopsFirst : StopsFirst StmtNode.lowerAlone StmtNode.lowerList where
  each ok := lowers_of_lowered.1 _ ok
  first good fails after := (fails_at_first good fails after).1

/-- What is read from a list in which one item is changed. -/
lemma mapM_modify_some {N : Type} {read : Json → Option N} {items : List Json} {nodes : List N}
    {j : Nat} {w : Json} (ok : items.mapM read = some nodes) (found : items[j]? = some w) :
    ∃ before node after, nodes = before ++ node :: after ∧ read w = some node ∧
      ∀ f node', read (f w) = some node' →
        (items.modify j f).mapM read = some (before ++ node' :: after) := by
  induction items generalizing j nodes with
  | nil => cases found
  | cons v rest ih =>
    rw [List.mapM_cons] at ok
    obtain ⟨first, first_read, ok⟩ := Option.bind_eq_some_iff.mp ok
    obtain ⟨others, others_read, ok⟩ := Option.bind_eq_some_iff.mp ok
    cases ok
    cases j with
    | zero =>
      cases found
      refine ⟨[], first, others, rfl, first_read, fun f node' read' => ?_⟩
      rw [List.modify_zero_cons, List.mapM_cons, read', others_read]
      rfl
    | succ j =>
      obtain ⟨before, node, after, rfl, read_w, changed⟩ := ih others_read found
      refine ⟨first :: before, node, after, rfl, read_w, fun f node' read' => ?_⟩
      rw [List.modify_succ_cons, List.mapM_cons, first_read, changed f node' read']
      rfl

lemma Relays.list {N α β : Type} {read : Json → Option N} {lower : N → Except Fault α}
    {lowerAll : List N → Except Fault β} (stops : StopsFirst lower lowerAll) {items : List Json}
    {j : Nat} {w : Json} (found : items[j]? = some w) :
    Relays (fun v => (read v).map lower) w ((items.mapM read).map lowerAll)
      fun f => ((items.modify j f).mapM read).map lowerAll := by
  intro b ok
  obtain ⟨nodes, nodes_read, lowered⟩ := Option.map_eq_some_iff.mp ok
  obtain ⟨before, node, after, rfl, read_w, changed⟩ := mapM_modify_some nodes_read found
  have good := stops.each lowered
  obtain ⟨a, node_lowered⟩ := good node (by simp)
  refine ⟨⟨a, by simp [read_w, node_lowered]⟩, fun f fault _ rejected => ?_⟩
  obtain ⟨node', read', fails⟩ := Option.map_eq_some_iff.mp rejected
  simp only [changed f node' read', Option.map_some]
  exact congrArg some (stops.first (fun other member => good other (by simp [member])) fails after)

lemma Relays.optional {key : String} {fields : List (String × Json)} {w : Json}
    {changed : (Json → Json) → List (String × Json)} (present : w ≠ .null)
    (found : Json.lookup key fields = some w)
    (found' : ∀ f, Json.lookup key (changed f) = some (f w)) :
    Relays exprOf w (optionalIn key fields) fun f => optionalIn key (changed f) := by
  have read_part {fields : List (String × Json)} {w : Json} (present : w ≠ .null)
      (found : Json.lookup key fields = some w) :
      optionalIn key fields = exprOf w >>= fun x => some (some <$> x) := by
    rw [optionalIn, found]
    cases w <;> first | exact absurd rfl present | exact Option.map_eq_bind
  intro a ok
  rw [read_part present found] at ok
  obtain ⟨x, part_read, ok⟩ := Option.bind_eq_some_iff.mp ok
  cases x with
  | error fault => cases ok
  | ok e =>
    refine ⟨⟨e, part_read⟩, fun f fault present' rejected => ?_⟩
    simp only [read_part present' (found' f), rejected]
    rfl

/-! ## Slots -/

section Slots

variable {v w tag : Json} {path : Json.Path}

/-- A way to a field. Changing what lies at its end changes this field and no other. -/
lemma field_at {key : String} (along : Follows [.field key] v path w) :
    ∃ (fields : List (String × Json)) (fields' : (Json → Json) → List (String × Json)),
      v = .obj fields ∧ (∀ f, v.updateAt path f = .obj (fields' f)) ∧
      Json.lookup key fields = some w ∧ (∀ f, Json.lookup key (fields' f) = some (f w)) ∧
      ∀ f other, other ≠ key → Json.lookup other (fields' f) = Json.lookup other fields := by
  obtain ⟨⟩ | ⟨found, ⟨⟩⟩ := along
  refine ⟨_, _, rfl, fun _ => rfl, found, fun f => ?_, fun f other different =>
    Json.lookup_updateField_of_ne different⟩
  rw [Json.lookup_updateField_self, found]
  rfl

/-- A way to an item of a field. -/
lemma item_at {key : String} (along : Follows [.field key, .each] v path w) :
    ∃ (fields : List (String × Json)) (fields' : (Json → Json) → List (String × Json))
        (items : List Json) (j : Nat),
      v = .obj fields ∧ (∀ f, v.updateAt path f = .obj (fields' f)) ∧
      Json.lookup key fields = some (.arr items) ∧
      (∀ f, Json.lookup key (fields' f) = some (.arr (items.modify j f))) ∧
      (∀ f other, other ≠ key → Json.lookup other (fields' f) = Json.lookup other fields) ∧
      items[j]? = some w := by
  obtain ⟨⟩ | ⟨found, onward⟩ := along
  obtain ⟨⟩ | ⟨⟩ | ⟨⟩ | ⟨item, ⟨⟩⟩ := onward
  refine ⟨_, _, _, _, rfl, fun _ => rfl, found, fun f => ?_, fun f other different =>
    Json.lookup_updateField_of_ne different, item⟩
  rw [Json.lookup_updateField_self, found]
  rfl

section Unchanged

variable {fields fields' : List (String × Json)}

lemma placeIn_congr (same : Json.lookup "loc" fields' = Json.lookup "loc" fields) :
    placeIn fields' = placeIn fields := by
  rw [placeIn, placeIn, same]

lemma argsIn_congr (same : Json.lookup "arguments" fields' = Json.lookup "arguments" fields) :
    argsIn fields' = argsIn fields := by
  rw [argsIn, argsIn, same]

lemma paramsIn_congr (same : Json.lookup "parameters" fields' = Json.lookup "parameters" fields) :
    paramsIn fields' = paramsIn fields := by
  rw [paramsIn, paramsIn, same]

lemma argsIn_items {items : List Json}
    (found : Json.lookup "arguments" fields = some (.arr items)) :
    argsIn fields = (items.mapM ExprNode.read?).map ExprNode.lowerAll := by
  rw [argsIn, found, ← ExprNode.readAll?_eq_mapM]

end Unchanged

lemma carries_add {key : String} (tagged : v.get? "expressionType" = some tag)
    (known : kind? exprKinds tag = some "AddExpression") (slot : key = "left" ∨ key = "right")
    (along : Follows [.field key] v path w) :
    (reader exprOf).Carries (reader exprOf) v path w := by
  obtain ⟨fields, fields', rfl, changed, found, found', others⟩ := field_at along
  refine Relays.carries ?_
  obtain rfl | rfl := slot
  · simp only [changed, exprOf_add tagged known, found, found', Option.bind_some,
      fun f => exprOf_add ((others f "expressionType" (by decide)).trans tagged) known,
      fun f => others f "right" (by decide), fun f => placeIn_congr (others f "loc" (by decide))]
    exact .orStrange <| Relays.part.bind <| .later fun _ => .later fun _ => Passes.first.strict
  · simp only [changed, exprOf_add tagged known, found, found', Option.bind_some,
      fun f => exprOf_add ((others f "expressionType" (by decide)).trans tagged) known,
      fun f => others f "left" (by decide), fun f => placeIn_congr (others f "loc" (by decide))]
    exact .orStrange <| .later fun _ => Relays.part.bind <| .later fun _ =>
      (Passes.later fun _ => .first).strict

lemma carries_binary {key : String} (tagged : v.get? "expressionType" = some tag)
    (known : kind? exprKinds tag = some "BinaryExpression") (slot : key = "left" ∨ key = "right")
    (along : Follows [.field key] v path w) :
    (reader exprOf).Carries (reader exprOf) v path w := by
  obtain ⟨fields, fields', rfl, changed, found, found', others⟩ := field_at along
  refine Relays.carries ?_
  obtain rfl | rfl := slot
  · simp only [changed, exprOf_binary tagged known, found, found', Option.bind_some,
      fun f => exprOf_binary ((others f "expressionType" (by decide)).trans tagged) known,
      fun f => others f "operator" (by decide), fun f => others f "right" (by decide),
      fun f => placeIn_congr (others f "loc" (by decide))]
    exact .orStrange <| .later fun _ => Relays.part.bind <| .later fun _ => .later fun _ =>
      (Passes.later fun _ => .first).strict
  · simp only [changed, exprOf_binary tagged known, found, found', Option.bind_some,
      fun f => exprOf_binary ((others f "expressionType" (by decide)).trans tagged) known,
      fun f => others f "operator" (by decide), fun f => others f "left" (by decide),
      fun f => placeIn_congr (others f "loc" (by decide))]
    exact .orStrange <| .later fun _ => .later fun _ => Relays.part.bind <| .later fun _ =>
      (Passes.later fun _ => .later fun _ => .first).strict

lemma carries_assign {key : String} (tagged : v.get? "expressionType" = some tag)
    (known : kind? exprKinds tag = some "AssignmentExpression")
    (slot : key = "left" ∨ key = "right") (along : Follows [.field key] v path w) :
    (reader exprOf).Carries (reader exprOf) v path w := by
  obtain ⟨fields, fields', rfl, changed, found, found', others⟩ := field_at along
  refine Relays.carries ?_
  obtain rfl | rfl := slot
  · simp only [changed, exprOf_assign tagged known, found, found', Option.bind_some,
      fun f => exprOf_assign ((others f "expressionType" (by decide)).trans tagged) known,
      fun f => others f "operator" (by decide), fun f => others f "right" (by decide),
      fun f => placeIn_congr (others f "loc" (by decide))]
    exact .orStrange <| .later fun _ => Relays.part.bind <| .later fun _ => .later fun _ =>
      (Passes.later fun _ => .first).strict
  · simp only [changed, exprOf_assign tagged known, found, found', Option.bind_some,
      fun f => exprOf_assign ((others f "expressionType" (by decide)).trans tagged) known,
      fun f => others f "operator" (by decide), fun f => others f "left" (by decide),
      fun f => placeIn_congr (others f "loc" (by decide))]
    exact .orStrange <| .later fun _ => .later fun _ => Relays.part.bind <| .later fun _ =>
      (Passes.later fun _ => .later fun _ => .first).strict

lemma carries_callee (tagged : v.get? "expressionType" = some tag)
    (known : kind? exprKinds tag = some "FunctionCallExpression")
    (along : Follows [.field "callee"] v path w) :
    (reader exprOf).Carries (reader exprOf) v path w := by
  obtain ⟨fields, fields', rfl, changed, found, found', others⟩ := field_at along
  refine Relays.carries ?_
  simp only [changed, exprOf_call tagged known, found, found', Option.bind_some,
    fun f => exprOf_call ((others f "expressionType" (by decide)).trans tagged) known,
    fun f => argsIn_congr (others f "arguments" (by decide)),
    fun f => placeIn_congr (others f "loc" (by decide))]
  exact .orStrange <| Relays.part.bind <| .later fun _ => .later fun _ => Passes.first.strict

lemma carries_arg (tagged : v.get? "expressionType" = some tag)
    (known : kind? exprKinds tag = some "FunctionCallExpression")
    (along : Follows [.field "arguments", .each] v path w) :
    (reader exprOf).Carries (reader exprOf) v path w := by
  obtain ⟨fields, fields', items, j, rfl, changed, found, found', others, item⟩ := item_at along
  refine Relays.carries ?_
  simp only [changed, exprOf_call tagged known, argsIn_items found,
    fun f => argsIn_items (found' f),
    fun f => exprOf_call ((others f "expressionType" (by decide)).trans tagged) known,
    fun f => others f "callee" (by decide), fun f => placeIn_congr (others f "loc" (by decide))]
  exact .orStrange <| .later fun _ => (Relays.list ExprNode.stopsFirst item).bind <|
    .later fun _ => (Passes.later fun _ => .first).strict

lemma carries_stmt (tagged : v.get? "statementType" = some tag)
    (known : kind? stmtKinds tag = some "BlockStatement")
    (along : Follows [.field "statements", .each] v path w) :
    (reader stmtOf).Carries (reader stmtOf) v path w := by
  obtain ⟨fields, fields', items, j, rfl, changed, found, found', others, item⟩ := item_at along
  refine Relays.carries ?_
  simp only [changed, stmtOf_block tagged known found,
    fun f => stmtOf_block ((others f "statementType" (by decide)).trans tagged) known (found' f),
    StmtNode.readAll?_eq_mapM, fun f => placeIn_congr (others f "loc" (by decide))]
  exact .orStrange <| (Relays.list StmtNode.stopsFirst item).bind <| .later fun _ =>
    Passes.first.strict

lemma carries_value (tagged : v.get? "statementType" = some tag)
    (known : kind? stmtKinds tag = some "ExpressionStatement")
    (along : Follows [.field "expression"] v path w) :
    (reader stmtOf).Carries (reader exprOf) v path w := by
  obtain ⟨fields, fields', rfl, changed, found, found', others⟩ := field_at along
  refine Relays.carries ?_
  simp only [changed, stmtOf_expr tagged known, found, found', Option.bind_some,
    fun f => stmtOf_expr ((others f "statementType" (by decide)).trans tagged) known,
    fun f => placeIn_congr (others f "loc" (by decide))]
  exact .orStrange <| Relays.part.bind <| .later fun _ => Passes.first.strict

lemma carries_result (tagged : v.get? "statementType" = some tag)
    (known : kind? stmtKinds tag = some "ReturnStatement")
    (along : Follows [.field "expression"] v path w) (present : w ≠ .null) :
    (reader stmtOf).Carries (reader exprOf) v path w := by
  obtain ⟨fields, fields', rfl, changed, found, found', others⟩ := field_at along
  refine Relays.carries ?_
  simp only [changed, stmtOf_ret tagged known,
    fun f => stmtOf_ret ((others f "statementType" (by decide)).trans tagged) known,
    fun f => placeIn_congr (others f "loc" (by decide))]
  exact .orStrange <| (Relays.optional present found found').bind <| .later fun _ =>
    Passes.first.strict

lemma carries_declarator (tagged : v.get? "statementType" = some tag)
    (known : kind? stmtKinds tag = some "DeclarationStatement")
    (along : Follows [.field "variableDeclarations", .each] v path w) :
    (reader stmtOf).Carries (reader declaratorOf) v path w := by
  obtain ⟨fields, fields', items, j, rfl, changed, found, found', others, item⟩ := item_at along
  refine Relays.carries ?_
  simp only [changed, stmtOf_decl tagged known found,
    fun f => stmtOf_decl ((others f "statementType" (by decide)).trans tagged) known (found' f),
    VarNode.readAll?_eq_mapM, fun f => others f "type" (by decide),
    fun f => placeIn_congr (others f "loc" (by decide))]
  exact .orStrange <| .later fun _ => (Relays.list VarNode.stopsFirst item).bind <|
    .later fun _ => Passes.first.strict

lemma carries_init (along : Follows [.field "initialValueExpression"] v path w)
    (present : w ≠ .null) : (reader declaratorOf).Carries (reader exprOf) v path w := by
  obtain ⟨fields, fields', rfl, changed, found, found', others⟩ := field_at along
  refine Relays.carries ?_
  simp only [changed, declaratorOf_obj, fun f => others f "variable" (by decide),
    fun f => placeIn_congr (others f "loc" (by decide))]
  exact .later fun _ => (Relays.optional present found found').bind <| .later fun _ =>
    Passes.first.strict

lemma carries_initial (tagged : v.get? "statementType" = some tag)
    (known : kind? stmtKinds tag = some "DeclarationStatement")
    (along : Follows [.field "variableDeclarations", .each, .field "initialValueExpression"] v path
      w) (present : w ≠ .null) : (reader stmtOf).Carries (reader exprOf) v path w := by
  obtain ⟨first, rest, x, to_declarator, to_init, rfl⟩ :=
    Follows.append [.field "variableDeclarations", .each] [.field "initialValueExpression"] along
  refine (carries_declarator tagged known to_declarator).trans
    (fun _ => carries_init to_init present) fun f => ?_
  cases to_init
  exact Json.update_ne_null (by simp) _ _

lemma carries_body {kind : String} (tagged : v.get? "declarationType" = some tag)
    (known : kind? declKinds tag = some kind) (along : Follows [.field "body", .each] v path w) :
    (reader itemOf).Carries (reader stmtOf) v path w := by
  obtain ⟨fields, fields', items, j, rfl, changed, found, found', others, item⟩ := item_at along
  refine Relays.carries ?_
  simp only [changed, itemOf_function tagged known found,
    fun f => itemOf_function ((others f "declarationType" (by decide)).trans tagged) known
      (found' f),
    StmtNode.readAll?_eq_mapM, fun f => others f "name" (by decide),
    fun f => others f "returnType" (by decide),
    fun f => paramsIn_congr (others f "parameters" (by decide)),
    fun f => placeIn_congr (others f "loc" (by decide))]
  exact .orStrange <| .later fun _ => .later fun _ => .later fun _ =>
    (Relays.list StmtNode.stopsFirst item).bind <| .later fun _ => Passes.first.strict

end Slots

/-! ## Faults of the whole tree -/

/-- Nothing is read as a body or as a declaration alone; such a node counts as a statement. -/
def readers : Position → Reader
  | .item => reader itemOf
  | .body | .decl | .stmt => reader stmtOf
  | .expr => reader exprOf

lemma kind?_mem {kinds : List String} {tag : Json} {kind : String}
    (known : kind? kinds tag = some kind) : kind ∈ kinds := by
  unfold kind? at known
  split at known
  · split at known
    · next member =>
      cases known
      exact member
    · cases known
  · split at known
    · exact List.mem_of_getElem? known
    · cases known
  · cases known

lemma carries_slot {position inner : Position} {v w tag : Json} {kind : String} {legs : List Leg}
    {path : Json.Path} (tagged : v.get? (key position) = some tag)
    (known : kind? (kinds position) tag = some kind) (slot : (legs, inner) ∈ slots position kind)
    (along : Follows legs v path w) (present : w ≠ .null) :
    (readers position).Carries (readers inner) v path w := by
  have member := kind?_mem known
  cases position with
  | item =>
    obtain rfl : kind = "FunctionDefinition" := by simpa [kinds, declKinds] using member
    obtain ⟨rfl, rfl⟩ : legs = [.field "body", .each] ∧ inner = .stmt := by
      simpa [slots] using slot
    exact carries_body tagged known along
  | body => simp [slots] at slot
  | decl => simp [slots] at slot
  | stmt =>
    obtain rfl | rfl | rfl | rfl : kind = "BlockStatement" ∨ kind = "DeclarationStatement" ∨
        kind = "ExpressionStatement" ∨ kind = "ReturnStatement" := by
      simpa [kinds, stmtKinds] using member
    · obtain ⟨rfl, rfl⟩ : legs = [.field "statements", .each] ∧ inner = .stmt := by
        simpa [slots] using slot
      exact carries_stmt tagged known along
    · obtain ⟨rfl, rfl⟩ : legs = [.field "variableDeclarations", .each,
          .field "initialValueExpression"] ∧ inner = .expr := by simpa [slots] using slot
      exact carries_initial tagged known along present
    · obtain ⟨rfl, rfl⟩ : legs = [.field "expression"] ∧ inner = .expr := by
        simpa [slots] using slot
      exact carries_value tagged known along
    · obtain ⟨rfl, rfl⟩ : legs = [.field "expression"] ∧ inner = .expr := by
        simpa [slots] using slot
      exact carries_result tagged known along present
  | expr =>
    obtain rfl | rfl | rfl | rfl | rfl | rfl : kind = "AddExpression" ∨
        kind = "BinaryExpression" ∨ kind = "AssignmentExpression" ∨ kind = "ConstExpression" ∨
        kind = "FunctionCallExpression" ∨ kind = "VariableExpression" := by
      simpa [kinds, exprKinds] using member
    · obtain ⟨rfl, rfl⟩ | ⟨rfl, rfl⟩ : legs = [.field "left"] ∧ inner = .expr ∨
          legs = [.field "right"] ∧ inner = .expr := by simpa [slots] using slot
      · exact carries_add tagged known (.inl rfl) along
      · exact carries_add tagged known (.inr rfl) along
    · obtain ⟨rfl, rfl⟩ | ⟨rfl, rfl⟩ : legs = [.field "left"] ∧ inner = .expr ∨
          legs = [.field "right"] ∧ inner = .expr := by simpa [slots] using slot
      · exact carries_binary tagged known (.inl rfl) along
      · exact carries_binary tagged known (.inr rfl) along
    · obtain ⟨rfl, rfl⟩ | ⟨rfl, rfl⟩ : legs = [.field "left"] ∧ inner = .expr ∨
          legs = [.field "right"] ∧ inner = .expr := by simpa [slots] using slot
      · exact carries_assign tagged known (.inl rfl) along
      · exact carries_assign tagged known (.inr rfl) along
    · simp [slots] at slot
    · obtain ⟨rfl, rfl⟩ | ⟨rfl, rfl⟩ : legs = [.field "callee"] ∧ inner = .expr ∨
          legs = [.field "arguments", .each] ∧ inner = .expr := by simpa [slots] using slot
      · exact carries_callee tagged known along
      · exact carries_arg tagged known along
    · simp [slots] at slot

section Bare

variable {v : Json} {tag : String} {line column : UInt32} {position : Position}

lemma unknown?_of_isBare (bare : v.IsBare (key position) tag line column) :
    unknown? v = some (some tag, some (.inInput line column)) := by
  obtain ⟨place, ⟨fields, rfl, same⟩, place_fields⟩ := bare
  have placed : Json.lookup "loc" fields = some place := by
    rw [same]
    cases position <;> simp [Json.lookup]
  have tags : ["tag", "declarationType", "statementType", "expressionType"].filterMap
      (Json.lookup · fields) = [.str tag] := by
    cases position <;> simp [same, Json.lookup, key, List.filterMap]
  have decoded := Place.decode_of_hasFields place_fields
  obtain ⟨_, rfl, _⟩ := place_fields
  rw [unknown?]
  dsimp only [Body.read?, bind, Option.bind]
  rw [tags, placed]
  dsimp only
  rw [decoded]
  rfl

lemma blames_unknownFault (category : String) :
    (unknownFault category (some tag) (some (.inInput line column))).Blames tag line column := by
  refine ⟨"unsupported or malformed " ++ category ++ " ", "", ?_⟩
  have split : " '" = " " ++ "'" := rfl
  simp only [unknownFault, split, String.append_assoc, String.append_empty]
  rfl

section Strange

variable {fields : List (String × Json)}

lemma exprOf_strange (tagged : Json.lookup "expressionType" fields = some (.str tag))
    (no_kind : tag ∉ exprKinds) : exprOf (.obj fields) = strange "expression" (.obj fields) := by
  rw [exprOf, ExprNode.read?]
  simp only [Body.tagged?, tagged, Option.map_some, kind?, if_neg no_kind, Option.bind_eq_bind,
    Option.bind_some, Option.bind_none]
  simp [strange, Function.comp_def, ExprNode.lower]

lemma stmtOf_strange (tagged : Json.lookup "statementType" fields = some (.str tag))
    (no_kind : tag ∉ stmtKinds) : stmtOf (.obj fields) = strange "statement" (.obj fields) := by
  rw [stmtOf, StmtNode.read?]
  simp only [Body.tagged?, tagged, Option.map_some, kind?, if_neg no_kind, Option.bind_eq_bind,
    Option.bind_some, Option.bind_none]
  simp [strange, Function.comp_def, StmtNode.lowerAlone, StmtNode.lower]

lemma itemOf_strange (tagged : Json.lookup "declarationType" fields = some (.str tag))
    (no_kind : tag ∉ declKinds) : itemOf (.obj fields) = strange "declaration" (.obj fields) := by
  rw [itemOf, DeclNode.read?, FunctionNode.read?]
  simp only [Body.tagged?, tagged, Option.map_some, kind?, if_neg no_kind, Option.bind_eq_bind,
    Option.bind_some, Option.bind_none]
  simp [strange, Function.comp_def, DeclNode.lower]

end Strange

lemma rejects_bare (bare : v.IsBare (key position) tag line column)
    (no_kind : tag ∉ kinds position) :
    ∃ fault, (readers position).Rejects v fault ∧ fault.Blames tag line column := by
  have outcome {α : Type} (category : String) : strange category v =
      some (.error (unknownFault category (some tag) (some (.inInput line column))) :
        Except Fault α) := by
    rw [strange, unknown?_of_isBare bare]
    rfl
  obtain ⟨place, ⟨fields, rfl, same⟩, _⟩ := bare
  have tagged : Json.lookup (key position) fields = some (.str tag) := by
    rw [same]
    cases position <;> simp [Json.lookup, key]
  cases position with
  | item =>
    exact ⟨_, (itemOf_strange tagged no_kind).trans (outcome _), blames_unknownFault "declaration"⟩
  | body | decl | stmt =>
    exact ⟨_, (stmtOf_strange tagged no_kind).trans (outcome _), blames_unknownFault "statement"⟩
  | expr =>
    exact ⟨_, (exprOf_strange tagged no_kind).trans (outcome _), blames_unknownFault "expression"⟩

end Bare

lemma DeclNode.readAll_ok_iff {items : List Json} {nodes : List DeclNode} :
    DeclNode.readAll items = .ok nodes ↔ items.mapM DeclNode.read? = some nodes := by
  induction items generalizing nodes with
  | nil => constructor <;> rintro ⟨⟩ <;> rfl
  | cons v rest ih =>
    rw [DeclNode.readAll, List.mapM_cons]
    cases DeclNode.read? v with
    | none => simp
    | some first =>
      simp only [Option.bind_eq_bind, Option.bind_some]
      rw [except_bind_ok_iff, Option.bind_eq_some_iff]
      refine exists_congr fun others => and_congr ih ?_
      constructor <;> rintro ⟨⟩ <;> rfl

section Root

variable {fields : List (String × Json)} {items : List Json}

lemma readModule_eq_lowerAll {nodes : List DeclNode} {place : Option (Option Location)}
    (found : Json.lookup "declarations" fields = some (.arr items))
    (read : items.mapM DeclNode.read? = some nodes)
    (placed : (Json.lookup "loc" fields).mapM readRootPlace = .ok place) :
    readModule (.obj fields) = (do
      let xs ← DeclNode.lowerAll nodes
      return ⟨xs, Place.span place.join⟩) := by
  have root_read : ModuleNode.read (.obj fields) = .ok ⟨nodes, place.join⟩ := by
    rw [ModuleNode.read, ModuleNode.ofFields, found, placed, Option.mapM_some, DeclNode.readList,
      DeclNode.readAll_ok_iff.mpr read]
    rfl
  rw [readModule, root_read]

lemma readModule_ok {m : Module} (found : Json.lookup "declarations" fields = some (.arr items))
    (ok : readModule (.obj fields) = .ok m) :
    ∃ nodes place xs, items.mapM DeclNode.read? = some nodes ∧
      (Json.lookup "loc" fields).mapM readRootPlace = .ok place ∧
      DeclNode.lowerAll nodes = .ok xs := by
  rw [readModule, ModuleNode.read, ModuleNode.ofFields, found, Option.mapM_some,
    DeclNode.readList] at ok
  cases read : DeclNode.readAll items with
  | error misfit =>
    rw [read] at ok
    cases ok
  | ok nodes =>
    cases placed : (Json.lookup "loc" fields).mapM readRootPlace with
    | error misfit =>
      rw [read, placed] at ok
      cases ok
    | ok place =>
      rw [read, placed] at ok
      obtain ⟨xs, lowered, _⟩ := except_bind_ok_iff.mp ok
      exact ⟨nodes, place, xs, DeclNode.readAll_ok_iff.mp read, rfl, lowered⟩

end Root

lemma carries_item {v w : Json} {path : Json.Path} (along : Follows schema.root v path w) :
    (Reader.ofRun readModule).Carries (reader itemOf) v path w := by
  obtain ⟨fields, fields', items, j, rfl, changed, found, found', others, item⟩ := item_at along
  rintro ⟨m, ok⟩
  obtain ⟨nodes, place, xs, read, placed, lowered⟩ := readModule_ok found ok
  have relays : Relays itemOf w ((items.mapM DeclNode.read?).map DeclNode.lowerAll) _ :=
    Relays.list DeclNode.stopsFirst item
  obtain ⟨part_ok, carry⟩ := relays xs (by rw [read, Option.map_some, lowered])
  refine ⟨part_ok, fun f fault present rejected => ?_⟩
  obtain ⟨nodes', read', fails⟩ := Option.map_eq_some_iff.mp (carry f fault present rejected)
  have placed' : (Json.lookup "loc" (fields' f)).mapM readRootPlace = .ok place := by
    rw [others f "loc" (by decide), placed]
  rw [changed]
  change readModule (.obj (fields' f)) = .error fault
  rw [readModule_eq_lowerAll (found' f) read' placed', fails]
  rfl

/-- The schema says where declarative nodes are read. -/
theorem schema_governs : schema.Governs readers (Reader.ofRun readModule) where
  top := carries_item
  slot := carries_slot
  unknown := rejects_bare

end MiniC.Declarative
