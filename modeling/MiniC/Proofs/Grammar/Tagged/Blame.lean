import MiniC.Proofs.Grammar.Tagged.Children

/-!
# Faults inside tagged trees

A run relays the faults of a part if it reads the part before anything that could fail differently.
Tagged readers go through a node in a fixed order and stop at the first fault, so every slot of a
tagged node carries faults, and an unknown node anywhere in a tree is what the tree is rejected for
(`schema_governs`).
-/

namespace MiniC.Tagged

open Source
open Reader (ofRun)

/-- A run that reads the part `w` with `inner`. Where the run succeeds, so does reading this part,
and the run with a part that cannot be read in its place ends with the fault of this part. -/
def Relays {α β : Type} (inner : Json → Except Fault β) (w : Json) (run : Except Fault α)
    (changed : (Json → Json) → Except Fault α) : Prop :=
  ∀ a, run = .ok a → (∃ b, inner w = .ok b) ∧
    ∀ f fault, f w ≠ .null → inner (f w) = .error fault → changed f = .error fault

namespace Relays

variable {α β γ : Type} {inner : Json → Except Fault β} {w : Json}

lemma part : Relays inner w (inner w) fun f => inner (f w) :=
  fun b ok => ⟨⟨b, ok⟩, fun _ _ _ fails => fails⟩

lemma first {run : Except Fault α} {changed : (Json → Json) → Except Fault α}
    {next : α → Except Fault γ} {next' : (Json → Json) → α → Except Fault γ}
    (relays : Relays inner w run changed) :
    Relays inner w (run >>= next) fun f => changed f >>= next' f := by
  intro c ok
  obtain ⟨a, run_ok, _⟩ := except_bind_ok_iff.mp ok
  obtain ⟨inner_ok, carry⟩ := relays a run_ok
  refine ⟨inner_ok, fun f fault present fails => ?_⟩
  simp only [carry f fault present fails]
  rfl

lemma later {run : Except Fault α} {next : α → Except Fault γ}
    {next' : (Json → Json) → α → Except Fault γ}
    (relays : ∀ a, Relays inner w (next a) fun f => next' f a) :
    Relays inner w (run >>= next) fun f => run >>= next' f := by
  intro c ok
  obtain ⟨a, run_ok, ok⟩ := except_bind_ok_iff.mp ok
  obtain ⟨inner_ok, carry⟩ := relays a c ok
  refine ⟨inner_ok, fun f fault present fails => ?_⟩
  simp only [run_ok]
  exact carry f fault present fails

/-- The part is an item of a list. -/
lemma items {items : List Json} {j : Nat} (found : items[j]? = some w) :
    Relays inner w (items.mapM inner) fun f => (items.modify j f).mapM inner := by
  induction items generalizing j with
  | nil => cases found
  | cons v rest ih =>
    cases j with
    | zero =>
      cases found
      simp only [List.modify_zero_cons, List.mapM_cons]
      exact part.first
    | succ j =>
      simp only [List.modify_succ_cons, List.mapM_cons]
      exact later fun _ => (ih found).first

end Relays

lemma Relays.carries {α β : Type} {outer : Json → Except Fault α} {inner : Json → Except Fault β}
    {v w : Json} {path : Json.Path}
    (relays : Relays inner w (outer v) fun f => outer (v.updateAt path f)) :
    (ofRun outer).Carries (ofRun inner) v path w := by
  rintro ⟨a, ok⟩
  exact relays a ok

variable {v w : Json} {tag : String} {params : List Json} {span : Span}

lemma Relays.optional {β : Type} {inner : Json → Except Fault β} {i : Nat}
    {params' : (Json → Json) → List Json} (present : w ≠ .null) (found : params[i]? = some w)
    (found' : ∀ f, (params' f)[i]? = some (f w)) :
    Relays inner w (optionalChild params i inner) fun f => optionalChild (params' f) i inner := by
  have read_part : ∀ {params : List Json} {w : Json}, w ≠ .null → params[i]? = some w →
      optionalChild params i inner = some <$> inner w := by
    intro params w present found
    rw [optionalChild, found]
    cases w <;> first | rfl | exact absurd rfl present
  intro a ok
  rw [read_part present found, map_eq_pure_bind] at ok
  obtain ⟨b, inner_ok, _⟩ := except_bind_ok_iff.mp ok
  refine ⟨⟨b, inner_ok⟩, fun f fault present' fails => ?_⟩
  simp only [read_part present' (found' f), fails]
  rfl

/-! ## Slots -/

section Slots

variable {i : Nat} {path : Json.Path}

lemma carries_add (type : v.get? "type" = some (.str "Add")) (slot : i = 0 ∨ i = 1)
    (along : Follows (param i []) v path w) :
    (ofRun readExpr).Carries (ofRun readExpr) v path w := by
  obtain ⟨_, _, _, node, node', found, found', others⟩ := child_at type along
  refine Relays.carries ?_
  simp only [readExpr_add node, fun f => readExpr_add (node' f)]
  obtain rfl | rfl := slot
  · simp only [child_some found, fun f => child_some (found' f), pure_bind]
    exact Relays.part.first
  · simp only [fun f => child_congr (others f 0 (by decide)), child_some found,
      fun f => child_some (found' f), pure_bind]
    exact .later fun _ => .later fun _ => Relays.part.first

lemma carries_assign (type : v.get? "type" = some (.str "Assign")) (slot : i = 0 ∨ i = 2)
    (along : Follows (param i []) v path w) :
    (ofRun readExpr).Carries (ofRun readExpr) v path w := by
  obtain ⟨_, _, _, node, node', found, found', others⟩ := child_at type along
  refine Relays.carries ?_
  simp only [readExpr_assign node, fun f => readExpr_assign (node' f)]
  obtain rfl | rfl := slot
  · simp only [fun f => child_congr (others f 1 (by decide)), child_some found,
      fun f => child_some (found' f), pure_bind]
    exact .later fun _ => .later fun _ => Relays.part.first
  · simp only [fun f => child_congr (others f 0 (by decide)),
      fun f => child_congr (others f 1 (by decide)), child_some found,
      fun f => child_some (found' f), pure_bind]
    exact .later fun _ => .later fun _ => .later fun _ => .later fun _ => Relays.part.first

lemma carries_callee (type : v.get? "type" = some (.str "FunctionCall"))
    (along : Follows (param 0 []) v path w) :
    (ofRun readExpr).Carries (ofRun readExpr) v path w := by
  obtain ⟨_, _, _, node, node', found, found', _⟩ := child_at type along
  refine Relays.carries ?_
  simp only [readExpr_call node, fun f => readExpr_call (node' f), child_some found,
    fun f => child_some (found' f), pure_bind]
  exact Relays.part.first

lemma carries_arg (type : v.get? "type" = some (.str "FunctionCall"))
    (along : Follows (param 1 [.each]) v path w) :
    (ofRun readExpr).Carries (ofRun readExpr) v path w := by
  obtain ⟨_, _, _, _, _, node, node', found, found', others, item⟩ := item_at type along
  refine Relays.carries ?_
  simp only [readExpr_call node, fun f => readExpr_call (node' f),
    fun f => child_congr (others f 0 (by decide)), child_items found,
    fun f => child_items (found' f), pure_bind]
  exact .later fun _ => .later fun _ => (Relays.items item).first

lemma carries_value (type : v.get? "type" = some (.str "ExpressionStatement"))
    (along : Follows (param 0 []) v path w) :
    (ofRun readStmt).Carries (ofRun readExpr) v path w := by
  obtain ⟨_, _, _, node, node', found, found', _⟩ := child_at type along
  refine Relays.carries ?_
  simp only [readStmt_expr node, fun f => readStmt_expr (node' f), child_some found,
    fun f => child_some (found' f), pure_bind]
  exact Relays.part.first

lemma carries_result (type : v.get? "type" = some (.str "Return"))
    (along : Follows (param 0 []) v path w) (present : w ≠ .null) :
    (ofRun readStmt).Carries (ofRun readExpr) v path w := by
  obtain ⟨_, _, _, node, node', found, found', _⟩ := child_at type along
  refine Relays.carries ?_
  simp only [readStmt_ret node, fun f => readStmt_ret (node' f)]
  exact (Relays.optional present found found').first

/-- The declarations of a block, which is a statement or a body. -/
lemma carries_decl (type : v.get? "type" = some (.str "Block"))
    (along : Follows (param 0 [.each]) v path w) :
    (ofRun readStmt).Carries (ofRun readDeclaration) v path w ∧
      (ofRun readBlock).Carries (ofRun readDeclaration) v path w := by
  obtain ⟨params, params', span, _, _, node, node', found, found', _, item⟩ := item_at type along
  have parts : Relays readDeclaration w (readParts params span)
      fun f => readParts (params' f) span := by
    simp only [readParts, child_items found, fun f => child_items (found' f), pure_bind]
    exact (Relays.items item).first
  constructor
  · refine Relays.carries ?_
    simp only [readStmt_block node, fun f => readStmt_block (node' f), map_eq_pure_bind]
    exact parts.first
  · refine Relays.carries ?_
    simp only [readBlock_parts node, fun f => readBlock_parts (node' f)]
    exact parts

lemma carries_stmt (type : v.get? "type" = some (.str "Block"))
    (along : Follows (param 1 [.each]) v path w) :
    (ofRun readStmt).Carries (ofRun readStmt) v path w ∧
      (ofRun readBlock).Carries (ofRun readStmt) v path w := by
  obtain ⟨params, params', span, _, _, node, node', found, found', others, item⟩ :=
    item_at type along
  have parts : Relays readStmt w (readParts params span) fun f => readParts (params' f) span := by
    simp only [readParts, fun f => child_congr (others f 0 (by decide)), child_items found,
      fun f => child_items (found' f), pure_bind]
    exact .later fun _ => .later fun _ => (Relays.items item).first
  constructor
  · refine Relays.carries ?_
    simp only [readStmt_block node, fun f => readStmt_block (node' f), map_eq_pure_bind]
    exact parts.first
  · refine Relays.carries ?_
    simp only [readBlock_parts node, fun f => readBlock_parts (node' f)]
    exact parts

lemma carries_init (type : v.get? "type" = some (.str "InitDeclarator"))
    (along : Follows (param 1 []) v path w) (present : w ≠ .null) :
    (ofRun readDeclarator).Carries (ofRun readExpr) v path w := by
  obtain ⟨_, _, _, node, node', found, found', others⟩ := child_at type along
  refine Relays.carries ?_
  simp only [readDeclarator_init node, fun f => readDeclarator_init (node' f),
    fun f => child_congr (others f 0 (by decide))]
  exact .later fun _ => .later fun _ => (Relays.optional present found found').first

lemma type_of_readDeclarator {d : Declarator} (ok : readDeclarator v = .ok d) :
    v.get? "type" = some (.str "InitDeclarator") := by
  obtain ⟨_, expected, _⟩ := except_bind_ok_iff.mp ok
  exact get?_type_of_isNode (Node.expect_ok expected)

lemma carries_declarator (type : v.get? "type" = some (.str "Declaration"))
    (along : Follows (param 1 [.each]) v path w) :
    (ofRun readDeclaration).Carries (ofRun readDeclarator) v path w := by
  obtain ⟨_, _, _, _, _, node, node', found, found', others, item⟩ := item_at type along
  refine Relays.carries ?_
  simp only [readDeclaration_parts node, fun f => readDeclaration_parts (node' f),
    fun f => child_congr (others f 0 (by decide)), child_items found,
    fun f => child_items (found' f), pure_bind]
  exact .later fun _ => (Relays.items item).first

lemma carries_initial (type : v.get? "type" = some (.str "Declaration"))
    (along : Follows initials v path w) (present : w ≠ .null) :
    (ofRun readDeclaration).Carries (ofRun readExpr) v path w := by
  obtain ⟨first, rest, x, to_declarator, to_init, rfl⟩ :=
    Follows.append (param 1 [.each]) (param 1 []) along
  refine (carries_declarator type to_declarator).trans
    (fun ⟨d, ok⟩ => carries_init (type_of_readDeclarator ok) to_init present) fun f => ?_
  cases to_init
  exact Json.update_ne_null (by simp) _ _

lemma carries_global (type : v.get? "type" = some (.str "Declaration"))
    (along : Follows initials v path w) (present : w ≠ .null) :
    (ofRun readItem).Carries (ofRun readExpr) v path w := by
  obtain ⟨_, _, _, _, _, node, node', _⟩ := child_of_follows type along
  refine Relays.carries ?_
  simp only [readItem_declaration node, fun f => readItem_declaration (node' f),
    map_eq_pure_bind]
  exact Relays.first fun d ok => carries_initial type along present ⟨d, ok⟩

lemma carries_body (type : v.get? "type" = some (.str "FunctionDefinition"))
    (along : Follows (param 3 []) v path w) :
    (ofRun readItem).Carries (ofRun readBlock) v path w := by
  obtain ⟨_, _, _, node, node', found, found', others⟩ := child_at type along
  refine Relays.carries ?_
  simp only [readItem_function node, fun f => readItem_function (node' f),
    fun f => child_congr (others f 0 (by decide)), fun f => child_congr (others f 1 (by decide)),
    fun f => child_congr (others f 2 (by decide)), child_some found,
    fun f => child_some (found' f), pure_bind]
  exact .later fun _ => .later fun _ => .later fun _ => .later fun _ => .later fun _ =>
    Relays.part.first

end Slots

/-! ## Faults of the node that is read -/

def readers : Position → Reader
  | .item => ofRun readItem
  | .body => ofRun readBlock
  | .decl => ofRun readDeclaration
  | .stmt => ofRun readStmt
  | .expr => ofRun readExpr

lemma kindOf?_eq_some_iff {kinds : List String} {tag : Json} {kind : String} :
    kindOf? kinds tag = some kind ↔ tag = .str kind ∧ kind ∈ kinds := by
  unfold kindOf?
  split
  · next name =>
    by_cases member : name ∈ kinds <;> grind
  · next other =>
    constructor
    · intro h
      cases h
    · rintro ⟨rfl, _⟩
      exact absurd rfl (other kind)

lemma carries_slot {position inner : Position} {tag : Json} {kind : String} {legs : List Leg}
    {path : Json.Path} (tagged : v.get? "type" = some tag)
    (known : kindOf? (kinds position) tag = some kind) (slot : (legs, inner) ∈ slots position kind)
    (along : Follows legs v path w) (present : w ≠ .null) :
    (readers position).Carries (readers inner) v path w := by
  obtain ⟨rfl, member⟩ := kindOf?_eq_some_iff.mp known
  cases position with
  | item =>
    obtain rfl | rfl : kind = "FunctionDefinition" ∨ kind = "Declaration" := by
      simpa [kinds] using member
    · obtain ⟨rfl, rfl⟩ : legs = param 3 [] ∧ inner = .body := by simpa [slots] using slot
      exact carries_body tagged along
    · obtain ⟨rfl, rfl⟩ : legs = initials ∧ inner = .expr := by simpa [slots] using slot
      exact carries_global tagged along present
  | body =>
    obtain rfl : kind = "Block" := by simpa [kinds] using member
    obtain ⟨rfl, rfl⟩ | ⟨rfl, rfl⟩ : legs = param 0 [.each] ∧ inner = .decl ∨
        legs = param 1 [.each] ∧ inner = .stmt := by simpa [slots] using slot
    · exact (carries_decl tagged along).2
    · exact (carries_stmt tagged along).2
  | decl =>
    obtain rfl : kind = "Declaration" := by simpa [kinds] using member
    obtain ⟨rfl, rfl⟩ : legs = initials ∧ inner = .expr := by simpa [slots] using slot
    exact carries_initial tagged along present
  | stmt =>
    obtain rfl | rfl | rfl : kind = "ExpressionStatement" ∨ kind = "Return" ∨ kind = "Block" := by
      simpa [kinds] using member
    · obtain ⟨rfl, rfl⟩ : legs = param 0 [] ∧ inner = .expr := by simpa [slots] using slot
      exact carries_value tagged along
    · obtain ⟨rfl, rfl⟩ : legs = param 0 [] ∧ inner = .expr := by simpa [slots] using slot
      exact carries_result tagged along present
    · obtain ⟨rfl, rfl⟩ | ⟨rfl, rfl⟩ : legs = param 0 [.each] ∧ inner = .decl ∨
          legs = param 1 [.each] ∧ inner = .stmt := by simpa [slots] using slot
      · exact (carries_decl tagged along).1
      · exact (carries_stmt tagged along).1
  | expr =>
    obtain rfl | rfl | rfl | rfl | rfl : kind = "Add" ∨ kind = "Assign" ∨ kind = "Const" ∨
        kind = "FunctionCall" ∨ kind = "Var" := by simpa [kinds] using member
    · obtain ⟨rfl, rfl⟩ | ⟨rfl, rfl⟩ : legs = param 0 [] ∧ inner = .expr ∨
          legs = param 1 [] ∧ inner = .expr := by simpa [slots] using slot
      · exact carries_add tagged (.inl rfl) along
      · exact carries_add tagged (.inr rfl) along
    · obtain ⟨rfl, rfl⟩ | ⟨rfl, rfl⟩ : legs = param 0 [] ∧ inner = .expr ∨
          legs = param 2 [] ∧ inner = .expr := by simpa [slots] using slot
      · exact carries_assign tagged (.inl rfl) along
      · exact carries_assign tagged (.inr rfl) along
    · simp [slots] at slot
    · obtain ⟨rfl, rfl⟩ | ⟨rfl, rfl⟩ : legs = param 0 [] ∧ inner = .expr ∨
          legs = param 1 [.each] ∧ inner = .expr := by simpa [slots] using slot
      · exact carries_callee tagged along
      · exact carries_arg tagged along
    · simp [slots] at slot

section Bare

variable {new : Json} {line column : UInt32} {position : Position}

lemma isNode_of_isBare (bare : new.IsBare "type" tag line column) :
    IsNode new tag [] (.point (.inInput line column)) := by
  obtain ⟨place, ⟨fields, rfl, same⟩, place_fields⟩ := bare
  have type : Json.lookup "type" fields = some (.str tag) := by simp [same, Json.lookup]
  have children : Json.fieldPart? "params" fields (Json.sizeOf_fields_lt fields) = none := by
    rw [← Option.map_eq_none_iff (f := (·.1)), Json.fieldPart?_eq_lookup, same]
    simp [Json.lookup]
  have placed : Json.lookup "loc" fields = some place := by simp [same, Json.lookup]
  have span : spanOf (.obj fields) = .point (.inInput line column) := by
    simp [spanOf, Json.get?, placed, Place.decode_of_hasFields place_fields, Except.toOption,
      Place.span]
  refine ⟨sizeOf_nil_lt fields, ?_⟩
  simp only [Node.read, type, children, span]

lemma readItem_unknown (node : IsNode v tag params span) (unknown : tag ∉ kinds .item) :
    readItem v = .error (.unsupported ("node '" ++ tag ++ "'") span.start) := by
  obtain ⟨_, read⟩ := node
  simp only [kinds, List.mem_cons, List.not_mem_nil, or_false, not_or] at unknown
  rw [readItem, read]
  simp [bind, Except.bind, unknown, Node.unsupported, Node.place]

lemma readStmt_unknown (node : IsNode v tag params span) (unknown : tag ∉ kinds .stmt) :
    readStmt v = .error (.unsupported ("node '" ++ tag ++ "'") span.start) := by
  obtain ⟨_, read⟩ := node
  simp only [kinds, List.mem_cons, List.not_mem_nil, or_false, not_or] at unknown
  rw [readStmt, read]
  simp [bind, Except.bind, unknown, Node.unsupported, Node.place]

lemma readExpr_unknown (node : IsNode v tag params span) (unknown : tag ∉ kinds .expr) :
    readExpr v = .error (.unsupported ("node '" ++ tag ++ "'") span.start) := by
  obtain ⟨_, read⟩ := node
  simp only [kinds, List.mem_cons, List.not_mem_nil, or_false, not_or] at unknown
  rw [readExpr, read]
  simp [bind, Except.bind, unknown, Node.unsupported, Node.place]

lemma Node.expect_unknown {expected : String} (node : IsNode v tag params span)
    (unknown : tag ∉ [expected]) : Node.expect v expected =
      .error (.unsupported ("node '" ++ tag ++ "' where '" ++ expected ++ "' was expected")
        span.start) := by
  obtain ⟨_, read⟩ := node
  rw [Node.expect, read]
  exact if_neg (by simpa using unknown)

lemma rejects_bare (bare : new.IsBare "type" tag line column) (unknown : tag ∉ kinds position) :
    ∃ fault, (readers position).Rejects new fault ∧ fault.Blames tag line column := by
  have node := isNode_of_isBare bare
  have split : "node '" = "node " ++ "'" := rfl
  have split' : "' where '" = "'" ++ " where '" := rfl
  have alone : (Fault.unsupported ("node '" ++ tag ++ "'") (.inInput line column)).Blames tag
      line column := ⟨"node ", "", by simp [split, Location.inInput]⟩
  have expected : ∀ kind, (Fault.unsupported ("node '" ++ tag ++ "' where '" ++ kind ++
      "' was expected") (.inInput line column)).Blames tag line column := by
    intro kind
    refine ⟨"node ", " where '" ++ kind ++ "' was expected", ?_⟩
    simp only [split, split', String.append_assoc, Location.inInput]
  cases position with
  | item => exact ⟨_, readItem_unknown node unknown, alone⟩
  | body =>
    refine ⟨_, ?_, expected "Block"⟩
    simp only [readers, ofRun, readBlock, Node.expect_unknown node unknown]
    rfl
  | decl =>
    refine ⟨_, ?_, expected "Declaration"⟩
    simp only [readers, ofRun, readDeclaration, Node.expect_unknown node unknown]
    rfl
  | stmt => exact ⟨_, readStmt_unknown node unknown, alone⟩
  | expr => exact ⟨_, readExpr_unknown node unknown, alone⟩

end Bare

lemma carries_item {path : Json.Path} (along : Follows schema.root v path w) :
    (ofRun readModule).Carries (ofRun readItem) v path w := by
  obtain ⟨⟩ | ⟨⟩ | ⟨⟩ | ⟨found, ⟨⟩⟩ := along
  refine Relays.carries ?_
  simp only [Json.updateAt, Json.update, readModule,
    eq_mapM readItems readItem rfl fun _ _ => rfl]
  exact (Relays.items found).first

/-- The schema says where tagged nodes are read. -/
theorem schema_governs : schema.Governs readers (ofRun readModule) where
  top := carries_item
  slot := carries_slot
  unknown := rejects_bare

end MiniC.Tagged
