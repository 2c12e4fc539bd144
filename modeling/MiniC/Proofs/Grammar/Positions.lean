import MiniC.Fault
import MiniC.Grammar
import MiniC.Grammar.Declarative
import MiniC.Proofs.Grammar.Basic
import MiniC.Proofs.Json.Path

/-!
# Where the nodes of a tree stand

A grammar reads nodes at five kinds of positions: items of the module, bodies of functions,
declarations in blocks, statements and expressions. A `Schema` says by which key the tag of a node
is found, which tags are known at a position, and where inside a node of a known kind further nodes
are read. `Schema.Site` puts these together to the paths of all nodes that are read below a node, at
any depth.

A fault inside a node is the fault of the node itself, if reading ends at the first fault and all
that comes before it is read as before. `Schema.Governs` says this of the nodes directly below a
node; `Schema.Site.rejects` carries it along a path of any length. An unknown node is then blamed at
its own place wherever it stands in a tree (`Schema.Governs.blames_unknown`).
-/

namespace MiniC

inductive Position where
  | item
  /-- The body of a function, in a grammar that has a node for it. -/
  | body
  /-- A declaration in a block, in a grammar that keeps them apart from statements. -/
  | decl
  | stmt
  | expr
  deriving DecidableEq, Repr

/-- A part of the way from a node to a node below it: a field, an item, or any item. -/
inductive Leg where
  | field (key : String)
  | item (index : Nat)
  | each
  deriving DecidableEq, Repr

/-- `Follows legs v path w`: the path takes these legs from `v` to `w`. -/
inductive Follows : List Leg → Json → Json.Path → Json → Prop
  | done {v : Json} : Follows [] v [] v
  | field {key : String} {fields : List (String × Json)} {v w : Json} {legs : List Leg}
      {path : Json.Path} (found : Json.lookup key fields = some v)
      (onward : Follows legs v path w) :
      Follows (.field key :: legs) (.obj fields) (.field key :: path) w
  | item {index : Nat} {items : List Json} {v w : Json} {legs : List Leg} {path : Json.Path}
      (found : items[index]? = some v) (onward : Follows legs v path w) :
      Follows (.item index :: legs) (.arr items) (.item index :: path) w
  | each {index : Nat} {items : List Json} {v w : Json} {legs : List Leg} {path : Json.Path}
      (found : items[index]? = some v) (onward : Follows legs v path w) :
      Follows (.each :: legs) (.arr items) (.item index :: path) w

lemma Follows.append (first rest : List Leg) {v w : Json} {path : Json.Path}
    (along : Follows (first ++ rest) v path w) :
    ∃ before behind x, Follows first v before x ∧ Follows rest x behind w ∧
      path = before ++ behind := by
  induction first generalizing v path with
  | nil => exact ⟨[], path, v, .done, along, rfl⟩
  | cons leg legs ih =>
    cases along with
    | field found onward =>
      obtain ⟨before, behind, x, begun, ended, rfl⟩ := ih onward
      exact ⟨_, behind, x, .field found begun, ended, rfl⟩
    | item found onward =>
      obtain ⟨before, behind, x, begun, ended, rfl⟩ := ih onward
      exact ⟨_, behind, x, .item found begun, ended, rfl⟩
    | each found onward =>
      obtain ⟨before, behind, x, begun, ended, rfl⟩ := ih onward
      exact ⟨_, behind, x, .each found begun, ended, rfl⟩

/-- What is accepted, and what is rejected with which fault. -/
structure Reader where
  Accepts : Json → Prop
  Rejects : Json → Fault → Prop

/-- A reader that ends with a result or a fault. -/
def Reader.ofRun {α : Type} (run : Json → Except Fault α) : Reader where
  Accepts v := ∃ a, run v = .ok a
  Rejects v fault := run v = .error fault

/-- Where the whole is accepted, so is the part at the end of the path, and with a part that is
rejected in its place the whole is rejected with the fault of this part. -/
def Reader.Carries (outer inner : Reader) (v : Json) (path : Json.Path) (w : Json) : Prop :=
  outer.Accepts v → inner.Accepts w ∧ ∀ f fault, f w ≠ .null → inner.Rejects (f w) fault →
    outer.Rejects (v.updateAt path f) fault

lemma Reader.Carries.trans {outer middle inner : Reader} {v x w : Json} {first rest : Json.Path}
    (before : outer.Carries middle v first x)
    (behind : middle.Accepts x → middle.Carries inner x rest w)
    (present : ∀ f, x.updateAt rest f ≠ .null) : outer.Carries inner v (first ++ rest) w := by
  intro accepted
  obtain ⟨middle_accepted, carry⟩ := before accepted
  obtain ⟨inner_accepted, carry'⟩ := behind middle_accepted middle_accepted
  refine ⟨inner_accepted, fun f fault changed rejected => ?_⟩
  rw [Json.updateAt_append]
  exact carry _ fault (present f) (carry' f fault changed rejected)

structure Schema where
  /-- From the root to the items of the module. -/
  root : List Leg
  /-- The key of the tag. -/
  key : Position → String
  /-- The kinds of nodes that are known at a position. -/
  kinds : Position → List String
  /-- The one of some kinds that a tag stands for. -/
  kindOf? : List String → Json → Option String
  /-- Where a node of a kind has further nodes, and what positions these are. -/
  slots : Position → String → List (List Leg × Position)

namespace Schema

variable {schema : Schema}

/-- `Site position v path target`: below a node at one position, or at the node itself, the path
leads to a node that is read at the target position. A null stands for a missing node. -/
inductive Site (schema : Schema) : Position → Json → Json.Path → Position → Prop
  | here {position : Position} {v : Json} (present : v ≠ .null) : schema.Site position v [] position
  | deeper {position inner target : Position} {v w tag : Json} {kind : String} {legs : List Leg}
      {path rest : Json.Path} (tagged : v.get? (schema.key position) = some tag)
      (known : schema.kindOf? (schema.kinds position) tag = some kind)
      (slot : (legs, inner) ∈ schema.slots position kind) (along : Follows legs v path w)
      (inside : schema.Site inner w rest target) : schema.Site position v (path ++ rest) target

/-- A path from the root to a node that is read at a position. -/
def Reads (schema : Schema) (root : Json) (path : Json.Path) (position : Position) : Prop :=
  ∃ first rest v, Follows schema.root root first v ∧ schema.Site .item v rest position ∧
    path = first ++ rest

lemma Site.present {position target : Position} {v : Json} {path : Json.Path}
    (site : schema.Site position v path target) : v ≠ .null := by
  cases site with
  | here present => exact present
  | deeper tagged =>
    rintro rfl
    cases tagged

end Schema

/-! ## The two grammars -/

namespace Tagged

/-- The parts of a node are numbered. -/
def param (index : Nat) (legs : List Leg) : List Leg :=
  .field "params" :: .item index :: legs

def kinds : Position → List String
  | .item => ["FunctionDefinition", "Declaration"]
  | .body => ["Block"]
  | .decl => ["Declaration"]
  | .stmt => ["ExpressionStatement", "Return", "Block"]
  | .expr => ["Add", "Assign", "Const", "FunctionCall", "Var"]

/-- From a declaration to the initial values of its declarators. -/
def initials : List Leg :=
  param 1 (.each :: param 1 [])

def slots : Position → String → List (List Leg × Position)
  | .item, "FunctionDefinition" => [(param 3 [], .body)]
  | .item, "Declaration" => [(initials, .expr)]
  | .body, "Block" => [(param 0 [.each], .decl), (param 1 [.each], .stmt)]
  | .decl, "Declaration" => [(initials, .expr)]
  | .stmt, "ExpressionStatement" => [(param 0 [], .expr)]
  | .stmt, "Return" => [(param 0 [], .expr)]
  | .stmt, "Block" => [(param 0 [.each], .decl), (param 1 [.each], .stmt)]
  | .expr, "Add" => [(param 0 [], .expr), (param 1 [], .expr)]
  | .expr, "Assign" => [(param 0 [], .expr), (param 2 [], .expr)]
  | .expr, "FunctionCall" => [(param 0 [], .expr), (param 1 [.each], .expr)]
  | _, _ => []

/-- A tag is the name of a kind. -/
def kindOf? (kinds : List String) : Json → Option String
  | .str name => if name ∈ kinds then some name else none
  | _ => none

def schema : Schema where
  root := [.each]
  key _ := "type"
  kinds := kinds
  kindOf? := kindOf?
  slots := slots

end Tagged

namespace Declarative

def key : Position → String
  | .item => "declarationType"
  | .body | .decl | .stmt => "statementType"
  | .expr => "expressionType"

/-- The body of a function is a list and no node, and a declaration is a statement. -/
def kinds : Position → List String
  | .item => declKinds
  | .body | .decl | .stmt => stmtKinds
  | .expr => exprKinds

def slots : Position → String → List (List Leg × Position)
  | .item, "FunctionDefinition" => [([.field "body", .each], .stmt)]
  | .stmt, "BlockStatement" => [([.field "statements", .each], .stmt)]
  | .stmt, "DeclarationStatement" =>
    [([.field "variableDeclarations", .each, .field "initialValueExpression"], .expr)]
  | .stmt, "ExpressionStatement" => [([.field "expression"], .expr)]
  | .stmt, "ReturnStatement" => [([.field "expression"], .expr)]
  | .expr, "AddExpression" => [([.field "left"], .expr), ([.field "right"], .expr)]
  | .expr, "BinaryExpression" => [([.field "left"], .expr), ([.field "right"], .expr)]
  | .expr, "AssignmentExpression" => [([.field "left"], .expr), ([.field "right"], .expr)]
  | .expr, "FunctionCallExpression" =>
    [([.field "callee"], .expr), ([.field "arguments", .each], .expr)]
  | _, _ => []

def schema : Schema where
  root := [.field "declarations", .each]
  key := key
  kinds := kinds
  kindOf? := kind?
  slots := slots

end Declarative

/-- The schema that a grammar's trees follow. -/
def Grammar.schema : Grammar → Schema
  | .tagged => Tagged.schema
  | _ => Declarative.schema

/-! ## Parts of nodes -/

/-- The operator of a symbol, which may not exist. -/
def operator {α : Type} (category symbol : String) (op? : Option α) (span : Span) :
    Except Fault α :=
  match op? with
  | some op => .ok op
  | none => .error (.unsupported (category ++ " operator '" ++ symbol ++ "'") span.start)

/-! ## Unknown nodes -/

/-- An object with the given fields, in any order, and no others. -/
def Json.HasFields (v : Json) (expected : List (String × Json)) : Prop :=
  ∃ fields, v = .obj fields ∧ ∀ key, Json.lookup key fields = Json.lookup key expected

/-- A node with nothing but a tag and a place. -/
def Json.IsBare (v : Json) (key tag : String) (line column : UInt32) : Prop :=
  ∃ place, v.HasFields [(key, .str tag), ("loc", place)] ∧
    place.HasFields [("line", .int line.toNat), ("column", .int column.toNat)]

lemma Json.IsBare.ne_null {v : Json} {key tag : String} {line column : UInt32}
    (bare : v.IsBare key tag line column) : v ≠ .null := by
  obtain ⟨_, ⟨fields, rfl, _⟩, _⟩ := bare
  simp

/-- A fault at a line and column that names a tag in quotes. -/
def Fault.Blames (fault : Fault) (tag : String) (line column : UInt32) : Prop :=
  ∃ before after,
    fault = .unsupported (before ++ "'" ++ tag ++ "'" ++ after) ⟨"<input>", line, column⟩

lemma Place.decode_of_hasFields {v : Json} {line column : UInt32}
    (h : v.HasFields [("line", .int line.toNat), ("column", .int column.toNat)]) :
    decode v = .ok (.inInput line column) := by
  obtain ⟨fields, rfl, same⟩ := h
  refine ofFields_ok_iff.mpr ⟨line, column, _, _, (same "line").trans ?_, (same "column").trans ?_,
    coordinate_int line, coordinate_int column, rfl⟩
  · simp [Json.lookup]
  · simp [Json.lookup]

/-! ## Faults of the whole tree -/

namespace Schema

variable {schema : Schema} {readers : Position → Reader} {root : Reader}

/-- The nodes that the schema names are read, and an unknown node among them is blamed. -/
structure Governs (schema : Schema) (readers : Position → Reader) (root : Reader) : Prop where
  top {v w : Json} {path : Json.Path} (along : Follows schema.root v path w) :
    root.Carries (readers .item) v path w
  slot {position inner : Position} {v w tag : Json} {kind : String} {legs : List Leg}
    {path : Json.Path} (tagged : v.get? (schema.key position) = some tag)
    (known : schema.kindOf? (schema.kinds position) tag = some kind)
    (slot : (legs, inner) ∈ schema.slots position kind) (along : Follows legs v path w)
    (present : w ≠ .null) : (readers position).Carries (readers inner) v path w
  unknown {position : Position} {v : Json} {tag : String} {line column : UInt32}
    (bare : v.IsBare (schema.key position) tag line column)
    (strange : tag ∉ schema.kinds position) :
    ∃ fault, (readers position).Rejects v fault ∧ fault.Blames tag line column

/-- What is rejected at the end of a path is rejected at its start. -/
lemma Site.rejects (governs : schema.Governs readers root) {position target : Position} {v : Json}
    {path : Json.Path} (site : schema.Site position v path target)
    (accepted : (readers position).Accepts v) {new : Json} (present : new ≠ .null) {fault : Fault}
    (rejected : (readers target).Rejects new fault) :
    (readers position).Rejects (v.replace path new) fault := by
  induction site with
  | here => exact rejected
  | deeper tagged known slot along inside ih =>
    obtain ⟨inner_accepted, carry⟩ := governs.slot tagged known slot along inside.present accepted
    rw [Json.replace, Json.updateAt_append]
    exact carry _ fault (Json.replace_ne_null inside.present _ present)
      (ih inner_accepted rejected)

/-- An unknown node at any depth is what the whole tree is rejected for. -/
lemma Governs.blames_unknown (governs : schema.Governs readers root) {v new : Json}
    {path : Json.Path} {position : Position} {tag : String} {line column : UInt32}
    (accepted : root.Accepts v) (site : schema.Reads v path position)
    (strange : tag ∉ schema.kinds position)
    (bare : new.IsBare (schema.key position) tag line column) :
    ∃ fault, root.Rejects (v.replace path new) fault ∧ fault.Blames tag line column := by
  obtain ⟨first, rest, w, along, site, rfl⟩ := site
  obtain ⟨item_accepted, carry⟩ := governs.top along accepted
  obtain ⟨fault, rejected, blames⟩ := governs.unknown bare strange
  have item_rejected := site.rejects governs item_accepted bare.ne_null rejected
  refine ⟨fault, ?_, blames⟩
  rw [Json.replace, Json.updateAt_append]
  exact carry _ fault (Json.replace_ne_null site.present rest bare.ne_null) item_rejected

end Schema

end MiniC
