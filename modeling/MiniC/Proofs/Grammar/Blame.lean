import MiniC.Proofs.Grammar.Agreement
import MiniC.Proofs.Grammar.Declarative.Blame
import MiniC.Proofs.Grammar.Tagged.Blame

/-!
# Unknown nodes are blamed where they stand

In a tree that is read, any node at the position of an item, a body, a declaration, a statement or
an expression can be exchanged for a node with an unknown tag. The tree is then rejected, whatever
the depth of the node, for this node and at its place.
-/

namespace MiniC

open Source

namespace Grammar

variable {root : Json} {path : Json.Path} {position : Position}

/-- A node below the root does not decide how the root is read. -/
lemma detect_replace (g : Grammar) (new : Json)
    (site : (g.detect root).schema.Reads root path position) :
    g.detect (root.replace path new) = g.detect root := by
  obtain ⟨first, rest, v, along, _, rfl⟩ := site
  cases g with
  | tagged | declarative => rfl
  | auto =>
    rw [Json.replace, Json.updateAt_append]
    cases root with
    | arr items =>
      obtain ⟨⟩ | ⟨⟩ | ⟨⟩ | ⟨found, ⟨⟩⟩ := along
      rfl
    | obj fields =>
      obtain ⟨⟩ | ⟨found, onward⟩ := along
      rfl
    | _ => cases along

/-- An unknown node in the place of a node that is read, at any depth, makes reading fail with a
fault that names its tag and stands at its line and column. -/
theorem lower_blames_unknown (g : Grammar) (root new : Json) (m : Module) (path : Json.Path)
    (position : Position) (tag : String) (line column : UInt32) (read : g.lower root = .ok m)
    (site : (g.detect root).schema.Reads root path position)
    (unknown : tag ∉ (g.detect root).schema.kinds position)
    (bare : new.IsBare ((g.detect root).schema.key position) tag line column) :
    ∃ fault, g.lower (root.replace path new) = .error fault ∧ fault.Blames tag line column := by
  rw [lower, detect_replace g new site]
  unfold lower at read
  cases detected : g.detect root with
  | tagged =>
    rw [detected] at read site unknown bare
    exact Tagged.schema_governs.blames_unknown ⟨m, read⟩ site unknown bare
  | declarative | auto =>
    rw [detected] at read site unknown bare
    exact Declarative.schema_governs.blames_unknown ⟨m, read⟩ site unknown bare

end Grammar

namespace Source

/-- To the `x` of `y = x + y` in the tagged tree of `Module.placed`. -/
def Module.placedOperand : Json.Path :=
  [.item 0, .field "params", .item 3, .field "params", .item 1, .item 0, .field "params", .item 1,
    .item 0, .field "params", .item 0, .field "params", .item 2, .field "params", .item 0]

/-- A choice in the place of an operand, below two blocks, an assignment and a sum. -/
theorem Module.placed_blames_choice :
    Grammar.auto.lower (Tagged.encode Module.placed) = .ok Module.placed ∧
      ∃ fault, Grammar.auto.lower ((Tagged.encode Module.placed).replace Module.placedOperand
          (.obj [("type", .str "Conditional"),
            ("loc", .obj [("line", .int (2 : UInt32).toNat),
              ("column", .int (9 : UInt32).toNat)])])) = .error fault ∧
        fault.Blames "Conditional" 2 9 := by
  have word : Specifier.int.IsRead := by decide +kernel
  have fits : Module.placed.Fits Tagged.shape := by
    simp [Module.placed, Module.Fits, Item.Fits, Function.Fits, Block.Fits, Decl.Fits, Param.Fits,
      Declarator.Fits, Stmt.Fits, Stmt.AllFit, Expr.Fits, Tagged.shape, word]
  have read : Grammar.auto.lower (Tagged.encode Module.placed) = .ok Module.placed :=
    Tagged.readModule_encode fits
  have site : Tagged.schema.Reads (Tagged.encode Module.placed) Module.placedOperand .expr := by
    refine ⟨[.item 0], [.field "params", .item 3] ++ ([.field "params", .item 1, .item 0] ++
      ([.field "params", .item 1, .item 0] ++ ([.field "params", .item 0] ++
        ([.field "params", .item 2] ++ ([.field "params", .item 0] ++ []))))), _,
      .each rfl .done, ?_, rfl⟩
    exact .deeper rfl rfl (.head _) (.field rfl (.item rfl .done)) <|
      .deeper rfl rfl (.tail _ (.head _)) (.field rfl (.item rfl (.each rfl .done))) <|
      .deeper rfl rfl (.tail _ (.head _)) (.field rfl (.item rfl (.each rfl .done))) <|
      .deeper rfl rfl (.head _) (.field rfl (.item rfl .done)) <|
      .deeper rfl rfl (.tail _ (.head _)) (.field rfl (.item rfl .done)) <|
      .deeper rfl rfl (.head _) (.field rfl (.item rfl .done)) <|
      .here (by simp [Tagged.encodeExpr, Tagged.encodeNode])
  exact ⟨read, Grammar.lower_blames_unknown .auto _ _ _ _ .expr "Conditional" 2 9 read site
    (by decide) ⟨_, ⟨_, rfl, fun _ => rfl⟩, ⟨_, rfl, fun _ => rfl⟩⟩⟩

end Source

end MiniC
