import MiniC.Proofs.Grammar.Declarative.Accepted
import MiniC.Proofs.Grammar.Tagged.Accepted
import MiniC.Proofs.Places.Erasure

/-!
# The two grammars agree

A module that was read in a grammar is read back from its tree in the same grammar. Its tree in the
other grammar, where it has one, is read as a module that differs in places only, and so compiles to
the same program or fails in the same way.
-/

namespace MiniC

open Source

/-- The tree of a module in a grammar. -/
def Grammar.encode : Grammar → Module → Json
  | .tagged => Tagged.encode
  | _ => Declarative.encode

/-- Nothing is asked of a tree. -/
def Source.Shape.free : Shape where
  span _ := True
  block _ _ := True
  operator _ := True
  specifier _ := True

/-- Whether a module has a tree in a grammar. In a tagged tree every binary operator is `+`; in a
declarative tree all items are functions, and the words of specifiers are not empty and hold no
blank. -/
def Grammar.Expresses : Grammar → Module → Prop
  | .tagged, m => m.Fits { Shape.free with operator := fun op => op = .add }
  | .declarative, m => (∀ item ∈ m.items, ∃ f, item = .function f) ∧
      m.Fits { Shape.free with specifier := Specifier.IsPlain }
  | .auto, _ => False

/-- What the trees of both grammars are read as. -/
def Source.Shape.read : Shape where
  span := Span.IsReadable
  block inner outer := inner = outer
  operator _ := True
  specifier := Specifier.IsRead

lemma Tagged.shape_meet : Shape.read.Meet { Shape.free with operator := fun op => op = .add }
    Tagged.shape :=
  ⟨fun h _ => h, fun h _ => h, fun _ h => h, fun h _ => h⟩

lemma Declarative.shape_meet :
    Shape.read.Meet { Shape.free with specifier := Specifier.IsPlain } Declarative.shape :=
  ⟨fun h _ => h, fun h _ => h, fun h _ => h, fun h plain => ⟨h, plain⟩⟩

namespace Grammar

lemma lower_fits {g : Grammar} {root : Json} {m : Module} (read : g.lower root = .ok m) :
    m.Fits Shape.read := by
  unfold lower at read
  split at read
  · have weaker : Tagged.shape.Meet Tagged.shape Shape.read :=
      ⟨fun h _ => h, fun h _ => h, fun _ _ => trivial, fun h _ => h⟩
    have fits := (Tagged.readModule_fits read).1
    exact fits.meet weaker fits
  · have weaker : Declarative.shape.Meet Declarative.shape Shape.read :=
      ⟨fun h _ => h, fun h _ => h, fun _ _ => trivial, fun h _ => h.1⟩
    have fits := (Declarative.readModule_fits read).1
    exact fits.meet weaker fits

lemma settle_of_same {f : Function} (same : f.body.span = f.span) :
    Declarative.settle (.function f) = .function f := by
  obtain ⟨name, result, params, ⟨decls, stmts, inner⟩, span⟩ := f
  cases same
  rfl

lemma erase_settle (item : Item) : (Declarative.settle item).erase = item.erase := by
  cases item with
  | function f =>
    obtain ⟨name, result, params, ⟨decls, stmts, inner⟩, span⟩ := f
    simp [Declarative.settle, Item.erase, Function.erase, Block.erase]
  | declaration d => rfl

/-- The tree of a module in a grammar that expresses it is read as the module, up to places. -/
lemma lower_encode_of_expresses {h : Grammar} {m : Module} (fits : m.Fits Shape.read)
    (expresses : h.Expresses m) :
    ∃ m', h.lower (h.encode m) = .ok m' ∧ m'.erase = m.erase := by
  match h, expresses with
  | .tagged, operators =>
    exact ⟨_, Tagged.readModule_encode (fits.meet Tagged.shape_meet operators), rfl⟩
  | .declarative, ⟨functions, plain⟩ =>
    refine ⟨_, Declarative.readModule_encode (fits.meet Declarative.shape_meet plain) functions, ?_⟩
    simp [Module.erase, erase_settle]

/-- The tree of a module has the root that its grammar is known by. -/
lemma detect_encode (g : Grammar) (root : Json) (m : Module) :
    g.detect ((g.detect root).encode m) = g.detect root := by
  cases g with
  | auto => cases root <;> rfl
  | _ => rfl

/-- A module that was read is read back from its tree. -/
lemma lower_encode_detect {g : Grammar} {root : Json} {m : Module} (read : g.lower root = .ok m) :
    g.lower ((g.detect root).encode m) = .ok m := by
  rw [lower, detect_encode]
  unfold lower at read
  cases detected : g.detect root with
  | tagged =>
    rw [detected] at read
    obtain ⟨fits, unplaced⟩ := Tagged.readModule_fits read
    have back := Tagged.readModule_encode fits
    rwa [← unplaced] at back
  | _ =>
    rw [detected] at read
    obtain ⟨fits, settled⟩ := Declarative.readModule_fits read
    have functions : ∀ item ∈ m.items, ∃ f, item = .function f := by
      intro item member
      obtain ⟨f, rfl, _⟩ := settled item member
      exact ⟨f, rfl⟩
    have unchanged : m.items.map Declarative.settle = m.items := by
      refine (List.map_congr_left fun item member => ?_).trans (List.map_id _)
      obtain ⟨f, rfl, same⟩ := settled item member
      exact settle_of_same same
    have back := Declarative.readModule_encode fits functions
    rwa [unchanged] at back

/-- In every grammar a module that was read is read back from its tree. In a grammar that expresses
the module its tree is read as the same module up to places, and the two compile to the same program
or fail with the same fault up to places. -/
theorem lower_reads_back (g : Grammar) (root : Json) (m : Module) (read : g.lower root = .ok m) :
    g.lower ((g.detect root).encode m) = .ok m ∧
      ∀ h : Grammar, h.Expresses m → ∃ m', h.lower (h.encode m) = .ok m' ∧ m'.erase = m.erase ∧
        ∀ options, (m'.compile options).mapError Fault.erase =
          (m.compile options).mapError Fault.erase := by
  refine ⟨lower_encode_detect read, fun h expresses => ?_⟩
  obtain ⟨m', read', same⟩ := lower_encode_of_expresses (lower_fits read) expresses
  exact ⟨m', read', same, Module.compile_of_erase_eq same⟩

end Grammar

namespace Source

/-- `int f(int x) { int y = 5; { y = x + y; } return y; }`, with places that the two grammars do not
all keep. -/
def Module.placed : Module :=
  let span (line column : UInt32) : Span := .point (.inInput line column)
  let sum : Expr := .binary .add (.ident "x" (span 2 9)) (.ident "y" .unknown) (span 2 11)
  let update : Expr := .assign .plain (.ident "y" .unknown) sum .unknown
  let y : Declarator := ⟨"y", some (.const "5" (span 1 24)), .unknown⟩
  let inner : Block := ⟨[], [.expr update (span 2 5)], span 2 3⟩
  let body : Block := ⟨[⟨[.int], [y], .unknown⟩],
    [.block inner (span 2 3), .ret (some (.ident "y" .unknown)) (span 3 3)], span 1 14⟩
  ⟨[.function ⟨"f", [.int], [⟨some "x", [.int], span 1 7⟩], body, span 1 1⟩], .unknown⟩

/-- The place of the body is written in one grammar only. -/
theorem Module.placed_read_back :
    Grammar.tagged.lower (Tagged.encode Module.placed) = .ok Module.placed ∧
      (Module.placed.compile .default).isOk ∧
      ∃ m', Grammar.declarative.lower (Declarative.encode Module.placed) = .ok m' ∧
        m'.erase = Module.placed.erase ∧ ∀ options, (m'.compile options).mapError Fault.erase =
          (Module.placed.compile options).mapError Fault.erase := by
  have word : Specifier.int.IsRead := by decide +kernel
  have plain : Specifier.int.IsPlain := by decide +kernel
  have fits : Module.placed.Fits Tagged.shape := by
    simp [Module.placed, Module.Fits, Item.Fits, Function.Fits, Block.Fits, Decl.Fits, Param.Fits,
      Declarator.Fits, Stmt.Fits, Stmt.AllFit, Expr.Fits, Tagged.shape, word]
  have read : Grammar.tagged.lower (Tagged.encode Module.placed) = .ok Module.placed :=
    Tagged.readModule_encode fits
  have expresses : Grammar.declarative.Expresses Module.placed := by
    simp [Grammar.Expresses, Module.placed, Module.Fits, Item.Fits, Function.Fits, Block.Fits,
      Decl.Fits, Param.Fits, Declarator.Fits, Stmt.Fits, Stmt.AllFit, Expr.Fits, Shape.free, plain]
  have accepted : (Module.placed.compile .default).isOk := by decide +kernel
  exact ⟨read, accepted,
    (Grammar.lower_reads_back .tagged _ Module.placed read).2 .declarative expresses⟩

end Source

end MiniC
