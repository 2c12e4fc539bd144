import MiniC.Proofs.Grammar.Basic
import MiniC.Proofs.Text.Words
import MiniC.Source.Tree

/-!
# What may stand in a source tree

A tree that was read from either grammar has only spans that can be written again, words that their
specifiers are read from, and blocks that stand where their statements do. A `Shape` says which
spans, operators and specifiers may occur, and `Fits` that nothing else occurs at any depth.
-/

namespace MiniC

/-- A specifier that its word is read as. -/
def Specifier.IsRead (s : Specifier) : Prop :=
  .ofWord s.word = s

/-- A specifier whose word can stand between blanks. -/
def Specifier.IsPlain (s : Specifier) : Prop :=
  Text.IsWord s.word

instance (s : Specifier) : Decidable s.IsRead :=
  inferInstanceAs (Decidable (_ = _))

instance (s : Specifier) : Decidable s.IsPlain :=
  inferInstanceAs (Decidable (Text.IsWord _))

lemma Specifier.word_ofWord (word : String) : (Specifier.ofWord word).word = word := by
  unfold Specifier.ofWord
  split <;> rfl

lemma Specifier.isRead_ofWord (word : String) : (Specifier.ofWord word).IsRead := by
  rw [IsRead, word_ofWord]

namespace Source

/-- The spans, binary operators and specifiers that may occur, and which spans a block and the
statement that it is may have together. -/
structure Shape where
  span : Span → Prop
  block : Span → Span → Prop
  operator : BinaryOp → Prop
  specifier : Specifier → Prop

variable (shape : Shape)

mutual

def Expr.Fits : Expr → Prop
  | .const _ span => shape.span span
  | .ident _ span => shape.span span
  | .binary op left right span =>
    shape.operator op ∧ left.Fits ∧ right.Fits ∧ shape.span span
  | .assign _ target value span => target.Fits ∧ value.Fits ∧ shape.span span
  | .call callee args span => callee.Fits ∧ Expr.AllFit args ∧ shape.span span

def Expr.AllFit : List Expr → Prop
  | [] => True
  | e :: rest => e.Fits ∧ Expr.AllFit rest

end

def Declarator.Fits (d : Declarator) : Prop :=
  (∀ e ∈ d.init, e.Fits shape) ∧ shape.span d.span

def Decl.Fits (d : Decl) : Prop :=
  (∀ s ∈ d.specifiers, shape.specifier s) ∧ (∀ x ∈ d.declarators, x.Fits shape) ∧
    shape.span d.span

mutual

def Stmt.Fits : Stmt → Prop
  | .expr value span => value.Fits shape ∧ shape.span span
  | .ret value span => (∀ e ∈ value, e.Fits shape) ∧ shape.span span
  | .block body span => body.Fits ∧ shape.block body.span span

def Stmt.AllFit : List Stmt → Prop
  | [] => True
  | s :: rest => s.Fits ∧ Stmt.AllFit rest

def Block.Fits : Block → Prop
  | ⟨decls, stmts, span⟩ => (∀ d ∈ decls, d.Fits shape) ∧ Stmt.AllFit stmts ∧ shape.span span

end

def Param.Fits (p : Param) : Prop :=
  (∀ s ∈ p.specifiers, shape.specifier s) ∧ shape.span p.span

def Function.Fits (f : Function) : Prop :=
  (∀ s ∈ f.result, shape.specifier s) ∧ (∀ p ∈ f.params, p.Fits shape) ∧ f.body.Fits shape ∧
    shape.span f.span

def Item.Fits : Item → Prop
  | .function f => f.Fits shape
  | .declaration d => d.Fits shape

def Module.Fits (m : Module) : Prop :=
  (∀ item ∈ m.items, item.Fits shape) ∧ shape.span m.span

/-! ## Two shapes at once -/

/-- Whatever fits the first two shapes fits the third. -/
structure Shape.Meet (first second both : Shape) : Prop where
  span : ∀ {x}, first.span x → second.span x → both.span x
  block : ∀ {x y}, first.block x y → second.block x y → both.block x y
  operator : ∀ {x}, first.operator x → second.operator x → both.operator x
  specifier : ∀ {x}, first.specifier x → second.specifier x → both.specifier x

variable {first second both : Shape}

mutual

theorem Expr.Fits.meet (h : first.Meet second both) :
    ∀ (e : Expr), e.Fits first → e.Fits second → e.Fits both
  | .const _ _, a, b => h.span a b
  | .ident _ _, a, b => h.span a b
  | .binary _ left right _, ⟨a, al, ar, as⟩, ⟨b, bl, br, bs⟩ =>
    ⟨h.operator a b, Expr.Fits.meet h left al bl, Expr.Fits.meet h right ar br, h.span as bs⟩
  | .assign _ target value _, ⟨al, ar, as⟩, ⟨bl, br, bs⟩ =>
    ⟨Expr.Fits.meet h target al bl, Expr.Fits.meet h value ar br, h.span as bs⟩
  | .call callee args _, ⟨al, ar, as⟩, ⟨bl, br, bs⟩ =>
    ⟨Expr.Fits.meet h callee al bl, Expr.AllFit.meet h args ar br, h.span as bs⟩

theorem Expr.AllFit.meet (h : first.Meet second both) :
    ∀ (es : List Expr), Expr.AllFit first es → Expr.AllFit second es → Expr.AllFit both es
  | [], _, _ => trivial
  | e :: rest, ⟨a, as⟩, ⟨b, bs⟩ => ⟨Expr.Fits.meet h e a b, Expr.AllFit.meet h rest as bs⟩

end

lemma Decl.Fits.meet (h : first.Meet second both) {d : Decl} (a : d.Fits first)
    (b : d.Fits second) : d.Fits both := by
  refine ⟨fun s member => h.specifier (a.1 s member) (b.1 s member), fun x member => ?_,
    h.span a.2.2 b.2.2⟩
  have left := a.2.1 x member
  have right := b.2.1 x member
  exact ⟨fun e inside => Expr.Fits.meet h e (left.1 e inside) (right.1 e inside),
    h.span left.2 right.2⟩

mutual

theorem Stmt.Fits.meet (h : first.Meet second both) :
    ∀ (s : Stmt), s.Fits first → s.Fits second → s.Fits both
  | .expr value _, ⟨a, as⟩, ⟨b, bs⟩ => ⟨Expr.Fits.meet h value a b, h.span as bs⟩
  | .ret _ _, ⟨a, as⟩, ⟨b, bs⟩ =>
    ⟨fun e member => Expr.Fits.meet h e (a e member) (b e member), h.span as bs⟩
  | .block body _, ⟨a, as⟩, ⟨b, bs⟩ => ⟨Block.Fits.meet h body a b, h.block as bs⟩

theorem Stmt.AllFit.meet (h : first.Meet second both) :
    ∀ (stmts : List Stmt), Stmt.AllFit first stmts → Stmt.AllFit second stmts →
      Stmt.AllFit both stmts
  | [], _, _ => trivial
  | s :: rest, ⟨a, as⟩, ⟨b, bs⟩ => ⟨Stmt.Fits.meet h s a b, Stmt.AllFit.meet h rest as bs⟩

theorem Block.Fits.meet (h : first.Meet second both) :
    ∀ (block : Block), block.Fits first → block.Fits second → block.Fits both
  | ⟨_, stmts, _⟩, ⟨ad, a, as⟩, ⟨bd, b, bs⟩ =>
    ⟨fun d member => (ad d member).meet h (bd d member), Stmt.AllFit.meet h stmts a b,
      h.span as bs⟩

end

lemma Function.Fits.meet (h : first.Meet second both) {f : Function} (a : f.Fits first)
    (b : f.Fits second) : f.Fits both := by
  obtain ⟨ar, ap, ab, as⟩ := a
  obtain ⟨br, bp, bb, bs⟩ := b
  refine ⟨fun s member => h.specifier (ar s member) (br s member), fun p member => ?_,
    Block.Fits.meet h f.body ab bb, h.span as bs⟩
  exact ⟨fun s inside => h.specifier ((ap p member).1 s inside) ((bp p member).1 s inside),
    h.span (ap p member).2 (bp p member).2⟩

lemma Module.Fits.meet (h : first.Meet second both) {m : Module} (a : m.Fits first)
    (b : m.Fits second) : m.Fits both := by
  refine ⟨fun item member => ?_, h.span a.2 b.2⟩
  have left := a.1 item member
  have right := b.1 item member
  cases item with
  | function f => exact Function.Fits.meet h left right
  | declaration d => exact Decl.Fits.meet h left right

end Source

end MiniC
