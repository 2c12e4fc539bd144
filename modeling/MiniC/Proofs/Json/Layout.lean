import MiniC.Json.Printer
import MiniC.Json.Reader
import MiniC.Proofs.Json.Numerals
import MiniC.Proofs.Json.Strings

/-!
# JSON text is read back

Compact and indented text differ only in where blanks stand. A `Layout` says where, and one printer
with a layout gives both. Whatever the layout, its text is read as the value it was printed from,
as long as the numbers of the value are whole and have at most 64 bits
(`Layout.readValue_print`). The induction follows the value; the entries of an array or an object
are read by one lemma for both.
-/

namespace MiniC.Json

/-- Where blanks stand in a text. -/
structure Layout where
  /-- In front of an entry, and in front of the end of its container, by level of indentation. -/
  line : Nat → List Char
  /-- Between a colon and the value behind it. -/
  gap : List Char
  line_blank : ∀ level, ∀ c ∈ line level, isBlank c = true
  gap_blank : ∀ c ∈ gap, isBlank c = true

namespace Layout

/-- No blanks at all. -/
def compact : Layout where
  line _ := []
  gap := []
  line_blank := by simp
  gap_blank := by simp

/-- Two spaces for each level. -/
def indented : Layout where
  line level := '\n' :: List.replicate (2 * level) ' '
  gap := [' ']
  line_blank := by simp [isBlank]
  gap_blank := by simp [isBlank]

/-- The inside of a container: its entries with commas between them, each on a line one level deeper
than the container. There is nothing in an empty one. -/
def inside (layout : Layout) (level : Nat) : List (List Char) → List Char
  | [] => []
  | texts => [','].intercalate (texts.map (layout.line (level + 1) ++ ·)) ++ layout.line level

mutual

/-- The text of a value on a line of the given level. -/
def print (layout : Layout) (level : Nat) : Json → List Char
  | .null => ['n', 'u', 'l', 'l']
  | .bool true => ['t', 'r', 'u', 'e']
  | .bool false => ['f', 'a', 'l', 's', 'e']
  | .num n => n.text.toList
  | .str s => Quoted.write s
  | .arr items => '[' :: (layout.inside level (layout.printItems (level + 1) items) ++ [']'])
  | .obj fields => '{' :: (layout.inside level (layout.printFields (level + 1) fields) ++ ['}'])

def printItems (layout : Layout) (level : Nat) : List Json → List (List Char)
  | [] => []
  | v :: rest => layout.print level v :: layout.printItems level rest

def printFields (layout : Layout) (level : Nat) : List (String × Json) → List (List Char)
  | [] => []
  | (k, v) :: rest =>
    (Quoted.write k ++ ':' :: (layout.gap ++ layout.print level v)) :: layout.printFields level rest

end

/-! ## The two layouts -/

lemma compact_inside (level : Nat) (texts : List (List Char)) :
    compact.inside level texts = [','].intercalate texts := by
  cases texts with
  | nil => rfl
  | cons first rest => simp [inside, compact]

mutual

theorem compactChars_eq : ∀ (v : Json) (level : Nat), compactChars v = compact.print level v
  | .null, _ | .bool true, _ | .bool false, _ | .num _, _ | .str _, _ => rfl
  | .arr items, level => by
    rw [compactChars, print, compact_inside, compactItems_eq]
  | .obj fields, level => by
    rw [compactChars, print, compact_inside, compactFields_eq]

theorem compactItems_eq : ∀ (items : List Json) (level : Nat),
    compactItems items = [','].intercalate (compact.printItems level items)
  | [], _ => rfl
  | [v], level => by
    rw [compactItems, compactChars_eq v level]
    simp [printItems]
  | v :: w :: rest, level => by
    rw [compactItems, compactChars_eq v level, compactItems_eq (w :: rest) level]
    simp [printItems, List.intercalate_cons_cons]

theorem compactFields_eq : ∀ (fields : List (String × Json)) (level : Nat),
    compactFields fields = [','].intercalate (compact.printFields level fields)
  | [], _ => rfl
  | [(k, v)], level => by
    rw [compactFields, compactChars_eq v level]
    simp [printFields, compact]
  | (k, v) :: w :: rest, level => by
    rw [compactFields, compactChars_eq v level, compactFields_eq (w :: rest) level]
    simp [printFields, List.intercalate_cons_cons, compact]

end

mutual

theorem prettyChars_eq : ∀ (v : Json) (level : Nat), prettyChars level v = indented.print level v
  | .null, _ | .bool true, _ | .bool false, _ | .num _, _ | .str _, _ | .arr [], _ | .obj [], _ =>
    rfl
  | .arr (v :: rest), level => by
    rw [prettyChars, print, prettyItems_eq (v :: rest) (level + 1)]
    rfl
  | .obj (f :: rest), level => by
    rw [prettyChars, print, prettyFields_eq (f :: rest) (level + 1)]
    rfl

theorem prettyItems_eq : ∀ (items : List Json) (level : Nat),
    prettyItems level items =
      [','].intercalate ((indented.printItems level items).map (newline level ++ ·))
  | [], _ => rfl
  | [v], level => by
    rw [prettyItems, prettyChars_eq v level]
    simp [printItems]
  | v :: w :: rest, level => by
    rw [prettyItems, prettyChars_eq v level, prettyItems_eq (w :: rest) level]
    simp [printItems, List.intercalate_cons_cons]

theorem prettyFields_eq : ∀ (fields : List (String × Json)) (level : Nat),
    prettyFields level fields =
      [','].intercalate ((indented.printFields level fields).map (newline level ++ ·))
  | [], _ => rfl
  | [(k, v)], level => by
    rw [prettyFields, prettyChars_eq v level]
    simp [printFields, indented]
  | (k, v) :: w :: rest, level => by
    rw [prettyFields, prettyChars_eq v level, prettyFields_eq (w :: rest) level]
    simp [printFields, List.intercalate_cons_cons, indented]

end

end Layout

/-! ## Blanks -/

lemma dropBlank_append {blanks : List Char} (blank : ∀ c ∈ blanks, isBlank c = true)
    (rest : List Char) : dropBlank (blanks ++ rest) = dropBlank rest :=
  List.dropWhile_append_of_pos blank

lemma dropBlank_cons {c : Char} (visible : isBlank c = false) (rest : List Char) :
    dropBlank (c :: rest) = c :: rest :=
  List.dropWhile_cons_of_neg (by simp [visible])

lemma dropBlank_dropBlank (cs : List Char) : dropBlank (dropBlank cs) = dropBlank cs := by
  induction cs with
  | nil => rfl
  | cons c cs ih =>
    cases blank : isBlank c with
    | true => simpa [dropBlank, blank] using ih
    | false => rw [dropBlank_cons blank, dropBlank_cons blank]

lemma not_continues_of_isBlank {c : Char} (blank : isBlank c = true) :
    Numeral.continues c = false := by
  simp only [isBlank, Bool.or_eq_true, decide_eq_true_eq] at blank
  rcases blank with ((rfl | rfl) | rfl) | rfl <;> decide

/-- A text that starts a value: neither a blank nor the end of a container. -/
def Starts (text : List Char) : Prop :=
  ∃ c cs, text = c :: cs ∧ isBlank c = false ∧ c ≠ ']' ∧ c ≠ '}'

lemma Starts.dropBlank {text : List Char} (starts : Starts text) (rest : List Char) :
    Json.dropBlank (text ++ rest) = text ++ rest := by
  obtain ⟨c, cs, rfl, visible, _⟩ := starts
  exact dropBlank_cons visible (cs ++ rest)

/-! ## Entries -/

/-- A text has room for its entries. -/
lemma length_le_intercalate (texts : List (List Char)) :
    texts.length ≤ ([','].intercalate texts).length + 1 ∧
      ∀ text ∈ texts, text.length ≤ ([','].intercalate texts).length := by
  induction texts with
  | nil => simp
  | cons first rest ih =>
    cases rest with
    | nil => simp
    | cons next rest =>
      rw [List.intercalate_cons_cons]
      simp only [List.length_cons, List.length_append] at ih ⊢
      refine ⟨by omega, List.forall_mem_cons.mpr ⟨by omega, fun text member => ?_⟩⟩
      have := ih.2 text member
      omega

lemma Layout.length_le_inside (layout : Layout) (level : Nat) (texts : List (List Char)) :
    texts.length ≤ (layout.inside level texts).length + 1 ∧
      ∀ text ∈ texts, text.length ≤ (layout.inside level texts).length := by
  cases texts with
  | nil => simp [inside]
  | cons first rest =>
    obtain ⟨count, each⟩ := length_le_intercalate
      ((first :: rest).map (layout.line (level + 1) ++ ·))
    simp only [inside, List.length_append]
    refine ⟨by rw [List.length_map] at count; omega, fun text member => ?_⟩
    have := each _ (List.mem_map_of_mem member)
    simp only [List.length_append] at this
    omega

/-- A reader of entries reads a text as an entry, whatever follows. -/
structure ReadsAs {α : Type} (entry : List Char → Option (α × List Char)) (a : α)
    (text : List Char) : Prop where
  starts : Starts text
  reads : ∀ rest, Numeral.Ends rest → entry (text ++ rest) = some (a, rest)

/-- The end of an array or an object. -/
def IsClosing (close : Char) : Prop := close = ']' ∨ close = '}'

lemma IsClosing.visible {close : Char} (closing : IsClosing close) : isBlank close = false := by
  rcases closing with rfl | rfl <;> decide

section Entries

variable {α : Type} {entry : List Char → Option (α × List Char)} {close : Char}

lemma ends_closing (closing : IsClosing close) {blanks : List Char}
    (blank : ∀ c ∈ blanks, isBlank c = true) (rest : List Char) :
    Numeral.Ends (blanks ++ close :: rest) := by
  cases blanks with
  | nil =>
    rw [List.nil_append, Numeral.ends_cons]
    rcases closing with rfl | rfl <;> decide
  | cons c blanks =>
    rw [List.cons_append, Numeral.ends_cons]
    exact not_continues_of_isBlank (blank c (List.mem_cons_self ..))

lemma dropBlank_closing (closing : IsClosing close) {blanks : List Char}
    (blank : ∀ c ∈ blanks, isBlank c = true) (rest : List Char) :
    dropBlank (blanks ++ close :: rest) = close :: rest := by
  rw [dropBlank_append blank, dropBlank_cons closing.visible]

lemma readEntries_dropBlank (bound : Nat) (cs : List Char) :
    readEntries entry close bound (dropBlank cs) = readEntries entry close bound cs := by
  cases bound with
  | zero => rfl
  | succ bound => rw [readEntries, readEntries, dropBlank_dropBlank]

/-- Entries with blanks and commas between them are read one by one. -/
lemma readEntries_intercalate (closing : IsClosing close) {before after : List Char}
    (blankBefore : ∀ c ∈ before, isBlank c = true) (blankAfter : ∀ c ∈ after, isBlank c = true)
    {as : List α} {texts : List (List Char)} (each : List.Forall₂ (ReadsAs entry) as texts)
    (some : as ≠ []) {bound : Nat} (enough : texts.length ≤ bound) (rest : List Char) :
    readEntries entry close bound
      ([','].intercalate (texts.map (before ++ ·)) ++ (after ++ close :: rest)) =
      .some (as, rest) := by
  induction each generalizing bound with
  | nil => exact absurd rfl some
  | @cons a text as texts first others ih =>
    cases bound with
    | zero => cases enough
    | succ bound =>
      have found : ∀ tail, dropBlank (before ++ (text ++ tail)) = text ++ tail := fun tail =>
        (dropBlank_append blankBefore _).trans (first.starts.dropBlank tail)
      cases others with
      | nil =>
        have ends := ends_closing closing blankAfter rest
        have differs : close ≠ ',' := by rcases closing with rfl | rfl <;> decide
        rw [List.map_singleton, List.intercalate_singleton, List.append_assoc, readEntries, found,
          first.reads _ ends]
        simp only [dropBlank_closing closing blankAfter, differs, if_false, if_true]
      | @cons a' text' as' texts' second others =>
        have ends : ∀ tail, Numeral.Ends (',' :: tail) := fun tail => Numeral.ends_cons.mpr rfl
        have later := ih (by simp) (Nat.le_of_succ_le_succ enough)
        rw [List.map_cons] at later
        rw [List.map_cons, List.map_cons, List.intercalate_cons_cons, List.append_assoc,
          List.append_assoc, List.append_assoc, List.singleton_append, readEntries, found,
          first.reads _ (ends _)]
        simp only [dropBlank_cons (c := ',') rfl, if_true, later, Option.map_some]

/-- The first entry stands in front. -/
lemma intercalate_front (before text : List Char) (texts : List (List Char)) :
    ∃ tail, [','].intercalate ((text :: texts).map (before ++ ·)) = before ++ (text ++ tail) := by
  cases texts with
  | nil => exact ⟨[], by simp⟩
  | cons next texts =>
    exact ⟨',' :: [','].intercalate ((next :: texts).map (before ++ ·)), by
      simp [List.intercalate_cons_cons]⟩

/-- The inside of a container is read as its entries. -/
lemma readInside_inside (closing : IsClosing close) (layout : Layout) (level : Nat) {as : List α}
    {texts : List (List Char)} (each : List.Forall₂ (ReadsAs entry) as texts) {bound : Nat}
    (enough : (layout.inside level texts).length < bound) (rest : List Char) :
    readInside entry close bound (layout.inside level texts ++ close :: rest) =
      some (as, rest) := by
  have count := (layout.length_le_inside level texts).1.trans enough
  cases each with
  | nil =>
    have visible := dropBlank_cons closing.visible rest
    simp only [Layout.inside, List.nil_append, readInside, visible, if_true]
  | @cons a text as texts first others =>
    have read := readEntries_intercalate closing (layout.line_blank (level + 1))
      (layout.line_blank level) (.cons first others) (by simp) count rest
    obtain ⟨tail, front⟩ := intercalate_front (layout.line (level + 1)) text texts
    obtain ⟨c, cs, rfl, visible, bracket, brace⟩ := first.starts
    have other : c ≠ close := by
      rcases closing with rfl | rfl
      · exact bracket
      · exact brace
    rw [front, List.append_assoc, ← readEntries_dropBlank, dropBlank_append (layout.line_blank _),
      List.append_assoc, List.cons_append, dropBlank_cons visible] at read
    simp only [readInside, Layout.inside]
    rw [front, List.append_assoc, List.append_assoc, dropBlank_append (layout.line_blank _),
      List.append_assoc, List.cons_append, dropBlank_cons visible]
    simp only [other, if_false, read]

end Entries

/-! ## Values -/

mutual

/-- All numbers of a value are whole numbers of 64 bits, with a sign or without. -/
def Plain : Json → Prop
  | .num (.int n) => -0x8000000000000000 ≤ n ∧ n < 0x10000000000000000
  | .num (.real _) => False
  | .arr items => PlainItems items
  | .obj fields => PlainFields fields
  | _ => True

def PlainItems : List Json → Prop
  | [] => True
  | v :: rest => v.Plain ∧ PlainItems rest

def PlainFields : List (String × Json) → Prop
  | [] => True
  | (_, v) :: rest => v.Plain ∧ PlainFields rest

end

mutual

/-- How deeply the containers of a value nest. -/
def nesting : Json → Nat
  | .arr items => nestingItems items + 1
  | .obj fields => nestingFields fields + 1
  | _ => 0

def nestingItems : List Json → Nat
  | [] => 0
  | v :: rest => max v.nesting (nestingItems rest)

def nestingFields : List (String × Json) → Nat
  | [] => 0
  | (_, v) :: rest => max v.nesting (nestingFields rest)

end

/-- What a numeral starts with starts nothing else. -/
lemma ne_of_numeral {c : Char} (first : c = '-' ∨ Decimal.isDigit c = true) {x : Char}
    (sign : x ≠ '-') (digit : Decimal.isDigit x = false) : c ≠ x := by
  rintro rfl
  rcases first with same | isDigit
  · exact sign same
  · rw [digit] at isDigit
    cases isDigit

lemma starts_of_numeral {c : Char} (first : c = '-' ∨ Decimal.isDigit c = true)
    (cs : List Char) : Starts (c :: cs) := by
  have other := fun {x} => ne_of_numeral first (x := x)
  refine ⟨c, cs, rfl, ?_, other (by decide) (by decide), other (by decide) (by decide)⟩
  simp only [isBlank, Bool.or_eq_false_iff, decide_eq_false_iff_not]
  exact ⟨⟨⟨other (by decide) (by decide), other (by decide) (by decide)⟩,
    other (by decide) (by decide)⟩, other (by decide) (by decide)⟩

lemma readValue_numeral {bound depth : Nat} {c : Char} (first : c = '-' ∨ Decimal.isDigit c = true)
    (cs : List Char) :
    readValue bound depth (c :: cs) =
      match Numeral.read (c :: cs) with
      | none => none
      | some (numeral, rest) => numeral.toNumber?.map fun n => (.num n, rest) := by
  have other := fun {x} => ne_of_numeral first (x := x)
  rw [readValue.eq_def]
  dsimp only
  split
  case h_7 => rfl
  -- Every other case starts with a character of its own.
  all_goals next same => exact absurd (List.cons.inj same).1 (other (by decide) (by decide))

namespace Layout

variable (layout : Layout)

lemma readField_print {α : Type} {value : List Char → Option (α × List Char)} (k : String) {a : α}
    {text : List Char} (reads : ReadsAs value a text) :
    ReadsAs (readField Quoted.read value) (k, a)
      (Quoted.write k ++ ':' :: (layout.gap ++ text)) := by
  refine ⟨⟨_, _, rfl, by decide⟩, fun rest ends => ?_⟩
  have key := Quoted.read_write k (':' :: (layout.gap ++ (text ++ rest)))
  have found : dropBlank (layout.gap ++ (text ++ rest)) = text ++ rest :=
    (dropBlank_append layout.gap_blank _).trans (reads.starts.dropBlank rest)
  simp [Quoted.write, readField, key, dropBlank_cons (c := ':') rfl, found, reads.reads rest ends]

mutual

theorem readValue_print {bound : Nat} : ∀ (v : Json) {level depth : Nat}, v.Plain →
    v.nesting ≤ depth → (layout.print level v).length ≤ bound →
    ReadsAs (readValue bound depth) v (layout.print level v)
  | .null, level, depth, _, _, _ =>
    ⟨⟨_, _, rfl, by decide⟩, fun rest _ => by simp [print, readValue]⟩
  | .bool true, level, depth, _, _, _ =>
    ⟨⟨_, _, rfl, by decide⟩, fun rest _ => by simp [print, readValue]⟩
  | .bool false, level, depth, _, _, _ =>
    ⟨⟨_, _, rfl, by decide⟩, fun rest _ => by simp [print, readValue]⟩
  | .num (.real x), level, depth, plain, _, _ => plain.elim
  | .num (.int n), level, depth, plain, _, _ => by
    obtain ⟨c, cs, text, first⟩ := Numeral.ofInt_starts n
    have shown : layout.print level (.num (.int n)) = c :: cs := text
    rw [shown]
    refine ⟨starts_of_numeral first cs, fun rest ends => ?_⟩
    obtain ⟨numeral, read, number⟩ := Numeral.read_int plain.1 plain.2 ends
    rw [text] at read
    rw [List.cons_append, readValue_numeral first, ← List.cons_append, read]
    simp [number]
  | .str s, level, depth, _, _, _ => by
    refine ⟨⟨_, _, rfl, by decide⟩, fun rest _ => ?_⟩
    have read := Quoted.read_write s rest
    simp [print, Quoted.write, readValue, read]
  | .arr items, level, 0, _, deep, _ => by cases deep
  | .obj fields, level, 0, _, deep, _ => by cases deep
  | .arr items, level, depth + 1, plain, deep, wide => by
    simp only [print, List.length_cons, List.length_append, List.length_nil] at wide
    have room : (layout.inside level (layout.printItems (level + 1) items)).length < bound := by
      omega
    have narrow : ∀ text ∈ layout.printItems (level + 1) items, text.length ≤ bound :=
      fun text member => ((layout.length_le_inside level _).2 text member).trans room.le
    have each := readItems_print items plain (Nat.le_of_succ_le_succ deep) narrow
    refine ⟨⟨_, _, rfl, by decide⟩, fun rest _ => ?_⟩
    have read := readInside_inside (.inl rfl) layout level each room rest
    simp [print, readValue, read]
  | .obj fields, level, depth + 1, plain, deep, wide => by
    simp only [print, List.length_cons, List.length_append, List.length_nil] at wide
    have room : (layout.inside level (layout.printFields (level + 1) fields)).length < bound := by
      omega
    have narrow : ∀ text ∈ layout.printFields (level + 1) fields, text.length ≤ bound :=
      fun text member => ((layout.length_le_inside level _).2 text member).trans room.le
    have each := readFields_print fields plain (Nat.le_of_succ_le_succ deep) narrow
    refine ⟨⟨_, _, rfl, by decide⟩, fun rest _ => ?_⟩
    have read := readInside_inside (.inr rfl) layout level each room rest
    simp [print, readValue, read]

theorem readItems_print {bound : Nat} : ∀ (items : List Json) {level depth : Nat},
    PlainItems items → nestingItems items ≤ depth →
    (∀ text ∈ layout.printItems level items, text.length ≤ bound) →
    List.Forall₂ (ReadsAs (readValue bound depth)) items (layout.printItems level items)
  | [], _, _, _, _, _ => .nil
  | v :: rest, level, depth, plain, deep, wide => by
    obtain ⟨here, later⟩ := List.forall_mem_cons.mp wide
    exact .cons (readValue_print v plain.1 ((Nat.le_max_left ..).trans deep) here)
      (readItems_print rest plain.2 ((Nat.le_max_right ..).trans deep) later)

theorem readFields_print {bound : Nat} : ∀ (fields : List (String × Json)) {level depth : Nat},
    PlainFields fields → nestingFields fields ≤ depth →
    (∀ text ∈ layout.printFields level fields, text.length ≤ bound) →
    List.Forall₂ (ReadsAs (readField Quoted.read (readValue bound depth))) fields
      (layout.printFields level fields)
  | [], _, _, _, _, _ => .nil
  | (k, v) :: rest, level, depth, plain, deep, wide => by
    obtain ⟨here, later⟩ := List.forall_mem_cons.mp wide
    have room : (layout.print level v).length ≤ bound := by
      simp only [List.length_append, List.length_cons] at here
      omega
    have value := readValue_print v plain.1 ((Nat.le_max_left ..).trans deep) room
    exact .cons (layout.readField_print k value)
      (readFields_print rest plain.2 ((Nat.le_max_right ..).trans deep) later)

end

lemma parse?_print {v : Json} (plain : v.Plain) {depth : Nat} (deep : v.nesting ≤ depth) :
    parse? depth (String.ofList (layout.print 0 v)) = some v := by
  have reads := layout.readValue_print v plain deep (Nat.le_refl (layout.print 0 v).length)
  have start := reads.starts.dropBlank []
  have read := reads.reads [] Numeral.ends_nil
  rw [List.append_nil] at start read
  simp only [parse?, String.toList_ofList, start, read]
  rfl

end Layout

/-! ## Reading without a limit -/

/-- A text is read as a value where nesting is not limited: with every limit that is high enough. -/
def Decodes (text : String) (v : Json) : Prop :=
  ∃ limit, ∀ depth, limit ≤ depth → parse? depth text = some v

lemma Decodes.unique {text : String} {v w : Json} (h : Decodes text v) (h' : Decodes text w) :
    v = w := by
  obtain ⟨limit, read⟩ := h
  obtain ⟨limit', read'⟩ := h'
  have same := (read (max limit limit') (Nat.le_max_left ..)).symm.trans
    (read' (max limit limit') (Nat.le_max_right ..))
  exact Option.some.inj same

theorem decodes_compact {v : Json} (plain : v.Plain) : Decodes v.compact v := by
  refine ⟨v.nesting, fun depth deep => ?_⟩
  rw [compact, Layout.compactChars_eq v 0]
  exact Layout.compact.parse?_print plain deep

theorem decodes_pretty {v : Json} (plain : v.Plain) : Decodes v.pretty v := by
  refine ⟨v.nesting, fun depth deep => ?_⟩
  rw [pretty, Layout.prettyChars_eq v 0]
  exact Layout.indented.parse?_print plain deep

end MiniC.Json
