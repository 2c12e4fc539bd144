import MiniC.Grammar.Place
import MiniC.Proofs.Check.Run

/-!
# Lists and places that are written and read

Every reader of a list reads its items from the first to the last. The span of a node that was read
is unknown or a single place of the text; such a span is written as a field with the place, or as no
field at all, and either is read back as the same span.
-/

namespace MiniC

section Lists

variable {m : Type → Type} [Monad m] [LawfulMonad m] {α : Type}

lemma eq_mapM {β : Type} (readAll : List β → m (List α)) (read : β → m α)
    (nil : readAll [] = pure []) (cons : ∀ v rest, readAll (v :: rest) = do
      let first ← read v
      let others ← readAll rest
      pure (first :: others)) (items : List β) : readAll items = items.mapM read := by
  induction items with
  | nil => rw [nil, List.mapM_nil]
  | cons v rest ih => rw [cons, List.mapM_cons, ih]

lemma mapM_map_pure {read : Json → m α} {encode : α → Json} {xs : List α}
    (back : ∀ x ∈ xs, read (encode x) = pure x) : (xs.map encode).mapM read = pure xs := by
  induction xs with
  | nil => rfl
  | cons x rest ih =>
    rw [List.map_cons, List.mapM_cons, back x (.head _), pure_bind,
      ih fun y member => back y (.tail _ member), pure_bind]

lemma forall_of_mapM_ok {ε : Type} {read : Json → Except ε α} {items : List Json} {xs : List α}
    {P : α → Prop} (each : ∀ v x, read v = .ok x → P x) (h : items.mapM read = .ok xs) :
    ∀ x ∈ xs, P x := by
  induction items generalizing xs with
  | nil =>
    cases h
    simp
  | cons v rest ih =>
    rw [List.mapM_cons] at h
    obtain ⟨first, first_read, tail⟩ := except_bind_ok_iff.mp h
    obtain ⟨others, others_read, made⟩ := except_bind_ok_iff.mp tail
    cases made
    exact List.forall_mem_cons.mpr ⟨each v first first_read, ih others_read⟩

lemma forall_of_mapM_some {read : Json → Option α} {items : List Json} {xs : List α}
    {P : α → Prop} (each : ∀ v x, read v = some x → P x) (h : items.mapM read = some xs) :
    ∀ x ∈ xs, P x := by
  induction items generalizing xs with
  | nil =>
    cases h
    simp
  | cons v rest ih =>
    rw [List.mapM_cons] at h
    obtain ⟨first, first_read, tail⟩ := Option.bind_eq_some_iff.mp h
    obtain ⟨others, others_read, made⟩ := Option.bind_eq_some_iff.mp tail
    cases made
    exact List.forall_mem_cons.mpr ⟨each v first first_read, ih others_read⟩

end Lists

lemma option_mapM_some {ε α : Type} (read : Json → Except ε α) (v : Json) :
    (some v).mapM read = some <$> read v := rfl

lemma option_mapM_ok {ε α : Type} {read : Json → Except ε α} {field : Option Json}
    {found : Option α} (h : field.mapM read = .ok found) :
    (field = none ∧ found = none) ∨ ∃ v x, field = some v ∧ read v = .ok x ∧ found = some x := by
  cases field with
  | none =>
    cases h
    exact .inl ⟨rfl, rfl⟩
  | some v =>
    rw [option_mapM_some] at h
    cases result : read v with
    | error misfit => simp [result] at h
    | ok x =>
      rw [result] at h
      cases h
      exact .inr ⟨v, x, rfl, result, rfl⟩

/-- No place at all, or one place in the text that is read. -/
def Span.IsReadable (span : Span) : Prop :=
  span = .unknown ∨ ∃ line column, span = .point (.inInput line column)

@[simp]
lemma Span.isReadable_unknown : Span.unknown.IsReadable :=
  .inl rfl

@[simp]
lemma Span.isReadable_point (line column : UInt32) :
    (Span.point (.inInput line column)).IsReadable :=
  .inr ⟨line, column, rfl⟩

namespace Place

/-- The place that is written for a span. -/
def ofSpan (span : Span) : Option Location :=
  if span = .unknown then none else some span.start

def encode (place : Location) : Json :=
  .obj [("line", .int place.line.toNat), ("column", .int place.column.toNat)]

/-- The fields that hold a span: one for every known place. -/
def fields (span : Span) : List (String × Json) :=
  (ofSpan span).toList.map fun place => ("loc", encode place)

lemma coordinate_int (n : UInt32) : coordinate (.int n.toNat) = .ok n := by
  have inRange : (0 : Int) ≤ n.toNat ∧ (n.toNat : Int) < UInt32.size :=
    ⟨Int.natCast_nonneg _, Int.ofNat_lt.mpr n.toNat_lt_size⟩
  rw [Json.int, coordinate, if_pos inRange]
  simp

lemma ofFields_ok_iff {fields : List (String × Json)} {place : Location} :
    ofFields fields = .ok place ↔ ∃ line column v w,
      Json.lookup "line" fields = some v ∧ Json.lookup "column" fields = some w ∧
      coordinate v = .ok line ∧ coordinate w = .ok column ∧ place = .inInput line column := by
  unfold ofFields
  generalize Json.lookup "line" fields = line?
  generalize Json.lookup "column" fields = column?
  rcases line? with _ | v <;> rcases column? with _ | w
  · simp [bind, Except.bind, pure, Except.pure, throw, throwThe, MonadExceptOf.throw]
  · rw [option_mapM_some]
    cases coordinate w <;>
      simp [bind, Except.bind, pure, Except.pure, throw, throwThe, MonadExceptOf.throw]
  · rw [option_mapM_some]
    cases coordinate v <;>
      simp [bind, Except.bind, pure, Except.pure, throw, throwThe, MonadExceptOf.throw]
  · rw [option_mapM_some, option_mapM_some]
    cases hv : coordinate v <;> cases hw : coordinate w <;>
      simp [hv, hw, bind, Except.bind, pure, Except.pure, eq_comm]

lemma decode_encode (line column : UInt32) :
    decode (encode (.inInput line column)) = .ok (.inInput line column) := by
  refine ofFields_ok_iff.mpr ⟨line, column, .int line.toNat, .int column.toNat, ?_, ?_,
    coordinate_int line, coordinate_int column, rfl⟩
  · simp [Json.lookup, Location.inInput]
  · simp [Json.lookup, Location.inInput]

lemma point_inInput_ne_unknown (line column : UInt32) :
    Span.point (.inInput line column) ≠ .unknown := by
  simp [Span.point, Span.unknown, Location.inInput, Location.unknown]

lemma ofSpan_inInput (line column : UInt32) :
    ofSpan (.point (.inInput line column)) = some (.inInput line column) :=
  if_neg (point_inInput_ne_unknown line column)

/-- What is written for a readable span is read as this span. -/
lemma span_ofSpan {s : Span} (readable : s.IsReadable) : span (ofSpan s) = s := by
  obtain rfl | ⟨line, column, rfl⟩ := readable
  · rfl
  · rw [ofSpan_inInput]
    rfl

/-- Every place that is read is a place of the text. -/
lemma decode_ok {v : Json} {place : Location} (h : decode v = .ok place) :
    ∃ line column, place = .inInput line column := by
  cases v with
  | obj fields =>
    obtain ⟨line, column, _, _, _, _, _, _, read⟩ := ofFields_ok_iff.mp h
    exact ⟨line, column, read⟩
  | arr items =>
    match items, h with
    | [_], h =>
      obtain ⟨_, _, short⟩ := except_bind_ok_iff.mp h
      cases short
    | _ :: _ :: rest, h =>
      obtain ⟨line, _, tail⟩ := except_bind_ok_iff.mp h
      obtain ⟨column, _, found⟩ := except_bind_ok_iff.mp tail
      by_cases exact : rest.isEmpty
      · rw [if_pos exact] at found
        exact ⟨line, column, (Except.ok.inj found).symm⟩
      · rw [if_neg exact] at found
        cases found
  | _ => cases h

lemma span_isReadable {v : Json} {place : Location} (h : decode v = .ok place) :
    (span (some place)).IsReadable := by
  obtain ⟨line, column, rfl⟩ := decode_ok h
  exact .inr ⟨line, column, rfl⟩

@[simp]
lemma lookup_fields_of_ne {key : String} (s : Span) (other : key ≠ "loc") :
    Json.lookup key (fields s) = none := by
  unfold fields
  cases ofSpan s <;> simp [Json.lookup, other.symm]

/-- The place that is written for a readable span is read back. -/
lemma lookup_loc_fields {s : Span} (readable : s.IsReadable) :
    (ofSpan s = none ∧ Json.lookup "loc" (fields s) = none) ∨
    ∃ place v, ofSpan s = some place ∧ Json.lookup "loc" (fields s) = some v ∧
      decode v = .ok place := by
  obtain rfl | ⟨line, column, rfl⟩ := readable
  · exact .inl ⟨rfl, rfl⟩
  · have written := ofSpan_inInput line column
    refine .inr ⟨_, _, written, ?_, decode_encode line column⟩
    rw [fields, written]
    rfl

end Place

end MiniC
