import SqlAccess.Proofs.Params.Fragment
import SqlAccess.Proofs.Predicate.Emptiness

/-!
# The values of a condition

`Predicate.boundValues` reads the values of a condition off its tree: those of the leaves other than
null, and all items of a list, from left to right. `Predicate.filled_render` says that MySQL's text
of the condition is a fragment with exactly these values, in this order: whatever table the rendering
started from, and whatever is bound later.

Text that a caller gives in place of a leaf may hold anything, so the law is about trees without it.
-/

namespace SqlAccess

namespace Predicate

/-- The values of the leaves among the members, be they null or not. -/
def itemValues : List (Option String × Predicate) → List Value
  | [] => []
  | (_, .comparison c) :: rest => c.value :: itemValues rest
  | (_, .group ..) :: rest => itemValues rest

mutual

/-- The values that a condition binds, from left to right. A test for null binds none. -/
def boundValues : Predicate → List Value
  | .comparison c => if c.value.isNull then [] else [c.value]
  | .group _ connective members =>
    if connective.isBoolean then memberValues members else itemValues members

/-- The values that the members of an AND or OR group bind. -/
def memberValues : List (Option String × Predicate) → List Value
  | [] => []
  | (_, p) :: rest => p.boundValues ++ memberValues rest

end

mutual

/-- Is no leaf of the condition given as text? -/
def withoutText : Predicate → Bool
  | .comparison c => !c.isRaw
  | .group _ _ members => allWithoutText members

/-- Is no leaf at any depth of the members given as text? -/
def allWithoutText : List (Option String × Predicate) → Bool
  | [] => true
  | (_, p) :: rest => p.withoutText && allWithoutText rest

end

end Predicate

open Params

/-! ## Leaves -/

theorem Comparison.raw_of_withoutText {c : Comparison}
    (plain : (Predicate.comparison c).withoutText = true) : c.raw = none := by
  simpa only [Predicate.withoutText, Comparison.isRaw, Bool.not_eq_true',
    Option.isSome_eq_false_iff, Option.isNone_iff_eq_none] using plain

theorem Comparison.placed_of_withoutText {d : Dialect} {inherited : Option String} {t t' : Params}
    {c : Comparison} {sql : String} (plain : c.raw = none)
    (h : c.render d inherited t = .ok sql t') : (Predicate.comparison c).placed sql = some sql := by
  have visible : Text.blank sql = false := by
    rw [Comparison.blank_render h, Comparison.isBlank, plain]
    rfl
  rw [Predicate.placed_comparison, visible, if_neg Bool.false_ne_true]

/-- A pushed value fills the placeholder that its key is. -/
theorem Params.filled_push (p : Params) (value : Value) :
    (p.push value).2.Filled p.nextKey "?" [value] :=
  .generated (p.get?_push_self value)

theorem Comparison.filled_nullTest (p : Params) (column : String) (operator : Operator) :
    p.Filled (nullTest (Dialect.mysql.identifier column) operator)
      (nullTest (Dialect.mysql.identifier column) operator) [] := by
  unfold nullTest
  split
  · exact (Filled.identifier column).append (.of_plain rfl rfl)
  · exact (Filled.identifier column).append (.of_plain rfl rfl)

/-- A leaf has its value, unless that is null. -/
theorem Comparison.filled_render {inherited : Option String} {t t' : Params} {c : Comparison}
    {sql : String} (plain : c.raw = none) (h : c.render .mysql inherited t = .ok sql t') :
    ∃ positional, t'.Filled sql positional (Predicate.comparison c).boundValues := by
  rw [Predicate.boundValues]
  rcases Comparison.render_eq_ok h with raw | ⟨-, column, -, ⟨null, rfl, -⟩ | ⟨filled, rfl, rfl⟩⟩
  · rw [plain] at raw
    cases raw
  · rw [null, if_pos rfl]
    exact ⟨_, Comparison.filled_nullTest t' column c.operator⟩
  · rw [filled, if_neg Bool.false_ne_true]
    have between : (t.push c.value).2.Filled (" " ++ c.operator.sql ++ " ")
        (" " ++ c.operator.sql ++ " ") [] := by
      cases c.operator <;> exact .of_plain rfl rfl
    have whole := ((Filled.identifier column).append between).append (t.filled_push c.value)
    refine ⟨Dialect.mysql.identifier column ++ " " ++ c.operator.sql ++ " " ++ "?", ?_⟩
    simpa only [String.append_assoc, List.nil_append] using whole

namespace Predicate

variable {t t' : Params}

/-! ## Lists -/

/-- The items of a list have their values, null ones too. -/
theorem filled_renderItems {connective : Connective} {column : String}
    {members : List (Option String × Predicate)} {items : List String}
    (plain : allWithoutText members = true)
    (h : renderItems connective column members t = .ok items t') :
    ∃ positionals, t'.FilledAll items positionals (itemValues members) := by
  have runs := itemRuns_of_renderItems h
  clear h
  induction runs with
  | nil => exact ⟨[], .nil⟩
  | @cons member item members items first _ ih =>
    obtain ⟨c, s, s', leaf, run, grows⟩ := first
    obtain ⟨field, p⟩ := member
    cases leaf
    rw [allWithoutText, Bool.and_eq_true] at plain
    obtain ⟨rfl, rfl⟩ := Comparison.renderItem_eq_ok (Comparison.raw_of_withoutText plain.1) run
    obtain ⟨positionals, tail⟩ := ih plain.2
    exact ⟨_, .cons ((s.filled_push c.value).mono grows) tail⟩

theorem filled_renderList {connective : Connective} {column : Option String}
    {members : List (Option String × Predicate)} {sql : String}
    (plain : allWithoutText members = true)
    (h : renderList .mysql connective column members t = .ok sql t') :
    ∃ positional, t'.Filled sql positional (itemValues members) := by
  obtain ⟨name, items, -, -, run, rfl⟩ := renderList_eq_ok h
  obtain ⟨positionals, filled⟩ := filled_renderItems plain run
  have opening : t'.Filled (" " ++ connective.sql ++ " (") (" " ++ connective.sql ++ " (") [] := by
    cases connective <;> exact .of_plain rfl rfl
  have comma : t'.Filled ", " ", " [] := .of_plain rfl rfl
  have closing : t'.Filled ")" ")" [] := .of_plain rfl rfl
  have whole :=
    (((Filled.identifier name).append opening).append (filled.joined comma)).append closing
  refine ⟨Dialect.mysql.identifier name ++ " " ++ connective.sql ++ " (" ++
    Text.joined ", " positionals ++ ")", ?_⟩
  simpa only [String.append_assoc, List.nil_append, List.append_nil] using whole

/-! ## Trees -/

/-- Between the parts of a group stand only its connective and blanks. -/
theorem filled_separator (p : Params) (connective : Connective) :
    p.Filled (" " ++ connective.sql ++ " ") (" " ++ connective.sql ++ " ") [] := by
  cases connective <;> exact .of_plain rfl rfl

/-- A fragment alone is a list of fragments. -/
theorem filledAll_singleton {sql positional : String} {values : List Value}
    (filled : t.Filled sql positional values) :
    ∃ positionals, t.FilledAll [sql] positionals values :=
  ⟨[positional], by simpa only [List.append_nil] using FilledAll.cons filled .nil⟩

/-- A group that is left out of another has no values, and one in parentheses keeps its own. -/
theorem filledAll_placed {column : Option String} {connective : Connective}
    {members : List (Option String × Predicate)} {sql positional : String} {values : List Value}
    (filled : t.Filled sql positional values) :
    ∃ positionals,
      t.FilledAll ((group column connective members).placed sql).toList positionals values := by
  rw [placed_group]
  split
  next empty =>
    rw [filled.values_of_empty empty]
    exact ⟨[], .nil⟩
  next =>
    split
    · have opening : t.Filled "( " "( " [] := .of_plain rfl rfl
      have closing : t.Filled " )" " )" [] := .of_plain rfl rfl
      have whole := (opening.append filled).append closing
      rw [List.nil_append, List.append_nil] at whole
      exact filledAll_singleton whole
    · exact filledAll_singleton filled

mutual

/-- **MySQL's text of a condition has the values of the tree**, from left to right. -/
theorem filled_render :
    ∀ (inherited : Option String) (p : Predicate) {t t' : Params} {sql : String},
      p.withoutText = true → p.render .mysql inherited t = .ok sql t' →
        ∃ positional, t'.Filled sql positional p.boundValues
  | inherited, .comparison c, t, t', sql, plain, h => by
    rw [render] at h
    exact Comparison.filled_render (Comparison.raw_of_withoutText plain) h
  | inherited, .group column connective members, t, t', sql, plain, h => by
    rw [withoutText] at plain
    rw [boundValues]
    cases boolean : connective.isBoolean with
    | true =>
      obtain ⟨parts, run, rfl⟩ := render_boolean_eq_ok boolean h
      obtain ⟨positionals, filled⟩ := filled_renderMembers _ members plain run
      exact ⟨_, filled.joined (filled_separator t' connective)⟩
    | false =>
      rw [render_listing_eq boolean] at h
      exact filled_renderList plain h

/-- The parts of a group have the values of its members. -/
theorem filled_renderMembers :
    ∀ (inherited : Option String) (members : List (Option String × Predicate)) {t t' : Params}
      {parts : List String}, allWithoutText members = true →
        renderMembers .mysql inherited members t = .ok parts t' →
          ∃ positionals, t'.FilledAll parts positionals (memberValues members)
  | _, [], t, t', parts, _, h => by
    obtain ⟨rfl, -⟩ := Rendering.pure_eq_ok.mp h
    exact ⟨[], .nil⟩
  | inherited, (field, p) :: rest, t, t', parts, plain, h => by
    obtain ⟨sql, t₁, others, run, rest_run, rfl⟩ := renderMembers_cons_eq_ok h
    rw [allWithoutText, Bool.and_eq_true] at plain
    obtain ⟨positional, filled⟩ := filled_render inherited p plain.1 run
    obtain ⟨tails, tail⟩ := filled_renderMembers inherited rest plain.2 rest_run
    have grows := (renderMembers_lawful .mysql inherited rest).grows_of_ok rest_run
    have placed : ∃ heads, t'.FilledAll (p.placed sql).toList heads p.boundValues := by
      cases p with
      | comparison c =>
        rw [render] at run
        rw [Comparison.placed_of_withoutText (Comparison.raw_of_withoutText plain.1) run]
        exact filledAll_singleton (filled.mono grows)
      | group => exact filledAll_placed (filled.mono grows)
    obtain ⟨heads, head⟩ := placed
    exact ⟨heads ++ tails, head.append tail⟩

end

end Predicate

end SqlAccess
