import SqlAccess.Proofs.Predicate.Reached
import SqlAccess.Proofs.Query.Active

/-!
# Columns that the look for a key finds

Whether a condition says something on a column is asked of its tree, by the names that members have,
and what it says is in its text, by quoted identifiers. `tested_columns_are_keys` is why one can be
asked for the other: where the text of a condition has a test of a column, and it is no text that was
given, the look for a key finds the column, even if the test took it from a group around.

Two things carry this. A member takes its column from a group that names it, and no member takes one
from outside the condition, because the root of a condition names none. And the text of a test tells
its column, since identifiers can be read back (`Dialect.TestOn.unique`).
-/

namespace SqlAccess

open Text

/-! ## The column of a test -/

namespace Dialect.TestOn

variable {d : Dialect} {column column' text : String} {table table' : Params}

/-- A test is its column, a blank, and the rest. -/
theorem toList_eq (h : d.TestOn column table text) : ∃ rest,
    text.toList = Identifier.encode d.identifierQuote column.toList ++ ' ' :: rest := by
  rw [← Dialect.toList_identifier]
  cases h with
  | null operator =>
    unfold Comparison.nullTest
    split <;> exact ⟨_, String.toList_append⟩
  | compare operator found =>
    simp only [String.append_assoc, String.toList_append]
    exact ⟨_, rfl⟩
  | listed listing filled =>
    simp only [String.append_assoc, String.toList_append]
    exact ⟨_, rfl⟩

/-- **The text of a test tells its column.** -/
theorem unique (h : d.TestOn column table text) (h' : d.TestOn column' table' text) :
    column = column' := by
  have stops : ∀ rest, Identifier.Stops d.identifierQuote (' ' :: rest) := by
    rintro rest _ ⟨⟩
    cases d <;> exact ⟨by decide, by decide⟩
  obtain ⟨rest, same⟩ := h.toList_eq
  obtain ⟨rest', same'⟩ := h'.toList_eq
  have names := (Identifier.encode_cancel d.identifierQuote_quotes (stops rest) (stops rest')
    (same.symm.trans same')).1
  exact String.toList_inj.mp names

end Dialect.TestOn

namespace Predicate

/-- Is the predicate rendered to a test: a comparison that was not given as text, or a list? -/
def isTest : Predicate → Bool
  | .comparison c => !c.isRaw
  | .group _ connective _ => !connective.isBoolean

variable {d : Dialect} {inherited : Option String} {m : Predicate} {t t' : Params} {sql : String}

/-- A test has a column, its own or the inherited one, and is rendered to a test of it. -/
theorem testOn_of_isTest (test : m.isTest = true) (rendered : m.render d inherited t = .ok sql t') :
    ∃ column, m.column.or inherited = some column ∧ d.TestOn column t' sql := by
  cases m with
  | comparison c =>
    have plain : c.raw = none := by simpa [isTest, Comparison.isRaw] using test
    have run := rendered
    rw [render] at run
    rcases Comparison.render_eq_ok run with given | ⟨-, column, resolved, -⟩
    · rw [plain] at given
      cases given
    · exact ⟨column, resolved, testOn_comparison plain resolved rendered⟩
  | group own connective members =>
    have listing : connective.isBoolean = false := by simpa [isTest] using test
    have run := rendered
    rw [render_listing_eq listing] at run
    obtain ⟨column, _, resolved, -⟩ := renderList_eq_ok run
    exact ⟨column, resolved, testOn_listing listing resolved rendered⟩

end Predicate

/-! ## Tests in the text of a condition -/

namespace Group

open Predicate

variable {g : Group} {d : Dialect} {t : Params} {column : String}

/-- Rendered from the table, the condition has a test of the column in its text that was not given
as text: a comparison or a list, reached through AND and OR groups and rendered for the column that
it may inherit from them, is an operand of the text, and a test of the column. -/
def TestsColumn (g : Group) (d : Dialect) (t : Params) (column : String) : Prop :=
  ∃ sql t', g.render d t = .ok sql t' ∧
    ∃ (m : Predicate) (above : List (Option String)) (fragment : String) (t₁ t₂ : Params),
      m.Reached above (ofGroup g) ∧ m.isTest = true ∧
      m.render d (nearest above) t₁ = .ok fragment t₂ ∧ t₂.GrowsTo t' ∧
      OperandOf fragment sql ∧ d.TestOn column t' fragment

/-- The columns that a text tests are those that its comparisons and lists come to. -/
theorem testsColumn_iff : g.TestsColumn d t column ↔ (∃ sql t', g.render d t = .ok sql t') ∧
    ∃ (m : Predicate) (above : List (Option String)), m.Reached above (ofGroup g) ∧
      m.isTest = true ∧ m.column.or (nearest above) = some column := by
  constructor
  · rintro ⟨sql, t', rendered, m, above, fragment, t₁, t₂, reached, test, run, grows, -, on⟩
    obtain ⟨name, resolved, onName⟩ := testOn_of_isTest test run
    rw [(onName.mono grows).unique on] at resolved
    exact ⟨⟨sql, t', rendered⟩, m, above, reached, test, resolved⟩
  · rintro ⟨⟨sql, t', rendered⟩, m, above, reached, test, resolved⟩
    obtain ⟨fragment, t₁, t₂, run, grows, operand⟩ := reached.render rendered
    rw [Option.or_none] at run
    obtain ⟨name, resolved', onName⟩ := testOn_of_isTest test run
    cases resolved.symm.trans resolved'
    exact ⟨sql, t', rendered, m, above, fragment, t₁, t₂, reached, test, run, grows,
      operand onName.blank_eq_false, onName.mono grows⟩

/-- A condition that calls build up names no column at its root. -/
theorem BuiltUp.column_eq (h : g.BuiltUp) : g.column = none := by
  induction h with
  | empty => rfl
  | setField _ _ _ ih => exact ih
  | append _ _ ih => exact ih

end Group

/-- **The look for a key misses no column that is tested.** Of any query whose condition names no
column at its root, as no condition does that calls build up: if a text of the condition has a test
of the column, by a comparison or a list that is no given text, be the column its own or that of a
group around it, then the condition has the key. So the test for disabled rows is never added beside
another test of its column. -/
theorem tested_columns_are_keys (q : Query) (unkeyed : q.filter.column = none) {d : Dialect}
    {t : Params} {column : String} (tests : q.filter.TestsColumn d t column) :
    q.hasKey column = true ∧ q.regardActive column = q := by
  obtain ⟨-, m, above, reached, -, resolved⟩ := Group.testsColumn_iff.mp tests
  have has : q.hasKey column = true := by
    rcases reached.mentions resolved with root | below
    · exact absurd (unkeyed.symm.trans root) (Option.some_ne_none column).symm
    · exact below
  exact ⟨has, Query.regardActive_of_hasKey has⟩

/-- The column of a test is found where the group around it names it. -/
theorem tested_columns_are_keys_by_group :
    (Query.maybeActive.filter.column = none ∧
      Query.maybeActive.filter.TestsColumn .mysql {} "active") ∧
    Query.maybeActive.hasKey "active" = true ∧
      Query.maybeActive.regardActive "active" = Query.maybeActive := by
  have unkeyed := Query.builtUp_maybeActive.column_eq
  have tests : Query.maybeActive.filter.TestsColumn .mysql {} "active" := by
    refine Group.testsColumn_iff.mpr
      ⟨⟨_, _, rfl⟩, .comparison .isNull, [none, some "active"], ?_, rfl, rfl⟩
    refine .within rfl (List.mem_cons_of_mem _ List.mem_cons_self) ?_
    exact .within rfl (List.mem_cons_of_mem _ List.mem_cons_self) .here
  exact ⟨⟨unkeyed, tests⟩, tested_columns_are_keys _ unkeyed tests⟩

end SqlAccess
