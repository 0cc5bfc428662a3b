import SqlAccess.Query.Basic
import SqlAccess.Proofs.Predicate.Tested

/-!
# The test for disabled rows

A table may mark its disabled rows by a column, and a query that regards this gets a test of the
column, unless a member of its condition stands for the column or names it already. Such a member
need not show in the text of the condition: text that is given in place of a test is printed as it
stands, and a column may be named where nothing takes it.

`active_column_is_tested` says what can be relied on. If not every member that names the column is
idle, each text that the condition renders to has a test of the column among its operands, or the
text that a leaf on the column was given.
-/

namespace SqlAccess

open Text

/-- The condition of a query as calls build it up: from the empty one, by giving predicates to
fields and by appending predicates and groups. -/
inductive Group.BuiltUp : Group → Prop
  | empty : BuiltUp {}
  | setField {g : Group} {p : Predicate} (field : String) : BuiltUp g → p.Composed →
      BuiltUp (g.setField field p)
  | append {g : Group} {p : Predicate} : BuiltUp g → p.Composed → BuiltUp (g.append p)

namespace Group.BuiltUp

variable {g : Group}

theorem composed (h : g.BuiltUp) : (Predicate.ofGroup g).Composed := by
  induction h with
  | empty => exact .start .all
  | setField field _ added ih => exact ih.setField field added
  | append _ added ih => exact ih.append added

theorem connective_eq (h : g.BuiltUp) : g.connective = .all := by
  induction h with
  | empty => rfl
  | setField field _ _ ih => exact ih
  | append _ _ ih => exact ih

end Group.BuiltUp

namespace Query

variable {q : Query} {column : String}

/-- If a member of the condition names the column, then one does that uses it, and that is no item
of a list. -/
def PutsToUse (q : Query) (column : String) : Prop :=
  (Predicate.ofGroup q.filter).Names column →
    ∃ m : Predicate, m.OpenIn (.ofGroup q.filter) ∧ m.column = some column ∧ m.UsesColumn

theorem regardActive_of_testsActive (adds : q.testsActive column = true) :
    (q.regardActive column).filter =
      q.filter.setField column (Comparison.equal (.int 1)) := by
  rw [regardActive, if_pos adds]
  rfl

theorem regardActive_of_hasKey (has : q.hasKey column = true) : q.regardActive column = q := by
  rw [regardActive, testsActive, has, Bool.not_true, Bool.and_false, if_neg Bool.false_ne_true]

/-- **Behind the check, a member uses the column**: one that was there, or the test that is added. -/
theorem exists_usesColumn (regards : q.regardsActive = true) (builtUp : q.filter.BuiltUp)
    (used : q.PutsToUse column) : ∃ m : Predicate,
      m.OpenIn (.ofGroup (q.regardActive column).filter) ∧ m.column = some column ∧
        m.UsesColumn := by
  -- Where the check finds the column, a member names it, because fields give members their names.
  cases has : q.hasKey column with
  | true =>
    rw [regardActive_of_hasKey has]
    exact used (builtUp.composed.fielded.names_of_mentions _ has)
  | false =>
    have adds : q.testsActive column = true := by
      rw [testsActive, regards, has]
      rfl
    rw [regardActive_of_testsActive adds]
    have boolean : q.filter.connective.isBoolean = true := by
      rw [builtUp.connective_eq]
      rfl
    exact ⟨_, .member boolean Group.mem_place_self, rfl, .leaf rfl⟩

end Query

/-- **The test for disabled rows is in every text of the condition.** Of any query that regards
disabled rows, with any condition that calls build up and any column that the condition puts to use
where it names it: whatever dialect and table the condition is rendered in behind the check, an
operand of its text is a test of the column. The one exception is a condition in which all members
that use the column are leaves given as text, and then that text of one of them is an operand. -/
theorem active_column_is_tested (q : Query) (regards : q.regardsActive = true)
    (builtUp : q.filter.BuiltUp) {column : String} (used : q.PutsToUse column) {d : Dialect}
    {t t' : Params} {sql : String}
    (rendered : (q.regardActive column).filter.render d t = .ok sql t') :
    (∃ fragment, OperandOf fragment sql ∧ d.TestOn column t' fragment) ∨
      (∀ m : Predicate, m.OpenIn (.ofGroup (q.regardActive column).filter) →
        m.column = some column → m.UsesColumn → m.isText = true) ∧
      ∃ (c : Comparison) (fragment : String),
        (Predicate.comparison c).OpenIn (.ofGroup (q.regardActive column).filter) ∧
          c.column = some column ∧ c.raw = some fragment ∧ blank fragment = false ∧
          OperandOf fragment sql := by
  by_cases given : ∀ m : Predicate, m.OpenIn (.ofGroup (q.regardActive column).filter) →
      m.column = some column → m.UsesColumn → m.isText = true
  · obtain ⟨m, stands, names, uses⟩ := Query.exists_usesColumn regards builtUp used
    obtain ⟨fragment, visible, operand, test | ⟨c, rfl, text⟩⟩ :=
      stands.render uses names rendered
    · exact .inl ⟨fragment, operand, test⟩
    · exact .inr ⟨given, c, fragment, stands, names, text, visible, operand⟩
  · simp only [not_forall] at given
    obtain ⟨m, stands, names, uses, tested⟩ := given
    obtain ⟨fragment, -, operand, test | ⟨c, rfl, text⟩⟩ := stands.render uses names rendered
    · exact .inl ⟨fragment, operand, test⟩
    · rw [Predicate.isText, Comparison.isRaw, text] at tested
      exact absurd rfl tested

/-- The users with a certain number who are active, or of whom that is not known. -/
def Query.maybeActive : Query :=
  ((Query.ofTable "users").setField "id" (Comparison.equal (.int 7))).append
    ((((Group.of .any).on "active").append (Comparison.equal (.int 1))).append Comparison.isNull)

theorem Query.builtUp_maybeActive : Query.maybeActive.filter.BuiltUp :=
  (Group.BuiltUp.empty.setField "id" (.comparison _)).append
    (((Predicate.Composed.start .any).on "active").append (.comparison _) |>.append (.comparison _))

/-- A group names the column for its members. -/
theorem active_column_is_tested_by_group :
    (Query.maybeActive.regardsActive = true ∧ Query.maybeActive.filter.BuiltUp ∧
      Query.maybeActive.PutsToUse "active" ∧
      (Query.maybeActive.regardActive "active").filter.render .mysql {} =
        .ok "`id` = :param0 AND ( `active` = :param1 OR `active` IS NULL )"
          { entries := [(":param0", .int 7), (":param1", .int 1)] }) ∧
    ((∃ fragment,
        OperandOf fragment "`id` = :param0 AND ( `active` = :param1 OR `active` IS NULL )" ∧
          Dialect.mysql.TestOn "active" { entries := [(":param0", .int 7), (":param1", .int 1)] }
            fragment) ∨
      (∀ m : Predicate, m.OpenIn (.ofGroup (Query.maybeActive.regardActive "active").filter) →
        m.column = some "active" → m.UsesColumn → m.isText = true) ∧
      ∃ (c : Comparison) (fragment : String),
        (Predicate.comparison c).OpenIn
            (.ofGroup (Query.maybeActive.regardActive "active").filter) ∧
          c.column = some "active" ∧ c.raw = some fragment ∧ blank fragment = false ∧
          OperandOf fragment "`id` = :param0 AND ( `active` = :param1 OR `active` IS NULL )") := by
  have used : Query.maybeActive.PutsToUse "active" := by
    intro _
    refine ⟨_, .member rfl (List.mem_cons_of_mem _ List.mem_cons_self), rfl, ?_⟩
    exact .member rfl List.mem_cons_self (.leaf rfl rfl)
  have rendered : (Query.maybeActive.regardActive "active").filter.render .mysql {} =
      .ok "`id` = :param0 AND ( `active` = :param1 OR `active` IS NULL )"
        { entries := [(":param0", .int 7), (":param1", .int 1)] } := by rfl
  exact ⟨⟨rfl, Query.builtUp_maybeActive, used, rendered⟩,
    active_column_is_tested _ rfl Query.builtUp_maybeActive used rendered⟩

/-- Text that is given to the field of the column passes for a test of it: nothing is added to it,
and no operand of what it renders to tests the column. -/
theorem given_text_passes_for_the_test :
    let q := (Query.ofTable "users").setField "active" (Comparison.native "deleted_at IS NULL" {})
    q.regardsActive = true ∧ q.filter.BuiltUp ∧
      (q.regardActive "active").filter.render .mysql {} = .ok "deleted_at IS NULL" {} ∧
      ∀ fragment table, OperandOf fragment "deleted_at IS NULL" →
        ¬ Dialect.mysql.TestOn "active" table fragment := by
  intro q
  refine ⟨rfl, Group.BuiltUp.empty.setField "active" (.comparison _), rfl, ?_⟩
  intro fragment table operand test
  have quoted : '\x60' ∈ (Dialect.mysql.identifier "active").toList := by decide
  have inside := operand.isInfix.subset (test.prefix_identifier.subset quoted)
  exact absurd inside (by decide)

end SqlAccess
