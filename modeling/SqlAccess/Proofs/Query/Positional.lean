import SqlAccess.Proofs.Predicate.Values
import SqlAccess.Proofs.Query.Statement

/-!
# The positional form of built statements

What a statement binds and what its rewriting reads are decided in two places: the renderer hands
out keys and writes them into the text, and the rewriting finds the keys in the text again and looks
them up. `statements_read_back` says that they meet: the positional form of a statement exists, and
its values are the assigned ones and then those of the condition, each at its own question mark.

Identifiers may hold anything, colons, question marks and quotes included. What a caller writes into
a statement as text may hold anything too, and is therefore left out (`Query.WithoutText`).
-/

namespace SqlAccess

open Params Piece

namespace Query

/-- Nothing stands in the statements of the query as a caller wrote it: no leaf given as text, no
condition beside the tree that says anything, no selected columns, and no function call to order
by. -/
structure WithoutText (q : Query) : Prop where
  tree : (Predicate.ofGroup q.filter).withoutText = true
  extra : q.extra = none
  columns : q.columns = []
  order : ∀ entry ∈ q.order, isFunctionCall entry.expression.toList = false

/-! ## Clauses without values -/

section

variable {p : Params}

theorem filled_comma : p.Filled ", " ", " [] :=
  .of_plain rfl rfl

theorem filled_empty : p.Filled "" "" [] :=
  .of_plain rfl rfl

theorem filled_identifiers (names : List String) :
    p.Filled (Dialect.mysql.identifiers names) (Dialect.mysql.identifiers names) [] :=
  (FilledAll.identifiers names).joined filled_comma

theorem filled_groupClause (q : Query) :
    p.Filled (q.groupClause .mysql) (q.groupClause .mysql) [] := by
  unfold groupClause
  split
  · exact filled_empty
  · have opening : p.Filled " GROUP BY " " GROUP BY " [] := .of_plain rfl rfl
    exact opening.append (filled_identifiers q.grouping)

theorem filled_entry {entry : OrderEntry}
    (named : isFunctionCall entry.expression.toList = false) :
    p.Filled (entry.render .mysql) (entry.render .mysql) [] := by
  unfold OrderEntry.render
  rw [named]
  cases entry.direction with
  | none => exact .identifier entry.expression
  | some direction =>
    have behind : p.Filled (" " ++ direction.sql) (" " ++ direction.sql) [] := by
      cases direction <;> exact .of_plain rfl rfl
    have whole := (Filled.identifier entry.expression).append behind
    simpa only [Bool.false_eq_true, if_false, String.append_assoc, List.nil_append] using whole

theorem filledAll_entries {entries : List OrderEntry}
    (named : ∀ entry ∈ entries, isFunctionCall entry.expression.toList = false) :
    p.FilledAll (entries.map (·.render .mysql)) (entries.map (·.render .mysql)) [] := by
  induction entries with
  | nil => exact .nil
  | cons entry entries ih =>
    have tail := ih (fun other member => named other (List.mem_cons_of_mem _ member))
    exact .cons (filled_entry (named entry List.mem_cons_self)) tail

theorem filled_orderClause {q : Query} (plain : q.WithoutText) :
    p.Filled (q.orderClause .mysql) (q.orderClause .mysql) [] := by
  unfold orderClause
  split
  · exact filled_empty
  · have opening : p.Filled " ORDER BY " " ORDER BY " [] := .of_plain rfl rfl
    exact opening.append ((filledAll_entries plain.order).joined filled_comma)

/-- Counts are written in digits. -/
theorem plain_count (n : UInt64) : (toString n).toList.all isPlain = true := by
  change (toString n.toNat).toList.all isPlain = true
  rw [Nat.toString_eq_repr, Nat.toList_repr, List.all_eq_true]
  intro c member
  have digit : c.isDigit = true := Text.isDigit_of_mem_toDigits member
  have other : ∀ mark : Char, mark.isDigit = false → (c == mark) = false := by
    intro mark outside
    rw [beq_eq_false_iff_ne]
    rintro rfl
    rw [digit] at outside
    cases outside
  simp only [isPlain, isQuote, bne, other '\'' rfl, other '"' rfl, other '\x60' rfl, other ':' rfl,
    other '?' rfl, Bool.or_self, Bool.not_false, Bool.and_self]

theorem filled_spaced {clause : String} (plain : clause.toList.all isPlain = true) :
    p.Filled (spaced (some clause)) (spaced (some clause)) [] := by
  change p.Filled (" " ++ clause) (" " ++ clause) []
  apply Filled.of_plain
  · rw [String.toList_append, List.all_append, plain]
    rfl
  · rw [String.toList_append]
    rfl

/-- A paging clause has nothing but keywords and counts. -/
theorem filled_limitClause (limit offset : Option UInt64) :
    p.Filled (spaced (Dialect.mysql.limitClause limit offset))
      (spaced (Dialect.mysql.limitClause limit offset)) [] := by
  have pair : ∀ first second : UInt64,
      ("LIMIT " ++ toString first ++ ", " ++ toString second).toList.all isPlain = true := by
    intro first second
    simp only [String.toList_append, List.all_append, plain_count, Bool.and_true]
    rfl
  have single : ∀ count : UInt64, ("LIMIT " ++ toString count).toList.all isPlain = true := by
    intro count
    simp only [String.toList_append, List.all_append, plain_count, Bool.and_true]
    rfl
  unfold Dialect.limitClause
  split
  · exact filled_empty
  · exact filled_spaced (single _)
  · split
    · exact filled_spaced (single _)
    · exact filled_spaced (pair _ _)
  · exact filled_spaced (pair _ _)

theorem filled_lock (q : Query) :
    p.Filled (spaced (if q.locking then some Dialect.mysql.lockClause else none))
      (spaced (if q.locking then some Dialect.mysql.lockClause else none)) [] := by
  cases q.locking with
  | true => exact filled_spaced rfl
  | false => exact filled_empty

theorem filled_writeTail {q : Query} (plain : q.WithoutText) :
    p.Filled (q.writeTail .mysql) (q.writeTail .mysql) [] := by
  unfold writeTail
  refine (filled_orderClause plain).append ?_
  cases q.limit with
  | none => exact filled_empty
  | some count => exact filled_limitClause (some count) none

theorem filled_closing {q : Query} (plain : q.WithoutText) (st : Statement) :
    p.Filled (st.closing .mysql q) (st.closing .mysql q) [] := by
  cases st with
  | select =>
    exact (((filled_groupClause q).append (filled_orderClause plain)).append
      (filled_limitClause q.limit q.offset)).append (filled_lock q)
  | update attributes => exact filled_writeTail plain
  | delete => exact filled_writeTail plain
  | softDelete flag stamp => exact filled_writeTail plain

end

/-! ## Clauses with values -/

variable {t t' : Params}

/-- A SET list has the assigned values, each at its column. -/
theorem filled_assignments {attributes : List (String × Value)} {sets : List String}
    (h : assignments .mysql attributes t = .ok sets t') :
    ∃ positionals, t'.FilledAll sets positionals (attributes.map Prod.snd) := by
  induction attributes generalizing t sets with
  | nil =>
    obtain ⟨rfl, -⟩ := Rendering.pure_eq_ok.mp h
    exact ⟨[], .nil⟩
  | cons setting attributes ih =>
    obtain ⟨column, value⟩ := setting
    obtain ⟨key, t₁, bind, h⟩ := Rendering.bind_eq_ok.mp h
    obtain ⟨rfl, rfl⟩ := Rendering.bound_eq_ok.mp bind
    obtain ⟨others, t₂, rest, h⟩ := Rendering.bind_eq_ok.mp h
    obtain ⟨rfl, rfl⟩ := Rendering.pure_eq_ok.mp h
    obtain ⟨positionals, tail⟩ := ih rest
    have grows := (assignments_lawful .mysql attributes).grows_of_ok rest
    have sign : t₂.Filled " = " " = " [] := .of_plain rfl rfl
    have head := ((Filled.identifier column).append sign).append ((t.filled_push value).mono grows)
    exact ⟨_, .cons head tail⟩

/-- The clause of the condition has the values of the tree. -/
theorem filled_condition {q : Query} (plain : q.WithoutText) {condition : String}
    (h : q.root.render .mysql t = .ok condition t') :
    ∃ positional, t'.Filled (if condition.isEmpty then "" else " WHERE " ++ condition) positional
      (Predicate.ofGroup q.filter).boundValues := by
  unfold root at h
  rw [plain.extra] at h
  obtain ⟨positional, filled⟩ := Predicate.filled_render none _ plain.tree h
  split
  next empty =>
    rw [filled.values_of_empty empty]
    exact ⟨"", filled_empty⟩
  next =>
    have keyword : t'.Filled " WHERE " " WHERE " [] := .of_plain rfl rfl
    exact ⟨_, keyword.append filled⟩

end Query

namespace Statement

variable {q : Query} {st : Statement} {t t' : Params}

/-- Behind its keyword, the opening of a statement has the assigned values. -/
theorem filled_opening (plain : q.WithoutText) (table : String) {sets : List String}
    (h : Query.assignments .mysql st.assigned t = .ok sets t') :
    ∃ keyword text positional, keyword.toList.all isPlain = true ∧
      st.opening .mysql q table sets = keyword ++ text ∧
      t'.Filled text positional (st.assigned.map Prod.snd) := by
  obtain ⟨positionals, filled⟩ := Query.filled_assignments h
  have named : t'.Filled (Dialect.mysql.identifier table) (Dialect.mysql.identifier table) [] :=
    .identifier table
  have update : ∃ positional, t'.Filled
      (Dialect.mysql.identifier table ++ " SET " ++ Text.joined ", " sets) positional
      (st.assigned.map Prod.snd) := by
    have keyword : t'.Filled " SET " " SET " [] := .of_plain rfl rfl
    exact ⟨_, (named.append keyword).append (filled.joined Query.filled_comma)⟩
  cases st with
  | select =>
    refine ⟨"SELECT * FROM ", _, _, rfl, ?_, named⟩
    simp only [opening, plain.columns, List.isEmpty_nil, if_true]
    rfl
  | delete => exact ⟨"DELETE FROM ", _, _, rfl, rfl, named⟩
  | update attributes =>
    obtain ⟨positional, filled⟩ := update
    exact ⟨"UPDATE ", _, positional, rfl, by simp only [opening, String.append_assoc], filled⟩
  | softDelete flag stamp =>
    obtain ⟨positional, filled⟩ := update
    exact ⟨"UPDATE ", _, positional, rfl, by simp only [opening, String.append_assoc], filled⟩

/-- The text of a built statement is a keyword and a fragment with the assigned values, and then
those of the condition. -/
theorem filled_render (plain : q.WithoutText) {sql : String}
    (h : st.render .mysql q t = .ok sql t') :
    ∃ keyword text positional, keyword.toList.all isPlain = true ∧ sql = keyword ++ text ∧
      t'.Filled text positional
        (st.assigned.map Prod.snd ++ (Predicate.ofGroup q.filter).boundValues) := by
  obtain ⟨table, sets, mid, condition, -, assigned, rendered, -, rfl⟩ := render_eq_ok h
  obtain ⟨keyword, text, positional, bare, start, filled⟩ := filled_opening plain table assigned
  obtain ⟨clause, behind⟩ := Query.filled_condition plain rendered
  have grows := (Predicate.render_lawful .mysql none _).grows_of_ok rendered
  have whole := ((filled.mono grows).append behind).append (Query.filled_closing plain st)
  refine ⟨keyword, _, _, bare, ?_, by simpa only [List.append_nil] using whole⟩
  rw [start]
  simp only [String.append_assoc]

end Statement

/-! ## INSERT -/

theorem Query.insertion_lawful (d : Dialect) (attributes : List (String × Value)) :
    (insertion d attributes).Lawful := by
  induction attributes with
  | nil => exact .pure ([], [])
  | cons setting attributes ih =>
    obtain ⟨column, value⟩ := setting
    exact (Rendering.Within.bound value).bind fun _ => ih.bind fun _ => .pure _

/-- The columns of an INSERT are those of its row, and each has the key of its value. -/
theorem Query.filled_insertion {t t' : Params} {attributes : List (String × Value)}
    {columns keys : List String} (h : insertion .mysql attributes t = .ok (columns, keys) t') :
    columns = (attributes.map Prod.fst).map Dialect.mysql.identifier ∧
      t'.FilledAll keys (attributes.map fun _ => "?") (attributes.map Prod.snd) := by
  induction attributes generalizing t columns keys with
  | nil =>
    obtain ⟨same, -⟩ := Rendering.pure_eq_ok.mp h
    cases same
    exact ⟨rfl, .nil⟩
  | cons setting attributes ih =>
    obtain ⟨column, value⟩ := setting
    obtain ⟨key, t₁, bind, h⟩ := Rendering.bind_eq_ok.mp h
    obtain ⟨rfl, rfl⟩ := Rendering.bound_eq_ok.mp bind
    obtain ⟨⟨others, keys'⟩, t₂, rest, h⟩ := Rendering.bind_eq_ok.mp h
    obtain ⟨same, rfl⟩ := Rendering.pure_eq_ok.mp h
    cases same
    obtain ⟨rfl, tail⟩ := ih rest
    have grows := (insertion_lawful .mysql attributes).grows_of_ok rest
    exact ⟨rfl, .cons ((t.filled_push value).mono grows) tail⟩

/-- An INSERT of at least one column is put together from the columns and the keys of its row. -/
theorem Query.insert_eq_ok {d : Dialect} {table : String} {attributes : List (String × Value)}
    {sql : String} {params : Params} (h : insert d table attributes = .ok (sql, params)) :
    ∃ columns keys, insertion d attributes {} = .ok (columns, keys) params ∧
      sql = "INSERT INTO " ++ d.identifier table ++ " (" ++ Text.joined ", " columns ++
        ") VALUES (" ++ Text.joined ", " keys ++ ")" := by
  unfold insert at h
  cases run : insertion d attributes {} with
  | error e t => rw [run] at h; cases h
  | ok lists t =>
    obtain ⟨columns, keys⟩ := lists
    rw [run] at h
    dsimp only at h
    split at h
    · cases h
    · cases h
      exact ⟨columns, keys, rfl, rfl⟩

/-- The positional form of an INSERT: the columns of the row, and as many question marks. -/
def Query.positionalInsert (table : String) (attributes : List (String × Value)) : String :=
  "INSERT INTO " ++ Dialect.mysql.identifier table ++ " (" ++
    Dialect.mysql.identifiers (attributes.map Prod.fst) ++ ") VALUES (" ++
    Text.joined ", " (attributes.map fun _ => "?") ++ ")"

/-- An INSERT binds the values of its row in the order of its columns. -/
theorem Query.toPositional_insert {table : String} {attributes : List (String × Value)}
    {sql : String} {params : Params} (h : Query.insert .mysql table attributes = .ok (sql, params)) :
    params.toPositional sql =
        .ok (positionalInsert table attributes, attributes.map Prod.snd) ∧
      questionMarks .outside (positionalInsert table attributes).toList = attributes.length := by
  obtain ⟨columns, keys, run, rfl⟩ := insert_eq_ok h
  obtain ⟨rfl, filled⟩ := filled_insertion run
  have keyword : "INSERT INTO ".toList.all isPlain = true := rfl
  have opening : params.Filled " (" " (" [] := .of_plain rfl rfl
  have middle : params.Filled ") VALUES (" ") VALUES (" [] := .of_plain rfl rfl
  have closing : params.Filled ")" ")" [] := .of_plain rfl rfl
  have whole := (Filled.identifier table).append (opening.append
    ((filled_identifiers (attributes.map Prod.fst)).append
      (middle.append ((filled.joined filled_comma).append closing))))
  obtain ⟨form, marks⟩ := Filled.toPositional keyword whole
  rw [List.nil_append, List.nil_append, List.nil_append, List.nil_append, List.append_nil] at form
  rw [List.nil_append, List.nil_append, List.nil_append, List.nil_append, List.append_nil,
    List.length_map] at marks
  -- Unfolding by the equation of `positionalInsert` would compare the texts character by character.
  have text : positionalInsert table attributes =
      "INSERT INTO " ++ (Dialect.mysql.identifier table ++ (" (" ++
        (Dialect.mysql.identifiers (attributes.map Prod.fst) ++ (") VALUES (" ++
          (Text.joined ", " (attributes.map fun _ => "?") ++ ")"))))) := by
    delta positionalInsert
    simp only [String.append_assoc]
  rw [text]
  simp only [String.append_assoc]
  exact ⟨form, marks⟩

/-- **What a statement binds is what its positional form reads.** A statement that MySQL's dialect
builds over a query without text of the caller's has a positional form under the query's table. Its
values are the assigned ones in their order and then those of the condition from left to right, and
it has as many question marks outside quotes. An INSERT has one question mark for each column of its
row, and the values of the row in the same order. -/
theorem statements_read_back (q : Query) (st : Statement) (plain : q.WithoutText) :
    (∀ sql, (q.build (st.render .mysql)).1 = .ok sql →
      ∃ positional values,
        values = st.assigned.map Prod.snd ++ (Predicate.ofGroup q.filter).boundValues ∧
        (q.build (st.render .mysql)).2.params.toPositional sql = .ok (positional, values) ∧
        questionMarks .outside positional.toList = values.length) ∧
    ∀ table attributes sql params, Query.insert .mysql table attributes = .ok (sql, params) →
      params.toPositional sql =
          .ok (Query.positionalInsert table attributes, attributes.map Prod.snd) ∧
        questionMarks .outside (Query.positionalInsert table attributes).toList =
          attributes.length := by
  refine ⟨fun sql built => ?_, fun table attributes sql params built =>
    Query.toPositional_insert built⟩
  rw [Query.build_fst_eq_ok] at built
  obtain ⟨keyword, text, positional, bare, rfl, filled⟩ := Statement.filled_render plain built
  obtain ⟨form, marks⟩ := filled.toPositional bare
  exact ⟨keyword ++ positional, _, rfl, form, marks⟩

/-- A query with a table, columns and order entry whose names look like placeholders and marks, a
list with a null item, and a key of the caller's in the way of the generated ones. -/
def Query.oddlyNamed : Query :=
  { Query.ofTable "t:a?`" with
    filter.connective := .any
    filter.members :=
      [(none, .comparison ((Comparison.equal (.int 1)).on ":param1 = ?")),
        (none, .group (some "'x") .among
          [(none, .comparison (Comparison.equal .null)),
            (none, .comparison (Comparison.equal (.int 2)))])]
    order := [⟨"\\':b", none⟩]
    params := ⟨[(":param1", .bool true)]⟩ }

/-- The values of an UPDATE and of an INSERT over oddly named columns, in the order of the question
marks. -/
theorem statements_read_back_oddly_named :
    Query.oddlyNamed.WithoutText ∧
    (∃ sql positional values,
      (Query.oddlyNamed.build ((Statement.update [("?", .int 0)]).render .mysql)).1 = .ok sql ∧
      values = [.int 0, .int 1, .null, .int 2] ∧
      (Query.oddlyNamed.build
        ((Statement.update [("?", .int 0)]).render .mysql)).2.params.toPositional sql =
          .ok (positional, values) ∧
      questionMarks .outside positional.toList = values.length) ∧
    ∃ sql params, Query.insert .mysql "'?" [(":a", .int 3), ("?`", .null)] = .ok (sql, params) ∧
      params.toPositional sql =
        .ok ("INSERT INTO `'?` (`:a`, `?```) VALUES (?, ?)", [.int 3, .null]) := by
  have plain : Query.oddlyNamed.WithoutText := by
    refine ⟨rfl, rfl, rfl, fun entry member => ?_⟩
    rw [List.mem_singleton.mp member]
    decide
  have built : (Query.oddlyNamed.build ((Statement.update [("?", .int 0)]).render .mysql)).1 =
      .ok ("UPDATE `t:a?``` SET `?` = :param2 WHERE `:param1 = ?` = :param3 OR " ++
        "`'x` IN (:param4, :param5) ORDER BY `\\':b`") := by rfl
  have inserted : Query.insert .mysql "'?" [(":a", .int 3), ("?`", .null)] =
      .ok ("INSERT INTO `'?` (`:a`, `?```) VALUES (:param0, :param1)",
        ⟨[(":param0", .int 3), (":param1", .null)]⟩) := by rfl
  obtain ⟨statement, insert⟩ :=
    statements_read_back Query.oddlyNamed (.update [("?", .int 0)]) plain
  obtain ⟨positional, values, same, form⟩ := statement _ built
  exact ⟨plain, ⟨_, positional, values, built, same, form⟩, _, _, inserted,
    (insert _ _ _ _ inserted).1⟩

end SqlAccess
