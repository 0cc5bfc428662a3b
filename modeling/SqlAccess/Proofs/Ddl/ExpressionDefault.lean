import SqlAccess.Proofs.Ddl.ReadBack

/-!
# Expressions that are defaults

An expression that is a default is printed as it was given. The reader takes one token behind the
keyword as the default, and a token without quotes has no white space. So an expression of several
words is never read back: if the line is read at all, the words behind the first one are taken for
attributes, or passed over. An expression of one word is read back as long as it is not the null
value (`Column.PlainButPhrase.told_expression_iff`).

The table is refused only with an error that names the line, and read as itself exactly if all its
expressions are single words (`declared_expressions_read_back_iff`).
-/

namespace SqlAccess

open Ddl SqlAccess.Text

/-! ## Expressions -/

/-- Is the SQL on one line, without quotes and commas, and with no white space around it? -/
structure IsPhrase (sql : String) : Prop where
  ne_empty : sql ≠ ""
  plain : ∀ c ∈ sql.toList, c ≠ '\'' ∧ c ≠ ',' ∧ c ≠ '\n'
  start : ∀ c ∈ sql.toList.head?, isBlank c = false
  ending : ∀ c ∈ sql.toList.getLast?, isBlank c = false

/-- Is the SQL one word, and not the null value? -/
def OneWord (sql : String) : Prop :=
  (∀ c ∈ sql.toList, isBlank c = false) ∧ isWord "NULL" sql.toList = false

instance (sql : String) : Decidable (OneWord sql) :=
  inferInstanceAs (Decidable (_ ∧ _))

theorem IsPhrase.endsLine {sql : String} (h : IsPhrase sql) : EndsLine sql.toList where
  ne_nil := fun empty => h.ne_empty (String.toList_eq_nil_iff.mp empty)
  oneLine := fun feed => (h.plain _ feed).2.2 rfl
  ending := fun c last => ⟨h.ending c last, (h.plain c (List.mem_of_getLast? last)).2.1⟩

theorem IsPhrase.plain_of_oneWord {sql : String} (h : IsPhrase sql) (one : OneWord sql) :
    (DefaultValue.expression sql).Plain :=
  ⟨h.ne_empty, fun c member =>
    ⟨(h.plain c member).1, (h.plain c member).2.1, one.1 c member⟩, one.2⟩

/-- Is the default plain, or an expression of any number of words? -/
def DefaultValue.PlainOrPhrase : DefaultValue → Prop
  | .expression sql => IsPhrase sql
  | value => value.Plain

namespace Column

/-- Is the column plain, but for an expression that is its default, which may have many words? -/
structure PlainButPhrase (c : Column) : Prop where
  plain : ({ c with default := none } : Column).Plain
  default : ∀ value ∈ c.default, value.PlainOrPhrase
  null : c.default = some .null → c.nullable = true

variable {c : Column} (h : c.PlainButPhrase)

include h

/-- With a single word as its default, the column is plain. -/
theorem PlainButPhrase.plain_of_oneWord
    (one : ∀ sql, c.default = some (.expression sql) → OneWord sql) : c.Plain where
  named := h.plain.named
  type := h.plain.type
  list := h.plain.list
  single := h.plain.single
  marked := h.plain.marked
  default := by
    intro value given
    have phrase := h.default value given
    cases value with
    | expression sql => exact IsPhrase.plain_of_oneWord phrase (one sql given)
    | text s => exact phrase
    | null | bool | int | float => trivial
  null := h.null
  collation := h.plain.collation
  comment := h.plain.comment

/-- However many words its default has, the column is a line that can be taken apart. -/
theorem PlainButPhrase.legible : c.Legible where
  named := h.plain.named.named
  isNative := h.plain.type.isNative
  oneLine := fun length given =>
    not_mem_argument (h.plain.readable.fits length given) (.inr rfl)
  words := by
    intro token member
    obtain ⟨a, inside, part⟩ := List.mem_flatMap.mp member
    have told := attributes_of a inside
    have readable : a.Readable → EndsLine token := fun readable =>
      (Attribute.isWord_tokens readable token part).endsLine
    cases a with
    | unsigned => exact readable trivial
    | autoIncrement => exact readable trivial
    | notNull => exact readable trivial
    | collation name =>
      exact readable (isWord_of_isValue (h.plain.collation name told))
    | comment text => exact readable (h.plain.comment text told)
    | default value =>
      cases value with
      | none => exact readable nofun
      | some value =>
        have phrase := h.default value (told value rfl)
        cases value with
        | expression sql =>
          rcases List.mem_cons.mp part with rfl | part
          · exact IsWord.endsLine (by decide)
          · rw [List.mem_singleton.mp part]
            exact IsPhrase.endsLine phrase
        | text s => exact readable fun value given => Option.some.inj given ▸ phrase
        | null | bool | int | float =>
          exact readable fun value given => Option.some.inj given ▸ trivial

/-- **The line of a column tells an expression exactly if it is one word**, and not the null value.
-/
theorem PlainButPhrase.told_expression_iff {told : Column} {sql : String}
    (given : c.default = some (.expression sql))
    (column : c.line.column? .mysql c.table = some told) :
    told.default = some (.expression sql) ↔ OneWord sql := by
  constructor
  · intro same
    obtain ⟨token, notNull⟩ := ColumnLine.column?_expression column same
    have phrase : IsPhrase sql := h.default _ given
    exact ⟨visible_of_mem_tokens token fun quote => (phrase.plain _ quote).1 rfl, notNull⟩
  · intro one
    have plain : c.Plain := h.plain_of_oneWord fun sql' given' => by
      rw [given] at given'
      exact DefaultValue.expression.inj (Option.some.inj given') ▸ one
    obtain rfl := Option.some.inj (plain.readable.column?_line.symm.trans column)
    have listed : c.listed.default = c.default.bind DefaultValue.reread := c.default_reread
    rw [listed, given]
    rfl

end Column

/-! ## Declared tables -/

/-- **Expressions are read back exactly if they are one word.** However a table is declared, with
plain names around expressions of any number of words, its text is printed. The text is read, or
refused with an error that names a line. If it is read, a column has the expression that was
declared as its default exactly if that is one word, and not the null value; and the table is read
as the declared one exactly if this holds of all its expressions. -/
theorem declared_expressions_read_back_iff {name : String} {t : Table} (made : Table.Made name t)
    (frame : t.PlainFrame) (columns : ∀ c ∈ t.columns.tail, c.PlainButPhrase) :
    ∃ ddl, t.toSql .mysql = .ok ddl ∧
      (∀ e, Dialect.mysql.readTable ddl = .error e →
        ∃ number line, e = .unreadableLine number line) ∧
      (∀ read, Dialect.mysql.readTable ddl = .ok read →
        ∀ c ∈ t.columns, ∀ sql, c.default = some (.expression sql) →
          ∃ c', read.column? c.name = some c' ∧
            (c'.default = some (.expression sql) ↔ OneWord sql)) ∧
      ((∃ read, Dialect.mysql.readTable ddl = .ok read ∧ t.Restates read) ↔
        ∀ c ∈ t.columns, ∀ sql, c.default = some (.expression sql) → OneWord sql) := by
  have ordered := made.ordered.2
  have behind : ∀ c ∈ t.columns, ∀ sql, c.default = some (.expression sql) →
      c ∈ t.columns.tail := by
    intro c member sql given
    refine (ordered.mem_columns_iff.mp member).resolve_left ?_
    rintro rfl
    cases given
  have told : ∀ c ∈ t.columns.tail, ∀ c', c.line.column? .mysql c.table = some c' →
      ∀ sql, c.default = some (.expression sql) →
        (c'.default = some (.expression sql) ↔ OneWord sql) :=
    fun c member c' column sql given => (columns c member).told_expression_iff given column
  have restated : ∀ c c' : Column, c.Restates c' → ∀ sql, c.default = some (.expression sql) →
      c'.default = some (.expression sql) := by
    intro c c' same sql given
    rw [same.default, given]
    rfl
  obtain ⟨ddl, printed, each, whole⟩ := ordered.read_back_iff frame
    (motive := fun c c' => ∀ sql, c.default = some (.expression sql) →
      (c'.default = some (.expression sql) ↔ OneWord sql))
    (fun c member => ⟨(columns c member).plain.named, (columns c member).legible⟩)
    (fun c member c' column => ⟨told c member c' column, told c member c' column⟩)
    (fun c member one => ((columns c member).plain_of_oneWord one).kept)
    (fun c _ c' expression same sql given =>
      (expression sql given).mp (restated c c' same sql given))
  refine ⟨ddl, printed, fun e h => readTable_eq_error h, fun read h c member sql given => ?_, ?_⟩
  · obtain ⟨c', found, expression⟩ := each read h c (behind c member sql given)
    exact ⟨c', found, expression sql given⟩
  · rw [whole]
    constructor
    · exact fun all c member sql given => all c (behind c member sql given) sql given
    · exact fun all c member => all c (List.mem_of_mem_tail member)

/-- A table with a point in time that is set by the given expression. -/
def Table.stamped (sql : String) : Table :=
  (Table.created .mysql "t").putColumn
    { table := "t", name := "at", type := .timestamp, length := none
      default := some (.expression sql) }

theorem Table.stamped_made (sql : String) : Table.Made "t" (Table.stamped sql) :=
  .column .created rfl (by decide : "at" ≠ implicitId)

theorem Table.stamped_plain {sql : String} (phrase : IsPhrase sql) :
    (Table.stamped sql).PlainFrame ∧ ∀ c ∈ (Table.stamped sql).columns.tail, c.PlainButPhrase := by
  refine ⟨Table.plainFrame_created (by decide), fun c member => ?_⟩
  rw [List.mem_singleton.mp member]
  refine
    { plain := ?_, default := fun value given => Option.some.inj given ▸ phrase, null := nofun }
  exact
    { named := (by decide : PlainName "at"), type := trivial, list := nofun, single := nofun
      marked := nofun, default := nofun, null := nofun, collation := nofun, comment := nofun }

theorem declared_expressions_read_back_now :
    Table.Made "t" (Table.stamped "NOW()") ∧ (Table.stamped "NOW()").PlainFrame ∧
      (∀ c ∈ (Table.stamped "NOW()").columns.tail, c.PlainButPhrase) ∧
      ∃ ddl read, (Table.stamped "NOW()").toSql .mysql = .ok ddl ∧
        Dialect.mysql.readTable ddl = .ok read ∧ (Table.stamped "NOW()").Restates read := by
  have made := Table.stamped_made "NOW()"
  have phrase : IsPhrase "NOW()" := ⟨by decide, by decide, by decide, by decide⟩
  have one : OneWord "NOW()" := by decide
  obtain ⟨frame, columns⟩ := Table.stamped_plain phrase
  obtain ⟨ddl, printed, -, -, whole⟩ := declared_expressions_read_back_iff made frame columns
  obtain ⟨read, h, restates⟩ := whole.mpr fun c member sql given => by
    rcases List.mem_cons.mp member with rfl | member
    · cases given
    · obtain rfl := List.mem_singleton.mp member
      obtain rfl := DefaultValue.expression.inj (Option.some.inj given)
      exact one
  exact ⟨made, frame, columns, ddl, read, printed, h, restates⟩

/-- The expression that is the default of a column. -/
def Column.expression? (c : Column) : Option String :=
  match c.default with
  | some (.expression sql) => some sql
  | _ => none

theorem Column.expression?_eq_some {c : Column} {sql : String} (h : c.expression? = some sql) :
    c.default = some (.expression sql) := by
  unfold expression? at h
  split at h
  next given => rw [given, Option.some.inj h]
  next => cases h

/-- Where the table is printed with the first expression, is the second one read? -/
def StampReadAs (sql sql' : String) : Prop :=
  ∃ ddl read c, (Table.stamped sql).toSql .mysql = .ok ddl ∧
    Dialect.mysql.readTable ddl = .ok read ∧ read.column? "at" = some c ∧
      c.default = some (.expression sql')

theorem stampReadAs_of_columnRead? {sql sql' : String}
    (h : ((Table.stamped sql).columnRead? "at").bind Column.expression? = some sql') :
    StampReadAs sql sql' := by
  obtain ⟨c, found, expression⟩ := Option.bind_eq_some_iff.mp h
  have started := (Table.stamped_made sql).ordered.2.toStarted
  obtain ⟨ddl, read, printed, h, column⟩ := started.exists_of_columnRead? found
  exact ⟨ddl, read, c, printed, h, column, Column.expression?_eq_some expression⟩

/-- **Expressions are read as other ones**: the words behind the first one are lost, and a keyword
among them starts a default over. -/
theorem stamps_read_otherwise :
    StampReadAs "CURRENT_TIMESTAMP ON UPDATE CURRENT_TIMESTAMP" "CURRENT_TIMESTAMP" ∧
      StampReadAs "NOW() DEFAULT LATER()" "LATER()" :=
  ⟨stampReadAs_of_columnRead? (by decide +kernel), stampReadAs_of_columnRead? (by decide +kernel)⟩

end SqlAccess
