import SqlAccess.Proofs.Ddl.Quoting
import SqlAccess.Proofs.Params.Fragment
import SqlAccess.Proofs.Text.Uppercase
import SqlAccess.Schema.Definition

/-!
# Definitions under positional rewriting

The statement of a definition holds no placeholders: its constants are written into it, between
quotes. It is rewritten to its positional form all the same before it is sent, with a table that
binds nothing, and there a colon and a letter outside quotes would be a placeholder without a value.

The main result is `definitions_are_their_positional_form`. Names stand between backticks, where a
backtick is doubled, and texts between quotes, where backslashes and quotes are: either way the
rewriting is outside quotes again where the definition goes on (`copied_escaped`). What is written as
it was given, such as an engine or the expression of a default, may end up outside quotes, and is
therefore asked to have neither quotes nor colons (`Definition.verbatim`).
-/

namespace SqlAccess

open Piece

/-! ## Texts and names -/

/-- Between quotes, doubled backslashes hide each other, and doubled quotes close the quotes and open
them again. -/
theorem Piece.cut_escapedBody (text rest : List Char) :
    cut (.quoted '\'') (Ddl.escapedBody text ++ '\'' :: rest) =
      (Ddl.escapedBody text ++ ['\'']).map .char ++ cut .outside rest := by
  induction text with
  | nil => simp [Ddl.escapedBody, cut]
  | cons c text ih =>
    rw [Ddl.escapedBody_cons]
    by_cases slash : c = '\\'
    · subst slash
      simp [cut, ih]
    · by_cases quote : c = '\''
      · subst quote
        simp [cut, start, isQuote, ih]
      · simp [cut, slash, quote, ih]

/-- **The escaped form of a text is copied**, whatever the text holds. -/
theorem copied_escaped (text : String) : Copied (Literal.escaped text).toList := by
  intro rest
  rw [Ddl.toList_escaped, Ddl.escapedChars_eq]
  have body := cut_escapedBody text.toList rest
  simp [cut, start, isQuote, body]

theorem Piece.Copied.concat {text text' : String} (first : Copied text.toList)
    (second : Copied text'.toList) : Copied (text ++ text').toList := by
  rw [String.toList_append]
  exact first.append second

/-- Copied texts with a copied separator between neighbours are copied. -/
theorem copied_joined {separator : String} (between : Copied separator.toList)
    {texts : List String} (copied : ∀ text ∈ texts, Copied text.toList) :
    Copied (Text.joined separator texts).toList := by
  induction texts with
  | nil => exact copied_of_bare rfl
  | cons text texts ih =>
    have here := copied text List.mem_cons_self
    have others := ih fun next member => copied next (List.mem_cons_of_mem text member)
    cases texts with
    | nil => exact here
    | cons next texts => exact (here.concat between).concat others

namespace Dialect

theorem copied_identifier (name : String) : Copied (mysql.identifier name).toList := by
  rw [toList_identifier]
  exact (inert_identifier name.toList).cut

theorem copied_identifiers (names : List String) : Copied (mysql.identifiers names).toList := by
  refine copied_joined (copied_of_bare rfl) fun text member => ?_
  obtain ⟨name, -, rfl⟩ := List.mem_map.mp member
  exact copied_identifier name

/-- A list of names in parentheses. -/
theorem copied_enclosed (names : List String) :
    Copied (" (" ++ mysql.identifiers names ++ ")").toList :=
  Copied.concat (Copied.concat (copied_of_bare rfl) (copied_identifiers names)) (copied_of_bare rfl)

end Dialect

/-! ## What is written as it was given -/

/-- Has the text neither quotes nor colons? -/
def Bare (text : String) : Prop :=
  text.toList.all isBare = true

theorem Bare.copied {text : String} (bare : Bare text) : Copied text.toList :=
  copied_of_bare bare

/-- The texts of a column that its clause has as they are. -/
def Column.verbatim (c : Column) : List String :=
  (match c.type with
    | .other native => [native]
    | _ => []) ++
  (match c.default with
    | some (.expression sql) => [sql]
    | _ => []) ++ c.collation.toList

/-- The texts of a definition that its statement has as they are. -/
def Definition.verbatim : Definition → List String
  | .table t =>
    t.columns.flatMap Column.verbatim ++ t.engine.toList ++ t.rowFormat.toList ++
      t.charset.toList ++ t.collation.toList
  | .column c => c.verbatim
  | .key _ => []

/-! ## Columns -/

namespace Dialect

theorem isBare_of_isUpper {c : Char} (capital : c.isUpper = true) : isBare c = true := by
  have bounds := Text.isUpper_bounds capital
  have other : ∀ mark : Char, mark.toNat < 65 ∨ 90 < mark.toNat → c ≠ mark := by
    rintro mark outside rfl
    omega
  simp [isBare, isQuote, other]

/-- Upper case brings neither quotes nor colons into a native type. -/
theorem copied_nativeType {type : ColumnType}
    (bare : ∀ native, type = .other native → Bare native) :
    Copied (mysql.nativeType type).toList := by
  cases type with
  | other native =>
    refine copied_of_bare (List.all_eq_true.mpr fun c member => ?_)
    rw [nativeType, Text.uppercase, String.toList_ofList] at member
    obtain ⟨d, inside, image⟩ := List.mem_flatMap.mp member
    rcases Text.mem_upperChar image with rfl | capital | beyond
    · exact List.all_eq_true.mp (bare native rfl) c inside
    · exact isBare_of_isUpper capital
    · have other : ∀ mark : Char, mark.toNat < 128 → c ≠ mark := by
        rintro mark low rfl
        omega
      simp [isBare, isQuote, other]
  | _ => exact copied_of_bare rfl

theorem copied_toDigits (n : Nat) : Copied (Nat.toDigits 10 n) := by
  refine copied_of_bare (List.all_eq_true.mpr fun c member => ?_)
  have digit := Text.isDigit_of_mem_toDigits member
  have other : ∀ mark : Char, mark.isDigit = false → c ≠ mark := by
    rintro mark outside rfl
    simp [digit] at outside
  simp [isBare, isQuote, other]

theorem copied_count (n : UInt32) : Copied (toString n).toList := by
  have text : (toString n).toList = Nat.toDigits 10 n.toNat := String.toList_ofList
  rw [text]
  exact copied_toDigits n.toNat

theorem copied_lengthSql (length : Length) : Copied (mysql.lengthSql length).toList := by
  have opening : Copied "(".toList := copied_of_bare rfl
  have closing : Copied ")".toList := copied_of_bare rfl
  have comma : Copied ",".toList := copied_of_bare rfl
  cases length with
  | size n => exact (opening.concat (copied_count n)).concat closing
  | precision digits scale =>
    exact (((opening.concat (copied_count digits)).concat comma).concat
      (copied_count scale)).concat closing
  | values texts =>
    refine (opening.concat (copied_joined comma fun text member => ?_)).concat closing
    obtain ⟨value, -, rfl⟩ := List.mem_map.mp member
    exact copied_escaped value

theorem copied_defaultSql {default : DefaultValue}
    (bare : ∀ sql, default = .expression sql → Bare sql) :
    Copied (mysql.defaultSql default).toList := by
  cases default with
  | null => exact copied_of_bare rfl
  | bool b => exact copied_escaped _
  | int n => exact copied_escaped _
  | float x => exact copied_escaped _
  | text s => exact copied_escaped s
  | expression sql => exact (bare sql rfl).copied

end Dialect

theorem copiedAll_append {texts texts' : List String} (first : ∀ text ∈ texts, Copied text.toList)
    (second : ∀ text ∈ texts', Copied text.toList) :
    ∀ text ∈ texts ++ texts', Copied text.toList := by
  intro text member
  rcases List.mem_append.mp member with early | late
  · exact first text early
  · exact second text late

theorem copiedAll_map {given : Option String} {write : String → String}
    (copied : ∀ text ∈ given, Copied (write text).toList) :
    ∀ text ∈ (given.map write).toList, Copied text.toList := by
  intro text member
  obtain ⟨inner, same, rfl⟩ := Option.map_eq_some_iff.mp (Option.mem_toList.mp member)
  exact copied inner same

namespace Column

variable {c : Column}

theorem copied_signWords (c : Column) : ∀ word ∈ c.signWords .mysql, Copied word.toList := by
  unfold signWords
  cases c.unsigned with
  | true => simpa using copied_of_bare rfl
  | false => simp

theorem copied_nullWords (c : Column) : ∀ word ∈ c.nullWords, Copied word.toList := by
  unfold nullWords
  cases c.nullable with
  | true => simp
  | false => simpa using copied_of_bare rfl

theorem copied_defaultWords (bare : ∀ text ∈ c.verbatim, Bare text) :
    ∀ word ∈ c.defaultWords .mysql, Copied word.toList := by
  unfold defaultWords
  cases given : c.default with
  | none =>
    cases c.nullable with
    | true => simpa using copied_of_bare rfl
    | false => simp
  | some default =>
    have value : Copied (Dialect.mysql.defaultSql default).toList := by
      refine Dialect.copied_defaultSql ?_
      rintro sql rfl
      exact bare sql (by simp [verbatim, given])
    have keyword : Copied "DEFAULT ".toList := copied_of_bare rfl
    simpa using keyword.concat value

theorem copied_countingWords (c : Column) :
    ∀ word ∈ c.countingWords .mysql, Copied word.toList := by
  unfold countingWords
  cases c.autoIncrement with
  | true => simpa using copied_of_bare rfl
  | false => simp

theorem copied_remarkWords (bare : ∀ text ∈ c.verbatim, Bare text) :
    ∀ word ∈ c.remarkWords .mysql, Copied word.toList := by
  refine copiedAll_append
    (copiedAll_map fun collation given => Copied.concat (copied_of_bare rfl) ?_)
    (copiedAll_map fun comment _ => Copied.concat (copied_of_bare rfl) (copied_escaped comment))
  exact (bare collation (by simp [verbatim, Option.mem_def.mp given])).copied

theorem copied_typeSql (bare : ∀ text ∈ c.verbatim, Bare text) :
    Copied (Dialect.mysql.typeSql c.type c.length).toList := by
  have native : Copied (Dialect.mysql.nativeType c.type).toList := by
    refine Dialect.copied_nativeType fun native same => ?_
    exact bare native (by simp [verbatim, same])
  refine native.concat ?_
  cases c.length with
  | none => exact copied_of_bare rfl
  | some length => exact Dialect.copied_lengthSql length

theorem copied_clause (bare : ∀ text ∈ c.verbatim, Bare text) :
    Copied (c.clause .mysql).toList := by
  have head : ∀ word ∈ [Dialect.mysql.identifier c.name, Dialect.mysql.typeSql c.type c.length],
      Copied word.toList := by
    intro word member
    rcases List.mem_pair.mp member with rfl | rfl
    · exact Dialect.copied_identifier c.name
    · exact copied_typeSql bare
  refine copied_joined (copied_of_bare rfl) ?_
  exact copiedAll_append (copiedAll_append (copiedAll_append (copiedAll_append
    (copiedAll_append head c.copied_signWords) c.copied_nullWords) (copied_defaultWords bare))
    c.copied_countingWords) (copied_remarkWords bare)

theorem copied_additions (c : Column) : Copied (c.additions .mysql).toList := by
  refine Copied.concat ?_ ?_
  · cases c.after with
    | none => exact copied_of_bare rfl
    | some column => exact Copied.concat (copied_of_bare rfl) (Dialect.copied_identifier column)
  · split
    · exact Copied.concat (Copied.concat (copied_of_bare rfl) (Dialect.copied_identifier c.name))
        (copied_of_bare rfl)
    · exact copied_of_bare rfl

theorem copied_toSql (bare : ∀ text ∈ c.verbatim, Bare text) :
    Copied (c.toSql .mysql).toList := by
  have opening : Copied ("ALTER TABLE " ++ Dialect.mysql.identifier c.table).toList :=
    Copied.concat (copied_of_bare rfl) (Dialect.copied_identifier c.table)
  unfold toSql
  refine opening.concat ?_
  cases c.mode with
  | create =>
    have added : Copied (" ADD COLUMN " ++ c.clause .mysql).toList :=
      Copied.concat (copied_of_bare rfl) (copied_clause bare)
    exact added.concat c.copied_additions
  | drop => exact Copied.concat (copied_of_bare rfl) (Dialect.copied_identifier c.name)

end Column

/-! ## Keys -/

namespace Key

/-- What stands in front of a name that comes before the columns of a key. -/
theorem copied_named {keyword : String} (word : Copied keyword.toList) (name : String)
    (columns : List String) : Copied (keyword ++ Dialect.mysql.identifier name ++
      (" (" ++ Dialect.mysql.identifiers columns ++ ")")).toList :=
  (word.concat (Dialect.copied_identifier name)).concat (Dialect.copied_enclosed columns)

theorem copied_clause (k : Key) : Copied (k.clause .mysql).toList := by
  unfold clause
  cases k.kind with
  | primary => exact Copied.concat (copied_of_bare rfl) (Dialect.copied_enclosed k.columns)
  | unique => exact copied_named (copied_of_bare rfl) k.name k.columns
  | index => exact copied_named (copied_of_bare rfl) k.name k.columns

theorem copied_toSql (k : Key) : ∃ sql, k.toSql .mysql = .ok sql ∧ Copied sql.toList := by
  have opening : Copied ("ALTER TABLE " ++ Dialect.mysql.identifier k.table).toList :=
    Copied.concat (copied_of_bare rfl) (Dialect.copied_identifier k.table)
  have columns := Dialect.copied_enclosed k.columns
  have named : ∀ {keyword : String}, Copied keyword.toList →
      Copied ("ALTER TABLE " ++ Dialect.mysql.identifier k.table ++ keyword ++
        Dialect.mysql.identifier k.name).toList := fun word =>
    (opening.concat word).concat (Dialect.copied_identifier k.name)
  unfold toSql
  cases k.kind <;> cases k.mode
  · exact ⟨_, rfl, (named (copied_of_bare rfl)).concat columns⟩
  · exact ⟨_, rfl, named (copied_of_bare rfl)⟩
  · exact ⟨_, rfl, (named (copied_of_bare rfl)).concat columns⟩
  · exact ⟨_, rfl, named (copied_of_bare rfl)⟩
  · exact ⟨_, rfl, (opening.concat (copied_of_bare rfl)).concat columns⟩
  · exact ⟨_, rfl, opening.concat (copied_of_bare rfl)⟩

end Key

/-! ## Tables -/

namespace Table

variable {t : Table}

theorem copied_clauses (bare : ∀ c ∈ t.columns, ∀ text ∈ c.verbatim, Bare text) :
    ∀ clause ∈ t.clauses .mysql, Copied clause.toList := by
  have columns : ∀ clause ∈ t.columns.map (·.clause .mysql), Copied clause.toList := by
    intro clause member
    obtain ⟨c, inside, rfl⟩ := List.mem_map.mp member
    exact Column.copied_clause (bare c inside)
  have primary : ∀ clause ∈ t.primaryClause .mysql, Copied clause.toList := by
    unfold primaryClause
    split
    · simp
    · have clause : Copied ("PRIMARY KEY (" ++ Dialect.mysql.identifiers t.primaryKey ++ ")").toList :=
        Copied.concat (Copied.concat (copied_of_bare rfl) (Dialect.copied_identifiers t.primaryKey))
          (copied_of_bare rfl)
      simpa using clause
  refine copiedAll_append (copiedAll_append columns primary) ?_
  intro clause member
  obtain ⟨k, -, rfl⟩ := List.mem_map.mp member
  exact k.copied_clause

theorem copied_options (bare : ∀ text ∈ (Definition.table t).verbatim, Bare text) :
    ∀ option ∈ t.options .mysql, Copied option.toList := by
  have given : ∀ {keyword text : String}, Copied keyword.toList →
      text ∈ (Definition.table t).verbatim → Copied (keyword ++ text).toList :=
    fun word member => word.concat (bare _ member).copied
  refine copiedAll_append (copiedAll_append (copiedAll_append (copiedAll_append
    (copiedAll_map fun engine same => given (copied_of_bare rfl) ?_)
    (copiedAll_map fun format same => given (copied_of_bare rfl) ?_))
    (copiedAll_map fun charset same => given (copied_of_bare rfl) ?_))
    (copiedAll_map fun collation same => given (copied_of_bare rfl) ?_))
    (copiedAll_map fun comment _ => Copied.concat (copied_of_bare rfl) (copied_escaped comment))
  all_goals simp [Definition.verbatim, Option.mem_def.mp same]

theorem copied_toSql (bare : ∀ text ∈ (Definition.table t).verbatim, Bare text) :
    ∃ sql, t.toSql .mysql = .ok sql ∧ Copied sql.toList := by
  have name := Dialect.copied_identifier t.name
  have inColumns : ∀ c ∈ t.columns, ∀ text ∈ c.verbatim, Bare text := by
    intro c inside text member
    refine bare text ?_
    simp only [Definition.verbatim, List.mem_append]
    exact .inl (.inl (.inl (.inl (List.mem_flatMap.mpr ⟨c, inside, member⟩))))
  unfold toSql
  cases t.mode with
  | drop => exact ⟨_, rfl, Copied.concat (copied_of_bare rfl) name⟩
  | create =>
    refine ⟨_, rfl, ?_⟩
    have opening : Copied ("CREATE TABLE IF NOT EXISTS " ++ Dialect.mysql.identifier t.name ++
        " (\n").toList :=
      Copied.concat (Copied.concat (copied_of_bare rfl) name) (copied_of_bare rfl)
    have lines : Copied (Text.joined ",\n" ((t.clauses .mysql).map ("    " ++ ·))).toList := by
      refine copied_joined (copied_of_bare rfl) fun line member => ?_
      obtain ⟨clause, inside, rfl⟩ := List.mem_map.mp member
      exact Copied.concat (copied_of_bare rfl) (copied_clauses inColumns clause inside)
    refine ((opening.concat lines).concat (copied_of_bare rfl)).concat ?_
    split
    · exact copied_of_bare rfl
    · exact Copied.concat (copied_of_bare rfl)
        (copied_joined (copied_of_bare rfl) (copied_options bare))

end Table

/-! ## The main result -/

/-- **The statement of a definition is its own positional form.** Whatever the names, comments,
default texts and list texts of the definition hold, MySQL has a statement for it, and rewriting that
changes nothing and finds no values, under any table. What the statement has as it was given has to
be free of quotes and colons. -/
theorem definitions_are_their_positional_form (definition : Definition)
    (bare : ∀ text ∈ definition.verbatim, ∀ c ∈ text.toList, isQuote c = false ∧ c ≠ ':')
    (p : Params) :
    ∃ sql, definition.toSql .mysql = .ok sql ∧ p.toPositional sql = .ok (sql, []) := by
  have bare : ∀ text ∈ definition.verbatim, Bare text := by
    intro text member
    refine List.all_eq_true.mpr fun c inside => ?_
    obtain ⟨unquoted, uncoloned⟩ := bare text member c inside
    simp [isBare, unquoted, uncoloned]
  have copied : ∃ sql, definition.toSql .mysql = .ok sql ∧ Copied sql.toList := by
    cases definition with
    | table t => exact Table.copied_toSql bare
    | column c => exact ⟨_, rfl, Column.copied_toSql bare⟩
    | key k => exact k.copied_toSql
  obtain ⟨sql, rendered, copied⟩ := copied
  exact ⟨sql, rendered, p.toPositional_of_copied copied⟩

/-- A table whose name, list texts and comments look like quotes and placeholders. -/
def Table.notes : Table where
  name := "a\x60:b"
  columns := [
    { table := "a\x60:b", name := "?", type := .list, length := some (.values [":x", "it's"]) },
    { table := "a\x60:b", name := "at", type := .other "timestamp", length := none,
      default := some (.expression "NOW()"), comment := some "\\:y" }]
  engine := some "InnoDB"
  comment := some "'\n:z"

/-- Neither the name nor any of the texts has a placeholder, although the table would bind them. -/
theorem definitions_are_their_positional_form_notes :
    (∀ text ∈ (Definition.table Table.notes).verbatim, ∀ c ∈ text.toList,
      isQuote c = false ∧ c ≠ ':') ∧
    ∃ sql, (Definition.table Table.notes).toSql .mysql = .ok sql ∧
      sql = "CREATE TABLE IF NOT EXISTS \x60a\x60\x60:b\x60 (\n    \x60?\x60 ENUM(':x','it''s') " ++
        "NOT NULL,\n    \x60at\x60 TIMESTAMP NOT NULL DEFAULT NOW() COMMENT '\\\\:y'\n) " ++
        "ENGINE=InnoDB COMMENT='''\n:z'" ∧
      (⟨[(":x", .int 1), (":b", .int 2)]⟩ : Params).toPositional sql = .ok (sql, []) := by
  have bare : ∀ text ∈ (Definition.table Table.notes).verbatim, ∀ c ∈ text.toList,
      isQuote c = false ∧ c ≠ ':' := by
    intro text member
    have listed : text ∈ ["timestamp", "NOW()", "InnoDB"] := member
    simp only [List.mem_cons, List.not_mem_nil, or_false] at listed
    rcases listed with rfl | rfl | rfl <;> decide
  obtain ⟨sql, rendered, positional⟩ := definitions_are_their_positional_form (.table Table.notes)
    bare ⟨[(":x", .int 1), (":b", .int 2)]⟩
  refine ⟨bare, sql, rendered, ?_, positional⟩
  exact (Except.ok.inj rendered).symm

end SqlAccess
