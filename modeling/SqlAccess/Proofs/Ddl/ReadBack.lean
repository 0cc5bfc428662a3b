import SqlAccess.Proofs.Ddl.Declared
import SqlAccess.Proofs.Ddl.Recorded

/-!
# What a printed table is read as, column by column

A printed table whose lines can be taken apart is read exactly if the line of every column is
(`Table.Legible.exists_read_iff`), and then every column is what its own line says
(`Table.Legible.column?_of_read`). So what becomes of one column is decided by its line alone, and
the other columns, the keys and the options play no part.

So a declared table is read as itself exactly if each of its columns is good, whatever that means
for them, as soon as a good column is kept and a column that is read as itself was good
(`Table.Ordered.read_back_iff`).
-/

namespace SqlAccess

open Ddl SqlAccess.Text

namespace Ddl

/-! ## The name of a table that is read -/

/-- The name of the table that is being read. -/
def Progress.tableName? : Progress → Option String
  | .start => none
  | .columns t | .keys t | .closed t => some t.name

theorem name_foldl_addPrimary (names : List String) (t : Table) :
    (names.foldl Table.addPrimary t).name = t.name := by
  induction names generalizing t with
  | nil => rfl
  | cons name names ih =>
    rw [List.foldl_cons, ih, Table.addPrimary]
    split
    next => rfl
    next => split <;> rfl

theorem Progress.tableName?_finish {t : Table} {progress : Progress} {body : List Char}
    (h : Progress.finish t body = some progress) :
    progress.tableName? = some t.name ∧ progress ≠ .start := by
  rcases finish_eq_some_iff.mp h with ⟨t', key, rfl⟩ | ⟨-, rfl⟩
  · refine ⟨congrArg some ?_, Progress.noConfusion⟩
    rcases readKey_eq_some_iff.mp key with ⟨names, -, rfl⟩ | ⟨-, k, -, rfl⟩
    · exact name_foldl_addPrimary _ t
    · rfl
  · exact ⟨rfl, Progress.noConfusion⟩

/-- Lines behind the opening one keep the name of the table. -/
theorem Progress.tableName?_next {progress progress' : Progress} {body : List Char}
    (opened : progress ≠ .start) (h : progress.next .mysql body = some progress') :
    progress'.tableName? = progress.tableName? ∧ progress' ≠ .start := by
  cases progress with
  | start => exact absurd rfl opened
  | columns t =>
    rcases next_columns_eq_some_iff.mp h with ⟨t', put, rfl⟩ | finished
    · refine ⟨congrArg some ?_, Progress.noConfusion⟩
      obtain ⟨line, -, ⟨-, rfl⟩ | ⟨-, c, -, rfl⟩⟩ := readColumn_eq_some_iff.mp put
      · rfl
      · rfl
    · exact tableName?_finish finished
  | keys t => exact tableName?_finish h
  | closed t => cases h

theorem Progress.tableName?_through {progress progress' : Progress} {bodies : List (List Char)}
    (opened : progress ≠ .start) (h : progress.through .mysql bodies = some progress') :
    progress'.tableName? = progress.tableName? := by
  induction bodies generalizing progress with
  | nil =>
    obtain rfl := Option.some.inj h
    rfl
  | cons body bodies ih =>
    rw [Progress.through_cons] at h
    obtain ⟨between, step, rest⟩ := Option.bind_eq_some_iff.mp h
    obtain ⟨same, opened'⟩ := Progress.tableName?_next opened step
    rw [ih opened' rest, same]

/-- A table that is read has the name in its opening line. -/
theorem name_of_readTable {text first : List Char} {rest : List (List Char)} {t : Table}
    (h : readTable .mysql text = .ok t) (lines : bodies text = first :: rest) :
    opening? first = some t.name := by
  rw [readTable_eq_ok, lines, Progress.through_cons] at h
  obtain ⟨between, step, rest⟩ := Option.bind_eq_some_iff.mp h
  obtain ⟨name, found, rfl⟩ := Option.map_eq_some_iff.mp step
  rw [found]
  exact (Progress.tableName?_through Progress.noConfusion rest).symm

end Ddl

namespace Table

variable {t : Table}

/-! ## Each column is what its line says -/

/-- Among lines of different names, the last one of a name is the one of that name. -/
theorem lastLine?_of_mem {lines : List ColumnLine} (distinct : (lines.map (·.name)).Nodup)
    {line : ColumnLine} (member : line ∈ lines) : lastLine? line.name lines = some line := by
  have inside : line ∈ lines.filter (·.name == line.name) :=
    List.mem_filter.mpr ⟨member, beq_self_eq_true _⟩
  cases last : lastLine? line.name lines with
  | none => exact absurd (List.getLast?_eq_none_iff.mp last) (List.ne_nil_of_mem inside)
  | some line' =>
    obtain ⟨member', same⟩ := List.mem_filter.mp (List.mem_of_getLast? last)
    rw [List.inj_on_of_nodup_map distinct member' member (eq_of_beq same)]

section

variable (legible : t.Legible)

include legible

/-- What is read of the text of the table has the lines and the primary key of the table. -/
theorem Legible.recorded {read : Table} (h : readTable .mysql t.printed = .ok read) :
    read.name = t.name ∧ read.Recorded (t.columns.map Column.line) t.primaryKey := by
  refine ⟨?_, ?_⟩
  · have opened := name_of_readTable h legible.bodies_printed
    rw [opening?_opening legible.named] at opened
    exact (Option.some.inj opened).symm
  · have read' : Dialect.mysql.readTable (String.ofList t.printed) = .ok read := by
      rwa [Dialect.readTable, String.toList_ofList]
    have recorded := recorded_of_readTable read'
    rwa [columnLines, primaryLines, String.toList_ofList, legible.columnLines_printed,
      legible.primaryLines_printed, List.flatten_singleton] at recorded

/-- **A column is read as what its line says**, and marked as it was. -/
theorem Legible.column?_of_read {read : Table} (h : readTable .mysql t.printed = .ok read)
    {c : Column} (member : c ∈ t.columns.tail) :
    ∃ told, c.line.column? .mysql c.table = some told ∧
      read.column? c.name = some (if c.name ∈ t.primaryKey then told.asPrimary else told) := by
  have inside := List.mem_of_mem_tail member
  obtain ⟨name, recorded⟩ := legible.recorded h
  have lines : (t.columns.map Column.line).map (·.name) = t.columns.map (·.name) := List.map_map
  have declared : c.name ∈ read.columns.map (·.name) := by
    rw [recorded.names, lines]
    exact mem_withNew.mpr (.inr (List.mem_map_of_mem inside))
  obtain ⟨c', inside', same⟩ := List.mem_map.mp declared
  have other : c'.name ≠ implicitId := same ▸ legible.ne_implicitId member
  obtain ⟨line, told, last, column, whole⟩ := recorded.told c' inside' other
  have own : lastLine? c.name (t.columns.map Column.line) = some c.line :=
    lastLine?_of_mem (lines ▸ legible.distinct) (List.mem_map_of_mem inside)
  rw [same, own] at last
  obtain rfl := Option.some.inj last
  rw [name, ← legible.own c inside] at column
  refine ⟨told, column, ?_⟩
  rw [← same, column?_of_mem recorded.distinct inside', ← whole]

/-! ## Which printed tables are read -/

omit legible in
/-- Column lines that can be read stand behind each other. -/
theorem exists_through_columns {t : Table} {cs : List Column} (legible : ∀ c ∈ cs, c.Legible)
    (read : ∀ c ∈ cs, c.name ≠ implicitId → (c.line.column? .mysql t.name).isSome) :
    ∃ t', (Progress.columns t).through .mysql (cs.map fun c => (c.clause .mysql).toList) =
      some (.columns t') ∧ t'.name = t.name := by
  induction cs generalizing t with
  | nil => exact ⟨t, rfl, rfl⟩
  | cons c cs ih =>
    have first := legible c List.mem_cons_self
    have behind : ∀ t' : Table, t'.name = t.name → ∃ t'', (Progress.columns t').through .mysql
        (cs.map fun c => (c.clause .mysql).toList) = some (.columns t'') ∧ t''.name = t.name := by
      intro t' name
      rw [← name]
      refine ih (fun c' member => legible c' (List.mem_cons_of_mem c member)) ?_
      rw [name]
      exact fun c' member => read c' (List.mem_cons_of_mem c member)
    have step : ∃ t', (Progress.columns t).next .mysql (c.clause .mysql).toList =
        some (.columns t') ∧ t'.name = t.name := by
      have line := Column.columnLine?_clause first.named first.isNative
      have put : ∀ {t'}, readColumn .mysql t (c.clause .mysql).toList = some t' →
          (Progress.columns t).next .mysql (c.clause .mysql).toList = some (.columns t') :=
        fun read => Progress.next_columns_eq_some_iff.mpr (.inl ⟨_, read, rfl⟩)
      by_cases implicit : c.line.name = implicitId
      · exact ⟨t, put (readColumn_eq_some_iff.mpr ⟨_, line, .inl ⟨implicit, rfl⟩⟩), rfl⟩
      · obtain ⟨told, column⟩ :=
          Option.isSome_iff_exists.mp (read c List.mem_cons_self implicit)
        exact ⟨t.putColumn told, put (readColumn_eq_some_iff.mpr
          ⟨_, line, .inr ⟨implicit, told, column, rfl⟩⟩), rfl⟩
    obtain ⟨t', step, name⟩ := step
    obtain ⟨t'', rest, name'⟩ := behind t' name
    refine ⟨t'', ?_, name'⟩
    rw [List.map_cons, Progress.through_cons, step, Option.bind_some, rest]

/-- **The text of the table is read exactly if the line of every column is.** -/
theorem Legible.exists_read_iff : (∃ read, readTable .mysql t.printed = .ok read) ↔
    ∀ c ∈ t.columns.tail, (c.line.column? .mysql c.table).isSome := by
  constructor
  · rintro ⟨read, h⟩ c member
    obtain ⟨told, column, -⟩ := legible.column?_of_read h member
    exact Option.isSome_of_eq_some column
  · intro lines
    have read : ∀ c ∈ t.columns, c.name ≠ implicitId →
        (c.line.column? .mysql t.name).isSome := by
      intro c member other
      rw [← legible.own c member]
      refine lines c ((legible.mem_columns_iff.mp member).resolve_left ?_)
      rintro rfl
      exact other rfl
    obtain ⟨names, others, keyed⟩ := legible.keyed
    have opened : Progress.start.next .mysql (opening t.name) =
        some (.columns (Table.created .mysql t.name)) := by
      rw [Progress.next, opening?_opening legible.named]
      rfl
    obtain ⟨t', columns, name⟩ :=
      exists_through_columns (t := Table.created .mysql t.name) legible.legible_column read
    have primary := next_primary (t := t') (legible.columnar_primaryKey keyed)
    have own : ∀ k ∈ others,
        k.table = ((t.primaryKey.filter (· != implicitId)).foldl addPrimary t').name := by
      intro k member
      rw [name_foldl_addPrimary, name]
      exact keyed.own k member
    have keys := through_keys keyed.plain keyed.readable own
    simp only [readTable_eq_ok]
    rw [legible.bodies_printed, legible.clauses_eq keyed, Progress.through_cons, opened,
      Option.bind_some, List.append_assoc, Progress.through_append, columns, Option.bind_some,
      List.cons_append, Progress.through_cons, primary, Option.bind_some,
      Progress.through_append, keys, Option.bind_some, Progress.through_cons,
      next_closing legible.settings]
    exact ⟨_, rfl⟩

end

/-- The column of the given name that is read where the table is printed. -/
def columnRead? (t : Table) (name : String) : Option Column :=
  (readTable .mysql t.printed).toOption.bind (·.column? name)

theorem Started.exists_of_columnRead? (started : t.Started) {name : String} {c : Column}
    (h : t.columnRead? name = some c) : ∃ ddl read, t.toSql .mysql = .ok ddl ∧
      Dialect.mysql.readTable ddl = .ok read ∧ read.column? name = some c := by
  unfold columnRead? at h
  cases read : readTable .mysql t.printed with
  | error e =>
    rw [read] at h
    cases h
  | ok table =>
    rw [read] at h
    refine ⟨_, table, toSql_eq started.created ?_, ?_, h⟩
    · rw [started.implicit]
      exact List.cons_ne_nil _ _
    · rwa [Dialect.readTable, String.toList_ofList]

/-! ## Declared tables -/

/-- **A declared table is read column by column.** What the line of every column tells holds of the
columns that are read; and the table is read as itself exactly if all its columns are good. -/
theorem Ordered.read_back_iff {good : Column → Prop} {motive : Column → Column → Prop}
    (ordered : t.Ordered) (frame : t.PlainFrame)
    (columns : ∀ c ∈ t.columns.tail, PlainName c.name ∧ c.Legible)
    (told : ∀ c ∈ t.columns.tail, ∀ c', c.line.column? .mysql c.table = some c' →
      motive c c' ∧ motive c c'.asPrimary)
    (kept : ∀ c ∈ t.columns.tail, good c → c.Kept)
    (restated : ∀ c ∈ t.columns.tail, ∀ c', motive c c' → c.Restates c' → good c) :
    ∃ ddl, t.toSql .mysql = .ok ddl ∧
      (∀ read, Dialect.mysql.readTable ddl = .ok read →
        ∀ c ∈ t.columns.tail, ∃ c', read.column? c.name = some c' ∧ motive c c') ∧
      ((∃ read, Dialect.mysql.readTable ddl = .ok read ∧ t.Restates read) ↔
        ∀ c ∈ t.columns.tail, good c) := by
  have legible : t.Legible := ordered.legible frame columns
  have each : ∀ read, Dialect.mysql.readTable (String.ofList t.printed) = .ok read →
      ∀ c ∈ t.columns.tail, ∃ c', read.column? c.name = some c' ∧ motive c c' := by
    intro read h c member
    rw [Dialect.readTable, String.toList_ofList] at h
    obtain ⟨c', column, found⟩ := legible.column?_of_read h member
    refine ⟨_, found, ?_⟩
    split
    next => exact (told c member c' column).2
    next => exact (told c member c' column).1
  refine ⟨_, legible.toSql_eq, each, ?_⟩
  constructor
  · rintro ⟨read, h, restates⟩ c member
    obtain ⟨c', found, holds⟩ := each read h c member
    obtain ⟨c'', found', same⟩ :=
      restates.exists_column? ordered.distinct (List.mem_of_mem_tail member)
    obtain rfl : c'' = c' := Option.some.inj (found'.symm.trans found)
    exact restated c member c'' holds same
  · intro all
    obtain ⟨ddl, read, printed, h, restates, -⟩ :=
      ordered.reads_back frame fun c member => kept c member (all c member)
    rw [legible.toSql_eq] at printed
    obtain rfl := Except.ok.inj printed
    exact ⟨read, h, restates⟩

end Table

end SqlAccess
