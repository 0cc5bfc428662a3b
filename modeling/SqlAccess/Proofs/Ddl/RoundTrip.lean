import SqlAccess.Proofs.Ddl.Legible

/-!
# Reading a printed table

The printed text of a table is read line by line, and the table that is read grows with the lines:
columns are put behind the first one, the line of the primary key marks them, and keys and options
follow. What is read in the end is `Table.reread`, the table itself but for what is not printed
(`Table.Readable.readTable_toSql`); it is printed again as the same text
(`Table.Readable.toSql_reread`).
-/

namespace SqlAccess

open Ddl SqlAccess.Text

/-! ## Columns -/

namespace Column

/-- The column that is read where this one was printed. -/
def reread (c : Column) : Column :=
  { c.listed with primary := c.primary }

theorem name_reread (c : Column) : c.reread.name = c.name := by
  dsimp only [reread, listed]

theorem type_reread (c : Column) : c.reread.type =
    Dialect.mysql.columnType (Dialect.mysql.nativeType c.type) c.length := by
  dsimp only [reread, listed]

theorem length_reread (c : Column) : c.reread.length = c.length := by
  dsimp only [reread, listed]

theorem nullable_reread (c : Column) : c.reread.nullable = c.nullable := by
  dsimp only [reread, listed]

theorem default_reread (c : Column) : c.reread.default = c.default.bind DefaultValue.reread := by
  dsimp only [reread, listed]

theorem primary_reread (c : Column) : c.reread.primary = c.primary := by
  dsimp only [reread, listed]

end Column

namespace Table

/-- **Column lines put their columns behind each other.** -/
theorem through_columns {t : Table} {cs : List Column} (readable : ∀ c ∈ cs, c.Readable)
    (own : ∀ c ∈ cs, c.table = t.name) (other : implicitId ∉ cs.map (·.name))
    (distinct : (t.columns.map (·.name) ++ cs.map (·.name)).Nodup) :
    (Progress.columns t).through .mysql (cs.map fun c => (c.clause .mysql).toList) =
      some (.columns { t with columns := t.columns ++ cs.map Column.listed }) := by
  induction cs generalizing t with
  | nil =>
    rw [List.map_nil, List.map_nil, List.append_nil]
    rfl
  | cons c cs ih =>
    have first := readable c List.mem_cons_self
    rw [List.map_cons, List.mem_cons, not_or] at other
    have fresh : c.listed.name ∉ t.columns.map (·.name) := fun member =>
      (List.nodup_append.mp distinct).2.2 _ member c.name List.mem_cons_self rfl
    have put : t.putColumn c.listed = { t with columns := t.columns ++ [c.listed] } := by
      rw [putColumn, placeColumn_of_fresh fresh]
    have step : (Progress.columns t).next .mysql (c.clause .mysql).toList =
        some (.columns { t with columns := t.columns ++ [c.listed] }) := by
      rw [Progress.next, if_pos (head?_clause first.named),
        first.readColumn_clause (fun same => other.1 same.symm) (own c List.mem_cons_self), put]
      rfl
    have more := ih (t := { t with columns := t.columns ++ [c.listed] })
      (fun c' member => readable c' (List.mem_cons_of_mem c member))
      (fun c' member => own c' (List.mem_cons_of_mem c member)) other.2
      (by rwa [List.map_append, List.append_assoc])
    rw [List.map_cons, Progress.through_cons, step, Option.bind_some, more, List.append_assoc]
    rfl

theorem reread_idColumn (table : String) :
    (idColumn .mysql table).reread = idColumn .mysql table := by
  have type : Dialect.mysql.columnType (Dialect.mysql.nativeType (idColumn .mysql table).type)
      (idColumn .mysql table).length = .integer := (by decide :
        Dialect.mysql.columnType (Dialect.mysql.nativeType .integer) (some (.size 11)) = .integer)
  unfold Column.reread Column.listed
  rw [type]
  rfl

theorem next_opening {name : String} (named : Named name) :
    Progress.start.next .mysql (opening name) = some (.columns (Table.created .mysql name)) := by
  rw [Progress.next, opening?_opening named]
  rfl

/-- The line of the column that every table starts with adds nothing. -/
theorem next_idColumn (name : String) :
    (Progress.columns (Table.created .mysql name)).next .mysql
      ((idColumn .mysql name).clause .mysql).toList =
        some (.columns (Table.created .mysql name)) := by
  rw [Progress.next, if_pos (head?_clause named_implicitId),
    (readable_idColumn name).readColumn_clause_of_implicit _ rfl]
  rfl

/-! ## Keys -/

/-- The line of the primary key marks the declared columns and makes an entry for the others. -/
theorem next_primary {t : Table} {names : List String} (all : ∀ name ∈ names, Columnar name) :
    (Progress.columns t).next .mysql ("PRIMARY KEY (".toList ++ enclosedNames names) =
      some (.keys ((names.filter (· != implicitId)).foldl addPrimary t)) := by
  have start : ("PRIMARY KEY (".toList ++ enclosedNames names).head? ≠ some '\x60' := by
    have first : ("PRIMARY KEY (".toList ++ enclosedNames names).head? = some 'P' := rfl
    rw [first]
    decide
  have isKey : isKeyLine ("PRIMARY KEY (".toList ++ enclosedNames names) = true := by
    have parts : "PRIMARY KEY (".toList = "PRIMARY KEY".toList ++ " (".toList := by decide
    rw [isKeyLine, parts, List.append_assoc, afterStart_append]
    rfl
  rw [Progress.next, if_neg start, Progress.finish, if_pos isKey, Key.readKey_primary all]
  rfl

/-- **Key lines put their keys behind each other.** -/
theorem through_keys {t : Table} {keys : List Key} (plain : ∀ k ∈ keys, k.kind ≠ .primary)
    (readable : ∀ k ∈ keys, k.Readable) (own : ∀ k ∈ keys, k.table = t.name) :
    (Progress.keys t).through .mysql (keys.map fun k => (k.clause .mysql).toList) =
      some (.keys { t with keys := t.keys ++ keys.map Key.reread }) := by
  induction keys generalizing t with
  | nil =>
    rw [List.map_nil, List.map_nil, List.append_nil]
    rfl
  | cons k keys ih =>
    have other := plain k List.mem_cons_self
    have step : (Progress.keys t).next .mysql (k.clause .mysql).toList =
        some (.keys (t.addKey k.reread)) := by
      rw [Progress.next, Progress.finish, if_pos (Key.isKeyLine_clause other),
        Key.readKey_clause (readable k List.mem_cons_self) other (own k List.mem_cons_self)]
      rfl
    have more := ih (t := t.addKey k.reread) (fun k' member => plain k' (List.mem_cons_of_mem k member))
      (fun k' member => readable k' (List.mem_cons_of_mem k member))
      (fun k' member => own k' (List.mem_cons_of_mem k member))
    rw [List.map_cons, Progress.through_cons, step, Option.bind_some, more, addKey,
      List.append_assoc]
    rfl

theorem next_closing {t t' : Table} (readable : ∀ setting ∈ t.settings, Setting.Readable setting) :
    (Progress.keys t').next .mysql t.closing = some (.closed
      { t' with
        comment := t.comment, engine := t.engine, rowFormat := t.rowFormat, charset := t.charset
        collation := t.collation }) := by
  have other : ¬ isKeyLine t.closing = true := Bool.false_ne_true
  have start : t.closing.head? = some ')' := rfl
  rw [Progress.next, Progress.finish, if_neg other, if_pos start, readOptions_closing readable]

/-! ## The table -/

/-- Is the text of the table read as the table? -/
structure Readable (t : Table) : Prop extends Started t where
  named : Named t.name
  columns : ∀ c ∈ t.columns.tail, c.Readable
  marked : ∀ c ∈ t.columns.tail, c.primary = true → Columnar c.name ∧ c.nullable = false
  keyed : ∃ names others, t.Keyed names others
  settings : ∀ setting ∈ t.settings, Setting.Readable setting
  comment : ∀ comment ∈ t.comment, '\n' ∉ comment.toList

/-- The table that is read where this one was printed. -/
def reread (t : Table) : Table :=
  { t with columns := t.columns.map Column.reread, keys := t.keys.map Key.reread }

/-- Marking the columns that were marked makes them what they were. -/
theorem map_marked {cs : List Column} (distinct : (cs.map (·.name)).Nodup)
    (marked : ∀ c ∈ cs, c.primary = true → c.nullable = false) :
    (cs.map Column.listed).map (fun c => if c.name ∈ (cs.filter (·.primary)).map (·.name) then
      c.asPrimary else c) = cs.map Column.reread := by
  rw [List.map_map]
  refine List.map_congr_left fun c member => ?_
  rw [Function.comp_apply]
  have told : c.listed.name ∈ (cs.filter (·.primary)).map (·.name) ↔ c.primary = true := by
    constructor
    · intro inside
      obtain ⟨c', member', same⟩ := List.mem_map.mp inside
      obtain ⟨member', primary⟩ := List.mem_filter.mp member'
      rwa [← List.inj_on_of_nodup_map distinct member' member same]
    · intro primary
      exact List.mem_map.mpr ⟨c, List.mem_filter.mpr ⟨member, primary⟩, rfl⟩
  cases primary : c.primary with
  | true =>
    rw [if_pos (told.mpr primary), Column.asPrimary, Column.reread, primary]
    exact congrArg (fun nullable => { c.listed with primary := true, nullable })
      (marked c member primary).symm
  | false =>
    have unmarked : ¬ c.listed.name ∈ (cs.filter (·.primary)).map (·.name) := by
      intro inside
      rw [told.mp inside] at primary
      cases primary
    rw [if_neg unmarked, Column.reread, primary]
    rfl

section

variable {t : Table} (readable : t.Readable) {names : List String} {others : List Key}
  (keyed : t.Keyed names others)

include readable in
theorem Readable.legible : t.Legible :=
  { readable with
    columns := fun c member => (readable.columns c member).legible
    marked := fun c member primary => (readable.marked c member primary).1 }

include readable in
/-- The columns behind the first one have names of their own, and so have the marked ones. -/
theorem Readable.implicitId_not_mem_marked :
    implicitId ∉ (t.columns.tail.filter (·.primary)).map (·.name) := by
  have distinct := readable.distinct
  rw [readable.names_eq, List.nodup_cons] at distinct
  exact fun member => distinct.1 ((List.filter_sublist.map _).subset member)

include readable keyed in
/-- Behind the first column, the primary key is over the marked columns and the names of the
entry. -/
theorem Readable.filter_primaryKey : t.primaryKey.filter (· != implicitId) =
    (t.columns.tail.filter (·.primary)).map (·.name) ++ names := by
  have undeclared : implicitId ∉ names := by
    intro member
    refine keyed.undeclared implicitId member ?_
    rw [readable.names_eq]
    exact List.mem_cons_self
  rw [readable.legible.primaryKey_eq keyed, List.filter_cons, if_neg (by decide)]
  refine List.filter_eq_self.mpr fun name member => bne_iff_ne.mpr ?_
  rintro rfl
  exact (List.mem_append.mp member).elim readable.implicitId_not_mem_marked undeclared

include readable in
/-- Naming the marked columns for the primary key puts the marks back. -/
theorem Readable.foldl_addPrimary_marked :
    ((t.columns.tail.filter (·.primary)).map (·.name)).foldl addPrimary
      { Table.created .mysql t.name with
        columns := idColumn .mysql t.name :: t.columns.tail.map Column.listed } =
      { Table.created .mysql t.name with columns := t.columns.map Column.reread } := by
  have distinct := readable.distinct
  rw [readable.names_eq, List.nodup_cons] at distinct
  have names : (idColumn .mysql t.name :: t.columns.tail.map Column.listed).map (·.name) =
      t.columns.map (·.name) := by
    rw [readable.names_eq, List.map_cons, List.map_map]
    rfl
  have columns : (idColumn .mysql t.name :: t.columns.tail.map Column.listed).map (fun c =>
      if c.name ∈ (t.columns.tail.filter (·.primary)).map (·.name) then c.asPrimary else c) =
        t.columns.map Column.reread := by
    have first : ¬ (idColumn .mysql t.name).name ∈
        (t.columns.tail.filter (·.primary)).map (·.name) := readable.implicitId_not_mem_marked
    rw [List.map_cons, if_neg first,
      map_marked distinct.2 fun c member primary => (readable.marked c member primary).2]
    conv_rhs => rw [readable.implicit, List.map_cons, reread_idColumn]
  rw [foldl_addPrimary_declared (by rw [names]; exact readable.distinct), columns]
  intro name member
  rw [names, readable.names_eq]
  exact List.mem_cons_of_mem _ ((List.filter_sublist.map _).subset member)

include readable keyed in
/-- The line of the primary key puts the marks and the entry back. -/
theorem Readable.next_primaryKey :
    (Progress.columns { Table.created .mysql t.name with
      columns := idColumn .mysql t.name :: t.columns.tail.map Column.listed }).next .mysql
        ("PRIMARY KEY (".toList ++ enclosedNames t.primaryKey) =
    some (.keys { Table.created .mysql t.name with
      columns := t.columns.map Column.reread, keys := primaryEntry t.name names }) := by
  have entry : names.foldl addPrimary
      { Table.created .mysql t.name with columns := t.columns.map Column.reread } =
      { Table.created .mysql t.name with
        columns := t.columns.map Column.reread, keys := primaryEntry t.name names } := by
    refine foldl_addPrimary_undeclared rfl keyed.distinct ?_
    have same : (t.columns.map Column.reread).map (·.name) = t.columns.map (·.name) := List.map_map
    rw [same]
    exact keyed.undeclared
  rw [next_primary (readable.legible.columnar_primaryKey keyed), readable.filter_primaryKey keyed,
    List.foldl_append, readable.foldl_addPrimary_marked, entry]

include keyed in
/-- The lines of the other keys put them behind the entry. -/
theorem Keyed.through_others :
    (Progress.keys { Table.created .mysql t.name with
      columns := t.columns.map Column.reread, keys := primaryEntry t.name names }).through .mysql
        (others.map fun k => (k.clause .mysql).toList) =
      some (.keys { Table.created .mysql t.name with
        columns := t.columns.map Column.reread, keys := t.keys.map Key.reread }) := by
  have entry : (primaryEntry t.name names).map Key.reread = primaryEntry t.name names := by
    cases names <;> rfl
  rw [keyed.keys, List.map_append, entry]
  exact through_keys keyed.plain keyed.readable keyed.own

include readable keyed in
/-- **The lines of a table lead to the table.** -/
theorem Readable.through_printed :
    Progress.start.through .mysql (opening t.name ::
      ((t.clauses .mysql).map String.toList ++ [t.closing])) = some (.closed t.reread) := by
  have distinct := readable.distinct
  rw [readable.names_eq] at distinct
  have clauses : t.columns.map (fun c => (c.clause .mysql).toList) =
      ((idColumn .mysql t.name).clause .mysql).toList ::
        t.columns.tail.map fun c => (c.clause .mysql).toList := by
    conv_lhs => rw [readable.implicit]
    rfl
  have columns : (Progress.columns (Table.created .mysql t.name)).through .mysql
      (t.columns.tail.map fun c => (c.clause .mysql).toList) =
        some (.columns { Table.created .mysql t.name with
          columns := idColumn .mysql t.name :: t.columns.tail.map Column.listed }) :=
    through_columns readable.columns
      (fun c member => readable.own c (List.mem_of_mem_tail member))
      (List.nodup_cons.mp distinct).1 distinct
  have told : t.reread =
      { Table.created .mysql t.name with
        columns := t.columns.map Column.reread, keys := t.keys.map Key.reread
        comment := t.comment, engine := t.engine, rowFormat := t.rowFormat, charset := t.charset
        collation := t.collation } := by
    rw [reread, readable.created]
    rfl
  rw [readable.legible.clauses_eq keyed, clauses, Progress.through_cons,
    next_opening readable.named, Option.bind_some, List.cons_append, List.cons_append,
    Progress.through_cons, next_idColumn, Option.bind_some, List.append_assoc,
    Progress.through_append, columns, Option.bind_some, List.cons_append, Progress.through_cons,
    readable.next_primaryKey keyed, Option.bind_some, Progress.through_append,
    keyed.through_others, Option.bind_some, Progress.through_cons,
    next_closing readable.settings, told]
  rfl

include readable in
/-- **The text of a table is read as the table.** -/
theorem Readable.readTable_toSql :
    ∃ ddl, t.toSql .mysql = .ok ddl ∧ Dialect.mysql.readTable ddl = .ok t.reread := by
  obtain ⟨names, others, keyed⟩ := readable.keyed
  refine ⟨_, readable.legible.toSql_eq, ?_⟩
  rw [Dialect.readTable, String.toList_ofList, readTable_eq_ok, readable.legible.bodies_printed]
  exact readable.through_printed keyed

end

end Table

end SqlAccess
