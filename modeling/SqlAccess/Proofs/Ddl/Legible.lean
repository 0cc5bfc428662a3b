import SqlAccess.Proofs.Ddl.ColumnLine
import SqlAccess.Proofs.Ddl.KeyLine
import SqlAccess.Proofs.Ddl.Layout
import SqlAccess.Proofs.Schema.Table

/-!
# Printed tables that can be taken apart

The lines of a printed table can be told from each other, and the line of each column is taken apart
into its parts, as soon as its names are plain and nothing in it breaks a line (`Table.Legible`).
That a line can be taken apart does not mean that it says what was printed: the argument of a type
may end too early, and the words behind it may be read otherwise.
-/

namespace SqlAccess

open Ddl SqlAccess.Text

namespace Table

theorem head?_clause {c : Column} (named : Named c.name) :
    (c.clause .mysql).toList.head? = some '\x60' := by
  rw [Column.toList_clause, named.identifier]
  rfl

theorem named_implicitId : Named implicitId :=
  ⟨by decide, by decide, by decide⟩

theorem readable_idColumn (table : String) : (idColumn .mysql table).Readable where
  named := named_implicitId
  isNative := (⟨by decide, by decide⟩ : IsNative "INT".toList)
  fits := by
    intro length given
    obtain rfl : .size 11 = length := Option.some.inj given
    exact (⟨by decide, by decide⟩ : Fits "INT".toList (.size 11))
  attributes := by
    intro a member
    have attributes : (idColumn .mysql table).attributes = [.notNull, .autoIncrement] := rfl
    rw [attributes] at member
    rcases List.mem_cons.mp member with rfl | member
    · trivial
    · rw [List.mem_singleton.mp member]
      trivial

/-- Are the keys an entry for the given columns and then keys whose lines read back? -/
structure Keyed (t : Table) (names : List String) (others : List Key) : Prop where
  keys : t.keys = primaryEntry t.name names ++ others
  distinct : names.Nodup
  columnar : ∀ name ∈ names, Columnar name
  undeclared : ∀ name ∈ names, name ∉ t.columns.map (·.name)
  plain : ∀ k ∈ others, k.kind ≠ .primary
  readable : ∀ k ∈ others, k.Readable
  own : ∀ k ∈ others, k.table = t.name

/-- Are the lines of the table lines that can be taken apart? -/
structure Legible (t : Table) : Prop extends Started t where
  named : Named t.name
  columns : ∀ c ∈ t.columns.tail, c.Legible
  marked : ∀ c ∈ t.columns.tail, c.primary = true → Columnar c.name
  keyed : ∃ names others, t.Keyed names others
  settings : ∀ setting ∈ t.settings, Setting.Readable setting
  comment : ∀ comment ∈ t.comment, '\n' ∉ comment.toList

theorem Started.names_eq {t : Table} (started : t.Started) :
    t.columns.map (·.name) = implicitId :: t.columns.tail.map (·.name) := by
  rw [started.implicit, List.map_cons]
  rfl

theorem Started.mem_columns_iff {t : Table} (started : t.Started) {c : Column} :
    c ∈ t.columns ↔ c = idColumn .mysql t.name ∨ c ∈ t.columns.tail := by
  conv_lhs => rw [started.implicit, List.mem_cons]

/-- Only the first column has the name of the first column. -/
theorem Started.ne_implicitId {t : Table} (started : t.Started) {c : Column}
    (member : c ∈ t.columns.tail) : c.name ≠ implicitId := by
  have distinct := started.distinct
  rw [started.names_eq, List.nodup_cons] at distinct
  exact fun same => distinct.1 (same ▸ List.mem_map_of_mem member)

section

variable {t : Table} (legible : t.Legible) {names : List String} {others : List Key}
  (keyed : t.Keyed names others)

include legible keyed in
/-- The names in the line of the primary key: the first column, the marked ones, and the others. -/
theorem Legible.primaryKey_eq : t.primaryKey =
    implicitId :: ((t.columns.tail.filter (·.primary)).map (·.name) ++ names) := by
  have flagged : (t.columns.filter (·.primary)).map (·.name) =
      implicitId :: (t.columns.tail.filter (·.primary)).map (·.name) := by
    have primary : (idColumn .mysql t.name).primary = true := rfl
    conv_lhs => rw [legible.implicit, List.filter_cons, if_pos primary, List.map_cons]
    rfl
  have distinct : ((t.columns.filter (·.primary)).map (·.name) ++ names).Nodup := by
    have part : (t.columns.filter (·.primary)).map (·.name) |>.Sublist (t.columns.map (·.name)) :=
      List.filter_sublist.map _
    refine List.nodup_append.mpr ⟨legible.distinct.sublist part, keyed.distinct, ?_⟩
    rintro name marked other member rfl
    exact keyed.undeclared name member (part.subset marked)
  rw [Table.primaryKey_eq keyed.keys keyed.plain distinct, flagged]
  rfl

include legible keyed in
theorem Legible.columnar_primaryKey : ∀ name ∈ t.primaryKey, Columnar name := by
  rw [legible.primaryKey_eq keyed]
  intro name member
  rcases List.mem_cons.mp member with rfl | member
  · decide
  rcases List.mem_append.mp member with member | member
  · obtain ⟨c, inside, rfl⟩ := List.mem_map.mp member
    obtain ⟨inside, primary⟩ := List.mem_filter.mp inside
    exact legible.marked c inside primary
  · exact keyed.columnar name member

include legible in
theorem Legible.legible_column : ∀ c ∈ t.columns, c.Legible := by
  rw [legible.implicit]
  intro c member
  rcases List.mem_cons.mp member with rfl | member
  · exact (readable_idColumn t.name).legible
  · exact legible.columns c member

include legible keyed in
/-- The lines between the parentheses. -/
theorem Legible.clauses_eq : (t.clauses .mysql).map String.toList =
    t.columns.map (fun c => (c.clause .mysql).toList) ++
      ("PRIMARY KEY (".toList ++ enclosedNames t.primaryKey) ::
        others.map fun k => (k.clause .mysql).toList := by
  have nonempty : t.primaryKey ≠ [] := by
    rw [legible.primaryKey_eq keyed]
    exact List.cons_ne_nil _ _
  have keys : t.keys.filter (·.kind != .primary) = others := by
    have entry : (primaryEntry t.name names).filter (·.kind != .primary) = [] := by
      cases names <;> rfl
    have rest : others.filter (·.kind != .primary) = others :=
      List.filter_eq_self.mpr fun k member => bne_iff_ne.mpr (keyed.plain k member)
    rw [keyed.keys, List.filter_append, entry, rest]
    rfl
  rw [clauses, List.map_append, List.map_append, toList_primaryClause nonempty, keys,
    List.map_map, List.map_map, List.append_assoc]
  rfl

include legible keyed in
theorem Legible.solid_clauses : ∀ line ∈ (t.clauses .mysql).map String.toList, Solid line := by
  rw [legible.clauses_eq keyed]
  intro line member
  rcases List.mem_append.mp member with member | member
  · obtain ⟨c, inside, rfl⟩ := List.mem_map.mp member
    exact (legible.legible_column c inside).solid_clause
  rcases List.mem_cons.mp member with same | member
  · rewrite [same]
    exact Key.solid_primary (legible.columnar_primaryKey keyed)
  · obtain ⟨k, inside, rfl⟩ := List.mem_map.mp member
    exact Key.solid_clause (keyed.readable k inside) (keyed.plain k inside)

include legible in
theorem Legible.toSql_eq : t.toSql .mysql = .ok (String.ofList t.printed) := by
  refine Table.toSql_eq legible.created ?_
  rw [legible.implicit]
  exact List.cons_ne_nil _ _

include legible in
/-- **The text of the table falls into its lines.** -/
theorem Legible.bodies_printed : bodies t.printed =
    opening t.name :: ((t.clauses .mysql).map String.toList ++ [t.closing]) := by
  obtain ⟨names, others, keyed⟩ := legible.keyed
  exact Ddl.bodies_printed (solid_opening legible.named) (legible.solid_clauses keyed)
    (solid_closing legible.settings legible.comment)

include legible in
/-- **The column lines of the text are those of the columns.** -/
theorem Legible.columnLines_printed :
    (bodies t.printed).filterMap columnLine? = t.columns.map Column.line := by
  obtain ⟨names, others, keyed⟩ := legible.keyed
  have columns : (t.columns.map fun c => (c.clause .mysql).toList).filterMap columnLine? =
      t.columns.map Column.line := by
    rw [List.filterMap_map, ← List.filterMap_eq_map]
    refine List.filterMap_congr fun c member => ?_
    have legible := legible.legible_column c member
    exact Column.columnLine?_clause legible.named legible.isNative
  have keys : (others.map fun k => (k.clause .mysql).toList).filterMap columnLine? = [] := by
    rw [List.filterMap_map, List.filterMap_eq_nil_iff]
    intro k member
    have isKey := Key.isKeyLine_clause (keyed.plain k member)
    exact columnLine?_eq_none (head?_of_isKeyLine isKey (by decide))
  have first : columnLine? (opening t.name) = none :=
    columnLine?_eq_none (by decide : some 'C' ≠ some '\x60')
  have primary : columnLine? ("PRIMARY KEY (".toList ++ enclosedNames t.primaryKey) = none :=
    columnLine?_eq_none (by decide : some 'P' ≠ some '\x60')
  have last : columnLine? t.closing = none :=
    columnLine?_eq_none (by decide : some ')' ≠ some '\x60')
  rw [legible.bodies_printed, legible.clauses_eq keyed, List.filterMap_cons_none first,
    List.append_assoc, List.filterMap_append, columns, List.cons_append,
    List.filterMap_cons_none primary, List.filterMap_append, keys,
    List.filterMap_cons_none last, List.filterMap_nil, List.append_nil, List.append_nil]

include legible in
/-- **The one primary key line of the text** is that of the primary key. -/
theorem Legible.primaryLines_printed :
    (bodies t.printed).filterMap primaryLine? = [t.primaryKey] := by
  obtain ⟨names, others, keyed⟩ := legible.keyed
  have columns : (t.columns.map fun c => (c.clause .mysql).toList).filterMap primaryLine? = [] := by
    rw [List.filterMap_map, List.filterMap_eq_nil_iff]
    intro c member
    refine primaryLine?_eq_none ?_
    rw [head?_clause (legible.legible_column c member).named]
    decide
  have keys : (others.map fun k => (k.clause .mysql).toList).filterMap primaryLine? = [] := by
    rw [List.filterMap_map, List.filterMap_eq_nil_iff]
    exact fun k member => Key.primaryLine?_clause (keyed.plain k member)
  have first : primaryLine? (opening t.name) = none :=
    primaryLine?_eq_none (by decide : some 'C' ≠ some 'P')
  have primary := primaryLine?_eq (legible.columnar_primaryKey keyed)
  have last : primaryLine? t.closing = none :=
    primaryLine?_eq_none (by decide : some ')' ≠ some 'P')
  rw [legible.bodies_printed, legible.clauses_eq keyed, List.filterMap_cons_none first,
    List.append_assoc, List.filterMap_append, columns, List.cons_append,
    List.filterMap_cons_some primary, List.filterMap_append, keys,
    List.filterMap_cons_none last, List.filterMap_nil]
  rfl

end

end Table

end SqlAccess
