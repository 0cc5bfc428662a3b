import SqlAccess.Proofs.Ddl.RoundTrip

/-!
# Printing a table that was read

The table that is read where another was printed is printed as the same text
(`Table.Readable.toSql_reread`). Reading changes how a column is described, not what is said: a
constant default is now text, which is how it was printed, a type is the one that its native type
stands for, and a key has the name of its own that it was printed with.

Two things are read as something else. `INTEGER`, written as a native type, is read as the type that
is printed `INT`; and a default of null is no default, which is not printed for a column that may not
be null. `Column.Stable` rules them out.
-/

namespace SqlAccess

open Ddl SqlAccess.Text

theorem DefaultValue.defaultSql_reread {value value' : DefaultValue}
    (read : value.reread = some value') :
    Dialect.mysql.defaultSql value' = Dialect.mysql.defaultSql value := by
  cases value <;> cases read <;> rfl

namespace Column

/-- Is the column printed as before when it is read back? -/
structure Stable (c : Column) : Prop where
  native : Dialect.mysql.nativeType c.type ≠ "INTEGER"
  null : c.default = some .null → c.nullable = true

theorem defaultWords_reread {c : Column} (stable : c.Stable) :
    c.reread.defaultWords .mysql = c.defaultWords .mysql := by
  unfold defaultWords
  rw [default_reread, nullable_reread]
  cases given : c.default with
  | none => rfl
  | some value =>
    rw [Option.bind_some]
    cases read : value.reread with
    | some value' =>
      dsimp only
      rw [DefaultValue.defaultSql_reread read]
    | none =>
      have null : value = .null := by
        cases value <;> first | rfl | cases read
      subst null
      dsimp only
      rw [if_pos (stable.null given)]
      rfl

/-- The clause of a column stays as it is. -/
theorem clause_reread {c : Column} (readable : c.Readable) (stable : c.Stable) :
    c.reread.clause .mysql = c.clause .mysql := by
  have type : Dialect.mysql.typeSql c.reread.type c.reread.length =
      Dialect.mysql.typeSql c.type c.length := by
    rw [type_reread, length_reread, Dialect.typeSql, Dialect.typeSql,
      nativeType_columnType readable.isNative.capital stable.native]
  unfold clause
  rw [type, defaultWords_reread stable]
  rfl

end Column

namespace Key

theorem name_reread (k : Key) : k.reread.name = k.name := by
  unfold reread
  split <;> rfl

theorem columns_reread (k : Key) : k.reread.columns = k.columns := by
  unfold reread
  split <;> rfl

theorem kind_reread (k : Key) : k.reread.kind = k.kind := by
  unfold reread
  split <;> rfl

/-- The clause of a key stays as it is. -/
theorem clause_reread (k : Key) : k.reread.clause .mysql = k.clause .mysql := by
  unfold clause
  rw [name_reread, columns_reread, kind_reread]

end Key

namespace Table

variable {t : Table}

/-- The columns of the primary key stay what they are. -/
theorem primaryKey_reread (t : Table) : t.reread.primaryKey = t.primaryKey := by
  have columns : (t.reread.columns.filter (·.primary)).map (·.name) =
      (t.columns.filter (·.primary)).map (·.name) := by
    have marks : ((fun c : Column => c.primary) ∘ Column.reread) = fun c => c.primary :=
      funext Column.primary_reread
    have names : ((fun c : Column => c.name) ∘ Column.reread) = fun c => c.name :=
      funext Column.name_reread
    rw [reread, List.filter_map, List.map_map, marks, names]
  have keys : (t.reread.keys.filter (·.kind == .primary)).flatMap (·.columns) =
      (t.keys.filter (·.kind == .primary)).flatMap (·.columns) := by
    have kinds : ((fun k : Key => k.kind == .primary) ∘ Key.reread) = fun k => k.kind == .primary := by
      funext k
      rw [Function.comp_apply, Key.kind_reread]
    rw [reread, List.filter_map, List.flatMap_map, kinds]
    simp only [Key.columns_reread]
  rw [primaryKey, columns, keys]
  rfl

theorem Readable.clauses_reread (readable : t.Readable) (stable : ∀ c ∈ t.columns.tail, c.Stable) :
    t.reread.columns.map (·.clause .mysql) = t.columns.map (·.clause .mysql) := by
  rw [reread, List.map_map]
  refine List.map_congr_left fun c member => ?_
  rw [Function.comp_apply]
  rw [readable.implicit] at member
  rcases List.mem_cons.mp member with rfl | member
  · rw [reread_idColumn]
  · exact Column.clause_reread (readable.columns c member) (stable c member)

/-- **A table that was read is printed as the text that it was read from.** -/
theorem Readable.toSql_reread (readable : t.Readable) (stable : ∀ c ∈ t.columns.tail, c.Stable) :
    t.reread.toSql .mysql = t.toSql .mysql := by
  have keys : (t.reread.keys.filter (·.kind != .primary)).map (·.clause .mysql) =
      (t.keys.filter (·.kind != .primary)).map (·.clause .mysql) := by
    have kinds : ((fun k : Key => k.kind != .primary) ∘ Key.reread) = fun k => k.kind != .primary := by
      funext k
      rw [Function.comp_apply, Key.kind_reread]
    have clauses : ((fun k : Key => k.clause .mysql) ∘ Key.reread) = fun k => k.clause .mysql :=
      funext Key.clause_reread
    rw [reread, List.filter_map, List.map_map, kinds, clauses]
  have clauses : t.reread.clauses .mysql = t.clauses .mysql := by
    rw [Table.clauses, readable.clauses_reread stable, keys, primaryClause, primaryKey_reread]
    rfl
  have notEmpty : ∀ columns : List Column, ¬ (Dialect.mysql = .generic ∧ columns = []) := by
    rintro _ ⟨⟨⟩, -⟩
  have mode : t.reread.mode = .create := readable.created
  rw [toSql, toSql, mode, readable.created]
  dsimp only
  rw [if_neg (notEmpty _), if_neg (notEmpty _), clauses]
  rfl

end Table

end SqlAccess
