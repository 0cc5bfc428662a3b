import SqlAccess.Ddl.Statement
import SqlAccess.Proofs.Schema.Declaration
import SqlAccess.Proofs.Text.Cut

/-!
# The null value in columns of the primary key

Making a column part of the primary key says that it may not be null, but that is not the last word:
whatever is said of the column afterwards counts. A column that is named for the primary key before
it is declared is not even marked. So what is printed of a column of the key is what was said last
(`key_column_not_null_iff`), and a table can have a key over a column that may be null
(`nullable_key_columns`).
-/

namespace SqlAccess

open Text

namespace Column

/-- What a setting says of whether the column may be null. A part of the primary key may not. -/
def Setting.nullability? : Setting → Option Bool
  | .notNull => some false
  | .nullable => some true
  | .primary => some false
  | _ => none

theorem Setting.nullable_apply (d : Dialect) (c : Column) (setting : Setting) :
    (setting.apply d c).nullable = setting.nullability?.getD c.nullable := by
  cases setting with
  | revert =>
    rw [apply, undone_reverted]
    rfl
  | _ => rfl

/-- The clause of the column says NOT NULL, behind the type and before anything else. -/
def SaysNotNull (d : Dialect) (c : Column) : Prop :=
  ∃ more, c.clause d = joined " "
    ([d.identifier c.name, d.typeSql c.type c.length] ++ c.signWords d ++ "NOT NULL" :: more)

/-- A column that may be null has a default, if only the null value. -/
theorem defaultWords_of_nullable {d : Dialect} {c : Column} (nullable : c.nullable = true) :
    ∃ default, c.defaultWords d = ["DEFAULT " ++ default] := by
  unfold defaultWords
  cases c.default with
  | some default => exact ⟨d.defaultSql default, rfl⟩
  | none => exact ⟨"NULL", if_pos nullable⟩

theorem saysNotNull_iff {d : Dialect} {c : Column} : c.SaysNotNull d ↔ c.nullable = false := by
  constructor
  · rintro ⟨more, printed⟩
    cases nullable : c.nullable with
    | false => rfl
    | true =>
      -- Where the one clause has NOT NULL, the other one has DEFAULT.
      obtain ⟨default, words⟩ := defaultWords_of_nullable (d := d) nullable
      have clause : c.clause d = joined " "
          ([d.identifier c.name, d.typeSql c.type c.length] ++ c.signWords d ++
            ("DEFAULT " ++ default) :: (c.countingWords d ++ c.remarkWords d)) := by
        unfold Column.clause nullWords
        rw [if_pos nullable, words]
        simp only [List.append_assoc, List.append_nil, List.cons_append, List.nil_append]
      have same := congrArg String.toList (clause.symm.trans printed)
      simp only [List.cons_append, toList_joined_cons, List.flatMap_cons, List.flatMap_append,
        List.append_assoc, List.append_cancel_left_eq, String.toList_append] at same
      exact absurd (List.cons.inj (List.cons.inj same).2).1 (by decide)
  · intro notNull
    refine ⟨c.defaultWords d ++ (c.countingWords d ++ c.remarkWords d), ?_⟩
    unfold clause nullWords
    rw [if_neg (notNull ▸ Bool.false_ne_true)]
    simp only [List.append_assoc, List.cons_append, List.nil_append]

end Column

namespace Table

/-- What a declaration says of whether the column of the given name may be null. -/
def Declaration.nullability? (column : String) : Declaration → Option Bool
  | .column name => if name = column then some false else none
  | .primary name => if name = column then some false else none
  | .setting name said => if name = column then said.nullability? else none
  | _ => none

/-- Is the last thing that was said of whether the column may be null that it may? -/
def allowsNull (ds : List Declaration) (column : String) : Bool :=
  (ds.filterMap (Declaration.nullability? column)).getLast?.getD false

theorem allowsNull_concat (ds : List Declaration) (declaration : Declaration) (column : String) :
    allowsNull (ds ++ [declaration]) column =
      (declaration.nullability? column).getD (allowsNull ds column) := by
  rw [allowsNull, List.filterMap_append, List.filterMap_cons, List.filterMap_nil]
  cases declaration.nullability? column with
  | none =>
    rw [List.append_nil]
    rfl
  | some allowed => rw [List.getLast?_concat, Option.getD_some, Option.getD_some]

/-- **One declaration** changes whether a column may be null as it says, and for no other column. -/
theorem Declared.nullable_declare {m : Mentions} {t : Table} (declared : t.Declared m)
    {allowed : String → Bool} (kept : ∀ c ∈ t.columns, c.nullable = allowed c.name) (d : Dialect)
    (declaration : Declaration) : ∀ c ∈ (t.declare d declaration).columns,
      c.nullable = (declaration.nullability? c.name).getD (allowed c.name) := by
  intro c member
  cases declaration with
  | column name =>
    rw [Declaration.nullability?]
    rcases mem_placeColumn_of_nodup declared.distinct member with rfl | ⟨member, other⟩
    · rw [if_pos (show name = (Column.fresh d t.name name).name from rfl)]
      rfl
    · rw [if_neg (show name ≠ c.name from other.symm)]
      exact kept c member
  | setting column said =>
    obtain ⟨old, inside, rfl⟩ := List.mem_map.mp member
    rw [Declaration.nullability?]
    by_cases same : old.name = column
    · rw [if_pos same, said.nullable_apply, said.name_apply, if_pos same.symm, kept old inside]
    · rw [if_neg same, if_neg (Ne.symm same)]
      exact kept old inside
  | primary column =>
    rw [Declaration.nullability?]
    by_cases known : column ∈ t.columns.map (·.name)
    · rw [Table.declare, addPrimary_of_declared known] at member
      dsimp only at member
      rw [markPrimary_eq_map declared.distinct] at member
      obtain ⟨old, inside, rfl⟩ := List.mem_map.mp member
      by_cases same : old.name = column
      · rw [if_pos same, if_pos (show column = old.asPrimary.name from same.symm)]
        rfl
      · rw [if_neg same, if_neg (Ne.symm same)]
        exact kept old inside
    · rw [Table.declare, addPrimary_of_undeclared known] at member
      have other : column ≠ c.name := fun same => known (same ▸ List.mem_map_of_mem member)
      rw [if_neg other]
      exact kept c member
  | revert =>
    rw [Table.declare, undone_reverted] at member
    exact kept c member
  | _ => exact kept c member

theorem nullable_declareAll (d : Dialect) (name : String) (ds : List Declaration) :
    ∀ c ∈ ((created d name).declareAll d ds).columns, c.nullable = allowsNull ds c.name := by
  induction ds using List.reverseRecOn with
  | nil =>
    intro c member
    rw [List.mem_singleton.mp member]
    rfl
  | append_singleton ds declaration ih =>
    intro c member
    have declared := declared_declareAll d name ds
    rw [declareAll, List.foldl_append] at member
    rw [allowsNull_concat]
    exact declared.nullable_declare ih d declaration c member

/-! ## The text of a table -/

/-- The text of a table that is created holds every clause, indented. -/
theorem clauses_infix_toSql {d : Dialect} {t : Table} (created : t.mode = .create)
    (filled : t.columns ≠ []) : ∃ sql, t.toSql d = .ok sql ∧
      ∀ clause ∈ t.clauses d, ("    " ++ clause).toList <:+: sql.toList := by
  rw [toSql, created]
  dsimp only
  rw [if_neg fun empty => filled empty.2]
  refine ⟨_, rfl, fun clause member => ?_⟩
  have inside : ("    " ++ clause).toList <:+:
      (joined ",\n" ((t.clauses d).map ("    " ++ ·))).toList :=
    infix_joined (List.mem_map_of_mem member)
  simp only [String.toList_append, List.append_assoc] at inside ⊢
  exact inside.trans ((List.prefix_append _ _).isInfix.trans
    ((List.suffix_append _ _).trans ((List.suffix_append _ _).trans
      (List.suffix_append _ _))).isInfix)

end Table

open Table

/-- **A column of the primary key is printed as NOT NULL unless the last that was said is that it
may be null.** The text of a table that is created has the clause of every column and that of the
primary key. What is said of a column before and after it is named for the key counts alike:
declaring it and naming it for the key say that it may not be null, and the last word holds. -/
theorem key_column_not_null_iff (d : Dialect) (name : String) (ds : List Declaration) :
    let t := (created d name).declareAll d ds
    t.mode = .create → ∀ c ∈ t.columns, c.name ∈ t.primaryKey →
      (c.SaysNotNull d ↔ allowsNull ds c.name = false) ∧
        ∃ sql, t.toSql d = .ok sql ∧
          ∀ clause ∈ [c.clause d, "PRIMARY KEY (" ++ d.identifiers t.primaryKey ++ ")"],
            ("    " ++ clause).toList <:+: sql.toList := by
  intro t created c member keyed
  have wording : c.SaysNotNull d ↔ allowsNull ds c.name = false := by
    rw [Column.saysNotNull_iff, nullable_declareAll d name ds c member]
  obtain ⟨sql, printed, lines⟩ := clauses_infix_toSql (d := d) created (List.ne_nil_of_mem member)
  have column : c.clause d ∈ t.clauses d :=
    List.mem_append_left _ (List.mem_append_left _ (List.mem_map_of_mem member))
  have key : "PRIMARY KEY (" ++ d.identifiers t.primaryKey ++ ")" ∈ t.clauses d := by
    refine List.mem_append_left _ (List.mem_append_right _ ?_)
    rw [primaryClause, if_neg fun empty => List.ne_nil_of_mem keyed (List.isEmpty_iff.mp empty)]
    exact List.mem_singleton_self _
  exact ⟨wording, sql, printed,
    List.forall_mem_cons.mpr ⟨lines _ column, List.forall_mem_singleton.mpr (lines _ key)⟩⟩

/-- A column that may be null is made a part of the primary key, and is printed as NOT NULL. -/
theorem key_column_not_null_iff_tenant :
    let ds : List Declaration := [.column "tenant", .setting "tenant" .nullable, .primary "tenant"]
    let t := (created .mysql "visits").declareAll .mysql ds
    let c := (Column.fresh .mysql "visits" "tenant").asPrimary
    t.mode = .create ∧ c ∈ t.columns ∧ c.name ∈ t.primaryKey ∧ c.SaysNotNull .mysql := by
  intro ds t c
  have created : t.mode = .create := rfl
  have member : c ∈ t.columns := List.mem_cons_of_mem _ List.mem_cons_self
  have keyed : c.name ∈ t.primaryKey := by decide
  exact ⟨created, member, keyed,
    (key_column_not_null_iff .mysql "visits" ds created c member keyed).1.mpr (by decide)⟩

/-- The table is created with a column of its primary key that is not printed as NOT NULL. -/
def Table.NullableKey (d : Dialect) (t : Table) : Prop :=
  t.mode = .create ∧ ∃ c ∈ t.columns, c.name ∈ t.primaryKey ∧ ¬ c.SaysNotNull d

/-- There is such a column where one is marked and then said to be null, and where one is named for
the key, then declared, and then said to be null. -/
theorem nullable_key_columns :
    ((created .mysql "t").declareAll .mysql
        [.column "a", .setting "a" .primary, .setting "a" .nullable]).NullableKey .mysql ∧
      ((created .mysql "t").declareAll .mysql
        [.primary "a", .column "a", .setting "a" .nullable]).NullableKey .mysql := by
  have broken : ∀ c : Column, c.nullable = true → ¬ c.SaysNotNull .mysql :=
    fun c nullable notNull =>
      Bool.false_ne_true ((Column.saysNotNull_iff.mp notNull).symm.trans nullable)
  constructor
  · exact ⟨rfl, { (Column.fresh .mysql "t" "a").asPrimary with nullable := true },
      List.mem_cons_of_mem _ List.mem_cons_self, by decide, broken _ rfl⟩
  · exact ⟨rfl, { Column.fresh .mysql "t" "a" with nullable := true },
      List.mem_cons_of_mem _ List.mem_cons_self, by decide, broken _ rfl⟩

end SqlAccess
