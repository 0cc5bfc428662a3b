import SqlAccess.Proofs.Ddl.Recorded

/-!
# The order of a primary key that was read

The primary key of a table that was read is in the order of its columns, and the first column is
always a part of it, whatever order the line of the primary key names them in. Columns that are not
declared come last, in the order of the line (`primaryKey_of_readTable`). So a line is read in its
own order exactly if that is the order of the columns (`primaryKey_of_one_line`). Printing the table
again prints the names in the same order (`Table.printed_primaryKey`).
-/

namespace SqlAccess

open Ddl SqlAccess.Text

namespace Ddl

/-! ## The line of the primary key in a printed table -/

/-- A clause is on a line of its own. -/
theorem exists_indented {clauses : List (List Char)} {line : List Char} (member : line ∈ clauses)
    (solid : Solid line) : ∃ front printed behind, indented clauses = front ++ printed :: behind ∧
      '\n' ∉ printed ∧ body? printed = some line := by
  have spaces : (∀ c ∈ "    ".toList, isBlank c = true) ∧ '\n' ∉ "    ".toList := by decide
  induction clauses with
  | nil => cases member
  | cons first rest ih =>
    cases rest with
    | nil =>
      obtain rfl := List.mem_singleton.mp member
      have body := body?_of_solid solid spaces.1 fun _ inside => absurd inside List.not_mem_nil
      rw [List.append_nil] at body
      refine ⟨[], _, [], rfl, ?_, body⟩
      simpa [spaces.2] using solid.oneLine
    | cons next rest =>
      rcases List.mem_cons.mp member with rfl | member
      · have body : body? ("    ".toList ++ (line ++ [','])) = some line :=
          body?_of_solid solid spaces.1 fun _ => List.mem_singleton.mp
        refine ⟨[], _, _, rfl, ?_, body⟩
        rw [List.mem_append, List.mem_append, not_or, not_or]
        exact ⟨spaces.2, solid.oneLine, by decide⟩
      · obtain ⟨front, printed, behind, split, plain, body⟩ := ih member
        exact ⟨_ :: front, printed, behind, congrArg (_ :: ·) split, plain, body⟩

/-- A clause that is one line is a line of the text. -/
theorem mem_bodies_printed {t : Table} {line : List Char}
    (member : line ∈ (t.clauses .mysql).map String.toList) (solid : Solid line) :
    line ∈ bodies t.printed := by
  obtain ⟨front, printed, behind, split, plain, body⟩ := exists_indented member solid
  refine List.mem_filterMap.mpr ⟨printed, ?_, body⟩
  -- the closing line follows, so there is a line feed on both sides
  have closed : (behind ++ [t.closing]).flatMap ('\n' :: ·) =
      '\n' :: ((behind ++ [t.closing]).flatMap ('\n' :: ·)).tail := by
    cases behind <;> rfl
  rw [Table.printed, split, List.append_assoc, List.flatMap_append, List.cons_append,
    List.flatMap_cons, closed, ← List.append_assoc, List.cons_append, List.splitOn_append_cons_self,
    List.splitOn_append_cons_self_of_not_mem plain]
  exact List.mem_append_right _ List.mem_cons_self

end Ddl

/-- **The primary key is printed in its order**, on a line that reads back as it. -/
theorem Table.printed_primaryKey {t : Table} (created : t.mode = .create) (filled : t.columns ≠ [])
    (keyed : t.primaryKey ≠ []) (plain : ∀ name ∈ t.primaryKey, Columnar name) :
    ∃ again, t.toSql .mysql = .ok again ∧ t.primaryKey ∈ primaryLines again := by
  refine ⟨_, toSql_eq created filled, List.mem_filterMap.mpr ⟨_, ?_, primaryLine?_eq plain⟩⟩
  rw [String.toList_ofList]
  refine mem_bodies_printed ?_ (Key.solid_primary plain)
  rw [clauses, List.map_append, List.map_append, toList_primaryClause keyed]
  exact List.mem_append_left _ (List.mem_append_right _ List.mem_cons_self)

/-! ## The order of the primary key -/

/-- **A primary key is read in the order of the columns.** The columns of a table that is read are
the first one and those of its column lines, in the order in which they were declared first. Of
these the primary key has the first one and those that a primary key line names, in this order;
behind them come the names of the primary key lines that no column has. -/
theorem primaryKey_of_readTable {ddl : String} {t : Table}
    (read : Dialect.mysql.readTable ddl = .ok t) :
    t.columns.map (·.name) = Table.withNew [Table.implicitId] ((columnLines ddl).map (·.name)) ∧
      t.primaryKey =
        (t.columns.map (·.name)).filter (· ∈ Table.implicitId :: (primaryLines ddl).flatten) ++
          Table.withNew []
            ((primaryLines ddl).flatten.filter (· ∉ t.columns.map (·.name))) :=
  ⟨(recorded_of_readTable read).names, (recorded_of_readTable read).primaryKey_eq⟩

/-- The columns of a table that is read are the first one, and behind it the others of the column
lines, once each, in the order in which they were declared first. -/
theorem names_of_readTable {ddl : String} {t : Table}
    (read : Dialect.mysql.readTable ddl = .ok t) :
    t.columns.map (·.name) = Table.implicitId ::
      ((columnLines ddl).map (·.name)).eraseDups.filter (· ≠ Table.implicitId) := by
  rw [(primaryKey_of_readTable read).1, Table.withNew_eq_append_eraseDups]
  simp only [List.mem_singleton, List.singleton_append]

/-- **One primary key line is read in the order of the columns.** Where a text has one primary key
line, over distinct plain names of declared columns and the first column among them, the primary key
is these names in the order of the columns: the first column, and then the others as the column
lines declare them. It is the list of the line exactly if the line keeps to that order. Printing the
table prints the same list. -/
theorem primaryKey_of_one_line {ddl : String} {t : Table} {names : List String}
    (read : Dialect.mysql.readTable ddl = .ok t) (one : primaryLines ddl = [names])
    (distinct : names.Nodup) (plain : ∀ name ∈ names, Columnar name)
    (declared : ∀ name ∈ names, name ∈ t.columns.map (·.name)) (first : Table.implicitId ∈ names) :
    let others := ((columnLines ddl).map (·.name)).eraseDups.filter (· ≠ Table.implicitId)
    t.columns.map (·.name) = Table.implicitId :: others ∧
      t.primaryKey = Table.implicitId :: others.filter (· ∈ names) ∧
      t.primaryKey = (t.columns.map (·.name)).filter (· ∈ names) ∧ t.primaryKey.Perm names ∧
      (t.primaryKey = names ↔ names.Sublist (t.columns.map (·.name))) ∧
      ∃ again, t.toSql .mysql = .ok again ∧ t.primaryKey ∈ primaryLines again := by
  intro others
  have recorded := recorded_of_readTable read
  have columns := names_of_readTable read
  have key : t.primaryKey = (t.columns.map (·.name)).filter (· ∈ names) := by
    have none : names.filter (· ∉ t.columns.map (·.name)) = [] :=
      List.filter_eq_nil_iff.mpr fun name member => by simpa using declared name member
    have same : ∀ name ∈ t.columns.map (·.name),
        decide (name ∈ Table.implicitId :: names) = decide (name ∈ names) := by
      intro name _
      rw [decide_eq_decide, List.mem_cons, or_iff_right_of_imp fun same => same ▸ first]
    rw [(primaryKey_of_readTable read).2, one, List.flatten_singleton, none, Table.withNew,
      List.append_nil, List.filter_congr same]
  have perm : t.primaryKey.Perm names := by
    rw [key, List.perm_ext_iff_of_nodup (recorded.distinct.filter _) distinct]
    intro name
    rw [List.mem_filter, decide_eq_true_eq, and_iff_right_of_imp (declared name)]
  have keyed : t.primaryKey ≠ [] := List.ne_nil_of_mem (perm.mem_iff.mpr first)
  have leading : t.primaryKey = Table.implicitId :: others.filter (· ∈ names) := by
    rw [key, columns]
    exact List.filter_cons_of_pos (decide_eq_true first)
  refine ⟨columns, leading, key, perm, ⟨fun same => ?_, fun ordered => ?_⟩, ?_⟩
  · rw [← same, key]
    exact List.filter_sublist
  · have kept : names.filter (· ∈ names) = names :=
      List.filter_eq_self.mpr fun name member => decide_eq_true member
    have inside := ordered.filter (· ∈ names)
    rw [kept, ← key] at inside
    exact (inside.eq_of_length perm.length_eq.symm).symm
  · have filled : t.columns ≠ [] := by
      rw [recorded.toStarted.implicit]
      exact List.cons_ne_nil _ _
    exact t.printed_primaryKey recorded.created filled keyed fun name member =>
      plain name (perm.mem_iff.mp member)

/-- A table of two columns, with the given list in the line of its primary key. -/
def twoKeyed (list : String) : String :=
  "CREATE TABLE \x60t\x60 (\n  \x60id\x60 int NOT NULL,\n  \x60tenant\x60 int NOT NULL,\n" ++
    "  PRIMARY KEY (" ++ list ++ ")\n)"

/-- The names of the columns and of the primary key, if the text is read as a table. -/
def keyOrder? (ddl : String) : Option (List String × List String) :=
  (Dialect.mysql.readTable ddl).toOption.map fun t => (t.columns.map (·.name), t.primaryKey)

theorem keyOrder?_eq_some {ddl : String} {order : List String × List String}
    (h : keyOrder? ddl = some order) : ∃ t, Dialect.mysql.readTable ddl = .ok t ∧
      (t.columns.map (·.name), t.primaryKey) = order := by
  unfold keyOrder? at h
  cases read : Dialect.mysql.readTable ddl with
  | error e =>
    rw [read] at h
    cases h
  | ok t =>
    rw [read] at h
    exact ⟨t, rfl, Option.some.inj h⟩

theorem primaryKey_of_ordered_line : ∃ t, Dialect.mysql.readTable
      (twoKeyed "\x60id\x60,\x60tenant\x60") = .ok t ∧
    primaryLines (twoKeyed "\x60id\x60,\x60tenant\x60") = [["id", "tenant"]] ∧
      t.primaryKey = ["id", "tenant"] ∧
      ∃ again, t.toSql .mysql = .ok again ∧ t.primaryKey ∈ primaryLines again := by
  have order : keyOrder? (twoKeyed "\x60id\x60,\x60tenant\x60") =
      some (["id", "tenant"], ["id", "tenant"]) := by decide +kernel
  have one : primaryLines (twoKeyed "\x60id\x60,\x60tenant\x60") = [["id", "tenant"]] := by
    decide +kernel
  obtain ⟨t, read, columns⟩ := keyOrder?_eq_some order
  have names : t.columns.map (·.name) = ["id", "tenant"] := congrArg Prod.fst columns
  have plain : ∀ name ∈ ["id", "tenant"], Columnar name := by decide
  obtain ⟨-, -, -, -, ordered, again⟩ := primaryKey_of_one_line read one (by decide) plain
    (fun name member => names ▸ member) List.mem_cons_self
  exact ⟨t, read, one, ordered.mpr (names ▸ List.Sublist.refl _), again⟩

/-- **A primary key does not keep the order of its line**: the first column comes first. -/
theorem tenant_first_read_otherwise :
    primaryLines (twoKeyed "\x60tenant\x60,\x60id\x60") = [["tenant", "id"]] ∧
      keyOrder? (twoKeyed "\x60tenant\x60,\x60id\x60") =
        some (["id", "tenant"], ["id", "tenant"]) := by
  decide +kernel

end SqlAccess
