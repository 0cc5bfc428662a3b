import SqlAccess.Proofs.Ddl.TableScan

/-!
# What a table has of the lines it was read from

Reading a table takes two lists out of its lines: the lines of the columns, and the names in the
lines of the primary key. `Table.Recorded` says what a table has of them. Its columns are the first
one and then those that were declared, each once, at the place where it was declared first. A column
is what its last line says, and is marked if a primary key names it. Names in a primary key that are
not declared make one entry among the keys. Every line keeps this (`Progress.Recorded.next`), so
that every table that is read has it (`recorded_of_readTable`).
-/

namespace SqlAccess

open Ddl SqlAccess.Text

namespace Ddl

/-- The last of the lines with the given name. -/
def lastLine? (name : String) (lines : List ColumnLine) : Option ColumnLine :=
  (lines.filter (·.name == name)).getLast?

theorem lastLine?_concat (name : String) (lines : List ColumnLine) (line : ColumnLine) :
    lastLine? name (lines ++ [line]) =
      if line.name = name then some line else lastLine? name lines := by
  rw [lastLine?, List.filter_append, List.filter_cons]
  split
  next same => rw [if_pos (eq_of_beq same), List.filter_nil, List.getLast?_concat]
  next other =>
    rw [if_neg fun same => other (beq_iff_eq.mpr same), List.filter_nil, List.append_nil]
    rfl

end Ddl

namespace Table

/-! ## What a table has of its lines -/

/-- The names that no column has, each once. -/
def undeclared (t : Table) (names : List String) : List String :=
  withNew [] (names.filter (· ∉ t.columns.map (·.name)))

/-- What a table has of the lines of columns and of the names in the lines of the primary key. -/
structure Recorded (lines : List ColumnLine) (keyed : List String) (t : Table) : Prop
    extends Started t where
  names : t.columns.map (·.name) = withNew [implicitId] (lines.map (·.name))
  /-- Every line but that of the first column is a column. -/
  read : ∀ line ∈ lines, line.name ≠ implicitId → (line.column? .mysql t.name).isSome
  /-- A column is what its last line says. -/
  told : ∀ c ∈ t.columns, c.name ≠ implicitId → ∃ line read,
    lastLine? c.name lines = some line ∧ line.column? .mysql t.name = some read ∧
      c = if c.name ∈ keyed then read.asPrimary else read
  entry : t.keys.filter (·.kind == .primary) = primaryEntry t.name (t.undeclared keyed)

section

variable {t : Table} {lines : List ColumnLine} {keyed : List String}

theorem Started.eq_idColumn (started : t.Started) {c : Column} (member : c ∈ t.columns)
    (first : c.name = implicitId) : c = idColumn .mysql t.name := by
  have head : idColumn .mysql t.name ∈ t.columns := started.implicit ▸ List.mem_cons_self
  exact List.inj_on_of_nodup_map started.distinct member head first

/-- The marked columns are the first one and those that a primary key names. -/
theorem Recorded.primary_iff (recorded : t.Recorded lines keyed) {c : Column}
    (member : c ∈ t.columns) : c.primary = true ↔ c.name ∈ implicitId :: keyed := by
  rw [List.mem_cons]
  by_cases first : c.name = implicitId
  · rw [recorded.toStarted.eq_idColumn member first]
    exact iff_of_true rfl (.inl rfl)
  · obtain ⟨line, read, -, column, same⟩ := recorded.told c member first
    have unmarked := (ColumnLine.column?_own column).2.2
    rw [or_iff_right first]
    by_cases inside : c.name ∈ keyed
    · rw [if_pos inside] at same
      rw [same]
      exact iff_of_true rfl (by rwa [same] at inside)
    · rw [if_neg inside] at same
      refine iff_of_false ?_ inside
      rw [same, unmarked]
      exact Bool.false_ne_true

/-- The primary key is in the order of the columns, and names that are not declared come last. -/
theorem Recorded.primaryKey_eq (recorded : t.Recorded lines keyed) : t.primaryKey =
    (t.columns.map (·.name)).filter (· ∈ implicitId :: keyed) ++ t.undeclared keyed := by
  have flagged : (t.columns.filter (·.primary)).map (·.name) =
      (t.columns.map (·.name)).filter (· ∈ implicitId :: keyed) := by
    rw [List.filter_map]
    refine congrArg _ (List.filter_congr fun c member => ?_)
    rw [Bool.eq_iff_iff, recorded.primary_iff member]
    simp only [Function.comp_apply, decide_eq_true_eq]
  have distinct : ((t.columns.map (·.name)).filter (· ∈ implicitId :: keyed) ++
      t.undeclared keyed).Nodup := by
    refine List.nodup_append.mpr ⟨recorded.distinct.filter _, nodup_withNew List.nodup_nil _, ?_⟩
    rintro name marked other member rfl
    have absent := (mem_withNew.mp member).resolve_left List.not_mem_nil
    exact of_decide_eq_true (List.mem_filter.mp absent).2 (List.mem_filter.mp marked).1
  rw [primaryKey, flagged, recorded.entry, flatMap_columns_primaryEntry,
    withNew_of_nodup distinct]

/-! ## Each line keeps it -/

theorem recorded_created (name : String) : (Table.created .mysql name).Recorded [] [] where
  toStarted := started_created name
  names := rfl
  read := nofun
  told := by
    intro c member other
    rw [List.mem_singleton.mp member] at other
    exact absurd rfl other
  entry := rfl

theorem Recorded.putColumn (recorded : t.Recorded lines []) {line : ColumnLine} {c : Column}
    (read : line.column? .mysql t.name = some c) (other : line.name ≠ implicitId) :
    (t.putColumn c).Recorded (lines ++ [line]) [] := by
  obtain ⟨own, name, -⟩ := ColumnLine.column?_own read
  have other' : c.name ≠ implicitId := by rwa [name]
  refine
    { recorded.toStarted.putColumn own other' with
      names := ?_, read := ?_, told := ?_, entry := recorded.entry }
  · rw [Table.putColumn]
    dsimp only
    rw [map_name_placeColumn, recorded.names, List.map_append, List.map_singleton,
      withNew_concat, name]
  · intro line' member named
    rcases List.mem_append.mp member with member | member
    · exact recorded.read line' member named
    · rw [List.mem_singleton.mp member]
      exact Option.isSome_of_eq_some read
  · intro c' member named
    rcases mem_placeColumn_of_nodup recorded.distinct member with rfl | ⟨member, apart⟩
    · exact ⟨line, c', by rw [lastLine?_concat, if_pos name.symm], read, rfl⟩
    · obtain ⟨line', read', last, told⟩ := recorded.told c' member named
      refine ⟨line', read', ?_, told⟩
      rw [lastLine?_concat, if_neg fun same => apart ((name.trans same).symm), last]

theorem Recorded.declared_first (recorded : t.Recorded lines keyed) :
    implicitId ∈ t.columns.map (·.name) := by
  rw [recorded.names]
  exact mem_withNew.mpr (.inl (List.mem_singleton_self _))

/-- A line of the first column changes nothing. -/
theorem Recorded.line_first (recorded : t.Recorded lines keyed) {line : ColumnLine}
    (first : line.name = implicitId) : t.Recorded (lines ++ [line]) keyed where
  toStarted := recorded.toStarted
  names := by
    rw [List.map_append, List.map_singleton, first, withNew_concat, ← recorded.names,
      if_pos recorded.declared_first]
  read := by
    intro line' member other
    rcases List.mem_append.mp member with member | member
    · exact recorded.read line' member other
    · rw [List.mem_singleton.mp member] at other
      exact absurd first other
  told := by
    intro c member other
    rw [lastLine?_concat, if_neg fun same => other (same.symm.trans first)]
    exact recorded.told c member other
  entry := recorded.entry

/-- The first column is a part of the primary key, whether a line names it or not. -/
theorem Recorded.keyed_first (recorded : t.Recorded lines keyed) :
    t.Recorded lines (keyed ++ [implicitId]) where
  toStarted := recorded.toStarted
  names := recorded.names
  read := recorded.read
  told := by
    intro c member other
    simp only [List.mem_append, List.mem_singleton, or_iff_left other]
    exact recorded.told c member other
  entry := by
    have declared := recorded.declared_first
    rw [undeclared, List.filter_append, List.filter_cons_of_neg (by simpa using declared),
      List.filter_nil, List.append_nil]
    exact recorded.entry

/-- A declared name of the primary key is recorded with the column, and not in the entry. -/
theorem Recorded.markPrimary (recorded : t.Recorded lines keyed) {column : String}
    (known : column ∈ t.columns.map (·.name)) :
    ({ t with columns := Table.markPrimary column t.columns } : Table).Recorded lines
      (keyed ++ [column]) := by
  have kept := map_name_markPrimary column t.columns
  refine
    { recorded.toStarted.markPrimary column with
      names := kept.trans recorded.names, read := recorded.read, told := ?_, entry := ?_ }
  · dsimp only
    rw [markPrimary_eq_map recorded.distinct]
    intro c member
    obtain ⟨old, inside, rfl⟩ := List.mem_map.mp member
    have name : (if old.name = column then old.asPrimary else old).name = old.name := by
      split <;> rfl
    rw [name]
    intro other
    obtain ⟨line, read, last, told, same⟩ := recorded.told old inside other
    refine ⟨line, read, last, told, ?_⟩
    simp only [List.mem_append, List.mem_singleton]
    by_cases marked : old.name = column
    · rw [if_pos marked, if_pos (.inr marked), same]
      split <;> rfl
    · rw [if_neg marked]
      simpa only [or_iff_left marked] using same
  · have same : ({ t with columns := Table.markPrimary column t.columns } : Table).undeclared
        (keyed ++ [column]) = t.undeclared keyed := by
      rw [undeclared, undeclared, kept, List.filter_append,
        List.filter_cons_of_neg (by simp [known]), List.filter_nil, List.append_nil]
    rw [same]
    exact recorded.entry

theorem Recorded.addPrimary (recorded : t.Recorded lines keyed) (column : String) :
    (t.addPrimary column).Recorded lines (keyed ++ [column]) := by
  by_cases known : column ∈ t.columns.map (·.name)
  · rw [addPrimary_of_declared known]
    exact recorded.markPrimary known
  · have entry := filter_keys_addPrimary known recorded.entry
    have more : t.undeclared (keyed ++ [column]) =
        if column ∈ t.undeclared keyed then t.undeclared keyed
        else t.undeclared keyed ++ [column] := by
      rw [undeclared, List.filter_append, List.filter_cons_of_pos (by simp [known]),
        List.filter_nil, withNew_concat]
      rfl
    rw [← more] at entry
    rw [addPrimary_of_undeclared known] at entry ⊢
    refine
      { created := recorded.created, implicit := recorded.implicit, distinct := recorded.distinct
        own := recorded.own, names := recorded.names, read := recorded.read
        told := fun c member => ?_, entry }
    have other : c.name ≠ column := fun same => known (same ▸ List.mem_map_of_mem member)
    simp only [List.mem_append, List.mem_singleton, or_iff_left other]
    exact recorded.told c member

/-- The names of a primary key line, the first column left out. -/
theorem Recorded.foldl_addPrimary (recorded : t.Recorded lines keyed) (names : List String) :
    ((names.filter (· != implicitId)).foldl Table.addPrimary t).Recorded lines
      (keyed ++ names) := by
  induction names generalizing t keyed with
  | nil => rwa [List.append_nil]
  | cons name names ih =>
    have parts : keyed ++ name :: names = keyed ++ [name] ++ names := by simp
    rw [parts]
    by_cases first : name = implicitId
    · subst first
      rw [List.filter_cons_of_neg (by simp)]
      exact ih recorded.keyed_first
    · rw [List.filter_cons_of_pos (by simp [first]), List.foldl_cons]
      exact ih (recorded.addPrimary name)

theorem Recorded.addKey (recorded : t.Recorded lines keyed) {k : Key} (other : k.kind ≠ .primary) :
    (t.addKey k).Recorded lines keyed where
  created := recorded.created
  implicit := recorded.implicit
  distinct := recorded.distinct
  own := recorded.own
  names := recorded.names
  read := recorded.read
  told := recorded.told
  entry := by
    have none : ¬ (k.kind == .primary) = true := fun same => other (eq_of_beq same)
    rw [Table.addKey]
    dsimp only
    rw [List.filter_append, List.filter_cons, if_neg none, List.filter_nil, List.append_nil]
    exact recorded.entry

end

end Table

namespace Ddl

/-! ## Lines -/

/-- The line of another key is not read as a primary key. -/
theorem kind_of_namedKeyLine? {table : String} {line : List Char} {k : Key}
    (h : namedKeyLine? table line = some k) : k.kind ≠ .primary := by
  have kind : ∀ kind columns, (Key.ofColumns kind table columns).kind = kind := fun kind columns =>
    (Key.ofColumns_ordered kind table columns).2.2.1
  unfold namedKeyLine? at h
  cases unique : afterStart "UNIQUE ".toList line with
  | none =>
    rw [unique] at h
    simp only [Option.bind_eq_bind, Option.bind_eq_some_iff] at h
    obtain ⟨_, _, _, _, _, _, _, _, same⟩ := h
    obtain rfl := Option.some.inj same
    dsimp only
    rw [kind]
    decide
  | some rest =>
    rw [unique] at h
    simp only [Option.bind_eq_bind, Option.bind_eq_some_iff] at h
    obtain ⟨_, _, _, _, _, _, _, _, same⟩ := h
    obtain rfl := Option.some.inj same
    dsimp only
    rw [kind]
    decide

/-- Where the reading has come to, a table has what the lines before it say. -/
def Progress.Recorded (lines : List ColumnLine) (keyed : List String) : Progress → Prop
  | .start => lines = [] ∧ keyed = []
  | .columns t => t.Recorded lines keyed ∧ keyed = []
  | .keys t | .closed t => t.Recorded lines keyed

section

variable {read : List ColumnLine} {keyed : List String} {body : List Char}

theorem Progress.Recorded.finish {t : Table} (recorded : t.Recorded read keyed)
    {progress : Progress} (h : Progress.finish t body = some progress) :
    columnLine? body = none ∧ progress.Recorded read (keyed ++ (primaryLine? body).getD []) := by
  rcases finish_eq_some_iff.mp h with ⟨t', key, rfl⟩ | ⟨closing, rfl⟩
  · refine ⟨columnLine?_eq_none (head?_of_isKeyLine (isKeyLine_of_readKey key) (by decide)), ?_⟩
    rcases readKey_eq_some_iff.mp key with ⟨names, found, rfl⟩ | ⟨notPrimary, k, found, rfl⟩
    · rw [found]
      exact recorded.foldl_addPrimary names
    · rw [notPrimary, Option.getD_none, List.append_nil]
      exact recorded.addKey (kind_of_namedKeyLine? found)
  · rw [primaryLine?_eq_none (by rw [closing]; decide), Option.getD_none, List.append_nil]
    refine ⟨columnLine?_eq_none (by rw [closing]; decide), ?_⟩
    exact
      { created := recorded.created, implicit := recorded.implicit, distinct := recorded.distinct
        own := recorded.own, names := recorded.names, read := recorded.read
        told := recorded.told, entry := recorded.entry }

/-- **A line adds to what the table has of the lines.** -/
theorem Progress.Recorded.next {progress progress' : Progress}
    (recorded : progress.Recorded read keyed) (h : progress.next .mysql body = some progress') :
    progress'.Recorded (read ++ (columnLine? body).toList)
      (keyed ++ (primaryLine? body).getD []) := by
  have finish : ∀ {t : Table}, t.Recorded read keyed →
      Progress.finish t body = some progress' →
        progress'.Recorded (read ++ (columnLine? body).toList)
          (keyed ++ (primaryLine? body).getD []) := by
    intro t recorded h
    obtain ⟨unnamed, kept⟩ := Progress.Recorded.finish recorded h
    rwa [unnamed, Option.toList_none, List.append_nil]
  cases progress with
  | start =>
    obtain ⟨rfl, rfl⟩ := recorded
    obtain ⟨name, found, rfl⟩ := Option.map_eq_some_iff.mp h
    obtain ⟨rest, start, -⟩ := Option.bind_eq_some_iff.mp found
    have first : body.head? = some 'C' := head?_of_afterStart start
    rw [columnLine?_eq_none (by rw [first]; decide), primaryLine?_eq_none (by rw [first]; decide)]
    exact ⟨Table.recorded_created name, rfl⟩
  | columns t =>
    obtain ⟨recorded, rfl⟩ := recorded
    rcases next_columns_eq_some_iff.mp h with ⟨t', put, rfl⟩ | finished
    · obtain ⟨line, found, put⟩ := readColumn_eq_some_iff.mp put
      have backtick := head?_of_columnLine? found
      rw [primaryLine?_eq_none (by rw [backtick]; decide), found, Option.toList_some,
        Option.getD_none, List.append_nil]
      refine ⟨?_, rfl⟩
      rcases put with ⟨first, rfl⟩ | ⟨other, c, column, rfl⟩
      · exact recorded.line_first first
      · exact recorded.putColumn column other
    · exact finish recorded finished
  | keys t => exact finish recorded h
  | closed t => cases h

theorem Progress.Recorded.through {progress progress' : Progress} {bodies : List (List Char)}
    (recorded : progress.Recorded read keyed)
    (h : progress.through .mysql bodies = some progress') :
    progress'.Recorded (read ++ bodies.filterMap columnLine?)
      (keyed ++ (bodies.filterMap primaryLine?).flatten) := by
  induction bodies generalizing progress read keyed with
  | nil =>
    obtain rfl := Option.some.inj h
    simpa using recorded
  | cons body bodies ih =>
    rw [Progress.through_cons] at h
    obtain ⟨between, step, rest⟩ := Option.bind_eq_some_iff.mp h
    have whole := ih (recorded.next step) rest
    have columns : (columnLine? body).toList ++ bodies.filterMap columnLine? =
        (body :: bodies).filterMap columnLine? := by
      rw [List.filterMap_cons]
      cases columnLine? body <;> rfl
    have keys : (primaryLine? body).getD [] ++ (bodies.filterMap primaryLine?).flatten =
        ((body :: bodies).filterMap primaryLine?).flatten := by
      rw [List.filterMap_cons]
      cases primaryLine? body <;> rfl
    rwa [List.append_assoc, columns, List.append_assoc, keys] at whole

end

/-- The column lines of a text. -/
def columnLines (ddl : String) : List ColumnLine :=
  (bodies ddl.toList).filterMap columnLine?

/-- The lists of names in the primary key lines of a text. -/
def primaryLines (ddl : String) : List (List String) :=
  (bodies ddl.toList).filterMap primaryLine?

/-- **Every table that is read has what its lines say.** -/
theorem recorded_of_readTable {ddl : String} {t : Table} (h : Dialect.mysql.readTable ddl = .ok t) :
    t.Recorded (columnLines ddl) (primaryLines ddl).flatten := by
  have start : Progress.start.Recorded [] [] := ⟨rfl, rfl⟩
  exact start.through (readTable_eq_ok.mp h)

end Ddl

end SqlAccess
