import SqlAccess.Proofs.Mention
import SqlAccess.Proofs.Schema.Table

/-!
# Tables from any declarations

A table is declared step by step: columns are declared, and more is said of them; columns are named
for the primary key; keys are added, and more columns are named in them; options are set. The steps
come in any order, and a column may be named for a key before it is declared, or be declared again.

`Mentions` notes what was mentioned, in order and with repetitions. The table keeps of this each
name once, at the place of its first mention (`Declared`), and every declaration keeps it so
(`Declared.declare`). What a table is after any declarations follows
(`declarations_keep_first_mentions`): which columns it has and in which order, what its keys are
over, that the primary key has no more than one entry among them, and that declaring a column again
changes that column and nothing else.
-/

namespace SqlAccess

/-- What is left of a definition that is asked to be undone: itself, where it cannot be. -/
def undone {α : Type} (a : α) : Except Error α → α
  | .ok reverted => reverted
  | .error _ => a

/-- What is undone is dropped, whether it was to be created or to be dropped already. -/
theorem undone_mode {α : Type} (mode : Mode) (description : String) (withMode : Mode → α) :
    undone (withMode mode) (do return withMode (← mode.reverted description)) = withMode .drop := by
  cases mode <;> rfl

namespace Column

/-- Something that is said of a column. -/
inductive Setting where
  | type (type : ColumnType)
  | length (length : Length)
  | notNull
  | nullable
  | default (value : DefaultValue)
  | autoIncrement
  | unsigned
  | comment (text : String)
  | collation (name : String)
  | after (column : String)
  | primary
  | drop
  | revert

/-- The column after something was said of it. -/
def Setting.apply (d : Dialect) (c : Column) : Setting → Column
  | .type native => c.ofType d native
  | .length size => c.ofLength size
  | .notNull => { c with nullable := false }
  | .nullable => { c with nullable := true }
  | .default value => { c with default := some value }
  | .autoIncrement => { c with autoIncrement := true }
  | .unsigned => { c with unsigned := true }
  | .comment text => c.commented text
  | .collation name => { c with collation := some name }
  | .after column => { c with after := some column }
  | .primary => c.asPrimary
  | .drop => { c with mode := .drop }
  | .revert => undone c c.reverted

theorem undone_reverted (c : Column) : undone c c.reverted = { c with mode := .drop } :=
  undone_mode c.mode c.description fun mode => { c with mode }

theorem Setting.name_apply (d : Dialect) (c : Column) (setting : Setting) :
    (setting.apply d c).name = c.name := by
  cases setting with
  | revert => rw [apply, undone_reverted]
  | _ => rfl

end Column

namespace Key

/-- Something that is said of a key. -/
inductive Setting where
  | column (name : String)
  | name (name : String)
  | drop
  | revert

/-- The key after something was said of it. -/
def Setting.apply (k : Key) : Setting → Key
  | .column more => k.addColumn more
  | .name given => { k with explicitName := some given }
  | .drop => { k with mode := .drop }
  | .revert => undone k k.reverted

theorem undone_reverted (k : Key) : undone k k.reverted = { k with mode := .drop } :=
  undone_mode k.mode k.description fun mode => { k with mode }

end Key

namespace Table

/-- A step of declaring a table. -/
inductive Declaration where
  /-- Declares a column, or starts it over. -/
  | column (name : String)
  /-- Says more of a column that is declared. -/
  | setting (column : String) (setting : Column.Setting)
  | primary (column : String)
  | unique (columns : List String)
  | index (columns : List String)
  /-- Says more of the key at a place. -/
  | key (place : Nat) (setting : Key.Setting)
  | engine (name : String)
  | rowFormat (name : String)
  | charset (name : String)
  | collation (name : String)
  | comment (text : String)
  | drop
  | revert

/-- The table after a declaration. -/
def declare (d : Dialect) (t : Table) : Declaration → Table
  | .column name => t.putColumn (Column.fresh d t.name name)
  | .setting column setting =>
    { t with columns := t.columns.map fun c => if c.name = column then setting.apply d c else c }
  | .primary column => t.addPrimary column
  | .unique columns => t.addKey (Key.ofColumns .unique t.name columns)
  | .index columns => t.addKey (Key.ofColumns .index t.name columns)
  | .key place setting => { t with keys := t.keys.modify place setting.apply }
  | .engine name => { t with engine := some name }
  | .rowFormat name => { t with rowFormat := some name }
  | .charset name => { t with charset := some name }
  | .collation name => { t with collation := some name }
  | .comment text => { t with comment := some text }
  | .drop => { t with mode := .drop }
  | .revert => undone t t.reverted

/-- The table after declarations, one after the other. -/
def declareAll (d : Dialect) (t : Table) (ds : List Declaration) : Table :=
  ds.foldl (declare d) t

theorem undone_reverted (t : Table) : undone t t.reverted = { t with mode := .drop } :=
  undone_mode t.mode t.description fun mode => { t with mode }

/-! ## What is mentioned -/

/-- The names that were mentioned, in order and with repetitions: those of columns where they were
declared, and those that each key was to be over. -/
structure Mentions where
  columns : List String := [implicitId]
  keys : List (KeyKind × List String) := []

/-- The keys with one more name in the primary key, which is one of them. -/
def mentionPrimary (column : String) (keys : List (KeyKind × List String)) :
    List (KeyKind × List String) :=
  if .primary ∈ keys.map Prod.fst then
    keys.map fun key => if key.1 = .primary then (key.1, key.2 ++ [column]) else key
  else keys ++ [(.primary, [column])]

/-- The mentions with those of a declaration. A column that is declared is marked where it is named
for the primary key, and any other is mentioned in a key. -/
def Mentions.note (m : Mentions) : Declaration → Mentions
  | .column name => { m with columns := m.columns ++ [name] }
  | .primary column =>
    if column ∈ m.columns then m else { m with keys := mentionPrimary column m.keys }
  | .unique columns => { m with keys := m.keys ++ [(.unique, columns)] }
  | .index columns => { m with keys := m.keys ++ [(.index, columns)] }
  | .key place (.column name) =>
    { m with keys := m.keys.modify place fun key => (key.1, key.2 ++ [name]) }
  | _ => m

/-- What the declarations of a table mention. -/
def mentions (ds : List Declaration) : Mentions :=
  ds.foldl Mentions.note {}

/-- The column that a declaration declares. -/
def Declaration.declares? : Declaration → Option String
  | .column name => some name
  | _ => none

theorem Mentions.columns_note (m : Mentions) (declaration : Declaration) :
    (m.note declaration).columns = m.columns ++ declaration.declares?.toList := by
  cases declaration with
  | column name => rfl
  | primary column =>
    rw [note]
    split <;> exact (List.append_nil _).symm
  | key place setting => cases setting <;> exact (List.append_nil _).symm
  | _ => exact (List.append_nil _).symm

theorem columns_mentions (ds : List Declaration) :
    (mentions ds).columns = implicitId :: ds.filterMap Declaration.declares? := by
  have more : ∀ m : Mentions, (ds.foldl Mentions.note m).columns =
      m.columns ++ ds.filterMap Declaration.declares? := by
    induction ds with
    | nil => exact fun m => (List.append_nil _).symm
    | cons declaration ds ih =>
      intro m
      rw [List.foldl_cons, ih, m.columns_note, List.append_assoc, List.filterMap_cons]
      cases declaration.declares? <;> rfl
  exact more {}

/-! ## The columns of keys -/

/-- What a key is over. -/
def outline (k : Key) : KeyKind × List String :=
  (k.kind, k.columns)

/-- What a key is over that was mentioned with repetitions. -/
def condensed (key : KeyKind × List String) : KeyKind × List String :=
  (key.1, key.2.eraseDups)

/-- A key over one more column, unless it is over it already. -/
def extended (column : String) (key : KeyKind × List String) : KeyKind × List String :=
  (key.1, if column ∈ key.2 then key.2 else key.2 ++ [column])

theorem outline_addColumn (k : Key) (column : String) :
    outline (k.addColumn column) = extended column (outline k) := by
  unfold Key.addColumn outline extended
  split <;> rfl

theorem condensed_concat (key : KeyKind × List String) (column : String) :
    condensed (key.1, key.2 ++ [column]) = extended column (condensed key) := by
  simp only [condensed, extended, eraseDups_concat, List.mem_eraseDups]

theorem columns_ofColumns (kind : KeyKind) (table : String) (columns : List String) :
    (Key.ofColumns kind table columns).columns = columns.eraseDups := by
  induction columns using List.reverseRecOn with
  | nil => rfl
  | append_singleton columns column ih =>
    have step := outline_addColumn (Key.ofColumns kind table columns) column
    rw [Key.ofColumns, List.foldl_append, List.foldl_cons, List.foldl_nil, eraseDups_concat]
    refine (congrArg Prod.snd step).trans ?_
    simp only [extended, outline, ih, List.mem_eraseDups]

theorem outline_ofColumns (kind : KeyKind) (table : String) (columns : List String) :
    outline (Key.ofColumns kind table columns) = condensed (kind, columns) := by
  obtain ⟨-, -, same, -⟩ := Key.ofColumns_ordered kind table columns
  rw [outline, same, columns_ofColumns]
  rfl

/-- Said of the key at one place, what keeps or extends the outline of a key does so there. -/
theorem map_modify {α β : Type} {f : α → α} {g : α → β} {h : β → β}
    (same : ∀ a, g (f a) = h (g a)) (as : List α) (place : Nat) :
    (as.modify place f).map g = (as.map g).modify place h := by
  refine List.ext_getElem? fun i => ?_
  rw [List.getElem?_map, List.getElem?_modify, List.getElem?_modify, List.getElem?_map]
  cases as[i]? with
  | none => rfl
  | some a =>
    by_cases here : place = i <;> simp [here, same]

/-- The first primary key among the keys is every one, where there is no other. -/
theorem extendPrimary_eq_map {keys : List Key} (column : String)
    (single : (keys.map (·.kind)).count .primary ≤ 1) :
    extendPrimary column keys =
      keys.map fun k => if k.kind = .primary then k.addColumn column else k := by
  induction keys with
  | nil => rfl
  | cons k keys ih =>
    rw [List.map_cons, List.count_cons] at single
    rw [extendPrimary, List.map_cons]
    by_cases primary : k.kind = .primary
    · rw [if_pos (beq_iff_eq.mpr primary)] at single
      have none : ∀ other ∈ keys, other.kind ≠ .primary := by
        intro other member again
        have inside : KeyKind.primary ∈ keys.map (·.kind) := again ▸ List.mem_map_of_mem member
        have counted := List.count_pos_iff.mpr inside
        omega
      have rest : (keys.map fun other =>
          if other.kind = .primary then other.addColumn column else other) = keys :=
        (List.map_congr_left fun other member => if_neg (none other member)).trans (List.map_id' _)
      rw [if_pos primary, if_pos primary, rest]
    · rw [if_neg fun same => primary (eq_of_beq same)] at single
      rw [if_neg primary, if_neg primary, ih single]

/-! ## What a table keeps of its mentions -/

/-- The table keeps of what was mentioned each name once, at the place of its first mention, and no
more than one of its keys is a primary key. -/
structure Declared (m : Mentions) (t : Table) : Prop where
  columns : t.columns.map (·.name) = m.columns.eraseDups
  keys : t.keys.map outline = m.keys.map condensed
  single : (t.keys.map (·.kind)).count .primary ≤ 1

theorem declared_created (d : Dialect) (name : String) : (created d name).Declared {} where
  columns := rfl
  keys := rfl
  single := Nat.zero_le 1

namespace Declared

variable {m : Mentions} {t : Table} (declared : t.Declared m)

include declared

theorem mem_columns_iff {column : String} :
    column ∈ t.columns.map (·.name) ↔ column ∈ m.columns := by
  rw [declared.columns, List.mem_eraseDups]

theorem distinct : (t.columns.map (·.name)).Nodup :=
  declared.columns ▸ nodup_eraseDups _

theorem kinds : t.keys.map (·.kind) = m.keys.map Prod.fst := by
  have same := congrArg (List.map Prod.fst) declared.keys
  rwa [List.map_map, List.map_map] at same

/-- Whatever changes neither the names of the columns nor what the keys are over keeps this. -/
theorem congr {t' : Table} (names : t'.columns.map (·.name) = t.columns.map (·.name))
    (keys : t'.keys.map outline = t.keys.map outline) : t'.Declared m where
  columns := names.trans declared.columns
  keys := keys.trans declared.keys
  single := by
    have same := congrArg (List.map Prod.fst) keys
    rw [List.map_map, List.map_map] at same
    exact Nat.le_trans (Nat.le_of_eq (congrArg (List.count .primary) same)) declared.single

theorem putColumn (c : Column) :
    (t.putColumn c).Declared { m with columns := m.columns ++ [c.name] } where
  columns := by
    rw [Table.putColumn, eraseDups_concat, ← declared.columns]
    simp only [← declared.mem_columns_iff]
    exact map_name_placeColumn c t.columns
  keys := declared.keys
  single := declared.single

theorem addKey {kind : KeyKind} (columns : List String)
    (first : kind = .primary → .primary ∉ t.keys.map (·.kind)) :
    (t.addKey (Key.ofColumns kind t.name columns)).Declared
      { m with keys := m.keys ++ [(kind, columns)] } where
  columns := declared.columns
  keys := by
    rw [Table.addKey, List.map_append, List.map_append, declared.keys, List.map_singleton,
      List.map_singleton, outline_ofColumns]
  single := by
    obtain ⟨-, -, same, -⟩ := Key.ofColumns_ordered kind t.name columns
    rw [Table.addKey, List.map_append, List.map_singleton, same, List.count_append,
      List.count_singleton]
    split
    next primary =>
      have none := List.count_eq_zero.mpr (first (eq_of_beq primary))
      exact Nat.le_of_eq (congrArg (· + 1) none)
    next => exact declared.single

theorem extendPrimary (column : String) (keyed : .primary ∈ t.keys.map (·.kind)) :
    ({ t with keys := Table.extendPrimary column t.keys } : Table).Declared
      { m with keys := mentionPrimary column m.keys } where
  columns := declared.columns
  keys := by
    have note : mentionPrimary column m.keys =
        m.keys.map fun key => if key.1 = .primary then (key.1, key.2 ++ [column]) else key :=
      if_pos (declared.kinds ▸ keyed)
    -- The keys are told apart by their kinds, which outlines and condensed mentions keep.
    have table : (fun k => outline (if k.kind = .primary then k.addColumn column else k)) =
        (fun key => if key.1 = .primary then extended column key else key) ∘ outline := by
      funext k
      rw [apply_ite outline, outline_addColumn]
      rfl
    have noted : (fun key : KeyKind × List String =>
          condensed (if key.1 = .primary then (key.1, key.2 ++ [column]) else key)) =
        (fun key => if key.1 = .primary then extended column key else key) ∘ condensed := by
      funext key
      rw [apply_ite condensed, condensed_concat]
      rfl
    rw [note, extendPrimary_eq_map column declared.single, List.map_map, List.map_map]
    refine (congrArg (List.map · t.keys) table).trans ?_
    refine Eq.trans ?_ (congrArg (List.map · m.keys) noted).symm
    rw [← List.map_map, ← List.map_map, declared.keys]
  single := by
    have kept : (Table.extendPrimary column t.keys).map (·.kind) = t.keys.map (·.kind) := by
      rw [extendPrimary_eq_map column declared.single, List.map_map]
      refine List.map_congr_left fun k _ => ?_
      rw [Function.comp_apply]
      split
      next => exact (k.addColumn_eq column).2.1
      next => rfl
    exact Nat.le_trans (Nat.le_of_eq (congrArg (List.count .primary) kept)) declared.single

theorem addPrimary (column : String) :
    (t.addPrimary column).Declared (m.note (.primary column)) := by
  by_cases known : column ∈ t.columns.map (·.name)
  · have noted : m.note (.primary column) = m := if_pos (declared.mem_columns_iff.mp known)
    rw [noted, addPrimary_of_declared known]
    exact declared.congr (map_name_markPrimary column t.columns) rfl
  · have noted : m.note (.primary column) = { m with keys := mentionPrimary column m.keys } :=
      if_neg fun mentioned => known (declared.mem_columns_iff.mpr mentioned)
    have keyed : t.keys.any (·.kind == .primary) = true ↔ .primary ∈ t.keys.map (·.kind) := by
      simp only [List.any_eq_true, beq_iff_eq, List.mem_map]
    rw [noted, addPrimary_of_undeclared known]
    split
    next found => exact declared.extendPrimary column (keyed.mp found)
    next none =>
      have first : .primary ∉ t.keys.map (·.kind) := fun member => none (keyed.mpr member)
      have fresh : mentionPrimary column m.keys = m.keys ++ [(.primary, [column])] :=
        if_neg (declared.kinds ▸ first)
      rw [fresh]
      exact declared.addKey [column] fun _ => first

/-- What is said of a key keeps what it is over, unless it names one more column. -/
theorem modifyKey (place : Nat) (setting : Key.Setting) :
    ({ t with keys := t.keys.modify place setting.apply } : Table).Declared
      (m.note (.key place setting)) := by
  have kept : (∀ k : Key, outline (setting.apply k) = outline k) →
      ({ t with keys := t.keys.modify place setting.apply } : Table).Declared m := by
    intro same
    refine declared.congr rfl ?_
    rw [map_modify (h := id) same, List.modify_id]
  cases setting with
  | column name =>
    have kinds : (t.keys.modify place (·.addColumn name)).map (·.kind) = t.keys.map (·.kind) := by
      rw [map_modify (h := id) fun k => (k.addColumn_eq name).2.1,
        List.modify_id]
    exact
      { columns := declared.columns
        keys := by
          have table := map_modify (fun k => outline_addColumn k name) t.keys place
          have noted := map_modify (fun key => condensed_concat key name) m.keys place
          exact table.trans ((congrArg (List.modify · place _) declared.keys).trans noted.symm)
        single := Nat.le_trans (Nat.le_of_eq (congrArg (List.count .primary) kinds))
          declared.single }
  | name given => exact kept fun _ => rfl
  | drop => exact kept fun _ => rfl
  | revert =>
    refine kept fun k => ?_
    rw [Key.Setting.apply, k.undone_reverted]
    rfl

/-- **One declaration** keeps every name at the place of its first mention. -/
theorem declare (d : Dialect) (declaration : Declaration) :
    (t.declare d declaration).Declared (m.note declaration) := by
  cases declaration with
  | column name => exact declared.putColumn (Column.fresh d t.name name)
  | setting column setting =>
    refine declared.congr ?_ rfl
    rw [Table.declare, List.map_map]
    refine List.map_congr_left fun c _ => ?_
    rw [Function.comp_apply]
    split
    next => exact setting.name_apply d c
    next => rfl
  | primary column => exact declared.addPrimary column
  | unique columns => exact declared.addKey columns nofun
  | index columns => exact declared.addKey columns nofun
  | key place setting => exact declared.modifyKey place setting
  | revert =>
    rw [Table.declare, undone_reverted]
    exact declared.congr rfl rfl
  | _ => exact declared.congr rfl rfl

end Declared

theorem Declared.declareAll {m : Mentions} {t : Table} (declared : t.Declared m) (d : Dialect)
    (ds : List Declaration) : (t.declareAll d ds).Declared (ds.foldl Mentions.note m) := by
  induction ds generalizing t m with
  | nil => exact declared
  | cons declaration ds ih => exact ih (declared.declare d declaration)

/-! ## Tables that are declared -/

/-- The declared columns that are marked as parts of the primary key. -/
def marked (t : Table) : List String :=
  (t.columns.filter (·.primary)).map (·.name)

/-- The columns of the primary entry among the keys, if there is one. -/
def entry (t : Table) : List String :=
  ((t.keys.find? (·.kind == .primary)).map (·.columns)).getD []

namespace Declared

variable {m : Mentions} {t : Table} (declared : t.Declared m)

include declared

theorem nodup_columns {k : Key} (member : k ∈ t.keys) : k.columns.Nodup := by
  have inside : outline k ∈ m.keys.map condensed := declared.keys ▸ List.mem_map_of_mem member
  obtain ⟨mentioned, -, same⟩ := List.mem_map.mp inside
  have columns : k.columns = mentioned.2.eraseDups := (congrArg Prod.snd same).symm
  exact columns ▸ nodup_eraseDups _

theorem filter_primary :
    t.keys.filter (·.kind == .primary) = (t.keys.find? (·.kind == .primary)).toList := by
  have bound : (t.keys.filter (·.kind == .primary)).length ≤ 1 := by
    have single := declared.single
    rwa [List.count, List.countP_map, List.countP_eq_length_filter] at single
  rw [← List.head?_filter]
  cases found : t.keys.filter (·.kind == .primary) with
  | nil => rfl
  | cons k more =>
    rw [found, List.length_cons] at bound
    rw [List.eq_nil_of_length_eq_zero (Nat.le_zero.mp (Nat.le_of_succ_le_succ bound))]
    rfl

theorem flatMap_primary :
    (t.keys.filter (·.kind == .primary)).flatMap (·.columns) = t.entry := by
  rw [declared.filter_primary, entry]
  cases t.keys.find? (·.kind == .primary) with
  | none => rfl
  | some k => exact List.append_nil _

theorem nodup_marked : t.marked.Nodup :=
  declared.distinct.sublist (List.filter_sublist.map _)

theorem nodup_entry : t.entry.Nodup := by
  rw [entry]
  cases found : t.keys.find? (·.kind == .primary) with
  | none => exact List.nodup_nil
  | some k => exact declared.nodup_columns (List.mem_of_find?_eq_some found)

theorem nodup_primaryKey : t.primaryKey.Nodup :=
  nodup_withNew declared.nodup_marked _

/-- The primary key is over the columns that are marked, and behind them what else its entry
names. -/
theorem primaryKey_eq : t.primaryKey = t.marked ++ t.entry.filter (· ∉ t.marked) := by
  rw [primaryKey, declared.flatMap_primary]
  exact withNew_eq_append_filter t.marked declared.nodup_entry

/-- Declaring a column again starts that column over, and changes nothing else. -/
theorem declare_again {d : Dialect} {column : String} (known : column ∈ t.columns.map (·.name)) :
    t.declare d (.column column) =
      { t with columns :=
          t.columns.map fun c => if c.name = column then Column.fresh d t.name column else c } :=
  congrArg (fun columns => { t with columns }) (placeColumn_eq_map declared.distinct known)

end Declared

theorem declared_declareAll (d : Dialect) (name : String) (ds : List Declaration) :
    ((created d name).declareAll d ds).Declared (mentions ds) :=
  (declared_created d name).declareAll d ds

/-- **What any declarations make of a table.** Its columns are the first one and those that were
declared, each once and in the order of first declaration. Its keys are over what was mentioned for
them, each name once and in the order of first mention, and no more than one of them is a primary
key. The primary key is over the marked columns and behind them the others that its entry names,
each once. Declaring a column again starts that column over, and changes nothing else. -/
theorem declarations_keep_first_mentions (d : Dialect) (name : String) (ds : List Declaration) :
    let t := (created d name).declareAll d ds
    (t.columns.map (·.name) = (implicitId :: ds.filterMap Declaration.declares?).eraseDups ∧
        (t.columns.map (·.name)).Nodup ∧ (t.columns.map (·.name)).head? = some implicitId) ∧
      (t.keys.map outline = (mentions ds).keys.map condensed ∧ ∀ k ∈ t.keys, k.columns.Nodup) ∧
      (t.keys.map (·.kind)).count .primary ≤ 1 ∧
      (t.primaryKey.Nodup ∧ t.primaryKey = t.marked ++ t.entry.filter (· ∉ t.marked)) ∧
      ∀ column ∈ t.columns.map (·.name), t.declare d (.column column) =
        { t with columns := t.columns.map fun c =>
            if c.name = column then Column.fresh d t.name column else c } := by
  intro t
  have declared : t.Declared (mentions ds) := declared_declareAll d name ds
  have names := declared.columns
  rw [columns_mentions] at names
  refine ⟨⟨names, declared.distinct, ?_⟩, ⟨declared.keys, fun k => declared.nodup_columns⟩,
    declared.single, ⟨declared.nodup_primaryKey, declared.primaryKey_eq⟩,
    fun column => declared.declare_again⟩
  rw [names, List.eraseDups_cons, List.head?_cons]

/-- A column named for the primary key before it is declared stays in the entry, and one named when
it is declared is marked. -/
theorem declarations_keep_first_mentions_before_and_after :
    let t := (created .mysql "visits").declareAll .mysql
      [.primary "tenant", .column "day", .column "tenant", .primary "day", .unique ["day", "day"],
        .key 1 (.column "tenant"), .column "day", .primary "day"]
    t.columns.map (·.name) = ["id", "day", "tenant"] ∧
      t.keys.map outline = [(.primary, ["tenant"]), (.unique, ["day", "tenant"])] ∧
      t.marked ++ t.entry.filter (· ∉ t.marked) = ["id", "day", "tenant"] ∧
      t.primaryKey = ["id", "day", "tenant"] := by
  obtain ⟨⟨columns, -⟩, ⟨keys, -⟩, -, ⟨-, primary⟩, -⟩ :=
    declarations_keep_first_mentions .mysql "visits"
      [.primary "tenant", .column "day", .column "tenant", .primary "day", .unique ["day", "day"],
        .key 1 (.column "tenant"), .column "day", .primary "day"]
  exact ⟨columns.trans (by decide), keys.trans (by decide), by decide, primary.trans (by decide)⟩

end Table

end SqlAccess
