import SqlAccess.Proofs.Ddl.Declared
import SqlAccess.Proofs.Ddl.TableScan

/-!
# Printing a table that was read from any text

A table that was read from a text is printed as a text that is read as the same table
(`accepted_texts_regenerate`), provided that what was read can be printed in one piece. Reading
takes names and texts as they are, and escapes apart; printing takes a name for a path of names
where it has dots, and writes each column, key and option on a line of its own. So names must not be
paths, texts must not hold line feeds, the texts of a value list must be told apart by their quotes,
and an entry for undeclared columns of the primary key must come before the other keys
(`Table.Reprintable`).
-/

namespace SqlAccess

open Ddl SqlAccess.Text

/-- Is the name neither a path of names nor a star? -/
structure SingleName (name : String) : Prop where
  undotted : '.' ∉ name.toList
  ne_star : name ≠ "*"

theorem SingleName.named {name : String} (single : SingleName name) (scanned : ScannedName name) :
    Named name where
  ne_empty := scanned.1
  ne_star := single.ne_star
  plain := by
    intro c member
    refine ⟨(scanned.2 c member).1, ?_, (scanned.2 c member).2⟩
    rintro rfl
    exact single.undotted member

/-- Does the word close its quotes, and end otherwise than in a comma? -/
def ClosedWord (word : String) : Prop :=
  Quoting.outside.closes word.toList = true ∧ word.toList.getLast? ≠ some ','

theorem ClosedWord.isWord {word : String} (closed : ClosedWord word) (line : WordOfLine word) :
    IsWord word.toList where
  ne_nil := fun empty => line.1 (String.toList_eq_nil_iff.mp empty)
  closes := closed.1
  oneLine := line.2
  ending := closed.2

/-- Can the default that was read be printed on one line? -/
def DefaultValue.Reprintable : DefaultValue → Prop
  | .text s => '\n' ∉ s.toList
  | .expression sql => ClosedWord sql
  | _ => True

theorem DefaultValue.Scanned.readable {value : DefaultValue} (scanned : value.Scanned)
    (reprintable : value.Reprintable) : value.Readable := by
  cases value with
  | text s => exact reprintable
  | expression sql =>
    obtain ⟨filled, oneLine, notText, notNull⟩ := scanned
    exact ⟨ClosedWord.isWord reprintable ⟨filled, oneLine⟩, notText, notNull⟩
  | null | bool | int | float => trivial

/-- Can the column that was read be printed on one line, name by name and text by text? -/
structure Column.Reprintable (c : Column) : Prop where
  named : SingleName c.name
  values : ∀ texts, c.length = some (.values texts) → Listable texts
  default : ∀ value ∈ c.default, value.Reprintable
  collation : ∀ name ∈ c.collation, ClosedWord name
  comment : ∀ text ∈ c.comment, '\n' ∉ text.toList

/-- Can the key that was read be printed name by name? -/
structure Key.Reprintable (k : Key) : Prop where
  named : ∀ name ∈ k.explicitName, SingleName name
  columns : ∀ name ∈ k.columns, ∀ c ∈ name.toList, c ≠ '\x60' ∧ c ≠ '.'

/-- Can the table that was read be printed line by line? -/
structure Table.Reprintable (t : Table) : Prop where
  named : SingleName t.name
  columns : ∀ c ∈ t.columns, c.Reprintable
  keys : ∀ k ∈ t.keys, k.Reprintable
  /-- An entry for undeclared columns of the primary key is the first key. -/
  order : ∀ k ∈ t.keys.tail, k.kind ≠ .primary
  /-- No option in front of the collation starts with its keyword. -/
  words : ∀ value, value ∈ t.engine ∨ value ∈ t.rowFormat ∨ value ∈ t.charset →
    afterKeyword "COLLATE".toList value.toList = none
  comment : ∀ comment ∈ t.comment, '\n' ∉ comment.toList

theorem Column.Scanned.readable {c : Column} (scanned : c.Scanned) (reprintable : c.Reprintable) :
    c.Readable := by
  obtain ⟨native, filled, letters, type, suits⟩ := scanned.typed
  refine
    { named := reprintable.named.named scanned.named, isNative := ?_, fits := ?_
      attributes := readable_attributes
        (fun value given => (scanned.default value given).readable (reprintable.default value given))
        (fun name given =>
          (reprintable.collation name given).isWord (scanned.collation name given))
        reprintable.comment }
  · rw [type]
    exact isNative_nativeType filled letters c.length
  · intro length given
    have suits' := suits_nativeType letters (suits length given) c.length
    rw [← type] at suits'
    cases length with
    | values texts => exact ⟨suits', reprintable.values texts given⟩
    | size n => exact suits'
    | precision digits scale => exact suits'

theorem Key.Scanned.columnar {table : String} {declared : List String} {k : Key}
    (scanned : k.Scanned table declared) (reprintable : k.Reprintable) :
    ∀ name ∈ k.columns, Columnar name := by
  intro name member
  obtain ⟨filled, plain⟩ := scanned.columns name member
  refine ⟨filled, fun c inside => ?_⟩
  obtain ⟨backtick, dot⟩ := reprintable.columns name member c inside
  obtain ⟨comma, parenthesis, feed⟩ := plain c inside
  exact ⟨backtick, dot, feed, comma, parenthesis⟩

/-- **A key that was read is read as itself again.** -/
theorem Key.Scanned.reread_eq {table : String} {declared : List String} {k : Key}
    (scanned : k.Scanned table declared) : k.reread = k := by
  unfold Key.reread
  split
  next => rfl
  next other =>
    obtain ⟨name, given, -⟩ := scanned.named other
    have same : k.name = name := by rw [Key.name.eq_def, given]
    rw [same, ← given]

/-- **A key that was read is readable**, one of the primary kind aside, which has no name. -/
theorem Key.Scanned.readable {table : String} {declared : List String} {k : Key}
    (scanned : k.Scanned table declared) (reprintable : k.Reprintable) (other : k.kind ≠ .primary) :
    k.Readable := by
  obtain ⟨name, given, plain⟩ := scanned.named other
  have same : k.name = name := by rw [Key.name.eq_def, given]
  exact
    { named := by rw [same]; exact (reprintable.named name given).named plain
      columns := scanned.columnar reprintable
      distinct := scanned.distinct, created := scanned.created }

/-- A primary key that was read is the entry over its columns. -/
theorem Key.Scanned.primaryEntry_eq {table : String} {declared : List String} {k : Key}
    (scanned : k.Scanned table declared) (primary : k.kind = .primary) :
    Table.primaryEntry table k.columns = [k] := by
  obtain ⟨unnamed, filled, -⟩ := scanned.primary primary
  obtain ⟨own, kind, columns, mode, explicitName⟩ := k
  have own' := scanned.own
  have mode' := scanned.created
  dsimp only at *
  subst own' mode' unnamed primary
  cases columns with
  | nil => exact absurd rfl filled
  | cons name names => rfl

namespace Table

variable {t : Table}

theorem Scanned.keyed (scanned : t.Scanned) (reprintable : t.Reprintable) :
    ∃ names others, t.Keyed names others := by
  have readable : ∀ k ∈ t.keys, k.kind ≠ .primary → k.Readable := fun k member =>
    (scanned.keys k member).readable (reprintable.keys k member)
  have order := reprintable.order
  cases keys : t.keys with
  | nil =>
    refine ⟨[], [], keys, List.nodup_nil, ?_, ?_, ?_, ?_, ?_⟩ <;>
      exact fun _ member => absurd member List.not_mem_nil
  | cons k rest =>
    rw [keys] at readable order
    rw [List.tail_cons] at order
    have first : k ∈ t.keys := keys ▸ List.mem_cons_self
    have read := scanned.keys k first
    have own : ∀ k' ∈ k :: rest, k'.table = t.name := fun k' member =>
      (scanned.keys k' (keys ▸ member)).own
    by_cases primary : k.kind = .primary
    · obtain ⟨-, -, undeclared⟩ := read.primary primary
      refine ⟨k.columns, rest, ?_, read.distinct, read.columnar (reprintable.keys k first),
        undeclared, order, ?_, ?_⟩
      · rw [read.primaryEntry_eq primary, keys]
        rfl
      · exact fun k' member => readable k' (List.mem_cons_of_mem k member) (order k' member)
      · exact fun k' member => own k' (List.mem_cons_of_mem k member)
    · have plain : ∀ k' ∈ k :: rest, k'.kind ≠ .primary := by
        intro k' member
        rcases List.mem_cons.mp member with rfl | member
        · exact primary
        · exact order k' member
      refine ⟨[], k :: rest, keys, List.nodup_nil, ?_, ?_, plain, ?_, own⟩
      · exact fun _ member => absurd member List.not_mem_nil
      · exact fun _ member => absurd member List.not_mem_nil
      · exact fun k' member => readable k' member (plain k' member)

theorem Scanned.readable (scanned : t.Scanned) (worded : t.Worded) (reprintable : t.Reprintable) :
    t.Readable where
  toStarted := scanned.toStarted
  named := reprintable.named.named scanned.named
  columns := fun c member =>
    (scanned.columns c member).readable (reprintable.columns c (List.mem_of_mem_tail member))
  marked := by
    intro c member primary
    obtain ⟨⟨filled, plain⟩, notNull⟩ := scanned.marked c member primary
    have named := (reprintable.columns c (List.mem_of_mem_tail member)).named.named
      (scanned.columns c member).named
    refine ⟨⟨filled, fun ch inside => ?_⟩, notNull⟩
    obtain ⟨backtick, dot, feed⟩ := named.plain ch inside
    obtain ⟨comma, parenthesis, -⟩ := plain ch inside
    exact ⟨backtick, dot, feed, comma, parenthesis⟩
  keyed := scanned.keyed reprintable
  settings := readable_settings
    (fun value given => by
      refine ⟨worded value ?_, reprintable.words value given⟩
      rcases given with given | given | given
      · exact .inl given
      · exact .inr (.inl given)
      · exact .inr (.inr (.inl given)))
    fun value given => worded value (.inr (.inr (.inr given)))
  comment := reprintable.comment

/-- **A table that was read is read as itself again.** -/
theorem Scanned.reread_eq (scanned : t.Scanned) : t.reread = t := by
  have columns : t.columns.map Column.reread = t.columns := by
    rw [scanned.implicit, List.map_cons, reread_idColumn]
    refine congrArg (_ :: ·) ((List.map_congr_left fun c member => ?_).trans (List.map_id' _))
    exact (scanned.columns c member).reread_eq
  have keys : t.keys.map Key.reread = t.keys :=
    (List.map_congr_left fun k member => (scanned.keys k member).reread_eq).trans (List.map_id' _)
  rw [reread, columns, keys]

end Table

/-- **What is read from a text is printed as a text that reads the same**, when it can be printed
line by line. -/
theorem accepted_texts_regenerate {ddl : String} {t : Table}
    (read : Dialect.mysql.readTable ddl = .ok t) (reprintable : t.Reprintable) :
    ∃ again, t.toSql .mysql = .ok again ∧ Dialect.mysql.readTable again = .ok t := by
  obtain ⟨scanned, worded⟩ := scanned_of_readTable read
  have readable := scanned.readable worded reprintable
  obtain ⟨again, printed, reread⟩ := readable.readTable_toSql
  rw [scanned.reread_eq] at reread
  exact ⟨again, printed, reread⟩

/-- Reading a column again does not change whether it can be printed. -/
theorem Column.Reprintable.reread {c : Column} (named : SingleName c.name)
    (values : ∀ texts, c.length = some (.values texts) → Listable texts) (plain : c.default = none)
    (collation : ∀ name ∈ c.collation, ClosedWord name)
    (comment : ∀ text ∈ c.comment, '\n' ∉ text.toList) : c.reread.Reprintable where
  named := by rw [name_reread]; exact named
  values := by rw [length_reread]; exact values
  default := by rw [default_reread, plain]; nofun
  collation := by dsimp only [Column.reread, listed]; exact collation
  comment := by dsimp only [Column.reread, listed]; exact comment

theorem Table.people_reprintable : Table.people.reread.Reprintable := by
  have single : SingleName "people" ∧ SingleName "id" ∧ SingleName "nick" ∧
      SingleName "unique_people_on_nick" :=
    ⟨⟨by decide, by decide⟩, ⟨by decide, by decide⟩, ⟨by decide, by decide⟩, by decide, by decide⟩
  refine
    { named := single.1, columns := fun c member => ?_, keys := fun k member => ?_, order := nofun
      words := fun value given => (Table.people_plain.words value given).2
      comment := nofun }
  · obtain ⟨old, inside, rfl⟩ := List.mem_map.mp member
    rcases List.mem_cons.mp inside with rfl | inside
    · exact .reread single.2.1 nofun rfl nofun nofun
    · rw [List.mem_singleton.mp inside]
      exact .reread single.2.2.1 nofun rfl nofun
        fun text given => Option.some.inj given ▸ by decide
  · obtain ⟨old, inside, rfl⟩ := List.mem_map.mp member
    have name : old.name = "unique_people_on_nick" ∧ old.kind ≠ .primary ∧
        old.columns = ["nick"] := by
      rw [List.mem_singleton.mp inside]
      exact ⟨by decide, by decide, rfl⟩
    refine ⟨fun explicit given => ?_, ?_⟩
    · rw [Key.reread, if_neg name.2.1, name.1] at given
      exact Option.some.inj given ▸ single.2.2.2
    · rw [Key.columns_reread, name.2.2]
      decide

/-- The text of `Table.people` is read as a table that can be printed again. -/
theorem accepted_texts_regenerate_people : ∃ ddl,
    Dialect.mysql.readTable ddl = .ok Table.people.reread ∧ Table.people.reread.Reprintable ∧
      ∃ again, Table.people.reread.toSql .mysql = .ok again ∧
        Dialect.mysql.readTable again = .ok Table.people.reread := by
  have readable := Table.people_made.ordered.2.readable Table.people_plain.frame
    fun c member => (Table.people_plain.columns c member).kept
  obtain ⟨ddl, -, read⟩ := readable.readTable_toSql
  exact ⟨ddl, read, Table.people_reprintable,
    accepted_texts_regenerate read Table.people_reprintable⟩

/-! ## Texts that are not printed as they were read -/

/-- What is compared of two tables: their keys and collation, and what their columns say of lengths
and collations. -/
def Table.compared (t : Table) :
    List Key × Option String × List (Option Length) × List (Option String) :=
  (t.keys, t.collation, t.columns.map (·.length), t.columns.map (·.collation))

/-- Is the text read as a table that is printed as a text which is not read, or not as that table?
-/
def regeneratesOtherwise (ddl : String) : Bool :=
  match Dialect.mysql.readTable ddl with
  | .error _ => false
  | .ok t =>
    match Ddl.readTable .mysql t.printed with
    | .error _ => true
    | .ok t' => t'.compared != t.compared

theorem exists_of_regeneratesOtherwise {ddl : String} (h : regeneratesOtherwise ddl = true) :
    ∃ t again, Dialect.mysql.readTable ddl = .ok t ∧ t.toSql .mysql = .ok again ∧
      Dialect.mysql.readTable again ≠ .ok t := by
  unfold regeneratesOtherwise at h
  split at h
  next => cases h
  next t read =>
    have scanned := (scanned_of_readTable read).1
    have filled : t.columns ≠ [] := by
      rw [scanned.implicit]
      exact List.cons_ne_nil _ _
    refine ⟨t, _, read, Table.toSql_eq scanned.created filled, fun same => ?_⟩
    rw [Dialect.readTable, String.toList_ofList] at same
    rw [same] at h
    exact bne_iff_ne.mp h rfl

/-- Texts of tables, each of which holds one thing that is not printed as it was read: a name that
is a path of names, the length of a part of a column in a key, a line feed that was escaped, a quote
at the start of a text in a value list, a word that ends in a comma, a primary key of an undeclared
column behind another key, and an option that starts with the keyword of the collation. -/
def oddTexts : List String :=
  [ "CREATE TABLE `a.b` (\n)",
    "CREATE TABLE `t` (\n  KEY `k` (`a`(10))\n)",
    "CREATE TABLE `t` (\n  `a` text DEFAULT 'x\\ny'\n)",
    "CREATE TABLE `t` (\n  `a` enum('\\'x','y')\n)",
    "CREATE TABLE `t` (\n  `a` int(11) COLLATE c, UNSIGNED\n)",
    "CREATE TABLE `t` (\n  KEY `k` (`a`),\n  PRIMARY KEY (`a`)\n)",
    "CREATE TABLE `t` (\n) COLLATE=c ENGINE=CollateX" ]

/-- **Not every text that is read is printed as one that reads the same**: a table whose name has a
dot is not, and neither are the other odd texts. -/
theorem odd_texts_do_not_regenerate :
    (∃ t again, Dialect.mysql.readTable "CREATE TABLE `a.b` (\n)" = .ok t ∧
      t.toSql .mysql = .ok again ∧ Dialect.mysql.readTable again ≠ .ok t) ∧
    ∀ ddl ∈ oddTexts, ∃ t again, Dialect.mysql.readTable ddl = .ok t ∧
      t.toSql .mysql = .ok again ∧ Dialect.mysql.readTable again ≠ .ok t := by
  have all : oddTexts.all regeneratesOtherwise = true := by decide +kernel
  have each : ∀ ddl ∈ oddTexts, ∃ t again, Dialect.mysql.readTable ddl = .ok t ∧
      t.toSql .mysql = .ok again ∧ Dialect.mysql.readTable again ≠ .ok t := fun ddl member =>
    exists_of_regeneratesOtherwise (List.all_eq_true.mp all ddl member)
  exact ⟨each _ List.mem_cons_self, each⟩

end SqlAccess
