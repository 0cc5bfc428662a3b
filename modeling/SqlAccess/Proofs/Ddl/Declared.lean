import Mathlib.Data.List.Forall2
import SqlAccess.Proofs.Ddl.Reprint
import SqlAccess.Proofs.Schema.Made

/-!
# Printing a declared table

A table that was made by declaration, from plain names and texts, is printed as a text that is read
back as that table (`Table.Ordered.reads_back`). Names are plain when they hold nothing that a path
of names or a list of them is cut at. A comment, and a text that is a default, may be any line of
text: whatever words or quotes it holds, none of them is taken for an attribute or an option.

The keyword of the collation is found in any case and without an equals sign, so the other options
have to be words that do not start with it.
-/

namespace SqlAccess

open Ddl SqlAccess.Text

/-- Is the name filled, no star, and free of everything that cuts names and lines? -/
structure PlainName (name : String) : Prop where
  ne_empty : name ≠ ""
  ne_star : name ≠ "*"
  plain : ∀ c ∈ name.toList, c ≠ '\x60' ∧ c ≠ '.' ∧ c ≠ ',' ∧ c ≠ ')' ∧ c ≠ '\n'

instance (name : String) : Decidable (PlainName name) :=
  decidable_of_iff (name ≠ "" ∧ name ≠ "*" ∧
      ∀ c ∈ name.toList, c ≠ '\x60' ∧ c ≠ '.' ∧ c ≠ ',' ∧ c ≠ ')' ∧ c ≠ '\n')
    ⟨fun ⟨ne_empty, ne_star, plain⟩ => ⟨ne_empty, ne_star, plain⟩,
      fun h => ⟨h.ne_empty, h.ne_star, h.plain⟩⟩

theorem PlainName.named {name : String} (h : PlainName name) : Named name where
  ne_empty := h.ne_empty
  ne_star := h.ne_star
  plain := by
    intro c member
    obtain ⟨backtick, dot, -, -, feed⟩ := h.plain c member
    exact ⟨backtick, dot, feed⟩

theorem PlainName.columnar {name : String} (h : PlainName name) : Columnar name where
  ne_empty := h.ne_empty
  plain := by
    intro c member
    obtain ⟨backtick, dot, comma, parenthesis, feed⟩ := h.plain c member
    exact ⟨backtick, dot, feed, comma, parenthesis⟩

/-- Is the default a text on one line, another constant, or an expression of one word? -/
def DefaultValue.Plain : DefaultValue → Prop
  | .expression sql =>
    sql ≠ "" ∧ (∀ c ∈ sql.toList, c ≠ '\'' ∧ c ≠ ',' ∧ isBlank c = false) ∧
      isWord "NULL" sql.toList = false
  | .text s => '\n' ∉ s.toList
  | .null | .bool _ | .int _ | .float _ => True

theorem DefaultValue.Plain.readable {value : DefaultValue} (h : value.Plain) : value.Readable := by
  cases value with
  | expression sql =>
    obtain ⟨filled, plain, notNull⟩ := h
    have token : IsToken sql.toList :=
      isToken_of_plain (fun empty => filled (String.toList_eq_nil_iff.mp empty))
        fun c member => ⟨(plain c member).1, (plain c member).2.2⟩
    refine ⟨⟨token, fun member => ?_, fun last => ?_⟩, ?_, notNull⟩
    · exact absurd (plain _ member).2.2 (by decide)
    · exact (plain _ (List.mem_of_getLast? last)).2.1 rfl
    · rw [literal?.eq_def]
      split
      next body start =>
        exact absurd rfl (plain '\'' (start ▸ List.mem_cons_self)).1
      next => rfl
  | text s => exact h
  | null | bool | int | float => trivial

/-- Is the type a logical one, or a native one that is not read as another? -/
def ColumnType.Plain : ColumnType → Prop
  | .other native => native ≠ "" ∧ (∀ c ∈ native.toList, c.isAlpha = true) ∧
      ∀ word ∈ ["INTEGER", "ENUM", "SET"], isWord word native.toList = false
  | _ => True

namespace ColumnType.Plain

variable {type : ColumnType} (h : type.Plain)

theorem toList_nativeType {native : String} (letters : ∀ c ∈ native.toList, c.isAlpha = true) :
    (Dialect.mysql.nativeType (.other native)).toList = asciiUppercase native.toList := by
  rw [Dialect.nativeType, uppercase_of_isAlpha letters, String.toList_ofList]

include h in
theorem isNative : IsNative (Dialect.mysql.nativeType type).toList := by
  cases type with
  | other native =>
    obtain ⟨filled, letters, -⟩ := h
    rw [toList_nativeType letters]
    refine ⟨fun empty => filled ?_, isUpper_asciiUppercase letters⟩
    exact String.toList_eq_nil_iff.mp (List.map_eq_nil_iff.mp empty)
  | _ => exact ⟨by decide, by decide⟩

include h in
theorem native_ne : Dialect.mysql.nativeType type ≠ "INTEGER" := by
  cases type with
  | other native =>
    obtain ⟨-, letters, apart⟩ := h
    intro same
    have other := apart "INTEGER" List.mem_cons_self
    rw [isWord, ← toList_nativeType letters, same] at other
    exact absurd other (by decide)
  | _ => decide

include h in
/-- Only the list type is printed as one that takes a value list. -/
theorem isWord_nativeType (single : type ≠ .list) {word : String} (listing : word ∈ ["ENUM", "SET"]) :
    isWord word (Dialect.mysql.nativeType type).toList = false := by
  cases type with
  | other native =>
    obtain ⟨-, letters, apart⟩ := h
    have other := apart word (List.mem_cons_of_mem _ listing)
    rw [isWord, toList_nativeType letters, asciiUppercase_of_isUpper (isUpper_asciiUppercase letters)]
    exact other
  | list => exact absurd rfl single
  | _ =>
    revert word
    decide

include h in
/-- Any other type takes a number or two. -/
theorem fits (single : type ≠ .list) {length : Length} (other : ∀ texts, length ≠ .values texts) :
    Fits (Dialect.mysql.nativeType type).toList length := by
  have apart : isWord "ENUM" (Dialect.mysql.nativeType type).toList = false ∧
      isWord "SET" (Dialect.mysql.nativeType type).toList = false :=
    ⟨h.isWord_nativeType single (by decide), h.isWord_nativeType single (by decide)⟩
  cases length with
  | values texts => exact absurd rfl (other texts)
  | size n => exact apart
  | precision digits scale => exact apart

end ColumnType.Plain

/-- Is the text of a list type free of quotes, commas and white space at its ends? -/
structure PlainValue (text : String) : Prop where
  plain : ∀ c ∈ text.toList, c ≠ '\'' ∧ c ≠ ',' ∧ c ≠ ')' ∧ c ≠ '\n'
  start : ∀ c ∈ text.toList.head?, isBlank c = false
  ending : ∀ c ∈ text.toList.getLast?, isBlank c = false

theorem PlainValue.quotes {text : String} (h : PlainValue text) : '\'' ∉ text.toList :=
  fun member => (h.plain '\'' member).1 rfl

theorem PlainValue.parted {text : String} (h : PlainValue text) : Parted text.toList := by
  intro before after same
  exact absurd (same ▸ List.mem_append_right before List.mem_cons_self) h.quotes

theorem PlainValue.parted_opening {text : String} (h : PlainValue text) :
    Parted ('\'' :: text.toList) := by
  intro before after same
  cases before with
  | nil =>
    have comma : ',' ∈ text.toList := (List.cons.inj same).2 ▸ List.mem_cons_self
    exact absurd rfl (h.plain ',' comma).2.1
  | cons c before => exact h.parted before after (List.cons.inj same).2

theorem listable_of_plain {texts : List String} (filled : texts ≠ [])
    (plain : ∀ text ∈ texts, PlainValue text) : Listable texts where
  ne_nil := filled
  plain := by
    intro text member c inside
    obtain ⟨-, -, parenthesis, feed⟩ := (plain text member).plain c inside
    exact ⟨parenthesis, feed⟩
  start := fun text member first => (plain text member).quotes (List.mem_of_head? first)
  ending := fun text member last => (plain text member).quotes (List.mem_of_getLast? last)
  parted := fun text member => (plain text member).parted
  opening := fun text first => (plain text (List.mem_of_head? first)).parted_opening
  left := fun text member => (plain text (List.mem_of_mem_tail member)).start
  right := fun text member => (plain text (List.dropLast_subset _ member)).ending

namespace Column

/-- Does the column have a plain name, a type with its argument, and plain texts? -/
structure Plain (c : Column) : Prop where
  named : PlainName c.name
  type : c.type.Plain
  /-- A list type lists its values. -/
  list : c.type = .list → ∃ texts, c.length = some (.values texts) ∧ texts ≠ [] ∧
    ∀ text ∈ texts, PlainValue text
  /-- No other type does. -/
  single : c.type ≠ .list → ∀ texts, c.length ≠ some (.values texts)
  marked : c.primary = true → c.nullable = false
  default : ∀ value ∈ c.default, value.Plain
  null : c.default = some .null → c.nullable = true
  collation : ∀ name ∈ c.collation, IsValue name.toList
  comment : ∀ text ∈ c.comment, '\n' ∉ text.toList

theorem Plain.fits {c : Column} (plain : c.Plain) :
    ∀ length ∈ c.length, Fits (Dialect.mysql.nativeType c.type).toList length := by
  intro length given
  by_cases list : c.type = .list
  · obtain ⟨texts, values, filled, all⟩ := plain.list list
    obtain rfl : length = .values texts := Option.some.inj (given.symm.trans values)
    rw [list]
    exact ⟨.inl (by decide), listable_of_plain filled all⟩
  · refine plain.type.fits list fun texts values => plain.single list texts ?_
    rw [← values]
    exact given

theorem isWord_of_isValue {value : List Char} (h : IsValue value) : IsWord value := by
  have apart : ∀ c ∈ value, c ≠ '\'' ∧ isBlank c = false := by
    intro c member
    have word := h.word c member
    refine ⟨?_, isBlank_of_isWordChar word⟩
    rintro rfl
    exact absurd word (by decide)
  refine ⟨isToken_of_plain h.ne_nil apart, fun member => ?_, fun last => ?_⟩
  · exact absurd (apart _ member).2 (by decide)
  · exact absurd (h.word _ (List.mem_of_getLast? last)) (by decide)

theorem Plain.readable {c : Column} (plain : c.Plain) : c.Readable where
  named := plain.named.named
  isNative := plain.type.isNative
  fits := plain.fits
  attributes := readable_attributes (fun value given => (plain.default value given).readable)
    (fun name given => isWord_of_isValue (plain.collation name given)) plain.comment

/-- Is the column read, and printed again, as what it says? -/
structure Kept (c : Column) : Prop where
  named : PlainName c.name
  readable : c.Readable
  stable : c.Stable
  marked : c.primary = true → c.nullable = false

theorem Plain.kept {c : Column} (plain : c.Plain) : c.Kept where
  named := plain.named
  readable := plain.readable
  stable := ⟨plain.type.native_ne, plain.null⟩
  marked := plain.marked

end Column

/-! ## The names of keys -/

theorem mem_joined {separator : String} {texts : List String} {c : Char}
    (member : c ∈ (joined separator texts).toList) :
    c ∈ separator.toList ∨ ∃ text ∈ texts, c ∈ text.toList := by
  cases texts with
  | nil => exact absurd member List.not_mem_nil
  | cons text texts =>
    rw [toList_joined_cons, List.mem_append, List.mem_flatMap] at member
    rcases member with member | ⟨next, inside, member⟩
    · exact .inr ⟨text, List.mem_cons_self, member⟩
    · rcases List.mem_append.mp member with member | member
      · exact .inl member
      · exact .inr ⟨next, List.mem_cons_of_mem text inside, member⟩

namespace Key

/-- Are the names in the key plain? -/
structure Plain (k : Key) : Prop where
  named : ∀ name ∈ k.explicitName, PlainName name
  columns : ∀ name ∈ k.columns, PlainName name

/-- What a key is named after its kind, its table and its columns. -/
theorem toList_name {k : Key} (unnamed : k.explicitName = none) (other : k.kind ≠ .primary) :
    k.name.toList = k.kind.word.toList ++ ("_".toList ++ (k.table.toList ++ ("_on_".toList ++
      (joined "_and_" k.columns).toList))) := by
  have told : k.name = k.kind.word ++ "_" ++ k.table ++ "_on_" ++ joined "_and_" k.columns := by
    rw [Key.name.eq_def, unnamed]
    cases kind : k.kind with
    | primary => exact absurd kind other
    | index => rfl
    | unique => rfl
  rw [told]
  simp only [String.toList_append, List.append_assoc]

/-- **A key has a plain name** when it is given one, and when it is named after plain names. -/
theorem Plain.named_name {k : Key} (plain : k.Plain) (other : k.kind ≠ .primary)
    (table : PlainName k.table) : Named k.name := by
  cases given : k.explicitName with
  | some name =>
    have same : k.name = name := by
      rw [Key.name.eq_def, given]
    rw [same]
    exact (plain.named name given).named
  | none =>
    have text := toList_name given other
    have literal : ∀ word ∈ ["index", "unique", "_", "_on_", "_and_"], ∀ c ∈ word.toList,
        c ≠ '\x60' ∧ c ≠ '.' ∧ c ≠ '\n' := by decide
    have kind : k.kind.word ∈ ["index", "unique", "_", "_on_", "_and_"] := by
      cases kind : k.kind with
      | primary => exact absurd kind other
      | index => decide
      | unique => decide
    refine ⟨fun empty => ?_, fun star => ?_, fun c member => ?_⟩
    · rw [empty] at text
      cases kind : k.kind <;> rw [kind] at text <;> exact absurd text (by simp)
    · have length := congrArg List.length text
      rw [star, List.length_append, List.length_append, List.length_append,
        List.length_append] at length
      have more : "*".toList.length = 1 ∧ "_".toList.length = 1 ∧ "_on_".toList.length = 4 := by
        decide
      omega
    · rw [text] at member
      simp only [List.mem_append] at member
      rcases member with inside | inside | inside | inside | inside
      · exact literal _ kind c inside
      · exact literal "_" (by decide) c inside
      · exact table.named.plain c inside
      · exact literal "_on_" (by decide) c inside
      · rcases mem_joined inside with inside | ⟨column, among, inside⟩
        · exact literal "_and_" (by decide) c inside
        · exact (plain.columns column among).named.plain c inside

end Key

/-! ## Tables -/

namespace Table

/-- Are all names and texts in the table plain? -/
structure Plain (t : Table) : Prop where
  named : PlainName t.name
  columns : ∀ c ∈ t.columns.tail, c.Plain
  keys : ∀ k ∈ t.keys, k.Plain
  words : ∀ value, value ∈ t.engine ∨ value ∈ t.rowFormat ∨ value ∈ t.charset →
    IsValue value.toList ∧ afterKeyword "COLLATE".toList value.toList = none
  collation : ∀ value ∈ t.collation, IsValue value.toList
  comment : ∀ comment ∈ t.comment, '\n' ∉ comment.toList

/-- Are all names and texts in the table plain, those of its columns aside? -/
def PlainFrame (t : Table) : Prop :=
  ({ t with columns := [] } : Table).Plain

theorem Plain.frame {t : Table} (plain : t.Plain) : t.PlainFrame :=
  have none : ∀ c ∈ ([] : List Column).tail, c.Plain := fun _ member => nomatch member
  ⟨plain.named, none, plain.keys, plain.words, plain.collation, plain.comment⟩

theorem plainFrame_created {name : String} (named : PlainName name) :
    (Table.created .mysql name).PlainFrame :=
  have none : ∀ c ∈ ([] : List Column).tail, c.Plain := fun _ member => nomatch member
  ⟨named, none, nofun, nofun, nofun, nofun⟩

section

variable {t : Table} (ordered : t.Ordered) (frame : t.PlainFrame)

include ordered frame

theorem Ordered.keyed : t.Keyed [] t.keys where
  keys := rfl
  distinct := List.nodup_nil
  columnar := nofun
  undeclared := nofun
  plain := ordered.plain
  readable := by
    intro k member
    have table : PlainName k.table := by
      rw [ordered.keyOwn k member]
      exact frame.named
    exact
      { named := (frame.keys k member).named_name (ordered.plain k member) table
        columns := fun column among => ((frame.keys k member).columns column among).columnar
        distinct := ordered.keyDistinct k member, created := ordered.keyCreated k member }
  own := ordered.keyOwn

theorem Ordered.legible (columns : ∀ c ∈ t.columns.tail, PlainName c.name ∧ c.Legible) :
    t.Legible where
  toStarted := ordered.toStarted
  named := frame.named.named
  columns := fun c member => (columns c member).2
  marked := fun c member _ => (columns c member).1.columnar
  keyed := ⟨[], t.keys, ordered.keyed frame⟩
  settings := readable_settings frame.words frame.collation
  comment := frame.comment

theorem Ordered.readable (columns : ∀ c ∈ t.columns.tail, c.Kept) : t.Readable where
  toStarted := ordered.toStarted
  named := frame.named.named
  columns := fun c member => (columns c member).readable
  marked := fun c member primary =>
    ⟨(columns c member).named.columnar, (columns c member).marked primary⟩
  keyed := ⟨[], t.keys, ordered.keyed frame⟩
  settings := readable_settings frame.words frame.collation
  comment := frame.comment

end

end Table

/-- Does the second column say what the first one says? Its type and its default may be told in
another way, as what they are printed as. -/
structure Column.Restates (c c' : Column) : Prop where
  table : c'.table = c.table
  name : c'.name = c.name
  clause : c'.clause .mysql = c.clause .mysql
  native : Dialect.mysql.nativeType c'.type = Dialect.mysql.nativeType c.type
  length : c'.length = c.length
  nullable : c'.nullable = c.nullable
  default : c'.default = c.default.bind DefaultValue.reread
  autoIncrement : c'.autoIncrement = c.autoIncrement
  unsigned : c'.unsigned = c.unsigned
  comment : c'.comment = c.comment
  collation : c'.collation = c.collation
  primary : c'.primary = c.primary

/-- Does the second key say what the first one says? -/
structure Key.Restates (k k' : Key) : Prop where
  table : k'.table = k.table
  kind : k'.kind = k.kind
  columns : k'.columns = k.columns
  name : k'.name = k.name
  mode : k'.mode = k.mode

/-- Does the second table say what the first one says? -/
structure Table.Restates (t t' : Table) : Prop where
  name : t'.name = t.name
  columns : List.Forall₂ Column.Restates t.columns t'.columns
  keys : List.Forall₂ Key.Restates t.keys t'.keys
  primaryKey : t'.primaryKey = t.primaryKey
  options : t'.options .mysql = t.options .mysql
  engine : t'.engine = t.engine
  rowFormat : t'.rowFormat = t.rowFormat
  charset : t'.charset = t.charset
  collation : t'.collation = t.collation
  comment : t'.comment = t.comment
  mode : t'.mode = t.mode

theorem Table.Restates.exists_column? {t t' : Table} (restates : t.Restates t')
    (distinct : (t.columns.map (·.name)).Nodup) {c : Column} (member : c ∈ t.columns) :
    ∃ c', t'.column? c.name = some c' ∧ c.Restates c' := by
  have names : ∀ {cs cs' : List Column}, List.Forall₂ Column.Restates cs cs' →
      cs'.map (·.name) = cs.map (·.name) := by
    intro cs cs' pairs
    induction pairs with
    | nil => rfl
    | cons pair _ ih => rw [List.map_cons, List.map_cons, pair.name, ih]
  obtain ⟨i, bound, rfl⟩ := List.mem_iff_getElem.mp member
  have bound' : i < t'.columns.length := restates.columns.length_eq ▸ bound
  have pair := restates.columns.get bound bound'
  refine ⟨t'.columns[i], ?_, pair⟩
  have found := Table.column?_of_mem (names restates.columns ▸ distinct) (List.getElem_mem bound')
  rwa [show (t'.columns[i]).name = (t.columns[i]).name from pair.name] at found

theorem Column.restates_reread {c : Column} (readable : c.Readable) (stable : c.Stable) :
    c.Restates c.reread := by
  have native : Dialect.mysql.nativeType c.reread.type = Dialect.mysql.nativeType c.type := by
    rw [type_reread, nativeType_columnType readable.isNative.capital stable.native]
  refine
    { table := ?_, name := name_reread c, clause := clause_reread readable stable, native
      length := length_reread c, nullable := nullable_reread c, default := default_reread c
      autoIncrement := ?_, unsigned := ?_, comment := ?_, collation := ?_
      primary := primary_reread c } <;> dsimp only [reread, listed]

theorem Key.restates_reread (k : Key) : k.Restates k.reread where
  table := by unfold reread; split <;> rfl
  kind := k.kind_reread
  columns := k.columns_reread
  name := k.name_reread
  mode := by unfold reread; split <;> rfl

theorem Table.Readable.restates_reread {t : Table} (readable : t.Readable)
    (stable : ∀ c ∈ t.columns.tail, c.Stable) : t.Restates t.reread where
  name := rfl
  columns := by
    rw [reread, List.forall₂_map_right_iff, List.forall₂_same]
    intro c member
    rw [readable.implicit] at member
    rcases List.mem_cons.mp member with rfl | member
    · have other : Dialect.mysql.nativeType .integer ≠ "INTEGER" := by decide
      have first : (idColumn .mysql t.name).Stable := ⟨other, fun given => by cases given⟩
      exact Column.restates_reread (readable_idColumn t.name) first
    · exact Column.restates_reread (readable.columns c member) (stable c member)
  keys := by
    rw [reread, List.forall₂_map_right_iff, List.forall₂_same]
    exact fun k _ => k.restates_reread
  primaryKey := t.primaryKey_reread
  options := rfl
  engine := rfl
  rowFormat := rfl
  charset := rfl
  collation := rfl
  comment := rfl
  mode := rfl

theorem Table.Ordered.reads_back {t : Table} (ordered : t.Ordered) (frame : t.PlainFrame)
    (columns : ∀ c ∈ t.columns.tail, c.Kept) : ∃ ddl read,
      t.toSql .mysql = .ok ddl ∧ Dialect.mysql.readTable ddl = .ok read ∧ t.Restates read ∧
        read.toSql .mysql = .ok ddl := by
  have readable := ordered.readable frame columns
  have stable : ∀ c ∈ t.columns.tail, c.Stable := fun c member => (columns c member).stable
  obtain ⟨ddl, printed, read⟩ := readable.readTable_toSql
  have again : t.reread.toSql .mysql = .ok ddl := (readable.toSql_reread stable).trans printed
  exact ⟨ddl, t.reread, printed, read, readable.restates_reread stable, again⟩

/-- **A declared table is printed as a text that reads back as it.** Printing what was read gives
the same text again. -/
theorem made_tables_read_back {name : String} {t : Table} (made : Table.Made name t)
    (plain : t.Plain) : ∃ ddl read,
      t.toSql .mysql = .ok ddl ∧ Dialect.mysql.readTable ddl = .ok read ∧ t.Restates read ∧
        read.toSql .mysql = .ok ddl :=
  made.ordered.2.reads_back plain.frame fun c member => (plain.columns c member).kept

/-- A table with a column that has a comment, a unique key over it, and options. -/
def Table.people : Table :=
  { ((Table.created .mysql "people").putColumn
      { table := "people", name := "nick", type := .string, length := some (.size 64)
        nullable := true, comment := some "it's NOT NULL, ENGINE=x" }).addKey
      { Key.ofColumns .unique "people" ["nick"] with explicitName := none } with
    engine := some "InnoDB", rowFormat := none, charset := some "utf8mb4", collation := none
    comment := none }

theorem Table.people_made : Table.Made "people" Table.people :=
  .options (.key (.column .created rfl (by decide)) (by decide))

theorem Table.people_plain : Table.people.Plain := by
  have named : ∀ name ∈ ["people", "nick"], PlainName name := by decide
  have words : ∀ value ∈ ["InnoDB", "utf8mb4"], IsValue value.toList ∧
      afterKeyword "COLLATE".toList value.toList = none := by
    intro value member
    rcases List.mem_cons.mp member with rfl | member
    · exact ⟨⟨by decide, by decide⟩, by decide⟩
    · rw [List.mem_singleton.mp member]
      exact ⟨⟨by decide, by decide⟩, by decide⟩
  refine
    { named := named "people" (by decide), columns := fun c member => ?_, keys := fun k member => ?_
      words := fun value given => words value ?_, collation := nofun, comment := nofun }
  · rw [List.mem_singleton.mp member]
    exact
      { named := named "nick" (by decide), type := trivial, list := nofun, single := nofun
        marked := nofun, default := nofun, null := nofun, collation := nofun
        comment := fun text given => Option.some.inj given ▸ by decide }
  · rw [List.mem_singleton.mp member]
    exact ⟨nofun, fun name among => named name (List.mem_cons_of_mem _ among)⟩
  · rcases given with given | given | given
    · exact Option.some.inj given ▸ by decide
    · cases given
    · exact Option.some.inj given ▸ by decide

theorem made_tables_read_back_people : Table.Made "people" Table.people ∧ Table.people.Plain ∧
    ∃ ddl read, Table.people.toSql .mysql = .ok ddl ∧ Dialect.mysql.readTable ddl = .ok read ∧
      Table.people.Restates read ∧ read.toSql .mysql = .ok ddl :=
  ⟨Table.people_made, Table.people_plain,
    made_tables_read_back Table.people_made Table.people_plain⟩

end SqlAccess
