import SqlAccess.Proofs.Ddl.RoundTrip

/-!
# Columns that were read

What a column that was read can be: a name and words from one line, a type that was looked up, and a
default that is a text, an expression, or none (`Column.Scanned`). Such a column is read as itself
again (`Column.Scanned.reread_eq`): everything that printing and reading would tell in another way
is told in that way already.
-/

namespace SqlAccess

open Ddl SqlAccess.Text

namespace Ddl

/-! ## Pieces of a line -/

theorem backticked?_eq_some {text name rest : List Char} (h : backticked? text = some (name, rest)) :
    name ≠ [] ∧ (∀ c ∈ name, c ≠ '\x60' ∧ c ∈ text) ∧ ∀ c ∈ rest, c ∈ text := by
  obtain ⟨⟨filled, absent⟩, rfl⟩ := backticked?_eq_some_iff.mp h
  refine ⟨filled, fun c member => ⟨?_, ?_⟩, fun c member => ?_⟩
  · rintro rfl
    exact absent member
  · exact List.mem_cons_of_mem _ (List.mem_append_left _ member)
  · exact List.mem_cons_of_mem _ (List.mem_append_right _ (List.mem_cons_of_mem _ member))

/-- The tokens of a line are filled, and made of its characters. -/
theorem mem_tokens {line word : List Char} (h : word ∈ tokens line) :
    word ≠ [] ∧ ∀ c ∈ word, c ∈ line :=
  ⟨ne_nil_of_mem_tokens h, (spaced_tokens line).mem_line h⟩

end Ddl

/-! ## Attributes -/

/-- Is the default a text, or an expression that is read as one? -/
def DefaultValue.Scanned : DefaultValue → Prop
  | .text _ => True
  | .expression sql => sql ≠ "" ∧ '\n' ∉ sql.toList ∧ literal? sql.toList = none ∧
      isWord "NULL" sql.toList = false
  | _ => False

/-- Is the name a word of one line? -/
def WordOfLine (name : String) : Prop :=
  name ≠ "" ∧ '\n' ∉ name.toList

namespace Ddl

/-- Is the attribute one that is read from a line? -/
def Attribute.Scanned : Attribute → Prop
  | .default value => ∀ default ∈ value, default.Scanned
  | .collation name => WordOfLine name
  | .unsigned | .autoIncrement | .notNull | .comment _ => True

theorem wordOfLine_ofList {word : List Char} (filled : word ≠ []) (oneLine : '\n' ∉ word) :
    WordOfLine (String.ofList word) := by
  refine ⟨fun empty => filled ?_, by rwa [String.toList_ofList]⟩
  rw [← String.toList_ofList (l := word), empty]
  rfl

theorem scanned_defaultOf {word : List Char} (filled : word ≠ []) (oneLine : '\n' ∉ word) :
    (Attribute.default (defaultOf word)).Scanned := by
  intro default given
  unfold defaultOf at given
  split at given
  next text quoted =>
    obtain rfl := Option.some.inj given
    trivial
  next notText =>
    split at given
    next => cases given
    next notNull =>
      obtain rfl := Option.some.inj given
      obtain ⟨filled', oneLine'⟩ := wordOfLine_ofList filled oneLine
      refine ⟨filled', oneLine', ?_, ?_⟩
      · rwa [String.toList_ofList]
      · rw [String.toList_ofList]
        exact Bool.eq_false_iff.mpr notNull

/-- The attributes that words of one line stand for are ones that are read from a line. -/
theorem attributes?_scanned {words : List (List Char)} {as : List Attribute}
    (all : ∀ word ∈ words, word ≠ [] ∧ '\n' ∉ word) (h : attributes? words = some as) :
    ∀ a ∈ as, a.Scanned := by
  intro a member
  have told := attributes?_toldBy h a member
  cases a with
  | default value =>
    obtain ⟨word, inside, rfl⟩ := told
    exact scanned_defaultOf (all word inside).1 (all word inside).2
  | collation name =>
    obtain ⟨word, inside, rfl⟩ := told
    exact wordOfLine_ofList (all word inside).1 (all word inside).2
  | unsigned | autoIncrement | notNull | comment text => trivial

/-! ## Types -/

/-- Does the length have the form that is read behind the native type? -/
def Suits (native : List Char) : Length → Prop
  | .values _ => isWord "ENUM" native = true ∨ isWord "SET" native = true
  | .size _ | .precision _ _ => isWord "ENUM" native = false ∧ isWord "SET" native = false

theorem suits_length? {native argument : List Char} {length : Length}
    (h : length? native argument = some length) : Suits native length := by
  unfold length? at h
  split at h
  next listing => exact Option.some.inj h ▸ listing
  next single =>
    have apart : isWord "ENUM" native = false ∧ isWord "SET" native = false := by
      simpa only [not_or, Bool.not_eq_true] using single
    split at h
    next =>
      obtain ⟨n, -, rfl⟩ := Option.map_eq_some_iff.mp h
      exact apart
    next =>
      split at h
      next => exact Option.some.inj h ▸ apart
      next => cases h

theorem asciiUppercase_idem {native : List Char} (letters : ∀ c ∈ native, c.isAlpha = true) :
    asciiUppercase (asciiUppercase native) = asciiUppercase native :=
  asciiUppercase_of_isUpper (isUpper_asciiUppercase letters)

/-- What is read for a native type depends on its capitals. -/
theorem columnType_asciiUppercase {native : List Char} (letters : ∀ c ∈ native, c.isAlpha = true)
    (length : Option Length) :
    Dialect.mysql.columnType (String.ofList (asciiUppercase native)) length =
      Dialect.mysql.columnType (String.ofList native) length := by
  unfold Dialect.columnType
  rw [String.toList_ofList, String.toList_ofList, asciiUppercase_idem letters]

theorem columnType_integer {word : String} (integer : word = "INTEGER" ∨ word = "INT")
    (length : Option Length) : Dialect.mysql.columnType word length = .integer := by
  have capitals : String.ofList (asciiUppercase word.toList) ≠ "TINYINT" ∧
      (Dialect.mysql.typeReadings.lookup (String.ofList (asciiUppercase word.toList))).getD
        (.other (String.ofList (asciiUppercase word.toList))) = .integer := by
    rcases integer with rfl | rfl <;> exact ⟨by decide, by decide⟩
  unfold Dialect.columnType
  dsimp only
  rw [if_neg fun boolean => capitals.1 boolean.2.1]
  exact capitals.2

theorem isWord_eq_true_iff {word : String} {token : List Char} :
    isWord word token = true ↔ String.ofList (asciiUppercase token) = word := by
  rw [isWord, beq_iff_eq, ← String.toList_inj, String.toList_ofList]

/-- A type that was read is printed in capitals, `INTEGER` aside. -/
theorem nativeType_of_letters {native : List Char} (letters : ∀ c ∈ native, c.isAlpha = true)
    (length : Option Length) :
    Dialect.mysql.nativeType (Dialect.mysql.columnType (String.ofList native) length) =
      if isWord "INTEGER" native then "INT" else String.ofList (asciiUppercase native) := by
  rw [← columnType_asciiUppercase letters]
  split
  next integer =>
    rw [columnType_integer (.inl (isWord_eq_true_iff.mp integer))]
    rfl
  next other =>
    refine nativeType_columnType ?_ (fun same => other (isWord_eq_true_iff.mpr same)) length
    rw [String.toList_ofList]
    exact isUpper_asciiUppercase letters

/-- **A type that was read is read again** from what it is printed as. -/
theorem columnType_nativeType {native : List Char} (letters : ∀ c ∈ native, c.isAlpha = true)
    (length : Option Length) :
    Dialect.mysql.columnType
      (Dialect.mysql.nativeType (Dialect.mysql.columnType (String.ofList native) length)) length =
        Dialect.mysql.columnType (String.ofList native) length := by
  rw [nativeType_of_letters letters]
  split
  next integer =>
    rw [← columnType_asciiUppercase letters, columnType_integer (.inr rfl),
      columnType_integer (.inl (isWord_eq_true_iff.mp integer))]
  next => exact columnType_asciiUppercase letters length

theorem isNative_nativeType {native : List Char} (filled : native ≠ [])
    (letters : ∀ c ∈ native, c.isAlpha = true) (length : Option Length) :
    IsNative (Dialect.mysql.nativeType
      (Dialect.mysql.columnType (String.ofList native) length)).toList := by
  rw [nativeType_of_letters letters]
  split
  next => exact ⟨by decide, by decide⟩
  next =>
    rw [String.toList_ofList]
    exact ⟨fun empty => filled (List.map_eq_nil_iff.mp empty), isUpper_asciiUppercase letters⟩

/-- A length suits the printed type as it suited the one that was read. -/
theorem suits_nativeType {native : List Char} (letters : ∀ c ∈ native, c.isAlpha = true)
    {length : Length} (suits : Suits native length) (length' : Option Length) :
    Suits (Dialect.mysql.nativeType
      (Dialect.mysql.columnType (String.ofList native) length')).toList length := by
  have word : ∀ word ∈ ["ENUM", "SET"], isWord word (Dialect.mysql.nativeType
      (Dialect.mysql.columnType (String.ofList native) length')).toList = isWord word native := by
    intro word listing
    rw [nativeType_of_letters letters]
    split
    next integer =>
      have left : isWord word "INT".toList = false := by
        revert word
        decide
      have right : isWord word native = false := by
        refine Bool.eq_false_iff.mpr fun same => ?_
        have both := (isWord_eq_true_iff.mp same).symm.trans (isWord_eq_true_iff.mp integer)
        rw [both] at listing
        exact absurd listing (by decide)
      rw [left, right]
    next =>
      rw [isWord, String.toList_ofList, asciiUppercase_idem letters]
      rfl
  have enum := word "ENUM" (by decide)
  have set := word "SET" (by decide)
  cases length with
  | values texts =>
    rw [Suits, enum, set]
    exact suits
  | size n =>
    rw [Suits, enum, set]
    exact suits
  | precision digits scale =>
    rw [Suits, enum, set]
    exact suits

end Ddl

/-! ## Columns -/

/-- Is the name filled, without backticks, and on one line? -/
def ScannedName (name : String) : Prop :=
  name ≠ "" ∧ ∀ c ∈ name.toList, c ≠ '\x60' ∧ c ≠ '\n'

namespace Column

/-- What a column can be that was read from a line. -/
structure Scanned (c : Column) : Prop where
  named : ScannedName c.name
  typed : ∃ native : List Char, native ≠ [] ∧ (∀ ch ∈ native, ch.isAlpha = true) ∧
    c.type = Dialect.mysql.columnType (String.ofList native) c.length ∧
    ∀ length ∈ c.length, Suits native length
  default : ∀ value ∈ c.default, value.Scanned
  collation : ∀ name ∈ c.collation, WordOfLine name
  after : c.after = none
  created : c.mode = .create

theorem Scanned.apply {c : Column} (scanned : c.Scanned) {a : Attribute} (read : a.Scanned) :
    (a.apply c).Scanned := by
  cases a with
  | unsigned => exact { scanned with }
  | autoIncrement => exact { scanned with }
  | notNull => exact { scanned with }
  | default value => exact { scanned with default := read }
  | collation name =>
    exact { scanned with collation := fun name' given => Option.some.inj given ▸ read }
  | comment text => exact { scanned with }

theorem Scanned.foldl_apply {c : Column} (scanned : c.Scanned) {as : List Attribute}
    (read : ∀ a ∈ as, a.Scanned) : (as.foldl Attribute.apply c).Scanned := by
  induction as generalizing c with
  | nil => exact scanned
  | cons a as ih =>
    exact ih (scanned.apply (read a List.mem_cons_self)) fun b member =>
      read b (List.mem_cons_of_mem a member)

theorem Scanned.asPrimary {c : Column} (scanned : c.Scanned) : c.asPrimary.Scanned :=
  { scanned with }

end Column

namespace Ddl

theorem mem_argument? {text : List Char} {c : Char} (h : c ∈ (argument? text).2) : c ∈ text := by
  unfold argument? at h
  split at h
  next cs =>
    split at h
    next argument rest found =>
      obtain ⟨rfl, -⟩ := splitOnce_eq_some found
      exact List.mem_cons_of_mem _ (List.mem_append_right _ (List.mem_cons_of_mem _ h))
    next => exact h
  next => exact h

theorem columnLine?_eq_some {line : List Char} {parts : ColumnLine}
    (h : columnLine? line = some parts) (oneLine : '\n' ∉ line) :
    ScannedName parts.name ∧ parts.native ≠ [] ∧ (∀ c ∈ parts.native, c.isAlpha = true) ∧
      '\n' ∉ parts.attributes := by
  obtain ⟨name, blanks, native, behind, rfl, quotable, -, ⟨filled, letters, -⟩, rfl⟩ :=
    columnLine?_eq_some_iff.mp h
  simp only [List.mem_cons, List.mem_append, not_or] at oneLine
  obtain ⟨-, name', -, -, -, behind'⟩ := oneLine
  refine ⟨⟨?_, ?_⟩, filled, letters, fun feed => behind' (mem_argument? feed)⟩
  · exact fun empty => quotable.1 (String.ofList_eq_empty_iff.mp empty)
  · rw [String.toList_ofList]
    intro c member
    refine ⟨?_, ?_⟩ <;> rintro rfl
    · exact quotable.2 member
    · exact name' member

theorem ColumnLine.column?_eq_some {parts : ColumnLine} {table : String} {c : Column}
    (h : parts.column? .mysql table = some c) (named : ScannedName parts.name)
    (filled : parts.native ≠ []) (letters : ∀ c ∈ parts.native, c.isAlpha = true)
    (oneLine : '\n' ∉ parts.attributes) :
    c.Scanned ∧ c.table = table ∧ c.name = parts.name ∧ c.primary = false := by
  have words : ∀ word ∈ tokens parts.attributes, word ≠ [] ∧ '\n' ∉ word := by
    intro word member
    obtain ⟨filled, inside⟩ := mem_tokens member
    exact ⟨filled, fun feed => oneLine (inside _ feed)⟩
  obtain ⟨length, as, argued, found, rfl⟩ := ColumnLine.column?_eq_some_iff.mp h
  have suits : ∀ l ∈ length, Suits parts.native l := by
    rintro l given
    obtain rfl : length = some l := given
    obtain ⟨argument, -, read⟩ := Option.map_eq_some_iff.mp argued
    exact suits_length? read
  have start : (parts.bare .mysql table length).Scanned :=
    { named, typed := ⟨parts.native, filled, letters, rfl, suits⟩, default := nofun
      collation := nofun, after := rfl, created := rfl }
  exact ⟨start.foldl_apply (attributes?_scanned words found), ColumnLine.column?_own h⟩

/-- **A column that was read** is a scanned one of its table, not the first one, and not marked. -/
theorem readColumn_eq_some {t t' : Table} {line : List Char}
    (h : readColumn .mysql t line = some t') (oneLine : '\n' ∉ line) :
    t' = t ∨ ∃ c, t' = t.putColumn c ∧ c.Scanned ∧ c.table = t.name ∧
      c.name ≠ Table.implicitId ∧ c.primary = false := by
  obtain ⟨parts, found, ⟨-, same⟩ | ⟨other, c, column, rfl⟩⟩ := readColumn_eq_some_iff.mp h
  · exact .inl same
  · obtain ⟨named, filled, letters, oneLine'⟩ := columnLine?_eq_some found oneLine
    obtain ⟨scanned, table, name, primary⟩ :=
      ColumnLine.column?_eq_some column named filled letters oneLine'
    exact .inr ⟨c, rfl, scanned, table, by rwa [name], primary⟩

end Ddl

namespace Column

/-- **A column that was read is read as itself again.** -/
theorem Scanned.reread_eq {c : Column} (scanned : c.Scanned) : c.reread = c := by
  obtain ⟨native, -, letters, type, -⟩ := scanned.typed
  have same : Dialect.mysql.columnType (Dialect.mysql.nativeType c.type) c.length = c.type := by
    rw [type, columnType_nativeType letters]
  have default : c.default.bind DefaultValue.reread = c.default := by
    have each := scanned.default
    cases given : c.default with
    | none => rfl
    | some value =>
      have read := each value given
      cases value with
      | text s => rfl
      | expression sql => rfl
      | null | bool | int | float => exact absurd read id
  have after := scanned.after
  have created := scanned.created
  unfold reread listed
  rw [same, default]
  obtain ⟨table, name, type, length, nullable, value, autoIncrement, unsigned, comment, collation,
    place, primary, mode⟩ := c
  dsimp only at after created
  rw [after, created]

end Column

end SqlAccess
