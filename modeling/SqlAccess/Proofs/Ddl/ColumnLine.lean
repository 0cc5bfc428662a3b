import SqlAccess.Ddl.Reader
import SqlAccess.Proofs.Ddl.Attributes
import SqlAccess.Proofs.Ddl.Types

/-!
# The line of a column

The clause that a column is printed as is a line that reads back (`Readable.readColumn_clause`): a
name between backticks, a native type with its argument, and the attributes. A native type is read
as the logical type that stands for it; `Column.listed` says what is read.
-/

namespace SqlAccess

open Ddl SqlAccess.Text

/-! ## The parts of a line -/

namespace Ddl

/-- Can the text stand between backticks as a name? -/
def IsQuotable (name : List Char) : Prop :=
  name ≠ [] ∧ '\x60' ∉ name

instance (name : List Char) : Decidable (IsQuotable name) :=
  inferInstanceAs (Decidable (_ ∧ _))

theorem backticked?_eq_some_iff {text name rest : List Char} :
    backticked? text = some (name, rest) ↔
      IsQuotable name ∧ text = '\x60' :: (name ++ '\x60' :: rest) := by
  constructor
  · intro h
    unfold backticked? at h
    split at h
    next cs =>
      split at h
      next before after found =>
        obtain ⟨rfl, absent⟩ := splitOnce_eq_some found
        split at h
        next => cases h
        next filled =>
          cases h
          exact ⟨⟨fun empty => filled (List.isEmpty_iff.mpr empty), absent⟩, rfl⟩
      next => cases h
    next => cases h
  · rintro ⟨⟨filled, absent⟩, rfl⟩
    rw [backticked?, splitOnce_append absent]
    exact if_neg fun empty => filled (List.isEmpty_iff.mp empty)

/-- An argument between parentheses, if there is one. -/
def enclosedArgument : Option (List Char) → List Char
  | none => []
  | some argument => '(' :: argument ++ [')']

theorem argument?_append {argument : Option (List Char)} (plain : ∀ text ∈ argument, ')' ∉ text)
    {rest : List Char} (spaced : ∀ c ∈ rest.head?, c = ' ') :
    argument? (enclosedArgument argument ++ rest) = (argument, rest) := by
  cases argument with
  | none =>
    cases rest with
    | nil => rfl
    | cons c rest =>
      obtain rfl := spaced c rfl
      rfl
  | some text =>
    rw [enclosedArgument, List.cons_append, List.cons_append, List.append_assoc,
      List.singleton_append, argument?, splitOnce_append (plain text rfl)]

/-- A line is taken apart into a name, white space, the letters of a type, and what is behind. -/
theorem columnLine?_eq_some_iff {line : List Char} {parts : ColumnLine} :
    columnLine? line = some parts ↔ ∃ name blanks native behind,
      line = '\x60' :: (name ++ '\x60' :: (blanks ++ (native ++ behind))) ∧ IsQuotable name ∧
        (blanks ≠ [] ∧ ∀ c ∈ blanks, isBlank c = true) ∧
        (native ≠ [] ∧ (∀ c ∈ native, c.isAlpha = true) ∧ ∀ c ∈ behind.head?, c.isAlpha = false) ∧
        parts = { name := String.ofList name, native, argument := (argument? behind).1
                  attributes := (argument? behind).2 } := by
  unfold columnLine?
  rw [Option.bind_eq_bind, Option.bind_eq_some_iff]
  constructor
  · rintro ⟨⟨name, rest⟩, named, read⟩
    obtain ⟨quotable, rfl⟩ := backticked?_eq_some_iff.mp named
    dsimp only at read
    split at read
    next => cases read
    next spaced =>
      split at read
      next => cases read
      next filled =>
        have blanks : rest.takeWhile isBlank ≠ [] := by
          cases rest with
          | nil => exact absurd rfl spaced
          | cons c rest =>
            have blank : isBlank c = true := by simpa using spaced
            rw [List.takeWhile_cons, if_pos blank]
            exact List.cons_ne_nil _ _
        refine ⟨name, rest.takeWhile isBlank, _, _, ?_, quotable,
          ⟨blanks, List.all_eq_true.mp List.all_takeWhile⟩,
          ⟨fun empty => filled (List.isEmpty_iff.mpr empty),
            List.all_eq_true.mp List.all_takeWhile, stop_dropWhile _ _⟩,
          (Option.some.inj read).symm⟩
        rw [List.takeWhile_append_dropWhile, List.takeWhile_append_dropWhile]
  · rintro ⟨name, blanks, native, behind, rfl, quotable, ⟨spaced, blank⟩,
      ⟨filled, letters, stop⟩, rfl⟩
    refine ⟨_, backticked?_eq_some_iff.mpr ⟨quotable, rfl⟩, ?_⟩
    have visible : ∀ c ∈ (native ++ behind).head?, isBlank c = false := by
      intro c first
      cases native with
      | nil => exact absurd rfl filled
      | cons d native =>
        obtain rfl : d = c := Option.some.inj first
        exact isBlank_of_isAlpha (letters d List.mem_cons_self)
    have start : (blanks ++ (native ++ behind)).head?.any isBlank = true := by
      cases blanks with
      | nil => exact absurd rfl spaced
      | cons c blanks => exact blank c List.mem_cons_self
    simp only [start, dropWhile_append_of_stop blank visible, takeWhile_append_of_stop letters stop,
      dropWhile_append_of_stop letters stop, List.isEmpty_eq_false_iff.mpr filled]
    rfl

/-- A line that starts with a name and a type is taken apart there. -/
theorem columnLine?_append {name : String} (named : Named name) {native : List Char}
    (isNative : IsNative native) {rest : List Char} (stop : ∀ c ∈ rest.head?, c.isAlpha = false) :
    columnLine? ((Dialect.mysql.identifier name).toList ++ ' ' :: (native ++ rest)) =
      some { name, native, argument := (argument? rest).1, attributes := (argument? rest).2 } := by
  have letters : ∀ c ∈ native, c.isAlpha = true := fun c member =>
    isAlpha_iff.mpr (.inl (isNative.capital c member))
  have quotable : IsQuotable name.toList :=
    ⟨fun empty => named.ne_empty (String.toList_eq_nil_iff.mp empty),
      fun member => (named.plain _ member).1 rfl⟩
  refine columnLine?_eq_some_iff.mpr ⟨name.toList, [' '], native, rest, ?_, quotable,
    ⟨List.cons_ne_nil _ _, by decide⟩, ⟨isNative.ne_nil, letters, stop⟩, ?_⟩
  · rw [named.identifier, List.append_assoc, List.cons_append]
    rfl
  · rw [String.ofList_toList]

theorem columnLine?_eq_none {line : List Char} (other : line.head? ≠ some '\x60') :
    columnLine? line = none := by
  have unnamed : backticked? line = none := by
    unfold backticked?
    split
    next => exact absurd rfl other
    next => rfl
  rw [columnLine?, unnamed]
  rfl

theorem head?_of_columnLine? {line : List Char} {parts : ColumnLine}
    (h : columnLine? line = some parts) : line.head? = some '\x60' := by
  by_cases named : line.head? = some '\x60'
  · exact named
  · rw [columnLine?_eq_none named] at h
    cases h

/-- The column that a line starts with, before its attributes. -/
def ColumnLine.bare (line : ColumnLine) (d : Dialect) (table : String) (length : Option Length) :
    Column :=
  { table, name := line.name, length, nullable := true
    type := d.columnType (String.ofList line.native) length }

/-- **A line is a column** when its argument is a length, if it has one, and its attributes can be
read. -/
theorem ColumnLine.column?_eq_some_iff {line : ColumnLine} {d : Dialect} {table : String}
    {c : Column} : line.column? d table = some c ↔ ∃ length attributes,
      line.argument.map (length? line.native) = length.map some ∧
        attributes? (tokens line.attributes) = some attributes ∧
        c = attributes.foldl Attribute.apply (line.bare d table length) := by
  have behind : ∀ length, ((attributes? (tokens line.attributes)).bind fun attributes =>
      some (attributes.foldl Attribute.apply (line.bare d table length))) = some c ↔
        ∃ attributes, attributes? (tokens line.attributes) = some attributes ∧
          c = attributes.foldl Attribute.apply (line.bare d table length) := by
    intro length
    rw [Option.bind_eq_some_iff]
    simp only [Option.some.injEq, eq_comm]
  unfold ColumnLine.column?
  cases line.argument with
  | none =>
    constructor
    · intro h
      exact ⟨none, ((behind none).mp h).imp fun attributes told => ⟨rfl, told⟩⟩
    · rintro ⟨length, attributes, argued, told⟩
      cases length with
      | some length => cases argued
      | none => exact (behind none).mpr ⟨attributes, told⟩
  | some text =>
    constructor
    · intro h
      dsimp only at h
      cases read : length? line.native text with
      | none =>
        rw [read] at h
        cases h
      | some length =>
        rw [read] at h
        exact ⟨some length, ((behind (some length)).mp h).imp fun attributes told =>
          ⟨congrArg some read, told⟩⟩
    · rintro ⟨length, attributes, argued, told⟩
      cases length with
      | none => cases argued
      | some length =>
        have read : length? line.native text = some length := Option.some.inj argued
        dsimp only
        rw [read]
        exact (behind (some length)).mpr ⟨attributes, told⟩

/-- Attributes leave the name and the type of a column alone, and never mark it. -/
theorem Column.foldl_apply_eq (c : Column) (as : List Attribute) :
    (as.foldl Attribute.apply c).table = c.table ∧ (as.foldl Attribute.apply c).name = c.name ∧
      (as.foldl Attribute.apply c).type = c.type ∧ (as.foldl Attribute.apply c).length = c.length ∧
      (as.foldl Attribute.apply c).primary = c.primary := by
  induction as generalizing c with
  | nil => exact ⟨rfl, rfl, rfl, rfl, rfl⟩
  | cons a as ih =>
    have more := ih (a.apply c)
    have same : (a.apply c).table = c.table ∧ (a.apply c).name = c.name ∧
        (a.apply c).type = c.type ∧ (a.apply c).length = c.length ∧
        (a.apply c).primary = c.primary := by
      cases a <;> exact ⟨rfl, rfl, rfl, rfl, rfl⟩
    rwa [same.1, same.2.1, same.2.2.1, same.2.2.2.1, same.2.2.2.2] at more

theorem ColumnLine.column?_own {line : ColumnLine} {d : Dialect} {table : String} {c : Column}
    (h : line.column? d table = some c) :
    c.table = table ∧ c.name = line.name ∧ c.primary = false := by
  obtain ⟨length, attributes, -, -, rfl⟩ := column?_eq_some_iff.mp h
  obtain ⟨table, name, -, -, primary⟩ :=
    Column.foldl_apply_eq (line.bare d table length) attributes
  exact ⟨table, name, primary⟩

/-- **What reading a column does**: the column that every table has is passed over, and any other
is put into the table. -/
theorem readColumn_eq_some_iff {d : Dialect} {t t' : Table} {line : List Char} :
    readColumn d t line = some t' ↔ ∃ parts, columnLine? line = some parts ∧
      ((parts.name = Table.implicitId ∧ t' = t) ∨
        (parts.name ≠ Table.implicitId ∧
          ∃ c, parts.column? d t.name = some c ∧ t' = t.putColumn c)) := by
  rw [readColumn, Option.bind_eq_bind, Option.bind_eq_some_iff]
  refine exists_congr fun parts => and_congr_right fun _ => ?_
  split
  next implicit =>
    rw [or_iff_left fun other => other.1 implicit, and_iff_right implicit, Option.some.injEq,
      eq_comm]
  next other =>
    rw [or_iff_right fun implicit => other implicit.1, Option.map_eq_some_iff, and_iff_right other]
    exact exists_congr fun c => and_congr_right fun _ => eq_comm

/-- The argument of a line is what is read as the length of its type. -/
theorem ColumnLine.column?_typed {line : ColumnLine} {d : Dialect} {table : String} {c : Column}
    (h : line.column? d table = some c) :
    c.type = d.columnType (String.ofList line.native) c.length ∧
      line.argument.map (length? line.native) = c.length.map some := by
  obtain ⟨length, attributes, argued, -, rfl⟩ := column?_eq_some_iff.mp h
  obtain ⟨-, -, type, same, -⟩ :=
    Column.foldl_apply_eq (line.bare d table length) attributes
  rw [type, same]
  exact ⟨rfl, argued⟩

/-- A default that attributes give is in one of them. -/
theorem Column.default_foldl_apply (c : Column) (as : List Attribute) :
    (as.foldl Attribute.apply c).default = c.default ∨
      .default (as.foldl Attribute.apply c).default ∈ as := by
  induction as generalizing c with
  | nil => exact .inl rfl
  | cons a as ih =>
    rcases ih (a.apply c) with same | member
    · cases a with
      | default value =>
        refine .inr ?_
        rw [List.foldl_cons, same]
        exact List.mem_cons_self
      | unsigned | autoIncrement | notNull | collation name | comment text => exact .inl same
    · exact .inr (List.mem_cons_of_mem a member)

/-- **An expression that is read as a default is one token of its line**, and not the null value. -/
theorem ColumnLine.column?_expression {line : ColumnLine} {d : Dialect} {table sql : String}
    {c : Column} (h : line.column? d table = some c) (given : c.default = some (.expression sql)) :
    sql.toList ∈ tokens line.attributes ∧ isWord "NULL" sql.toList = false := by
  obtain ⟨length, attributes, -, found, rfl⟩ := column?_eq_some_iff.mp h
  rcases Column.default_foldl_apply (line.bare d table length) attributes with same | member
  · rw [given] at same
    cases same
  · rw [given] at member
    obtain ⟨word, inside, told⟩ := attributes?_toldBy found _ member
    unfold defaultOf at told
    split at told
    next => cases told
    next =>
      split at told
      next => cases told
      next notNull =>
        obtain rfl := DefaultValue.expression.inj (Option.some.inj told)
        rw [String.toList_ofList]
        exact ⟨inside, Bool.eq_false_iff.mpr notNull⟩

end Ddl

/-! ## The line of a column -/

namespace Column

/-- What the line of a column tells of it. -/
def listed (c : Column) : Column :=
  { table := c.table, name := c.name
    type := Dialect.mysql.columnType (Dialect.mysql.nativeType c.type) c.length
    length := c.length, nullable := c.nullable, default := c.default.bind DefaultValue.reread
    autoIncrement := c.autoIncrement, unsigned := c.unsigned, comment := c.comment
    collation := c.collation }

/-- What stands behind the type in the clause of a column. -/
def behind (c : Column) : List Char :=
  enclosedArgument (c.length.map argument) ++
    (c.attributes.flatMap Attribute.tokens).flatMap (' ' :: ·)

/-- The parts of the line of a column. -/
def line (c : Column) : ColumnLine :=
  { name := c.name, native := (Dialect.mysql.nativeType c.type).toList
    argument := (argument? c.behind).1, attributes := (argument? c.behind).2 }

/-- Is the clause of the column a line, with its name and its type in front? -/
structure Legible (c : Column) : Prop where
  named : Named c.name
  isNative : IsNative (Dialect.mysql.nativeType c.type).toList
  oneLine : ∀ length ∈ c.length, '\n' ∉ argument length
  words : ∀ token ∈ c.attributes.flatMap Attribute.tokens, EndsLine token

/-- Is the clause of the column a line that reads back? -/
structure Readable (c : Column) : Prop where
  named : Named c.name
  isNative : IsNative (Dialect.mysql.nativeType c.type).toList
  fits : ∀ length ∈ c.length, Fits (Dialect.mysql.nativeType c.type).toList length
  attributes : ∀ a ∈ c.attributes, a.Readable

theorem toList_clause (c : Column) : (c.clause .mysql).toList =
    (Dialect.mysql.identifier c.name).toList ++
      ' ' :: ((Dialect.mysql.nativeType c.type).toList ++ c.behind) := by
  have type : (Dialect.mysql.typeSql c.type c.length).toList =
      (Dialect.mysql.nativeType c.type).toList ++ enclosedArgument (c.length.map argument) := by
    rw [Dialect.typeSql, String.toList_append]
    cases c.length with
    | none => rfl
    | some length => exact congrArg _ (toList_lengthSql length)
  rw [behind, ← flatMap_words, clause]
  simp only [List.cons_append, List.nil_append, List.append_assoc]
  rw [toList_joined_cons, List.flatMap_cons, type]
  simp only [List.append_assoc]
  rfl

/-- Attributes have a blank in front of them. -/
theorem head?_flatMap_blank (words : List (List Char)) :
    ∀ ch ∈ (words.flatMap (' ' :: ·)).head?, ch = ' ' := by
  intro ch first
  cases words with
  | nil => cases first
  | cons word words => exact (Option.some.inj first).symm

/-- **The line of a column is taken apart** into its parts. -/
theorem columnLine?_clause {c : Column} (named : Named c.name)
    (isNative : IsNative (Dialect.mysql.nativeType c.type).toList) :
    columnLine? (c.clause .mysql).toList = some c.line := by
  have stop : ∀ ch ∈ c.behind.head?, ch.isAlpha = false := by
    intro ch first
    rw [behind] at first
    cases given : c.length with
    | none =>
      rw [given] at first
      rw [head?_flatMap_blank _ ch first]
      decide
    | some length =>
      rw [given] at first
      obtain rfl : '(' = ch := Option.some.inj first
      decide
  rw [toList_clause, columnLine?_append named isNative stop, line]

section

variable {c : Column} (readable : c.Readable)

include readable

theorem Readable.legible : c.Legible where
  named := readable.named
  isNative := readable.isNative
  oneLine := fun length given => not_mem_argument (readable.fits length given) (.inr rfl)
  words := by
    intro token member
    obtain ⟨a, inside, part⟩ := List.mem_flatMap.mp member
    exact (Attribute.isWord_tokens (readable.attributes a inside) token part).endsLine

/-- **The line of a column is read as the column.** -/
theorem Readable.column?_line : c.line.column? .mysql c.table = some c.listed := by
  have plain : ∀ text ∈ c.length.map argument, ')' ∉ text := by
    intro text member
    obtain ⟨length, inside, rfl⟩ := Option.map_eq_some_iff.mp member
    exact not_mem_argument (readable.fits length inside) (.inl rfl)
  have parts : argument? c.behind = (c.length.map argument,
      (c.attributes.flatMap Attribute.tokens).flatMap (' ' :: ·)) :=
    argument?_append plain (head?_flatMap_blank _)
  have argued : (c.length.map argument).map (length? (Dialect.mysql.nativeType c.type).toList) =
      c.length.map some := by
    cases given : c.length with
    | none => rfl
    | some length => exact congrArg some (length?_argument (readable.fits length given))
  have attributes : attributes? (tokens ((c.attributes.flatMap Attribute.tokens).flatMap
      (' ' :: ·))) = some (c.attributes.map Attribute.reread) := by
    rw [tokens_flatMap, attributes?_flatMap_tokens readable.attributes]
    intro token member
    obtain ⟨a, inside, part⟩ := List.mem_flatMap.mp member
    exact (Attribute.isWord_tokens (readable.attributes a inside) token part).toIsToken
  rw [ColumnLine.column?_eq_some_iff, line, parts]
  refine ⟨c.length, _, argued, attributes, ?_⟩
  rw [ColumnLine.bare, String.ofList_toList, foldl_apply_attributes]
  unfold listed
  rfl

/-- **The line of a column reads back.** -/
theorem Readable.readColumn_clause {t : Table} (other : c.name ≠ Table.implicitId)
    (own : c.table = t.name) :
    readColumn .mysql t (c.clause .mysql).toList = some (t.putColumn c.listed) := by
  have column : c.line.column? .mysql t.name = some c.listed := own ▸ readable.column?_line
  exact readColumn_eq_some_iff.mpr ⟨_, columnLine?_clause readable.named readable.isNative,
    .inr ⟨other, _, column, rfl⟩⟩

/-- The line of the column that every table starts with changes nothing. -/
theorem Readable.readColumn_clause_of_implicit (t : Table) (implicit : c.name = Table.implicitId) :
    readColumn .mysql t (c.clause .mysql).toList = some t :=
  readColumn_eq_some_iff.mpr ⟨_, columnLine?_clause readable.named readable.isNative,
    .inl ⟨implicit, rfl⟩⟩

end

/-- The clause of a column is one line. -/
theorem Legible.solid_clause {c : Column} (legible : c.Legible) :
    Solid (c.clause .mysql).toList := by
  have named := legible.named
  have isNative := legible.isNative
  rw [toList_clause, behind]
  generalize (Dialect.mysql.nativeType c.type).toList = native at isNative ⊢
  have ending : ∀ ch ∈ (native ++ enclosedArgument (c.length.map argument)).getLast?,
      isBlank ch = false ∧ ch ≠ ',' := by
    intro ch last
    cases given : c.length with
    | none =>
      rw [given, Option.map_none, enclosedArgument, List.append_nil] at last
      have upper := isNative.capital ch (List.mem_of_getLast? last)
      refine ⟨isBlank_of_isUpper upper, ?_⟩
      rintro rfl
      exact absurd upper (by decide)
    | some length =>
      rw [given, Option.map_some, enclosedArgument, ← List.append_assoc,
        List.getLast?_concat] at last
      obtain rfl := Option.some.inj last
      exact ⟨by decide, by decide⟩
  have oneLine : '\n' ∉ enclosedArgument (c.length.map argument) := by
    cases given : c.length with
    | none => exact List.not_mem_nil
    | some length => simp [enclosedArgument, legible.oneLine length given]
  have start : Solid ((Dialect.mysql.identifier c.name).toList ++
      ' ' :: (native ++ enclosedArgument (c.length.map argument))) := by
    rw [named.identifier]
    refine ⟨by simp, ?_, fun ch first => Option.some.inj first ▸ by decide, ?_⟩
    · simp only [List.mem_append, List.mem_cons, List.not_mem_nil, not_or]
      exact ⟨⟨⟨by decide, fun inside => (named.plain _ inside).2.2 rfl⟩, by decide, not_false⟩,
        by decide, fun inside => absurd (isNative.capital _ inside) (by decide), oneLine⟩
    · cases native with
      | nil => exact absurd rfl isNative.ne_nil
      | cons d native =>
        rw [List.getLast?_append, List.cons_append, List.getLast?_cons_cons, List.getLast?_cons]
        exact fun ch last => ending ch (by rwa [List.cons_append, List.getLast?_cons])
  have whole := start.append_words legible.words
  rwa [List.append_assoc, List.cons_append, List.append_assoc] at whole

end Column

end SqlAccess
