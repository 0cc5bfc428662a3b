import SqlAccess.Proofs.Ddl.ColumnLine
import SqlAccess.Proofs.Ddl.KeyLine

/-!
# The shapes of lines

Which lines of a table definition can be read is told by their shapes: the opening line is the
keywords, a name and a parenthesis (`isSome_opening?_iff`); a column is a name, a type with an
argument or without, and words of which some take the word behind them (`isSome_readColumn_iff`); a
key is its keywords, a name where it has one, and a list between parentheses (`isSome_readKey_iff`).
None of this depends on the table that has been read so far. So the line tells which step the
reading takes (`Progress.finish_eq_some_iff`, `Progress.next_columns_eq_some_iff`).
-/

namespace SqlAccess.Ddl

open SqlAccess.Text

/-! ## The opening line -/

/-- The line opens a table: the keywords, a name, and a parenthesis at the end. -/
def OpeningShape (line : List Char) : Prop :=
  ∃ name, IsQuotable name ∧ ∃ start ∈ ["CREATE TABLE ", "CREATE TABLE IF NOT EXISTS "],
    line = start.toList ++ '\x60' :: (name ++ '\x60' :: " (".toList)

theorem isSome_opening?_iff {line : List Char} : (opening? line).isSome ↔ OpeningShape line := by
  have both : "CREATE TABLE IF NOT EXISTS ".toList =
      "CREATE TABLE ".toList ++ "IF NOT EXISTS ".toList := by decide
  have opened : ∀ {rest name : List Char}, IsQuotable name →
      (afterStart "IF NOT EXISTS ".toList rest).getD rest =
        '\x60' :: (name ++ '\x60' :: " (".toList) →
      (opening? ("CREATE TABLE ".toList ++ rest)).isSome := by
    intro rest name quotable same
    have named : backticked? ((afterStart "IF NOT EXISTS ".toList rest).getD rest) =
        some (name, " (".toList) := backticked?_eq_some_iff.mpr ⟨quotable, same⟩
    rw [opening?, afterStart_append, Option.bind_eq_bind, Option.bind_some, named,
      Option.bind_eq_bind, Option.bind_some]
    exact congrArg Option.isSome (if_pos rfl)
  constructor
  · intro read
    obtain ⟨text, read⟩ := Option.isSome_iff_exists.mp read
    rw [opening?] at read
    obtain ⟨rest, start, behindStart⟩ := Option.bind_eq_some_iff.mp read
    obtain ⟨⟨name, behind⟩, named, ends⟩ := Option.bind_eq_some_iff.mp behindStart
    obtain ⟨quotable, same⟩ := backticked?_eq_some_iff.mp named
    obtain rfl := afterStart_eq_some start
    have ending : behind = " (".toList := by
      by_contra other
      exact absurd ((if_neg other).symm.trans ends) nofun
    subst ending
    refine ⟨name, quotable, ?_⟩
    cases given : afterStart "IF NOT EXISTS ".toList rest with
    | none =>
      rw [given, Option.getD_none] at same
      exact ⟨_, List.mem_cons_self, by rw [same]⟩
    | some rest' =>
      rw [given, Option.getD_some] at same
      refine ⟨_, List.mem_cons_of_mem _ List.mem_cons_self, ?_⟩
      rw [both, afterStart_eq_some given, same, List.append_assoc]
  · rintro ⟨name, quotable, start, member, rfl⟩
    rcases List.mem_cons.mp member with rfl | member
    · exact opened quotable rfl
    · rw [List.mem_singleton.mp member, both, List.append_assoc]
      exact opened quotable (by rw [afterStart_append, Option.getD_some])

/-! ## Column lines -/

/-- The text is what the native type takes between parentheses: anything for a list, and otherwise a
number, or two with a comma between them. -/
def IsArgument (native argument : List Char) : Prop :=
  isWord "ENUM" native ∨ isWord "SET" native ∨ (lengthNumber? argument).isSome ∨
    ∃ digits scale, argument = digits ++ ',' :: scale ∧ (lengthNumber? digits).isSome ∧
      (lengthNumber? scale).isSome

theorem not_mem_of_lengthNumber? {text : List Char} (number : (lengthNumber? text).isSome) :
    ',' ∉ text := by
  rw [lengthNumber?, Option.isSome_map] at number
  obtain ⟨n, read⟩ := Option.isSome_iff_exists.mp number
  intro comma
  have inside : ',' ∈ trim text := mem_dropAround comma (by decide)
  have none : ∀ digits : List Char, ',' ∈ digits → readBounded? maxLength digits ≠ some n :=
    fun digits member found => absurd (isDigit_of_readBounded? found ',' member) (by decide)
  unfold readNat? at read
  split at read
  next digits same =>
    rw [same] at inside
    exact none digits ((List.mem_cons.mp inside).resolve_left (by decide)) read
  next => exact none _ inside read

theorem isSome_length?_iff {native argument : List Char} :
    (length? native argument).isSome ↔ IsArgument native argument := by
  unfold length? IsArgument
  split
  next listing => exact iff_of_true rfl (or_assoc.mp (.inl listing))
  next single =>
    rw [← or_assoc, or_iff_right single]
    cases cut : splitOnce ',' argument with
    | none =>
      have one : ¬ ∃ digits scale, argument = digits ++ ',' :: scale ∧
          (lengthNumber? digits).isSome ∧ (lengthNumber? scale).isSome := by
        rintro ⟨digits, scale, rfl, number, -⟩
        rw [splitOnce_append (not_mem_of_lengthNumber? number)] at cut
        cases cut
      rw [or_iff_left one]
      dsimp only
      rw [Option.isSome_map]
    | some pieces =>
      obtain ⟨digits, scale⟩ := pieces
      obtain ⟨rfl, absent⟩ := splitOnce_eq_some cut
      have two : ¬ (lengthNumber? (digits ++ ',' :: scale)).isSome := fun number =>
        not_mem_of_lengthNumber? number (List.mem_append_right _ List.mem_cons_self)
      rw [or_iff_right two]
      constructor
      · intro read
        dsimp only at read
        cases first : lengthNumber? digits with
        | none => rw [first] at read; cases read
        | some n =>
          cases second : lengthNumber? scale with
          | none => rw [first, second] at read; cases read
          | some m => exact ⟨digits, scale, rfl, by rw [first]; rfl, by rw [second]; rfl⟩
      · rintro ⟨digits', scale', same, first, second⟩
        obtain ⟨rfl, rfl⟩ := append_cons_inj absent (not_mem_of_lengthNumber? first) same
        obtain ⟨n, first⟩ := Option.isSome_iff_exists.mp first
        obtain ⟨m, second⟩ := Option.isSome_iff_exists.mp second
        dsimp only
        rw [first, second]
        rfl

/-- Does the word take the one behind it? -/
def Takes (word : List Char) : Prop :=
  isWord "DEFAULT" word ∨ isWord "COLLATE" word ∨ isWord "COMMENT" word

/-- The words behind a type can be read: a word that takes another one behind it has one, and a
comment has a quoted text. -/
inductive ReadableWords : List (List Char) → Prop
  | nil : ReadableWords []
  | taking {word value : List Char} {rest : List (List Char)}
      (takes : isWord "DEFAULT" word ∨ isWord "COLLATE" word) (behind : ReadableWords rest) :
      ReadableWords (word :: value :: rest)
  | comment {word text : List Char} {rest : List (List Char)} (named : isWord "COMMENT" word)
      (quoted : (literal? text).isSome) (behind : ReadableWords rest) :
      ReadableWords (word :: text :: rest)
  | other {word : List Char} {rest : List (List Char)} (free : ¬ Takes word)
      (behind : ReadableWords rest) : ReadableWords (word :: rest)

theorem isWord_unique {first second : String} {token : List Char} (is : isWord first token)
    (is' : isWord second token) : first = second :=
  String.toList_inj.mp ((eq_of_beq is).symm.trans (eq_of_beq is'))

section

variable {word value : List Char} {rest : List (List Char)}

theorem readableWords_taking_iff (takes : isWord "DEFAULT" word ∨ isWord "COLLATE" word) :
    ReadableWords (word :: value :: rest) ↔ ReadableWords rest := by
  refine ⟨fun readable => ?_, .taking takes⟩
  cases readable with
  | taking _ behind => exact behind
  | comment named _ behind => exact behind
  | other free behind => exact absurd (or_assoc.mp (.inl takes)) free

theorem readableWords_comment_iff (named : isWord "COMMENT" word) :
    ReadableWords (word :: value :: rest) ↔ (literal? value).isSome ∧ ReadableWords rest := by
  refine ⟨fun readable => ?_, fun ⟨quoted, behind⟩ => .comment named quoted behind⟩
  cases readable with
  | taking takes _ =>
    rcases takes with is | is
    · exact absurd (isWord_unique is named) (by decide)
    · exact absurd (isWord_unique is named) (by decide)
  | comment _ quoted behind => exact ⟨quoted, behind⟩
  | other free _ => exact absurd (.inr (.inr named)) free

theorem readableWords_other_iff (free : ¬ Takes word) :
    ReadableWords (word :: rest) ↔ ReadableWords rest := by
  refine ⟨fun readable => ?_, .other free⟩
  cases readable with
  | taking takes _ => exact absurd (or_assoc.mp (.inl takes)) free
  | comment named _ _ => exact absurd (.inr (.inr named)) free
  | other _ behind => exact behind

theorem not_readableWords_singleton (takes : Takes word) : ¬ ReadableWords [word]
  | .other free _ => free takes

theorem not_takes_of_isWord {keyword : String} (is : isWord keyword word)
    (other : keyword ≠ "DEFAULT" ∧ keyword ≠ "COLLATE" ∧ keyword ≠ "COMMENT") : ¬ Takes word := by
  rintro (is' | is' | is')
  · exact other.1 (isWord_unique is is')
  · exact other.2.1 (isWord_unique is is')
  · exact other.2.2 (isWord_unique is is')

end

theorem isSome_attributes?_iff {words : List (List Char)} :
    (attributes? words).isSome ↔ ReadableWords words := by
  fun_induction attributes? words with
  | case1 => exact iff_of_true rfl .nil
  | case2 word is =>
    exact iff_of_true rfl (.other (not_takes_of_isWord is (by decide)) .nil)
  | case3 word _ is =>
    exact iff_of_true rfl (.other (not_takes_of_isWord is (by decide)) .nil)
  | case4 word _ _ takes =>
    exact iff_of_false Bool.false_ne_true (not_readableWords_singleton takes)
  | case5 word _ _ free => exact iff_of_true rfl (.other free .nil)
  | case6 word next rest is ih =>
    rw [Option.isSome_map, ih, readableWords_other_iff (not_takes_of_isWord is (by decide))]
  | case7 word next rest _ is ih =>
    rw [Option.isSome_map, ih, readableWords_other_iff (not_takes_of_isWord is (by decide))]
  | case8 word next rest _ _ is ih =>
    rw [Option.isSome_map, ih, readableWords_other_iff (not_takes_of_isWord is.1 (by decide)),
      readableWords_other_iff (not_takes_of_isWord is.2 (by decide))]
  | case9 word next rest _ _ _ is ih =>
    rw [Option.isSome_map, ih, readableWords_taking_iff (.inl is)]
  | case10 word next rest _ _ _ _ is ih =>
    rw [Option.isSome_map, ih, readableWords_taking_iff (.inr is)]
  | case11 word next rest _ _ _ _ _ is text quoted ih =>
    rw [Option.isSome_map, ih, readableWords_comment_iff is, quoted]
    exact (and_iff_right rfl).symm
  | case12 word next rest _ _ _ _ _ is quoted =>
    rw [readableWords_comment_iff is, quoted]
    exact iff_of_false Bool.false_ne_true fun readable => Bool.false_ne_true readable.1
  | case13 word next rest _ _ _ default collate comment ih =>
    have free : ¬ Takes word := by
      rintro (is | is | is)
      exacts [default is, collate is, comment is]
    rw [ih, readableWords_other_iff free]

/-- What stands behind a native type can be read: its argument, if it has one, and the words behind
that. -/
def ReadableBehind (native behind : List Char) : Prop :=
  (∃ argument attributes, behind = '(' :: (argument ++ ')' :: attributes) ∧ ')' ∉ argument ∧
      IsArgument native argument ∧ ReadableWords (tokens attributes)) ∨
    ¬ (behind.head? = some '(' ∧ ')' ∈ behind) ∧ ReadableWords (tokens behind)

/-- The line is a readable column: a name, white space, the letters of a native type, and what can
be read behind that type. Of the column that every table starts with, nothing else is looked at. -/
def ColumnShape (line : List Char) : Prop :=
  ∃ name blanks native behind,
    line = '\x60' :: (name ++ '\x60' :: (blanks ++ (native ++ behind))) ∧ IsQuotable name ∧
      (blanks ≠ [] ∧ ∀ c ∈ blanks, isBlank c = true) ∧
      (native ≠ [] ∧ (∀ c ∈ native, c.isAlpha = true) ∧ ∀ c ∈ behind.head?, c.isAlpha = false) ∧
      (String.ofList name = Table.implicitId ∨ ReadableBehind native behind)

theorem readableBehind_iff {native behind : List Char} : ReadableBehind native behind ↔
    (∀ argument ∈ (argument? behind).1, IsArgument native argument) ∧
      ReadableWords (tokens (argument? behind).2) := by
  have plain : ¬ (behind.head? = some '(' ∧ ')' ∈ behind) → (ReadableBehind native behind ↔
      ReadableWords (tokens behind)) := by
    intro unenclosed
    refine ⟨fun readable => ?_, fun readable => .inr ⟨unenclosed, readable⟩⟩
    rcases readable with ⟨argument, attributes, rfl, -⟩ | ⟨-, readable⟩
    · exact absurd ⟨rfl, by simp⟩ unenclosed
    · exact readable
  unfold argument?
  split
  next cs =>
    split
    next argument attributes found =>
      obtain ⟨rfl, absent⟩ := splitOnce_eq_some found
      constructor
      · rintro (⟨argument', attributes', same, absent', fits, readable⟩ | ⟨unenclosed, -⟩)
        · obtain ⟨rfl, rfl⟩ := append_cons_inj absent absent' (List.cons.inj same).2
          exact ⟨fun given member => Option.some.inj member ▸ fits, readable⟩
        · exact absurd ⟨rfl, by simp⟩ unenclosed
      · rintro ⟨fits, readable⟩
        exact .inl ⟨argument, attributes, rfl, absent, fits argument rfl, readable⟩
    next none =>
      have open' : ')' ∉ cs := by
        intro closing
        obtain ⟨argument, attributes, rfl, absent⟩ := List.eq_append_cons_of_mem closing
        rw [splitOnce_append absent] at none
        cases none
      rw [plain fun enclosed => (List.mem_cons.mp enclosed.2).elim (by decide) open']
      exact (and_iff_right nofun).symm
  next other =>
    rw [plain]
    · exact (and_iff_right nofun).symm
    · rintro ⟨start, -⟩
      cases behind with
      | nil => cases start
      | cons c cs => exact other cs (congrArg (· :: cs) (Option.some.inj start))

theorem isSome_column?_iff {parts : ColumnLine} {d : Dialect} {table : String} :
    (parts.column? d table).isSome ↔
      (∀ argument ∈ parts.argument, IsArgument parts.native argument) ∧
        ReadableWords (tokens parts.attributes) := by
  rw [← isSome_attributes?_iff]
  unfold ColumnLine.column?
  cases parts.argument with
  | none =>
    cases attributes? (tokens parts.attributes) with
    | none => exact iff_of_false nofun fun readable => absurd readable.2 nofun
    | some as => exact iff_of_true rfl ⟨nofun, rfl⟩
  | some argument =>
    have fits : (∀ given ∈ some argument, IsArgument parts.native given) ↔
        (length? parts.native argument).isSome := by
      rw [isSome_length?_iff]
      exact ⟨fun all => all argument rfl, fun fits given member => Option.some.inj member ▸ fits⟩
    rw [fits]
    dsimp only
    cases length? parts.native argument with
    | none => exact iff_of_false nofun fun readable => absurd readable.1 nofun
    | some length =>
      cases attributes? (tokens parts.attributes) with
      | none => exact iff_of_false nofun fun readable => absurd readable.2 nofun
      | some as => exact iff_of_true rfl ⟨rfl, rfl⟩

/-- **The lines that are read as columns**, whatever was read before. -/
theorem isSome_readColumn_iff {d : Dialect} {t : Table} {line : List Char} :
    (readColumn d t line).isSome ↔ ColumnShape line := by
  simp only [Option.isSome_iff_exists, readColumn_eq_some_iff]
  constructor
  · rintro ⟨t', parts, found, read⟩
    obtain ⟨name, blanks, native, behind, whole, quotable, spaced, typed, rfl⟩ :=
      columnLine?_eq_some_iff.mp found
    refine ⟨name, blanks, native, behind, whole, quotable, spaced, typed, ?_⟩
    rcases read with ⟨first, -⟩ | ⟨-, c, column, -⟩
    · exact .inl first
    · exact .inr (readableBehind_iff.mpr (isSome_column?_iff.mp (Option.isSome_of_mem column)))
  · rintro ⟨name, blanks, native, behind, whole, quotable, spaced, typed, readable⟩
    obtain ⟨parts, found, read⟩ : ∃ parts, columnLine? line = some parts ∧
        (parts.name = Table.implicitId ∨ (parts.column? d t.name).isSome) :=
      ⟨_, columnLine?_eq_some_iff.mpr
          ⟨name, blanks, native, behind, whole, quotable, spaced, typed, rfl⟩,
        readable.imp_right fun readable => isSome_column?_iff.mpr (readableBehind_iff.mp readable)⟩
    by_cases first : parts.name = Table.implicitId
    · exact ⟨t, parts, found, .inl ⟨first, rfl⟩⟩
    · obtain ⟨c, column⟩ := Option.isSome_iff_exists.mp (read.resolve_left first)
      exact ⟨_, parts, found, .inr ⟨first, c, column, rfl⟩⟩

/-! ## Key lines -/

/-- The line is a primary key: its keywords and a list between parentheses. What stands behind the
list is not looked at. -/
def PrimaryShape (line : List Char) : Prop :=
  ∃ columns rest, ')' ∉ columns ∧ line = "PRIMARY KEY (".toList ++ (columns ++ ')' :: rest)

/-- The line is a key with a name behind the given keywords. -/
def NamedKeyShape (start : String) (line : List Char) : Prop :=
  ∃ name columns rest, IsQuotable name ∧ ')' ∉ columns ∧
    line = start.toList ++ '\x60' :: (name ++ '\x60' :: (" (".toList ++ (columns ++ ')' :: rest)))

/-- The line is a readable key of one of the three kinds. -/
def KeyShape (line : List Char) : Prop :=
  PrimaryShape line ∨ NamedKeyShape "KEY " line ∨ NamedKeyShape "UNIQUE KEY " line

theorem isKeyLine_of_keyShape {line : List Char} (shape : KeyShape line) :
    isKeyLine line = true := by
  have primary : "PRIMARY KEY (".toList = "PRIMARY KEY".toList ++ " (".toList := by decide
  have unique : "UNIQUE KEY ".toList = "UNIQUE KEY".toList ++ " ".toList := by decide
  unfold isKeyLine
  rw [Bool.or_eq_true, Bool.or_eq_true]
  rcases shape with ⟨columns, rest, -, rfl⟩ | ⟨name, columns, rest, -, -, rfl⟩ |
    ⟨name, columns, rest, -, -, rfl⟩
  · rw [primary, List.append_assoc, afterStart_append]
    exact .inl (.inl rfl)
  · rw [afterStart_append]
    exact .inr rfl
  · rw [unique, List.append_assoc, afterStart_append "UNIQUE KEY".toList]
    exact .inl (.inr rfl)

theorem isSome_primaryLine?_iff {line : List Char} :
    (primaryLine? line).isSome ↔ PrimaryShape line := by
  unfold primaryLine?
  constructor
  · intro read
    obtain ⟨names, read⟩ := Option.isSome_iff_exists.mp read
    obtain ⟨behind, start, read⟩ := Option.bind_eq_some_iff.mp read
    obtain ⟨columns, closed, -⟩ := Option.map_eq_some_iff.mp read
    obtain ⟨absent, rest, rfl⟩ := parenthesized?_eq_some_iff.mp closed
    exact ⟨columns, rest, absent, afterStart_eq_some start⟩
  · rintro ⟨columns, rest, absent, rfl⟩
    have closed := parenthesized?_eq_some_iff.mpr ⟨absent, rest, rfl⟩
    rw [afterStart_append, Option.bind_eq_bind, Option.bind_some, closed]
    rfl

/-- A line has the shape of a key with a name exactly if its parts are read one behind the other. -/
theorem namedKeyShape_iff {start : String} {line : List Char} :
    NamedKeyShape start line ↔ ∃ body, afterStart start.toList line = some body ∧
      ∃ parts, backticked? body = some parts ∧
        ∃ list, afterStart " (".toList parts.2 = some list ∧
          ∃ columns, parenthesized? list = some columns := by
  constructor
  · rintro ⟨name, columns, rest, quotable, absent, rfl⟩
    exact ⟨_, afterStart_append _ _, (name, _), backticked?_eq_some_iff.mpr ⟨quotable, rfl⟩, _,
      afterStart_append _ _, columns, parenthesized?_eq_some_iff.mpr ⟨absent, rest, rfl⟩⟩
  · rintro ⟨body, keyword, ⟨name, behind⟩, named, list, opened, columns, closed⟩
    obtain ⟨quotable, rfl⟩ := backticked?_eq_some_iff.mp named
    obtain rfl := afterStart_eq_some opened
    obtain ⟨absent, rest, rfl⟩ := parenthesized?_eq_some_iff.mp closed
    exact ⟨name, columns, rest, quotable, absent, afterStart_eq_some keyword⟩

/-- The keyword of a unique key is a word in front of the keyword of an index. -/
theorem namedKeyShape_unique_iff {line : List Char} : NamedKeyShape "UNIQUE KEY " line ↔
    ∃ rest, line = "UNIQUE ".toList ++ rest ∧ NamedKeyShape "KEY " rest := by
  have both : "UNIQUE KEY ".toList = "UNIQUE ".toList ++ "KEY ".toList := by decide
  constructor
  · rintro ⟨name, columns, rest, quotable, absent, rfl⟩
    rw [both, List.append_assoc]
    exact ⟨_, rfl, name, columns, rest, quotable, absent, rfl⟩
  · rintro ⟨_, rfl, name, columns, rest, quotable, absent, rfl⟩
    refine ⟨name, columns, rest, quotable, absent, ?_⟩
    rw [both, List.append_assoc]

theorem isSome_namedKeyLine?_iff {table : String} {line : List Char} :
    (namedKeyLine? table line).isSome ↔
      NamedKeyShape "KEY " line ∨ NamedKeyShape "UNIQUE KEY " line := by
  rw [namedKeyShape_unique_iff]
  unfold namedKeyLine?
  cases unique : afterStart "UNIQUE ".toList line with
  | none =>
    have notUnique : ¬ ∃ rest, line = "UNIQUE ".toList ++ rest ∧ NamedKeyShape "KEY " rest := by
      rintro ⟨rest, rfl, -⟩
      rw [afterStart_append] at unique
      cases unique
    rw [or_iff_left notUnique, namedKeyShape_iff]
    simp only [Option.bind_eq_bind, Option.isSome_bind, Option.any_eq_true, Option.isSome_some,
      and_true]
  | some rest =>
    obtain rfl := afterStart_eq_some unique
    have notIndex : ¬ NamedKeyShape "KEY " ("UNIQUE ".toList ++ rest) := by
      rintro ⟨name, columns, behind, -, -, same⟩
      exact absurd (List.cons.inj same).1 (by decide)
    have behind : (∃ rest', "UNIQUE ".toList ++ rest = "UNIQUE ".toList ++ rest' ∧
        NamedKeyShape "KEY " rest') ↔ NamedKeyShape "KEY " rest :=
      ⟨fun ⟨_, same, shape⟩ => List.append_cancel_left same ▸ shape, fun shape => ⟨rest, rfl, shape⟩⟩
    rw [or_iff_right notIndex, behind, namedKeyShape_iff]
    simp only [Option.bind_eq_bind, Option.isSome_bind, Option.any_eq_true, Option.isSome_some,
      and_true]

/-- **The lines that are read as keys**, whatever was read before. -/
theorem isSome_readKey_iff {t : Table} {line : List Char} :
    (readKey t line).isSome ↔ KeyShape line := by
  have either : (readKey t line).isSome ↔
      (primaryLine? line).isSome ∨ (namedKeyLine? t.name line).isSome := by
    simp only [Option.isSome_iff_exists, readKey_eq_some_iff]
    cases primaryLine? line with
    | some names => exact iff_of_true ⟨_, .inl ⟨names, rfl, rfl⟩⟩ (.inl ⟨names, rfl⟩)
    | none =>
      constructor
      · rintro ⟨_, ⟨names, unread, -⟩ | ⟨-, k, read, -⟩⟩
        · cases unread
        · exact .inr ⟨k, read⟩
      · rintro (⟨names, unread⟩ | ⟨k, read⟩)
        · cases unread
        · exact ⟨_, .inr ⟨rfl, k, read, rfl⟩⟩
  rw [either, isSome_primaryLine?_iff, isSome_namedKeyLine?_iff, KeyShape]

theorem isKeyLine_of_readKey {t t' : Table} {line : List Char} (h : readKey t line = some t') :
    isKeyLine line = true :=
  isKeyLine_of_keyShape (isSome_readKey_iff.mp (Option.isSome_of_mem h))

/-! ## Steps of the reading -/

section

variable {d : Dialect} {t : Table} {body : List Char}

theorem Progress.finish_eq_some_iff {next : Progress} : finish t body = some next ↔
    (∃ t', readKey t body = some t' ∧ next = .keys t') ∨
      (body.head? = some ')' ∧ next = .closed (readOptions t body)) := by
  unfold finish
  split
  next isKey =>
    rw [or_iff_left fun closes => head?_of_isKeyLine isKey (by decide) closes.1,
      Option.map_eq_some_iff]
    simp only [eq_comm]
  next noKey =>
    have unread : ¬ ∃ t', readKey t body = some t' ∧ next = .keys t' := fun ⟨t', read, _⟩ =>
      noKey (isKeyLine_of_readKey read)
    rw [or_iff_right unread]
    split
    next closes => simp only [Option.some.injEq, closes, true_and, eq_comm]
    next other => exact iff_of_false nofun fun closes => other closes.1

/-- A column is told from a key and from the closing line by its first character. -/
theorem Progress.next_columns_eq_some_iff {next : Progress} :
    (Progress.columns t).next d body = some next ↔
      (∃ t', readColumn d t body = some t' ∧ next = .columns t') ∨
        finish t body = some next := by
  rw [Progress.next]
  split
  next starts =>
    have noFinish : finish t body ≠ some next := by
      intro finished
      rcases finish_eq_some_iff.mp finished with ⟨t', read, -⟩ | ⟨closes, -⟩
      · exact head?_of_isKeyLine (isKeyLine_of_readKey read) (by decide) starts
      · rw [starts] at closes
        exact absurd closes (by decide)
    rw [or_iff_left noFinish, Option.map_eq_some_iff]
    simp only [eq_comm]
  next other =>
    have unread : ¬ ∃ t', readColumn d t body = some t' ∧ next = .columns t' := by
      rintro ⟨t', read, -⟩
      obtain ⟨parts, found, -⟩ := readColumn_eq_some_iff.mp read
      exact other (head?_of_columnLine? found)
    rw [or_iff_right unread]

end

end SqlAccess.Ddl
