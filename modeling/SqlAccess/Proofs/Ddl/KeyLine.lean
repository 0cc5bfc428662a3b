import SqlAccess.Ddl.Reader
import SqlAccess.Ddl.Statement
import SqlAccess.Proofs.Ddl.Quoting
import SqlAccess.Proofs.Schema.Key

/-!
# The lines of the keys

The clause of a key is a line that reads back: its name, and the names of its columns in order
(`readKey_clause`, `readKey_primary`). A key is read with the name that it was printed with as its own.
-/

namespace SqlAccess

open Ddl SqlAccess.Text

namespace Ddl

/-! ## Lists of names -/

/-- Is the name printed as it is in a list of columns? -/
structure Columnar (name : String) : Prop where
  ne_empty : name ≠ ""
  plain : ∀ c ∈ name.toList, c ≠ '\x60' ∧ c ≠ '.' ∧ c ≠ '\n' ∧ c ≠ ',' ∧ c ≠ ')'

instance (name : String) : Decidable (Columnar name) :=
  decidable_of_iff (name ≠ "" ∧
      ∀ c ∈ name.toList, c ≠ '\x60' ∧ c ≠ '.' ∧ c ≠ '\n' ∧ c ≠ ',' ∧ c ≠ ')')
    ⟨fun ⟨ne_empty, plain⟩ => ⟨ne_empty, plain⟩, fun h => ⟨h.ne_empty, h.plain⟩⟩

/-- In a list a name stands between backticks, or is a bare star. -/
theorem Columnar.identifier {name : String} (h : Columnar name) :
    (Dialect.mysql.identifier name).toList = '\x60' :: name.toList ++ ['\x60'] ∨
      name = "*" ∧ (Dialect.mysql.identifier name).toList = ['*'] := by
  by_cases star : name = "*"
  · subst star
    exact .inr ⟨rfl, by decide⟩
  · have named : Named name :=
      ⟨h.ne_empty, star, fun c member => ⟨(h.plain c member).1, (h.plain c member).2.1,
        (h.plain c member).2.2.1⟩⟩
    exact .inl named.identifier

theorem Columnar.not_mem {name : String} (h : Columnar name) {c : Char}
    (mark : c = ',' ∨ c = ')' ∨ c = '\n') : c ∉ (Dialect.mysql.identifier name).toList := by
  have quote : c ≠ '\x60' := by rcases mark with rfl | rfl | rfl <;> decide
  have star : c ≠ '*' := by rcases mark with rfl | rfl | rfl <;> decide
  have inside : c ∉ name.toList := by
    intro member
    have plain := h.plain c member
    rcases mark with rfl | rfl | rfl
    · exact plain.2.2.2.1 rfl
    · exact plain.2.2.2.2 rfl
    · exact plain.2.2.1 rfl
  rcases h.identifier with text | ⟨-, text⟩
  · rw [text]
    simp [quote, inside]
  · rw [text]
    simpa using star

/-- The name of one piece of a list. -/
def bareName (piece : List Char) : List Char :=
  dropAround (· == '\x60') (trim piece)

theorem columnNames_eq (list : List Char) : columnNames list =
    (((list.splitOn ',').map bareName).filter fun name => !name.isEmpty).map String.ofList := rfl

/-- A name comes back from its piece, with or without a blank in front. -/
theorem Columnar.bareName_append {name : String} (h : Columnar name) {before : List Char}
    (blank : ∀ c ∈ before, isBlank c = true) :
    bareName (before ++ (Dialect.mysql.identifier name).toList) = name.toList := by
  have kept : trim (before ++ (Dialect.mysql.identifier name).toList) =
      (Dialect.mysql.identifier name).toList := by
    refine dropAround_of_start blank ?_ ?_
    · rcases h.identifier with text | ⟨-, text⟩ <;> rw [text] <;>
        exact fun c first => Option.some.inj first ▸ by decide
    · rcases h.identifier with text | ⟨-, text⟩ <;> rw [text]
      · rw [List.getLast?_concat]
        exact fun c last => Option.some.inj last ▸ by decide
      · exact fun c last => Option.some.inj last ▸ by decide
  rw [bareName, kept]
  rcases h.identifier with text | ⟨rfl, text⟩
  · rw [text]
    have plain : ∀ c ∈ name.toList, (c == '\x60') = false := fun c member =>
      beq_false_of_ne (h.plain c member).1
    have quotes : ∀ c ∈ ['\x60'], (c == '\x60') = true := by decide
    exact dropAround_append quotes quotes (fun c first => plain c (List.mem_of_head? first))
      fun c last => plain c (List.mem_of_getLast? last)
  · rw [text]
    decide

/-- A list of names is cut into its identifiers, with a blank in front of each but the first. -/
theorem splitOn_identifiers {name : String} {names : List String}
    (all : ∀ next ∈ name :: names, Columnar next) :
    (Dialect.mysql.identifiers (name :: names)).toList.splitOn ',' =
      (Dialect.mysql.identifier name).toList ::
        names.map fun next => ' ' :: (Dialect.mysql.identifier next).toList := by
  have text : (Dialect.mysql.identifiers (name :: names)).toList =
      (Dialect.mysql.identifier name).toList ++
        (names.map fun next => ' ' :: (Dialect.mysql.identifier next).toList).flatMap
          (',' :: ·) := by
    rw [Dialect.identifiers, List.map_cons, toList_joined_cons, List.flatMap_map,
      List.flatMap_map]
    rfl
  rw [text]
  refine splitOn_flatMap ((all name List.mem_cons_self).not_mem (.inl rfl)) ?_
  intro next member
  obtain ⟨other, inside, rfl⟩ := List.mem_map.mp member
  have absent := (all other (List.mem_cons_of_mem name inside)).not_mem (.inl rfl)
  exact List.not_mem_cons_of_ne_of_not_mem (by decide) absent

/-- **A list of names reads back.** -/
theorem columnNames_identifiers {names : List String} (all : ∀ name ∈ names, Columnar name) :
    columnNames (Dialect.mysql.identifiers names).toList = names := by
  cases names with
  | nil => rfl
  | cons name names =>
    have read : ((Dialect.mysql.identifiers (name :: names)).toList.splitOn ',').map bareName =
        (name :: names).map String.toList := by
      have front : bareName ([] ++ (Dialect.mysql.identifier name).toList) = name.toList :=
        (all name List.mem_cons_self).bareName_append fun _ member => nomatch member
      have blank : ∀ c ∈ [' '], isBlank c = true := by decide
      have behind : ∀ next ∈ names, bareName ([' '] ++ (Dialect.mysql.identifier next).toList) =
          next.toList := fun next member =>
        (all next (List.mem_cons_of_mem name member)).bareName_append blank
      rw [List.nil_append] at front
      rw [splitOn_identifiers all, List.map_cons, List.map_cons, List.map_map, front]
      refine congrArg (name.toList :: ·) (List.map_congr_left fun next member => ?_)
      rw [Function.comp_apply, ← List.singleton_append, behind next member]
    have filled : ((name :: names).map String.toList).filter (fun chars => !chars.isEmpty) =
        (name :: names).map String.toList := by
      refine List.filter_eq_self.mpr fun chars member => ?_
      obtain ⟨next, inside, rfl⟩ := List.mem_map.mp member
      have nonempty : next.toList ≠ [] := fun empty =>
        (all next inside).ne_empty (String.toList_eq_nil_iff.mp empty)
      rw [List.isEmpty_eq_false_iff.mpr nonempty, Bool.not_false]
    rw [columnNames_eq, read, filled, List.map_map]
    exact (List.map_congr_left fun next _ => String.ofList_toList).trans (List.map_id' _)

theorem not_mem_identifiers {names : List String} (all : ∀ name ∈ names, Columnar name) {c : Char}
    (mark : c = ')' ∨ c = '\n') : c ∉ (Dialect.mysql.identifiers names).toList := by
  cases names with
  | nil => exact List.not_mem_nil
  | cons name names =>
    have absent : ∀ next ∈ name :: names, c ∉ (Dialect.mysql.identifier next).toList :=
      fun next member => (all next member).not_mem (.inr mark)
    rw [Dialect.identifiers, List.map_cons, toList_joined_cons, List.mem_append, List.flatMap_map,
      List.mem_flatMap]
    rintro (member | ⟨next, inside, member⟩)
    · exact absent name List.mem_cons_self member
    · rcases List.mem_append.mp member with separator | member
      · have other : c ≠ ',' ∧ c ≠ ' ' := by rcases mark with rfl | rfl <;> decide
        rcases List.mem_cons.mp separator with comma | space
        · exact other.1 comma
        · exact other.2 (List.mem_singleton.mp space)
      · exact absent next (List.mem_cons_of_mem name inside) member

/-! ## Lines -/

/-- Names between parentheses, at the end of a line. -/
def enclosedNames (names : List String) : List Char :=
  (Dialect.mysql.identifiers names).toList ++ [')']

theorem parenthesized?_eq_some_iff {text list : List Char} :
    parenthesized? text = some list ↔ ')' ∉ list ∧ ∃ rest, text = list ++ ')' :: rest := by
  unfold parenthesized?
  rw [Option.map_eq_some_iff]
  constructor
  · rintro ⟨⟨before, rest⟩, found, rfl⟩
    obtain ⟨rfl, absent⟩ := splitOnce_eq_some found
    exact ⟨absent, rest, rfl⟩
  · rintro ⟨absent, rest, rfl⟩
    exact ⟨_, splitOnce_append absent, rfl⟩

theorem parenthesized?_enclosedNames {names : List String} (all : ∀ name ∈ names, Columnar name) :
    parenthesized? (enclosedNames names) = some (Dialect.mysql.identifiers names).toList := by
  rw [parenthesized?, enclosedNames, splitOnce_append (not_mem_identifiers all (.inl rfl))]
  rfl

theorem primaryLine?_eq {names : List String} (all : ∀ name ∈ names, Columnar name) :
    primaryLine? ("PRIMARY KEY (".toList ++ enclosedNames names) = some names := by
  rw [primaryLine?, afterStart_append, Option.bind_eq_bind, Option.bind_some,
    parenthesized?_enclosedNames all, Option.map_some, columnNames_identifiers all]

/-- **What reading a key does**: a column of the primary key is added to it, but for the one that
every table has, and any other key is added to the keys. -/
theorem readKey_eq_some_iff {t t' : Table} {line : List Char} : readKey t line = some t' ↔
    (∃ names, primaryLine? line = some names ∧
      t' = (names.filter (· != Table.implicitId)).foldl Table.addPrimary t) ∨
    (primaryLine? line = none ∧ ∃ k, namedKeyLine? t.name line = some k ∧ t' = t.addKey k) := by
  rw [readKey]
  cases primaryLine? line with
  | some names =>
    constructor
    · exact fun read => .inl ⟨names, rfl, (Option.some.inj read).symm⟩
    · rintro (⟨_, same, rfl⟩ | ⟨unread, -⟩)
      · cases same
        rfl
      · cases unread
  | none =>
    dsimp only
    rw [Option.map_eq_some_iff]
    constructor
    · exact fun ⟨k, read, added⟩ => .inr ⟨rfl, k, read, added.symm⟩
    · rintro (⟨_, unread, -⟩ | ⟨-, k, read, rfl⟩)
      · cases unread
      · exact ⟨k, read, rfl⟩

/-! ## How lines start -/

theorem head?_of_afterStart {c : Char} {start line rest : List Char}
    (h : afterStart (c :: start) line = some rest) : line.head? = some c := by
  rw [afterStart_eq_some h]
  rfl

theorem primaryLine?_eq_none {line : List Char} (other : line.head? ≠ some 'P') :
    primaryLine? line = none := by
  cases start : afterStart "PRIMARY KEY (".toList line with
  | none =>
    rw [primaryLine?, start]
    rfl
  | some rest => exact absurd (head?_of_afterStart start) other

theorem head?_of_isKeyLine {line : List Char} (h : isKeyLine line = true) {c : Char}
    (other : c ≠ 'P' ∧ c ≠ 'U' ∧ c ≠ 'K') : line.head? ≠ some c := by
  have start : ∀ {s : Char} {start : List Char}, c ≠ s →
      (afterStart (s :: start) line).isSome = true → line.head? ≠ some c := by
    intro s start other found
    obtain ⟨rest, found⟩ := Option.isSome_iff_exists.mp found
    rw [head?_of_afterStart found]
    exact fun same => other (Option.some.inj same).symm
  rw [isKeyLine, Bool.or_eq_true, Bool.or_eq_true] at h
  rcases h with (primary | unique) | index
  · exact start other.1 primary
  · exact start other.2.1 unique
  · exact start other.2.2 index

end Ddl

namespace Table

theorem toList_primaryClause {t : Table} (keyed : t.primaryKey ≠ []) :
    (t.primaryClause .mysql).map String.toList =
      ["PRIMARY KEY (".toList ++ enclosedNames t.primaryKey] := by
  have filled : t.primaryKey.isEmpty = false := List.isEmpty_eq_false_iff.mpr keyed
  have text : ("PRIMARY KEY (" ++ Dialect.mysql.identifiers t.primaryKey ++ ")").toList =
      "PRIMARY KEY (".toList ++ enclosedNames t.primaryKey := by
    rw [String.toList_append, String.toList_append, List.append_assoc]
    rfl
  rw [primaryClause, filled, ← text]
  rfl

end Table

namespace Key

/-- The key that is read where this one was printed. -/
def reread (k : Key) : Key :=
  if k.kind = .primary then k else { k with explicitName := some k.name }

/-- Is the clause of the key a line that reads back? -/
structure Readable (k : Key) : Prop where
  named : Named k.name
  columns : ∀ column ∈ k.columns, Columnar column
  distinct : k.columns.Nodup
  created : k.mode = .create

/-- What stands in front of the name of a key. -/
def keyword : KeyKind → List Char
  | .unique => "UNIQUE KEY".toList
  | _ => "KEY".toList

theorem toList_clause {k : Key} (named : k.kind ≠ .primary) : (k.clause .mysql).toList =
    keyword k.kind ++ (' ' :: ((Dialect.mysql.identifier k.name).toList ++
      (" (".toList ++ enclosedNames k.columns))) := by
  have word : k.clause .mysql = String.ofList (keyword k.kind ++ [' ']) ++
      Dialect.mysql.identifier k.name ++ (" (" ++ Dialect.mysql.identifiers k.columns ++ ")") := by
    unfold clause
    cases kind : k.kind with
    | primary => exact absurd kind named
    | unique =>
      have parts : String.ofList (keyword .unique ++ [' ']) = "UNIQUE KEY " := by decide
      simp only [parts]
    | index =>
      have parts : String.ofList (keyword .index ++ [' ']) = "KEY " := by decide
      simp only [parts]
  have closing : (")" : String).toList = [')'] := by decide
  rewrite [word, String.toList_append, String.toList_append, String.toList_append,
    String.toList_append, String.toList_ofList, closing, enclosedNames]
  simp only [List.append_assoc, List.cons_append, List.nil_append]

theorem keyword_unique (rest : List Char) :
    keyword .unique ++ (' ' :: rest) = "UNIQUE ".toList ++ ("KEY ".toList ++ rest) := by
  have parts : keyword .unique ++ [' '] = "UNIQUE ".toList ++ "KEY ".toList := by decide
  rewrite [← List.append_assoc, ← parts, List.append_assoc]
  rfl

theorem keyword_index (rest : List Char) :
    keyword .index ++ (' ' :: rest) = "KEY ".toList ++ rest := by
  have parts : keyword .index ++ [' '] = "KEY ".toList := by decide
  rewrite [← parts, List.append_assoc]
  rfl

/-- What a line says about a key, once its kind is known. -/
theorem namedKeyLine?_body {k : Key} (readable : k.Readable) (other : k.kind ≠ .primary) :
    namedKeyLine? k.table (k.clause .mysql).toList = some
      { table := k.table, kind := k.kind, columns := k.columns, explicitName := some k.name } := by
  rewrite [toList_clause other, namedKeyLine?]
  cases kind : k.kind with
  | primary => exact absurd kind other
  | unique =>
    rewrite [keyword_unique, afterStart_append]
    simp only [Option.bind_eq_bind, afterStart_append, Option.bind_some, readable.named.backticked?,
      parenthesized?_enclosedNames readable.columns, columnNames_identifiers readable.columns,
      ofColumns_of_nodup _ _ readable.distinct, String.ofList_toList]
  | index =>
    have plain : ∀ rest, afterStart "UNIQUE ".toList ("KEY ".toList ++ rest) = none := fun _ => rfl
    rewrite [keyword_index, plain]
    simp only [Option.bind_eq_bind, afterStart_append, Option.bind_some, readable.named.backticked?,
      parenthesized?_enclosedNames readable.columns, columnNames_identifiers readable.columns,
      ofColumns_of_nodup _ _ readable.distinct, String.ofList_toList]

theorem primaryLine?_clause {k : Key} (other : k.kind ≠ .primary) :
    primaryLine? (k.clause .mysql).toList = none := by
  refine primaryLine?_eq_none ?_
  rw [toList_clause other]
  cases kind : k.kind with
  | primary => exact absurd kind other
  | unique => exact (by decide : some 'U' ≠ some 'P')
  | index => exact (by decide : some 'K' ≠ some 'P')

/-- **The line of a key reads back.** -/
theorem readKey_clause {k : Key} {t : Table} (readable : k.Readable) (other : k.kind ≠ .primary)
    (own : k.table = t.name) : readKey t (k.clause .mysql).toList = some (t.addKey k.reread) := by
  have told : k.reread =
      { table := k.table, kind := k.kind, columns := k.columns, explicitName := some k.name } := by
    rw [reread, if_neg other, readable.created]
  rw [readKey, primaryLine?_clause other, ← own, namedKeyLine?_body readable other, told]
  rfl

/-- **The line of the primary key reads back**: each column but the one that every table has is
added to the key. -/
theorem readKey_primary {names : List String} {t : Table} (all : ∀ name ∈ names, Columnar name) :
    readKey t ("PRIMARY KEY (".toList ++ enclosedNames names) =
      some ((names.filter (· != Table.implicitId)).foldl Table.addPrimary t) := by
  rw [readKey, primaryLine?_eq all]

theorem solid_primary {names : List String} (all : ∀ name ∈ names, Columnar name) :
    Solid ("PRIMARY KEY (".toList ++ enclosedNames names) := by
  refine Solid.append (by decide) ?_ ?_
  · rw [enclosedNames, List.mem_append, not_or]
    exact ⟨not_mem_identifiers all (.inr rfl), by decide⟩
  · rw [enclosedNames, List.getLast?_concat]
    exact fun c last => Option.some.inj last ▸ by decide

theorem solid_clause {k : Key} (readable : k.Readable) (other : k.kind ≠ .primary) :
    Solid (k.clause .mysql).toList := by
  have named : '\n' ∉ (Dialect.mysql.identifier k.name).toList := by
    rw [readable.named.identifier]
    have plain : '\n' ∉ k.name.toList := fun member => (readable.named.plain _ member).2.2 rfl
    simp [plain]
  have columns : '\n' ∉ enclosedNames k.columns := by
    rw [enclosedNames, List.mem_append, not_or]
    exact ⟨not_mem_identifiers readable.columns (.inr rfl), by decide⟩
  have solid : Solid (keyword k.kind) := by
    cases k.kind <;> decide
  rw [toList_clause other]
  refine solid.append ?_ ?_
  · rw [List.mem_cons, List.mem_append, List.mem_append, not_or, not_or, not_or]
    exact ⟨by decide, named, by decide, columns⟩
  · rw [enclosedNames, ← List.append_assoc, ← List.append_assoc, ← List.cons_append,
      List.getLast?_concat]
    exact fun c last => Option.some.inj last ▸ by decide

theorem isKeyLine_clause {k : Key} (other : k.kind ≠ .primary) :
    isKeyLine (k.clause .mysql).toList = true := by
  rw [toList_clause other]
  cases kind : k.kind with
  | primary => exact absurd kind other
  | unique => rfl
  | index => rfl

end Key

end SqlAccess
