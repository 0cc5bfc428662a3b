import SqlAccess.Proofs.Ddl.ReadBack

/-!
# Columns that list their values

A column of the list type is printed with its values as quoted texts, with commas between them and
parentheses around them. The reader takes the argument to end at the first closing parenthesis,
wherever it stands, and then cuts it into texts. So a list with a parenthesis in it is never read
back; and one without is read back exactly if its texts can be told apart
(`Column.told_values_iff`).

This decides the whole table: whatever the values are, the table is read as itself exactly if they
can be told apart (`declared_lists_read_back_iff`).
-/

namespace SqlAccess

open Ddl SqlAccess.Text

namespace Ddl

/-- The argument of a type ends at the first parenthesis, which need not be the one behind it. -/
theorem exists_argument? (text rest : List Char) : ∃ argument after,
    argument? ('(' :: (text ++ ')' :: rest)) = (some argument, after) ∧ ')' ∉ argument ∧
      (')' ∉ text → argument = text) := by
  have inside : ')' ∈ text ++ ')' :: rest := List.mem_append_right text List.mem_cons_self
  obtain ⟨before, after, whole, absent⟩ := List.eq_append_cons_of_mem inside
  refine ⟨before, after, ?_, absent, fun plain => ?_⟩
  · rw [argument?, whole, splitOnce_append absent]
  · have cut : splitOnce ')' (text ++ ')' :: rest) = some (text, rest) := splitOnce_append plain
    rw [whole, splitOnce_append absent] at cut
    exact congrArg Prod.fst (Option.some.inj cut)

theorem columnType_enum (length : Option Length) :
    Dialect.mysql.columnType "ENUM" length = .list := by
  have capitals : String.ofList (asciiUppercase "ENUM".toList) = "ENUM" := by decide
  have reading : Dialect.mysql.typeReadings.lookup "ENUM" = some .list := by decide
  unfold Dialect.columnType
  dsimp only
  rw [capitals, if_neg fun boolean => absurd boolean.2.1 (by decide), reading]
  rfl

end Ddl

namespace Column

/-! ## What the line says -/

section

variable {c told : Column} {table : String} {texts : List String}

/-- The line of a list has the native list type, and an argument that ends at a parenthesis. -/
theorem line_of_list (list : c.type = .list) (given : c.length = some (.values texts)) :
    c.line.native = "ENUM".toList ∧ ∃ text, c.line.argument = some text ∧ ')' ∉ text ∧
      (')' ∉ argument (.values texts) → text = argument (.values texts)) := by
  have behind : c.behind = '(' :: (argument (.values texts) ++
      ')' :: (c.attributes.flatMap Attribute.tokens).flatMap (' ' :: ·)) := by
    rw [Column.behind, given, Option.map_some, enclosedArgument]
    simp only [List.cons_append, List.append_assoc, List.nil_append]
  obtain ⟨text, after, parts, absent, whole⟩ := exists_argument? (argument (.values texts))
    ((c.attributes.flatMap Attribute.tokens).flatMap (' ' :: ·))
  refine ⟨?_, text, ?_, absent, whole⟩
  · rw [line, list]
    rfl
  · rw [line, behind, parts]

/-- **The line of a list tells its values exactly if they can be told apart.** -/
theorem told_values_iff (list : c.type = .list) (given : c.length = some (.values texts))
    (filled : texts ≠ []) (oneLine : ∀ text ∈ texts, '\n' ∉ text.toList)
    (column : c.line.column? .mysql table = some told) :
    told.type = .list ∧ (told.length = some (.values texts) ↔ Listable texts) := by
  obtain ⟨native, text, argued, absent, whole⟩ := line_of_list list given
  obtain ⟨type, read⟩ := ColumnLine.column?_typed column
  have listing : isWord "ENUM" c.line.native ∨ isWord "SET" c.line.native := by
    rw [native]
    decide
  have length : told.length = some (.values ((splitTexts text).map listedText)) := by
    rw [argued, Option.map_some, length?, if_pos listing] at read
    cases found : told.length with
    | none =>
      rw [found] at read
      cases read
    | some length =>
      rw [found] at read
      exact (Option.some.inj read).symm
  refine ⟨?_, ?_⟩
  · rw [type, native, String.ofList_toList]
    exact columnType_enum told.length
  · rw [length, Option.some.injEq, Length.values.injEq]
    constructor
    · intro same
      -- what is read holds no parenthesis, and so the argument was not cut short
      have plain : ∀ text ∈ texts, ')' ∉ text.toList := by
        rw [← same]
        intro value member
        obtain ⟨piece, inside, rfl⟩ := List.mem_map.mp member
        exact not_mem_listedText absent inside
      rw [whole (not_mem_values (by decide) (by decide) plain), argument] at same
      refine (splitTexts_map_iff filled fun text member c inside => ⟨?_, ?_⟩).mp same
      · exact fun here => plain text member (here ▸ inside)
      · exact fun here => oneLine text member (here ▸ inside)
    · intro listable
      have plain : ∀ text ∈ texts, ')' ∉ text.toList := fun text member inside =>
        (listable.plain text member _ inside).1 rfl
      rw [whole (not_mem_values (by decide) (by decide) plain), argument]
      exact splitTexts_map listable

end

/-! ## Columns that are plain but for their values -/

/-- Is the column plain, but for the values that a list has, which may be any lines? -/
structure PlainButValues (c : Column) : Prop where
  plain : ∃ length, ({ c with length } : Column).Plain
  list : c.type = .list → ∃ texts, c.length = some (.values texts) ∧ texts ≠ [] ∧
    ∀ text ∈ texts, '\n' ∉ text.toList
  single : c.type ≠ .list → ∀ texts, c.length ≠ some (.values texts)

variable {c : Column}

theorem PlainButValues.list_of_values (h : c.PlainButValues) {texts : List String}
    (given : c.length = some (.values texts)) :
    c.type = .list ∧ texts ≠ [] ∧ ∀ text ∈ texts, '\n' ∉ text.toList := by
  have list : c.type = .list := by
    by_contra other
    exact h.single other texts given
  obtain ⟨texts', given', told⟩ := h.list list
  obtain rfl : texts' = texts := by
    rw [given] at given'
    exact (Length.values.inj (Option.some.inj given')).symm
  exact ⟨list, told⟩

/-- A list whose values can be told apart is kept. -/
theorem PlainButValues.kept (h : c.PlainButValues)
    (listable : ∀ texts, c.length = some (.values texts) → Listable texts) : c.Kept := by
  obtain ⟨length, plain⟩ := h.plain
  have fits : ∀ length ∈ c.length, Fits (Dialect.mysql.nativeType c.type).toList length := by
    intro length given
    cases length with
    | values texts =>
      rw [(h.list_of_values given).1]
      exact ⟨.inl (by decide), listable texts given⟩
    | size n =>
      refine plain.type.fits (fun list => ?_) fun _ => Length.noConfusion
      obtain ⟨texts, values, -⟩ := h.list list
      rw [Option.mem_def.mp given] at values
      cases values
    | precision digits scale =>
      refine plain.type.fits (fun list => ?_) fun _ => Length.noConfusion
      obtain ⟨texts, values, -⟩ := h.list list
      rw [Option.mem_def.mp given] at values
      cases values
  have attributes : ∀ a ∈ c.attributes, a.Readable := plain.readable.attributes
  exact
    { named := plain.named
      readable := ⟨plain.named.named, plain.type.isNative, fits, attributes⟩
      stable := ⟨plain.type.native_ne, plain.null⟩
      marked := plain.marked }

/-- A list is a line that can be taken apart, whatever its values are. -/
theorem PlainButValues.legible (h : c.PlainButValues) : c.Legible := by
  by_cases listing : ∃ texts, c.length = some (.values texts)
  · obtain ⟨texts, given⟩ := listing
    obtain ⟨length, plain⟩ := h.plain
    have words : ∀ token ∈ c.attributes.flatMap Attribute.tokens, EndsLine token :=
      plain.readable.legible.words
    refine ⟨plain.named.named, plain.type.isNative, fun length' member => ?_, words⟩
    obtain rfl : .values texts = length' := Option.some.inj (given.symm.trans member)
    exact not_mem_values (by decide) (by decide) (h.list_of_values given).2.2
  · exact (h.kept fun texts given => absurd ⟨texts, given⟩ listing).readable.legible

end Column

/-- **Value lists are read back exactly if their values can be told apart.** However a table is
declared, with plain names around lists of any lines, its text is printed. If the text is read, a
list in it is a list again, and has the values that were declared exactly if they can be told apart;
and the table is read as the declared one exactly if this holds of all its lists. -/
theorem declared_lists_read_back_iff {name : String} {t : Table} (made : Table.Made name t)
    (frame : t.PlainFrame) (columns : ∀ c ∈ t.columns.tail, c.PlainButValues) :
    ∃ ddl, t.toSql .mysql = .ok ddl ∧
      (∀ read, Dialect.mysql.readTable ddl = .ok read →
        ∀ c ∈ t.columns, ∀ texts, c.length = some (.values texts) →
          ∃ c', read.column? c.name = some c' ∧ c'.type = .list ∧
            (c'.length = some (.values texts) ↔ Listable texts)) ∧
      ((∃ read, Dialect.mysql.readTable ddl = .ok read ∧ t.Restates read) ↔
        ∀ c ∈ t.columns, ∀ texts, c.length = some (.values texts) → Listable texts) := by
  have ordered := made.ordered.2
  have behind : ∀ c ∈ t.columns, ∀ texts, c.length = some (.values texts) → c ∈ t.columns.tail := by
    intro c member texts given
    refine (ordered.mem_columns_iff.mp member).resolve_left ?_
    rintro rfl
    cases given
  have names : ∀ c ∈ t.columns.tail, PlainName c.name ∧ c.Legible := by
    intro c member
    obtain ⟨length, plain⟩ := (columns c member).plain
    exact ⟨plain.named, (columns c member).legible⟩
  have told : ∀ c ∈ t.columns.tail, ∀ c', c.line.column? .mysql c.table = some c' →
      ∀ texts, c.length = some (.values texts) →
        c'.type = .list ∧ (c'.length = some (.values texts) ↔ Listable texts) := by
    intro c member c' column texts given
    obtain ⟨list, filled, oneLine⟩ := (columns c member).list_of_values given
    exact c.told_values_iff list given filled oneLine column
  obtain ⟨ddl, printed, each, whole⟩ := ordered.read_back_iff frame names
    (motive := fun c c' => ∀ texts, c.length = some (.values texts) →
      c'.type = .list ∧ (c'.length = some (.values texts) ↔ Listable texts))
    (fun c member c' column => ⟨told c member c' column, told c member c' column⟩)
    (fun c member listable => (columns c member).kept listable)
    (fun c _ c' values same texts given => (values texts given).2.mp (same.length.trans given))
  refine ⟨ddl, printed, fun read h c member texts given => ?_, ?_⟩
  · obtain ⟨c', found, values⟩ := each read h c (behind c member texts given)
    exact ⟨c', found, values texts given⟩
  · rw [whole]
    constructor
    · exact fun all c member texts given => all c (behind c member texts given) texts given
    · exact fun all c member => all c (List.mem_of_mem_tail member)

/-- A table with a list of the given values. -/
def Table.graded (texts : List String) : Table :=
  (Table.created .mysql "t").putColumn
    { table := "t", name := "grade", type := .list, length := some (.values texts) }

theorem Table.graded_made (texts : List String) : Table.Made "t" (Table.graded texts) :=
  .column .created rfl (by decide : "grade" ≠ implicitId)

theorem Table.graded_plain (texts : List String) (filled : texts ≠ [])
    (oneLine : ∀ text ∈ texts, '\n' ∉ text.toList) : (Table.graded texts).PlainFrame ∧
      ∀ c ∈ (Table.graded texts).columns.tail, c.PlainButValues := by
  refine ⟨Table.plainFrame_created (by decide), fun c member => ?_⟩
  rw [List.mem_singleton.mp member]
  have other : PlainValue "x" := ⟨by decide, by decide, by decide⟩
  refine
    { plain := ⟨some (.values ["x"]), ?_⟩, list := fun _ => ⟨texts, rfl, filled, oneLine⟩
      single := fun other => absurd rfl other }
  exact
    { named := (by decide : PlainName "grade"), type := trivial
      list := fun _ =>
        ⟨["x"], rfl, by decide, fun text member => List.mem_singleton.mp member ▸ other⟩
      single := fun other => absurd rfl other, marked := nofun, default := nofun, null := nofun
      collation := nofun, comment := nofun }

theorem declared_lists_read_back_quoted :
    Table.Made "t" (Table.graded ["it's", "a, b"]) ∧ (Table.graded ["it's", "a, b"]).PlainFrame ∧
      (∀ c ∈ (Table.graded ["it's", "a, b"]).columns.tail, c.PlainButValues) ∧
      ∃ ddl read, (Table.graded ["it's", "a, b"]).toSql .mysql = .ok ddl ∧
        Dialect.mysql.readTable ddl = .ok read ∧ (Table.graded ["it's", "a, b"]).Restates read := by
  have made := Table.graded_made ["it's", "a, b"]
  obtain ⟨frame, columns⟩ := Table.graded_plain ["it's", "a, b"] (by decide) (by decide)
  have listable : Listable ["it's", "a, b"] :=
    (splitTexts_map_iff (by decide) (by decide)).mp (by decide +kernel)
  obtain ⟨ddl, printed, -, whole⟩ := declared_lists_read_back_iff made frame columns
  obtain ⟨read, h, restates⟩ := whole.mpr fun c member texts given => by
    rcases List.mem_cons.mp member with rfl | member
    · cases given
    · obtain rfl := List.mem_singleton.mp member
      obtain rfl := Length.values.inj (Option.some.inj given)
      exact listable
  exact ⟨made, frame, columns, ddl, read, printed, h, restates⟩

/-- Where the table is printed with the first list, is the second one read? -/
def GradesReadAs (texts texts' : List String) : Prop :=
  ∃ ddl read c, (Table.graded texts).toSql .mysql = .ok ddl ∧
    Dialect.mysql.readTable ddl = .ok read ∧ read.column? "grade" = some c ∧
      c.length = some (.values texts')

theorem gradesReadAs_of_columnRead? {texts texts' : List String}
    (h : ((Table.graded texts).columnRead? "grade").map (·.length) = some (some (.values texts'))) :
    GradesReadAs texts texts' := by
  obtain ⟨c, found, length⟩ := Option.map_eq_some_iff.mp h
  have started := (Table.graded_made texts).ordered.2.toStarted
  obtain ⟨ddl, read, printed, h, column⟩ := started.exists_of_columnRead? found
  exact ⟨ddl, read, c, printed, h, column, length⟩

/-- **Lists are read as other lists**: values are cut at a parenthesis, lose white space at their
ends, and fall apart where they look like two. -/
theorem grades_read_otherwise :
    GradesReadAs ["low (1-3)", "b"] ["low (1-3"] ∧ GradesReadAs ["a ", "b"] ["a", "b"] ∧
      GradesReadAs ["a','b"] ["a", "b"] :=
  ⟨gradesReadAs_of_columnRead? (by decide +kernel), gradesReadAs_of_columnRead? (by decide +kernel),
    gradesReadAs_of_columnRead? (by decide +kernel)⟩

end SqlAccess
