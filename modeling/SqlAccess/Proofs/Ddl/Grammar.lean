import Mathlib.Data.List.DropRight
import SqlAccess.Proofs.Ddl.Layout
import SqlAccess.Proofs.Ddl.Shape

/-!
# The grammar of table definitions

A text is read as a table exactly if its lines, blank ones left out, are an opening line, then
columns, then keys, then a closing line (`TableShape`). Of the white space in it only the line feeds
count, and of those only that there is one (`trimmedLines_insert`).

What was read up to some line can always be completed (`exists_completion`). So the reading stops at
the first line with which no table begins (`canBegin_iff`), and this is the line that the error
names; where the text ends before the table does, the error names the end
(`tables_are_read_by_grammar`).
-/

namespace SqlAccess

open Ddl SqlAccess.Text

namespace Ddl

/-! ## White space -/

/-- The lines of a text that are not blank, without the white space around them. -/
def trimmedLines (text : List Char) : List (List Char) :=
  ((text.splitOn '\n').map trim).filter fun line => !line.isEmpty

theorem bodies_eq_map (text : List Char) :
    bodies text = (trimmedLines text).map (dropSuffixWhile (· == ',')) := by
  unfold bodies trimmedLines
  induction text.splitOn '\n' with
  | nil => rfl
  | cons piece pieces ih =>
    rw [List.filterMap_cons, body?, List.map_cons, List.filter_cons, ih]
    cases (trim piece).isEmpty <;> rfl

theorem trimmedLines_append_feed (front behind : List Char) :
    trimmedLines (front ++ '\n' :: behind) = trimmedLines front ++ trimmedLines behind := by
  rw [trimmedLines, List.splitOn_append_cons_self, List.map_append, List.filter_append]
  rfl

theorem trimmedLines_cons {c : Char} (blank : isBlank c = true) (text : List Char) :
    trimmedLines (c :: text) = trimmedLines text := by
  by_cases feed : c = '\n'
  · subst feed
    exact trimmedLines_append_feed [] text
  · unfold trimmedLines
    rw [splitOn_cons feed]
    cases pieces : text.splitOn '\n' with
    | nil => exact absurd pieces (List.splitOn_ne_nil '\n' text)
    | cons first pieces =>
      have trimmed : trim (c :: first) = trim first := dropAround_cons blank
      rw [List.modifyHead_cons, List.map_cons, List.map_cons, trimmed]

/-- A character at the end of a text is at the end of its last piece. -/
theorem splitOn_concat {separator c : Char} (other : c ≠ separator) (text : List Char) :
    ∃ front last, text.splitOn separator = front ++ [last] ∧
      (text ++ [c]).splitOn separator = front ++ [last ++ [c]] := by
  induction text with
  | nil =>
    exact ⟨[], [], rfl,
      List.splitOn_eq_singleton fun same => other (List.mem_singleton.mp same).symm⟩
  | cons d text ih =>
    obtain ⟨front, last, before, after⟩ := ih
    rw [List.cons_append, List.splitOn_cons_eq_if_modifyHead, List.splitOn_cons_eq_if_modifyHead,
      before, after]
    split
    next => exact ⟨[] :: front, last, rfl, rfl⟩
    next =>
      cases front with
      | nil => exact ⟨[], d :: last, rfl, rfl⟩
      | cons first front => exact ⟨(d :: first) :: front, last, rfl, rfl⟩

theorem trimmedLines_concat {c : Char} (blank : isBlank c = true) (text : List Char) :
    trimmedLines (text ++ [c]) = trimmedLines text := by
  by_cases feed : c = '\n'
  · rw [feed, trimmedLines_append_feed]
    exact List.append_nil _
  · obtain ⟨front, last, before, after⟩ := splitOn_concat feed text
    have trimmed : trim (last ++ [c]) = trim last := dropAround_concat blank
    rw [trimmedLines, trimmedLines, before, after, List.map_append, List.map_append,
      List.map_singleton, List.map_singleton, trimmed]

section

variable {blanks : List Char} (blank : ∀ c ∈ blanks, isBlank c = true)

include blank

theorem trimmedLines_blanks_append (text : List Char) :
    trimmedLines (blanks ++ text) = trimmedLines text := by
  induction blanks with
  | nil => rfl
  | cons c blanks ih =>
    rw [List.cons_append, trimmedLines_cons (blank c List.mem_cons_self),
      ih fun d member => blank d (List.mem_cons_of_mem c member)]

theorem trimmedLines_append_blanks (text : List Char) :
    trimmedLines (text ++ blanks) = trimmedLines text := by
  induction blanks generalizing text with
  | nil => rw [List.append_nil]
  | cons c blanks ih =>
    rw [← List.singleton_append, ← List.append_assoc,
      ih fun d member => blank d (List.mem_cons_of_mem c member),
      trimmedLines_concat (blank c List.mem_cons_self)]

/-- **White space at the start or at the end of a line does not count**, nor do line feeds there. -/
theorem trimmedLines_insert {before after : List Char}
    (edge : (∀ c ∈ before.getLast?, c = '\n') ∨ ∀ c ∈ after.head?, c = '\n') :
    trimmedLines (before ++ (blanks ++ after)) = trimmedLines (before ++ after) := by
  rcases edge with start | ending
  · rcases before.eq_nil_or_concat' with rfl | ⟨front, c, rfl⟩
    · exact trimmedLines_blanks_append blank after
    · rw [start c List.getLast?_concat, List.append_assoc, List.append_assoc, List.singleton_append,
        List.singleton_append, trimmedLines_append_feed, trimmedLines_append_feed,
        trimmedLines_blanks_append blank]
  · cases after with
    | nil => rw [List.append_nil, List.append_nil, trimmedLines_append_blanks blank]
    | cons c behind =>
      rw [ending c rfl, ← List.append_assoc, trimmedLines_append_feed, trimmedLines_append_feed,
        trimmedLines_append_blanks blank]

end

/-! ## The order of lines -/

/-- Keys, and then the closing line. -/
def KeysShape (lines : List (List Char)) : Prop :=
  ∃ keys closing, lines = keys ++ [closing] ∧ (∀ line ∈ keys, KeyShape line) ∧
    closing.head? = some ')'

/-- Columns, then keys, then the closing line. -/
def ColumnsShape (lines : List (List Char)) : Prop :=
  ∃ columns rest, lines = columns ++ rest ∧ (∀ line ∈ columns, ColumnShape line) ∧ KeysShape rest

/-- The lines of a table definition: the opening line, then columns, then keys, then the closing
line. -/
def TableShape (lines : List (List Char)) : Prop :=
  ∃ opening rest, lines = opening :: rest ∧ OpeningShape opening ∧ ColumnsShape rest

theorem not_keysShape_nil : ¬ KeysShape [] := by
  rintro ⟨keys, closing, whole, -⟩
  exact List.append_ne_nil_of_right_ne_nil keys (List.cons_ne_nil closing []) whole.symm

theorem keysShape_cons_iff {line : List Char} {rest : List (List Char)} :
    KeysShape (line :: rest) ↔
      (KeyShape line ∧ KeysShape rest) ∨ (line.head? = some ')' ∧ rest = []) := by
  constructor
  · rintro ⟨keys, closing, whole, all, closes⟩
    cases keys with
    | nil =>
      obtain ⟨rfl, rfl⟩ := List.cons.inj whole
      exact .inr ⟨closes, rfl⟩
    | cons key keys =>
      obtain ⟨rfl, rfl⟩ := List.cons.inj whole
      exact .inl ⟨all line List.mem_cons_self, keys, closing, rfl,
        fun other member => all other (List.mem_cons_of_mem line member), closes⟩
  · rintro (⟨key, keys, closing, rfl, all, closes⟩ | ⟨closes, rfl⟩)
    · exact ⟨line :: keys, closing, rfl, List.forall_mem_cons.mpr ⟨key, all⟩, closes⟩
    · exact ⟨[], line, rfl, nofun, closes⟩

theorem columnsShape_cons_iff {line : List Char} {rest : List (List Char)} :
    ColumnsShape (line :: rest) ↔
      (ColumnShape line ∧ ColumnsShape rest) ∨ KeysShape (line :: rest) := by
  constructor
  · rintro ⟨columns, behind, whole, all, keys⟩
    cases columns with
    | nil =>
      obtain rfl : line :: rest = behind := whole
      exact .inr keys
    | cons column columns =>
      obtain ⟨rfl, rfl⟩ := List.cons.inj whole
      exact .inl ⟨all line List.mem_cons_self, columns, behind, rfl,
        fun other member => all other (List.mem_cons_of_mem line member), keys⟩
  · rintro (⟨column, columns, behind, rfl, all, keys⟩ | keys)
    · exact ⟨line :: columns, behind, rfl, List.forall_mem_cons.mpr ⟨column, all⟩, keys⟩
    · exact ⟨[], line :: rest, rfl, nofun, keys⟩

theorem not_columnsShape_nil : ¬ ColumnsShape [] := by
  rintro ⟨columns, rest, whole, -, keys⟩
  obtain ⟨-, rfl⟩ := List.append_eq_nil_iff.mp whole.symm
  exact not_keysShape_nil keys

/-! ## What is read -/

section

variable {d : Dialect} {progress : Progress} {t : Table} {body : List Char}
  {rest : List (List Char)}

/-- Lines lead the reading to the end of a table. -/
def Progress.Closes (d : Dialect) (progress : Progress) (bodies : List (List Char)) : Prop :=
  ∃ t, progress.through d bodies = some (.closed t)

theorem Progress.closes_cons_iff : progress.Closes d (body :: rest) ↔
    ∃ next, progress.next d body = some next ∧ next.Closes d rest := by
  unfold Closes
  simp only [through_cons, Option.bind_eq_some_iff]
  exact ⟨fun ⟨t, next, step, more⟩ => ⟨next, step, t, more⟩,
    fun ⟨next, step, t, more⟩ => ⟨t, next, step, more⟩⟩

theorem Progress.closes_closed_iff : (Progress.closed t).Closes d rest ↔ rest = [] := by
  cases rest with
  | nil => exact iff_of_true ⟨t, rfl⟩ rfl
  | cons body rest =>
    rw [closes_cons_iff]
    exact iff_of_false (fun ⟨next, step, _⟩ => nomatch step) (List.cons_ne_nil body rest)

theorem Progress.closes_keys_iff : (Progress.keys t).Closes d rest ↔ KeysShape rest := by
  induction rest generalizing t with
  | nil => exact iff_of_false (fun ⟨t', same⟩ => nomatch same) not_keysShape_nil
  | cons body rest ih =>
    rw [closes_cons_iff, keysShape_cons_iff, ← isSome_readKey_iff (t := t)]
    simp only [Progress.next, finish_eq_some_iff]
    constructor
    · rintro ⟨next, ⟨t', read, rfl⟩ | ⟨closes, rfl⟩, more⟩
      · exact .inl ⟨Option.isSome_of_mem read, ih.mp more⟩
      · exact .inr ⟨closes, closes_closed_iff.mp more⟩
    · rintro (⟨read, more⟩ | ⟨closes, rfl⟩)
      · obtain ⟨t', read⟩ := Option.isSome_iff_exists.mp read
        exact ⟨_, .inl ⟨t', read, rfl⟩, ih.mpr more⟩
      · exact ⟨_, .inr ⟨closes, rfl⟩, closes_closed_iff.mpr rfl⟩

theorem Progress.closes_columns_iff : (Progress.columns t).Closes d rest ↔ ColumnsShape rest := by
  induction rest generalizing t with
  | nil => exact iff_of_false (fun ⟨t', same⟩ => nomatch same) not_columnsShape_nil
  | cons body rest ih =>
    have keys : (Progress.keys t).Closes d (body :: rest) ↔ KeysShape (body :: rest) :=
      closes_keys_iff
    rw [closes_cons_iff, columnsShape_cons_iff, ← keys, closes_cons_iff,
      ← isSome_readColumn_iff (d := d) (t := t)]
    simp only [next_columns_eq_some_iff]
    constructor
    · rintro ⟨next, ⟨t', read, rfl⟩ | finished, more⟩
      · exact .inl ⟨Option.isSome_of_mem read, ih.mp more⟩
      · exact .inr ⟨next, finished, more⟩
    · rintro (⟨read, more⟩ | ⟨next, finished, more⟩)
      · obtain ⟨t', read⟩ := Option.isSome_iff_exists.mp read
        exact ⟨_, .inl ⟨t', read, rfl⟩, ih.mpr more⟩
      · exact ⟨next, .inr finished, more⟩

/-- **Lines are read as a table** exactly if they have the shape of one. -/
theorem Progress.closes_start_iff {bodies : List (List Char)} :
    Progress.start.Closes d bodies ↔ TableShape bodies := by
  cases bodies with
  | nil => exact iff_of_false (fun ⟨t', same⟩ => nomatch same) fun ⟨_, _, whole, _⟩ => nomatch whole
  | cons body rest =>
    rw [closes_cons_iff]
    simp only [Progress.next, Option.map_eq_some_iff]
    constructor
    · rintro ⟨next, ⟨name, read, rfl⟩, more⟩
      exact ⟨body, rest, rfl, isSome_opening?_iff.mp (Option.isSome_of_mem read),
        closes_columns_iff.mp more⟩
    · rintro ⟨opening, rest, whole, shape, more⟩
      obtain ⟨rfl, rfl⟩ := List.cons.inj whole
      obtain ⟨name, read⟩ := Option.isSome_iff_exists.mp (isSome_opening?_iff.mpr shape)
      exact ⟨_, ⟨name, read, rfl⟩, closes_columns_iff.mpr more⟩

end

/-- **A text is read as a table** exactly if its lines have the shape of one. -/
theorem exists_readTable_iff {d : Dialect} {text : List Char} : (∃ t, readTable d text = .ok t) ↔
    TableShape ((trimmedLines text).map (dropSuffixWhile (· == ','))) := by
  simp only [readTable_eq_ok]
  rw [← bodies_eq_map]
  exact Progress.closes_start_iff

/-- What is read depends on the trimmed lines alone. -/
theorem toOption_readTable_congr {d : Dialect} {text text' : List Char}
    (same : trimmedLines text = trimmedLines text') :
    (readTable d text).toOption = (readTable d text').toOption := by
  have bodies : bodies text = bodies text' := by rw [bodies_eq_map, bodies_eq_map, same]
  have read : ∀ t, readTable d text = .ok t ↔ readTable d text' = .ok t := fun t => by
    rw [readTable_eq_ok, readTable_eq_ok, bodies]
  cases first : readTable d text with
  | ok t => rw [(read t).mp first]
  | error e =>
    cases second : readTable d text' with
    | ok t => exact absurd (first.symm.trans ((read t).mpr second)) nofun
    | error e' => rfl

/-! ## How a text can go on -/

section

variable {d : Dialect} {progress : Progress} {front behind : List (List Char)}

/-- Where the reading is after some lines of a text, blank ones among them. -/
def Progress.after (d : Dialect) (progress : Progress) (pieces : List (List Char)) :
    Option Progress :=
  progress.through d (pieces.filterMap body?)

theorem Progress.after_append :
    progress.after d (front ++ behind) = (progress.after d front).bind (·.after d behind) := by
  unfold after
  rw [List.filterMap_append, through_append]

/-- **Whatever was read can be completed**, by an opening line and a closing one at the most. -/
theorem Progress.exists_completion (d : Dialect) (progress : Progress) :
    ∃ lines, lines ≠ [] ∧ (∀ line ∈ lines, '\n' ∉ line) ∧ ∃ t,
      progress.after d lines = some (.closed t) := by
  have closing : [[')']].filterMap body? = [[')']] := by decide
  have keys : KeysShape [[')']] := ⟨[], _, rfl, nofun, rfl⟩
  have columns : ColumnsShape [[')']] := ⟨[], _, rfl, nofun, keys⟩
  cases progress with
  | start =>
    have bodies : ["CREATE TABLE \x60t\x60 (".toList, [')']].filterMap body? =
        ["CREATE TABLE \x60t\x60 (".toList, [')']] := by decide
    refine ⟨_, List.cons_ne_nil "CREATE TABLE \x60t\x60 (".toList [[')']], by decide, ?_⟩
    unfold after
    rw [bodies]
    exact closes_start_iff.mpr
      ⟨_, _, rfl, ⟨['t'], by decide, _, List.mem_cons_self, by decide⟩, columns⟩
  | columns t =>
    refine ⟨_, List.cons_ne_nil [')'] [], by decide, ?_⟩
    unfold after
    rw [closing]
    exact closes_columns_iff.mpr columns
  | keys t =>
    refine ⟨_, List.cons_ne_nil [')'] [], by decide, ?_⟩
    unfold after
    rw [closing]
    exact closes_keys_iff.mpr keys
  | closed t => exact ⟨_, List.cons_ne_nil [] [], by decide, t, rfl⟩

theorem readTable_eq_ok_iff_after {text : List Char} {t : Table} :
    readTable d text = .ok t ↔
      Progress.start.after d (text.splitOn '\n') = some (.closed t) :=
  readTable_eq_ok

/-- Some text that is read as a table begins with the given lines. -/
def CanBegin (d : Dialect) (front : List (List Char)) : Prop :=
  ∃ text t, readTable d text = .ok t ∧ front <+: text.splitOn '\n'

theorem canBegin_iff (oneLine : ∀ line ∈ front, '\n' ∉ line) :
    CanBegin d front ↔ (Progress.start.after d front).isSome := by
  constructor
  · rintro ⟨text, t, read, rest, whole⟩
    rw [readTable_eq_ok_iff_after, ← whole, Progress.after_append] at read
    obtain ⟨reached, first, -⟩ := Option.bind_eq_some_iff.mp read
    exact Option.isSome_of_mem first
  · intro read
    obtain ⟨reached, first⟩ := Option.isSome_iff_exists.mp read
    obtain ⟨lines, filled, oneLine', t, last⟩ := reached.exists_completion d
    -- The text is made of the given lines and of those that complete them.
    have completed : Progress.start.after d (front ++ lines) = some (.closed t) := by
      rw [Progress.after_append, first, Option.bind_some, last]
    have all : ∀ line ∈ front ++ lines, '\n' ∉ line :=
      List.forall_mem_append.mpr ⟨oneLine, oneLine'⟩
    obtain ⟨line, more, whole⟩ :=
      List.exists_cons_of_ne_nil (List.append_ne_nil_of_right_ne_nil front filled)
    rw [whole] at all
    have cut : (line ++ more.flatMap ('\n' :: ·)).splitOn '\n' = front ++ lines := by
      rw [splitOn_flatMap (List.forall_mem_cons.mp all).1 (List.forall_mem_cons.mp all).2, whole]
    refine ⟨line ++ more.flatMap ('\n' :: ·), t, readTable_eq_ok_iff_after.mpr ?_, lines, cut.symm⟩
    rw [cut, completed]

end

/-! ## Where the reading stops -/

section

variable {d : Dialect} {progress : Progress} {e : Error}

/-- The reading of one line of a text, which may be blank. -/
theorem Progress.advance_numbered_cons (number : Nat) (piece : List Char)
    (pieces : List (List Char)) : progress.advance d (numbered number (piece :: pieces)) =
      match progress.after d [piece] with
      | some reached => reached.advance d (numbered (number + 1) pieces)
      | none => .error (.unreadableLine number (String.ofList (trim piece))) := by
  rw [← List.singleton_append, numbered_append, numbered_singleton, after, List.filterMap_cons,
    body?]
  split
  next => rfl
  next =>
    rw [List.singleton_append, advance, List.filterMap_nil, through_cons, Line.body]
    cases progress.next d (dropSuffixWhile (· == ',') (trim piece)) <;> rfl

/-- **The reading stops at the first line that cannot stand where it does.** -/
theorem Progress.advance_numbered_eq_error_iff {number : Nat} {pieces : List (List Char)} :
    progress.advance d (numbered number pieces) = .error e ↔
      ∃ front line rest, pieces = front ++ line :: rest ∧ (progress.after d front).isSome ∧
        progress.after d (front ++ [line]) = none ∧
        e = .unreadableLine (number + front.length) (String.ofList (trim line)) := by
  -- A blank line leaves the reading where it is, so every line is one step, counted in any case.
  induction pieces generalizing progress number with
  | nil =>
    refine iff_of_false nofun ?_
    rintro ⟨front, line, rest, whole, -⟩
    exact List.append_ne_nil_of_right_ne_nil front (List.cons_ne_nil line rest) whole.symm
  | cons piece pieces ih =>
    have cons : ∀ front, progress.after d (piece :: front) =
        (progress.after d [piece]).bind (·.after d front) := fun front => by
      rw [← List.singleton_append, after_append]
    rw [advance_numbered_cons]
    cases step : progress.after d [piece] with
    | none =>
      constructor
      · intro stops
        exact ⟨[], piece, pieces, rfl, rfl, step, (Except.error.inj stops).symm⟩
      · rintro ⟨front, line, rest, whole, before, -, rfl⟩
        cases front with
        | nil =>
          obtain ⟨rfl, -⟩ := List.cons.inj whole
          rfl
        | cons first front =>
          obtain ⟨rfl, -⟩ := List.cons.inj whole
          rw [cons, step] at before
          cases before
    | some reached =>
      dsimp only
      rw [ih]
      constructor
      · rintro ⟨front, line, rest, rfl, before, stops, rfl⟩
        refine ⟨piece :: front, line, rest, rfl, ?_, ?_, ?_⟩
        · rwa [cons, step]
        · rwa [List.cons_append, cons, step]
        · rw [List.length_cons, Nat.add_right_comm, Nat.add_assoc]
      · rintro ⟨front, line, rest, whole, before, stops, rfl⟩
        cases front with
        | nil =>
          obtain ⟨rfl, -⟩ := List.cons.inj whole
          rw [List.nil_append, step] at stops
          cases stops
        | cons first front =>
          obtain ⟨rfl, rfl⟩ := List.cons.inj whole
          rw [cons, step] at before
          rw [List.cons_append, cons, step] at stops
          refine ⟨front, line, rest, rfl, before, stops, ?_⟩
          rw [List.length_cons, Nat.add_right_comm, Nat.add_assoc]

/-- The number of the last line that is not blank. -/
def lastFilled (pieces : List (List Char)) : Nat :=
  (pieces.rdropWhile fun line => (trim line).isEmpty).length

theorem number_getLast?_numbered (pieces : List (List Char)) :
    ((numbered 1 pieces).getLast?.map (·.number)).getD 0 = lastFilled pieces := by
  induction pieces using List.reverseRecOn with
  | nil => rfl
  | append_singleton pieces piece ih =>
    rw [numbered_append, numbered_singleton, lastFilled]
    split
    next blank =>
      rw [List.append_nil, ih, lastFilled,
        List.rdropWhile_concat_pos (fun line => (trim line).isEmpty) pieces piece blank]
    next filled =>
      rw [List.getLast?_concat,
        List.rdropWhile_concat_neg (fun line => (trim line).isEmpty) pieces piece filled,
        List.length_append, List.length_singleton, Nat.add_comm]
      rfl

/-- **Why a text is not read as a table**: a line cannot stand where it does, or every line can and
the table is not closed. -/
theorem readTable_eq_error_iff {text : List Char} : readTable d text = .error e ↔
    (∃ front line rest, text.splitOn '\n' = front ++ line :: rest ∧
        (Progress.start.after d front).isSome ∧ Progress.start.after d (front ++ [line]) = none ∧
        e = .unreadableLine (front.length + 1) (String.ofList (trim line))) ∨
      ((Progress.start.after d (text.splitOn '\n')).isSome ∧ (¬ ∃ t, readTable d text = .ok t) ∧
        e = .unreadableLine (lastFilled (text.splitOn '\n') + 1) endOfInput) := by
  have stops : Progress.start.advance d (lines text) = .error e ↔
      ∃ front line rest, text.splitOn '\n' = front ++ line :: rest ∧
        (Progress.start.after d front).isSome ∧ Progress.start.after d (front ++ [line]) = none ∧
        e = .unreadableLine (front.length + 1) (String.ofList (trim line)) := by
    simp only [← Nat.add_comm 1]
    exact Progress.advance_numbered_eq_error_iff
  have arrives : ∀ reached, Progress.start.advance d (lines text) = .ok reached ↔
      Progress.start.after d (text.splitOn '\n') = some reached := fun reached => by
    rw [Progress.advance_eq_ok, map_body_lines]
    rfl
  rw [← stops, ← number_getLast?_numbered]
  simp only [readTable_eq_ok_iff_after, Option.isSome_iff_exists, ← arrives]
  unfold readTable
  cases Progress.start.advance d (lines text) with
  | error e' =>
    rw [or_iff_left fun ⟨⟨_, arrived⟩, _⟩ => nomatch arrived]
    exact ⟨fun h => congrArg _ (Except.error.inj h), fun h => congrArg _ (Except.error.inj h)⟩
  | ok reached =>
    rw [or_iff_right nofun, and_iff_right ⟨reached, rfl⟩]
    cases reached with
    | closed t => exact iff_of_false nofun fun opened => opened.1 ⟨t, rfl⟩
    | _ =>
      rw [and_iff_right fun ⟨_, closed⟩ => nomatch closed]
      exact ⟨fun h => (Except.error.inj h).symm, fun h => congrArg _ h.symm⟩

end

end Ddl

/-- **The texts that are read as tables, and why the others are not.** The trimmed lines alone
decide what is read, so that white space at the edge of a line and blank lines do not count. A text
is read exactly if these lines, without the commas at their ends, have the shape of a table. Any
other text is refused: for the first line with which no text begins that is read, or, if there is no
such line, for the end behind its last line that is not blank. -/
theorem tables_are_read_by_grammar (ddl : String) :
    (∀ ddl' : String, trimmedLines ddl'.toList = trimmedLines ddl.toList →
      (Dialect.mysql.readTable ddl').toOption = (Dialect.mysql.readTable ddl).toOption) ∧
    (∀ before blanks after, ddl = String.ofList (before ++ after) →
      (∀ c ∈ blanks, isBlank c = true) →
      ((∀ c ∈ before.getLast?, c = '\n') ∨ ∀ c ∈ after.head?, c = '\n') →
      (Dialect.mysql.readTable (String.ofList (before ++ (blanks ++ after)))).toOption =
        (Dialect.mysql.readTable ddl).toOption) ∧
    ((∃ t, Dialect.mysql.readTable ddl = .ok t) ↔
      TableShape ((trimmedLines ddl.toList).map (dropSuffixWhile (· == ',')))) ∧
    ∀ e, Dialect.mysql.readTable ddl = .error e ↔
      (∃ front line rest, ddl.toList.splitOn '\n' = front ++ line :: rest ∧
        CanBegin .mysql front ∧ ¬ CanBegin .mysql (front ++ [line]) ∧
        e = .unreadableLine (front.length + 1) (String.ofList (trim line))) ∨
      (CanBegin .mysql (ddl.toList.splitOn '\n') ∧ (¬ ∃ t, Dialect.mysql.readTable ddl = .ok t) ∧
        e = .unreadableLine (lastFilled (ddl.toList.splitOn '\n') + 1) endOfInput) := by
  have congr : ∀ ddl' : String, trimmedLines ddl'.toList = trimmedLines ddl.toList →
      (Dialect.mysql.readTable ddl').toOption = (Dialect.mysql.readTable ddl).toOption :=
    fun _ => toOption_readTable_congr
  refine ⟨congr, ?_, exists_readTable_iff, fun e => ?_⟩
  · rintro before blanks after rfl blank edge
    refine congr _ ?_
    rw [String.toList_ofList, String.toList_ofList, trimmedLines_insert blank edge]
  · have whole : ∀ line ∈ ddl.toList.splitOn '\n', '\n' ∉ line := fun _ member =>
      (mem_splitOn member).1
    refine readTable_eq_error_iff.trans (or_congr ?_ (and_congr_left' (canBegin_iff whole).symm))
    refine exists_congr fun front => exists_congr fun line => exists_congr fun rest =>
      and_congr_right fun cut => ?_
    have upTo : ∀ other ∈ front ++ [line], '\n' ∉ other := by
      refine fun other member => whole other ?_
      rw [cut, List.append_cons]
      exact List.mem_append_left rest member
    rw [canBegin_iff fun other member => upTo other (List.mem_append_left _ member),
      canBegin_iff upTo, Option.not_isSome_iff_eq_none]

/-- A definition with carriage returns and a blank line in it is read like the one without. -/
theorem tables_are_read_by_grammar_notes :
    let before := "CREATE TABLE `notes` (\n  `at` date,".toList
    let after := "\n  KEY `by_at` (`at`)\n)".toList
    let ddl := String.ofList (before ++ after)
    ∃ t, Dialect.mysql.readTable ddl = .ok t ∧
      (Dialect.mysql.readTable (String.ofList (before ++ ("\r\n \t\r".toList ++ after)))).toOption =
        some t := by
  intro before after ddl
  obtain ⟨-, spaced, shape, -⟩ := tables_are_read_by_grammar ddl
  have lines : (trimmedLines ddl.toList).map (dropSuffixWhile (· == ',')) =
      ["CREATE TABLE `notes` (".toList, "`at` date".toList, "KEY `by_at` (`at`)".toList,
        ")".toList] := by
    rw [String.toList_ofList]
    decide
  have opening : OpeningShape "CREATE TABLE `notes` (".toList :=
    ⟨"notes".toList, by decide, _, List.mem_cons_self, by decide⟩
  have column : ColumnShape "`at` date".toList :=
    ⟨"at".toList, [' '], "date".toList, [], by decide, by decide, by decide, by decide,
      .inr (.inr ⟨by decide, .nil⟩)⟩
  have key : KeyShape "KEY `by_at` (`at`)".toList :=
    .inr (.inl ⟨"by_at".toList, "`at`".toList, [], by decide, by decide, by decide⟩)
  have table : TableShape ["CREATE TABLE `notes` (".toList, "`at` date".toList,
      "KEY `by_at` (`at`)".toList, ")".toList] :=
    ⟨_, _, rfl, opening, [_], [_, _], rfl, List.forall_mem_singleton.mpr column, [_], _, rfl,
      List.forall_mem_singleton.mpr key, by decide⟩
  obtain ⟨t, read⟩ := shape.mpr (lines ▸ table)
  refine ⟨t, read, ?_⟩
  rw [spaced before "\r\n \t\r".toList after rfl (by decide) (.inr (by decide)), read]
  rfl

end SqlAccess
