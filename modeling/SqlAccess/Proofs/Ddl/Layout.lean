import SqlAccess.Ddl.Reader
import SqlAccess.Ddl.Statement
import SqlAccess.Proofs.Ddl.ClosingLine
import SqlAccess.Proofs.Ddl.Quoting

/-!
# The layout of a table definition

Reading a table depends on the bodies of the lines alone, not on their numbers: a text is read as a
table when its bodies lead from the start to a closed table (`readTable_eq_ok`). The text of a table
is an opening line, a line for each clause, indented and with commas between them, and a closing
line; its bodies are those lines (`bodies_printed`).
-/

namespace SqlAccess

open Ddl SqlAccess.Text

namespace Ddl

/-! ## Bodies -/

/-- The body of a line, unless the line is blank. -/
def body? (line : List Char) : Option (List Char) :=
  if (trim line).isEmpty then none else some (dropSuffixWhile (· == ',') (trim line))

/-- The bodies of the lines of a text. -/
def bodies (text : List Char) : List (List Char) :=
  (text.splitOn '\n').filterMap body?

/-- The lines that are not blank, numbered from the given number on, blank ones counted. -/
def numbered (number : Nat) (pieces : List (List Char)) : List Line :=
  ((pieces.zipIdx number).map fun (line, number) => ⟨number, trim line⟩).filter
    fun line => !line.text.isEmpty

theorem numbered_append (number : Nat) (front behind : List (List Char)) :
    numbered number (front ++ behind) =
      numbered number front ++ numbered (number + front.length) behind := by
  rw [numbered, List.zipIdx_append, List.map_append, List.filter_append]
  rfl

theorem numbered_singleton (number : Nat) (piece : List Char) :
    numbered number [piece] = if (trim piece).isEmpty then [] else [⟨number, trim piece⟩] := by
  unfold numbered
  cases blank : (trim piece).isEmpty <;> simp [blank]

theorem map_body_numbered (number : Nat) (pieces : List (List Char)) :
    (numbered number pieces).map Line.body = pieces.filterMap body? := by
  induction pieces generalizing number with
  | nil => rfl
  | cons piece pieces ih =>
    rw [← List.singleton_append, numbered_append, List.map_append, ih, List.filterMap_append,
      numbered_singleton, List.filterMap_cons, body?]
    split <;> rfl

theorem map_body_lines (text : List Char) : (lines text).map Line.body = bodies text :=
  map_body_numbered 1 (text.splitOn '\n')

/-- Where the reading is after some lines, if each of them can stand where it does. -/
def Progress.through (d : Dialect) (progress : Progress) (bodies : List (List Char)) :
    Option Progress :=
  bodies.foldlM (fun progress body => progress.next d body) progress

section

variable {d : Dialect} {progress reached : Progress} {text : List Char}

theorem Progress.through_cons {body : List Char} {rest : List (List Char)} :
    progress.through d (body :: rest) = (progress.next d body).bind (·.through d rest) :=
  List.foldlM_cons

theorem Progress.through_append {front behind : List (List Char)} :
    progress.through d (front ++ behind) = (progress.through d front).bind (·.through d behind) :=
  List.foldlM_append

theorem Progress.advance_eq_ok {read : List Line} :
    progress.advance d read = .ok reached ↔
      progress.through d (read.map Line.body) = some reached := by
  induction read generalizing progress with
  | nil => exact ⟨fun h => congrArg some (Except.ok.inj h), fun h => congrArg _ (Option.some.inj h)⟩
  | cons line read ih =>
    rw [List.map_cons, through_cons, advance]
    cases progress.next d line.body with
    | none => exact iff_of_false nofun nofun
    | some progress => exact ih

/-- **A text is a table** when its lines lead from the start to a closed table. -/
theorem readTable_eq_ok {t : Table} :
    readTable d text = .ok t ↔ Progress.start.through d (bodies text) = some (.closed t) := by
  rw [← map_body_lines, ← Progress.advance_eq_ok]
  unfold readTable
  cases Progress.start.advance d (lines text) with
  | error e => exact iff_of_false nofun nofun
  | ok reached =>
    cases reached with
    | closed t' =>
      exact ⟨fun h => congrArg _ (congrArg _ (Except.ok.inj h)),
        fun h => congrArg _ (Progress.closed.inj (Except.ok.inj h))⟩
    | start => exact iff_of_false nofun nofun
    | columns t' => exact iff_of_false nofun nofun
    | keys t' => exact iff_of_false nofun nofun

theorem Progress.advance_eq_error {read : List Line} {e : Error}
    (h : progress.advance d read = .error e) :
    ∃ line ∈ read, e = .unreadableLine line.number (String.ofList line.text) := by
  induction read generalizing progress with
  | nil => cases h
  | cons line read ih =>
    rw [advance] at h
    split at h
    next =>
      obtain ⟨line', member, same⟩ := ih h
      exact ⟨line', List.mem_cons_of_mem line member, same⟩
    next => exact ⟨line, List.mem_cons_self, (Except.error.inj h).symm⟩

/-- A text that is no table is refused for a line, or for its end. -/
theorem readTable_eq_error {e : Error} (h : readTable d text = .error e) :
    ∃ number line, e = .unreadableLine number line := by
  unfold readTable at h
  cases reached : Progress.start.advance d (lines text) with
  | error e' =>
    rw [reached] at h
    obtain rfl : e' = e := Except.error.inj h
    obtain ⟨line, -, same⟩ := Progress.advance_eq_error reached
    exact ⟨_, _, same⟩
  | ok progress =>
    rw [reached] at h
    cases progress with
    | closed t => cases h
    | start => exact ⟨_, _, (Except.error.inj h).symm⟩
    | columns t => exact ⟨_, _, (Except.error.inj h).symm⟩
    | keys t => exact ⟨_, _, (Except.error.inj h).symm⟩

end

/-! ## Printed lines -/

/-- The lines between the parentheses: indented, and with commas between them. -/
def indented : List (List Char) → List (List Char)
  | [] => []
  | [line] => ["    ".toList ++ line]
  | line :: next :: rest => ("    ".toList ++ (line ++ [','])) :: indented (next :: rest)

theorem body?_of_solid {line before after : List Char} (solid : Solid line)
    (blank : ∀ c ∈ before, isBlank c = true) (commas : ∀ c ∈ after, c = ',') :
    body? (before ++ (line ++ after)) = some line := by
  have start : ∀ c ∈ (line ++ after).head?, isBlank c = false := by
    cases line with
    | nil => exact absurd rfl solid.ne_nil
    | cons c line => exact solid.start
  have ending : ∀ c ∈ (line ++ after).getLast?, isBlank c = false := by
    intro c last
    rw [List.getLast?_append, Option.mem_def, Option.or_eq_some_iff] at last
    rcases last with last | ⟨-, last⟩
    · rw [commas c (List.mem_of_getLast? last)]
      decide
    · exact (solid.ending c last).1
  have kept : trim (before ++ (line ++ after)) = line ++ after :=
    dropAround_of_start blank start ending
  have filled : (line ++ after).isEmpty = false := by simp [solid.ne_nil]
  have bare : dropSuffixWhile (· == ',') (line ++ after) = line :=
    dropSuffixWhile_append_of_stop (fun c member => beq_iff_eq.mpr (commas c member))
      fun c last => beq_false_of_ne (solid.ending c last).2
  rw [body?, kept, filled, bare]
  rfl

theorem filterMap_body?_indented {clauses : List (List Char)} (solid : ∀ c ∈ clauses, Solid c) :
    (indented clauses).filterMap body? = clauses := by
  have spaces : ∀ c ∈ "    ".toList, isBlank c = true := by decide
  induction clauses with
  | nil => rfl
  | cons line rest ih =>
    have first := solid line List.mem_cons_self
    cases rest with
    | nil =>
      have body : body? ("    ".toList ++ (line ++ [])) = some line :=
        body?_of_solid first spaces fun _ member => nomatch member
      rw [List.append_nil] at body
      rw [indented, List.filterMap_cons, body]
      rfl
    | cons next rest =>
      have body : body? ("    ".toList ++ (line ++ [','])) = some line :=
        body?_of_solid first spaces fun _ => List.mem_singleton.mp
      rw [indented, List.filterMap_cons, body, ih fun c member => solid c (List.mem_cons_of_mem _ member)]

theorem not_mem_indented {clauses : List (List Char)} (solid : ∀ c ∈ clauses, Solid c) :
    ∀ line ∈ indented clauses, '\n' ∉ line := by
  have spaces : '\n' ∉ "    ".toList := by decide
  induction clauses with
  | nil => exact fun _ member => nomatch member
  | cons line rest ih =>
    have first := (solid line List.mem_cons_self).oneLine
    cases rest with
    | nil =>
      intro printed member
      rw [List.mem_singleton.mp member, List.mem_append, not_or]
      exact ⟨spaces, first⟩
    | cons next rest =>
      intro printed member
      rcases List.mem_cons.mp member with rfl | member
      · rw [List.mem_append, List.mem_append, not_or, not_or]
        exact ⟨spaces, first, by decide⟩
      · exact ih (fun c inside => solid c (List.mem_cons_of_mem _ inside)) printed member

/-- **The bodies of a printed table** are its lines. -/
theorem bodies_printed {opening closing : List Char} {clauses : List (List Char)}
    (opened : Solid opening) (solid : ∀ c ∈ clauses, Solid c) (closed : Solid closing) :
    bodies (opening ++ (indented clauses ++ [closing]).flatMap ('\n' :: ·)) =
      opening :: (clauses ++ [closing]) := by
  have none : ∀ kind : Char → Prop, ∀ c ∈ ([] : List Char), kind c := fun _ _ member => nomatch member
  have bare : ∀ line, Solid line → body? line = some line := by
    intro line solid
    have body := body?_of_solid solid (none _) (none _)
    rwa [List.nil_append, List.append_nil] at body
  have lines : ∀ line ∈ indented clauses ++ [closing], '\n' ∉ line := by
    intro line member
    rcases List.mem_append.mp member with member | member
    · exact not_mem_indented solid line member
    · rw [List.mem_singleton.mp member]
      exact closed.oneLine
  rw [bodies, splitOn_flatMap opened.oneLine lines, List.filterMap_cons, bare opening opened,
    List.filterMap_append, filterMap_body?_indented solid, List.filterMap_cons, bare closing closed]
  rfl

theorem toList_joined_indented (line : String) (rest : List String) :
    '\n' :: (Text.joined ",\n" ((line :: rest).map ("    " ++ ·))).toList =
      (indented ((line :: rest).map String.toList)).flatMap ('\n' :: ·) := by
  rw [List.map_cons, toList_joined_cons]
  induction rest generalizing line with
  | nil => simp [indented]
  | cons next rest ih =>
    have separator : ",\n".toList = [',', '\n'] := by decide
    have more := ih next
    rw [List.map_cons, List.flatMap_cons, List.map_cons, List.map_cons, indented, List.flatMap_cons,
      ← List.map_cons, ← more, separator, String.toList_append]
    simp only [List.cons_append, List.append_assoc, List.nil_append]

end Ddl

namespace Table

/-- The line that a table opens with. -/
def opening (name : String) : List Char :=
  "CREATE TABLE IF NOT EXISTS ".toList ++ ((Dialect.mysql.identifier name).toList ++ " (".toList)

theorem solid_opening {name : String} (named : Named name) : Solid (opening name) := by
  have start : Solid "CREATE TABLE IF NOT EXISTS".toList := by decide
  have parts : "CREATE TABLE IF NOT EXISTS ".toList =
      "CREATE TABLE IF NOT EXISTS".toList ++ [' '] := by decide
  have closing : " (".toList = [' '] ++ ['('] := by decide
  unfold opening
  rw [parts, List.append_assoc]
  refine start.append ?_ ?_
  · have inside : '\n' ∉ name.toList := fun member => (named.plain _ member).2.2 rfl
    rw [named.identifier, closing]
    simp [inside]
  · rw [closing, ← List.append_assoc, ← List.append_assoc, List.getLast?_concat]
    exact fun c last => Option.some.inj last ▸ by decide

/-- **The opening line reads back.** -/
theorem opening?_opening {name : String} (named : Named name) :
    opening? (opening name) = some name := by
  have parts : "CREATE TABLE IF NOT EXISTS ".toList =
      "CREATE TABLE ".toList ++ "IF NOT EXISTS ".toList := by decide
  unfold opening? opening
  rw [parts, List.append_assoc, afterStart_append, Option.bind_eq_bind, Option.bind_some,
    afterStart_append, Option.getD_some, named.backticked?, Option.bind_eq_bind, Option.bind_some]
  dsimp only
  rw [if_pos rfl, String.ofList_toList]

/-- The lines of a table, with line feeds between them. -/
def printed (t : Table) : List Char :=
  opening t.name ++
    (indented ((t.clauses .mysql).map String.toList) ++ [t.closing]).flatMap ('\n' :: ·)

/-- The text of a table is its lines. -/
theorem toSql_eq {t : Table} (created : t.mode = .create) (filled : t.columns ≠ []) :
    t.toSql .mysql = .ok (String.ofList t.printed) := by
  have notEmpty : ¬ (Dialect.mysql = .generic ∧ t.columns = []) := nofun
  obtain ⟨line, rest, clauses⟩ : ∃ line rest, t.clauses .mysql = line :: rest := by
    cases all : t.columns with
    | nil => exact absurd all filled
    | cons c cs => exact ⟨_, _, by rw [Table.clauses, all, List.map_cons, List.cons_append, List.cons_append]⟩
  have front : " (\n".toList = " (".toList ++ ['\n'] := by decide
  have behind : "\n)".toList = '\n' :: ")".toList := by decide
  have body := toList_joined_indented line rest
  have closing := t.toList_closing
  rw [String.toList_append] at closing
  rw [toSql, created]
  dsimp only
  rw [if_neg notEmpty, clauses]
  refine congrArg Except.ok (String.toList_inj.mp ?_)
  rw [String.toList_ofList, printed, clauses, List.flatMap_append, ← body, List.flatMap_cons, List.flatMap_nil,
    List.append_nil, ← closing]
  unfold opening
  simp only [String.toList_append, front, behind, List.append_assoc, List.cons_append,
    List.nil_append]

end Table

end SqlAccess
