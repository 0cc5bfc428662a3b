import SqlAccess.Ddl.Line

/-!
# Reading a table definition

The text of a printed table is an opening line, then column lines, then key lines, then one closing
line. White space around a line and commas at its end do not count, and blank lines are passed over.
Nothing may follow the closing line.

An error names the number of the line at which the text stops being a table definition, with the
line as it stands; a text that ends too early names the number after its last line that is not
blank.
-/

namespace SqlAccess.Ddl

open SqlAccess.Text

/-- A line that is not blank, with its number from one on. -/
structure Line where
  number : Nat
  text : List Char

/-- The line as it is read: without the commas at its end. -/
def Line.body (line : Line) : List Char :=
  dropSuffixWhile (· == ',') line.text

/-- The lines of a text that are not blank, white space around them removed. -/
def lines (text : List Char) : List Line :=
  (((text.splitOn '\n').zipIdx 1).map fun (line, number) => ⟨number, trim line⟩).filter
    fun line => !line.text.isEmpty

/-- How far the reading of a table has come. -/
inductive Progress where
  /-- Nothing is read yet. -/
  | start
  /-- The table is open, and no key was read. -/
  | columns (t : Table)
  /-- A key was read. -/
  | keys (t : Table)
  /-- The closing line was read. -/
  | closed (t : Table)

/-- Reads a key line or the closing line. -/
def Progress.finish (t : Table) (body : List Char) : Option Progress :=
  if isKeyLine body then (readKey t body).map .keys
  else if body.head? = some ')' then some (.closed (readOptions t body))
  else none

/-- Reads one line, if it can stand where the reading is. -/
def Progress.next (d : Dialect) (body : List Char) : Progress → Option Progress
  | .start => (opening? body).map fun name => .columns (Table.created d name)
  | .columns t =>
    if body.head? = some '\x60' then (readColumn d t body).map .columns
    else Progress.finish t body
  | .keys t => Progress.finish t body
  | .closed _ => none

/-- Reads lines up to the first one that cannot stand where it does. -/
def Progress.advance (d : Dialect) : Progress → List Line → Except Error Progress
  | progress, [] => .ok progress
  | progress, line :: rest =>
    match progress.next d line.body with
    | some progress => progress.advance d rest
    | none => .error (.unreadableLine line.number (String.ofList line.text))

/-- What the error about a text that ends too early shows in place of a line. -/
def endOfInput : String := "<end of input>"

/-- The table that a text defines in the given dialect. -/
def readTable (d : Dialect) (text : List Char) : Except Error Table := do
  match ← Progress.start.advance d (lines text) with
  | .closed t => return t
  | _ => throw (.unreadableLine (((lines text).getLast?.map (·.number)).getD 0 + 1) endOfInput)

end SqlAccess.Ddl

namespace SqlAccess

/-- Reads the definition of a table as the database prints it. Only MySQL prints tables. -/
def Dialect.readTable (d : Dialect) (ddl : String) : Except Error Table :=
  match d with
  | .generic => .error (.configuration (.ddlNotReadable d))
  | .mysql => Ddl.readTable d ddl.toList

end SqlAccess
