import SqlAccess.Ddl.Attribute
import SqlAccess.Schema.Table

/-!
# Lines of a table definition

A printed table is read line by line, and this module says what each kind of line looks like by
itself: the opening line with the table's name, a column, a key, and the closing line with the
options. Which lines may follow each other is not decided here.

Options are looked for anywhere in the closing line, as whole words. The comment is looked for
first, and taken out of the line, so that nothing inside it is read as an option. A comment ends at
the first quote that is not doubled; where no such quote follows, the last doubled one ends it after
all, at its first half.
-/

namespace SqlAccess.Ddl

open SqlAccess.Text

/-- A name between backticks at the start of a text, and what follows it. The name is not empty. -/
def backticked? : List Char → Option (List Char × List Char)
  | '\x60' :: cs =>
    match splitOnce '\x60' cs with
    | some (name, rest) => if name.isEmpty then none else some (name, rest)
    | none => none
  | _ => none

/-- The text up to the next closing parenthesis. -/
def parenthesized? (cs : List Char) : Option (List Char) :=
  (splitOnce ')' cs).map Prod.fst

/-! ## The opening line -/

/-- The name of the table that a line opens. -/
def opening? (line : List Char) : Option String := do
  let rest ← afterStart "CREATE TABLE ".toList line
  let (name, rest) ← backticked? ((afterStart "IF NOT EXISTS ".toList rest).getD rest)
  if rest = " (".toList then some (String.ofList name) else none

/-! ## Column lines -/

/-- The parts of a column line. -/
structure ColumnLine where
  name : String
  native : List Char
  argument : Option (List Char)
  attributes : List Char
  deriving DecidableEq

/-- The argument of a type, if one follows it, and what stands behind. -/
def argument? : List Char → Option (List Char) × List Char
  | '(' :: cs =>
    match splitOnce ')' cs with
    | some (argument, rest) => (some argument, rest)
    | none => (none, '(' :: cs)
  | cs => (none, cs)

/-- The parts of a line that starts with a name between backticks, white space and a type. -/
def columnLine? (line : List Char) : Option ColumnLine := do
  let (name, rest) ← backticked? line
  if !rest.head?.any isBlank then none
  let rest := rest.dropWhile isBlank
  let native := rest.takeWhile Char.isAlpha
  if native.isEmpty then none
  let (argument, attributes) := argument? (rest.dropWhile Char.isAlpha)
  some { name := String.ofList name, native, argument, attributes }

/-- The column of a line. Behind a name and a type everything is null unless it is said not to
be. -/
def ColumnLine.column? (line : ColumnLine) (d : Dialect) (table : String) : Option Column := do
  let length ← match line.argument with
    | none => some none
    | some argument => (length? line.native argument).map some
  let attributes ← attributes? (tokens line.attributes)
  let start : Column :=
    { table, name := line.name, length, nullable := true
      type := d.columnType (String.ofList line.native) length }
  some (attributes.foldl Attribute.apply start)

/-- The table with the column of a line. The column that every table starts with is there
already, and its line is not looked at. -/
def readColumn (d : Dialect) (t : Table) (line : List Char) : Option Table := do
  let line ← columnLine? line
  if line.name = Table.implicitId then some t
  else (line.column? d t.name).map t.putColumn

/-! ## Key lines -/

/-- Does the line start like a key? -/
def isKeyLine (line : List Char) : Bool :=
  (afterStart "PRIMARY KEY".toList line).isSome || (afterStart "UNIQUE KEY".toList line).isSome ||
    (afterStart "KEY ".toList line).isSome

/-- The names in a list with commas, without backticks. -/
def columnNames (list : List Char) : List String :=
  (((list.splitOn ',').map fun piece => dropAround (· == '\x60') (trim piece)).filter
    fun name => !name.isEmpty).map String.ofList

/-- The columns of a primary key line. -/
def primaryLine? (line : List Char) : Option (List String) := do
  let rest ← afterStart "PRIMARY KEY (".toList line
  (parenthesized? rest).map columnNames

/-- The key of the line of a unique key or an index. -/
def namedKeyLine? (table : String) (line : List Char) : Option Key := do
  let (kind, rest) := match afterStart "UNIQUE ".toList line with
    | some rest => (KeyKind.unique, rest)
    | none => (KeyKind.index, line)
  let rest ← afterStart "KEY ".toList rest
  let (name, rest) ← backticked? rest
  let rest ← afterStart " (".toList rest
  let columns ← parenthesized? rest
  some { Key.ofColumns kind table (columnNames columns) with
    explicitName := some (String.ofList name) }

/-- The table with the key of a line. In a primary key the column that every table starts with is
there already. -/
def readKey (t : Table) (line : List Char) : Option Table :=
  match primaryLine? line with
  | some columns => some ((columns.filter (· != Table.implicitId)).foldl Table.addPrimary t)
  | none => (namedKeyLine? t.name line).map t.addKey

/-! ## The closing line -/

/-- The first place of a line, at the start of a word, at which an attempt succeeds. The flag says
whether the character before the line belongs to a word. -/
def searchWord {α : Type} (attempt : List Char → Option α) : Bool → List Char → Option α
  | _, [] => none
  | inWord, c :: cs =>
    match if inWord then none else attempt (c :: cs) with
    | some found => some found
    | none => searchWord attempt (isWordChar c) cs

/-- The word at the start of a text, if there is one. -/
def wordAt? (cs : List Char) : Option String :=
  if cs.head?.any isWordChar then some (String.ofList (cs.takeWhile isWordChar)) else none

/-- What follows white space around at most one equals sign. -/
def afterEquals (cs : List Char) : List Char :=
  match cs.dropWhile isBlank with
  | '=' :: rest => rest.dropWhile isBlank
  | rest => rest

/-- The value of the option with the given words in front, written as they are. -/
def option? (words : String) (line : List Char) : Option String :=
  searchWord (fun cs => (afterStart words.toList cs).bind wordAt?) false line

/-- The value of the collation option, whose keyword may be in any case. -/
def collationOption? (line : List Char) : Option String :=
  searchWord
    (fun cs => (afterKeyword "COLLATE".toList cs).bind fun rest => wordAt? (afterEquals rest))
    false line

/-- The rest of a quoted text behind its opening quote, and what follows the closing one. -/
def quotedRest? : List Char → Option (List Char × List Char)
  | [] => none
  | '\'' :: '\'' :: cs =>
    match quotedRest? cs with
    | some (text, rest) => some ('\'' :: '\'' :: text, rest)
    | none => some ([], '\'' :: cs)
  | '\'' :: cs => some ([], cs)
  | ['\\'] => none
  | '\\' :: c :: cs => (quotedRest? cs).map fun (text, rest) => ('\\' :: c :: text, rest)
  | c :: cs => (quotedRest? cs).map fun (text, rest) => (c :: text, rest)

/-- The comment option at the start of a text, and what follows it. -/
def commentAt? (cs : List Char) : Option (List Char × List Char) := do
  let rest ← afterKeyword "COMMENT".toList cs
  match afterEquals rest with
  | '\'' :: body => quotedRest? body
  | _ => none

/-- The comment of a closing line, and the line without it. The flag says whether the character
before the line belongs to a word. -/
def takeComment : Bool → List Char → Option (List Char × List Char)
  | _, [] => none
  | inWord, c :: cs =>
    match if inWord then none else commentAt? (c :: cs) with
    | some found => some found
    | none => (takeComment (isWordChar c) cs).map fun (text, line) => (text, c :: line)

/-- The table with the options of a closing line. -/
def readOptions (t : Table) (line : List Char) : Table :=
  let comment := takeComment false line
  let line := (comment.map Prod.snd).getD line
  { t with
    comment := comment.map fun (text, _) => String.ofList (unescape text)
    engine := option? "ENGINE=" line
    rowFormat := option? "ROW_FORMAT=" line
    charset := option? "DEFAULT CHARSET=" line
    collation := collationOption? line }

end SqlAccess.Ddl
