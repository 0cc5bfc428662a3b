import SqlAccess.Ddl.Token
import SqlAccess.Schema.Column

/-!
# Attributes of a column

What stands behind the type of a column in a printed table: a list of `Attribute`s, read from tokens
and then applied to the column one after the other, so that a later one wins. Words that are no
attribute are passed over. A default, a collation and a comment take the token behind them; if there
is none, or if the token behind a comment is no quoted text, the line cannot be read.

The argument of a type is read here too: a list of quoted texts for the two list types, a number or
two numbers for any other.
-/

namespace SqlAccess.Ddl

open SqlAccess.Text

/-- Something that a line says about a column behind its type. -/
inductive Attribute where
  | unsigned
  | autoIncrement
  | notNull
  /-- The default; none is the default of null. -/
  | default (value : Option DefaultValue)
  | collation (name : String)
  | comment (text : String)

/-- The column with one more attribute. -/
def Attribute.apply (c : Column) : Attribute → Column
  | .unsigned => { c with unsigned := true }
  | .autoIncrement => { c with autoIncrement := true }
  | .notNull => { c with nullable := false }
  | .default value => { c with default := value }
  | .collation name => { c with collation := some name }
  | .comment text => { c with comment := some text }

/-- The default that a token stands for: a quoted text, the null value, or an expression. -/
def defaultOf (token : List Char) : Option DefaultValue :=
  match literal? token with
  | some text => some (.text text)
  | none =>
    if isWord "NULL" token then none else some (.expression (String.ofList token))

/-- The attributes that a list of tokens stands for. -/
def attributes? : List (List Char) → Option (List Attribute)
  | [] => some []
  | [word] =>
    if isWord "UNSIGNED" word then some [.unsigned]
    else if isWord "AUTO_INCREMENT" word then some [.autoIncrement]
    else if isWord "DEFAULT" word ∨ isWord "COLLATE" word ∨ isWord "COMMENT" word then none
    else some []
  | word :: next :: rest =>
    if isWord "UNSIGNED" word then (attributes? (next :: rest)).map (.unsigned :: ·)
    else if isWord "AUTO_INCREMENT" word then (attributes? (next :: rest)).map (.autoIncrement :: ·)
    else if isWord "NOT" word ∧ isWord "NULL" next then (attributes? rest).map (.notNull :: ·)
    else if isWord "DEFAULT" word then (attributes? rest).map (.default (defaultOf next) :: ·)
    else if isWord "COLLATE" word then
      (attributes? rest).map (.collation (String.ofList next) :: ·)
    else if isWord "COMMENT" word then
      match literal? next with
      | some text => (attributes? rest).map (.comment text :: ·)
      | none => none
    else attributes? (next :: rest)

/-- The pieces of a text between the occurrences of a quote, a comma and a quote. -/
def splitTexts : List Char → List (List Char)
  | [] => [[]]
  | '\'' :: ',' :: '\'' :: cs => [] :: splitTexts cs
  | c :: cs => (splitTexts cs).modifyHead (c :: ·)

/-- The text of one piece of a list of quoted texts. -/
def listedText (piece : List Char) : String :=
  String.ofList (unescape (dropAround (· == '\'') (trim piece)))

/-- The largest length that a type takes. -/
def maxLength : Nat := 0xFFFFFFFF

/-- A number that is an argument of a type. -/
def lengthNumber? (cs : List Char) : Option UInt32 :=
  (readNat? maxLength (trim cs)).map UInt32.ofNat

/-- The argument of a native type. -/
def length? (native argument : List Char) : Option Length :=
  if isWord "ENUM" native ∨ isWord "SET" native then
    some (.values ((splitTexts argument).map listedText))
  else match splitOnce ',' argument with
    | none => (lengthNumber? argument).map .size
    | some (digits, scale) =>
      match lengthNumber? digits, lengthNumber? scale with
      | some digits, some scale => some (.precision digits scale)
      | _, _ => none

end SqlAccess.Ddl
