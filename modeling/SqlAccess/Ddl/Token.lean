import SqlAccess.Literal
import SqlAccess.Text.Blank
import SqlAccess.Text.Keyword
import SqlAccess.Text.Number
import SqlAccess.Text.Uppercase
import SqlAccess.Text.Word

/-!
# Tokens of a table definition

The attributes of a column are words and quoted texts with white space between them. A quoted text
is one token however much white space it holds, quotes included; a backslash inside it hides the
next character, and two quotes stand for one.

`unescape` undoes the quoting of a text, and `literal?` reads a token that is a quoted text and
nothing else. The escapes for line feed, tabulator, carriage return and null are known; a backslash
before any other character stands for that character.
-/

namespace SqlAccess.Ddl

open SqlAccess.Text

/-- The character that an escape letter stands for. -/
def escapedChar : Char → Char
  | 'n' => '\n'
  | 't' => '\t'
  | 'r' => '\r'
  | '0' => '\x00'
  | c => c

/-- The text that a quoted text stands for, its outer quotes taken off already. -/
def unescape : List Char → List Char
  | [] => []
  | '\\' :: c :: cs => escapedChar c :: unescape cs
  | '\'' :: '\'' :: cs => '\'' :: unescape cs
  | c :: cs => c :: unescape cs

/-- The text of a token that starts and ends with a quote. -/
def literal? : List Char → Option String
  | '\'' :: body =>
    if body.getLast? = some '\'' then some (String.ofList (unescape body.dropLast)) else none
  | _ => none

/-- Where in a line of attributes the reading stands. -/
inductive Quoting where
  /-- Outside quotes. -/
  | outside
  /-- Between quotes. -/
  | quoted
  /-- Between quotes, behind a backslash. -/
  | hidden
  deriving DecidableEq

/-- The token whose characters were collected in reverse, if it has any. -/
def token (collected : List Char) : List (List Char) :=
  if collected.isEmpty then [] else [collected.reverse]

/-- The tokens of a text behind the collected characters of the first one. -/
def tokensFrom : Quoting → List Char → List Char → List (List Char)
  | _, collected, [] => token collected
  | .hidden, collected, c :: cs => tokensFrom .quoted (c :: collected) cs
  | .quoted, collected, '\'' :: '\'' :: cs => tokensFrom .quoted ('\'' :: '\'' :: collected) cs
  | .quoted, collected, c :: cs =>
    tokensFrom (if c = '\\' then .hidden else if c = '\'' then .outside else .quoted)
      (c :: collected) cs
  | .outside, collected, c :: cs =>
    if isBlank c then token collected ++ tokensFrom .outside [] cs
    else tokensFrom (if c = '\'' then .quoted else .outside) (c :: collected) cs

/-- The words and quoted texts of a line of attributes. -/
def tokens (line : List Char) : List (List Char) :=
  tokensFrom .outside [] line

/-- Is the token the given word, the case of ASCII letters aside? -/
def isWord (word : String) (token : List Char) : Bool :=
  asciiUppercase token == word.toList

end SqlAccess.Ddl
