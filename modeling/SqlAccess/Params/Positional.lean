import SqlAccess.Error
import SqlAccess.Params.Basic

/-!
# Positional placeholders

A statement is written with named placeholders, and a database takes it with a question mark for
each and the values in the order of the marks. The statement is first cut into pieces, which depends
on the text alone, and then its placeholders are filled from a parameter table.

A placeholder is a colon followed by an ASCII name, as long as the name goes on. Quotes of any of
the three kinds hide what is between them; a backslash hides the next character too, except between
backticks, where it has no meaning. Quotes that are never closed hide the rest of the statement.
-/

namespace SqlAccess

/-- A piece of a statement: a character that is copied, or a placeholder with its colon. -/
inductive Piece where
  | char (c : Char)
  | placeholder (name : List Char)
  deriving DecidableEq, Repr

namespace Piece

/-- Does the character start quoted text? -/
def isQuote (c : Char) : Bool :=
  c == '\'' || c == '"' || c == '\x60'

/-- Can the character stand first in the name of a placeholder? -/
def startsName (c : Char) : Bool :=
  c.isAlpha || c == '_'

/-- Can the character stand in the name of a placeholder? -/
def inName (c : Char) : Bool :=
  c.isAlphanum || c == '_'

/-- Where in a statement the cutting stands. -/
inductive Context where
  /-- Outside quotes. -/
  | outside
  /-- Behind the colon of a placeholder whose name is already taken. -/
  | naming
  /-- Between quotes of the given kind. -/
  | quoted (quote : Char)
  /-- Between quotes, behind a backslash. -/
  | hidden (quote : Char)
  deriving DecidableEq, Repr

/-- The piece that a character outside quotes starts, given what follows it, and where the cutting
stands after that character. -/
def start (c : Char) (rest : List Char) : Piece × Context :=
  if isQuote c then (.char c, .quoted c)
  else if c = ':' ∧ rest.head?.any startsName then
    (.placeholder (':' :: rest.takeWhile inName), .naming)
  else (.char c, .outside)

/-- The pieces of a statement from the given context on. -/
def cut : Context → List Char → List Piece
  | _, [] => []
  | .quoted quote, c :: cs =>
    .char c :: cut
      (if c = '\\' ∧ quote ≠ '\x60' then .hidden quote
        else if c = quote then .outside else .quoted quote) cs
  | .hidden quote, c :: cs => .char c :: cut (.quoted quote) cs
  | .naming, c :: cs =>
    if inName c then cut .naming cs else (start c cs).1 :: cut (start c cs).2 cs
  | .outside, c :: cs => (start c cs).1 :: cut (start c cs).2 cs

end Piece

namespace Params

/-- The text with a question mark for every placeholder, and the values in the order of the marks.
The first placeholder without a value is an error. -/
def fill (p : Params) : List Piece → Except Error (List Char × List Value)
  | [] => .ok ([], [])
  | .char c :: pieces => do
    let (text, values) ← p.fill pieces
    return (c :: text, values)
  | .placeholder name :: pieces => do
    match p.get? (String.ofList name) with
    | none => throw (.invalidCondition (.placeholderUnbound (String.ofList name)))
    | some value =>
      let (text, values) ← p.fill pieces
      return ('?' :: text, value :: values)

/-- A statement with question marks for its named placeholders, and their values. -/
def toPositional (p : Params) (sql : String) : Except Error (String × List Value) := do
  let (text, values) ← p.fill (Piece.cut .outside sql.toList)
  return (String.ofList text, values)

end Params

end SqlAccess
