/-!
# Keywords in any case

SQL keywords may be written in any mixture of cases. Case is compared by simple folding, which goes
beyond ASCII in two places: the long s counts as an S, and the Kelvin sign as a K.
-/

namespace SqlAccess.Text

/-- Is the character the capital letter, the case of letters aside? -/
def foldsTo (capital c : Char) : Bool :=
  c.toUpper == capital || (capital == 'S' && c == '\u017F') || (capital == 'K' && c == '\u212A')

/-- What follows a keyword at the start of a text, the case of letters aside. The keyword is given
in capitals. -/
def afterKeyword : List Char → List Char → Option (List Char)
  | [], rest => some rest
  | _ :: _, [] => none
  | capital :: keyword, c :: rest =>
    if foldsTo capital c then afterKeyword keyword rest else none

end SqlAccess.Text
