/-!
# Cutting and joining text

A list of texts and one text with separators between the pieces: `splitOnce` cuts a text in two at
the first occurrence of a separator character, where `List.splitOn` cuts at every one, and `joined`
puts texts together with a separator text between them.

`doubled` is the escape by repetition that SQL uses inside quotes: the one character is written
twice and every other character once.
-/

namespace SqlAccess.Text

/-- What stands before and after the first occurrence of the separator, if there is one. -/
def splitOnce (separator : Char) : List Char → Option (List Char × List Char)
  | [] => none
  | c :: cs =>
    if c = separator then some ([], cs)
    else (splitOnce separator cs).map fun (before, after) => (c :: before, after)

/-- The texts with the separator between neighbours. -/
def joined (separator : String) : List String → String
  | [] => ""
  | [text] => text
  | text :: next :: rest => text ++ separator ++ joined separator (next :: rest)

/-- The text with every occurrence of the character written twice. -/
def doubled (mark : Char) (cs : List Char) : List Char :=
  cs.flatMap fun c => if c = mark then [mark, mark] else [c]

/-- What is left of the text when it starts with the given one. -/
def afterStart (start : List Char) (cs : List Char) : Option (List Char) :=
  match start, cs with
  | [], cs => some cs
  | _ :: _, [] => none
  | s :: start, c :: cs => if s = c then afterStart start cs else none

/-- Does the text hold the fragment somewhere? -/
def contains (fragment : List Char) : List Char → Bool
  | [] => fragment.isEmpty
  | c :: cs => (afterStart fragment (c :: cs)).isSome || contains fragment cs

@[simp] theorem doubled_nil (mark : Char) : doubled mark [] = [] := rfl

theorem doubled_cons (mark c : Char) (cs : List Char) :
    doubled mark (c :: cs) = (if c = mark then [mark, mark] else [c]) ++ doubled mark cs := rfl

theorem afterStart_append (start rest : List Char) :
    afterStart start (start ++ rest) = some rest := by
  induction start with
  | nil => simp [afterStart]
  | cons s start ih => simp [afterStart, ih]

end SqlAccess.Text
