import SqlAccess.Text.Split

/-!
# Quoted literals

The written form of a text constant in SQL: the text between single quotes, with every quote inside
written twice. Standard SQL stops there. The MySQL form doubles backslashes first, because a MySQL
server reads a backslash inside quotes as an escape. Bytes that are no text are written as a
hexadecimal constant.
-/

namespace SqlAccess.Literal

open SqlAccess.Text

/-- The text between single quotes, in characters. -/
def enclosed (body : List Char) : List Char :=
  '\'' :: body ++ ['\'']

/-- The standard form of a text constant: quotes doubled. -/
def standardChars (cs : List Char) : List Char :=
  enclosed (doubled '\'' cs)

/-- The MySQL form of a text constant: backslashes doubled, then quotes. -/
def escapedChars (cs : List Char) : List Char :=
  enclosed (doubled '\'' (doubled '\\' cs))

/-- The standard form of a text constant. -/
def standard (text : String) : String :=
  String.ofList (standardChars text.toList)

/-- The MySQL form of a text constant. -/
def escaped (text : String) : String :=
  String.ofList (escapedChars text.toList)

/-- A digit of base sixteen in upper case. -/
def hexDigit (n : Nat) : Char :=
  (Nat.digitChar n).toUpper

/-- The two base-sixteen digits of a byte. -/
def hexByte (byte : UInt8) : List Char :=
  [hexDigit (byte.toNat / 16), hexDigit (byte.toNat % 16)]

/-- The hexadecimal constant of a string of bytes. -/
def hexadecimal (bytes : ByteArray) : String :=
  String.ofList ('X' :: enclosed (bytes.toList.flatMap hexByte))

end SqlAccess.Literal
