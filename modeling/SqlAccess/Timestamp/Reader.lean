import SqlAccess.Text.Blank
import SqlAccess.Text.Number
import SqlAccess.Timestamp.Basic

/-!
# Reading a point in time

Stored times come in two forms. The one is that of RFC 3339: every field at its full width, a letter
T or a blank between date and time, an optional fraction of a second, and an offset from UTC. The
other is a date and a time of day without an offset, taken as UTC; it is read leniently: white space
may stand before every field, fields may be short, and the year may have a sign and any length.

Both take second sixty as a leap second at the end of any minute, and neither takes a date that the
calendar does not have.
-/

namespace SqlAccess.Timestamp

open SqlAccess.Text

/-- A date and a time of day as they were read. -/
structure Fields where
  date : Date
  hour : Nat
  minute : Nat
  second : Nat
  nanoseconds : Nat := 0

/-- The years that a time can lie in. -/
def isYear (year : Int) : Bool :=
  -262143 ≤ year && year ≤ 262142

/-- The time that the fields stand for at an offset, given in seconds, from UTC. -/
def Fields.toTimestamp? (f : Fields) (offset : Int) : Option Timestamp :=
  if isYear f.date.year ∧ f.date.isValid ∧ f.hour < 24 ∧ f.minute < 60 ∧ f.second ≤ 60 then
    let second := if f.second = 60 then 59 else f.second
    some
      { seconds :=
          f.date.daysBefore * secondsPerDay + (f.hour * 3600 + f.minute * 60 + second : Nat) -
            offset
        nanoseconds := f.nanoseconds + if f.second = 60 then nanosPerSecond else 0 }
  else none

/-- A number of at least and at most so many digits at the start of a text, and what follows it. -/
def number? (least most : Nat) (cs : List Char) : Option (Nat × List Char) :=
  let digits := (cs.takeWhile Char.isDigit).take most
  if least ≤ digits.length then some (digitsValue 0 digits, cs.drop digits.length) else none

/-- What follows the given character at the start of a text. -/
def after? (c : Char) : List Char → Option (List Char)
  | [] => none
  | d :: cs => if d = c then some cs else none

/-! ## RFC 3339 -/

/-- The fraction of a second behind its point, in nanoseconds. Digits beyond the ninth are passed
over. -/
def fraction? (cs : List Char) : Option (Nat × List Char) := do
  let (value, rest) ← number? 1 9 cs
  let digits := cs.length - rest.length
  some (value * Nat.pow 10 (9 - digits), rest.dropWhile Char.isDigit)

/-- An offset from UTC in seconds: the letter Z, or a sign, hours and minutes. The minus sign may
be the mathematical one. -/
def offset? : List Char → Option (Int × List Char)
  | [] => none
  | sign :: cs =>
    if sign = 'Z' ∨ sign = 'z' then some (0, cs)
    else if sign = '+' ∨ sign = '-' ∨ sign = '\u2212' then do
      let (hours, cs) ← number? 2 2 cs
      let (minutes, cs) ← number? 2 2 (← after? ':' cs)
      let seconds : Int := (hours * 3600 + minutes * 60 : Nat)
      if hours < 24 ∧ minutes < 60 then some (if sign = '+' then seconds else -seconds, cs)
      else none
    else none

/-- The time that a text gives in the form of RFC 3339. -/
def ofRfc3339? (cs : List Char) : Option Timestamp := do
  let (year, cs) ← number? 4 4 cs
  let (month, cs) ← number? 2 2 (← after? '-' cs)
  let (day, cs) ← number? 2 2 (← after? '-' cs)
  let cs ← match cs with
    | c :: cs => if c = 'T' ∨ c = 't' ∨ c = ' ' then some cs else none
    | [] => none
  let (hour, cs) ← number? 2 2 cs
  let (minute, cs) ← number? 2 2 (← after? ':' cs)
  let (second, cs) ← number? 2 2 (← after? ':' cs)
  let (nanoseconds, cs) ← match cs with
    | '.' :: cs => fraction? cs
    | cs => some (0, cs)
  let (offset, cs) ← offset? cs
  if cs.isEmpty then
    Fields.toTimestamp? { date := ⟨year, month, day⟩, hour, minute, second, nanoseconds } offset
  else none

/-! ## Date and time of day -/

/-- A field of at most so many digits; white space may stand before it. -/
def field? (most : Nat) (cs : List Char) : Option (Nat × List Char) :=
  number? 1 most (cs.dropWhile isBlank)

/-- A year of at most four digits, or of any length behind a sign; white space may stand before
it. -/
def year? (cs : List Char) : Option (Int × List Char) :=
  match cs.dropWhile isBlank with
  | '-' :: cs => (number? 1 cs.length cs).map fun (n, rest) => (-(n : Int), rest)
  | '+' :: cs => (number? 1 cs.length cs).map fun (n, rest) => ((n : Int), rest)
  | cs => (number? 1 4 cs).map fun (n, rest) => ((n : Int), rest)

/-- The time that a text gives as a date and a time of day in UTC. -/
def ofDateTime? (cs : List Char) : Option Timestamp := do
  let (year, cs) ← year? cs
  let (month, cs) ← field? 2 (← after? '-' cs)
  let (day, cs) ← field? 2 (← after? '-' cs)
  let (hour, cs) ← field? 2 cs
  let (minute, cs) ← field? 2 (← after? ':' cs)
  let (second, cs) ← field? 2 (← after? ':' cs)
  if cs.isEmpty then
    Fields.toTimestamp? { date := ⟨year, month, day⟩, hour, minute, second } 0
  else none

/-- The time that a stored text gives, in either form. -/
def read? (stored : String) : Option Timestamp :=
  (ofRfc3339? stored.toList).or (ofDateTime? stored.toList)

end SqlAccess.Timestamp
