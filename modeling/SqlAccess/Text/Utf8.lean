/-!
# Text from bytes

Bytes are read as UTF-8 even where they are no text, so that a reading is always there to be shown.
A character takes one to four bytes. The first byte tells how many follow and, for a few of them,
narrows the bounds of the second, which keeps out longer spellings of a shorter character, the
halves of surrogate pairs and code points above the last one.

Bytes that are no character are read as the replacement character, one for each longest run that
could have begun a character and one for each byte that could not.
-/

namespace SqlAccess.Text

/-- The character that stands for bytes that are no character. -/
def replacement : Char := '\ufffd'

/-- A character whose last bytes are still to come: the code point as far as it is known, how many
bytes follow the next one, and the bounds of the next one. -/
structure Unfinished where
  code : Nat
  following : Nat
  lowest : Nat
  highest : Nat

/-- A character with more bytes to come, of which the next may have any value of a later byte. -/
def Unfinished.any (code following : Nat) : Unfinished :=
  ⟨code, following, 0x80, 0xBF⟩

/-- A byte between two characters: the characters that it completes and the one that it begins. -/
def firstByte (b : Nat) : List Char × Option Unfinished :=
  if b ≤ 0x7F then ([Char.ofNat b], none)
  else if 0xC2 ≤ b ∧ b ≤ 0xDF then ([], some (.any (b - 0xC0) 0))
  else if b = 0xE0 then ([], some ⟨0, 1, 0xA0, 0xBF⟩)
  else if b = 0xED then ([], some ⟨0xD, 1, 0x80, 0x9F⟩)
  else if 0xE1 ≤ b ∧ b ≤ 0xEF then ([], some (.any (b - 0xE0) 1))
  else if b = 0xF0 then ([], some ⟨0, 2, 0x90, 0xBF⟩)
  else if b = 0xF4 then ([], some ⟨4, 2, 0x80, 0x8F⟩)
  else if 0xF1 ≤ b ∧ b ≤ 0xF3 then ([], some (.any (b - 0xF0) 2))
  else ([replacement], none)

/-- The next byte, wherever it stands. One that does not go on with an unfinished character ends it
as no character and is read for itself. -/
def nextByte (b : Nat) : Option Unfinished → List Char × Option Unfinished
  | none => firstByte b
  | some u =>
    if u.lowest ≤ b ∧ b ≤ u.highest then
      let code := u.code * 0x40 + (b - 0x80)
      match u.following with
      | 0 => ([Char.ofNat code], none)
      | following + 1 => ([], some (.any code following))
    else
      let (cs, unfinished) := firstByte b
      (replacement :: cs, unfinished)

/-- The text of the bytes that follow what has been read of a character. -/
def decodeAfter : Option Unfinished → List UInt8 → List Char
  | none, [] => []
  | some _, [] => [replacement]
  | unfinished, b :: bs =>
    let (cs, unfinished) := nextByte b.toNat unfinished
    cs ++ decodeAfter unfinished bs

/-- The text of bytes. -/
def decodeUtf8 (bytes : List UInt8) : List Char :=
  decodeAfter none bytes

/-- Bytes below 128 are one character each. -/
theorem decodeUtf8_of_ascii (bytes : List UInt8) (h : ∀ b ∈ bytes, b.toNat ≤ 0x7F) :
    decodeUtf8 bytes = bytes.map fun b => Char.ofNat b.toNat := by
  unfold decodeUtf8
  induction bytes with
  | nil => simp [decodeAfter]
  | cons b bs ih =>
    have first : b.toNat ≤ 0x7F := h b List.mem_cons_self
    have later := ih fun x hx => h x (List.mem_cons_of_mem b hx)
    simp [decodeAfter, nextByte, firstByte, first, later]

end SqlAccess.Text
