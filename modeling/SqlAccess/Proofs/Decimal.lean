import SqlAccess.Decimal.Layout

/-!
# The characters of a number

A number in SQL text is made of digits, signs, points and the letters of the three words for what is
no number. In particular it never breaks a line and never holds a quote.
-/

namespace SqlAccess.Decimal

/-- The characters that the text of a number may hold. -/
def isNumeral (c : Char) : Bool :=
  c.isDigit || ['-', '.', 'N', 'a', 'i', 'n', 'f'].contains c

theorem isNumeral_of_digit {c : Char} (digit : c.isDigit = true) : isNumeral c = true := by
  rw [isNumeral, digit, Bool.true_or]

theorem isNumeral_toDigits (n : Nat) : ∀ c ∈ Nat.toDigits 10 n, isNumeral c = true :=
  fun _ member => isNumeral_of_digit (Nat.isDigit_of_mem_toDigits (by decide) (by decide) member)

theorem isNumeral_toString (n : Int) : ∀ c ∈ (toString n).toList, isNumeral c = true := by
  intro c member
  cases n with
  | ofNat n =>
    have digits : (toString (Int.ofNat n)).toList = Nat.toDigits 10 n := String.toList_ofList
    rw [digits] at member
    exact isNumeral_toDigits n c member
  | negSucc n =>
    have digits : (toString (Int.negSucc n)).toList = '-' :: Nat.toDigits 10 (n + 1) := by
      change ("-" ++ Nat.repr (n + 1)).toList = _
      rw [String.toList_append]
      exact congrArg ('-' :: ·) String.toList_ofList
    rw [digits] at member
    rcases List.mem_cons.mp member with rfl | member
    · decide
    · exact isNumeral_toDigits _ c member

theorem isNumeral_positional (d : Digits) : ∀ c ∈ d.positional .plain, isNumeral c = true := by
  have digits := isNumeral_toDigits d.coefficient
  have zeros : ∀ n, ∀ c ∈ List.replicate n '0', isNumeral c = true := by
    intro n c member
    rw [(List.mem_replicate.mp member).2]
    decide
  intro c member
  unfold Digits.positional at member
  dsimp only at member
  split at member
  · simp only [Style.plain, List.append_nil, List.mem_append] at member
    rcases member with member | member
    · exact digits c member
    · exact zeros _ c member
  · split at member
    · rw [List.mem_append, List.mem_cons] at member
      rcases member with member | rfl | member
      · exact digits c (List.mem_of_mem_take member)
      · decide
      · exact digits c (List.mem_of_mem_drop member)
    · rw [List.mem_append, List.mem_cons, List.mem_cons] at member
      rcases member with (rfl | rfl | member) | member
      · decide
      · decide
      · exact zeros _ c member
      · exact digits c member

theorem isNumeral_plain (x : Float) : ∀ c ∈ (plain x).toList, isNumeral c = true := by
  have sign : ∀ (negative : Bool) (text : List Char), (∀ c ∈ text, isNumeral c = true) →
      ∀ c ∈ signed negative text, isNumeral c = true := by
    intro negative text all c member
    cases negative with
    | false => exact all c member
    | true =>
      rcases List.mem_cons.mp member with rfl | member
      · decide
      · exact all c member
  rw [plain, String.toList_ofList]
  cases Reading.of x with
  | notANumber => exact List.all_eq_true.mp (by decide)
  | infinite negative => exact sign negative _ (List.all_eq_true.mp (by decide))
  | finite negative magnitude =>
    refine sign negative _ ?_
    have layout : magnitude.shortest.layout .plain = magnitude.shortest.positional .plain :=
      if_pos (.inr ⟨rfl, rfl⟩)
    rw [layout]
    exact isNumeral_positional _

end SqlAccess.Decimal
