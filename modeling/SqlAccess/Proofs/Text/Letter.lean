import SqlAccess.Text.Blank
import SqlAccess.Text.Keyword
import SqlAccess.Text.Uppercase
import SqlAccess.Text.Word

/-!
# Kinds of characters

How the kinds of characters lie to each other: digits, letters and the characters of words are never
white space, and capital letters are left alone by every change to upper case.
-/

namespace SqlAccess.Text

variable {c : Char}

theorem isBlank_of_visible (low : 0x21 ≤ c.toNat) (high : c.toNat ≤ 0x7E) : isBlank c = false := by
  unfold isBlank
  simp only [Bool.or_eq_false_iff, Bool.and_eq_false_iff, decide_eq_false_iff_not,
    beq_eq_false_iff_ne]
  omega

theorem isBlank_of_isDigit (digit : c.isDigit = true) : isBlank c = false := by
  simp only [Char.isDigit, ge_iff_le, UInt32.le_iff_toNat_le, Bool.and_eq_true,
    decide_eq_true_eq] at digit
  have low : 48 ≤ c.toNat := digit.1
  have high : c.toNat ≤ 57 := digit.2
  exact isBlank_of_visible (by omega) (by omega)

theorem isUpper_bounds (capital : c.isUpper = true) : 65 ≤ c.toNat ∧ c.toNat ≤ 90 := by
  obtain ⟨low, high⟩ := of_decide_eq_true capital
  exact ⟨UInt32.le_iff_toNat_le.mp low, UInt32.le_iff_toNat_le.mp high⟩

theorem isBlank_of_isUpper (capital : c.isUpper = true) : isBlank c = false := by
  have bounds := isUpper_bounds capital
  exact isBlank_of_visible (by omega) (by omega)

theorem isLower_bounds (small : c.isLower = true) : 97 ≤ c.toNat ∧ c.toNat ≤ 122 := by
  obtain ⟨low, high⟩ := Bool.and_eq_true_iff.mp small
  exact ⟨UInt32.le_iff_toNat_le.mp (of_decide_eq_true low),
    UInt32.le_iff_toNat_le.mp (of_decide_eq_true high)⟩

theorem toUpper_of_isUpper (capital : c.isUpper = true) : c.toUpper = c := by
  have bounds := isUpper_bounds capital
  have large : ¬ ('a'.val ≤ c.val ∧ c.val ≤ 'z'.val) := by
    rintro ⟨low, -⟩
    have low' : 97 ≤ c.toNat := UInt32.le_iff_toNat_le.mp low
    omega
  exact dif_neg large

theorem isAlpha_iff : c.isAlpha = true ↔ c.isUpper = true ∨ c.isLower = true :=
  Bool.or_eq_true_iff

theorem isBlank_of_isAlpha (letter : c.isAlpha = true) : isBlank c = false := by
  rcases isAlpha_iff.mp letter with capital | small
  · exact isBlank_of_isUpper capital
  · have bounds := isLower_bounds small
    exact isBlank_of_visible (by omega) (by omega)

theorem isUpper_toUpper (letter : c.isAlpha = true) : c.toUpper.isUpper = true := by
  rcases isAlpha_iff.mp letter with capital | small
  · rw [toUpper_of_isUpper capital, capital]
  · have bounds := isLower_bounds small
    have within : 'a'.val ≤ c.val ∧ c.val ≤ 'z'.val :=
      ⟨UInt32.le_iff_toNat_le.mpr bounds.1, UInt32.le_iff_toNat_le.mpr bounds.2⟩
    have value : (c.val + ('A'.val - 'a'.val)).toNat = c.toNat - 32 := by
      have distance : ('A'.val - 'a'.val).toNat = 4294967264 := by decide
      rw [UInt32.toNat_add, distance]
      change (c.toNat + _) % _ = _
      omega
    have shifted : c.toUpper.val = c.val + ('A'.val - 'a'.val) := by
      delta Char.toUpper
      rw [dif_pos within]
    have low : 65 ≤ c.toUpper.val.toNat := by
      rw [shifted, value]
      omega
    have high : c.toUpper.val.toNat ≤ 90 := by
      rw [shifted, value]
      omega
    exact decide_eq_true ⟨UInt32.le_iff_toNat_le.mpr low, UInt32.le_iff_toNat_le.mpr high⟩

theorem asciiUppercase_of_isUpper {text : List Char} (capital : ∀ c ∈ text, c.isUpper = true) :
    asciiUppercase text = text := by
  unfold asciiUppercase
  refine (List.map_congr_left fun c member => ?_).trans (List.map_id' _)
  exact toUpper_of_isUpper (capital c member)

theorem isUpper_asciiUppercase {text : List Char} (letters : ∀ c ∈ text, c.isAlpha = true) :
    ∀ c ∈ asciiUppercase text, c.isUpper = true := by
  intro c member
  obtain ⟨d, inside, rfl⟩ := List.mem_map.mp member
  exact isUpper_toUpper (letters d inside)

/-- On ASCII letters the two changes to upper case are one. -/
theorem uppercase_of_isAlpha {text : String} (letters : ∀ c ∈ text.toList, c.isAlpha = true) :
    uppercase text = String.ofList (asciiUppercase text.toList) := by
  have one : ∀ c ∈ text.toList, upperChar c = [c.toUpper] := by
    intro c member
    have small : c.toNat < 0x80 := by
      rcases isAlpha_iff.mp (letters c member) with capital | small
      · have bounds := isUpper_bounds capital
        omega
      · have bounds := isLower_bounds small
        omega
    rw [upperChar, if_pos small]
  unfold uppercase asciiUppercase
  rw [List.flatMap_def, List.map_congr_left one, ← List.flatMap_def, List.map_eq_flatMap]

/-- The code points of white space. -/
def blankCodes : List Nat :=
  [0x09, 0x0A, 0x0B, 0x0C, 0x0D, 0x20, 0x85, 0xA0, 0x1680, 0x2000, 0x2001, 0x2002, 0x2003, 0x2004,
    0x2005, 0x2006, 0x2007, 0x2008, 0x2009, 0x200A, 0x2028, 0x2029, 0x202F, 0x205F, 0x3000]

theorem toNat_mem_blankCodes (blank : isBlank c = true) : c.toNat ∈ blankCodes := by
  unfold isBlank at blank
  simp only [Bool.or_eq_true, Bool.and_eq_true, decide_eq_true_eq, beq_iff_eq] at blank
  simp only [blankCodes, List.mem_cons, List.not_mem_nil, or_false]
  omega

/-- The characters of words are never white space. -/
theorem isBlank_of_isWordChar (word : isWordChar c = true) : isBlank c = false := by
  have apart : ∀ code ∈ blankCodes, isWordChar (Char.ofNat code) = false := by decide +kernel
  cases blank : isBlank c with
  | false => rfl
  | true =>
    have other := apart c.toNat (toNat_mem_blankCodes blank)
    rw [Char.ofNat_toNat, word] at other
    cases other

/-! ## Keywords -/

/-- What stands behind a text is not read as part of a keyword that starts in it. -/
theorem afterKeyword_append {keyword text rest : List Char}
    (stop : ∀ d ∈ rest.head?, ∀ capital ∈ keyword, foldsTo capital d = false) :
    afterKeyword keyword (text ++ rest) = (afterKeyword keyword text).map (· ++ rest) := by
  induction keyword generalizing text with
  | nil => rfl
  | cons capital keyword ih =>
    cases text with
    | nil =>
      cases rest with
      | nil => rfl
      | cons d rest =>
        have other := stop d rfl capital List.mem_cons_self
        change (if foldsTo capital d then afterKeyword keyword rest else none) = none
        rw [other]
        rfl
    | cons d text =>
      have tail : afterKeyword keyword (text ++ rest) = (afterKeyword keyword text).map (· ++ rest) :=
        ih fun e first letter member => stop e first letter (List.mem_cons_of_mem capital member)
      rw [List.cons_append, afterKeyword, afterKeyword, tail]
      split <;> rfl

theorem mem_of_afterKeyword {keyword text after : List Char}
    (h : afterKeyword keyword text = some after) : ∀ d ∈ after, d ∈ text := by
  induction keyword generalizing text with
  | nil =>
    obtain rfl := Option.some.inj h
    exact fun _ member => member
  | cons capital keyword ih =>
    cases text with
    | nil => cases h
    | cons d text =>
      rw [afterKeyword] at h
      split at h
      · exact fun e member => List.mem_cons_of_mem d (ih h e member)
      · cases h

end SqlAccess.Text
