import SqlAccess.Proofs.Ddl.ValueList
import SqlAccess.Proofs.Text.Letter

/-!
# Types of columns in a table definition

A native type is read as the type that stands for it, and that type is printed as the native type
again (`nativeType_columnType`); the one exception is `INTEGER`, which is printed `INT`. The
argument of a type is read back from its text (`length?_argument`), which is for a value list what
`SqlAccess.Proofs.Ddl.ValueList` is about.
-/

namespace SqlAccess.Ddl

open SqlAccess.Text

/-! ## Arguments -/

/-- The argument of a type, between its parentheses. -/
def argument : Length → List Char
  | .size n => Nat.toDigits 10 n.toNat
  | .precision digits scale => Nat.toDigits 10 digits.toNat ++ ',' :: Nat.toDigits 10 scale.toNat
  | .values texts => (Text.joined "," (texts.map Literal.escaped)).toList

theorem toList_lengthSql (length : Length) :
    (Dialect.mysql.lengthSql length).toList = '(' :: argument length ++ [')'] := by
  have number : ∀ n : UInt32, (toString n).toList = Nat.toDigits 10 n.toNat :=
    fun _ => String.toList_ofList
  cases length with
  | size n => simp [Dialect.lengthSql, argument, number]
  | precision digits scale => simp [Dialect.lengthSql, argument, number]
  | values texts =>
    have literal : (fun text => Dialect.mysql.literal (.text text)) = Literal.escaped := rfl
    simp [Dialect.lengthSql, argument, literal]

/-- Does the length go with the native type? -/
def Fits (native : List Char) : Length → Prop
  | .values texts => (isWord "ENUM" native = true ∨ isWord "SET" native = true) ∧ Listable texts
  | .size _ | .precision _ _ => isWord "ENUM" native = false ∧ isWord "SET" native = false

theorem lengthNumber?_toDigits (n : UInt32) :
    lengthNumber? (Nat.toDigits 10 n.toNat) = some n := by
  have visible : ∀ c ∈ Nat.toDigits 10 n.toNat, isBlank c = false := fun c member =>
    isBlank_of_isDigit (isDigit_of_mem_toDigits member)
  have kept : trim (Nat.toDigits 10 n.toNat) = Nat.toDigits 10 n.toNat :=
    dropAround_of_bounds (fun c first => visible c (List.mem_of_head? first))
      fun c last => visible c (List.mem_of_getLast? last)
  have small : n.toNat ≤ maxLength := by
    have bound := n.toNat_lt
    unfold maxLength
    omega
  rw [lengthNumber?, kept, readNat?_toDigits small, Option.map_some, UInt32.ofNat_toNat]

/-- **The argument of a type is read back.** -/
theorem length?_argument {native : List Char} {length : Length} (fits : Fits native length) :
    length? native (argument length) = some length := by
  cases length with
  | values texts =>
    obtain ⟨listing, listable⟩ := fits
    rw [length?, if_pos listing, argument, splitTexts_map listable]
  | size n =>
    have other : ¬ (isWord "ENUM" native = true ∨ isWord "SET" native = true) := by
      simp [fits.1, fits.2]
    rw [length?, if_neg other, argument, splitOnce_of_not_mem (not_mem_toDigits (by decide) _)]
    simp only [lengthNumber?_toDigits, Option.map_some]
  | precision digits scale =>
    have other : ¬ (isWord "ENUM" native = true ∨ isWord "SET" native = true) := by
      simp [fits.1, fits.2]
    rw [length?, if_neg other, argument, splitOnce_append (not_mem_toDigits (by decide) _)]
    simp only [lengthNumber?_toDigits]

theorem mem_listTail {c : Char} {text : String} {rest : List String}
    (h : c ∈ listTail text rest) :
    c = '\'' ∨ c = ',' ∨ ∃ t ∈ text :: rest, c ∈ t.toList := by
  induction rest generalizing text with
  | nil =>
    rw [listTail, List.mem_append, List.mem_singleton] at h
    rcases h with h | h
    · exact .inr (.inr ⟨text, List.mem_cons_self, mem_escapedBody h⟩)
    · exact .inl h
  | cons next rest ih =>
    rw [listTail, List.mem_append, List.mem_cons, List.mem_cons, List.mem_cons] at h
    rcases h with h | h | h | h | h
    · exact .inr (.inr ⟨text, List.mem_cons_self, mem_escapedBody h⟩)
    · exact .inl h
    · exact .inr (.inl h)
    · exact .inl h
    · rcases ih h with h | h | ⟨t, member, inside⟩
      · exact .inl h
      · exact .inr (.inl h)
      · exact .inr (.inr ⟨t, List.mem_cons_of_mem _ member, inside⟩)

/-- A value list holds what its texts hold, and what stands around them. -/
theorem not_mem_values {texts : List String} {c : Char} (quote : c ≠ '\'') (comma : c ≠ ',')
    (plain : ∀ text ∈ texts, c ∉ text.toList) : c ∉ argument (.values texts) := by
  cases texts with
  | nil => exact List.not_mem_nil
  | cons text rest =>
    rw [argument, toList_joined_escaped, List.mem_cons, not_or]
    refine ⟨quote, fun inside => ?_⟩
    rcases mem_listTail inside with same | same | ⟨t, member, inside⟩
    · exact quote same
    · exact comma same
    · exact plain t member inside

/-- The argument of a type stays on its line and between its parentheses. -/
theorem not_mem_argument {native : List Char} {length : Length} (fits : Fits native length) {c : Char}
    (h : c = ')' ∨ c = '\n') : c ∉ argument length := by
  have digit : c.isDigit = false := by rcases h with rfl | rfl <;> decide
  have comma : c ≠ ',' := by rcases h with rfl | rfl <;> decide
  have quote : c ≠ '\'' := by rcases h with rfl | rfl <;> decide
  cases length with
  | size n => exact not_mem_toDigits digit _
  | precision digits scale =>
    rw [argument, List.mem_append, List.mem_cons, not_or, not_or]
    exact ⟨not_mem_toDigits digit _, comma, not_mem_toDigits digit _⟩
  | values texts =>
    obtain ⟨-, listable⟩ := fits
    refine not_mem_values quote comma fun text member inside => ?_
    have plain := listable.plain text member c inside
    exact h.elim plain.1 plain.2

/-! ## Native types -/

/-- Is the native type one or more capital letters? -/
structure IsNative (native : List Char) : Prop where
  ne_nil : native ≠ []
  capital : ∀ c ∈ native, c.isUpper = true

/-- **A native type is printed again** as it was read. -/
theorem nativeType_columnType {native : String} (capital : ∀ c ∈ native.toList, c.isUpper = true)
    (other : native ≠ "INTEGER") (length : Option Length) :
    Dialect.mysql.nativeType (Dialect.mysql.columnType native length) = native := by
  have capitals : String.ofList (asciiUppercase native.toList) = native := by
    rw [asciiUppercase_of_isUpper capital, String.ofList_toList]
  have readings : ∀ reading ∈ Dialect.mysql.typeReadings, reading.1 ≠ "INTEGER" →
      Dialect.mysql.nativeType reading.2 = reading.1 := by decide
  unfold Dialect.columnType
  rw [capitals]
  dsimp only
  split
  next boolean => exact boolean.2.1.symm
  next =>
    cases found : Dialect.mysql.typeReadings.lookup native with
    | none =>
      have letters : ∀ c ∈ native.toList, c.isAlpha = true := fun c member =>
        isAlpha_iff.mpr (.inl (capital c member))
      exact (uppercase_of_isAlpha letters).trans capitals
    | some type =>
      obtain ⟨before, after, whole, -⟩ := List.lookup_eq_some_iff.mp found
      exact readings (native, type) (whole ▸ List.mem_append_right _ List.mem_cons_self) other

end SqlAccess.Ddl
