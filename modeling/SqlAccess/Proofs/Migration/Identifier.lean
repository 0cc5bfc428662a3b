import Mathlib.Algebra.Group.Nat.Defs
import SqlAccess.Migration.Basic
import SqlAccess.Proofs.Text.Spaced
import SqlAccess.Proofs.Text.Uppercase

/-!
# Identifiers of migrations

An identifier is a number of at most 63 bits, an underscore, and a rest that is not underscores
alone (`IsIdentifier`). Its version is the number, and its name the words between the underscores,
each with its first character in upper case (`ofParts`). Every other text is refused
(`parse_iff`).

Many identifiers give the same version and name, and one of them is made of these two: the version
in decimal, an underscore and the name. It is read back because the name is one word with nothing
left to do (`IsName`): it has no underscores, since upper case brings none, and its first character
is in upper case already, since upper case is final.
-/

namespace SqlAccess

namespace MigrationId

open SqlAccess.Text

variable {identifier number rest name : List Char} {words : List (List Char)} {id : MigrationId}

/-- The identifier is the digits of a number of at most 63 bits, an underscore, and a rest that has
something else than underscores. -/
structure IsIdentifier (identifier number rest : List Char) : Prop where
  parts : identifier = number ++ '_' :: rest
  ne_nil : number ≠ []
  digits : ∀ c ∈ number, c.isDigit = true
  small : Nat.ofDigitChars 10 number 0 ≤ 2 ^ 63 - 1
  named : ∃ c ∈ rest, c ≠ '_'

/-- The version that the number is, and the name that the words make up, each with its first
character in upper case. -/
def ofParts (number : List Char) (words : List (List Char)) : MigrationId where
  version := Nat.ofDigitChars 10 number 0
  name := String.ofList (words.flatMap fun word => (word.take 1).flatMap upperChar ++ word.drop 1)

/-! ## Reading -/

/-- An identifier is read, or refused by its own text. -/
theorem parse_eq (identifier : String) : parse identifier =
    match parse? identifier.toList with
    | some id => .ok id
    | none => .error (.invalidIdentifier identifier) := rfl

theorem parse_eq_ok_iff {identifier : String} :
    parse identifier = .ok id ↔ parse? identifier.toList = some id := by
  rw [parse_eq]
  split
  next found => rw [found, Except.ok.injEq, Option.some_inj]
  next none =>
    rw [none]
    exact iff_of_false nofun nofun

theorem capitalized_eq (word : List Char) :
    capitalized word = (word.take 1).flatMap upperChar ++ word.drop 1 := by
  cases word with
  | nil => rfl
  | cons c word => simp [capitalized]

theorem capitalized_ne_nil {word : List Char} (ne_nil : word ≠ []) : capitalized word ≠ [] := by
  cases word with
  | nil => exact absurd rfl ne_nil
  | cons c word => exact List.append_ne_nil_of_left_ne_nil (upperChar_ne_nil c) word

theorem nameOf_eq (h : WordsOf '_' words rest) : nameOf rest = words.flatMap capitalized := by
  rw [nameOf, ← wordsOf_iff.mp h]

/-- There is a name unless the rest is underscores alone. -/
theorem nameOf_ne_nil_iff : nameOf rest ≠ [] ↔ ∃ c ∈ rest, c ≠ '_' := by
  have words : WordsOf '_' _ rest := wordsOf_iff.mpr rfl
  rw [← words.ne_nil_iff, nameOf_eq words]
  refine not_congr ?_
  rw [List.flatMap_eq_nil_iff]
  constructor
  · intro empty
    refine List.eq_nil_iff_forall_not_mem.mpr fun word member => ?_
    exact capitalized_ne_nil (words.ne_nil word member) (empty word member)
  · intro none word member
    rw [none] at member
    cases member

theorem ofParts_eq (h : WordsOf '_' words rest) :
    ofParts number words = ⟨Nat.ofDigitChars 10 number 0, String.ofList (nameOf rest)⟩ := by
  rw [nameOf_eq h, ofParts, funext capitalized_eq]

/-- **What an identifier is, and what is read from it.** -/
theorem parse?_eq_some_iff : parse? identifier = some id ↔
    ∃ number rest words, IsIdentifier identifier number rest ∧ WordsOf '_' words rest ∧
      id = ofParts number words := by
  constructor
  · intro h
    obtain ⟨⟨number, rest⟩, cut, h⟩ := Option.bind_eq_some_iff.mp h
    obtain ⟨version, read, h⟩ := Option.bind_eq_some_iff.mp h
    obtain ⟨ne_nil, digits, rfl, small⟩ := readBounded?_eq_some_iff.mp read
    have words : WordsOf '_' _ rest := wordsOf_iff.mpr rfl
    split at h
    next => cases h
    next named =>
      have some : nameOf rest ≠ [] := fun none => named (List.isEmpty_iff.mpr none)
      refine ⟨number, rest, _, ⟨(splitOnce_eq_some cut).1, ne_nil, digits, small,
        nameOf_ne_nil_iff.mp some⟩, words, ?_⟩
      rw [ofParts_eq words]
      exact (Option.some.inj h).symm
  · rintro ⟨number, rest, words, shape, of, rfl⟩
    have apart : '_' ∉ number := fun member => absurd (shape.digits '_' member) (by decide)
    have read : readBounded? maxInteger number = some (Nat.ofDigitChars 10 number 0) :=
      readBounded?_eq_some_iff.mpr ⟨shape.ne_nil, shape.digits, rfl, shape.small⟩
    have named : ¬ (nameOf rest).isEmpty = true :=
      fun none => nameOf_ne_nil_iff.mpr shape.named (List.isEmpty_iff.mp none)
    rw [parse?, shape.parts, splitOnce_append apart, ofParts_eq of]
    change (readBounded? maxInteger number).bind _ = _
    rw [read, Option.bind_some, if_neg named]

theorem parse_iff {identifier : String} : parse identifier = .ok id ↔
    ∃ number rest words, IsIdentifier identifier.toList number rest ∧ WordsOf '_' words rest ∧
      id = ofParts number words :=
  parse_eq_ok_iff.trans parse?_eq_some_iff

/-! ## The name -/

/-- A name is one word, with its first character in upper case. -/
structure IsName (name : List Char) : Prop where
  ne_nil : name ≠ []
  oneWord : '_' ∉ name
  capital : ∀ c ∈ name.head?, upperChar c = [c]

theorem not_mem_capitalized {word : List Char} (absent : '_' ∉ word) :
    '_' ∉ capitalized word := by
  cases word with
  | nil => exact absent
  | cons c word =>
    rw [List.mem_cons, not_or] at absent
    rw [capitalized, List.mem_append, not_or]
    refine ⟨fun image => ?_, absent.2⟩
    rcases mem_upperChar image with same | capital | beyond
    · exact absent.1 same
    · exact absurd capital (by decide)
    · exact absurd beyond (by decide)

/-- **The words of an identifier make up a name.** -/
theorem isName_nameOf (named : ∃ c ∈ rest, c ≠ '_') : IsName (nameOf rest) where
  ne_nil := nameOf_ne_nil_iff.mpr named
  oneWord := by
    intro member
    have words : WordsOf '_' _ rest := wordsOf_iff.mpr rfl
    obtain ⟨word, inside, image⟩ := List.mem_flatMap.mp member
    exact not_mem_capitalized (words.runs word inside) image
  capital := by
    intro d first
    obtain ⟨words, of⟩ : ∃ words, WordsOf '_' words rest := ⟨_, wordsOf_iff.mpr rfl⟩
    rw [nameOf_eq of] at first
    cases words with
    | nil => cases first
    | cons word words =>
      cases word with
      | nil => exact absurd rfl (of.ne_nil [] List.mem_cons_self)
      | cons c word =>
        obtain ⟨e, image, same⟩ := List.exists_cons_of_ne_nil (upperChar_ne_nil c)
        rw [List.flatMap_cons, capitalized, same] at first
        obtain rfl : e = d := Option.some.inj first
        exact upperChar_of_mem (same ▸ List.mem_cons_self)

/-- A name has nothing left to do. -/
theorem IsName.capitalized_eq (h : IsName name) : capitalized name = name := by
  cases name with
  | nil => rfl
  | cons c name =>
    rw [capitalized, h.capital c rfl]
    rfl

/-- **A name behind a version is read back.** -/
theorem IsName.parse_eq (h : IsName name) {version : Nat} (small : version ≤ 2 ^ 63 - 1) :
    parse (toString (version : Int) ++ "_" ++ String.ofList name) =
      .ok ⟨version, String.ofList name⟩ := by
  have word := wordsOf_singleton h.ne_nil h.oneWord
  have digits : (toString (version : Int)).toList = Nat.toDigits 10 version := String.toList_ofList
  refine parse_iff.mpr ⟨Nat.toDigits 10 version, name, [name],
    ⟨?_, Nat.toDigits_ne_nil, fun _ => isDigit_of_mem_toDigits, ?_, ?_⟩, word, ?_⟩
  · simp only [String.toList_append, digits, String.toList_ofList, List.append_assoc]
    rfl
  · rwa [Nat.ofDigitChars_ten_toDigits]
  · exact word.ne_nil_iff.mp (List.cons_ne_nil name [])
  · rw [ofParts_eq word, Nat.ofDigitChars_ten_toDigits, nameOf_eq word, List.flatMap_singleton,
      h.capitalized_eq]

end MigrationId

/-- **Identifiers are read exactly, and have a canonical form.** What is read from a text is a
version and a name, when the text is the digits of a number of at most 63 bits, an underscore and a
rest that is not underscores alone: the number, and the words between the underscores of the rest,
each with its first character in upper case. From such a text something is read, and every other one
is refused. And what is read is read again from the version in decimal, an underscore and the
name. -/
theorem identifiers_are_read_exactly (identifier : String) :
    (∀ id, MigrationId.parse identifier = .ok id ↔
      ∃ number rest words, MigrationId.IsIdentifier identifier.toList number rest ∧
        Text.WordsOf '_' words rest ∧ id = MigrationId.ofParts number words) ∧
    ((∃ id, MigrationId.parse identifier = .ok id) ↔
      ∃ number rest, MigrationId.IsIdentifier identifier.toList number rest) ∧
    (∀ id, MigrationId.parse identifier = .ok id →
      MigrationId.parse (toString id.version ++ "_" ++ id.name) = .ok id) := by
  refine ⟨fun _ => MigrationId.parse_iff, ⟨?_, ?_⟩, fun id read => ?_⟩
  · rintro ⟨id, read⟩
    obtain ⟨number, rest, -, shape, -, -⟩ := MigrationId.parse_iff.mp read
    exact ⟨number, rest, shape⟩
  · rintro ⟨number, rest, shape⟩
    exact ⟨_, MigrationId.parse_iff.mpr ⟨number, rest, _, shape, Text.wordsOf_iff.mpr rfl, rfl⟩⟩
  · obtain ⟨number, rest, words, shape, of, rfl⟩ := MigrationId.parse_iff.mp read
    rw [MigrationId.ofParts_eq of]
    exact (MigrationId.isName_nameOf shape.named).parse_eq shape.small

/-- An identifier with a leading zero, empty words, and a character that becomes two in upper
case. -/
theorem identifiers_are_read_exactly_sharp_s :
    MigrationId.parse "07__ßen_x_" = .ok ⟨7, "SSenX"⟩ ∧
      MigrationId.parse "7_SSenX" = .ok ⟨7, "SSenX"⟩ := by
  have read : MigrationId.parse "07__ßen_x_" = .ok ⟨7, "SSenX"⟩ :=
    MigrationId.parse_eq_ok_iff.mpr (by decide +kernel)
  exact ⟨read, (identifiers_are_read_exactly "07__ßen_x_").2.2 _ read⟩

end SqlAccess
