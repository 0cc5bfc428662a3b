import SqlAccess.Predicate.Operator
import SqlAccess.Proofs.Identifier
import SqlAccess.Proofs.Params.Growth

/-!
# Conditions as they are read

The text of a condition is a language of its own: tests of columns, joined by connectives, with
groups in parentheses. A `Form` is what a text of this language says: which column is tested and
how, and which members a group has. It has no room for what the text does not show: columns are
resolved, groups are never empty, and the connective of a group stands between its members, so that
a group of one member has none.

`Form.text_cancel` is the unique readability of the language. A form can be cancelled from the front
of two texts: column names are cancelled by their quotes, openings of tests and separators are read
by their first characters, a key ends with its digits, and a group ends where a parenthesis stands
in the place of a connective.
-/

namespace SqlAccess

/-! ## Forms -/

/-- How a column is tested, with what stands for a value left open. -/
inductive Test (α : Type) where
  | compare (operator : Operator) (operand : α)
  | null (negated : Bool)
  | listed (negated : Bool) (operands : List α)

/-- What the text of a condition says. A group has a first member, and every further one with the
connective in front of it. -/
inductive Form (α : Type) where
  | test (column : String) (shape : Test α)
  | group (first : Form α) (rest : List (Connective × Form α))

/-- The group that is left of the given members, if any is. -/
def Form.joined {α : Type} (connective : Connective) : List (Form α) → Option (Form α)
  | [] => none
  | first :: rest => some (.group first (rest.map fun member => (connective, member)))

/-! ## The text of a form -/

/-- The fixed text at the start of a test. -/
inductive Opening where
  | compare (operator : Operator)
  | null (negated : Bool)
  | listed (negated : Bool)

namespace Opening

/-- What stands behind the column. -/
def text : Opening → List Char
  | .compare operator => ' ' :: operator.sql.toList ++ [' ']
  | .null negated => if negated then " IS NOT NULL".toList else " IS NULL".toList
  | .listed negated => if negated then " NOT IN (".toList else " IN (".toList

/-- The opening at the start of a text, with what follows it. -/
def read? : List Char → Option (Opening × List Char)
  | ' ' :: '=' :: ' ' :: rest => some (.compare .equal, rest)
  | ' ' :: '!' :: '=' :: ' ' :: rest => some (.compare .notEqual, rest)
  | ' ' :: '>' :: ' ' :: rest => some (.compare .greater, rest)
  | ' ' :: '>' :: '=' :: ' ' :: rest => some (.compare .greaterOrEqual, rest)
  | ' ' :: '<' :: ' ' :: rest => some (.compare .less, rest)
  | ' ' :: '<' :: '=' :: ' ' :: rest => some (.compare .lessOrEqual, rest)
  | ' ' :: '&' :: ' ' :: rest => some (.compare .bitAnd, rest)
  | ' ' :: 'L' :: 'I' :: 'K' :: 'E' :: ' ' :: rest => some (.compare .like, rest)
  | ' ' :: 'N' :: 'O' :: 'T' :: ' ' :: 'L' :: 'I' :: 'K' :: 'E' :: ' ' :: rest =>
    some (.compare .notLike, rest)
  | ' ' :: 'N' :: 'A' :: 'T' :: 'I' :: 'V' :: 'E' :: ' ' :: rest => some (.compare .native, rest)
  | ' ' :: 'I' :: 'S' :: ' ' :: 'N' :: 'U' :: 'L' :: 'L' :: rest => some (.null false, rest)
  | ' ' :: 'I' :: 'S' :: ' ' :: 'N' :: 'O' :: 'T' :: ' ' :: 'N' :: 'U' :: 'L' :: 'L' :: rest =>
    some (.null true, rest)
  | ' ' :: 'I' :: 'N' :: ' ' :: '(' :: rest => some (.listed false, rest)
  | ' ' :: 'N' :: 'O' :: 'T' :: ' ' :: 'I' :: 'N' :: ' ' :: '(' :: rest => some (.listed true, rest)
  | _ => none

theorem read?_text (opening : Opening) (rest : List Char) :
    read? (opening.text ++ rest) = some (opening, rest) := by
  rcases opening with operator | negated | negated
  · cases operator <;> rfl
  · cases negated <;> rfl
  · cases negated <;> rfl

/-- Openings differ before the shorter one ends. -/
theorem text_cancel {opening opening' : Opening} {rest rest' : List Char}
    (same : opening.text ++ rest = opening'.text ++ rest') :
    opening = opening' ∧ rest = rest' := by
  have reads := congrArg read? same
  rw [read?_text, read?_text] at reads
  cases reads
  exact ⟨rfl, rfl⟩

/-- An opening cannot be read on as part of the column in front of it. -/
theorem stops_text {quote : Char} (blank : quote ≠ ' ') (opening : Opening) (rest : List Char) :
    Identifier.Stops quote (opening.text ++ rest) := by
  have head : (opening.text ++ rest).head? = some ' ' := by
    rcases opening with operator | negated | negated
    · rfl
    · cases negated <;> rfl
    · cases negated <;> rfl
  rw [Identifier.Stops, head]
  rintro _ ⟨⟩
  exact ⟨blank.symm, by decide⟩

end Opening

namespace Connective

/-- What stands between two members of a group. -/
def between (connective : Connective) : List Char :=
  ' ' :: connective.sql.toList ++ [' ']

/-- The connective at the start of a text, with what follows it. -/
def read? : List Char → Option (Connective × List Char)
  | ' ' :: 'A' :: 'N' :: 'D' :: ' ' :: rest => some (.all, rest)
  | ' ' :: 'O' :: 'R' :: ' ' :: rest => some (.any, rest)
  | ' ' :: 'I' :: 'N' :: ' ' :: rest => some (.among, rest)
  | ' ' :: 'N' :: 'O' :: 'T' :: ' ' :: 'I' :: 'N' :: ' ' :: rest => some (.notAmong, rest)
  | _ => none

theorem read?_between (connective : Connective) (rest : List Char) :
    read? (connective.between ++ rest) = some (connective, rest) := by
  cases connective <;> rfl

end Connective

/-- Can the text stand behind a member of a group? -/
def Follows (rest : List Char) : Prop :=
  ∀ c ∈ rest.head?, c = ' '

/-- Can the text stand behind the last member of a group? -/
structure Ends (rest : List Char) : Prop where
  follows : Follows rest
  silent : Connective.read? rest = none

theorem follows_between (connective : Connective) (rest : List Char) :
    Follows (connective.between ++ rest) := by
  rintro _ ⟨⟩
  rfl

theorem ends_nil : Ends [] :=
  ⟨fun _ member => (nomatch member), rfl⟩

theorem ends_parenthesis (rest : List Char) : Ends (' ' :: ')' :: rest) := by
  refine ⟨?_, rfl⟩
  rintro _ ⟨⟩
  rfl

/-- What follows a member is no digit, so a key does not go on with it. -/
theorem Follows.not_digit {rest : List Char} (follows : Follows rest) :
    ∀ c ∈ rest.head?, c.isDigit = false := by
  intro c member
  rw [follows c member]
  rfl

/-! ## The text of a list -/

/-- The keys behind the first one of a list, and its closing parenthesis. -/
def moreKeys : List Nat → List Char
  | [] => [')']
  | number :: numbers => ',' :: ' ' :: (Params.generated number).toList ++ moreKeys numbers

/-- The keys of a list, and its closing parenthesis. -/
def keysText : List Nat → List Char
  | [] => [')']
  | number :: numbers => (Params.generated number).toList ++ moreKeys numbers

theorem moreKeys_not_digit (numbers : List Nat) (rest : List Char) :
    ∀ c ∈ (moreKeys numbers ++ rest).head?, c.isDigit = false := by
  cases numbers <;> (rintro _ ⟨⟩; rfl)

theorem moreKeys_cancel {numbers numbers' : List Nat} {rest rest' : List Char}
    (same : moreKeys numbers ++ rest = moreKeys numbers' ++ rest') :
    numbers = numbers' ∧ rest = rest' := by
  induction numbers generalizing numbers' with
  | nil =>
    cases numbers' with
    | nil => exact ⟨rfl, (List.cons.inj same).2⟩
    | cons number' numbers' => exact absurd (List.cons.inj same).1 (by decide)
  | cons number numbers ih =>
    cases numbers' with
    | nil => exact absurd (List.cons.inj same).1 (by decide)
    | cons number' numbers' =>
      simp only [moreKeys, List.cons_append, List.append_assoc, List.cons.injEq, true_and] at same
      obtain ⟨rfl, tail⟩ := Params.generated_cancel (moreKeys_not_digit numbers rest)
        (moreKeys_not_digit numbers' rest') same
      obtain ⟨rfl, rfl⟩ := ih tail
      exact ⟨rfl, rfl⟩

theorem keysText_cancel {numbers numbers' : List Nat} {rest rest' : List Char}
    (same : keysText numbers ++ rest = keysText numbers' ++ rest') :
    numbers = numbers' ∧ rest = rest' := by
  have colon : ∀ (number : Nat) (more : List Char),
      ')' :: rest ≠ (Params.generated number).toList ++ more ∧
        ')' :: rest' ≠ (Params.generated number).toList ++ more := by
    intro number more
    rw [Params.toList_generated]
    exact ⟨fun eq => absurd (List.cons.inj eq).1 (by decide),
      fun eq => absurd (List.cons.inj eq).1 (by decide)⟩
  cases numbers with
  | nil =>
    cases numbers' with
    | nil => exact ⟨rfl, (List.cons.inj same).2⟩
    | cons number' numbers' =>
      rw [keysText, keysText, List.append_assoc] at same
      exact absurd same (colon number' _).1
  | cons number numbers =>
    cases numbers' with
    | nil =>
      rw [keysText, keysText, List.append_assoc] at same
      exact absurd same.symm (colon number _).2
    | cons number' numbers' =>
      rw [keysText, keysText, List.append_assoc, List.append_assoc] at same
      obtain ⟨rfl, tail⟩ := Params.generated_cancel (moreKeys_not_digit numbers rest)
        (moreKeys_not_digit numbers' rest') same
      obtain ⟨rfl, rfl⟩ := moreKeys_cancel tail
      exact ⟨rfl, rfl⟩

/-! ## The text of a test -/

namespace Test

/-- The fixed text that a test starts with. -/
def opening {α : Type} : Test α → Opening
  | .compare operator _ => .compare operator
  | .null negated => .null negated
  | .listed negated _ => .listed negated

/-- What follows the opening of a test, with generated keys for the values. -/
def operands : Test Nat → List Char
  | .compare _ number => (Params.generated number).toList
  | .null _ => []
  | .listed _ numbers => keysText numbers

theorem cancel {test test' : Test Nat} {rest rest' : List Char} (follows : Follows rest)
    (follows' : Follows rest') (same : test.opening.text ++ (test.operands ++ rest) =
      test'.opening.text ++ (test'.operands ++ rest')) :
    test = test' ∧ rest = rest' := by
  obtain ⟨openings, tail⟩ := Opening.text_cancel same
  cases test with
  | compare operator number =>
    cases test' with
    | compare operator' number' =>
      cases openings
      obtain ⟨rfl, rfl⟩ := Params.generated_cancel follows.not_digit follows'.not_digit tail
      exact ⟨rfl, rfl⟩
    | null | listed => cases openings
  | null negated =>
    cases test' with
    | null negated' =>
      cases openings
      exact ⟨rfl, tail⟩
    | compare | listed => cases openings
  | listed negated numbers =>
    cases test' with
    | listed negated' numbers' =>
      cases openings
      obtain ⟨rfl, rfl⟩ := keysText_cancel tail
      exact ⟨rfl, rfl⟩
    | compare | null => cases openings

end Test

/-! ## Unique readability -/

namespace Form

mutual

/-- The text of a form, with generated keys for the values. -/
def text (d : Dialect) : Form Nat → List Char
  | .test column shape =>
    Identifier.encode d.identifierQuote column.toList ++ (shape.opening.text ++ shape.operands)
  | .group first rest => '(' :: ' ' :: (text d first ++ (moreText d rest ++ [' ', ')']))

/-- The text of the members behind the first one. -/
def moreText (d : Dialect) : List (Connective × Form Nat) → List Char
  | [] => []
  | (connective, form) :: rest => connective.between ++ (text d form ++ moreText d rest)

end

theorem follows_moreText {d : Dialect} (members : List (Connective × Form Nat))
    {rest : List Char} (follows : Follows rest) : Follows (moreText d members ++ rest) := by
  cases members with
  | nil =>
    rw [moreText]
    exact follows
  | cons member members =>
    obtain ⟨connective, form⟩ := member
    rw [moreText, List.append_assoc]
    exact follows_between connective _

/-- A test starts with its column, and never with a parenthesis. -/
theorem test_ne_group {d : Dialect} {column : String} {tail rest : List Char} :
    Identifier.encode d.identifierQuote column.toList ++ tail ≠ '(' :: rest := by
  obtain ⟨c, more, name, start⟩ := Identifier.encode_eq_cons d.identifierQuote column.toList
  have quote : d.identifierQuote ≠ '(' := by cases d <;> decide
  rw [name]
  intro same
  obtain ⟨rfl, -⟩ := List.cons.inj same
  rcases start with quoted | star
  · exact quote quoted.symm
  · exact absurd star (by decide)

mutual

/-- **The text of a form fixes the form** and the place where it ends, whatever the names of its
columns are. -/
theorem text_cancel (d : Dialect) :
    ∀ (form form' : Form Nat) {rest rest' : List Char}, Follows rest → Follows rest' →
      form.text d ++ rest = form'.text d ++ rest' → form = form' ∧ rest = rest'
  | .test column shape, .test column' shape', rest, rest', follows, follows', same => by
    have blank : d.identifierQuote ≠ ' ' := by cases d <;> decide
    simp only [text, List.append_assoc] at same
    obtain ⟨names, tail⟩ := Identifier.encode_cancel d.identifierQuote_quotes
      (Opening.stops_text blank _ _) (Opening.stops_text blank _ _) same
    obtain ⟨rfl, rfl⟩ := Test.cancel follows follows' tail
    exact ⟨by rw [String.toList_inj.mp names], rfl⟩
  | .test .., .group .., _, _, _, _, same => by
    rw [text, text, List.append_assoc] at same
    exact absurd same test_ne_group
  | .group .., .test .., _, _, _, _, same => by
    rw [text, text, List.append_assoc] at same
    exact absurd same.symm test_ne_group
  | .group first members, .group first' members', rest, rest', _, _, same => by
    simp only [text, List.cons_append, List.append_assoc, List.nil_append, List.cons.injEq,
      true_and] at same
    have ends := ends_parenthesis rest
    have ends' := ends_parenthesis rest'
    obtain ⟨rfl, others⟩ := text_cancel d first first' (follows_moreText members ends.follows)
      (follows_moreText members' ends'.follows) same
    obtain ⟨rfl, closing⟩ := moreText_cancel d members members' ends ends' others
    exact ⟨rfl, (List.cons.inj (List.cons.inj closing).2).2⟩

/-- The text of further members fixes these members and their number. -/
theorem moreText_cancel (d : Dialect) :
    ∀ (members members' : List (Connective × Form Nat)) {rest rest' : List Char}, Ends rest →
      Ends rest' → moreText d members ++ rest = moreText d members' ++ rest' →
        members = members' ∧ rest = rest'
  | [], [], _, _, _, _, same => ⟨rfl, same⟩
  | [], (connective, form) :: members, rest, rest', ends, _, same => by
    have read := ends.silent
    rw [moreText, moreText, List.append_assoc, List.nil_append] at same
    rw [same, Connective.read?_between] at read
    cases read
  | (connective, form) :: members, [], rest, rest', _, ends, same => by
    have read := ends.silent
    rw [moreText, moreText, List.append_assoc, List.nil_append] at same
    rw [← same, Connective.read?_between] at read
    cases read
  | (connective, form) :: members, (connective', form') :: members', rest, rest', ends, ends',
      same => by
    simp only [moreText, List.append_assoc] at same
    have reads := congrArg Connective.read? same
    rw [Connective.read?_between, Connective.read?_between] at reads
    obtain ⟨rfl, texts⟩ := Prod.mk.inj (Option.some.inj reads)
    obtain ⟨rfl, others⟩ := text_cancel d form form' (follows_moreText members ends.follows)
      (follows_moreText members' ends'.follows) texts
    obtain ⟨rfl, rfl⟩ := moreText_cancel d members members' ends ends' others
    exact ⟨rfl, rfl⟩

end

end Form

end SqlAccess
