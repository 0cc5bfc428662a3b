import Mathlib.Data.List.Forall2
import SqlAccess.Dialect.Basic
import SqlAccess.Proofs.Text.Cut

/-!
# Reading identifiers out of a statement

A database reads quoted text up to the quote that closes it, which is the first one that no other
follows (`closing?`), and an identifier part by part, with dots between them (`Denotes`). An
identifier is read as the name that it was made of and as no other, whatever the characters of the
name are, and a list of identifiers as the list of their names
(`identifiers_denote_their_names`).

Behind this is what finds a name again in longer text. It never renders to nothing: it starts with a
quote or with a bare star (`encode_eq_cons`). And it can be cancelled from the front of two texts
(`encode_cancel`): when what follows it can be read neither as a further part nor as a doubled
quote, the text fixes both the name and the place where it ends. So no name can take in what stands
behind it.
-/

namespace SqlAccess.Identifier

open SqlAccess.Text

/-- Can the text not be read on as part of the identifier in front of it? -/
def Stops (quote : Char) (rest : List Char) : Prop :=
  ∀ c ∈ rest.head?, c ≠ quote ∧ c ≠ '.'

/-- Is the character fit for quoting identifiers? -/
structure Quotes (quote : Char) : Prop where
  ne_star : quote ≠ '*'
  ne_dot : quote ≠ '.'

variable {quote : Char}

theorem part_eq_cons (quote : Char) (piece : List Char) :
    ∃ c rest, part quote piece = c :: rest ∧ (c = quote ∨ c = '*') := by
  unfold part
  split
  next star => exact ⟨'*', [], star, .inr rfl⟩
  next => exact ⟨quote, _, rfl, .inl rfl⟩

/-- An identifier starts with a quote or with a bare star. -/
theorem encode_eq_cons (quote : Char) (name : List Char) :
    ∃ c rest, encode quote name = c :: rest ∧ (c = quote ∨ c = '*') := by
  unfold encode
  cases cut : name.splitOn '.' with
  | nil => exact absurd cut (List.splitOn_ne_nil '.' name)
  | cons piece pieces =>
    obtain ⟨c, rest, same, start⟩ := part_eq_cons quote piece
    cases pieces with
    | nil =>
      rw [List.map_singleton, List.intercalate_singleton]
      exact ⟨c, rest, same, start⟩
    | cons next pieces =>
      refine ⟨c, rest ++ '.' :: ['.'].intercalate ((next :: pieces).map (part quote)), ?_, start⟩
      simp only [List.map_cons, List.intercalate_cons_cons, same, List.cons_append,
        List.append_assoc, List.nil_append]

/-! ## Reading a name -/

/-- What the text behind an opening quote spells up to the quote that closes it, and what is behind
that one. Two quotes in a row are one of the text's own. -/
def closing? (quote : Char) : List Char → Option (List Char × List Char)
  | [] => none
  | [c] => if c = quote then some ([], []) else none
  | c :: d :: cs =>
    if c = quote then
      if d = quote then (closing? quote cs).map fun (piece, rest) => (quote :: piece, rest)
      else some ([], d :: cs)
    else (closing? quote (d :: cs)).map fun (piece, rest) => (c :: piece, rest)

/-- The SQL is one part of an identifier and denotes the piece: a bare star, or text that opens with
a quote and is closed by its last character, and not before. -/
inductive IsPart (quote : Char) : List Char → List Char → Prop
  | star : IsPart quote ['*'] ['*']
  | quoted {text piece : List Char} : closing? quote text = some (piece, []) →
      IsPart quote (quote :: text) piece

/-- The SQL is parts with dots between them, and with dots between the pieces that they denote it is
the name. -/
def Denotes (quote : Char) (sql name : List Char) : Prop :=
  ∃ parts pieces, List.Forall₂ (IsPart quote) parts pieces ∧ parts ≠ [] ∧
    sql = ['.'].intercalate parts ∧ name = ['.'].intercalate pieces

theorem closing?_cons {c : Char} (other : c ≠ quote) (cs : List Char) :
    closing? quote (c :: cs) =
      (closing? quote cs).map fun (piece, rest) => (c :: piece, rest) := by
  cases cs with
  | nil => exact if_neg other
  | cons d cs => exact if_neg other

/-- Text with its quotes doubled is closed by the quote behind it. -/
theorem closing?_doubled {piece rest : List Char} (stop : ∀ c ∈ rest.head?, c ≠ quote) :
    closing? quote (doubled quote piece ++ quote :: rest) = some (piece, rest) := by
  induction piece with
  | nil =>
    cases rest with
    | nil => exact if_pos rfl
    | cons d rest => exact (if_pos rfl).trans (if_neg (stop d rfl))
  | cons c piece ih =>
    rw [doubled_cons]
    split
    next own =>
      subst own
      rw [List.append_assoc, List.cons_append, List.cons_append, List.nil_append, closing?,
        if_pos rfl, if_pos rfl, ih, Option.map_some]
    next other =>
      rw [List.append_assoc, List.singleton_append, closing?_cons other, ih, Option.map_some]

example : closing? '"' "a\"\".b\", c".toList = some ("a\".b".toList, ", c".toList) := by decide

/-- What is closed is text with its quotes doubled. -/
theorem eq_of_closing? {text piece rest : List Char}
    (closed : closing? quote text = some (piece, rest)) :
    text = doubled quote piece ++ quote :: rest := by
  induction text using closing?.induct quote generalizing piece with
  | case1 => cases closed
  | case2 =>
    rw [closing?, if_pos rfl] at closed
    cases closed
    rfl
  | case3 c other =>
    rw [closing?, if_neg other] at closed
    cases closed
  | case4 cs ih =>
    rw [closing?, if_pos rfl, if_pos rfl] at closed
    obtain ⟨⟨inner, behind⟩, found, same⟩ := Option.map_eq_some_iff.mp closed
    cases same
    rw [ih found, doubled_cons, if_pos rfl]
    rfl
  | case5 d cs other =>
    rw [closing?, if_pos rfl, if_neg other] at closed
    cases closed
    rfl
  | case6 c d cs other ih =>
    rw [closing?, if_neg other] at closed
    obtain ⟨⟨inner, behind⟩, found, same⟩ := Option.map_eq_some_iff.mp closed
    cases same
    rw [ih found, doubled_cons, if_neg other]
    rfl

theorem isPart_iff {sql piece : List Char} : IsPart quote sql piece ↔
    sql = ['*'] ∧ piece = ['*'] ∨ sql = quote :: (doubled quote piece ++ [quote]) := by
  constructor
  · rintro (_ | closed)
    · exact .inl ⟨rfl, rfl⟩
    · exact .inr (congrArg _ (eq_of_closing? closed))
  · rintro (⟨rfl, rfl⟩ | rfl)
    · exact .star
    · exact .quoted (closing?_doubled fun _ head => nomatch head)

theorem isPart_part (piece : List Char) : IsPart quote (part quote piece) piece := by
  unfold part
  split
  next star => exact star ▸ .star
  next => exact isPart_iff.mpr (.inr rfl)

/-- An identifier denotes its name. -/
theorem denotes_encode (name : List Char) : Denotes quote (encode quote name) name := by
  refine ⟨_, name.splitOn '.', ?_, ?_, rfl, (List.intercalate_splitOn '.').symm⟩
  · rw [List.forall₂_map_left_iff]
    exact List.forall₂_same.mpr fun piece _ => isPart_part piece
  · exact fun none => List.splitOn_ne_nil '.' name (List.map_eq_nil_iff.mp none)

/-! ## Cancelling -/

/-- Quoted text ends at the first quote that is not doubled. -/
theorem doubled_cancel {piece piece' rest rest' : List Char} (stop : ∀ c ∈ rest.head?, c ≠ quote)
    (stop' : ∀ c ∈ rest'.head?, c ≠ quote)
    (same : doubled quote piece ++ quote :: rest = doubled quote piece' ++ quote :: rest') :
    piece = piece' ∧ rest = rest' := by
  have read : closing? quote (doubled quote piece ++ quote :: rest) = some (piece, rest) :=
    closing?_doubled stop
  rw [same, closing?_doubled stop'] at read
  cases read
  exact ⟨rfl, rfl⟩

theorem IsPart.cancel (quotes : Quotes quote) {sql sql' piece piece' rest rest' : List Char}
    (h : IsPart quote sql piece) (h' : IsPart quote sql' piece')
    (stop : ∀ c ∈ rest.head?, c ≠ quote) (stop' : ∀ c ∈ rest'.head?, c ≠ quote)
    (same : sql ++ rest = sql' ++ rest') : piece = piece' ∧ rest = rest' := by
  rcases isPart_iff.mp h with ⟨rfl, rfl⟩ | rfl
  · rcases isPart_iff.mp h' with ⟨rfl, rfl⟩ | rfl
    · exact ⟨rfl, (List.cons.inj same).2⟩
    · exact absurd (List.cons.inj same).1.symm quotes.ne_star
  · rcases isPart_iff.mp h' with ⟨rfl, rfl⟩ | rfl
    · exact absurd (List.cons.inj same).1 quotes.ne_star
    · simp only [List.cons_append, List.append_assoc, List.nil_append] at same
      exact doubled_cancel stop stop' (List.cons.inj same).2

theorem parts_cancel (quotes : Quotes quote) {parts parts' pieces pieces' : List (List Char)}
    {rest rest' : List Char} (h : List.Forall₂ (IsPart quote) parts pieces)
    (h' : List.Forall₂ (IsPart quote) parts' pieces') (nonempty : parts ≠ [])
    (nonempty' : parts' ≠ []) (stop : Stops quote rest) (stop' : Stops quote rest')
    (same : ['.'].intercalate parts ++ rest = ['.'].intercalate parts' ++ rest') :
    pieces = pieces' ∧ rest = rest' := by
  have dot : ∀ {more : List Char}, ∀ c ∈ ('.' :: more).head?, c ≠ quote := by
    rintro more c ⟨⟩
    exact quotes.ne_dot.symm
  -- A part cannot be read on, so the identifiers have a first part in common, and end together.
  induction h generalizing parts' pieces' with
  | nil => exact absurd rfl nonempty
  | cons first others ih =>
    cases h' with
    | nil => exact absurd rfl nonempty'
    | cons first' others' =>
      cases others with
      | nil =>
        cases others' with
        | nil =>
          rw [List.intercalate_singleton, List.intercalate_singleton] at same
          obtain ⟨rfl, rfl⟩ :=
            first.cancel quotes first' (fun c h => (stop c h).1) (fun c h => (stop' c h).1) same
          exact ⟨rfl, rfl⟩
        | cons next' others' =>
          rw [List.intercalate_singleton, List.intercalate_cons_cons, List.append_assoc,
            List.append_assoc] at same
          obtain ⟨-, rfl⟩ := first.cancel quotes first' (fun c h => (stop c h).1) dot same
          exact absurd rfl (stop _ rfl).2
      | cons next others =>
        cases others' with
        | nil =>
          rw [List.intercalate_singleton, List.intercalate_cons_cons, List.append_assoc,
            List.append_assoc] at same
          obtain ⟨-, rfl⟩ := first.cancel quotes first' dot (fun c h => (stop' c h).1) same
          exact absurd rfl (stop' _ rfl).2
        | cons next' others' =>
          rw [List.intercalate_cons_cons, List.intercalate_cons_cons] at same
          simp only [List.append_assoc, List.cons_append, List.nil_append] at same
          obtain ⟨rfl, tail⟩ := first.cancel quotes first' dot dot same
          obtain ⟨tails, rfl⟩ := ih (.cons next' others') (List.cons_ne_nil _ _)
            (List.cons_ne_nil _ _) (List.cons.inj tail).2
          exact ⟨by rw [tails], rfl⟩

/-- Text that denotes a name fixes the name, and the place where it ends. -/
theorem Denotes.cancel (quotes : Quotes quote) {sql sql' name name' rest rest' : List Char}
    (h : Denotes quote sql name) (h' : Denotes quote sql' name') (stop : Stops quote rest)
    (stop' : Stops quote rest') (same : sql ++ rest = sql' ++ rest') :
    name = name' ∧ rest = rest' := by
  obtain ⟨parts, pieces, read, nonempty, rfl, rfl⟩ := h
  obtain ⟨parts', pieces', read', nonempty', rfl, rfl⟩ := h'
  obtain ⟨rfl, rfl⟩ := parts_cancel quotes read read' nonempty nonempty' stop stop' same
  exact ⟨rfl, rfl⟩

/-- **A name can be cancelled from the front of a text**, whatever its characters are. -/
theorem encode_cancel (quotes : Quotes quote) {name name' rest rest' : List Char}
    (stop : Stops quote rest) (stop' : Stops quote rest')
    (same : encode quote name ++ rest = encode quote name' ++ rest') :
    name = name' ∧ rest = rest' :=
  (denotes_encode name).cancel quotes (denotes_encode name') stop stop' same

theorem stops_nil : Stops quote [] :=
  fun _ head => nomatch head

/-- **An identifier denotes its name alone.** -/
theorem denotes_encode_iff (quotes : Quotes quote) {name other : List Char} :
    Denotes quote (encode quote name) other ↔ other = name := by
  constructor
  · exact fun denotes => (denotes.cancel quotes (denotes_encode name) stops_nil stops_nil rfl).1
  · rintro rfl
    exact denotes_encode other

/-- Names in a list, each behind a comma, can be told apart. -/
theorem listed_cancel (quotes : Quotes quote) (comma : quote ≠ ',')
    {names names' : List (List Char)}
    (same : (names.flatMap fun name => ',' :: ' ' :: encode quote name) =
      names'.flatMap fun name => ',' :: ' ' :: encode quote name) : names = names' := by
  have stops : ∀ names : List (List Char),
      Stops quote (names.flatMap fun name => ',' :: ' ' :: encode quote name) := by
    rintro (_ | ⟨name, names⟩)
    · exact stops_nil
    · rintro _ ⟨⟩
      exact ⟨comma.symm, by decide⟩
  induction names generalizing names' with
  | nil =>
    cases names' with
    | nil => rfl
    | cons name' names' => cases same
  | cons name names ih =>
    cases names' with
    | nil => cases same
    | cons name' names' =>
      rw [List.flatMap_cons, List.flatMap_cons] at same
      obtain ⟨rfl, later⟩ := encode_cancel quotes (stops names) (stops names')
        (List.cons.inj (List.cons.inj same).2).2
      rw [ih later]

end SqlAccess.Identifier

namespace SqlAccess.Dialect

theorem identifierQuote_quotes (d : Dialect) : Identifier.Quotes d.identifierQuote := by
  cases d <;> exact ⟨by decide, by decide⟩

@[simp] theorem toList_identifier (d : Dialect) (name : String) :
    (d.identifier name).toList = Identifier.encode d.identifierQuote name.toList :=
  String.toList_ofList

/-- An identifier of a dialect is never blank. -/
theorem blank_identifier (d : Dialect) (name : String) :
    Text.blank (d.identifier name) = false := by
  obtain ⟨c, rest, same, start⟩ := Identifier.encode_eq_cons d.identifierQuote name.toList
  have visible : Text.isBlank c = false := by
    rcases start with rfl | rfl
    · cases d <;> decide
    · decide
  simp only [Text.blank, toList_identifier, same, List.all_cons, visible, Bool.false_and]

theorem identifierQuote_ne_comma (d : Dialect) : d.identifierQuote ≠ ',' := by
  cases d <;> decide

/-- With a comma in front, every identifier of a list stands behind one. -/
theorem toList_identifiers (d : Dialect) {names : List String} (nonempty : names ≠ []) :
    ',' :: ' ' :: (d.identifiers names).toList =
      (names.map String.toList).flatMap fun name =>
        ',' :: ' ' :: Identifier.encode d.identifierQuote name := by
  cases names with
  | nil => exact absurd rfl nonempty
  | cons name names =>
    rw [identifiers, List.map_cons, Text.toList_joined_cons, List.flatMap_map, List.map_cons,
      List.flatMap_cons, List.flatMap_map, toList_identifier]
    simp only [toList_identifier]
    rfl

theorem identifiers_eq_empty {d : Dialect} {names : List String} (empty : d.identifiers names = "") :
    names = [] := by
  cases names with
  | nil => rfl
  | cons name names =>
    have list := toList_identifiers d (List.cons_ne_nil name names)
    obtain ⟨c, rest, starts, -⟩ := Identifier.encode_eq_cons d.identifierQuote name.toList
    rw [empty, List.map_cons, List.flatMap_cons, starts] at list
    cases list

end SqlAccess.Dialect

namespace SqlAccess

/-- **Identifiers denote their names.** In either dialect, an identifier is read as parts with dots
between them, each a bare star or text between quotes that its last character closes and none
before, and there is just one name that the parts make up: the one that the identifier was made of.
So different names have different identifiers, and different lists of names different lists of
identifiers. -/
theorem identifiers_denote_their_names (d : Dialect) :
    (∀ name other : String, Identifier.Denotes d.identifierQuote (d.identifier name).toList
      other.toList ↔ other = name) ∧
    Function.Injective d.identifier ∧ Function.Injective d.identifiers := by
  have denotes : ∀ name other : String, Identifier.Denotes d.identifierQuote
      (d.identifier name).toList other.toList ↔ other = name := by
    intro name other
    rw [Dialect.toList_identifier, Identifier.denotes_encode_iff d.identifierQuote_quotes,
      String.toList_inj]
  refine ⟨denotes, fun name name' same => ?_, fun names names' same => ?_⟩
  · exact (denotes name' name).mp (same ▸ (denotes name name).mpr rfl)
  · by_cases empty : names = []
    · subst empty
      exact (Dialect.identifiers_eq_empty same.symm).symm
    · have nonempty : names' ≠ [] := by
        rintro rfl
        exact empty (Dialect.identifiers_eq_empty same)
      have lists := Dialect.toList_identifiers d empty
      rw [same, Dialect.toList_identifiers d nonempty] at lists
      have names_eq := Identifier.listed_cancel d.identifierQuote_quotes d.identifierQuote_ne_comma
        lists
      exact (List.map_injective_iff.mpr fun _ _ => String.toList_inj.mp) names_eq.symm

end SqlAccess
