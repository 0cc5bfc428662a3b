import SqlAccess.Proofs.Identifier
import SqlAccess.Proofs.Params.Growth

/-!
# The lexemes of a condition

A condition is read lexeme by lexeme: words, quoted texts and single signs, with white space between
them. A word is a keyword, a name, a number or a placeholder; quotes hide what is between them, and
a backslash hides a quote where the dialect has it so. Comments, the semicolon, and the signs that
MySQL has for AND and OR stand in no condition, and a text with one of them, or with open quotes,
has no lexemes.

The lexing of a text goes on into what follows the text only if its last lexeme does. A *delimiter*
ends every lexeme but quoted text, so behind a whole text it starts the lexing afresh (`lex_append`).
White space, commas and closing parentheses are delimiters, and nothing else follows the pieces that
a condition is put together from.
-/

namespace SqlAccess

open Text

/-- What a condition is made of, apart from white space. -/
inductive Lexeme where
  /-- A keyword, a name, a number, or a placeholder with its colon. -/
  | word (letters : List Char)
  /-- Text between quotes, with its doubled quotes written once. -/
  | quoted (quote : Char) (text : List Char)
  | sign (c : Char)
  /-- The value that a placeholder stands for. -/
  | value (v : Value)

namespace Lexeme

/-- Can the character stand in a word? -/
def isLetter (c : Char) : Bool :=
  c.isAlphanum || c == '_' || c == '$' || c == ':' || 0x80 ≤ c.toNat

/-- Is the word a placeholder? -/
def isPlaceholder : List Char → Bool
  | ':' :: c :: name => Piece.startsName c && name.all Piece.inName
  | _ => false

/-- The lexeme with the value of the table in place of a placeholder that is bound. -/
def filledFrom (table : Params) : Lexeme → Lexeme
  | .word letters =>
    if isPlaceholder letters then ((table.get? (String.ofList letters)).map value).getD (.word letters)
    else .word letters
  | l => l

end Lexeme

namespace Dialect

/-- Does a backslash between the quotes hide what follows it? -/
def escapes (d : Dialect) (quote : Char) : Bool :=
  d == .mysql && quote != '\x60'

/-- Does the sign stand in no condition? -/
def refusesSign (d : Dialect) (c : Char) : Bool :=
  c == ';' || d == .mysql && c == '#'

/-- Do the two signs, next to each other, stand in no condition? They start a comment, or are
MySQL's other forms of OR and AND. -/
def refusesPair (d : Dialect) (before c : Char) : Bool :=
  before == '-' && c == '-' || before == '/' && c == '*' ||
    d == .mysql && (before == '|' && c == '|' || before == '&' && c == '&')

end Dialect

/-! ## Lexing -/

/-- Where in a text the lexing stands, with what it has read of the present lexeme. -/
inductive Lexing where
  | between
  | word (letters : List Char)
  | sign (c : Char)
  | quoted (quote : Char) (text : List Char)
  /-- Between quotes, behind a backslash. -/
  | hidden (quote : Char) (text : List Char)
  /-- Behind a quote that closes quoted text unless the next character doubles it. -/
  | closing (quote : Char) (text : List Char)

namespace Lexing

/-- The lexeme that is complete when the text ends, if any; open quotes are never complete. -/
def ended : Lexing → Option (List Lexeme)
  | .between => some []
  | .word letters => some [.word letters]
  | .sign c => some [.sign c]
  | .closing quote text => some [.quoted quote text]
  | .quoted .. | .hidden .. => none

/-- What the first character of a lexeme, or white space, starts. -/
def start (d : Dialect) (c : Char) : Option Lexing :=
  if isBlank c then some .between
  else if Piece.isQuote c then some (.quoted c [])
  else if Lexeme.isLetter c then some (.word [c])
  else if d.refusesSign c then none
  else some (.sign c)

/-- The lexemes that end before the character, and where the lexing stands behind it. -/
def step (d : Dialect) : Lexing → Char → Option (List Lexeme × Lexing)
  | .between, c => (start d c).map ([], ·)
  | .word letters, c =>
    if Lexeme.isLetter c then some ([], .word (letters ++ [c]))
    else (start d c).map ([.word letters], ·)
  | .sign before, c =>
    if d.refusesPair before c then none else (start d c).map ([.sign before], ·)
  | .quoted quote text, c =>
    if c = '\\' ∧ d.escapes quote then some ([], .hidden quote (text ++ [c]))
    else if c = quote then some ([], .closing quote text)
    else some ([], .quoted quote (text ++ [c]))
  | .hidden quote text, c => some ([], .quoted quote (text ++ [c]))
  | .closing quote text, c =>
    if c = quote then some ([], .quoted quote (text ++ [c]))
    else (start d c).map ([.quoted quote text], ·)

end Lexing

/-- The lexemes of a text, from the given place of the lexing on. -/
def lex (d : Dialect) : Lexing → List Char → Option (List Lexeme)
  | place, [] => place.ended
  | place, c :: cs =>
    (place.step d c).bind fun (ended, next) => (lex d next cs).map (ended ++ ·)

/-- The lexemes of a whole text. -/
def Dialect.lexemes? (d : Dialect) (text : String) : Option (List Lexeme) :=
  lex d .between text.toList

/-! ## Where one lexeme ends -/

/-- Does the character end every lexeme but quoted text? -/
structure Delimits (c : Char) : Prop where
  not_letter : Lexeme.isLetter c = false
  not_quote : Piece.isQuote c = false
  unpaired : ∀ (d : Dialect) (before : Char), d.refusesPair before c = false

theorem delimits_blank : Delimits ' ' :=
  ⟨by decide, by decide, fun d before => by simp [Dialect.refusesPair]⟩

theorem delimits_comma : Delimits ',' :=
  ⟨by decide, by decide, fun d before => by simp [Dialect.refusesPair]⟩

theorem delimits_parenthesis : Delimits ')' :=
  ⟨by decide, by decide, fun d before => by simp [Dialect.refusesPair]⟩

variable {d : Dialect} {c : Char} {text rest : List Char} {place : Lexing} {ls : List Lexeme}

theorem lex_cons : lex d place (c :: rest) =
    (place.step d c).bind fun (ended, next) => (lex d next rest).map (ended ++ ·) := rfl

/-- A character that ends no lexeme only moves the lexing on. -/
theorem lex_of_moves {next : Lexing} (step : place.step d c = some ([], next)) :
    lex d place (c :: rest) = lex d next rest := by
  rw [lex_cons, step, Option.bind_some]
  exact Option.map_id_apply

/-- Are the quotes that the lexing is in of one of the three kinds? -/
def Lexing.Quotes : Lexing → Prop
  | .quoted quote _ | .hidden quote _ | .closing quote _ => Piece.isQuote quote = true
  | .between | .word _ | .sign _ => True

theorem Lexing.quotes_of_start {next : Lexing} (h : start d c = some next) : next.Quotes := by
  unfold start at h
  split at h
  · cases h
    trivial
  · split at h
    next quote =>
      cases h
      exact quote
    · split at h
      · cases h
        trivial
      · split at h <;> cases h
        trivial

theorem Lexing.quotes_of_step {ended : List Lexeme} {next : Lexing} (quotes : place.Quotes)
    (h : place.step d c = some (ended, next)) : next.Quotes := by
  have fresh : ∀ front, (start d c).map (front, ·) = some (ended, next) → next.Quotes := by
    intro front h
    obtain ⟨_, started, same⟩ := Option.map_eq_some_iff.mp h
    cases same
    exact quotes_of_start started
  cases place with
  | between => exact fresh _ h
  | word letters =>
    rw [step] at h
    split at h
    · cases h
      trivial
    · exact fresh _ h
  | sign before =>
    rw [step] at h
    split at h
    · cases h
    · exact fresh _ h
  | quoted quote text =>
    rw [step] at h
    split at h
    · cases h
      exact quotes
    · split at h <;> cases h <;> exact quotes
  | hidden quote text =>
    cases h
    exact quotes
  | closing quote text =>
    rw [step] at h
    split at h
    · cases h
      exact quotes
    · exact fresh _ h

/-- A whole lexeme in front of a character that starts another is read by itself. -/
theorem lex_of_step {front : List Lexeme} (step : place.step d c = (Lexing.start d c).map (front, ·)) :
    lex d place (c :: rest) = (lex d .between (c :: rest)).map (front ++ ·) := by
  rw [lex_cons, lex_cons, step, Lexing.step]
  cases Lexing.start d c with
  | none => rfl
  | some next =>
    simp only [Option.map_some, Option.bind_some, List.nil_append, Option.map_map]
    rfl

/-- **Behind a whole text, a delimiter starts the lexing afresh.** -/
theorem lex_append (stop : Delimits c) (quotes : place.Quotes)
    (read : lex d place text = some ls) :
    lex d place (text ++ c :: rest) = (lex d .between (c :: rest)).map (ls ++ ·) := by
  induction text generalizing place ls with
  | nil =>
    rw [List.nil_append]
    cases place with
    | between =>
      cases read
      exact lex_of_step rfl
    | word letters =>
      cases read
      refine lex_of_step ?_
      rw [Lexing.step, stop.not_letter, if_neg Bool.false_ne_true]
    | sign before =>
      cases read
      refine lex_of_step ?_
      rw [Lexing.step, stop.unpaired, if_neg Bool.false_ne_true]
    | quoted quote text => cases read
    | hidden quote text => cases read
    | closing quote text =>
      cases read
      refine lex_of_step ?_
      have other : c ≠ quote := by
        rintro rfl
        exact absurd quotes (by rw [Lexing.Quotes, stop.not_quote]; exact Bool.false_ne_true)
      rw [Lexing.step, if_neg other]
  | cons b text ih =>
    rw [List.cons_append, lex_cons]
    rw [lex_cons] at read
    obtain ⟨⟨ended, next⟩, step, read⟩ := Option.bind_eq_some_iff.mp read
    obtain ⟨more, tail, rfl⟩ := Option.map_eq_some_iff.mp read
    rw [step, Option.bind_some]
    dsimp only
    rw [ih (Lexing.quotes_of_step quotes step) tail, Option.map_map]
    congr 1
    funext others
    exact (List.append_assoc ended more others).symm

/-- Is the sign a lexeme of its own, whatever follows it? -/
structure Lone (d : Dialect) (s : Char) : Prop where
  starts : Lexing.start d s = some (.sign s)
  unpaired : ∀ c, d.refusesPair s c = false

theorem lone_star (d : Dialect) : Lone d '*' :=
  ⟨by cases d <;> rfl, fun c => by simp [Dialect.refusesPair]⟩

theorem lone_dot (d : Dialect) : Lone d '.' :=
  ⟨by cases d <;> rfl, fun c => by simp [Dialect.refusesPair]⟩

theorem lone_comma (d : Dialect) : Lone d ',' :=
  ⟨by cases d <;> rfl, fun c => by simp [Dialect.refusesPair]⟩

theorem lone_opening (d : Dialect) : Lone d '(' :=
  ⟨by cases d <;> rfl, fun c => by simp [Dialect.refusesPair]⟩

theorem lone_closing (d : Dialect) : Lone d ')' :=
  ⟨by cases d <;> rfl, fun c => by simp [Dialect.refusesPair]⟩

theorem Lone.lex {s : Char} (lone : Lone d s) :
    lex d .between (s :: text) = (lex d .between text).map (.sign s :: ·) := by
  have moves : Lexing.step d .between s = some ([], .sign s) := by
    rw [Lexing.step, lone.starts, Option.map_some]
  rw [lex_of_moves moves]
  cases text with
  | nil => rfl
  | cons c text =>
    change _ = Option.map ([Lexeme.sign s] ++ ·) _
    refine lex_of_step ?_
    rw [Lexing.step, lone.unpaired, if_neg Bool.false_ne_true]

/-- White space between lexemes is left out. -/
theorem lex_blank : lex d .between (' ' :: text) = lex d .between text :=
  lex_of_moves rfl

/-- Letters behind letters go on with the word. -/
theorem lex_letters {letters : List Char} (all : ∀ c ∈ text, Lexeme.isLetter c = true) :
    lex d (.word letters) text = some [.word (letters ++ text)] := by
  induction text generalizing letters with
  | nil =>
    rw [List.append_nil]
    rfl
  | cons c text ih =>
    have moves : Lexing.step d (.word letters) c = some ([], .word (letters ++ [c])) :=
      if_pos (all c List.mem_cons_self)
    rw [lex_of_moves moves, ih fun b member => all b (List.mem_cons_of_mem c member),
      List.append_assoc, List.singleton_append]

/-! ## Identifiers -/

/-- The lexeme of one part of a name. -/
def Lexeme.part (quote : Char) (piece : List Char) : Lexeme :=
  if piece = ['*'] then .sign '*' else .quoted quote piece

/-- The lexemes of a name: its parts, with dots between them. -/
def Dialect.path (d : Dialect) (name : String) : List Lexeme :=
  ((name.toList.splitOn '.').map (Lexeme.part d.identifierQuote)).intersperse (.sign '.')

/-- Quoted text is read up to the quote that is not doubled. -/
theorem lex_doubled {quote : Char} (plain : d.escapes quote = false) (front piece : List Char) :
    lex d (.quoted quote front) (doubled quote piece ++ quote :: rest) =
      lex d (.closing quote (front ++ piece)) rest := by
  have bare : ∀ c, ¬ (c = '\\' ∧ d.escapes quote = true) := by
    rintro c ⟨-, escapes⟩
    rw [plain] at escapes
    cases escapes
  have closes : ∀ text, Lexing.step d (.quoted quote text) quote = some ([], .closing quote text) := by
    intro text
    rw [Lexing.step, if_neg (bare quote), if_pos rfl]
  induction piece generalizing front with
  | nil => rw [doubled_nil, List.nil_append, List.append_nil, lex_of_moves (closes front)]
  | cons c piece ih =>
    rw [doubled_cons, List.append_assoc]
    by_cases same : c = quote
    · have doubles : Lexing.step d (.closing quote front) quote =
          some ([], .quoted quote (front ++ [quote])) := if_pos rfl
      rw [if_pos same, List.cons_append, List.cons_append, List.nil_append,
        lex_of_moves (closes front), lex_of_moves doubles, ih, same, List.append_assoc,
        List.singleton_append]
    · have goes : Lexing.step d (.quoted quote front) c =
          some ([], .quoted quote (front ++ [c])) := by
        rw [Lexing.step, if_neg (bare c), if_neg same]
      rw [if_neg same, List.singleton_append, lex_of_moves goes, ih, List.append_assoc,
        List.singleton_append]

/-- Is the character one that the dialect quotes identifiers with, without escapes? -/
theorem Dialect.lexing_identifierQuote (d : Dialect) :
    Lexing.start d d.identifierQuote = some (.quoted d.identifierQuote []) ∧
      d.escapes d.identifierQuote = false := by
  cases d <;> exact ⟨rfl, rfl⟩

/-- A part of a name is one lexeme in front of whatever does not double its quote. -/
theorem lex_part (piece : List Char) (stop : ∀ c ∈ rest.head?, c ≠ d.identifierQuote) :
    lex d .between (Identifier.part d.identifierQuote piece ++ rest) =
      (lex d .between rest).map (Lexeme.part d.identifierQuote piece :: ·) := by
  obtain ⟨starts, plain⟩ := d.lexing_identifierQuote
  unfold Identifier.part Lexeme.part
  split
  next star =>
    rw [star, List.singleton_append, (lone_star d).lex]
  next =>
    have moves : Lexing.step d .between d.identifierQuote =
        some ([], .quoted d.identifierQuote []) := by rw [Lexing.step, starts, Option.map_some]
    rw [List.cons_append, List.cons_append, List.append_assoc, List.singleton_append,
      lex_of_moves moves, lex_doubled plain, List.nil_append]
    cases rest with
    | nil => rfl
    | cons c rest =>
      change _ = Option.map ([Lexeme.quoted d.identifierQuote piece] ++ ·) _
      refine lex_of_step ?_
      rw [Lexing.step, if_neg (stop c rfl)]

/-- **A name is read as its parts**, whatever characters they have. -/
theorem lexemes_identifier (d : Dialect) (name : String) :
    d.lexemes? (d.identifier name) = some (d.path name) := by
  rw [Dialect.lexemes?, Dialect.toList_identifier, Identifier.encode, Dialect.path]
  induction name.toList.splitOn '.' with
  | nil => rfl
  | cons piece pieces ih =>
    cases pieces with
    | nil =>
      have alone := @lex_part d [] piece fun c member => nomatch member
      rw [List.append_nil] at alone
      rw [List.map_singleton, List.intercalate_singleton, alone]
      rfl
    | cons next pieces =>
      have dot : ∀ {more : List Char}, ∀ c ∈ ('.' :: more).head?, c ≠ d.identifierQuote := by
        rintro more c ⟨⟩
        exact d.identifierQuote_quotes.ne_dot.symm
      rw [List.map_cons] at ih
      rw [List.map_cons, List.map_cons, List.intercalate_cons_cons, List.append_assoc,
        List.singleton_append, lex_part piece dot, (lone_dot d).lex, ih]
      rfl

/-! ## Generated keys -/

theorem toList_generated_eq_cons (number : Nat) : ∃ digits, (Params.generated number).toList =
    ':' :: 'p' :: ("aram".toList ++ digits) ∧ ∀ c ∈ digits, c.isDigit = true :=
  ⟨Nat.toDigits 10 number, Params.toList_generated number, fun _ member =>
    Text.isDigit_of_mem_toDigits member⟩

theorem isLetter_of_inName (h : Piece.inName c = true) : Lexeme.isLetter c = true := by
  simp only [Piece.inName, Bool.or_eq_true] at h
  simp only [Lexeme.isLetter, Bool.or_eq_true]
  exact .inl (.inl (.inl h))

theorem inName_of_isDigit (h : c.isDigit = true) : Piece.inName c = true := by
  simp only [Piece.inName, Char.isAlphanum, h, Bool.or_true, Bool.true_or]

theorem inName_of_mem_generated {digits : List Char} (all : ∀ c ∈ digits, c.isDigit = true) :
    ∀ c ∈ "aram".toList ++ digits, Piece.inName c = true := by
  intro c member
  rcases List.mem_append.mp member with front | digit
  · have names : ("aram".toList).all Piece.inName = true := by decide
    exact List.all_eq_true.mp names c front
  · exact inName_of_isDigit (all c digit)

/-- A generated key is read as one word. -/
theorem lexemes_generated (d : Dialect) (number : Nat) :
    d.lexemes? (Params.generated number) = some [.word (Params.generated number).toList] := by
  obtain ⟨digits, spelled, all⟩ := toList_generated_eq_cons number
  have moves : Lexing.step d .between ':' = some ([], .word [':']) := by cases d <;> rfl
  rw [Dialect.lexemes?, spelled, lex_of_moves moves]
  refine lex_letters fun c member => isLetter_of_inName ?_
  rcases List.mem_cons.mp member with rfl | member
  · decide
  · exact inName_of_mem_generated all c member

/-- A generated key is filled with the value that it stands for. -/
theorem filledFrom_generated {table : Params} {number : Nat} {value : Value}
    (bound : table.get? (Params.generated number) = some value) :
    (Lexeme.word (Params.generated number).toList).filledFrom table = .value value := by
  obtain ⟨digits, spelled, all⟩ := toList_generated_eq_cons number
  have placeholder : Lexeme.isPlaceholder (Params.generated number).toList = true := by
    rw [spelled, Lexeme.isPlaceholder, Bool.and_eq_true, List.all_eq_true]
    exact ⟨by decide, inName_of_mem_generated all⟩
  rw [Lexeme.filledFrom, if_pos placeholder, String.ofList_toList, bound]
  rfl

end SqlAccess
