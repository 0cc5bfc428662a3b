import SqlAccess.Proofs.Identifier
import SqlAccess.Proofs.Params.Growth

/-!
# Fragments of a statement under positional rewriting

A statement is put together from fragments, and its positional form is put together from theirs. The
cutting looks ahead for the end of a placeholder's name and remembers the quotes it is in, so this
holds of fragments of a few kinds only:

- a *copied* fragment is copied whatever follows it, and leaves the cutting outside quotes: text
  without quotes and colons, and quoted text whose quotes are closed;
- an *inert* fragment is copied, and has no question mark outside its quotes: identifiers between
  backticks are inert, whatever they name;
- a *filled* fragment may hold placeholders, and leaves the cutting outside quotes when what follows
  it cannot go on with a name. Every filled fragment is itself such a continuation, so filled
  fragments can be put together without side conditions (`Filled.append`, `FilledAll.joined`).

Question marks outside quotes are counted by `questionMarks`, which follows the quotes by itself. A
filled fragment has as many of them in its positional form as it has values.
-/

namespace SqlAccess

namespace Piece

/-- Can the name of a placeholder not go on with the text? -/
def Delimits (rest : List Char) : Prop :=
  ∀ c ∈ rest.head?, inName c = false

/-- The number of question marks outside quotes, from the given context on. -/
def questionMarks : Context → List Char → Nat
  | _, [] => 0
  | .quoted quote, c :: cs =>
    questionMarks
      (if c = '\\' ∧ quote ≠ '\x60' then .hidden quote
        else if c = quote then .outside else .quoted quote) cs
  | .hidden quote, _ :: cs => questionMarks (.quoted quote) cs
  | .outside, c :: cs | .naming, c :: cs =>
    if isQuote c then questionMarks (.quoted c) cs
    else (if c = '?' then 1 else 0) + questionMarks .outside cs

/-- Is the character copied for itself outside quotes? -/
def isBare (c : Char) : Bool :=
  !isQuote c && c != ':'

/-- Is the character copied for itself outside quotes, and no mark there? -/
def isPlain (c : Char) : Bool :=
  !isQuote c && c != ':' && c != '?'

/-! ## Copied fragments -/

/-- The fragment is copied whatever follows it, and leaves the cutting outside quotes. -/
def Copied (text : List Char) : Prop :=
  ∀ rest, cut .outside (text ++ rest) = text.map .char ++ cut .outside rest

theorem Copied.append {text text' : List Char} (first : Copied text) (second : Copied text') :
    Copied (text ++ text') := by
  intro rest
  rw [List.append_assoc, first, second, List.map_append, List.append_assoc]

/-- Text without quotes and colons is copied. -/
theorem copied_of_bare {text : List Char} (bare : text.all isBare = true) : Copied text := by
  intro rest
  induction text with
  | nil => rfl
  | cons c text ih =>
    rw [List.all_cons, Bool.and_eq_true] at bare
    obtain ⟨unquoted, uncoloned⟩ : isQuote c = false ∧ c ≠ ':' := by
      simpa [isBare] using bare.1
    simp only [List.cons_append, cut, start, unquoted, uncoloned, Bool.false_eq_true, false_and,
      if_false, ih bare.2, List.map_cons]

/-! ## Inert fragments -/

/-- The fragment is copied whatever follows it, and has no question mark outside its quotes. -/
structure Inert (text : List Char) : Prop where
  cut : ∀ rest, cut .outside (text ++ rest) = text.map .char ++ cut .outside rest
  marks : ∀ rest, questionMarks .outside (text ++ rest) = questionMarks .outside rest

theorem Inert.append {text text' : List Char} (first : Inert text) (second : Inert text') :
    Inert (text ++ text') := by
  refine ⟨Copied.append first.cut second.cut, fun rest => ?_⟩
  rw [List.append_assoc, first.marks, second.marks]

/-- Text without quotes, colons and question marks is inert. -/
theorem inert_of_plain {text : List Char} (plain : text.all isPlain = true) : Inert text := by
  have bare : text.all isBare = true := by
    rw [List.all_eq_true] at plain ⊢
    intro c member
    exact (Bool.and_eq_true_iff.mp (plain c member)).1
  refine ⟨copied_of_bare bare, fun rest => ?_⟩
  induction text with
  | nil => rfl
  | cons c text ih =>
    rw [List.all_cons, Bool.and_eq_true] at plain bare
    obtain ⟨⟨unquoted, -⟩, unmarked⟩ : (isQuote c = false ∧ c ≠ ':') ∧ c ≠ '?' := by
      simpa [isPlain] using plain.1
    simp only [List.cons_append, questionMarks, unquoted, unmarked, Bool.false_eq_true, if_false,
      ih plain.2 bare.2, Nat.zero_add]

/-- Between backticks, doubled backticks close the quotes and open them again. -/
theorem cut_backtick (piece rest : List Char) :
    cut (.quoted '\x60') (Text.doubled '\x60' piece ++ '\x60' :: rest) =
        (Text.doubled '\x60' piece ++ ['\x60']).map .char ++ cut .outside rest ∧
      questionMarks (.quoted '\x60') (Text.doubled '\x60' piece ++ '\x60' :: rest) =
        questionMarks .outside rest := by
  induction piece with
  | nil => simp [cut, questionMarks]
  | cons c piece ih =>
    obtain ⟨copied, unmarked⟩ := ih
    rw [Text.doubled_cons]
    by_cases backtick : c = '\x60'
    · subst backtick
      simp [cut, questionMarks, start, isQuote, copied, unmarked]
    · simp [cut, questionMarks, backtick, copied, unmarked]

theorem inert_part (piece : List Char) : Inert (Identifier.part '\x60' piece) := by
  unfold Identifier.part
  split
  next star =>
    rw [star]
    exact inert_of_plain rfl
  next =>
    constructor
    · intro rest
      have region := (cut_backtick piece rest).1
      simp only [List.cons_append, List.append_assoc, List.nil_append, Piece.cut, start, isQuote,
        BEq.rfl, Bool.or_true, if_true, region, List.map_cons]
    · intro rest
      have region := (cut_backtick piece rest).2
      simp only [List.cons_append, List.append_assoc, List.nil_append, questionMarks, isQuote,
        BEq.rfl, Bool.or_true, if_true, region]

/-- **An identifier between backticks is inert**, whatever characters the name has. -/
theorem inert_identifier (name : List Char) : Inert (Identifier.encode '\x60' name) := by
  unfold Identifier.encode
  induction name.splitOn '.' with
  | nil => exact inert_of_plain rfl
  | cons piece pieces ih =>
    cases pieces with
    | nil =>
      rw [List.map_singleton, List.intercalate_singleton]
      exact inert_part piece
    | cons next pieces =>
      have dot : Inert ['.'] := inert_of_plain rfl
      have whole := (inert_part piece).append (dot.append ih)
      simpa only [List.map_cons, List.intercalate_cons_cons, List.append_assoc] using whole

/-! ## Placeholders -/

/-- Behind the name of a placeholder the cutting stands as if it had never been in it. -/
theorem cut_naming {name rest : List Char} (named : name.all inName = true)
    (delimits : Delimits rest) : cut .naming (name ++ rest) = cut .outside rest := by
  induction name with
  | nil =>
    cases rest with
    | nil => rfl
    | cons c rest =>
      have outside : inName c = false := delimits c rfl
      simp only [List.nil_append, Piece.cut, outside, Bool.false_eq_true, if_false]
  | cons c name ih =>
    rw [List.all_cons, Bool.and_eq_true] at named
    simp only [List.cons_append, Piece.cut, named.1, if_true, ih named.2]

/-- A colon and a name in front of a delimiter are one placeholder. -/
theorem cut_placeholder {c : Char} {name rest : List Char} (starts : startsName c = true)
    (named : (c :: name).all inName = true) (delimits : Delimits rest) :
    cut .outside (':' :: c :: name ++ rest) =
      .placeholder (':' :: c :: name) :: cut .outside rest := by
  have opening : start ':' (c :: name ++ rest) = (.placeholder (':' :: c :: name), .naming) := by
    have quote : isQuote ':' = false := rfl
    have whole := Text.takeWhile_append_of_stop (List.all_eq_true.mp named) delimits
    simp only [List.cons_append] at whole ⊢
    simp only [start, quote, Bool.false_eq_true, if_false, List.head?_cons, Option.any_some, starts,
      and_self, if_true, whole]
  change (start ':' (c :: name ++ rest)).1 ::
    cut (start ':' (c :: name ++ rest)).2 (c :: name ++ rest) = _
  rw [opening, cut_naming named delimits]

end Piece

namespace Params

open Piece

/-! ## Filling -/

/-- Pieces are filled one after the other. -/
theorem fill_append {p : Params} {pieces pieces' : List Piece} {text text' : List Char}
    {values values' : List Value} (first : p.fill pieces = .ok (text, values))
    (second : p.fill pieces' = .ok (text', values')) :
    p.fill (pieces ++ pieces') = .ok (text ++ text', values ++ values') := by
  induction pieces generalizing text values with
  | nil =>
    cases first
    exact second
  | cons piece pieces ih =>
    cases piece with
    | char c =>
      simp only [List.cons_append, Params.fill] at first ⊢
      cases rest : p.fill pieces with
      | error e => rw [rest] at first; cases first
      | ok filled =>
        rw [rest] at first
        cases first
        rw [ih rest]
        rfl
    | placeholder name =>
      simp only [List.cons_append, Params.fill] at first ⊢
      cases found : p.get? (String.ofList name) with
      | none => rw [found] at first; cases first
      | some value =>
        rw [found] at first
        cases rest : p.fill pieces with
        | error e => rw [rest] at first; cases first
        | ok filled =>
          rw [rest] at first
          cases first
          rw [ih rest]
          rfl

/-- Copied characters need no table. -/
theorem fill_chars (p : Params) (text : List Char) :
    p.fill (text.map .char) = .ok (text, []) := by
  induction text with
  | nil => rfl
  | cons c text ih =>
    simp only [List.map_cons, Params.fill, ih]
    rfl

/-- **A text that is copied is its own positional form**, without any value. -/
theorem toPositional_of_copied {sql : String} (copied : Copied sql.toList) (p : Params) :
    p.toPositional sql = .ok (sql, []) := by
  have whole := copied []
  rw [List.append_nil, cut, List.append_nil] at whole
  rw [Params.toPositional, whole, fill_chars]
  change Except.ok (String.ofList sql.toList, []) = _
  rw [String.ofList_toList]

/-- The fragment has the given positional form and values under the table, provided that what
follows it cannot go on with a name; and it is such a continuation itself. -/
structure Filled (p : Params) (text positional : String) (values : List Value) : Prop where
  fills : ∃ pieces, (∀ rest, Delimits rest →
      cut .outside (text.toList ++ rest) = pieces ++ cut .outside rest) ∧
    p.fill pieces = .ok (positional.toList, values)
  delimits : ∀ rest, Delimits rest → Delimits (text.toList ++ rest)
  marks : ∀ rest, questionMarks .outside (positional.toList ++ rest) =
    values.length + questionMarks .outside rest

namespace Filled

variable {p p' : Params} {text text' positional positional' : String} {values values' : List Value}

theorem mono (filled : p.Filled text positional values) (grows : p.GrowsTo p') :
    p'.Filled text positional values := by
  obtain ⟨pieces, cuts, fill⟩ := filled.fills
  exact ⟨⟨pieces, cuts, grows.fill fill⟩, filled.delimits, filled.marks⟩

theorem append (first : p.Filled text positional values)
    (second : p.Filled text' positional' values') :
    p.Filled (text ++ text') (positional ++ positional') (values ++ values') := by
  obtain ⟨pieces, cuts, fill⟩ := first.fills
  obtain ⟨pieces', cuts', fill'⟩ := second.fills
  refine ⟨⟨pieces ++ pieces', fun rest delimits => ?_, ?_⟩, fun rest delimits => ?_, fun rest => ?_⟩
  · rw [String.toList_append, List.append_assoc, cuts _ (second.delimits rest delimits),
      cuts' rest delimits, List.append_assoc]
  · rw [String.toList_append]
    exact fill_append fill fill'
  · rw [String.toList_append, List.append_assoc]
    exact first.delimits _ (second.delimits rest delimits)
  · rw [String.toList_append, List.append_assoc, first.marks, second.marks, List.length_append,
      Nat.add_assoc]

/-- An inert fragment that does not begin like a name is filled without any value. -/
theorem of_inert (inert : Inert text.toList) (head : Delimits text.toList) :
    p.Filled text text [] := by
  refine ⟨⟨text.toList.map .char, fun rest _ => inert.cut rest, fill_chars p _⟩,
    fun rest delimits => ?_, fun rest => ?_⟩
  · cases chars : text.toList with
    | nil => exact delimits
    | cons c cs =>
      rw [chars] at head
      exact head
  · rw [inert.marks, List.length_nil, Nat.zero_add]

theorem of_plain (plain : text.toList.all isPlain = true)
    (head : text.toList.head?.any inName = false) : p.Filled text text [] := by
  refine of_inert (inert_of_plain plain) fun c member => ?_
  rw [Option.mem_def.mp member] at head
  exact head

theorem identifier (name : String) :
    p.Filled (Dialect.mysql.identifier name) (Dialect.mysql.identifier name) [] := by
  apply of_inert
  · rw [Dialect.toList_identifier]
    exact inert_identifier name.toList
  · rw [Dialect.toList_identifier]
    obtain ⟨c, rest, same, start⟩ :=
      Identifier.encode_eq_cons Dialect.mysql.identifierQuote name.toList
    rw [same]
    rintro _ ⟨⟩
    rcases start with rfl | rfl <;> decide

/-- A generated key is filled with the value that the table has for it. -/
theorem generated {number : Nat} {value : Value}
    (found : p.get? (Params.generated number) = some value) :
    p.Filled (Params.generated number) "?" [value] := by
  have key : (Params.generated number).toList =
      ':' :: 'p' :: ("aram".toList ++ Nat.toDigits 10 number) := toList_generated number
  have digits : ∀ c ∈ Nat.toDigits 10 number, inName c = true := by
    intro c member
    have digit := Text.isDigit_of_mem_toDigits member
    simp [inName, Char.isAlphanum, digit]
  have named : ('p' :: ("aram".toList ++ Nat.toDigits 10 number)).all inName = true := by
    rw [← List.cons_append, List.all_append, Bool.and_eq_true]
    exact ⟨rfl, List.all_eq_true.mpr digits⟩
  refine ⟨⟨[.placeholder (Params.generated number).toList], fun rest delimits => ?_, ?_⟩,
    fun rest _ => ?_, fun rest => ?_⟩
  · rw [key]
    exact cut_placeholder rfl named delimits
  · simp only [Params.fill, String.ofList_toList, found]
    rfl
  · rw [key]
    rintro _ ⟨⟩
    rfl
  · rfl

/-- An empty fragment has no values. -/
theorem values_of_empty (filled : p.Filled text positional values) (empty : text.isEmpty = true) :
    values = [] := by
  obtain ⟨pieces, cuts, fill⟩ := filled.fills
  have none := cuts [] (fun c member => nomatch member)
  rw [String.isEmpty_iff.mp empty] at none
  have nothing : pieces = [] := by
    cases pieces with
    | nil => rfl
    | cons piece pieces => cases none
  rw [nothing] at fill
  exact (Prod.mk.inj (Except.ok.inj fill)).2.symm

/-- **The positional form of a statement** is its keyword and the positional form of what follows,
and has as many question marks outside quotes as there are values. -/
theorem toPositional {keyword : String} (plain : keyword.toList.all isPlain = true)
    (filled : p.Filled text positional values) :
    p.toPositional (keyword ++ text) = .ok (keyword ++ positional, values) ∧
      questionMarks .outside (keyword ++ positional).toList = values.length := by
  have inert := inert_of_plain plain
  obtain ⟨pieces, cuts, fill⟩ := filled.fills
  have whole := cuts [] (fun c member => nomatch member)
  have marks := filled.marks []
  rw [List.append_nil] at whole marks
  constructor
  · rw [Params.toPositional, String.toList_append, inert.cut, whole, cut, List.append_nil,
      fill_append (p.fill_chars _) fill]
    change Except.ok _ = _
    rw [← String.toList_append, String.ofList_toList, List.nil_append]
  · rw [String.toList_append, inert.marks, marks]
    rfl

end Filled

/-- The fragments have the given positional forms, one for each, and the given values in order. -/
inductive FilledAll (p : Params) : List String → List String → List Value → Prop
  | nil : p.FilledAll [] [] []
  | cons {text positional : String} {values : List Value} {texts positionals : List String}
      {others : List Value} : p.Filled text positional values →
      p.FilledAll texts positionals others →
      p.FilledAll (text :: texts) (positional :: positionals) (values ++ others)

namespace FilledAll

variable {p : Params} {texts positionals : List String} {values : List Value}

theorem append {texts' positionals' : List String} {values' : List Value}
    (first : p.FilledAll texts positionals values)
    (second : p.FilledAll texts' positionals' values') :
    p.FilledAll (texts ++ texts') (positionals ++ positionals') (values ++ values') := by
  induction first with
  | nil => exact second
  | cons head _ ih =>
    rw [List.append_assoc]
    exact .cons head ih

/-- Filled fragments with a filled separator between neighbours are filled. -/
theorem joined {separator : String} (filled : p.FilledAll texts positionals values)
    (between : p.Filled separator separator []) :
    p.Filled (Text.joined separator texts) (Text.joined separator positionals) values := by
  induction filled with
  | nil => exact .of_plain rfl rfl
  | cons first rest ih =>
    cases rest with
    | nil => simpa only [Text.joined, List.append_nil] using first
    | cons next rest =>
      have whole := (first.append between).append ih
      simpa only [Text.joined, List.append_nil] using whole

/-- Identifiers take no values. -/
theorem identifiers (names : List String) :
    p.FilledAll (names.map Dialect.mysql.identifier) (names.map Dialect.mysql.identifier) [] := by
  induction names with
  | nil => exact .nil
  | cons name names ih => exact .cons (.identifier name) ih

end FilledAll

end Params

end SqlAccess
