import SqlAccess.Ddl.Line
import SqlAccess.Proofs.Text.Spaced

/-!
# Quoted texts and tokens

The escaped form of a text is read back as that text (`literal?_escapedChars`), it is one token of a
line of attributes whatever the text holds (`isToken_escapedChars`), and behind the keyword of the
comment option it ends where the text ends (`quotedRest?_escapedBody`). A line of attributes is read
as the tokens that it has with white space between them (`tokens_eq_iff`), so that the reading undoes
the quoting (`tokens_undo_quoting`).

Tokens are read by looking one character ahead, but two quotes in a row come to the same as a quote
that closes and a quote that opens. So the reading is that of an automaton with three states
(`Quoting.step`), and a text is one token when the automaton comes back to the outside without
meeting white space there.
-/

namespace SqlAccess.Ddl

open SqlAccess.Text

/-! ## Escapes -/

/-- What stands between the quotes of the escaped form of a text. -/
def escapedBody (text : List Char) : List Char :=
  doubled '\'' (doubled '\\' text)

theorem escapedChars_eq (text : List Char) :
    Literal.escapedChars text = '\'' :: escapedBody text ++ ['\''] := rfl

theorem toList_escaped (text : String) :
    (Literal.escaped text).toList = Literal.escapedChars text.toList :=
  String.toList_ofList

theorem escapedBody_cons (c : Char) (text : List Char) :
    escapedBody (c :: text) =
      (if c = '\\' then ['\\', '\\'] else if c = '\'' then ['\'', '\''] else [c]) ++
        escapedBody text := by
  unfold escapedBody
  by_cases slash : c = '\\'
  · subst slash
    rfl
  · by_cases quote : c = '\''
    · subst quote
      rfl
    · rw [doubled_cons, if_neg slash, List.singleton_append, doubled_cons, if_neg quote,
        if_neg slash]

theorem mem_escapedBody {c : Char} {text : List Char} (h : c ∈ escapedBody text) : c ∈ text := by
  induction text with
  | nil => cases h
  | cons d text ih =>
    rw [escapedBody_cons, List.mem_append] at h
    rcases h with h | h
    · split at h
      next slash => simp_all
      next =>
        split at h
        next quote => simp_all
        next => simp_all
    · exact List.mem_cons_of_mem d (ih h)

theorem unescape_cons {c : Char} (slash : c ≠ '\\') (quote : c ≠ '\'') (rest : List Char) :
    unescape (c :: rest) = c :: unescape rest := by
  rw [unescape]
  · exact fun _ _ same _ => slash same
  · exact fun _ same _ => quote same

theorem unescape_escapedBody (text : List Char) : unescape (escapedBody text) = text := by
  induction text with
  | nil => rfl
  | cons c text ih =>
    rw [escapedBody_cons]
    by_cases slash : c = '\\'
    · subst slash
      exact congrArg ('\\' :: ·) ih
    · by_cases quote : c = '\''
      · subst quote
        exact congrArg ('\'' :: ·) ih
      · rw [if_neg slash, if_neg quote, List.singleton_append, unescape_cons slash quote, ih]

/-- **The escaped form of a text stands for that text.** -/
theorem literal?_escapedChars (text : List Char) :
    literal? (Literal.escapedChars text) = some (String.ofList text) := by
  have last : (escapedBody text ++ ['\'']).getLast? = some '\'' := List.getLast?_concat
  rw [escapedChars_eq, List.cons_append, literal?, if_pos last, List.dropLast_concat,
    unescape_escapedBody]

theorem quotedRest?_cons {c : Char} (slash : c ≠ '\\') (quote : c ≠ '\'') (rest : List Char) :
    quotedRest? (c :: rest) = (quotedRest? rest).map fun (text, after) => (c :: text, after) := by
  rw [quotedRest?]
  · exact fun _ same _ => quote same
  · exact quote
  · exact fun same _ => slash same
  · exact fun _ _ same _ => slash same

/-- The escaped form of a text ends where the text ends. -/
theorem quotedRest?_escapedBody (text : List Char) :
    quotedRest? (escapedBody text ++ ['\'']) = some (escapedBody text, []) := by
  induction text with
  | nil => rfl
  | cons c text ih =>
    rw [escapedBody_cons]
    by_cases slash : c = '\\'
    · subst slash
      change quotedRest? ('\\' :: '\\' :: (escapedBody text ++ ['\''])) = _
      rw [quotedRest?, ih]
      · rfl
    · by_cases quote : c = '\''
      · subst quote
        change quotedRest? ('\'' :: '\'' :: (escapedBody text ++ ['\''])) = _
        rw [quotedRest?, ih]
        rfl
      · rw [if_neg slash, if_neg quote, List.singleton_append, List.cons_append,
          quotedRest?_cons slash quote, ih]
        rfl

/-! ## Tokens -/

/-- How reading goes on behind one character. -/
def Quoting.step (q : Quoting) (c : Char) : Quoting :=
  match q with
  | .outside => if c = '\'' then .quoted else .outside
  | .quoted => if c = '\\' then .hidden else if c = '\'' then .outside else .quoted
  | .hidden => .quoted

/-- Does reading the text from the given state come back to the outside, without white space there?
-/
def Quoting.closes : Quoting → List Char → Bool
  | q, [] => q == .outside
  | q, c :: cs => !(q == .outside && isBlank c) && (q.step c).closes cs

theorem tokensFrom_cons (q : Quoting) (collected : List Char) (c : Char) (cs : List Char) :
    tokensFrom q collected (c :: cs) =
      if q = .outside ∧ isBlank c = true then token collected ++ tokensFrom .outside [] cs
      else tokensFrom (q.step c) (c :: collected) cs := by
  cases q with
  | outside =>
    rw [tokensFrom]
    by_cases space : isBlank c = true
    · rw [if_pos space, if_pos ⟨rfl, space⟩]
    · rw [if_neg space, if_neg fun h : _ ∧ _ => space h.2]
      rfl
  | hidden =>
    rw [tokensFrom, if_neg fun h => nomatch h.1]
    rfl
  | quoted =>
    rw [if_neg fun h => nomatch h.1]
    by_cases quote : c = '\''
    · subst quote
      -- A second quote is taken with the first, and leads back between the quotes.
      cases cs with
      | nil => rfl
      | cons d cs =>
        by_cases again : d = '\''
        · subst again
          rfl
        · rw [tokensFrom]
          · rfl
          · exact fun _ _ same => again (List.cons.inj same).1
    · rw [tokensFrom]
      · rfl
      · exact fun _ same _ => quote same

/-- A text that closes is collected as a whole. -/
theorem tokensFrom_append {q : Quoting} {text : List Char} (closes : q.closes text = true)
    (collected rest : List Char) :
    tokensFrom q collected (text ++ rest) =
      tokensFrom .outside (text.reverse ++ collected) rest := by
  induction text generalizing q collected with
  | nil =>
    have outside : q = .outside := by simpa [Quoting.closes] using closes
    rw [outside]
    rfl
  | cons c text ih =>
    simp only [Quoting.closes, Bool.and_eq_true, Bool.not_eq_true', Bool.and_eq_false_iff,
      beq_eq_false_iff_ne] at closes
    obtain ⟨together, closes⟩ := closes
    have kept : ¬ (q = .outside ∧ isBlank c = true) := by
      rintro ⟨outside, space⟩
      rcases together with other | visible
      · exact other outside
      · rw [space] at visible
        cases visible
    rw [List.cons_append, tokensFrom_cons, if_neg kept, ih closes, List.reverse_cons,
      List.append_assoc]
    rfl

/-- Is the text one token, wherever it stands between white space? -/
structure IsToken (text : List Char) : Prop where
  ne_nil : text ≠ []
  closes : Quoting.outside.closes text = true

theorem tokensFrom_nil (q : Quoting) (collected : List Char) :
    tokensFrom q collected [] = token collected := by
  cases q <;> rfl

theorem token_reverse {text : List Char} (ne_nil : text ≠ []) : token text.reverse = [text] := by
  rw [token, List.isEmpty_reverse, List.isEmpty_eq_false_iff.mpr ne_nil, List.reverse_reverse]
  rfl

/-- Behind a text that closes, white space ends the token. -/
theorem tokensFrom_append_cons {text : List Char} (closed : IsToken text) {c : Char}
    (space : isBlank c = true) (rest : List Char) :
    tokensFrom .outside [] (text ++ c :: rest) = text :: tokensFrom .outside [] rest := by
  rw [tokensFrom_append closed.closes, List.append_nil, tokensFrom_cons, if_pos ⟨rfl, space⟩,
    token_reverse closed.ne_nil]
  rfl

/-- Behind collected characters, a line goes on with the rest of their token. -/
theorem spaced_tokensFrom (q : Quoting) (collected line : List Char)
    (started : q ≠ .outside → collected ≠ []) :
    Spaced isBlank (tokensFrom q collected line) (collected.reverse ++ line) := by
  induction line generalizing q collected with
  | nil =>
    rw [tokensFrom_nil, List.append_nil]
    cases collected with
    | nil => exact .nil
    | cons c collected => exact .last _
  | cons c line ih =>
    rw [tokensFrom_cons]
    split
    next space =>
      have behind := ih .outside [] fun other => absurd rfl other
      cases collected with
      | nil => exact .skip space.2 behind
      | cons d collected => exact .cons _ space.2 behind
    next =>
      have more := ih (q.step c) (c :: collected) fun _ => List.cons_ne_nil _ _
      rwa [List.reverse_cons, List.append_assoc] at more

/-- **A line is its tokens**, with white space around them. -/
theorem spaced_tokens (line : List Char) : Spaced isBlank (tokens line) line :=
  spaced_tokensFrom .outside [] line fun other => absurd rfl other

/-- **Tokens are read where they stand**: with white space between them, and nowhere else. -/
theorem tokens_eq_iff {texts : List (List Char)} (all : ∀ text ∈ texts, IsToken text)
    {line : List Char} : tokens line = texts ↔ Spaced isBlank texts line := by
  constructor
  · rintro rfl
    exact spaced_tokens line
  · intro spaced
    unfold tokens
    induction spaced with
    | nil => rfl
    | last text =>
      have closed := all text List.mem_cons_self
      have read := tokensFrom_append closed.closes [] []
      rw [List.append_nil, List.append_nil, tokensFrom_nil] at read
      exact read.trans (token_reverse closed.ne_nil)
    | skip space _ ih =>
      rw [tokensFrom_cons, if_pos ⟨rfl, space⟩]
      exact ih all
    | cons text space _ ih =>
      rw [tokensFrom_append_cons (all text List.mem_cons_self) space,
        ih fun t member => all t (List.mem_cons_of_mem text member)]

/-- **Tokens with blanks in front of them are read back** as those tokens. -/
theorem tokens_flatMap {texts : List (List Char)} (all : ∀ text ∈ texts, IsToken text) :
    tokens (texts.flatMap (' ' :: ·)) = texts := by
  refine (tokens_eq_iff all).mpr ?_
  cases texts with
  | nil => exact .nil
  | cons text texts => exact .skip (by decide) (spaced_append_flatMap (by decide) text texts)

/-- What is kept while characters are collected, and good enough for a token where they end, holds of
every token. -/
theorem forall_mem_tokensFrom {kept : Quoting → List Char → Prop} {good : List Char → Prop}
    (starts : kept .outside [])
    (step : ∀ {q collected c}, kept q collected → ¬ (q = .outside ∧ isBlank c = true) →
      kept (q.step c) (c :: collected))
    (ends : ∀ {q collected}, kept q collected → collected ≠ [] → good collected.reverse)
    {q : Quoting} {collected : List Char} (now : kept q collected) (line : List Char) :
    ∀ word ∈ tokensFrom q collected line, good word := by
  have ended : ∀ {q collected}, kept q collected → ∀ word ∈ token collected, good word := by
    intro q collected now word member
    unfold token at member
    split at member
    next => cases member
    next filled =>
      rw [List.mem_singleton.mp member]
      exact ends now fun empty => filled (List.isEmpty_iff.mpr empty)
  induction line generalizing q collected with
  | nil => exact tokensFrom_nil q collected ▸ ended now
  | cons c line ih =>
    rw [tokensFrom_cons]
    split
    next => exact List.forall_mem_append.mpr ⟨ended now, ih starts⟩
    next stays => exact ih (step now stays)

theorem ne_nil_of_mem_tokens {line word : List Char} (h : word ∈ tokens line) : word ≠ [] := by
  have filled : ∀ word ∈ tokens line, word ≠ [] :=
    @forall_mem_tokensFrom (fun _ _ => True) _ trivial (fun _ _ => trivial)
      (fun _ some empty => some (List.reverse_eq_nil_iff.mp empty)) _ _ trivial line
  exact filled word h

/-- Were the characters collected outside quotes, and without white space, unless a quote is among
them? -/
def CollectedOutside (q : Quoting) (collected : List Char) : Prop :=
  '\'' ∉ collected → q = .outside ∧ ∀ c ∈ collected, isBlank c = false

theorem collectedOutside_nil : CollectedOutside .outside [] :=
  fun _ => ⟨rfl, fun _ member => nomatch member⟩

/-- White space is collected between quotes only, behind the one that opens them. -/
theorem CollectedOutside.cons {q : Quoting} {collected : List Char} {c : Char}
    (outside : CollectedOutside q collected) (stays : ¬ (q = .outside ∧ isBlank c = true)) :
    CollectedOutside (q.step c) (c :: collected) := by
  intro none
  rw [List.mem_cons, not_or] at none
  obtain ⟨other, none⟩ := none
  obtain ⟨rfl, visible⟩ := outside none
  have seen : isBlank c = false := Bool.eq_false_iff.mpr fun blank => stays ⟨rfl, blank⟩
  exact ⟨if_neg (Ne.symm other), List.forall_mem_cons.mpr ⟨seen, visible⟩⟩

/-- **A token without quotes has no white space.** -/
theorem visible_of_mem_tokens {line word : List Char} (h : word ∈ tokens line)
    (unquoted : '\'' ∉ word) : ∀ c ∈ word, isBlank c = false := by
  have visible : ∀ word ∈ tokens line, '\'' ∉ word → ∀ c ∈ word, isBlank c = false := by
    refine forall_mem_tokensFrom collectedOutside_nil CollectedOutside.cons ?_
      collectedOutside_nil line
    intro q collected outside _ unquoted c member
    exact (outside fun quote => unquoted (List.mem_reverse.mpr quote)).2 c
      (List.mem_reverse.mp member)
  exact visible word h unquoted

theorem closes_escapedBody (text rest : List Char) :
    Quoting.quoted.closes (escapedBody text ++ rest) = Quoting.quoted.closes rest := by
  induction text with
  | nil => rfl
  | cons c text ih =>
    rw [escapedBody_cons]
    by_cases slash : c = '\\'
    · subst slash
      exact ih
    · by_cases quote : c = '\''
      · subst quote
        exact ih
      · rw [if_neg slash, if_neg quote, List.singleton_append, List.cons_append, Quoting.closes,
          Quoting.step, if_neg slash, if_neg quote, ih]
        rfl

/-- **The escaped form of a text is one token**, whatever the text holds. -/
theorem isToken_escapedChars (text : List Char) : IsToken (Literal.escapedChars text) where
  ne_nil := List.cons_ne_nil _ _
  closes := by
    rw [escapedChars_eq, List.cons_append]
    change Quoting.quoted.closes (escapedBody text ++ ['\'']) = true
    rw [closes_escapedBody]
    rfl

/-- A word without quotes and white space is one token. -/
theorem isToken_of_plain {text : List Char} (ne_nil : text ≠ [])
    (plain : ∀ c ∈ text, c ≠ '\'' ∧ isBlank c = false) : IsToken text where
  ne_nil := ne_nil
  closes := by
    clear ne_nil
    induction text with
    | nil => rfl
    | cons c text ih =>
      obtain ⟨quote, visible⟩ := plain c List.mem_cons_self
      rw [Quoting.closes, Quoting.step, if_neg quote, visible,
        ih fun d member => plain d (List.mem_cons_of_mem c member)]
      rfl

/-- Is the text a word without white space and quotes, or the escaped form of a text? -/
inductive IsItem : List Char → Prop
  | word {text : List Char} :
      text ≠ [] → (∀ c ∈ text, c ≠ '\'' ∧ isBlank c = false) → IsItem text
  | quoted (text : String) : IsItem (Literal.escaped text).toList

theorem IsItem.isToken {text : List Char} (item : IsItem text) : IsToken text := by
  cases item with
  | word ne_nil plain => exact isToken_of_plain ne_nil plain
  | quoted text => exact toList_escaped text ▸ isToken_escapedChars text.toList

theorem closes_singleton {q : Quoting} {c : Char} (h : q.closes [c] = true) :
    isBlank c = false := by
  rw [Quoting.closes, Bool.and_eq_true] at h
  obtain ⟨together, outside⟩ := h
  cases q with
  | outside => simpa using together
  | hidden => cases outside
  | quoted =>
    by_cases quote : c = '\''
    · rw [quote]
      decide
    · have stays : Quoting.quoted.step c ≠ .outside := by
        rw [Quoting.step, if_neg quote]
        split <;> exact fun same => nomatch same
      exact absurd (eq_of_beq outside) stays

theorem closes_getLast_visible {q : Quoting} {text : List Char} (h : q.closes text = true) :
    ∀ c ∈ text.getLast?, isBlank c = false := by
  induction text generalizing q with
  | nil => exact fun c last => nomatch last
  | cons d text ih =>
    cases text with
    | nil =>
      intro c last
      obtain rfl : d = c := Option.some.inj last
      exact closes_singleton h
    | cons e text =>
      rw [Quoting.closes, Bool.and_eq_true] at h
      rw [List.getLast?_cons_cons]
      exact ih h.2

/-- **The reading of attributes undoes their quoting.** Words and quoted texts are read from a line
exactly where it has them with white space between them, one character or more, whatever the quoted
texts hold; and what is read from a quoted text is the text. -/
theorem tokens_undo_quoting :
    (∀ (items : List (List Char)) (line : List Char), (∀ item ∈ items, IsItem item) →
      (tokens line = items ↔ Spaced isBlank items line)) ∧
    ∀ text : String, literal? (Literal.escaped text).toList = some text := by
  refine ⟨fun items line all => tokens_eq_iff fun item member => (all item member).isToken,
    fun text => ?_⟩
  rw [toList_escaped, literal?_escapedChars, String.ofList_toList]

/-- A word and a quoted text that is a quote, a line feed, a blank and a backslash. -/
theorem tokens_undo_quoting_comment :
    let items := ["COMMENT".toList, (Literal.escaped "'\n \\").toList]
    (∀ item ∈ items, IsItem item) ∧ Spaced isBlank items "COMMENT \t'''\n \\\\'".toList ∧
      tokens "COMMENT \t'''\n \\\\'".toList = items := by
  intro items
  have all : ∀ item ∈ items, IsItem item := by
    refine List.forall_mem_cons.mpr ⟨.word (by decide) (by decide), ?_⟩
    exact List.forall_mem_singleton.mpr (.quoted _)
  have spaced : Spaced isBlank items "COMMENT \t'''\n \\\\'".toList :=
    .cons "COMMENT".toList (by decide) (.skip (by decide) (.last _))
  exact ⟨all, spaced, (tokens_undo_quoting.1 items _ all).mpr spaced⟩

/-! ## Lines and words -/

/-- Is the text a line that trimming leaves alone, and that ends in no comma? -/
structure Solid (text : List Char) : Prop where
  ne_nil : text ≠ []
  oneLine : '\n' ∉ text
  start : ∀ c ∈ text.head?, isBlank c = false
  ending : ∀ c ∈ text.getLast?, isBlank c = false ∧ c ≠ ','

instance (text : List Char) : Decidable (Solid text) :=
  decidable_of_iff (text ≠ [] ∧ '\n' ∉ text ∧ (∀ c ∈ text.head?, isBlank c = false) ∧
      ∀ c ∈ text.getLast?, isBlank c = false ∧ c ≠ ',')
    ⟨fun ⟨ne_nil, oneLine, start, ending⟩ => ⟨ne_nil, oneLine, start, ending⟩,
      fun h => ⟨h.ne_nil, h.oneLine, h.start, h.ending⟩⟩

/-- Is the text a token that can end a line? -/
structure IsWord (text : List Char) : Prop extends IsToken text where
  oneLine : '\n' ∉ text
  ending : text.getLast? ≠ some ','

instance (text : List Char) : Decidable (IsWord text) :=
  decidable_of_iff
    (text ≠ [] ∧ Quoting.outside.closes text = true ∧ '\n' ∉ text ∧ text.getLast? ≠ some ',')
    ⟨fun ⟨ne_nil, closes, oneLine, ending⟩ => ⟨⟨ne_nil, closes⟩, oneLine, ending⟩,
      fun h => ⟨h.ne_nil, h.closes, h.oneLine, h.ending⟩⟩

/-- Is the text one that a line can go on with, and end with? -/
structure EndsLine (text : List Char) : Prop where
  ne_nil : text ≠ []
  oneLine : '\n' ∉ text
  ending : ∀ c ∈ text.getLast?, isBlank c = false ∧ c ≠ ','

theorem IsWord.endsLine {text : List Char} (h : IsWord text) : EndsLine text where
  ne_nil := h.ne_nil
  oneLine := h.oneLine
  ending := by
    intro c last
    refine ⟨closes_getLast_visible h.closes c last, ?_⟩
    rintro rfl
    exact h.ending last

theorem isWord_escapedChars {text : List Char} (oneLine : '\n' ∉ text) :
    IsWord (Literal.escapedChars text) where
  toIsToken := isToken_escapedChars text
  oneLine := by
    intro member
    rw [escapedChars_eq, List.mem_append, List.mem_cons, List.mem_singleton] at member
    rcases member with (quote | inside) | quote
    · exact absurd quote (by decide)
    · exact oneLine (mem_escapedBody inside)
    · exact absurd quote (by decide)
  ending := by
    rw [escapedChars_eq, List.getLast?_concat]
    decide

theorem Solid.append {text more : List Char} (solid : Solid text) (oneLine : '\n' ∉ more)
    (ending : ∀ c ∈ more.getLast?, isBlank c = false ∧ c ≠ ',') : Solid (text ++ more) := by
  refine ⟨by simp [solid.ne_nil], by simp [solid.oneLine, oneLine], ?_, ?_⟩
  · cases text with
    | nil => exact absurd rfl solid.ne_nil
    | cons c text => exact solid.start
  · intro c last
    rw [List.getLast?_append, Option.mem_def, Option.or_eq_some_iff] at last
    rcases last with last | ⟨-, last⟩
    · exact ending c last
    · exact solid.ending c last

theorem Solid.append_words {text : List Char} (solid : Solid text) {words : List (List Char)}
    (all : ∀ word ∈ words, EndsLine word) : Solid (text ++ words.flatMap (' ' :: ·)) := by
  induction words generalizing text with
  | nil =>
    rw [List.flatMap_nil, List.append_nil]
    exact solid
  | cons word words ih =>
    have first := all word List.mem_cons_self
    have longer : Solid (text ++ ' ' :: word) := by
      refine solid.append (by simp [first.oneLine]) ?_
      cases word with
      | nil => exact absurd rfl first.ne_nil
      | cons c word =>
        rw [List.getLast?_cons_cons]
        exact first.ending
    rw [List.flatMap_cons, ← List.append_assoc]
    exact ih longer fun w member => all w (List.mem_cons_of_mem _ member)

/-! ## Names -/

/-- Is the name printed between backticks as it is, on one line? -/
structure Named (name : String) : Prop where
  ne_empty : name ≠ ""
  ne_star : name ≠ "*"
  plain : ∀ c ∈ name.toList, c ≠ '\x60' ∧ c ≠ '.' ∧ c ≠ '\n'

theorem Named.identifier {name : String} (h : Named name) :
    (Dialect.mysql.identifier name).toList = '\x60' :: name.toList ++ ['\x60'] := by
  have whole : name.toList.splitOn '.' = [name.toList] :=
    List.splitOn_eq_singleton fun member => (h.plain '.' member).2.1 rfl
  have other : name.toList ≠ ['*'] := by
    intro star
    exact h.ne_star (String.toList_inj.mp star)
  have kept : ∀ cs : List Char, (∀ c ∈ cs, c ≠ '\x60') → doubled '\x60' cs = cs := by
    intro cs plain
    induction cs with
    | nil => rfl
    | cons c cs ih =>
      rw [doubled_cons, if_neg (plain c List.mem_cons_self),
        ih fun d member => plain d (List.mem_cons_of_mem c member)]
      rfl
  rw [Dialect.identifier, String.toList_ofList, Identifier.encode, whole, List.map_singleton,
    List.intercalate_singleton]
  change Identifier.part '\x60' name.toList = _
  rw [Identifier.part, if_neg other, kept _ fun c member => (h.plain c member).1]

theorem Named.backticked? {name : String} (h : Named name) (rest : List Char) :
    backticked? ((Dialect.mysql.identifier name).toList ++ rest) = some (name.toList, rest) := by
  have nonempty : name.toList.isEmpty = false := by
    rw [List.isEmpty_eq_false_iff, Ne, String.toList_eq_nil_iff]
    exact h.ne_empty
  rw [h.identifier, List.append_assoc, List.cons_append, List.singleton_append]
  rw [Ddl.backticked?, splitOnce_append fun member => (h.plain _ member).1 rfl]
  simp only [nonempty, Bool.false_eq_true, if_false]

end SqlAccess.Ddl
