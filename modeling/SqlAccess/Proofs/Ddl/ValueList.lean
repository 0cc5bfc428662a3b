import SqlAccess.Ddl.Attribute
import SqlAccess.Proofs.Ddl.Quoting

/-!
# Value lists

The argument of a list type is a list of quoted texts with commas between them. It is read by
cutting it at every quote, comma and quote, and by taking white space and quotes off both ends of
each piece. So the texts can be told apart as long as none starts or ends with a quote, no white
space stands at their ends, and nothing in them looks like the place between two of them. This is
not only enough but also needed: the texts of a list that is read as itself are such texts
(`splitTexts_map_iff`).

What is taken off a piece too much is never put back, as a piece is read as a part of what it was
printed for (`exists_listedText`). So the first text that is cut too early, or that loses something
at its ends, is read as a shorter one.
-/

namespace SqlAccess.Ddl

open SqlAccess.Text

/-- Does the text hold no quote and comma in front of a further quote or at its end? They would be
taken for the place between two texts. -/
def Parted (text : List Char) : Prop :=
  ∀ before after, text = before ++ '\'' :: ',' :: after → ∃ c ∈ after.head?, c ≠ '\''

theorem Parted.tail {c : Char} {text : List Char} (h : Parted (c :: text)) : Parted text := by
  rintro before after rfl
  exact h (c :: before) after rfl

/-- Can the texts be told apart in the printed list? White space counts as a part of a text only
where a quote stands around it, at the two ends of the list. -/
structure Listable (texts : List String) : Prop where
  ne_nil : texts ≠ []
  plain : ∀ text ∈ texts, ∀ c ∈ text.toList, c ≠ ')' ∧ c ≠ '\n'
  start : ∀ text ∈ texts, text.toList.head? ≠ some '\''
  ending : ∀ text ∈ texts, text.toList.getLast? ≠ some '\''
  parted : ∀ text ∈ texts, Parted text.toList
  opening : ∀ text ∈ texts.head?, Parted ('\'' :: text.toList)
  left : ∀ text ∈ texts.tail, ∀ c ∈ text.toList.head?, isBlank c = false
  right : ∀ text ∈ texts.dropLast, ∀ c ∈ text.toList.getLast?, isBlank c = false

/-! ## Pieces -/

theorem head?_escapedBody (text : List Char) : (escapedBody text).head? = text.head? := by
  cases text with
  | nil => rfl
  | cons c text =>
    rw [escapedBody_cons]
    by_cases slash : c = '\\'
    · subst slash
      rfl
    · by_cases quote : c = '\''
      · subst quote
        rfl
      · rw [if_neg slash, if_neg quote]
        rfl

theorem getLast?_escapedBody (text : List Char) :
    (escapedBody text).getLast? = text.getLast? := by
  induction text with
  | nil => rfl
  | cons c text ih =>
    rw [escapedBody_cons, List.getLast?_append, ih]
    cases text with
    | nil =>
      by_cases slash : c = '\\'
      · subst slash
        rfl
      · by_cases quote : c = '\''
        · subst quote
          rfl
        · rw [if_neg slash, if_neg quote]
          rfl
    | cons d text => simp [List.getLast?_cons]

theorem escapedBody_append (text more : List Char) :
    escapedBody (text ++ more) = escapedBody text ++ escapedBody more := by
  induction text with
  | nil => rfl
  | cons c text ih =>
    rw [List.cons_append, escapedBody_cons, escapedBody_cons, ih, List.append_assoc]

/-- Escaping a text from behind is escaping it: what is doubled is doubled both ways. -/
theorem escapedBody_reverse (text : List Char) :
    escapedBody text.reverse = (escapedBody text).reverse := by
  induction text with
  | nil => rfl
  | cons c text ih =>
    have alone : escapedBody [c] = (escapedBody [c]).reverse := by
      rw [escapedBody_cons]
      split
      next => rfl
      next => split <;> rfl
    have parts : escapedBody (c :: text) = escapedBody [c] ++ escapedBody text :=
      escapedBody_append [c] text
    rw [List.reverse_cons, escapedBody_append, ih, parts, List.reverse_append, ← alone]

/-- Can the text be read from its piece, where some of its quotes are left on the piece? -/
structure Bounded (before after : List Char) (text : String) : Prop where
  start : text.toList.head? ≠ some '\''
  ending : text.toList.getLast? ≠ some '\''
  left : before = [] → ∀ c ∈ text.toList.head?, isBlank c = false
  right : after = [] → ∀ c ∈ text.toList.getLast?, isBlank c = false

/-- What is left of the escaped form of a text when characters are taken off its ends: the escaped
form of a part of the text, with quotes around it. -/
def Remnant (text left : List Char) : Prop :=
  ∃ before part after, left = before ++ (escapedBody part ++ after) ∧ (∀ c ∈ before, c = '\'') ∧
    (∀ c ∈ after, c = '\'') ∧ part <:+: text

section

variable {text left : List Char}

theorem Remnant.reverse (h : Remnant text left) : Remnant text.reverse left.reverse := by
  obtain ⟨before, part, after, rfl, quotes, quotes', inside⟩ := h
  refine ⟨after.reverse, part.reverse, before.reverse, ?_, ?_, ?_, List.reverse_infix.mpr inside⟩
  · simp only [List.reverse_append, escapedBody_reverse, List.append_assoc]
  · exact fun c member => quotes' c (List.mem_reverse.mp member)
  · exact fun c member => quotes c (List.mem_reverse.mp member)

/-- A quote or white space at the front can be taken off. -/
theorem Remnant.tail {c : Char} (h : Remnant text (c :: left))
    (kind : c = '\'' ∨ isBlank c = true) : Remnant text left := by
  obtain ⟨before, part, after, same, quotes, quotes', inside⟩ := h
  cases before with
  | cons d before =>
    exact ⟨before, part, after, (List.cons.inj same).2,
      fun q member => quotes q (List.mem_cons_of_mem d member), quotes', inside⟩
  | nil =>
    cases part with
    | nil =>
      have rest : left = after.tail := congrArg List.tail same
      refine ⟨[], [], after.tail, rest, nofun, ?_, List.nil_infix⟩
      exact fun q member => quotes' q (List.mem_of_mem_tail member)
    | cons d part =>
      have inside' : part <:+: text := (List.suffix_cons d part).isInfix.trans inside
      rw [List.nil_append, escapedBody_cons] at same
      by_cases slash : d = '\\'
      · rw [if_pos slash] at same
        obtain rfl : c = '\\' := (List.cons.inj same).1
        exact absurd kind (by decide)
      rw [if_neg slash] at same
      by_cases quote : d = '\''
      · -- one of the two quotes that stand for one is left in front
        rw [if_pos quote] at same
        exact ⟨['\''], part, after, (List.cons.inj same).2, fun q => List.mem_singleton.mp,
          quotes', inside'⟩
      · rw [if_neg quote] at same
        exact ⟨[], part, after, (List.cons.inj same).2, nofun, quotes', inside'⟩

theorem Remnant.dropWhile {kind : Char → Bool}
    (kinds : ∀ c, kind c = true → c = '\'' ∨ isBlank c = true) (h : Remnant text left) :
    Remnant text (left.dropWhile kind) := by
  induction left with
  | nil => exact h
  | cons c left ih =>
    rw [List.dropWhile_cons]
    split
    next drops => exact ih (h.tail (kinds c drops))
    next => exact h

theorem Remnant.dropAround {kind : Char → Bool}
    (kinds : ∀ c, kind c = true → c = '\'' ∨ isBlank c = true) (h : Remnant text left) :
    Remnant text (dropAround kind left) := by
  have behind := (h.dropWhile kinds).reverse.dropWhile kinds
  have whole := behind.reverse
  rwa [List.reverse_reverse] at whole

/-- Where no quote stands at the ends, no quotes are left around the escaped form. -/
theorem Remnant.exists_part (h : Remnant text left) (start : left.head? ≠ some '\'')
    (ending : left.getLast? ≠ some '\'') : ∃ part, left = escapedBody part ∧ part <:+: text := by
  obtain ⟨before, part, after, rfl, quotes, quotes', inside⟩ := h
  have bare : before = [] := by
    cases before with
    | nil => rfl
    | cons c before => exact absurd (congrArg some (quotes c List.mem_cons_self)) start
  have bare' : after = [] := by
    cases last : after.getLast? with
    | none => exact List.getLast?_eq_none_iff.mp last
    | some c =>
      obtain rfl := quotes' c (List.mem_of_getLast? last)
      refine absurd ?_ ending
      rw [← List.append_assoc, List.getLast?_append, last]
      rfl
  subst bare bare'
  exact ⟨part, by rw [List.nil_append, List.append_nil], inside⟩

end

section

variable {before after : List Char} (quotes : ∀ c ∈ before, c = '\'')
  (quotes' : ∀ c ∈ after, c = '\'')

include quotes quotes'

/-- **A piece is read as a part of the text that it was printed for**, without quotes at the ends,
whichever of its quotes are left on it. -/
theorem exists_listedText (text : List Char) : ∃ part,
    listedText (before ++ (escapedBody text ++ after)) = String.ofList part ∧ part <:+: text ∧
      part.head? ≠ some '\'' ∧ part.getLast? ≠ some '\'' := by
  have whole : Remnant text (before ++ (escapedBody text ++ after)) :=
    ⟨before, text, after, rfl, quotes, quotes', List.infix_rfl⟩
  have left : Remnant text
      (dropAround (· == '\'') (trim (before ++ (escapedBody text ++ after)))) :=
    (whole.dropAround fun c blank => .inr blank).dropAround fun c quote => .inl (eq_of_beq quote)
  have start : (dropAround (· == '\'') (trim (before ++ (escapedBody text ++ after)))).head? ≠
      some '\'' := fun first => absurd (head?_dropAround _ first) (by decide)
  have ending : (dropAround (· == '\'') (trim (before ++ (escapedBody text ++ after)))).getLast? ≠
      some '\'' := fun last => absurd (getLast?_dropAround _ last) (by decide)
  obtain ⟨part, same, inside⟩ := left.exists_part start ending
  refine ⟨part, ?_, inside, ?_, ?_⟩
  · rw [listedText, same, unescape_escapedBody]
  · rwa [same, head?_escapedBody] at start
  · rwa [same, getLast?_escapedBody] at ending

omit quotes quotes' in
theorem escapedBody_cons_of_blank {c : Char} (blank : isBlank c = true) (text : List Char) :
    escapedBody (c :: text) = c :: escapedBody text := by
  have plain : c ≠ '\\' ∧ c ≠ '\'' := by
    constructor <;> rintro rfl <;> exact absurd blank (by decide)
  rw [escapedBody_cons, if_neg plain.1, if_neg plain.2, List.singleton_append]

/-- A piece of a shorter text is not read as the text. -/
theorem listedText_ne_of_shorter {shorter part : List Char} (short : shorter.length < part.length) :
    listedText (before ++ (escapedBody shorter ++ after)) ≠ String.ofList part := by
  intro same
  obtain ⟨part', read, inside, -⟩ := exists_listedText quotes quotes' shorter
  obtain rfl : part' = part := String.ofList_injective (read.symm.trans same)
  exact absurd inside.length_le (Nat.not_le.mpr short)

/-- White space at a bare end of a piece is not read, so what is read is shorter than the text. -/
theorem bounded_of_listedText_eq {text : String}
    (same : listedText (before ++ (escapedBody text.toList ++ after)) = text) :
    Bounded before after text := by
  obtain ⟨part, read, -, start, ending⟩ := exists_listedText quotes quotes' text.toList
  rw [same] at read
  subst read
  rw [String.toList_ofList] at same
  refine ⟨?_, ?_, fun bare c first => ?_, fun bare c last => ?_⟩
  · rwa [String.toList_ofList]
  · rwa [String.toList_ofList]
  · rw [String.toList_ofList] at first
    obtain ⟨rest, rfl⟩ := List.head?_eq_some_iff.mp first
    have short : rest.length < (c :: rest).length := Nat.lt_succ_self _
    refine Bool.eq_false_iff.mpr fun blank => listedText_ne_of_shorter quotes quotes' short ?_
    rw [bare, List.nil_append, escapedBody_cons_of_blank blank, List.cons_append, listedText,
      trim, dropAround_cons blank] at same
    rw [bare]
    exact same
  · rw [String.toList_ofList] at last
    obtain ⟨rest, rfl⟩ := List.getLast?_eq_some_iff.mp last
    have short : rest.length < (rest ++ [c]).length := by
      rw [List.length_append]
      exact Nat.lt_succ_self _
    refine Bool.eq_false_iff.mpr fun blank => listedText_ne_of_shorter quotes quotes' short ?_
    have alone : escapedBody [c] = [c] := escapedBody_cons_of_blank blank []
    rw [bare, List.append_nil, escapedBody_append, alone, ← List.append_assoc, listedText, trim,
      dropAround_concat blank] at same
    rw [bare, List.append_nil]
    exact same

/-- At either end of the piece of a bounded text stands a quote, or a character of the text that is
no white space. -/
theorem Bounded.trim_piece {text : String} (bounded : Bounded before after text) :
    trim (before ++ (escapedBody text.toList ++ after)) =
      before ++ (escapedBody text.toList ++ after) := by
  have visible : ∀ c : Char, c = '\'' → isBlank c = false := by
    rintro c rfl
    decide
  refine dropAround_of_bounds (fun c first => ?_) (fun c last => ?_)
  · rw [List.head?_append, List.head?_append, head?_escapedBody, Option.mem_def,
      Option.or_eq_some_iff, Option.or_eq_some_iff] at first
    rcases first with first | ⟨none, first | ⟨-, first⟩⟩
    · exact visible c (quotes c (List.mem_of_head? first))
    · exact bounded.left (List.head?_eq_none_iff.mp none) c first
    · exact visible c (quotes' c (List.mem_of_head? first))
  · rw [List.getLast?_append, List.getLast?_append, getLast?_escapedBody, Option.mem_def,
      Option.or_eq_some_iff, Option.or_eq_some_iff] at last
    rcases last with (last | ⟨none, last⟩) | ⟨-, last⟩
    · exact visible c (quotes' c (List.mem_of_getLast? last))
    · exact bounded.right (List.getLast?_eq_none_iff.mp none) c last
    · exact visible c (quotes c (List.mem_of_getLast? last))

theorem Bounded.listedText_eq {text : String} (bounded : Bounded before after text) :
    listedText (before ++ (escapedBody text.toList ++ after)) = text := by
  rw [listedText, bounded.trim_piece quotes quotes', dropAround_append, unescape_escapedBody,
    String.ofList_toList]
  · exact fun c member => beq_iff_eq.mpr (quotes c member)
  · exact fun c member => beq_iff_eq.mpr (quotes' c member)
  · rw [head?_escapedBody]
    intro c first
    refine beq_false_of_ne ?_
    rintro rfl
    exact bounded.start first
  · rw [getLast?_escapedBody]
    intro c last
    refine beq_false_of_ne ?_
    rintro rfl
    exact bounded.ending last

/-- **A text is read from its piece** exactly if no quote stands at its ends, and white space only
where a quote is left around it. -/
theorem listedText_eq_iff {text : String} :
    listedText (before ++ (escapedBody text.toList ++ after)) = text ↔
      Bounded before after text :=
  ⟨bounded_of_listedText_eq quotes quotes', Bounded.listedText_eq quotes quotes'⟩

end

/-- A character that no escape stands for is in the text before its escapes are undone. -/
theorem mem_of_mem_unescape {c : Char} (plain : ∀ d, escapedChar d = c → d = c) {text : List Char}
    (h : c ∈ unescape text) : c ∈ text := by
  fun_induction unescape text with
  | case1 => exact h
  | case2 d text ih =>
    rcases List.mem_cons.mp h with same | h
    · rw [plain d same.symm]
      exact List.mem_cons_of_mem _ List.mem_cons_self
    · exact List.mem_cons_of_mem _ (List.mem_cons_of_mem _ (ih h))
  | case3 text ih =>
    rcases List.mem_cons.mp h with rfl | h
    · exact List.mem_cons_self
    · exact List.mem_cons_of_mem _ (List.mem_cons_of_mem _ (ih h))
  | case4 d text _ _ ih =>
    rcases List.mem_cons.mp h with rfl | h
    · exact List.mem_cons_self
    · exact List.mem_cons_of_mem _ (ih h)

theorem mem_splitTexts {text piece : List Char} (h : piece ∈ splitTexts text) :
    ∀ c ∈ piece, c ∈ text := by
  fun_induction splitTexts text generalizing piece with
  | case1 =>
    rw [List.mem_singleton.mp h]
    exact nofun
  | case2 text ih =>
    intro c member
    rcases List.mem_cons.mp h with rfl | h
    · cases member
    · exact List.mem_cons_of_mem _ (List.mem_cons_of_mem _ (List.mem_cons_of_mem _ (ih h c member)))
  | case3 d text _ ih =>
    intro c member
    cases pieces : splitTexts text with
    | nil =>
      rw [pieces] at h
      cases h
    | cons first rest =>
      rw [pieces, List.modifyHead_cons] at h
      rcases List.mem_cons.mp h with rfl | h
      · rcases List.mem_cons.mp member with rfl | member
        · exact List.mem_cons_self
        · exact List.mem_cons_of_mem d (ih (pieces ▸ List.mem_cons_self) c member)
      · exact List.mem_cons_of_mem d (ih (pieces ▸ List.mem_cons_of_mem first h) c member)

/-- A list that is read holds no parenthesis that does not stand in its text. -/
theorem not_mem_listedText {argument piece : List Char} (plain : ')' ∉ argument)
    (h : piece ∈ splitTexts argument) : ')' ∉ (listedText piece).toList := by
  have letters : ∀ d, escapedChar d = ')' → d = ')' := by
    intro d same
    unfold escapedChar at same
    split at same
    next => exact absurd same (by decide)
    next => exact absurd same (by decide)
    next => exact absurd same (by decide)
    next => exact absurd same (by decide)
    next => exact same
  rw [listedText, String.toList_ofList]
  intro member
  have inside := mem_of_mem_dropAround (mem_of_mem_dropAround (mem_of_mem_unescape letters member))
  exact plain (mem_splitTexts h _ inside)

/-! ## Cutting -/

theorem splitTexts_cons {c : Char} {rest : List Char}
    (apart : c = '\'' → ∀ after, rest ≠ ',' :: '\'' :: after) :
    splitTexts (c :: rest) = (splitTexts rest).modifyHead (c :: ·) := by
  rw [splitTexts]
  exact fun after quote same => apart quote after same

theorem escapedBody_apart {text : List Char} (parted : Parted ('\'' :: text))
    (rest after : List Char) : escapedBody text ++ '\'' :: rest ≠ ',' :: '\'' :: after := by
  intro same
  cases text with
  | nil => exact absurd (List.cons.inj same).1 (by decide)
  | cons d text =>
    have first := congrArg List.head? same
    rw [List.head?_append, head?_escapedBody] at first
    obtain rfl : d = ',' := Option.some.inj first
    obtain ⟨c, head, other⟩ := parted [] text rfl
    rw [escapedBody_cons, if_neg (by decide), if_neg (by decide), List.singleton_append,
      List.cons_append] at same
    have second := congrArg List.head? (List.cons.inj same).2
    rw [List.head?_append, head?_escapedBody, Option.mem_def.mp head] at second
    exact other (Option.some.inj second)

/-- A quote in front of a text looks like the end of a text only where the text behind it is empty
or starts with a quote. -/
theorem parted_quote_iff {text rest : List Char} : Parted ('\'' :: text) ↔
    Parted text ∧ ∀ after, escapedBody text ++ '\'' :: rest ≠ ',' :: '\'' :: after := by
  refine ⟨fun parted => ⟨parted.tail, escapedBody_apart parted rest⟩, ?_⟩
  rintro ⟨parted, apart⟩ before after same
  cases before with
  | cons c before => exact parted before after (List.cons.inj same).2
  | nil =>
    obtain rfl := (List.cons.inj same).2
    rw [escapedBody_cons, if_neg (by decide), if_neg (by decide)] at apart
    cases after with
    | nil => exact absurd rfl (apart rest)
    | cons d after =>
      refine ⟨d, rfl, ?_⟩
      rintro rfl
      exact apart ('\'' :: (escapedBody after ++ '\'' :: rest)) (by rw [escapedBody_cons]; rfl)

/-- A printed text is cut only at the quote behind it. -/
theorem splitTexts_escapedBody {text : List Char} (parted : Parted text) (rest : List Char) :
    splitTexts (escapedBody text ++ '\'' :: rest) =
      (splitTexts ('\'' :: rest)).modifyHead (escapedBody text ++ ·) := by
  induction text with
  | nil =>
    have same : (escapedBody [] ++ ·) = (id : List Char → List Char) := rfl
    rw [same, List.modifyHead_id]
    rfl
  | cons c text ih =>
    have more := ih parted.tail
    have plain : ∀ {d : Char} {more : List Char}, d ≠ '\'' →
        splitTexts (d :: more) = (splitTexts more).modifyHead (d :: ·) := fun other =>
      splitTexts_cons fun same => absurd same other
    rw [escapedBody_cons]
    by_cases slash : c = '\\'
    · rw [if_pos slash, List.append_assoc, List.cons_append, List.singleton_append,
        plain (by decide), plain (by decide), more, List.modifyHead_modifyHead,
        List.modifyHead_modifyHead]
      rfl
    rw [if_neg slash]
    by_cases quote : c = '\''
    · subst quote
      rw [if_pos rfl, List.append_assoc, List.cons_append, List.singleton_append,
        splitTexts_cons fun _ after same => absurd (List.cons.inj same).1 (by decide),
        splitTexts_cons fun _ => escapedBody_apart parted rest, more, List.modifyHead_modifyHead,
        List.modifyHead_modifyHead]
      rfl
    · rw [if_neg quote, List.singleton_append, List.cons_append, plain quote, more,
        List.modifyHead_modifyHead]
      rfl

/-- A text that looks like the end of a text somewhere is cut there, behind a shorter text. -/
theorem splitTexts_of_not_parted {text : List Char} (torn : ¬ Parted text) (rest : List Char) :
    ∃ front behind more, text = front ++ '\'' :: behind ∧
      splitTexts (escapedBody text ++ '\'' :: rest) = (escapedBody front ++ ['\'']) :: more := by
  induction text with
  | nil => exact absurd (fun before after same => by cases before <;> cases same) torn
  | cons c text ih =>
    by_cases here : c = '\'' ∧ ∃ after, escapedBody text ++ '\'' :: rest = ',' :: '\'' :: after
    · obtain ⟨rfl, after, same⟩ := here
      refine ⟨[], text, splitTexts after, rfl, ?_⟩
      rw [escapedBody_cons, if_neg (by decide), if_pos rfl, List.append_assoc, List.cons_append,
        List.singleton_append, same,
        splitTexts_cons fun _ after same => absurd (List.cons.inj same).1 (by decide), splitTexts]
      rfl
    · have torn' : ¬ Parted text := by
        intro parted
        refine torn fun before after same => ?_
        cases before with
        | cons d before => exact parted before after (List.cons.inj same).2
        | nil =>
          obtain ⟨quote, -⟩ := List.cons.inj same
          subst quote
          have apart : ∀ after, escapedBody text ++ '\'' :: rest ≠ ',' :: '\'' :: after :=
            fun after same => here ⟨rfl, after, same⟩
          exact parted_quote_iff.mpr ⟨parted, apart⟩ [] after same
      obtain ⟨front, behind, more, rfl, pieces⟩ := ih torn'
      refine ⟨c :: front, behind, more, rfl, ?_⟩
      have plain : ∀ {d : Char} {more : List Char}, d ≠ '\'' →
          splitTexts (d :: more) = (splitTexts more).modifyHead (d :: ·) := fun other =>
        splitTexts_cons fun same => absurd same other
      rw [escapedBody_cons, escapedBody_cons c front]
      by_cases slash : c = '\\'
      · rw [if_pos slash, List.append_assoc, List.cons_append, List.singleton_append,
          plain (by decide), plain (by decide), pieces]
        rfl
      rw [if_neg slash]
      by_cases quote : c = '\''
      · subst quote
        rw [if_pos rfl, List.append_assoc, List.cons_append, List.singleton_append,
          splitTexts_cons fun _ after same => absurd (List.cons.inj same).1 (by decide),
          splitTexts_cons fun _ after same => here ⟨rfl, after, same⟩, pieces]
        rfl
      · rw [if_neg quote, List.singleton_append, List.cons_append, plain quote, pieces]
        rfl

/-- The printed list behind its first quote. -/
def listTail (text : String) : List String → List Char
  | [] => escapedBody text.toList ++ ['\'']
  | next :: rest => escapedBody text.toList ++ '\'' :: ',' :: '\'' :: listTail next rest

theorem toList_joined_escaped (text : String) (texts : List String) :
    (Text.joined "," ((text :: texts).map Literal.escaped)).toList =
      '\'' :: listTail text texts := by
  have opened : ∀ text : String, (Literal.escaped text).toList =
      '\'' :: (escapedBody text.toList ++ ['\'']) := by
    intro text
    rw [toList_escaped]
    rfl
  rw [List.map_cons, toList_joined_cons, opened]
  induction texts generalizing text with
  | nil => rw [listTail, List.map_nil, List.flatMap_nil, List.append_nil]
  | cons next rest ih =>
    rw [List.map_cons, List.flatMap_cons, opened, List.append_assoc, ih next, listTail]
    simp

/-- Can the texts be told apart behind what is left in front of the first one? -/
structure Separable (before : List Char) (text : String) (rest : List String) : Prop where
  start : ∀ t ∈ text :: rest, t.toList.head? ≠ some '\''
  ending : ∀ t ∈ text :: rest, t.toList.getLast? ≠ some '\''
  parted : ∀ t ∈ text :: rest, Parted t.toList
  first : before = [] → ∀ c ∈ text.toList.head?, isBlank c = false
  left : ∀ t ∈ rest, ∀ c ∈ t.toList.head?, isBlank c = false
  right : ∀ t ∈ (text :: rest).dropLast, ∀ c ∈ t.toList.getLast?, isBlank c = false

theorem separable_singleton_iff {before : List Char} {text : String} :
    Separable before text [] ↔ Parted text.toList ∧ Bounded before ['\''] text := by
  constructor
  · intro h
    exact ⟨h.parted text List.mem_cons_self, h.start text List.mem_cons_self,
      h.ending text List.mem_cons_self, h.first, nofun⟩
  · rintro ⟨parted, bounded⟩
    exact
      { start := fun t member => List.mem_singleton.mp member ▸ bounded.start
        ending := fun t member => List.mem_singleton.mp member ▸ bounded.ending
        parted := fun t member => List.mem_singleton.mp member ▸ parted
        first := bounded.left, left := nofun, right := nofun }

theorem separable_cons_iff {before : List Char} {text next : String} {rest : List String} :
    Separable before text (next :: rest) ↔
      Parted text.toList ∧ Bounded before [] text ∧ Separable [] next rest := by
  have shown : (text :: next :: rest).dropLast = text :: (next :: rest).dropLast := rfl
  constructor
  · intro h
    have right := h.right
    rw [shown] at right
    exact ⟨h.parted text List.mem_cons_self,
      ⟨h.start text List.mem_cons_self, h.ending text List.mem_cons_self, h.first,
        fun _ => right text List.mem_cons_self⟩,
      { start := fun t member => h.start t (List.mem_cons_of_mem _ member)
        ending := fun t member => h.ending t (List.mem_cons_of_mem _ member)
        parted := fun t member => h.parted t (List.mem_cons_of_mem _ member)
        first := fun _ => h.left next List.mem_cons_self
        left := fun t member => h.left t (List.mem_cons_of_mem _ member)
        right := fun t member => right t (List.mem_cons_of_mem _ member) }⟩
  · rintro ⟨parted, bounded, behind⟩
    exact
      { start := List.forall_mem_cons.mpr ⟨bounded.start, behind.start⟩
        ending := List.forall_mem_cons.mpr ⟨bounded.ending, behind.ending⟩
        parted := List.forall_mem_cons.mpr ⟨parted, behind.parted⟩
        first := bounded.left
        left := List.forall_mem_cons.mpr ⟨behind.first rfl, behind.left⟩
        right := by
          rw [shown]
          exact List.forall_mem_cons.mpr ⟨bounded.right rfl, behind.right⟩ }

/-- A text that looks like the end of a text somewhere is read as a shorter one. -/
theorem map_listedText_ne {text : String} {rest : List String} {before more : List Char}
    (quotes : ∀ c ∈ before, c = '\'') (torn : ¬ Parted text.toList) :
    ((splitTexts (escapedBody text.toList ++ '\'' :: more)).modifyHead (before ++ ·)).map
      listedText ≠ text :: rest := by
  intro same
  obtain ⟨front, behind, pieces, whole, cut⟩ := splitTexts_of_not_parted torn more
  rw [cut, List.modifyHead_cons, List.map_cons] at same
  obtain ⟨part, read, inside, -⟩ :=
    exists_listedText quotes (fun _ => List.mem_singleton.mp) front
  have first := congrArg String.toList (read.symm.trans (List.cons.inj same).1)
  rw [String.toList_ofList] at first
  have bound := inside.length_le
  rw [first, whole, List.length_append, List.length_cons] at bound
  omega

/-- A list is cut at the places between its texts, and read as itself, exactly if the texts can be
told apart. -/
theorem splitTexts_listTail_iff {text : String} {rest : List String} {before : List Char}
    (quotes : ∀ c ∈ before, c = '\'') :
    ((splitTexts (listTail text rest)).modifyHead (before ++ ·)).map listedText = text :: rest ↔
      Separable before text rest := by
  have none : ∀ c ∈ ([] : List Char), c = '\'' := nofun
  have closing : ∀ c ∈ ['\''], c = '\'' := fun _ => List.mem_singleton.mp
  induction rest generalizing text before with
  | nil =>
    rw [listTail, separable_singleton_iff]
    by_cases parted : Parted text.toList
    · rw [splitTexts_escapedBody parted, and_iff_right parted, ← listedText_eq_iff quotes closing]
      exact List.singleton_inj
    · exact iff_of_false (map_listedText_ne quotes parted) fun h => parted h.1
  | cons next rest ih =>
    rw [listTail, separable_cons_iff]
    by_cases parted : Parted text.toList
    · have cut : splitTexts ('\'' :: ',' :: '\'' :: listTail next rest) =
          [] :: splitTexts (listTail next rest) := by rw [splitTexts]
      have same : (([] : List Char) ++ ·) = (id : List Char → List Char) := rfl
      have behind : (splitTexts (listTail next rest)).map listedText = next :: rest ↔
          Separable [] next rest := by
        refine Iff.trans ?_ (ih none)
        rw [same, List.modifyHead_id, id_eq]
      rw [splitTexts_escapedBody parted, cut, List.modifyHead_cons, List.modifyHead_cons,
        List.map_cons, List.cons.injEq, behind, and_iff_right parted,
        ← listedText_eq_iff quotes none]
    · exact iff_of_false (map_listedText_ne quotes parted) fun h => parted h.1

theorem exists_listTail (text : String) (rest : List String) :
    ∃ more, listTail text rest = escapedBody text.toList ++ '\'' :: more := by
  cases rest with
  | nil => exact ⟨[], rfl⟩
  | cons next rest => exact ⟨_, rfl⟩

/-- A list is given by texts that can be told apart behind its first quote, where that quote is not
taken for the end of a text. -/
theorem listable_cons_iff {text : String} {rest : List String} :
    Listable (text :: rest) ↔ (∀ t ∈ text :: rest, ∀ c ∈ t.toList, c ≠ ')' ∧ c ≠ '\n') ∧
      (∀ after, listTail text rest ≠ ',' :: '\'' :: after) ∧ Separable ['\''] text rest := by
  obtain ⟨more, whole⟩ := exists_listTail text rest
  rw [whole]
  constructor
  · intro h
    exact ⟨h.plain, (parted_quote_iff.mp (h.opening text rfl)).2,
      { start := h.start, ending := h.ending, parted := h.parted, first := nofun, left := h.left
        right := h.right }⟩
  · rintro ⟨plain, apart, h⟩
    have opening : Parted ('\'' :: text.toList) :=
      parted_quote_iff.mpr ⟨h.parted text List.mem_cons_self, apart⟩
    exact
      { ne_nil := List.cons_ne_nil text rest, plain, start := h.start, ending := h.ending
        parted := h.parted, opening := fun t first => Option.some.inj first ▸ opening
        left := h.left, right := h.right }

/-- **A value list is read back exactly if its texts can be told apart.** -/
theorem splitTexts_map_iff {texts : List String} (filled : texts ≠ [])
    (plain : ∀ text ∈ texts, ∀ c ∈ text.toList, c ≠ ')' ∧ c ≠ '\n') :
    (splitTexts (Text.joined "," (texts.map Literal.escaped)).toList).map listedText = texts ↔
      Listable texts := by
  obtain ⟨text, rest, rfl⟩ := List.exists_cons_of_ne_nil filled
  rw [toList_joined_escaped, listable_cons_iff, and_iff_right plain]
  by_cases opened : ∃ after, listTail text rest = ',' :: '\'' :: after
  · -- the first quote is taken for the end of an empty text
    obtain ⟨after, whole⟩ := opened
    refine iff_of_false (fun same => ?_) fun h => h.1 after whole
    rw [whole, splitTexts, List.map_cons] at same
    obtain rfl : listedText [] = text := (List.cons.inj same).1
    obtain ⟨more, front⟩ := exists_listTail (listedText []) rest
    exact absurd (List.cons.inj (front.symm.trans whole)).1 (by decide)
  · rw [splitTexts_cons fun _ after same => opened ⟨after, same⟩,
      and_iff_right fun after whole => opened ⟨after, whole⟩]
    exact splitTexts_listTail_iff fun _ => List.mem_singleton.mp

theorem splitTexts_map {texts : List String} (listable : Listable texts) :
    (splitTexts (Text.joined "," (texts.map Literal.escaped)).toList).map listedText = texts :=
  (splitTexts_map_iff listable.ne_nil listable.plain).mpr listable

end SqlAccess.Ddl
