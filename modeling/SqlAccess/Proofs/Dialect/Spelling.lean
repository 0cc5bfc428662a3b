import SqlAccess.Proofs.Ddl.Quoting

/-!
# The texts that constants spell

A constant of text is read from its first quote on, in the way of the reader of table definitions.
A backslash and the character behind it stand for one character (`Ddl.escapedChar`), two quotes
stand for a quote, and a quote that is followed by no other closes the constant. `Spells` is this
reading of what stands between the quotes (`Spells.unescape_eq`), and `Literal.Denotes` asks that
the constant be closed by its last character and by none before it.

The escaped form of a text denotes the text, whatever it holds (`denotes_escaped`). The standard
form doubles quotes alone, so it is the text's backslashes that decide. Where one of them takes a
quote or the end of the text along, the constant is not closed where it ends, and denotes nothing
(`exists_denotes_standard_iff`). Where there is one at all, the constant does not denote the text
(`denotes_standard_iff`): each escape is one character less.

A text of `Value.lobThreshold` bytes or more is bound as a large object, and MySQL's dialect writes
those in the standard form. `texts_are_denoted_unless_long` says what comes of it.
-/

namespace SqlAccess

open Text

/-! ## Backslashes in front of a mark -/

/-- Does every backslash of the text take a character along that is not the mark? A backslash takes
the character behind it along, be it another backslash. -/
def Text.tame (mark : Char) : List Char → Bool
  | [] => true
  | ['\\'] => false
  | '\\' :: c :: cs => c != mark && tame mark cs
  | _ :: cs => tame mark cs

/-- A text is taken apart the way backslashes take it: in pairs where one stands, and character by
character otherwise. -/
theorem Text.escapes_induction {motive : List Char → Prop} (nil : motive []) (last : motive ['\\'])
    (escape : ∀ c cs, motive cs → motive ('\\' :: c :: cs))
    (plain : ∀ c cs, c ≠ '\\' → motive cs → motive (c :: cs)) : ∀ cs, motive cs
  | [] => nil
  | [c] => by
    by_cases slash : c = '\\'
    · exact slash ▸ last
    · exact plain c [] slash nil
  | c :: d :: cs => by
    by_cases slash : c = '\\'
    · exact slash ▸ escape d cs (escapes_induction nil last escape plain cs)
    · exact plain c (d :: cs) slash (escapes_induction nil last escape plain (d :: cs))

theorem Text.tame_escape (mark c : Char) (cs : List Char) :
    tame mark ('\\' :: c :: cs) = (c != mark && tame mark cs) := rfl

theorem Text.tame_plain (mark : Char) {c : Char} (slash : c ≠ '\\') (cs : List Char) :
    tame mark (c :: cs) = tame mark cs := by
  rw [tame]
  · exact fun same _ => slash same
  · exact fun _ _ same _ => slash same

namespace Literal

/-! ## Reading a constant -/

/-- What stands between the quotes of a constant spells the text. -/
inductive Spells : List Char → List Char → Prop
  | nil : Spells [] []
  | escape {c : Char} {body text : List Char} : Spells body text →
      Spells ('\\' :: c :: body) (Ddl.escapedChar c :: text)
  | quote {body text : List Char} : Spells body text →
      Spells ('\'' :: '\'' :: body) ('\'' :: text)
  | plain {c : Char} {body text : List Char} : c ≠ '\\' → c ≠ '\'' → Spells body text →
      Spells (c :: body) (c :: text)

/-- The SQL is a constant of the text: it opens with a quote, its last character closes it and none
before does, and what stands between spells the text. -/
def Denotes (sql text : String) : Prop :=
  ∃ body, sql.toList = enclosed body ∧ Spells body text.toList

variable {body text : List Char}

/-- The text that is spelled is the one that the reader of table definitions makes of it. -/
theorem Spells.unescape_eq (h : Spells body text) : Ddl.unescape body = text := by
  induction h with
  | nil => rfl
  | escape _ ih => rw [Ddl.unescape, ih]
  | quote _ ih => rw [Ddl.unescape, ih]
  | plain slash quote _ ih => rw [Ddl.unescape_cons slash quote, ih]

/-- **A constant denotes one text.** -/
theorem Denotes.unique {sql text text' : String} (h : Denotes sql text) (h' : Denotes sql text') :
    text = text' := by
  obtain ⟨body, same, spells⟩ := h
  obtain ⟨body', same', spells'⟩ := h'
  have bodies : body ++ ['\''] = body' ++ ['\''] := (List.cons.inj (same.symm.trans same')).2
  have texts := spells.unescape_eq
  rw [List.append_cancel_right bodies, spells'.unescape_eq] at texts
  exact String.toList_inj.mp texts.symm

theorem denotes_iff {sql : String} {body : List Char} (same : sql.toList = enclosed body)
    (text : String) : Denotes sql text ↔ Spells body text.toList := by
  constructor
  · rintro ⟨body', same', spells⟩
    have bodies : body ++ ['\''] = body' ++ ['\''] := (List.cons.inj (same.symm.trans same')).2
    rwa [List.append_cancel_right bodies]
  · exact fun spells => ⟨body, same, spells⟩

/-! ## The escaped form -/

theorem spells_escapedBody (text : List Char) : Spells (Ddl.escapedBody text) text := by
  induction text with
  | nil => exact .nil
  | cons c text ih =>
    rw [Ddl.escapedBody_cons]
    by_cases slash : c = '\\'
    · subst slash
      exact .escape ih
    · by_cases quote : c = '\''
      · subst quote
        exact .quote ih
      · rw [if_neg slash, if_neg quote]
        exact .plain slash quote ih

/-- **The escaped form of a text denotes the text.** -/
theorem denotes_escaped (text : String) : Denotes (escaped text) text :=
  ⟨Ddl.escapedBody text.toList, Ddl.toList_escaped text, spells_escapedBody text.toList⟩

/-! ## The standard form -/

/-- Behind a quote that a backslash has taken along, every further one is out of step: one of them
is left over. -/
theorem not_spells_quote_doubled (cs text : List Char) :
    ¬ Spells ('\'' :: doubled '\'' cs) text := by
  induction cs generalizing text with
  | nil =>
    intro h
    cases h with
    | plain _ quote _ => exact quote rfl
  | cons c cs ih =>
    intro h
    rw [doubled_cons] at h
    split at h
    next =>
      cases h with
      | quote inner => exact ih _ inner
      | plain _ quote _ => exact quote rfl
    next other =>
      cases h with
      | quote _ => exact other rfl
      | plain _ quote _ => exact quote rfl

theorem not_spells_backslash (text : List Char) : ¬ Spells ['\\'] text := by
  intro h
  cases h with
  | plain slash _ _ => exact slash rfl

/-- A backslash and the character behind it spell one character, unless that is a quote. -/
theorem spells_doubled_escape {c : Char} {cs text : List Char} :
    Spells (doubled '\'' ('\\' :: c :: cs)) text ↔
      c ≠ '\'' ∧ ∃ rest, text = Ddl.escapedChar c :: rest ∧ Spells (doubled '\'' cs) rest := by
  rw [doubled_cons, if_neg (by decide), doubled_cons]
  by_cases quote : c = '\''
  · rw [if_pos quote]
    constructor
    · intro h
      cases h with
      | escape inner => exact absurd inner (not_spells_quote_doubled cs _)
      | plain slash _ _ => exact absurd rfl slash
    · exact fun h => absurd quote h.1
  · rw [if_neg quote]
    constructor
    · intro h
      cases h with
      | escape inner => exact ⟨quote, _, rfl, inner⟩
      | plain slash _ _ => exact absurd rfl slash
    · rintro ⟨-, rest, rfl, inner⟩
      exact .escape inner

/-- Every character but a backslash spells itself. -/
theorem spells_doubled_plain {c : Char} {cs text : List Char} (slash : c ≠ '\\') :
    Spells (doubled '\'' (c :: cs)) text ↔
      ∃ rest, text = c :: rest ∧ Spells (doubled '\'' cs) rest := by
  rw [doubled_cons]
  by_cases quote : c = '\''
  · subst quote
    rw [if_pos rfl]
    constructor
    · intro h
      cases h with
      | quote inner => exact ⟨_, rfl, inner⟩
      | plain _ quote _ => exact absurd rfl quote
    · rintro ⟨rest, rfl, inner⟩
      exact .quote inner
  · rw [if_neg quote, List.singleton_append]
    generalize doubled '\'' cs = behind
    constructor
    · intro h
      cases h with
      | escape _ => exact absurd rfl slash
      | quote _ => exact absurd rfl quote
      | plain _ _ inner => exact ⟨_, rfl, inner⟩
    · rintro ⟨rest, rfl, inner⟩
      exact .plain slash quote inner

/-- **Doubling quotes closes a constant** exactly when no backslash takes a quote along. -/
theorem exists_spells_doubled_iff {cs : List Char} :
    (∃ text, Spells (doubled '\'' cs) text) ↔ tame '\'' cs = true := by
  induction cs using escapes_induction with
  | nil => exact ⟨fun _ => rfl, fun _ => ⟨[], .nil⟩⟩
  | last => exact ⟨fun ⟨text, h⟩ => absurd h (not_spells_backslash text), fun h => nomatch h⟩
  | escape c cs ih =>
    rw [tame_escape, Bool.and_eq_true, bne_iff_ne, ← ih]
    simp only [spells_doubled_escape]
    constructor
    · rintro ⟨_, quote, rest, -, inner⟩
      exact ⟨quote, rest, inner⟩
    · rintro ⟨quote, rest, inner⟩
      exact ⟨_, quote, rest, rfl, inner⟩
  | plain c cs slash ih =>
    rw [tame_plain '\'' slash, ← ih]
    simp only [spells_doubled_plain slash]
    constructor
    · rintro ⟨_, rest, -, inner⟩
      exact ⟨rest, inner⟩
    · rintro ⟨rest, inner⟩
      exact ⟨_, rest, rfl, inner⟩

/-- What doubling quotes spells is no longer than the text, and shorter if the text has a
backslash. -/
theorem Spells.length_of_doubled {cs text : List Char} (h : Spells (doubled '\'' cs) text) :
    text.length ≤ cs.length ∧ ('\\' ∈ cs → text.length < cs.length) := by
  induction cs using escapes_induction generalizing text with
  | nil =>
    cases h
    exact ⟨Nat.le_refl _, fun member => nomatch member⟩
  | last => exact absurd h (not_spells_backslash text)
  | escape c cs ih =>
    obtain ⟨-, rest, rfl, inner⟩ := spells_doubled_escape.mp h
    have bound := (ih inner).1
    simp only [List.length_cons]
    omega
  | plain c cs slash ih =>
    obtain ⟨rest, rfl, inner⟩ := (spells_doubled_plain slash).mp h
    obtain ⟨bound, shorter⟩ := ih inner
    refine ⟨Nat.succ_le_succ bound, fun member => Nat.succ_lt_succ (shorter ?_)⟩
    exact (List.mem_cons.mp member).resolve_left (Ne.symm slash)

/-- **Doubling quotes spells the text itself** exactly when the text has no backslash. -/
theorem spells_doubled_iff {cs : List Char} : Spells (doubled '\'' cs) cs ↔ '\\' ∉ cs := by
  constructor
  · intro h member
    exact Nat.lt_irrefl _ (h.length_of_doubled.2 member)
  · intro absent
    induction cs with
    | nil => exact .nil
    | cons c cs ih =>
      rw [List.mem_cons, not_or] at absent
      exact (spells_doubled_plain (Ne.symm absent.1)).mpr ⟨cs, rfl, ih absent.2⟩

theorem toList_standard (text : String) :
    (standard text).toList = enclosed (doubled '\'' text.toList) :=
  String.toList_ofList

/-- The standard form of a text is a constant of some text as long as no backslash of it takes a
quote along. -/
theorem exists_denotes_standard_iff {text : String} :
    (∃ other, Denotes (standard text) other) ↔ tame '\'' text.toList = true := by
  simp only [denotes_iff (toList_standard text), ← exists_spells_doubled_iff]
  exact ⟨fun ⟨other, h⟩ => ⟨_, h⟩, fun ⟨cs, h⟩ =>
    ⟨String.ofList cs, by rwa [String.toList_ofList]⟩⟩

/-- **The standard form of a text denotes the text** as long as it has no backslash. -/
theorem denotes_standard_iff {text : String} :
    Denotes (standard text) text ↔ '\\' ∉ text.toList := by
  rw [denotes_iff (toList_standard text), spells_doubled_iff]

end Literal

/-! ## The constant of a text -/

theorem fromUTF8?_toUTF8 (s : String) : String.fromUTF8? s.toUTF8 = some s := by
  have valid : s.toUTF8.IsValidUTF8 := s.isValidUTF8
  rw [String.fromUTF8?, dif_pos valid]
  rfl

/-- MySQL's dialect escapes a short text, and writes a long one in the standard form. -/
theorem Dialect.literal_ofText (s : String) : Dialect.mysql.literal (.ofText s) =
    if s.utf8ByteSize < Value.lobThreshold then Literal.escaped s else Literal.standard s := by
  unfold Value.ofText
  by_cases long : Value.lobThreshold ≤ s.utf8ByteSize
  · rw [if_pos long, if_neg (Nat.not_lt.mpr long)]
    change Value.inline (.lob s.toUTF8) = _
    rw [Value.inline, fromUTF8?_toUTF8]
  · rw [if_neg long, if_pos (Nat.not_le.mp long)]
    rfl

/-- **A text is denoted by its constant unless it is long.** Of every text that is shorter than
`Value.lobThreshold`, MySQL's constant denotes the text. From that size on it is a constant of any
text only if no backslash takes a quote or the end along, and of the text itself only if there is no
backslash. -/
theorem texts_are_denoted_unless_long (s : String) :
    ((∃ text, Literal.Denotes (Dialect.mysql.literal (.ofText s)) text) ↔
      s.utf8ByteSize < Value.lobThreshold ∨ tame '\'' s.toList = true) ∧
    (Literal.Denotes (Dialect.mysql.literal (.ofText s)) s ↔
      s.utf8ByteSize < Value.lobThreshold ∨ '\\' ∉ s.toList) := by
  rw [Dialect.literal_ofText]
  by_cases short : s.utf8ByteSize < Value.lobThreshold
  · rw [if_pos short]
    have denotes := Literal.denotes_escaped s
    exact ⟨⟨fun _ => .inl short, fun _ => ⟨s, denotes⟩⟩, ⟨fun _ => .inl short, fun _ => denotes⟩⟩
  · rw [if_neg short, Literal.exists_denotes_standard_iff, Literal.denotes_standard_iff]
    simp only [short, false_or, and_self]

/-! ## A long text with a backslash in front of a quote -/

theorem Text.length_le_utf8ByteSize (cs : List Char) :
    cs.length ≤ (String.ofList cs).utf8ByteSize := by
  induction cs with
  | nil => exact Nat.zero_le _
  | cons c cs ih =>
    have positive := c.utf8Size_pos
    rw [String.ofList_cons, String.utf8ByteSize_append, String.utf8ByteSize_singleton,
      List.length_cons]
    omega

/-- A backslash and a quote, as often as it takes to be long. -/
def Value.quotesBehindBackslashes : List Char :=
  (List.replicate 2560 ['\\', '\'']).flatten

/-- Its constant is closed by its third quote already, behind the first pair, and so denotes
nothing. -/
theorem long_text_closes_its_constant :
    ¬ ∃ text, Literal.Denotes
      (Dialect.mysql.literal (.ofText (String.ofList Value.quotesBehindBackslashes))) text := by
  have long : Value.lobThreshold ≤ (String.ofList Value.quotesBehindBackslashes).utf8ByteSize := by
    have length : Value.quotesBehindBackslashes.length = Value.lobThreshold := by
      rw [Value.quotesBehindBackslashes, List.length_flatten, List.map_replicate,
        List.sum_replicate_nat]
      rfl
    rw [← length]
    exact Text.length_le_utf8ByteSize _
  rw [Dialect.literal_ofText, if_neg (Nat.not_lt.mpr long), Literal.exists_denotes_standard_iff,
    String.toList_ofList, Value.quotesBehindBackslashes, List.replicate_succ, List.flatten_cons]
  exact Bool.false_ne_true

end SqlAccess
