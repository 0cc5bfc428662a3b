import SqlAccess.Proofs.Dialect.Spelling
import SqlAccess.Proofs.Params.Region

/-!
# Portable names and constants under positional rewriting

Portable SQL escapes by doubling alone: an identifier stands between double quotes and a constant of
text between single ones, with every such quote inside written twice. Positional rewriting reads the
same quotes, and there a backslash takes the character behind it along, as it does for MySQL.
Doubled quotes agree with both, because a quote that closes and a quote that opens come to the same;
it is the backslashes that do not.

A text is *enclosed* if it is read, in front of any other, as quoted regions that are closed, with
dots and stars between them. It *passes* if rewriting a statement that it starts is rewriting the
rest. What is enclosed passes (`Enclosed.passes`). Quoted text is enclosed as long as no backslash
of it takes a quote along or stands at the end (`Text.tame`): then the quotes that the text itself
has are doubled, and the others are its own.

Where a backslash does, quotes open where they ought to close from there on, whatever other quotes
the text has (`leads_of_not_tame`), and they are still open at the end. What follows is then hidden
between quotes, placeholders included, so the text does not pass (`not_passes_of_leads`).
-/

namespace SqlAccess

open Piece Text

/-- Is the region quoted text, or a character that stands between the quoted parts of a name? -/
def Region.isNamePart : Region → Bool
  | .quoted _ => true
  | .other c => c == '.' || c == '*'
  | .placeholder _ => false

/-- In front of any text, this one is read as closed quotes, dots and stars, and the other for
itself. -/
def Enclosed (text : List Char) : Prop :=
  ∃ regions : List Region, (∀ region ∈ regions, region.isNamePart = true) ∧
    ∀ rest others, CutsInto rest others → CutsInto (text ++ rest) (regions ++ others)

/-- In front of any statement, under any table, the text is kept as it is, and brings no values. -/
def Passes (text : String) : Prop :=
  ∀ (p : Params) (rest : String), p.toPositional (text ++ rest) =
    (p.toPositional rest).map fun filled => (text ++ filled.1, filled.2)

/-! ## Enclosed texts -/

namespace Enclosed

variable {text text' : List Char}

theorem nil : Enclosed [] :=
  ⟨[], fun _ member => (nomatch member), fun _ _ cut => cut⟩

theorem append (first : Enclosed text) (second : Enclosed text') : Enclosed (text ++ text') := by
  obtain ⟨regions, parts, cuts⟩ := first
  obtain ⟨regions', parts', cuts'⟩ := second
  refine ⟨regions ++ regions', fun region member => ?_, fun rest others cut => ?_⟩
  · exact (List.mem_append.mp member).elim (parts region) (parts' region)
  · rw [List.append_assoc, List.append_assoc]
    exact cuts _ _ (cuts' rest others cut)

theorem singleton {c : Char} (between : c = '.' ∨ c = '*') : Enclosed [c] := by
  refine ⟨[.other c], fun region member => ?_, fun rest others cut => ?_⟩
  · rw [List.mem_singleton.mp member]
    rcases between with rfl | rfl <;> rfl
  · rcases between with rfl | rfl
    · exact .other rfl (fun same => nomatch same) cut
    · exact .other rfl (fun same => nomatch same) cut

theorem names_eq_nil {regions : List Region}
    (parts : ∀ region ∈ regions, region.isNamePart = true) : Region.names regions = [] := by
  refine List.filterMap_eq_nil_iff.mpr fun region member => ?_
  cases region with
  | quoted _ => rfl
  | other _ => rfl
  | placeholder _ => exact absurd (parts _ member) Bool.false_ne_true

theorem map_marked_eq {regions : List Region}
    (parts : ∀ region ∈ regions, region.isNamePart = true) :
    regions.map Region.marked = regions := by
  refine (List.map_congr_left fun region member => ?_).trans (List.map_id regions)
  cases region with
  | quoted _ => rfl
  | other _ => rfl
  | placeholder _ => exact absurd (parts _ member) Bool.false_ne_true

/-- **What is enclosed passes.** -/
theorem passes {text : String} (h : Enclosed text.toList) : Passes text := by
  obtain ⟨regions, parts, cuts⟩ := h
  intro p rest
  obtain ⟨others, cut⟩ := exists_cutsInto rest.toList
  have whole := cuts rest.toList others cut
  have own : Region.textOf regions = text.toList := by
    have same := whole.textOf_eq
    rw [Region.textOf, List.flatMap_append] at same
    exact List.append_cancel_right (same.trans (congrArg _ cut.textOf_eq.symm))
  have names : Region.names (regions ++ others) = Region.names others := by
    rw [Region.names, List.filterMap_append]
    exact congrArg (· ++ _) (names_eq_nil parts)
  have marked : Region.textOf ((regions ++ others).map Region.marked) =
      text.toList ++ Region.textOf (others.map Region.marked) := by
    rw [List.map_append, map_marked_eq parts, Region.textOf, List.flatMap_append]
    exact congrArg (· ++ _) own
  rw [← String.toList_append] at whole
  rw [p.toPositional_of_cutsInto whole, p.toPositional_of_cutsInto cut, names, marked]
  cases (Region.names others).find? fun name => !p.contains name with
  | some name => rfl
  | none => rw [String.ofList_append, String.ofList_toList]; rfl

end Enclosed

/-! ## Quotes that are closed -/

section Quotes

variable {quote : Char} {front body : List Char}

theorem Inside.append (first : Inside quote front) (second : Inside quote body) :
    Inside quote (front ++ body) := by
  induction first with
  | nil => exact second
  | plain other unescaped _ ih => exact .plain other unescaped ih
  | escape escapes _ ih => exact .escape escapes ih

/-- Behind text that stays between the quotes, tame text with its quotes doubled is read as regions
that are closed where the text ends. -/
theorem exists_regions_doubled (quotes : isQuote quote = true) (escapes : quote ≠ '\x60')
    (tamed : tame quote body = true) (inside : Inside quote front) :
    ∃ regions : List Region, (∀ region ∈ regions, region.isNamePart = true) ∧
      ∀ rest others, CutsInto rest others →
        CutsInto (quote :: (front ++ (doubled quote body ++ quote :: rest)))
          (regions ++ others) := by
  have other : quote ≠ '\\' := ne_backslash_of_isQuote quotes
  -- The text that has been read since the last quote is collected in front.
  induction body using escapes_induction generalizing front with
  | nil =>
    refine ⟨[.quoted (quote :: (front ++ [quote]))], fun region member => ?_,
      fun rest others cut => ?_⟩
    · rw [List.mem_singleton.mp member]
      rfl
    · exact .quoted quotes inside cut
  | last => cases tamed
  | escape c cs ih =>
    rw [tame_escape, Bool.and_eq_true, bne_iff_ne] at tamed
    obtain ⟨regions, parts, cuts⟩ := ih tamed.2 (inside.append (.escape escapes .nil))
    refine ⟨regions, parts, fun rest others cut => ?_⟩
    have whole := cuts rest others cut
    rw [doubled_cons, if_neg (Ne.symm other), doubled_cons, if_neg tamed.1]
    rwa [List.append_assoc] at whole
  | plain c cs slash ih =>
    rw [tame_plain quote slash] at tamed
    rw [doubled_cons]
    by_cases same : c = quote
    · subst same
      obtain ⟨regions, parts, cuts⟩ := ih tamed .nil
      refine ⟨.quoted (c :: (front ++ [c])) :: regions, fun region member => ?_,
        fun rest others cut => ?_⟩
      · rcases List.mem_cons.mp member with rfl | later
        · rfl
        · exact parts region later
      · rw [if_pos rfl]
        exact .quoted quotes inside (cuts rest others cut)
    · obtain ⟨regions, parts, cuts⟩ := ih tamed
        (inside.append (.plain same (fun slash' => absurd slash' slash) .nil))
      refine ⟨regions, parts, fun rest others cut => ?_⟩
      have whole := cuts rest others cut
      rw [if_neg same]
      rwa [List.append_assoc] at whole

theorem enclosed_doubled (quotes : isQuote quote = true) (escapes : quote ≠ '\x60')
    (tamed : tame quote body = true) : Enclosed (quote :: doubled quote body ++ [quote]) := by
  obtain ⟨regions, parts, cuts⟩ := exists_regions_doubled quotes escapes tamed .nil
  refine ⟨regions, parts, fun rest others cut => ?_⟩
  rw [List.append_assoc]
  exact cuts rest others cut

end Quotes

/-! ## Quotes that are left open -/

namespace Piece

/-- Reading the text, in front of the rest, leads from the one context to one of the given kind. -/
def Leads (context : Context) (text rest : List Char) (kind : Context → Prop) : Prop :=
  ∃ pieces context', kind context' ∧
    cut context (text ++ rest) = pieces ++ cut context' rest

/-- Outside quotes of the given kind, but maybe between others. -/
inductive Context.Astray (quote : Char) : Context → Prop
  | outside : Astray quote .outside
  | naming : Astray quote .naming
  | quoted {other : Char} : isQuote other = true → other ≠ quote → Astray quote (.quoted other)
  | hidden {other : Char} : isQuote other = true → other ≠ quote → Astray quote (.hidden other)

/-- Between quotes of any kind. -/
def Context.Between (context : Context) : Prop :=
  ∃ quote, isQuote quote = true ∧ context = .quoted quote

variable {quote : Char} {context : Context} {text text' rest : List Char}
  {kind kind' : Context → Prop}

theorem Leads.trans (first : Leads context text (text' ++ rest) kind)
    (second : ∀ context', kind context' → Leads context' text' rest kind') :
    Leads context (text ++ text') rest kind' := by
  obtain ⟨pieces, context', met, same⟩ := first
  obtain ⟨pieces', context'', met', same'⟩ := second context' met
  refine ⟨pieces ++ pieces', context'', met', ?_⟩
  rw [List.append_assoc, same, same', List.append_assoc]

/-- Behind an enclosed text, reading stands outside quotes. -/
theorem leads_of_enclosed (h : Enclosed text) (rest : List Char) :
    Leads .outside text rest (· = .outside) := by
  obtain ⟨regions, -, cuts⟩ := h
  obtain ⟨others, cut⟩ := exists_cutsInto rest
  refine ⟨regions.flatMap Region.pieces, .outside, rfl, ?_⟩
  rw [(cuts rest others cut).cut_eq, cut.cut_eq, List.flatMap_append]

theorem inName_of_isQuote (quotes : isQuote quote = true) : inName quote = false := by
  simp only [isQuote, Bool.or_eq_true, beq_iff_eq] at quotes
  rcases quotes with (rfl | rfl) | rfl <;> decide

theorem start_of_isQuote (quotes : isQuote quote = true) (rest : List Char) :
    start quote rest = (.char quote, .quoted quote) := by
  rw [start, if_pos quotes]

/-- Between quotes, a character that neither closes them nor is a backslash changes nothing. -/
theorem leads_quoted {c : Char} (slash : c ≠ '\\') (other : c ≠ quote) (rest : List Char) :
    Leads (.quoted quote) [c] rest (· = .quoted quote) := by
  refine ⟨[.char c], .quoted quote, rfl, ?_⟩
  rw [List.singleton_append, cut, if_neg fun both => slash both.1, if_neg other]
  rfl

/-- A quote closes the quotes of its kind. -/
theorem leads_close (quotes : isQuote quote = true) (rest : List Char) :
    Leads (.quoted quote) [quote] rest (· = .outside) := by
  have slash := ne_backslash_of_isQuote quotes
  refine ⟨[.char quote], .outside, rfl, ?_⟩
  rw [List.singleton_append, cut, if_neg fun both => slash both.1, if_pos rfl]
  rfl

/-- A quote outside quotes opens them. -/
theorem leads_open (quotes : isQuote quote = true) (rest : List Char) :
    Leads .outside [quote] rest (· = .quoted quote) := by
  refine ⟨[.char quote], .quoted quote, rfl, ?_⟩
  rw [List.singleton_append, cut, start_of_isQuote quotes]
  rfl

/-- Quotes that are closed and opened again are as before. -/
theorem leads_reopen (quotes : isQuote quote = true) (rest : List Char) :
    Leads (.quoted quote) [quote, quote] rest (· = .quoted quote) := by
  change Leads _ ([quote] ++ [quote]) rest _
  refine (leads_close quotes _).trans ?_
  rintro _ rfl
  exact leads_open quotes rest

/-- Behind a backslash, any character is taken along. -/
theorem leads_escape (escapes : quote ≠ '\x60') (c : Char) (rest : List Char) :
    Leads (.quoted quote) ['\\', c] rest (· = .quoted quote) := by
  refine ⟨[.char '\\', .char c], .quoted quote, rfl, ?_⟩
  change cut (.quoted quote) ('\\' :: c :: rest) = _
  rw [cut, if_pos ⟨rfl, escapes⟩, cut]
  rfl

namespace Context

theorem astray_start {c : Char} (other : c ≠ quote) (rest : List Char) :
    Astray quote (start c rest).2 := by
  unfold start
  split
  next quotes => exact .quoted quotes other
  next =>
    split
    next => exact .naming
    next => exact .outside

/-- Outside the quotes, another character does not lead between them. -/
theorem Astray.pass (h : Astray quote context) {c : Char} (other : c ≠ quote) (rest : List Char) :
    Leads context [c] rest (Astray quote) := by
  cases h with
  | outside => exact ⟨[_], _, astray_start other rest, rfl⟩
  | naming =>
    by_cases named : inName c = true
    · exact ⟨[], .naming, .naming, by rw [List.singleton_append, cut, if_pos named]; rfl⟩
    · exact ⟨[_], _, astray_start other rest, by rw [List.singleton_append, cut, if_neg named]; rfl⟩
  | quoted quotes differs =>
    refine ⟨[.char c], _, ?_, rfl⟩
    split
    next => exact .hidden quotes differs
    next =>
      split
      next => exact .outside
      next => exact .quoted quotes differs
  | hidden quotes differs => exact ⟨[.char c], _, .quoted quotes differs, rfl⟩

/-- Outside the quotes, the quote opens them, or is one character between others. -/
theorem Astray.atQuote (h : Astray quote context) (quotes : isQuote quote = true)
    (rest : List Char) : Leads context [quote] rest Between := by
  have slash := ne_backslash_of_isQuote quotes
  have opens := start_of_isQuote quotes rest
  cases h with
  | outside =>
    refine ⟨[.char quote], _, ⟨quote, quotes, rfl⟩, ?_⟩
    rw [List.singleton_append, cut, opens]
    rfl
  | naming =>
    refine ⟨[.char quote], _, ⟨quote, quotes, rfl⟩, ?_⟩
    rw [List.singleton_append, cut, inName_of_isQuote quotes, if_neg Bool.false_ne_true, opens]
    rfl
  | quoted quotes' differs =>
    obtain ⟨pieces, _, rfl, same⟩ := leads_quoted slash differs.symm rest
    exact ⟨pieces, _, ⟨_, quotes', rfl⟩, same⟩
  | hidden quotes' differs => exact ⟨[.char quote], _, ⟨_, quotes', rfl⟩, rfl⟩

/-- Between quotes, the quote closes them if they are its own. -/
theorem Between.atQuote (h : Between context) (quotes : isQuote quote = true) (rest : List Char) :
    Leads context [quote] rest (Astray quote) := by
  obtain ⟨other, quotes', rfl⟩ := h
  by_cases same : other = quote
  · subst same
    obtain ⟨pieces, _, rfl, cuts⟩ := leads_close quotes rest
    exact ⟨pieces, _, .outside, cuts⟩
  · obtain ⟨pieces, _, rfl, cuts⟩ :=
      leads_quoted (ne_backslash_of_isQuote quotes) (Ne.symm same) rest
    exact ⟨pieces, _, .quoted quotes' same, cuts⟩

/-- Two quotes, read from outside them, lead back there. -/
theorem Astray.twice (h : Astray quote context) (quotes : isQuote quote = true)
    (rest : List Char) : Leads context [quote, quote] rest (Astray quote) := by
  change Leads _ ([quote] ++ [quote]) rest _
  exact (h.atQuote quotes _).trans fun _ met => met.atQuote quotes rest

/-- Between quotes, a character that is no quote changes nothing. -/
theorem Between.pass (h : Between context) {c : Char} (slash : c ≠ '\\')
    (unquoted : isQuote c = false) (rest : List Char) : Leads context [c] rest Between := by
  obtain ⟨quote, quotes, rfl⟩ := h
  have other : c ≠ quote := by
    rintro rfl
    exact absurd (quotes.symm.trans unquoted) Bool.noConfusion
  obtain ⟨pieces, _, rfl, cuts⟩ := leads_quoted slash other rest
  exact ⟨pieces, _, ⟨quote, quotes, rfl⟩, cuts⟩

/-- Quotes that are doubled and one more, read from outside them, lead between quotes. -/
theorem Astray.doubled (h : Astray quote context) (quotes : isQuote quote = true)
    (body rest : List Char) : Leads context (doubled quote body ++ [quote]) rest Between := by
  induction body generalizing context with
  | nil => exact h.atQuote quotes rest
  | cons c body ih =>
    rw [doubled_cons, List.append_assoc]
    by_cases same : c = quote
    · rw [if_pos same]
      exact (h.twice quotes _).trans fun context' met => ih met
    · rw [if_neg same]
      exact (h.pass same _).trans fun context' met => ih met

end Context

open Context

/-- **A backslash that takes a quote along leaves quotes open.** Text that is not tame leads from
where it is quoted to between quotes again, of its own kind or of another. -/
theorem leads_of_not_tame (quotes : isQuote quote = true) (escapes : quote ≠ '\x60')
    {body : List Char} (wild : tame quote body = false) (rest : List Char) :
    Leads (.quoted quote) (doubled quote body ++ [quote]) rest Between := by
  have other : '\\' ≠ quote := (ne_backslash_of_isQuote quotes).symm
  induction body using escapes_induction with
  | nil => cases wild
  | last =>
    rw [doubled_cons, if_neg other]
    obtain ⟨pieces, _, rfl, cuts⟩ := leads_escape escapes quote rest
    exact ⟨pieces, _, ⟨quote, quotes, rfl⟩, cuts⟩
  | escape c cs ih =>
    by_cases same : c = quote
    · -- The second of the two quotes closes, and all that follow are out of step.
      subst same
      rw [doubled_cons, if_neg other, doubled_cons, if_pos rfl]
      change Leads _ (['\\', c] ++ ([c] ++ (doubled c cs ++ [c]))) rest _
      refine (leads_escape escapes c _).trans ?_
      rintro _ rfl
      refine (leads_close quotes _).trans ?_
      rintro _ rfl
      exact Astray.outside.doubled quotes cs rest
    · rw [tame_escape, bne_iff_ne.mpr same, Bool.true_and] at wild
      rw [doubled_cons, if_neg other, doubled_cons, if_neg same]
      change Leads _ (['\\', c] ++ (doubled quote cs ++ [quote])) rest _
      refine (leads_escape escapes c _).trans ?_
      rintro _ rfl
      exact ih wild
  | plain c cs slash ih =>
    rw [tame_plain quote slash] at wild
    rw [doubled_cons, List.append_assoc]
    by_cases same : c = quote
    · subst same
      rw [if_pos rfl]
      refine (leads_reopen quotes _).trans ?_
      rintro _ rfl
      exact ih wild
    · rw [if_neg same]
      refine (leads_quoted slash same _).trans ?_
      rintro _ rfl
      exact ih wild

/-- Text that is not tame, with its quotes around it, leads between quotes. -/
theorem leads_quotes_of_not_tame (quotes : isQuote quote = true) (escapes : quote ≠ '\x60')
    {body : List Char} (wild : tame quote body = false) (rest : List Char) :
    Leads .outside (quote :: doubled quote body ++ [quote]) rest Between := by
  change Leads _ ([quote] ++ (doubled quote body ++ [quote])) rest _
  refine (leads_open quotes _).trans ?_
  rintro _ rfl
  exact leads_of_not_tame quotes escapes wild rest

/-! ## Names -/

theorem leads_part_of_not_tame (quotes : isQuote quote = true) (escapes : quote ≠ '\x60')
    {piece : List Char} (wild : tame quote piece = false) (rest : List Char) :
    Leads .outside (Identifier.part quote piece) rest Between := by
  have other : piece ≠ ['*'] := by
    rintro rfl
    cases wild
  rw [Identifier.part, if_neg other]
  exact leads_quotes_of_not_tame quotes escapes wild rest

/-- Once quotes are open where a name goes on, they are open at the end of its next part. -/
theorem Context.Between.part (h : Between context) (quotes : isQuote quote = true)
    (piece rest : List Char) : Leads context (Identifier.part quote piece) rest Between := by
  unfold Identifier.part
  split
  next star =>
    rw [star]
    exact h.pass (by decide) rfl rest
  next =>
    change Leads _ ([quote] ++ (doubled quote piece ++ [quote])) rest _
    exact (h.atQuote quotes _).trans fun _ met => met.doubled quotes piece rest

theorem Context.Between.joined (h : Between context) (quotes : isQuote quote = true)
    (pieces : List (List Char)) (rest : List Char) :
    Leads context (['.'].intercalate (pieces.map (Identifier.part quote))) rest Between := by
  induction pieces generalizing context with
  | nil => exact ⟨[], context, h, rfl⟩
  | cons piece pieces ih =>
    cases pieces with
    | nil =>
      rw [List.map_singleton, List.intercalate_singleton]
      exact h.part quotes piece rest
    | cons next pieces =>
      rw [List.map_cons, List.map_cons, List.intercalate_cons_cons, List.append_assoc]
      refine (h.part quotes piece _).trans fun context' met => ?_
      exact Leads.trans (met.pass (by decide) rfl _) fun context'' met' => ih met'

end Piece

/-! ## What does not pass -/

/-- The key that a placeholder names. -/
def Piece.key? : Piece → Option String
  | .placeholder name => some (String.ofList name)
  | .char _ => none

namespace Params

/-- Pieces whose placeholders are all bound can be filled. -/
theorem exists_fill {p : Params} {pieces : List Piece}
    (bound : ∀ name, .placeholder name ∈ pieces → p.contains (String.ofList name) = true) :
    ∃ text values, p.fill pieces = .ok (text, values) := by
  induction pieces with
  | nil => exact ⟨[], [], rfl⟩
  | cons piece pieces ih =>
    obtain ⟨text, values, filled⟩ :=
      ih fun name member => bound name (List.mem_cons_of_mem _ member)
    cases piece with
    | char c => exact ⟨c :: text, values, by rw [Params.fill, filled]; rfl⟩
    | placeholder name =>
      obtain ⟨value, found⟩ := Option.isSome_iff_exists.mp (bound name List.mem_cons_self)
      exact ⟨'?' :: text, value :: values, by rw [Params.fill, found, filled]; rfl⟩

/-- There is a table that binds all the names. -/
theorem exists_contains (names : List String) :
    ∃ p : Params, ∀ name ∈ names, p.contains name = true := by
  refine ⟨⟨names.map fun name => (mark name, .null)⟩, fun name member => ?_⟩
  rw [contains, get?, Option.isSome_iff_ne_none, ne_eq, lookup_eq_none_iff, not_not, List.map_map]
  exact List.mem_map_of_mem member

/-- There is a table that fills the pieces, whatever they name, and binds one key more. -/
theorem exists_contains_fill (key : String) (pieces : List Piece) :
    ∃ p : Params, p.contains key = true ∧ ∃ text values, p.fill pieces = .ok (text, values) := by
  obtain ⟨p, bound⟩ := exists_contains (key :: pieces.filterMap Piece.key?)
  refine ⟨p, bound key List.mem_cons_self, exists_fill fun name member => ?_⟩
  exact bound _ (List.mem_cons_of_mem _ (List.mem_filterMap.mpr ⟨_, member, rfl⟩))

end Params

/-- A text that leads between quotes hides what follows it, and so does not pass. -/
theorem not_passes_of_leads {text : String}
    (hides : Leads .outside text.toList [':', 'a'] Context.Between) : ¬ Passes text := by
  intro passes
  obtain ⟨pieces, _, ⟨quote, quotes, rfl⟩, cuts⟩ := hides
  have hidden : cut (.quoted quote) [':', 'a'] = [':', 'a'].map .char := by
    have colon : ':' ≠ quote := by
      rintro rfl
      cases quotes
    rw [cut, if_neg fun both => absurd both.1 (by decide), if_neg colon]
    rfl
  -- Whatever is read as a placeholder has to be bound, or rewriting fails.
  obtain ⟨p, bound, out, values, filled⟩ := Params.exists_contains_fill ":a" pieces
  obtain ⟨value, found⟩ := Option.isSome_iff_exists.mp bound
  have whole : p.toPositional (text ++ ":a") =
      .ok (String.ofList (out ++ [':', 'a']), values ++ []) := by
    rw [Params.toPositional, String.toList_append]
    change (do let filled ← p.fill (cut .outside (text.toList ++ [':', 'a'])); _) = _
    rw [cuts, hidden, Params.fill_append filled (p.fill_chars [':', 'a'])]
    rfl
  have marked : p.toPositional ":a" = .ok ("?", [value]) := by
    change (do let filled ← p.fill [.placeholder ":a".toList]; _) = _
    rw [Params.fill, String.ofList_toList, found]
    rfl
  have same := passes p ":a"
  rw [whole, marked] at same
  have texts := congrArg String.toList (Prod.mk.inj (Except.ok.inj same)).1
  have ends := congrArg List.getLast? texts
  simp at ends

/-- A text that is enclosed under some condition, and leads between quotes otherwise, is enclosed
and passes exactly under that condition. -/
theorem enclosed_and_passes_iff {text : String} {condition : Prop}
    (closes : condition → Enclosed text.toList)
    (hides : ¬ condition → Leads .outside text.toList [':', 'a'] Context.Between) :
    (Enclosed text.toList ↔ condition) ∧ (Passes text ↔ condition) := by
  have needed : Passes text → condition := fun passes =>
    Classical.byContradiction fun fails => not_passes_of_leads (hides fails) passes
  exact ⟨⟨fun enclosed => needed enclosed.passes, closes⟩,
    ⟨needed, fun met => (closes met).passes⟩⟩

/-! ## Portable names and constants -/

section Names

variable {quote : Char} {piece : List Char} {pieces : List (List Char)}

theorem enclosed_part (quotes : isQuote quote = true) (escapes : quote ≠ '\x60')
    (tamed : tame quote piece = true) : Enclosed (Identifier.part quote piece) := by
  unfold Identifier.part
  split
  next star =>
    rw [star]
    exact .singleton (.inr rfl)
  next => exact enclosed_doubled quotes escapes tamed

theorem enclosed_joined (quotes : isQuote quote = true) (escapes : quote ≠ '\x60')
    (tamed : ∀ piece ∈ pieces, tame quote piece = true) :
    Enclosed (['.'].intercalate (pieces.map (Identifier.part quote))) := by
  induction pieces with
  | nil => exact .nil
  | cons piece pieces ih =>
    have first := enclosed_part quotes escapes (tamed piece List.mem_cons_self)
    have others := ih fun next member => tamed next (List.mem_cons_of_mem piece member)
    cases pieces with
    | nil =>
      rw [List.map_singleton, List.intercalate_singleton]
      exact first
    | cons next pieces =>
      rw [List.map_cons, List.map_cons, List.intercalate_cons_cons, List.append_assoc]
      exact first.append ((Enclosed.singleton (.inl rfl)).append others)

theorem leads_joined_of_not_tame (quotes : isQuote quote = true) (escapes : quote ≠ '\x60')
    (wild : ¬ ∀ piece ∈ pieces, tame quote piece = true) (rest : List Char) :
    Leads .outside (['.'].intercalate (pieces.map (Identifier.part quote))) rest
      Context.Between := by
  induction pieces with
  | nil => exact absurd (fun _ member => nomatch member) wild
  | cons piece pieces ih =>
    cases tamed : tame quote piece with
    | true =>
      have first := enclosed_part quotes escapes tamed
      cases pieces with
      | nil =>
        refine absurd (fun other member => ?_) wild
        rwa [List.mem_singleton.mp member]
      | cons next pieces =>
        have later : ¬ ∀ piece ∈ next :: pieces, tame quote piece = true := fun all =>
          wild (List.forall_mem_cons.mpr ⟨tamed, all⟩)
        rw [List.map_cons, List.map_cons, List.intercalate_cons_cons, List.append_assoc]
        refine (leads_of_enclosed first _).trans ?_
        rintro _ rfl
        refine Leads.trans (leads_of_enclosed (.singleton (.inl rfl)) _) ?_
        rintro _ rfl
        exact ih later
    | false =>
      have opened := fun rest => leads_part_of_not_tame quotes escapes tamed rest
      cases pieces with
      | nil =>
        rw [List.map_singleton, List.intercalate_singleton]
        exact opened rest
      | cons next pieces =>
        rw [List.map_cons, List.map_cons, List.intercalate_cons_cons, List.append_assoc]
        refine (opened _).trans fun context met => ?_
        exact Leads.trans (met.pass (by decide) rfl _) fun _ met' =>
          met'.joined quotes (next :: pieces) rest

end Names

/-- **Portable names and constants pass as long as no backslash takes a quote along.** The
identifier of a name is enclosed, and passes, exactly if each part of the name between dots is tame,
and the constant of a text exactly if the text is. -/
theorem portable_quotes_pass_if_tame (name s : String) :
    ((Enclosed (Dialect.generic.identifier name).toList ↔
        ∀ piece ∈ name.toList.splitOn '.', tame '"' piece = true) ∧
      (Passes (Dialect.generic.identifier name) ↔
        ∀ piece ∈ name.toList.splitOn '.', tame '"' piece = true)) ∧
    (Enclosed (Dialect.generic.literal (.text s)).toList ↔ tame '\'' s.toList = true) ∧
      (Passes (Dialect.generic.literal (.text s)) ↔ tame '\'' s.toList = true) := by
  constructor
  · refine enclosed_and_passes_iff (fun tamed => ?_) (fun wild => ?_)
    · rw [Dialect.toList_identifier]
      exact enclosed_joined rfl (by decide) tamed
    · rw [Dialect.toList_identifier]
      exact leads_joined_of_not_tame rfl (by decide) wild _
  · have chars : (Dialect.generic.literal (.text s)).toList =
        '\'' :: doubled '\'' s.toList ++ ['\''] := Literal.toList_standard s
    refine enclosed_and_passes_iff (fun tamed => ?_) (fun wild => ?_)
    · rw [chars]
      exact enclosed_doubled rfl (by decide) tamed
    · rw [chars]
      exact leads_quotes_of_not_tame rfl (by decide) (Bool.eq_false_iff.mpr wild) _

/-- The closing quote of a name that ends in a backslash is taken along, so the placeholder of the
comparison is read as part of the name. -/
theorem name_hides_placeholder :
    (Params.ofList [("param0", .int 7)]).toPositional
        (Dialect.generic.identifier "a\\" ++ " = :param0") =
      .ok (Dialect.generic.identifier "a\\" ++ " = :param0", []) ∧
    ¬ Passes (Dialect.generic.identifier "a\\") := by
  have hidden : (Params.ofList [("param0", .int 7)]).toPositional
      (Dialect.generic.identifier "a\\" ++ " = :param0") =
        .ok (Dialect.generic.identifier "a\\" ++ " = :param0", []) := by
    rfl
  refine ⟨hidden, fun passes => ?_⟩
  have whole := passes (Params.ofList [("param0", .int 7)]) " = :param0"
  rw [hidden] at whole
  cases whole

end SqlAccess
