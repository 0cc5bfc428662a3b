import SqlAccess.Proofs.Params.Fragment

/-!
# The regions of a statement

What quotes and placeholders are, said without a scanner. A statement falls into *regions*, from left
to right: text between quotes, a placeholder, or one other character. `CutsInto` has a rule for each
of them, and `existsUnique_cutsInto` is the law that makes it a definition: every text falls into
regions in exactly one way.

`placeholders_become_marks` is what positional rewriting comes to on them. A table that binds every
placeholder of the statement turns each into a question mark, leaves every other region as it stands,
and gives their values in order; any other table fails on the first placeholder that it does not
bind. The regions of the result are those of the statement with a mark for each placeholder
(`CutsInto.marked`), so rewriting it again changes nothing, whatever the table.
-/

namespace SqlAccess

open Piece

/-- A stretch of a statement that is read as one. -/
inductive Region where
  /-- Text between quotes, with the quotes. -/
  | quoted (text : List Char)
  /-- A placeholder, with its colon. -/
  | placeholder (name : List Char)
  | other (c : Char)
  deriving DecidableEq, Repr

namespace Region

/-- The region as it stands in the statement. -/
def text : Region → List Char
  | .quoted text => text
  | .placeholder name => name
  | .other c => [c]

/-- The region with a question mark for a placeholder. -/
def marked : Region → Region
  | .placeholder _ => .other '?'
  | region => region

/-- The name of a placeholder. -/
def name? : Region → Option String
  | .placeholder name => some (String.ofList name)
  | _ => none

/-- The pieces that the cutting makes of the region. -/
def pieces : Region → List Piece
  | .quoted text => text.map .char
  | .placeholder name => [.placeholder name]
  | .other c => [.char c]

end Region

/-- The text of a statement that consists of the regions. -/
def Region.textOf (regions : List Region) : List Char :=
  regions.flatMap Region.text

/-- The names of the placeholders among the regions, as often as they stand there. -/
def Region.names (regions : List Region) : List String :=
  regions.filterMap Region.name?

/-! ## Regions of a text -/

/-- The text does not close the quotes that it stands between. A backslash takes the character
behind it along, except between backticks. -/
inductive Inside (quote : Char) : List Char → Prop
  | nil : Inside quote []
  | plain {c : Char} {body : List Char} : c ≠ quote → (c = '\\' → quote = '\x60') →
      Inside quote body → Inside quote (c :: body)
  | escape {c : Char} {body : List Char} : quote ≠ '\x60' → Inside quote body →
      Inside quote ('\\' :: c :: body)

/-- The quotes are still open where the text ends, be it behind a backslash. -/
def Unclosed (quote : Char) (body : List Char) : Prop :=
  Inside quote body ∨ ∃ front, quote ≠ '\x60' ∧ Inside quote front ∧ body = front ++ ['\\']

/-- The text falls into the regions, from left to right. -/
inductive CutsInto : List Char → List Region → Prop
  | nil : CutsInto [] []
  | quoted {quote : Char} {body rest : List Char} {regions : List Region} :
      isQuote quote = true → Inside quote body → CutsInto rest regions →
      CutsInto (quote :: (body ++ quote :: rest))
        (.quoted (quote :: (body ++ [quote])) :: regions)
  | unclosed {quote : Char} {body : List Char} : isQuote quote = true → Unclosed quote body →
      CutsInto (quote :: body) [.quoted (quote :: body)]
  | placeholder {c : Char} {name rest : List Char} {regions : List Region} :
      startsName c = true → name.all inName = true → Delimits rest → CutsInto rest regions →
      CutsInto (':' :: c :: (name ++ rest)) (.placeholder (':' :: c :: name) :: regions)
  | other {c : Char} {rest : List Char} {regions : List Region} : isQuote c = false →
      (c = ':' → rest.head?.any startsName = false) → CutsInto rest regions →
      CutsInto (c :: rest) (.other c :: regions)

variable {quote : Char} {body rest text : List Char} {regions : List Region}

theorem ne_backslash_of_isQuote (h : isQuote quote = true) : quote ≠ '\\' := by
  rintro rfl
  cases h

theorem inName_of_startsName {c : Char} (h : startsName c = true) : inName c = true := by
  simp only [startsName, inName, Char.isAlphanum, Bool.or_eq_true] at h ⊢
  exact h.imp .inl id

/-- Nothing is lost: the regions make up the text. -/
theorem CutsInto.textOf_eq (h : CutsInto text regions) : Region.textOf regions = text := by
  induction h with
  | nil => rfl
  | quoted _ _ _ ih => simp [Region.textOf, Region.text, ← ih]
  | unclosed _ _ => simp [Region.textOf, Region.text]
  | placeholder _ _ _ _ ih => simp [Region.textOf, Region.text, ← ih]
  | other _ _ _ ih => simp [Region.textOf, Region.text, ← ih]

/-! ## There is one way to cut -/

/-- Text between quotes cannot go on behind the quote that closes them. -/
theorem Inside.longer {body' rest' : List Char} (quotes : isQuote quote = true)
    (h : Inside quote body) (h' : Inside quote body')
    (same : body ++ quote :: rest = body' ++ rest') :
    ∃ more, Inside quote more ∧ body = body' ++ more := by
  induction h' generalizing body with
  | nil => exact ⟨body, h, rfl⟩
  | plain other unescaped _ ih =>
    cases h with
    | nil => exact absurd (List.cons.inj same).1.symm other
    | plain _ _ h =>
      obtain ⟨rfl, tails⟩ := List.cons.inj same
      obtain ⟨more, inside, rfl⟩ := ih h tails
      exact ⟨more, inside, rfl⟩
    | escape escapes _ => exact absurd (unescaped (List.cons.inj same).1.symm) escapes
  | escape escapes _ ih =>
    cases h with
    | nil => exact absurd (List.cons.inj same).1 (ne_backslash_of_isQuote quotes)
    | plain _ unescaped _ => exact absurd (unescaped (List.cons.inj same).1) escapes
    | escape _ h =>
      obtain ⟨rfl, tails⟩ := List.cons.inj (List.cons.inj same).2
      obtain ⟨more, inside, rfl⟩ := ih h tails
      exact ⟨more, inside, rfl⟩

/-- No text that stays between quotes starts with the quote. -/
theorem Inside.not_quote (quotes : isQuote quote = true) : ¬ Inside quote (quote :: body) := by
  intro h
  cases h with
  | plain other _ _ => exact other rfl
  | escape _ _ => cases quotes

/-- Quotes are closed at one place only. -/
theorem Inside.cancel {body' rest' : List Char} (quotes : isQuote quote = true)
    (h : Inside quote body) (h' : Inside quote body')
    (same : body ++ quote :: rest = body' ++ quote :: rest') : body = body' ∧ rest = rest' := by
  obtain ⟨more, inside, rfl⟩ := h.longer quotes h' same
  rw [List.append_assoc] at same
  have tails := List.append_cancel_left same
  cases more with
  | nil => exact ⟨List.append_nil body', (List.cons.inj tails).2⟩
  | cons c more =>
    obtain ⟨rfl, -⟩ := List.cons.inj tails
    exact absurd inside (Inside.not_quote quotes)

/-- Quotes that are closed are not open at the end. -/
theorem Inside.not_unclosed (quotes : isQuote quote = true) (h : Inside quote body) :
    ¬ Unclosed quote (body ++ quote :: rest) := by
  rintro (inside | ⟨front, -, inside, same⟩)
  · have same : body ++ quote :: rest = body ++ quote :: rest ++ [] := (List.append_nil _).symm
    obtain ⟨more, -, longer⟩ := h.longer quotes inside same
    have lengths := congrArg List.length longer
    simp only [List.length_append, List.length_cons] at lengths
    omega
  · obtain ⟨more, -, rfl⟩ := h.longer quotes inside same
    rw [List.append_assoc] at same
    have tails := List.append_cancel_left same
    cases more with
    | nil => exact ne_backslash_of_isQuote quotes (List.cons.inj tails).1
    | cons c more =>
      have lengths := congrArg List.length tails
      simp only [List.length_cons, List.length_append, List.length_nil] at lengths
      omega

/-- **There is one way to cut a text into regions.** -/
theorem CutsInto.unique {regions' : List Region} (h : CutsInto text regions)
    (h' : CutsInto text regions') : regions = regions' := by
  induction h generalizing regions' with
  | nil =>
    cases h'
    rfl
  | @quoted quote body rest regions quotes inside _ ih =>
    -- The other way to cut has an append of its own, so the text is met as a variable.
    generalize tail : body ++ quote :: rest = behind at h'
    cases h' with
    | quoted _ inside' cut' =>
      obtain ⟨rfl, rfl⟩ := inside.cancel quotes inside' tail
      rw [ih cut']
    | unclosed _ unclosed' => exact absurd (tail ▸ unclosed') (inside.not_unclosed quotes)
    | placeholder => cases quotes
    | other unquoted _ _ => exact absurd (quotes.symm.trans unquoted) Bool.noConfusion
  | @unclosed quote body quotes unclosed =>
    cases h' with
    | quoted _ inside' _ => exact absurd unclosed (inside'.not_unclosed quotes)
    | unclosed _ _ => rfl
    | placeholder => cases quotes
    | other unquoted _ _ => exact absurd (quotes.symm.trans unquoted) Bool.noConfusion
  | @placeholder c name rest regions starts named delimits _ ih =>
    generalize tail : c :: (name ++ rest) = behind at h'
    cases h' with
    | quoted quotes _ _ => cases quotes
    | unclosed quotes _ => cases quotes
    | placeholder _ named' delimits' cut' =>
      obtain ⟨rfl, tails⟩ := List.cons.inj tail
      obtain ⟨rfl, rfl⟩ := Text.run_cancel (List.all_eq_true.mp named) (List.all_eq_true.mp named')
        delimits delimits' tails
      rw [ih cut']
    | other _ unnamed _ =>
      subst tail
      exact absurd (starts.symm.trans (unnamed rfl)) Bool.noConfusion
  | @other c rest regions unquoted unnamed _ ih =>
    cases h' with
    | quoted quotes _ _ => exact absurd (quotes.symm.trans unquoted) Bool.noConfusion
    | unclosed quotes _ => exact absurd (quotes.symm.trans unquoted) Bool.noConfusion
    | placeholder starts _ _ _ => exact absurd (starts.symm.trans (unnamed rfl)) Bool.noConfusion
    | other _ _ cut' => rw [ih cut']

/-! ## There is a way to cut -/

/-- Behind a quote, the quotes are closed somewhere or stay open. -/
theorem inside_or_unclosed (quote : Char) : ∀ text : List Char,
    (∃ body rest, Inside quote body ∧ text = body ++ quote :: rest) ∨ Unclosed quote text
  | [] => .inr (.inl .nil)
  | c :: text => by
    by_cases closes : c = quote
    · subst closes
      exact .inl ⟨[], text, .nil, rfl⟩
    · by_cases escapes : c = '\\' ∧ quote ≠ '\x60'
      · obtain ⟨rfl, escapes⟩ := escapes
        cases text with
        | nil => exact .inr (.inr ⟨[], escapes, .nil, rfl⟩)
        | cons hidden text =>
          rcases inside_or_unclosed quote text with ⟨body, rest, inside, rfl⟩ | inside | escaped
          · exact .inl ⟨_, rest, .escape escapes inside, rfl⟩
          · exact .inr (.inl (.escape escapes inside))
          · obtain ⟨front, _, inside, rfl⟩ := escaped
            exact .inr (.inr ⟨_, escapes, .escape escapes inside, rfl⟩)
      · have unescaped : c = '\\' → quote = '\x60' := fun same =>
          Decidable.of_not_not fun other => escapes ⟨same, other⟩
        rcases inside_or_unclosed quote text with ⟨body, rest, inside, rfl⟩ | inside | escaped
        · exact .inl ⟨_, rest, .plain closes unescaped inside, rfl⟩
        · exact .inr (.inl (.plain closes unescaped inside))
        · obtain ⟨front, escapes, inside, rfl⟩ := escaped
          exact .inr (.inr ⟨_, escapes, .plain closes unescaped inside, rfl⟩)

/-- Every text can be cut: one region is taken off its front, and what is left is shorter. -/
theorem exists_cutsInto (text : List Char) : ∃ regions, CutsInto text regions := by
  cases text with
  | nil => exact ⟨[], .nil⟩
  | cons c text =>
    cases quotes : isQuote c with
    | true =>
      rcases inside_or_unclosed c text with ⟨body, rest, inside, rfl⟩ | unclosed
      · obtain ⟨regions, cut⟩ := exists_cutsInto rest
        exact ⟨_, .quoted quotes inside cut⟩
      · exact ⟨_, .unclosed quotes unclosed⟩
    | false =>
      by_cases named : c = ':' ∧ text.head?.any startsName = true
      · obtain ⟨rfl, starts⟩ := named
        cases text with
        | nil => cases starts
        | cons c text =>
          have shorter := (List.dropWhile_sublist inName (l := text)).length_le
          obtain ⟨regions, cut⟩ := exists_cutsInto (text.dropWhile inName)
          have delimits : Delimits (text.dropWhile inName) := Text.stop_dropWhile inName text
          rw [← List.takeWhile_append_dropWhile (p := inName) (l := text)]
          exact ⟨_, .placeholder starts List.all_takeWhile delimits cut⟩
      · obtain ⟨regions, cut⟩ := exists_cutsInto text
        have unnamed : c = ':' → text.head?.any startsName = false := fun same =>
          Bool.eq_false_iff.mpr fun starts => named ⟨same, starts⟩
        exact ⟨_, .other quotes unnamed cut⟩
termination_by text.length
decreasing_by
  all_goals subst_vars
  all_goals simp only [List.length_append, List.length_cons]
  all_goals omega

/-- **Every text falls into regions in exactly one way.** -/
theorem existsUnique_cutsInto (text : List Char) : ∃! regions, CutsInto text regions := by
  obtain ⟨regions, cut⟩ := exists_cutsInto text
  exact ⟨regions, cut, fun _ cut' => cut'.unique cut⟩

/-- Text without quotes and colons falls into its characters. -/
theorem cutsInto_of_bare (bare : text.all isBare = true) : CutsInto text (text.map .other) := by
  induction text with
  | nil => exact .nil
  | cons c text ih =>
    rw [List.all_cons, Bool.and_eq_true] at bare
    obtain ⟨unquoted, uncoloned⟩ : isQuote c = false ∧ c ≠ ':' := by
      simpa [isBare] using bare.1
    exact .other unquoted (fun same => absurd same uncoloned) (ih bare.2)

/-! ## The pieces of the regions -/

/-- Text that stays between quotes is copied, and leaves the cutting between them. -/
theorem Inside.cut_eq (h : Inside quote body) (rest : List Char) :
    cut (.quoted quote) (body ++ rest) = body.map .char ++ cut (.quoted quote) rest := by
  induction h with
  | nil => rfl
  | @plain c body other unescaped _ ih =>
    have stays : ¬ (c = '\\' ∧ quote ≠ '\x60') := fun both => both.2 (unescaped both.1)
    simp only [List.cons_append, List.map_cons, Piece.cut, if_neg stays, if_neg other, ih]
  | @escape c body escapes _ ih =>
    simp only [List.cons_append, List.map_cons, Piece.cut, ne_eq, escapes, not_false_eq_true,
      and_self, if_true, ih]

/-- **The cutting follows the regions.** -/
theorem CutsInto.cut_eq (h : CutsInto text regions) :
    cut .outside text = regions.flatMap Region.pieces := by
  induction h with
  | nil => rfl
  | @quoted quote body rest regions quotes inside _ ih =>
    have closes : ¬ (quote = '\\' ∧ quote ≠ '\x60') :=
      fun both => ne_backslash_of_isQuote quotes both.1
    simp only [Piece.cut, start, quotes, if_true, inside.cut_eq, if_neg closes, ih,
      List.flatMap_cons, Region.pieces, List.map_cons, List.map_append, List.map_nil,
      List.cons_append, List.append_assoc, List.nil_append]
  | @unclosed quote body quotes unclosed =>
    have copied : cut (.quoted quote) body = body.map .char := by
      rcases unclosed with inside | ⟨front, escapes, inside, rfl⟩
      · have whole := inside.cut_eq []
        rwa [List.append_nil, Piece.cut, List.append_nil] at whole
      · rw [inside.cut_eq, List.map_append]
        rfl
    simp only [Piece.cut, start, quotes, if_true, copied, List.flatMap_cons, List.flatMap_nil,
      Region.pieces, List.map_cons, List.append_nil]
  | @placeholder c name rest regions starts named delimits _ ih =>
    have named' : (c :: name).all inName = true := by
      rw [List.all_cons, inName_of_startsName starts, named]
      rfl
    have front := cut_placeholder starts named' delimits
    simp only [List.cons_append] at front
    rw [front, ih]
    rfl
  | @other c rest regions unquoted unnamed _ ih =>
    have stays : ¬ (c = ':' ∧ rest.head?.any startsName = true) := fun both =>
      Bool.eq_false_iff.mp (unnamed both.1) both.2
    simp only [Piece.cut, start, unquoted, Bool.false_eq_true, if_false, if_neg stays, ih,
      List.flatMap_cons, Region.pieces, List.cons_append, List.nil_append]

/-! ## Regions with marks -/

/-- A mark or another region in front of a text does not start a name where the text itself does
not. -/
theorem CutsInto.head_marked (h : CutsInto text regions)
    (unnamed : text.head?.any startsName = false) :
    (Region.textOf (regions.map Region.marked)).head?.any startsName = false := by
  cases h with
  | nil => rfl
  | quoted _ _ _ => exact unnamed
  | unclosed _ _ => exact unnamed
  | placeholder _ _ _ _ => rfl
  | other _ _ _ => exact unnamed

/-- **The regions with marks are those of their text.** A mark starts no quotes and no placeholder,
and ends every name. -/
theorem CutsInto.marked (h : CutsInto text regions) :
    CutsInto (Region.textOf (regions.map Region.marked)) (regions.map Region.marked) := by
  induction h with
  | nil => exact .nil
  | @quoted quote body rest regions quotes inside _ ih =>
    have whole := CutsInto.quoted quotes inside ih
    simpa [Region.textOf, Region.text, Region.marked] using whole
  | @unclosed quote body quotes unclosed =>
    have whole := CutsInto.unclosed quotes unclosed
    simpa [Region.textOf, Region.text, Region.marked] using whole
  | placeholder _ _ _ _ ih => exact .other rfl (fun same => nomatch same) ih
  | other unquoted unnamed cut ih =>
    exact .other unquoted (fun same => cut.head_marked (unnamed same)) ih

theorem Region.names_marked (regions : List Region) :
    Region.names (regions.map Region.marked) = [] := by
  induction regions with
  | nil => rfl
  | cons region regions ih => cases region <;> exact ih

theorem Region.marked_marked (regions : List Region) :
    (regions.map Region.marked).map Region.marked = regions.map Region.marked := by
  rw [List.map_map]
  refine List.map_congr_left fun region _ => ?_
  cases region <;> rfl

/-! ## Filling the regions -/

namespace Params

variable {p : Params}

theorem fill_chars_append (p : Params) (front : List Char) (pieces : List Piece) :
    p.fill (front.map .char ++ pieces) =
      (p.fill pieces).map fun filled => (front ++ filled.1, filled.2) := by
  induction front with
  | nil =>
    rw [List.map_nil, List.nil_append]
    cases p.fill pieces <;> rfl
  | cons c front ih =>
    rw [List.map_cons, List.cons_append, Params.fill, ih]
    cases p.fill pieces <;> rfl

/-- Filling goes through the regions up to the first placeholder that the table does not bind. -/
theorem fill_pieces (p : Params) (regions : List Region) :
    p.fill (regions.flatMap Region.pieces) =
      match (Region.names regions).find? fun name => !p.contains name with
      | some name => .error (.invalidCondition (.placeholderUnbound name))
      | none => .ok (Region.textOf (regions.map Region.marked),
          (Region.names regions).filterMap p.get?) := by
  induction regions with
  | nil => rfl
  | cons region regions ih =>
    cases region with
    | quoted text =>
      have names : Region.names (.quoted text :: regions) = Region.names regions := rfl
      rw [List.flatMap_cons, Region.pieces, fill_chars_append, ih, names]
      cases (Region.names regions).find? fun name => !p.contains name <;> rfl
    | other c =>
      have names : Region.names (.other c :: regions) = Region.names regions := rfl
      rw [List.flatMap_cons, Region.pieces, ← List.map_singleton, fill_chars_append, ih, names]
      cases (Region.names regions).find? fun name => !p.contains name <;> rfl
    | placeholder name =>
      have names : Region.names (.placeholder name :: regions) =
          String.ofList name :: Region.names regions := rfl
      rw [List.flatMap_cons, Region.pieces, List.singleton_append, Params.fill, names]
      cases found : p.get? (String.ofList name) with
      | none =>
        have unbound : p.contains (String.ofList name) = false := by rw [contains, found]; rfl
        simp only [List.find?_cons, unbound, Bool.not_false]
        rfl
      | some value =>
        have bound : p.contains (String.ofList name) = true := by rw [contains, found]; rfl
        simp only [List.find?_cons, bound, Bool.not_true, ih, List.filterMap_cons_some found]
        cases (Region.names regions).find? fun name => !p.contains name <;> rfl

theorem toPositional_of_cutsInto {sql : String} {regions : List Region} (p : Params)
    (cut : CutsInto sql.toList regions) :
    p.toPositional sql =
      match (Region.names regions).find? fun name => !p.contains name with
      | some name => .error (.invalidCondition (.placeholderUnbound name))
      | none => .ok (String.ofList (Region.textOf (regions.map Region.marked)),
          (Region.names regions).filterMap p.get?) := by
  rw [toPositional, cut.cut_eq, fill_pieces]
  cases (Region.names regions).find? fun name => !p.contains name <;> rfl

/-- **The text with marks is its own positional form**, under any table. -/
theorem toPositional_marked {text : List Char} {regions : List Region} (p : Params)
    (cut : CutsInto text regions) :
    p.toPositional (String.ofList (Region.textOf (regions.map Region.marked))) =
      .ok (String.ofList (Region.textOf (regions.map Region.marked)), []) := by
  have marked : CutsInto (String.ofList (Region.textOf (regions.map Region.marked))).toList
      (regions.map Region.marked) := by
    rw [String.toList_ofList]
    exact cut.marked
  rw [p.toPositional_of_cutsInto marked, Region.names_marked, Region.marked_marked]
  rfl

theorem map_get?_of_bound {p : Params} {names : List String}
    (bound : ∀ name ∈ names, p.contains name = true) :
    names.map p.get? = (names.filterMap p.get?).map some := by
  induction names with
  | nil => rfl
  | cons name names ih =>
    obtain ⟨value, found⟩ := Option.isSome_iff_exists.mp (bound name List.mem_cons_self)
    rw [List.map_cons, List.filterMap_cons_some found, List.map_cons, found,
      ih fun other member => bound other (List.mem_cons_of_mem name member)]

end Params

/-- **Positional rewriting is read off the regions.** Every text falls into regions in one way, which
make it up. Rewriting it succeeds if the table binds each placeholder among them; then the result is
the text with a question mark for each placeholder, with the values of the placeholders in their
order, and the result is its own positional form under any table. Otherwise the error names the
first placeholder that the table does not bind. -/
theorem placeholders_become_marks (sql : String) :
    ∃ regions, (∀ others, CutsInto sql.toList others ↔ others = regions) ∧
      Region.textOf regions = sql.toList ∧
      ∀ p : Params,
        ((p.toPositional sql).isOk = true ↔
          ∀ name ∈ Region.names regions, p.contains name = true) ∧
        (∀ out values, p.toPositional sql = .ok (out, values) →
          out.toList = Region.textOf (regions.map Region.marked) ∧
          (Region.names regions).map p.get? = values.map some ∧
          ∀ other : Params, other.toPositional out = .ok (out, [])) ∧
        ∀ e, p.toPositional sql = .error e → ∃ bound name behind,
          Region.names regions = bound ++ name :: behind ∧
          (∀ earlier ∈ bound, p.contains earlier = true) ∧ p.contains name = false ∧
          e = .invalidCondition (.placeholderUnbound name) := by
  obtain ⟨regions, cut, unique⟩ := existsUnique_cutsInto sql.toList
  refine ⟨regions, fun others => ⟨unique others, fun same => same ▸ cut⟩, cut.textOf_eq, fun p => ?_⟩
  have rewritten := p.toPositional_of_cutsInto cut
  cases first : (Region.names regions).find? fun name => !p.contains name with
  | none =>
    have bound : ∀ name ∈ Region.names regions, p.contains name = true := by
      simpa using List.find?_eq_none.mp first
    rw [first] at rewritten
    rw [rewritten]
    refine ⟨⟨fun _ => bound, fun _ => rfl⟩, ?_, fun e failed => nomatch failed⟩
    rintro out values ⟨⟩
    refine ⟨String.toList_ofList, Params.map_get?_of_bound bound, fun other => ?_⟩
    exact other.toPositional_marked cut
  | some name =>
    rw [first] at rewritten
    rw [rewritten]
    obtain ⟨lacks, earlier, behind, split, bound⟩ := List.find?_eq_some_iff_append.mp first
    have unbound : p.contains name = false := by simpa using lacks
    refine ⟨⟨(fun ok => nomatch ok), fun all => ?_⟩, (fun out values ok => nomatch ok), ?_⟩
    · have member : name ∈ Region.names regions := by simp [split]
      exact absurd (all name member) (by simp [unbound])
    · rintro e ⟨⟩
      exact ⟨earlier, name, behind, split, by simpa using bound, unbound, rfl⟩

/-- Quoted text hides a placeholder, and a colon in front of another is only a colon. -/
example : (Params.ofList [("a", .int 1)]).toPositional "':a' ::a" = .ok ("':a' :?", [.int 1]) := by
  rfl

end SqlAccess
