import SqlAccess.Proofs.Params.Region
import SqlAccess.Proofs.Query.Paging
import SqlAccess.Proofs.Text.Letter

/-!
# The entries of an ordering

An entry of an ordering is written as it stands if it looks like a call from end to end: a word, an
opening parenthesis, and a closing one as its last character, with no semicolon. That it looks like
one does not make it *one* call. It is one if the parenthesis behind the word is closed by the last
character and by no earlier one, where quoted text counts for nothing (`IsCall`).

`order_entries_are_calls_or_names` says how far the look goes. Every call without a semicolon is
written as it stands, and what else is written so are the texts in which the parentheses between the
first and the last one do not match. All other entries are identifiers.

Matching is said twice, by counting (`Region.Closing`) and by the shape of the text
(`Region.Balanced`), and `Region.closing_one_iff` says that these are the same.
-/

namespace SqlAccess

open Text

/-! ## Parentheses outside quotes -/

namespace Region

/-- How many more parentheses are closed than opened, outside quotes. -/
def excess (regions : List Region) : Int :=
  regions.count (.other ')') - regions.count (.other '(')

/-- Of so many parentheses that are open in front of the regions, the outermost is closed by the last
region, and not before. -/
structure Closing (depth : Int) (regions : List Region) : Prop where
  total : excess regions = depth
  last : ∀ front behind, regions = front ++ behind → behind ≠ [] → excess front < depth

/-- Every parenthesis that is opened in the regions is closed in them, and no other is. -/
inductive Balanced : List Region → Prop
  | nil : Balanced []
  | aside {region : Region} {regions : List Region} : region ≠ .other '(' → region ≠ .other ')' →
      Balanced regions → Balanced (region :: regions)
  | nested {inner regions : List Region} : Balanced inner → Balanced regions →
      Balanced (.other '(' :: (inner ++ .other ')' :: regions))

variable {depth : Int} {region : Region} {regions inner : List Region}

theorem excess_cons : excess (region :: regions) = excess [region] + excess regions := by
  rw [← List.singleton_append]
  simp only [excess, List.count_append]
  omega

theorem excess_aside (unopened : region ≠ .other '(') (unclosed : region ≠ .other ')') :
    excess [region] = 0 := by
  rw [excess, List.count_cons_of_ne unopened, List.count_cons_of_ne unclosed]
  rfl

/-- A region in front changes the depth that the others begin with. -/
theorem closing_cons_iff : Closing depth (region :: regions) ↔
    0 < depth ∧ Closing (depth - excess [region]) regions := by
  constructor
  · intro h
    have total := h.total
    rw [excess_cons] at total
    refine ⟨h.last [] _ rfl (List.cons_ne_nil _ _), by omega, fun front behind same some => ?_⟩
    have later := h.last (region :: front) behind (by rw [same]; rfl) some
    rw [excess_cons] at later
    omega
  · rintro ⟨positive, total, last⟩
    refine ⟨by rw [excess_cons]; omega, fun front behind same some => ?_⟩
    cases front with
    | nil => exact positive
    | cons first front =>
      obtain ⟨rfl, rest⟩ := List.cons.inj same
      have later := last front behind rest some
      rw [excess_cons]
      omega

theorem closing_opening_iff :
    Closing depth (.other '(' :: regions) ↔ 0 < depth ∧ Closing (depth + 1) regions := by
  rw [closing_cons_iff, show excess [.other '('] = -1 from rfl, Int.sub_neg]

theorem closing_closing_iff :
    Closing depth (.other ')' :: regions) ↔ 0 < depth ∧ Closing (depth - 1) regions :=
  closing_cons_iff

theorem closing_aside_iff (unopened : region ≠ .other '(') (unclosed : region ≠ .other ')') :
    Closing depth (region :: regions) ↔ 0 < depth ∧ Closing depth regions := by
  rw [closing_cons_iff, excess_aside unopened unclosed, Int.sub_zero]

theorem closing_zero_iff : Closing 0 regions ↔ regions = [] := by
  constructor
  · intro h
    by_contra some
    exact absurd (h.last [] regions rfl some) (by decide)
  · rintro rfl
    refine ⟨rfl, fun front behind same some => ?_⟩
    exact absurd (List.append_eq_nil_iff.mp same.symm).2 some

/-- **Behind balanced regions, as much is open as in front of them.** -/
theorem Balanced.closing {rest : List Region} (h : Balanced inner) (natural : 0 ≤ depth)
    (closes : Closing depth rest) : Closing (depth + 1) (inner ++ .other ')' :: rest) := by
  induction h generalizing depth rest with
  | nil =>
    refine closing_closing_iff.mpr ⟨by omega, ?_⟩
    rwa [Int.add_sub_cancel]
  | aside unopened unclosed _ ih =>
    exact (closing_aside_iff unopened unclosed).mpr ⟨by omega, ih natural closes⟩
  | nested _ _ first second =>
    rw [List.cons_append, List.append_assoc, List.cons_append]
    exact closing_opening_iff.mpr ⟨by omega, first (by omega) (second natural closes)⟩

/-- **In front of the first parenthesis that is closed from outside, the regions are balanced.** -/
theorem Closing.split : ∀ (regions : List Region) (depth : Int), depth ≠ 0 →
    Closing depth regions → ∃ inner rest,
      Balanced inner ∧ Closing (depth - 1) rest ∧ regions = inner ++ .other ')' :: rest
  | [], _, pending, h => absurd h.total.symm pending
  | region :: regions, depth, _, h => by
    by_cases closes : region = .other ')'
    · subst closes
      exact ⟨[], regions, .nil, (closing_closing_iff.mp h).2, rfl⟩
    · by_cases opens : region = .other '('
      · subst opens
        obtain ⟨positive, behind⟩ := closing_opening_iff.mp h
        -- One more is open now: the regions are split where it is closed, and what is behind that
        -- is split again. The second split is why the recursion is on the length.
        obtain ⟨inner, rest, balanced, closing, rfl⟩ :=
          Closing.split regions (depth + 1) (by omega) behind
        rw [Int.add_sub_cancel] at closing
        obtain ⟨inner', rest', balanced', closing', rfl⟩ :=
          Closing.split rest depth (by omega) closing
        refine ⟨_, rest', .nested balanced balanced', closing', ?_⟩
        simp only [List.cons_append, List.append_assoc]
      · obtain ⟨positive, behind⟩ := (closing_aside_iff opens closes).mp h
        obtain ⟨inner, rest, balanced, closing, rfl⟩ :=
          Closing.split regions depth (by omega) behind
        exact ⟨_, rest, .aside opens closes balanced, closing, rfl⟩
termination_by regions => regions.length
decreasing_by
  all_goals subst_vars
  all_goals simp only [List.length_append, List.length_cons]
  all_goals omega

/-- **The last region closes the parenthesis, and no earlier one**, exactly if what is in front of
it is balanced. -/
theorem closing_one_iff :
    Closing 1 regions ↔ ∃ inner, Balanced inner ∧ regions = inner ++ [.other ')'] := by
  constructor
  · intro h
    obtain ⟨inner, rest, balanced, closing, rfl⟩ := Closing.split regions 1 (by decide) h
    rw [closing_zero_iff.mp closing]
    exact ⟨inner, balanced, rfl⟩
  · rintro ⟨inner, balanced, rfl⟩
    exact balanced.closing (Int.le_refl 0) (closing_zero_iff.mpr rfl)

end Region

/-! ## Calls -/

/-- The text opens a call: it is a word and a parenthesis, with the given body behind it. White
space may stand between the two. -/
def OpensCall (text body : List Char) : Prop :=
  ∃ word blanks, text = word ++ (blanks ++ '(' :: body) ∧ word ≠ [] ∧
    (∀ c ∈ word, isWordChar c = true) ∧ ∀ c ∈ blanks, isBlank c = true

/-- The text is one call from end to end: the parenthesis behind its word is closed by the last
character and by no earlier one, not counting what is between quotes. -/
def IsCall (text : List Char) : Prop :=
  ∃ body regions, OpensCall text body ∧ CutsInto body regions ∧ Region.Closing 1 regions

/-- The text looks like a call: it opens one, ends in a closing parenthesis, and has no semicolon. -/
def LooksLikeCall (text : List Char) : Prop :=
  (∃ inner, OpensCall text (inner ++ [')'])) ∧ ';' ∉ text

namespace OpensCall

variable {text body body' : List Char}

/-- The body is what the scan for it finds. -/
theorem dropWhile_eq (h : OpensCall text body) :
    (text.dropWhile isWordChar).dropWhile isBlank = '(' :: body := by
  obtain ⟨word, blanks, rfl, -, letters, spaces⟩ := h
  have ends : ∀ c ∈ (blanks ++ '(' :: body).head?, isWordChar c = false := by
    cases blanks with
    | nil =>
      rintro _ ⟨⟩
      decide
    | cons c blanks =>
      rintro _ ⟨⟩
      have space := spaces c List.mem_cons_self
      cases letter : isWordChar c with
      | false => rfl
      | true => rw [isBlank_of_isWordChar letter] at space; cases space
  have opens : ∀ c ∈ ('(' :: body).head?, isBlank c = false := by
    rintro _ ⟨⟩
    decide
  rw [dropWhile_append_of_stop letters ends, dropWhile_append_of_stop spaces opens]

theorem mem_semicolon_iff (h : OpensCall text body) : ';' ∈ text ↔ ';' ∈ body := by
  obtain ⟨word, blanks, rfl, -, letters, spaces⟩ := h
  have unworded : ';' ∉ word := fun member => absurd (letters ';' member) (by decide)
  have visible : ';' ∉ blanks := fun member => absurd (spaces ';' member) (by decide)
  simp [unworded, visible]

end OpensCall

/-- **The look at an entry** is for what looks like a call. -/
theorem isFunctionCall_iff {text : List Char} :
    isFunctionCall text = true ↔ LooksLikeCall text := by
  constructor
  · intro h
    unfold isFunctionCall at h
    split at h
    next body found =>
      simp only [Bool.and_eq_true, beq_iff_eq, List.getLast?_eq_some_iff] at h
      obtain ⟨⟨starts, inner, rfl⟩, clean⟩ := h
      have opens : OpensCall text (inner ++ [')']) := by
        refine ⟨text.takeWhile isWordChar, (text.dropWhile isWordChar).takeWhile isBlank, ?_, ?_,
          List.all_eq_true.mp List.all_takeWhile, List.all_eq_true.mp List.all_takeWhile⟩
        · rw [← found, List.takeWhile_append_dropWhile, List.takeWhile_append_dropWhile]
        · cases text with
          | nil => cases starts
          | cons c text =>
            have letter : isWordChar c = true := starts
            simp [letter]
      refine ⟨⟨inner, opens⟩, fun member => ?_⟩
      have other := List.all_eq_true.mp clean ';' (opens.mem_semicolon_iff.mp member)
      exact absurd other (by decide)
    next => cases h
  · rintro ⟨⟨inner, opens⟩, clean⟩
    have starts : text.head?.any isWordChar = true := by
      obtain ⟨word, blanks, rfl, some, letters, -⟩ := opens
      cases word with
      | nil => exact absurd rfl some
      | cons c word => exact letters c List.mem_cons_self
    have others : (inner ++ [')']).all (· != ';') = true := by
      rw [List.all_eq_true]
      intro c member
      rw [bne_iff_ne]
      rintro rfl
      exact clean (opens.mem_semicolon_iff.mpr member)
    unfold isFunctionCall
    rw [opens.dropWhile_eq]
    simp only [starts, others, List.getLast?_concat, beq_self_eq_true, Bool.and_self]

/-- **Which texts that look like a call are one**: those that are balanced up to their last
character. -/
theorem isCall_iff {text : List Char} : IsCall text ∧ ';' ∉ text ↔
    LooksLikeCall text ∧ ∃ inner regions, OpensCall text (inner ++ [')']) ∧
      CutsInto (inner ++ [')']) (regions ++ [.other ')']) ∧ Region.Balanced regions := by
  constructor
  · rintro ⟨⟨body, regions, opens, cut, closing⟩, clean⟩
    obtain ⟨front, balanced, rfl⟩ := Region.closing_one_iff.mp closing
    have ending : body = Region.textOf front ++ [')'] := by
      rw [← cut.textOf_eq, Region.textOf, List.flatMap_append]
      rfl
    subst ending
    exact ⟨⟨⟨_, opens⟩, clean⟩, _, front, opens, cut, balanced⟩
  · rintro ⟨⟨-, clean⟩, inner, regions, opens, cut, balanced⟩
    have closing := Region.closing_one_iff.mpr ⟨regions, balanced, rfl⟩
    exact ⟨⟨_, _, opens, cut, closing⟩, clean⟩

/-! ## Entries of a statement -/

namespace OrderEntry

/-- What stands behind the expression of an entry. -/
def ending (entry : OrderEntry) : String :=
  match entry.direction with
  | some direction => " " ++ direction.sql
  | none => ""

/-- The text of an entry is its expression as it stands, if that looks like a call, and otherwise
the expression as an identifier, with the direction behind it. -/
inductive Shown (d : Dialect) (entry : OrderEntry) : String → Prop
  | call : LooksLikeCall entry.expression.toList → Shown d entry (entry.expression ++ entry.ending)
  | name : ¬ LooksLikeCall entry.expression.toList →
      Shown d entry (d.identifier entry.expression ++ entry.ending)

theorem render_eq (d : Dialect) (entry : OrderEntry) : entry.render d =
    (if isFunctionCall entry.expression.toList then entry.expression
      else d.identifier entry.expression) ++ entry.ending := by
  unfold render ending
  cases entry.direction with
  | none => exact String.append_empty.symm
  | some direction => exact String.append_assoc

theorem shown_render (d : Dialect) (entry : OrderEntry) : entry.Shown d (entry.render d) := by
  rw [render_eq]
  split
  next look => exact .call (isFunctionCall_iff.mp look)
  next look => exact .name fun looks => look (isFunctionCall_iff.mpr looks)

end OrderEntry

namespace Statement

/-- What stands behind the ordering. -/
def paging (d : Dialect) (q : Query) : Statement → String
  | .select =>
    Query.spaced (d.limitClause q.limit q.offset) ++
      Query.spaced (if q.locking then some d.lockClause else none)
  | _ => Query.spaced (q.limit.map fun size => "LIMIT " ++ toString size)

/-- The ordering stands behind the condition, and in a SELECT behind the grouping. -/
theorem closing_eq (d : Dialect) (q : Query) (st : Statement) : st.closing d q =
    (if st.isWrite then "" else q.groupClause d) ++ q.orderClause d ++ st.paging d q := by
  cases write : st.isWrite with
  | true =>
    rw [closing_of_isWrite write, if_pos rfl, String.empty_append]
    cases st with
    | select => cases write
    | _ => rfl
  | false =>
    cases st with
    | select =>
      simp only [closing, paging, String.append_assoc]
      rfl
    | _ => cases write

end Statement

/-- The clause of an ordering with the given entries, which is missing when there are none. -/
def Query.ordering (entries : List String) : String :=
  if entries.isEmpty then "" else " ORDER BY " ++ joined ", " entries

theorem Query.orderClause_eq (d : Dialect) (q : Query) :
    q.orderClause d = ordering (q.order.map (·.render d)) := by
  rw [orderClause, ordering, List.isEmpty_map]

/-- **What an ordering shows.** In every statement that is built, an entry that looks like a call
stands as it is, and every other one is an identifier. The entries that are one call without a
semicolon are among the former: they are those whose parentheses match between the one behind the
word and the last character. -/
theorem order_entries_are_calls_or_names {d : Dialect} {q : Query} {st : Statement}
    {t t' : Params} {sql : String} (built : st.render d q t = .ok sql t') :
    ∃ mid clause texts,
      st.Tails d q t t' sql mid clause
        ((if st.isWrite then "" else q.groupClause d) ++ Query.ordering texts ++ st.paging d q) ∧
      List.Forall₂ (OrderEntry.Shown d) q.order texts ∧
      ∀ entry ∈ q.order,
        IsCall entry.expression.toList ∧ ';' ∉ entry.expression.toList ↔
          LooksLikeCall entry.expression.toList ∧ ∃ inner regions,
            OpensCall entry.expression.toList (inner ++ [')']) ∧
            CutsInto (inner ++ [')']) (regions ++ [.other ')']) ∧ Region.Balanced regions := by
  obtain ⟨mid, clause, tails⟩ := Statement.tails_closing built
  rw [Statement.closing_eq, Query.orderClause_eq] at tails
  refine ⟨mid, clause, _, tails, ?_, fun _ _ => isCall_iff⟩
  apply List.forall₂_map_right_iff.mpr
  exact List.forall₂_same.mpr fun entry _ => entry.shown_render d

/-- Users in random order, those of one rank by their names from the last to the first. -/
def Query.shuffled : Query :=
  { Query.ofTable "users" with order := [⟨"RAND()", none⟩, ⟨"name", some .descending⟩] }

/-- A SELECT in random order: the first entry is a call. -/
theorem order_entries_are_calls_or_names_shuffled :
    Statement.select.render .mysql Query.shuffled {} =
      .ok "SELECT * FROM `users` ORDER BY RAND(), `name` DESC" {} ∧
    (∃ texts, List.Forall₂ (OrderEntry.Shown .mysql) Query.shuffled.order texts) ∧
    IsCall "RAND()".toList := by
  have built : Statement.select.render .mysql Query.shuffled {} =
      .ok "SELECT * FROM `users` ORDER BY RAND(), `name` DESC" {} := by rfl
  obtain ⟨_, _, texts, -, shown, calls⟩ := order_entries_are_calls_or_names built
  refine ⟨built, ⟨texts, shown⟩, ?_⟩
  have opens : OpensCall "RAND()".toList ([] ++ [')']) :=
    ⟨"RAND".toList, [], rfl, by decide, by decide, by decide⟩
  have matched : LooksLikeCall "RAND()".toList := ⟨⟨[], opens⟩, by decide⟩
  have cut : CutsInto ([] ++ [')']) ([] ++ [.other ')']) := cutsInto_of_bare rfl
  exact ((calls ⟨"RAND()", none⟩ List.mem_cons_self).mpr ⟨matched, [], [], opens, cut, .nil⟩).1

/-- **An entry that breaks out.** Two calls with a comma between them look like one, and so an entry
adds a second one to the ordering. -/
theorem order_entry_adds_second_call :
    ((Query.ofTable "users").orderBy "RAND(), SLEEP(5)" none).select .mysql {} =
      .ok "SELECT * FROM `users` ORDER BY RAND(), SLEEP(5)" {} ∧
    ¬ IsCall "RAND(), SLEEP(5)".toList ∧
    Dialect.mysql.identifier "RAND(), SLEEP(5)" = "`RAND(), SLEEP(5)`" := by
  refine ⟨by rfl, ?_, by rfl⟩
  rintro ⟨body, regions, opens, cut, closing⟩
  have found : body = "), SLEEP(5)".toList := (List.cons.inj opens.dropWhile_eq.symm).2
  subst found
  rw [cut.unique (cutsInto_of_bare rfl)] at closing
  have early := closing.last [.other ')'] (", SLEEP(5)".toList.map .other) rfl (by decide)
  exact absurd early (by decide)

end SqlAccess
