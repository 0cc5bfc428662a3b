import Mathlib.Data.List.Nodup
import SqlAccess.Proofs.Query.Paging

/-!
# Pages

A page of a given size, counted from one, is a window on the rows: as many as the size, behind those
of all the pages before it (`Window.ofPage`). Pages in a row are adjacent
(`Window.adjacent_ofPage`), and so have no row in common (`Window.Adjacent.disjoint_rows`).

A query is moved to a page by its offset, and offsets are words. The number of rows before the page
is a product that is checked (`checkedMul_eq_some_iff`), so where it does not fit there is no query
at all, and where it fits the offset is exact (`Query.paged_eq_some_iff`).
`pages_are_exact_or_refused` says so of the paging clause of either dialect, and of two pages in a
row.
-/

namespace SqlAccess

open Text

/-! ## Windows in a row -/

namespace Window

/-- The page with the given number, counted from one, of the given size. A page zero is the first
one, too. -/
def ofPage (size number : Nat) : Window where
  skip := size * (max number 1 - 1)
  size := some size

/-- Both windows have the size, and the second one starts where the first one ends. -/
structure Adjacent (size : Nat) (w w' : Window) : Prop where
  size_eq : w.size = some size
  size_eq' : w'.size = some size
  skip_eq : w'.skip = w.skip + size

namespace Adjacent

variable {α : Type} {size : Nat} {w w' : Window}

/-- The rows of two adjacent windows are a stretch of twice the size. -/
theorem rows_append (h : Adjacent size w w') (found : List α) :
    w.rows found ++ w'.rows found = (found.drop w.skip).take (size + size) := by
  rw [rows, rows, h.size_eq, h.size_eq', h.skip_eq, List.take_add, List.drop_drop]

/-- No row is in both of two adjacent windows. -/
theorem disjoint_rows (h : Adjacent size w w') {found : List α} (different : found.Nodup) :
    List.Disjoint (w.rows found) (w'.rows found) := by
  apply List.disjoint_of_nodup_append
  rw [h.rows_append]
  exact different.sublist ((List.take_sublist _ _).trans (List.drop_sublist _ _))

end Adjacent

/-- Pages in a row are adjacent. -/
theorem adjacent_ofPage (size : Nat) {number : Nat} (positive : 0 < number) :
    Adjacent size (ofPage size number) (ofPage size (number + 1)) where
  size_eq := rfl
  size_eq' := rfl
  skip_eq := by
    have before : max (number + 1) 1 - 1 = (max number 1 - 1) + 1 := by omega
    rw [ofPage, ofPage, before]
    exact Nat.mul_succ size _

/-! ## Paging clauses of either dialect -/

/-- The window that a paging clause of portable SQL with a limit stands for, read with the blank in
front of it. -/
def readPortable? (clause : String) : Option Window :=
  (afterStart " LIMIT ".toList clause.toList).bind fun counts =>
    match splitOnce ' ' counts with
    | none => do return ⟨0, some (← count? counts)⟩
    | some (size, behind) => do
      let skip ← afterStart "OFFSET ".toList behind
      return ⟨← count? skip, some (← count? size)⟩

/-- The window that a paging clause with a limit stands for in the dialect. -/
def readIn? : Dialect → String → Option Window
  | .mysql, clause => read? clause
  | .generic, clause => readPortable? clause

theorem readPortable?_limit (size : UInt64) :
    readPortable? (Query.spaced (some ("LIMIT " ++ toString size))) =
      some ⟨0, some size.toNat⟩ := by
  have apart : ' ' ∉ Nat.toDigits 10 size.toNat := not_mem_toDigits (by decide) _
  rw [readPortable?, toList_limit, afterStart_append, Option.bind_some, splitOnce_of_not_mem apart]
  simp [count?_toDigits]

theorem readPortable?_offset (size skip : UInt64) :
    readPortable? (Query.spaced
      (some ("LIMIT " ++ toString size ++ " OFFSET " ++ toString skip))) =
        some ⟨skip.toNat, some size.toNat⟩ := by
  have text : (Query.spaced
      (some ("LIMIT " ++ toString size ++ " OFFSET " ++ toString skip))).toList =
        " LIMIT ".toList ++ (Nat.toDigits 10 size.toNat ++
          ' ' :: ("OFFSET ".toList ++ Nat.toDigits 10 skip.toNat)) := by
    simp only [Query.spaced, String.toList_append, toList_count, List.append_assoc]
    rfl
  have apart : ' ' ∉ Nat.toDigits 10 size.toNat := not_mem_toDigits (by decide) _
  rw [readPortable?, text, afterStart_append, Option.bind_some, splitOnce_append apart]
  simp only [afterStart_append]
  simp [count?_toDigits]

/-- The clause of a limit and an offset stands for their window. -/
theorem readIn?_limitClause (d : Dialect) (size skip : UInt64) :
    readIn? d (Query.spaced (d.limitClause (some size) (some skip))) =
      some ⟨skip.toNat, some size.toNat⟩ := by
  cases d with
  | mysql => exact read?_limitClause (some size) (some skip)
  | generic =>
    by_cases start : skip = 0
    · subst start
      exact readPortable?_limit size
    · rw [Dialect.limitClause, if_neg start]
      exact readPortable?_offset size skip

end Window

/-! ## Queries on pages -/

/-- A product that is found is exact. -/
theorem checkedMul_eq_some_iff {a b c : UInt64} :
    Query.checkedMul a b = some c ↔ c.toNat = a.toNat * b.toNat := by
  unfold Query.checkedMul
  split
  next fits =>
    have exact : (a * b).toNat = a.toNat * b.toNat := by
      rw [UInt64.toNat_mul, Nat.mod_eq_of_lt fits]
    rw [Option.some_inj, ← UInt64.toNat_inj, exact, eq_comm]
  next past =>
    refine ⟨nofun, fun exact => absurd ?_ past⟩
    rw [← exact]
    exact c.toNat_lt_size

theorem checkedMul_eq_none_iff {a b : UInt64} :
    Query.checkedMul a b = none ↔ UInt64.size ≤ a.toNat * b.toNat := by
  unfold Query.checkedMul
  split
  next fits => exact ⟨nofun, fun past => absurd fits (Nat.not_lt.mpr past)⟩
  next past => exact ⟨fun _ => Nat.not_lt.mp past, fun _ => rfl⟩

namespace Query

/-- The query with the given limit, moved to a page of that size. -/
def paged (q : Query) (size number : UInt64) : Option Query :=
  { q with limit := some size }.page number

/-- The window that the paging clause of the query stands for. -/
def window? (d : Dialect) (q : Query) : Option Window :=
  Window.readIn? d (spaced (d.limitClause q.limit q.offset))

/-- The number of pages before a page. -/
theorem toNat_pagesBefore (number : UInt64) :
    ((if number = 0 then 1 else number) - 1).toNat = max number.toNat 1 - 1 := by
  split
  next zero =>
    subst zero
    rfl
  next other =>
    have positive : 1 ≤ number := UInt64.le_iff_toNat_le.mpr (Nat.one_le_iff_ne_zero.mpr
      fun zero => other (UInt64.toNat_inj.mp zero))
    have bound := UInt64.le_iff_toNat_le.mp positive
    rw [UInt64.toNat_sub_of_le _ _ positive, UInt64.toNat_one]
    rw [UInt64.toNat_one] at bound
    omega

variable {q page : Query} {size number : UInt64}

/-- A page is refused if the number of rows before it does not fit a word. -/
theorem paged_eq_none_iff :
    q.paged size number = none ↔ UInt64.size ≤ (Window.ofPage size.toNat number.toNat).skip := by
  rw [paged, Query.page, Option.map_eq_none_iff, checkedMul_eq_none_iff, Option.getD_some,
    toNat_pagesBefore, Window.ofPage]

/-- A query that is moved to a page has the limit and the exact offset of the page, and is otherwise
as it was. -/
theorem paged_eq_some_iff :
    q.paged size number = some page ↔
      ∃ skip : UInt64, skip.toNat = (Window.ofPage size.toNat number.toNat).skip ∧
        page = { q with limit := some size, offset := some skip } := by
  rw [paged, Query.page, Option.map_eq_some_iff]
  refine exists_congr fun skip => and_congr ?_ eq_comm
  rw [checkedMul_eq_some_iff, Option.getD_some, toNat_pagesBefore, Window.ofPage]

/-- The window of a query that is moved to a page is the page. -/
theorem window?_of_paged (d : Dialect) (moved : q.paged size number = some page) :
    page.window? d = some (.ofPage size.toNat number.toNat) := by
  obtain ⟨skip, exact, rfl⟩ := paged_eq_some_iff.mp moved
  rw [window?, Window.readIn?_limitClause, exact]
  rfl

end Query

/-- **Pages are exact or refused.** In either dialect, of any query that is moved to a page of any
size: the call fails exactly if the number of rows before the page does not fit a word. Where it
succeeds, the offset is that number, only the limit and the offset of the query are new, and the
paging clause stands for the page. The next page is refused exactly if the rows of this page and
those before it do not fit. Where it is found, this one is found as well, their windows are
adjacent, their rows are a stretch of twice the size, and no row is in both. -/
theorem pages_are_exact_or_refused (d : Dialect) (q : Query) (size number : UInt64) :
    let before := size.toNat * (max number.toNat 1 - 1)
    (q.paged size number = none ↔ UInt64.size ≤ before) ∧
    (∀ page, q.paged size number = some page →
      (∃ skip : UInt64, skip.toNat = before ∧
        page = { q with limit := some size, offset := some skip }) ∧
      page.window? d = some (.ofPage size.toNat number.toNat)) ∧
    ∀ next : UInt64, 0 < number → next.toNat = number.toNat + 1 →
      (q.paged size next = none ↔ UInt64.size ≤ before + size.toNat) ∧
      ∀ page', q.paged size next = some page' →
        ∃ page window window', q.paged size number = some page ∧
          page.window? d = some window ∧ page'.window? d = some window' ∧
          window = .ofPage size.toNat number.toNat ∧ window' = .ofPage size.toNat next.toNat ∧
          Window.Adjacent size.toNat window window' ∧
          ∀ (α : Type) (found : List α),
            window.rows found ++ window'.rows found =
              (found.drop before).take (size.toNat + size.toNat) ∧
            (found.Nodup → List.Disjoint (window.rows found) (window'.rows found)) := by
  intro before
  refine ⟨Query.paged_eq_none_iff, fun page moved => ⟨Query.paged_eq_some_iff.mp moved,
    Query.window?_of_paged d moved⟩, fun next positive successor => ?_⟩
  have pages := Window.adjacent_ofPage size.toNat (UInt64.lt_iff_toNat_lt.mp positive)
  rw [← successor] at pages
  have refused : q.paged size next = none ↔ UInt64.size ≤ before + size.toNat := by
    rw [Query.paged_eq_none_iff, pages.skip_eq]
    rfl
  refine ⟨refused, fun page' moved' => ?_⟩
  -- Fewer rows are before this page than before the next one.
  have found : q.paged size number ≠ none := by
    intro none
    have past := Query.paged_eq_none_iff.mp none
    rw [refused.mpr (Nat.le_trans past (Nat.le_add_right _ _))] at moved'
    cases moved'
  obtain ⟨page, moved⟩ := Option.ne_none_iff_exists'.mp found
  exact ⟨page, _, _, moved, Query.window?_of_paged d moved, Query.window?_of_paged d moved', rfl,
    rfl, pages, fun α rows => ⟨pages.rows_append rows, pages.disjoint_rows⟩⟩

/-- The third page of ten users, and the fourth one. -/
theorem pages_are_exact_or_refused_third :
    ((0 : UInt64) < 3 ∧ (4 : UInt64).toNat = (3 : UInt64).toNat + 1) ∧
    ∃ page page', (Query.ofTable "users").paged 10 3 = some page ∧
      (Query.ofTable "users").paged 10 4 = some page' ∧
      page.select .mysql {} = .ok ("SELECT * FROM `users`" ++ " LIMIT 20, 10") {} ∧
      page'.select .mysql {} = .ok ("SELECT * FROM `users`" ++ " LIMIT 30, 10") {} ∧
      page.window? .mysql = some ⟨20, some 10⟩ ∧ page'.window? .mysql = some ⟨30, some 10⟩ ∧
      ∀ found : List Nat,
        (found.drop 20).take 10 ++ (found.drop 30).take 10 = (found.drop 20).take (10 + 10) ∧
        (found.Nodup → List.Disjoint ((found.drop 20).take 10) ((found.drop 30).take 10)) := by
  obtain ⟨-, shown, onwards⟩ := pages_are_exact_or_refused .mysql (Query.ofTable "users") 10 3
  obtain ⟨page', moved'⟩ : ∃ page', (Query.ofTable "users").paged 10 4 = some page' := ⟨_, rfl⟩
  obtain ⟨page, window, window', moved, window_eq, window_eq', rfl, rfl, -, rows⟩ :=
    (onwards 4 (by decide) rfl).2 page' moved'
  refine ⟨⟨by decide, rfl⟩, page, page', moved, moved', ?_, ?_, window_eq, window_eq', rows Nat⟩
  · obtain rfl := Option.some.inj moved
    rfl
  · obtain rfl := Option.some.inj moved'
    rfl

/-- Of ten users a page, the last page whose number of rows before it fits a word is found, and the
next one is refused, while the number of rows before it is as good a number. -/
theorem far_page_is_refused :
    ((Query.ofTable "users").paged 10 1844674407370955162).map (·.select .mysql {}) =
      some (.ok ("SELECT * FROM `users`" ++ " LIMIT 18446744073709551610, 10") {}) ∧
    (Query.ofTable "users").paged 10 1844674407370955163 = none ∧
    (Window.ofPage 10 1844674407370955163).skip = 18446744073709551620 := by
  refine ⟨rfl, ?_, rfl⟩
  exact Query.paged_eq_none_iff.mpr (by decide)

end SqlAccess
