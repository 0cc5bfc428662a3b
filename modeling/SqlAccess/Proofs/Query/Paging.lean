import SqlAccess.Proofs.Query.Statement
import SqlAccess.Proofs.Text.Cut
import SqlAccess.Row

/-!
# The rows that a paging clause lets through

A paging clause stands for a *window* on the rows that the condition lets through, in the order of
the statement. A SELECT looks through the window of the query's limit and offset. The form of a
write for a single table has a limit and no offset, so a write always looks at the first rows, and
`writes_see_first_rows` says when those are the rows that the SELECT shows: if the offset is zero or
the window is empty, and in no other case.
-/

namespace SqlAccess

open Rendering Text

/-- A stretch of an ordered list of rows. -/
structure Window where
  /-- How many rows come before the stretch. -/
  skip : Nat
  /-- How many rows it has at most; none stands for no bound. -/
  size : Option Nat
  deriving DecidableEq

namespace Window

/-- The rows of the window. -/
def rows {α : Type} (w : Window) (found : List α) : List α :=
  match w.size with
  | none => found.drop w.skip
  | some size => (found.drop w.skip).take size

/-- The window of a limit and an offset, where an absent offset is none at all. -/
def of (limit offset : Option UInt64) : Window where
  skip := (offset.getD 0).toNat
  size := limit.map UInt64.toNat

/-- A count of rows in MySQL. -/
def count? (digits : List Char) : Option Nat :=
  readBounded? Dialect.allRows.toNat digits

/-- The window of the counts in a paging clause: the number of rows, or the number of rows to skip
and then, behind a comma, that of the rows. -/
def ofCounts? (counts : List Char) : Option Window :=
  match splitOnce ',' counts with
  | none => do return ⟨0, some (← count? counts)⟩
  | some (skip, behind) => do
    let size ← afterStart [' '] behind
    return ⟨← count? skip, some (← count? size)⟩

/-- The window that a paging clause of MySQL stands for, read with the blank in front of it. No
clause lets every row through. -/
def read? (clause : String) : Option Window :=
  if clause = "" then some ⟨0, none⟩
  else (afterStart " LIMIT ".toList clause.toList).bind ofCounts?

/-! ## Clauses that are read back -/

theorem count?_toDigits (n : UInt64) : count? (Nat.toDigits 10 n.toNat) = some n.toNat := by
  apply readBounded?_toDigits
  have bound := n.toNat_lt
  change n.toNat ≤ 0xFFFFFFFFFFFFFFFF
  omega

theorem toList_count (n : UInt64) : (toString n).toList = Nat.toDigits 10 n.toNat := by
  change (toString n.toNat).toList = _
  rw [Nat.toString_eq_repr, Nat.toList_repr]

theorem read?_of_toList {clause : String} {counts : List Char}
    (text : clause.toList = " LIMIT ".toList ++ counts) : read? clause = ofCounts? counts := by
  have filled : clause ≠ "" := by
    rintro rfl
    cases text
  rw [read?, if_neg filled, text, afterStart_append, Option.bind_some]

theorem toList_limit (size : UInt64) : (Query.spaced (some ("LIMIT " ++ toString size))).toList =
    " LIMIT ".toList ++ Nat.toDigits 10 size.toNat := by
  simp only [Query.spaced, String.toList_append, toList_count]
  rfl

theorem read?_limit (size : UInt64) :
    read? (Query.spaced (some ("LIMIT " ++ toString size))) = some ⟨0, some size.toNat⟩ := by
  have apart : ',' ∉ Nat.toDigits 10 size.toNat := not_mem_toDigits (by decide) _
  rw [read?_of_toList (toList_limit size), ofCounts?, splitOnce_of_not_mem apart]
  simp [count?_toDigits]

theorem read?_range (skip size : UInt64) :
    read? (Query.spaced (some ("LIMIT " ++ toString skip ++ ", " ++ toString size))) =
      some ⟨skip.toNat, some size.toNat⟩ := by
  have text : (Query.spaced (some ("LIMIT " ++ toString skip ++ ", " ++ toString size))).toList =
      " LIMIT ".toList ++
        (Nat.toDigits 10 skip.toNat ++ ',' :: ([' '] ++ Nat.toDigits 10 size.toNat)) := by
    simp only [Query.spaced, String.toList_append, toList_count, List.append_assoc]
    rfl
  have apart : ',' ∉ Nat.toDigits 10 skip.toNat := not_mem_toDigits (by decide) _
  rw [read?_of_toList text, ofCounts?, splitOnce_append apart]
  simp only [afterStart_append]
  simp [count?_toDigits]

/-- The window that MySQL's paging clause of a limit and an offset spells: an offset without a limit
has the largest count of rows for its limit. -/
def spelled (limit offset : Option UInt64) : Window :=
  of (limit <|> offset.map fun _ => Dialect.allRows) offset

theorem read?_limitClause (limit offset : Option UInt64) :
    read? (Query.spaced (Dialect.mysql.limitClause limit offset)) = some (spelled limit offset) := by
  cases limit with
  | none =>
    cases offset with
    | none => rfl
    | some skip => exact read?_range skip Dialect.allRows
  | some size =>
    cases offset with
    | none => exact read?_limit size
    | some skip =>
      by_cases start : skip = 0
      · subst start
        exact read?_limit size
      · rw [Dialect.limitClause, if_neg start]
        exact read?_range skip size

theorem read?_writeLimit (limit : Option UInt64) :
    read? (Query.spaced (limit.map fun size => "LIMIT " ++ toString size)) =
      some (of limit none) := by
  cases limit with
  | none => rfl
  | some size => exact read?_limit size

/-! ## Windows on the same rows -/

section Rows

variable {α : Type} {limit offset : Option UInt64}

/-- No list is so long that the largest count cuts it short. -/
theorem rows_spelled {found : List α} (fits : found.length ≤ Dialect.allRows.toNat) :
    (spelled limit offset).rows found = (of limit offset).rows found := by
  cases limit with
  | some size => rfl
  | none =>
    cases offset with
    | none => rfl
    | some skip =>
      change (found.drop skip.toNat).take Dialect.allRows.toNat = found.drop skip.toNat
      apply List.take_of_length_le
      rw [List.length_drop]
      omega

theorem rows_of_zero (start : offset.getD 0 = 0) (found : List α) :
    (of limit offset).rows found = (of limit none).rows found := by
  unfold of
  rw [start]
  rfl

theorem rows_of_empty (found : List α) : (of (some 0) offset).rows found = [] := by
  change (found.drop (offset.getD 0).toNat).take 0 = []
  rw [List.take_zero]

/-- The first row is in the window of a limit that is not zero, and not behind an offset that is
not zero. -/
theorem rows_singleton_ne {row : α} (later : offset.getD 0 ≠ 0) (room : limit ≠ some 0) :
    (of limit none).rows [row] ≠ (of limit offset).rows [row] := by
  have skipped : [row].drop (offset.getD 0).toNat = [] := by
    apply List.drop_of_length_le
    have positive : (offset.getD 0).toNat ≠ 0 := fun zero => later (UInt64.toNat_inj.mp zero)
    simp only [List.length_singleton]
    omega
  cases limit with
  | none =>
    change [row] ≠ [row].drop (offset.getD 0).toNat
    rw [skipped]
    simp
  | some size =>
    have some_row : [row].take size.toNat = [row] := by
      apply List.take_of_length_le
      have positive : size.toNat ≠ 0 := by
        intro zero
        exact room (congrArg some (UInt64.toNat_inj.mp zero))
      simp only [List.length_singleton]
      omega
    change [row].take size.toNat ≠ ([row].drop (offset.getD 0).toNat).take size.toNat
    rw [skipped, some_row]
    simp

/-- **When the first rows are those of a page**: if nothing is skipped, or nothing is shown. -/
theorem rows_first_eq_iff : (∀ found : List Row, found.length ≤ Dialect.allRows.toNat →
      (of limit none).rows found = (spelled limit offset).rows found) ↔
    offset.getD 0 = 0 ∨ limit = some 0 := by
  constructor
  · intro same
    by_contra neither
    obtain ⟨later, room⟩ := not_or.mp neither
    have single : [({} : Row)].length ≤ Dialect.allRows.toNat := by decide
    have first := same [{}] single
    rw [rows_spelled single] at first
    exact rows_singleton_ne later room first
  · intro either found fits
    rw [rows_spelled fits]
    rcases either with start | rfl
    · exact (rows_of_zero start found).symm
    · rw [rows_of_empty, rows_of_empty]

end Rows

end Window

/-! ## The tail of a statement -/

namespace Statement

/-- The statement, built from the table `t`, is its opening, the clause of its condition, and the
tail. The condition is rendered from the table `mid`, in which the assigned values are bound. -/
def Tails (d : Dialect) (q : Query) (st : Statement) (t t' : Params) (sql : String) (mid : Params)
    (clause tail : String) : Prop :=
  ∃ table sets, q.table = some table ∧ Query.assignments d st.assigned t = .ok sets mid ∧
    q.whereClause d mid = .ok clause t' ∧ sql = st.opening d q table sets ++ clause ++ tail

variable {d : Dialect} {q : Query} {st : Statement} {t t' : Params} {sql : String}

theorem tails_closing (h : st.render d q t = .ok sql t') :
    ∃ mid clause, st.Tails d q t t' sql mid clause (st.closing d q) := by
  obtain ⟨table, sets, mid, condition, named, assigned, rendered, -, text⟩ := render_eq_ok h
  have clause := Query.whereClause_eq_ok.mpr ⟨condition, rendered, rfl⟩
  exact ⟨mid, _, table, sets, named, assigned, clause, text⟩

/-- What was built behind assigned values can be selected behind them. -/
theorem Tails.select {mid : Params} {clause tail : String}
    (h : st.Tails d q t t' sql mid clause tail) :
    ∃ text, q.select d mid = .ok text t' ∧
      Statement.select.Tails d q mid t' text mid clause (Statement.select.closing d q) := by
  obtain ⟨table, sets, named, -, rendered, -⟩ := h
  have source := Query.source_eq_ok.mpr ⟨named, (rfl : mid = mid)⟩
  have selected : q.select d mid = .ok
      (Statement.select.opening d q table [] ++ clause ++ Statement.select.closing d q) t' := by
    refine bind_eq_ok.mpr ⟨table, mid, source, bind_eq_ok.mpr ⟨clause, t', rendered, ?_⟩⟩
    rw [pure_eq_ok]
    simp only [Statement.opening, Statement.closing, String.append_assoc, and_self]
  exact ⟨_, selected, table, [], named, rfl, rendered, rfl⟩

/-- Without a grouping, a SELECT has its ordering behind the condition, and then the paging clause. -/
theorem closing_select (ungrouped : q.grouping = []) : Statement.select.closing d q =
    q.orderClause d ++ Query.spaced (d.limitClause q.limit q.offset) ++
      Query.spaced (if q.locking then some d.lockClause else none) := by
  have none : q.groupClause d = "" := by
    rw [Query.groupClause, ungrouped]
    rfl
  rw [closing, none, String.empty_append]

theorem closing_of_isWrite (write : st.isWrite = true) : st.closing d q =
    q.orderClause d ++ Query.spaced (q.limit.map fun size => "LIMIT " ++ toString size) := by
  cases st with
  | select => cases write
  | update attributes => rfl
  | delete => rfl
  | softDelete flag stamp => rfl

end Statement

/-- **A write sees the first rows.** Of any query without a grouping, a write that is built for MySQL
has the ordering of the SELECT and a window of its own: the rows up to the limit, whatever the
offset. The SELECT can be built with the same clause of the condition, and however it is built, it
shows the rows of the limit from the offset on. So the two see the same rows if the offset is absent
or zero, or the limit is zero, and they do not otherwise. -/
theorem writes_see_first_rows (q : Query) (ungrouped : q.grouping = []) {st : Statement}
    (write : st.isWrite = true) {t t' : Params} {sql : String}
    (built : st.render .mysql q t = .ok sql t') :
    ∃ mid clause paging paging' window window',
      st.Tails .mysql q t t' sql mid clause (q.orderClause .mysql ++ paging) ∧
      (∃ text, q.select .mysql mid = .ok text t' ∧
        Statement.select.Tails .mysql q mid t' text mid clause
          (q.orderClause .mysql ++ paging' ++
            Query.spaced (if q.locking then some Dialect.mysql.lockClause else none))) ∧
      (∀ s s' text, q.select .mysql s = .ok text s' → ∃ clause',
        Statement.select.Tails .mysql q s s' text s clause'
          (q.orderClause .mysql ++ paging' ++
            Query.spaced (if q.locking then some Dialect.mysql.lockClause else none))) ∧
      Window.read? paging = some window ∧ Window.read? paging' = some window' ∧
      window = .of q.limit none ∧
      (∀ found : List Row, found.length ≤ Dialect.allRows.toNat →
        window'.rows found = (Window.of q.limit q.offset).rows found) ∧
      ((∀ found : List Row, found.length ≤ Dialect.allRows.toNat →
        window.rows found = window'.rows found) ↔ q.offset.getD 0 = 0 ∨ q.limit = some 0) := by
  obtain ⟨mid, clause, tails⟩ := Statement.tails_closing built
  obtain ⟨text, selected, behind⟩ := tails.select
  rw [Statement.closing_select ungrouped] at behind
  rw [Statement.closing_of_isWrite write] at tails
  refine ⟨mid, clause, _, _, _, _, tails, ⟨text, selected, behind⟩, ?_,
    Window.read?_writeLimit q.limit, Window.read?_limitClause q.limit q.offset, rfl,
    fun _ fits => Window.rows_spelled fits, Window.rows_first_eq_iff⟩
  intro s s' text selected
  obtain ⟨mid', clause', tails'⟩ :=
    Statement.tails_closing (show Statement.select.render .mysql q s = .ok text s' from selected)
  obtain ⟨table, sets, named, assigned, rendered, same⟩ := tails'
  cases assigned
  rw [Statement.closing_select ungrouped] at same
  exact ⟨clause', table, [], named, rfl, rendered, same⟩

/-- The third page of ten users, by their names. -/
def Query.thirdPage : Query :=
  { Query.ofTable "users" with
    order := [⟨"name", none⟩]
    limit := some 10
    offset := some 20
    unconditional := true }

/-- A DELETE of the third page. -/
theorem writes_see_first_rows_third_page :
    (Query.thirdPage.grouping = [] ∧ Statement.delete.isWrite = true ∧
      Statement.delete.render .mysql Query.thirdPage {} =
        .ok "DELETE FROM `users` ORDER BY `name` LIMIT 10" {}) ∧
    ∃ window window' : Window, window = .of (some 10) none ∧
      (∀ found : List Row, found.length ≤ Dialect.allRows.toNat →
        window'.rows found = (Window.of (some 10) (some 20)).rows found) ∧
      ¬ ∀ found : List Row, found.length ≤ Dialect.allRows.toNat →
        window.rows found = window'.rows found := by
  have built : Statement.delete.render .mysql Query.thirdPage {} =
      .ok "DELETE FROM `users` ORDER BY `name` LIMIT 10" {} := by rfl
  refine ⟨⟨rfl, rfl, built⟩, ?_⟩
  obtain ⟨_, _, _, _, window, window', -, -, -, -, -, first, paged, same⟩ :=
    writes_see_first_rows Query.thirdPage rfl rfl built
  refine ⟨window, window', first, paged, fun equal => ?_⟩
  have neither := same.mp equal
  exact absurd neither (by decide)

/-- The rows that a DELETE of the third page goes to are the first ones. -/
theorem delete_of_third_page_hits_the_first :
    Query.thirdPage.delete .mysql {} = .ok ("DELETE FROM `users` ORDER BY `name`" ++ " LIMIT 10") {} ∧
    Query.thirdPage.select .mysql {} =
      .ok ("SELECT * FROM `users` ORDER BY `name`" ++ " LIMIT 20, 10") {} ∧
    ∃ window window', Window.read? " LIMIT 10" = some window ∧
      Window.read? " LIMIT 20, 10" = some window' ∧
      window.rows (List.range 100) = [0, 1, 2, 3, 4, 5, 6, 7, 8, 9] ∧
      window'.rows (List.range 100) = [20, 21, 22, 23, 24, 25, 26, 27, 28, 29] := by
  refine ⟨rfl, rfl, ⟨0, some 10⟩, ⟨20, some 10⟩, ?_, ?_, ?_, ?_⟩ <;> decide

end SqlAccess
