import Mathlib.Data.List.Nodup
import SqlAccess.Schema.Key

/-!
# The columns of a key

A key has its columns in order and without repetition, from whatever list of names it is made
(`ofColumns_ordered`); from names that are distinct it has them as they are (`ofColumns_of_nodup`).
-/

namespace SqlAccess.Key

variable {k : Key} {column : String}

theorem addColumn_nodup (distinct : k.columns.Nodup) : (k.addColumn column).columns.Nodup := by
  unfold addColumn
  split
  next => exact distinct
  next fresh =>
    refine List.nodup_append.mpr ⟨distinct, List.nodup_singleton column, ?_⟩
    intro name member other last
    rw [List.mem_singleton.mp last]
    rintro rfl
    exact fresh member

theorem addColumn_eq (k : Key) (column : String) :
    (k.addColumn column).table = k.table ∧ (k.addColumn column).kind = k.kind ∧
      (k.addColumn column).mode = k.mode := by
  unfold addColumn
  split <;> exact ⟨rfl, rfl, rfl⟩

theorem mem_addColumn {name : String} (member : name ∈ (k.addColumn column).columns) :
    name ∈ k.columns ∨ name = column := by
  unfold addColumn at member
  split at member
  next => exact .inl member
  next => exact (List.mem_append.mp member).imp_right List.mem_singleton.mp

/-- A key over columns has each of them once. -/
theorem ofColumns_ordered (kind : KeyKind) (table : String) (columns : List String) :
    (ofColumns kind table columns).columns.Nodup ∧ (ofColumns kind table columns).table = table ∧
      (ofColumns kind table columns).kind = kind ∧ (ofColumns kind table columns).mode = .create := by
  have more : ∀ k : Key, k.columns.Nodup → (columns.foldl addColumn k).columns.Nodup ∧
      (columns.foldl addColumn k).table = k.table ∧ (columns.foldl addColumn k).kind = k.kind ∧
        (columns.foldl addColumn k).mode = k.mode := by
    induction columns with
    | nil => exact fun k distinct => ⟨distinct, rfl, rfl, rfl⟩
    | cons column columns ih =>
      intro k distinct
      obtain ⟨table, kind, mode⟩ := k.addColumn_eq column
      have rest := ih (k.addColumn column) (addColumn_nodup distinct)
      rwa [table, kind, mode] at rest
  exact more { table, kind } List.nodup_nil

theorem mem_ofColumns {kind : KeyKind} {table name : String} {columns : List String}
    (member : name ∈ (ofColumns kind table columns).columns) : name ∈ columns := by
  have more : ∀ (names : List String) (k : Key), name ∈ (names.foldl addColumn k).columns →
      name ∈ k.columns ∨ name ∈ names := by
    intro names
    induction names with
    | nil => exact fun k member => .inl member
    | cons column names ih =>
      intro k member
      rcases ih _ member with member | member
      · rcases mem_addColumn member with member | rfl
        · exact .inl member
        · exact .inr List.mem_cons_self
      · exact .inr (List.mem_cons_of_mem column member)
  exact (more columns { table, kind } member).resolve_left List.not_mem_nil

theorem ofColumns_of_nodup (kind : KeyKind) (table : String) {columns : List String}
    (distinct : columns.Nodup) : ofColumns kind table columns = { table, kind, columns } := by
  have more : ∀ before rest : List String, (before ++ rest).Nodup →
      rest.foldl addColumn { table, kind, columns := before } =
        { table, kind, columns := before ++ rest } := by
    intro before rest
    induction rest generalizing before with
    | nil => intro _; rw [List.append_nil]; rfl
    | cons column rest ih =>
      intro distinct
      have fresh : column ∉ before := fun member =>
        (List.nodup_append.mp distinct).2.2 column member column List.mem_cons_self rfl
      have step : addColumn { table, kind, columns := before } column =
          { table, kind, columns := before ++ [column] } := if_neg fresh
      rw [List.foldl_cons, step, ih _ (by rwa [List.append_assoc]), List.append_assoc]
      rfl
  exact more [] columns distinct

end SqlAccess.Key
