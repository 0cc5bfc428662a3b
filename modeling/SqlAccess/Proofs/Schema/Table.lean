import Mathlib.Data.List.Nodup
import SqlAccess.Proofs.Mention
import SqlAccess.Proofs.Schema.Key
import SqlAccess.Schema.Table

/-!
# Columns and the primary key of a table

Where the names of the columns are distinct, adding to the primary key is adding marks and names:
the declared names are marked in one pass (`foldl_addPrimary_declared`), the others are one entry
among the keys (`foldl_addPrimary_undeclared`), and the columns of the primary key are the ones
after the others (`primaryKey_eq`).
-/

namespace SqlAccess.Table

theorem placeColumn_of_fresh {c : Column} {cs : List Column} (fresh : c.name ∉ cs.map (·.name)) :
    placeColumn c cs = cs ++ [c] := by
  induction cs with
  | nil => rfl
  | cons old rest ih =>
    rw [List.map_cons, List.mem_cons, not_or] at fresh
    rw [placeColumn, if_neg fun same => fresh.1 same.symm, ih fresh.2, List.cons_append]

/-- Among columns of different names, a column is found by its name. -/
theorem column?_of_mem {t : Table} {c : Column} (distinct : (t.columns.map (·.name)).Nodup)
    (member : c ∈ t.columns) : t.column? c.name = some c := by
  cases found : t.column? c.name with
  | none => exact absurd (beq_self_eq_true c.name) (List.find?_eq_none.mp found c member)
  | some c' =>
    obtain ⟨same, -⟩ := List.find?_eq_some_iff_append.mp found
    have member' := List.mem_of_find?_eq_some found
    rw [List.inj_on_of_nodup_map distinct member' member (eq_of_beq same)]

theorem markPrimary_eq_map {name : String} {cs : List Column} (distinct : (cs.map (·.name)).Nodup) :
    markPrimary name cs = cs.map fun c => if c.name = name then c.asPrimary else c := by
  induction cs with
  | nil => rfl
  | cons c cs ih =>
    rw [List.map_cons, List.nodup_cons] at distinct
    rw [markPrimary, List.map_cons]
    by_cases same : c.name = name
    · have others : cs.map (fun c' => if c'.name = name then c'.asPrimary else c') = cs := by
        refine (List.map_congr_left fun c' member => ?_).trans (List.map_id' cs)
        refine if_neg fun same' => distinct.1 ?_
        rw [same, ← same']
        exact List.mem_map_of_mem member
      rw [if_pos same, if_pos same, others]
    · rw [if_neg same, if_neg same, ih distinct.2]

theorem map_name_markPrimary (column : String) (cs : List Column) :
    (markPrimary column cs).map (·.name) = cs.map (·.name) := by
  induction cs with
  | nil => rfl
  | cons c cs ih =>
    rw [markPrimary]
    split
    next => rfl
    next => rw [List.map_cons, ih, List.map_cons]

/-! ## Adding to the primary key -/

theorem any_name_iff {t : Table} {column : String} :
    t.columns.any (·.name == column) = true ↔ column ∈ t.columns.map (·.name) := by
  rw [List.any_eq_true, List.mem_map]
  simp only [beq_iff_eq]

theorem addPrimary_of_declared {t : Table} {column : String}
    (declared : column ∈ t.columns.map (·.name)) :
    t.addPrimary column = { t with columns := markPrimary column t.columns } := by
  rw [addPrimary, if_pos (any_name_iff.mpr declared)]

theorem addPrimary_of_undeclared {t : Table} {column : String}
    (undeclared : column ∉ t.columns.map (·.name)) :
    t.addPrimary column =
      { t with keys :=
          if t.keys.any (·.kind == .primary) then extendPrimary column t.keys
          else t.keys ++ [Key.ofColumns .primary t.name [column]] } := by
  rw [addPrimary, if_neg fun found => undeclared (any_name_iff.mp found)]
  split <;> rfl

/-- Adding declared columns to the primary key marks them. -/
theorem foldl_addPrimary_declared {t : Table} {names : List String}
    (distinct : (t.columns.map (·.name)).Nodup)
    (declared : ∀ name ∈ names, name ∈ t.columns.map (·.name)) :
    names.foldl addPrimary t =
      { t with columns := t.columns.map fun c => if c.name ∈ names then c.asPrimary else c } := by
  induction names generalizing t with
  | nil =>
    have same : (fun c : Column => if c.name ∈ ([] : List String) then c.asPrimary else c) = id :=
      funext fun _ => if_neg List.not_mem_nil
    rw [same, List.map_id]
    rfl
  | cons name names ih =>
    have kept := map_name_markPrimary name t.columns
    have step := addPrimary_of_declared (declared name List.mem_cons_self)
    rw [List.foldl_cons, step, ih (by rwa [kept]) (fun other member => by
      rw [kept]
      exact declared other (List.mem_cons_of_mem name member)), markPrimary_eq_map distinct]
    dsimp only
    rw [List.map_map]
    refine congrArg (fun columns => { t with columns }) (List.map_congr_left fun c _ => ?_)
    rw [Function.comp_apply]
    by_cases same : c.name = name
    · subst same
      rw [if_pos rfl, if_pos List.mem_cons_self]
      split <;> rfl
    · have apart : c.name ∈ name :: names ↔ c.name ∈ names := by
        rw [List.mem_cons, or_iff_right same]
      rw [if_neg same]
      simp only [apart]

/-- The entry among the keys for columns of the primary key that are not declared. -/
def primaryEntry (table : String) : List String → List Key
  | [] => []
  | names => [{ table, kind := .primary, columns := names }]

/-- Further columns that are not declared are put into the entry, behind those that it has. -/
theorem foldl_addPrimary_entry {t : Table} (before : List String) {rest : List String}
    (distinct : (before ++ rest).Nodup)
    (undeclared : ∀ name ∈ rest, name ∉ t.columns.map (·.name)) :
    rest.foldl addPrimary
      { t with keys := [{ table := t.name, kind := .primary, columns := before }] } =
      { t with keys := [{ table := t.name, kind := .primary, columns := before ++ rest }] } := by
  induction rest generalizing before with
  | nil =>
    rw [List.append_nil]
    rfl
  | cons name rest ih =>
    have fresh : name ∉ before := fun member =>
      (List.nodup_append.mp distinct).2.2 name member name List.mem_cons_self rfl
    have entry : extendPrimary name [{ table := t.name, kind := .primary, columns := before }] =
        [{ table := t.name, kind := .primary, columns := before ++ [name] }] :=
      congrArg ([·]) (if_neg fresh)
    have step : addPrimary
        { t with keys := [{ table := t.name, kind := .primary, columns := before }] } name =
        { t with keys := [{ table := t.name, kind := .primary, columns := before ++ [name] }] } := by
      rw [← entry]
      exact addPrimary_of_undeclared (undeclared name List.mem_cons_self)
    rw [List.foldl_cons, step, ih _ (by rwa [List.append_assoc]) fun other member =>
      undeclared other (List.mem_cons_of_mem name member), List.append_assoc]
    rfl

/-- Adding other columns to the primary key makes an entry among the keys. -/
theorem foldl_addPrimary_undeclared {t : Table} (empty : t.keys = []) {names : List String}
    (distinct : names.Nodup) (undeclared : ∀ name ∈ names, name ∉ t.columns.map (·.name)) :
    names.foldl addPrimary t = { t with keys := primaryEntry t.name names } := by
  cases names with
  | nil =>
    rw [primaryEntry, ← empty]
    rfl
  | cons name names =>
    have step : t.addPrimary name =
        { t with keys := [{ table := t.name, kind := .primary, columns := [name] }] } := by
      have none : ¬ t.keys.any (·.kind == .primary) = true := by
        rw [empty]
        exact Bool.false_ne_true
      rw [addPrimary_of_undeclared (undeclared name List.mem_cons_self), if_neg none, empty]
      rfl
    have more := foldl_addPrimary_entry [name] distinct fun other member =>
      undeclared other (List.mem_cons_of_mem name member)
    rw [List.foldl_cons, step, more]
    rfl

/-! ## Names without repetition -/

theorem withNew_concat (names more : List String) (name : String) :
    withNew names (more ++ [name]) =
      if name ∈ withNew names more then withNew names more else withNew names more ++ [name] := by
  induction more generalizing names with
  | nil => rfl
  | cons first more ih => exact ih _

theorem mem_withNew {name : String} {names more : List String} :
    name ∈ withNew names more ↔ name ∈ names ∨ name ∈ more := by
  induction more generalizing names with
  | nil => simp [withNew]
  | cons first more ih =>
    rw [withNew, ih, List.mem_cons]
    split
    next known =>
      constructor
      · exact Or.imp_right .inr
      · rintro (member | rfl | member)
        · exact .inl member
        · exact .inl known
        · exact .inr member
    next => simp only [List.mem_append, List.mem_singleton, or_assoc]

/-- Behind the names that are there come the others, once each, in the order of first mention. -/
theorem withNew_eq_append_eraseDups (names more : List String) :
    withNew names more = names ++ more.eraseDups.filter (· ∉ names) := by
  induction more using List.reverseRecOn with
  | nil => exact (List.append_nil names).symm
  | append_singleton more name ih =>
    by_cases known : name ∈ more
    · have member : name ∈ withNew names more := mem_withNew.mpr (.inr known)
      rw [withNew_concat, if_pos member, ih, eraseDups_concat, if_pos known]
    · rw [eraseDups_concat, if_neg known, List.filter_append, ← List.append_assoc, ← ih,
        withNew_concat]
      have member : name ∈ withNew names more ↔ name ∈ names := by
        rw [mem_withNew, or_iff_left known]
      by_cases old : name ∈ names
      · rw [if_pos (member.mpr old), List.filter_cons_of_neg (by simpa using old)]
        exact (List.append_nil _).symm
      · rw [if_neg (old ∘ member.mp), List.filter_cons_of_pos (by simpa using old),
          List.filter_nil]

/-- Names that are distinct are put behind those that are there, but for the ones among these. -/
theorem withNew_eq_append_filter (names : List String) {more : List String}
    (distinct : more.Nodup) : withNew names more = names ++ more.filter (· ∉ names) := by
  rw [withNew_eq_append_eraseDups, eraseDups_of_nodup distinct]

theorem withNew_of_nodup {names more : List String} (distinct : (names ++ more).Nodup) :
    withNew names more = names ++ more := by
  obtain ⟨-, distinct', apart⟩ := List.nodup_append.mp distinct
  have fresh : ∀ name ∈ more, decide (name ∉ names) = true := fun name member =>
    decide_eq_true fun inside => apart name inside name member rfl
  rw [withNew_eq_append_filter names distinct', List.filter_eq_self.mpr fresh]

theorem nodup_withNew {names : List String} (distinct : names.Nodup) (more : List String) :
    (withNew names more).Nodup := by
  induction more generalizing names with
  | nil => exact distinct
  | cons first more ih =>
    rw [withNew]
    split
    next => exact ih distinct
    next fresh => exact ih (List.nodup_append.mpr
        ⟨distinct, List.nodup_singleton first, fun name member other last => by
          rw [List.mem_singleton.mp last]
          rintro rfl
          exact fresh member⟩)

/-! ## The primary key -/

/-- Adding a column to the first primary key among the keys leaves the other keys alone. -/
theorem filter_extendPrimary (column : String) (keys : List Key) :
    (extendPrimary column keys).filter (·.kind == .primary) =
      (keys.filter (·.kind == .primary)).modifyHead (·.addColumn column) := by
  induction keys with
  | nil => rfl
  | cons k keys ih =>
    by_cases primary : k.kind = .primary
    · have extended : (k.addColumn column).kind = .primary := (k.addColumn_eq column).2.1.trans primary
      rw [extendPrimary, if_pos primary, List.filter_cons, if_pos (beq_iff_eq.mpr extended),
        List.filter_cons, if_pos (beq_iff_eq.mpr primary), List.modifyHead_cons]
    · have other : ¬ (k.kind == .primary) = true := fun same => primary (eq_of_beq same)
      rw [extendPrimary, if_neg primary, List.filter_cons, if_neg other, List.filter_cons,
        if_neg other, ih]

theorem flatMap_columns_primaryEntry (table : String) (names : List String) :
    (primaryEntry table names).flatMap (·.columns) = names := by
  cases names with
  | nil => rfl
  | cons name names => exact List.append_nil _

/-- A column that is not declared goes into the entry, unless it is there. -/
theorem filter_keys_addPrimary {t : Table} {column : String} {names : List String}
    (undeclared : column ∉ t.columns.map (·.name))
    (entry : t.keys.filter (·.kind == .primary) = primaryEntry t.name names) :
    (t.addPrimary column).keys.filter (·.kind == .primary) =
      primaryEntry t.name (if column ∈ names then names else names ++ [column]) := by
  rw [addPrimary_of_undeclared undeclared]
  dsimp only
  cases names with
  | nil =>
    have none : ¬ t.keys.any (·.kind == .primary) = true := by
      intro found
      obtain ⟨k, inside, primary⟩ := List.any_eq_true.mp found
      exact List.filter_eq_nil_iff.mp entry k inside primary
    rw [if_neg none, List.filter_append, entry]
    rfl
  | cons name names =>
    have some : t.keys.any (·.kind == .primary) = true := by
      have member : { table := t.name, kind := .primary, columns := name :: names : Key } ∈
          t.keys.filter (·.kind == .primary) := entry ▸ List.mem_cons_self
      obtain ⟨inside, primary⟩ := List.mem_filter.mp member
      exact List.any_eq_true.mpr ⟨_, inside, primary⟩
    rw [if_pos some, filter_extendPrimary, entry]
    change [Key.addColumn _ column] = _
    rw [Key.addColumn]
    split <;> rfl

/-- The columns of the primary key are the marked ones, and behind them those of the entry. -/
theorem primaryKey_eq {t : Table} {names : List String} {others : List Key}
    (keys : t.keys = primaryEntry t.name names ++ others) (plain : ∀ k ∈ others, k.kind ≠ .primary)
    (distinct : ((t.columns.filter (·.primary)).map (·.name) ++ names).Nodup) :
    t.primaryKey = (t.columns.filter (·.primary)).map (·.name) ++ names := by
  have entry : ((primaryEntry t.name names).filter (·.kind == .primary)).flatMap (·.columns) =
      names := by
    cases names with
    | nil => rfl
    | cons name names => exact List.append_nil _
  have rest : others.filter (·.kind == .primary) = [] :=
    List.filter_eq_nil_iff.mpr fun k member primary => plain k member (eq_of_beq primary)
  rw [primaryKey, keys, List.filter_append, rest, List.append_nil, entry, withNew_of_nodup distinct]

/-! ## The first column -/

theorem map_name_placeColumn (c : Column) (cs : List Column) :
    (placeColumn c cs).map (·.name) =
      if c.name ∈ cs.map (·.name) then cs.map (·.name) else cs.map (·.name) ++ [c.name] := by
  induction cs with
  | nil => rfl
  | cons old rest ih =>
    by_cases same : old.name = c.name
    · rw [placeColumn, if_pos same, if_pos (by simp [same]), List.map_cons, List.map_cons, same]
    · have apart : c.name ∈ (old :: rest).map (·.name) ↔ c.name ∈ rest.map (·.name) := by
        rw [List.map_cons, List.mem_cons, or_iff_right fun same' => same same'.symm]
      rw [placeColumn, if_neg same, List.map_cons, ih]
      by_cases member : c.name ∈ rest.map (·.name)
      · rw [if_pos member, if_pos (apart.mpr member), List.map_cons]
      · rw [if_neg member, if_neg fun inside => member (apart.mp inside), List.map_cons,
          List.cons_append]

theorem mem_placeColumn {c c' : Column} {cs : List Column} (member : c' ∈ placeColumn c cs) :
    c' = c ∨ c' ∈ cs := by
  induction cs with
  | nil => exact .inl (List.mem_singleton.mp member)
  | cons old rest ih =>
    rw [placeColumn] at member
    split at member
    next =>
      rcases List.mem_cons.mp member with same | member
      · exact .inl same
      · exact .inr (List.mem_cons_of_mem old member)
    next =>
      rcases List.mem_cons.mp member with rfl | member
      · exact .inr List.mem_cons_self
      · exact (ih member).imp_right (List.mem_cons_of_mem old)

/-- A column takes the place of its namesake. -/
theorem mem_placeColumn_of_nodup {c c' : Column} {cs : List Column}
    (distinct : (cs.map (·.name)).Nodup) (member : c' ∈ placeColumn c cs) :
    c' = c ∨ c' ∈ cs ∧ c'.name ≠ c.name := by
  induction cs with
  | nil => exact .inl (List.mem_singleton.mp member)
  | cons old rest ih =>
    rw [List.map_cons, List.nodup_cons] at distinct
    rw [placeColumn] at member
    split at member
    next same =>
      rcases List.mem_cons.mp member with same' | member
      · exact .inl same'
      · refine .inr ⟨List.mem_cons_of_mem old member, fun namesake => distinct.1 ?_⟩
        rw [same, ← namesake]
        exact List.mem_map_of_mem member
    next other =>
      rcases List.mem_cons.mp member with rfl | member
      · exact .inr ⟨List.mem_cons_self, other⟩
      · exact (ih distinct.2 member).imp_right fun ⟨inside, apart⟩ =>
          ⟨List.mem_cons_of_mem old inside, apart⟩

/-- Among columns of different names, a column takes the place of its namesake and leaves all others
alone. -/
theorem placeColumn_eq_map {c : Column} {cs : List Column} (distinct : (cs.map (·.name)).Nodup)
    (known : c.name ∈ cs.map (·.name)) :
    placeColumn c cs = cs.map fun old => if old.name = c.name then c else old := by
  induction cs with
  | nil => exact absurd known List.not_mem_nil
  | cons old rest ih =>
    rw [List.map_cons, List.nodup_cons] at distinct
    rw [placeColumn, List.map_cons]
    by_cases same : old.name = c.name
    · have others : rest.map (fun other => if other.name = c.name then c else other) = rest := by
        refine (List.map_congr_left fun other member => ?_).trans (List.map_id' rest)
        refine if_neg fun namesake => distinct.1 ?_
        rw [same, ← namesake]
        exact List.mem_map_of_mem member
      rw [if_pos same, if_pos same, others]
    · have known := (List.mem_cons.mp known).resolve_left fun same' => same same'.symm
      rw [if_neg same, if_neg same, ih distinct.2 known]

/-- Does the table start with the column that every table is created with, and are its columns its
own and of distinct names? -/
structure Started (t : Table) : Prop where
  created : t.mode = .create
  implicit : t.columns = idColumn .mysql t.name :: t.columns.tail
  distinct : (t.columns.map (·.name)).Nodup
  own : ∀ c ∈ t.columns, c.table = t.name

theorem started_created (name : String) : (Table.created .mysql name).Started where
  created := rfl
  implicit := rfl
  distinct := List.nodup_singleton _
  own := fun c member => by rw [List.mem_singleton.mp member]; rfl

section

variable {t : Table} (started : t.Started)

include started

/-- A column that is declared goes to its place behind the first one. -/
theorem Started.putColumn_columns {c : Column} (other : c.name ≠ implicitId) :
    (t.putColumn c).columns = idColumn .mysql t.name :: placeColumn c t.columns.tail := by
  have first : (idColumn .mysql t.name).name ≠ c.name := other.symm
  rw [putColumn]
  dsimp only
  rw [started.implicit, placeColumn, if_neg first]
  rfl

theorem Started.putColumn {c : Column} (own : c.table = t.name) (other : c.name ≠ implicitId) :
    (t.putColumn c).Started where
  created := started.created
  implicit := by
    rw [started.putColumn_columns other]
    rfl
  distinct := by
    rw [Table.putColumn]
    dsimp only
    rw [map_name_placeColumn]
    split
    next => exact started.distinct
    next fresh =>
      refine List.nodup_append.mpr ⟨started.distinct, List.nodup_singleton _, ?_⟩
      intro name member other last
      rw [List.mem_singleton.mp last]
      rintro rfl
      exact fresh member
  own := by
    intro c' member
    rcases mem_placeColumn member with rfl | member
    · exact own
    · exact started.own c' member

/-- Marks are put behind the first column, which is marked already. -/
theorem Started.markPrimary_columns (column : String) :
    markPrimary column t.columns = idColumn .mysql t.name ::
      t.columns.tail.map fun c => if c.name = column then c.asPrimary else c := by
  rw [markPrimary_eq_map started.distinct, started.implicit, List.map_cons, List.tail_cons]
  refine congrArg (· :: _) ?_
  split <;> rfl

theorem Started.markPrimary (column : String) :
    ({ t with columns := markPrimary column t.columns } : Table).Started where
  created := started.created
  implicit := by
    dsimp only
    rw [started.markPrimary_columns column]
    rfl
  distinct := by
    dsimp only
    rw [map_name_markPrimary column]
    exact started.distinct
  own := by
    dsimp only
    rw [markPrimary_eq_map started.distinct]
    intro c member
    obtain ⟨old, inside, rfl⟩ := List.mem_map.mp member
    have own := started.own old inside
    split <;> exact own

end

end SqlAccess.Table
