import SqlAccess.Query.Statement
import SqlAccess.Proofs.Predicate.Runs

/-!
# The statements over a query as data

A query is built into four statements. As a `Statement` they are one type, so that a law speaks of
all of them, or of any sequence of them, at once.

Two laws say everything that building one can do. `Statement.render_eq_ok` reads a success back:
the assigned values were bound, then the condition was rendered, and the text is an opening, the
clause of the condition if there is one, and a closing. `Statement.render_within` says that the
table only grows, and that a statement fails with an invalid condition or with the refusal of an
unguarded write.
-/

namespace SqlAccess

open Rendering

/-- A statement over a query. -/
inductive Statement where
  | select
  | update (attributes : List (String × Value))
  | delete
  | softDelete (flag : String) (stamp : Option (String × Value))

namespace Statement

/-- Does the statement change rows? -/
def isWrite : Statement → Bool
  | .select => false
  | _ => true

/-- The columns that the statement sets, with their values. -/
def assigned : Statement → List (String × Value)
  | .select | .delete => []
  | .update attributes => attributes
  | .softDelete flag stamp => (flag, .int 0) :: stamp.toList

/-- What a refusal of the statement calls it. -/
def refusedAs : Statement → Write
  | .update _ => .update
  | _ => .delete

/-- The SQL of the statement. -/
def render (d : Dialect) : Statement → Query → Rendering String
  | .select, q => q.select d
  | .update attributes, q => q.update d attributes
  | .delete, q => q.delete d
  | .softDelete flag stamp, q => q.softDelete d flag stamp

/-- What stands before the condition, given the rendered SET list. -/
def opening (d : Dialect) (q : Query) (table : String) (sets : List String) : Statement → String
  | .select =>
    "SELECT " ++ (if q.columns.isEmpty then "*" else Text.joined ", " q.columns) ++ " FROM " ++
      d.identifier table
  | .update _ | .softDelete _ _ =>
    "UPDATE " ++ d.identifier table ++ " SET " ++ Text.joined ", " sets
  | .delete => "DELETE FROM " ++ d.identifier table

/-- What stands behind the condition. -/
def closing (d : Dialect) (q : Query) : Statement → String
  | .select =>
    q.groupClause d ++ q.orderClause d ++ Query.spaced (d.limitClause q.limit q.offset) ++
      Query.spaced (if q.locking then some d.lockClause else none)
  | _ => q.writeTail d

end Statement

namespace Query

variable {d : Dialect} {q : Query} {t t' : Params}

/-! ## The parts of a statement -/

theorem source_eq_ok {table : String} :
    q.source t = .ok table t' ↔ q.table = some table ∧ t = t' := by
  unfold source
  cases q.table with
  | none => simpa using fault_ne_ok
  | some name => simpa using pure_eq_ok

theorem source_lawful (q : Query) : q.source.Lawful := by
  unfold source
  split
  · exact .pure _
  · exact lawful_fault _

/-- The clause of the condition is the rendered condition behind its keyword, and nothing when the
condition rendered empty. -/
theorem whereClause_eq_ok {clause : String} : q.whereClause d t = .ok clause t' ↔
    ∃ condition, q.root.render d t = .ok condition t' ∧
      clause = if condition.isEmpty then "" else " WHERE " ++ condition := by
  unfold whereClause
  constructor
  · intro h
    obtain ⟨condition, t₁, run, rest⟩ := bind_eq_ok.mp h
    obtain ⟨rfl, rfl⟩ := pure_eq_ok.mp rest
    exact ⟨condition, run, rfl⟩
  · rintro ⟨condition, run, rfl⟩
    exact bind_eq_ok.mpr ⟨condition, t', run, pure_eq_ok.mpr ⟨rfl, rfl⟩⟩

theorem whereClause_lawful (d : Dialect) (q : Query) : (q.whereClause d).Lawful :=
  (Predicate.render_lawful d _ _).bind fun _ => .pure _

theorem assignments_lawful (d : Dialect) (attributes : List (String × Value)) :
    (assignments d attributes).Lawful := by
  induction attributes with
  | nil => exact .pure []
  | cons setting rest ih =>
    obtain ⟨column, value⟩ := setting
    exact (Within.bound value).bind fun _ => ih.bind fun _ => .pure _

/-- Either the guard lets a write pass without a trace, or it refuses it. -/
theorem guardWrite_eq (q : Query) (write : Write) (table : String) :
    q.guardWrite write table =
      if q.unguarded then throw (.unguardedWrite write table) else pure () := rfl

theorem guardWrite_eq_ok {write : Write} {table : String} :
    q.guardWrite write table t = .ok () t' ↔ q.unguarded = false ∧ t = t' := by
  rw [guardWrite_eq]
  cases q.unguarded with
  | true =>
    change EStateM.Result.error _ t = _ ↔ _
    simp
  | false =>
    change EStateM.Result.ok () t = _ ↔ _
    simp

/-! ## Successful statements -/

theorem select_eq_ok {sql : String} (h : q.select d t = .ok sql t') :
    ∃ table condition, q.table = some table ∧ q.root.render d t = .ok condition t' ∧
      sql = Statement.select.opening d q table [] ++
        (if condition.isEmpty then "" else " WHERE " ++ condition) ++
        Statement.select.closing d q := by
  obtain ⟨table, t₁, source, h⟩ := bind_eq_ok.mp h
  obtain ⟨named, rfl⟩ := source_eq_ok.mp source
  obtain ⟨clause, t₂, run, h⟩ := bind_eq_ok.mp h
  obtain ⟨condition, rendered, rfl⟩ := whereClause_eq_ok.mp run
  obtain ⟨rfl, rfl⟩ := pure_eq_ok.mp h
  refine ⟨table, condition, named, rendered, ?_⟩
  simp only [Statement.opening, Statement.closing, String.append_assoc]

theorem delete_eq_ok {sql : String} (h : q.delete d t = .ok sql t') :
    ∃ table condition, q.table = some table ∧ q.unguarded = false ∧
      q.root.render d t = .ok condition t' ∧
      sql = Statement.delete.opening d q table [] ++
        (if condition.isEmpty then "" else " WHERE " ++ condition) ++
        Statement.delete.closing d q := by
  obtain ⟨table, t₁, source, h⟩ := bind_eq_ok.mp h
  obtain ⟨named, rfl⟩ := source_eq_ok.mp source
  obtain ⟨_, t₂, passed, h⟩ := bind_eq_ok.mp h
  obtain ⟨guarded, rfl⟩ := guardWrite_eq_ok.mp passed
  obtain ⟨clause, t₃, run, h⟩ := bind_eq_ok.mp h
  obtain ⟨condition, rendered, rfl⟩ := whereClause_eq_ok.mp run
  obtain ⟨rfl, rfl⟩ := pure_eq_ok.mp h
  refine ⟨table, condition, named, guarded, rendered, ?_⟩
  simp only [Statement.opening, Statement.closing, String.append_assoc]

theorem update_eq_ok {attributes : List (String × Value)} {sql : String}
    (h : q.update d attributes t = .ok sql t') :
    ∃ table sets mid condition, q.table = some table ∧ q.unguarded = false ∧
      assignments d attributes t = .ok sets mid ∧ q.root.render d mid = .ok condition t' ∧
      sql = (Statement.update attributes).opening d q table sets ++
        (if condition.isEmpty then "" else " WHERE " ++ condition) ++
        (Statement.update attributes).closing d q := by
  obtain ⟨table, t₁, source, h⟩ := bind_eq_ok.mp h
  obtain ⟨named, rfl⟩ := source_eq_ok.mp source
  obtain ⟨_, t₂, passed, h⟩ := bind_eq_ok.mp h
  obtain ⟨guarded, rfl⟩ := guardWrite_eq_ok.mp passed
  obtain ⟨sets, mid, assigned, h⟩ := bind_eq_ok.mp h
  have filled : sets.isEmpty = false := by
    cases empty : sets.isEmpty with
    | false => rfl
    | true =>
      rw [empty] at h
      obtain ⟨_, _, fault, _⟩ := bind_eq_ok.mp h
      exact absurd fault fault_ne_ok
  rw [filled] at h
  obtain ⟨clause, t₃, run, h⟩ := bind_eq_ok.mp h
  obtain ⟨condition, rendered, rfl⟩ := whereClause_eq_ok.mp run
  obtain ⟨rfl, rfl⟩ := pure_eq_ok.mp h
  refine ⟨table, sets, mid, condition, named, guarded, assigned, rendered, ?_⟩
  simp only [Statement.opening, Statement.closing, String.append_assoc]

end Query

namespace Statement

variable {d : Dialect} {q : Query} {st : Statement} {t t' : Params}

/-- **What a successful statement did**: it bound the assigned values, rendered the condition behind
them, and put the clause of the condition between its opening and its closing. A write passed the
guard. -/
theorem render_eq_ok {sql : String} (h : st.render d q t = .ok sql t') :
    ∃ table sets mid condition, q.table = some table ∧
      Query.assignments d st.assigned t = .ok sets mid ∧
      q.root.render d mid = .ok condition t' ∧
      (st.isWrite = true → q.unguarded = false) ∧
      sql = st.opening d q table sets ++
        (if condition.isEmpty then "" else " WHERE " ++ condition) ++ st.closing d q := by
  cases st with
  | select =>
    obtain ⟨table, condition, named, rendered, rfl⟩ := Query.select_eq_ok h
    exact ⟨table, [], t, condition, named, rfl, rendered, (fun write => nomatch write), rfl⟩
  | delete =>
    obtain ⟨table, condition, named, guarded, rendered, rfl⟩ := Query.delete_eq_ok h
    exact ⟨table, [], t, condition, named, rfl, rendered, fun _ => guarded, rfl⟩
  | update attributes =>
    obtain ⟨table, sets, mid, condition, named, guarded, assigned, rendered, rfl⟩ :=
      Query.update_eq_ok h
    exact ⟨table, sets, mid, condition, named, assigned, rendered, fun _ => guarded, rfl⟩
  | softDelete flag stamp =>
    obtain ⟨table, t₁, source, h⟩ := bind_eq_ok.mp h
    obtain ⟨-, rfl⟩ := Query.source_eq_ok.mp source
    obtain ⟨_, t₂, passed, h⟩ := bind_eq_ok.mp h
    obtain ⟨-, rfl⟩ := Query.guardWrite_eq_ok.mp passed
    obtain ⟨table, sets, mid, condition, named, guarded, assigned, rendered, rfl⟩ :=
      Query.update_eq_ok h
    exact ⟨table, sets, mid, condition, named, assigned, rendered, fun _ => guarded, rfl⟩

/-- Is the error one that a statement over the query can fail with: an invalid condition, or the
refusal of an unguarded write? -/
def Fails (q : Query) (e : Error) : Prop :=
  e.IsInvalidCondition ∨ q.unguarded = true ∧ ∃ write table, e = .unguardedWrite write table

/-- **What a statement can do**: it only adds to the table, whether it succeeds or fails, and it
fails with an invalid condition or because the write is not guarded. -/
theorem render_within (d : Dialect) (q : Query) (st : Statement) :
    (st.render d q).Within (Fails q) := by
  have source : q.source.Within (Fails q) := q.source_lawful.mono fun _ => .inl
  have clause : (q.whereClause d).Within (Fails q) :=
    (q.whereClause_lawful d).mono fun _ => .inl
  have guard : ∀ write table, (q.guardWrite write table).Within (Fails q) := by
    intro write table
    rw [Query.guardWrite_eq]
    cases unguarded : q.unguarded with
    | false => exact .pure ()
    | true => exact .throw (.inr ⟨unguarded, write, table, rfl⟩)
  have update : ∀ attributes, (q.update d attributes).Within (Fails q) := by
    intro attributes
    refine source.bind fun table => (guard .update table).bind fun _ => ?_
    refine ((Query.assignments_lawful d attributes).mono fun _ => .inl).bind fun sets => ?_
    split
    · exact ((lawful_fault _).mono fun _ => .inl).bind fun _ => clause.bind fun _ => .pure _
    · exact clause.bind fun _ => .pure _
  cases st with
  | select => exact source.bind fun _ => clause.bind fun _ => .pure _
  | delete =>
    exact source.bind fun table => (guard .delete table).bind fun _ => clause.bind fun _ => .pure _
  | update attributes => exact update attributes
  | softDelete flag stamp =>
    exact source.bind fun table => (guard .delete table).bind fun _ => update _

/-- **An unguarded write is refused before anything else happens.** -/
theorem render_of_unguarded {table : String} (write : st.isWrite = true)
    (named : q.table = some table) (unguarded : q.unguarded = true) :
    st.render d q t = .error (.unguardedWrite st.refusedAs table) t := by
  have source : ∀ rest : String → Rendering String, (q.source >>= rest) t = rest table t := by
    intro rest
    simp only [Query.source, named]
    rfl
  have guard : ∀ (w : Write) (rest : Unit → Rendering String),
      (q.guardWrite w table >>= rest) t = .error (.unguardedWrite w table) t := by
    intro w rest
    rw [Query.guardWrite_eq, if_pos unguarded]
    rfl
  cases st with
  | select => cases write
  | update attributes => exact (source _).trans (guard .update _)
  | delete => exact (source _).trans (guard .delete _)
  | softDelete flag stamp => exact (source _).trans (guard .delete _)

end Statement

namespace Query

variable {q : Query}

/-! ## Statements built into the query's own table -/

theorem build_snd (q : Query) (statement : Query → Rendering String) :
    (q.build statement).2 = { q with params := (statement q).after q.params } := by
  unfold build after
  cases statement q q.params <;> rfl

theorem build_of_ok {statement : Query → Rendering String} {sql : String} {t : Params}
    (h : statement q q.params = .ok sql t) :
    q.build statement = (.ok sql, { q with params := t }) := by
  unfold build
  rw [h]

theorem build_fst_eq_ok {statement : Query → Rendering String} {sql : String} :
    (q.build statement).1 = .ok sql ↔
      statement q q.params = .ok sql (q.build statement).2.params := by
  unfold build
  cases statement q q.params <;> simp

theorem build_fst_eq_error {statement : Query → Rendering String} {e : Error} :
    (q.build statement).1 = .error e ↔
      statement q q.params = .error e (q.build statement).2.params := by
  unfold build
  cases statement q q.params <;> simp

end Query

end SqlAccess
