import SqlAccess.Proofs.Migration.Sends
import SqlAccess.Proofs.Query.Statement
import SqlAccess.Proofs.Predicate.Emptiness

/-!
# The statements on the history

The history of migrations is kept by ordinary queries and inserts. Here is what they come to: for
every name of the table, every dialect and every version, looking a version up, writing it down and
taking it back are each one statement with the version as its first parameter, and never fail to
render.
-/

namespace SqlAccess

variable {σ : Type}

open Rendering

namespace History

/-- The condition on the row of a version. -/
def versionTest (d : Dialect) : String :=
  d.identifier "version" ++ " = :param0"

/-- The parameters of a statement about the row of a version. -/
def versionParams (version : Int) : Params :=
  ⟨[(":param0", .int version)]⟩

/-- The query that asks whether a version is applied. -/
def lookupSql (h : History) (d : Dialect) : String :=
  "SELECT version FROM " ++ d.identifier h.table ++ " WHERE " ++ versionTest d ++ " LIMIT 1"

/-- The statement that takes back that a version is applied. -/
def removalSql (h : History) (d : Dialect) : String :=
  "DELETE FROM " ++ d.identifier h.table ++ " WHERE " ++ versionTest d

/-- The statement that writes down that a version is applied. -/
def entrySql (h : History) (d : Dialect) : String :=
  "INSERT INTO " ++ d.identifier h.table ++ " (" ++ d.identifiers ["version", "applied_at"] ++
    ") VALUES (:param0, :param1)"

/-- The parameters of the statement that writes down a version at the given time. -/
def entryParams (version : Int) (now : String) : Params :=
  ⟨[(":param0", .int version), (":param1", .ofText now)]⟩

variable (h : History) (d : Dialect) (version : Int)

theorem render_version :
    (h.versionQuery version).root.render d {} = .ok (versionTest d) (versionParams version) := by
  have leaf : ((Comparison.equal (.int version)).on "version").render d none {} =
      .ok (d.identifier "version" ++ " " ++ "=" ++ " " ++ ":param0") (versionParams version) := rfl
  have text : d.identifier "version" ++ " " ++ "=" ++ " " ++ ":param0" = versionTest d := by
    rw [versionTest]
    generalize d.identifier "version" = column
    simp [String.ext_iff]
  have visible : Text.blank (versionTest d) = false := by
    simp [versionTest, Text.blank_append, d.blank_identifier]
  have boolean : Connective.all.isBoolean = true := rfl
  change (Predicate.group none .all [(some "version",
    .comparison ((Comparison.equal (.int version)).on "version"))]).render d none {} = _
  rw [text] at leaf
  rw [Predicate.render, if_pos boolean]
  refine bind_eq_ok.mpr ⟨[versionTest d], _, ?_, pure_eq_ok.mpr ⟨rfl, rfl⟩⟩
  rw [Predicate.renderMembers]
  refine bind_eq_ok.mpr ⟨versionTest d, _, by rw [Predicate.render]; exact leaf, ?_⟩
  refine bind_eq_ok.mpr ⟨[], _, by rw [Predicate.renderMembers]; rfl, pure_eq_ok.mpr ⟨?_, rfl⟩⟩
  rw [Predicate.placed_comparison, visible]
  rfl

theorem whereClause_version {q : Query} (same : q.root = (h.versionQuery version).root) :
    q.whereClause d {} = .ok (" WHERE " ++ versionTest d) (versionParams version) := by
  refine Query.whereClause_eq_ok.mpr ⟨versionTest d, ?_, ?_⟩
  · rw [same]
    exact render_version h d version
  · have visible : Text.blank (versionTest d) = false := by
      simp [versionTest, Text.blank_append, d.blank_identifier]
    rw [Text.isEmpty_of_blank_eq_false visible]
    rfl

/-- The query that looks a version up. -/
def lookup : Query :=
  { h.versionQuery version with columns := ["version"], limit := some 1 }

theorem select_version :
    (h.lookup version).select d {} = .ok (h.lookupSql d) (versionParams version) := by
  have condition := whereClause_version h d version (q := h.lookup version) rfl
  have paging : d.limitClause (some 1) none = some "LIMIT 1" := by cases d <;> rfl
  have text : "SELECT " ++ "version" ++ " FROM " ++ d.identifier h.table ++
      (" WHERE " ++ versionTest d) ++ "" ++ "" ++ Query.spaced (d.limitClause (some 1) none) ++ "" =
        h.lookupSql d := by
    unfold lookupSql
    rewrite [paging]
    unfold Query.spaced
    generalize d.identifier h.table = table, versionTest d = test
    simp [String.ext_iff]
  refine bind_eq_ok.mpr ⟨h.table, {}, Query.source_eq_ok.mpr ⟨rfl, rfl⟩, ?_⟩
  refine bind_eq_ok.mpr ⟨" WHERE " ++ versionTest d, versionParams version, condition, pure_eq_ok.mpr ⟨?_, rfl⟩⟩
  exact text

theorem delete_version :
    (h.versionQuery version).delete d {} = .ok (h.removalSql d) (versionParams version) := by
  refine bind_eq_ok.mpr ⟨h.table, {}, rfl, ?_⟩
  refine bind_eq_ok.mpr ⟨(), {}, rfl, ?_⟩
  refine bind_eq_ok.mpr ⟨_, _, whereClause_version h d version rfl, pure_eq_ok.mpr ⟨?_, rfl⟩⟩
  simp [removalSql, String.append_assoc]
  rfl

theorem insert_version (now : String) :
    Query.insert d h.table (appliedRow version now) =
      .ok (h.entrySql d, entryParams version now) := by
  have second : (versionParams version).nextKey = ":param1" := by
    have free : ¬ (versionParams version).contains (Params.generated 1) = true := by
      rw [Params.contains_generated_iff]
      simp only [Params.keys, versionParams, List.map_cons, List.map_nil, List.mem_singleton]
      decide
    change Params.generated (Params.firstFree (versionParams version) 1 1) = _
    rw [Params.firstFree, if_neg free]
    decide
  have run : Query.insertion d (appliedRow version now) {} =
      .ok ([d.identifier "version", d.identifier "applied_at"], [":param0", ":param1"])
        (entryParams version now) := by
    have push : (versionParams version).push (.ofText now) =
        (":param1", entryParams version now) := by
      rw [Params.push, second]
      rfl
    refine bind_eq_ok.mpr ⟨":param0", versionParams version, rfl, ?_⟩
    refine bind_eq_ok.mpr ⟨([d.identifier "applied_at"], [":param1"]), _, ?_, rfl⟩
    refine bind_eq_ok.mpr ⟨":param1", entryParams version now, ?_, rfl⟩
    exact bound_eq_ok.mpr ⟨second.symm, by rw [push]⟩
  rw [Query.insert, run]
  refine congrArg (fun sql => Except.ok (sql, entryParams version now)) ?_
  simp only [entrySql, Text.joined, Dialect.identifiers, List.map_cons, List.map_nil]
  generalize d.identifier h.table = table, d.identifier "version" = first,
    d.identifier "applied_at" = second
  simp [String.ext_iff]

/-! ## Reading and writing -/

variable (ex : Executor σ)

theorem isApplied_eq : h.isApplied ex version =
    Migrating.ofStatement (ex.fetch (h.lookupSql ex.dialect) (versionParams version)) >>=
      fun rows => pure !rows.isEmpty := by
  have built : (h.lookup version).build (·.select ex.dialect) =
      (.ok (h.lookupSql ex.dialect), { h.lookup version with params := versionParams version }) :=
    Query.build_of_ok (select_version h ex.dialect version)
  unfold isApplied
  rw [show { h.versionQuery version with columns := ["version"], limit := some 1 } =
    h.lookup version from rfl]
  dsimp only
  rw [built]
  rfl

theorem recordApplied_eq (now : String) : h.recordApplied ex now version =
    Migrating.ofStatement (ex.execute (h.entrySql ex.dialect) (entryParams version now)) >>=
      fun _ => pure () := by
  unfold recordApplied
  rw [insert_version]
  rfl

theorem recordReverted_eq : h.recordReverted ex version =
    Migrating.ofStatement (ex.execute (h.removalSql ex.dialect) (versionParams version)) >>=
      fun changed => if changed = 0 then throw (.notApplied version) else pure () := by
  have built : (h.versionQuery version).build (·.delete ex.dialect) =
      (.ok (h.removalSql ex.dialect),
        { h.versionQuery version with params := versionParams version }) :=
    Query.build_of_ok (delete_version h ex.dialect version)
  unfold recordReverted
  rw [built]
  rfl

end History

end SqlAccess
