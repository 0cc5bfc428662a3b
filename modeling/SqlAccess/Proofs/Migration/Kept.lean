import Mathlib.Data.Finset.Basic
import SqlAccess.Proofs.Migration.Phases
import SqlAccess.Proofs.Migration.Set

/-!
# A history that is kept

An executor *keeps* a history when the versions in it are a set: the queries on the history answer
from the set, the entry of a version adds it, its removal takes it away and tells whether it was
there, and a statement that fails changes nothing. Whether a statement fails is up to the executor.

The law on a run (`Runner.run_versions`) says what becomes of the set, as long as the definitions of
the migration leave it alone. A run that is dry or fails leaves the set as it is. A run that
succeeds adds a version that was not there, or takes one away that was.
-/

namespace SqlAccess

variable {σ : Type}

/-! ## Listing the history -/

namespace History

open Rendering

/-- The query for the applied migrations. -/
def listingSql (h : History) (d : Dialect) : String :=
  "SELECT version, applied_at FROM " ++ d.identifier h.table ++ " ORDER BY " ++
    d.identifier "version" ++ " ASC"

/-- The query that lists the applied migrations. -/
def listing (h : History) : Query :=
  { (Query.ofTable h.table).orderBy "version" (some .ascending) with
    columns := ["version", "applied_at"] }

theorem select_listing (h : History) (d : Dialect) :
    h.listing.select d {} = .ok (h.listingSql d) {} := by
  have condition : h.listing.whereClause d {} = .ok "" {} := rfl
  have columns : (if h.listing.columns.isEmpty then "*" else Text.joined ", " h.listing.columns) =
      "version" ++ ", " ++ "applied_at" := rfl
  have grouping : h.listing.groupClause d = "" := rfl
  have ordering : h.listing.orderClause d = " ORDER BY " ++ (d.identifier "version" ++ " ASC") := by
    have plain : isFunctionCall "version".toList = false := by decide
    change " ORDER BY " ++ (OrderEntry.mk "version" (some .ascending)).render d = _
    rw [OrderEntry.render, plain]
    exact congrArg (" ORDER BY " ++ ·) (String.append_assoc ..)
  have paging : Query.spaced (d.limitClause h.listing.limit h.listing.offset) = "" := by
    cases d <;> rfl
  have locking : Query.spaced (if h.listing.locking then some d.lockClause else none) = "" := rfl
  refine bind_eq_ok.mpr ⟨h.table, {}, Query.source_eq_ok.mpr ⟨rfl, rfl⟩, ?_⟩
  refine bind_eq_ok.mpr ⟨"", {}, condition, pure_eq_ok.mpr ⟨?_, rfl⟩⟩
  rw [columns, grouping, ordering, paging, locking]
  unfold listingSql
  generalize d.identifier h.table = table, d.identifier "version" = column
  simp [String.ext_iff]

theorem applied_eq (h : History) (ex : Executor σ) : h.applied ex =
    Migrating.ofStatement (ex.fetch (h.listingSql ex.dialect) {}) >>=
      fun rows => MonadExcept.ofExcept (rows.mapM AppliedMigration.ofRow) := by
  have built : h.listing.build (·.select ex.dialect) =
      (.ok (h.listingSql ex.dialect), { h.listing with params := {} }) :=
    Query.build_of_ok (select_listing h ex.dialect)
  unfold applied
  rw [show { (Query.ofTable h.table).orderBy "version" (some .ascending) with
    columns := ["version", "applied_at"] } = h.listing from rfl]
  dsimp only
  rw [built]
  change (Migrating.ofStatement (ex.fetch (h.listingSql ex.dialect) {}) >>= _) = _
  refine bind_congr (m := Migrating σ) fun rows => ?_
  cases rows.mapM AppliedMigration.ofRow <;> rfl

/-- The row is that of a version: its column with the version can be read as that number. -/
def Tells (row : Row) (version : Int) : Prop :=
  (row.get? "version").bind Value.toInteger? = some version

/-- Where every row tells a version, the rows are those of applied migrations, which have just the
versions that the rows tell. -/
theorem mapM_ofRow {rows : List Row} (told : ∀ row ∈ rows, ∃ v, Tells row v) :
    ∃ applied, rows.mapM AppliedMigration.ofRow = .ok applied ∧
      ∀ v, v ∈ appliedVersions applied ↔ ∃ row ∈ rows, Tells row v := by
  induction rows with
  | nil =>
    refine ⟨[], rfl, fun v => ?_⟩
    constructor
    · exact fun member => nomatch member
    · rintro ⟨_, member, _⟩
      cases member
  | cons row rest ih =>
    obtain ⟨applied, read, versions⟩ := ih fun row member => told row (List.mem_cons_of_mem _ member)
    obtain ⟨version, tells⟩ := told row List.mem_cons_self
    unfold Tells at tells
    obtain ⟨m, first, same⟩ : ∃ m, AppliedMigration.ofRow row = .ok m ∧ m.version = version := by
      rw [AppliedMigration.ofRow, tells]
      exact ⟨_, rfl, rfl⟩
    refine ⟨m :: applied, ?_, fun v => ?_⟩
    · rw [List.mapM_cons, first, read]
      rfl
    · have here : Tells row v ↔ v = m.version := by
        rw [Tells, tells, same, Option.some_inj]
        exact eq_comm
      change v ∈ withVersion m.version (appliedVersions applied) ↔ _
      rw [mem_withVersion, versions]
      simp only [List.mem_cons, exists_eq_or_imp, here]

end History

/-! ## Keeping the history -/

/-- The executor keeps the versions in the history as a set. -/
structure Executor.Keeps (ex : Executor σ) (h : History) (versions : σ → Finset Int) : Prop where
  /-- A look-up finds rows where the version is in the set. -/
  found : ∀ {version s rows s'},
    ex.fetch (h.lookupSql ex.dialect) (History.versionParams version) s = .ok rows s' →
      (rows.isEmpty = false ↔ version ∈ versions s) ∧ versions s' = versions s
  lookupFailed : ∀ {version s e s'},
    ex.fetch (h.lookupSql ex.dialect) (History.versionParams version) s = .error e s' →
      versions s' = versions s
  /-- A listing has a row for each version in the set, and no other rows. -/
  listed : ∀ {s rows s'}, ex.fetch (h.listingSql ex.dialect) {} s = .ok rows s' →
    (∀ row ∈ rows, ∃ v ∈ versions s, History.Tells row v) ∧
      (∀ v ∈ versions s, ∃ row ∈ rows, History.Tells row v) ∧ versions s' = versions s
  listingFailed : ∀ {s e s'}, ex.fetch (h.listingSql ex.dialect) {} s = .error e s' →
    versions s' = versions s
  /-- An entry adds its version. -/
  entered : ∀ {version now s rows s'},
    ex.execute (h.entrySql ex.dialect) (History.entryParams version now) s = .ok rows s' →
      versions s' = insert version (versions s)
  entryFailed : ∀ {version now s e s'},
    ex.execute (h.entrySql ex.dialect) (History.entryParams version now) s = .error e s' →
      versions s' = versions s
  /-- A removal takes its version away, and changes rows where there was one. -/
  removed : ∀ {version s rows s'},
    ex.execute (h.removalSql ex.dialect) (History.versionParams version) s = .ok rows s' →
      (rows ≠ 0 ↔ version ∈ versions s) ∧ versions s' = (versions s).erase version
  removalFailed : ∀ {version s e s'},
    ex.execute (h.removalSql ex.dialect) (History.versionParams version) s = .error e s' →
      versions s' = versions s

/-- The statement leaves the versions in the history alone, whether it fails or not. -/
def Executor.Spares (ex : Executor σ) (versions : σ → Finset Int) (sql : String) : Prop :=
  ∀ s, versions ((Migrating.ofStatement (ex.execute sql {})).leaves s) = versions s

/-- The statements of the migration leave the versions in the history alone. -/
def Migration.Spares (m : Migration) (ex : Executor σ) (versions : σ → Finset Int) : Prop :=
  ∀ direction sql, m.Carries direction ex.dialect sql → ex.Spares versions sql

/-- The versions behind a run in the direction that succeeds. -/
def RunDirection.recorded (version : Int) (versions : Finset Int) : RunDirection → Finset Int
  | .up => insert version versions
  | .down => versions.erase version

variable {ex : Executor σ} {h : History} {versions : σ → Finset Int} {α : Type}

theorem Migrating.of_ofStatement_ok {step : EStateM Error σ α} {s s' : σ} {a : α}
    (taken : ofStatement step s = .ok a s') : step s = .ok a s' := by
  unfold ofStatement EStateM.adaptExcept at taken
  cases result : step s with
  | ok _ _ =>
    rw [result] at taken
    cases taken
    rfl
  | error _ _ =>
    rw [result] at taken
    cases taken

theorem Migrating.of_ofStatement_error {step : EStateM Error σ α} {s s' : σ} {e : MigrationError}
    (failed : ofStatement step s = .error e s') :
    ∃ e', step s = .error e' s' ∧ e = .statement e' := by
  unfold ofStatement EStateM.adaptExcept at failed
  cases result : step s with
  | ok _ _ =>
    rw [result] at failed
    cases failed
  | error e' _ =>
    rw [result] at failed
    cases failed
    exact ⟨e', rfl, rfl⟩

theorem Run.onSession_eq_ok {x : Migrating σ α} {run run' : Run σ} {a : α}
    (taken : onSession x run = .ok a run') :
    x run.session = .ok a run'.session ∧ run' = { run with session := run'.session } := by
  unfold onSession at taken
  cases step : x run.session with
  | ok _ _ =>
    rw [step] at taken
    cases taken
    exact ⟨rfl, rfl⟩
  | error _ _ =>
    rw [step] at taken
    cases taken

theorem Run.onSession_eq_error {x : Migrating σ α} {run run' : Run σ} {e : MigrationError}
    (failed : onSession x run = .error e run') :
    x run.session = .error e run'.session ∧ run' = { run with session := run'.session } := by
  unfold onSession at failed
  cases step : x run.session with
  | ok _ _ =>
    rw [step] at failed
    cases failed
  | error _ _ =>
    rw [step] at failed
    cases failed
    exact ⟨rfl, rfl⟩

namespace Executor.Keeps

variable (keeps : ex.Keeps h versions) {version : Int}

include keeps

theorem isApplied_eq_ok {s s' : σ} {applied : Bool}
    (asked : h.isApplied ex version s = .ok applied s') :
    (applied = true ↔ version ∈ versions s) ∧ versions s' = versions s := by
  rw [History.isApplied_eq] at asked
  obtain ⟨rows, mid, found, answered⟩ := Migrating.bind_eq_ok.mp asked
  obtain ⟨member, same⟩ := keeps.found (Migrating.of_ofStatement_ok found)
  cases answered
  rw [Bool.not_eq_true']
  exact ⟨member, same⟩

theorem preserves_isApplied (H : Finset Int) :
    (h.isApplied ex version).Preserves fun s => versions s = H := by
  rw [History.isApplied_eq]
  refine Migrating.Preserves.bind (fun s same => ?_) fun _ => .pure _
  unfold Migrating.leaves
  cases step : Migrating.ofStatement (ex.fetch _ _) s with
  | ok rows s' => exact (keeps.found (Migrating.of_ofStatement_ok step)).2.trans same
  | error e s' =>
    obtain ⟨e', failed, -⟩ := Migrating.of_ofStatement_error step
    exact (keeps.lookupFailed failed).trans same

/-- The applied versions are those in the set. -/
theorem applied_eq_ok {s s' : σ} {applied : List AppliedMigration}
    (asked : h.applied ex s = .ok applied s') :
    (∀ v, v ∈ appliedVersions applied ↔ v ∈ versions s) ∧ versions s' = versions s := by
  rw [History.applied_eq] at asked
  obtain ⟨rows, mid, fetched, answered⟩ := Migrating.bind_eq_ok.mp asked
  obtain ⟨told, every, same⟩ := keeps.listed (Migrating.of_ofStatement_ok fetched)
  obtain ⟨read, tells, members⟩ := History.mapM_ofRow fun row member => by
    obtain ⟨v, -, version⟩ := told row member
    exact ⟨v, version⟩
  rw [tells] at answered
  cases answered
  refine ⟨fun v => (members v).trans ?_, same⟩
  constructor
  · rintro ⟨row, member, version⟩
    obtain ⟨v', inSet, version'⟩ := told row member
    obtain rfl := Option.some.inj (version.symm.trans version')
    exact inSet
  · exact every v

/-- A listing fails only where its statement does. -/
theorem applied_eq_error {s s' : σ} {e : MigrationError} (asked : h.applied ex s = .error e s') :
    (∃ e', e = .statement e') ∧ versions s' = versions s := by
  rw [History.applied_eq, Migrating.bind_eq] at asked
  cases step : Migrating.ofStatement (ex.fetch (h.listingSql ex.dialect) {}) s with
  | error e' mid =>
    rw [step] at asked
    cases asked
    obtain ⟨e', failed, rfl⟩ := Migrating.of_ofStatement_error step
    exact ⟨⟨e', rfl⟩, keeps.listingFailed failed⟩
  | ok rows mid =>
    rw [step] at asked
    obtain ⟨told, -, -⟩ := keeps.listed (Migrating.of_ofStatement_ok step)
    obtain ⟨read, tells, -⟩ := History.mapM_ofRow fun row member => by
      obtain ⟨v, -, version⟩ := told row member
      exact ⟨v, version⟩
    dsimp only at asked
    rw [tells] at asked
    cases asked

end Executor.Keeps

namespace Runner

variable {r : Runner} {direction : RunDirection} {m : Migration} {id : MigrationId}

/-- Lists the applied migrations, for a call that has to know them. -/
def listing (r : Runner) (ex : Executor σ) : Migrating (Run σ) (List AppliedMigration) :=
  Run.onSession (r.history.applied ex)

/-- A listing tells the versions in the set, or its statement fails. Either way the set stays as it
is. -/
theorem listing_cases (keeps : ex.Keeps r.history versions) (run : Run σ) :
    (∃ applied run', r.listing ex run = .ok applied run' ∧
      (∀ v, v ∈ appliedVersions applied ↔ v ∈ versions run.session) ∧
        versions run'.session = versions run.session) ∨
    ∃ e run', r.listing ex run = .error (.statement e) run' ∧
      versions run'.session = versions run.session := by
  cases listed : r.listing ex run with
  | ok applied run' =>
    obtain ⟨members, same⟩ := keeps.applied_eq_ok (Run.onSession_eq_ok listed).1
    exact .inl ⟨applied, run', rfl, members, same⟩
  | error e run' =>
    obtain ⟨⟨e', rfl⟩, same⟩ := keeps.applied_eq_error (Run.onSession_eq_error listed).1
    exact .inr ⟨e', run', rfl, same⟩

theorem preserves_send_versions (spares : ∀ sql, m.Carries direction ex.dialect sql →
      ex.Spares versions sql) (H : Finset Int) {sql : String}
    (carried : m.Carries direction ex.dialect sql) :
    (r.send ex sql).Preserves fun run => versions run.session = H := by
  unfold send
  split
  · exact .modify fun _ same => same
  · refine (Run.preserves_onSession _ fun run same => ?_).bind fun _ => .pure ()
    exact (spares sql carried run.session).trans same

/-- Up to its entry, a run leaves the versions alone. -/
theorem preserves_prepare_versions (direction : RunDirection) (id : MigrationId)
    (keeps : ex.Keeps r.history versions) (spares : m.Spares ex versions) (H : Finset Int) :
    (r.prepare ex direction m id).Preserves fun run => versions run.session = H := by
  have unaffected : Run.Unaffected fun run : Run σ => versions run.session = H :=
    ⟨fun _ => .modify fun _ same => same, fun _ _ => .modify fun _ same => same⟩
  have asked : (r.checkDue ex direction id.version).Preserves
      fun run : Run σ => versions run.session = H := by
    cases dry : r.dryRun with
    | true =>
      unfold checkDue
      rw [if_pos dry]
      exact .pure ()
    | false =>
      rw [checkDue_eq dry]
      refine (Run.preserves_onSession _ fun run same =>
        keeps.preserves_isApplied H run.session same).bind fun applied => ?_
      split
      · exact .pure ()
      · exact .throw _
  have worked : (r.work ex direction m id).Preserves fun run : Run σ => versions run.session = H :=
    preserves_work unaffected fun sql carried =>
      preserves_send_versions (spares direction) H carried
  have begun : (modify fun run : Run σ => { run with direction, phase := .start } :
      Migrating (Run σ) Unit).Preserves fun run => versions run.session = H :=
    .modify fun _ same => same
  exact begun.bind fun _ => asked.bind fun _ => worked

/-- A run that comes to its entry is due: it is to revert a version that is there, or to apply one
that is not. -/
theorem due_of_prepare (sending : r.dryRun = false) (keeps : ex.Keeps r.history versions)
    {run mid : Run σ} (prepared : r.prepare ex direction m id run = .ok () mid) :
    id.version ∈ versions run.session ↔ direction = .down := by
  rw [prepare_eq, checkDue_eq sending, bind_assoc] at prepared
  obtain ⟨applied, run', asked, prepared⟩ := Migrating.bind_eq_ok.mp prepared
  obtain ⟨step, -⟩ := Run.onSession_eq_ok asked
  have due : applied = (direction == .down) := by
    by_contra other
    rw [if_neg other] at prepared
    cases prepared
  rw [← (keeps.isApplied_eq_ok step).1, due, beq_iff_eq]

/-- The entry of a version that succeeds brings the set up to date. -/
theorem record_eq_ok (sending : r.dryRun = false) (keeps : ex.Keeps r.history versions)
    {version : Int} {run run' : Run σ}
    (recorded : r.record ex direction version run = .ok () run') :
    versions run'.session = direction.recorded version (versions run.session) := by
  unfold record at recorded
  rw [if_neg (by rw [sending]; exact Bool.false_ne_true)] at recorded
  obtain ⟨step, -⟩ := Run.onSession_eq_ok recorded
  cases direction with
  | up =>
    dsimp only at step
    rw [History.recordApplied_eq] at step
    obtain ⟨rows, s', executed, answered⟩ := Migrating.bind_eq_ok.mp step
    cases answered
    exact keeps.entered (Migrating.of_ofStatement_ok executed)
  | down =>
    dsimp only at step
    rw [History.recordReverted_eq] at step
    obtain ⟨rows, s', executed, answered⟩ := Migrating.bind_eq_ok.mp step
    split at answered
    · cases answered
    · cases answered
      exact (keeps.removed (Migrating.of_ofStatement_ok executed)).2

/-- The entry of a version that fails leaves the set as it is. -/
theorem record_eq_error (sending : r.dryRun = false) (keeps : ex.Keeps r.history versions)
    {version : Int} {run run' : Run σ} {e : MigrationError}
    (failed : r.record ex direction version run = .error e run') :
    versions run'.session = versions run.session := by
  unfold record at failed
  rw [if_neg (by rw [sending]; exact Bool.false_ne_true)] at failed
  obtain ⟨step, -⟩ := Run.onSession_eq_error failed
  cases direction with
  | up =>
    dsimp only at step
    rw [History.recordApplied_eq, Migrating.bind_eq] at step
    cases executed : Migrating.ofStatement (ex.execute (r.history.entrySql ex.dialect)
        (History.entryParams version r.now)) run.session with
    | ok rows s' =>
      rw [executed] at step
      cases step
    | error e' s' =>
      rw [executed] at step
      cases step
      obtain ⟨_, refused, -⟩ := Migrating.of_ofStatement_error executed
      exact keeps.entryFailed refused
  | down =>
    dsimp only at step
    rw [History.recordReverted_eq, Migrating.bind_eq] at step
    cases executed : Migrating.ofStatement (ex.execute (r.history.removalSql ex.dialect)
        (History.versionParams version)) run.session with
    | error e' s' =>
      rw [executed] at step
      cases step
      obtain ⟨_, refused, -⟩ := Migrating.of_ofStatement_error executed
      exact keeps.removalFailed refused
    | ok rows s' =>
      rw [executed] at step
      dsimp only at step
      split at step
      · next none =>
        -- A removal that found nothing took nothing away.
        cases step
        obtain ⟨changed, erased⟩ := keeps.removed (Migrating.of_ofStatement_ok executed)
        have absent : version ∉ versions run.session := fun member => changed.mpr member none
        rw [erased, Finset.erase_eq_of_notMem absent]
      · cases step

/-- In its last phase, a run does to the session what its entry does. -/
theorem conclude_session (run : Run σ) : ((r.conclude ex direction id).leaves run).session =
    ((r.record ex direction id.version).leaves { run with phase := .finish }).session := by
  unfold Migrating.leaves
  rw [conclude_eq, Migrating.bind_eq]
  cases r.record ex direction id.version { run with phase := .finish } <;> rfl

/-- What the last phase of a run does to the versions. -/
theorem conclude_versions (keeps : ex.Keeps r.history versions) (direction : RunDirection)
    (id : MigrationId) (run : Run σ) :
    versions ((r.conclude ex direction id).leaves run).session =
      if !r.dryRun && ((r.conclude ex direction id).answer run).isOk then
        direction.recorded id.version (versions run.session)
      else versions run.session := by
  rw [conclude_session, answer_conclude]
  unfold Migrating.leaves Migrating.answer
  cases dry : r.dryRun with
  | true =>
    unfold record
    rw [if_pos dry]
    rfl
  | false =>
    cases recorded : r.record ex direction id.version { run with phase := .finish } with
    | ok _ run' =>
      have entered := record_eq_ok dry keeps recorded
      exact entered
    | error e run' =>
      have same := record_eq_error dry keeps recorded
      exact same

/-- **What a run does to the versions.** A run that succeeds, and is no dry run, takes a version away
that was there or adds one that was not. Any other run leaves the versions alone. -/
theorem run_versions (keeps : ex.Keeps r.history versions) (spares : m.Spares ex versions)
    (named : MigrationId.parse m.identifier = .ok id) (direction : RunDirection) (run : Run σ) :
    ((!r.dryRun && ((r.run ex direction m).answer run).isOk) = true →
      (id.version ∈ versions run.session ↔ direction = .down)) ∧
    versions ((r.run ex direction m).leaves run).session =
      if !r.dryRun && ((r.run ex direction m).answer run).isOk then
        direction.recorded id.version (versions run.session)
      else versions run.session := by
  have kept := preserves_prepare_versions direction id keeps spares (versions run.session) run rfl
  have ends := conclude_versions keeps direction id
  rw [r.run_eq ex direction named]
  unfold Migrating.leaves Migrating.answer at *
  rw [Migrating.bind_eq]
  cases prepared : r.prepare ex direction m id run with
  | error e mid =>
    rw [prepared] at kept
    have idle : ¬ (!r.dryRun && false) = true := by
      rw [Bool.and_false]
      exact Bool.false_ne_true
    exact ⟨fun counts => absurd counts idle, kept.trans (if_neg idle).symm⟩
  | ok _ mid =>
    rw [prepared] at kept
    refine ⟨fun counts => ?_, ?_⟩
    · rw [Bool.and_eq_true, Bool.not_eq_true'] at counts
      exact due_of_prepare counts.1 keeps prepared
    · rw [← kept]
      exact ends mid

end Runner

/-! ## A database with a history -/

/-- A session of a database that has a history: the versions in it, in ascending order, and how many
statements came. -/
structure Ledger where
  versions : List Int := []
  sent : Nat := 0

namespace Ledger

/-- The versions in the history. -/
def set (l : Ledger) : Finset Int :=
  l.versions.toFinset

/-- The row of a version. -/
def row (version : Int) : Row :=
  ⟨[("version", .int version), ("applied_at", .null)]⟩

variable (h : History) (d : Dialect) (sql : String) (params : Params) (versions : List Int)

/-- The rows that a query finds. -/
def find : List Row :=
  match params.get? ":param0" with
  | some (.int version) =>
    if sql = h.lookupSql d ∧ version ∈ versions then [row version] else []
  | _ => if sql = h.listingSql d then versions.map row else []

/-- How many rows a statement changes, and the versions behind it. -/
def change : Nat × List Int :=
  match params.get? ":param0" with
  | some (.int version) =>
    if sql = h.entrySql d then (1, withVersion version versions)
    else if sql = h.removalSql d then
      (if version ∈ versions then 1 else 0, versions.filter (· ≠ version))
    else (0, versions)
  | _ => (0, versions)

variable {h d versions}

theorem find_lookup (version : Int) :
    find h d (h.lookupSql d) (History.versionParams version) versions =
      if version ∈ versions then [row version] else [] := by
  have asked : (History.versionParams version).get? ":param0" = some (.int version) := rfl
  unfold find
  rw [asked]
  exact if_congr (and_iff_right rfl) rfl rfl

theorem find_listing : find h d (h.listingSql d) {} versions = versions.map row := by
  have asked : ({} : Params).get? ":param0" = none := rfl
  unfold find
  rw [asked]
  exact if_pos rfl

theorem change_entry (version : Int) (now : String) :
    change h d (h.entrySql d) (History.entryParams version now) versions =
      (1, withVersion version versions) := by
  have asked : (History.entryParams version now).get? ":param0" = some (.int version) := rfl
  unfold change
  rw [asked]
  exact if_pos rfl

theorem removalSql_ne_entrySql : h.removalSql d ≠ h.entrySql d := by
  intro same
  have first := congrArg (fun text => text.toList.head?) same
  simp [History.removalSql, History.entrySql] at first

theorem change_removal (version : Int) :
    change h d (h.removalSql d) (History.versionParams version) versions =
      (if version ∈ versions then 1 else 0, versions.filter (· ≠ version)) := by
  have asked : (History.versionParams version).get? ":param0" = some (.int version) := rfl
  unfold change
  rw [asked]
  dsimp only
  rw [if_neg removalSql_ne_entrySql, if_pos rfl]

end Ledger

/-- A database that keeps the history. It refuses the statements with the given numbers. -/
def Executor.keeping (h : History) (d : Dialect) (refuses : Nat → Bool) : Executor Ledger where
  dialect := d
  execute sql params := fun l =>
    if refuses l.sent then .error (.database none "refused" sql) { l with sent := l.sent + 1 }
    else
      let (rows, versions) := Ledger.change h d sql params l.versions
      .ok rows ⟨versions, l.sent + 1⟩
  fetch sql params := fun l =>
    if refuses l.sent then .error (.database none "refused" sql) { l with sent := l.sent + 1 }
    else .ok (Ledger.find h d sql params l.versions) { l with sent := l.sent + 1 }

namespace Executor

variable (h : History) (d : Dialect) (refuses : Nat → Bool)

/-- A refused statement is counted, and changes nothing else. -/
theorem versions_of_refused {α : Type} {refused : Bool} {e e' : Error} {l l' behind : Ledger}
    {answer : α} (failed : (if refused then .error e { l with sent := l.sent + 1 }
      else .ok answer behind : EStateM.Result Error Ledger α) = .error e' l') :
    l'.versions = l.versions := by
  split at failed
  · cases failed
    rfl
  · cases failed

theorem keeping_execute_ok {sql : String} {params : Params} {l l' : Ledger} {rows : Nat}
    (executed : (keeping h d refuses).execute sql params l = .ok rows l') :
    rows = (Ledger.change h d sql params l.versions).1 ∧
      l'.versions = (Ledger.change h d sql params l.versions).2 := by
  change (if refuses l.sent then _ else _) = _ at executed
  split at executed
  · cases executed
  · cases executed
    exact ⟨rfl, rfl⟩

theorem keeping_execute_error {sql : String} {params : Params} {l l' : Ledger} {e : Error}
    (failed : (keeping h d refuses).execute sql params l = .error e l') :
    l'.versions = l.versions :=
  versions_of_refused failed

theorem keeping_fetch_ok {sql : String} {params : Params} {l l' : Ledger} {rows : List Row}
    (fetched : (keeping h d refuses).fetch sql params l = .ok rows l') :
    rows = Ledger.find h d sql params l.versions ∧ l'.versions = l.versions := by
  change (if refuses l.sent then _ else _) = _ at fetched
  split at fetched
  · cases fetched
  · cases fetched
    exact ⟨rfl, rfl⟩

theorem keeping_fetch_error {sql : String} {params : Params} {l l' : Ledger} {e : Error}
    (failed : (keeping h d refuses).fetch sql params l = .error e l') :
    l'.versions = l.versions :=
  versions_of_refused failed

/-- Whichever statements it refuses, the database keeps the history. -/
theorem keeps_keeping : (keeping h d refuses).Keeps h Ledger.set where
  found := by
    intro version l rows l' fetched
    obtain ⟨told, same⟩ := keeping_fetch_ok h d refuses fetched
    have rows_eq := told.trans (Ledger.find_lookup version)
    refine ⟨?_, congrArg List.toFinset same⟩
    rw [rows_eq, Ledger.set, List.mem_toFinset]
    by_cases member : version ∈ l.versions <;> simp [member]
  lookupFailed failed := congrArg List.toFinset (keeping_fetch_error h d refuses failed)
  listed := by
    intro l rows l' fetched
    obtain ⟨told, same⟩ := keeping_fetch_ok h d refuses fetched
    rw [told.trans Ledger.find_listing]
    refine ⟨fun row member => ?_, fun v member => ?_, congrArg List.toFinset same⟩
    · obtain ⟨v, there, rfl⟩ := List.mem_map.mp member
      exact ⟨v, List.mem_toFinset.mpr there, rfl⟩
    · exact ⟨Ledger.row v, List.mem_map_of_mem (List.mem_toFinset.mp member), rfl⟩
  listingFailed failed := congrArg List.toFinset (keeping_fetch_error h d refuses failed)
  entered := by
    intro version now l rows l' executed
    obtain ⟨-, behind⟩ := keeping_execute_ok h d refuses executed
    have versions_eq := behind.trans (congrArg Prod.snd (Ledger.change_entry version now))
    ext v
    rw [Ledger.set, versions_eq, List.mem_toFinset, mem_withVersion, Finset.mem_insert, Ledger.set,
      List.mem_toFinset]
  entryFailed failed := congrArg List.toFinset (keeping_execute_error h d refuses failed)
  removed := by
    intro version l rows l' executed
    obtain ⟨changed, behind⟩ := keeping_execute_ok h d refuses executed
    have rows_eq := changed.trans (congrArg Prod.fst (Ledger.change_removal version))
    have versions_eq := behind.trans (congrArg Prod.snd (Ledger.change_removal version))
    constructor
    · rw [rows_eq, Ledger.set, List.mem_toFinset]
      by_cases member : version ∈ l.versions <;> simp [member]
    · ext v
      rw [Ledger.set, versions_eq, List.mem_toFinset, List.mem_filter, decide_eq_true_iff,
        Finset.mem_erase, Ledger.set, List.mem_toFinset]
      exact and_comm
  removalFailed failed := congrArg List.toFinset (keeping_execute_error h d refuses failed)

/-- A statement without parameters is about no version. -/
theorem spares_keeping (sql : String) : (keeping h d refuses).Spares Ledger.set sql := by
  intro l
  unfold Migrating.leaves
  cases step : Migrating.ofStatement ((keeping h d refuses).execute sql {}) l with
  | ok rows l' =>
    have executed := (keeping_execute_ok h d refuses (Migrating.of_ofStatement_ok step)).2
    exact congrArg List.toFinset executed
  | error e l' =>
    obtain ⟨e', failed, -⟩ := Migrating.of_ofStatement_error step
    exact congrArg List.toFinset (keeping_execute_error h d refuses failed)

end Executor

/-- A migration that creates a table with nothing but its key. -/
def Migration.ofTable (identifier table : String) : Migration where
  identifier := identifier
  change := modify fun s => s.createTable table id

/-- The migrations of a weblog. -/
def MigrationSet.weblog : MigrationSet where
  entries := [(⟨1, "CreateUsers"⟩, .ofTable "0001_create_users" "users"),
    (⟨2, "CreatePosts"⟩, .ofTable "0002_create_posts" "posts")]

theorem MigrationId.parse_createPosts : parse "0002_create_posts" = .ok ⟨2, "CreatePosts"⟩ := by
  have parsed : parse? "0002_create_posts".toList = some ⟨2, "CreatePosts"⟩ := by decide
  rw [parse, parsed]

/-- The second one may be registered first. -/
theorem MigrationSet.registered_weblog : weblog.Registered := by
  have early : register {} (.ofTable "0002_create_posts" "posts") =
      .ok ⟨[(⟨2, "CreatePosts"⟩, .ofTable "0002_create_posts" "posts")]⟩ := by
    rw [register, Migration.ofTable, MigrationId.parse_createPosts]
    rfl
  have late : register ⟨[(⟨2, "CreatePosts"⟩, .ofTable "0002_create_posts" "posts")]⟩
      (.ofTable "0001_create_users" "users") = .ok weblog := by
    rw [register, Migration.ofTable, MigrationId.parse_createUsers]
    rfl
  exact .register (.register .empty early) late

end SqlAccess
