import SqlAccess.Execution.Recorder
import SqlAccess.Proofs.Migration.Execution

/-!
# Where the fallback starts

A migration whose change says that it has none falls back to what it declares for one direction. The
schema that the fallback declares on is the one that the change leaves, so what the change had
declared by then is carried out along with the rest: between the setup and the fallback forwards,
and backwards the other way round (`fallback_continues_from_change`).
-/

namespace SqlAccess

variable {σ : Type}

namespace RunDirection

theorem length_steps (declared : List Definition) (direction : RunDirection) :
    (direction.steps declared).length = declared.length := by
  cases direction with
  | up => rfl
  | down => simp [steps]

/-- What is declared one after the other is carried out one after the other. -/
theorem steps_infix {part declared : List Definition} (h : part <:+: declared)
    (direction : RunDirection) : direction.steps part <:+: direction.steps declared := by
  obtain ⟨early, late, rfl⟩ := h
  cases direction with
  | up => exact ⟨early, late, rfl⟩
  | down =>
    refine ⟨steps late .down, steps early .down, ?_⟩
    simp [steps]

/-- Definitions that stand between others make a difference. -/
theorem steps_between_eq_iff (early between late : List Definition) (direction : RunDirection) :
    direction.steps (early ++ between ++ late) = direction.steps (early ++ late) ↔
      between = [] := by
  constructor
  · intro same
    have lengths := congrArg List.length same
    simp only [length_steps, List.length_append] at lengths
    exact List.eq_nil_of_length_eq_zero (by omega)
  · rintro rfl
    rw [List.append_nil]

end RunDirection

/-- **A fallback declares behind the change that was given up.** What a run of any migration carries
out, in either direction and on any executor, where the change says that it has none: the schema is
the one that the fallback leaves behind that change. Where both only add definitions, those that the
change added are carried out in one piece with the others, and the run does without them only if
there are none. -/
theorem fallback_continues_from_change (r : Runner) (ex : Executor σ) (direction : RunDirection)
    (m : Migration) {id : MigrationId} {early late schema : Schema} (sending : r.dryRun = false)
    (named : MigrationId.parse m.identifier = .ok id)
    (setup : m.setup { dialect := ex.dialect } = .ok () early)
    (absent : m.change early = .error .noChange late)
    (fallback : m.forDirection direction late = .ok () schema) (run : Run (Observed σ)) :
    ∃ exchanges,
      ((r.run ex.observed direction m).leaves run).session.exchanges =
        run.session.exchanges ++ exchanges ∧
      ((r.run ex.observed direction m).leaves run).unobserved =
        (r.run ex direction m).leaves run.unobserved ∧
      r.Executes ex.dialect direction id.version schema exchanges
        ((r.run ex direction m).answer run.unobserved).isOk ∧
      ∀ left fresh, late.definitions = early.definitions ++ left →
        schema.definitions = late.definitions ++ fresh →
        direction.steps left <:+: direction.steps schema.definitions ∧
        (direction.steps schema.definitions = direction.steps (early.definitions ++ fresh) ↔
          left = []) := by
  have declares : m.Declares direction ex.dialect schema :=
    ⟨early, setup, .inr ⟨late, absent, fallback⟩⟩
  obtain ⟨exchanges, added, executes⟩ := Runner.sends_run sending ex named declares run
  have mirrored := r.mirrors_run ex direction m
  refine ⟨exchanges, added, (mirrored.leaves_eq run).symm, ?_, ?_⟩
  · rw [mirrored.answer_eq run]
    exact executes
  · intro left fresh kept grown
    rw [grown, kept]
    exact ⟨RunDirection.steps_infix ⟨early.definitions, fresh, rfl⟩ direction,
      RunDirection.steps_between_eq_iff _ _ _ direction⟩

/-- A change that declares a table and then says that there is no change. -/
def Migration.givenUp : Migration where
  identifier := "0001_create_users"
  change s := .error .noChange (s.createTable "drafts" id)
  up := modify fun s => s.createTable "users" id

theorem Migration.parse_givenUp :
    MigrationId.parse Migration.givenUp.identifier = .ok ⟨1, "CreateUsers"⟩ :=
  MigrationId.parse_createUsers

/-- The table of the change that was given up is created, before the one of the fallback. -/
theorem fallback_continues_from_change_drafts :
    let m := Migration.givenUp
    let late := ({ dialect := .mysql } : Schema).createTable "drafts" id
    let schema := late.createTable "users" id
    let r : Runner := { now := "2024-01-01 00:00:00" }
    let start : Run (Observed Recorder) := { session := { session := {} } }
    (r.dryRun = false ∧ MigrationId.parse m.identifier = .ok ⟨1, "CreateUsers"⟩ ∧
      m.setup { dialect := .mysql } = .ok () { dialect := .mysql } ∧
      m.change { dialect := .mysql } = .error .noChange late ∧
      m.forDirection .up late = .ok () schema) ∧
    ∃ exchanges,
      ((r.run (Recorder.executor .mysql).observed .up m).leaves start).session.exchanges =
        start.session.exchanges ++ exchanges ∧
      ((r.run (Recorder.executor .mysql).observed .up m).leaves start).unobserved =
        (r.run (Recorder.executor .mysql) .up m).leaves start.unobserved ∧
      r.Executes .mysql .up 1 schema exchanges
        ((r.run (Recorder.executor .mysql) .up m).answer start.unobserved).isOk ∧
      ∀ left fresh, late.definitions = [] ++ left → schema.definitions = late.definitions ++ fresh →
        RunDirection.up.steps left <:+: RunDirection.up.steps schema.definitions ∧
        (RunDirection.up.steps schema.definitions = RunDirection.up.steps ([] ++ fresh) ↔
          left = []) := by
  intro m late schema r start
  exact ⟨⟨rfl, Migration.parse_givenUp, rfl, rfl, rfl⟩,
    fallback_continues_from_change r (Recorder.executor .mysql) .up m rfl Migration.parse_givenUp
      rfl rfl rfl start⟩

/-- A run forwards succeeds and sends, first behind the look-up, the statement of the table that only
the change declared. -/
theorem given_up_table_is_created :
    let r : Runner := { now := "2024-01-01 00:00:00" }
    ∃ sql run, (({ dialect := .mysql } : Schema).createTable "drafts" id).toSql = .ok [sql] ∧
      r.migrate (Recorder.executor .mysql) Migration.givenUp { session := {} } = .ok () run ∧
      run.session.sent[1]? = some (sql, { entries := [] }) := by
  intro r
  unfold Runner.migrate Runner.run
  rw [Migration.parse_givenUp]
  exact ⟨_, _, rfl, rfl, rfl⟩

end SqlAccess
