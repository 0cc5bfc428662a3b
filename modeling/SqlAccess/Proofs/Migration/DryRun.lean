import SqlAccess.Proofs.Migration.Phases

/-!
# Dry runs

A dry run reports the statements that a run would send. Which lines of a report are statements can
be told from the lines themselves: whatever else a run reports is a *remark*, and no statement looks
like one (`Report.isRemark_eq_false`).

The two runs are compared step by step. Two steps are `Faithful` when they give one answer, the
first leaves its session alone, and the statements among its lines are those that the second one
sends. The work of a run is faithful because each of its parts is; what a run does besides, the
look-up and the entry, a dry run leaves out. So `dry_runs_are_faithful` compares whole runs.
-/

namespace SqlAccess

variable {σ τ α β : Type}

/-! ## Statements and remarks -/

namespace Report

/-- Is the line one that a run reports about itself? -/
def isRemark (line : String) : Bool :=
  ["== ", "-- ", "   -> ", nothingToDo].any fun mark => mark.toList.isPrefixOf line.toList

/-- The statements among the lines of a report. -/
def statements (lines : List String) : List String :=
  lines.filter fun line => !isRemark line

theorem isRemark_of_mark (mark : String) {line : String}
    (listed : mark ∈ ["== ", "-- ", "   -> ", nothingToDo])
    (marked : mark.toList <+: line.toList) : isRemark line = true := by
  rw [isRemark, List.any_eq_true]
  exact ⟨mark, listed, List.isPrefixOf_iff_prefix.mpr marked⟩

theorem prefix_append_left {mark message rest : String} :
    mark.toList <+: (mark ++ message ++ rest).toList := by
  rw [String.append_assoc, String.toList_append]
  exact List.prefix_append ..

theorem isRemark_heading (message : String) : isRemark (heading message) = true := by
  refine isRemark_of_mark "== " List.mem_cons_self ?_
  rw [heading, String.append_assoc]
  exact prefix_append_left

theorem isRemark_done (description : String) : isRemark (done description) = true := by
  refine isRemark_of_mark "-- " (by decide) ?_
  rw [done, String.toList_append]
  exact List.prefix_append ..

theorem isRemark_timing (seconds : String) : isRemark (timing seconds) = true :=
  isRemark_of_mark "   -> " (by decide) prefix_append_left

theorem isRemark_nothingToDo : isRemark nothingToDo = true :=
  isRemark_of_mark nothingToDo (by decide) List.prefix_rfl

/-- Does the line start as the statements of definitions do? -/
def StartsStatement (line : String) : Prop :=
  ∃ c rest, line.toList = c :: rest ∧ (c = 'A' ∨ c = 'C' ∨ c = 'D')

theorem StartsStatement.append {line : String} (starts : StartsStatement line) (more : String) :
    StartsStatement (line ++ more) := by
  obtain ⟨c, rest, spelled, first⟩ := starts
  refine ⟨c, rest ++ more.toList, ?_, first⟩
  rw [String.toList_append, spelled, List.cons_append]

/-- What starts as a statement is no remark. -/
theorem isRemark_eq_false {line : String} (starts : StartsStatement line) :
    isRemark line = false := by
  obtain ⟨c, rest, spelled, first⟩ := starts
  rw [isRemark, spelled]
  rcases first with rfl | rfl | rfl <;> rfl

/-- The statement of a definition starts with ALTER, CREATE or DROP. -/
theorem startsStatement_toSql {definition : Definition} {d : Dialect} {sql : String}
    (compiled : definition.toSql d = .ok sql) : StartsStatement sql := by
  have alter : StartsStatement "ALTER TABLE " := ⟨'A', _, rfl, .inl rfl⟩
  have drop : StartsStatement "DROP INDEX " := ⟨'D', _, rfl, .inr (.inr rfl)⟩
  cases definition with
  | table t =>
    rw [Definition.toSql, Table.toSql] at compiled
    split at compiled
    · cases compiled
      exact .append ⟨'D', _, rfl, .inr (.inr rfl)⟩ _
    · split at compiled
      · cases compiled
      · cases compiled
        exact ((((StartsStatement.append ⟨'C', _, rfl, .inr (.inl rfl)⟩ _).append _).append _).append
          _).append _
  | column c =>
    cases compiled
    exact (alter.append _).append _
  | key k =>
    unfold Definition.toSql Key.toSql at compiled
    dsimp only at compiled
    split at compiled <;> cases compiled
    · exact ((alter.append _).append _).append _
    · exact (alter.append _).append _
    · exact ((((StartsStatement.append ⟨'C', _, rfl, .inr (.inl rfl)⟩ _).append _).append _).append _)
    · exact ((((StartsStatement.append ⟨'C', _, rfl, .inr (.inl rfl)⟩ _).append _).append _).append _)
    · exact drop.append _
    · exact (((alter.append _).append _).append _).append _
    · exact (((alter.append _).append _).append _).append _
    · exact ((alter.append _).append _).append _

end Report

/-! ## Steps that do the same -/

/-- A statement without parameters that is accepted, and changes a single row. -/
def Exchange.accepted (sql : String) : Exchange :=
  ⟨sql, {}, .changed 1⟩

/-- What two runs did since: the first one left its session alone, and the statements among the lines
that it reported are the ones that the second one sent. -/
def Reported (s s' : Run σ) (t t' : Run (Observed τ)) : Prop :=
  ∃ lines statements : List String,
    s'.session = s.session ∧ s'.report = s.report ++ lines ∧
    t'.session.exchanges = t.session.exchanges ++ statements.map Exchange.accepted ∧
    Report.statements lines = statements.map (· ++ ";")

theorem Reported.refl (s : Run σ) (t : Run (Observed τ)) : Reported s s t t :=
  ⟨[], [], rfl, (List.append_nil _).symm, (List.append_nil _).symm, rfl⟩

theorem Reported.trans {s s' s'' : Run σ} {t t' t'' : Run (Observed τ)}
    (first : Reported s s' t t') (second : Reported s' s'' t' t'') : Reported s s'' t t'' := by
  obtain ⟨lines, statements, quiet, told, sent, listed⟩ := first
  obtain ⟨lines', statements', quiet', told', sent', listed'⟩ := second
  refine ⟨lines ++ lines', statements ++ statements', quiet'.trans quiet, ?_, ?_, ?_⟩
  · rw [told', told, List.append_assoc]
  · rw [sent', sent, List.map_append, List.append_assoc]
  · rw [Report.statements, List.filter_append, List.map_append, ← listed, ← listed']
    rfl

/-- From any two states, the steps give the same answer, and what the second one sends is what the
first one reports. -/
def Faithful (x : Migrating (Run σ) α) (y : Migrating (Run (Observed τ)) α) : Prop :=
  ∀ s t, ∃ s' t', Reported s s' t t' ∧
    ((∃ a, x s = .ok a s' ∧ y t = .ok a t') ∨ ∃ e, x s = .error e s' ∧ y t = .error e t')

namespace Faithful

variable {x : Migrating (Run σ) α} {y : Migrating (Run (Observed τ)) α}

theorem pure (a : α) :
    Faithful (pure a : Migrating (Run σ) α) (pure a : Migrating (Run (Observed τ)) α) :=
  fun s t => ⟨s, t, .refl s t, .inl ⟨a, rfl, rfl⟩⟩

theorem throw (e : MigrationError) :
    Faithful (throw e : Migrating (Run σ) α) (throw e : Migrating (Run (Observed τ)) α) :=
  fun s t => ⟨s, t, .refl s t, .inr ⟨e, rfl, rfl⟩⟩

/-- **Faithful steps one after the other are faithful.** -/
theorem bind {f : α → Migrating (Run σ) β} {g : α → Migrating (Run (Observed τ)) β}
    (first : Faithful x y) (second : ∀ a, Faithful (f a) (g a)) : Faithful (x >>= f) (y >>= g) := by
  intro s t
  rw [Migrating.bind_eq, Migrating.bind_eq]
  obtain ⟨s', t', early, ⟨a, taken, taken'⟩ | ⟨e, failed, failed'⟩⟩ := first s t
  · obtain ⟨s'', t'', late, answers⟩ := second a s' t'
    rw [taken, taken']
    exact ⟨s'', t'', early.trans late, answers⟩
  · rw [failed, failed']
    exact ⟨s', t', early, .inr ⟨e, rfl, rfl⟩⟩

theorem ofRendering (rendered : Except Error α) : Faithful
    (Migrating.ofRendering rendered : Migrating (Run σ) α)
    (Migrating.ofRendering rendered : Migrating (Run (Observed τ)) α) := by
  cases rendered with
  | ok a => exact .pure a
  | error e => exact .throw _

theorem tell {line : String} (remark : Report.isRemark line = true) :
    Faithful (Run.tell (σ := σ) line) (Run.tell (σ := Observed τ) line) := by
  intro s t
  refine ⟨{ s with report := s.report ++ [line] }, { t with report := t.report ++ [line] },
    ⟨[line], [], rfl, rfl, (List.append_nil _).symm, ?_⟩, .inl ⟨(), rfl, rfl⟩⟩
  rw [Report.statements, List.filter_singleton, remark]
  rfl

theorem enter (phase : Phase) :
    Faithful (Run.enter (σ := σ) phase) (Run.enter (σ := Observed τ) phase) :=
  fun s t => ⟨{ s with phase }, { t with phase },
    ⟨[], [], rfl, (List.append_nil _).symm, (List.append_nil _).symm, rfl⟩, .inl ⟨(), rfl, rfl⟩⟩

theorem declared (declaration : Declaration) (schema : Schema) :
    Faithful (Run.declared (σ := σ) declaration schema)
      (Run.declared (σ := Observed τ) declaration schema) := by
  unfold Run.declared
  split
  · exact .pure _
  · exact .throw _

theorem declare (m : Migration) (direction : RunDirection) (d : Dialect) :
    Faithful (m.declare (σ := σ) direction d) (m.declare (σ := Observed τ) direction d) := by
  unfold Migration.declare
  refine (enter .setup).bind fun _ => (declared _ _).bind fun early =>
    (enter .change).bind fun _ => ?_
  split
  · exact .pure _
  · cases direction with
    | up => exact (enter .up).bind fun _ => declared _ _
    | down => exact (enter .down).bind fun _ => declared _ _
  · exact .throw _

end Faithful

/-! ## Dry runs and runs -/

/-- Does the executor accept every statement, and change a single row? -/
def Executor.Accepts (ex : Executor σ) : Prop :=
  ∀ sql params s, ∃ s', ex.execute sql params s = .ok 1 s'

/-- A step that succeeds is written down with what it answers. -/
theorem Run.onSession_observing {sql : String} {params : Params} {reply : α → Reply}
    {step : EStateM Error σ α} {a : α} {run : Run (Observed σ)} {s : σ}
    (taken : step run.session.session = .ok a s) :
    onSession (Migrating.ofStatement (Executor.observing sql params reply step)) run =
      .ok a { run with session := ⟨s, run.session.exchanges ++ [⟨sql, params, reply a⟩]⟩ } := by
  unfold onSession Migrating.ofStatement EStateM.adaptExcept Executor.observing
  rw [taken]

namespace Runner

/-- The runner that reports statements. -/
def rehearsing (r : Runner) : Runner :=
  { r with dryRun := true }

/-- The runner that sends statements. -/
def sending (r : Runner) : Runner :=
  { r with dryRun := false }

variable {r : Runner} {ex₀ : Executor σ} {ex : Executor τ} {direction : RunDirection}
  {m : Migration} {id : MigrationId}

/-- **A statement is reported or sent.** -/
theorem faithful_send (r : Runner) (ex₀ : Executor σ) (accepts : ex.Accepts) {sql : String}
    (starts : Report.StartsStatement sql) :
    Faithful (r.rehearsing.send ex₀ sql) (r.sending.send ex.observed sql) := by
  intro s t
  obtain ⟨t', taken⟩ := accepts sql {} t.session.session
  have sent : r.sending.send ex.observed sql t = .ok ()
      { t with session := ⟨t', t.session.exchanges ++ [.accepted sql]⟩ } :=
    Migrating.bind_eq_ok.mpr ⟨1, _, Run.onSession_observing taken, rfl⟩
  refine ⟨{ s with report := s.report ++ [sql ++ ";"] }, _,
    ⟨[sql ++ ";"], [sql], rfl, rfl, rfl, ?_⟩, .inl ⟨(), rfl, sent⟩⟩
  rw [Report.statements, List.filter_singleton, Report.isRemark_eq_false (starts.append ";")]
  rfl

theorem faithful_carryOut (r : Runner) (ex₀ : Executor σ) (accepts : ex.Accepts) (d : Dialect)
    (definitions : List Definition) : Faithful
      (r.rehearsing.carryOut ex₀ d definitions)
      (r.sending.carryOut ex.observed d definitions) := by
  induction definitions with
  | nil => exact .pure ()
  | cons definition rest ih =>
    rw [carryOut, carryOut]
    cases compiled : definition.toSql d with
    | error e => exact .throw _
    | ok sql =>
      exact (faithful_send r ex₀ accepts (Report.startsStatement_toSql compiled)).bind fun _ =>
        (Faithful.tell (Report.isRemark_done _)).bind fun _ =>
          (Faithful.tell (Report.isRemark_timing _)).bind fun _ => ih

/-- **The work of a run is reported or sent.** -/
theorem faithful_work (r : Runner) (ex₀ : Executor σ) (same : ex.dialect = ex₀.dialect)
    (accepts : ex.Accepts) (direction : RunDirection) (m : Migration) (id : MigrationId) :
    Faithful (r.rehearsing.work ex₀ direction m id) (r.sending.work ex.observed direction m id) := by
  unfold work
  rw [Executor.observed_dialect, same]
  refine (Faithful.tell (Report.isRemark_heading _)).bind fun _ =>
    (Faithful.declare m direction _).bind fun schema =>
      (Faithful.ofRendering _).bind fun definitions => (Faithful.enter _).bind fun _ => ?_
  have carried := faithful_carryOut r ex₀ accepts schema.dialect definitions
  split
  · exact (Faithful.tell Report.isRemark_nothingToDo).bind fun _ => carried
  · exact carried

/-! ## What a run does besides its work -/

/-- Does the executor answer the look-up of the version so that a run in the direction is due? -/
def LetsProceed (r : Runner) (ex : Executor σ) (direction : RunDirection) (version : Int) (s : σ) :
    Prop :=
  ∃ rows s', ex.fetch (r.history.lookupSql ex.dialect) (History.versionParams version) s =
    .ok rows s' ∧ direction.isDue (.found rows) = true

/-- A dry run comes to its work at once. -/
theorem prepare_rehearsing (run : Run σ) : r.rehearsing.prepare ex₀ direction m id run =
    r.rehearsing.work ex₀ direction m id { run with direction, phase := .start } :=
  rfl

/-- A run that is due comes to its work by looking its version up. -/
theorem prepare_sending {run : Run (Observed τ)}
    (proceeds : r.LetsProceed ex direction id.version run.session.session) :
    ∃ s' rows, r.sending.prepare ex.observed direction m id run =
      r.sending.work ex.observed direction m id
        { run with
          session := ⟨s', run.session.exchanges ++ [r.lookup ex.dialect id.version (.found rows)]⟩
          direction
          phase := .start } := by
  obtain ⟨rows, s', found, due⟩ := proceeds
  refine ⟨s', rows, ?_⟩
  have looked : ∀ run' : Run (Observed τ), run'.session = run.session →
      r.sending.checkDue ex.observed direction id.version run' = .ok () { run' with
        session := ⟨s', run.session.exchanges ++ [r.lookup ex.dialect id.version (.found rows)]⟩ } := by
    rintro run' same
    rw [checkDue_eq rfl, History.isApplied_eq, Run.onSession_bind, bind_assoc]
    refine Migrating.bind_eq_ok.mpr ⟨rows, _, Run.onSession_observing (by rw [same]; exact found), ?_⟩
    have applied : (!rows.isEmpty) = (direction == .down) := by
      cases direction with
      | up =>
        have empty : rows.isEmpty = true := due
        rw [empty]
        rfl
      | down => exact due
    change (if (!rows.isEmpty) = (direction == .down) then pure () else _ :
      Migrating (Run (Observed τ)) Unit) _ = _
    rw [if_pos applied, same]
    rfl
  rw [prepare_eq, Migrating.bind_eq, looked { run with direction, phase := .start } rfl]

/-- A dry run has nothing to do behind its work but to say so. -/
theorem conclude_rehearsing (r : Runner) (ex₀ : Executor σ) (direction : RunDirection)
    (id : MigrationId) (run : Run σ) : ∃ line, Report.isRemark line = true ∧
    r.rehearsing.conclude ex₀ direction id run =
      .ok () { run with report := run.report ++ [line], phase := .finish } :=
  ⟨_, Report.isRemark_heading _, rfl⟩

/-- Where every statement is accepted, a run writes its entry behind its work. -/
theorem conclude_sending (r : Runner) (accepts : ex.Accepts) (direction : RunDirection)
    (id : MigrationId) (run : Run (Observed τ)) :
    ∃ run', r.sending.conclude ex.observed direction id run = .ok () run' ∧
      run'.session.exchanges =
        run.session.exchanges ++ [r.entry ex.dialect id.version (.changed 1) direction] := by
  have recorded : ∀ run' : Run (Observed τ), run'.session = run.session →
      ∃ s', r.sending.record ex.observed direction id.version run' = .ok () { run' with
        session := ⟨s', run.session.exchanges ++
          [r.entry ex.dialect id.version (.changed 1) direction]⟩ } := by
    intro run' same
    rw [← same]
    cases direction with
    | up =>
      obtain ⟨s', taken⟩ := accepts (r.history.entrySql ex.dialect)
        (History.entryParams id.version r.now) run'.session.session
      refine ⟨s', ?_⟩
      change Run.onSession (r.history.recordApplied ex.observed r.now id.version) run' = _
      rw [History.recordApplied_eq, Run.onSession_bind]
      exact Migrating.bind_eq_ok.mpr ⟨1, _, Run.onSession_observing taken, rfl⟩
    | down =>
      obtain ⟨s', taken⟩ := accepts (r.history.removalSql ex.dialect)
        (History.versionParams id.version) run'.session.session
      refine ⟨s', ?_⟩
      change Run.onSession (r.history.recordReverted ex.observed id.version) run' = _
      rw [History.recordReverted_eq, Run.onSession_bind]
      exact Migrating.bind_eq_ok.mpr ⟨1, _, Run.onSession_observing taken, rfl⟩
  obtain ⟨s', taken⟩ := recorded { run with phase := .finish } rfl
  refine ⟨_, Migrating.bind_eq_ok.mpr ⟨(), _, rfl, Migrating.bind_eq_ok.mpr ⟨(), _, taken, rfl⟩⟩, rfl⟩

/-- What a run exchanges around its work: the look-up, and the entry where the run succeeds. A run
without an identifier exchanges nothing, and has no work. -/
structure Surrounds (r : Runner) (d : Dialect) (direction : RunDirection) (m : Migration)
    (succeeds : Bool) (before : List Exchange) (statements : List String)
    (behind : List Exchange) : Prop where
  named : ∀ id, MigrationId.parse m.identifier = .ok id →
    (∃ rows, before = [r.lookup d id.version (.found rows)]) ∧
      behind = if succeeds then [r.entry d id.version (.changed 1) direction] else []
  unnamed : ∀ e, MigrationId.parse m.identifier = .error e →
    before = [] ∧ statements = [] ∧ behind = []

/-- What surrounds the work of a run that has an identifier. -/
theorem surrounds_named (named : MigrationId.parse m.identifier = .ok id) (r : Runner) (d : Dialect)
    (direction : RunDirection) (rows : List Row) (statements : List String) (succeeds : Bool) :
    r.Surrounds d direction m succeeds [r.lookup d id.version (.found rows)] statements
      (if succeeds then [r.entry d id.version (.changed 1) direction] else []) := by
  constructor
  · intro id' parsed
    obtain rfl := Except.ok.inj (named.symm.trans parsed)
    exact ⟨⟨rows, rfl⟩, rfl⟩
  · intro e failed
    exact absurd (named.symm.trans failed) (fun same => nomatch same)

/-- How a dry run and a run of a migration agree, from the given states: the dry run adds the lines to
its report, and the run sends the statements between what surrounds them. -/
structure Rehearses (r : Runner) (ex₀ : Executor σ) (ex : Executor τ) (direction : RunDirection)
    (m : Migration) (dry : Run (Observed σ)) (real : Run (Observed τ)) (lines : List String)
    (before : List Exchange) (statements : List String) (behind : List Exchange) : Prop where
  /-- The dry run exchanges nothing with its executor, and leaves its session as it is. -/
  quiet : ((r.rehearsing.run ex₀.observed direction m).leaves dry).session = dry.session
  reported : ((r.rehearsing.run ex₀.observed direction m).leaves dry).report = dry.report ++ lines
  sent : ((r.sending.run ex.observed direction m).leaves real).session.exchanges =
    real.session.exchanges ++ (before ++ statements.map Exchange.accepted ++ behind)
  surrounded : r.Surrounds ex.dialect direction m
    ((r.sending.run ex.observed direction m).answer real).isOk before statements behind
  /-- The statements that are reported are those that are sent. -/
  listed : Report.statements lines = statements.map (· ++ ";")
  /-- Both succeed, or both fail with the same error. -/
  agree : (r.rehearsing.run ex₀.observed direction m).answer dry =
    (r.sending.run ex.observed direction m).answer real

/-- Without an identifier, neither does anything. -/
theorem rehearses_unnamed {e : MigrationError} (unnamed : MigrationId.parse m.identifier = .error e)
    (r : Runner) (ex₀ : Executor σ) (ex : Executor τ) (direction : RunDirection)
    (dry : Run (Observed σ)) (real : Run (Observed τ)) :
    r.Rehearses ex₀ ex direction m dry real [] [] [] [] := by
  have rehearsed := r.rehearsing.run_eq_throw ex₀.observed direction unnamed
  have ran := r.sending.run_eq_throw ex.observed direction unnamed
  refine ⟨?_, ?_, ?_, ⟨?_, fun _ _ => ⟨rfl, rfl, rfl⟩⟩, rfl, ?_⟩
  · rw [rehearsed]
    rfl
  · rw [rehearsed]
    exact (List.append_nil _).symm
  · rw [ran]
    exact (List.append_nil _).symm
  · intro id parsed
    exact absurd (unnamed.symm.trans parsed) (fun same => nomatch same)
  · rw [rehearsed, ran]
    rfl

end Runner

/-! ## The main result -/

/-- **Dry runs are faithful.** A dry run of any migration, in either direction and on any executor,
exchanges nothing. The statements in its report are, in order and without the semicolon behind each,
what a run sends between the look-up and the entry, on an executor that accepts every statement and
lets the run proceed. And the dry run gives the same answer as that run: it fails exactly when that
one does, with the same error. -/
theorem dry_runs_are_faithful (r : Runner) {ex₀ : Executor σ} {ex : Executor τ}
    (same : ex.dialect = ex₀.dialect) (accepts : ex.Accepts) (direction : RunDirection)
    (m : Migration) (dry : Run (Observed σ)) (real : Run (Observed τ))
    (proceeds : ∀ id, MigrationId.parse m.identifier = .ok id →
      r.LetsProceed ex direction id.version real.session.session) :
    ∃ lines before statements behind,
      r.Rehearses ex₀ ex direction m dry real lines before statements behind := by
  cases named : MigrationId.parse m.identifier with
  | error e =>
    exact ⟨[], [], [], [], Runner.rehearses_unnamed named r ex₀ ex direction dry real⟩
  | ok id =>
    obtain ⟨s', rows, prepared⟩ := Runner.prepare_sending (m := m) (proceeds id named)
    obtain ⟨dry', real', ⟨lines, statements, quiet, told, sent, listed⟩, worked⟩ :=
      r.faithful_work ex₀.observed same accepts direction m id
        { dry with direction, phase := .start }
        { real with
          session := ⟨s', real.session.exchanges ++ [r.lookup ex.dialect id.version (.found rows)]⟩
          direction
          phase := .start }
    have surrounds := Runner.surrounds_named named r ex.dialect direction rows statements
    rcases worked with ⟨_, taken, taken'⟩ | ⟨e, failed, failed'⟩
    · obtain ⟨line, remark, ended⟩ := r.conclude_rehearsing ex₀.observed direction id dry'
      obtain ⟨real'', entered, written⟩ := r.conclude_sending accepts direction id real'
      have rehearsed : r.rehearsing.run ex₀.observed direction m dry =
          .ok () { dry' with report := dry'.report ++ [line], phase := .finish } := by
        rw [r.rehearsing.run_eq _ _ named, Migrating.bind_eq, Runner.prepare_rehearsing, taken]
        exact ended
      have ran : r.sending.run ex.observed direction m real = .ok () real'' := by
        rw [r.sending.run_eq _ _ named, Migrating.bind_eq, prepared, taken']
        exact entered
      refine ⟨lines ++ [line], [r.lookup ex.dialect id.version (.found rows)], statements,
        [r.entry ex.dialect id.version (.changed 1) direction], ?_⟩
      constructor
      · rw [Migrating.leaves, rehearsed]
        exact quiet
      · rw [Migrating.leaves, rehearsed, ← List.append_assoc]
        exact congrArg (· ++ [line]) told
      · rw [Migrating.leaves, ran, ← List.append_assoc, ← List.append_assoc]
        exact written.trans (congrArg (· ++ _) sent)
      · rw [Migrating.answer, ran]
        exact surrounds true
      · rw [Report.statements, List.filter_append, List.filter_singleton, remark]
        exact (List.append_nil _).trans listed
      · rw [Migrating.answer, Migrating.answer, rehearsed, ran]
    · have rehearsed : r.rehearsing.run ex₀.observed direction m dry = .error e dry' := by
        rw [r.rehearsing.run_eq _ _ named, Migrating.bind_eq, Runner.prepare_rehearsing, failed]
      have ran : r.sending.run ex.observed direction m real = .error e real' := by
        rw [r.sending.run_eq _ _ named, Migrating.bind_eq, prepared, failed']
      refine ⟨lines, [r.lookup ex.dialect id.version (.found rows)], statements, [], ?_⟩
      constructor
      · rw [Migrating.leaves, rehearsed]
        exact quiet
      · rw [Migrating.leaves, rehearsed]
        exact told
      · rw [Migrating.leaves, ran, List.append_nil, ← List.append_assoc]
        exact sent
      · rw [Migrating.answer, ran]
        exact surrounds false
      · exact listed
      · rw [Migrating.answer, Migrating.answer, rehearsed, ran]

/-- An executor that changes a single row with every statement, and finds the same rows for every
query. -/
def Executor.obliging (d : Dialect) (rows : List Row) : Executor Unit where
  dialect := d
  execute _ _ := pure 1
  fetch _ _ := pure rows

/-- A table and a column, in a dry run on a database that refuses everything, and in a run on one
that accepts everything: the lines of the report, and what is sent between look-up and entry. -/
theorem dry_runs_are_faithful_users :
    let lines := ["== 1 CreateUsers: migrating =====================================",
      Schema.usersSql ++ ";", "-- create table: users", "   -> 0.0000 sec",
      "ALTER TABLE `orders` ADD COLUMN `user_id` VARCHAR(255) NOT NULL;",
      "-- add column: user_id to orders", "   -> 0.0000 sec",
      "== 1 CreateUsers: migrated (0.0000 sec) ========================="]
    let statements := [Schema.usersSql,
      "ALTER TABLE `orders` ADD COLUMN `user_id` VARCHAR(255) NOT NULL"]
    (Executor.obliging .mysql []).Accepts ∧
    Runner.atNewYear.LetsProceed (Executor.obliging .mysql []) .up 1 () ∧
    ∃ before behind,
      Runner.atNewYear.Rehearses (Executor.readOnly .mysql) (Executor.obliging .mysql []) .up
        .ofUsers { session := { session := () } } { session := { session := () } }
        lines before statements behind ∧
      before.map (·.sql) =
        ["SELECT version FROM `schema_migrations` WHERE `version` = :param0 LIMIT 1"] ∧
      behind.map (·.sql) =
        ["INSERT INTO `schema_migrations` (`version`, `applied_at`) VALUES (:param0, :param1)"] ∧
      (Runner.atNewYear.rehearsing.run (Executor.readOnly .mysql).observed .up .ofUsers).answer
        { session := { session := () } } = .ok () := by
  intro lines statements
  have accepts : (Executor.obliging .mysql []).Accepts := fun _ _ s => ⟨s, rfl⟩
  have proceeds : ∀ version, Runner.atNewYear.LetsProceed (Executor.obliging .mysql []) .up version
    () := fun _ => ⟨[], (), rfl, rfl⟩
  have same : (Executor.obliging .mysql []).dialect = (Executor.readOnly .mysql).dialect := rfl
  obtain ⟨lines', before, statements', behind, agree⟩ :=
    dry_runs_are_faithful .atNewYear same accepts .up .ofUsers { session := { session := () } }
      { session := { session := () } } fun id _ => proceeds id.version
  obtain rfl : lines' = lines := by
    rw [← List.nil_append lines', ← agree.reported]
    unfold Runner.run Migration.ofUsers
    rw [MigrationId.parse_createUsers]
    rfl
  have answered : (Runner.atNewYear.rehearsing.run (Executor.readOnly .mysql).observed .up
      .ofUsers).answer { session := { session := () } } = .ok () := by
    unfold Runner.run Migration.ofUsers
    rw [MigrationId.parse_createUsers]
    rfl
  obtain ⟨⟨rows, rfl⟩, entered⟩ := agree.surrounded.named _ MigrationId.parse_createUsers
  rw [← agree.agree, answered] at entered
  subst entered
  obtain rfl : statements' = statements := by
    have sent : ((Runner.atNewYear.sending.run (Executor.obliging .mysql []).observed .up
        .ofUsers).leaves { session := { session := () } }).session.exchanges.map (·.sql) =
        [Runner.atNewYear.history.lookupSql .mysql] ++ statements ++
          [Runner.atNewYear.history.entrySql .mysql] := by
      unfold Runner.run Migration.ofUsers
      rw [MigrationId.parse_createUsers]
      simp only [Runner.checkDue, Runner.record, History.isApplied_eq, History.recordApplied_eq]
      rfl
    rw [agree.sent, List.nil_append, List.map_append, List.map_append, List.map_map] at sent
    have between := List.append_cancel_left (List.append_cancel_right sent)
    rwa [show (Exchange.sql ∘ Exchange.accepted) = id from rfl, List.map_id] at between
  exact ⟨accepts, proceeds 1, _, _, agree, rfl, rfl, answered⟩

end SqlAccess
