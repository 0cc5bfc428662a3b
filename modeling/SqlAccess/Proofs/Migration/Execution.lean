import SqlAccess.Proofs.Migration.History

/-!
# What a run executes

A run asks the history whether it is due, carries its definitions out one after the other, and
writes the history down. Any of these may fail, and the run ends there: `Executes` says what is
exchanged with the executor and whether the run succeeds, for every answer that the executor gives
to every statement.

The main result is `runs_execute_in_order`. It is put together from a law on each part of a run,
which says what that part sends, and it speaks of any executor at all because a run on the observed
executor does what it does on the executor itself (`Runner.mirrors_run`).
-/

namespace SqlAccess

variable {σ : Type}

/-! ## What a run is to do -/

namespace Definition

/-- The definition that drops what this one defines. -/
def toDrop : Definition → Definition
  | .table t => .table { t with mode := .drop }
  | .column c => .column { c with mode := .drop }
  | .key k => .key { k with mode := .drop }

theorem reverted_of_create {definition : Definition} (h : definition.mode = .create) :
    definition.reverted = .ok definition.toDrop := by
  cases definition with
  | table t =>
    have mode : t.mode = .create := h
    rw [reverted, Table.reverted, mode]
    rfl
  | column c =>
    have mode : c.mode = .create := h
    rw [reverted, Column.reverted, mode]
    rfl
  | key k =>
    have mode : k.mode = .create := h
    rw [reverted, Key.reverted, mode]
    rfl

theorem reverted_of_drop {definition : Definition} (h : definition.mode = .drop) :
    ∃ e, definition.reverted = .error e := by
  cases definition with
  | table t =>
    have mode : t.mode = .drop := h
    rw [reverted, Table.reverted, mode]
    exact ⟨_, rfl⟩
  | column c =>
    have mode : c.mode = .drop := h
    rw [reverted, Column.reverted, mode]
    exact ⟨_, rfl⟩
  | key k =>
    have mode : k.mode = .drop := h
    rw [reverted, Key.reverted, mode]
    exact ⟨_, rfl⟩

end Definition

namespace RunDirection

/-- Can the definitions be carried out in the direction? What is dropped is not brought back. -/
def Admits (direction : RunDirection) (declared : List Definition) : Prop :=
  direction = .down → ∀ definition ∈ declared, definition.mode = .create

/-- The definitions in the order and the mode in which the direction carries them out. -/
def steps (declared : List Definition) : RunDirection → List Definition
  | .up => declared
  | .down => declared.reverse.map Definition.toDrop

theorem mapM_reverted {declared : List Definition}
    (h : ∀ definition ∈ declared, definition.mode = .create) :
    declared.mapM Definition.reverted = .ok (declared.map Definition.toDrop) := by
  induction declared with
  | nil => rfl
  | cons definition rest ih =>
    have first := Definition.reverted_of_create (h definition List.mem_cons_self)
    have others := ih fun x member => h x (List.mem_cons_of_mem _ member)
    rw [List.mapM_cons, first, others]
    rfl

theorem mapM_reverted_of_drop {declared : List Definition}
    (h : ∃ definition ∈ declared, definition.mode = .drop) :
    ∃ e, declared.mapM Definition.reverted = .error e := by
  induction declared with
  | nil =>
    obtain ⟨_, member, -⟩ := h
    cases member
  | cons definition rest ih =>
    rw [List.mapM_cons]
    cases first : definition.reverted with
    | error e => exact ⟨e, rfl⟩
    | ok undone =>
      obtain ⟨x, member, dropped⟩ := h
      rcases List.mem_cons.mp member with rfl | member
      · obtain ⟨e, failed⟩ := Definition.reverted_of_drop dropped
        rw [first] at failed
        cases failed
      · obtain ⟨e, failed⟩ := ih ⟨x, member, dropped⟩
        rw [failed]
        exact ⟨e, rfl⟩

theorem definitions_of_admits {direction : RunDirection} {declared : List Definition}
    (h : direction.Admits declared) :
    direction.definitions declared = .ok (direction.steps declared) := by
  cases direction with
  | up => rfl
  | down =>
    refine mapM_reverted fun definition member => ?_
    exact h rfl definition (List.mem_reverse.mp member)

theorem definitions_of_not_admits {direction : RunDirection} {declared : List Definition}
    (h : ¬ direction.Admits declared) : ∃ e, direction.definitions declared = .error e := by
  cases direction with
  | up => exact absurd (fun impossible => nomatch impossible) h
  | down =>
    simp only [Admits, true_imp_iff, not_forall] at h
    obtain ⟨definition, member, other⟩ := h
    have dropped : definition.mode = .drop := by
      cases mode : definition.mode with
      | create => exact absurd mode other
      | drop => rfl
    exact mapM_reverted_of_drop ⟨definition, List.mem_reverse.mpr member, dropped⟩

/-- Does the answer of the history say that a run in the direction is due? -/
def isDue : RunDirection → Reply → Bool
  | .up, .found rows => rows.isEmpty
  | .down, .found rows => !rows.isEmpty
  | _, _ => false

/-- The error of a run that is not due. -/
def refusal (version : Int) : RunDirection → MigrationError
  | .up => .alreadyApplied version
  | .down => .notApplied version

/-- Does the answer to the writing of the history say that it is up to date? To take a version back,
there has to have been one. -/
def isRecorded : RunDirection → Reply → Bool
  | .up, .changed _ => true
  | .down, .changed rows => rows != 0
  | _, _ => false

end RunDirection

namespace Migration

/-- What a migration declares for one direction only. -/
def forDirection (m : Migration) : RunDirection → Declaration
  | .up => m.up
  | .down => m.down

/-- The migration declares the schema for a direction: by its setup, and by its change or, where it
has none, by what it declares for that direction. -/
def Declares (m : Migration) (direction : RunDirection) (d : Dialect) (schema : Schema) : Prop :=
  ∃ early, m.setup { dialect := d } = .ok () early ∧
    (m.change early = .ok () schema ∨
      ∃ late, m.change early = .error .noChange late ∧
        m.forDirection direction late = .ok () schema)

end Migration

/-! ## What is exchanged -/

/-- Definitions carried out in order: what is exchanged for them, and whether all of them
succeeded. Nothing is sent behind the first that does not compile or is refused. -/
inductive CarriedOut (d : Dialect) : List Definition → List Exchange → Bool → Prop
  | done : CarriedOut d [] [] true
  | uncompilable {definition rest e} : definition.toSql d = .error e →
      CarriedOut d (definition :: rest) [] false
  | refused {definition rest sql e} : definition.toSql d = .ok sql →
      CarriedOut d (definition :: rest) [⟨sql, {}, .refused e⟩] false
  | accepted {definition rest sql rows exchanges ok} : definition.toSql d = .ok sql →
      CarriedOut d rest exchanges ok →
      CarriedOut d (definition :: rest) (⟨sql, {}, .changed rows⟩ :: exchanges) ok

namespace Runner

/-- The look-up of a version, and what came back for it. -/
def lookup (r : Runner) (d : Dialect) (version : Int) (reply : Reply) : Exchange :=
  ⟨r.history.lookupSql d, History.versionParams version, reply⟩

/-- The writing of the history for a version, and what came back for it. -/
def entry (r : Runner) (d : Dialect) (version : Int) (reply : Reply) : RunDirection → Exchange
  | .up => ⟨r.history.entrySql d, History.entryParams version r.now, reply⟩
  | .down => ⟨r.history.removalSql d, History.versionParams version, reply⟩

/-- What a run that is due exchanges behind the look-up, and whether it succeeds. The history is
written when every definition was carried out, and only then. -/
inductive Proceeds (r : Runner) (d : Dialect) (direction : RunDirection) (version : Int)
    (schema : Schema) : List Exchange → Bool → Prop
  | unrevertible : ¬ direction.Admits schema.definitions →
      Proceeds r d direction version schema [] false
  | stopped {exchanges} : direction.Admits schema.definitions →
      CarriedOut schema.dialect (direction.steps schema.definitions) exchanges false →
      Proceeds r d direction version schema exchanges false
  | finished {exchanges reply} : direction.Admits schema.definitions →
      CarriedOut schema.dialect (direction.steps schema.definitions) exchanges true →
      Proceeds r d direction version schema (exchanges ++ [r.entry d version reply direction])
        (direction.isRecorded reply)

/-- What a run exchanges, and whether it succeeds. -/
inductive Executes (r : Runner) (d : Dialect) (direction : RunDirection) (version : Int)
    (schema : Schema) : List Exchange → Bool → Prop
  | notDue {reply} : direction.isDue reply = false →
      Executes r d direction version schema [r.lookup d version reply] false
  | due {reply exchanges ok} : direction.isDue reply = true →
      r.Proceeds d direction version schema exchanges ok →
      Executes r d direction version schema (r.lookup d version reply :: exchanges) ok

end Runner

/-! ## The parts of a run -/

theorem Run.quiet_declared {declaration : Declaration} {s s' : Schema}
    (h : declaration s = .ok () s') : Quiet (σ := σ) (Run.declared declaration s) s' := by
  intro run
  rw [Run.declared, h]
  exact ⟨run, rfl, rfl⟩

theorem Migration.quiet_declare {m : Migration} {direction : RunDirection} {d : Dialect}
    {schema : Schema} (h : m.Declares direction d schema) :
    Quiet (σ := σ) (m.declare direction d) schema := by
  obtain ⟨early, setup, declared⟩ := h
  unfold Migration.declare
  refine (Run.quiet_enter .setup).bind ((Run.quiet_declared setup).bind
    ((Run.quiet_enter .change).bind ?_))
  rcases declared with changed | ⟨late, absent, declared⟩
  · rw [changed]
    exact .pure schema
  · rw [absent]
    cases direction with
    | up => exact (Run.quiet_enter .up).bind (Run.quiet_declared declared)
    | down => exact (Run.quiet_enter .down).bind (Run.quiet_declared declared)

namespace Runner

variable {r : Runner}

/-- A run is refused unless the version is applied exactly when it is to be reverted. -/
theorem checkDue_eq (sending : r.dryRun = false) (ex : Executor σ) (direction : RunDirection)
    (version : Int) : r.checkDue ex direction version =
      Run.onSession (r.history.isApplied ex version) >>= fun applied =>
        if applied = (direction == .down) then pure () else throw (direction.refusal version) := by
  unfold checkDue
  rw [if_neg (by rw [sending]; exact Bool.false_ne_true)]
  refine congrArg (Run.onSession (r.history.isApplied ex version) >>= ·) (funext fun applied => ?_)
  cases direction <;> cases applied <;> rfl

theorem sends_checkDue (sending : r.dryRun = false) (ex : Executor σ) (direction : RunDirection)
    (version : Int) : Sends (r.checkDue ex.observed direction version) fun exchanges answer =>
      ∃ reply, exchanges = [r.lookup ex.dialect version reply] ∧
        answer.isOk = direction.isDue reply := by
  have asked := Run.sends_statement_then (r.history.lookupSql ex.dialect)
    (History.versionParams version) Reply.found
    (ex.fetch (r.history.lookupSql ex.dialect) (History.versionParams version))
    (f := fun rows => pure !rows.isEmpty) (g := fun rows => .ok !rows.isEmpty) fun _ => rfl
  have decided : ∀ applied, Sends (σ := σ)
      (if applied = (direction == .down) then pure () else throw (direction.refusal version))
      fun exchanges answer => exchanges = [] ∧
        answer.isOk = decide (applied = (direction == .down)) := by
    intro applied
    split
    next due =>
      refine (Sends.pure ()).mono ?_
      rintro _ _ ⟨rfl, rfl⟩
      exact ⟨rfl, (decide_eq_true due).symm⟩
    next refused =>
      refine (Sends.throw (direction.refusal version)).mono ?_
      rintro _ _ ⟨rfl, rfl⟩
      exact ⟨rfl, (decide_eq_false refused).symm⟩
  rw [checkDue_eq sending, History.isApplied_eq]
  refine (Sends.bind asked decided).mono ?_
  rintro exchanges answer (⟨e, sent | sent, rfl⟩ | ⟨applied, early, late, sent | sent, ⟨rfl, ok⟩, rfl⟩)
  · obtain ⟨rows, -, ⟨⟩⟩ := sent
  · obtain ⟨e', rfl, -⟩ := sent
    refine ⟨.refused e', rfl, ?_⟩
    cases direction <;> rfl
  · obtain ⟨rows, rfl, same⟩ := sent
    obtain rfl := Except.ok.inj same
    refine ⟨.found rows, List.append_nil _, ok.trans ?_⟩
    cases direction <;> cases empty : rows.isEmpty <;> simp [RunDirection.isDue, empty]
  · obtain ⟨e, -, ⟨⟩⟩ := sent

theorem sends_send (sending : r.dryRun = false) (ex : Executor σ) (sql : String) :
    Sends (r.send ex.observed sql) fun exchanges answer =>
      (∃ rows, exchanges = [⟨sql, {}, .changed rows⟩] ∧ answer = .ok ()) ∨
        ∃ e, exchanges = [⟨sql, {}, .refused e⟩] ∧ answer = .error (.statement e) := by
  unfold send
  rw [if_neg (by rw [sending]; exact Bool.false_ne_true)]
  have sent := Run.sends_statement_then sql {} Reply.changed (ex.execute sql {})
    (f := fun _ => pure ()) (g := fun _ => .ok ()) fun _ => rfl
  rw [Run.onSession_bind] at sent
  exact sent

/-- **Carrying definitions out** sends their statements in order, up to the first failure. -/
theorem sends_carryOut (sending : r.dryRun = false) (ex : Executor σ) (d : Dialect)
    (definitions : List Definition) : Sends (r.carryOut ex.observed d definitions)
      fun exchanges answer => CarriedOut d definitions exchanges answer.isOk := by
  induction definitions with
  | nil =>
    refine (Sends.pure ()).mono ?_
    rintro _ _ ⟨rfl, rfl⟩
    exact .done
  | cons definition rest ih =>
    rw [carryOut]
    cases compiled : definition.toSql d with
    | error e =>
      refine (Sends.throw (α := Unit) (.statement e)).mono ?_
      rintro _ _ ⟨rfl, rfl⟩
      exact .uncompilable compiled
    | ok sql =>
      have others := Sends.after_quiet (f := fun _ => _)
        (Run.quiet_tell (σ := σ) (Report.done definition.description))
        (Sends.after_quiet (f := fun _ => _) (Run.quiet_tell (Report.timing r.elapsed)) ih)
      refine (Sends.bind (sends_send sending ex sql) fun _ => others).mono ?_
      rintro exchanges answer (⟨e, sent | sent, rfl⟩ | ⟨_, early, late, sent | sent, ends, rfl⟩)
      · obtain ⟨rows, -, ⟨⟩⟩ := sent
      · obtain ⟨e', rfl, -⟩ := sent
        exact .refused compiled
      · obtain ⟨rows, rfl, -⟩ := sent
        exact .accepted compiled ends
      · obtain ⟨e, -, ⟨⟩⟩ := sent

theorem sends_record (sending : r.dryRun = false) (ex : Executor σ) (direction : RunDirection)
    (version : Int) : Sends (r.record ex.observed direction version) fun exchanges answer =>
      ∃ reply, exchanges = [r.entry ex.dialect version reply direction] ∧
        answer.isOk = direction.isRecorded reply := by
  unfold record
  rw [if_neg (by rw [sending]; exact Bool.false_ne_true)]
  cases direction with
  | up =>
    have written := Run.sends_statement_then (r.history.entrySql ex.dialect)
      (History.entryParams version r.now) Reply.changed
      (ex.execute (r.history.entrySql ex.dialect) (History.entryParams version r.now))
      (f := fun _ => pure ()) (g := fun _ => .ok ()) fun _ => rfl
    dsimp only
    rw [History.recordApplied_eq]
    refine written.mono ?_
    rintro _ _ (⟨rows, rfl, rfl⟩ | ⟨e, rfl, rfl⟩)
    · exact ⟨.changed rows, rfl, rfl⟩
    · exact ⟨.refused e, rfl, rfl⟩
  | down =>
    have removed := Run.sends_statement_then (r.history.removalSql ex.dialect)
      (History.versionParams version) Reply.changed
      (ex.execute (r.history.removalSql ex.dialect) (History.versionParams version))
      (f := fun changed => if changed = 0 then throw (.notApplied version) else pure ())
      (g := fun changed => if changed = 0 then .error (.notApplied version) else .ok ())
      fun changed => by split <;> rfl
    dsimp only
    rw [History.recordReverted_eq]
    refine removed.mono ?_
    rintro _ _ (⟨rows, rfl, rfl⟩ | ⟨e, rfl, rfl⟩)
    · refine ⟨.changed rows, rfl, ?_⟩
      cases rows <;> rfl
    · exact ⟨.refused e, rfl, rfl⟩

/-- What is sent once the definitions are known: their statements, and then the history. -/
theorem sends_finish (sending : r.dryRun = false) (ex : Executor σ) {direction : RunDirection}
    {schema : Schema} (version : Int) (line : String)
    (admits : direction.Admits schema.definitions) :
    Sends (σ := σ) (do
      r.carryOut ex.observed schema.dialect (direction.steps schema.definitions)
      Run.enter .finish
      r.record ex.observed direction version
      Run.tell line)
      fun exchanges answer =>
        r.Proceeds ex.dialect direction version schema exchanges answer.isOk := by
  have told := Sends.then_quiet (p := fun exchanges ok => ∃ reply,
      exchanges = [r.entry ex.dialect version reply direction] ∧ ok = direction.isRecorded reply)
    (sends_record sending ex direction version) fun _ => Run.quiet_tell line
  have finished := Sends.after_quiet (f := fun _ => _) (Run.quiet_enter (σ := σ) .finish) told
  refine (Sends.bind (sends_carryOut sending ex _ _) fun _ => finished).mono ?_
  rintro _ _ (⟨e, steps, rfl⟩ | ⟨_, early, late, steps, ⟨reply, rfl, recorded⟩, rfl⟩)
  · exact .stopped admits steps
  · rw [recorded]
    exact .finished admits steps

/-- **What a run sends**, and whether it succeeds. -/
theorem sends_run (sending : r.dryRun = false) (ex : Executor σ) {direction : RunDirection}
    {m : Migration} {id : MigrationId} {schema : Schema}
    (named : MigrationId.parse m.identifier = .ok id)
    (declares : m.Declares direction ex.dialect schema) :
    Sends (r.run ex.observed direction m) fun exchanges answer =>
      r.Executes ex.dialect direction id.version schema exchanges answer.isOk := by
  unfold run
  rw [named]
  refine .after_quiet (Run.quiet_modify fun _ => rfl) ?_
  have asked := sends_checkDue sending ex direction id.version
  have executes : ∀ rest : Migrating (Run (Observed σ)) Unit,
      Sends rest (fun exchanges answer =>
        r.Proceeds ex.dialect direction id.version schema exchanges answer.isOk) →
      Sends (r.checkDue ex.observed direction id.version >>= fun _ => rest)
        fun exchanges answer =>
          r.Executes ex.dialect direction id.version schema exchanges answer.isOk := by
    intro rest proceeds
    refine (Sends.bind asked fun _ => proceeds).mono ?_
    rintro _ _ (⟨e, ⟨reply, rfl, due⟩, rfl⟩ | ⟨_, early, late, ⟨reply, rfl, due⟩, ends, rfl⟩)
    · exact .notDue due.symm
    · exact .due due.symm ends
  refine executes _ (.after_quiet (Run.quiet_tell _)
    (.after_quiet (Migration.quiet_declare declares) ?_))
  by_cases admits : direction.Admits schema.definitions
  · rw [RunDirection.definitions_of_admits admits]
    have finished := sends_finish sending ex id.version
      (Report.heading (id.text ++ ": " ++ direction.done ++ " (" ++ r.elapsed ++ " sec)")) admits
    refine .after_quiet (.pure (direction.steps schema.definitions))
      (.after_quiet (Run.quiet_enter .apply) ?_)
    split
    · exact .after_quiet (Run.quiet_tell _) finished
    · exact finished
  · obtain ⟨e, failed⟩ := RunDirection.definitions_of_not_admits admits
    rw [failed]
    refine (Sends.throw (α := Unit) (.statement e)).mono ?_
    rintro _ _ ⟨rfl, rfl⟩
    exact .unrevertible admits

end Runner

/-! ## A run on the observed executor -/

/-- The run on the session that is observed. -/
def Run.unobserved (run : Run (Observed σ)) : Run σ where
  session := run.session.session
  report := run.report
  phase := run.phase
  direction := run.direction

namespace Run

theorem mirrors_onSession {α : Type} {x : Migrating (Observed σ) α} {y : Migrating σ α}
    (h : Mirrors Observed.session x y) : Mirrors unobserved (onSession x) (onSession y) := by
  intro run
  have step := h run.session
  unfold onSession
  rw [show run.unobserved.session = run.session.session from rfl, step]
  cases x run.session <;> rfl

theorem mirrors_tell (line : String) : Mirrors unobserved (tell (σ := Observed σ) line) (tell line) :=
  .modify fun _ => rfl

theorem mirrors_enter (phase : Phase) :
    Mirrors unobserved (enter (σ := Observed σ) phase) (enter phase) :=
  .modify fun _ => rfl

theorem mirrors_declared (declaration : Declaration) (schema : Schema) :
    Mirrors unobserved (declared (σ := Observed σ) declaration schema)
      (declared declaration schema) := by
  unfold declared
  split
  · exact .pure _
  · exact .throw _

end Run

theorem Migrating.mirrors_ofRendering {α : Type} (rendered : Except Error α) :
    Mirrors Run.unobserved (ofRendering (σ := Run (Observed σ)) rendered) (ofRendering rendered) := by
  cases rendered with
  | ok a => exact .pure a
  | error e => exact .throw _

theorem Migration.mirrors_declare (m : Migration) (direction : RunDirection) (d : Dialect) :
    Mirrors Run.unobserved (m.declare (σ := Observed σ) direction d) (m.declare direction d) := by
  unfold declare
  refine (Run.mirrors_enter .setup).bind fun _ => (Run.mirrors_declared _ _).bind fun early =>
    (Run.mirrors_enter .change).bind fun _ => ?_
  split
  · exact .pure _
  · cases direction with
    | up => exact (Run.mirrors_enter .up).bind fun _ => Run.mirrors_declared _ _
    | down => exact (Run.mirrors_enter .down).bind fun _ => Run.mirrors_declared _ _
  · exact .throw _

namespace Runner

variable (r : Runner) (ex : Executor σ)

theorem mirrors_checkDue (direction : RunDirection) (version : Int) :
    Mirrors Run.unobserved (r.checkDue ex.observed direction version)
      (r.checkDue ex direction version) := by
  unfold checkDue
  split
  · exact .pure ()
  · rw [History.isApplied_eq, History.isApplied_eq]
    refine (Run.mirrors_onSession ?_).bind fun applied => ?_
    · exact ((ex.mirrors_fetch _ _).adaptExcept _).bind fun _ => .pure _
    · split
      · exact .throw _
      · exact .throw _
      · exact .pure ()

theorem mirrors_carryOut (d : Dialect) (definitions : List Definition) :
    Mirrors Run.unobserved (r.carryOut ex.observed d definitions) (r.carryOut ex d definitions) := by
  induction definitions with
  | nil => exact .pure ()
  | cons definition rest ih =>
    rw [carryOut, carryOut]
    refine (Migrating.mirrors_ofRendering _).bind fun sql => Mirrors.bind ?_ fun _ =>
      (Run.mirrors_tell _).bind fun _ => (Run.mirrors_tell _).bind fun _ => ih
    unfold send
    split
    · exact Run.mirrors_tell _
    · exact (Run.mirrors_onSession ((ex.mirrors_execute _ _).adaptExcept _)).bind fun _ => .pure ()

theorem mirrors_record (direction : RunDirection) (version : Int) :
    Mirrors Run.unobserved (r.record ex.observed direction version)
      (r.record ex direction version) := by
  unfold record
  split
  · exact .pure ()
  · refine Run.mirrors_onSession ?_
    cases direction with
    | up =>
      dsimp only
      rw [History.recordApplied_eq, History.recordApplied_eq]
      exact ((ex.mirrors_execute _ _).adaptExcept _).bind fun _ => .pure ()
    | down =>
      dsimp only
      rw [History.recordReverted_eq, History.recordReverted_eq]
      refine ((ex.mirrors_execute _ _).adaptExcept _).bind fun changed => ?_
      split
      · exact .throw _
      · exact .pure ()

/-- **Watching a run changes nothing about it.** -/
theorem mirrors_run (direction : RunDirection) (m : Migration) :
    Mirrors Run.unobserved (r.run ex.observed direction m) (r.run ex direction m) := by
  unfold run
  split
  · exact .throw _
  · refine Mirrors.bind (.modify fun _ => rfl) fun _ =>
      (r.mirrors_checkDue ex _ _).bind fun _ => (Run.mirrors_tell _).bind fun _ =>
      (m.mirrors_declare _ _).bind fun schema => (Migrating.mirrors_ofRendering _).bind fun _ =>
      (Run.mirrors_enter _).bind fun _ => ?_
    have finished := fun (definitions : List Definition) (line : String) version =>
      (r.mirrors_carryOut ex schema.dialect definitions).bind fun _ =>
        (Run.mirrors_enter .finish).bind fun _ =>
          (r.mirrors_record ex direction version).bind fun _ => Run.mirrors_tell line
    split
    · exact (Run.mirrors_tell _).bind fun _ => finished _ _ _
    · exact finished _ _ _

end Runner

/-! ## The main result -/

/-- **What a run executes.** A run of any migration, in either direction and on any executor, that
is no dry run: what it adds to the exchanges of the session, and whether it succeeds, are as
`Executes` says, where the schema is the one that the migration declares. The run on the observed
executor, whose exchanges these are, is the run on the executor itself with the exchanges written
down beside it. -/
theorem runs_execute_in_order (r : Runner) (ex : Executor σ) (direction : RunDirection)
    (m : Migration) {id : MigrationId} {schema : Schema} (sending : r.dryRun = false)
    (named : MigrationId.parse m.identifier = .ok id)
    (declares : m.Declares direction ex.dialect schema) (run : Run (Observed σ)) :
    ∃ exchanges,
      ((r.run ex.observed direction m).leaves run).session.exchanges =
        run.session.exchanges ++ exchanges ∧
      ((r.run ex.observed direction m).leaves run).unobserved =
        (r.run ex direction m).leaves run.unobserved ∧
      r.Executes ex.dialect direction id.version schema exchanges
        ((r.run ex direction m).answer run.unobserved).isOk := by
  obtain ⟨exchanges, added, executes⟩ := Runner.sends_run sending ex named declares run
  have mirrored := r.mirrors_run ex direction m
  refine ⟨exchanges, added, (mirrored.leaves_eq run).symm, ?_⟩
  rw [mirrored.answer_eq run]
  exact executes

/-! ## A run that is cut short -/

/-- A migration that creates a table, and gives another one a column for its key. -/
def Migration.ofUsers : Migration where
  identifier := "0001_create_users"
  change := modify fun s => (s.createTable "users" id).addColumn "orders" "user_id" id

/-- What the migration declares. -/
def Schema.ofUsers : Schema :=
  (({ dialect := .mysql } : Schema).createTable "users" id).addColumn "orders" "user_id" id

/-- The statement that creates the users. -/
def Schema.usersSql : String :=
  "CREATE TABLE IF NOT EXISTS `users` (\n    `id` INT(11) NOT NULL AUTO_INCREMENT,\n    PRIMARY KEY (`id`)\n)"

theorem MigrationId.parse_createUsers : parse "0001_create_users" = .ok ⟨1, "CreateUsers"⟩ := by
  have parsed : parse? "0001_create_users".toList = some ⟨1, "CreateUsers"⟩ := by decide
  rw [parse, parsed]

/-- A runner at the turn of a year. -/
def Runner.atNewYear : Runner where
  now := "2024-01-01 00:00:00"

/-- An executor that finds nothing. Its session is the number of statements that it accepts before
it refuses the others. -/
def Executor.tiring (d : Dialect) : Executor Nat where
  dialect := d
  execute sql _
    | 0 => .error (.database none "refused" sql) 0
    | left + 1 => .ok 1 left
  fetch _ _ := pure []

/-- What applying the migration answers where so many statements are accepted, and what is
exchanged. -/
def Migration.applyUsers (accepted : Nat) : Except MigrationError Unit × List Exchange :=
  let run := Runner.atNewYear.run (Executor.tiring .mysql).observed .up ofUsers
  let start : Run (Observed Nat) := { session := { session := accepted } }
  (run.answer start, (run.leaves start).session.exchanges)

/-- A table and a column are applied by the look-up, the table, the column and the entry, in that
order. Where the column is refused, there is no entry. -/
theorem runs_execute_in_order_users :
    let lookup : Exchange :=
      ⟨"SELECT version FROM `schema_migrations` WHERE `version` = :param0 LIMIT 1",
        ⟨[(":param0", .int 1)]⟩, .found []⟩
    let table : Exchange := ⟨Schema.usersSql, {}, .changed 1⟩
    let column := "ALTER TABLE `orders` ADD COLUMN `user_id` VARCHAR(255) NOT NULL"
    let entry : Exchange :=
      ⟨"INSERT INTO `schema_migrations` (`version`, `applied_at`) VALUES (:param0, :param1)",
        ⟨[(":param0", .int 1), (":param1", .ofText "2024-01-01 00:00:00")]⟩, .changed 1⟩
    let refusal : Error := .database none "refused" column
    (Runner.atNewYear.dryRun = false ∧
      MigrationId.parse Migration.ofUsers.identifier = .ok ⟨1, "CreateUsers"⟩ ∧
      Migration.ofUsers.Declares .up .mysql .ofUsers) ∧
    (∀ accepted, Runner.atNewYear.Executes .mysql .up 1 .ofUsers
      (Migration.applyUsers accepted).2 (Migration.applyUsers accepted).1.isOk) ∧
    Migration.applyUsers 3 = (.ok (), [lookup, table, ⟨column, {}, .changed 1⟩, entry]) ∧
    Migration.applyUsers 1 =
      (.error (.statement refusal), [lookup, table, ⟨column, {}, .refused refusal⟩]) := by
  have declares : Migration.ofUsers.Declares .up .mysql .ofUsers := ⟨_, rfl, .inl rfl⟩
  refine ⟨⟨rfl, MigrationId.parse_createUsers, declares⟩, fun accepted => ?_, ?_⟩
  · obtain ⟨exchanges, added, -, executes⟩ := runs_execute_in_order .atNewYear
      (Executor.tiring .mysql) .up .ofUsers rfl MigrationId.parse_createUsers declares
      { session := { session := accepted } }
    rw [List.nil_append] at added
    rw [(Runner.mirrors_run _ (Executor.tiring .mysql) .up .ofUsers).answer_eq, ← added] at executes
    simp only [Migration.applyUsers]
    exact executes
  · unfold Migration.applyUsers Runner.run Migration.ofUsers
    rw [MigrationId.parse_createUsers]
    simp only [Runner.checkDue, Runner.record, History.isApplied_eq, History.recordApplied_eq]
    exact ⟨rfl, rfl⟩

end SqlAccess
