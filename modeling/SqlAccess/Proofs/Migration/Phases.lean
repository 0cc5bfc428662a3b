import SqlAccess.Proofs.Migration.Execution

/-!
# The stages of a run and its phase

A run comes to its entry in the history in one go: it begins, asks whether it is due, and does its
work, which is all that lies between the look-up and the entry (`Runner.prepare`, `Runner.work`).
Then it enters the last phase and brings the history up to date (`Runner.run_eq`).

In this order the last phase says less than that a run is complete. It is entered before the history
is written, so a run whose entry is refused fails in it, and a run that never begins, because its
identifier is malformed, leaves the phase of the run before it. `finish_means_recorded_or_refused`
says that there is nothing else: after any runs, a run ends in the last phase exactly when it
succeeds or one of the two is the case.
-/

namespace SqlAccess

variable {σ α β : Type}

/-! ## What steps preserve -/

/-- Whatever it answers, the step leads from states with the property to such states. -/
def Migrating.Preserves (x : Migrating σ α) (p : σ → Prop) : Prop :=
  ∀ s, p s → p (x.leaves s)

namespace Migrating.Preserves

variable {p : σ → Prop} {x : Migrating σ α} {f : α → Migrating σ β}

theorem pure (a : α) : Preserves (pure a : Migrating σ α) p :=
  fun _ h => h

theorem throw (e : MigrationError) : Preserves (throw e : Migrating σ α) p :=
  fun _ h => h

theorem modify {edit : σ → σ} (kept : ∀ s, p s → p (edit s)) : Preserves (modify edit) p :=
  kept

/-- The second step has to preserve the property only for answers that the first one gives. -/
theorem bind_of_ok (first : Preserves x p)
    (second : ∀ s a s', x s = .ok a s' → Preserves (f a) p) : Preserves (x >>= f) p := by
  intro s h
  have early := first s h
  unfold leaves at early ⊢
  rw [bind_eq]
  cases step : x s with
  | ok a s' =>
    rw [step] at early
    exact second s a s' step s' early
  | error e s' =>
    rw [step] at early
    exact early

theorem bind (first : Preserves x p) (second : ∀ a, Preserves (f a) p) :
    Preserves (x >>= f) p :=
  first.bind_of_ok fun _ a _ _ => second a

theorem ofRendering {rendered : Except Error α} :
    Preserves (ofRendering rendered : Migrating σ α) p := by
  cases rendered with
  | ok a => exact .pure a
  | error e => exact .throw _

end Migrating.Preserves

theorem Migrating.bind_eq_ok {x : Migrating σ α} {f : α → Migrating σ β} {s s' : σ} {b : β} :
    (x >>= f) s = .ok b s' ↔ ∃ a mid, x s = .ok a mid ∧ f a mid = .ok b s' := by
  rw [bind_eq]
  constructor
  · intro h
    cases step : x s with
    | ok a mid =>
      rw [step] at h
      exact ⟨a, mid, rfl, h⟩
    | error e mid =>
      rw [step] at h
      cases h
  · rintro ⟨a, mid, step, h⟩
    rw [step]
    exact h

theorem Run.declared_eq_ok {declaration : Declaration} {schema schema' : Schema} {run run' : Run σ}
    (h : declared declaration schema run = .ok schema' run') :
    declaration schema = .ok () schema' := by
  unfold declared at h
  cases step : declaration schema with
  | ok _ _ =>
    rw [step] at h
    cases h
    rfl
  | error e _ =>
    rw [step] at h
    cases h

/-- Is the property one that neither lines nor phases before the last one touch? -/
structure Run.Unaffected (p : Run σ → Prop) : Prop where
  tells : ∀ line, (Run.tell line).Preserves p
  enters : ∀ phase, phase ≠ .finish → (Run.enter phase).Preserves p

theorem Run.preserves_declared {p : Run σ → Prop} (declaration : Declaration) (schema : Schema) :
    (declared declaration schema).Preserves p := by
  unfold declared
  split
  · exact .pure _
  · exact .throw _

theorem Run.preserves_onSession {p : Run σ → Prop} (x : Migrating σ α)
    (kept : ∀ run, p run → p { run with session := x.leaves run.session }) :
    (onSession x).Preserves p := by
  intro run h
  have step := kept run h
  unfold Migrating.leaves onSession at *
  cases taken : x run.session <;> (rw [taken] at step; exact step)

namespace Migration

variable {m : Migration} {direction : RunDirection} {d : Dialect}

theorem preserves_declare {p : Run σ → Prop} (unaffected : Run.Unaffected p) :
    (m.declare direction d).Preserves p := by
  have enters := unaffected.enters
  unfold declare
  refine (enters .setup (by decide)).bind fun _ => (Run.preserves_declared _ _).bind fun early =>
    (enters .change (by decide)).bind fun _ => ?_
  split
  · exact .pure _
  · cases direction with
    | up => exact (enters .up (by decide)).bind fun _ => Run.preserves_declared _ _
    | down => exact (enters .down (by decide)).bind fun _ => Run.preserves_declared _ _
  · exact .throw _

/-- What a run takes for declared is what the migration declares. -/
theorem declares_of_declare {schema : Schema} {run run' : Run σ}
    (h : m.declare direction d run = .ok schema run') : m.Declares direction d schema := by
  obtain ⟨_, _, -, h⟩ := Migrating.bind_eq_ok.mp h
  obtain ⟨early, _, setup, h⟩ := Migrating.bind_eq_ok.mp h
  obtain ⟨_, _, -, h⟩ := Migrating.bind_eq_ok.mp h
  refine ⟨early, Run.declared_eq_ok setup, ?_⟩
  cases change : m.change early with
  | ok _ late =>
    rw [change] at h
    cases h
    exact .inl rfl
  | error e late =>
    rw [change] at h
    cases e with
    | noChange =>
      refine .inr ⟨late, rfl, ?_⟩
      cases direction <;>
      · obtain ⟨_, _, -, h⟩ := Migrating.bind_eq_ok.mp h
        exact Run.declared_eq_ok h
    | _ => cases h

/-- The statement is one of those that a run of the migration in the direction carries out. -/
def Carries (m : Migration) (direction : RunDirection) (d : Dialect) (sql : String) : Prop :=
  ∃ schema definitions definition, m.Declares direction d schema ∧
    direction.definitions schema.definitions = .ok definitions ∧ definition ∈ definitions ∧
      definition.toSql schema.dialect = .ok sql

end Migration

namespace Runner

/-! ## The stages of a run -/

/-- What a run does between the look-up of its version and the entry in the history. -/
def work (r : Runner) (ex : Executor σ) (direction : RunDirection) (m : Migration)
    (id : MigrationId) : Migrating (Run σ) Unit := do
  Run.tell (Report.heading (id.text ++ ": " ++ direction.progress))
  let schema ← m.declare direction ex.dialect
  let definitions ← Migrating.ofRendering (direction.definitions schema.definitions)
  Run.enter .apply
  if definitions.isEmpty then Run.tell Report.nothingToDo
  r.carryOut ex schema.dialect definitions

/-- What a run does up to the entry in the history. -/
def prepare (r : Runner) (ex : Executor σ) (direction : RunDirection) (m : Migration)
    (id : MigrationId) : Migrating (Run σ) Unit := do
  modify fun run => { run with direction, phase := .start }
  r.checkDue ex direction id.version
  r.work ex direction m id

/-- What a run does in the last phase: it brings the history up to date, and says that it is done. -/
def conclude (r : Runner) (ex : Executor σ) (direction : RunDirection) (id : MigrationId) :
    Migrating (Run σ) Unit := do
  Run.enter .finish
  r.record ex direction id.version
  Run.tell (Report.heading (id.text ++ ": " ++ direction.done ++ " (" ++ r.elapsed ++ " sec)"))

variable {r : Runner} {ex : Executor σ} {direction : RunDirection} {m : Migration}
  {id : MigrationId}

/-- A run begins by looking its version up. -/
theorem prepare_eq (run : Run σ) : r.prepare ex direction m id run =
    (r.checkDue ex direction id.version >>= fun _ => r.work ex direction m id)
      { run with direction, phase := .start } :=
  rfl

/-- **The stages of a run.** -/
theorem run_eq (r : Runner) (ex : Executor σ) (direction : RunDirection)
    (named : MigrationId.parse m.identifier = .ok id) :
    r.run ex direction m =
      r.prepare ex direction m id >>= fun _ => r.conclude ex direction id := by
  unfold run prepare work conclude
  rw [named]
  simp only [bind_assoc]
  refine bind_congr fun _ => bind_congr fun _ => bind_congr fun _ => bind_congr fun schema =>
    bind_congr fun definitions => bind_congr fun _ => ?_
  split <;> rfl

/-- A run without an identifier does nothing but fail. -/
theorem run_eq_throw (r : Runner) (ex : Executor σ) (direction : RunDirection) {e : MigrationError}
    (unnamed : MigrationId.parse m.identifier = .error e) : r.run ex direction m = throw e := by
  unfold run
  rw [unnamed]

/-! ## What the stages preserve -/

section

variable {p : Run σ → Prop}

theorem preserves_carryOut (unaffected : Run.Unaffected p) {d : Dialect}
    {definitions : List Definition}
    (sends : ∀ definition ∈ definitions, ∀ sql, definition.toSql d = .ok sql →
      (r.send ex sql).Preserves p) :
    (r.carryOut ex d definitions).Preserves p := by
  induction definitions with
  | nil => exact .pure ()
  | cons definition rest ih =>
    have others := ih fun x member => sends x (List.mem_cons_of_mem _ member)
    rw [carryOut]
    cases compiled : definition.toSql d with
    | error e => exact .throw _
    | ok sql =>
      exact (sends definition List.mem_cons_self sql compiled).bind fun _ =>
        (unaffected.tells _).bind fun _ => (unaffected.tells _).bind fun _ => others

theorem preserves_work (unaffected : Run.Unaffected p)
    (sends : ∀ sql, m.Carries direction ex.dialect sql → (r.send ex sql).Preserves p) :
    (r.work ex direction m id).Preserves p := by
  unfold work
  refine (unaffected.tells _).bind fun _ =>
    (Migration.preserves_declare unaffected).bind_of_ok fun _ schema _ declared =>
      Migrating.Preserves.ofRendering.bind_of_ok fun _ definitions _ directed =>
        (unaffected.enters .apply (by decide)).bind fun _ => ?_
  have declares := Migration.declares_of_declare declared
  have listed : direction.definitions schema.definitions = .ok definitions := by
    cases rendered : direction.definitions schema.definitions with
    | error e =>
      rw [rendered] at directed
      cases directed
    | ok _ =>
      rw [rendered] at directed
      cases directed
      rfl
  have carried : (r.carryOut ex schema.dialect definitions).Preserves p :=
    preserves_carryOut unaffected fun definition member sql compiled =>
      sends sql ⟨schema, definitions, definition, declares, listed, member, compiled⟩
  split
  · exact (unaffected.tells _).bind fun _ => carried
  · exact carried

end

/-! ## Phases -/

/-- Sending changes no phase. -/
theorem preserves_send_phase (p : Phase → Prop) (sql : String) :
    (r.send ex sql).Preserves fun run => p run.phase := by
  unfold send
  split
  · exact .modify fun _ h => h
  · exact (Run.preserves_onSession _ fun _ h => h).bind fun _ => .pure ()

/-- Before the entry in the history, a run is in another phase than the last one. -/
theorem phase_prepare (r : Runner) (ex : Executor σ) (direction : RunDirection) (m : Migration)
    (id : MigrationId) (run : Run σ) :
    ((r.prepare ex direction m id).leaves run).phase ≠ .finish := by
  have unaffected : Run.Unaffected fun run : Run σ => run.phase ≠ .finish :=
    ⟨fun _ => .modify fun _ h => h, fun _ other => .modify fun _ _ => other⟩
  have due : (r.checkDue ex direction id.version).Preserves
      fun run : Run σ => run.phase ≠ .finish := by
    unfold checkDue
    split
    · exact .pure ()
    · refine (Run.preserves_onSession _ fun _ h => h).bind fun applied => ?_
      split
      · exact .throw _
      · exact .throw _
      · exact .pure ()
  have worked : (r.work ex direction m id).Preserves fun run : Run σ => run.phase ≠ .finish :=
    preserves_work unaffected fun sql _ => preserves_send_phase (· ≠ .finish) sql
  exact due.bind (fun _ => worked) { run with direction, phase := .start } Phase.noConfusion

/-- Behind its work, a run stays in the last phase. -/
theorem phase_conclude (r : Runner) (ex : Executor σ) (direction : RunDirection)
    (id : MigrationId) (run : Run σ) :
    ((r.conclude ex direction id).leaves run).phase = .finish := by
  have recorded : (r.record ex direction id.version).Preserves
      fun run : Run σ => run.phase = .finish := by
    unfold record
    split
    · exact .pure ()
    · exact Run.preserves_onSession _ fun _ h => h
  have told : ∀ line, (Run.tell line).Preserves fun run : Run σ => run.phase = .finish :=
    fun _ => .modify fun _ h => h
  exact recorded.bind (fun _ => told _) { run with phase := .finish } rfl

/-- Behind its work, a run makes its entry in the history, and reports. -/
theorem conclude_eq (r : Runner) (ex : Executor σ) (direction : RunDirection) (id : MigrationId)
    (run : Run σ) :
    r.conclude ex direction id run = (r.record ex direction id.version >>= fun _ =>
      Run.tell (Report.heading (id.text ++ ": " ++ direction.done ++ " (" ++ r.elapsed ++ " sec)")))
        { run with phase := .finish } :=
  rfl

/-- Behind its work, a run fails exactly when its entry in the history does. -/
theorem answer_conclude (r : Runner) (ex : Executor σ) (direction : RunDirection)
    (id : MigrationId) (run : Run σ) : (r.conclude ex direction id).answer run =
      (r.record ex direction id.version).answer { run with phase := .finish } := by
  unfold Migrating.answer
  rw [conclude_eq, Migrating.bind_eq]
  cases r.record ex direction id.version { run with phase := .finish } <;> rfl

/-- The run comes to its entry in the history, and the entry fails with the error. -/
def EntryFails (r : Runner) (ex : Executor σ) (direction : RunDirection) (m : Migration)
    (run : Run σ) (e : MigrationError) : Prop :=
  ∃ id mid, MigrationId.parse m.identifier = .ok id ∧
    r.prepare ex direction m id run = .ok () mid ∧
      (r.record ex direction id.version).answer { mid with phase := .finish } = .error e

/-- What runs leave behind, one after the other, each of them whatever became of the others. -/
def afterRuns (r : Runner) (ex : Executor σ) : List (RunDirection × Migration) → Run σ → Run σ
  | [], run => run
  | (direction, m) :: rest, run => afterRuns r ex rest ((r.run ex direction m).leaves run)

/-- A dry run has no entry that could fail. -/
theorem not_entryFails (dry : r.dryRun = true) (run : Run σ) (e : MigrationError) :
    ¬ r.EntryFails ex direction m run e := by
  rintro ⟨id, mid, -, -, failed⟩
  unfold record at failed
  rw [if_pos dry] at failed
  cases failed

theorem finish_iff (r : Runner) (ex : Executor σ) (direction : RunDirection) (m : Migration)
    (run : Run σ) : ((r.run ex direction m).leaves run).phase = .finish ↔
      (r.run ex direction m).answer run = .ok () ∨
      (∃ e, r.EntryFails ex direction m run e ∧ (r.run ex direction m).answer run = .error e) ∨
      (∃ e, MigrationId.parse m.identifier = .error e ∧
        (r.run ex direction m).answer run = .error e ∧ run.phase = .finish) := by
  cases named : MigrationId.parse m.identifier with
  | error e =>
    rw [r.run_eq_throw ex direction named]
    constructor
    · exact fun phase => .inr (.inr ⟨e, rfl, rfl, phase⟩)
    · rintro (succeeded | ⟨_, ⟨id, _, parsed, _⟩, _⟩ | ⟨_, _, _, phase⟩)
      · cases succeeded
      · exact absurd (named.symm.trans parsed) (fun same => nomatch same)
      · exact phase
  | ok id =>
    have before := r.phase_prepare ex direction m id run
    rw [r.run_eq ex direction named]
    cases prepared : r.prepare ex direction m id run with
    | error e mid =>
      rw [Migrating.leaves, prepared] at before
      rw [Migrating.leaves, Migrating.answer, Migrating.bind_eq, prepared]
      refine ⟨fun phase => absurd phase before, ?_⟩
      rintro (succeeded | ⟨_, ⟨id', _, parsed, ready, _⟩, _⟩ | ⟨_, malformed, _⟩)
      · cases succeeded
      · obtain rfl := Except.ok.inj (named.symm.trans parsed)
        exact absurd (prepared.symm.trans ready) (fun same => nomatch same)
      · cases malformed
    | ok _ mid =>
      have ends := r.answer_conclude ex direction id mid
      have behind := r.phase_conclude ex direction id mid
      rw [Migrating.leaves, Migrating.answer, Migrating.bind_eq, prepared]
      refine ⟨fun _ => ?_, fun _ => behind⟩
      change (r.conclude ex direction id).answer mid = _ ∨ _ ∨ _
      cases recorded : (r.record ex direction id.version).answer { mid with phase := .finish } with
      | ok _ => exact .inl (ends.trans recorded)
      | error e =>
        exact .inr (.inl ⟨e, ⟨id, mid, named, prepared, recorded⟩, ends.trans recorded⟩)

end Runner

/-- **What the last phase means.** After any runs on any executor, a run is in the last phase
exactly when it succeeded, or its entry in the history failed, or it never began behind a run that
was in the last phase. A dry run has no entry that could fail. -/
theorem finish_means_recorded_or_refused (r : Runner) (ex : Executor σ)
    (runs : List (RunDirection × Migration)) (start : Run σ) (direction : RunDirection)
    (m : Migration) :
    (((r.run ex direction m).leaves (r.afterRuns ex runs start)).phase = .finish ↔
      (r.run ex direction m).answer (r.afterRuns ex runs start) = .ok () ∨
      (∃ e, r.EntryFails ex direction m (r.afterRuns ex runs start) e ∧
        (r.run ex direction m).answer (r.afterRuns ex runs start) = .error e) ∨
      (∃ e, MigrationId.parse m.identifier = .error e ∧
        (r.run ex direction m).answer (r.afterRuns ex runs start) = .error e ∧
        (r.afterRuns ex runs start).phase = .finish)) ∧
    (r.dryRun = true → ∀ e, ¬ r.EntryFails ex direction m (r.afterRuns ex runs start) e) :=
  ⟨r.finish_iff ex direction m _, fun dry e => Runner.not_entryFails dry _ e⟩

/-- An executor that finds nothing and changes nothing. -/
def Executor.readOnly (d : Dialect) : Executor Unit where
  dialect := d
  execute sql _ := throw (.database none "the database is read only" sql)
  fetch _ _ := pure []

/-- Where the database is read only, a run of a migration without definitions fails, and is in the
last phase. -/
theorem finish_despite_refusal :
    let r : Runner := { now := "2024-01-01 00:00:00" }
    let step := r.migrate (Executor.readOnly .mysql) { identifier := "0001_create_users" }
    (step.leaves { session := () }).phase = .finish ∧
      ∃ e, step.answer { session := () } = .error e := by
  intro r step
  obtain ⟨mid, prepared⟩ : ∃ mid, r.prepare (Executor.readOnly .mysql) .up
      { identifier := "0001_create_users" } ⟨1, "CreateUsers"⟩ { session := () } = .ok () mid :=
    ⟨_, rfl⟩
  obtain ⟨e, failed⟩ : ∃ e, (r.record (Executor.readOnly .mysql) .up 1).answer
      { mid with phase := .finish } = .error e := by
    unfold Runner.record
    dsimp only
    rw [History.recordApplied_eq]
    exact ⟨_, rfl⟩
  have ends : step.answer { session := () } = .error e := by
    change (r.run (Executor.readOnly .mysql) .up _).answer _ = _
    rw [r.run_eq _ _ MigrationId.parse_createUsers, Migrating.answer, Migrating.bind_eq, prepared]
    exact (r.answer_conclude _ _ ⟨1, "CreateUsers"⟩ mid).trans failed
  refine ⟨(r.finish_iff _ _ _ _).mpr (.inr (.inl ⟨e, ?_, ends⟩)), e, ends⟩
  exact ⟨⟨1, "CreateUsers"⟩, mid, MigrationId.parse_createUsers, prepared, failed⟩

end SqlAccess
