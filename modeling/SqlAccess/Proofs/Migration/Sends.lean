import SqlAccess.Migration.Runner
import SqlAccess.Proofs.Execution.Exchange

/-!
# What the steps of a run send

A run is made of steps on the session of an executor, most of which do not touch the session at all.
`Sends` says of a step which exchanges it adds to an observed session and how they fit its answer,
from whatever state it is taken and whether it succeeds or fails. The exchanges of a sequence are
those of its first step and then, unless that failed, those of the rest (`Sends.bind`); a `Quiet`
step in front adds nothing (`Sends.after_quiet`).

The laws on the steps of a run say what each of them exchanges: the look-up of a version, the
statement of a definition, and the writing of the history. None of them opens another.
-/

namespace SqlAccess

variable {σ α β : Type}

namespace Migrating

/-- The answer of a step, or its error. -/
def answer (x : Migrating σ α) (s : σ) : Except MigrationError α :=
  match x s with
  | .ok a _ => .ok a
  | .error e _ => .error e

/-- What a step leaves behind, be it a success or a failure. -/
def leaves (x : Migrating σ α) (s : σ) : σ :=
  match x s with
  | .ok _ s' => s'
  | .error _ s' => s'

theorem bind_eq (x : Migrating σ α) (f : α → Migrating σ β) (s : σ) :
    (x >>= f) s = match x s with
      | .ok a s' => f a s'
      | .error e s' => .error e s' := by
  change EStateM.bind x f s = _
  unfold EStateM.bind
  cases x s <;> rfl

variable {x : Migrating σ α} {f : α → Migrating σ β} {s s' : σ} {a : α}

theorem leaves_bind_of_ok (taken : x s = .ok a s') : (x >>= f).leaves s = (f a).leaves s' := by
  unfold leaves
  rw [bind_eq, taken]

theorem answer_bind_of_ok (taken : x s = .ok a s') : (x >>= f).answer s = (f a).answer s' := by
  unfold answer
  rw [bind_eq, taken]

theorem leaves_bind_pure (x : Migrating σ α) (g : α → β) (s : σ) :
    (x >>= fun a => pure (g a)).leaves s = x.leaves s := by
  unfold leaves
  rw [bind_eq]
  cases x s <;> rfl

theorem answer_bind_pure (x : Migrating σ α) (g : α → β) (s : σ) :
    (x >>= fun a => pure (g a)).answer s = (x.answer s).map g := by
  unfold answer
  rw [bind_eq]
  cases x s <;> rfl

end Migrating

namespace Mirrors

variable {τ : Type} {image : σ → τ} {x : Migrating σ α} {y : Migrating τ α}

theorem leaves_eq (h : Mirrors image x y) (s : σ) : y.leaves (image s) = image (x.leaves s) := by
  unfold Migrating.leaves
  rw [h s]
  cases x s <;> rfl

theorem answer_eq (h : Mirrors image x y) (s : σ) : y.answer (image s) = x.answer s := by
  unfold Migrating.answer
  rw [h s]
  cases x s <;> rfl

end Mirrors

/-- From every state, the step adds exchanges to the session that fit its answer. -/
def Sends (x : Migrating (Run (Observed σ)) α)
    (fits : List Exchange → Except MigrationError α → Prop) : Prop :=
  ∀ run, ∃ exchanges, (x.leaves run).session.exchanges = run.session.exchanges ++ exchanges ∧
    fits exchanges (x.answer run)

/-- From every state, the step succeeds with the answer and leaves the session alone. -/
def Quiet (x : Migrating (Run (Observed σ)) α) (a : α) : Prop :=
  ∀ run, ∃ run', x run = .ok a run' ∧ run'.session = run.session

namespace Sends

variable {x : Migrating (Run (Observed σ)) α} {f : α → Migrating (Run (Observed σ)) β}
  {fits fits' : List Exchange → Except MigrationError α → Prop}

theorem mono (h : Sends x fits) (weaker : ∀ exchanges answer, fits exchanges answer →
    fits' exchanges answer) : Sends x fits' := by
  intro run
  obtain ⟨exchanges, added, holds⟩ := h run
  exact ⟨exchanges, added, weaker _ _ holds⟩

theorem pure (a : α) : Sends (pure a : Migrating (Run (Observed σ)) α)
    fun exchanges answer => exchanges = [] ∧ answer = .ok a := by
  intro run
  exact ⟨[], (List.append_nil _).symm, rfl, rfl⟩

theorem throw (e : MigrationError) : Sends (throw e : Migrating (Run (Observed σ)) α)
    fun exchanges answer => exchanges = [] ∧ answer = .error e := by
  intro run
  exact ⟨[], (List.append_nil _).symm, rfl, rfl⟩

/-- What a sequence of two steps exchanges, given what each of them does. -/
theorem bind {next : α → List Exchange → Except MigrationError β → Prop} (first : Sends x fits)
    (second : ∀ a, Sends (f a) (next a)) : Sends (x >>= f) fun exchanges answer =>
      (∃ e, fits exchanges (.error e) ∧ answer = .error e) ∨
        ∃ a early late, fits early (.ok a) ∧ next a late answer ∧ exchanges = early ++ late := by
  intro run
  obtain ⟨early, added, holds⟩ := first run
  unfold Migrating.leaves Migrating.answer at *
  rw [Migrating.bind_eq]
  cases taken : x run with
  | error e run' =>
    rw [taken] at added holds
    exact ⟨early, added, .inl ⟨e, holds, rfl⟩⟩
  | ok a run' =>
    rw [taken] at added holds
    obtain ⟨late, more, holds'⟩ := second a run'
    refine ⟨early ++ late, ?_, .inr ⟨a, early, late, holds, holds', rfl⟩⟩
    rw [← List.append_assoc, ← added]
    exact more

/-- A quiet step in front of others adds nothing to what they exchange. -/
theorem after_quiet {a : α} {next : List Exchange → Except MigrationError β → Prop}
    (first : Quiet x a) (second : Sends (f a) next) : Sends (x >>= f) next := by
  intro run
  obtain ⟨run', taken, same⟩ := first run
  obtain ⟨exchanges, added, holds⟩ := second run'
  unfold Migrating.leaves Migrating.answer at *
  rw [Migrating.bind_eq, taken, ← same]
  exact ⟨exchanges, added, holds⟩

/-- A quiet step behind another changes neither its exchanges nor whether it succeeds. -/
theorem then_quiet {b : β} {p : List Exchange → Bool → Prop}
    (first : Sends x fun exchanges answer => p exchanges answer.isOk)
    (second : ∀ a, Quiet (f a) b) :
    Sends (x >>= f) fun exchanges answer => p exchanges answer.isOk := by
  intro run
  obtain ⟨exchanges, added, holds⟩ := first run
  refine ⟨exchanges, ?_⟩
  unfold Migrating.leaves Migrating.answer at *
  rw [Migrating.bind_eq]
  cases taken : x run with
  | error e run' =>
    rw [taken] at added holds
    exact ⟨added, holds⟩
  | ok a run' =>
    obtain ⟨run'', ended, same⟩ := second a run'
    rw [taken] at added holds
    simp only [ended, same]
    exact ⟨added, holds⟩

end Sends

/-! ## Quiet steps -/

namespace Quiet

variable {x : Migrating (Run (Observed σ)) α} {f : α → Migrating (Run (Observed σ)) β}

theorem pure (a : α) : Quiet (pure a : Migrating (Run (Observed σ)) α) a := by
  intro run
  exact ⟨run, rfl, rfl⟩

theorem bind {a : α} {b : β} (first : Quiet x a) (second : Quiet (f a) b) :
    Quiet (x >>= f) b := by
  intro run
  obtain ⟨run', taken, same⟩ := first run
  obtain ⟨run'', ended, same'⟩ := second run'
  rw [Migrating.bind_eq, taken]
  exact ⟨run'', ended, same'.trans same⟩

end Quiet

namespace Run

theorem quiet_modify {edit : Run (Observed σ) → Run (Observed σ)}
    (same : ∀ run, (edit run).session = run.session) : Quiet (modify edit) () := by
  intro run
  exact ⟨edit run, rfl, same run⟩

theorem quiet_tell (line : String) : Quiet (σ := σ) (tell line) () :=
  quiet_modify fun _ => rfl

theorem quiet_enter (phase : Phase) : Quiet (σ := σ) (enter phase) () :=
  quiet_modify fun _ => rfl

end Run

/-! ## Steps on the session -/

namespace Run

theorem onSession_bind {σ α β : Type} (x : Migrating σ α) (f : α → Migrating σ β) :
    onSession (x >>= f) = onSession x >>= fun a => onSession (f a) := by
  funext run
  rw [Migrating.bind_eq (onSession x)]
  unfold onSession
  rw [Migrating.bind_eq x]
  cases x run.session <;> rfl

/-- What an observed step sends is exchanged once, and the step succeeds unless it is refused. -/
theorem sends_statement (sql : String) (params : Params) (reply : α → Reply)
    (step : EStateM Error σ α) :
    Sends (onSession (Migrating.ofStatement (Executor.observing sql params reply step)))
      fun exchanges answer =>
        (∃ a, exchanges = [⟨sql, params, reply a⟩] ∧ answer = .ok a) ∨
          ∃ e, exchanges = [⟨sql, params, .refused e⟩] ∧ answer = .error (.statement e) := by
  intro run
  unfold Migrating.leaves Migrating.answer onSession Migrating.ofStatement EStateM.adaptExcept
    Executor.observing
  cases step run.session.session with
  | ok a session => exact ⟨[⟨sql, params, reply a⟩], rfl, .inl ⟨a, rfl, rfl⟩⟩
  | error e session => exact ⟨[⟨sql, params, .refused e⟩], rfl, .inr ⟨e, rfl, rfl⟩⟩

/-- A statement, and an answer that is made of what came back for it. -/
theorem sends_statement_then (sql : String) (params : Params) (reply : α → Reply)
    (step : EStateM Error σ α) {f : α → Migrating (Observed σ) β} {g : α → Except MigrationError β}
    (answers : ∀ a, f a = MonadExcept.ofExcept (g a)) :
    Sends (onSession (Migrating.ofStatement (Executor.observing sql params reply step) >>= f))
      fun exchanges answer =>
        (∃ a, exchanges = [⟨sql, params, reply a⟩] ∧ answer = g a) ∨
          ∃ e, exchanges = [⟨sql, params, .refused e⟩] ∧ answer = .error (.statement e) := by
  rw [onSession_bind]
  have second : ∀ a, Sends (onSession (f a))
      fun exchanges answer => exchanges = [] ∧ answer = g a := by
    intro a
    rw [answers]
    cases g a with
    | ok b => exact Sends.pure b
    | error e => exact Sends.throw e
  refine (Sends.bind (sends_statement sql params reply step) second).mono ?_
  rintro exchanges answer (⟨e, sent | sent, rfl⟩ | ⟨a, early, late, sent | sent, ⟨rfl, rfl⟩, rfl⟩)
  · obtain ⟨a, -, ⟨⟩⟩ := sent
  · obtain ⟨e', rfl, same⟩ := sent
    obtain rfl := Except.error.inj same
    exact .inr ⟨e', rfl, rfl⟩
  · obtain ⟨a', rfl, same⟩ := sent
    obtain rfl := Except.ok.inj same
    exact .inl ⟨a, List.append_nil _, rfl⟩
  · obtain ⟨e, -, ⟨⟩⟩ := sent

end Run

end SqlAccess
