import SqlAccess.Execution.Executor

/-!
# What was sent

An executor may do anything with a statement, so its session need not tell what it was sent. The
*observed* executor does: it hands every statement on to the executor it observes, and writes the
statement down with what came back. Nothing else is different: each of its steps `Mirrors` the step
that it observes, and so does every run that is made of such steps. A law about the exchanges of an
observed executor is a law about any executor at all.
-/

namespace SqlAccess

/-- What came back for a statement. -/
inductive Reply where
  | changed (rows : Nat)
  | found (rows : List Row)
  | refused (e : Error)

/-- A statement that was sent, with what came back for it. -/
structure Exchange where
  sql : String
  params : Params
  reply : Reply

/-- A session, and what was exchanged in it. -/
structure Observed (σ : Type) where
  session : σ
  exchanges : List Exchange := []

namespace Executor

variable {σ α : Type}

/-- Takes a step on the observed session, and writes down what was sent for it. -/
def observing (sql : String) (params : Params) (reply : α → Reply) (step : EStateM Error σ α) :
    EStateM Error (Observed σ) α := fun s =>
  match step s.session with
  | .ok a session => .ok a ⟨session, s.exchanges ++ [⟨sql, params, reply a⟩]⟩
  | .error e session => .error e ⟨session, s.exchanges ++ [⟨sql, params, .refused e⟩]⟩

/-- The executor that writes down what the given one is sent. -/
def observed (ex : Executor σ) : Executor (Observed σ) where
  dialect := ex.dialect
  execute sql params := observing sql params .changed (ex.execute sql params)
  fetch sql params := observing sql params .found (ex.fetch sql params)
  begin := observing "BEGIN" {} .changed ex.begin
  commit := observing "COMMIT" {} .changed ex.commit
  rollback := observing "ROLLBACK" {} .changed ex.rollback

@[simp] theorem observed_dialect (ex : Executor σ) : ex.observed.dialect = ex.dialect := rfl

end Executor

/-! ## Nothing else is different -/

/-- On the image of every state, the second step does what the first one does on the state. -/
def Mirrors {ε σ τ α : Type} (image : σ → τ) (x : EStateM ε σ α) (y : EStateM ε τ α) : Prop :=
  ∀ s, y (image s) = match x s with
    | .ok a s' => .ok a (image s')
    | .error e s' => .error e (image s')

namespace Mirrors

variable {ε ε' σ τ α β : Type} {image : σ → τ} {x : EStateM ε σ α} {y : EStateM ε τ α}

theorem pure (a : α) : Mirrors image (pure a : EStateM ε σ α) (pure a) :=
  fun _ => rfl

theorem throw (e : ε) : Mirrors image (throw e : EStateM ε σ α) (throw e) :=
  fun _ => rfl

theorem modify {edit : σ → σ} {edit' : τ → τ} (same : ∀ s, edit' (image s) = image (edit s)) :
    Mirrors (ε := ε) image (modify edit) (modify edit') := by
  intro s
  change EStateM.Result.ok () (edit' (image s)) = _
  rw [same]
  rfl

theorem bind {f : α → EStateM ε σ β} {g : α → EStateM ε τ β} (first : Mirrors image x y)
    (second : ∀ a, Mirrors image (f a) (g a)) : Mirrors image (x >>= f) (y >>= g) := by
  intro s
  have step := first s
  change EStateM.bind y g (image s) = match EStateM.bind x f s with
    | .ok a s' => .ok a (image s')
    | .error e s' => .error e (image s')
  unfold EStateM.bind
  rw [step]
  cases x s with
  | ok a s' => exact second a s'
  | error e s' => rfl

theorem adaptExcept (wrap : ε → ε') (h : Mirrors image x y) :
    Mirrors image (EStateM.adaptExcept wrap x) (EStateM.adaptExcept wrap y) := by
  intro s
  have step := h s
  unfold EStateM.adaptExcept
  rw [step]
  cases x s <;> rfl

end Mirrors

namespace Executor

variable {σ α : Type}

theorem mirrors_observing (sql : String) (params : Params) (reply : α → Reply)
    (step : EStateM Error σ α) : Mirrors Observed.session (observing sql params reply step) step := by
  intro s
  unfold observing
  cases step s.session <;> rfl

variable (ex : Executor σ) (sql : String) (params : Params)

theorem mirrors_execute :
    Mirrors Observed.session (ex.observed.execute sql params) (ex.execute sql params) :=
  mirrors_observing sql params .changed _

theorem mirrors_fetch :
    Mirrors Observed.session (ex.observed.fetch sql params) (ex.fetch sql params) :=
  mirrors_observing sql params .found _

end Executor

end SqlAccess
