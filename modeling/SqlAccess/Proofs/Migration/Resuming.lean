import Mathlib.Data.Finset.Lattice.Lemmas
import SqlAccess.Proofs.Migration.Journal

/-!
# Applying what is pending

A call for the pending migrations attempts those whose versions are not in the history, in ascending
order, up to the first that fails. `Applies` says so for a list of migrations, one constructor for
each way in which the first of them can end; a walk through the set follows the list of those that
are pending (`Runner.applies_applyAll`).

What is pending behind a call is what it has not applied (`MigrationSet.due_union`). So a call behind
one that failed begins where that one stopped, and a call behind one that succeeded finds nothing
left: `pending_migrations_resume`.
-/

namespace SqlAccess

variable {σ τ : Type}

/-- The run that applies a version, with its answer. -/
def Attempt.applying (version : Int) (answer : Except MigrationError Unit) : Attempt where
  version := version
  direction := .up
  dryRun := false
  answer := answer

/-- The versions of migrations. -/
def versionsOf (entries : List (MigrationId × Migration)) : List Int :=
  entries.map fun entry => entry.1.version

/-- What becomes of migrations that are applied one after the other, up to the first that fails: the
runs that are made, the answer, and the versions before and behind them. -/
inductive Applies : List (MigrationId × Migration) → List Attempt →
    Except MigrationError (List Int) → Finset Int → Finset Int → Prop
  | done {now : Finset Int} : Applies [] [] (.ok []) now now
  | failed {entry : MigrationId × Migration} {rest : List (MigrationId × Migration)}
      {e : MigrationError} {now : Finset Int} :
      Applies (entry :: rest) [.applying entry.1.version (.error e)] (.error e) now now
  | applied {entry : MigrationId × Migration} {rest : List (MigrationId × Migration)}
      {attempts : List Attempt} {answer : Except MigrationError (List Int)}
      {now later : Finset Int} :
      Applies rest attempts answer (insert entry.1.version now) later →
      Applies (entry :: rest) (.applying entry.1.version (.ok ()) :: attempts)
        (answer.map (entry.1.version :: ·)) now later

/-- All of them are applied, or those in front of one that fails. -/
theorem Applies.all_or_front {entries : List (MigrationId × Migration)} {attempts : List Attempt}
    {answer : Except MigrationError (List Int)} {now later : Finset Int}
    (h : Applies entries attempts answer now later) :
    (answer = .ok (versionsOf entries) ∧
      attempts = (versionsOf entries).map (.applying · (.ok ())) ∧
      later = now ∪ (versionsOf entries).toFinset) ∨
    ∃ front entry rest e, entries = front ++ entry :: rest ∧ answer = .error e ∧
      attempts = (versionsOf front).map (.applying · (.ok ())) ++
        [.applying entry.1.version (.error e)] ∧
      later = now ∪ (versionsOf front).toFinset := by
  induction h with
  | done => exact .inl ⟨rfl, rfl, (Finset.union_empty _).symm⟩
  | @failed entry rest e now =>
    exact .inr ⟨[], entry, rest, e, rfl, rfl, rfl, (Finset.union_empty _).symm⟩
  | @applied entry rest attempts answer now later _ ih =>
    have grown : ∀ versions : List Int, insert entry.1.version now ∪ versions.toFinset =
        now ∪ (entry.1.version :: versions).toFinset := by
      intro versions
      rw [List.toFinset_cons, Finset.union_insert, Finset.insert_union]
    rcases ih with ⟨rfl, rfl, rfl⟩ | ⟨front, stopped, rest, e, rfl, rfl, rfl, rfl⟩
    · exact .inl ⟨rfl, rfl, grown _⟩
    · exact .inr ⟨entry :: front, stopped, rest, e, rfl, rfl, rfl, grown _⟩

/-- The first of them is attempted first. -/
theorem Applies.first {entry : MigrationId × Migration} {rest : List (MigrationId × Migration)}
    {attempts : List Attempt} {answer : Except MigrationError (List Int)} {now later : Finset Int}
    (h : Applies (entry :: rest) attempts answer now later) :
    ∃ answer, attempts.head? = some (.applying entry.1.version answer) := by
  cases h with
  | failed => exact ⟨_, rfl⟩
  | applied => exact ⟨_, rfl⟩

namespace MigrationSet

variable {s : MigrationSet}

/-- The migrations whose versions are not among the given ones. -/
def due (s : MigrationSet) (versions : Finset Int) : List (MigrationId × Migration) :=
  s.entries.filter fun entry => entry.1.version ∉ versions

theorem mem_due {versions : Finset Int} {entry : MigrationId × Migration} :
    entry ∈ s.due versions ↔ entry ∈ s.entries ∧ entry.1.version ∉ versions := by
  unfold due
  rw [List.mem_filter, decide_eq_true_iff]

/-- What is due is what the set calls pending. -/
theorem pending_eq_due (s : MigrationSet) (applied : List Int) :
    s.pending applied = (s.due applied.toFinset).map Prod.fst := by
  unfold pending ids due
  rw [List.filter_map]
  refine congrArg (List.map Prod.fst) (List.filter_congr fun entry _ => ?_)
  simp

theorem pairwise_due (ordered : Ordered s.entries) (versions : Finset Int) :
    (s.due versions).Pairwise fun a b => a.1.version < b.1.version :=
  ordered.ascending.filter _

/-- More versions leave less due. -/
theorem due_union (s : MigrationSet) (versions more : Finset Int) :
    s.due (versions ∪ more) = (s.due versions).filter fun entry => entry.1.version ∉ more := by
  unfold due
  rw [List.filter_filter]
  refine List.filter_congr fun entry _ => ?_
  simp [Bool.and_comm]

/-- With the front of what is due out of the way, the rest is due. -/
theorem due_behind_front (ordered : Ordered s.entries) {versions : Finset Int}
    {front rest : List (MigrationId × Migration)} (split : s.due versions = front ++ rest) :
    s.due (versions ∪ (versionsOf front).toFinset) = rest := by
  have ascending := pairwise_due ordered versions
  rw [split] at ascending
  have below := (List.pairwise_append.mp ascending).2.2
  rw [due_union, split, List.filter_append]
  have gone : front.filter (fun entry => entry.1.version ∉ (versionsOf front).toFinset) = [] := by
    refine List.filter_eq_nil_iff.mpr fun entry member absent => ?_
    rw [decide_eq_true_iff, List.mem_toFinset] at absent
    exact absent (List.mem_map_of_mem member)
  have left : rest.filter (fun entry => entry.1.version ∉ (versionsOf front).toFinset) = rest := by
    refine List.filter_eq_self.mpr fun entry member => ?_
    rw [decide_eq_true_iff, List.mem_toFinset]
    intro applied
    obtain ⟨other, earlier, same⟩ := List.mem_map.mp applied
    have less := below other earlier entry member
    omega
  rw [gone, left]
  rfl

theorem due_all (ordered : Ordered s.entries) (versions : Finset Int) :
    s.due (versions ∪ (versionsOf (s.due versions)).toFinset) = [] :=
  due_behind_front ordered (List.append_nil _).symm

/-- With all that is due, all migrations are there. -/
theorem union_due (s : MigrationSet) (versions : Finset Int) :
    versions ∪ (versionsOf (s.due versions)).toFinset =
      versions ∪ (versionsOf s.entries).toFinset := by
  ext v
  simp only [Finset.mem_union, List.mem_toFinset, versionsOf, List.mem_map, mem_due]
  constructor
  · rintro (there | ⟨entry, ⟨member, -⟩, rfl⟩)
    · exact .inl there
    · exact .inr ⟨entry, member, rfl⟩
  · rintro (there | ⟨entry, member, rfl⟩)
    · exact .inl there
    · by_cases there : entry.1.version ∈ versions
      · exact .inl there
      · exact .inr ⟨entry, ⟨member, there⟩, rfl⟩

/-- Where nothing is pending, nothing is done. -/
theorem applyAll_of_applied {act : MigrationId × Migration → Migrating τ Unit} {applied : List Int}
    {entries : List (MigrationId × Migration)}
    (there : ∀ entry ∈ entries, entry.1.version ∈ applied) :
    applyAll act applied entries = pure [] := by
  induction entries with
  | nil => rfl
  | cons entry rest ih =>
    rw [applyAll, if_pos (List.contains_iff_mem.mpr (there entry List.mem_cons_self))]
    exact ih fun entry member => there entry (List.mem_cons_of_mem _ member)

end MigrationSet

/-! ## Calls for what is pending -/

section

variable {ex : Executor σ} {versions : σ → Finset Int} {r : Runner}

/-- A run that applies a migration, put on record. -/
theorem Runner.journaled_up_cases (sending : r.dryRun = false) (keeps : ex.Keeps r.history versions)
    {entry : MigrationId × Migration} (named : MigrationId.parse entry.2.identifier = .ok entry.1)
    (spares : entry.2.Spares ex versions) (j : Journal σ) :
    ∃ (ran : Ran σ) (run : Run σ),
      (r.journaled ex .up entry j = .ok () ⟨run, j.runs ++ [ran]⟩ ∧
        ran.toAttempt = .applying entry.1.version (.ok ()) ∧
        versions run.session = insert entry.1.version (versions j.run.session)) ∨
      ∃ e, r.journaled ex .up entry j = .error e ⟨run, j.runs ++ [ran]⟩ ∧
        ran.toAttempt = .applying entry.1.version (.error e) ∧
        versions run.session = versions j.run.session := by
  have effect := (run_versions keeps spares named .up j.run).2
  refine ⟨r.ran ex .up entry j.run, (r.run ex .up entry.2).leaves j.run, ?_⟩
  unfold journaled ran Attempt.applying
  unfold Migrating.leaves Migrating.answer at *
  rw [sending] at *
  cases ended : r.run ex .up entry.2 j.run with
  | ok _ run =>
    rw [ended] at effect
    exact .inl ⟨rfl, rfl, effect⟩
  | error e run =>
    rw [ended] at effect
    exact .inr ⟨e, rfl, rfl, effect⟩

/-- **Applying a list of migrations.** Those that are not among the applied ones are attempted. -/
theorem Runner.applies_applyAll (sending : r.dryRun = false) (keeps : ex.Keeps r.history versions)
    {entries : List (MigrationId × Migration)}
    (named : ∀ entry ∈ entries, MigrationId.parse entry.2.identifier = .ok entry.1)
    (spares : ∀ entry ∈ entries, entry.2.Spares ex versions) (applied : List Int)
    (j : Journal σ) :
    ∃ runs : List (Ran σ),
      ((MigrationSet.applyAll (r.journaled ex .up) applied entries).leaves j).runs =
        j.runs ++ runs ∧
      Applies (entries.filter fun entry => entry.1.version ∉ applied) (runs.map Ran.toAttempt)
        ((MigrationSet.applyAll (r.journaled ex .up) applied entries).answer j)
        (versions j.run.session) (versions
          ((MigrationSet.applyAll (r.journaled ex .up) applied entries).leaves j).run.session) := by
  induction entries generalizing j with
  | nil => exact ⟨[], (List.append_nil _).symm, .done⟩
  | cons entry rest ih =>
    have ih := ih (fun entry member => named entry (List.mem_cons_of_mem _ member))
      fun entry member => spares entry (List.mem_cons_of_mem _ member)
    rw [MigrationSet.applyAll]
    by_cases there : entry.1.version ∈ applied
    · rw [if_pos (List.contains_iff_mem.mpr there), List.filter_cons_of_neg (by simpa using there)]
      exact ih j
    · rw [if_neg (by simpa using there), List.filter_cons_of_pos (by simpa using there)]
      obtain ⟨ran, run, ⟨ended, attempted, grown⟩ | ⟨e, ended, attempted, same⟩⟩ :=
        journaled_up_cases sending keeps (named entry List.mem_cons_self)
          (spares entry List.mem_cons_self) j
      · obtain ⟨runs, added, applies⟩ := ih ⟨run, j.runs ++ [ran]⟩
        dsimp only at applies
        rw [grown] at applies
        refine ⟨ran :: runs, ?_, ?_⟩
        · rw [Migrating.leaves_bind_of_ok ended, Migrating.leaves_bind_pure, added]
          exact List.append_assoc ..
        · rw [Migrating.leaves_bind_of_ok ended, Migrating.leaves_bind_pure,
            Migrating.answer_bind_of_ok ended, Migrating.answer_bind_pure, List.map_cons, attempted]
          exact .applied applies
      · refine ⟨[ran], ?_, ?_⟩
        · unfold Migrating.leaves
          rw [Migrating.bind_eq, ended]
        · unfold Migrating.leaves Migrating.answer
          rw [Migrating.bind_eq, ended, List.map_singleton, attempted]
          dsimp only
          rw [same]
          exact .failed

/-- **A call for what is pending.** It fails with its listing, or applies what is due. -/
theorem MigrationSet.journalPending_cases {s : MigrationSet} (ordered : Ordered s.entries)
    (sending : r.dryRun = false) (keeps : ex.Keeps r.history versions)
    (spares : ∀ entry ∈ s.entries, entry.2.Spares ex versions) (j : Journal σ) :
    (∃ e, (r.listing ex).answer j.run = .error (.statement e) ∧
      (s.journalPending r ex).answer j = .error (.statement e) ∧
      ((s.journalPending r ex).leaves j).runs = j.runs ∧
      versions ((s.journalPending r ex).leaves j).run.session = versions j.run.session) ∨
    ∃ runs : List (Ran σ), ((s.journalPending r ex).leaves j).runs = j.runs ++ runs ∧
      Applies (s.due (versions j.run.session)) (runs.map Ran.toAttempt)
        ((s.journalPending r ex).answer j) (versions j.run.session)
        (versions ((s.journalPending r ex).leaves j).run.session) := by
  rcases r.listing_cases keeps j.run with
    ⟨applied, run, listed, members, same⟩ | ⟨e, run, failed, same⟩
  · have step : Journal.onRun (r.listing ex) j = .ok applied { j with run } := by
      unfold Journal.onRun
      rw [listed]
    unfold journalPending applyPending
    rw [Migrating.leaves_bind_of_ok step, Migrating.answer_bind_of_ok step]
    obtain ⟨runs, added, applies⟩ := Runner.applies_applyAll sending keeps ordered.named spares
      (appliedVersions applied) { j with run }
    dsimp only at applies
    simp only [members, same] at applies
    exact .inr ⟨runs, added, applies⟩
  · have step : Journal.onRun (r.listing ex) j = .error (.statement e) { j with run } := by
      unfold Journal.onRun
      rw [failed]
    unfold journalPending applyPending Migrating.answer Migrating.leaves
    rw [Migrating.bind_eq, step, failed]
    exact .inl ⟨e, rfl, rfl, rfl, same⟩

/-! ## The main result -/

namespace MigrationSet

variable {s : MigrationSet}

/-- A call for the pending migrations attempts the version first, unless its listing fails. -/
def BeginsWith (s : MigrationSet) (r : Runner) (ex : Executor σ) (version : Int) (run : Run σ) :
    Prop :=
  (∃ e, (r.listing ex).answer run = .error (.statement e) ∧
    ((s.journalPending r ex).leaves { run }).runs = []) ∨
  ∃ answer, (((s.journalPending r ex).leaves { run }).runs.map Ran.toAttempt).head? =
    some (.applying version answer)

/-- A call for the pending migrations lists the history, and does nothing more. -/
def FindsNothing (s : MigrationSet) (r : Runner) (ex : Executor σ) (run : Run σ) : Prop :=
  (s.migratePending r ex).leaves run = (r.listing ex).leaves run ∧
  ((s.migratePending r ex).answer run = .ok [] ∨
    ∃ e, (r.listing ex).answer run = .error (.statement e) ∧
      (s.migratePending r ex).answer run = .error (.statement e))

/-- What a call for the pending migrations comes to, and what a further call finds behind it. -/
inductive Resumes (s : MigrationSet) (r : Runner) (ex : Executor σ) (versions : σ → Finset Int)
    (start : Run σ) (behind : Journal σ) : Except MigrationError (List Int) → Prop
  /-- The history cannot be listed, and nothing is attempted. -/
  | unlisted {e : Error} : (r.listing ex).answer start = .error (.statement e) →
      behind.runs = [] → versions behind.run.session = versions start.session →
      Resumes s r ex versions start behind (.error (.statement e))
  /-- A migration fails. Those in front of it are applied, and those behind it are not attempted. -/
  | stopped {front rest : List (MigrationId × Migration)} {entry : MigrationId × Migration}
      {e : MigrationError} : s.due (versions start.session) = front ++ entry :: rest →
      behind.runs.map Ran.toAttempt = (versionsOf front).map (.applying · (.ok ())) ++
        [.applying entry.1.version (.error e)] →
      versions behind.run.session = versions start.session ∪ (versionsOf front).toFinset →
      (∀ r' : Runner, r'.history = r.history → r'.dryRun = false →
        s.BeginsWith r' ex entry.1.version behind.run) →
      Resumes s r ex versions start behind (.error e)
  /-- All are applied. -/
  | completed : behind.runs.map Ran.toAttempt =
        (versionsOf (s.due (versions start.session))).map (.applying · (.ok ())) →
      versions behind.run.session = versions start.session ∪ (versionsOf s.entries).toFinset →
      (∀ r' : Runner, r'.history = r.history → s.FindsNothing r' ex behind.run) →
      Resumes s r ex versions start behind (.ok (versionsOf (s.due (versions start.session))))

theorem beginsWith_of_due (ordered : Ordered s.entries) (sending : r.dryRun = false)
    (keeps : ex.Keeps r.history versions) (spares : ∀ entry ∈ s.entries, entry.2.Spares ex versions)
    {run : Run σ} {entry : MigrationId × Migration} {rest : List (MigrationId × Migration)}
    (first : s.due (versions run.session) = entry :: rest) :
    s.BeginsWith r ex entry.1.version run := by
  rcases journalPending_cases ordered sending keeps spares { run } with
    ⟨e, failed, -, same, -⟩ | ⟨runs, made, applies⟩
  · exact .inl ⟨e, failed, same⟩
  · refine .inr ?_
    rw [first] at applies
    rw [made]
    exact applies.first

theorem findsNothing_of_due (keeps : ex.Keeps r.history versions) {run : Run σ}
    (none : s.due (versions run.session) = []) : s.FindsNothing r ex run := by
  have there : ∀ entry ∈ s.entries, entry.1.version ∈ versions run.session := by
    intro entry member
    by_contra absent
    have due := mem_due.mpr ⟨member, absent⟩
    rw [none] at due
    cases due
  unfold FindsNothing
  rw [s.migratePending_eq]
  unfold applyPending
  rcases r.listing_cases keeps run with ⟨applied, mid, listed, members, -⟩ | ⟨e, mid, failed, -⟩
  · rw [Migrating.leaves_bind_of_ok listed, Migrating.answer_bind_of_ok listed,
      applyAll_of_applied fun entry member => (members _).mpr (there entry member)]
    unfold Migrating.leaves
    rw [listed]
    exact ⟨rfl, .inl rfl⟩
  · unfold Migrating.leaves Migrating.answer
    rw [Migrating.bind_eq, failed]
    exact ⟨rfl, .inr ⟨e, rfl, rfl⟩⟩

theorem resumes (ordered : Ordered s.entries) (sending : r.dryRun = false)
    (keeps : ex.Keeps r.history versions) (spares : ∀ entry ∈ s.entries, entry.2.Spares ex versions)
    (start : Run σ) :
    s.Resumes r ex versions start ((s.journalPending r ex).leaves { run := start })
      ((s.journalPending r ex).answer { run := start }) := by
  rcases journalPending_cases ordered sending keeps spares { run := start } with
    ⟨e, failed, answer, same, kept⟩ | ⟨runs, made, applies⟩
  · rw [answer]
    exact .unlisted failed same kept
  · have attempts : ((s.journalPending r ex).leaves { run := start }).runs.map Ran.toAttempt =
        runs.map Ran.toAttempt := congrArg (List.map Ran.toAttempt) made
    rcases applies.all_or_front with
      ⟨answer, all, later⟩ | ⟨front, entry, rest, e, split, answer, some, later⟩
    · rw [answer]
      refine .completed (attempts.trans all) (later.trans (s.union_due _)) fun r' same => ?_
      rw [← same] at keeps
      refine findsNothing_of_due keeps ?_
      rw [later]
      exact due_all ordered _
    · rw [answer]
      refine .stopped split (attempts.trans some) later fun r' same sending' => ?_
      rw [← same] at keeps
      have left : s.due (versions ((s.journalPending r ex).leaves { run := start }).run.session) =
          entry :: rest := by
        rw [later]
        exact due_behind_front ordered split
      exact beginsWith_of_due ordered sending' keeps spares left

end MigrationSet

end

/-- **Pending migrations resume.** On an executor that keeps the history, whatever is in it and
whichever statements fail, a call for the pending migrations of a set attempts those that are
registered and not in the history, in ascending order, up to the first that fails; what it answers,
what it has written down by then and where a further call begins is as `Resumes` says. -/
theorem pending_migrations_resume {ex : Executor σ} {versions : σ → Finset Int} {r : Runner}
    (keeps : ex.Keeps r.history versions) (sending : r.dryRun = false) {s : MigrationSet}
    (registered : s.Registered) (spares : ∀ entry ∈ s.entries, entry.2.Spares ex versions)
    (start : Run σ) :
    (∀ entry, entry ∈ s.due (versions start.session) ↔
      entry ∈ s.entries ∧ entry.1.version ∉ versions start.session) ∧
    (s.due (versions start.session)).Pairwise (fun a b => a.1.version < b.1.version) ∧
    ((s.journalPending r ex).leaves { run := start }).run = (s.migratePending r ex).leaves start ∧
    s.Resumes r ex versions start ((s.journalPending r ex).leaves { run := start })
      ((s.migratePending r ex).answer start) := by
  have ordered := registered.ordered
  have mirrored := s.mirrors_journalPending r ex
  refine ⟨fun _ => MigrationSet.mem_due, MigrationSet.pairwise_due ordered _,
    (mirrored.leaves_eq { run := start }).symm, ?_⟩
  rw [show (s.migratePending r ex).answer start = (s.journalPending r ex).answer { run := start }
    from mirrored.answer_eq { run := start }]
  exact MigrationSet.resumes ordered sending keeps spares start

/-- What a call for the pending migrations of the weblog answers, and what it leaves behind, on a
database that refuses the sixth statement that it is sent. -/
def MigrationSet.callWeblog (start : Run Ledger) : Except MigrationError (List Int) × Run Ledger :=
  let call := weblog.migratePending .atNewYear (Executor.keeping {} .mysql (· == 5))
  (call.answer start, call.leaves start)

/-- The statement that is refused creates the second table of the weblog. The call ends there, with
the first version in the history; the next call begins with the second version, and a third one
finds nothing to do. -/
theorem pending_migrations_resume_weblog :
    let ex := Executor.keeping {} .mysql (· == 5)
    let s := MigrationSet.weblog
    let refusal : MigrationError := .statement (.database none "refused"
      "CREATE TABLE IF NOT EXISTS `posts` (\n    `id` INT(11) NOT NULL AUTO_INCREMENT,\n    PRIMARY KEY (`id`)\n)")
    (ex.Keeps Runner.atNewYear.history Ledger.set ∧ Runner.atNewYear.dryRun = false ∧
      s.Registered ∧ ∀ entry ∈ s.entries, entry.2.Spares ex Ledger.set) ∧
    (∀ start, s.Resumes .atNewYear ex Ledger.set start
      ((s.journalPending .atNewYear ex).leaves { run := start }) (MigrationSet.callWeblog start).1) ∧
    versionsOf (s.due (Ledger.set {})) = [1, 2] ∧
    MigrationSet.callWeblog { session := {} } = (.error refusal,
      { session := ⟨[1], 6⟩
        report := ["== 1 CreateUsers: migrating =====================================",
          "-- create table: users", "   -> 0.0000 sec",
          "== 1 CreateUsers: migrated (0.0000 sec) =========================",
          "== 2 CreatePosts: migrating ====================================="]
        phase := .apply
        direction := .up }) ∧
    MigrationSet.callWeblog { session := ⟨[1], 6⟩ } = (.ok [2],
      { session := ⟨[1, 2], 10⟩
        report := ["== 2 CreatePosts: migrating =====================================",
          "-- create table: posts", "   -> 0.0000 sec",
          "== 2 CreatePosts: migrated (0.0000 sec) ========================="]
        phase := .finish
        direction := .up }) ∧
    MigrationSet.callWeblog { session := ⟨[1, 2], 10⟩ } =
      (.ok [], { session := ⟨[1, 2], 11⟩ }) := by
  intro ex s refusal
  have keeps : ex.Keeps Runner.atNewYear.history Ledger.set := Executor.keeps_keeping {} .mysql (· == 5)
  have spares : ∀ entry ∈ s.entries, entry.2.Spares ex Ledger.set :=
    fun _ _ _ sql _ => Executor.spares_keeping {} .mysql (· == 5) sql
  refine ⟨⟨keeps, rfl, MigrationSet.registered_weblog, spares⟩, fun start => ?_, by decide, ?_⟩
  · exact (pending_migrations_resume keeps rfl MigrationSet.registered_weblog spares start).2.2.2
  · simp only [MigrationSet.callWeblog, MigrationSet.migratePending, MigrationSet.weblog,
      MigrationSet.migrateAll, Runner.migrate, Runner.run, Migration.ofTable,
      MigrationId.parse_createUsers, MigrationId.parse_createPosts, Runner.checkDue, Runner.record,
      History.isApplied_eq, History.recordApplied_eq, History.applied_eq]
    exact ⟨rfl, rfl, rfl⟩

end SqlAccess
