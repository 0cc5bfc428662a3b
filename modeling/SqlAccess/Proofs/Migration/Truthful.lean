import Mathlib.Data.List.Chain
import SqlAccess.Proofs.Migration.Journal

/-!
# What the history tells

A run *counts* if it succeeds and is no dry run. The history tells which run of a version counted
last, whatever calls are made in whatever order and whichever statements fail on the way
(`history_stays_truthful`). A migration and its revert take turns, so the runs of a version that
count go up and down by turns as well, and nothing but the highest version is ever reverted by a call
for the last one.

What carries the induction over the calls is that a journal is `Truthful`. The one step of it is that
of a run on record (`Agrees.append`), which needs no more than what a run does to the versions: that
it is refused where it is not due, and writes the history last.
-/

namespace SqlAccess

variable {σ τ : Type} {ex : Executor σ} {versions : σ → Finset Int}

/-! ## The course of a version -/

theorem RunDirection.mem_recorded_self (direction : RunDirection) (version : Int)
    (before : Finset Int) : version ∈ direction.recorded version before ↔ direction = .up := by
  cases direction with
  | up => exact iff_of_true (Finset.mem_insert_self _ _) rfl
  | down => exact iff_of_false (Finset.notMem_erase _ _) RunDirection.noConfusion

theorem RunDirection.mem_recorded_of_ne (direction : RunDirection) {version v : Int}
    (other : v ≠ version) (before : Finset Int) :
    v ∈ direction.recorded version before ↔ v ∈ before := by
  cases direction with
  | up => exact Finset.mem_insert.trans (or_iff_right other)
  | down => exact Finset.mem_erase.trans (and_iff_right other)

/-- The directions of the runs of a version that count, in order. -/
def course (version : Int) (runs : List (Ran σ)) : List RunDirection :=
  (runs.filter fun ran => ran.counts && ran.version == version).map fun ran => ran.direction

theorem course_append (v : Int) (runs : List (Ran σ)) (ran : Ran σ) :
    course v (runs ++ [ran]) =
      course v runs ++ if ran.counts && ran.version == v then [ran.direction] else [] := by
  unfold course
  rw [List.filter_append, List.map_append, List.filter_singleton]
  split <;> simp [*]

/-- The versions tell what became of the runs: a version is there if the last of its runs that count
went up, or if there is none and it was there to begin with. -/
structure Agrees (initial : Finset Int) (runs : List (Ran σ)) (now : Finset Int) : Prop where
  member_iff : ∀ v, v ∈ now ↔
    (course v runs).getLast? = some .up ∨ (course v runs = [] ∧ v ∈ initial)
  /-- Runs that count change their direction every time. -/
  alternating : ∀ v, (course v runs).IsChain (· ≠ ·)

/-- Does the run do to the versions what a run should do? -/
structure Ran.Lawful (versions : σ → Finset Int) (ran : Ran σ) : Prop where
  due : ran.counts = true → (ran.version ∈ versions ran.before ↔ ran.direction = .down)
  after_eq : versions ran.after =
    if ran.counts then ran.direction.recorded ran.version (versions ran.before)
    else versions ran.before

/-- A run that is due turns around: the last one that counts went the other way. -/
theorem Agrees.ne_of_due {initial now : Finset Int} {runs : List (Ran σ)}
    (h : Agrees initial runs now) {v : Int} {last direction : RunDirection}
    (ends : (course v runs).getLast? = some last) (due : v ∈ now ↔ direction = .down) :
    last ≠ direction := by
  -- Behind a run upwards the version is there, and behind one downwards it is not.
  have there : v ∈ now ↔ last = .up := by
    rw [h.member_iff, ends, Option.some_inj]
    refine or_iff_left fun none => ?_
    rw [none.1] at ends
    cases ends
  have turned := there.symm.trans due
  rintro rfl
  cases last <;> simp at turned

/-- **One more run.** It is refused where its direction is that of the last one that counts. -/
theorem Agrees.append {initial : Finset Int} {runs : List (Ran σ)} {ran : Ran σ}
    (h : Agrees initial runs (versions ran.before)) (lawful : ran.Lawful versions) :
    Agrees initial (runs ++ [ran]) (versions ran.after) := by
  have idle : ∀ v, (ran.counts && ran.version == v) = false →
      course v (runs ++ [ran]) = course v runs := by
    intro v passes
    rw [course_append, passes]
    exact List.append_nil _
  have turn : ∀ v, (ran.counts && ran.version == v) = true →
      course v (runs ++ [ran]) = course v runs ++ [ran.direction] := by
    intro v taken
    rw [course_append, taken]
    rfl
  constructor
  · intro v
    rw [lawful.after_eq]
    cases takes : ran.counts && ran.version == v with
    | false =>
      have same : v ∈ (if ran.counts then ran.direction.recorded ran.version (versions ran.before)
          else versions ran.before) ↔ v ∈ versions ran.before := by
        split
        · next counts =>
          rw [counts, Bool.true_and, beq_eq_false_iff_ne] at takes
          exact ran.direction.mem_recorded_of_ne takes.symm _
        · exact Iff.rfl
      rw [same, idle v takes]
      exact h.member_iff v
    | true =>
      obtain ⟨counts, rfl⟩ : ran.counts = true ∧ ran.version = v := by
        rwa [Bool.and_eq_true, beq_iff_eq] at takes
      rw [if_pos counts, turn _ takes, RunDirection.mem_recorded_self]
      simp
  · intro v
    cases takes : ran.counts && ran.version == v with
    | false =>
      rw [idle v takes]
      exact h.alternating v
    | true =>
      obtain ⟨counts, rfl⟩ : ran.counts = true ∧ ran.version = v := by
        rwa [Bool.and_eq_true, beq_iff_eq] at takes
      rw [turn _ takes]
      refine List.isChain_append.mpr ⟨h.alternating _, .singleton _, ?_⟩
      rintro last ends _ ⟨⟩
      exact h.ne_of_due ends (lawful.due counts)

/-- The versions have told what became of the runs all along. -/
structure Journal.Truthful (versions : σ → Finset Int) (initial : Finset Int) (j : Journal σ) :
    Prop where
  agrees : Agrees initial j.runs (versions j.run.session)
  throughout : ∀ early ran late, j.runs = early ++ ran :: late →
    Agrees initial early (versions ran.before) ∧
      Agrees initial (early ++ [ran]) (versions ran.after)
  /-- A run that does not count leaves the versions alone. -/
  idle : ∀ ran ∈ j.runs, ran.counts = false → versions ran.after = versions ran.before

namespace Journal.Truthful

variable {initial : Finset Int} {j : Journal σ}

/-- Before any run, the versions tell what they tell. -/
theorem start (run : Run σ) :
    Truthful versions (versions run.session) ({ run } : Journal σ) where
  agrees := ⟨fun v => by simp [course], fun _ => .nil⟩
  throughout := by
    intro early ran late split
    cases early <;> cases split
  idle _ member := nomatch member

/-- A step that is no run and leaves the versions alone. -/
theorem of_eq (h : j.Truthful versions initial) {run : Run σ}
    (same : versions run.session = versions j.run.session) :
    Truthful versions initial { j with run } where
  agrees := by
    rw [same]
    exact h.agrees
  throughout := h.throughout
  idle := h.idle

/-- A step that is a run. -/
theorem append (h : j.Truthful versions initial) {ran : Ran σ} (lawful : ran.Lawful versions)
    {run : Run σ} (before : ran.before = j.run.session) (after : ran.after = run.session) :
    Truthful versions initial ⟨run, j.runs ++ [ran]⟩ := by
  have earlier : Agrees initial j.runs (versions ran.before) := by
    rw [before]
    exact h.agrees
  have later := earlier.append lawful
  constructor
  · rw [← after]
    exact later
  · intro early ran' late split
    rcases late.eq_nil_or_concat' with rfl | ⟨late, last, rfl⟩
    · obtain ⟨rfl, same⟩ := List.append_inj' split rfl
      obtain rfl := List.head_eq_of_cons_eq same
      exact ⟨earlier, later⟩
    · change j.runs ++ [ran] = _ at split
      rw [← List.cons_append, ← List.append_assoc] at split
      exact h.throughout early ran' late (List.append_inj_left' split rfl)
  · intro ran' member skipped
    rcases List.mem_append.mp member with member | member
    · exact h.idle ran' member skipped
    · obtain rfl := List.mem_singleton.mp member
      rw [lawful.after_eq, skipped]
      rfl

end Journal.Truthful

/-! ## Calls keep it -/

namespace MigrationSet

variable {p : τ → Prop} {act : MigrationId × Migration → Migrating τ Unit} {s : MigrationSet}
  {listing : Migrating τ (List AppliedMigration)}

theorem preserves_applyAll {entries : List (MigrationId × Migration)}
    (acts : ∀ entry ∈ entries, (act entry).Preserves p) (applied : List Int) :
    (applyAll act applied entries).Preserves p := by
  induction entries with
  | nil => exact .pure []
  | cons entry rest ih =>
    have others := ih fun entry member => acts entry (List.mem_cons_of_mem _ member)
    rw [applyAll]
    split
    · exact others
    · exact (acts entry List.mem_cons_self).bind fun _ => others.bind fun _ => .pure _

theorem preserves_revertHighest (listed : listing.Preserves p)
    (acts : ∀ entry ∈ s.entries, (act entry).Preserves p) :
    (s.revertHighest listing act).Preserves p := by
  refine listed.bind fun applied => ?_
  split
  · exact .pure none
  · split
    · exact .throw _
    · next found => exact (acts _ (List.mem_of_find?_eq_some found)).bind fun _ => .pure _

end MigrationSet

section

variable {r : Runner} {initial : Finset Int}

theorem Runner.preserves_listing_truthful (keeps : ex.Keeps r.history versions) :
    (Journal.onRun (r.listing ex)).Preserves (Journal.Truthful versions initial) := by
  intro j h
  unfold Migrating.leaves Journal.onRun
  rcases r.listing_cases keeps j.run with ⟨_, run, listed, -, same⟩ | ⟨_, run, failed, same⟩
  · rw [listed]
    exact h.of_eq same
  · rw [failed]
    exact h.of_eq same

theorem Runner.preserves_journaled_truthful (keeps : ex.Keeps r.history versions)
    (direction : RunDirection) {entry : MigrationId × Migration}
    (named : MigrationId.parse entry.2.identifier = .ok entry.1)
    (spares : entry.2.Spares ex versions) :
    (r.journaled ex direction entry).Preserves (Journal.Truthful versions initial) := by
  intro j h
  obtain ⟨due, after_eq⟩ := run_versions keeps spares named direction j.run
  have lawful : (r.ran ex direction entry j.run).Lawful versions := ⟨due, after_eq⟩
  rw [leaves_journaled]
  exact h.append lawful rfl rfl

theorem Call.preserves_onJournal {s : MigrationSet} (ordered : MigrationSet.Ordered s.entries)
    (keeps : ex.Keeps r.history versions) (spares : ∀ entry ∈ s.entries, entry.2.Spares ex versions)
    {call : Call} (concerned : call.Concerns s) :
    (call.onJournal s r ex).Preserves (Journal.Truthful versions initial) := by
  have ran : ∀ direction, ∀ entry ∈ s.entries,
      (r.journaled ex direction entry).Preserves (Journal.Truthful versions initial) :=
    fun direction entry member => Runner.preserves_journaled_truthful keeps direction
      (ordered.named entry member) (spares entry member)
  have listed : (Journal.onRun (r.listing ex)).Preserves (Journal.Truthful versions initial) :=
    Runner.preserves_listing_truthful keeps
  cases call with
  | migrate entry => exact ran .up entry concerned
  | revert entry => exact ran .down entry concerned
  | migratePending =>
    exact (listed.bind fun _ => MigrationSet.preserves_applyAll (ran .up) _).bind fun _ => .pure ()
  | revertLast =>
    exact (MigrationSet.preserves_revertHighest listed (ran .down)).bind fun _ => .pure ()

end

/-- **Calls keep a journal truthful.** -/
theorem Call.truthful_journalAfterAll {h : History} (keeps : ex.Keeps h versions) {s : MigrationSet}
    (ordered : MigrationSet.Ordered s.entries)
    (spares : ∀ entry ∈ s.entries, entry.2.Spares ex versions) {initial : Finset Int}
    {calls : List (Runner × Call)}
    (concerned : ∀ call ∈ calls, call.1.history = h ∧ call.2.Concerns s) {j : Journal σ}
    (truthful : j.Truthful versions initial) :
    (journalAfterAll s ex calls j).Truthful versions initial := by
  induction calls generalizing j with
  | nil => exact truthful
  | cons call rest ih =>
    obtain ⟨rfl, concerns⟩ := concerned call List.mem_cons_self
    exact ih (fun call member => concerned call (List.mem_cons_of_mem _ member))
      (preserves_onJournal ordered keeps spares concerns j truthful)

/-! ## Reverting the last migration -/

namespace MigrationSet

variable {r : Runner} {s : MigrationSet}

/-- What becomes of a call for the last migration. It fails with its listing, or has nothing to
revert, or finds the highest version; and that one it does not know, or runs. -/
theorem revertLast_cases (keeps : ex.Keeps r.history versions) (run : Run σ) :
    (∃ e, (r.listing ex).answer run = .error (.statement e) ∧
      (s.revertLast r ex).answer run = .error (.statement e) ∧
      (s.revertLast r ex).leaves run = (r.listing ex).leaves run) ∨
    (versions run.session = ∅ ∧ (s.revertLast r ex).answer run = .ok none ∧
      (s.revertLast r ex).leaves run = (r.listing ex).leaves run) ∨
    ∃ version, IsGreatest {v | v ∈ versions run.session} version ∧
      (((∀ entry ∈ s.entries, entry.1.version ≠ version) ∧
        (s.revertLast r ex).answer run = .error (.invalidHistory (.notRegistered version)) ∧
        (s.revertLast r ex).leaves run = (r.listing ex).leaves run) ∨
      ∃ entry ∈ s.entries, ∃ mid : Run σ, entry.1.version = version ∧
        versions mid.session = versions run.session ∧
        (s.revertLast r ex).answer run =
          ((r.run ex .down entry.2).answer mid).map (fun _ => some version) ∧
        (s.revertLast r ex).leaves run = (r.run ex .down entry.2).leaves mid) := by
  rw [s.revertLast_eq]
  unfold revertHighest
  rcases r.listing_cases keeps run with ⟨applied, mid, listed, members, same⟩ | ⟨e, mid, failed, -⟩
  · have behind : (r.listing ex).leaves run = mid := by
      unfold Migrating.leaves
      rw [listed]
    rw [behind, Migrating.answer_bind_of_ok listed, Migrating.leaves_bind_of_ok listed]
    cases last : (appliedVersions applied).getLast? with
    | none =>
      refine .inr (.inl ⟨?_, rfl, rfl⟩)
      rw [List.getLast?_eq_none_iff] at last
      refine Finset.eq_empty_of_forall_notMem fun v member => ?_
      rw [← members, last] at member
      cases member
    | some version =>
      have greatest := isGreatest_of_getLast? (pairwise_appliedVersions applied) last
      simp only [members] at greatest
      refine .inr (.inr ⟨version, greatest, ?_⟩)
      dsimp only
      cases found : s.entries.find? (·.1.version == version) with
      | none =>
        refine .inl ⟨fun entry member same => ?_, rfl, rfl⟩
        exact List.find?_eq_none.mp found entry member (beq_iff_eq.mpr same)
      | some entry =>
        have named : (entry.1.version == version) = true :=
          List.find?_some (p := fun entry : MigrationId × Migration => entry.1.version == version)
            found
        exact .inr ⟨entry, List.mem_of_find?_eq_some found, mid, beq_iff_eq.mp named, same,
          Migrating.answer_bind_pure .., Migrating.leaves_bind_pure ..⟩
  · unfold Migrating.answer Migrating.leaves
    rw [Migrating.bind_eq, failed]
    exact .inl ⟨e, rfl, rfl, rfl⟩

/-- Does a call for the last migration revert the highest version, and no other? -/
structure RevertsHighest (s : MigrationSet) (r : Runner) (ex : Executor σ)
    (versions : σ → Finset Int) (run : Run σ) : Prop where
  reverted : ∀ version, (s.revertLast r ex).answer run = .ok (some version) → r.dryRun = false →
    IsGreatest {v | v ∈ versions run.session} version ∧
      versions ((s.revertLast r ex).leaves run).session = (versions run.session).erase version
  /-- It succeeds without a version only where there is none. -/
  nothing : (s.revertLast r ex).answer run = .ok none →
    versions run.session = ∅ ∧ versions ((s.revertLast r ex).leaves run).session = ∅
  /-- Where the highest version belongs to no migration, the history is listed, and that is all. -/
  unregistered : ∀ version, IsGreatest {v | v ∈ versions run.session} version →
    (∀ entry ∈ s.entries, entry.1.version ≠ version) →
      (s.revertLast r ex).leaves run = (r.listing ex).leaves run ∧
      ((s.revertLast r ex).answer run = .error (.invalidHistory (.notRegistered version)) ∨
        ∃ e, (r.listing ex).answer run = .error (.statement e) ∧
          (s.revertLast r ex).answer run = .error (.statement e))

theorem revertsHighest (keeps : ex.Keeps r.history versions) (ordered : Ordered s.entries)
    (spares : ∀ entry ∈ s.entries, entry.2.Spares ex versions) (run : Run σ) :
    s.RevertsHighest r ex versions run := by
  rcases s.revertLast_cases keeps run with ⟨e, failed, answer, leaves⟩ | ⟨empty, answer, leaves⟩ |
    ⟨highest, greatest, ⟨unknown, answer, leaves⟩ | ⟨entry, member, mid, rfl, same, answer, leaves⟩⟩
  · constructor
    · intro version reverted
      cases answer.symm.trans reverted
    · intro nothing
      cases answer.symm.trans nothing
    · intro version _ _
      exact ⟨leaves, .inr ⟨e, failed, answer⟩⟩
  · constructor
    · intro version reverted
      cases answer.symm.trans reverted
    · intro _
      refine ⟨empty, ?_⟩
      rw [leaves, ← empty]
      rcases r.listing_cases keeps run with ⟨_, _, listed, -, same⟩ | ⟨_, _, failed, same⟩
      · rwa [Migrating.leaves, listed]
      · rwa [Migrating.leaves, failed]
    · intro version greatest _
      have member : version ∈ versions run.session := greatest.1
      rw [empty] at member
      cases member
  · constructor
    · intro version reverted
      cases answer.symm.trans reverted
    · intro nothing
      cases answer.symm.trans nothing
    · intro version greatest' _
      obtain rfl := greatest.unique greatest'
      exact ⟨leaves, .inl answer⟩
  · have effect := (Runner.run_versions keeps (spares entry member) (ordered.named entry member)
      .down mid).2
    constructor
    · intro version reverted sending
      rw [answer] at reverted
      cases ran : (r.run ex .down entry.2).answer mid with
      | error e =>
        rw [ran] at reverted
        cases reverted
      | ok _ =>
        rw [ran] at reverted
        cases reverted
        rw [leaves, effect, ran, sending, same]
        exact ⟨greatest, rfl⟩
    · intro nothing
      rw [answer] at nothing
      cases ran : (r.run ex .down entry.2).answer mid <;>
        (rw [ran] at nothing; cases nothing)
    · intro version greatest' unknown
      exact absurd (greatest.unique greatest') (unknown entry member)

end MigrationSet

/-! ## The main result -/

/-- **The history stays truthful.** On an executor that keeps the history, any calls on migrations of
a set, by runners that may be dry or not, and with whatever statements fail: the versions have told
all along which run of each version counted last, runs that did not count have left them alone, and
the runs that counted went up and down by turns. Behind them a call for the last migration takes away
the highest version and no other, and refuses one that belongs to no migration without a run. -/
theorem history_stays_truthful {h : History} (keeps : ex.Keeps h versions) {s : MigrationSet}
    (registered : s.Registered) (spares : ∀ entry ∈ s.entries, entry.2.Spares ex versions)
    (calls : List (Runner × Call))
    (concerned : ∀ call ∈ calls, call.1.history = h ∧ call.2.Concerns s) (start : Run σ) :
    (Call.journalAfterAll s ex calls { run := start }).run = Call.afterAll s ex calls start ∧
    (Call.journalAfterAll s ex calls { run := start }).Truthful versions (versions start.session) ∧
    ∀ r : Runner, r.history = h →
      s.RevertsHighest r ex versions (Call.afterAll s ex calls start) := by
  have ordered := registered.ordered
  refine ⟨Call.run_journalAfterAll s ex calls { run := start }, ?_, ?_⟩
  · exact Call.truthful_journalAfterAll keeps ordered spares concerned (.start start)
  · rintro r rfl
    exact s.revertsHighest keeps ordered spares _

/-- A weblog whose database refuses the fifth statement that it is sent. -/
theorem history_stays_truthful_weblog :
    let ex := Executor.keeping {} .mysql (· == 4)
    let s := MigrationSet.weblog
    let r : Runner := { now := "2024-01-01 00:00:00" }
    let calls : List (Runner × Call) := [(r, .migratePending), (r, .migratePending),
      ({ r with dryRun := true }, .revertLast), (r, .revertLast)]
    let start : Run Ledger := { session := {} }
    (ex.Keeps {} Ledger.set ∧ s.Registered ∧ (∀ entry ∈ s.entries, entry.2.Spares ex Ledger.set) ∧
      ∀ call ∈ calls, call.1.history = {} ∧ call.2.Concerns s) ∧
    (Call.journalAfterAll s ex calls { run := start }).run = Call.afterAll s ex calls start ∧
    (Call.journalAfterAll s ex calls { run := start }).Truthful Ledger.set (Ledger.set start.session) ∧
    ∀ r : Runner, r.history = {} →
      s.RevertsHighest r ex Ledger.set (Call.afterAll s ex calls start) := by
  intro ex s r calls start
  have keeps : ex.Keeps {} Ledger.set := Executor.keeps_keeping {} .mysql (· == 4)
  have registered : s.Registered := MigrationSet.registered_weblog
  have spares : ∀ entry ∈ s.entries, entry.2.Spares ex Ledger.set :=
    fun _ _ _ sql _ => Executor.spares_keeping {} .mysql (· == 4) sql
  have concerned : ∀ call ∈ calls, call.1.history = {} ∧ call.2.Concerns s := by
    intro call member
    simp only [calls, List.mem_cons, List.not_mem_nil, or_false] at member
    rcases member with rfl | rfl | rfl | rfl <;> exact ⟨rfl, trivial⟩
  exact ⟨⟨keeps, registered, spares, concerned⟩,
    history_stays_truthful keeps registered spares calls concerned start⟩

end SqlAccess
