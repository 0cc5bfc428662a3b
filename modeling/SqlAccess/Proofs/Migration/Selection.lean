import Mathlib.Data.List.Induction
import Mathlib.Order.Defs.LinearOrder
import SqlAccess.Proofs.Mention
import SqlAccess.Proofs.Migration.Identifier
import SqlAccess.Proofs.Migration.Set

/-!
# Selecting from a set of migrations

A set is made by registering migrations one after the other, in any order, and a migration that is
refused leaves it as it was. Of the identifiers that can be read, the set has the first one of every
version (`MigrationSet.accepted`), in ascending order of the versions and not in the order of
registration (`MigrationSet.perm_accepted`).

What is selected from it, the migrations that are pending and those between two versions, is said by
what is in it and by its order: with every version in the set once, the two fix the selection
(`sets_select_by_version`).
-/

namespace SqlAccess

namespace MigrationSet

variable {s : MigrationSet} {m : Migration}

/-! ## Registering many -/

/-- The set behind an attempt to register a migration: as it was, if the migration is refused. -/
def attempt (s : MigrationSet) (m : Migration) : MigrationSet :=
  match s.register m with
  | .ok s' => s'
  | .error _ => s

/-- The set of those of the migrations that are not refused. -/
def ofAttempts (ms : List Migration) : MigrationSet :=
  ms.foldl attempt {}

/-- The identifiers that are accepted, in the order of registration: of those that can be read, the
first one of every version. -/
def accepted (ms : List Migration) : List MigrationId :=
  (ms.filterMap fun m => MigrationId.parse? m.identifier.toList).eraseDupsBy
    fun a b => a.version == b.version

theorem ofAttempts_concat (ms : List Migration) (m : Migration) :
    ofAttempts (ms ++ [m]) = (ofAttempts ms).attempt m := by
  rw [ofAttempts, List.foldl_append]
  rfl

theorem attempt_of_error {e : MigrationError} (refused : s.register m = .error e) :
    s.attempt m = s := by
  rw [attempt, refused]

theorem attempt_of_ok {s' : MigrationSet} (registered : s.register m = .ok s') :
    s.attempt m = s' := by
  rw [attempt, registered]

/-- A set that attempts have made is one that registering has made. -/
theorem registered_ofAttempts (ms : List Migration) : (ofAttempts ms).Registered := by
  induction ms using List.reverseRecOn with
  | nil => exact .empty
  | append_singleton ms m ih =>
    rw [ofAttempts_concat]
    cases tried : (ofAttempts ms).register m with
    | error e =>
      rw [attempt_of_error tried]
      exact ih
    | ok s' =>
      rw [attempt_of_ok tried]
      exact ih.register tried

theorem register_of_invalid (invalid : MigrationId.parse? m.identifier.toList = none) :
    s.register m = .error (.invalidIdentifier m.identifier) := by
  apply register_of_unreadable
  rw [MigrationId.parse_eq, invalid]

theorem register_of_valid {id : MigrationId}
    (named : MigrationId.parse? m.identifier.toList = some id) :
    s.register m = if id.version ∈ s.ids.map (·.version) then .error (.duplicateVersion id.version)
      else .ok ⟨place (id, m) s.entries⟩ := by
  apply register_of_readable
  rw [MigrationId.parse_eq, named]

theorem perm_ids_place (id : MigrationId) (m : Migration) (s : MigrationSet) :
    (ids ⟨place (id, m) s.entries⟩).Perm (id :: s.ids) :=
  (perm_place (id, m) s.entries).map Prod.fst

theorem accepted_concat_of_invalid (ms : List Migration)
    (invalid : MigrationId.parse? m.identifier.toList = none) :
    accepted (ms ++ [m]) = accepted ms := by
  have nothing : [m].filterMap (fun m => MigrationId.parse? m.identifier.toList) = [] := by
    rw [List.filterMap_cons, invalid]
    rfl
  rw [accepted, List.filterMap_append, nothing, List.append_nil]
  rfl

theorem accepted_concat_of_valid (ms : List Migration) {id : MigrationId}
    (named : MigrationId.parse? m.identifier.toList = some id) :
    accepted (ms ++ [m]) =
      if id.version ∈ (accepted ms).map (·.version) then accepted ms else accepted ms ++ [id] := by
  have one : [m].filterMap (fun m => MigrationId.parse? m.identifier.toList) = [id] := by
    rw [List.filterMap_cons, named]
    rfl
  have known : (accepted ms).any (id.version == ·.version) = true ↔
      id.version ∈ (accepted ms).map (·.version) := by
    rw [List.any_eq_true, List.mem_map]
    simp only [beq_iff_eq, eq_comm (a := id.version)]
  rw [accepted, List.filterMap_append, one, eraseDupsBy_concat]
  simp only [← known]
  rfl

/-- **A set has the accepted identifiers**, and has no others. -/
theorem perm_accepted (ms : List Migration) : (ofAttempts ms).ids.Perm (accepted ms) := by
  induction ms using List.reverseRecOn with
  | nil => exact .refl _
  | append_singleton ms m ih =>
    rw [ofAttempts_concat]
    cases named : MigrationId.parse? m.identifier.toList with
    | none =>
      rw [attempt_of_error (register_of_invalid named), accepted_concat_of_invalid ms named]
      exact ih
    | some id =>
      have registered := register_of_valid (s := ofAttempts ms) named
      have versions := (ih.map (·.version)).mem_iff (a := id.version)
      rw [accepted_concat_of_valid ms named]
      split at registered
      next known =>
        rw [attempt_of_error registered, if_pos (versions.mp known)]
        exact ih
      next new =>
        rw [attempt_of_ok registered, if_neg fun found => new (versions.mpr found)]
        exact (perm_ids_place id m _).trans
          ((ih.cons id).trans (List.perm_append_singleton id (accepted ms)).symm)

/-! ## Selections -/

theorem Registered.pairwise_ids (registered : s.Registered) :
    s.ids.Pairwise fun a b => a.version < b.version :=
  List.pairwise_map.mpr registered.ordered.ascending

theorem mem_pending {applied : List Int} {id : MigrationId} :
    id ∈ s.pending applied ↔ id ∈ s.ids ∧ id.version ∉ applied := by
  rw [pending, List.mem_filter, Bool.not_eq_true', ← Bool.not_eq_true, List.contains_iff_mem]

/-- The identifiers whose versions are between two, whichever is the lower, in ascending order. -/
def within (s : MigrationSet) (first last : Int) : List MigrationId :=
  s.ids.filter fun id => min first last ≤ id.version ∧ id.version ≤ max first last

theorem mem_within {first last : Int} {id : MigrationId} : id ∈ s.within first last ↔
    id ∈ s.ids ∧ min first last ≤ id.version ∧ id.version ≤ max first last := by
  rw [within, List.mem_filter, decide_eq_true_iff]

theorem within_comm (s : MigrationSet) (first last : Int) :
    s.within last first = s.within first last := by
  rw [within, within, min_comm, max_comm]

theorem between_of_le {first last : Int} (upwards : first ≤ last) :
    s.between first last = s.within first last := by
  rw [between, if_pos upwards, within, min_eq_left upwards, max_eq_right upwards]
  exact List.filter_congr fun id _ => (Bool.decide_and _ _).symm

theorem between_of_lt {first last : Int} (downwards : last < first) :
    s.between first last = (s.within first last).reverse := by
  rw [between, if_neg (Int.not_le.mpr downwards), within, min_eq_right downwards.le,
    max_eq_left downwards.le]
  exact congrArg List.reverse (List.filter_congr fun id _ => (Bool.decide_and _ _).symm)

theorem perm_between (s : MigrationSet) (first last : Int) :
    (s.between first last).Perm (s.within first last) := by
  by_cases upwards : first ≤ last
  · exact .of_eq (between_of_le upwards)
  · rw [between_of_lt (Int.not_le.mp upwards)]
    exact List.reverse_perm _

/-- **The way back** is the reverse of the way there. -/
theorem between_comm {first last : Int} (apart : first ≠ last) :
    s.between last first = (s.between first last).reverse := by
  rcases Int.lt_or_gt_of_ne apart with upwards | downwards
  · rw [between_of_lt upwards, between_of_le upwards.le, within_comm]
  · rw [between_of_le downwards.le, between_of_lt downwards, within_comm, List.reverse_reverse]

theorem Registered.pairwise_within (registered : s.Registered) (first last : Int) :
    (s.within first last).Pairwise fun a b => a.version < b.version :=
  registered.pairwise_ids.filter _

end MigrationSet

/-- **Sets select by version.** Of any migrations that are registered one after the other, whatever
their identifiers: one whose identifier cannot be read is refused with it, and one whose version is
there already with the version, and the set stays as it was; any other one is added. The identifiers
of the set are in strictly ascending order of the versions, and are those that were accepted. The
pending ones are those whose versions are not applied, in ascending order. Those from one version to
another are the ones with a version no less than the lower and no greater than the higher, each
once, in ascending order or, on the way down, in descending order; and the way back is the reverse
of the way there. -/
theorem sets_select_by_version (ms : List Migration) :
    let s := MigrationSet.ofAttempts ms
    (∀ m : Migration, MigrationId.parse? m.identifier.toList = none →
      s.register m = .error (.invalidIdentifier m.identifier) ∧ s.attempt m = s) ∧
    (∀ (m : Migration) (id : MigrationId), MigrationId.parse? m.identifier.toList = some id →
      (id.version ∈ s.ids.map (·.version) →
        s.register m = .error (.duplicateVersion id.version) ∧ s.attempt m = s) ∧
      (id.version ∉ s.ids.map (·.version) →
        s.register m = .ok (s.attempt m) ∧ (s.attempt m).ids.Perm (id :: s.ids))) ∧
    s.ids.Pairwise (fun a b => a.version < b.version) ∧
    s.ids.Perm (MigrationSet.accepted ms) ∧
    (∀ applied : List Int,
      (s.pending applied).Pairwise (fun a b => a.version < b.version) ∧
      ∀ id, id ∈ s.pending applied ↔ id ∈ s.ids ∧ id.version ∉ applied) ∧
    ∀ first last : Int,
      (∀ id, id ∈ s.between first last ↔
        id ∈ s.ids ∧ min first last ≤ id.version ∧ id.version ≤ max first last) ∧
      (first ≤ last → (s.between first last).Pairwise fun a b => a.version < b.version) ∧
      (last < first → (s.between first last).Pairwise fun a b => b.version < a.version) ∧
      (first ≠ last → s.between last first = (s.between first last).reverse) := by
  intro s
  have registered : s.Registered := MigrationSet.registered_ofAttempts ms
  refine ⟨fun m invalid => ?_, fun m id named => ⟨fun known => ?_, fun new => ?_⟩,
    registered.pairwise_ids, MigrationSet.perm_accepted ms, fun applied => ?_,
    fun first last => ⟨fun id => ?_, fun upwards => ?_, fun downwards => ?_,
      MigrationSet.between_comm⟩⟩
  · have refused := MigrationSet.register_of_invalid (s := s) invalid
    exact ⟨refused, MigrationSet.attempt_of_error refused⟩
  · have refused := MigrationSet.register_of_valid (s := s) named
    rw [if_pos known] at refused
    exact ⟨refused, MigrationSet.attempt_of_error refused⟩
  · have added := MigrationSet.register_of_valid (s := s) named
    rw [if_neg new] at added
    rw [MigrationSet.attempt_of_ok added]
    exact ⟨added, MigrationSet.perm_ids_place id m s⟩
  · exact ⟨registered.pairwise_ids.filter _, fun id => MigrationSet.mem_pending⟩
  · exact (s.perm_between first last).mem_iff.trans MigrationSet.mem_within
  · rw [MigrationSet.between_of_le upwards]
    exact registered.pairwise_within first last
  · rw [MigrationSet.between_of_lt downwards, List.pairwise_reverse]
    exact registered.pairwise_within first last

/-- Four migrations out of order, of which one has the version of another and one has none. -/
def Migration.unsorted : List Migration :=
  [{ identifier := "0002_create_posts" }, { identifier := "0001_create_users" },
    { identifier := "2_drop_posts" }, { identifier := "posts" }]

/-- The two of them that are accepted, on the way up and on the way down. -/
theorem sets_select_by_version_unsorted :
    let s := MigrationSet.ofAttempts Migration.unsorted
    s.ids = [⟨1, "CreateUsers"⟩, ⟨2, "CreatePosts"⟩] ∧
    (MigrationId.parse? "posts".toList = none ∧
      s.register { identifier := "posts" } = .error (.invalidIdentifier "posts")) ∧
    (MigrationId.parse? "2_drop_posts".toList = some ⟨2, "DropPosts"⟩ ∧
      2 ∈ s.ids.map (·.version) ∧
      s.register { identifier := "2_drop_posts" } = .error (.duplicateVersion 2)) ∧
    (MigrationId.parse? "3_drop_users".toList = some ⟨3, "DropUsers"⟩ ∧
      3 ∉ s.ids.map (·.version) ∧
      (s.attempt { identifier := "3_drop_users" }).ids.Perm (⟨3, "DropUsers"⟩ :: s.ids)) ∧
    s.between 1 9 = [⟨1, "CreateUsers"⟩, ⟨2, "CreatePosts"⟩] ∧
    (1 : Int) ≠ 9 ∧ s.between 9 1 = (s.between 1 9).reverse := by
  intro s
  have ids : s.ids = [⟨1, "CreateUsers"⟩, ⟨2, "CreatePosts"⟩] := by decide
  have posts : MigrationId.parse? "posts".toList = none := by decide
  have again : MigrationId.parse? "2_drop_posts".toList = some ⟨2, "DropPosts"⟩ := by decide
  have more : MigrationId.parse? "3_drop_users".toList = some ⟨3, "DropUsers"⟩ := by decide
  have known : 2 ∈ s.ids.map (·.version) := by rw [ids]; decide
  have new : 3 ∉ s.ids.map (·.version) := by rw [ids]; decide
  obtain ⟨invalid, valid, -, -, -, selects⟩ := sets_select_by_version Migration.unsorted
  refine ⟨ids, ⟨posts, (invalid { identifier := "posts" } posts).1⟩,
    ⟨again, known, ((valid { identifier := "2_drop_posts" } _ again).1 known).1⟩,
    ⟨more, new, ((valid { identifier := "3_drop_users" } _ more).2 new).2⟩, ?_, by decide,
    (selects 1 9).2.2.2 (by decide)⟩
  rw [MigrationSet.between, ids]
  rfl

end SqlAccess
