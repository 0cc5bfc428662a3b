import Mathlib.Order.Bounds.Basic
import SqlAccess.Migration.Set

/-!
# Versions in order

The versions of the applied migrations, and those of a set, are in ascending order and each there
once, in whatever order they were found and registered. So the last applied version is the highest
one, and a set has one migration for a version.
-/

namespace SqlAccess

/-! ## Applied versions -/

theorem mem_withVersion {version v : Int} {versions : List Int} :
    v ∈ withVersion version versions ↔ v = version ∨ v ∈ versions := by
  induction versions with
  | nil => rw [withVersion, List.mem_singleton, or_iff_left List.not_mem_nil]
  | cons first rest ih =>
    rw [withVersion]
    split_ifs with less same
    · exact List.mem_cons
    · rw [same, List.mem_cons]
      exact ⟨fun h => .inr h, fun h => h.elim .inl id⟩
    · rw [List.mem_cons, ih, List.mem_cons]
      exact or_left_comm

theorem pairwise_withVersion {version : Int} {versions : List Int}
    (ascending : versions.Pairwise (· < ·)) : (withVersion version versions).Pairwise (· < ·) := by
  induction versions with
  | nil => exact List.pairwise_singleton ..
  | cons first rest ih =>
    obtain ⟨above, others⟩ := List.pairwise_cons.mp ascending
    rw [withVersion]
    split_ifs with less same
    · refine List.pairwise_cons.mpr ⟨fun v member => ?_, ascending⟩
      rcases List.mem_cons.mp member with rfl | member
      · exact less
      · exact less.trans (above v member)
    · exact ascending
    · refine List.pairwise_cons.mpr ⟨fun v member => ?_, ih others⟩
      rcases mem_withVersion.mp member with rfl | member
      · omega
      · exact above v member

theorem pairwise_appliedVersions (applied : List AppliedMigration) :
    (appliedVersions applied).Pairwise (· < ·) := by
  induction applied with
  | nil => exact List.Pairwise.nil
  | cons m rest ih => exact pairwise_withVersion ih

/-- The last of ascending versions is the greatest. -/
theorem isGreatest_of_getLast? {versions : List Int} {last : Int}
    (ascending : versions.Pairwise (· < ·)) (ends : versions.getLast? = some last) :
    IsGreatest {v | v ∈ versions} last := by
  obtain ⟨front, rfl⟩ := List.getLast?_eq_some_iff.mp ends
  refine ⟨List.mem_append_right front List.mem_cons_self, fun v member => ?_⟩
  rcases List.mem_append.mp member with earlier | same
  · exact ((List.pairwise_append.mp ascending).2.2 v earlier last List.mem_cons_self).le
  · exact (List.mem_singleton.mp same).le

/-! ## Sets of migrations -/

namespace MigrationSet

variable {s s' : MigrationSet} {m : Migration}

/-- The sets that come about by registering migrations. -/
inductive Registered : MigrationSet → Prop
  | empty : Registered {}
  | register {s s' : MigrationSet} {m : Migration} :
      Registered s → s.register m = .ok s' → Registered s'

/-- The migrations are in ascending order, each under the identifier that it spells. -/
structure Ordered (entries : List (MigrationId × Migration)) : Prop where
  ascending : entries.Pairwise fun a b => a.1.version < b.1.version
  named : ∀ entry ∈ entries, MigrationId.parse entry.2.identifier = .ok entry.1

/-- The entry is added, and nothing else changes but the order. -/
theorem perm_place (entry : MigrationId × Migration) (entries : List (MigrationId × Migration)) :
    (place entry entries).Perm (entry :: entries) := by
  induction entries with
  | nil => exact .refl _
  | cons first rest ih =>
    rw [place]
    split
    next => exact .refl _
    next => exact (ih.cons first).trans (.swap entry first rest)

theorem mem_place {entry other : MigrationId × Migration}
    {entries : List (MigrationId × Migration)} :
    other ∈ place entry entries ↔ other = entry ∨ other ∈ entries :=
  (perm_place entry entries).mem_iff.trans List.mem_cons

theorem pairwise_place {entry : MigrationId × Migration} {entries : List (MigrationId × Migration)}
    (ascending : entries.Pairwise fun a b => a.1.version < b.1.version)
    (new : ∀ other ∈ entries, other.1.version ≠ entry.1.version) :
    (place entry entries).Pairwise fun a b => a.1.version < b.1.version := by
  induction entries with
  | nil => exact List.pairwise_singleton ..
  | cons first rest ih =>
    obtain ⟨above, others⟩ := List.pairwise_cons.mp ascending
    rw [place]
    split_ifs with less
    · refine List.pairwise_cons.mpr ⟨fun other member => ?_, ascending⟩
      rcases List.mem_cons.mp member with rfl | member
      · exact less
      · exact less.trans (above other member)
    · have kept := ih others fun other member => new other (List.mem_cons_of_mem _ member)
      refine List.pairwise_cons.mpr ⟨fun other member => ?_, kept⟩
      rcases mem_place.mp member with rfl | member
      · have differs := new first List.mem_cons_self
        omega
      · exact above other member

/-! ### Registering one more -/

theorem register_of_unreadable {e : MigrationError}
    (unreadable : MigrationId.parse m.identifier = .error e) : s.register m = .error e := by
  rw [register, unreadable]
  rfl

theorem register_of_readable {id : MigrationId} (named : MigrationId.parse m.identifier = .ok id) :
    s.register m = if id.version ∈ s.ids.map (·.version) then .error (.duplicateVersion id.version)
      else .ok ⟨place (id, m) s.entries⟩ := by
  have known : s.ids.any (·.version == id.version) = true ↔
      id.version ∈ s.ids.map (·.version) := by
    rw [List.any_eq_true, List.mem_map]
    simp only [beq_iff_eq]
  rw [register, named]
  simp only [← known]
  rfl

theorem register_eq_ok (h : s.register m = .ok s') :
    ∃ id, MigrationId.parse m.identifier = .ok id ∧
      (∀ other ∈ s.entries, other.1.version ≠ id.version) ∧ s' = ⟨place (id, m) s.entries⟩ := by
  cases named : MigrationId.parse m.identifier with
  | error e =>
    rw [register_of_unreadable named] at h
    cases h
  | ok id =>
    rw [register_of_readable named] at h
    split at h
    next => cases h
    next absent =>
      cases h
      refine ⟨id, rfl, fun other member same => absent ?_, rfl⟩
      exact List.mem_map.mpr ⟨other.1, List.mem_map_of_mem member, same⟩

/-- **Registering keeps the order.** -/
theorem Registered.ordered (registered : Registered s) : Ordered s.entries := by
  induction registered with
  | empty => exact ⟨List.Pairwise.nil, fun _ member => nomatch member⟩
  | register _ h ih =>
    obtain ⟨id, named, new, rfl⟩ := register_eq_ok h
    refine ⟨pairwise_place ih.ascending new, fun entry member => ?_⟩
    rcases mem_place.mp member with rfl | member
    · exact named
    · exact ih.named entry member

end MigrationSet

end SqlAccess
