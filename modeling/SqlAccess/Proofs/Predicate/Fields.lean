import Mathlib.Data.List.Induction
import SqlAccess.Proofs.Mention
import SqlAccess.Proofs.Predicate.Composed

/-!
# What a group holds

A group is filled by calls, and its members tell what was attached to it since it was last cleared.
Every predicate that is appended opens a place of its own, and a field opens one when it is first
assigned (`Group.places`). The place of a field holds the predicate that was assigned to it last, on
the column of the field's name; the other places hold what was appended, as it was given, even where
that is on the column of a field (`Group.held?`).

The one step of this is a single attachment (`Group.Holds.assign`, `Group.Holds.add`), and every
call is one of them or clears the group (`Group.Holds.apply`). What there is to say about the log
alone, that fields and appended predicates keep the order in which they came, is said of its places
(`filterMap_places`, `filter_places`).
-/

namespace SqlAccess

/-- The second predicate is on the column, and otherwise the first one: a leaf with the operator,
the value, the text and the parameters of the text, or a group with the connective and the
members. -/
inductive Predicate.SameOn (column : String) : Predicate → Predicate → Prop
  | comparison (c : Comparison) : SameOn column (.comparison c)
      (.comparison ⟨some column, c.operator, c.value, c.raw, c.rawParams⟩)
  | group (own : Option String) (connective : Connective)
      (members : List (Option String × Predicate)) : SameOn column (.group own connective members)
      (.group (some column) connective members)

/-- Stamping puts a predicate on a column and keeps the rest of it. -/
theorem Predicate.sameOn_stamp (column : String) (p : Predicate) :
    p.SameOn column (p.stamp column) := by
  cases p with
  | comparison c => exact .comparison c
  | group own connective members => exact .group own connective members

namespace Group

variable {field : String} {p : Predicate} {members log : List (Option String × Predicate)}

/-! ## Calls -/

/-- A call on a group. A group that is appended can be filled further by calls on it. -/
inductive Call where
  | setField (field : String) (p : Predicate)
  | append (p : Predicate)
  | appendGroup (inner : Group) (filling : List Call)
  | clear

mutual

/-- The group behind a call. -/
def Call.apply (g : Group) : Call → Group
  | .setField field p => g.setField field p
  | .append p => g.append p
  | .appendGroup inner filling => g.append (.ofGroup (inner.after filling))
  | .clear => g.clear

/-- The group behind calls, one after the other. -/
def after (g : Group) : List Call → Group
  | [] => g
  | call :: rest => (call.apply g).after rest

end

/-- What was attached since the group was last cleared, behind a call: predicates, each with the
field that it was assigned to, if it was. -/
def Call.record (log : List (Option String × Predicate)) : Call → List (Option String × Predicate)
  | .setField field p => log ++ [(some field, p)]
  | .append p => log ++ [(none, p)]
  | .appendGroup inner filling => log ++ [(none, .ofGroup (inner.after filling))]
  | .clear => []

/-- What calls have attached since the last of them that clears the group. -/
def attached (calls : List Call) : List (Option String × Predicate) :=
  calls.foldl Call.record []

/-! ## Places -/

/-- Are both assigned to one field? -/
def sameField (a b : Option String × Predicate) : Bool :=
  a.1.isSome && a.1 == b.1

/-- The attachments that open a place: every appended one, and the first one to each field. -/
def places (log : List (Option String × Predicate)) : List (Option String × Predicate) :=
  log.eraseDupsBy sameField

/-- The predicate that was assigned to the field last. -/
def lastAssigned? (field : String) (log : List (Option String × Predicate)) : Option Predicate :=
  log.reverse.lookup (some field)

/-- What the place that was opened by an attachment holds: what was assigned to the field last, on
the field's column, or what was appended. -/
def held? (log : List (Option String × Predicate)) : Option String × Predicate → Option Predicate
  | (some field, _) => (lastAssigned? field log).map (·.stamp field)
  | (none, p) => some p

theorem places_concat_none (log : List (Option String × Predicate)) (p : Predicate) :
    places (log ++ [(none, p)]) = places log ++ [(none, p)] := by
  have new : (log.eraseDupsBy sameField).any (sameField (none, p)) = false :=
    List.any_eq_false.mpr fun _ _ => Bool.false_ne_true
  rw [places, eraseDupsBy_concat, new]
  rfl

theorem places_concat_some (log : List (Option String × Predicate)) (field : String)
    (p : Predicate) : places (log ++ [(some field, p)]) =
      if field ∈ (places log).filterMap Prod.fst then places log
      else places log ++ [(some field, p)] := by
  have known : (log.eraseDupsBy sameField).any (sameField (some field, p)) = true ↔
      field ∈ (places log).filterMap Prod.fst := by
    rw [List.any_eq_true, List.mem_filterMap]
    simp only [sameField, Option.isSome_some, Bool.true_and, beq_iff_eq, places,
      eq_comm (a := some field)]
  simp only [← known]
  exact eraseDupsBy_concat sameField log (some field, p)

/-- **The fields**, each once, in the order of first assignment. -/
theorem filterMap_places (log : List (Option String × Predicate)) :
    (places log).filterMap Prod.fst = (log.filterMap Prod.fst).eraseDups := by
  induction log using List.reverseRecOn with
  | nil => rfl
  | append_singleton log last ih =>
    obtain ⟨field, p⟩ := last
    cases field with
    | none =>
      have aside : [((none : Option String), p)].filterMap Prod.fst = [] := rfl
      rw [places_concat_none, List.filterMap_append, List.filterMap_append, aside, List.append_nil,
        List.append_nil, ih]
    | some field =>
      rw [places_concat_some, List.filterMap_append]
      change _ = (log.filterMap Prod.fst ++ [field]).eraseDups
      rw [eraseDups_concat, ih]
      simp only [List.mem_eraseDups]
      split
      next => exact ih
      next => rw [List.filterMap_append, ih]; rfl

/-- **The appended predicates**, all of them, in the order of appending. -/
theorem filter_places (log : List (Option String × Predicate)) :
    (places log).filter (·.1.isNone) = log.filter (·.1.isNone) := by
  induction log using List.reverseRecOn with
  | nil => rfl
  | append_singleton log last ih =>
    obtain ⟨field, p⟩ := last
    cases field with
    | none => rw [places_concat_none, List.filter_append, List.filter_append, ih]
    | some field =>
      have aside : [(some field, p)].filter (·.1.isNone) = [] := rfl
      rw [places_concat_some, List.filter_append, aside, List.append_nil]
      split
      next => exact ih
      next => rw [List.filter_append, aside, List.append_nil, ih]

theorem held?_concat_none (log : List (Option String × Predicate)) (p : Predicate)
    (place : Option String × Predicate) : held? (log ++ [(none, p)]) place = held? log place := by
  obtain ⟨field, q⟩ := place
  cases field with
  | none => rfl
  | some field =>
    rw [held?, lastAssigned?, lookup_reverse_concat, if_neg (Option.some_ne_none field)]
    rfl

theorem held?_concat_some (log : List (Option String × Predicate)) (field : String) (p : Predicate)
    (place : Option String × Predicate) : held? (log ++ [(some field, p)]) place =
      if place.1 = some field then some (p.stamp field) else held? log place := by
  obtain ⟨other, q⟩ := place
  cases other with
  | none => rfl
  | some other =>
    rw [held?, lastAssigned?, lookup_reverse_concat]
    by_cases same : some other = some field
    · rw [if_pos same, if_pos same, Option.some.inj same]
      rfl
    · rw [if_neg same, if_neg same]
      rfl

/-! ## One attachment -/

theorem place_of_unknown (unknown : field ∉ members.filterMap Prod.fst) :
    place field p members = members ++ [(some field, p)] := by
  induction members with
  | nil => rfl
  | cons first rest ih =>
    obtain ⟨other, old⟩ := first
    rw [List.mem_filterMap] at unknown
    have apart : other ≠ some field := fun same => unknown ⟨_, List.mem_cons_self, same⟩
    have later : field ∉ rest.filterMap Prod.fst := by
      rw [List.mem_filterMap]
      rintro ⟨member, inside, names⟩
      exact unknown ⟨member, List.mem_cons_of_mem _ inside, names⟩
    rw [place, if_neg apart, ih later, List.cons_append]

/-- Among members of different fields, the one of the field is replaced and no other. -/
theorem place_of_known (distinct : (members.filterMap Prod.fst).Nodup)
    (known : field ∈ members.filterMap Prod.fst) : place field p members =
      members.map fun member => if member.1 = some field then (member.1, p) else member := by
  induction members with
  | nil => cases known
  | cons first rest ih =>
    obtain ⟨other, old⟩ := first
    rw [place, List.map_cons]
    by_cases same : other = some field
    · rw [if_pos same, if_pos same]
      subst same
      have absent := (List.nodup_cons.mp distinct).1
      have kept : rest.map (fun member => if member.1 = some field then (member.1, p) else member) =
          rest.map id := by
        refine List.map_congr_left fun member inside => if_neg fun names => absent ?_
        exact List.mem_filterMap.mpr ⟨member, inside, names⟩
      rw [kept, List.map_id]
    · rw [if_neg same, if_neg same]
      have later : (rest.filterMap Prod.fst).Nodup := by
        cases other with
        | none => exact distinct
        | some other => exact (List.nodup_cons.mp distinct).2
      have inside : field ∈ rest.filterMap Prod.fst := by
        cases other with
        | none => exact known
        | some other =>
          exact (List.mem_cons.mp known).resolve_left fun names => same (congrArg some names.symm)
      rw [ih later inside]

/-- The members tell what was attached: there is one for every place, and it is what the place
holds. -/
def Holds (members log : List (Option String × Predicate)) : Prop :=
  (members.map fun member => (member.1, some member.2)) =
    (places log).map fun place => (place.1, held? log place)

namespace Holds

theorem map_fst (holds : Holds members log) : members.map Prod.fst = (places log).map Prod.fst := by
  have firsts := congrArg (List.map Prod.fst) holds
  rwa [List.map_map, List.map_map] at firsts

theorem fields_eq (holds : Holds members log) :
    members.filterMap Prod.fst = (places log).filterMap Prod.fst := by
  have fields := congrArg (List.filterMap id) holds.map_fst
  rwa [List.filterMap_map, List.filterMap_map] at fields

/-- The members without a field are the appended predicates. -/
theorem filter_eq (holds : Holds members log) :
    members.filter (·.1.isNone) = log.filter (·.1.isNone) := by
  have kept := congrArg (List.filter (·.1.isNone)) holds
  rw [List.filter_map, List.filter_map] at kept
  have given : ∀ place ∈ (places log).filter (·.1.isNone),
      (place.1, held? log place) = (place.1, some place.2) := by
    rintro ⟨field, p⟩ member
    cases field with
    | none => rfl
    | some field => exact absurd (List.mem_filter.mp member).2 Bool.false_ne_true
  have same := kept.trans (List.map_congr_left given)
  have injective : Function.Injective
      fun member : Option String × Predicate => (member.1, some member.2) := by
    rintro ⟨field, p⟩ ⟨field', p'⟩ ⟨⟩
    rfl
  rw [← filter_places log]
  exact injective.list_map same

/-- The member of a field is the predicate that was assigned to it last, on its column. -/
theorem assigned (holds : Holds members log) (member : (some field, p) ∈ members) :
    ∃ last, lastAssigned? field log = some last ∧ p = last.stamp field := by
  have shown := List.mem_map_of_mem (f := fun member => (member.1, some member.2)) member
  rw [holds] at shown
  obtain ⟨⟨other, first⟩, -, same⟩ := List.mem_map.mp shown
  obtain ⟨rfl, held⟩ := Prod.mk.inj same
  obtain ⟨last, assigned, rfl⟩ := Option.map_eq_some_iff.mp held
  exact ⟨last, assigned, rfl⟩

theorem add (holds : Holds members log) (p : Predicate) :
    Holds (members ++ [(none, p)]) (log ++ [(none, p)]) := by
  rw [Holds, places_concat_none, List.map_append, List.map_append, holds]
  simp only [held?_concat_none]
  rfl

theorem assign (holds : Holds members log) (field : String) (p : Predicate) :
    Holds (Group.place field (p.stamp field) members) (log ++ [(some field, p)]) := by
  rw [Holds, places_concat_some, ← holds.fields_eq]
  simp only [held?_concat_some]
  by_cases known : field ∈ members.filterMap Prod.fst
  · have distinct : (members.filterMap Prod.fst).Nodup := by
      rw [holds.fields_eq, filterMap_places]
      exact nodup_eraseDups _
    -- Both sides put the stamped predicate where the field is, and keep what was there elsewhere.
    have replaced := congrArg (List.map fun shown : Option String × Option Predicate =>
      if shown.1 = some field then (shown.1, some (p.stamp field)) else shown) holds
    rw [List.map_map, List.map_map] at replaced
    rw [place_of_known distinct known, if_pos known, List.map_map]
    refine Eq.trans (List.map_congr_left fun member _ => ?_)
      (replaced.trans (List.map_congr_left fun place _ => ?_))
    · exact apply_ite (fun m : Option String × Predicate => (m.1, some m.2)) _ _ _
    · exact (apply_ite (Prod.mk place.1) _ _ _).symm
  · have apart : ∀ place ∈ places log, place.1 ≠ some field := by
      intro place member names
      rw [holds.fields_eq] at known
      exact known (List.mem_filterMap.mpr ⟨place, member, names⟩)
    rw [place_of_unknown known, if_neg known, List.map_append, List.map_append, holds]
    refine congrArg₂ (· ++ ·) (List.map_congr_left fun place member => ?_) ?_
    · rw [if_neg (apart place member)]
    · simp only [List.map_cons, List.map_nil, if_pos]

theorem apply {g : Group} (holds : Holds g.members log) (call : Call) :
    Holds (call.apply g).members (call.record log) := by
  cases call with
  | setField field p => exact holds.assign field p
  | append p => exact holds.add p
  | appendGroup inner filling => exact holds.add _
  | clear => rfl

theorem after {g : Group} (holds : Holds g.members log) (calls : List Call) :
    Holds (g.after calls).members (calls.foldl Call.record log) := by
  induction calls generalizing g log with
  | nil => exact holds
  | cons call rest ih => exact ih (holds.apply call)

end Holds

/-- Calls leave the column and the connective of the group alone. -/
theorem after_eq (g : Group) (calls : List Call) :
    g.after calls = { g with members := (g.after calls).members } := by
  induction calls generalizing g with
  | nil => rfl
  | cons call rest ih =>
    rw [Group.after, ih (call.apply g)]
    cases call <;> rfl

end Group

/-- **Fields hold the last predicates.** Of any group that starts without members, behind any calls:
its members are, place by place, what was attached since it was last cleared, one for every
predicate that was appended and one for every field, in the order of appending and of first
assignment. The fields are all different, and each has the predicate that was assigned to it last,
on the column of its name and with everything else as it was assigned. What was appended stands as
it was given. -/
theorem fields_hold_last_predicates (column : Option String) (connective : Connective)
    (calls : List Group.Call) :
    let g := Group.after { column, connective } calls
    let log := Group.attached calls
    ((g.members.map fun member => (member.1, some member.2)) =
      (Group.places log).map fun place => (place.1, Group.held? log place)) ∧
    g.members.filterMap Prod.fst = (log.filterMap Prod.fst).eraseDups ∧
    g.members.filter (·.1.isNone) = log.filter (·.1.isNone) ∧
    (∀ field p, (some field, p) ∈ g.members → p.column = some field ∧
      ∃ last, Group.lastAssigned? field log = some last ∧ p = last.stamp field ∧
        last.SameOn field p) ∧
    g.column = column ∧ g.connective = connective := by
  intro g log
  have start : Group.Holds (Group.members { column, connective }) [] := rfl
  have holds : Group.Holds g.members log := start.after calls
  refine ⟨holds, ?_, holds.filter_eq, fun field p member => ?_, ?_, ?_⟩
  · rw [holds.fields_eq, Group.filterMap_places]
  · obtain ⟨last, assigned, rfl⟩ := holds.assigned member
    exact ⟨Predicate.column_stamp field last, last, assigned, rfl, last.sameOn_stamp field⟩
  · exact congrArg Group.column (Group.after_eq _ calls)
  · exact congrArg Group.connective (Group.after_eq _ calls)

/-- A field that is assigned twice, with predicates on its column appended in between. -/
theorem fields_hold_last_predicates_reassigned :
    let calls : List Group.Call :=
      [.append (Comparison.equal (.int 0)), .clear, .setField "id" (Comparison.equal (.int 1)),
        .append ((Comparison.equal (.int 2)).on "id"),
        .appendGroup (Group.of .any) [.setField "id" Comparison.isNull, .append Comparison.isNull],
        .setField "name" Comparison.isNotNull,
        .setField "id" ((Comparison.equal (.int 3)).on "name")]
    let g := Group.after {} calls
    let given : Predicate := (Comparison.equal (.int 3)).on "name"
    let last : Predicate := (Comparison.equal (.int 3)).on "id"
    g.members =
      [(some "id", last), (none, (Comparison.equal (.int 2)).on "id"),
        (none, ({ connective := .any, members :=
          [(some "id", Comparison.isNull.on "id"), (none, Comparison.isNull)] } : Group)),
        (some "name", Comparison.isNotNull.on "name")] ∧
    (some "id", last) ∈ g.members ∧ last.column = some "id" ∧
    Group.lastAssigned? "id" (Group.attached calls) = some given ∧ last = given.stamp "id" ∧
      given.SameOn "id" last := by
  intro calls g given last
  have member : (some "id", last) ∈ g.members := List.mem_cons_self
  obtain ⟨-, -, -, assigned, -⟩ := fields_hold_last_predicates none .all calls
  obtain ⟨column, found, same, stamped, kept⟩ := assigned "id" last member
  obtain rfl : found = given := Option.some.inj (same.symm.trans rfl)
  exact ⟨rfl, member, column, same, stamped, kept⟩

end SqlAccess
