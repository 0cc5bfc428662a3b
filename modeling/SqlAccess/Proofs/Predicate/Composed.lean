import SqlAccess.Predicate.Build

/-!
# Conditions that are composed

A condition is composed by calls: a group starts without members, may be given a column, and gets
its members one by one, for a field or without one. `Predicate.Composed` is what such calls can
make. A field gives its name to the member as its column, and nothing takes it away again, so every
member of a field, at any depth, names that field as its column (`Predicate.Composed.fielded`).

This is why looking for a key finds columns and nothing else: where a key is mentioned, there is a
member that names it as its column (`Predicate.Fielded.names_of_mentions`).
-/

namespace SqlAccess

namespace Group

variable {field : String} {p : Predicate} {members : List (Option String × Predicate)}

theorem mem_place_self : (some field, p) ∈ place field p members := by
  induction members with
  | nil => exact List.mem_singleton_self _
  | cons member rest ih =>
    obtain ⟨other, old⟩ := member
    rw [place]
    split
    next same =>
      subst same
      exact List.mem_cons_self
    next => exact List.mem_cons_of_mem _ ih

theorem mem_place {member : Option String × Predicate} (h : member ∈ place field p members) :
    member = (some field, p) ∨ member ∈ members := by
  induction members with
  | nil => exact .inl (List.mem_singleton.mp h)
  | cons first rest ih =>
    obtain ⟨other, old⟩ := first
    rw [place] at h
    split at h
    next same =>
      subst same
      rcases List.mem_cons.mp h with new | kept
      · exact .inl new
      · exact .inr (List.mem_cons_of_mem _ kept)
    next =>
      rcases List.mem_cons.mp h with rfl | later
      · exact .inr List.mem_cons_self
      · exact (ih later).imp id (List.mem_cons_of_mem _)

end Group

namespace Predicate

@[simp] theorem column_stamp (column : String) (p : Predicate) :
    (p.stamp column).column = some column := by
  cases p <;> rfl

/-! ## What calls can make -/

/-- The conditions that are composed by calls: leaves of any kind, and groups that start without
members. -/
inductive Composed : Predicate → Prop
  | comparison (c : Comparison) : Composed (.comparison c)
  | start (connective : Connective) : Composed (.ofGroup (.of connective))
  | on {g : Group} (column : String) : Composed (.ofGroup g) → Composed (.ofGroup (g.on column))
  | append {g : Group} {p : Predicate} : Composed (.ofGroup g) → Composed p →
      Composed (.ofGroup (g.append p))
  | setField {g : Group} {p : Predicate} (field : String) : Composed (.ofGroup g) → Composed p →
      Composed (.ofGroup (g.setField field p))
  | clear {g : Group} : Composed (.ofGroup g) → Composed (.ofGroup g.clear)

/-- Every member of a field, at any depth, names that field as its column. -/
inductive Fielded : Predicate → Prop
  | comparison (c : Comparison) : Fielded (.comparison c)
  | group {column : Option String} {connective : Connective}
      {members : List (Option String × Predicate)} :
      (∀ field p, (some field, p) ∈ members → p.column = some field) →
      (∀ field p, (field, p) ∈ members → Fielded p) →
      Fielded (.group column connective members)

namespace Fielded

variable {p : Predicate} {g : Group}

theorem stamp (h : p.Fielded) (column : String) : (p.stamp column).Fielded := by
  cases h with
  | comparison c => exact .comparison _
  | group named inside => exact .group named inside

theorem named (h : (ofGroup g).Fielded) :
    ∀ field p, (some field, p) ∈ g.members → p.column = some field := by
  cases h
  assumption

theorem inside (h : (ofGroup g).Fielded) : ∀ field p, (field, p) ∈ g.members → p.Fielded := by
  cases h
  assumption

theorem append (h : (ofGroup g).Fielded) (added : p.Fielded) :
    (ofGroup (g.append p)).Fielded := by
  refine .group (fun field q member => ?_) (fun field q member => ?_)
  · rcases List.mem_append.mp member with old | new
    · exact h.named field q old
    · cases List.mem_singleton.mp new
  · rcases List.mem_append.mp member with old | new
    · exact h.inside field q old
    · cases List.mem_singleton.mp new
      exact added

theorem setField (h : (ofGroup g).Fielded) (added : p.Fielded) (field : String) :
    (ofGroup (g.setField field p)).Fielded := by
  refine .group (fun other q member => ?_) (fun other q member => ?_)
  · rcases Group.mem_place member with new | old
    · cases new
      exact column_stamp field p
    · exact h.named other q old
  · rcases Group.mem_place member with new | old
    · cases new
      exact added.stamp field
    · exact h.inside other q old

end Fielded

/-- **The members of fields keep their columns**, whatever calls compose the condition. -/
theorem Composed.fielded {p : Predicate} (h : p.Composed) : p.Fielded := by
  have empty : ∀ column connective, (group column connective []).Fielded := fun _ _ =>
    .group (fun _ _ member => nomatch member) (fun _ _ member => nomatch member)
  induction h with
  | comparison c => exact .comparison c
  | start connective => exact empty _ _
  | on column _ ih => exact .group ih.named ih.inside
  | append _ _ group added => exact group.append added
  | setField field _ _ group added => exact group.setField added field
  | clear _ _ => exact empty _ _

/-! ## Members at any depth -/

/-- The predicate is a member at some depth, and all the groups around it have connectives of the
given kind. -/
inductive StandsIn (kind : Connective → Prop) (m : Predicate) : Predicate → Prop
  | member {field column : Option String} {connective : Connective}
      {members : List (Option String × Predicate)} : kind connective → (field, m) ∈ members →
      StandsIn kind m (.group column connective members)
  | deeper {field column : Option String} {connective : Connective} {p : Predicate}
      {members : List (Option String × Predicate)} : kind connective → (field, p) ∈ members →
      StandsIn kind m p → StandsIn kind m (.group column connective members)

/-- The predicate is a member at some depth. -/
abbrev OccursIn (m p : Predicate) : Prop :=
  StandsIn (fun _ => True) m p

/-- The predicate is a member at some depth, with AND and OR groups alone around it. -/
abbrev OpenIn (m p : Predicate) : Prop :=
  StandsIn (fun connective => connective.isBoolean = true) m p

/-- A member at some depth names the column. -/
def Names (p : Predicate) (column : String) : Prop :=
  ∃ m : Predicate, m.OccursIn p ∧ m.column = some column

mutual

/-- **A key that is mentioned is the column of a member.** -/
theorem Fielded.names_of_mentions {key : String} :
    ∀ p : Predicate, p.Fielded → p.mentions key = true → p.Names key
  | .comparison c, _, h => by
    rw [mentions] at h
    cases h
  | .group column connective members, fielded, h => by
    rw [mentions] at h
    cases fielded with
    | group named inside =>
      obtain ⟨field, p, member, names | ⟨m, occurs, names⟩⟩ :=
        names_of_membersMention members named inside h
      · exact ⟨p, .member trivial member, names⟩
      · exact ⟨m, .deeper trivial member occurs, names⟩

theorem Fielded.names_of_membersMention {key : String} :
    ∀ members : List (Option String × Predicate),
      (∀ field p, (some field, p) ∈ members → p.column = some field) →
      (∀ field p, (field, p) ∈ members → p.Fielded) → membersMention key members = true →
      ∃ field p, (field, p) ∈ members ∧ (p.column = some key ∨ p.Names key)
  | [], _, _, h => by
    rw [membersMention] at h
    cases h
  | (field, p) :: rest, named, inside, h => by
    simp only [membersMention, Bool.or_eq_true, beq_iff_eq] at h
    rcases h with ((same | names) | deeper) | later
    · subst same
      exact ⟨some key, p, List.mem_cons_self, .inl (named key p List.mem_cons_self)⟩
    · exact ⟨field, p, List.mem_cons_self, .inl names⟩
    · have fielded := inside field p List.mem_cons_self
      exact ⟨field, p, List.mem_cons_self, .inr (names_of_mentions p fielded deeper)⟩
    · obtain ⟨other, q, member, names⟩ := names_of_membersMention rest
        (fun f q member => named f q (List.mem_cons_of_mem _ member))
        (fun f q member => inside f q (List.mem_cons_of_mem _ member)) later
      exact ⟨other, q, List.mem_cons_of_mem _ member, names⟩

end

end Predicate

end SqlAccess
