import SqlAccess.Proofs.Predicate.Reached

/-!
# Conditions that cannot be rendered

A part of a condition is a *misfit* if no statement can be made of it where it stands: a comparison
or a list for which no column is named, neither by itself nor around it; a list without items; a list
with a group among its items. Text that is given in place of a comparison is never one.

Parameters that given texts bring along apart, nothing else fails. `conditions_fail_at_misfits` says
that a condition whose texts bring none is rendered, from whatever table, unless a misfit is reached
in it through AND and OR groups. What stands around a list of values does not matter to its items:
they are rendered without a column, so only groups among them are misplaced.
-/

namespace SqlAccess

/-! ## Renderings that always succeed, or never do -/

namespace Rendering

variable {α β : Type} {x : Rendering α} {f : α → Rendering β}

/-- The rendering succeeds, whatever the table. -/
def Total (x : Rendering α) : Prop :=
  ∀ t, ∃ a t', x t = .ok a t'

/-- The rendering fails, whatever the table. -/
def Refused (x : Rendering α) : Prop :=
  ∀ t, ∃ e t', x t = .error e t'

theorem Total.pure (a : α) : (pure a : Rendering α).Total :=
  fun t => ⟨a, t, rfl⟩

theorem Total.bound (value : Value) : (Rendering.bound value).Total :=
  fun t => ⟨t.nextKey, (t.push value).2, rfl⟩

theorem Total.bind (first : x.Total) (second : ∀ a, (f a).Total) : (x >>= f).Total := by
  intro t
  obtain ⟨a, t₁, run⟩ := first t
  obtain ⟨b, t₂, rest⟩ := second a t₁
  exact ⟨b, t₂, bind_eq_ok.mpr ⟨a, t₁, run, rest⟩⟩

theorem refused_fault (fault : ConditionFault) : (Rendering.fault fault : Rendering α).Refused :=
  fun t => ⟨_, t, rfl⟩

/-- What is refused first stays refused. -/
theorem Refused.bind (first : x.Refused) : (x >>= f).Refused := by
  intro t
  obtain ⟨e, t₁, run⟩ := first t
  refine ⟨e, t₁, ?_⟩
  change EStateM.bind x f t = _
  rw [EStateM.bind, run]

/-- What is refused in the end is refused, whether or not it comes that far. -/
theorem refused_bind (second : ∀ a, (f a).Refused) : (x >>= f).Refused := by
  intro t
  change ∃ e t', EStateM.bind x f t = .error e t'
  unfold EStateM.bind
  cases x t with
  | ok a t₁ => exact second a t₁
  | error e t₁ => exact ⟨e, t₁, rfl⟩

end Rendering

open Rendering

/-! ## Leaves -/

namespace Comparison

variable {c : Comparison} {d : Dialect} {inherited : Option String}

/-- Text that brings no parameters is taken as it is. -/
theorem renderRaw_eq (bare : c.rawParams.entries = []) : c.renderRaw = pure c.raw := by
  unfold renderRaw
  cases c.raw with
  | none => rfl
  | some sql =>
    rw [bare]
    rfl

theorem total_render (bare : c.rawParams.entries = [])
    (fits : c.raw = none → c.column.or inherited ≠ none) : (c.render d inherited).Total := by
  rw [render, renderRaw_eq bare, pure_bind]
  cases given : c.raw with
  | some sql => exact .pure sql
  | none =>
    obtain ⟨column, resolved⟩ := Option.ne_none_iff_exists'.mp (fits given)
    simp only [resolved]
    split
    · exact .pure _
    · exact (Total.bound _).bind fun _ => .pure _

theorem refused_render (plain : c.raw = none) (unnamed : c.column.or inherited = none) :
    (c.render d inherited).Refused := by
  rw [render, renderRaw, plain, unnamed]
  exact refused_fault _

theorem total_renderItem (bare : c.rawParams.entries = []) : c.renderItem.Total := by
  rw [renderItem, renderRaw_eq bare, pure_bind]
  cases c.raw with
  | some sql => exact .pure sql
  | none => exact .bound c.value

end Comparison

namespace Predicate

/-! ## Misfits -/

/-- No text that is given in the condition, at any depth, brings parameters along. -/
inductive WithoutParams : Predicate → Prop
  | comparison {c : Comparison} : c.rawParams.entries = [] → WithoutParams (.comparison c)
  | group {column : Option String} {connective : Connective}
      {members : List (Option String × Predicate)} :
      (∀ field p, (field, p) ∈ members → WithoutParams p) →
      WithoutParams (.group column connective members)

/-- Can no statement be made of the predicate, where it stands in groups with the given columns? -/
inductive Misfit (above : List (Option String)) : Predicate → Prop
  /-- A comparison that is not given as text and has no column. -/
  | comparison {c : Comparison} : c.raw = none → c.column = none →
      (∀ column ∈ above, column = none) → Misfit above (.comparison c)
  /-- A list that has no column. -/
  | unnamed {connective : Connective} {members : List (Option String × Predicate)} :
      connective.isBoolean = false → (∀ column ∈ above, column = none) →
      Misfit above (.group none connective members)
  /-- A list without items. -/
  | empty {column : Option String} {connective : Connective} : connective.isBoolean = false →
      Misfit above (.group column connective [])
  /-- A list with a group among its items. -/
  | nested {column field inner : Option String} {connective connective' : Connective}
      {members members' : List (Option String × Predicate)} : connective.isBoolean = false →
      (field, .group inner connective' members') ∈ members →
      Misfit above (.group column connective members)

variable {d : Dialect} {inherited : Option String} {m p : Predicate}
  {members : List (Option String × Predicate)} {above : List (Option String)}

theorem Misfit.congr {above' : List (Option String)}
    (same : (∀ column ∈ above, column = none) ↔ ∀ column ∈ above', column = none)
    (h : m.Misfit above) : m.Misfit above' := by
  cases h with
  | comparison plain own unnamed => exact .comparison plain own (same.mp unnamed)
  | unnamed listing unnamed => exact .unnamed listing (same.mp unnamed)
  | empty listing => exact .empty listing
  | nested listing member => exact .nested listing member

/-- An inherited column counts as that of one more group around. -/
theorem misfit_inherited_iff {column : Option String} :
    m.Misfit (inherited :: column :: above) ↔ m.Misfit (column.or inherited :: above) := by
  have same : (∀ name ∈ inherited :: column :: above, name = none) ↔
      ∀ name ∈ column.or inherited :: above, name = none := by
    simp only [List.forall_mem_cons, Option.or_eq_none_iff]
    tauto
  exact ⟨Misfit.congr same, Misfit.congr same.symm⟩

/-! ## A misfit is refused -/

theorem refused_renderItems {connective connective' : Connective} {column : String}
    {field inner : Option String} {members' : List (Option String × Predicate)}
    (member : (field, .group inner connective' members') ∈ members) :
    (renderItems connective column members).Refused := by
  induction members with
  | nil => cases member
  | cons first rest ih =>
    obtain ⟨other, c | ⟨_, _, _⟩⟩ := first
    -- An item in front of the group may fail by itself, with the parameters of its text.
    · rcases List.mem_cons.mp member with same | later
      · cases same
      · exact refused_bind fun _ => (ih later).bind
    · exact refused_fault _

theorem refused_renderList {connective : Connective} {column : Option String}
    (items : ∀ name, (renderItems connective name members).Refused ∨ members = []) :
    (renderList d connective column members).Refused := by
  unfold renderList
  cases column with
  | none => exact refused_fault _
  | some name =>
    cases empty : members.isEmpty with
    | true => exact refused_fault _
    | false =>
      rcases items name with refused | none
      · exact refused.bind
      · rw [none] at empty
        cases empty

/-- Where a misfit stands, nothing is rendered. -/
theorem Misfit.refused (h : m.Misfit [inherited]) : (m.render d inherited).Refused := by
  cases h with
  | comparison plain own unnamed =>
    rw [render]
    refine Comparison.refused_render plain ?_
    rw [own, unnamed inherited List.mem_cons_self]
    rfl
  | unnamed listing unnamed =>
    rw [render_listing_eq listing, unnamed inherited List.mem_cons_self]
    exact refused_fault _
  | empty listing =>
    rw [render_listing_eq listing]
    exact refused_renderList fun _ => .inr rfl
  | nested listing member =>
    rw [render_listing_eq listing]
    exact refused_renderList fun _ => .inl (refused_renderItems member)

theorem refused_renderMembers {field : Option String} (member : (field, p) ∈ members)
    (refused : (p.render d inherited).Refused) : (renderMembers d inherited members).Refused := by
  induction members with
  | nil => cases member
  | cons first rest ih =>
    rw [renderMembers]
    rcases List.mem_cons.mp member with same | later
    · cases same
      exact refused.bind
    · exact refused_bind fun _ => (ih later).bind

/-- **A misfit that is reached is refused with the whole.** -/
theorem Reached.refused (h : m.Reached above p) (misfit : m.Misfit (inherited :: above)) :
    (p.render d inherited).Refused := by
  induction h generalizing inherited with
  | here => exact misfit.refused
  | within boolean member _ ih =>
    rw [Predicate.render, if_pos boolean]
    exact (refused_renderMembers member (ih (misfit_inherited_iff.mp misfit))).bind

/-! ## Nothing else is refused -/

theorem total_renderItems {connective : Connective} {column : String}
    (bare : ∀ field p, (field, p) ∈ members → p.WithoutParams)
    (leaves : ∀ field p, (field, p) ∈ members → ∃ c, p = .comparison c) :
    (renderItems connective column members).Total := by
  induction members with
  | nil => exact .pure []
  | cons first rest ih =>
    obtain ⟨field, p⟩ := first
    obtain ⟨c, rfl⟩ := leaves field p List.mem_cons_self
    have item : c.renderItem.Total := by
      cases bare field _ List.mem_cons_self with
      | comparison none => exact Comparison.total_renderItem none
    have items := ih (fun field p member => bare field p (List.mem_cons_of_mem _ member))
      (fun field p member => leaves field p (List.mem_cons_of_mem _ member))
    exact item.bind fun _ => items.bind fun _ => .pure _

theorem total_renderList {connective : Connective} {column : Option String}
    (listing : connective.isBoolean = false)
    (bare : ∀ field p, (field, p) ∈ members → p.WithoutParams)
    (fits : ¬ Misfit [inherited] (.group column connective members)) :
    (renderList d connective (column.or inherited) members).Total := by
  have leaves : ∀ field p, (field, p) ∈ members → ∃ c, p = .comparison c := by
    intro field p member
    cases p with
    | comparison c => exact ⟨c, rfl⟩
    | group inner connective' members' => exact absurd (.nested listing member) fits
  have filled : members.isEmpty = false := by
    cases members with
    | nil => exact absurd (.empty listing) fits
    | cons member members => rfl
  cases resolved : column.or inherited with
  | none =>
    obtain ⟨rfl, rfl⟩ := Option.or_eq_none_iff.mp resolved
    exact absurd (.unnamed listing (by simp)) fits
  | some name =>
    rw [renderList, filled, if_neg Bool.false_ne_true]
    exact (total_renderItems bare leaves).bind fun _ => .pure _

mutual

/-- **Without misfits, everything is rendered.** -/
theorem total_render (d : Dialect) : ∀ (inherited : Option String) (p : Predicate),
    p.WithoutParams → (∀ m above, Reached m above p → ¬ Misfit (inherited :: above) m) →
    (p.render d inherited).Total
  | inherited, .comparison c, bare, fits => by
    rw [render]
    cases bare with
    | comparison none =>
      refine Comparison.total_render none fun plain unnamed => fits _ _ .here ?_
      obtain ⟨own, around⟩ := Option.or_eq_none_iff.mp unnamed
      exact .comparison plain own (by simp [around])
  | inherited, .group column connective members, bare, fits => by
    cases bare with
    | group bare =>
      cases boolean : connective.isBoolean with
      | true =>
        rw [render, if_pos boolean]
        refine (total_renderMembers d (column.or inherited) members bare ?_).bind fun _ => .pure _
        intro field p member m above reached misfit
        exact fits m _ (.within boolean member reached) (misfit_inherited_iff.mpr misfit)
      | false =>
        rw [render_listing_eq boolean]
        exact total_renderList boolean bare (fits _ _ .here)

theorem total_renderMembers (d : Dialect) : ∀ (inherited : Option String)
    (members : List (Option String × Predicate)),
    (∀ field p, (field, p) ∈ members → p.WithoutParams) →
    (∀ field p, (field, p) ∈ members → ∀ m above, Reached m above p →
      ¬ Misfit (inherited :: above) m) →
    (renderMembers d inherited members).Total
  | inherited, [], _, _ => .pure []
  | inherited, (field, p) :: rest, bare, fits => by
    rw [renderMembers]
    have first := total_render d inherited p (bare field p List.mem_cons_self)
      (fits field p List.mem_cons_self)
    have others := total_renderMembers d inherited rest
      (fun field p member => bare field p (List.mem_cons_of_mem _ member))
      (fun field p member => fits field p (List.mem_cons_of_mem _ member))
    exact first.bind fun _ => others.bind fun _ => .pure _

end

/-- The root of a condition inherits no column. -/
theorem misfit_root_iff : m.Misfit (none :: above) ↔ m.Misfit above := by
  have same : (∀ name ∈ none :: above, name = none) ↔ ∀ name ∈ above, name = none := by
    rw [List.forall_mem_cons]
    exact ⟨And.right, fun unnamed => ⟨rfl, unnamed⟩⟩
  exact ⟨Misfit.congr same, Misfit.congr same.symm⟩

end Predicate

open Predicate in
/-- **A condition fails at its misfits, and nowhere else.** Of any condition whose given texts bring
no parameters, in any dialect and from any table: rendering fails exactly if a misfit is reached in
it through AND and OR groups, and the error is always that of an invalid condition. -/
theorem conditions_fail_at_misfits (g : Group) (bare : (ofGroup g).WithoutParams) (d : Dialect)
    (t : Params) :
    ((∃ e t', g.render d t = .error e t') ↔
      ∃ m above, Reached m above (ofGroup g) ∧ Misfit above m) ∧
    ∀ e t', g.render d t = .error e t' → e.IsInvalidCondition := by
  refine ⟨⟨?_, ?_⟩, fun e t' => (render_lawful d none (ofGroup g)).fails⟩
  · rintro ⟨e, t', failed⟩
    -- Without a misfit the rendering succeeds from this table too, so it did not fail.
    by_contra fits
    obtain ⟨sql, t₁, rendered⟩ := total_render d none (ofGroup g) bare
      (fun m above reached misfit => fits ⟨m, above, reached, misfit_root_iff.mp misfit⟩) t
    cases failed.symm.trans rendered
  · rintro ⟨m, above, reached, misfit⟩
    exact reached.refused (misfit_root_iff.mpr misfit) t

/-- Administrators, and users of no role at all; the column is named two groups further up. -/
def Group.ofNoRole : Group :=
  (Group.of .all).append (((Group.of .any).on "role").append
    (((Group.of .all).append (Comparison.equal (.text "admin"))).append (Group.of .among)))

open Predicate in
/-- The comparison takes the column that is named above it, and so does the list beside it, which is
a misfit all the same: it has no items. -/
theorem conditions_fail_at_misfits_without_items :
    (ofGroup Group.ofNoRole).WithoutParams ∧
    (∃ m above, Reached m above (ofGroup Group.ofNoRole) ∧ Misfit above m) ∧
    ∃ e t', Group.ofNoRole.render .mysql {} = .error e t' ∧ e.IsInvalidCondition := by
  have bare : (ofGroup Group.ofNoRole).WithoutParams := by
    refine .group fun _ _ member => ?_
    cases List.mem_singleton.mp member
    refine .group fun _ _ member => ?_
    cases List.mem_singleton.mp member
    refine .group fun _ _ member => ?_
    rcases List.mem_cons.mp member with same | member
    · cases same
      exact .comparison rfl
    · cases List.mem_singleton.mp member
      exact .group fun _ _ member => nomatch member
  have misfit : ∃ m above, Reached m above (ofGroup Group.ofNoRole) ∧ Misfit above m := by
    have inner : Reached (ofGroup (Group.of .among)) [none]
        (.group none .all [(none, .comparison (.equal (.text "admin"))),
          (none, ofGroup (Group.of .among))]) :=
      .within rfl (List.mem_cons_of_mem _ List.mem_cons_self) .here
    exact ⟨_, _, .within rfl List.mem_cons_self (.within rfl List.mem_cons_self inner), .empty rfl⟩
  have fails := conditions_fail_at_misfits Group.ofNoRole bare .mysql {}
  obtain ⟨e, t', failed⟩ := fails.1.mpr misfit
  exact ⟨bare, misfit, e, t', failed, fails.2 e t' failed⟩

end SqlAccess
