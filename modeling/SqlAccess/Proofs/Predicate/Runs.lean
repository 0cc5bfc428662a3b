import SqlAccess.Predicate.Render
import SqlAccess.Proofs.Params.Growth

/-!
# Runs of a rendering

A rendering reads and writes the parameter table and may fail. This module says once what each part
of a rendering can do to its table, and how runs of the parts make up a run of the whole.

`Rendering.Within` is the one property that every part has: the table only grows, whether the run
succeeds or fails, and an error is of a given kind. Conditions fail with invalid conditions alone
(`Predicate.render_lawful`); what a statement adds to that are the refusals of writes.

The `_eq_ok` laws read a successful run back into successful runs of its parts.
-/

namespace SqlAccess

namespace Rendering

variable {α β : Type} {t t' : Params}

/-! ## Successful runs -/

/-- A sequence succeeds exactly when its first part does, and then the second. -/
theorem bind_eq_ok {x : Rendering α} {f : α → Rendering β} {b : β} :
    (x >>= f) t = .ok b t' ↔ ∃ a t₁, x t = .ok a t₁ ∧ f a t₁ = .ok b t' := by
  change EStateM.bind x f t = _ ↔ _
  unfold EStateM.bind
  cases x t with
  | ok a t₁ => simp
  | error e t₁ => simp

theorem pure_eq_ok {a b : α} : (pure a : Rendering α) t = .ok b t' ↔ a = b ∧ t = t' := by
  change EStateM.Result.ok a t = _ ↔ _
  simp

theorem bound_eq_ok {value : Value} {key : String} :
    Rendering.bound value t = .ok key t' ↔ key = t.nextKey ∧ t' = (t.push value).2 := by
  change EStateM.Result.ok t.nextKey (t.push value).2 = _ ↔ _
  simp [eq_comm]

theorem fault_ne_ok {fault : ConditionFault} {a : α} :
    (Rendering.fault fault : Rendering α) t ≠ .ok a t' := by
  intro h
  cases h

/-! ## What every part keeps -/

/-- The table that a run leaves, be it a success or a failure. -/
def after (x : Rendering α) (t : Params) : Params :=
  match x t with
  | .ok _ t' => t'
  | .error _ t' => t'

/-- From every table the rendering only adds entries under new keys, also when it fails, and it
fails only with errors of the given kind. -/
structure Within (kind : Error → Prop) (x : Rendering α) : Prop where
  grows : ∀ t : Params, t.GrowsTo (x.after t)
  fails : ∀ {t e t'}, x t = .error e t' → kind e

variable {kind : Error → Prop}

theorem Within.mono {kind' : Error → Prop} {x : Rendering α} (h : x.Within kind)
    (weaker : ∀ e, kind e → kind' e) : x.Within kind' :=
  ⟨h.grows, fun failed => weaker _ (h.fails failed)⟩

/-- A successful run only adds to its table. -/
theorem Within.grows_of_ok {x : Rendering α} (h : x.Within kind) {a : α} (ok : x t = .ok a t') :
    t.GrowsTo t' := by
  have grows := h.grows t
  rwa [after, ok] at grows

theorem Within.pure (a : α) : (pure a : Rendering α).Within kind :=
  ⟨fun t => .refl t, fun failed => nomatch failed⟩

theorem Within.throw {e : Error} (h : kind e) : (throw e : Rendering α).Within kind := by
  refine ⟨fun t => .refl t, fun failed => ?_⟩
  cases failed
  exact h

theorem Within.bound (value : Value) : (Rendering.bound value).Within kind :=
  ⟨fun t => t.growsTo_push value, fun failed => nomatch failed⟩

theorem Within.bind {x : Rendering α} {f : α → Rendering β} (first : x.Within kind)
    (second : ∀ a, (f a).Within kind) : (x >>= f).Within kind := by
  constructor
  · intro t
    have early := first.grows t
    change t.GrowsTo (after (EStateM.bind x f) t)
    unfold after EStateM.bind at *
    cases run : x t with
    | ok a t₁ =>
      rw [run] at early
      have late := (second a).grows t₁
      unfold after at late
      exact early.trans late
    | error e t₁ =>
      rw [run] at early
      exact early
  · intro t e t' failed
    change EStateM.bind x f t = _ at failed
    unfold EStateM.bind at failed
    cases run : x t with
    | ok a t₁ => rw [run] at failed; exact (second a).fails failed
    | error e₁ t₁ => rw [run] at failed; cases failed; exact first.fails run

end Rendering

/-- Is the error one of a condition or a statement that cannot be rendered as it is given? -/
def Error.IsInvalidCondition (e : Error) : Prop :=
  ∃ fault, e = .invalidCondition fault

/-- Conditions, and the parts of statements that bind values, fail with invalid conditions only. -/
abbrev Rendering.Lawful {α : Type} (x : Rendering α) : Prop :=
  x.Within Error.IsInvalidCondition

theorem Rendering.lawful_fault {α : Type} (fault : ConditionFault) :
    (Rendering.fault fault : Rendering α).Lawful :=
  Rendering.Within.throw ⟨fault, rfl⟩

/-- What adopting one binding comes to: a key that stands for another value is refused, one that
stands for the value already is left, and one that stands for nothing is written. -/
theorem Rendering.adopt_cons (key : String) (value : Value) (rest : List (String × Value))
    (t : Params) : Rendering.adopt ((key, value) :: rest) t =
      match t.get? key with
      | some bound =>
        if bound != value then .error (.invalidCondition (.parameterRebound key)) t
        else Rendering.adopt rest t
      | none => Rendering.adopt rest (t.insert key value) := by
  have looks : ∀ next : Params → Rendering Unit, (get >>= next) t = next t t := fun _ => rfl
  rw [Rendering.adopt, looks]
  cases t.get? key with
  | none => rfl
  | some bound =>
    dsimp only
    split <;> rfl

/-- Parameters that a text brings along are looked up before they are written, so that none takes
the place of what is bound already. -/
theorem Rendering.lawful_adopt (bindings : List (String × Value)) :
    (Rendering.adopt bindings).Lawful := by
  induction bindings with
  | nil => exact Rendering.Within.pure ()
  | cons binding rest ih =>
    obtain ⟨key, value⟩ := binding
    constructor
    · intro t
      unfold Rendering.after
      rw [Rendering.adopt_cons]
      cases found : t.get? key with
      | none => exact (Params.growsTo_insert value found).trans (ih.grows _)
      | some bound =>
        by_cases clash : (bound != value) = true
        · simp only [if_pos clash]
          exact .refl t
        · simp only [if_neg clash]
          exact ih.grows t
    · intro t e t' failed
      rw [Rendering.adopt_cons] at failed
      split at failed
      · split at failed
        · cases failed
          exact ⟨_, rfl⟩
        · exact ih.fails failed
      · exact ih.fails failed

/-! ## Conditions -/

theorem Comparison.renderRaw_lawful (c : Comparison) : c.renderRaw.Lawful := by
  unfold renderRaw
  split
  · exact Rendering.Within.pure none
  · exact (Rendering.lawful_adopt _).bind fun _ => Rendering.Within.pure _

theorem Comparison.render_lawful (d : Dialect) (inherited : Option String) (c : Comparison) :
    (c.render d inherited).Lawful := by
  refine c.renderRaw_lawful.bind fun raw => ?_
  split
  · exact Rendering.Within.pure _
  · split
    · exact Rendering.lawful_fault _
    · split
      · exact Rendering.Within.pure _
      · exact (Rendering.Within.bound _).bind fun _ => Rendering.Within.pure _

theorem Comparison.renderItem_lawful (c : Comparison) : c.renderItem.Lawful := by
  refine c.renderRaw_lawful.bind fun raw => ?_
  split
  · exact Rendering.Within.pure _
  · exact Rendering.Within.bound _

namespace Predicate

theorem renderItems_lawful (connective : Connective) (column : String)
    (members : List (Option String × Predicate)) :
    (renderItems connective column members).Lawful := by
  induction members with
  | nil => exact Rendering.Within.pure []
  | cons member rest ih =>
    obtain ⟨field, c | ⟨_, _, _⟩⟩ := member
    · exact c.renderItem_lawful.bind fun _ => ih.bind fun _ => Rendering.Within.pure _
    · exact Rendering.lawful_fault _

theorem renderList_lawful (d : Dialect) (connective : Connective) (column : Option String)
    (members : List (Option String × Predicate)) :
    (renderList d connective column members).Lawful := by
  unfold renderList
  split
  · exact Rendering.lawful_fault _
  · split
    · exact Rendering.lawful_fault _
    · exact (renderItems_lawful _ _ _).bind fun _ => Rendering.Within.pure _

mutual

/-- **Rendering a condition only adds to the table**, and fails with invalid conditions only. -/
theorem render_lawful (d : Dialect) :
    ∀ (inherited : Option String) (p : Predicate), (p.render d inherited).Lawful
  | inherited, .comparison c => by
    rw [render]
    exact c.render_lawful d inherited
  | inherited, .group column connective members => by
    rw [render]
    split
    · exact (renderMembers_lawful d (column.or inherited) members).bind fun _ =>
        Rendering.Within.pure _
    · exact renderList_lawful d connective _ members

theorem renderMembers_lawful (d : Dialect) :
    ∀ (inherited : Option String) (members : List (Option String × Predicate)),
      (renderMembers d inherited members).Lawful
  | _, [] => Rendering.Within.pure []
  | inherited, (_, p) :: rest => by
    rw [renderMembers]
    exact (render_lawful d inherited p).bind fun _ =>
      (renderMembers_lawful d inherited rest).bind fun _ => Rendering.Within.pure _

end

end Predicate

/-! ## Successful renderings -/

section

variable {d : Dialect} {inherited : Option String} {t t' : Params}

open Rendering

/-- A leaf given as text renders to that text; any other has a column, and renders to a test for
null or binds its value. -/
theorem Comparison.render_eq_ok {c : Comparison} {sql : String}
    (h : c.render d inherited t = .ok sql t') :
    c.raw = some sql ∨ c.raw = none ∧ ∃ column, c.column.or inherited = some column ∧
      (c.value.isNull = true ∧ sql = nullTest (d.identifier column) c.operator ∧ t = t' ∨
        c.value.isNull = false ∧ t' = (t.push c.value).2 ∧
          sql = d.identifier column ++ " " ++ c.operator.sql ++ " " ++ t.nextKey) := by
  obtain ⟨raw, t₁, run, h⟩ := bind_eq_ok.mp h
  unfold renderRaw at run
  cases given : c.raw with
  | some text =>
    rw [given] at run
    obtain ⟨_, t₂, -, run⟩ := bind_eq_ok.mp run
    obtain ⟨rfl, -⟩ := pure_eq_ok.mp run
    obtain ⟨rfl, -⟩ := pure_eq_ok.mp h
    exact .inl rfl
  | none =>
    rw [given] at run
    obtain ⟨rfl, rfl⟩ := pure_eq_ok.mp run
    refine .inr ⟨rfl, ?_⟩
    cases resolved : c.column.or inherited with
    | none =>
      simp only [resolved] at h
      exact absurd h fault_ne_ok
    | some column =>
      simp only [resolved] at h
      refine ⟨column, rfl, ?_⟩
      cases null : c.value.isNull with
      | true =>
        simp only [null, if_true] at h
        obtain ⟨rfl, rfl⟩ := pure_eq_ok.mp h
        exact .inl ⟨rfl, rfl, rfl⟩
      | false =>
        simp only [null, Bool.false_eq_true, if_false] at h
        obtain ⟨key, t₂, bind, h⟩ := bind_eq_ok.mp h
        obtain ⟨rfl, rfl⟩ := bound_eq_ok.mp bind
        obtain ⟨rfl, rfl⟩ := pure_eq_ok.mp h
        exact .inr ⟨rfl, rfl, rfl⟩

/-- An item of a list that is not given as text binds its value. -/
theorem Comparison.renderItem_eq_ok {c : Comparison} {item : String} (plain : c.raw = none)
    (h : c.renderItem t = .ok item t') : item = t.nextKey ∧ t' = (t.push c.value).2 := by
  obtain ⟨raw, t₁, run, h⟩ := bind_eq_ok.mp h
  unfold renderRaw at run
  rw [plain] at run
  obtain ⟨rfl, rfl⟩ := pure_eq_ok.mp run
  exact bound_eq_ok.mp h

namespace Predicate

variable {column : Option String} {connective : Connective}
  {members : List (Option String × Predicate)}

theorem placed_comparison (c : Comparison) (sql : String) :
    (comparison c).placed sql = if Text.blank sql then none else some sql := rfl

theorem placed_group (sql : String) : (group column connective members).placed sql =
    if sql.isEmpty then none
    else if connective.isBoolean then some ("( " ++ sql ++ " )") else some sql := rfl

/-- Only lists of leaves render as items. -/
theorem renderItems_cons_eq_ok {name : String} {member : Option String × Predicate}
    {items : List String} (h : renderItems connective name (member :: members) t = .ok items t') :
    ∃ c item t₁ others, member.2 = .comparison c ∧ c.renderItem t = .ok item t₁ ∧
      renderItems connective name members t₁ = .ok others t' ∧ items = item :: others := by
  obtain ⟨field, c | ⟨_, _, _⟩⟩ := member
  · obtain ⟨item, t₁, run, h⟩ := bind_eq_ok.mp h
    obtain ⟨others, t₂, rest, h⟩ := bind_eq_ok.mp h
    obtain ⟨rfl, rfl⟩ := pure_eq_ok.mp h
    exact ⟨c, item, t₁, others, rfl, run, rest, rfl⟩
  · exact absurd h fault_ne_ok

/-- **The items of a list are those of its leaves**, each rendered to a table that has only grown
since. -/
theorem itemRuns_of_renderItems {name : String} {items : List String}
    (h : renderItems connective name members t = .ok items t') :
    List.Forall₂ (fun member item => ∃ c s s', member.2 = .comparison c ∧
      c.renderItem s = .ok item s' ∧ s'.GrowsTo t') members items := by
  induction members generalizing t items with
  | nil =>
    obtain ⟨rfl, -⟩ := pure_eq_ok.mp h
    exact .nil
  | cons member members ih =>
    obtain ⟨c, item, t₁, others, leaf, run, rest, rfl⟩ := renderItems_cons_eq_ok h
    have grows := (renderItems_lawful connective name members).grows_of_ok rest
    exact .cons ⟨c, t, t₁, leaf, run, grows⟩ (ih rest)

/-- A list has a column and at least one item. -/
theorem renderList_eq_ok {sql : String}
    (h : renderList d connective column members t = .ok sql t') :
    ∃ name items, column = some name ∧ members ≠ [] ∧
      renderItems connective name members t = .ok items t' ∧
      sql =
        d.identifier name ++ " " ++ connective.sql ++ " (" ++ Text.joined ", " items ++ ")" := by
  unfold renderList at h
  cases column with
  | none => exact absurd h fault_ne_ok
  | some name =>
    cases members with
    | nil => exact absurd h fault_ne_ok
    | cons member members =>
      obtain ⟨items, t₁, run, h⟩ := bind_eq_ok.mp h
      obtain ⟨rfl, rfl⟩ := pure_eq_ok.mp h
      exact ⟨name, items, rfl, List.cons_ne_nil _ _, run, rfl⟩

/-- A group under a Boolean connective joins the texts of its members. -/
theorem render_boolean_eq_ok {sql : String} (boolean : connective.isBoolean = true)
    (h : (group column connective members).render d inherited t = .ok sql t') :
    ∃ parts, renderMembers d (column.or inherited) members t = .ok parts t' ∧
      sql = Text.joined (" " ++ connective.sql ++ " ") parts := by
  rw [render, if_pos boolean] at h
  obtain ⟨parts, t₁, run, h⟩ := bind_eq_ok.mp h
  obtain ⟨rfl, rfl⟩ := pure_eq_ok.mp h
  exact ⟨parts, run, rfl⟩

/-- A group under any other connective is a list of values. -/
theorem render_listing_eq {inherited : Option String} (listing : connective.isBoolean = false) :
    (group column connective members).render d inherited =
      renderList d connective (column.or inherited) members := by
  rw [render, listing]
  rfl

/-- The texts of the members, from left to right, less those that say nothing. -/
theorem renderMembers_cons_eq_ok {member : Option String × Predicate} {parts : List String}
    (h : renderMembers d inherited (member :: members) t = .ok parts t') :
    ∃ sql t₁ others, member.2.render d inherited t = .ok sql t₁ ∧
      renderMembers d inherited members t₁ = .ok others t' ∧
      parts = (member.2.placed sql).toList ++ others := by
  obtain ⟨field, p⟩ := member
  rw [renderMembers] at h
  obtain ⟨sql, t₁, run, h⟩ := bind_eq_ok.mp h
  obtain ⟨others, t₂, rest, h⟩ := bind_eq_ok.mp h
  obtain ⟨rfl, rfl⟩ := pure_eq_ok.mp h
  exact ⟨sql, t₁, others, run, rest, rfl⟩

end Predicate

end

end SqlAccess
