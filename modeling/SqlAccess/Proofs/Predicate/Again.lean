import SqlAccess.Predicate.Build
import SqlAccess.Proofs.Predicate.Runs

/-!
# Given text that is rendered again

A leaf that is given as text brings parameters under keys of its own. When it is rendered for the
first time they come to the table, or are there already with the same values; when it is rendered
again they are all there, and nothing is left to do. Whatever has been rendered in between has only
added to the table, under other keys.

Values are the same when they compare equal, as the database compares them, and one value does not
compare equal to itself: the float that is not a number. A leaf with such a parameter is rendered
once, from a table that does not bind the key, and refused from then on, because the table then has
a value that is no longer its own.

`given_text_renders_again` says exactly this of any number of renderings in between, be they of
leaves or groups, successful or not: the leaf is rendered to its text and the table stays as it is,
or it has a parameter that is not a number, and the first of these is refused.
-/

namespace SqlAccess

open Rendering

/-! ## Values that are the same as themselves -/

namespace Value

/-- Is the value a float that is not a number? -/
def isNaN : Value → Bool
  | .float x => x.isNaN
  | _ => false

theorem float_beq_self (x : Float) : (x == x) = !x.isNaN := by
  change x.toModel.unpack.beq x.toModel.unpack = !x.toModel.unpack.isNaN
  cases x.toModel.unpack with
  | infinity sign => cases sign <;> rfl
  | notANumber => rfl
  | zero sign => rfl
  | finite sign mantissa exponent positive =>
    have same : (compare exponent exponent).then (compare mantissa mantissa) = .eq := by
      have exponents : compare exponent exponent = .eq := Std.ReflCmp.compare_self
      have mantissas : compare mantissa mantissa = .eq := Std.ReflCmp.compare_self
      rw [exponents, mantissas]
      rfl
    cases sign with
    | negative =>
      change (some (Ordering.then _ _).swap == some .eq) = true
      rw [same]
      rfl
    | positive =>
      change (some (Ordering.then _ _) == some .eq) = true
      rw [same]
      rfl

theorem float_beq_of_isNaN {x y : Float} (h : y.isNaN = true) : (x == y) = false := by
  change x.toModel.unpack.beq y.toModel.unpack = false
  change y.toModel.unpack.isNaN = true at h
  cases same : y.toModel.unpack with
  | notANumber => cases x.toModel.unpack <;> rfl
  | infinity => rw [same] at h; cases h
  | zero => rw [same] at h; cases h
  | finite => rw [same] at h; cases h

/-- A value is the same as itself unless it is not a number. -/
theorem beq_self (value : Value) : (value == value) = !value.isNaN := by
  cases value with
  | null => rfl
  | bool b => exact beq_self_eq_true b
  | int n => exact beq_self_eq_true n
  | float x => exact float_beq_self x
  | text s => exact beq_self_eq_true s
  | lob bytes => exact beq_self_eq_true bytes.data

/-- No value is the same as one that is not a number. -/
theorem beq_of_isNaN {value other : Value} (h : other.isNaN = true) : (value == other) = false := by
  cases other with
  | float y =>
    cases value with
    | float x => exact float_beq_of_isNaN h
    | _ => rfl
  | _ => cases h

end Value

/-! ## Parameters that are there already -/

/-- The table binds every key, each to the value itself or to one that is the same. What is not a
number is the same as no value, and then the table has it itself. -/
def Params.Holds (t : Params) (bindings : List (String × Value)) : Prop :=
  ∀ binding ∈ bindings, ∃ bound, t.get? binding.1 = some bound ∧
    (bound == binding.2) = !binding.2.isNaN

variable {bindings : List (String × Value)} {t t' : Params}

theorem Params.Holds.mono (holds : t.Holds bindings) (grows : t.GrowsTo t') :
    t'.Holds bindings := by
  intro binding member
  obtain ⟨bound, found, same⟩ := holds binding member
  exact ⟨bound, grows.get? found, same⟩

/-- **Parameters that have been adopted are held.** -/
theorem Rendering.holds_of_adopt (h : Rendering.adopt bindings t = .ok () t') :
    t'.Holds bindings := by
  induction bindings generalizing t with
  | nil => exact fun _ member => nomatch member
  | cons binding rest ih =>
    obtain ⟨key, value⟩ := binding
    rw [Rendering.adopt_cons] at h
    have first : ∃ bound t₁, t₁.get? key = some bound ∧ (bound == value) = !value.isNaN ∧
        Rendering.adopt rest t₁ = .ok () t' := by
      cases found : t.get? key with
      | none =>
        rw [found] at h
        exact ⟨value, t.insert key value, t.get?_insert_self key value, value.beq_self, h⟩
      | some bound =>
        simp only [found] at h
        split at h
        next => cases h
        next same =>
          have same : (bound == value) = true := by simpa [bne] using same
          refine ⟨bound, t, found, ?_, h⟩
          cases number : value.isNaN with
          | false => exact same
          | true => rw [Value.beq_of_isNaN number] at same; cases same
    obtain ⟨bound, t₁, found, same, later⟩ := first
    have grows := (Rendering.lawful_adopt rest).grows_of_ok later
    intro binding member
    rcases List.mem_cons.mp member with rfl | member
    · exact ⟨bound, grows.get? found, same⟩
    · exact ih later binding member

/-- **Parameters that are held stay as they are**, up to the first that is not a number. -/
theorem Rendering.adopt_of_holds (holds : t.Holds bindings) :
    Rendering.adopt bindings t =
      match bindings.find? (·.2.isNaN) with
      | none => .ok () t
      | some (key, _) => .error (.invalidCondition (.parameterRebound key)) t := by
  induction bindings with
  | nil => rfl
  | cons binding rest ih =>
    obtain ⟨key, value⟩ := binding
    obtain ⟨bound, found, same⟩ := holds _ List.mem_cons_self
    have later := ih fun binding member => holds binding (List.mem_cons_of_mem _ member)
    rw [Rendering.adopt_cons, found, List.find?_cons]
    cases number : value.isNaN with
    | true =>
      have differs : (bound != value) = true := by rw [bne, same, number]; rfl
      simp only [differs, if_true]
    | false =>
      have equal : (bound != value) = false := by rw [bne, same, number]; rfl
      simp only [equal, Bool.false_eq_true, if_false]
      exact later

/-! ## Rendering a leaf again -/

namespace Comparison

variable {c : Comparison} {sql : String}

/-- The key of the first parameter that is not a number. -/
def notANumber? (c : Comparison) : Option String :=
  (c.rawParams.entries.find? (·.2.isNaN)).map Prod.fst

/-- Rendered as a condition, a leaf given as text brings its parameters and is its text. -/
theorem render_of_raw (given : c.raw = some sql) (d : Dialect) (inherited : Option String) :
    c.render d inherited = (do Rendering.adopt c.rawParams.entries; return sql) := by
  rw [render, renderRaw, given]
  simp only [bind_assoc, pure_bind]

/-- As an item of a list it does the same. -/
theorem renderItem_of_raw (given : c.raw = some sql) :
    c.renderItem = (do Rendering.adopt c.rawParams.entries; return sql) := by
  rw [renderItem, renderRaw, given]
  simp only [bind_assoc, pure_bind]

end Comparison

/-- A leaf or a group to be rendered, with its dialect and the column around it. -/
structure Rendered where
  dialect : Dialect
  inherited : Option String := none
  predicate : Predicate

/-- The table after a number of renderings, successful or not. -/
def Params.afterAll (t : Params) (renderings : List Rendered) : Params :=
  renderings.foldl (fun t r => (r.predicate.render r.dialect r.inherited).after t) t

theorem Params.growsTo_afterAll (t : Params) (renderings : List Rendered) :
    t.GrowsTo (t.afterAll renderings) := by
  induction renderings generalizing t with
  | nil => exact .refl t
  | cons r rest ih =>
    exact ((r.predicate.render_lawful r.dialect r.inherited).grows t).trans (ih _)

/-- **A leaf given as text, once rendered, goes on to render to its text and to leave the table as
it is, unless it has a parameter that is not a number.** Such a leaf is refused from then on, for
the first of these parameters, and the table is left as it is all the same. -/
theorem given_text_renders_again {c : Comparison} {sql text : String} {d : Dialect}
    {inherited : Option String} (given : c.raw = some sql)
    (first : c.render d inherited t = .ok text t' ∨ c.renderItem t = .ok text t')
    (between : List Rendered) (d' : Dialect) (inherited' : Option String) :
    let again := match c.notANumber? with
      | none => .ok text (t'.afterAll between)
      | some key => .error (.invalidCondition (.parameterRebound key)) (t'.afterAll between)
    c.render d' inherited' (t'.afterAll between) = again ∧
      c.renderItem (t'.afterAll between) = again := by
  rw [c.render_of_raw given, c.renderItem_of_raw given, or_self] at first
  obtain ⟨_, t₁, adopted, answered⟩ := bind_eq_ok.mp first
  obtain ⟨rfl, rfl⟩ := pure_eq_ok.mp answered
  have held := (Rendering.holds_of_adopt adopted).mono (t₁.growsTo_afterAll between)
  have adoptedAgain := Rendering.adopt_of_holds held
  rw [c.render_of_raw given, c.renderItem_of_raw given]
  refine and_self_iff.mpr ?_
  change EStateM.bind (Rendering.adopt _) _ _ = _
  rw [EStateM.bind, adoptedAgain, Comparison.notANumber?]
  cases c.rawParams.entries.find? (·.2.isNaN) <;> rfl

/-- In between, a leaf with the same key is refused and a value is bound. -/
theorem given_text_renders_again_range :
    let c := Comparison.native "x > :low AND x < :high"
      (Params.ofList [("low", .int 1), ("high", .float 2.5)])
    let between : List Rendered :=
      [⟨.mysql, none, .comparison (.native "y = :low" (Params.ofList [("low", .int 2)]))⟩,
        ⟨.mysql, none, .comparison ((Comparison.equal (.int 7)).on "id")⟩]
    let t := Params.ofList [("low", .int 1), ("high", .float 2.5)]
    c.render .mysql none {} = .ok "x > :low AND x < :high" t ∧
      c.render .mysql none (t.afterAll between) =
        .ok "x > :low AND x < :high" (t.afterAll between) ∧
      (t.afterAll between).size = 3 := by
  have first : (Comparison.native "x > :low AND x < :high"
      (Params.ofList [("low", .int 1), ("high", .float 2.5)])).render .mysql none {} =
        .ok "x > :low AND x < :high" (Params.ofList [("low", .int 1), ("high", .float 2.5)]) := rfl
  exact ⟨first, (given_text_renders_again rfl (.inl first) _ .mysql none).1, rfl⟩

/-- A leaf whose parameter is not a number renders once. -/
theorem not_a_number_is_refused_again :
    let c := Comparison.native "x > :low" (Params.ofList [("low", .float (0.0 / 0.0))])
    ∃ t, c.render .mysql none {} = .ok "x > :low" t ∧
      c.render .mysql none t = .error (.invalidCondition (.parameterRebound ":low")) t :=
  ⟨_, rfl, rfl⟩

end SqlAccess
