import SqlAccess.Proofs.Predicate.Tested

/-!
# Members and the columns around them

A member of a condition takes its column from the nearest group around it that names one, if it names
none itself. `Predicate.Reached` tells the groups around a member by their columns, as long as AND
and OR groups alone are around it, and `nearest` is the column that such a member is rendered for
(`Predicate.Reached.render`).

Looking for a key goes the other way, from the root down, and knows nothing of columns that are taken
from a group around. It finds them all the same: the group that a column is taken from names it
(`Predicate.Reached.mentions`).
-/

namespace SqlAccess

open Text

namespace Predicate

/-- The predicate is reached in another through AND and OR groups alone, which name the given
columns, the outermost first. -/
inductive Reached (m : Predicate) : List (Option String) → Predicate → Prop
  | here : Reached m [] m
  | within {field column : Option String} {connective : Connective} {p : Predicate}
      {members : List (Option String × Predicate)} {above : List (Option String)} :
      connective.isBoolean = true → (field, p) ∈ members → Reached m above p →
      Reached m (column :: above) (.group column connective members)

/-- The column of the nearest group that names one, of groups with the given columns around each
other, the outermost first. -/
def nearest : List (Option String) → Option String
  | [] => none
  | column :: inner => (nearest inner).or column

variable {m p : Predicate} {above : List (Option String)}

/-! ## What a member is rendered for -/

/-- **A member is rendered for the nearest column around it**, and what it says is an operand of the
whole. -/
theorem Reached.render {d : Dialect} {inherited : Option String} {t t' : Params} {sql : String}
    (h : m.Reached above p) (rendered : p.render d inherited t = .ok sql t') :
    ∃ fragment t₁ t₂, m.render d ((nearest above).or inherited) t₁ = .ok fragment t₂ ∧
      t₂.GrowsTo t' ∧ (blank fragment = false → OperandOf fragment sql) := by
  induction h generalizing inherited t t' sql with
  | here => exact ⟨sql, t, t', rendered, .refl t', fun _ => .whole⟩
  | within boolean member _ ih =>
    obtain ⟨sql', s, s', run, grows, inside⟩ := operandOf_group boolean member rendered
    obtain ⟨fragment, t₁, t₂, run', grows', operand⟩ := ih run
    refine ⟨fragment, t₁, t₂, ?_, grows'.trans grows, fun visible => ?_⟩
    · rwa [nearest, Option.or_assoc]
    · exact inside fragment visible (operand visible)

/-! ## What the look for a key finds -/

theorem membersMention_of_mem {key : String} {field : Option String}
    {members : List (Option String × Predicate)} (member : (field, p) ∈ members)
    (h : p.column = some key ∨ p.mentions key = true) : membersMention key members = true := by
  induction members with
  | nil => cases member
  | cons first rest ih =>
    obtain ⟨other, q⟩ := first
    simp only [membersMention, Bool.or_eq_true, beq_iff_eq]
    rcases List.mem_cons.mp member with same | later
    · cases same
      rcases h with names | deeper
      · exact .inl (.inl (.inr names))
      · exact .inl (.inr deeper)
    · exact .inr (ih later)

/-- **The column that a member comes to is found**, at the root itself or below it. -/
theorem Reached.mentions {key : String} (h : m.Reached above p)
    (resolved : m.column.or (nearest above) = some key) :
    p.column = some key ∨ p.mentions key = true := by
  induction h with
  | here =>
    rw [nearest, Option.or_none] at resolved
    exact .inl resolved
  | @within field column connective p members above boolean member reached ih =>
    rw [nearest, ← Option.or_assoc] at resolved
    rcases Option.or_eq_some_iff.mp resolved with inner | ⟨-, outer⟩
    · refine .inr ?_
      rw [Predicate.mentions]
      exact membersMention_of_mem member (ih inner)
    · exact .inl outer

end Predicate

end SqlAccess
