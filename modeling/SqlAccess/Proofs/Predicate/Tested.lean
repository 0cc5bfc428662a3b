import SqlAccess.Proofs.Predicate.Composed
import SqlAccess.Proofs.Predicate.Emptiness
import SqlAccess.Proofs.Text.Cut

/-!
# Columns that are tested

The text of a condition has operands: what AND and OR join, and what stands between parentheses, at
any depth. A member of the tree that says something is such an operand of the text
(`Predicate.StandsIn.operandOf`), so what it says is in the text, whatever is around it.

A member *uses* the column that it names if naming it comes to something. A member that does has a
test of that column among its operands, or it is a leaf that was given as text in place of one
(`Predicate.UsesColumn.render`).
-/

namespace SqlAccess

open Rendering Text

/-! ## Operands of a text -/

/-- The fragment is the whole text, or an operand of what AND or OR joins, or of what parentheses
enclose. -/
inductive OperandOf (fragment : String) : String → Prop
  | whole : OperandOf fragment fragment
  | joined {connective : Connective} {part : String} {parts : List String} :
      connective.isBoolean = true → part ∈ parts → OperandOf fragment part →
      OperandOf fragment (Text.joined (" " ++ connective.sql ++ " ") parts)
  | enclosed {text : String} : OperandOf fragment text → OperandOf fragment ("( " ++ text ++ " )")

namespace OperandOf

variable {fragment text : String}

/-- An operand is a piece of the text. -/
theorem isInfix (h : OperandOf fragment text) : fragment.toList <:+: text.toList := by
  induction h with
  | whole => exact List.infix_rfl
  | joined _ member _ ih => exact ih.trans (infix_joined member)
  | enclosed _ ih =>
    refine ih.trans ⟨"( ".toList, " )".toList, ?_⟩
    simp only [String.toList_append]

theorem blank_eq_false (h : OperandOf fragment text) (visible : blank fragment = false) :
    blank text = false := by
  unfold blank at *
  rw [List.all_eq_false] at *
  obtain ⟨c, member, ink⟩ := visible
  exact ⟨c, h.isInfix.subset member, ink⟩

end OperandOf

/-! ## Tests of a column -/

/-- The text is a test of the column: for null, by a comparison with the value that the table has
for a key, or by a list of items. -/
inductive Dialect.TestOn (d : Dialect) (column : String) (table : Params) : String → Prop
  | null (operator : Operator) :
      TestOn d column table (Comparison.nullTest (d.identifier column) operator)
  | compare (operator : Operator) {key : String} {value : Value} : table.get? key = some value →
      TestOn d column table (d.identifier column ++ " " ++ operator.sql ++ " " ++ key)
  | listed {connective : Connective} {items : List String} : connective.isBoolean = false →
      items ≠ [] → TestOn d column table
        (d.identifier column ++ " " ++ connective.sql ++ " (" ++ Text.joined ", " items ++ ")")

namespace Dialect.TestOn

variable {d : Dialect} {column text : String} {table table' : Params}

theorem mono (h : d.TestOn column table text) (grows : table.GrowsTo table') :
    d.TestOn column table' text := by
  cases h with
  | null operator => exact .null operator
  | compare operator found => exact .compare operator (grows.get? found)
  | listed listing filled => exact .listed listing filled

/-- A test starts with its column. -/
theorem prefix_identifier (h : d.TestOn column table text) :
    (d.identifier column).toList <+: text.toList := by
  cases h with
  | null operator =>
    unfold Comparison.nullTest
    split <;> exact ⟨_, (String.toList_append ..).symm⟩
  | compare operator found =>
    simp only [String.append_assoc, String.toList_append]
    exact List.prefix_append _ _
  | listed listing filled =>
    simp only [String.append_assoc, String.toList_append]
    exact List.prefix_append _ _

theorem blank_eq_false (h : d.TestOn column table text) : blank text = false := by
  have visible := d.blank_identifier column
  unfold blank at *
  rw [List.all_eq_false] at *
  obtain ⟨c, member, ink⟩ := visible
  exact ⟨c, h.prefix_identifier.subset member, ink⟩

end Dialect.TestOn

/-! ## Members are operands -/

namespace Predicate

variable {d : Dialect} {inherited : Option String} {t t' : Params} {sql : String}

/-- What a member says is placed with it. -/
theorem placed_of_operandOf {p : Predicate} {fragment : String} (visible : blank fragment = false)
    (h : OperandOf fragment sql) : ∃ part, p.placed sql = some part ∧ OperandOf fragment part := by
  have said := h.blank_eq_false visible
  cases p with
  | comparison c =>
    refine ⟨sql, ?_, h⟩
    rw [placed_comparison, said]
    rfl
  | group column connective members =>
    rw [placed_group, isEmpty_of_blank_eq_false said, if_neg Bool.false_ne_true]
    split
    · exact ⟨_, rfl, h.enclosed⟩
    · exact ⟨sql, rfl, h⟩

/-- Every member is rendered, and has its place among the parts. -/
theorem render_of_mem {members : List (Option String × Predicate)} {parts : List String}
    {field : Option String} {p : Predicate}
    (run : renderMembers d inherited members t = .ok parts t') (member : (field, p) ∈ members) :
    ∃ sql t₁ t₂, p.render d inherited t₁ = .ok sql t₂ ∧ t₂.GrowsTo t' ∧
      ∀ part, p.placed sql = some part → part ∈ parts := by
  induction members generalizing t parts with
  | nil => cases member
  | cons first rest ih =>
    obtain ⟨sql, t₁, others, rendered, later, rfl⟩ := renderMembers_cons_eq_ok run
    rcases List.mem_cons.mp member with rfl | member
    · refine ⟨sql, t, t₁, rendered, (renderMembers_lawful d _ rest).grows_of_ok later, ?_⟩
      intro part placed
      rw [placed]
      exact List.mem_append_left _ (List.mem_singleton_self part)
    · obtain ⟨sql', t₂, t₃, rendered', grows, placed⟩ := ih later member
      exact ⟨sql', t₂, t₃, rendered', grows, fun part same =>
        List.mem_append_right _ (placed part same)⟩

/-- What is an operand of a member is one of the group, if the group joins by AND or OR. -/
theorem operandOf_group {column field : Option String} {connective : Connective}
    {members : List (Option String × Predicate)} {p : Predicate}
    (boolean : connective.isBoolean = true) (member : (field, p) ∈ members)
    (h : (group column connective members).render d inherited t = .ok sql t') :
    ∃ sql' t₁ t₂, p.render d (column.or inherited) t₁ = .ok sql' t₂ ∧ t₂.GrowsTo t' ∧
      ∀ fragment, blank fragment = false → OperandOf fragment sql' → OperandOf fragment sql := by
  obtain ⟨parts, run, rfl⟩ := render_boolean_eq_ok boolean h
  obtain ⟨sql', t₁, t₂, rendered, grows, placed⟩ := render_of_mem run member
  refine ⟨sql', t₁, t₂, rendered, grows, fun fragment visible operand => ?_⟩
  obtain ⟨part, place, inside⟩ := placed_of_operandOf (p := p) visible operand
  exact .joined boolean (placed part place) inside

/-- **What a member says is an operand of the whole**, at any depth. -/
theorem StandsIn.operandOf {m p : Predicate} (h : m.OpenIn p)
    (rendered : p.render d inherited t = .ok sql t') :
    ∃ inherited' sql' t₁ t₂, m.render d inherited' t₁ = .ok sql' t₂ ∧ t₂.GrowsTo t' ∧
      ∀ fragment, blank fragment = false → OperandOf fragment sql' → OperandOf fragment sql := by
  induction h generalizing inherited t t' sql with
  | member boolean member => exact ⟨_, operandOf_group boolean member rendered⟩
  | deeper boolean member _ ih =>
    obtain ⟨sql₁, t₁, t₂, run, grows, inside⟩ := operandOf_group boolean member rendered
    obtain ⟨inherited', sql₂, t₃, t₄, run', grows', inside'⟩ := ih run
    exact ⟨inherited', sql₂, t₃, t₄, run', grows'.trans grows, fun fragment visible operand =>
      inside fragment visible (inside' fragment visible operand)⟩

/-! ## Members that use their column -/

/-- Does the predicate name no column, and test that of the group around it? -/
inductive TakesColumn : Predicate → Prop
  | leaf {c : Comparison} : c.column = none → c.raw = none → TakesColumn (.comparison c)
  | listing {connective : Connective} {members : List (Option String × Predicate)} :
      connective.isBoolean = false → TakesColumn (.group none connective members)
  | member {connective : Connective} {members : List (Option String × Predicate)}
      {field : Option String} {p : Predicate} : connective.isBoolean = true →
      (field, p) ∈ members → TakesColumn p → TakesColumn (.group none connective members)

/-- Does it come to something that the predicate names a column? Blank text says nothing on it, and a
group that joins by AND or OR names it for those of its members that take it. -/
inductive UsesColumn : Predicate → Prop
  | leaf {c : Comparison} : c.isBlank = false → UsesColumn (.comparison c)
  | listing {column : Option String} {connective : Connective}
      {members : List (Option String × Predicate)} : connective.isBoolean = false →
      UsesColumn (.group column connective members)
  | member {column : Option String} {connective : Connective}
      {members : List (Option String × Predicate)} {field : Option String} {p : Predicate} :
      connective.isBoolean = true → (field, p) ∈ members → TakesColumn p →
      UsesColumn (.group column connective members)

theorem testOn_comparison {c : Comparison} {column : String} (plain : c.raw = none)
    (resolved : c.column.or inherited = some column)
    (h : (comparison c).render d inherited t = .ok sql t') : d.TestOn column t' sql := by
  rw [render] at h
  rcases Comparison.render_eq_ok h with given | ⟨-, name, same, ⟨-, rfl, -⟩ | ⟨-, rfl, rfl⟩⟩
  · rw [plain] at given
    cases given
  · cases resolved.symm.trans same
    exact .null c.operator
  · cases resolved.symm.trans same
    exact .compare c.operator (t.get?_push_self c.value)

theorem testOn_listing {own : Option String} {connective : Connective} {column : String}
    {members : List (Option String × Predicate)} (listing : connective.isBoolean = false)
    (resolved : own.or inherited = some column)
    (h : (group own connective members).render d inherited t = .ok sql t') :
    d.TestOn column t' sql := by
  rw [render_listing_eq listing, resolved] at h
  obtain ⟨name, items, same, filled, run, rfl⟩ := renderList_eq_ok h
  cases same
  refine .listed listing ?_
  rintro rfl
  cases members with
  | nil => exact filled rfl
  | cons member members =>
    obtain ⟨_, _, _, _, -, -, -, items⟩ := renderItems_cons_eq_ok run
    cases items

/-- A predicate that takes the column of the group around it has a test of that column. -/
theorem TakesColumn.render {p : Predicate} {column : String} (h : p.TakesColumn)
    (rendered : p.render d (some column) t = .ok sql t') :
    ∃ fragment, d.TestOn column t' fragment ∧ OperandOf fragment sql := by
  induction h generalizing t t' sql with
  | leaf unnamed plain =>
    exact ⟨sql, testOn_comparison plain (by rw [unnamed]; rfl) rendered, .whole⟩
  | listing listing => exact ⟨sql, testOn_listing listing rfl rendered, .whole⟩
  | member boolean member _ ih =>
    obtain ⟨sql', t₁, t₂, run, grows, inside⟩ := operandOf_group boolean member rendered
    obtain ⟨fragment, test, operand⟩ := ih run
    exact ⟨fragment, test.mono grows, inside fragment test.blank_eq_false operand⟩

/-- Is the predicate a leaf that was given as text? -/
def isText : Predicate → Bool
  | .comparison c => c.isRaw
  | .group .. => false

/-- **A predicate that uses the column it names** has a test of that column, unless it is text that
was given. -/
theorem UsesColumn.render {m : Predicate} {column : String} (h : m.UsesColumn)
    (names : m.column = some column) (rendered : m.render d inherited t = .ok sql t') :
    ∃ fragment, blank fragment = false ∧ OperandOf fragment sql ∧ (d.TestOn column t' fragment ∨
      ∃ c : Comparison, m = .comparison c ∧ c.raw = some fragment) := by
  cases h with
  | @leaf c visible =>
    have owned : c.column = some column := names
    have leaf := rendered
    rw [Predicate.render] at leaf
    have said := Comparison.blank_render leaf
    rw [visible] at said
    refine ⟨sql, said, .whole, ?_⟩
    rcases Comparison.render_eq_ok leaf with given | ⟨plain, -⟩
    · exact .inr ⟨c, rfl, given⟩
    · exact .inl (testOn_comparison plain (by rw [owned]; rfl) rendered)
  | @listing own connective members listing =>
    have owned : own = some column := names
    subst owned
    have test := testOn_listing listing rfl rendered
    exact ⟨sql, test.blank_eq_false, .whole, .inl test⟩
  | @member own connective members field p boolean member takes =>
    have owned : own = some column := names
    subst owned
    obtain ⟨sql', t₁, t₂, run, grows, inside⟩ := operandOf_group boolean member rendered
    obtain ⟨fragment, test, operand⟩ := takes.render run
    exact ⟨fragment, test.blank_eq_false, inside fragment test.blank_eq_false operand,
      .inl (test.mono grows)⟩

/-- What a member that uses its column says is an operand of the whole. -/
theorem StandsIn.render {m p : Predicate} {column : String} (h : m.OpenIn p) (uses : m.UsesColumn)
    (names : m.column = some column) (rendered : p.render d inherited t = .ok sql t') :
    ∃ fragment, blank fragment = false ∧ OperandOf fragment sql ∧ (d.TestOn column t' fragment ∨
      ∃ c : Comparison, m = .comparison c ∧ c.raw = some fragment) := by
  obtain ⟨inherited', sql', t₁, t₂, run, grows, inside⟩ := h.operandOf rendered
  obtain ⟨fragment, visible, operand, said⟩ := uses.render names run
  refine ⟨fragment, visible, inside fragment visible operand, said.imp ?_ id⟩
  exact fun test => test.mono grows

end Predicate

end SqlAccess
