import SqlAccess.Proofs.Predicate.Chain
import SqlAccess.Proofs.Predicate.Reached

/-!
# Items of a list

The members of an AND or OR group are placed by what they say, and one that says nothing has no
place. The members of a list are placed as they are: item by item the list has what its members
came to, and a member that was given as blank text leaves an item without anything in it. Whether a
list is empty is asked of its members and not of its items, so a list whose only member is blank is
printed with nothing between its parentheses.

`list_items_are_members` says this of every list of a condition, wherever it stands: the list is an
operand of the text, and its blank items are those of its blank members.
-/

namespace SqlAccess

open Text

theorem Params.blank_generated (number : Nat) : blank (Params.generated number) = false := by
  rw [Params.generated, blank_append]
  rfl

/-! ## Items and their members -/

/-- The item is what the leaf comes to in a list: its text if it was given as text, and otherwise a
generated key that the table has for its value. -/
inductive Comparison.ItemOf (c : Comparison) (table : Params) : String → Prop
  | text {sql : String} : c.raw = some sql → ItemOf c table sql
  | value {number : Nat} : c.raw = none → table.get? (Params.generated number) = some c.value →
      ItemOf c table (Params.generated number)

namespace Comparison.ItemOf

variable {c : Comparison} {table table' : Params} {item : String}

theorem mono (h : c.ItemOf table item) (grows : table.GrowsTo table') : c.ItemOf table' item := by
  cases h with
  | text given => exact .text given
  | value plain found => exact .value plain (grows.get? found)

/-- An item is blank exactly if it is blank text that was given. -/
theorem blank_eq (h : c.ItemOf table item) : blank item = c.isBlank := by
  cases h with
  | text given => simp only [isBlank, given, Option.any_some]
  | value plain found => simp only [isBlank, plain, Option.any_none, Params.blank_generated]

end Comparison.ItemOf

theorem Comparison.itemOf_of_renderItem {c : Comparison} {t t' : Params} {item : String}
    (h : c.renderItem t = .ok item t') : c.ItemOf t' item := by
  cases given : c.raw with
  | some sql =>
    rw [Comparison.renderItem_raw given h]
    exact .text given
  | none =>
    obtain ⟨rfl, rfl⟩ := Comparison.renderItem_eq_ok given h
    exact .value given (t.get?_push_self c.value)

namespace Predicate

variable {d : Dialect} {connective : Connective} {t t' : Params}
  {members : List (Option String × Predicate)}

/-- The item is what the predicate comes to in a list. No group does. -/
def ItemOf (p : Predicate) (table : Params) (item : String) : Prop :=
  ∃ c, p = .comparison c ∧ c.ItemOf table item

theorem ItemOf.mono {p : Predicate} {table table' : Params} {item : String}
    (h : p.ItemOf table item) (grows : table.GrowsTo table') : p.ItemOf table' item := by
  obtain ⟨c, rfl, of⟩ := h
  exact ⟨c, rfl, of.mono grows⟩

theorem ItemOf.blank_eq {p : Predicate} {table : Params} {item : String}
    (h : p.ItemOf table item) : blank item = p.rendersEmpty := by
  obtain ⟨c, rfl, of⟩ := h
  rw [of.blank_eq, rendersEmpty]

/-- The items of a list are what its members come to, one by one. -/
theorem itemOf_of_renderItems {name : String} {items : List String}
    (h : renderItems connective name members t = .ok items t') :
    List.Forall₂ (fun member item => member.2.ItemOf t' item) members items :=
  (itemRuns_of_renderItems h).imp fun _ _ ⟨c, _, _, leaf, run, grows⟩ =>
    ⟨c, leaf, (Comparison.itemOf_of_renderItem run).mono grows⟩

/-- The blank items are those of the members that say nothing. -/
theorem map_blank_items {table : Params} {items : List String}
    (h : List.Forall₂ (fun member item => member.2.ItemOf table item) members items) :
    items.map blank = members.map (·.2.rendersEmpty) := by
  induction h with
  | nil => rfl
  | cons item _ ih => rw [List.map_cons, List.map_cons, item.blank_eq, ih]

end Predicate

/-! ## Lists in the text of a condition -/

open Predicate in
/-- **Every list in the text of a condition has its members for items, one by one**: a text that was
given stands as it is, blank or not, and any other member is a placeholder for its value. So a list
has at least one item, and none of them is blank exactly if none of its members is blank text. -/
theorem list_items_are_members {g : Group} {d : Dialect} {t t' : Params} {sql : String}
    (rendered : g.render d t = .ok sql t') {column : Option String} {connective : Connective}
    {members : List (Option String × Predicate)} {above : List (Option String)}
    (listing : connective.isBoolean = false)
    (reached : (group column connective members).Reached above (ofGroup g)) :
    ∃ name items, column.or (nearest above) = some name ∧
      OperandOf
        (d.identifier name ++ " " ++ connective.sql ++ " (" ++ joined ", " items ++ ")") sql ∧
      List.Forall₂ (fun member item => member.2.ItemOf t' item) members items ∧ items ≠ [] ∧
      ((∀ item ∈ items, blank item = false) ↔
        ∀ member ∈ members, member.2.rendersEmpty = false) := by
  obtain ⟨fragment, t₁, t₂, run, grows, operand⟩ := reached.render rendered
  rw [render_listing_eq listing, Option.or_none] at run
  have visible := blank_renderList run
  obtain ⟨name, items, resolved, filled, each, rfl⟩ := renderList_eq_ok run
  have pairs : List.Forall₂ (fun member item => member.2.ItemOf t' item) members items :=
    (itemOf_of_renderItems each).imp fun _ _ item => item.mono grows
  have blanks := map_blank_items pairs
  refine ⟨name, items, resolved, operand visible, pairs, ?_, ?_⟩
  · rintro rfl
    exact filled (List.forall₂_nil_right_iff.mp pairs)
  · have shown : (∀ b ∈ items.map blank, b = false) ↔
        ∀ b ∈ members.map (·.2.rendersEmpty), b = false := by rw [blanks]
    simpa only [List.forall_mem_map] using shown

/-- A list of a text and a value, in an OR group that names its column. -/
def Group.amongTextAndValue (sql : String) : Group :=
  let list := ((Group.of .among).append (Comparison.native sql {})).append
    (Comparison.equal (.int 7))
  ((Group.of .any).append list).on "id"

open Predicate in
theorem list_items_are_members_text_and_value :
    let g := Group.amongTextAndValue "SELECT 1"
    let members :=
      [(none, .comparison (.native "SELECT 1" {})), (none, .comparison (.equal (.int 7)))]
    g.render .mysql {} = .ok "`id` IN (SELECT 1, :param0)" (Params.ofList [("param0", .int 7)]) ∧
      (group none .among members).Reached [some "id"] (ofGroup g) ∧
      ∃ name items, Option.or none (nearest [some "id"]) = some name ∧
        OperandOf (Dialect.mysql.identifier name ++ " " ++ Connective.among.sql ++ " (" ++
          joined ", " items ++ ")") "`id` IN (SELECT 1, :param0)" ∧
        List.Forall₂ (fun member item =>
          member.2.ItemOf (Params.ofList [("param0", .int 7)]) item) members items ∧ items ≠ [] ∧
        ((∀ item ∈ items, blank item = false) ↔
          ∀ member ∈ members, member.2.rendersEmpty = false) := by
  have rendered : (Group.amongTextAndValue "SELECT 1").render .mysql {} =
      .ok "`id` IN (SELECT 1, :param0)" (Params.ofList [("param0", .int 7)]) := rfl
  have reached : (group none .among
      [(none, .comparison (.native "SELECT 1" {})), (none, .comparison (.equal (.int 7)))]).Reached
        [some "id"] (ofGroup (Group.amongTextAndValue "SELECT 1")) :=
    .within rfl List.mem_cons_self .here
  exact ⟨rendered, reached, list_items_are_members rendered rfl reached⟩

/-- Blank text is an item like any other, and may be the only one. -/
theorem blank_text_is_listed :
    (∃ t, (Group.amongTextAndValue "").render .mysql {} = .ok "`id` IN (, :param0)" t) ∧
      (((Group.of .among).append (Comparison.native "" {})).on "id").render .mysql {} =
        .ok "`id` IN ()" {} :=
  ⟨⟨_, rfl⟩, rfl⟩

end SqlAccess
