import SqlAccess.Proofs.Identifier
import SqlAccess.Proofs.Predicate.Runs

/-!
# Conditions that say nothing

`Predicate.rendersEmpty` looks through a tree before anything is rendered; the renderer drops blank
text and empty groups by looking at the text it gets. The two agree at every depth: a group's text
is empty exactly when the tree says nothing, and is never blank otherwise (`Group.render_speaks`).

The induction carries this for the members: the parts that are left of them are none exactly when no
member says anything, and no part is blank.
-/

namespace SqlAccess

namespace Text

theorem blank_append (a b : String) : blank (a ++ b) = (blank a && blank b) := by
  simp only [blank, String.toList_append, List.all_append]

theorem isEmpty_of_blank_eq_false {text : String} (visible : blank text = false) :
    text.isEmpty = false := by
  rw [Bool.eq_false_iff, ne_eq, String.isEmpty_iff]
  rintro rfl
  cases visible

/-- Joined texts are not blank if the first is not. -/
theorem blank_joined_cons {separator part : String} {rest : List String}
    (first : blank part = false) : blank (joined separator (part :: rest)) = false := by
  cases rest with
  | nil => exact first
  | cons next rest => simp only [joined, blank_append, first, Bool.false_and]

/-- Joined texts of which none is blank are empty, or blank, only if there is none. -/
theorem joined_speaks (separator : String) {parts : List String}
    (visible : ∀ part ∈ parts, blank part = false) :
    (joined separator parts).isEmpty = parts.isEmpty ∧
      blank (joined separator parts) = parts.isEmpty := by
  match parts with
  | [] => exact ⟨rfl, rfl⟩
  | part :: rest =>
    have whole : blank (joined separator (part :: rest)) = false :=
      blank_joined_cons (visible part List.mem_cons_self)
    exact ⟨isEmpty_of_blank_eq_false whole, whole⟩

end Text

open Text

/-- A leaf of its own is never blank. -/
theorem Comparison.blank_render {d : Dialect} {inherited : Option String} {t t' : Params}
    {c : Comparison} {sql : String} (h : c.render d inherited t = .ok sql t') :
    blank sql = c.isBlank := by
  rcases Comparison.render_eq_ok h with raw | ⟨raw, column, -, ⟨-, rfl, -⟩ | ⟨-, -, rfl⟩⟩
  · simp only [isBlank, raw, Option.any_some]
  · have visible := d.blank_identifier column
    unfold nullTest
    split <;> simp only [blank_append, visible, Bool.false_and, isBlank, raw, Option.any_none]
  · simp only [blank_append, d.blank_identifier column, Bool.false_and, isBlank, raw,
      Option.any_none]

namespace Predicate

variable {d : Dialect} {inherited column : Option String} {connective : Connective}
  {members : List (Option String × Predicate)} {t t' : Params}

theorem blank_renderList {sql : String}
    (h : renderList d connective column members t = .ok sql t') : blank sql = false := by
  obtain ⟨name, items, -, -, -, rfl⟩ := renderList_eq_ok h
  simp only [blank_append, d.blank_identifier name, Bool.false_and]

/-- Do the parts show that something is said exactly when the flag does not say otherwise, and is
each of them more than white space? -/
def Shows (empty : Bool) (parts : List String) : Prop :=
  parts.isEmpty = empty ∧ ∀ part ∈ parts, blank part = false

theorem Shows.append {empty empty' : Bool} {parts parts' : List String}
    (first : Shows empty parts) (second : Shows empty' parts') :
    Shows (empty && empty') (parts ++ parts') := by
  refine ⟨by rw [← first.1, ← second.1]; cases parts <;> rfl, fun part member => ?_⟩
  rcases List.mem_append.mp member with early | late
  · exact first.2 part early
  · exact second.2 part late

/-- The text of a group is empty exactly when the group says nothing, and is not blank otherwise. -/
def Speaks (p : Predicate) (sql : String) : Prop :=
  sql.isEmpty = p.rendersEmpty ∧ blank sql = p.rendersEmpty

theorem speaks_joined {parts : List String} (boolean : connective.isBoolean = true)
    (shows : Shows (allRenderEmpty members) parts) :
    (group column connective members).Speaks (joined (" " ++ connective.sql ++ " ") parts) := by
  have speaks := joined_speaks (" " ++ connective.sql ++ " ") shows.2
  unfold Speaks
  rw [rendersEmpty, boolean, Bool.true_and, ← shows.1]
  exact speaks

theorem speaks_renderList {sql : String} (listing : connective.isBoolean = false)
    (h : renderList d connective column members t = .ok sql t') :
    (group inherited connective members).Speaks sql := by
  have visible := blank_renderList h
  unfold Speaks
  rw [rendersEmpty, listing, Bool.false_and]
  exact ⟨isEmpty_of_blank_eq_false visible, visible⟩

/-- What is placed of a group's text shows whether the group says something. -/
theorem Speaks.shows_placed {sql : String} (speaks : (group column connective members).Speaks sql) :
    Shows (group column connective members).rendersEmpty
      ((group column connective members).placed sql).toList := by
  obtain ⟨empty, visible⟩ := speaks
  rw [placed_group, empty]
  cases said : (group column connective members).rendersEmpty with
  | true =>
    rw [if_pos rfl]
    exact ⟨rfl, fun part member => nomatch member⟩
  | false =>
    rw [said] at visible
    rw [if_neg Bool.false_ne_true]
    split
    · refine ⟨rfl, fun part member => ?_⟩
      have parenthesis : blank ("( " ++ sql ++ " )") = false := by
        rw [blank_append, blank_append, visible, Bool.and_false, Bool.false_and]
      rw [Option.toList_some, List.mem_singleton] at member
      rw [member, parenthesis]
    · refine ⟨rfl, fun part member => ?_⟩
      rw [Option.toList_some, List.mem_singleton] at member
      rw [member, visible]

mutual

/-- What is placed of a member's text shows whether the member says something. -/
theorem shows_placed (d : Dialect) :
    ∀ (inherited : Option String) (p : Predicate) {t t' : Params} {sql : String},
      p.render d inherited t = .ok sql t' → Shows p.rendersEmpty (p.placed sql).toList
  | inherited, .comparison c, t, t', sql, h => by
    rw [render] at h
    have speaks := Comparison.blank_render h
    rw [rendersEmpty, ← speaks, placed_comparison]
    cases visible : blank sql with
    | true => exact ⟨rfl, fun part member => nomatch member⟩
    | false =>
      refine ⟨rfl, fun part member => ?_⟩
      simp only [Bool.false_eq_true, if_false, Option.toList_some, List.mem_singleton] at member
      rw [member, visible]
  | inherited, .group column connective members, t, t', sql, h => by
    cases boolean : connective.isBoolean with
    | true =>
      obtain ⟨parts, run, rfl⟩ := render_boolean_eq_ok boolean h
      exact (speaks_joined boolean (shows_renderMembers d _ members run)).shows_placed
    | false =>
      rw [render_listing_eq boolean] at h
      exact (speaks_renderList boolean h).shows_placed

/-- The parts that are left of the members show whether any of them says something. -/
theorem shows_renderMembers (d : Dialect) :
    ∀ (inherited : Option String) (members : List (Option String × Predicate)) {t t' : Params}
      {parts : List String}, renderMembers d inherited members t = .ok parts t' →
        Shows (allRenderEmpty members) parts
  | _, [], t, t', parts, h => by
    obtain ⟨rfl, -⟩ := Rendering.pure_eq_ok.mp h
    exact ⟨rfl, fun part member => nomatch member⟩
  | inherited, (field, p) :: rest, t, t', parts, h => by
    obtain ⟨sql, t₁, others, run, rest_run, rfl⟩ := renderMembers_cons_eq_ok h
    rw [allRenderEmpty]
    exact (shows_placed d inherited p run).append (shows_renderMembers d inherited rest rest_run)

end

end Predicate

/-- **The guard and the renderer agree**: the text of a group is empty exactly when the group says
nothing, and is otherwise more than white space. -/
theorem Group.render_speaks {d : Dialect} {g : Group} {t t' : Params} {sql : String}
    (h : g.render d t = .ok sql t') :
    sql.isEmpty = g.rendersEmpty ∧ blank sql = g.rendersEmpty := by
  unfold Group.render Predicate.ofGroup at h
  change (Predicate.group g.column g.connective g.members).Speaks sql
  cases boolean : g.connective.isBoolean with
  | true =>
    obtain ⟨parts, run, rfl⟩ := Predicate.render_boolean_eq_ok boolean h
    exact Predicate.speaks_joined boolean (Predicate.shows_renderMembers d _ g.members run)
  | false =>
    rw [Predicate.render_listing_eq boolean] at h
    exact Predicate.speaks_renderList boolean h

end SqlAccess
