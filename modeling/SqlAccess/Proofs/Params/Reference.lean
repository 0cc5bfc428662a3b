import Mathlib.Data.List.Find
import SqlAccess.Proofs.Params.Region
import SqlAccess.Query.Basic

/-!
# Which keys a statement can refer to

A parameter table takes any text for a key, and a statement refers to a key by writing it, with its
colon. Where a placeholder ends is said by the statement, not by the table: behind the colon there
is a letter or an underscore, and the name goes on as long as there are ASCII letters, digits and
underscores. `IsPlaceholder` is what a placeholder can look like (`CutsInto.isPlaceholder`), and a
text of this form is a placeholder from its first character to its last (`IsPlaceholder.cutsInto`).

So there are two kinds of keys. One that looks like a placeholder is referred to by its own text,
and no shorter key is looked at. Any other key is never looked up, in any statement
(`toPositional_congr_of_not_isPlaceholder`): a statement is rewritten in the same way by any two
tables that differ in the entry of such a key alone, be it bound in both, in one or in neither.
`referenced_iff_isPlaceholder` puts the two together. Keys that are generated are of the first kind.
-/

namespace SqlAccess

open Piece

/-- A colon and an ASCII name: what a statement can write for a placeholder. -/
def IsPlaceholder (text : List Char) : Prop :=
  ∃ c name, text = ':' :: c :: name ∧ startsName c = true ∧ name.all inName = true

variable {text : List Char} {regions : List Region}

/-- A colon and a name are one placeholder, up to the end. -/
theorem IsPlaceholder.cutsInto (h : IsPlaceholder text) : CutsInto text [.placeholder text] := by
  obtain ⟨c, name, rfl, starts, named⟩ := h
  have ended : Piece.Delimits [] := fun c member => nomatch member
  have cut := CutsInto.placeholder starts named ended .nil
  rwa [List.append_nil] at cut

/-- Every placeholder of a statement is a colon and a name. -/
theorem CutsInto.isPlaceholder (h : CutsInto text regions) {name : List Char}
    (member : .placeholder name ∈ regions) : IsPlaceholder name := by
  induction h with
  | nil => cases member
  | quoted _ _ _ ih => exact ih ((List.mem_cons.mp member).resolve_left Region.noConfusion)
  | unclosed _ _ => cases (List.mem_singleton.mp member)
  | @placeholder c name' rest regions starts named _ _ ih =>
    rcases List.mem_cons.mp member with same | member
    · cases same
      exact ⟨c, name', rfl, starts, named⟩
    · exact ih member
  | other _ _ _ ih => exact ih ((List.mem_cons.mp member).resolve_left Region.noConfusion)

theorem Region.mem_names {name : String} :
    name ∈ Region.names regions ↔ .placeholder name.toList ∈ regions := by
  rw [Region.names, List.mem_filterMap]
  constructor
  · rintro ⟨region, member, same⟩
    cases region with
    | placeholder name' =>
      cases same
      rwa [String.toList_ofList]
    | quoted _ => cases same
    | other _ => cases same
  · intro member
    exact ⟨_, member, congrArg some String.ofList_toList⟩

/-- A text that starts with a colon and is rewritten to a single mark is a placeholder. -/
theorem CutsInto.isPlaceholder_of_marked {behind : List Char}
    (h : CutsInto (':' :: behind) regions)
    (marked : Region.textOf (regions.map Region.marked) = ['?']) :
    IsPlaceholder (':' :: behind) := by
  generalize whole : ':' :: behind = text at h
  cases h with
  | nil => cases whole
  | quoted quotes _ _ =>
    cases whole
    cases quotes
  | unclosed quotes _ =>
    cases whole
    cases quotes
  | other _ _ _ =>
    cases whole
    cases marked
  | @placeholder c name rest regions starts named _ cut =>
    have alone : Region.textOf (regions.map Region.marked) = [] := (List.cons.inj marked).2
    -- Only the empty text has no regions.
    have ended : regions = [] := by
      have none := alone ▸ cut.marked
      cases regions with
      | nil => rfl
      | cons region regions => cases none
    subst ended
    obtain rfl : rest = [] := cut.textOf_eq.symm
    rw [List.append_nil]
    exact ⟨c, name, rfl, starts, named⟩

namespace Params

variable {p q : Params} {key : String} {value : Value}

theorem exists_toList_mark (key : String) : ∃ behind, (mark key).toList = ':' :: behind := by
  unfold mark
  split
  next behind same => exact ⟨behind, same⟩
  next => exact ⟨key.toList, by simp⟩

theorem mark_of_toList {behind : List Char} (colon : key.toList = ':' :: behind) :
    mark key = key := by
  simp only [mark, colon]

theorem mark_mark (key : String) : mark (mark key) = mark key := by
  obtain ⟨behind, colon⟩ := exists_toList_mark key
  exact mark_of_toList colon

/-- The positional form depends on what the table binds the placeholders of the statement to, and
on nothing else. -/
theorem toPositional_congr {sql : String} (cut : CutsInto sql.toList regions)
    (alike : ∀ name ∈ Region.names regions, p.get? name = q.get? name) :
    p.toPositional sql = q.toPositional sql := by
  have missing : ((Region.names regions).find? fun name => !p.contains name) =
      (Region.names regions).find? fun name => !q.contains name := by
    refine List.find?_congr fun name member => ?_
    rw [contains, contains, alike name member]
  rw [p.toPositional_of_cutsInto cut, q.toPositional_of_cutsInto cut, missing,
    List.filterMap_congr alike]

/-- A key that looks like a placeholder is rewritten to one mark, with its own value. -/
theorem toPositional_mark (named : IsPlaceholder (mark key).toList)
    (bound : p.get? key = some value) : p.toPositional (mark key) = .ok ("?", [value]) := by
  have own : p.get? (mark key) = some value := by rwa [get?, mark_mark]
  have names : Region.names [.placeholder (mark key).toList] = [mark key] := by
    simp [Region.names, Region.name?]
  rw [p.toPositional_of_cutsInto named.cutsInto, names]
  simp only [List.find?_cons, contains, own, Option.isSome_some, Bool.not_true, List.find?_nil,
    List.filterMap_cons_some own, List.filterMap_nil]
  rfl

/-- **A key that does not look like a placeholder is never looked up.** Two tables that agree on the
other keys rewrite every statement in the same way, whether they have this one or not. -/
theorem toPositional_congr_of_not_isPlaceholder (unnamed : ¬ IsPlaceholder (mark key).toList)
    (alike : ∀ other, mark other ≠ mark key → p.get? other = q.get? other) (sql : String) :
    p.toPositional sql = q.toPositional sql := by
  obtain ⟨regions, cut, -⟩ := existsUnique_cutsInto sql.toList
  refine toPositional_congr cut fun name member => alike name fun same => ?_
  have placeholder := cut.isPlaceholder (Region.mem_names.mp member)
  -- A placeholder has its colon already, so the table stores it as it stands.
  obtain ⟨c, rest, colon, -⟩ := id placeholder
  rw [← same, mark_of_toList colon] at unnamed
  exact unnamed placeholder

/-- Binding such a key, for the first time or anew, changes the positional form of no statement. -/
theorem toPositional_insert_of_not_isPlaceholder (unnamed : ¬ IsPlaceholder (mark key).toList)
    (p : Params) (value : Value) (sql : String) :
    (p.insert key value).toPositional sql = p.toPositional sql :=
  toPositional_congr_of_not_isPlaceholder unnamed
    (fun _ other => p.get?_insert_of_ne value other) sql

/-! ## The two kinds of keys -/

/-- A text that is rewritten to one mark, and is a key with its colon, is a placeholder. -/
theorem isPlaceholder_of_toPositional (rewritten : p.toPositional (mark key) = .ok ("?", [value])) :
    IsPlaceholder (mark key).toList := by
  obtain ⟨regions, cut, -⟩ := existsUnique_cutsInto (mark key).toList
  have marked : Region.textOf (regions.map Region.marked) = ['?'] := by
    rw [p.toPositional_of_cutsInto cut] at rewritten
    split at rewritten
    next => cases rewritten
    next =>
      have texts := congrArg (fun out => out.1.toList) (Except.ok.inj rewritten)
      simpa using texts
  obtain ⟨behind, colon⟩ := exists_toList_mark key
  rw [colon] at cut ⊢
  exact cut.isPlaceholder_of_marked marked

/-- **A key can be referred to exactly if it looks like a placeholder.** Where a table binds a key
to a value, the text of the key is rewritten to one mark with that value if and only if it is a
colon and an ASCII name. Then the text is that one placeholder, so no other key is looked up for it.
For any other key, the entry plays no part, in this text as in every other: tables with it and
without it, and with any value for it, rewrite every text in the same way. -/
theorem referenced_iff_isPlaceholder (key : String) :
    (∀ (p : Params) (value : Value), p.get? key = some value →
      (p.toPositional (mark key) = .ok ("?", [value]) ↔ IsPlaceholder (mark key).toList)) ∧
    (IsPlaceholder (mark key).toList →
      ∀ regions, CutsInto (mark key).toList regions ↔
        regions = [.placeholder (mark key).toList]) ∧
    (¬ IsPlaceholder (mark key).toList →
      (∀ (p : Params) (value : Value) (sql : String),
        (p.insert key value).toPositional sql = p.toPositional sql) ∧
      ∀ p q : Params, (∀ other, mark other ≠ mark key → p.get? other = q.get? other) →
        ∀ sql, p.toPositional sql = q.toPositional sql) := by
  refine ⟨fun p value bound => ⟨isPlaceholder_of_toPositional, fun named => ?_⟩,
    fun named regions => ⟨fun cut => cut.unique named.cutsInto, fun same => ?_⟩,
    fun unnamed => ⟨toPositional_insert_of_not_isPlaceholder unnamed, fun p q alike => ?_⟩⟩
  · exact toPositional_mark named bound
  · rw [same]
    exact named.cutsInto
  · exact toPositional_congr_of_not_isPlaceholder unnamed alike

/-- A name of letters is found under its own text, beside a key that it starts with. A key with a
hyphen is bound in one of two tables, and they rewrite its text in the same way. -/
theorem referenced_beside_shorter :
    (ofList [("a", .int 1), ("ab", .int 2)]).get? "ab" = some (.int 2) ∧
      (ofList [("a", .int 1), ("ab", .int 2)]).toPositional ":ab" = .ok ("?", [.int 2]) ∧
      ¬ IsPlaceholder (mark "a-b").toList ∧
      (ofList [("a", .int 1)]).get? "a-b" = none ∧
      ((ofList [("a", .int 1)]).insert "a-b" (.int 2)).get? "a-b" = some (.int 2) ∧
      ((ofList [("a", .int 1)]).insert "a-b" (.int 2)).toPositional ":a-b" =
        (ofList [("a", .int 1)]).toPositional ":a-b" := by
  have named : IsPlaceholder (mark "ab").toList := ⟨'a', ['b'], rfl, rfl, rfl⟩
  have bound : (ofList [("a", .int 1), ("ab", .int 2)]).get? "ab" = some (.int 2) := rfl
  have unnamed : ¬ IsPlaceholder (mark "a-b").toList := by
    rintro ⟨c, name, same, -, inside⟩
    cases same
    cases inside
  exact ⟨bound, ((referenced_iff_isPlaceholder "ab").1 _ _ bound).mpr named, unnamed, rfl, rfl,
    ((referenced_iff_isPlaceholder "a-b").2.2 unnamed).1 _ (.int 2) ":a-b"⟩

/-- A key with a hyphen is bound, and its text is taken for the placeholder in front of the hyphen:
for the value of another key, or for a placeholder that nothing is bound to. -/
theorem hyphenated_not_referenced :
    (ofList [("a", .int 1), ("a-b", .int 2)]).get? "a-b" = some (.int 2) ∧
      (ofList [("a", .int 1), ("a-b", .int 2)]).toPositional ":a-b" = .ok ("?-b", [.int 1]) ∧
      (ofList [("a-b", .int 2)]).toPositional ":a-b" =
        .error (.invalidCondition (.placeholderUnbound ":a")) :=
  ⟨rfl, rfl, rfl⟩

/-! ## Generated keys -/

/-- A generated key looks like a placeholder. -/
theorem isPlaceholder_generated (number : Nat) : IsPlaceholder (generated number).toList := by
  refine ⟨'p', "aram".toList ++ Nat.toDigits 10 number, toList_generated number, rfl, ?_⟩
  rw [List.all_append, Bool.and_eq_true]
  refine ⟨by decide, List.all_eq_true.mpr fun c member => ?_⟩
  have digit := Text.isDigit_of_mem_toDigits member
  simp only [inName, Char.isAlphanum, digit, Bool.or_true, Bool.true_or]

end Params

/-- **What a query binds can be referred to** by the key that it tells, if the key was generated or
looks like a placeholder. -/
theorem Query.toPositional_bind (q : Query) (value : Value) {key : Option String}
    (named : ∀ given ∈ key, IsPlaceholder (Params.mark given).toList) :
    (q.bind value key).2.params.toPositional (q.bind value key).1 = .ok ("?", [value]) := by
  cases key with
  | some given =>
    have bound : (q.bind value (some given)).2.params.get? given = some value := by
      have stored := q.params.get?_insert_self (Params.mark given) value
      rw [Params.get?, Params.mark_mark] at stored
      exact stored
    exact Params.toPositional_mark (named given rfl) bound
  | none =>
    have bound := q.params.get?_push_self value
    have generated := Params.mark_generated (q.params.firstFree q.params.size q.params.size)
    have named : IsPlaceholder (Params.mark q.params.nextKey).toList := by
      rw [Params.nextKey, generated]
      exact Params.isPlaceholder_generated _
    have rewritten := Params.toPositional_mark named bound
    rwa [Params.nextKey, generated] at rewritten

end SqlAccess
