import SqlAccess.Proofs.Predicate.Emptiness
import SqlAccess.Proofs.Query.Statement

/-!
# The guard on writes

A write goes to every row of its table when nothing stands behind its opening. The guard looks at
the description of the query before anything is rendered, and `writes_are_guarded` is the law that
makes this safe: a write that is built carries the text of a condition that says something, and a
write whose condition says nothing is refused, with the query as it was.

Both halves rest on the agreement of the guard with the renderer (`Group.render_speaks`) on the
whole condition, that is, the tree with the condition given as text behind it.
-/

namespace SqlAccess

open Text

namespace Query

variable {q : Query}

/-- Does the query say nothing about its rows, neither by the tree nor by the text beside it? -/
def WithoutCondition (q : Query) : Prop :=
  q.filter.rendersEmpty = true ∧ ∀ sql, q.extraFilter = some sql → blank sql = true

theorem extra_isNone_iff :
    q.extra.isNone = true ↔ ∀ sql, q.extraFilter = some sql → blank sql = true := by
  simp only [extra, Option.isNone_iff_eq_none, Option.filter_eq_none_iff, Bool.not_eq_true,
    Bool.not_eq_false']

theorem unguarded_iff (strict : q.unconditional = false) :
    q.unguarded = true ↔ q.WithoutCondition := by
  simp only [unguarded, strict, Bool.not_false, Bool.and_true, Bool.and_eq_true, extra_isNone_iff,
    WithoutCondition]

theorem allRenderEmpty_append (members : List (Option String × Predicate))
    (member : Option String × Predicate) : Predicate.allRenderEmpty (members ++ [member]) =
      (Predicate.allRenderEmpty members && member.2.rendersEmpty) := by
  induction members with
  | nil => simp only [List.nil_append, Predicate.allRenderEmpty, Bool.and_true, Bool.true_and]
  | cons first members ih =>
    simp only [List.cons_append, Predicate.allRenderEmpty, ih, Bool.and_assoc]

/-- The whole condition says nothing only when neither of its parts does. -/
theorem root_rendersEmpty (q : Query) :
    q.root.rendersEmpty = true ↔ q.WithoutCondition := by
  rw [WithoutCondition, ← extra_isNone_iff]
  unfold root
  cases given : q.extra with
  | none => simp only [Option.isNone_none, and_true]
  | some sql =>
    have visible : blank sql = false := by
      have kept := (Option.filter_eq_some_iff.mp given).2
      simpa only [Bool.not_eq_true'] using kept
    have loud : (Comparison.native sql {}).isBlank = false := by
      simp only [Comparison.isBlank, Comparison.native, Option.any_some, visible]
    simp only [Group.rendersEmpty, Group.append, Predicate.ofGroup, Predicate.rendersEmpty,
      allRenderEmpty_append, loud, Bool.and_false, Bool.false_eq_true, Option.isNone_some, and_false]

end Query

/-- **No write without a condition.** Where a query does not allow unconditional writes, a write
that is built has the text of its condition, which is more than white space, behind its WHERE; and
where the query has a table, a write is refused exactly when the query says nothing about its rows,
and then leaves the query as it was. The text of a condition is empty only when the tree says
nothing. -/
theorem writes_are_guarded (d : Dialect) (st : Statement) (q : Query) (write : st.isWrite = true)
    (strict : q.unconditional = false) :
    (∀ sql, (q.build (st.render d)).1 = .ok sql →
      ∃ table sets bound condition, q.table = some table ∧
        Query.assignments d st.assigned q.params = .ok sets bound ∧
        q.root.render d bound = .ok condition (q.build (st.render d)).2.params ∧
        blank condition = false ∧
        sql = st.opening d q table sets ++ " WHERE " ++ condition ++ q.writeTail d) ∧
    (∀ table, q.table = some table →
      (q.WithoutCondition →
        q.build (st.render d) = (.error (.unguardedWrite st.refusedAs table), q)) ∧
      ∀ w name, (q.build (st.render d)).1 = .error (.unguardedWrite w name) →
        q.WithoutCondition) ∧
    ∀ (g : Group) (p p' : Params) (sql : String), g.render d p = .ok sql p' →
      (sql = "" ↔ g.rendersEmpty = true) ∧ (g.rendersEmpty = false → blank sql = false) := by
  have closing : st.closing d q = q.writeTail d := by
    cases st with
    | select => cases write
    | _ => rfl
  refine ⟨fun sql built => ?_, fun table named => ⟨fun silent => ?_, fun w name failed => ?_⟩,
    fun g p p' sql rendered => ?_⟩
  · rw [Query.build_fst_eq_ok] at built
    obtain ⟨table, sets, bound, condition, named, assigned, rendered, passed, rfl⟩ :=
      Statement.render_eq_ok built
    have loud : q.root.rendersEmpty = false := by
      rw [Bool.eq_false_iff, ne_eq, Query.root_rendersEmpty, ← Query.unguarded_iff strict,
        passed write]
      exact Bool.false_ne_true
    obtain ⟨filled, visible⟩ := Group.render_speaks rendered
    rw [loud] at filled visible
    refine ⟨table, sets, bound, condition, named, assigned, rendered, visible, ?_⟩
    rw [filled, if_neg Bool.false_ne_true, closing]
    simp only [String.append_assoc]
  · have run := Statement.render_of_unguarded (d := d) (t := q.params) write named
      ((Query.unguarded_iff strict).mpr silent)
    simp only [Query.build, run]
  · rw [Query.build_fst_eq_error] at failed
    rcases (st.render_within d q).fails failed with ⟨fault, invalid⟩ | ⟨unguarded, -⟩
    · cases invalid
    · exact (Query.unguarded_iff strict).mp unguarded
  · obtain ⟨empty, visible⟩ := Group.render_speaks rendered
    refine ⟨?_, fun loud => by rw [visible, loud]⟩
    rw [← empty, String.isEmpty_iff]

/-- A query over users with blank text and an empty group in its condition, blank text beside it,
and the given further members. -/
def Query.amongBlanks (members : List (Option String × Predicate)) : Query :=
  { Query.ofTable "users" with
    filter.members :=
      (none, .comparison (Comparison.native "  " {})) :: (none, .group none .any []) :: members
    extraFilter := some " " }

/-- The comparison of the users' key with a number. -/
def Query.byKey : Query :=
  amongBlanks [(none, .comparison ((Comparison.equal (.int 7)).on "id"))]

/-- Among blanks, one comparison lets a soft delete through; without it the write is refused. -/
theorem writes_are_guarded_among_blanks :
    ((Statement.softDelete "gone" none).isWrite = true ∧ Query.byKey.unconditional = false ∧
      (Query.amongBlanks []).unconditional = false) ∧
    (Query.byKey.build ((Statement.softDelete "gone" none).render .mysql)).1 =
      .ok "UPDATE `users` SET `gone` = :param0 WHERE `id` = :param1" ∧
    (∃ condition, blank condition = false ∧
      "UPDATE `users` SET `gone` = :param0 WHERE `id` = :param1" =
        "UPDATE `users` SET `gone` = :param0" ++ " WHERE " ++ condition ++ "") ∧
    (Query.amongBlanks []).build ((Statement.softDelete "gone" none).render .mysql) =
      (.error (.unguardedWrite .delete "users"), Query.amongBlanks []) := by
  have built : (Query.byKey.build ((Statement.softDelete "gone" none).render .mysql)).1 =
      .ok "UPDATE `users` SET `gone` = :param0 WHERE `id` = :param1" := by rfl
  refine ⟨⟨rfl, rfl, rfl⟩, built, ?_, ?_⟩
  · obtain ⟨table, sets, bound, condition, named, assigned, -, visible, text⟩ :=
      (writes_are_guarded .mysql (.softDelete "gone" none) Query.byKey rfl rfl).1 _ built
    cases named
    cases assigned
    exact ⟨condition, visible, text⟩
  · refine ((writes_are_guarded .mysql (.softDelete "gone" none) _ rfl rfl).2.1 "users" rfl).1 ?_
    exact ⟨rfl, fun sql given => by cases given; rfl⟩

end SqlAccess
