import SqlAccess.Proofs.Query.Statement

/-!
# Statements never rebind

One query may be built into any number of statements, in any dialects and in any order, and some of
them may fail. All of them share the query's parameter table, so a statement that was built first is
still to be rewritten with the table that the others left.

One build only adds entries to the table, under new keys (`build_growsTo`), and leaves the rest of
the query alone. `builds_never_rebind` carries this through every sequence of builds, and draws the
consequence: what was rewritten to its positional form once is rewritten to the same form, with the
same values, whatever is built afterwards.
-/

namespace SqlAccess

namespace Query

/-- The query after the statements have been built over it, one after the other. -/
def afterBuilds (q : Query) : List (Dialect × Statement) → Query
  | [] => q
  | (d, st) :: rest => (q.build (st.render d)).2.afterBuilds rest

theorem afterBuilds_append (q : Query) (earlier later : List (Dialect × Statement)) :
    q.afterBuilds (earlier ++ later) = (q.afterBuilds earlier).afterBuilds later := by
  induction earlier generalizing q with
  | nil => rfl
  | cons build earlier ih => exact ih _

/-- Building one statement only adds to the parameters, whether it succeeds or fails. -/
theorem build_growsTo (q : Query) (d : Dialect) (st : Statement) :
    q.params.GrowsTo (q.build (st.render d)).2.params := by
  rw [build_snd]
  exact (st.render_within d q).grows q.params

theorem afterBuilds_growsTo (q : Query) (builds : List (Dialect × Statement)) :
    q.params.GrowsTo (q.afterBuilds builds).params := by
  induction builds generalizing q with
  | nil => exact .refl _
  | cons build builds ih =>
    obtain ⟨d, st⟩ := build
    exact (q.build_growsTo d st).trans (ih _)

theorem afterBuilds_eq (q : Query) (builds : List (Dialect × Statement)) :
    q.afterBuilds builds = { q with params := (q.afterBuilds builds).params } := by
  induction builds generalizing q with
  | nil => rfl
  | cons build builds ih =>
    obtain ⟨d, st⟩ := build
    have step := ih (q.build (st.render d)).2
    rw [build_snd] at step
    rw [afterBuilds, build_snd]
    exact step

end Query

/-- **No rebinding.** Whatever statements are built over a query, in whatever dialects, and whether
they succeed or fail: the parameters afterwards are those before with entries under new keys behind
them, and nothing else of the query has changed. So a text that had a positional form after some of
the builds has the same one, with the same values, after all of them. -/
theorem builds_never_rebind (q : Query) (builds : List (Dialect × Statement)) :
    q.params.GrowsTo (q.afterBuilds builds).params ∧
    q.afterBuilds builds = { q with params := (q.afterBuilds builds).params } ∧
    ∀ earlier later, builds = earlier ++ later → ∀ sql positional,
      (q.afterBuilds earlier).params.toPositional sql = .ok positional →
        (q.afterBuilds builds).params.toPositional sql = .ok positional := by
  refine ⟨q.afterBuilds_growsTo builds, q.afterBuilds_eq builds, ?_⟩
  rintro earlier later rfl sql positional rewritten
  rw [Query.afterBuilds_append]
  exact ((q.afterBuilds earlier).afterBuilds_growsTo later).toPositional rewritten

/-- A query over users by text that brings its own parameter. -/
def Query.byText : Query :=
  { Query.ofTable "users" with
    filter.members := [(none, .comparison (Comparison.native "id = :id" ⟨[(":id", .int 7)]⟩))] }

/-- A DELETE keeps its positional form behind an UPDATE that fails and a soft delete that binds one
more value. -/
theorem builds_never_rebind_delete :
    (Query.byText.afterBuilds [(.mysql, .delete)]).params.toPositional
        "DELETE FROM `users` WHERE id = :id" =
      .ok ("DELETE FROM `users` WHERE id = ?", [.int 7]) ∧
    (Query.byText.afterBuilds [(.mysql, .delete), (.generic, .update []),
        (.mysql, .softDelete "gone" none)]).params.toPositional
        "DELETE FROM `users` WHERE id = :id" =
      .ok ("DELETE FROM `users` WHERE id = ?", [.int 7]) :=
  ⟨rfl, (builds_never_rebind Query.byText _).2.2 [(.mysql, .delete)] _ rfl _ _ rfl⟩

end SqlAccess
