import Mathlib.Data.List.Induction
import Mathlib.Data.List.Nodup

/-!
# Names in the order of first mention

What is mentioned one after the other, with repetitions, is kept once each, at the place of its
first mention: `List.eraseDups`, and `List.eraseDupsBy` where it is not equality that makes a
repetition. One more mention stands at the end, or changes nothing (`eraseDupsBy_concat`,
`eraseDups_concat`).

What goes with a name is what it was mentioned with last, and that is found from the end
(`lookup_reverse_concat`).
-/

namespace SqlAccess

/-- One more mention counts unless one that is kept is the same. -/
theorem eraseDupsBy_concat {α : Type} (same : α → α → Bool) (mentions : List α) (more : α) :
    (mentions ++ [more]).eraseDupsBy same =
      if (mentions.eraseDupsBy same).any (same more) then mentions.eraseDupsBy same
      else mentions.eraseDupsBy same ++ [more] := by
  -- The scan collects what it keeps in front of it, last first.
  have scan : ∀ kept : List α, List.eraseDupsBy.loop same (mentions ++ [more]) kept =
      if (List.eraseDupsBy.loop same mentions kept).any (same more) then
        List.eraseDupsBy.loop same mentions kept
      else List.eraseDupsBy.loop same mentions kept ++ [more] := by
    induction mentions with
    | nil =>
      intro kept
      rw [List.nil_append, List.eraseDupsBy.loop, List.eraseDupsBy.loop, List.any_reverse]
      cases kept.any (same more) with
      | true => rfl
      | false => exact List.reverse_cons
    | cons first rest ih =>
      intro kept
      rw [List.cons_append, List.eraseDupsBy.loop, List.eraseDupsBy.loop]
      cases kept.any (same first) with
      | true => exact ih kept
      | false => exact ih (first :: kept)
  exact scan []

/-- One more mention of a name is the last one. -/
theorem lookup_reverse_concat {α β : Type} [BEq α] [LawfulBEq α] [DecidableEq α]
    (mentions : List (α × β)) (more : α × β) (name : α) :
    (mentions ++ [more]).reverse.lookup name =
      if name = more.1 then some more.2 else mentions.reverse.lookup name := by
  rw [List.reverse_concat, List.lookup_cons]
  by_cases same : name = more.1
  · rw [if_pos same, beq_iff_eq.mpr same]
  · rw [if_neg same, beq_false_of_ne same]

variable {α : Type} [DecidableEq α]

/-- One more mention counts if it is the first. -/
theorem eraseDups_concat (mentions : List α) (name : α) :
    (mentions ++ [name]).eraseDups =
      if name ∈ mentions then mentions.eraseDups else mentions.eraseDups ++ [name] := by
  have known : mentions.eraseDups.any (name == ·) = true ↔ name ∈ mentions := by
    rw [List.any_beq, List.contains_iff_mem, List.mem_eraseDups]
  simp only [← known]
  exact eraseDupsBy_concat (· == ·) mentions name

theorem nodup_eraseDups (mentions : List α) : mentions.eraseDups.Nodup := by
  induction mentions using List.reverseRecOn with
  | nil => exact List.nodup_nil
  | append_singleton mentions name ih =>
    rw [eraseDups_concat]
    split
    next => exact ih
    next unknown =>
      refine List.nodup_append.mpr ⟨ih, List.nodup_singleton name, ?_⟩
      intro other member last inside
      rw [List.mem_singleton.mp inside]
      rintro rfl
      exact unknown (List.mem_eraseDups.mp member)

/-- What was mentioned once each is kept as it is. -/
theorem eraseDups_of_nodup {mentions : List α} (distinct : mentions.Nodup) :
    mentions.eraseDups = mentions := by
  induction mentions using List.reverseRecOn with
  | nil => rfl
  | append_singleton mentions name ih =>
    obtain ⟨distinct', -, apart⟩ := List.nodup_append.mp distinct
    rw [eraseDups_concat, ih distinct', if_neg]
    exact fun member => apart name member name (List.mem_singleton_self name) rfl

end SqlAccess
