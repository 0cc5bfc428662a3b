import SqlAccess.Proofs.Text.Cut

/-!
# Words with gaps between them

Words written one after the other, with characters of a given kind around them: at least one between
neighbours, and any number in front and behind (`Spaced`). Where the words hold no such character
they are the maximal runs of the others, and the line determines them: they are the pieces of a cut
that are not empty (`wordsOf_iff`). Where they may hold some, as quoted texts do, the line can be
read in several ways, and it takes a reader to say which one is meant.
-/

namespace SqlAccess.Text

/-- The line has the words, with characters of the kind between them and around them. -/
inductive Spaced (gap : Char → Bool) : List (List Char) → List Char → Prop
  | nil : Spaced gap [] []
  | last (word : List Char) : Spaced gap [word] word
  | skip {c : Char} {words : List (List Char)} {line : List Char} :
      gap c = true → Spaced gap words line → Spaced gap words (c :: line)
  | cons {c : Char} {words : List (List Char)} {line : List Char} (word : List Char) :
      gap c = true → Spaced gap words line → Spaced gap (word :: words) (word ++ c :: line)

variable {gap : Char → Bool} {separator c : Char} {words : List (List Char)} {line : List Char}

/-- Words are spaced where each further one has a gap in front. -/
theorem spaced_append_flatMap (kind : gap c = true) (word : List Char) (words : List (List Char)) :
    Spaced gap (word :: words) (word ++ words.flatMap (c :: ·)) := by
  induction words generalizing word with
  | nil =>
    rw [List.flatMap_nil, List.append_nil]
    exact .last word
  | cons next words ih => exact .cons word kind (ih next)

/-- The words have no characters that the line does not have. -/
theorem Spaced.mem_line (spaced : Spaced gap words line) {word : List Char} (member : word ∈ words) :
    ∀ c ∈ word, c ∈ line := by
  induction spaced with
  | nil => cases member
  | last only => rw [List.mem_singleton.mp member]; exact fun _ inside => inside
  | skip _ _ ih => exact fun d inside => List.mem_cons_of_mem _ (ih member d inside)
  | cons first _ _ ih =>
    intro d inside
    rcases List.mem_cons.mp member with rfl | behind
    · exact List.mem_append_left _ inside
    · exact List.mem_append_right _ (List.mem_cons_of_mem _ (ih behind d inside))

/-! ## Words without gaps -/

/-- The words of the line: its maximal runs of characters that are not the separator. -/
structure WordsOf (separator : Char) (words : List (List Char)) (line : List Char) : Prop where
  spaced : Spaced (· == separator) words line
  ne_nil : ∀ word ∈ words, word ≠ []
  runs : ∀ word ∈ words, separator ∉ word

theorem filter_isEmpty_cons (piece : List Char) (pieces : List (List Char)) :
    ((piece :: pieces).filter fun piece => !piece.isEmpty) =
      if piece = [] then pieces.filter fun piece => !piece.isEmpty
      else piece :: pieces.filter fun piece => !piece.isEmpty := by
  cases piece <;> rfl

/-- Joined pieces are spaced, where the separators about an empty one come together. -/
theorem spaced_intercalate (separator : Char) : ∀ pieces : List (List Char),
    Spaced (· == separator) (pieces.filter fun piece => !piece.isEmpty)
      ([separator].intercalate pieces)
  | [] => .nil
  | [piece] => by
    rw [filter_isEmpty_cons, List.intercalate_singleton]
    split
    next empty => exact empty ▸ .nil
    next => exact .last piece
  | piece :: next :: rest => by
    have behind := spaced_intercalate separator (next :: rest)
    rw [filter_isEmpty_cons, List.intercalate_cons_cons, List.append_assoc]
    split
    next empty =>
      subst empty
      exact .skip BEq.rfl behind
    next => exact .cons piece BEq.rfl behind

/-- Words that are spaced come back from a cut, when they hold no separator. -/
theorem Spaced.filter_splitOn (spaced : Spaced (· == separator) words line)
    (ne_nil : ∀ word ∈ words, word ≠ []) (runs : ∀ word ∈ words, separator ∉ word) :
    ((line.splitOn separator).filter fun piece => !piece.isEmpty) = words := by
  induction spaced with
  | nil => rfl
  | last word =>
    rw [List.splitOn_eq_singleton (runs word List.mem_cons_self), filter_isEmpty_cons,
      if_neg (ne_nil word List.mem_cons_self)]
    rfl
  | skip kind _ ih =>
    rw [List.splitOn_cons_eq_if_modifyHead, if_pos kind, filter_isEmpty_cons, if_pos rfl]
    exact ih ne_nil runs
  | cons word kind _ ih =>
    have behind := ih (fun w member => ne_nil w (List.mem_cons_of_mem word member))
      fun w member => runs w (List.mem_cons_of_mem word member)
    rw [eq_of_beq kind, List.splitOn_append_cons_self_of_not_mem (runs word List.mem_cons_self),
      filter_isEmpty_cons, if_neg (ne_nil word List.mem_cons_self), behind]

/-- **A line has one list of words**, the pieces of a cut that are not empty. -/
theorem wordsOf_iff : WordsOf separator words line ↔
    words = (line.splitOn separator).filter fun piece => !piece.isEmpty := by
  refine ⟨fun h => (h.spaced.filter_splitOn h.ne_nil h.runs).symm, ?_⟩
  rintro rfl
  have spaced := spaced_intercalate separator (line.splitOn separator)
  rw [List.intercalate_splitOn] at spaced
  refine ⟨spaced, fun word member => ?_, fun word member => ?_⟩
  · simpa using (List.mem_filter.mp member).2
  · exact (mem_splitOn (List.mem_filter.mp member).1).1

/-- A line has words unless it has nothing but separators. -/
theorem WordsOf.ne_nil_iff (h : WordsOf separator words line) :
    words ≠ [] ↔ ∃ c ∈ line, c ≠ separator := by
  constructor
  · intro some
    obtain ⟨word, member⟩ := List.exists_mem_of_ne_nil words some
    obtain ⟨c, inside⟩ := List.exists_mem_of_ne_nil word (h.ne_nil word member)
    refine ⟨c, h.spaced.mem_line member c inside, ?_⟩
    rintro rfl
    exact h.runs word member inside
  · rintro ⟨c, member, other⟩
    have spaced := h.spaced
    clear h
    induction spaced with
    | nil => cases member
    | last => exact List.cons_ne_nil _ _
    | cons => exact List.cons_ne_nil _ _
    | skip kind _ ih =>
      rcases List.mem_cons.mp member with rfl | behind
      · exact absurd (eq_of_beq kind) other
      · exact ih behind

/-- A text without separators is a word by itself. -/
theorem wordsOf_singleton {word : List Char} (ne_nil : word ≠ []) (run : separator ∉ word) :
    WordsOf separator [word] word where
  spaced := .last word
  ne_nil _ member := List.mem_singleton.mp member ▸ ne_nil
  runs _ member := List.mem_singleton.mp member ▸ run

end SqlAccess.Text
