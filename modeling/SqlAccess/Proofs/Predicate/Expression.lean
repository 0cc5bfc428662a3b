import SqlAccess.Proofs.Predicate.Lexeme

/-!
# Boolean expressions and their precedence

A condition is a chain of operands with AND and OR between them. AND binds tighter than OR, so an OR
parts a chain in two (`truth_chained_or`), and an AND joins two chains as a whole only if neither
has an OR (`Chain.truth_join_all`). A chain without OR is *tight*. Wherever a tight chain is put
into another behind an AND, the result holds only where the other holds by itself
(`Chain.joined_yes_of_insert`).

The truth values are those of SQL, so an atom may also be unknown.
-/

namespace SqlAccess

/-! ## Truth values -/

/-- The truth values of SQL. -/
inductive Truth where
  | no
  | unknown
  | yes
  deriving DecidableEq, Repr

namespace Truth

/-- The lesser of two truth values. -/
def and : Truth → Truth → Truth
  | .no, _ | _, .no => .no
  | .unknown, _ | _, .unknown => .unknown
  | .yes, .yes => .yes

/-- The greater of two truth values. -/
def or : Truth → Truth → Truth
  | .yes, _ | _, .yes => .yes
  | .unknown, _ | _, .unknown => .unknown
  | .no, .no => .no

def not : Truth → Truth
  | .no => .yes
  | .unknown => .unknown
  | .yes => .no

/-- Do all the values hold? -/
def all : List Truth → Truth :=
  List.foldr and .yes

/-- Does some of the values hold? -/
def any : List Truth → Truth :=
  List.foldr or .no

theorem and_assoc (a b c : Truth) : (a.and b).and c = a.and (b.and c) := by
  cases a <;> cases b <;> cases c <;> rfl

theorem or_assoc (a b c : Truth) : (a.or b).or c = a.or (b.or c) := by
  cases a <;> cases b <;> cases c <;> rfl

@[simp] theorem and_yes (a : Truth) : a.and .yes = a := by cases a <;> rfl

@[simp] theorem or_no (a : Truth) : a.or .no = a := by cases a <;> rfl

theorem and_eq_yes {a b : Truth} : a.and b = .yes ↔ a = .yes ∧ b = .yes := by
  cases a <;> cases b <;> decide

theorem or_eq_yes {a b : Truth} : a.or b = .yes ↔ a = .yes ∨ b = .yes := by
  cases a <;> cases b <;> decide

end Truth

/-! ## Expressions and chains -/

/-- A condition as it is understood. -/
inductive Expression where
  | atom (lexemes : List Lexeme)
  | not (e : Expression)
  | and (e f : Expression)
  | or (e f : Expression)

namespace Expression

/-- The truth value of a condition, given those of the atoms. -/
def truth (holds : List Lexeme → Truth) : Expression → Truth
  | .atom lexemes => holds lexemes
  | .not e => (e.truth holds).not
  | .and e f => (e.truth holds).and (f.truth holds)
  | .or e f => (e.truth holds).or (f.truth holds)

/-- The condition with the values of the table for its placeholders. -/
def filledFrom (table : Params) : Expression → Expression
  | .atom lexemes => .atom (lexemes.map (·.filledFrom table))
  | .not e => .not (e.filledFrom table)
  | .and e f => .and (e.filledFrom table) (f.filledFrom table)
  | .or e f => .or (e.filledFrom table) (f.filledFrom table)

end Expression

/-- Operands, every further one with the connective in front of it. -/
structure Chain (α : Type) where
  first : α
  more : List (Connective × α) := []

namespace Chain

variable {α β : Type}

/-- The operands of both chains, with the connective between them. -/
def join (connective : Connective) (a b : Chain α) : Chain α :=
  ⟨a.first, a.more ++ (connective, b.first) :: b.more⟩

/-- The operands of all the chains, with the connective between neighbours. -/
def joined (connective : Connective) : List (Chain α) → Option (Chain α)
  | [] => none
  | [a] => some a
  | a :: b :: rest => (joined connective (b :: rest)).map (a.join connective)

def map (f : α → β) (c : Chain α) : Chain β :=
  ⟨f c.first, c.more.map fun operand => (operand.1, f operand.2)⟩

/-- The chain of what the operands give, if each of them gives something. -/
def mapM? (f : α → Option β) (c : Chain α) : Option (Chain β) :=
  (f c.first).bind fun first =>
    (c.more.mapM fun operand => (f operand.2).map (operand.1, ·)).map (Chain.mk first)

/-- Are there only ANDs in the chain? -/
def isTight (c : Chain α) : Bool :=
  c.more.all fun operand => operand.1 == .all

end Chain

/-- The condition that a chain is, with the given one in front of the further operands. An AND takes
its operand to what stands in front of it, and any other connective ends that. -/
def Expression.chained : Expression → List (Connective × Expression) → Expression
  | e, [] => e
  | e, (.all, f) :: more => chained (.and e f) more
  | e, (_, f) :: more => .or e (chained f more)

/-- The condition that a chain is. -/
def Chain.expression (c : Chain Expression) : Expression :=
  .chained c.first c.more

/-! ## The truth of a chain -/

/-- Are there only ANDs in front of the operands? -/
def onlyAnd (more : List (Connective × Expression)) : Bool :=
  more.all fun operand => operand.1 == .all

namespace Expression

variable {holds : List Lexeme → Truth} {e f : Expression}
  {more more' : List (Connective × Expression)}

theorem onlyAnd_cons {operand : Connective × Expression} :
    onlyAnd (operand :: more) = true ↔ operand.1 = .all ∧ onlyAnd more = true := by
  rw [onlyAnd, List.all_cons, Bool.and_eq_true, beq_iff_eq]
  rfl

/-- Behind ANDs alone, the further operands go on with all that stands in front of them. -/
theorem chained_append (tight : onlyAnd more = true) :
    chained e (more ++ more') = chained (chained e more) more' := by
  induction more generalizing e with
  | nil => rfl
  | cons operand more ih =>
    obtain ⟨connective, f⟩ := operand
    obtain ⟨rfl, tight⟩ := onlyAnd_cons.mp tight
    exact ih tight

/-- With ANDs alone, what stands in front has to hold besides the rest. -/
theorem truth_chained_and (tight : onlyAnd more = true) :
    (chained (.and e f) more).truth holds = (e.truth holds).and ((chained f more).truth holds) := by
  induction more generalizing e f with
  | nil => rfl
  | cons operand more ih =>
    obtain ⟨connective, g⟩ := operand
    obtain ⟨rfl, tight⟩ := onlyAnd_cons.mp tight
    change (chained (.and (.and e f) g) more).truth holds =
      (e.truth holds).and ((chained (.and f g) more).truth holds)
    rw [ih tight, ih tight, truth, Truth.and_assoc]

/-- An OR splits a chain in two. -/
theorem truth_chained_or : (chained e (more ++ (.any, f) :: more')).truth holds =
    ((chained e more).truth holds).or ((chained f more').truth holds) := by
  induction more generalizing e with
  | nil => rfl
  | cons operand more ih =>
    obtain ⟨connective, g⟩ := operand
    cases connective with
    | all => exact ih
    | any | among | notAmong =>
      change (e.truth holds).or ((chained g (more ++ (.any, f) :: more')).truth holds) =
        ((e.truth holds).or ((chained g more).truth holds)).or _
      rw [ih, Truth.or_assoc]

/-- A chain that holds goes on to hold when what stands in front is replaced by something that
holds whenever that does. -/
theorem chained_yes_of_first (weaker : e.truth holds = .yes → f.truth holds = .yes)
    (h : (chained e more).truth holds = .yes) : (chained f more).truth holds = .yes := by
  induction more generalizing e f with
  | nil => exact weaker h
  | cons operand more ih =>
    obtain ⟨connective, g⟩ := operand
    cases connective with
    | all =>
      refine ih (fun both => ?_) h
      obtain ⟨first, second⟩ := Truth.and_eq_yes.mp both
      exact Truth.and_eq_yes.mpr ⟨weaker first, second⟩
    | any | among | notAmong =>
      rcases Truth.or_eq_yes.mp h with first | rest
      · exact Truth.or_eq_yes.mpr (.inl (weaker first))
      · exact Truth.or_eq_yes.mpr (.inr rest)

/-- **A chain that holds goes on to hold without operands that only ANDs join**, wherever they
stand. -/
theorem chained_yes_of_insert {inserted : List (Connective × Expression)}
    (tight : onlyAnd inserted = true)
    (h : (chained e (more ++ (inserted ++ more'))).truth holds = .yes) :
    (chained e (more ++ more')).truth holds = .yes := by
  induction more generalizing e with
  | nil =>
    rw [List.nil_append, chained_append tight] at h
    refine chained_yes_of_first (fun all => ?_) h
    cases inserted with
    | nil => exact all
    | cons operand inserted =>
      obtain ⟨connective, g⟩ := operand
      obtain ⟨rfl, rest⟩ := onlyAnd_cons.mp tight
      change (chained (.and e g) inserted).truth holds = .yes at all
      rw [truth_chained_and rest] at all
      exact (Truth.and_eq_yes.mp all).1
  | cons operand more ih =>
    obtain ⟨connective, g⟩ := operand
    cases connective with
    | all => exact ih h
    | any | among | notAmong =>
      rcases Truth.or_eq_yes.mp h with first | rest
      · exact Truth.or_eq_yes.mpr (.inl first)
      · exact Truth.or_eq_yes.mpr (.inr (ih rest))

end Expression

namespace Chain

variable {holds : List Lexeme → Truth} {table : Params} {a b c : Chain Expression}
  {chains rest : List (Chain Expression)}

/-- The truth value of a chain. -/
def truth (holds : List Lexeme → Truth) (c : Chain Expression) : Truth :=
  c.expression.truth holds

theorem isTight_join (connective : Connective) : (a.join connective b).isTight =
    (a.isTight && (connective == .all && b.isTight)) := by
  simp only [isTight, join, List.all_append, List.all_cons]

theorem truth_join_all (first : a.isTight = true) (second : b.isTight = true) :
    (a.join .all b).truth holds = (a.truth holds).and (b.truth holds) := by
  unfold truth expression join
  rw [Expression.chained_append first]
  exact Expression.truth_chained_and second

theorem truth_join_any : (a.join .any b).truth holds = (a.truth holds).or (b.truth holds) :=
  Expression.truth_chained_or

/-- Chains without OR that are joined by AND hold when each of them holds. -/
theorem truth_joined_all : ∀ {chains : List (Chain Expression)},
    (∀ c ∈ chains, c.isTight = true) → ∀ whole ∈ joined .all chains,
      whole.isTight = true ∧ whole.truth holds = Truth.all (chains.map (·.truth holds))
  | [], _, _, member => nomatch member
  | [a], tight, _, rfl => ⟨tight a List.mem_cons_self, (Truth.and_yes _).symm⟩
  | a :: b :: rest, tight, _, member => by
    obtain ⟨others, joins, rfl⟩ := Option.map_eq_some_iff.mp member
    have first := tight a List.mem_cons_self
    obtain ⟨second, value⟩ :=
      truth_joined_all (fun c member => tight c (List.mem_cons_of_mem a member)) others joins
    rw [isTight_join, first, second, truth_join_all first second, value]
    exact ⟨rfl, rfl⟩

/-- Chains that are joined by OR hold when some of them holds. -/
theorem truth_joined_any : ∀ {chains : List (Chain Expression)}, ∀ whole ∈ joined .any chains,
    whole.truth holds = Truth.any (chains.map (·.truth holds))
  | [], _, member => nomatch member
  | [a], _, rfl => (Truth.or_no _).symm
  | a :: b :: rest, _, member => by
    obtain ⟨others, joins, rfl⟩ := Option.map_eq_some_iff.mp member
    rw [truth_join_any, truth_joined_any others joins]
    rfl

/-- The operands of further chains, with an AND in front of each chain. -/
def operandsOf (chains : List (Chain Expression)) : List (Connective × Expression) :=
  chains.flatMap fun c => (.all, c.first) :: c.more

theorem joined_all_cons :
    joined .all (a :: rest) = some ⟨a.first, a.more ++ operandsOf rest⟩ := by
  induction rest generalizing a with
  | nil =>
    rw [operandsOf, List.flatMap_nil, List.append_nil]
    rfl
  | cons b rest ih =>
    rw [joined, ih]
    rfl

/-- **Joined chains that hold go on to hold without one that has only ANDs**, wherever it stands. -/
theorem joined_yes_of_insert {front : List (Chain Expression)} (tight : c.isTight = true)
    (h : ∀ whole ∈ joined .all (front ++ c :: rest), whole.truth holds = .yes) :
    ∀ whole ∈ joined .all (front ++ rest), whole.truth holds = .yes := by
  have inserted : onlyAnd ((.all, c.first) :: c.more) = true :=
    Expression.onlyAnd_cons.mpr ⟨rfl, tight⟩
  cases front with
  | cons a front =>
    intro whole member
    rw [List.cons_append, joined_all_cons] at h member
    cases member
    have holdsAll := h _ rfl
    unfold truth expression operandsOf at holdsAll ⊢
    rw [List.flatMap_append, List.flatMap_cons, ← List.append_assoc] at holdsAll
    rw [List.flatMap_append, ← List.append_assoc]
    exact Expression.chained_yes_of_insert inserted holdsAll
  | nil =>
    cases rest with
    | nil => exact fun whole member => nomatch member
    | cons b rest =>
      intro whole member
      rw [List.nil_append, joined_all_cons] at h member
      cases member
      have holdsAll := h _ rfl
      unfold truth expression at holdsAll ⊢
      dsimp only [operandsOf, List.flatMap_cons, List.cons_append] at holdsAll ⊢
      rw [Expression.chained_append tight] at holdsAll
      have weaker : (Expression.and (.chained c.first c.more) b.first).truth holds = .yes →
          b.first.truth holds = .yes := fun both => (Truth.and_eq_yes.mp both).2
      exact Expression.chained_yes_of_first weaker holdsAll

/-! ## Filling a chain -/

/-- The chain with the values of the table for its placeholders. -/
def filledFrom (table : Params) (c : Chain Expression) : Chain Expression :=
  c.map (·.filledFrom table)

theorem filledFrom_join (connective : Connective) :
    (a.join connective b).filledFrom table =
      (a.filledFrom table).join connective (b.filledFrom table) := by
  simp only [filledFrom, map, join, List.map_append, List.map_cons]

theorem isTight_filledFrom : (c.filledFrom table).isTight = c.isTight := by
  simp only [filledFrom, map, isTight, List.all_map, Function.comp_def]

theorem expression_filledFrom :
    (c.filledFrom table).expression = c.expression.filledFrom table := by
  obtain ⟨first, more⟩ := c
  unfold expression filledFrom map
  dsimp only
  induction more generalizing first with
  | nil => rfl
  | cons operand more ih =>
    obtain ⟨connective, f⟩ := operand
    cases connective with
    | all => exact ih (.and first f)
    | any | among | notAmong =>
      exact congrArg (Expression.or (first.filledFrom table)) (ih f)

end Chain

end SqlAccess
