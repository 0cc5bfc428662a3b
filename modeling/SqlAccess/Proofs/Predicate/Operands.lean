import SqlAccess.Proofs.Predicate.Expression

/-!
# Reading a condition

The operands of a condition are what stands between its ANDs and ORs. An operand in parentheses is a
condition again, NOT stands in front of an operand, and any other operand is an *atom*, whose
lexemes are not looked into. What stands in brackets inside an atom is part of it, and so is the AND
of a BETWEEN.

`Dialect.chain?` is the reading of a text, and a text that it reads is a complete condition. Two
laws say how complete conditions are put together: with a connective between them they are one
chain (`Dialect.chain?_join`), and in parentheses they are one operand
(`Dialect.chain?_parenthesized`). They hold because a text is read only when it closes all its
brackets, and all its BETWEENs have had their AND.
-/

namespace SqlAccess

/-! ## Reading -/

/-- What stays open until it is closed inside an operand. -/
inductive Bracket where
  | parenthesis
  | case
  deriving DecidableEq

namespace Lexeme

/-- Is the lexeme the keyword, in either case of letters? -/
def spells (keyword : String) : Lexeme → Bool
  | .word letters => letters.map Char.toUpper == keyword.toList
  | _ => false

/-- Is the lexeme the sign? -/
def isSign (c : Char) : Lexeme → Bool
  | .sign s => s == c
  | _ => false

/-- The open brackets behind the lexeme, the innermost first. -/
def nested (brackets : List Bracket) (l : Lexeme) : Option (List Bracket) :=
  if l.isSign '(' then some (.parenthesis :: brackets)
  else if l.isSign ')' then
    match brackets with
    | .parenthesis :: outer => some outer
    | _ => none
  else if l.spells "CASE" then some (.case :: brackets)
  else if l.spells "END" then
    match brackets with
    | .case :: outer => some outer
    | _ => some brackets
  else some brackets

end Lexeme

/-- The open brackets behind the lexemes. -/
def nestedAll (brackets : List Bracket) (ls : List Lexeme) : Option (List Bracket) :=
  ls.foldlM Lexeme.nested brackets

/-- Where in an operand the reading stands: in which brackets, and behind how many BETWEENs that
have not had their AND. -/
structure Place where
  brackets : List Bracket := []
  ranges : Nat := 0
  deriving DecidableEq

/-- What a lexeme is where it stands. -/
inductive Role where
  /-- It stands between two operands. -/
  | joint (connective : Connective)
  /-- It is part of the operand, and leads to the given place. -/
  | part (next : Place)

/-- The open brackets behind a lexeme with the role. -/
def Role.brackets : Role → List Bracket
  | .joint _ => []
  | .part next => next.brackets

/-- The role of a lexeme, if it can stand there. -/
def Place.role (place : Place) (l : Lexeme) : Option Role :=
  match place.brackets with
  | _ :: _ => (l.nested place.brackets).map fun brackets => .part { place with brackets }
  | [] =>
    if l.spells "OR" then if place.ranges = 0 then some (.joint .any) else none
    else if l.spells "AND" then
      if place.ranges = 0 then some (.joint .all)
      else some (.part { place with ranges := place.ranges - 1 })
    else if l.spells "XOR" then none
    else if l.spells "BETWEEN" then some (.part { place with ranges := place.ranges + 1 })
    else (l.nested []).map fun brackets => .part { place with brackets }

/-- The operands of a condition, from the given place in the first of them on. -/
def operands : Place → List Lexeme → Option (Chain (List Lexeme))
  | place, [] => if place = {} then some ⟨[], []⟩ else none
  | place, l :: ls =>
    match place.role l with
    | none => none
    | some (.joint connective) =>
      (operands {} ls).map fun c => ⟨[], (connective, c.first) :: c.more⟩
    | some (.part next) => (operands next ls).map fun c => ⟨l :: c.first, c.more⟩

/-- What stands between the parentheses around the whole operand, if there are such. -/
def enclosed? : List Lexeme → Option (List Lexeme)
  | [] => none
  | l :: ls =>
    if l.isSign '(' ∧ ls.getLast?.any (·.isSign ')') ∧ nestedAll [] ls.dropLast = some [] then
      some ls.dropLast
    else none

/-- What an operand is, given what the text in its parentheses is. -/
def operand? (inside : List Lexeme → Option Expression) : List Lexeme → Option Expression
  | [] => none
  | l :: ls =>
    if l.spells "NOT" then (operand? inside ls).map .not
    else match enclosed? (l :: ls) with
      | some inner => inside inner
      | none => some (.atom (l :: ls))

/-- The chain that the lexemes are, where parentheses may be nested to the given depth. -/
def chain? : Nat → List Lexeme → Option (Chain Expression)
  | 0, _ => none
  | depth + 1, ls =>
    (operands {} ls).bind fun c =>
      c.mapM? (operand? fun inner => (chain? depth inner).map Chain.expression)

namespace Dialect

/-- The chain that a text is. Parentheses cannot be nested deeper than there are lexemes. -/
def chain? (d : Dialect) (text : String) : Option (Chain Expression) :=
  (d.lexemes? text).bind fun ls => SqlAccess.chain? (ls.length + 1) ls

/-- The condition that a text is, if it is a complete one. -/
def expression? (d : Dialect) (text : String) : Option Expression :=
  (d.chain? text).map Chain.expression

/-- The truth value of a text under a table, if it is a complete condition. -/
def truth? (d : Dialect) (table : Params) (holds : List Lexeme → Truth) (text : String) :
    Option Truth :=
  (d.expression? text).map fun e => (e.filledFrom table).truth holds

/-- Does the text have no OR outside parentheses? -/
def isTight (d : Dialect) (text : String) : Bool :=
  (d.chain? text).all Chain.isTight

end Dialect

/-- AND binds tighter than OR, and the AND of a BETWEEN is part of its atom. -/
example : (Dialect.mysql.expression? "a = 'x OR y' or NOT (b OR c) and d between 1 and 2").map
    (fun e => e.truth fun atom => if atom.length = 1 then .no else .yes) = some .yes := by rfl

/-! ## How readings are put together -/

section

variable {l : Lexeme} {ls ls' : List Lexeme} {brackets closed : List Bracket} {place : Place}

/-- The lexeme of a connective. -/
def Connective.lexeme (connective : Connective) : Lexeme :=
  .word connective.sql.toList

theorem role_joint {connective : Connective} (boolean : connective.isBoolean = true) :
    Place.role {} connective.lexeme = some (.joint connective) := by
  cases connective with
  | all => rfl
  | any => rfl
  | among | notAmong => cases boolean

/-- **A connective between two whole conditions joins their operands.** -/
theorem operands_join {connective : Connective} (boolean : connective.isBoolean = true)
    {a b : Chain (List Lexeme)} (first : operands place ls = some a)
    (second : operands {} ls' = some b) :
    operands place (ls ++ connective.lexeme :: ls') = some (a.join connective b) := by
  induction ls generalizing place a with
  | nil =>
    rw [operands] at first
    split at first
    next rest =>
      cases first
      rw [List.nil_append, operands, rest, role_joint boolean, second]
      rfl
    next => cases first
  | cons l ls ih =>
    rw [operands] at first
    rw [List.cons_append, operands]
    cases role : place.role l with
    | none =>
      rw [role] at first
      cases first
    | some r =>
      rw [role] at first
      cases r with
      | joint connective' =>
        obtain ⟨c, tail, rfl⟩ := Option.map_eq_some_iff.mp first
        dsimp only
        rw [ih tail]
        rfl
      | part next =>
        obtain ⟨c, tail, rfl⟩ := Option.map_eq_some_iff.mp first
        dsimp only
        rw [ih tail]
        rfl

theorem Chain.mapM?_join {α β : Type} {f : α → Option β} {a b : Chain α} {a' b' : Chain β}
    (connective : Connective) (first : a.mapM? f = some a') (second : b.mapM? f = some b') :
    (a.join connective b).mapM? f = some (a'.join connective b') := by
  obtain ⟨x, hx, first⟩ := Option.bind_eq_some_iff.mp first
  obtain ⟨xs, hxs, rfl⟩ := Option.map_eq_some_iff.mp first
  obtain ⟨y, hy, second⟩ := Option.bind_eq_some_iff.mp second
  obtain ⟨ys, hys, rfl⟩ := Option.map_eq_some_iff.mp second
  simp only [mapM?, join, hx, hxs, hy, hys, List.mapM_append, List.mapM_cons, Option.bind_some,
    Option.map_some, Option.pure_def, Option.bind_eq_bind]

/-! ### Deeper nesting -/

theorem operand?_mono {inside inside' : List Lexeme → Option Expression} {e : Expression}
    (further : ∀ ls e, inside ls = some e → inside' ls = some e)
    (h : operand? inside ls = some e) : operand? inside' ls = some e := by
  induction ls generalizing e with
  | nil => cases h
  | cons l ls ih =>
    rw [operand?] at h ⊢
    split at h
    next negated =>
      obtain ⟨f, inner, rfl⟩ := Option.map_eq_some_iff.mp h
      rw [if_pos negated, ih inner]
      rfl
    next plain =>
      rw [if_neg plain]
      cases enclosed : enclosed? (l :: ls) with
      | none =>
        rw [enclosed] at h
        exact h
      | some inner =>
        rw [enclosed] at h
        exact further inner e h

theorem mapM_mono {α β : Type} {f g : α → Option β} {xs : List α} {ys : List β}
    (further : ∀ x y, f x = some y → g x = some y) (h : xs.mapM f = some ys) :
    xs.mapM g = some ys := by
  induction xs generalizing ys with
  | nil => exact h
  | cons x xs ih =>
    rw [List.mapM_cons] at h ⊢
    obtain ⟨y, here, h⟩ := Option.bind_eq_some_iff.mp h
    obtain ⟨ys, rest, h⟩ := Option.bind_eq_some_iff.mp h
    rw [further x y here, ih rest]
    exact h

theorem Chain.mapM?_mono {α β : Type} {f g : α → Option β} {a : Chain α} {b : Chain β}
    (further : ∀ x y, f x = some y → g x = some y) (h : a.mapM? f = some b) :
    a.mapM? g = some b := by
  obtain ⟨y, here, h⟩ := Option.bind_eq_some_iff.mp h
  obtain ⟨ys, rest, rfl⟩ := Option.map_eq_some_iff.mp h
  have others : a.more.mapM (fun operand => (g operand.2).map (operand.1, ·)) = some ys := by
    refine mapM_mono (fun operand result h => ?_) rest
    obtain ⟨z, this, rfl⟩ := Option.map_eq_some_iff.mp h
    rw [further _ _ this]
    rfl
  rw [mapM?, further _ _ here, Option.bind_some, others]
  rfl

theorem chain?_succ {depth : Nat} {c : Chain Expression} (h : chain? depth ls = some c) :
    chain? (depth + 1) ls = some c := by
  induction depth generalizing ls c with
  | zero => cases h
  | succ depth ih =>
    rw [chain?] at h ⊢
    obtain ⟨parts, cut, h⟩ := Option.bind_eq_some_iff.mp h
    rw [cut, Option.bind_some]
    refine Chain.mapM?_mono (fun part e => operand?_mono fun inner e h => ?_) h
    obtain ⟨c, read, rfl⟩ := Option.map_eq_some_iff.mp h
    rw [ih read]
    rfl

theorem chain?_of_le {depth depth' : Nat} {c : Chain Expression} (le : depth ≤ depth')
    (h : chain? depth ls = some c) : chain? depth' ls = some c := by
  induction le with
  | refl => exact h
  | step _ ih => exact chain?_succ ih

/-! ### Brackets -/

theorem nested_of_spells {keyword : String} (spelled : l.spells keyword = true)
    (other : keyword ≠ "CASE" ∧ keyword ≠ "END") : l.nested brackets = some brackets := by
  cases l with
  | word letters =>
    have same : letters.map Char.toUpper = keyword.toList := beq_iff_eq.mp spelled
    have differs : ∀ keyword', keyword ≠ keyword' →
        (Lexeme.word letters).spells keyword' = false := by
      intro keyword' differs
      rw [Lexeme.spells, same, beq_eq_false_iff_ne]
      exact fun equal => differs (String.toList_inj.mp equal)
    simp only [Lexeme.nested, differs _ other.1, differs _ other.2, Lexeme.isSign,
      Bool.false_eq_true, if_false]
  | quoted | sign | value => cases spelled

/-- What closes in a text closes in it also when parentheses are open around the text. -/
theorem nested_append (h : l.nested brackets = some closed) :
    l.nested (brackets ++ [.parenthesis]) = some (closed ++ [.parenthesis]) := by
  unfold Lexeme.nested at h ⊢
  split_ifs at h ⊢
  · cases h
    rfl
  · match brackets, h with
    | .parenthesis :: outer, h =>
      cases h
      rfl
  · cases h
    rfl
  · match brackets, h with
    | [], h =>
      cases h
      rfl
    | .parenthesis :: outer, h =>
      cases h
      rfl
    | .case :: outer, h =>
      cases h
      rfl
  · cases h
    rfl

theorem nestedAll_cons : nestedAll brackets (l :: ls) =
    (l.nested brackets).bind fun next => nestedAll next ls := rfl

theorem nestedAll_append (ls ls' : List Lexeme) : nestedAll brackets (ls ++ ls') =
    (nestedAll brackets ls).bind fun next => nestedAll next ls' :=
  List.foldlM_append

theorem nested_of_role {r : Role} (h : place.role l = some r) :
    l.nested place.brackets = some r.brackets := by
  obtain ⟨brackets, ranges⟩ := place
  cases brackets with
  | cons bracket outer =>
    obtain ⟨next, inner, rfl⟩ := Option.map_eq_some_iff.mp h
    exact inner
  | nil =>
    -- A word that parts operands, or holds one together, is no bracket.
    have word : ∀ keyword : String, keyword ≠ "CASE" ∧ keyword ≠ "END" →
        l.spells keyword = true → l.nested [] = some [] :=
      fun keyword other spelled => nested_of_spells spelled other
    dsimp only [Place.role] at h
    split_ifs at h with or _ and _ xor between
    · cases h
      exact word "OR" ⟨by decide, by decide⟩ or
    · cases h
      exact word "AND" ⟨by decide, by decide⟩ and
    · cases h
      exact word "AND" ⟨by decide, by decide⟩ and
    · cases h
      exact word "BETWEEN" ⟨by decide, by decide⟩ between
    · obtain ⟨next, inner, rfl⟩ := Option.map_eq_some_iff.mp h
      exact inner

/-- A whole condition closes what it opens. -/
theorem nestedAll_of_operands {a : Chain (List Lexeme)} (h : operands place ls = some a) :
    nestedAll place.brackets ls = some [] := by
  induction ls generalizing place a with
  | nil =>
    rw [operands] at h
    split at h
    next rest =>
      rw [rest]
      rfl
    next => cases h
  | cons l ls ih =>
    rw [operands] at h
    rw [nestedAll_cons]
    cases role : place.role l with
    | none =>
      rw [role] at h
      cases h
    | some r =>
      rw [role] at h
      rw [nested_of_role role, Option.bind_some]
      cases r with
      | joint connective =>
        obtain ⟨c, tail, -⟩ := Option.map_eq_some_iff.mp h
        exact ih tail
      | part next =>
        obtain ⟨c, tail, -⟩ := Option.map_eq_some_iff.mp h
        exact ih tail

/-- The chain with the lexemes in front of its first operand. -/
def Chain.behind (ls : List Lexeme) (c : Chain (List Lexeme)) : Chain (List Lexeme) :=
  ⟨ls ++ c.first, c.more⟩

/-- Inside parentheses, everything is part of the operand. -/
theorem operands_inside {ranges : Nat} (balanced : nestedAll brackets ls = some closed) :
    operands ⟨brackets ++ [.parenthesis], ranges⟩ (ls ++ ls') =
      (operands ⟨closed ++ [.parenthesis], ranges⟩ ls').map (.behind ls) := by
  induction ls generalizing brackets with
  | nil =>
    cases balanced
    exact Option.map_id_apply.symm
  | cons l ls ih =>
    rw [nestedAll_cons] at balanced
    obtain ⟨next, here, balanced⟩ := Option.bind_eq_some_iff.mp balanced
    have role : Place.role ⟨brackets ++ [.parenthesis], ranges⟩ l =
        some (.part ⟨next ++ [.parenthesis], ranges⟩) := by
      have inner := nested_append here
      unfold Place.role
      split
      next => rw [inner]; rfl
      next outside => cases brackets <;> cases outside
    rw [List.cons_append, operands, role]
    dsimp only
    rw [ih balanced, Option.map_map]
    rfl

/-- **Text in parentheses is part of one operand**, if it closes what it opens. -/
theorem operands_parenthesized {ranges : Nat} (balanced : nestedAll [] ls = some []) :
    operands ⟨[], ranges⟩ (.sign '(' :: (ls ++ .sign ')' :: ls')) =
      (operands ⟨[], ranges⟩ ls').map (.behind (.sign '(' :: (ls ++ [.sign ')']))) := by
  have opens : Place.role ⟨[], ranges⟩ (.sign '(') = some (.part ⟨[.parenthesis], ranges⟩) := rfl
  have closes : Place.role ⟨[.parenthesis], ranges⟩ (.sign ')') = some (.part ⟨[], ranges⟩) := rfl
  have inside := @operands_inside ls (.sign ')' :: ls') [] [] ranges balanced
  rw [List.nil_append] at inside
  rw [operands, opens]
  dsimp only
  rw [inside, operands, closes]
  dsimp only
  rw [Option.map_map, Option.map_map]
  congr 1
  funext c
  simp only [Function.comp_apply, Chain.behind, List.append_assoc, List.cons_append,
    List.nil_append]

theorem enclosed?_parenthesized (balanced : nestedAll [] ls = some []) :
    enclosed? (.sign '(' :: (ls ++ [.sign ')'])) = some ls := by
  rw [enclosed?, List.getLast?_append, List.dropLast_concat, if_pos]
  exact ⟨rfl, rfl, balanced⟩

/-- **A whole condition in parentheses is one operand.** -/
theorem chain?_parenthesized {depth : Nat} {c : Chain Expression} (h : chain? depth ls = some c) :
    chain? (depth + 1) (.sign '(' :: (ls ++ [.sign ')'])) = some ⟨c.expression, []⟩ := by
  cases depth with
  | zero => cases h
  | succ depth =>
    obtain ⟨parts, cut, -⟩ := Option.bind_eq_some_iff.mp h
    have balanced : nestedAll [] ls = some [] := nestedAll_of_operands cut
    have alone : operands {} (.sign '(' :: (ls ++ [.sign ')'])) =
        some ⟨.sign '(' :: (ls ++ [.sign ')']), []⟩ := by
      rw [operands_parenthesized balanced]
      simp only [operands, if_true, Option.map_some, Chain.behind, List.append_nil]
    have operand : operand? (fun inner => (chain? (depth + 1) inner).map Chain.expression)
        (.sign '(' :: (ls ++ [.sign ')'])) = some c.expression := by
      have plain : (Lexeme.sign '(').spells "NOT" = false := rfl
      rw [operand?, plain, if_neg Bool.false_ne_true, enclosed?_parenthesized balanced]
      dsimp only
      rw [h]
      rfl
    rw [chain?, alone, Option.bind_some, Chain.mapM?, operand]
    rfl

/-! ### Atoms -/

/-- Is the lexeme no bracket, and none of the words that part or open an operand? -/
def Lexeme.isInert (l : Lexeme) : Bool :=
  !(l.isSign '(' || l.isSign ')' ||
    ["OR", "AND", "XOR", "BETWEEN", "CASE", "END"].any l.spells)

theorem nested_of_isInert (inert : l.isInert = true) : l.nested brackets = some brackets := by
  simp only [Lexeme.isInert, List.any_cons, Bool.not_eq_true', Bool.or_eq_false_iff] at inert
  obtain ⟨⟨opening, closing⟩, -, -, -, -, case, ending, -⟩ := inert
  simp only [Lexeme.nested, opening, closing, case, ending, Bool.false_eq_true, if_false]

theorem role_of_isInert (inert : l.isInert = true) : place.role l = some (.part place) := by
  have inner := @nested_of_isInert l place.brackets inert
  simp only [Lexeme.isInert, List.any_cons, Bool.not_eq_true', Bool.or_eq_false_iff] at inert
  obtain ⟨-, or, and, xor, between, -⟩ := inert
  obtain ⟨brackets, ranges⟩ := place
  cases brackets with
  | nil =>
    dsimp only at inner
    simp only [Place.role, or, and, xor, between, inner, Bool.false_eq_true, if_false,
      Option.map_some]
  | cons bracket outer =>
    dsimp only at inner
    simp only [Place.role, inner, Option.map_some]

theorem operands_of_isInert (inert : ls.all Lexeme.isInert = true) :
    operands place (ls ++ ls') = (operands place ls').map (.behind ls) := by
  induction ls with
  | nil => exact Option.map_id_apply.symm
  | cons l ls ih =>
    rw [List.all_cons, Bool.and_eq_true] at inert
    rw [List.cons_append, operands, role_of_isInert inert.1]
    dsimp only
    rw [ih inert.2, Option.map_map]
    rfl

theorem nestedAll_of_isInert (inert : ls.all Lexeme.isInert = true) :
    nestedAll brackets ls = some brackets := by
  induction ls with
  | nil => rfl
  | cons l ls ih =>
    rw [List.all_cons, Bool.and_eq_true] at inert
    rw [nestedAll_cons, nested_of_isInert inert.1, Option.bind_some, ih inert.2]

/-- Inert lexemes are one operand. -/
theorem operands_alone (inert : ls.all Lexeme.isInert = true) :
    operands {} ls = some ⟨ls, []⟩ := by
  have whole := @operands_of_isInert ls [] {} inert
  rw [List.append_nil] at whole
  rw [whole]
  simp only [operands, if_true, Option.map_some, Chain.behind, List.append_nil]

/-- **An operand that starts with neither NOT nor a parenthesis is an atom.** -/
theorem chain?_atom {depth : Nat} (alone : operands {} (l :: ls) = some ⟨l :: ls, []⟩)
    (start : l.spells "NOT" = false ∧ l.isSign '(' = false) :
    chain? (depth + 1) (l :: ls) = some ⟨.atom (l :: ls), []⟩ := by
  have bare : enclosed? (l :: ls) = none := by
    rw [enclosed?, if_neg]
    rintro ⟨opening, -⟩
    rw [start.2] at opening
    cases opening
  rw [chain?, alone, Option.bind_some, Chain.mapM?, operand?, start.1, if_neg Bool.false_ne_true,
    bare]
  rfl

end

/-! ## How texts are put together -/

namespace Dialect

variable {d : Dialect} {a b : String} {ls ls' : List Lexeme} {rest : List Char}
  {c c' : Chain Expression}

/-- A blank behind a text ends its last lexeme. -/
theorem lex_append_blank (read : d.lexemes? a = some ls) :
    lex d .between (a.toList ++ ' ' :: rest) = (lex d .between rest).map (ls ++ ·) := by
  have outside : Lexing.between.Quotes := trivial
  rw [lex_append delimits_blank outside read, lex_blank]

theorem lexemes?_spaced (first : d.lexemes? a = some ls) (second : d.lexemes? b = some ls') :
    d.lexemes? (a ++ " " ++ b) = some (ls ++ ls') := by
  have spelled : (a ++ " " ++ b).toList = a.toList ++ ' ' :: b.toList := by
    simp only [String.toList_append, List.append_assoc]
    rfl
  rw [lexemes?, spelled, lex_append_blank first]
  change Option.map _ (d.lexemes? b) = _
  rw [second]
  rfl

theorem lexemes?_join {connective : Connective} (boolean : connective.isBoolean = true)
    (first : d.lexemes? a = some ls) (second : d.lexemes? b = some ls') :
    d.lexemes? (a ++ (" " ++ connective.sql ++ " ") ++ b) =
      some (ls ++ connective.lexeme :: ls') := by
  have word : d.lexemes? connective.sql = some [connective.lexeme] := by
    cases connective with
    | all | any => rfl
    | among | notAmong => cases boolean
  have spaced := lexemes?_spaced (lexemes?_spaced first word) second
  simpa only [String.append_assoc, List.append_assoc, List.singleton_append] using spaced

/-- **Complete conditions with a connective between them are one chain.** -/
theorem chain?_join {connective : Connective} (boolean : connective.isBoolean = true)
    (first : d.chain? a = some c) (second : d.chain? b = some c') :
    d.chain? (a ++ (" " ++ connective.sql ++ " ") ++ b) = some (c.join connective c') := by
  obtain ⟨ls, read, first⟩ := Option.bind_eq_some_iff.mp first
  obtain ⟨ls', read', second⟩ := Option.bind_eq_some_iff.mp second
  obtain ⟨parts, cut, first⟩ := Option.bind_eq_some_iff.mp
    (chain?_of_le (Nat.succ_le_succ (Nat.le_add_right ls.length (ls'.length + 1))) first)
  have deeper : ls'.length + 1 ≤ ls.length + (ls'.length + 1) + 1 := by omega
  obtain ⟨parts', cut', second⟩ := Option.bind_eq_some_iff.mp (chain?_of_le deeper second)
  rw [chain?, lexemes?_join boolean read read', Option.bind_some, List.length_append,
    List.length_cons, SqlAccess.chain?, operands_join boolean cut cut', Option.bind_some,
    Chain.mapM?_join connective first second]

theorem lexemes?_parenthesized (read : d.lexemes? a = some ls) :
    d.lexemes? ("( " ++ a ++ " )") = some (.sign '(' :: (ls ++ [.sign ')'])) := by
  have spelled : ("( " ++ a ++ " )").toList = '(' :: ' ' :: (a.toList ++ ' ' :: [')']) := by
    simp only [String.toList_append]
    rfl
  rw [lexemes?, spelled, (lone_opening d).lex, lex_blank, lex_append_blank read,
    (lone_closing d).lex]
  rfl

/-- **A complete condition in parentheses is one operand.** -/
theorem chain?_parenthesized (h : d.chain? a = some c) :
    d.chain? ("( " ++ a ++ " )") = some ⟨c.expression, []⟩ := by
  obtain ⟨ls, read, h⟩ := Option.bind_eq_some_iff.mp h
  have wider : ls.length + 1 ≤ ls.length + 2 := Nat.le_succ _
  rw [chain?, lexemes?_parenthesized read, Option.bind_some, List.length_cons, List.length_append,
    List.length_singleton, SqlAccess.chain?_parenthesized (chain?_of_le wider h)]

/-- White space has no lexemes. -/
theorem lexemes?_of_blank (blank : Text.blank a = true) : d.lexemes? a = some [] := by
  have nothing : ∀ cs : List Char, cs.all Text.isBlank = true → lex d .between cs = some [] := by
    intro cs blank
    induction cs with
    | nil => rfl
    | cons c cs ih =>
      rw [List.all_cons, Bool.and_eq_true] at blank
      have moves : Lexing.step d .between c = some ([], .between) := by
        rw [Lexing.step, Lexing.start, if_pos blank.1, Option.map_some]
      rw [lex_of_moves moves, ih blank.2]
  exact nothing a.toList blank

/-- White space is no condition. -/
theorem chain?_of_blank (blank : Text.blank a = true) : d.chain? a = none := by
  rw [chain?, lexemes?_of_blank blank]
  rfl

end Dialect

end SqlAccess
