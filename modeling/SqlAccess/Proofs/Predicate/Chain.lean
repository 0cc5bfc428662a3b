import Mathlib.Data.List.Forall2
import SqlAccess.Predicate.Build
import SqlAccess.Proofs.Predicate.Emptiness
import SqlAccess.Proofs.Predicate.Operands

/-!
# What the text of a condition is read as

`Predicate.chain?` is the chain that the text of a condition is read as, put together from its tree.
A leaf or a list is one operand, text that is given is the chain that it is by itself, the members
of a group are joined by its connective, and a nested group is one operand because of its
parentheses. So a nested group keeps to itself, and given text does not.

`Predicate.reads_placed` is the law behind this: every part that a rendering puts into a group reads
as the chain of its member, once the placeholders have the values of the table.
-/

namespace SqlAccess

/-! ## Atoms -/

/-- The lexemes of a fixed text. -/
def Dialect.spelled (d : Dialect) (text : String) : List Lexeme :=
  (d.lexemes? text).getD []

/-- The atom that a leaf is on the column, if it is not given as text. -/
def Comparison.atom (d : Dialect) (column : String) (c : Comparison) : List Lexeme :=
  d.path column ++
    if c.value.isNull then d.spelled (if c.operator = .equal then "IS NULL" else "IS NOT NULL")
    else d.spelled c.operator.sql ++ [.value c.value]

/-- The lexemes of a leaf as an item of a list. -/
def Comparison.itemLexemes (d : Dialect) (table : Params) (c : Comparison) : List Lexeme :=
  match c.raw with
  | some sql => (d.spelled sql).map (·.filledFrom table)
  | none => [.value c.value]

namespace Predicate

/-- The items of a list. -/
def memberItems (d : Dialect) (table : Params) :
    List (Option String × Predicate) → List (List Lexeme)
  | [] => []
  | (_, .comparison c) :: rest => c.itemLexemes d table :: memberItems d table rest
  | (_, .group ..) :: rest => memberItems d table rest

/-- The atom that a list is on the column. -/
def listAtom (d : Dialect) (table : Params) (connective : Connective) (column : String)
    (members : List (Option String × Predicate)) : List Lexeme :=
  d.path column ++ d.spelled connective.sql ++
    .sign '(' :: (List.intercalate [.sign ','] (memberItems d table members) ++ [.sign ')'])

end Predicate

/-! ## The chain of a condition -/

/-- The chain of a leaf: that of its text if it was given as text, and a single atom otherwise. -/
def Comparison.chain? (d : Dialect) (table : Params) (inherited : Option String) (c : Comparison) :
    Option (Chain Expression) :=
  match c.raw with
  | some sql => (d.chain? sql).map (·.filledFrom table)
  | none => (c.column.or inherited).map fun column => ⟨.atom (c.atom d column), []⟩

namespace Predicate

/-- The chain of a member of a group: a nested group is one operand. -/
def standing (p : Predicate) (c : Chain Expression) : Chain Expression :=
  match p with
  | .comparison _ => c
  | .group _ connective _ => if connective.isBoolean then ⟨c.expression, []⟩ else c

mutual

/-- The chain that the text of the condition is read as, unless the condition says nothing. -/
def chain? (d : Dialect) (table : Params) (inherited : Option String) :
    Predicate → Option (Chain Expression)
  | .comparison c => c.chain? d table inherited
  | .group column connective members =>
    if connective.isBoolean then
      Chain.joined connective (memberChains d table (column.or inherited) members)
    else
      (column.or inherited).map fun column => ⟨.atom (listAtom d table connective column members), []⟩

/-- The chains of the members that say anything, from left to right. -/
def memberChains (d : Dialect) (table : Params) (inherited : Option String) :
    List (Option String × Predicate) → List (Chain Expression)
  | [] => []
  | (_, p) :: rest =>
    ((p.chain? d table inherited).map p.standing).toList ++ memberChains d table inherited rest

end

end Predicate

/-! ## Given text -/

/-- Is the leaf not given as text, or as a complete condition, or as blank text? -/
def Comparison.isLegible (d : Dialect) (c : Comparison) : Bool :=
  c.raw.all fun sql => Text.blank sql || (d.chain? sql).isSome

namespace Predicate

mutual

/-- Is every text that is given in the condition a complete condition, or blank? -/
def isLegible (d : Dialect) : Predicate → Bool
  | .comparison c => c.isLegible d
  | .group _ _ members => allLegible d members

def allLegible (d : Dialect) : List (Option String × Predicate) → Bool
  | [] => true
  | (_, p) :: rest => p.isLegible d && allLegible d rest

end

end Predicate

/-! ## Reading the parts of a leaf -/

section

variable {d : Dialect} {table : Params} {inherited : Option String} {t t' : Params}

/-- The text reads as the chain when its placeholders have the values of the table. -/
def Reads (d : Dialect) (table : Params) (text : String) (c : Chain Expression) : Prop :=
  (d.chain? text).map (·.filledFrom table) = some c

/-- Parentheses make one operand of a text. -/
theorem Reads.parenthesized {sql : String} {c : Chain Expression} (reads : Reads d table sql c) :
    Reads d table ("( " ++ sql ++ " )") ⟨c.expression, []⟩ := by
  obtain ⟨a, read, rfl⟩ := Option.map_eq_some_iff.mp reads
  rw [Reads, Dialect.chain?_parenthesized read, Chain.expression_filledFrom]
  rfl

/-- A text that reads as something is not blank. -/
theorem Reads.visible {sql : String} {c : Chain Expression} (reads : Reads d table sql c) :
    Text.blank sql = false := by
  rw [Bool.eq_false_iff]
  intro blank
  rw [Reads, Dialect.chain?_of_blank blank] at reads
  cases reads

/-- The lexemes of a name are its quoted parts, bare stars and dots. -/
theorem mem_path {name : String} {l : Lexeme} (member : l ∈ d.path name) :
    (∃ quote piece, l = .quoted quote piece) ∨ l = .sign '*' ∨ l = .sign '.' := by
  unfold Dialect.path at member
  generalize name.toList.splitOn '.' = pieces at member
  induction pieces with
  | nil => cases member
  | cons piece pieces ih =>
    have part : ∀ l, l = Lexeme.part d.identifierQuote piece →
        (∃ quote piece, l = .quoted quote piece) ∨ l = .sign '*' ∨ l = .sign '.' := by
      rintro l rfl
      unfold Lexeme.part
      split
      · exact .inr (.inl rfl)
      · exact .inl ⟨_, _, rfl⟩
    cases pieces with
    | nil => exact part l (List.mem_singleton.mp member)
    | cons next pieces =>
      rw [List.map_cons, List.map_cons, List.intersperse_cons_cons] at member
      rw [List.map_cons] at ih
      rcases List.mem_cons.mp member with first | member
      · exact part l first
      · rcases List.mem_cons.mp member with dot | member
        · exact .inr (.inr dot)
        · exact ih member

theorem isInert_path (d : Dialect) (name : String) : (d.path name).all Lexeme.isInert = true := by
  rw [List.all_eq_true]
  intro l member
  rcases mem_path member with ⟨quote, piece, rfl⟩ | rfl | rfl <;> rfl

theorem filledFrom_path (d : Dialect) (name : String) :
    (d.path name).map (·.filledFrom table) = d.path name := by
  refine (List.map_congr_left fun l member => ?_).trans (List.map_id _)
  rcases mem_path member with ⟨quote, piece, rfl⟩ | rfl | rfl <;> rfl

/-- A name starts with neither NOT nor a parenthesis. -/
theorem path_eq_cons (d : Dialect) (name : String) :
    ∃ l ls, d.path name = l :: ls ∧ l.spells "NOT" = false ∧ l.isSign '(' = false := by
  cases path : d.path name with
  | nil =>
    unfold Dialect.path at path
    cases cut : name.toList.splitOn '.' with
    | nil => exact absurd cut (List.splitOn_ne_nil '.' name.toList)
    | cons piece pieces =>
      rw [cut] at path
      cases pieces <;> cases path
  | cons l ls =>
    have member : l ∈ d.path name := path ▸ List.mem_cons_self
    refine ⟨l, ls, rfl, ?_⟩
    rcases mem_path member with ⟨quote, piece, rfl⟩ | rfl | rfl <;> exact ⟨rfl, rfl⟩

/-- A generated key is no keyword. -/
theorem isInert_generated (number : Nat) :
    (Lexeme.word (Params.generated number).toList).isInert = true := by
  obtain ⟨digits, spelled, -⟩ := toList_generated_eq_cons number
  rw [spelled]
  rfl

/-- A name with lexemes behind it that part no operand is an atom. -/
theorem reads_atom {text : String} {column : String} {ls filled : List Lexeme}
    (read : d.lexemes? text = some (d.path column ++ ls))
    (alone : operands {} ls = some ⟨ls, []⟩)
    (fills : ls.map (·.filledFrom table) = filled) :
    Reads d table text ⟨.atom (d.path column ++ filled), []⟩ := by
  obtain ⟨l, more, start, plain⟩ := path_eq_cons d column
  have whole : operands {} (d.path column ++ ls) = some ⟨d.path column ++ ls, []⟩ := by
    rw [operands_of_isInert (isInert_path d column), alone]
    rfl
  rw [start, List.cons_append] at whole
  rw [Reads, Dialect.chain?, read, Option.bind_some, start, List.cons_append,
    chain?_atom whole plain, ← List.cons_append, ← start]
  simp only [Option.map_some, Chain.filledFrom, Chain.map, Expression.filledFrom, List.map_append,
    filledFrom_path, fills, List.map_nil]

/-- A text whose lexemes part no operand and hold no placeholder. -/
structure Fixed (d : Dialect) (table : Params) (text : String) (ls : List Lexeme) : Prop where
  read : d.lexemes? text = some ls
  inert : ls.all Lexeme.isInert = true
  filled : ls.map (·.filledFrom table) = ls

theorem Fixed.spelled {text : String} {ls : List Lexeme} (fixed : Fixed d table text ls) :
    d.spelled text = ls := by
  rw [Dialect.spelled, fixed.read]
  rfl

theorem fixed_operator (d : Dialect) (table : Params) (operator : Operator) :
    ∃ ls, Fixed d table operator.sql ls := by
  cases operator <;> cases d <;> exact ⟨_, rfl, rfl, rfl⟩

theorem fixed_null (d : Dialect) (table : Params) (operator : Operator) :
    ∃ ls, Fixed d table (if operator = .equal then "IS NULL" else "IS NOT NULL") ls := by
  split <;> cases d <;> exact ⟨_, rfl, rfl, rfl⟩

theorem fixed_listing {connective : Connective} (d : Dialect) (table : Params)
    (listing : connective.isBoolean = false) : ∃ ls, Fixed d table connective.sql ls := by
  cases connective with
  | all | any => cases listing
  | among | notAmong => cases d <;> exact ⟨_, rfl, rfl, rfl⟩

/-- **A leaf reads as its chain.** -/
theorem Comparison.reads_render {c : Comparison} {sql : String}
    (h : c.render d inherited t = .ok sql t') (grows : t'.GrowsTo table) :
    (d.chain? sql).map (·.filledFrom table) = c.chain? d table inherited := by
  unfold chain?
  rcases Comparison.render_eq_ok h with
    raw | ⟨raw, column, resolved, ⟨null, rfl, rfl⟩ | ⟨filled, rfl, rfl⟩⟩
  · rw [raw]
  · obtain ⟨ls, fixed⟩ := fixed_null d table c.operator
    have spaced : nullTest (d.identifier column) c.operator =
        d.identifier column ++ " " ++ (if c.operator = .equal then "IS NULL" else "IS NOT NULL") := by
      unfold nullTest
      split <;> (rw [String.append_assoc]; rfl)
    rw [raw, resolved, Option.map_some, atom, null, if_pos rfl, fixed.spelled, spaced]
    exact reads_atom (Dialect.lexemes?_spaced (lexemes_identifier d column) fixed.read)
      (operands_alone fixed.inert) fixed.filled
  · obtain ⟨ls, fixed⟩ := fixed_operator d table c.operator
    rw [raw, resolved, Option.map_some, atom, filled, if_neg Bool.false_ne_true, fixed.spelled]
    have read := Dialect.lexemes?_spaced
      (Dialect.lexemes?_spaced (lexemes_identifier d column) fixed.read)
      (lexemes_generated d (t.firstFree t.size t.size))
    rw [List.append_assoc] at read
    refine reads_atom read (operands_alone ?_) ?_
    · rw [List.all_append, fixed.inert, List.all_cons, isInert_generated]
      rfl
    · rw [List.map_append, fixed.filled, List.map_singleton,
        filledFrom_generated (Params.get?_push_of_growsTo grows)]

/-- A leaf that renders to more than white space reads as something. -/
theorem Comparison.complete_render {c : Comparison} {sql : String} (legible : c.isLegible d = true)
    (h : c.render d inherited t = .ok sql t') (visible : Text.blank sql = false) :
    ∃ chain, d.chain? sql = some chain := by
  rcases Comparison.render_eq_ok h with raw | ⟨raw, column, resolved, -⟩
  · rw [isLegible, raw, Option.all_some, visible, Bool.false_or] at legible
    exact Option.isSome_iff_exists.mp legible
  · have reads := Comparison.reads_render h (.refl t')
    simp only [chain?, raw, resolved, Option.map_some] at reads
    obtain ⟨chain, read, -⟩ := Option.map_eq_some_iff.mp reads
    exact ⟨chain, read⟩

/-! ## Lists -/

/-- The lexemes of items with commas between them, up to the closing parenthesis. -/
theorem lex_items {items : List String} {lss : List (List Lexeme)}
    (read : List.Forall₂ (fun item ls => d.lexemes? item = some ls) items lss) :
    lex d .between ((Text.joined ", " items).toList ++ [')']) =
      some (List.intercalate [.sign ','] lss ++ [.sign ')']) := by
  have outside : Lexing.between.Quotes := trivial
  induction read with
  | nil =>
    rw [Text.joined, String.toList_empty, List.nil_append, (lone_closing d).lex]
    rfl
  | @cons item ls items lss first rest ih =>
    cases rest with
    | nil =>
      rw [Text.joined, lex_append delimits_parenthesis outside first, (lone_closing d).lex,
        List.intercalate_singleton]
      rfl
    | @cons next ls' items lss second rest =>
      have spelled : (Text.joined ", " (item :: next :: items)).toList ++ [')'] = item.toList ++
          ',' :: ' ' :: ((Text.joined ", " (next :: items)).toList ++ [')']) := by
        rw [Text.joined, String.toList_append, String.toList_append, List.append_assoc,
          List.append_assoc]
        rfl
      rw [spelled, lex_append delimits_comma outside first, (lone_comma d).lex, lex_blank, ih,
        List.intercalate_cons_cons]
      simp only [Option.map_some, List.append_assoc, List.cons_append, List.nil_append]

theorem nestedAll_intercalate {lss : List (List Lexeme)}
    (balanced : ∀ ls ∈ lss, nestedAll [] ls = some []) :
    nestedAll [] (List.intercalate [.sign ','] lss) = some [] := by
  match lss with
  | [] => rfl
  | [ls] =>
    rw [List.intercalate_singleton]
    exact balanced ls List.mem_cons_self
  | ls :: ls' :: rest =>
    have tail := nestedAll_intercalate fun ls member => balanced ls (List.mem_cons_of_mem _ member)
    rw [List.intercalate_cons_cons, nestedAll_append, nestedAll_append,
      balanced ls List.mem_cons_self]
    exact tail

theorem map_intercalate (f : Lexeme → Lexeme) (lss : List (List Lexeme)) :
    (List.intercalate [.sign ','] lss).map f =
      List.intercalate [f (.sign ',')] (lss.map (·.map f)) := by
  match lss with
  | [] => rfl
  | [ls] => rw [List.map_singleton, List.intercalate_singleton, List.intercalate_singleton]
  | ls :: ls' :: rest =>
    have tail := map_intercalate f (ls' :: rest)
    rw [List.map_cons] at tail
    rw [List.intercalate_cons_cons, List.map_append, List.map_append, tail, List.map_singleton,
      List.map_cons, List.map_cons, List.intercalate_cons_cons]

/-- An item of a list that is given as text is that text. -/
theorem Comparison.renderItem_raw {c : Comparison} {sql item : String} (given : c.raw = some sql)
    (h : c.renderItem t = .ok item t') : item = sql := by
  obtain ⟨raw, t₁, run, h⟩ := Rendering.bind_eq_ok.mp h
  unfold renderRaw at run
  rw [given] at run
  obtain ⟨_, t₂, -, run⟩ := Rendering.bind_eq_ok.mp run
  obtain ⟨rfl, -⟩ := Rendering.pure_eq_ok.mp run
  exact (Rendering.pure_eq_ok.mp h).1.symm

/-- Text that is given has lexemes, and closes what it opens. -/
theorem Comparison.lexemes_raw {c : Comparison} {sql : String} (given : c.raw = some sql)
    (legible : c.isLegible d = true) :
    ∃ ls, d.lexemes? sql = some ls ∧ nestedAll [] ls = some [] := by
  rw [isLegible, given, Option.all_some, Bool.or_eq_true] at legible
  rcases legible with blank | complete
  · exact ⟨[], Dialect.lexemes?_of_blank blank, rfl⟩
  · obtain ⟨chain, read⟩ := Option.isSome_iff_exists.mp complete
    obtain ⟨ls, lexemes, read⟩ := Option.bind_eq_some_iff.mp read
    obtain ⟨parts, cut, -⟩ := Option.bind_eq_some_iff.mp read
    exact ⟨ls, lexemes, nestedAll_of_operands cut⟩

namespace Predicate

variable {connective : Connective} {column : Option String}
  {members : List (Option String × Predicate)}

/-- An item of a list has the lexemes of its leaf, and closes what it opens. -/
theorem lexemes_renderItem {c : Comparison} {item : String} {t₁ : Params}
    (legible : c.isLegible d = true) (run : c.renderItem t = .ok item t₁)
    (grows : t₁.GrowsTo table) :
    ∃ ls, d.lexemes? item = some ls ∧ nestedAll [] ls = some [] ∧
      ls.map (·.filledFrom table) = c.itemLexemes d table := by
  unfold Comparison.itemLexemes
  cases given : c.raw with
  | some sql =>
    obtain ⟨ls, lexemes, closes⟩ := c.lexemes_raw given legible
    have same : item = sql := Comparison.renderItem_raw given run
    refine ⟨ls, same ▸ lexemes, closes, ?_⟩
    dsimp only [Dialect.spelled]
    rw [lexemes]
    rfl
  | none =>
    obtain ⟨rfl, rfl⟩ := Comparison.renderItem_eq_ok given run
    refine ⟨_, lexemes_generated d _, nestedAll_of_isInert ?_, ?_⟩
    · rw [List.all_cons, isInert_generated]
      rfl
    · rw [List.map_singleton, filledFrom_generated (Params.get?_push_of_growsTo grows)]

/-- The items of a list have the lexemes of its leaves, and close what they open. -/
theorem lexemes_renderItems {name : String} {items : List String}
    (legible : allLegible d members = true)
    (h : renderItems connective name members t = .ok items t') (grows : t'.GrowsTo table) :
    ∃ lss, List.Forall₂ (fun item ls => d.lexemes? item = some ls) items lss ∧
      (∀ ls ∈ lss, nestedAll [] ls = some []) ∧
      lss.map (·.map (·.filledFrom table)) = memberItems d table members := by
  have runs := itemRuns_of_renderItems h
  clear h
  induction runs with
  | nil => exact ⟨[], .nil, (fun ls member => nomatch member), rfl⟩
  | @cons member item members items first _ ih =>
    obtain ⟨c, s, s', leaf, run, grown⟩ := first
    obtain ⟨field, p⟩ := member
    cases leaf
    rw [allLegible, Bool.and_eq_true] at legible
    obtain ⟨lss, read, balanced, filled⟩ := ih legible.2
    obtain ⟨ls, lexemes, closes, fills⟩ := lexemes_renderItem legible.1 run (grown.trans grows)
    refine ⟨ls :: lss, .cons lexemes read, ?_, ?_⟩
    · intro ls' member
      rcases List.mem_cons.mp member with rfl | member
      · exact closes
      · exact balanced ls' member
    · rw [List.map_cons, fills, filled, memberItems]

/-- **A list reads as its atom.** -/
theorem reads_renderList {sql : String} (listing : connective.isBoolean = false)
    (legible : allLegible d members = true)
    (h : renderList d connective column members t = .ok sql t') (grows : t'.GrowsTo table) :
    ∃ name, column = some name ∧
      Reads d table sql ⟨.atom (listAtom d table connective name members), []⟩ := by
  obtain ⟨name, items, rfl, -, run, rfl⟩ := renderList_eq_ok h
  obtain ⟨lss, read, balanced, filled⟩ := lexemes_renderItems legible run grows
  refine ⟨name, rfl, ?_⟩
  obtain ⟨ls, fixed⟩ := fixed_listing d table listing
  have spelled : (d.identifier name ++ " " ++ connective.sql ++ " (" ++ Text.joined ", " items ++
      ")").toList = (d.identifier name ++ " " ++ connective.sql).toList ++
        ' ' :: '(' :: ((Text.joined ", " items).toList ++ [')']) := by
    simp only [String.toList_append, List.append_assoc]
    rfl
  have front := Dialect.lexemes?_spaced (lexemes_identifier d name) fixed.read
  have lexemes : d.lexemes? (d.identifier name ++ " " ++ connective.sql ++ " (" ++
      Text.joined ", " items ++ ")") = some (d.path name ++
        (ls ++ .sign '(' :: (List.intercalate [.sign ','] lss ++ [.sign ')']))) := by
    rw [Dialect.lexemes?, spelled, Dialect.lex_append_blank front, (lone_opening d).lex,
      lex_items read]
    simp only [Option.map_some, List.append_assoc]
  rw [listAtom, fixed.spelled, List.append_assoc]
  refine reads_atom lexemes ?_ ?_
  · rw [operands_of_isInert fixed.inert, operands_parenthesized (nestedAll_intercalate balanced)]
    simp only [operands, if_true, Option.map_some, Chain.behind, List.append_nil]
  · rw [List.map_append, fixed.filled, List.map_cons, List.map_append, map_intercalate, filled]
    rfl

/-! ## Groups -/

/-- Joined texts read as their chains, joined. -/
theorem reads_joined (boolean : connective.isBoolean = true) {part : String} {parts : List String}
    {c : Chain Expression} {chains : List (Chain Expression)} (first : Reads d table part c)
    (rest : List.Forall₂ (Reads d table) parts chains) :
    ∃ whole, Chain.joined connective (c :: chains) = some whole ∧
      Reads d table (Text.joined (" " ++ connective.sql ++ " ") (part :: parts)) whole := by
  induction rest generalizing part c with
  | nil => exact ⟨c, rfl, first⟩
  | cons second _ ih =>
    obtain ⟨others, joins, reads⟩ := ih second
    obtain ⟨a, read, rfl⟩ := Option.map_eq_some_iff.mp first
    obtain ⟨b, read', rfl⟩ := Option.map_eq_some_iff.mp reads
    refine ⟨(a.join connective b).filledFrom table, ?_, ?_⟩
    · rw [Chain.joined, joins, Chain.filledFrom_join]
      rfl
    · rw [Reads, Text.joined, Dialect.chain?_join boolean read read']
      rfl

/-- What is placed of a group that joins the given texts reads as the one operand that is left of
the group. -/
theorem reads_placed_joined {parts : List String} {chains : List (Chain Expression)}
    (boolean : connective.isBoolean = true) (reads : List.Forall₂ (Reads d table) parts chains) :
    List.Forall₂ (Reads d table)
      ((group column connective members).placed
        (Text.joined (" " ++ connective.sql ++ " ") parts)).toList
      ((Chain.joined connective chains).map
        (group column connective members).standing).toList := by
  cases reads with
  | nil => exact .nil
  | cons first rest =>
    obtain ⟨whole, joins, read⟩ := reads_joined boolean first rest
    rw [placed_group, Text.isEmpty_of_blank_eq_false read.visible, boolean, joins]
    refine .cons ?_ .nil
    rw [standing, boolean]
    exact read.parenthesized

mutual

/-- **What is placed of a condition reads as its chain**, under every table that the one of the
rendering grows to. -/
theorem reads_placed :
    ∀ (inherited : Option String) (p : Predicate) {t t' : Params} {sql : String},
      p.isLegible d = true → p.render d inherited t = .ok sql t' → t'.GrowsTo table →
        List.Forall₂ (Reads d table) (p.placed sql).toList
          ((p.chain? d table inherited).map p.standing).toList
  | inherited, .comparison c, t, t', sql, legible, h, grows => by
    rw [render] at h
    have reads := Comparison.reads_render h grows
    rw [placed_comparison, chain?, ← reads]
    cases blank : Text.blank sql with
    | true =>
      rw [Dialect.chain?_of_blank blank]
      exact .nil
    | false =>
      obtain ⟨chain, read⟩ := Comparison.complete_render legible h blank
      rw [read]
      exact .cons (by rw [Reads, read]; rfl) .nil
  | inherited, .group column connective members, t, t', sql, legible, h, grows => by
    rw [isLegible] at legible
    rw [chain?]
    cases boolean : connective.isBoolean with
    | true =>
      obtain ⟨parts, run, rfl⟩ := render_boolean_eq_ok boolean h
      exact reads_placed_joined boolean (reads_renderMembers _ members legible run grows)
    | false =>
      rw [render_listing_eq boolean] at h
      obtain ⟨name, resolved, reads⟩ := reads_renderList boolean legible h grows
      rw [placed_group, Text.isEmpty_of_blank_eq_false reads.visible, boolean, resolved]
      refine .cons ?_ .nil
      rw [standing, boolean]
      exact reads

/-- The parts of a group read as the chains of its members. -/
theorem reads_renderMembers :
    ∀ (inherited : Option String) (members : List (Option String × Predicate)) {t t' : Params}
      {parts : List String}, allLegible d members = true →
        renderMembers d inherited members t = .ok parts t' → t'.GrowsTo table →
          List.Forall₂ (Reads d table) parts (memberChains d table inherited members)
  | _, [], t, t', parts, _, h, _ => by
    obtain ⟨rfl, -⟩ := Rendering.pure_eq_ok.mp h
    exact .nil
  | inherited, (field, p) :: rest, t, t', parts, legible, h, grows => by
    obtain ⟨sql, t₁, others, run, rest_run, rfl⟩ := renderMembers_cons_eq_ok h
    rw [allLegible, Bool.and_eq_true] at legible
    have grown := ((renderMembers_lawful d inherited rest).grows_of_ok rest_run).trans grows
    exact List.rel_append (reads_placed inherited p legible.1 run grown)
      (reads_renderMembers inherited rest legible.2 rest_run grows)

end

end Predicate

/-- **The text of a condition reads as the chain of its tree.** -/
theorem Group.reads_render {g : Group} {sql : String} (legible : (Predicate.ofGroup g).isLegible d)
    (h : g.render d t = .ok sql t') (grows : t'.GrowsTo table) :
    (d.chain? sql).map (·.filledFrom table) = (Predicate.ofGroup g).chain? d table none := by
  unfold Group.render Predicate.ofGroup at h
  unfold Predicate.ofGroup at legible ⊢
  rw [Predicate.isLegible] at legible
  rw [Predicate.chain?]
  cases boolean : g.connective.isBoolean with
  | true =>
    obtain ⟨parts, run, rfl⟩ := Predicate.render_boolean_eq_ok boolean h
    have reads := Predicate.reads_renderMembers _ g.members legible run grows
    rw [if_pos rfl]
    generalize Predicate.memberChains d table _ g.members = chains at reads
    cases reads with
    | nil =>
      rw [Text.joined, Dialect.chain?_of_blank rfl]
      rfl
    | cons first rest =>
      obtain ⟨whole, joins, read⟩ := Predicate.reads_joined boolean first rest
      rw [joins]
      exact read
  | false =>
    rw [Predicate.render_listing_eq boolean] at h
    obtain ⟨name, resolved, reads⟩ := Predicate.reads_renderList boolean legible h grows
    rw [resolved]
    exact reads

end

end SqlAccess
