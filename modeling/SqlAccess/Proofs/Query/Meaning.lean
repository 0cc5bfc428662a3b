import SqlAccess.Proofs.Predicate.Chain
import SqlAccess.Proofs.Query.Statement

/-!
# What a condition means

A group means what its connective makes of its members, and a member means the same wherever it
stands (`Predicate.truth?`). The text of a condition means what it is read as, with AND binding
tighter than OR. The two agree as long as the tree is *unmixed*: nested groups stand in parentheses,
but text that was given stands as it is, and an OR in it takes in whatever an AND joins to it.

The main result is `conditions_mean_their_trees`, with the text that is given beside the tree. Its
second half is what a write relies on: text without OR that is joined to a condition under AND only
ever takes rows away, whatever else the condition holds.
-/

namespace SqlAccess

open Text Rendering

/-! ## The meaning of a tree -/

/-- The truth value of values under a connective, unless there are none. -/
def Connective.combined (connective : Connective) : List Truth → Option Truth
  | [] => none
  | values => some (if connective = .all then .all values else .any values)

/-- The truth value of a leaf: that of its text, unless that says nothing, or that of its atom. -/
def Comparison.truth? (d : Dialect) (table : Params) (holds : List Lexeme → Truth)
    (inherited : Option String) (c : Comparison) : Option Truth :=
  match c.raw with
  | some sql => d.truth? table holds sql
  | none => (c.column.or inherited).map fun column => holds (c.atom d column)

namespace Predicate

mutual

/-- The truth value of a condition, unless it says nothing: that of its leaves, and for a group what
its connective makes of its members. -/
def truth? (d : Dialect) (table : Params) (holds : List Lexeme → Truth)
    (inherited : Option String) : Predicate → Option Truth
  | .comparison c => c.truth? d table holds inherited
  | .group column connective members =>
    if connective.isBoolean then
      connective.combined (memberTruths d table holds (column.or inherited) members)
    else
      (column.or inherited).map fun column => holds (listAtom d table connective column members)

/-- The truth values of the members that say anything. -/
def memberTruths (d : Dialect) (table : Params) (holds : List Lexeme → Truth)
    (inherited : Option String) : List (Option String × Predicate) → List Truth
  | [] => []
  | (_, p) :: rest =>
    (p.truth? d table holds inherited).toList ++ memberTruths d table holds inherited rest

end

/-- Has the member, if it is given as text, no OR outside parentheses? -/
def isTight (d : Dialect) : Predicate → Bool
  | .comparison c => c.raw.all d.isTight
  | .group .. => true

/-- How many of the members say anything? -/
def speaking (members : List (Option String × Predicate)) : Nat :=
  (members.filter fun member => !member.2.rendersEmpty).length

mutual

/-- Does an AND nowhere join given text that has an OR outside parentheses to anything else? -/
def isUnmixed (d : Dialect) : Predicate → Bool
  | .comparison _ => true
  | .group _ connective members =>
    (connective != .all || speaking members ≤ 1 || members.all (·.2.isTight d)) &&
      allUnmixed d members

def allUnmixed (d : Dialect) : List (Option String × Predicate) → Bool
  | [] => true
  | (_, p) :: rest => p.isUnmixed d && allUnmixed d rest

end

end Predicate

/-- The clause of a condition has the truth value of the condition in it, and a missing clause has
none. -/
inductive Dialect.ClauseTruth (d : Dialect) (table : Params) (holds : List Lexeme → Truth) :
    String → Option Truth → Prop where
  | missing : ClauseTruth d table holds "" none
  | given {condition : String} {value : Truth}
      (reads : d.truth? table holds condition = some value) :
      ClauseTruth d table holds (" WHERE " ++ condition) (some value)

/-- Does a row fit the clause, if the atoms have the given truth values on it? Where the clause is
missing, every row does. -/
def Dialect.Fits (d : Dialect) (table : Params) (holds : List Lexeme → Truth) (clause : String) :
    Prop :=
  d.ClauseTruth table holds clause none ∨ d.ClauseTruth table holds clause (some .yes)

/-- The text joins the condition of the query: as a member behind the others, or beside the tree if
no other text stands there. -/
inductive Query.Joins (q : Query) (sql : String) : Query → Prop where
  | member (params : Params) : q.Joins sql (q.append (Comparison.native sql params))
  | beside (alone : q.extra = none) : q.Joins sql { q with extraFilter := some sql }

/-! ## Chains of one connective -/

section

variable {d : Dialect} {table : Params} {holds : List Lexeme → Truth} {inherited : Option String}

namespace Chain

theorem joined_cons_eq_some (connective : Connective) (a : Chain Expression)
    (rest : List (Chain Expression)) : ∃ whole, joined connective (a :: rest) = some whole := by
  induction rest generalizing a with
  | nil => exact ⟨a, rfl⟩
  | cons b rest ih =>
    obtain ⟨others, joins⟩ := ih b
    refine ⟨a.join connective others, ?_⟩
    rw [joined, joins, Option.map_some]

/-- Joined chains mean what the connective makes of them, if no OR is among the operands that an
AND joins to others. -/
theorem truth_joined {connective : Connective} (boolean : connective.isBoolean = true)
    {chains : List (Chain Expression)}
    (apart : connective ≠ .all ∨ chains.length ≤ 1 ∨ ∀ c ∈ chains, c.isTight = true) :
    (joined connective chains).map (·.truth holds) =
      connective.combined (chains.map (·.truth holds)) := by
  match chains, apart with
  | [], _ => rfl
  | [a], _ =>
    simp only [joined, Option.map_some, List.map_cons, List.map_nil, Connective.combined, Truth.all,
      Truth.any, List.foldr_cons, List.foldr_nil, Truth.and_yes, Truth.or_no, ite_self]
  | a :: b :: rest, apart =>
    cases connective with
    | all =>
      have tight : ∀ c ∈ a :: b :: rest, c.isTight = true := by
        rcases apart with other | short | tight
        · exact absurd rfl other
        · simp only [List.length_cons] at short
          omega
        · exact tight
      rw [joined_all_cons, Option.map_some,
        (truth_joined_all tight _ joined_all_cons).2]
      rfl
    | any =>
      obtain ⟨whole, joins⟩ := joined_cons_eq_some .any a (b :: rest)
      rw [joins, Option.map_some, truth_joined_any whole joins]
      rfl
    | among | notAmong => cases boolean

end Chain

namespace Predicate

theorem truth_standing (p : Predicate) (c : Chain Expression) :
    (p.standing c).truth holds = c.truth holds := by
  cases p with
  | comparison _ => rfl
  | group column connective members =>
    rw [standing]
    split <;> rfl

/-! ## Members that say nothing -/

mutual

/-- A condition that says nothing has no operands. -/
theorem chain?_of_rendersEmpty : ∀ (inherited : Option String) (p : Predicate),
    p.rendersEmpty = true → p.chain? d table inherited = none
  | inherited, .comparison c, empty => by
    rw [rendersEmpty, Comparison.isBlank] at empty
    rw [chain?, Comparison.chain?]
    cases given : c.raw with
    | none =>
      rw [given] at empty
      cases empty
    | some sql =>
      rw [given] at empty
      dsimp only
      rw [Dialect.chain?_of_blank empty]
      rfl
  | inherited, .group column connective members, empty => by
    rw [rendersEmpty, Bool.and_eq_true] at empty
    rw [chain?, if_pos empty.1, memberChains_of_rendersEmpty _ members empty.2]
    rfl

theorem memberChains_of_rendersEmpty :
    ∀ (inherited : Option String) (members : List (Option String × Predicate)),
      allRenderEmpty members = true → memberChains d table inherited members = []
  | _, [], _ => rfl
  | inherited, (_, p) :: rest, empty => by
    rw [allRenderEmpty, Bool.and_eq_true] at empty
    rw [memberChains, chain?_of_rendersEmpty inherited p empty.1,
      memberChains_of_rendersEmpty inherited rest empty.2]
    rfl

end

theorem length_memberChains_le (members : List (Option String × Predicate)) :
    (memberChains d table inherited members).length ≤ speaking members := by
  induction members with
  | nil => exact Nat.le_refl 0
  | cons member members ih =>
    obtain ⟨field, p⟩ := member
    rw [memberChains, List.length_append]
    unfold speaking at ih ⊢
    rw [List.filter_cons]
    cases empty : p.rendersEmpty with
    | true =>
      rw [chain?_of_rendersEmpty inherited p empty]
      simpa using ih
    | false =>
      have one : ((p.chain? d table inherited).map p.standing).toList.length ≤ 1 := by
        cases p.chain? d table inherited <;> simp
      simp only [Bool.not_false, if_true, List.length_cons]
      omega

theorem isTight_standing {p : Predicate} (tight : p.isTight d = true) {c : Chain Expression}
    (h : p.chain? d table inherited = some c) : (p.standing c).isTight = true := by
  cases p with
  | comparison comparison =>
    rw [isTight] at tight
    rw [chain?, Comparison.chain?] at h
    cases given : comparison.raw with
    | some sql =>
      rw [given] at h tight
      obtain ⟨a, read, rfl⟩ := Option.map_eq_some_iff.mp h
      rw [Option.all_some, Dialect.isTight, read, Option.all_some] at tight
      exact Chain.isTight_filledFrom.trans tight
    | none =>
      rw [given] at h
      obtain ⟨column, -, rfl⟩ := Option.map_eq_some_iff.mp h
      rfl
  | group column connective members =>
    rw [standing]
    split
    · rfl
    · next listing =>
      rw [chain?, if_neg listing] at h
      obtain ⟨name, -, rfl⟩ := Option.map_eq_some_iff.mp h
      rfl

theorem isTight_memberChains {members : List (Option String × Predicate)}
    (tight : members.all (·.2.isTight d) = true) :
    ∀ c ∈ memberChains d table inherited members, c.isTight = true := by
  induction members with
  | nil => exact fun c member => nomatch member
  | cons member members ih =>
    obtain ⟨field, p⟩ := member
    rw [List.all_cons, Bool.and_eq_true] at tight
    intro c member
    rw [memberChains] at member
    rcases List.mem_append.mp member with here | later
    · obtain ⟨a, chain, rfl⟩ := Option.map_eq_some_iff.mp (Option.mem_toList.mp here)
      exact isTight_standing tight.1 chain
    · exact ih tight.2 c later

theorem memberChains_append (front back : List (Option String × Predicate)) :
    memberChains d table inherited (front ++ back) =
      memberChains d table inherited front ++ memberChains d table inherited back := by
  induction front with
  | nil => rfl
  | cons member front ih =>
    obtain ⟨field, p⟩ := member
    rw [List.cons_append, memberChains, memberChains, ih, List.append_assoc]

end Predicate

/-! ## The text of a tree -/

/-- The truth value of a text is that of the chain that it is read as. -/
theorem Dialect.truth?_eq (sql : String) : d.truth? table holds sql =
    ((d.chain? sql).map (·.filledFrom table)).map (·.truth holds) := by
  unfold truth? expression?
  rw [Option.map_map, Option.map_map]
  refine congrArg (Option.map · (d.chain? sql)) (funext fun c => ?_)
  exact congrArg (·.truth holds) Chain.expression_filledFrom.symm

namespace Predicate

mutual

/-- **The chain of an unmixed condition means what the condition means.** -/
theorem truth_chain? : ∀ (inherited : Option String) (p : Predicate), p.isUnmixed d = true →
    (p.chain? d table inherited).map (·.truth holds) = p.truth? d table holds inherited
  | inherited, .comparison c, _ => by
    rw [chain?, truth?, Comparison.chain?, Comparison.truth?]
    cases c.raw with
    | some sql => exact (Dialect.truth?_eq sql).symm
    | none => exact Option.map_map ..
  | inherited, .group column connective members, unmixed => by
    rw [isUnmixed, Bool.and_eq_true] at unmixed
    rw [chain?, truth?]
    cases boolean : connective.isBoolean with
    | true =>
      rw [if_pos rfl, if_pos rfl, ← truth_memberChains (column.or inherited) members unmixed.2]
      refine Chain.truth_joined boolean ?_
      have apart := unmixed.1
      simp only [Bool.or_eq_true, bne_iff_ne, decide_eq_true_eq] at apart
      rcases apart with (other | short) | tight
      · exact .inl other
      · exact .inr (.inl (Nat.le_trans (length_memberChains_le members) short))
      · exact .inr (.inr (isTight_memberChains tight))
    | false => exact Option.map_map ..

theorem truth_memberChains :
    ∀ (inherited : Option String) (members : List (Option String × Predicate)),
      allUnmixed d members = true →
        (memberChains d table inherited members).map (·.truth holds) =
          memberTruths d table holds inherited members
  | _, [], _ => rfl
  | inherited, (_, p) :: rest, unmixed => by
    rw [allUnmixed, Bool.and_eq_true] at unmixed
    rw [memberChains, memberTruths, List.map_append, ← truth_chain? inherited p unmixed.1,
      truth_memberChains inherited rest unmixed.2]
    cases p.chain? d table inherited with
    | none => rfl
    | some c => exact congrArg (· :: _) (truth_standing p c)

end

end Predicate

/-! ## Clauses -/

theorem Dialect.ClauseTruth.unique {clause : String} {value value' : Option Truth}
    (h : d.ClauseTruth table holds clause value) (h' : d.ClauseTruth table holds clause value') :
    value = value' := by
  have written : ∀ condition : String, " WHERE " ++ condition ≠ "" := fun condition same =>
    absurd (String.append_eq_empty_iff.mp same).1 (by decide)
  generalize same : clause = clause' at h'
  cases h with
  | missing =>
    cases h' with
    | missing => rfl
    | given _ => exact absurd same.symm (written _)
  | given reads =>
    cases h' with
    | missing => exact absurd same (written _)
    | given reads' =>
      obtain rfl := (String.append_right_inj _).mp same
      exact reads.symm.trans reads'

/-- **The clause of a condition has the truth value of its chain.** -/
theorem Group.clauseTruth_render (holds : List Lexeme → Truth) {g : Group} {condition : String}
    {t t' : Params}
    (legible : (Predicate.ofGroup g).isLegible d) (h : g.render d t = .ok condition t')
    (grows : t'.GrowsTo table) :
    d.ClauseTruth table holds (if condition.isEmpty then "" else " WHERE " ++ condition)
      (((Predicate.ofGroup g).chain? d table none).map (·.truth holds)) := by
  have reads := Group.reads_render legible h grows
  have placed := (Predicate.reads_placed none (.ofGroup g) legible h grows).length_eq
  cases empty : condition.isEmpty with
  | true =>
    rw [Predicate.ofGroup, Predicate.placed_group, empty, if_pos rfl] at placed
    cases chain : (Predicate.ofGroup g).chain? d table none with
    | none => exact .missing
    | some whole =>
      rw [← Predicate.ofGroup, chain] at placed
      cases placed
  | false =>
    cases chain : (Predicate.ofGroup g).chain? d table none with
    | none =>
      rw [chain, Predicate.ofGroup, Predicate.placed_group, empty, if_neg Bool.false_ne_true] at placed
      split at placed <;> cases placed
    | some whole =>
      refine .given ?_
      rw [Dialect.truth?_eq, reads, chain]
      rfl

/-- A row fits the clause of a condition exactly when its chain holds, or there is none. -/
theorem Group.fits_render_iff {g : Group} {condition : String} {t t' : Params}
    (legible : (Predicate.ofGroup g).isLegible d) (h : g.render d t = .ok condition t')
    (grows : t'.GrowsTo table) :
    d.Fits table holds (if condition.isEmpty then "" else " WHERE " ++ condition) ↔
      ∀ whole ∈ (Predicate.ofGroup g).chain? d table none, whole.truth holds = .yes := by
  have value := Group.clauseTruth_render holds legible h grows
  constructor
  · rintro (none | yes) whole chain
    · rw [chain] at value
      cases value.unique none
    · rw [chain] at value
      exact Option.some.inj (value.unique yes)
  · intro all
    cases chain : (Predicate.ofGroup g).chain? d table none with
    | none =>
      rw [chain] at value
      exact .inl value
    | some whole =>
      rw [chain, Option.map_some, all whole chain] at value
      exact .inr value

/-! ## Text that is joined to a condition -/

namespace Predicate

theorem allLegible_append (front back : List (Option String × Predicate)) :
    allLegible d (front ++ back) = (allLegible d front && allLegible d back) := by
  induction front with
  | nil => rfl
  | cons member front ih =>
    obtain ⟨field, p⟩ := member
    rw [List.cons_append, allLegible, allLegible, ih, Bool.and_assoc]

theorem renderMembers_append_eq_ok {front back : List (Option String × Predicate)}
    {parts : List String} {t t' : Params} :
    renderMembers d inherited (front ++ back) t = .ok parts t' ↔
      ∃ first mid others, renderMembers d inherited front t = .ok first mid ∧
        renderMembers d inherited back mid = .ok others t' ∧ parts = first ++ others := by
  induction front generalizing t parts with
  | nil =>
    constructor
    · exact fun h => ⟨[], t, parts, rfl, h, rfl⟩
    · rintro ⟨first, mid, others, run, further, rfl⟩
      obtain ⟨rfl, rfl⟩ := pure_eq_ok.mp run
      exact further
  | cons member front ih =>
    constructor
    · intro h
      obtain ⟨sql, t₁, rest, here, later, rfl⟩ := renderMembers_cons_eq_ok h
      obtain ⟨first, mid, others, run, further, rfl⟩ := ih.mp later
      refine ⟨(member.2.placed sql).toList ++ first, mid, others, ?_, further,
        (List.append_assoc ..).symm⟩
      exact bind_eq_ok.mpr ⟨sql, t₁, here, bind_eq_ok.mpr ⟨first, mid, run, rfl⟩⟩
    · rintro ⟨first, mid, others, run, further, rfl⟩
      obtain ⟨sql, t₁, rest, here, later, rfl⟩ := renderMembers_cons_eq_ok run
      have both := ih.mpr ⟨rest, mid, others, later, further, rfl⟩
      rw [List.append_assoc]
      exact bind_eq_ok.mpr ⟨sql, t₁, here, bind_eq_ok.mpr ⟨rest ++ others, t', both, rfl⟩⟩

end Predicate

namespace Query

variable {q q' : Query} {sql : String}

/-- The text beside the tree, as the member that it is rendered as. -/
def aside (q : Query) : List (Option String × Predicate) :=
  q.extra.toList.map fun sql => (none, Comparison.native sql {})

theorem root_eq (q : Query) :
    q.root = ⟨q.filter.column, q.filter.connective, q.filter.members ++ q.aside⟩ := by
  unfold root aside
  cases q.extra with
  | none => rw [Option.toList_none, List.map_nil, List.append_nil]
  | some sql => rfl

/-- The text beside the tree binds nothing, so its text is the same under every table. -/
theorem renderMembers_aside (q : Query) :
    ∃ parts, ∀ t, Predicate.renderMembers d inherited q.aside t = .ok parts t := by
  unfold aside
  cases q.extra with
  | none => exact ⟨[], fun t => rfl⟩
  | some sql =>
    exact ⟨((Predicate.comparison (Comparison.native sql {})).placed sql).toList ++ [],
      fun t => rfl⟩

/-- Text that joins a condition comes to stand as one more member, unless it is blank. -/
theorem Joins.root_eq (joins : q.Joins sql q') : q'.root = q.root ∨ ∃ params, q'.root =
    ⟨q.filter.column, q.filter.connective,
      q.filter.members ++ (none, .comparison (Comparison.native sql params)) :: q.aside⟩ := by
  cases joins with
  | member params =>
    refine .inr ⟨params, ?_⟩
    rw [Query.root_eq]
    simp only [append, Group.append, List.append_assoc, List.singleton_append]
    rfl
  | beside alone =>
    have aside : q.aside = [] := by
      rw [Query.aside, alone]
      rfl
    cases blank : Text.blank sql with
    | true =>
      left
      have alone' : ({ q with extraFilter := some sql } : Query).extra = none := by
        rw [extra, Option.filter_some, blank]
        rfl
      rw [root, root, alone', alone]
    | false =>
      refine .inr ⟨{}, ?_⟩
      have given : ({ q with extraFilter := some sql } : Query).extra = some sql := by
        rw [extra, Option.filter_some, blank]
        rfl
      rw [root, given, aside]
      rfl

end Query

/-- **A condition under AND that holds goes on to hold without a member that has no OR**, wherever
the member stands. -/
theorem Predicate.holds_of_insert {column field : Option String} {p : Predicate}
    {front back : List (Option String × Predicate)} (tight : p.isTight d = true)
    (h : ∀ whole ∈ (group column .all (front ++ (field, p) :: back)).chain? d table inherited,
      whole.truth holds = .yes) :
    ∀ whole ∈ (group column .all (front ++ back)).chain? d table inherited,
      whole.truth holds = .yes := by
  have boolean : Connective.all.isBoolean = true := rfl
  rw [chain?, if_pos boolean, memberChains_append] at h ⊢
  rw [memberChains] at h
  cases chain : p.chain? d table (column.or inherited) with
  | none =>
    rw [chain] at h
    exact h
  | some c =>
    rw [chain] at h
    exact Chain.joined_yes_of_insert (isTight_standing tight chain) h

/-- **Text without OR that joins a condition under AND only takes rows away**, whatever else the
condition holds. -/
theorem Query.fits_of_joins {q q' : Query} {sql clause : String} {t t' : Params}
    (legible : (Predicate.ofGroup q.root).isLegible d) (all : q.filter.connective = .all)
    (joins : q.Joins sql q') (complete : Text.blank sql = true ∨ (d.chain? sql).isSome = true)
    (tight : d.isTight sql = true) (h : q'.whereClause d t = .ok clause t') :
    ∃ shorter mid, q.whereClause d t = .ok shorter mid ∧ mid.GrowsTo t' ∧
      ∀ holds, d.Fits t' holds clause → d.Fits t' holds shorter := by
  obtain ⟨condition, run, rfl⟩ := whereClause_eq_ok.mp h
  rcases joins.root_eq with same | ⟨params, root⟩
  · rw [same] at run
    exact ⟨_, t', whereClause_eq_ok.mpr ⟨condition, run, rfl⟩, .refl t', fun _ fits => fits⟩
  rw [all] at root
  have short := q.root_eq
  rw [all] at short
  have legible' : (Predicate.ofGroup q'.root).isLegible d := by
    rw [short, Predicate.ofGroup, Predicate.isLegible, Predicate.allLegible_append,
      Bool.and_eq_true] at legible
    rw [root, Predicate.ofGroup, Predicate.isLegible, Predicate.allLegible_append, Bool.and_eq_true,
      Predicate.allLegible, legible.2, Bool.and_true, Predicate.isLegible]
    exact ⟨legible.1, (Bool.or_eq_true ..).mpr complete⟩
  -- The longer condition binds what the shorter one does, and then what the text brings.
  have boolean : Connective.all.isBoolean = true := rfl
  have longer := run
  rw [root] at longer
  obtain ⟨parts, members, -⟩ := Predicate.render_boolean_eq_ok boolean longer
  obtain ⟨first, mid, others, front, back, -⟩ := Predicate.renderMembers_append_eq_ok.mp members
  have grows := (Predicate.renderMembers_lawful d _ _).grows_of_ok back
  obtain ⟨asides, aside⟩ := q.renderMembers_aside
  have rendered : q.root.render d t =
      .ok (Text.joined (" " ++ Connective.all.sql ++ " ") (first ++ asides)) mid := by
    have kept := Predicate.renderMembers_append_eq_ok.mpr
      ⟨first, mid, asides, front, aside mid, rfl⟩
    rw [short]
    exact bind_eq_ok.mpr ⟨first ++ asides, mid, kept, rfl⟩
  refine ⟨_, mid, whereClause_eq_ok.mpr ⟨_, rendered, rfl⟩, grows, fun holds fits => ?_⟩
  refine (Group.fits_render_iff legible rendered grows).mpr ?_
  have holdsLonger := (Group.fits_render_iff legible' run (.refl t')).mp fits
  rw [root] at holdsLonger
  rw [short]
  exact Predicate.holds_of_insert (p := .comparison (Comparison.native sql params)) tight
    holdsLonger

/-! ## The law -/

/-- **Conditions mean their trees.** In an unmixed condition whose given texts are complete, the
clause reads as the tree that it was rendered from, whatever truth values the atoms have. And text
without OR that joins a condition under AND makes no row fit that did not fit before: the condition
without it renders as well, and what the longer table binds, it binds alike. -/
theorem conditions_mean_their_trees {q : Query}
    (legible : (Predicate.ofGroup q.root).isLegible d = true) :
    (∀ {t t' clause}, (Predicate.ofGroup q.root).isUnmixed d = true →
      q.whereClause d t = .ok clause t' →
        ∀ holds, d.ClauseTruth t' holds clause
          ((Predicate.ofGroup q.root).truth? d t' holds none)) ∧
    (∀ {q' sql t t' clause}, q.filter.connective = .all → q.Joins sql q' →
      (Text.blank sql = true ∨ (d.chain? sql).isSome = true) → d.isTight sql = true →
        q'.whereClause d t = .ok clause t' →
          ∃ shorter mid, q.whereClause d t = .ok shorter mid ∧ mid.GrowsTo t' ∧
            ∀ holds, d.Fits t' holds clause → d.Fits t' holds shorter) := by
  constructor
  · intro t t' clause unmixed h holds
    obtain ⟨condition, run, rfl⟩ := Query.whereClause_eq_ok.mp h
    have value := Group.clauseTruth_render holds legible run (.refl t')
    rwa [Predicate.truth_chain? none _ unmixed] at value
  · intro q' sql t t' clause all joins complete tight h
    exact Query.fits_of_joins legible all joins complete tight h

end

/-- The row of a table with a number. -/
def Query.numbered : Query :=
  (Query.ofTable "users").setField "id" (Comparison.equal (.int 7))

/-- The table that the condition of the row binds. -/
def Query.numberedTable : Params :=
  ⟨[(":param0", .int 7)]⟩

/-- The row, as long as it is active. -/
def Query.numberedActive : Query :=
  { numbered with extraFilter := some "active = 1" }

theorem conditions_mean_their_trees_numbered :
    (∀ holds, Dialect.mysql.ClauseTruth Query.numberedTable holds
      " WHERE `id` = :param0 AND active = 1"
      ((Predicate.ofGroup Query.numberedActive.root).truth? .mysql Query.numberedTable holds none)) ∧
    ∃ shorter mid, Query.numberedActive.whereClause .mysql {} = .ok shorter mid ∧
      mid.GrowsTo Query.numberedTable ∧
        ∀ holds,
          Dialect.mysql.Fits Query.numberedTable holds
            " WHERE `id` = :param0 AND NOT (b OR c) AND active = 1" →
          Dialect.mysql.Fits Query.numberedTable holds shorter := by
  have legible : (Predicate.ofGroup Query.numberedActive.root).isLegible .mysql = true := rfl
  have unmixed : (Predicate.ofGroup Query.numberedActive.root).isUnmixed .mysql = true := rfl
  have short : Query.numberedActive.whereClause .mysql {} =
      .ok " WHERE `id` = :param0 AND active = 1" Query.numberedTable := rfl
  have complete : (Dialect.mysql.chain? "NOT (b OR c)").isSome = true := rfl
  have tight : Dialect.mysql.isTight "NOT (b OR c)" = true := rfl
  have long : (Query.numberedActive.append (Comparison.native "NOT (b OR c)" {})).whereClause
      .mysql {} =
        .ok " WHERE `id` = :param0 AND NOT (b OR c) AND active = 1" Query.numberedTable := rfl
  exact ⟨(conditions_mean_their_trees legible).1 unmixed short,
    (conditions_mean_their_trees legible).2 rfl (.member {}) (.inr complete) tight long⟩

/-- A row on which `c` holds and nothing else. -/
def Lexeme.onlyC : List Lexeme → Truth
  | [.word ['c']] => .yes
  | _ => .no

/-- **An OR in given text escapes the AND that joins it.** The tree does not hold on the row, and
the row did not fit without the text, but it fits the clause. -/
theorem given_or_escapes_and :
    (Predicate.ofGroup { Query.numbered with extraFilter := some "b OR c" }.root).isLegible
      .mysql = true ∧
    ({ Query.numbered with extraFilter := some "b OR c" } : Query).whereClause .mysql {} =
      .ok (" WHERE " ++ "`id` = :param0 AND b OR c") Query.numberedTable ∧
    Dialect.mysql.ClauseTruth Query.numberedTable Lexeme.onlyC
      (" WHERE " ++ "`id` = :param0 AND b OR c") (some .yes) ∧
    (Predicate.ofGroup { Query.numbered with extraFilter := some "b OR c" }.root).truth? .mysql
      Query.numberedTable Lexeme.onlyC none = some .no ∧
    Query.numbered.whereClause .mysql {} =
      .ok (" WHERE " ++ "`id` = :param0") Query.numberedTable ∧
    ¬ Dialect.mysql.Fits Query.numberedTable Lexeme.onlyC (" WHERE " ++ "`id` = :param0") := by
  refine ⟨rfl, rfl, .given rfl, rfl, rfl, ?_⟩
  have value : Dialect.mysql.ClauseTruth Query.numberedTable Lexeme.onlyC
      (" WHERE " ++ "`id` = :param0") (some .no) := .given rfl
  rintro (none | yes)
  · cases value.unique none
  · cases value.unique yes

end SqlAccess
