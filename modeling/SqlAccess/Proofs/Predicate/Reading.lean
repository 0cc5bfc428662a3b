import Mathlib.Data.List.Forall2
import SqlAccess.Predicate.Build
import SqlAccess.Proofs.Predicate.Form
import SqlAccess.Proofs.Predicate.Values

/-!
# A condition is what its text says

`Predicate.form` is the form of a condition, read off its tree. It resolves the column of every leaf
and list, drops the groups that say nothing, and lets a leaf with null be the test that it comes to.
What a group of one member would join its members with, and what the leaves of a list compare and
name, does not appear in it.

`Written` is the same on the side of the text: the text is that of a form with generated keys in it,
and the table has the values for these keys. A rendering writes the form of its tree, and by
`Form.text_cancel` a text and a table write one form only. So two conditions with the same text and
the same table have the same form: no name of a column, however it was chosen, can turn one
condition into the text of another.
-/

namespace SqlAccess

/-! ## The form of a condition -/

namespace Predicate

mutual

/-- What the condition says, unless it says nothing. A leaf or list without a column of its own has
the inherited one. -/
def form (inherited : Option String) : Predicate → Option (Form Value)
  | .comparison c =>
    (c.column.or inherited).map fun column =>
      .test column
        (if c.value.isNull then .null (c.operator != .equal) else .compare c.operator c.value)
  | .group column connective members =>
    if connective.isBoolean then
      Form.joined connective (memberForms (column.or inherited) members)
    else
      (column.or inherited).map fun column =>
        .test column (.listed (connective == .notAmong) (itemValues members))

/-- What the members of an AND or OR group say, from left to right. -/
def memberForms (inherited : Option String) : List (Option String × Predicate) → List (Form Value)
  | [] => []
  | (_, p) :: rest => (p.form inherited).toList ++ memberForms inherited rest

end

end Predicate

/-! ## Forms with keys -/

/-- The test with the values that the table has for its keys. -/
def Test.filledFrom (table : Params) : Test Nat → Option (Test Value)
  | .compare operator number => (table.get? (Params.generated number)).map (.compare operator)
  | .null negated => some (.null negated)
  | .listed negated numbers =>
    (numbers.mapM fun number => table.get? (Params.generated number)).map (.listed negated)

namespace Form

mutual

/-- The form with the values that the table has for its keys. -/
def filledFrom (table : Params) : Form Nat → Option (Form Value)
  | .test column shape => (shape.filledFrom table).map (.test column)
  | .group first rest =>
    (filledFrom table first).bind fun form => (moreFilledFrom table rest).map (.group form)

/-- The further members of a group with the values that the table has for their keys. -/
def moreFilledFrom (table : Params) :
    List (Connective × Form Nat) → Option (List (Connective × Form Value))
  | [] => some []
  | (connective, form) :: rest =>
    (filledFrom table form).bind fun form =>
      (moreFilledFrom table rest).map ((connective, form) :: ·)

end

end Form

variable {d : Dialect} {table : Params}

/-- The text and the table write the form. -/
def Written (d : Dialect) (table : Params) (sql : String) (form : Form Value) : Prop :=
  ∃ keyed : Form Nat, sql.toList = keyed.text d ∧ keyed.filledFrom table = some form

/-- **A text and a table write one form only.** -/
theorem written_unique : Relator.RightUnique (Written d table) := by
  rintro sql form form' ⟨keyed, text, filled⟩ ⟨keyed', text', filled'⟩
  have same : keyed.text d ++ [] = keyed'.text d ++ [] := by rw [← text, ← text']
  obtain ⟨rfl, -⟩ := Form.text_cancel d keyed keyed' ends_nil.follows ends_nil.follows same
  exact Option.some.inj (filled.symm.trans filled')

/-- A text that writes a form is not blank. -/
theorem Written.visible {sql : String} {form : Form Value} (written : Written d table sql form) :
    Text.blank sql = false := by
  obtain ⟨keyed, text, -⟩ := written
  rw [Text.blank, text]
  cases keyed with
  | test column shape =>
    have name : (d.identifier column).toList.all Text.isBlank = false := d.blank_identifier column
    rw [Form.text, List.all_append, ← Dialect.toList_identifier, name, Bool.false_and]
  | group first rest =>
    have parenthesis : Text.isBlank '(' = false := rfl
    rw [Form.text, List.all_cons, parenthesis, Bool.false_and]

/-- A column and a test behind it write that test. -/
theorem written_test {column sql : String} (keyed : Test Nat) {shape : Test Value}
    (text : sql.toList = keyed.opening.text ++ keyed.operands)
    (filled : keyed.filledFrom table = some shape) :
    Written d table (d.identifier column ++ sql) (.test column shape) := by
  refine ⟨.test column keyed, ?_, ?_⟩
  · rw [String.toList_append, Dialect.toList_identifier, text, Form.text]
  · rw [Form.filledFrom, filled, Option.map_some]

/-! ## Leaves -/

section

variable {inherited : Option String} {t t' : Params}

theorem Comparison.written_render {c : Comparison} {sql : String} (plain : c.raw = none)
    (h : c.render d inherited t = .ok sql t') (grows : t'.GrowsTo table) :
    ∃ form, (Predicate.comparison c).form inherited = some form ∧ Written d table sql form := by
  rcases Comparison.render_eq_ok h with
    raw | ⟨-, column, resolved, ⟨null, rfl, rfl⟩ | ⟨filled, rfl, rfl⟩⟩
  · rw [plain] at raw
    cases raw
  · rw [Predicate.form, resolved, null, Option.map_some, if_pos rfl]
    refine ⟨_, rfl, ?_⟩
    unfold nullTest
    split
    next equal =>
      rw [equal, bne_self_eq_false]
      exact written_test (.null false) (List.append_nil _).symm rfl
    next differs =>
      rw [bne_iff_ne.mpr differs]
      exact written_test (.null true) (List.append_nil _).symm rfl
  · rw [Predicate.form, resolved, filled, Option.map_some, if_neg Bool.false_ne_true]
    refine ⟨_, rfl, ?_⟩
    rw [String.append_assoc, String.append_assoc, String.append_assoc]
    refine written_test (.compare c.operator (t.firstFree t.size t.size)) ?_ ?_
    · rw [String.toList_append, String.toList_append, String.toList_append]
      exact congrArg (' ' :: ·) (List.append_assoc _ [' '] _).symm
    · rw [Test.filledFrom, ← Params.nextKey, Params.get?_push_of_growsTo grows, Option.map_some]

/-! ## Lists -/

/-- The keys of a list as its text has them. -/
theorem keysText_eq (numbers : List Nat) :
    (Text.joined ", " (numbers.map Params.generated) ++ ")").toList = keysText numbers := by
  have more : ∀ numbers : List Nat,
      ((numbers.map Params.generated).flatMap fun key => ", ".toList ++ key.toList) ++ [')'] =
        moreKeys numbers := by
    intro numbers
    induction numbers with
    | nil => rfl
    | cons number numbers ih =>
      rw [List.map_cons, List.flatMap_cons, List.append_assoc, List.append_assoc, ih]
      rfl
  rw [String.toList_append]
  cases numbers with
  | nil => rfl
  | cons number numbers =>
    rw [List.map_cons, Text.toList_joined_cons, List.append_assoc]
    exact congrArg _ (more numbers)

namespace Predicate

/-- The items of a list are keys, and stand for the values of its leaves. -/
theorem keyed_renderItems {connective : Connective} {column : String}
    {members : List (Option String × Predicate)} {items : List String}
    (plain : allWithoutText members = true)
    (h : renderItems connective column members t = .ok items t') (grows : t'.GrowsTo table) :
    ∃ numbers : List Nat, items = numbers.map Params.generated ∧
      (numbers.mapM fun number => table.get? (Params.generated number)) =
        some (itemValues members) := by
  have runs := itemRuns_of_renderItems h
  clear h
  induction runs with
  | nil => exact ⟨[], rfl, rfl⟩
  | @cons member item members items first _ ih =>
    obtain ⟨c, s, s', leaf, run, grown⟩ := first
    obtain ⟨field, p⟩ := member
    cases leaf
    rw [allWithoutText, Bool.and_eq_true] at plain
    obtain ⟨rfl, rfl⟩ := Comparison.renderItem_eq_ok (Comparison.raw_of_withoutText plain.1) run
    obtain ⟨numbers, rfl, values⟩ := ih plain.2
    refine ⟨s.firstFree s.size s.size :: numbers, rfl, ?_⟩
    rw [List.mapM_cons, values, ← Params.nextKey, Params.get?_push_of_growsTo (grown.trans grows)]
    rfl

/-- A list writes its column and the values of its leaves. -/
theorem written_renderList {connective : Connective} {column : Option String}
    {members : List (Option String × Predicate)} {sql : String}
    (listing : connective.isBoolean = false) (plain : allWithoutText members = true)
    (h : renderList d connective column members t = .ok sql t') (grows : t'.GrowsTo table) :
    ∃ name, column = some name ∧ Written d table sql
      (.test name (.listed (connective == .notAmong) (itemValues members))) := by
  obtain ⟨name, items, rfl, -, run, rfl⟩ := renderList_eq_ok h
  obtain ⟨numbers, rfl, values⟩ := keyed_renderItems plain run grows
  refine ⟨name, rfl, ?_⟩
  rw [String.append_assoc, String.append_assoc, String.append_assoc, String.append_assoc]
  refine written_test (.listed (connective == .notAmong) numbers) ?_ ?_
  · have opening : (" " ++ (connective.sql ++ " (")).toList =
        (Opening.listed (connective == .notAmong)).text := by
      cases connective with
      | all | any => cases listing
      | among | notAmong => rfl
    rw [Test.operands, ← keysText_eq, Test.opening, ← opening, ← String.toList_append,
      String.append_assoc, String.append_assoc]
  · rw [Test.filledFrom, values, Option.map_some]

end Predicate

/-! ## Groups -/

/-- Texts with a connective in front of each write the further members of a group. -/
theorem written_more (connective : Connective) {parts : List String} {forms : List (Form Value)}
    (written : List.Forall₂ (Written d table) parts forms) :
    ∃ keyed : List (Connective × Form Nat),
      (parts.flatMap fun part => (" " ++ connective.sql ++ " ").toList ++ part.toList) =
          Form.moreText d keyed ∧
        Form.moreFilledFrom table keyed = some (forms.map fun form => (connective, form)) := by
  have between : (" " ++ connective.sql ++ " ").toList = connective.between := by
    cases connective <;> rfl
  induction written with
  | nil => exact ⟨[], by rw [Form.moreText]; rfl, by rw [Form.moreFilledFrom]; rfl⟩
  | cons first _ ih =>
    obtain ⟨keyed, text, filled⟩ := first
    obtain ⟨others, texts, fills⟩ := ih
    refine ⟨(connective, keyed) :: others, ?_, ?_⟩
    · rw [List.flatMap_cons, texts, text, between, Form.moreText, List.append_assoc]
    · rw [Form.moreFilledFrom, filled, fills]
      rfl

/-- Joined texts in parentheses write a group. -/
theorem written_group (connective : Connective) {part : String} {parts : List String}
    {form : Form Value} {forms : List (Form Value)} (first : Written d table part form)
    (rest : List.Forall₂ (Written d table) parts forms) :
    Written d table ("( " ++ Text.joined (" " ++ connective.sql ++ " ") (part :: parts) ++ " )")
      (.group form (forms.map fun form => (connective, form))) := by
  obtain ⟨keyed, text, filled⟩ := first
  obtain ⟨others, texts, fills⟩ := written_more connective rest
  refine ⟨.group keyed others, ?_, ?_⟩
  · rw [String.toList_append, String.toList_append, Text.toList_joined_cons, texts, text, Form.text,
      List.append_assoc, List.append_assoc]
    rfl
  · rw [Form.filledFrom, filled, Option.bind_some, fills, Option.map_some]

namespace Predicate

/-- What is placed of a group that joins the given texts writes what is left of the group. -/
theorem written_joined {column : Option String} {connective : Connective}
    {members : List (Option String × Predicate)} {parts : List String} {forms : List (Form Value)}
    (boolean : connective.isBoolean = true)
    (written : List.Forall₂ (Written d table) parts forms) :
    List.Forall₂ (Written d table)
      ((group column connective members).placed
        (Text.joined (" " ++ connective.sql ++ " ") parts)).toList
      (Form.joined connective forms).toList := by
  cases written with
  | nil => exact .nil
  | cons first rest =>
    rw [placed_group, Text.isEmpty_of_blank_eq_false (Text.blank_joined_cons first.visible),
      boolean]
    exact .cons (written_group connective first rest) .nil

mutual

/-- **What is placed of a condition writes the form of its tree**, under every table that the one
of the rendering grows to. -/
theorem written_placed :
    ∀ (inherited : Option String) (p : Predicate) {t t' : Params} {sql : String},
      p.withoutText = true → p.render d inherited t = .ok sql t' → t'.GrowsTo table →
        List.Forall₂ (Written d table) (p.placed sql).toList (p.form inherited).toList
  | inherited, .comparison c, t, t', sql, plain, h, grows => by
    rw [render] at h
    have raw := Comparison.raw_of_withoutText plain
    obtain ⟨form, same, written⟩ := Comparison.written_render raw h grows
    rw [Comparison.placed_of_withoutText raw h, same]
    exact .cons written .nil
  | inherited, .group column connective members, t, t', sql, plain, h, grows => by
    rw [withoutText] at plain
    rw [form]
    cases boolean : connective.isBoolean with
    | true =>
      obtain ⟨parts, run, rfl⟩ := render_boolean_eq_ok boolean h
      exact written_joined boolean (written_renderMembers _ members plain run grows)
    | false =>
      rw [render_listing_eq boolean] at h
      obtain ⟨name, resolved, written⟩ := written_renderList boolean plain h grows
      rw [placed_group, Text.isEmpty_of_blank_eq_false written.visible, boolean, resolved]
      exact .cons written .nil

/-- The parts of a group write what its members say. -/
theorem written_renderMembers :
    ∀ (inherited : Option String) (members : List (Option String × Predicate)) {t t' : Params}
      {parts : List String}, allWithoutText members = true →
        renderMembers d inherited members t = .ok parts t' → t'.GrowsTo table →
          List.Forall₂ (Written d table) parts (memberForms inherited members)
  | _, [], t, t', parts, _, h, _ => by
    obtain ⟨rfl, -⟩ := Rendering.pure_eq_ok.mp h
    exact .nil
  | inherited, (field, p) :: rest, t, t', parts, plain, h, grows => by
    obtain ⟨sql, t₁, others, run, rest_run, rfl⟩ := renderMembers_cons_eq_ok h
    rw [allWithoutText, Bool.and_eq_true] at plain
    have grown := ((renderMembers_lawful d inherited rest).grows_of_ok rest_run).trans grows
    exact List.rel_append (written_placed inherited p plain.1 run grown)
      (written_renderMembers inherited rest plain.2 rest_run grows)

end

end Predicate

end

/-! ## One text, one condition -/

/-- **Conditions with the same text and the same table say the same.** Between trees whose leaves
are not given as text, the rendered condition decides about everything that a form shows: which
column is tested, how and against which value, and how the tests are grouped and joined. -/
theorem conditions_are_unambiguous {d : Dialect} {g g' : Group} {t t' : Params} {sql : String}
    (boolean : g.connective.isBoolean = true) (boolean' : g'.connective.isBoolean = true)
    (plain : (Predicate.ofGroup g).withoutText = true)
    (plain' : (Predicate.ofGroup g').withoutText = true)
    (h : g.render d t = .ok sql t') (h' : g'.render d t = .ok sql t') :
    (Predicate.ofGroup g).form none = (Predicate.ofGroup g').form none := by
  have first := Predicate.written_placed none _ plain h (.refl t')
  have second := Predicate.written_placed none _ plain' h' (.refl t')
  have placed : (Predicate.ofGroup g').placed sql = (Predicate.ofGroup g).placed sql := by
    rw [Predicate.ofGroup, Predicate.ofGroup, Predicate.placed_group, Predicate.placed_group,
      boolean, boolean']
  rw [placed] at second
  have forms := congrArg List.head? (written_unique.forall₂ first second)
  rwa [Option.head?_toList, Option.head?_toList] at forms

/-- A condition on a column whose name looks like the rest of a condition. -/
def Group.nested : Group where
  column := some "a` = 1 OR ( `b.c"
  members := [
    (none, .group none .any [(none, Comparison.equal (.int 1)), (none, .group none .all [])]),
    (some "x", (Comparison.of .less .null).on "x"),
    (none, .group (some "y") .notAmong [
      (none, (Comparison.like (.text "u")).on "z"), (none, Comparison.isNull)])]

/-- The same condition, put together in another way. -/
def Group.regrouped : Group where
  members := [
    (none, .group (some "a` = 1 OR ( `b.c") .all [(none, Comparison.equal (.int 1))]),
    (none, Comparison.isNotNull.on "x"),
    (none, (Group.notAmong [.text "u", .null]).on "y")]

/-- Neither the quotes and parentheses of the name nor the ways of grouping make a difference. -/
theorem conditions_are_unambiguous_regrouped :
    Group.nested.render .mysql .empty = .ok
        ("( `a`` = 1 OR ( ``b`.`c` = :param0 ) AND `x` IS NOT NULL AND " ++
          "`y` NOT IN (:param1, :param2)")
        ⟨[(":param0", .int 1), (":param1", .text "u"), (":param2", .null)]⟩ ∧
      (Predicate.ofGroup Group.nested).form none = (Predicate.ofGroup Group.regrouped).form none ∧
      (Predicate.ofGroup Group.regrouped).form none = some
        (.group (.group (.test "a` = 1 OR ( `b.c" (.compare .equal (.int 1))) [])
          [(.all, .test "x" (.null true)),
            (.all, .test "y" (.listed true [.text "u", .null]))]) := by
  refine ⟨rfl, ?_, rfl⟩
  have run : Group.nested.render .mysql .empty = .ok _ _ := rfl
  exact conditions_are_unambiguous rfl rfl rfl rfl run rfl

end SqlAccess
