import SqlAccess.Ddl.Clause
import SqlAccess.Proofs.Ddl.Quoting
import SqlAccess.Proofs.Decimal

/-!
# The attributes of a column

What a column is printed with behind its type is a list of attributes, the same data that the reader
finds: their tokens are read back as those attributes (`attributes?_flatMap_tokens`), and applied to
a fresh column they make the column that was printed (`foldl_apply_attributes`).

Not everything comes back as it was: a constant default is read as the text that it was printed as,
and the null value as no default at all.
-/

namespace SqlAccess

open Ddl SqlAccess.Text

namespace DefaultValue

/-- The default that is read where this one was printed. -/
def reread : DefaultValue → Option DefaultValue
  | .null => none
  | .bool b => some (.text (if b then "1" else "0"))
  | .int n => some (.text (toString n))
  | .float x => some (.text (Decimal.plain x))
  | .text s => some (.text s)
  | .expression sql => some (.expression sql)

/-- Is the SQL one word, and read as what it is? -/
structure IsExpression (sql : List Char) : Prop where
  word : IsWord sql
  notText : literal? sql = none
  notNull : isWord "NULL" sql = false

/-- Is the default printed on one line, and read as what it is? -/
def Readable : DefaultValue → Prop
  | .expression sql => IsExpression sql.toList
  | .text s => '\n' ∉ s.toList
  | .null | .bool _ | .int _ | .float _ => True

theorem isWord_defaultSql {default : DefaultValue} (readable : default.Readable) :
    IsWord (Dialect.mysql.defaultSql default).toList := by
  have escaped : ∀ s : String, '\n' ∉ s.toList → IsWord (Literal.escaped s).toList := by
    intro s oneLine
    rw [toList_escaped]
    exact isWord_escapedChars oneLine
  cases default with
  | null => exact (by decide : IsWord "NULL".toList)
  | bool b => exact escaped _ (by cases b <;> decide)
  | int n => exact escaped _ fun member => absurd (Decimal.isNumeral_toString n _ member) (by decide)
  | float x => exact escaped _ fun member => absurd (Decimal.isNumeral_plain x _ member) (by decide)
  | text s => exact escaped s readable
  | expression sql => exact readable.word

end DefaultValue

namespace Ddl.Attribute

/-- The tokens that an attribute is printed as. -/
def tokens : Attribute → List (List Char)
  | .unsigned => ["UNSIGNED".toList]
  | .autoIncrement => ["AUTO_INCREMENT".toList]
  | .notNull => ["NOT".toList, "NULL".toList]
  | .default value => ["DEFAULT".toList, ((value.map Dialect.mysql.defaultSql).getD "NULL").toList]
  | .collation name => ["COLLATE".toList, name.toList]
  | .comment text => ["COMMENT".toList, Literal.escapedChars text.toList]

/-- The attribute that is read where this one was printed. -/
def reread : Attribute → Attribute
  | .default value => .default (value.bind DefaultValue.reread)
  | a => a

/-- Is the attribute printed on one line, and read as what it is? -/
def Readable : Attribute → Prop
  | .default value => ∀ default ∈ value, default.Readable
  | .collation name => IsWord name.toList
  | .comment text => '\n' ∉ text.toList
  | .unsigned | .autoIncrement | .notNull => True

theorem isWord_tokens {a : Attribute} (readable : a.Readable) : ∀ t ∈ a.tokens, IsWord t := by
  have pair : ∀ {first second : List Char}, IsWord first → IsWord second →
      ∀ t ∈ [first, second], IsWord t := by
    intro first second h h' t member
    rcases List.mem_cons.mp member with rfl | member
    · exact h
    · rwa [List.mem_singleton.mp member]
  cases a with
  | unsigned => exact fun t member => List.mem_singleton.mp member ▸ by decide
  | autoIncrement => exact fun t member => List.mem_singleton.mp member ▸ by decide
  | notNull => exact pair (by decide) (by decide)
  | default value =>
    refine pair (by decide) ?_
    cases value with
    | none => exact by decide
    | some value => exact value.isWord_defaultSql (readable value rfl)
  | collation name => exact pair (by decide) readable
  | comment text => exact pair (by decide) (isWord_escapedChars readable)

end Ddl.Attribute

namespace Ddl

open Attribute

/-! ## Reading -/

theorem defaultOf_defaultSql {value : Option DefaultValue} (readable : (Attribute.default value).Readable) :
    defaultOf ((value.map Dialect.mysql.defaultSql).getD "NULL").toList =
      value.bind DefaultValue.reread := by
  have escaped : ∀ s : String, defaultOf (Literal.escaped s).toList = some (.text s) := by
    intro s
    rw [toList_escaped, defaultOf, literal?_escapedChars,
      String.ofList_toList]
  have null : defaultOf "NULL".toList = none := by
    rw [defaultOf, show literal? "NULL".toList = none by decide]
    rfl
  cases value with
  | none => exact null
  | some value =>
    cases value with
    | null => exact null
    | bool b => exact escaped _
    | int n => exact escaped _
    | float x => exact escaped _
    | text s => exact escaped s
    | expression sql =>
      have expression : DefaultValue.IsExpression sql.toList := readable _ rfl
      change defaultOf sql.toList = some (.expression sql)
      rw [defaultOf, expression.notText, expression.notNull, String.ofList_toList]
      rfl

theorem attributes?_unsigned (rest : List (List Char)) :
    attributes? ("UNSIGNED".toList :: rest) = (attributes? rest).map (.unsigned :: ·) := by
  cases rest with
  | nil => rfl
  | cons next rest => rw [attributes?, if_pos (by decide)]

theorem attributes?_autoIncrement (rest : List (List Char)) :
    attributes? ("AUTO_INCREMENT".toList :: rest) =
      (attributes? rest).map (.autoIncrement :: ·) := by
  cases rest with
  | nil => rfl
  | cons next rest => rw [attributes?, if_neg (by decide), if_pos (by decide)]

theorem attributes?_notNull (rest : List (List Char)) :
    attributes? ("NOT".toList :: "NULL".toList :: rest) =
      (attributes? rest).map (.notNull :: ·) := by
  rw [attributes?, if_neg (by decide), if_neg (by decide), if_pos (by decide)]

theorem attributes?_default (token : List Char) (rest : List (List Char)) :
    attributes? ("DEFAULT".toList :: token :: rest) =
      (attributes? rest).map (.default (defaultOf token) :: ·) := by
  have other : ¬ (isWord "NOT" "DEFAULT".toList = true ∧ isWord "NULL" token = true) :=
    fun h => absurd h.1 (by decide)
  rw [attributes?, if_neg (by decide), if_neg (by decide), if_neg other, if_pos (by decide)]

theorem attributes?_collation (token : List Char) (rest : List (List Char)) :
    attributes? ("COLLATE".toList :: token :: rest) =
      (attributes? rest).map (.collation (String.ofList token) :: ·) := by
  have other : ¬ (isWord "NOT" "COLLATE".toList = true ∧ isWord "NULL" token = true) :=
    fun h => absurd h.1 (by decide)
  rw [attributes?, if_neg (by decide), if_neg (by decide), if_neg other, if_neg (by decide),
    if_pos (by decide)]

theorem attributes?_comment {token : List Char} {text : String} (quoted : literal? token = some text)
    (rest : List (List Char)) : attributes? ("COMMENT".toList :: token :: rest) =
      (attributes? rest).map (.comment text :: ·) := by
  have other : ¬ (isWord "NOT" "COMMENT".toList = true ∧ isWord "NULL" token = true) :=
    fun h => absurd h.1 (by decide)
  rw [attributes?, if_neg (by decide), if_neg (by decide), if_neg other, if_neg (by decide),
    if_neg (by decide), if_pos (by decide), quoted]

/-- Is the attribute told by one of the words, if it tells something that only words can? -/
def Attribute.ToldBy (words : List (List Char)) : Attribute → Prop
  | .default value => ∃ word ∈ words, value = defaultOf word
  | .collation name => ∃ word ∈ words, name = String.ofList word
  | .comment text => ∃ word ∈ words, literal? word = some text
  | .unsigned | .autoIncrement | .notNull => True

theorem Attribute.ToldBy.mono {words more : List (List Char)} {a : Attribute}
    (told : a.ToldBy words) (part : words ⊆ more) : a.ToldBy more := by
  cases a with
  | default value => exact told.imp fun word => .imp_left fun member => part member
  | collation name => exact told.imp fun word => .imp_left fun member => part member
  | comment text => exact told.imp fun word => .imp_left fun member => part member
  | unsigned | autoIncrement | notNull => trivial

/-- **Every attribute that is read is told by one of the words.** -/
theorem attributes?_toldBy {words : List (List Char)} {as : List Attribute}
    (h : attributes? words = some as) : ∀ a ∈ as, a.ToldBy words := by
  -- an attribute in front of the ones of the words behind it
  have front : ∀ {rest words : List (List Char)} {a : Attribute} {as : List Attribute},
      a.ToldBy words → rest ⊆ words →
      (∀ {bs : List Attribute}, attributes? rest = some bs → ∀ b ∈ bs, b.ToldBy rest) →
      (attributes? rest).map (a :: ·) = some as → ∀ b ∈ as, b.ToldBy words := by
    intro rest words a as told part behind h b member
    obtain ⟨bs, found, rfl⟩ := Option.map_eq_some_iff.mp h
    rcases List.mem_cons.mp member with rfl | member
    · exact told
    · exact (behind found b member).mono part
  have one : ∀ {word next : List Char} {rest : List (List Char)},
      next :: rest ⊆ word :: next :: rest := fun member => List.mem_cons_of_mem _ member
  have two : ∀ {word next : List Char} {rest : List (List Char)},
      rest ⊆ word :: next :: rest := fun member =>
    List.mem_cons_of_mem _ (List.mem_cons_of_mem _ member)
  have second : ∀ {word next : List Char} {rest : List (List Char)},
      next ∈ word :: next :: rest := List.mem_cons_of_mem _ List.mem_cons_self
  fun_induction attributes? words generalizing as with
  | case1 => cases h; nofun
  | case2 word => cases h; exact fun a member => List.mem_singleton.mp member ▸ trivial
  | case3 word => cases h; exact fun a member => List.mem_singleton.mp member ▸ trivial
  | case4 word => cases h
  | case5 word => cases h; nofun
  | case6 word next rest _ ih => exact front (a := .unsigned) trivial one ih h
  | case7 word next rest _ _ ih => exact front (a := .autoIncrement) trivial one ih h
  | case8 word next rest _ _ _ ih => exact front (a := .notNull) trivial two ih h
  | case9 word next rest _ _ _ _ ih =>
    exact front (a := .default (defaultOf next)) ⟨next, second, rfl⟩ two ih h
  | case10 word next rest _ _ _ _ _ ih =>
    exact front (a := .collation (String.ofList next)) ⟨next, second, rfl⟩ two ih h
  | case11 word next rest _ _ _ _ _ _ text quoted ih =>
    exact front (a := .comment text) ⟨next, second, quoted⟩ two ih h
  | case12 word next rest _ _ _ _ _ _ quoted => cases h
  | case13 word next rest _ _ _ _ _ _ ih => exact fun a member => (ih h a member).mono one

/-- **Attributes are read back** from their tokens. -/
theorem attributes?_flatMap_tokens {as : List Attribute} (readable : ∀ a ∈ as, a.Readable) :
    attributes? (as.flatMap Attribute.tokens) = some (as.map Attribute.reread) := by
  induction as with
  | nil => rfl
  | cons a as ih =>
    have first := readable a List.mem_cons_self
    have rest := ih fun b member => readable b (List.mem_cons_of_mem a member)
    rw [List.flatMap_cons, List.map_cons]
    cases a with
    | unsigned =>
      change attributes? ("UNSIGNED".toList :: as.flatMap Attribute.tokens) = _
      rw [attributes?_unsigned, rest]
      rfl
    | autoIncrement =>
      change attributes? ("AUTO_INCREMENT".toList :: as.flatMap Attribute.tokens) = _
      rw [attributes?_autoIncrement, rest]
      rfl
    | notNull =>
      change attributes? ("NOT".toList :: "NULL".toList :: as.flatMap Attribute.tokens) = _
      rw [attributes?_notNull, rest]
      rfl
    | default value =>
      change attributes? ("DEFAULT".toList :: _ :: as.flatMap Attribute.tokens) = _
      rw [attributes?_default, rest, defaultOf_defaultSql first]
      rfl
    | collation name =>
      change attributes? ("COLLATE".toList :: name.toList :: as.flatMap Attribute.tokens) = _
      rw [attributes?_collation, rest, String.ofList_toList]
      rfl
    | comment text =>
      change attributes? ("COMMENT".toList :: Literal.escapedChars text.toList ::
        as.flatMap Attribute.tokens) = _
      rw [attributes?_comment (literal?_escapedChars text.toList), rest, String.ofList_toList]
      rfl

end Ddl

/-! ## The attributes of a column -/

namespace Column

/-- What a column is printed with behind its type. -/
def attributes (c : Column) : List Attribute :=
  (if c.unsigned then [.unsigned] else []) ++ (if c.nullable then [] else [.notNull]) ++
    (match c.default with
      | some value => [.default (some value)]
      | none => if c.nullable then [.default none] else []) ++
    (if c.autoIncrement then [.autoIncrement] else []) ++
    (c.collation.map .collation).toList ++ (c.comment.map .comment).toList

end Column

/-- Does the column say what the attribute says, if that is more than one word? -/
def Ddl.Attribute.Of (c : Column) : Attribute → Prop
  | .default value => ∀ default ∈ value, c.default = some default
  | .collation name => c.collation = some name
  | .comment text => c.comment = some text
  | .unsigned | .autoIncrement | .notNull => True

namespace Column

theorem attributes_of {c : Column} : ∀ a ∈ c.attributes, a.Of c := by
  intro a member
  unfold attributes at member
  simp only [List.mem_append, Option.mem_toList, Option.map_eq_some_iff] at member
  rcases member with ((((sign | null) | value) | counting) | ⟨name, given, rfl⟩) | ⟨text, given, rfl⟩
  · split at sign
    · rw [List.mem_singleton.mp sign]
      trivial
    · cases sign
  · split at null
    · cases null
    · rw [List.mem_singleton.mp null]
      trivial
  · split at value
    next given =>
      rw [List.mem_singleton.mp value]
      intro value' same
      exact given.trans same
    next =>
      split at value
      · rw [List.mem_singleton.mp value]
        exact fun _ none => nomatch none
      · cases value
  · split at counting
    · rw [List.mem_singleton.mp counting]
      trivial
    · cases counting
  · exact given
  · exact given

theorem readable_attributes {c : Column} (default : ∀ value ∈ c.default, value.Readable)
    (collation : ∀ name ∈ c.collation, IsWord name.toList)
    (comment : ∀ text ∈ c.comment, '\n' ∉ text.toList) : ∀ a ∈ c.attributes, a.Readable := by
  intro a member
  have told := attributes_of a member
  cases a with
  | default value => exact fun value' given => default value' (told value' given)
  | collation name => exact collation name told
  | comment text => exact comment text told
  | unsigned | autoIncrement | notNull => trivial

theorem flatMap_words (c : Column) :
    (c.signWords .mysql ++ c.nullWords ++ c.defaultWords .mysql ++ c.countingWords .mysql ++
      c.remarkWords .mysql).flatMap (fun word => ' ' :: word.toList) =
        (c.attributes.flatMap Attribute.tokens).flatMap (' ' :: ·) := by
  have sign : (c.signWords .mysql).flatMap (fun word => ' ' :: word.toList) =
      ((if c.unsigned then [Attribute.unsigned] else []).flatMap Attribute.tokens).flatMap
        (' ' :: ·) := by
    unfold signWords
    cases c.unsigned <;> rfl
  have null : c.nullWords.flatMap (fun word => ' ' :: word.toList) =
      ((if c.nullable then [] else [Attribute.notNull]).flatMap Attribute.tokens).flatMap
        (' ' :: ·) := by
    unfold nullWords
    cases c.nullable <;> rfl
  have default : (c.defaultWords .mysql).flatMap (fun word => ' ' :: word.toList) =
      ((match c.default with
        | some value => [Attribute.default (some value)]
        | none => if c.nullable then [Attribute.default none] else []).flatMap
          Attribute.tokens).flatMap (' ' :: ·) := by
    unfold defaultWords
    cases c.default with
    | none => cases c.nullable <;> rfl
    | some value =>
      dsimp only
      rw [List.flatMap_cons, List.flatMap_nil, List.append_nil, String.toList_append]
      simp [Attribute.tokens]
  have counting : (c.countingWords .mysql).flatMap (fun word => ' ' :: word.toList) =
      ((if c.autoIncrement then [Attribute.autoIncrement] else []).flatMap
        Attribute.tokens).flatMap (' ' :: ·) := by
    unfold countingWords
    cases c.autoIncrement <;> rfl
  have remark : (c.remarkWords .mysql).flatMap (fun word => ' ' :: word.toList) =
      (((c.collation.map Attribute.collation).toList ++
        (c.comment.map Attribute.comment).toList).flatMap Attribute.tokens).flatMap
          (' ' :: ·) := by
    unfold remarkWords
    cases c.collation <;> cases c.comment <;>
      simp [Attribute.tokens, Literal.escaped, String.toList_append]
  unfold attributes
  simp only [List.flatMap_append] at *
  rw [sign, null, default, counting, remark]
  simp only [List.append_assoc]

/-- **Applying the attributes of a column** to a fresh one makes the column. -/
theorem foldl_apply_attributes (c : Column) (type : ColumnType) :
    (c.attributes.map Attribute.reread).foldl Attribute.apply
      { table := c.table, name := c.name, type, length := c.length, nullable := true } =
    { table := c.table, name := c.name, type, length := c.length, nullable := c.nullable
      default := c.default.bind DefaultValue.reread, autoIncrement := c.autoIncrement
      unsigned := c.unsigned, comment := c.comment, collation := c.collation } := by
  obtain ⟨table, name, _, length, nullable, default, autoIncrement, unsigned, comment, collation, _⟩ := c
  cases nullable <;> cases default <;> cases autoIncrement <;> cases unsigned <;> cases comment <;>
    cases collation <;> rfl

end Column

end SqlAccess
