import SqlAccess.Ddl.Clause
import SqlAccess.Ddl.Reader
import SqlAccess.Proofs.Ddl.Quoting
import SqlAccess.Proofs.Text.Letter

/-!
# The closing line

The options of a table stand behind each other in the closing line, and each of them is looked for in
the whole line: at the start of every word an attempt is made to read it. So reading an option back
means that every attempt before it fails, inside the other options as well as at their values
(`passTo`), and that the one at its own place succeeds (`readOptions_closing`).

The values are words. One thing has to be asked of them: since the keyword of the collation may be
written in any case and without an equals sign, no value in front of it may start with that keyword.
-/

namespace SqlAccess

open Ddl SqlAccess.Text

namespace Ddl

/-! ## Attempts that fail -/

/-- Whether the last character of the text belongs to a word, provided that the attempt fails at the
start of every word of the text; the text stands in front of the rest. -/
def passTo {α : Type} (attempt : List Char → Option α) : Bool → List Char → List Char → Option Bool
  | inWord, [], _ => some inWord
  | inWord, c :: cs, rest =>
    if (if inWord then none else attempt (c :: cs ++ rest)).isSome then none
    else passTo attempt (isWordChar c) cs rest

variable {α : Type} {attempt : List Char → Option α} {inWord inWord' : Bool}
  {text text' rest : List Char}

theorem passTo_cons {c : Char} : passTo attempt inWord (c :: text) rest = some inWord' ↔
    (if inWord then none else attempt (c :: (text ++ rest))) = none ∧
      passTo attempt (isWordChar c) text rest = some inWord' := by
  rw [passTo, List.cons_append]
  generalize (if inWord then none else attempt (c :: (text ++ rest))) = tried
  cases tried <;> simp

theorem passTo_append (first : passTo attempt inWord text (text' ++ rest) = some inWord') :
    passTo attempt inWord (text ++ text') rest = passTo attempt inWord' text' rest := by
  induction text generalizing inWord with
  | nil =>
    obtain rfl := Option.some.inj first
    rfl
  | cons c text ih =>
    obtain ⟨fails, first⟩ := passTo_cons.mp first
    rw [List.cons_append, passTo, List.cons_append, List.append_assoc, fails]
    exact ih first

theorem searchWord_of_passTo (passes : passTo attempt inWord text rest = some inWord') :
    searchWord attempt inWord (text ++ rest) = searchWord attempt inWord' rest := by
  induction text generalizing inWord with
  | nil =>
    obtain rfl := Option.some.inj passes
    rfl
  | cons c text ih =>
    obtain ⟨fails, passes⟩ := passTo_cons.mp passes
    rw [List.cons_append, searchWord, fails]
    exact ih passes

theorem searchWord_of_some {found : α} (ne_nil : text ≠ []) (succeeds : attempt text = some found) :
    searchWord attempt false text = some found := by
  cases text with
  | nil => exact absurd rfl ne_nil
  | cons c text =>
    rw [searchWord, if_neg Bool.false_ne_true, succeeds]

theorem takeComment_of_some {found : List Char × List Char} (ne_nil : text ≠ [])
    (succeeds : commentAt? text = some found) : takeComment false text = some found := by
  cases text with
  | nil => exact absurd rfl ne_nil
  | cons c text =>
    rw [takeComment, if_neg Bool.false_ne_true, succeeds]

theorem takeComment_of_passTo (passes : passTo commentAt? inWord text rest = some inWord') :
    takeComment inWord (text ++ rest) =
      (takeComment inWord' rest).map fun (comment, line) => (comment, text ++ line) := by
  induction text generalizing inWord with
  | nil =>
    obtain rfl := Option.some.inj passes
    exact Option.map_id'.symm
  | cons c text ih =>
    obtain ⟨fails, passes⟩ := passTo_cons.mp passes
    rw [List.cons_append, takeComment, fails]
    dsimp only
    rw [ih passes]
    cases takeComment inWord' rest <;> rfl

/-! ## Values -/

/-- Is the text a word? -/
structure IsValue (value : List Char) : Prop where
  ne_nil : value ≠ []
  word : ∀ c ∈ value, isWordChar c = true

theorem passTo_word (word : ∀ c ∈ text, isWordChar c = true) :
    passTo attempt true text rest = some true := by
  induction text with
  | nil => rfl
  | cons c text ih =>
    rw [passTo, word c List.mem_cons_self]
    exact ih fun d member => word d (List.mem_cons_of_mem c member)

theorem passTo_value (isValue : IsValue text) (fails : attempt (text ++ rest) = none) :
    passTo attempt false text rest = some true := by
  cases text with
  | nil => exact absurd rfl isValue.ne_nil
  | cons c text =>
    rw [passTo, isValue.word c List.mem_cons_self, if_neg Bool.false_ne_true, fails]
    exact passTo_word fun d member => isValue.word d (List.mem_cons_of_mem c member)

/-- A value is read up to the blank behind it. -/
theorem wordAt?_append (isValue : IsValue text) (stop : ∀ c ∈ rest.head?, isWordChar c = false) :
    wordAt? (text ++ rest) = some (String.ofList text) := by
  have first : (text ++ rest).head?.any isWordChar = true := by
    cases text with
    | nil => exact absurd rfl isValue.ne_nil
    | cons c text => exact isValue.word c List.mem_cons_self
  rw [wordAt?, if_pos first, takeWhile_append_of_stop isValue.word stop]

/-! ## Settings -/

/-- An option that has a word for its value. -/
inductive Setting where
  | engine
  | rowFormat
  | charset
  | collation
  deriving DecidableEq

/-- What stands in front of the value. -/
def Setting.words : Setting → String
  | .engine => "ENGINE="
  | .rowFormat => "ROW_FORMAT="
  | .charset => "DEFAULT CHARSET="
  | .collation => "COLLATE="

/-- The attempt to read the value of a setting at the start of a text. -/
def Setting.valueAt? : Setting → List Char → Option String
  | .collation, cs => (afterKeyword "COLLATE".toList cs).bind fun rest => wordAt? (afterEquals rest)
  | setting, cs => (afterStart setting.words.toList cs).bind wordAt?

/-- A setting with its value, as it is printed behind the line in front of it. -/
def settingText (setting : Setting × List Char) : List Char :=
  ' ' :: (setting.1.words.toList ++ setting.2)

/-- The start of the comment option, behind the line in front of it. -/
def commentStart : List Char :=
  " COMMENT='".toList

/-- What may stand behind a value: at most a blank, or a blank and a further option. The second word
of the option for the character set is none. -/
def Follows (rest : List Char) : Prop :=
  rest = [] ∨ rest = [' '] ∨ ∃ c d more, rest = ' ' :: c :: d :: more ∧ isWordChar c = true ∧
    (c, d) ≠ ('C', 'H')

theorem follows_settingText (setting : Setting × List Char) (rest : List Char) :
    Follows (settingText setting ++ rest) := by
  obtain ⟨setting, value⟩ := setting
  have starts : ∀ (c d : Char) (word : String), isWordChar c = true → (c, d) ≠ ('C', 'H') →
      setting.words.toList = c :: d :: word.toList → Follows (settingText (setting, value) ++ rest) := by
    intro c d word visible pair parts
    refine .inr (.inr ⟨c, d, word.toList ++ (value ++ rest), ?_, visible, pair⟩)
    simp [settingText, parts]
  cases setting with
  | engine => exact starts 'E' 'N' "GINE=" (by decide) (by decide) (by decide)
  | rowFormat => exact starts 'R' 'O' "W_FORMAT=" (by decide) (by decide) (by decide)
  | charset => exact starts 'D' 'E' "FAULT CHARSET=" (by decide) (by decide) (by decide)
  | collation => exact starts 'C' 'O' "LLATE=" (by decide) (by decide) (by decide)

theorem follows_commentStart (rest : List Char) : Follows (commentStart ++ rest) :=
  .inr (.inr ⟨'C', 'O', "MMENT='".toList ++ rest, rfl, by decide, by decide⟩)

theorem follows_flatMap (settings : List (Setting × List Char)) (follows : Follows rest) :
    Follows (settings.flatMap settingText ++ rest) := by
  cases settings with
  | nil => exact follows
  | cons setting settings =>
    rw [List.flatMap_cons, List.append_assoc]
    exact follows_settingText setting _

theorem Follows.blank (follows : Follows rest) : ∀ c ∈ rest.head?, c = ' ' := by
  intro c first
  rcases follows with rfl | rfl | ⟨d, e, more, rfl, -⟩
  · cases first
  · exact (Option.some.inj first).symm
  · exact (Option.some.inj first).symm

theorem Follows.stop (follows : Follows rest) : ∀ c ∈ rest.head?, isWordChar c = false := by
  intro c first
  rw [follows.blank c first]
  decide

theorem passTo_words {wanted setting : Setting} (other : wanted ≠ setting) (inWord : Bool)
    (rest : List Char) :
    passTo wanted.valueAt? inWord (' ' :: setting.words.toList) rest = some false := by
  cases wanted <;> cases setting <;> first | exact absurd rfl other | cases inWord <;> rfl

theorem passTo_words_comment (setting : Setting) (inWord : Bool) (rest : List Char) :
    passTo commentAt? inWord (' ' :: setting.words.toList) rest = some false := by
  cases setting <;> cases inWord <;> rfl

theorem afterEquals_of_word {c : Char} (word : isWordChar c = true) (cs : List Char) :
    afterEquals (c :: cs) = c :: cs := by
  have visible := isBlank_of_isWordChar word
  have other : c ≠ '=' := by
    rintro rfl
    exact absurd word (by decide)
  rw [afterEquals, List.dropWhile_cons, visible]
  split
  next rest same => exact absurd (List.cons.inj same).1 other
  next => rfl

/-- Words that are found where a value stands have the value for their first word: the others are
in front of what follows. -/
theorem rest_eq_of_afterStart {value word more after : List Char} {c : Char}
    (isValue : IsValue value) (follows : Follows rest) (letters : ∀ c ∈ word, isWordChar c = true)
    (stop : isWordChar c = false)
    (found : afterStart (word ++ c :: more) (value ++ rest) = some after) :
    rest = c :: (more ++ after) := by
  have whole := afterStart_eq_some found
  rw [List.append_assoc] at whole
  have ends : ∀ d ∈ (c :: more ++ after).head?, isWordChar d = false := by
    intro d first
    obtain rfl := Option.some.inj first
    exact stop
  exact (run_cancel isValue.word letters follows.stop ends whole).2

/-- No equals sign follows a value. -/
theorem afterStart_value_of_word {value : List Char} (isValue : IsValue value)
    (follows : Follows rest) (word : List Char) (letters : ∀ c ∈ word, isWordChar c = true) :
    afterStart (word ++ ['=']) (value ++ rest) = none := by
  cases found : afterStart (word ++ ['=']) (value ++ rest) with
  | none => rfl
  | some after =>
    have sign := rest_eq_of_afterStart isValue follows letters (by decide) found
    have blank := follows.blank '=' (by rw [sign]; rfl)
    exact absurd blank (by decide)

/-- What follows a value does not start with the second word of the option for the character set. -/
theorem afterStart_value_charset {value : List Char} (isValue : IsValue value)
    (follows : Follows rest) : afterStart "DEFAULT CHARSET=".toList (value ++ rest) = none := by
  cases found : afterStart "DEFAULT CHARSET=".toList (value ++ rest) with
  | none => rfl
  | some after =>
    have parts : "DEFAULT CHARSET=".toList = "DEFAULT".toList ++ ' ' :: "CHARSET=".toList := by
      decide
    rw [parts] at found
    have behind := rest_eq_of_afterStart isValue follows (by decide) (by decide) found
    rcases follows with rfl | rfl | ⟨c, d, more, rfl, -, pair⟩
    · cases behind
    · cases behind
    · obtain ⟨same, tail⟩ := List.cons.inj (List.cons.inj behind).2
      exact absurd (Prod.ext same (List.cons.inj tail).1) pair

theorem valueAt?_value {wanted : Setting} {value : List Char} (isValue : IsValue value)
    (follows : Follows rest)
    (other : wanted = .collation → afterKeyword "COLLATE".toList value = none) :
    wanted.valueAt? (value ++ rest) = none := by
  cases wanted with
  | engine =>
    have none := afterStart_value_of_word isValue follows "ENGINE".toList (by decide)
    exact congrArg (·.bind wordAt?) none
  | rowFormat =>
    have none := afterStart_value_of_word isValue follows "ROW_FORMAT".toList (by decide)
    exact congrArg (·.bind wordAt?) none
  | charset => exact congrArg (·.bind wordAt?) (afterStart_value_charset isValue follows)
  | collation =>
    have letters : ∀ d ∈ rest.head?, ∀ capital ∈ "COLLATE".toList, foldsTo capital d = false := by
      intro d first
      rw [follows.blank d first]
      decide
    have none : afterKeyword "COLLATE".toList (value ++ rest) = none := by
      rw [afterKeyword_append letters, other rfl]
      rfl
    exact congrArg (·.bind fun rest => wordAt? (afterEquals rest)) none

theorem commentAt?_value {value : List Char} (isValue : IsValue value) (follows : Follows rest) :
    commentAt? (value ++ rest) = none := by
  have letters : ∀ d ∈ rest.head?, ∀ capital ∈ "COMMENT".toList, foldsTo capital d = false := by
    intro d first
    rw [follows.blank d first]
    decide
  have noText : ∀ {c : Char} {cs after text : List Char}, isWordChar c = true →
      afterEquals after = c :: cs → afterKeyword "COMMENT".toList text = some after →
        commentAt? text = none := by
    intro c cs after text word bare found
    unfold commentAt?
    rw [found, Option.bind_eq_bind, Option.bind_some, bare]
    split
    next body same =>
      rw [(List.cons.inj same).1] at word
      exact absurd word (by decide)
    next => rfl
  have whole : afterKeyword "COMMENT".toList (value ++ rest) =
      (afterKeyword "COMMENT".toList value).map (· ++ rest) := afterKeyword_append letters
  cases found : afterKeyword "COMMENT".toList value with
  | none =>
    rw [found] at whole
    rw [commentAt?, whole]
    rfl
  | some after =>
    rw [found, Option.map_some] at whole
    -- Behind the keyword comes either more of the value or what follows it: no quoted text.
    cases after with
    | nil =>
      rcases follows with rfl | rfl | ⟨c, d, more, rfl, word, -⟩
      · rw [commentAt?, whole]
        rfl
      · rw [commentAt?, whole]
        rfl
      · have bare : afterEquals (' ' :: c :: d :: more) = c :: d :: more :=
          afterEquals_of_word word (d :: more)
        exact noText word bare whole
    | cons c after =>
      have word := isValue.word c (mem_of_afterKeyword found c List.mem_cons_self)
      exact noText word (afterEquals_of_word word (after ++ rest)) whole

/-! ## Reading settings -/

/-- The value of a setting in a list of settings. -/
def settingOf (wanted : Setting) (settings : List (Setting × List Char)) : Option String :=
  (settings.find? (·.1 = wanted)).map fun setting => String.ofList setting.2

/-- Is the setting read as what it is? -/
structure Setting.Readable (setting : Setting × List Char) : Prop where
  isValue : IsValue setting.2
  other : setting.1 ≠ .collation → afterKeyword "COLLATE".toList setting.2 = none

theorem valueAt?_words {setting : Setting} {value : List Char} (isValue : IsValue value)
    (follows : Follows rest) : setting.valueAt? (setting.words.toList ++ (value ++ rest)) =
      some (String.ofList value) := by
  have read := wordAt?_append isValue follows.stop
  have starts : ∀ words : String,
      (afterStart words.toList (words.toList ++ (value ++ rest))).bind wordAt? =
        some (String.ofList value) := by
    intro words
    rw [afterStart_append]
    exact read
  cases setting with
  | engine => exact starts "ENGINE="
  | rowFormat => exact starts "ROW_FORMAT="
  | charset => exact starts "DEFAULT CHARSET="
  | collation =>
    change wordAt? (afterEquals ('=' :: (value ++ rest))) = _
    have bare : afterEquals ('=' :: (value ++ rest)) = value ++ rest := by
      cases value with
      | nil => exact absurd rfl isValue.ne_nil
      | cons c value =>
        have visible := isBlank_of_isWordChar (isValue.word c List.mem_cons_self)
        change (c :: (value ++ rest)).dropWhile isBlank = _
        rw [List.dropWhile_cons, visible]
        rfl
    rw [bare, read]

/-- A setting is found where it stands. -/
theorem searchWord_settingText {setting : Setting} {value : List Char} (isValue : IsValue value)
    (follows : Follows rest) (inWord : Bool) :
    searchWord setting.valueAt? inWord (settingText (setting, value) ++ rest) =
      some (String.ofList value) := by
  have blank : ∀ text, searchWord setting.valueAt? inWord (' ' :: text) =
      searchWord setting.valueAt? false text := by
    intro text
    cases setting <;> cases inWord <;> rfl
  have filled : setting.words.toList ++ (value ++ rest) ≠ [] := by
    cases setting <;> exact List.cons_ne_nil _ _
  rw [settingText, List.cons_append, blank, List.append_assoc]
  exact searchWord_of_some filled (valueAt?_words isValue follows)

/-- The search for a setting passes over another one, which ends in a word. -/
theorem passTo_settingText {wanted setting : Setting} {value : List Char}
    (other : wanted ≠ setting) (readable : Setting.Readable (setting, value))
    (follows : Follows rest) (inWord : Bool) :
    passTo wanted.valueAt? inWord (settingText (setting, value)) rest = some true := by
  have fails : wanted.valueAt? (value ++ rest) = none := by
    refine valueAt?_value readable.isValue follows fun collation => readable.other ?_
    rintro rfl
    exact other collation
  exact (passTo_append (passTo_words other inWord (value ++ rest))).trans
    (passTo_value readable.isValue fails)

/-- **A setting is found** in a line of settings. -/
theorem searchWord_settings (wanted : Setting) {settings : List (Setting × List Char)}
    (readable : ∀ setting ∈ settings, Setting.Readable setting) {tail : List Char}
    (bare : tail = [] ∨ tail = [' ']) (inWord : Bool) :
    searchWord wanted.valueAt? inWord (settings.flatMap settingText ++ tail) =
      settingOf wanted settings := by
  have follows : Follows tail := by
    rcases bare with rfl | rfl
    · exact .inl rfl
    · exact .inr (.inl rfl)
  induction settings generalizing inWord with
  | nil =>
    rcases bare with rfl | rfl
    · rfl
    · cases wanted <;> cases inWord <;> rfl
  | cons setting settings ih =>
    obtain ⟨own, value⟩ := setting
    have first := readable _ List.mem_cons_self
    have behind := follows_flatMap settings follows
    rw [List.flatMap_cons, List.append_assoc, settingOf]
    by_cases same : own = wanted
    · subst same
      rw [searchWord_settingText first.isValue behind, List.find?_cons_of_pos (by simp)]
      rfl
    · rw [searchWord_of_passTo (passTo_settingText (Ne.symm same) first behind inWord),
        List.find?_cons_of_neg (by simpa using same)]
      exact ih (fun s member => readable s (List.mem_cons_of_mem _ member)) true

/-! ## Reading the comment -/

theorem passTo_settings {settings : List (Setting × List Char)}
    (readable : ∀ setting ∈ settings, Setting.Readable setting) (follows : Follows rest)
    (inWord : Bool) :
    ∃ inWord', passTo commentAt? inWord (settings.flatMap settingText) rest = some inWord' := by
  induction settings generalizing inWord with
  | nil => exact ⟨inWord, rfl⟩
  | cons setting settings ih =>
    obtain ⟨own, value⟩ := setting
    have first := readable _ List.mem_cons_self
    have behind := follows_flatMap settings follows
    have words := passTo_words_comment own inWord (value ++ (settings.flatMap settingText ++ rest))
    have passes : passTo commentAt? inWord (settingText (own, value))
        (settings.flatMap settingText ++ rest) = some true :=
      (passTo_append words).trans
        (passTo_value first.isValue (commentAt?_value first.isValue behind))
    rw [List.flatMap_cons, passTo_append passes]
    exact ih (fun s member => readable s (List.mem_cons_of_mem _ member)) true

/-- **The comment is found** behind the settings, and taken out of the line. -/
theorem takeComment_settings {settings : List (Setting × List Char)}
    (readable : ∀ setting ∈ settings, Setting.Readable setting) (comment : List Char)
    (inWord : Bool) :
    takeComment inWord (settings.flatMap settingText ++
      (commentStart ++ (escapedBody comment ++ ['\'']))) =
        some (escapedBody comment, settings.flatMap settingText ++ [' ']) := by
  obtain ⟨inWord', passes⟩ := passTo_settings readable
    (follows_commentStart (escapedBody comment ++ ['\''])) inWord
  have found : takeComment inWord' (commentStart ++ (escapedBody comment ++ ['\''])) =
      some (escapedBody comment, [' ']) := by
    have blank : ∀ text, takeComment inWord' (' ' :: text) =
        (takeComment false text).map fun (comment, line) => (comment, ' ' :: line) := by
      intro text
      cases inWord' <;> rfl
    have read : commentAt? ("COMMENT='".toList ++ (escapedBody comment ++ ['\''])) =
        some (escapedBody comment, []) := quotedRest?_escapedBody comment
    have filled : "COMMENT='".toList ++ (escapedBody comment ++ ['\'']) ≠ [] := by simp
    have parts : commentStart = ' ' :: "COMMENT='".toList := by decide
    rw [parts, List.cons_append, blank, takeComment_of_some filled read]
    rfl
  rw [takeComment_of_passTo passes, found]
  rfl

theorem takeComment_of_settings {settings : List (Setting × List Char)}
    (readable : ∀ setting ∈ settings, Setting.Readable setting) (inWord : Bool) :
    takeComment inWord (settings.flatMap settingText) = none := by
  have ends : Follows [] := .inl rfl
  obtain ⟨inWord', passes⟩ := passTo_settings readable ends inWord
  have none := takeComment_of_passTo passes
  rwa [List.append_nil] at none

/-! ## The line -/

/-- The comment option, behind the line in front of it. -/
def commentText : Option String → List Char
  | none => []
  | some comment => commentStart ++ (escapedBody comment.toList ++ ['\''])

/-- **The closing line reads back.** -/
theorem readOptions_closing (t : Table) {settings : List (Setting × List Char)}
    (readable : ∀ setting ∈ settings, Setting.Readable setting) (comment : Option String) :
    readOptions t (')' :: (settings.flatMap settingText ++ commentText comment)) =
      { t with
        comment
        engine := settingOf .engine settings
        rowFormat := settingOf .rowFormat settings
        charset := settingOf .charset settings
        collation := settingOf .collation settings } := by
  have search : ∀ (setting : Setting) (line : List Char),
      searchWord setting.valueAt? false (')' :: line) = searchWord setting.valueAt? false line := by
    intro setting line
    cases setting <;> rfl
  have read : ∀ (line tail : List Char), line = ')' :: (settings.flatMap settingText ++ tail) →
      tail = [] ∨ tail = [' '] → ∀ setting : Setting,
        searchWord setting.valueAt? false line = settingOf setting settings := by
    rintro line tail rfl bare setting
    rw [search, searchWord_settings setting readable bare]
  have options : ∀ line, readOptions t line =
      { t with
        comment := (takeComment false line).map fun (text, _) => String.ofList (unescape text)
        engine := searchWord Setting.engine.valueAt? false
          (((takeComment false line).map Prod.snd).getD line)
        rowFormat := searchWord Setting.rowFormat.valueAt? false
          (((takeComment false line).map Prod.snd).getD line)
        charset := searchWord Setting.charset.valueAt? false
          (((takeComment false line).map Prod.snd).getD line)
        collation := searchWord Setting.collation.valueAt? false
          (((takeComment false line).map Prod.snd).getD line) } := fun _ => rfl
  cases comment with
  | none =>
    have taken : takeComment false (')' :: (settings.flatMap settingText ++ [])) = none := by
      rw [List.append_nil]
      exact congrArg (Option.map _) (takeComment_of_settings readable false)
    rw [commentText, options, taken]
    simp only [Option.map_none, Option.getD_none, read _ [] rfl (.inl rfl)]
  | some comment =>
    have taken : takeComment false (')' :: (settings.flatMap settingText ++
        commentText (some comment))) = some (escapedBody comment.toList,
          ')' :: (settings.flatMap settingText ++ [' '])) :=
      congrArg (Option.map _) (takeComment_settings readable comment.toList false)
    rw [options, taken]
    simp only [Option.map_some, Option.getD_some, read _ [' '] rfl (.inr rfl),
      unescape_escapedBody, String.ofList_toList]

end Ddl

namespace Table

/-- The options of a table that have a word for their value. -/
def settings (t : Table) : List (Setting × List Char) :=
  (t.engine.map fun value => (.engine, value.toList)).toList ++
    (t.rowFormat.map fun value => (.rowFormat, value.toList)).toList ++
    (t.charset.map fun value => (.charset, value.toList)).toList ++
    (t.collation.map fun value => (.collation, value.toList)).toList

theorem readable_settings {t : Table}
    (words : ∀ value, value ∈ t.engine ∨ value ∈ t.rowFormat ∨ value ∈ t.charset →
      IsValue value.toList ∧ afterKeyword "COLLATE".toList value.toList = none)
    (collation : ∀ value ∈ t.collation, IsValue value.toList) :
    ∀ setting ∈ t.settings, Setting.Readable setting := by
  have word : ∀ (setting : Setting) (value : String),
      value ∈ t.engine ∨ value ∈ t.rowFormat ∨ value ∈ t.charset →
        Setting.Readable (setting, value.toList) := fun setting value given =>
    ⟨(words value given).1, fun _ => (words value given).2⟩
  intro setting member
  unfold settings at member
  simp only [List.mem_append, Option.mem_toList, Option.map_eq_some_iff] at member
  rcases member with ((⟨value, given, rfl⟩ | ⟨value, given, rfl⟩) | ⟨value, given, rfl⟩) |
    ⟨value, given, rfl⟩
  · exact word .engine value (.inl given)
  · exact word .rowFormat value (.inr (.inl given))
  · exact word .charset value (.inr (.inr given))
  · exact ⟨collation value given, fun other => absurd rfl other⟩

/-- The closing line of a table. -/
def closing (t : Table) : List Char :=
  ')' :: (t.settings.flatMap settingText ++ commentText t.comment)

theorem flatMap_options (t : Table) :
    (t.options .mysql).flatMap (fun option => ' ' :: option.toList) =
      t.settings.flatMap settingText ++ commentText t.comment := by
  have one : ∀ (setting : Setting) (value : Option String),
      (value.map (setting.words ++ ·)).toList.flatMap (fun option => ' ' :: option.toList) =
        (value.map fun value => (setting, value.toList)).toList.flatMap settingText := by
    intro setting value
    cases value with
    | none => rfl
    | some value => simp [settingText]
  have last : (t.comment.map fun comment => "COMMENT=" ++ Literal.escaped comment).toList.flatMap
      (fun option => ' ' :: option.toList) = commentText t.comment := by
    cases t.comment with
    | none => rfl
    | some comment =>
      have parts : commentStart = ' ' :: ("COMMENT=".toList ++ ['\'']) := by decide
      have text : ("COMMENT=" ++ Literal.escaped comment).toList =
          "COMMENT=".toList ++ ('\'' :: escapedBody comment.toList ++ ['\'']) := by
        rw [String.toList_append, toList_escaped, escapedChars_eq]
      have joins : ∀ keyword body : List Char, ' ' :: (keyword ++ ('\'' :: body ++ ['\''])) ++ [] =
          ' ' :: (keyword ++ ['\'']) ++ (body ++ ['\'']) := by
        intro keyword body
        simp
      rw [commentText, parts, ← joins, ← text]
      rfl
  have engine := one .engine t.engine
  have rowFormat := one .rowFormat t.rowFormat
  have charset := one .charset t.charset
  have collation := one .collation t.collation
  simp only [Setting.words] at engine rowFormat charset collation
  simp only [options, settings, List.flatMap_append, engine, rowFormat, charset, collation, last]

theorem toList_closing (t : Table) :
    (")" ++ (if (t.options .mysql).isEmpty then "" else
      " " ++ Text.joined " " (t.options .mysql))).toList = t.closing := by
  rw [closing, ← flatMap_options]
  cases t.options .mysql with
  | nil => rfl
  | cons option options =>
    rw [if_neg (by simp), String.toList_append, String.toList_append, toList_joined_cons,
      List.flatMap_cons]
    rfl

/-- Each option of the table is found among its settings. -/
theorem settingOf_settings (t : Table) :
    settingOf .engine t.settings = t.engine ∧ settingOf .rowFormat t.settings = t.rowFormat ∧
      settingOf .charset t.settings = t.charset ∧
      settingOf .collation t.settings = t.collation := by
  unfold settingOf settings
  cases t.engine <;> cases t.rowFormat <;> cases t.charset <;> cases t.collation <;> simp

/-- **The options of a table read back** from its closing line. -/
theorem readOptions_closing {t : Table}
    (readable : ∀ setting ∈ t.settings, Setting.Readable setting) (t' : Table) :
    readOptions t' t.closing =
      { t' with
        comment := t.comment, engine := t.engine, rowFormat := t.rowFormat, charset := t.charset
        collation := t.collation } := by
  obtain ⟨engine, rowFormat, charset, collation⟩ := t.settingOf_settings
  rw [closing, Ddl.readOptions_closing t' readable, engine, rowFormat, charset, collation]

theorem solid_settings {text : List Char} (solid : Solid text)
    {settings : List (Setting × List Char)}
    (readable : ∀ setting ∈ settings, Setting.Readable setting) :
    Solid (text ++ settings.flatMap settingText) := by
  induction settings generalizing text with
  | nil => rwa [List.flatMap_nil, List.append_nil]
  | cons setting settings ih =>
    obtain ⟨setting, value⟩ := setting
    have isValue := (readable (setting, value) List.mem_cons_self).isValue
    have visible : ∀ c ∈ value, c ≠ '\n' ∧ isBlank c = false ∧ c ≠ ',' := by
      intro c member
      have word := isValue.word c member
      refine ⟨?_, isBlank_of_isWordChar word, ?_⟩ <;>
        · rintro rfl
          exact absurd word (by decide)
    have words : '\n' ∉ setting.words.toList := by cases setting <;> decide
    have longer : Solid (text ++ settingText (setting, value)) := by
      refine solid.append ?_ ?_
      · rw [settingText, List.mem_cons, List.mem_append, not_or, not_or]
        exact ⟨by decide, words, fun member => (visible _ member).1 rfl⟩
      · intro c last
        have ending : c ∈ value.getLast? := by
          rw [settingText, List.getLast?_cons, List.getLast?_append] at last
          cases shown : value.getLast? with
          | none => exact absurd (List.getLast?_eq_none_iff.mp shown) isValue.ne_nil
          | some e =>
            rw [shown] at last
            exact last
        exact (visible c (List.mem_of_getLast? ending)).2
    rw [List.flatMap_cons, ← List.append_assoc]
    exact ih longer fun s member => readable s (List.mem_cons_of_mem _ member)

/-- The closing line is one line. -/
theorem solid_closing {t : Table} (readable : ∀ setting ∈ t.settings, Setting.Readable setting)
    (oneLine : ∀ comment ∈ t.comment, '\n' ∉ comment.toList) : Solid t.closing := by
  have opens : Solid [')'] := by decide
  have front := solid_settings opens readable
  rw [closing, ← List.singleton_append, ← List.append_assoc]
  cases given : t.comment with
  | none => rwa [commentText, List.append_nil]
  | some comment =>
    have start : '\n' ∉ commentStart := by decide
    refine front.append ?_ ?_
    · rw [commentText, List.mem_append, List.mem_append, not_or, not_or]
      exact ⟨start, fun member => oneLine comment given (mem_escapedBody member), by decide⟩
    · rw [commentText, ← List.append_assoc, List.getLast?_concat]
      exact fun c last => Option.some.inj last ▸ by decide

end Table

end SqlAccess
