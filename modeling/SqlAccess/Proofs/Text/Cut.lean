import Mathlib.Data.List.TakeWhile
import SqlAccess.Text.Blank
import SqlAccess.Text.Number
import SqlAccess.Text.Split

/-!
# Cutting text where it was joined

What a cut gives on text that was put together around it: the piece in front comes back as it was,
as long as it does not hold what is cut at, and trimming takes off what was put around a text that
stands by itself.
-/

namespace SqlAccess.Text

/-- What holds of every character of a text is decided on the text. Among the characters that there
are it could be decided too, but not in reasonable time. -/
instance (priority := high) decidableForallMem {p : Char → Prop} [DecidablePred p]
    (text : List Char) : Decidable (∀ c ∈ text, p c) :=
  List.decidableBAll p text

instance (priority := high) decidableForallMemOption {p : Char → Prop} [DecidablePred p]
    (end? : Option Char) : Decidable (∀ c ∈ end?, p c) :=
  Option.decidableForallMem end?

/-! ## Separators -/

variable {separator : Char} {piece rest : List Char}

/-- A character that does not separate belongs to the first piece. -/
theorem splitOn_cons {c : Char} (other : c ≠ separator) (text : List Char) :
    (c :: text).splitOn separator = (text.splitOn separator).modifyHead (c :: ·) := by
  rw [List.splitOn_cons_eq_if_modifyHead, beq_false_of_ne other]
  rfl

theorem splitOn_flatMap {pieces : List (List Char)} (absent : separator ∉ piece)
    (all : ∀ next ∈ pieces, separator ∉ next) :
    (piece ++ pieces.flatMap (separator :: ·)).splitOn separator = piece :: pieces := by
  induction pieces generalizing piece with
  | nil => rw [List.flatMap_nil, List.append_nil, List.splitOn_eq_singleton absent]
  | cons next pieces ih =>
    rw [List.flatMap_cons, List.cons_append, List.splitOn_append_cons_self_of_not_mem absent,
      ih (all next List.mem_cons_self) fun p member => all p (List.mem_cons_of_mem next member)]

theorem splitOnce_append (absent : separator ∉ piece) :
    splitOnce separator (piece ++ separator :: rest) = some (piece, rest) := by
  induction piece with
  | nil =>
    rw [List.nil_append, splitOnce, if_pos rfl]
  | cons c piece ih =>
    have tail := ih fun member => absent (List.mem_cons_of_mem c member)
    have other : c ≠ separator := fun same => absent (same ▸ List.mem_cons_self)
    rw [List.cons_append, splitOnce, if_neg other, tail]
    rfl

/-- A text is put together around the first separator in one way only. -/
theorem append_cons_inj {piece' rest' : List Char} (absent : separator ∉ piece)
    (absent' : separator ∉ piece')
    (same : piece ++ separator :: rest = piece' ++ separator :: rest') :
    piece = piece' ∧ rest = rest' := by
  have cut : splitOnce separator (piece ++ separator :: rest) = some (piece, rest) :=
    splitOnce_append absent
  rw [same, splitOnce_append absent'] at cut
  obtain ⟨pieces, rests⟩ := Prod.mk.inj (Option.some.inj cut)
  exact ⟨pieces.symm, rests.symm⟩

theorem splitOnce_of_not_mem (absent : separator ∉ piece) : splitOnce separator piece = none := by
  induction piece with
  | nil => rfl
  | cons c piece ih =>
    have tail := ih fun member => absent (List.mem_cons_of_mem c member)
    have other : c ≠ separator := fun same => absent (same ▸ List.mem_cons_self)
    rw [splitOnce, if_neg other, tail]
    rfl

theorem splitOnce_eq_some {text before after : List Char}
    (h : splitOnce separator text = some (before, after)) :
    text = before ++ separator :: after ∧ separator ∉ before := by
  induction text generalizing before with
  | nil => cases h
  | cons c text ih =>
    rw [splitOnce] at h
    split at h
    next same =>
      cases h
      exact ⟨congrArg (· :: _) same, List.not_mem_nil⟩
    next other =>
      obtain ⟨⟨before', after'⟩, found, same⟩ := Option.map_eq_some_iff.mp h
      cases same
      obtain ⟨rfl, absent⟩ := ih found
      exact ⟨rfl, List.not_mem_cons_of_ne_of_not_mem (Ne.symm other) absent⟩

theorem mem_splitOn {text : List Char} (h : piece ∈ text.splitOn separator) :
    separator ∉ piece ∧ ∀ c ∈ piece, c ∈ text := by
  induction text generalizing piece with
  | nil =>
    rw [List.splitOn_nil, List.mem_singleton] at h
    subst h
    exact ⟨List.not_mem_nil, fun _ member => member⟩
  | cons c text ih =>
    by_cases same : c = separator
    · rw [List.splitOn_cons_eq_if_modifyHead, if_pos (beq_iff_eq.mpr same)] at h
      rcases List.mem_cons.mp h with rfl | h
      · exact ⟨List.not_mem_nil, fun _ member => absurd member List.not_mem_nil⟩
      · exact ⟨(ih h).1, fun d member => List.mem_cons_of_mem c ((ih h).2 d member)⟩
    · rw [splitOn_cons same] at h
      cases pieces : text.splitOn separator with
      | nil => exact absurd pieces (List.splitOn_ne_nil separator text)
      | cons first rest =>
        rw [pieces, List.modifyHead_cons] at h
        rcases List.mem_cons.mp h with rfl | h
        · have front := ih (pieces ▸ List.mem_cons_self)
          refine ⟨List.not_mem_cons_of_ne_of_not_mem (Ne.symm same) front.1, fun d member => ?_⟩
          rcases List.mem_cons.mp member with rfl | member
          · exact List.mem_cons_self
          · exact List.mem_cons_of_mem c (front.2 d member)
        · have behind := ih (pieces ▸ List.mem_cons_of_mem first h)
          exact ⟨behind.1, fun d member => List.mem_cons_of_mem c (behind.2 d member)⟩

theorem afterStart_eq_some {start text after : List Char} (h : afterStart start text = some after) :
    text = start ++ after := by
  induction start generalizing text with
  | nil => exact Option.some.inj h
  | cons s start ih =>
    cases text with
    | nil => cases h
    | cons c text =>
      rw [afterStart] at h
      split at h
      next same => rw [same, ih h, List.cons_append]
      next => cases h

/-- The first text stands in front, and every further one behind a separator. -/
theorem toList_joined_cons (separator text : String) (texts : List String) :
    (joined separator (text :: texts)).toList =
      text.toList ++ texts.flatMap fun next => separator.toList ++ next.toList := by
  induction texts generalizing text with
  | nil => exact (List.append_nil _).symm
  | cons next texts ih =>
    rw [joined, String.toList_append, String.toList_append, ih, List.flatMap_cons]
    simp only [List.append_assoc]

/-- Every text is a piece of the joined ones. -/
theorem infix_joined {separator text : String} :
    ∀ {texts : List String}, text ∈ texts → text.toList <:+: (joined separator texts).toList
  | [only], member => by
    obtain rfl := List.mem_singleton.mp member
    exact List.infix_rfl
  | first :: next :: rest, member => by
    rw [joined, String.toList_append, String.toList_append]
    rcases List.mem_cons.mp member with rfl | later
    · rw [List.append_assoc]
      exact (List.prefix_append _ _).isInfix
    · exact (infix_joined later).trans (List.suffix_append _ _).isInfix

/-! ## Runs of one kind -/

variable {kind : Char → Bool} {run before after : List Char}

/-- A run of characters of one kind is taken up to where it cannot go on. -/
theorem takeWhile_append_of_stop (all : ∀ c ∈ run, kind c = true)
    (stop : ∀ c ∈ rest.head?, kind c = false) : (run ++ rest).takeWhile kind = run := by
  have none : rest.takeWhile kind = [] := by
    cases rest with
    | nil => rfl
    | cons c rest => simp only [List.takeWhile_cons, stop c rfl, Bool.false_eq_true, if_false]
  rw [List.takeWhile_append_of_pos all, none, List.append_nil]

/-- A run of one kind can be cancelled from the front of two texts, where neither goes on. -/
theorem run_cancel {run' rest' : List Char} (all : ∀ c ∈ run, kind c = true)
    (all' : ∀ c ∈ run', kind c = true) (stop : ∀ c ∈ rest.head?, kind c = false)
    (stop' : ∀ c ∈ rest'.head?, kind c = false) (same : run ++ rest = run' ++ rest') :
    run = run' ∧ rest = rest' := by
  have runs := congrArg (List.takeWhile kind) same
  rw [takeWhile_append_of_stop all stop, takeWhile_append_of_stop all' stop'] at runs
  subst runs
  exact ⟨rfl, List.append_cancel_left same⟩

theorem dropWhile_append_of_stop (all : ∀ c ∈ run, kind c = true)
    (stop : ∀ c ∈ rest.head?, kind c = false) : (run ++ rest).dropWhile kind = rest := by
  rw [List.dropWhile_append_of_pos all]
  cases rest with
  | nil => rfl
  | cons c rest => simp only [List.dropWhile_cons, stop c rfl, Bool.false_eq_true, if_false]

/-- Behind a run of one kind, the text does not go on with that kind. -/
theorem stop_dropWhile (kind : Char → Bool) (text : List Char) :
    ∀ c ∈ (text.dropWhile kind).head?, kind c = false := by
  intro c first
  have stops := List.head?_dropWhile_not kind text
  rwa [Option.mem_def.mp first] at stops

theorem dropSuffixWhile_append_of_stop (all : ∀ c ∈ run, kind c = true)
    (stop : ∀ c ∈ piece.getLast?, kind c = false) :
    dropSuffixWhile kind (piece ++ run) = piece := by
  unfold dropSuffixWhile
  have all' : ∀ c ∈ run.reverse, kind c = true := fun c member => all c (List.mem_reverse.mp member)
  have stop' : ∀ c ∈ piece.reverse.head?, kind c = false := by
    rw [List.head?_reverse]
    exact stop
  rw [List.reverse_append, dropWhile_append_of_stop all' stop', List.reverse_reverse]

/-- What is put around a text is taken off again, when the text starts and ends otherwise. -/
theorem dropAround_append (all : ∀ c ∈ before, kind c = true) (all' : ∀ c ∈ after, kind c = true)
    (start : ∀ c ∈ piece.head?, kind c = false) (ending : ∀ c ∈ piece.getLast?, kind c = false) :
    dropAround kind (before ++ (piece ++ after)) = piece := by
  unfold dropAround
  cases piece with
  | nil =>
    have empty : (before ++ ([] ++ after)).dropWhile kind = [] := by
      rw [List.dropWhile_eq_nil_iff, List.nil_append]
      exact fun c member => (List.mem_append.mp member).elim (all c) (all' c)
    rw [empty]
    rfl
  | cons c piece =>
    rw [dropWhile_append_of_stop all (by rw [List.cons_append]; exact start),
      dropSuffixWhile_append_of_stop all' ending]

theorem dropAround_of_start (all : ∀ c ∈ before, kind c = true)
    (start : ∀ c ∈ piece.head?, kind c = false) (ending : ∀ c ∈ piece.getLast?, kind c = false) :
    dropAround kind (before ++ piece) = piece := by
  have same : dropAround kind (before ++ (piece ++ [])) = piece :=
    dropAround_append all (fun _ member => nomatch member) start ending
  rwa [List.append_nil] at same

theorem dropAround_of_bounds (start : ∀ c ∈ piece.head?, kind c = false)
    (ending : ∀ c ∈ piece.getLast?, kind c = false) : dropAround kind piece = piece := by
  have none : ∀ c ∈ ([] : List Char), kind c = true := fun _ member => nomatch member
  exact dropAround_of_start none start ending

/-- A text that is cut at its ends does not start with what was taken off. -/
theorem head?_dropAround (text : List Char) {c : Char}
    (first : c ∈ (dropAround kind text).head?) : kind c = false := by
  have front : dropAround kind text <+: text.dropWhile kind := by
    have behind := List.dropWhile_suffix (l := (text.dropWhile kind).reverse) kind
    rw [← List.reverse_prefix, List.reverse_reverse] at behind
    exact behind
  refine stop_dropWhile kind text c ?_
  obtain ⟨more, whole⟩ := front
  rw [← whole, List.head?_append, first]
  rfl

/-- A text that is cut at its ends does not end with what was taken off. -/
theorem getLast?_dropAround (text : List Char) {c : Char}
    (last : c ∈ (dropAround kind text).getLast?) : kind c = false := by
  rw [dropAround, dropSuffixWhile, List.getLast?_reverse] at last
  exact stop_dropWhile kind _ c last

theorem dropAround_cons {c : Char} {text : List Char} (drops : kind c = true) :
    dropAround kind (c :: text) = dropAround kind text := by
  rw [dropAround, List.dropWhile_cons, if_pos drops]
  rfl

theorem dropAround_concat {c : Char} {text : List Char} (drops : kind c = true) :
    dropAround kind (text ++ [c]) = dropAround kind text := by
  unfold dropAround
  rw [List.dropWhile_append]
  split
  next none =>
    rw [List.isEmpty_iff.mp none, List.dropWhile_cons, if_pos drops]
    rfl
  next =>
    unfold dropSuffixWhile
    rw [List.reverse_append, List.reverse_singleton, List.singleton_append, List.dropWhile_cons,
      if_pos drops]

theorem mem_of_mem_dropSuffixWhile {c : Char} {text : List Char}
    (h : c ∈ dropSuffixWhile kind text) : c ∈ text :=
  List.mem_reverse.mp (List.dropWhile_subset kind (List.mem_reverse.mp h))

theorem mem_of_mem_dropAround {c : Char} {text : List Char} (h : c ∈ dropAround kind text) :
    c ∈ text :=
  List.dropWhile_subset kind (mem_of_mem_dropSuffixWhile h)

/-- What stays of a text that is cut at its ends is everything that is not cut off. -/
theorem mem_dropAround {kind : Char → Bool} {c : Char} {text : List Char} (member : c ∈ text)
    (kept : kind c = false) : c ∈ dropAround kind text := by
  have behind : ∀ {text : List Char}, c ∈ text → c ∈ text.dropWhile kind := by
    intro text member
    rw [← List.takeWhile_append_dropWhile (p := kind) (l := text)] at member
    refine (List.mem_append.mp member).resolve_left fun front => ?_
    have dropped := List.all_eq_true.mp List.all_takeWhile c front
    rw [kept] at dropped
    cases dropped
  exact List.mem_reverse.mpr (behind (List.mem_reverse.mpr (behind member)))

/-! ## Numbers -/

theorem digitsValue_eq (reached : Nat) (digits : List Char) :
    digitsValue reached digits = Nat.ofDigitChars 10 digits reached := by
  induction digits generalizing reached with
  | nil => rfl
  | cons d digits ih =>
    have start : Nat.ofDigitChars 10 (d :: digits) reached =
        Nat.ofDigitChars 10 digits (10 * reached + (d.toNat - '0'.toNat)) := List.foldl_cons
    rw [start, Nat.mul_comm]
    exact ih (reached * 10 + (d.toNat - '0'.toNat))

theorem isDigit_of_mem_toDigits {n : Nat} {c : Char} (member : c ∈ Nat.toDigits 10 n) :
    c.isDigit = true :=
  Nat.isDigit_of_mem_toDigits (by decide) (by decide) member

theorem not_mem_toDigits {c : Char} (other : c.isDigit = false) (n : Nat) :
    c ∉ Nat.toDigits 10 n := by
  intro member
  have digit := isDigit_of_mem_toDigits member
  rw [digit] at other
  cases other

/-- A number is read from one or more digits whose value is within the bound, and is that value. -/
theorem readBounded?_eq_some_iff {bound n : Nat} {text : List Char} :
    readBounded? bound text = some n ↔
      text ≠ [] ∧ (∀ c ∈ text, c.isDigit = true) ∧ Nat.ofDigitChars 10 text 0 = n ∧ n ≤ bound := by
  rw [readBounded?, Option.filter_eq_some_iff, readDigits?, digitsValue_eq, decide_eq_true_eq]
  split
  next all =>
    rw [Option.some_inj]
    exact ⟨fun ⟨value, small⟩ => ⟨all.1, List.all_eq_true.mp all.2, value, small⟩,
      fun ⟨_, _, value, small⟩ => ⟨value, small⟩⟩
  next other =>
    constructor
    · rintro ⟨none, -⟩
      cases none
    · rintro ⟨ne_nil, digits, -⟩
      exact absurd ⟨ne_nil, List.all_eq_true.mpr digits⟩ other

theorem isDigit_of_readBounded? {bound n : Nat} {text : List Char}
    (h : readBounded? bound text = some n) : ∀ c ∈ text, c.isDigit = true :=
  (readBounded?_eq_some_iff.mp h).2.1

theorem readBounded?_toDigits {bound n : Nat} (small : n ≤ bound) :
    readBounded? bound (Nat.toDigits 10 n) = some n :=
  readBounded?_eq_some_iff.mpr ⟨Nat.toDigits_ne_nil, fun _ => isDigit_of_mem_toDigits,
    Nat.ofDigitChars_ten_toDigits, small⟩

theorem readNat?_toDigits {bound n : Nat} (small : n ≤ bound) :
    readNat? bound (Nat.toDigits 10 n) = some n := by
  unfold readNat?
  split
  next cs same =>
    have plus := isDigit_of_mem_toDigits (same ▸ List.mem_cons_self)
    exact absurd plus (by decide)
  next => exact readBounded?_toDigits small

end SqlAccess.Text
