import SqlAccess.Proofs.Text.Letter

/-!
# Characters in upper case

What upper case puts in the place of a character is a capital letter or lies beyond ASCII, so it is
never punctuation (`mem_upperChar`), and upper case leaves it alone from then on
(`upperChar_of_mem`).

Both are facts about the tables. That no form in them has a form of its own is a comparison of some
fifteen hundred code points with as many others; with the code points as the bits of two numbers, it
is one conjunction of numbers (`land_bitsOf_caseCodes`).
-/

namespace SqlAccess.Text

variable {c d : Char} {code : Nat}

/-! ## The code points of the tables -/

/-- How many code points the run has. -/
def CaseRun.size (run : CaseRun) : Nat :=
  (run.last - run.first) / run.stride + 1

/-- The code points of the run. -/
def CaseRun.codes (run : CaseRun) : List Nat :=
  List.range' run.first run.size run.stride

/-- The code points of the upper-case forms of the run. -/
def CaseRun.forms (run : CaseRun) : List Nat :=
  List.range' (run.first + run.distance).toNat run.size run.stride

/-- The code points that the tables give an upper-case form. -/
def caseCodes : List Nat :=
  caseRuns.flatMap CaseRun.codes ++ caseExpansions.map Prod.fst

/-- The code points of the upper-case forms. -/
def caseForms : List Nat :=
  caseRuns.flatMap CaseRun.forms ++ caseExpansions.flatMap Prod.snd

theorem CaseRun.mem_codes {run : CaseRun} (held : run.holds code = true) : code ∈ run.codes := by
  simp only [CaseRun.holds, Bool.and_eq_true, decide_eq_true_eq, beq_iff_eq] at held
  obtain ⟨⟨low, high⟩, whole⟩ := held
  refine List.mem_range'.mpr ⟨(code - run.first) / run.stride, ?_, ?_⟩
  · exact Nat.lt_succ_of_le (Nat.div_le_div_right (Nat.sub_le_sub_right high run.first))
  · rw [Nat.mul_div_cancel' (Nat.dvd_of_mod_eq_zero whole), Nat.add_sub_cancel' low]

theorem CaseRun.mem_forms {run : CaseRun} (held : run.holds code = true)
    (valid : 0 ≤ run.first + run.distance) : (code + run.distance).toNat ∈ run.forms := by
  obtain ⟨i, small, place⟩ := List.mem_range'.mp (CaseRun.mem_codes held)
  refine List.mem_range'.mpr ⟨i, small, ?_⟩
  rw [place]
  omega

/-- The number whose binary digits are at the given places. -/
def bitsOf (codes : List Nat) : Nat :=
  codes.foldr (fun code bits => 1 <<< code ||| bits) 0

theorem testBit_bitsOf {codes : List Nat} : (bitsOf codes).testBit code = true ↔ code ∈ codes := by
  induction codes with
  | nil => simp [bitsOf]
  | cons first codes ih =>
    rw [bitsOf, List.foldr_cons, ← bitsOf, Nat.testBit_or, Bool.or_eq_true, ih, Nat.one_shiftLeft,
      Nat.testBit_two_pow, decide_eq_true_eq, List.mem_cons, eq_comm]

theorem land_bitsOf_caseCodes : bitsOf caseForms &&& bitsOf caseCodes = 0 := by
  decide +kernel

/-- **No upper-case form has an upper-case form** of its own. -/
theorem not_mem_caseCodes (form : code ∈ caseForms) : code ∉ caseCodes := by
  intro both
  have bit : (bitsOf caseForms &&& bitsOf caseCodes).testBit code = true := by
    rw [Nat.testBit_and, testBit_bitsOf.mpr form, testBit_bitsOf.mpr both]
    rfl
  rw [land_bitsOf_caseCodes, Nat.zero_testBit] at bit
  cases bit

/-! ## Upper case -/

theorem toNat_ofNat_of_isValidChar (valid : code.isValidChar) : (Char.ofNat code).toNat = code := by
  rw [Char.ofNat, dif_pos valid]
  rfl

/-- Each run leads to one capital letter, or to characters beyond ASCII. -/
theorem caseRuns_images : ∀ run ∈ caseRuns,
    (run.first = run.last ∧ (Char.ofNat (run.first + run.distance).toNat).isUpper = true) ∨
      0x80 ≤ run.first + run.distance ∧
        (run.last + run.distance < 0xD800 ∨
          0xDFFF < run.first + run.distance ∧ run.last + run.distance < 0x110000) := by
  decide +kernel

/-- The forms of several characters are capital letters and characters beyond ASCII. -/
theorem caseExpansions_images : ∀ entry ∈ caseExpansions, entry.2 ≠ [] ∧ ∀ code ∈ entry.2,
    (Char.ofNat code).isUpper = true ∨ 0x80 ≤ code ∧ code < 0xD800 := by
  decide +kernel

/-- Is it the code point of a capital letter, or of a form beyond ASCII? -/
def IsImage (code : Nat) : Prop :=
  (Char.ofNat code).isUpper = true ∨
    0x80 ≤ (Char.ofNat code).toNat ∧ (Char.ofNat code).toNat ∈ caseForms

theorem CaseRun.isImage {run : CaseRun} (member : run ∈ caseRuns) (held : run.holds code = true) :
    IsImage (code + run.distance).toNat := by
  obtain ⟨⟨low, high⟩, -⟩ : (run.first ≤ code ∧ code ≤ run.last) ∧ _ := by
    simpa [CaseRun.holds] using held
  rcases caseRuns_images run member with ⟨single, capital⟩ | ⟨beyond, valid⟩
  · have same : code = run.first := by omega
    rw [same]
    exact .inl capital
  · have isValid : (code + run.distance).toNat.isValidChar := by
      unfold Nat.isValidChar
      omega
    rw [IsImage, toNat_ofNat_of_isValidChar isValid]
    refine .inr ⟨by omega, List.mem_append_left _ (List.mem_flatMap.mpr ⟨run, member, ?_⟩)⟩
    exact CaseRun.mem_forms held (by omega)

theorem isImage_of_mem_expansion {form : Nat} {codes : List Nat}
    (entry : (code, codes) ∈ caseExpansions) (member : form ∈ codes) : IsImage form := by
  refine ((caseExpansions_images _ entry).2 form member).imp_right ?_
  rintro ⟨beyond, valid⟩
  rw [toNat_ofNat_of_isValidChar (.inl valid)]
  exact ⟨beyond, List.mem_append_right _ (List.mem_flatMap.mpr ⟨_, entry, member⟩)⟩

/-- A character that upper case puts there was there before, is a capital letter, or is one of the
forms beyond ASCII. -/
theorem mem_upperChar_cases (h : c ∈ upperChar d) :
    (c = d ∧ upperChar d = [d]) ∨ c.isUpper = true ∨ 0x80 ≤ c.toNat ∧ c.toNat ∈ caseForms := by
  unfold upperChar at h ⊢
  split at h
  next small =>
    rw [List.mem_singleton] at h
    subst h
    by_cases letter : d.isLower = true
    · exact .inr (.inl (isUpper_toUpper (isAlpha_iff.mpr (.inr letter))))
    · have kept : d.toUpper = d :=
        dif_neg fun within => letter
          (Bool.and_eq_true_iff.mpr ⟨decide_eq_true within.1, decide_eq_true within.2⟩)
      rw [if_pos small, kept]
      exact .inl ⟨rfl, rfl⟩
  next large =>
    rw [if_neg large]
    split at h
    next run found =>
      rw [List.mem_singleton] at h
      subst h
      have held := List.find?_some found
      exact .inr (CaseRun.isImage (List.mem_of_find?_eq_some found) held)
    next =>
      split at h
      next codes found =>
        obtain ⟨code, member, rfl⟩ := List.mem_map.mp h
        obtain ⟨_, _, entries, -⟩ := List.lookup_eq_some_iff.mp found
        have entry : (d.toNat, codes) ∈ caseExpansions := by simp [entries]
        exact .inr (isImage_of_mem_expansion entry member)
      next absent =>
        rw [List.mem_singleton] at h
        exact .inl ⟨h, rfl⟩

/-- What upper case puts in the place of a character is a capital letter or lies beyond ASCII. -/
theorem mem_upperChar (h : c ∈ upperChar d) : c = d ∨ c.isUpper = true ∨ 0x80 ≤ c.toNat :=
  (mem_upperChar_cases h).imp And.left (Or.imp_right And.left)

theorem upperChar_ne_nil (c : Char) : upperChar c ≠ [] := by
  unfold upperChar
  split
  · exact List.cons_ne_nil _ _
  · split
    · exact List.cons_ne_nil _ _
    · split
      next codes found =>
        obtain ⟨_, _, entries, -⟩ := List.lookup_eq_some_iff.mp found
        have entry : (c.toNat, codes) ∈ caseExpansions := by simp [entries]
        exact fun none => (caseExpansions_images _ entry).1 (List.map_eq_nil_iff.mp none)
      next => exact List.cons_ne_nil _ _

theorem upperChar_of_isUpper (capital : c.isUpper = true) : upperChar c = [c] := by
  have bounds := isUpper_bounds capital
  rw [upperChar, if_pos (by omega), toUpper_of_isUpper capital]

/-- Characters beyond ASCII that the tables do not give a form are left alone. -/
theorem upperChar_of_not_mem (beyond : 0x80 ≤ c.toNat) (absent : c.toNat ∉ caseCodes) :
    upperChar c = [c] := by
  rw [caseCodes, List.mem_append, not_or] at absent
  have runs : caseRuns.find? (·.holds c.toNat) = none := List.find?_eq_none.mpr fun run member held =>
    absent.1 (List.mem_flatMap.mpr ⟨run, member, CaseRun.mem_codes held⟩)
  have expansions : caseExpansions.lookup c.toNat = none := by
    rw [List.lookup_eq_none_iff]
    intro entry member
    rw [bne_iff_ne]
    rintro same
    exact absent.2 (same ▸ List.mem_map_of_mem member)
  rw [upperChar, if_neg (by omega), runs, expansions]

/-- **Upper case is final**: what it puts in the place of a character, it leaves alone. -/
theorem upperChar_of_mem (h : c ∈ upperChar d) : upperChar c = [c] := by
  rcases mem_upperChar_cases h with ⟨rfl, kept⟩ | capital | ⟨beyond, form⟩
  · exact kept
  · exact upperChar_of_isUpper capital
  · exact upperChar_of_not_mem beyond (not_mem_caseCodes form)

end SqlAccess.Text
