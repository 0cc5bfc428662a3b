import Mathlib.Data.List.Perm.Subperm
import SqlAccess.Params.Positional
import SqlAccess.Proofs.Text.Cut

/-!
# Tables that only grow

A parameter table *grows to* another when the other is the first with new entries behind it, under
keys that the first does not bind and that differ among each other. So no entry is removed, moved or
given another value, and whatever a key of the first table stood for it stands for in the second.

Both ways in which a rendering writes to its table are growth. A generated key is always free
(`nextKey_not_mem`): the candidates are one more than the entries, so the pigeonhole leaves one that
is not taken. A key that is written only when it is absent comes to stand at the end
(`growsTo_insert`).

The consequence for statements is `GrowsTo.toPositional`: a statement whose placeholders were all
bound once is rewritten to the same text with the same values for ever after.
-/

namespace SqlAccess

namespace Params

/-! ## Look-ups and stored keys -/

/-- A stored key is found exactly when it is among the keys. -/
theorem lookup_eq_none_iff {key : String} {entries : List (String × Value)} :
    lookup key entries = none ↔ key ∉ entries.map Prod.fst := by
  induction entries with
  | nil => simp [lookup]
  | cons entry rest ih =>
    obtain ⟨k, v⟩ := entry
    by_cases h : k = key
    · simp [lookup, h]
    · simp only [lookup, if_neg h, ih, List.map_cons, List.mem_cons, not_or]
      exact ⟨fun absent => ⟨fun same => h same.symm, absent⟩, fun absent => absent.2⟩

/-- The front of a table is looked at first, and what it does not bind is bound behind it. -/
theorem lookup_append {key : String} (front rest : List (String × Value)) :
    lookup key (front ++ rest) = (lookup key front).or (lookup key rest) := by
  induction front with
  | nil => rfl
  | cons entry front ih =>
    obtain ⟨k, v⟩ := entry
    by_cases h : k = key
    · simp only [List.cons_append, lookup, if_pos h, Option.some_or]
    · simp only [List.cons_append, lookup, if_neg h, ih]

/-- Writing to an absent key puts the entry at the end. -/
theorem put_of_lookup_eq_none {key : String} (value : Value) {entries : List (String × Value)}
    (absent : lookup key entries = none) : put key value entries = entries ++ [(key, value)] := by
  induction entries with
  | nil => rfl
  | cons entry rest ih =>
    obtain ⟨k, v⟩ := entry
    by_cases h : k = key
    · simp [lookup, h] at absent
    · simp only [lookup, if_neg h] at absent
      simp only [put, if_neg h, ih absent, List.cons_append]

/-! ## Generated keys -/

@[simp] theorem mark_generated (number : Nat) : mark (generated number) = generated number := by
  have colon : (generated number).toList = ':' :: ("param" ++ toString number).toList := by
    simp [generated]
  simp only [mark, colon]

theorem toDigits_injective {m n : Nat} (h : Nat.toDigits 10 m = Nat.toDigits 10 n) : m = n := by
  rw [← Nat.ofDigitChars_ten_toDigits (n := m), h, Nat.ofDigitChars_ten_toDigits]

theorem generated_injective {m n : Nat} (h : generated m = generated n) : m = n := by
  simp only [generated, String.append_right_inj] at h
  simp only [Nat.toString_eq_ofList_toDigits, String.ofList_inj] at h
  exact toDigits_injective h

theorem toList_generated (number : Nat) :
    (generated number).toList = ":param".toList ++ Nat.toDigits 10 number := by
  simp [generated]

/-- **A generated key can be cancelled from the front of a text**: it ends with its digits. -/
theorem generated_cancel {m n : Nat} {rest rest' : List Char}
    (stop : ∀ c ∈ rest.head?, c.isDigit = false) (stop' : ∀ c ∈ rest'.head?, c.isDigit = false)
    (same : (generated m).toList ++ rest = (generated n).toList ++ rest') :
    m = n ∧ rest = rest' := by
  have digits : ∀ number, ∀ c ∈ Nat.toDigits 10 number, c.isDigit = true :=
    fun _ _ => Text.isDigit_of_mem_toDigits
  rw [toList_generated, toList_generated, List.append_assoc, List.append_assoc] at same
  have tails := List.append_cancel_left same
  obtain ⟨runs, rests⟩ := Text.run_cancel (digits m) (digits n) stop stop' tails
  exact ⟨toDigits_injective runs, rests⟩

/-- The table binds the generated key of a number exactly when it stores that key. -/
theorem contains_generated_iff {p : Params} {number : Nat} :
    p.contains (generated number) = true ↔ generated number ∈ p.keys := by
  simp only [contains, get?, mark_generated, Option.isSome_iff_ne_none, ne_eq, lookup_eq_none_iff,
    keys, not_not]

/-- The search for a free key answers the first free number from its start on, unless none of its
candidates is free. -/
theorem firstFree_spec (p : Params) (tries number : Nat) :
    number ≤ p.firstFree tries number ∧ p.firstFree tries number ≤ number + tries ∧
      (∀ m, number ≤ m → m < p.firstFree tries number → generated m ∈ p.keys) ∧
      (p.firstFree tries number < number + tries →
        generated (p.firstFree tries number) ∉ p.keys) := by
  induction tries generalizing number with
  | zero =>
    refine ⟨Nat.le_refl _, Nat.le_refl _, fun m low high => ?_, fun short => ?_⟩
    · exact absurd high (Nat.not_lt.mpr low)
    · exact absurd short (Nat.lt_irrefl _)
  | succ tries ih =>
    unfold firstFree
    split
    next taken =>
      obtain ⟨low, high, below, free⟩ := ih (number + 1)
      refine ⟨by omega, by omega, fun m hm lt => ?_, fun short => free (by omega)⟩
      rcases Nat.eq_or_lt_of_le hm with rfl | above
      · exact contains_generated_iff.mp taken
      · exact below m above lt
    next free =>
      refine ⟨Nat.le_refl _, by omega, fun m low high => absurd high (Nat.not_lt.mpr low), ?_⟩
      exact fun _ => fun stored => free (contains_generated_iff.mpr stored)

/-- **A generated key is free.** Were it taken, the search would have gone through all its
candidates, and each of these would be a key of its own; but they are one more than the entries. -/
theorem nextKey_not_mem (p : Params) : p.nextKey ∉ p.keys := by
  intro stored
  obtain ⟨low, high, below, free⟩ := p.firstFree_spec p.size p.size
  have last : p.firstFree p.size p.size = p.size + p.size := by
    rcases Nat.lt_or_eq_of_le high with short | last
    · exact absurd stored (free short)
    · exact last
  have taken : ((List.range (p.size + 1)).map fun i => generated (p.size + i)) ⊆ p.keys := by
    intro key hkey
    obtain ⟨i, hi, rfl⟩ := List.mem_map.mp hkey
    rcases Nat.eq_or_lt_of_le (Nat.lt_succ_iff.mp (List.mem_range.mp hi)) with rfl | small
    · rwa [nextKey, last] at stored
    · exact below _ (by omega) (by omega)
  have distinct : ((List.range (p.size + 1)).map fun i => generated (p.size + i)).Nodup :=
    List.Pairwise.map _
      (fun i j differ same => differ (Nat.add_left_cancel (generated_injective same)))
      List.nodup_range
  have room := (List.subperm_of_subset distinct taken).length_le
  simp only [List.length_map, List.length_range, keys, size] at room
  omega

/-! ## Growth -/

/-- The second table is the first with entries under new and different keys behind it. -/
def GrowsTo (p p' : Params) : Prop :=
  ∃ added, p'.entries = p.entries ++ added ∧ (added.map Prod.fst).Nodup ∧
    ∀ key ∈ added.map Prod.fst, key ∉ p.keys

theorem GrowsTo.refl (p : Params) : p.GrowsTo p :=
  ⟨[], by simp, by simp, by simp⟩

theorem GrowsTo.trans {p q r : Params} (first : p.GrowsTo q) (second : q.GrowsTo r) :
    p.GrowsTo r := by
  obtain ⟨added, hq, nodup, new⟩ := first
  obtain ⟨more, hr, nodup', new'⟩ := second
  have keysOf : q.keys = p.keys ++ added.map Prod.fst := by simp [keys, hq]
  refine ⟨added ++ more, by simp [hr, hq], ?_, ?_⟩
  · rw [List.map_append, List.nodup_append]
    refine ⟨nodup, nodup', ?_⟩
    rintro key early _ late rfl
    exact new' key late (keysOf ▸ List.mem_append_right _ early)
  · intro key hkey stored
    rw [List.map_append, List.mem_append] at hkey
    rcases hkey with early | late
    · exact new key early stored
    · exact new' key late (keysOf ▸ List.mem_append_left _ stored)

/-- Binding a value to a generated key is growth. -/
theorem growsTo_push (p : Params) (value : Value) : p.GrowsTo (p.push value).2 :=
  ⟨[(p.nextKey, value)], rfl, by simp, by simpa using p.nextKey_not_mem⟩

/-- Binding a value to a key that stands for nothing yet is growth. -/
theorem growsTo_insert {p : Params} {key : String} (value : Value) (absent : p.get? key = none) :
    p.GrowsTo (p.insert key value) :=
  ⟨[(mark key, value)], put_of_lookup_eq_none value absent, by simp,
    by simpa [keys] using lookup_eq_none_iff.mp absent⟩

/-- A key goes on to stand for what it stands for. -/
theorem GrowsTo.get? {p p' : Params} (grows : p.GrowsTo p') {key : String} {value : Value}
    (found : p.get? key = some value) : p'.get? key = some value := by
  obtain ⟨added, entries, -, -⟩ := grows
  have held : lookup (mark key) p.entries = some value := found
  rw [Params.get?, entries, lookup_append, held, Option.some_or]

/-- The key of a pushed value stands for that value. -/
theorem get?_push_self (p : Params) (value : Value) :
    (p.push value).2.get? p.nextKey = some value := by
  have absent : lookup p.nextKey p.entries = none := lookup_eq_none_iff.mpr p.nextKey_not_mem
  simp only [Params.get?, push, nextKey, mark_generated] at absent ⊢
  rw [lookup_append, absent, Option.none_or]
  simp [lookup]

/-- A pushed value is found under its key for ever after. -/
theorem get?_push_of_growsTo {p p' : Params} {value : Value}
    (grows : (p.push value).2.GrowsTo p') : p'.get? p.nextKey = some value :=
  grows.get? (p.get?_push_self value)

/-! ## Filling under growth -/

/-- Pieces that one table fills are filled alike by every table that it grows to. -/
theorem GrowsTo.fill {p p' : Params} (grows : p.GrowsTo p') {pieces : List Piece}
    {filled : List Char × List Value} (h : p.fill pieces = .ok filled) :
    p'.fill pieces = .ok filled := by
  induction pieces generalizing filled with
  | nil => exact h
  | cons piece pieces ih =>
    cases piece with
    | char c =>
      simp only [Params.fill] at h ⊢
      cases rest : p.fill pieces with
      | error e => rw [rest] at h; cases h
      | ok filled' => rw [rest] at h; rw [ih rest]; exact h
    | placeholder name =>
      simp only [Params.fill] at h ⊢
      cases found : p.get? (String.ofList name) with
      | none => rw [found] at h; cases h
      | some value =>
        rw [found] at h
        rw [grows.get? found]
        cases rest : p.fill pieces with
        | error e => rw [rest] at h; cases h
        | ok filled' => rw [rest] at h; rw [ih rest]; exact h

/-- **A statement whose placeholders are bound keeps its positional form**, text and values, in
every table that the present one grows to. -/
theorem GrowsTo.toPositional {p p' : Params} (grows : p.GrowsTo p') {sql : String}
    {positional : String × List Value} (h : p.toPositional sql = .ok positional) :
    p'.toPositional sql = .ok positional := by
  simp only [Params.toPositional] at h ⊢
  cases filled : p.fill (Piece.cut .outside sql.toList) with
  | error e => rw [filled] at h; cases h
  | ok result => rw [filled] at h; rw [grows.fill filled]; exact h

end Params

end SqlAccess
