import Mathlib.Order.Bounds.Basic
import SqlAccess.Proofs.Params.Growth

/-!
# The search for a free key

A value without a key of its own is given the first generated key that is free, and the search for
it counts up from the size of the table without any limit (`Search`). What it can end with is the
least number from its start on whose key is free, and nothing else (`search_iff`).

That it ends is a matter of counting (`nextKey_not_mem`): different numbers give different keys, so
the table can take no more numbers than it has entries, and from its size up to the double of it
there is one more. The main result is `generated_keys_are_least_free`.
-/

namespace SqlAccess

namespace Params

variable {p : Params} {start number : Nat}

/-- Counting up from the first number, key after key, ends with the second one. -/
inductive Search (p : Params) : Nat → Nat → Prop
  /-- A key that is free is the one. -/
  | free {number : Nat} : p.contains (generated number) = false → Search p number number
  /-- Behind a key that is taken, the next number is tried. -/
  | taken {start number : Nat} :
      p.contains (generated start) = true → Search p (start + 1) number → Search p start number

/-- The key of a number is free when the table does not store it. -/
theorem contains_generated_eq_false_iff :
    p.contains (generated number) = false ↔ generated number ∉ p.keys := by
  rw [← Bool.not_eq_true, contains_generated_iff]

theorem Search.isLeast (search : p.Search start number) :
    IsLeast {n | start ≤ n ∧ generated n ∉ p.keys} number := by
  induction search with
  | free absent =>
    exact ⟨⟨le_rfl, contains_generated_eq_false_iff.mp absent⟩, fun n above => above.1⟩
  | @taken start number stored _ ih =>
    obtain ⟨⟨low, absent⟩, least⟩ := ih
    refine ⟨⟨(Nat.le_succ start).trans low, absent⟩, fun n ⟨above, unused⟩ => least ⟨?_, unused⟩⟩
    -- the start itself is taken, so a free number lies behind it
    have apart : start ≠ n := by
      rintro rfl
      exact unused (contains_generated_iff.mp stored)
    exact Nat.lt_of_le_of_ne above apart

/-- Over numbers that are all taken, the search goes on to the first one behind them. -/
theorem Search.of_taken (low : start ≤ number)
    (stored : ∀ n, start ≤ n → n < number → generated n ∈ p.keys)
    (absent : generated number ∉ p.keys) : p.Search start number := by
  induction low using Nat.decreasingInduction with
  | self => exact .free (contains_generated_eq_false_iff.mpr absent)
  | of_succ start below ih =>
    refine .taken (contains_generated_iff.mpr (stored start le_rfl below)) (ih fun n above => ?_)
    exact stored n (Nat.le_of_succ_le above)

/-- **The search ends with the least free number** from its start on, and with no other. -/
theorem search_iff :
    p.Search start number ↔ IsLeast {n | start ≤ n ∧ generated n ∉ p.keys} number := by
  refine ⟨Search.isLeast, fun ⟨⟨low, absent⟩, least⟩ => .of_taken low (fun n above below => ?_) absent⟩
  by_contra unused
  exact absurd (least ⟨above, unused⟩) (Nat.not_le.mpr below)

/-- The search among as many candidates as there are entries is the one without a limit. -/
theorem search_firstFree (p : Params) : p.Search p.size (p.firstFree p.size p.size) := by
  obtain ⟨low, -, stored, -⟩ := p.firstFree_spec p.size p.size
  exact .of_taken low stored p.nextKey_not_mem

end Params

/-- **A generated key has the least free number.** In every table, the search for a key that counts
up from the number of entries ends, and with one number only; that is the least one from the number
of entries on whose key the table does not have, it is at most twice the number of entries, and the
next key is `:param` and its decimal form. -/
theorem generated_keys_are_least_free (p : Params) :
    ∃ number, (∀ n, p.Search p.size n ↔ n = number) ∧
      IsLeast {n : Nat | p.size ≤ n ∧ ":param" ++ toString n ∉ p.keys} number ∧
      number ≤ 2 * p.size ∧ p.nextKey = ":param" ++ toString number := by
  have least := p.search_firstFree.isLeast
  obtain ⟨-, high, -, -⟩ := p.firstFree_spec p.size p.size
  refine ⟨p.firstFree p.size p.size, fun n => ?_, least, by rwa [Nat.two_mul], rfl⟩
  rw [Params.search_iff]
  exact ⟨fun again => again.unique least, fun same => same ▸ least⟩

/-- Where the key of the size is taken, the bound is reached. -/
example : (Params.ofList [("param1", .int 0)]).nextKey = ":param2" := by decide

end SqlAccess
