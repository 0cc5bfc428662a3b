import SqlAccess.Proofs.Mention
import SqlAccess.Proofs.Params.Reference

/-!
# What a parameter table holds

A parameter table tells what was written to it since it was last cleared: every key once, in the
order in which the keys were first written, and with each key the last value that was written to it
(`Tells`). A key is written with its colon, whether it was given with it or not. A pushed value is
written under the key that is told for it, and a table that is merged in is written entry by entry.

The one step of this is a single write (`Tells.put`), and every operation is a number of them or
clears the table (`Tells.apply`). `parameters_hold_last_writes` draws from it what the look-ups say
after any operations.
-/

namespace SqlAccess.Params

variable {p : Params} {log : List (String × Value)} {key : String} {value : Value}

/-- Something that is done to a parameter table. -/
inductive Operation where
  | insert (key : String) (value : Value)
  | push (value : Value)
  | extend (other : Params)
  | clear

/-- The table after an operation. -/
def Operation.apply (p : Params) : Operation → Params
  | .insert key value => p.insert key value
  | .push value => (p.push value).2
  | .extend other => p.extend other
  | .clear => empty

/-- What was written since the table was last cleared, behind an operation on the given table. -/
def Operation.record (p : Params) (log : List (String × Value)) :
    Operation → List (String × Value)
  | .insert key value => log ++ [(mark key, value)]
  | .push value => log ++ [((p.push value).1, value)]
  | .extend other => log ++ other.entries.map fun (key, value) => (mark key, value)
  | .clear => []

/-- The table after operations, one after the other. -/
def run (p : Params) (operations : List Operation) : Params :=
  operations.foldl Operation.apply p

/-- What was written since the table was last cleared, behind operations that start with the given
table. -/
def written (p : Params) (log : List (String × Value)) :
    List Operation → List (String × Value)
  | [] => log
  | operation :: rest => written (operation.apply p) (operation.record p log) rest

/-- The last value that was written under a stored key. -/
def lastWrite? (key : String) (log : List (String × Value)) : Option Value :=
  log.reverse.lookup key

/-- The table tells what was written to it, under keys with their colons: the keys in the order of
first writing, and for each the last value. -/
structure Tells (p : Params) (log : List (String × Value)) : Prop where
  keys_eq : p.keys = (log.map Prod.fst).eraseDups
  lookup_eq : ∀ key, lookup key p.entries = lastWrite? key log
  marked : ∀ key ∈ p.keys, mark key = key

/-! ## One write -/

theorem map_fst_put (key : String) (value : Value) (entries : List (String × Value)) :
    (put key value entries).map Prod.fst =
      if key ∈ entries.map Prod.fst then entries.map Prod.fst
      else entries.map Prod.fst ++ [key] := by
  induction entries with
  | nil => rfl
  | cons entry rest ih =>
    obtain ⟨k, v⟩ := entry
    by_cases same : k = key
    · simp [put, same]
    · have apart : key ∈ ((k, v) :: rest).map Prod.fst ↔ key ∈ rest.map Prod.fst := by
        rw [List.map_cons, List.mem_cons, or_iff_right fun same' => same same'.symm]
      rw [put, if_neg same, List.map_cons, ih]
      by_cases known : key ∈ rest.map Prod.fst
      · rw [if_pos known, if_pos (apart.mpr known), List.map_cons]
      · rw [if_neg known, if_neg fun inside => known (apart.mp inside), List.map_cons,
          List.cons_append]

theorem lastWrite?_concat (log : List (String × Value)) (written : String × Value) (key : String) :
    lastWrite? key (log ++ [written]) =
      if key = written.1 then some written.2 else lastWrite? key log :=
  lookup_reverse_concat log written key

/-- **One more write**, in place or at the end. -/
theorem Tells.put (tells : p.Tells log) (stored : mark key = key) (value : Value) :
    Tells ⟨Params.put key value p.entries⟩ (log ++ [(key, value)]) where
  keys_eq := by
    have known : key ∈ p.keys ↔ key ∈ log.map Prod.fst := by
      rw [tells.keys_eq, List.mem_eraseDups]
    rw [List.map_append, List.map_singleton, eraseDups_concat, ← tells.keys_eq]
    simp only [← known]
    exact map_fst_put key value p.entries
  lookup_eq := by
    intro other
    rw [lastWrite?_concat]
    split
    next same => rw [same, lookup_put_self]
    next apart => rw [lookup_put_of_ne value p.entries apart, tells.lookup_eq]
  marked := by
    intro other member
    rw [keys, map_fst_put] at member
    split at member
    next => exact tells.marked other member
    next =>
      rcases List.mem_append.mp member with member | member
      · exact tells.marked other member
      · rwa [List.mem_singleton.mp member]

/-! ## Operations -/

theorem tells_empty : Tells empty [] where
  keys_eq := rfl
  lookup_eq _ := rfl
  marked _ member := nomatch member

theorem Tells.insert (tells : p.Tells log) (key : String) (value : Value) :
    (p.insert key value).Tells (log ++ [(mark key, value)]) :=
  tells.put (mark_mark key) value

theorem mark_nextKey (p : Params) : mark p.nextKey = p.nextKey :=
  mark_generated _

/-- A pushed value is written under a key that the table does not have. -/
theorem push_eq_put (p : Params) (value : Value) :
    (p.push value).2 = ⟨put p.nextKey value p.entries⟩ := by
  have absent : lookup p.nextKey p.entries = none := lookup_eq_none_iff.mpr p.nextKey_not_mem
  rw [put_of_lookup_eq_none value absent]
  rfl

theorem Tells.extend (tells : p.Tells log) (other : Params) :
    (p.extend other).Tells (log ++ other.entries.map fun (key, value) => (mark key, value)) := by
  unfold Params.extend
  induction other.entries generalizing p log with
  | nil => rwa [List.map_nil, List.append_nil]
  | cons entry entries ih =>
    have more := ih (tells.insert entry.1 entry.2)
    rwa [List.append_assoc] at more

theorem Tells.apply (tells : p.Tells log) (operation : Operation) :
    (operation.apply p).Tells (operation.record p log) := by
  cases operation with
  | insert key value => exact tells.insert key value
  | push value =>
    rw [Operation.apply, push_eq_put]
    exact tells.put p.mark_nextKey value
  | extend other => exact tells.extend other
  | clear => exact tells_empty

theorem Tells.run (tells : p.Tells log) (operations : List Operation) :
    (p.run operations).Tells (written p log operations) := by
  induction operations generalizing p log with
  | nil => exact tells
  | cons operation rest ih => exact ih (tells.apply operation)

/-! ## Look-ups -/

namespace Tells

variable (tells : p.Tells log)

include tells

theorem nodup : p.keys.Nodup :=
  tells.keys_eq ▸ nodup_eraseDups _

theorem mem_keys_iff : key ∈ p.keys ↔ key ∈ log.map Prod.fst := by
  rw [tells.keys_eq, List.mem_eraseDups]

theorem get?_eq (key : String) : p.get? key = lastWrite? (mark key) log :=
  tells.lookup_eq (mark key)

theorem contains_iff : p.contains key = true ↔ mark key ∈ log.map Prod.fst := by
  rw [← tells.mem_keys_iff, contains, get?, Option.isSome_iff_ne_none, ne_eq, lookup_eq_none_iff,
    not_not]
  rfl

theorem starts {key : String} (member : key ∈ p.keys) : ∃ name, key = ":" ++ name := by
  obtain ⟨name, colon⟩ := exists_toList_mark key
  rw [tells.marked key member] at colon
  exact ⟨String.ofList name, String.toList_inj.mp (by simp [colon])⟩

end Tells

/-- Among entries of different keys, every one is found by its key. -/
theorem lookup_of_mem {entries : List (String × Value)} (distinct : (entries.map Prod.fst).Nodup)
    {entry : String × Value} (member : entry ∈ entries) :
    lookup entry.1 entries = some entry.2 := by
  induction entries with
  | nil => cases member
  | cons first rest ih =>
    obtain ⟨key, value⟩ := first
    rw [List.map_cons, List.nodup_cons] at distinct
    rcases List.mem_cons.mp member with rfl | inside
    · exact if_pos rfl
    · have apart : key ≠ entry.1 := by
        rintro rfl
        exact distinct.1 (List.mem_map.mpr ⟨entry, inside, rfl⟩)
      rw [lookup, if_neg apart, ih distinct.2 inside]

theorem Tells.entries_eq (tells : p.Tells log) :
    p.entries.map (fun entry => (entry.1, some entry.2)) =
      (log.map Prod.fst).eraseDups.map fun key => (key, lastWrite? key log) := by
  rw [← tells.keys_eq, keys, List.map_map]
  refine List.map_congr_left fun entry member => ?_
  rw [Function.comp_apply, ← tells.lookup_eq, lookup_of_mem tells.nodup member]

end Params

/-- **A parameter table holds the last writes.** Behind any operations on an empty table, its keys
are distinct and start with a colon; its entries are the keys that were written since it was last
cleared, in the order of first writing, each with the value that was written last; every push was
answered with a key that the table did not have, and bound it to the value; and what the table is
asked for, it answers from these entries. -/
theorem parameters_hold_last_writes (operations : List Params.Operation) :
    let table := Params.empty.run operations
    let log := Params.written .empty [] operations
    table.keys.Nodup ∧ (∀ key ∈ table.keys, ∃ name, key = ":" ++ name) ∧
    (table.entries.map fun entry => (entry.1, some entry.2)) =
      ((log.map Prod.fst).eraseDups.map fun key => (key, Params.lastWrite? key log)) ∧
    (∀ earlier value later, operations = earlier ++ .push value :: later →
      let pushed := (Params.empty.run earlier).push value
      (Params.empty.run earlier).contains pushed.1 = false ∧ pushed.2.get? pushed.1 = some value) ∧
    (∀ key, table.get? key = Params.lastWrite? (Params.mark key) log) ∧
    (∀ key, table.contains key = true ↔ Params.mark key ∈ log.map Prod.fst) ∧
    table.keys = (log.map Prod.fst).eraseDups ∧
    table.size = (log.map Prod.fst).eraseDups.length := by
  intro table log
  have tells : table.Tells log := Params.tells_empty.run operations
  refine ⟨tells.nodup, fun key member => tells.starts member, tells.entries_eq, ?_, tells.get?_eq,
    fun key => tells.contains_iff, tells.keys_eq, ?_⟩
  · intro earlier value later _ pushed
    refine ⟨?_, Params.get?_push_self _ value⟩
    exact Bool.eq_false_iff.mpr fun taken =>
      (Params.empty.run earlier).nextKey_not_mem (Params.contains_generated_iff.mp taken)
  · rw [← tells.keys_eq, Params.keys, List.length_map]
    rfl

/-- A key that is written with and without its colon, one that is generated, and a table that is
merged in behind them. -/
theorem parameters_hold_last_writes_merged :
    let earlier : List Params.Operation := [.push (.int 0), .clear, .insert "a" (.int 1)]
    let later : List Params.Operation :=
      [.insert ":a" (.int 3), .extend (.ofList [("b", .int 4), ("param1", .int 5)])]
    let operations := earlier ++ .push (.int 2) :: later
    let table := Params.empty.run operations
    table.entries = [(":a", .int 3), (":param1", .int 5), (":b", .int 4)] ∧
    (":b" ∈ table.keys ∧ ∃ name, ":b" = ":" ++ name) ∧
    ((Params.empty.run earlier).push (.int 2)).1 = ":param1" ∧
    (Params.empty.run earlier).contains ":param1" = false := by
  intro earlier later operations table
  have member : ":b" ∈ table.keys := by decide
  have told : ((Params.empty.run earlier).push (.int 2)).1 = ":param1" := by decide
  obtain ⟨-, starts, -, pushes, -⟩ := parameters_hold_last_writes operations
  have absent := (pushes earlier (.int 2) later rfl).1
  rw [told] at absent
  exact ⟨rfl, ⟨member, starts ":b" member⟩, told, absent⟩

end SqlAccess
