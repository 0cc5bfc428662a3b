import SqlAccess.Value

/-!
# Parameter tables

A statement's text names its values by placeholders, and a `Params` holds the value of each: a list
of keys and values in the order in which the keys were first written. A key carries a leading colon;
the operations add it where a caller leaves it out. Writing to a key that is already there replaces
the value where it stands, so no key occurs twice and no entry ever moves.

Values that have no key of their own get a generated one, `:param` and a number. The number starts
at the size of the table and moves on past the keys that are taken; twice the size is always free,
so the search is over a known number of candidates.

The laws of this module say what one operation does to one look-up: a write is read back, and it
disturbs no other key.
-/

namespace SqlAccess

/-- The placeholders of a statement with their values, in the order of first writing. -/
structure Params where
  entries : List (String × Value) := []
  deriving Inhabited

namespace Params

/-- The table without entries. -/
def empty : Params := {}

/-- The key as it is stored, with a colon in front. -/
def mark (key : String) : String :=
  match key.toList with
  | ':' :: _ => key
  | _ => ":" ++ key

/-- The stored keys, in the order of first writing. -/
def keys (p : Params) : List String :=
  p.entries.map Prod.fst

/-- The number of entries. -/
def size (p : Params) : Nat :=
  p.entries.length

/-- Is there no entry? -/
def isEmpty (p : Params) : Bool :=
  p.entries.isEmpty

/-- The value under a stored key. -/
def lookup (key : String) : List (String × Value) → Option Value
  | [] => none
  | (k, v) :: rest => if k = key then some v else lookup key rest

/-- The value of a key, given with or without its colon. -/
def get? (p : Params) (key : String) : Option Value :=
  lookup (mark key) p.entries

/-- Does the table bind the key? -/
def contains (p : Params) (key : String) : Bool :=
  (p.get? key).isSome

/-- Writes a value under a stored key: in place where the key is there, at the end otherwise. -/
def put (key : String) (value : Value) : List (String × Value) → List (String × Value)
  | [] => [(key, value)]
  | (k, v) :: rest => if k = key then (k, value) :: rest else (k, v) :: put key value rest

/-- Binds a key, given with or without its colon, to a value. -/
def insert (p : Params) (key : String) (value : Value) : Params :=
  ⟨put (mark key) value p.entries⟩

/-- The table that binds the given keys one after the other. -/
def ofList (bindings : List (String × Value)) : Params :=
  bindings.foldl (fun p binding => p.insert binding.1 binding.2) empty

/-- Binds every key of the other table as that table binds it. -/
def extend (p other : Params) : Params :=
  other.entries.foldl (fun p binding => p.insert binding.1 binding.2) p

/-- The generated key with the given number. -/
def generated (number : Nat) : String :=
  ":param" ++ toString number

/-- The first number from the given one on whose generated key is free, among as many candidates as
are allowed and the one after them. -/
def firstFree (p : Params) : Nat → Nat → Nat
  | 0, number => number
  | tries + 1, number =>
    if p.contains (generated number) then p.firstFree tries (number + 1) else number

/-- The key that the next value without a key of its own gets. The keys of the table take at most
as many numbers as it has entries. -/
def nextKey (p : Params) : String :=
  generated (p.firstFree p.size p.size)

/-- Binds a generated key to a value, and tells the key. -/
def push (p : Params) (value : Value) : String × Params :=
  (p.nextKey, ⟨p.entries ++ [(p.nextKey, value)]⟩)

/-! ## Look-ups after a write -/

theorem lookup_put_self (key : String) (value : Value) (entries : List (String × Value)) :
    lookup key (put key value entries) = some value := by
  induction entries with
  | nil => simp [put, lookup]
  | cons entry rest ih =>
    obtain ⟨k, v⟩ := entry
    by_cases h : k = key <;> simp [put, lookup, h, ih]

theorem lookup_put_of_ne {key other : String} (value : Value) (entries : List (String × Value))
    (h : other ≠ key) : lookup other (put key value entries) = lookup other entries := by
  induction entries with
  | nil => simp [put, lookup, Ne.symm h]
  | cons entry rest ih =>
    obtain ⟨k, v⟩ := entry
    by_cases hk : k = key
    · subst hk
      simp [put, lookup, Ne.symm h]
    · simp [put, lookup, hk, ih]

/-- A value that was written under a key is found under it. -/
theorem get?_insert_self (p : Params) (key : String) (value : Value) :
    (p.insert key value).get? key = some value :=
  lookup_put_self _ _ _

/-- Writing under one key leaves every other key's value alone. -/
theorem get?_insert_of_ne (p : Params) {key other : String} (value : Value)
    (h : mark other ≠ mark key) : (p.insert key value).get? other = p.get? other :=
  lookup_put_of_ne value p.entries h

end Params

end SqlAccess
