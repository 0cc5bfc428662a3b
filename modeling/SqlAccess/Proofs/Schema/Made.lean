import SqlAccess.Proofs.Schema.Key
import SqlAccess.Proofs.Schema.Table

/-!
# Tables that are made by declaration

A table is made from a created one by declaring columns, marking declared columns as parts of the
primary key, adding keys of the other kinds, and setting options. However it was made, its first
column is the one that it was created with, no two of its columns share a name, and everything in it
belongs to it (`Table.Made.ordered`).
-/

namespace SqlAccess

namespace Table

/-- The table of the given name is made by declaration. -/
inductive Made (name : String) : Table → Prop where
  | created : Made name (Table.created .mysql name)
  | column {t : Table} {c : Column} (made : Made name t) (own : c.table = name)
      (other : c.name ≠ implicitId) : Made name (t.putColumn c)
  | primary {t : Table} {column : String} (made : Made name t)
      (declared : column ∈ t.columns.map (·.name)) : Made name (t.addPrimary column)
  | key {t : Table} {kind : KeyKind} {columns : List String} {explicitName : Option String}
      (made : Made name t) (other : kind ≠ .primary) :
      Made name (t.addKey { Key.ofColumns kind name columns with explicitName })
  | options {t : Table} {engine rowFormat charset collation comment : Option String}
      (made : Made name t) :
      Made name { t with engine, rowFormat, charset, collation, comment }

/-- The order that declarations keep in a table. -/
structure Ordered (t : Table) : Prop extends Started t where
  plain : ∀ k ∈ t.keys, k.kind ≠ .primary
  keyOwn : ∀ k ∈ t.keys, k.table = t.name
  keyCreated : ∀ k ∈ t.keys, k.mode = .create
  keyDistinct : ∀ k ∈ t.keys, k.columns.Nodup

/-! ## Each declaration keeps the order -/

section

variable {t : Table} (ordered : t.Ordered)

theorem ordered_created (name : String) : (Table.created .mysql name).Ordered :=
  { started_created name with
    plain := nofun, keyOwn := nofun, keyCreated := nofun, keyDistinct := nofun }

include ordered

theorem Ordered.putColumn {c : Column} (own : c.table = t.name) (other : c.name ≠ implicitId) :
    (t.putColumn c).Ordered :=
  { ordered.toStarted.putColumn own other with
    plain := ordered.plain, keyOwn := ordered.keyOwn, keyCreated := ordered.keyCreated
    keyDistinct := ordered.keyDistinct }

theorem Ordered.addPrimary {column : String} (declared : column ∈ t.columns.map (·.name)) :
    (t.addPrimary column).Ordered := by
  rw [addPrimary_of_declared declared]
  exact
    { ordered.toStarted.markPrimary column with
      plain := ordered.plain, keyOwn := ordered.keyOwn, keyCreated := ordered.keyCreated
      keyDistinct := ordered.keyDistinct }

theorem Ordered.addKey {kind : KeyKind} {columns : List String} {explicitName : Option String}
    (other : kind ≠ .primary) :
    (t.addKey { Key.ofColumns kind t.name columns with explicitName }).Ordered := by
  obtain ⟨distinct, table, kind', mode⟩ := Key.ofColumns_ordered kind t.name columns
  have each : ∀ {motive : Key → Prop}, (∀ k ∈ t.keys, motive k) →
      motive { Key.ofColumns kind t.name columns with explicitName } →
      ∀ k ∈ t.keys ++ [{ Key.ofColumns kind t.name columns with explicitName }], motive k := by
    intro motive all last k member
    rcases List.mem_append.mp member with member | member
    · exact all k member
    · rwa [List.mem_singleton.mp member]
  exact
    { created := ordered.created, implicit := ordered.implicit, distinct := ordered.distinct
      own := ordered.own, plain := each ordered.plain (by rw [kind']; exact other)
      keyOwn := each ordered.keyOwn table, keyCreated := each ordered.keyCreated mode
      keyDistinct := each ordered.keyDistinct distinct }

end

/-- **Every table that is made by declaration is ordered**, and has the name that it was given. -/
theorem Made.ordered {name : String} {t : Table} (made : Made name t) :
    t.name = name ∧ t.Ordered := by
  induction made with
  | created => exact ⟨rfl, ordered_created name⟩
  | column made own other ih =>
    obtain ⟨named, ordered⟩ := ih
    exact ⟨named, ordered.putColumn (own.trans named.symm) other⟩
  | primary made declared ih =>
    obtain ⟨named, ordered⟩ := ih
    refine ⟨?_, ordered.addPrimary declared⟩
    rw [addPrimary_of_declared declared]
    exact named
  | key made other ih =>
    obtain ⟨named, ordered⟩ := ih
    subst named
    exact ⟨rfl, ordered.addKey other⟩
  | options made ih =>
    obtain ⟨named, ordered⟩ := ih
    exact
      ⟨named,
        { created := ordered.created, implicit := ordered.implicit, distinct := ordered.distinct
          own := ordered.own, plain := ordered.plain, keyOwn := ordered.keyOwn
          keyCreated := ordered.keyCreated, keyDistinct := ordered.keyDistinct }⟩

end Table

end SqlAccess
