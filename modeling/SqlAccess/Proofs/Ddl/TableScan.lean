import SqlAccess.Proofs.Ddl.ColumnScan
import SqlAccess.Proofs.Ddl.Shape

/-!
# Tables that were read

What a table that was read can be: the column that every table starts with and then scanned columns
of distinct names, keys with names of their own, at most an entry for columns of the primary key that
are not declared, and options that are words (`Table.Scanned`, `Table.Worded`). Every line that can
stand where it does keeps this (`Progress.Scanned.next`), so that every table that is read has it
(`scanned_of_readTable`).
-/

namespace SqlAccess

open Ddl SqlAccess.Text

/-- Is the name filled, and free of what ends a name in a list? -/
def ListedName (name : String) : Prop :=
  name ≠ "" ∧ ∀ c ∈ name.toList, c ≠ ',' ∧ c ≠ ')' ∧ c ≠ '\n'

/-- What a key can be that was read from a line of a table, where the table has the given name and
declares the given columns. -/
structure Key.Scanned (table : String) (declared : List String) (k : Key) : Prop where
  own : k.table = table
  created : k.mode = .create
  distinct : k.columns.Nodup
  columns : ∀ name ∈ k.columns, ListedName name
  named : k.kind ≠ .primary → ∃ name, k.explicitName = some name ∧ ScannedName name
  primary : k.kind = .primary → k.explicitName = none ∧ k.columns ≠ [] ∧
    ∀ name ∈ k.columns, name ∉ declared

namespace Table

/-- What a table can be that was read up to some line. -/
structure Scanned (t : Table) : Prop extends Started t where
  named : ScannedName t.name
  columns : ∀ c ∈ t.columns.tail, c.Scanned
  marked : ∀ c ∈ t.columns.tail, c.primary = true → ListedName c.name ∧ c.nullable = false
  keys : ∀ k ∈ t.keys, k.Scanned t.name (t.columns.map (·.name))

/-- Are the options words? -/
def Worded (t : Table) : Prop :=
  ∀ value, value ∈ t.engine ∨ value ∈ t.rowFormat ∨ value ∈ t.charset ∨ value ∈ t.collation →
    IsValue value.toList

end Table

namespace Ddl

/-! ## Keys -/

theorem parenthesized?_eq_some {text list : List Char} (h : parenthesized? text = some list) :
    ')' ∉ list ∧ ∀ c ∈ list, c ∈ text := by
  obtain ⟨absent, rest, rfl⟩ := parenthesized?_eq_some_iff.mp h
  exact ⟨absent, fun c member => List.mem_append_left _ member⟩

theorem listedName_of_columnNames {list : List Char} (bare : ')' ∉ list) (oneLine : '\n' ∉ list) :
    ∀ name ∈ columnNames list, ListedName name := by
  rw [columnNames_eq]
  intro name member
  obtain ⟨chars, inside, rfl⟩ := List.mem_map.mp member
  obtain ⟨inside, filled⟩ := List.mem_filter.mp inside
  obtain ⟨piece, among, rfl⟩ := List.mem_map.mp inside
  obtain ⟨comma, within⟩ := mem_splitOn among
  refine ⟨fun empty => ?_, ?_⟩
  · rw [String.ofList_eq_empty_iff.mp empty] at filled
    cases filled
  · rw [String.toList_ofList]
    intro c member
    have inPiece : c ∈ piece := mem_of_mem_dropAround (mem_of_mem_dropAround member)
    refine ⟨?_, ?_, ?_⟩ <;> rintro rfl
    · exact comma inPiece
    · exact bare (within _ inPiece)
    · exact oneLine (within _ inPiece)

theorem primaryLine?_eq_some {line : List Char} {names : List String}
    (h : primaryLine? line = some names) (oneLine : '\n' ∉ line) :
    ∀ name ∈ names, ListedName name := by
  obtain ⟨rest, start, h⟩ := Option.bind_eq_some_iff.mp h
  obtain ⟨list, found, rfl⟩ := Option.map_eq_some_iff.mp h
  obtain ⟨bare, inside⟩ := parenthesized?_eq_some found
  have whole := afterStart_eq_some start
  refine listedName_of_columnNames bare fun feed => oneLine ?_
  rw [whole]
  exact List.mem_append_right _ (inside _ feed)

theorem scannedName_of_backticked? {text name rest : List Char}
    (h : backticked? text = some (name, rest)) (oneLine : '\n' ∉ text) :
    ScannedName (String.ofList name) := by
  obtain ⟨filled, plain, -⟩ := backticked?_eq_some h
  refine ⟨fun empty => filled (String.ofList_eq_empty_iff.mp empty), ?_⟩
  rw [String.toList_ofList]
  intro c member
  refine ⟨(plain c member).1, ?_⟩
  rintro rfl
  exact oneLine (plain _ member).2

theorem scanned_ofColumns {table : String} {kind : KeyKind} (other : kind ≠ .primary)
    {body name rest behind list : List Char} (oneLine : '\n' ∉ body)
    (named : backticked? body = some (name, rest))
    (opened : afterStart " (".toList rest = some behind) (closed : parenthesized? behind = some list)
    (declared : List String) : Key.Scanned table declared
      { Key.ofColumns kind table (columnNames list) with
        explicitName := some (String.ofList name) } := by
  obtain ⟨distinct, own, kind', mode⟩ := Key.ofColumns_ordered kind table (columnNames list)
  obtain ⟨bare, inside⟩ := parenthesized?_eq_some closed
  have oneLine' : '\n' ∉ list := by
    intro feed
    have behind' := inside _ feed
    have whole := afterStart_eq_some opened
    refine oneLine ((backticked?_eq_some named).2.2 _ ?_)
    rw [whole]
    exact List.mem_append_right _ behind'
  exact
    { own, created := mode, distinct
      columns := fun column member =>
        listedName_of_columnNames bare oneLine' column (Key.mem_ofColumns member)
      named := fun _ => ⟨_, rfl, scannedName_of_backticked? named oneLine⟩
      primary := fun primary => absurd (kind'.symm.trans primary) other }

theorem namedKeyLine?_eq_some {table : String} {line : List Char} {k : Key}
    (h : namedKeyLine? table line = some k) (oneLine : '\n' ∉ line) (declared : List String) :
    k.Scanned table declared := by
  have behind : ∀ {start text rest : List Char}, afterStart start text = some rest →
      '\n' ∉ text → '\n' ∉ rest := by
    intro start text rest found absent feed
    refine absent ?_
    rw [afterStart_eq_some found]
    exact List.mem_append_right _ feed
  unfold namedKeyLine? at h
  cases unique : afterStart "UNIQUE ".toList line with
  | none =>
    rw [unique] at h
    simp only [Option.bind_eq_bind, Option.bind_eq_some_iff] at h
    obtain ⟨body, keyword, ⟨name, rest⟩, named, after, opened, list, closed, same⟩ := h
    obtain rfl := Option.some.inj same
    exact scanned_ofColumns (by decide) (behind keyword oneLine) named opened closed declared
  | some line' =>
    rw [unique] at h
    simp only [Option.bind_eq_bind, Option.bind_eq_some_iff] at h
    obtain ⟨body, keyword, ⟨name, rest⟩, named, after, opened, list, closed, same⟩ := h
    obtain rfl := Option.some.inj same
    exact scanned_ofColumns (by decide) (behind keyword (behind unique oneLine)) named opened closed
      declared

end Ddl

theorem Key.Scanned.addColumn {table : String} {declared : List String} {k : Key}
    (scanned : k.Scanned table declared) {column : String} (listed : ListedName column)
    (undeclared : column ∉ declared) : (k.addColumn column).Scanned table declared := by
  obtain ⟨own, kind, created⟩ := k.addColumn_eq column
  have each : ∀ {motive : String → Prop}, (∀ name ∈ k.columns, motive name) → motive column →
      ∀ name ∈ (k.addColumn column).columns, motive name := by
    intro motive all last name member
    rcases Key.mem_addColumn member with member | rfl
    · exact all name member
    · exact last
  have same : (k.addColumn column).explicitName = k.explicitName := by
    unfold Key.addColumn
    split <;> rfl
  refine
    { own := own.trans scanned.own, created := created.trans scanned.created
      distinct := Key.addColumn_nodup scanned.distinct, columns := each scanned.columns listed
      named := ?_, primary := ?_ }
  · rw [kind, same]
    exact scanned.named
  · rw [kind, same]
    intro primary
    obtain ⟨unnamed, filled, others⟩ := scanned.primary primary
    refine ⟨unnamed, ?_, each others undeclared⟩
    unfold Key.addColumn
    split
    next => exact filled
    next => exact List.append_ne_nil_of_right_ne_nil _ (List.cons_ne_nil column [])

namespace Table

variable {t : Table}

theorem Scanned.addKey (scanned : t.Scanned) {k : Key}
    (read : k.Scanned t.name (t.columns.map (·.name))) : (t.addKey k).Scanned where
  created := scanned.created
  implicit := scanned.implicit
  distinct := scanned.distinct
  own := scanned.own
  named := scanned.named
  columns := scanned.columns
  marked := scanned.marked
  keys := by
    intro k' member
    rcases List.mem_append.mp member with member | member
    · exact scanned.keys k' member
    · rw [List.mem_singleton.mp member]
      exact read

theorem Scanned.putColumn (scanned : t.Scanned) (keyless : t.keys = []) {c : Column}
    (read : c.Scanned) (own : c.table = t.name) (other : c.name ≠ implicitId)
    (unmarked : c.primary = false) : (t.putColumn c).Scanned := by
  have tail : ∀ c' ∈ (t.putColumn c).columns.tail, c' = c ∨ c' ∈ t.columns.tail := by
    rw [scanned.putColumn_columns other]
    exact fun c' member => mem_placeColumn member
  exact
    { scanned.toStarted.putColumn own other with
      named := scanned.named
      columns := fun c' member => (tail c' member).elim (· ▸ read) (scanned.columns c')
      marked := by
        intro c' member primary
        rcases tail c' member with rfl | member
        · rw [unmarked] at primary
          cases primary
        · exact scanned.marked c' member primary
      keys := by
        intro k member
        have none : k ∈ t.keys := member
        rw [keyless] at none
        cases none }

theorem scanned_extendPrimary {table column : String} {declared : List String}
    (listed : ListedName column) (undeclared : column ∉ declared) {keys : List Key}
    (scanned : ∀ k ∈ keys, k.Scanned table declared) :
    ∀ k ∈ extendPrimary column keys, k.Scanned table declared := by
  induction keys with
  | nil => nofun
  | cons k rest ih =>
    have first := scanned k List.mem_cons_self
    rw [extendPrimary]
    split
    next =>
      intro k' member
      rcases List.mem_cons.mp member with rfl | member
      · exact first.addColumn listed undeclared
      · exact scanned k' (List.mem_cons_of_mem k member)
    next =>
      intro k' member
      rcases List.mem_cons.mp member with rfl | member
      · exact first
      · exact ih (fun k'' inside => scanned k'' (List.mem_cons_of_mem k inside)) k' member

/-- Marking a declared column clears its null flag, and its name is one that a key line lists. -/
theorem Scanned.markPrimary (scanned : t.Scanned) {column : String} (listed : ListedName column) :
    ({ t with columns := Table.markPrimary column t.columns } : Table).Scanned := by
  have tail : (Table.markPrimary column t.columns).tail =
      t.columns.tail.map fun c => if c.name = column then c.asPrimary else c := by
    rw [scanned.markPrimary_columns column]
    rfl
  refine
    { scanned.toStarted.markPrimary column with
      named := scanned.named, columns := ?_, marked := ?_, keys := ?_ }
  · dsimp only
    rw [tail]
    intro c member
    obtain ⟨old, inside, rfl⟩ := List.mem_map.mp member
    have read := scanned.columns old inside
    split
    next => exact read.asPrimary
    next => exact read
  · dsimp only
    rw [tail]
    intro c member primary
    obtain ⟨old, inside, rfl⟩ := List.mem_map.mp member
    split at primary
    next same =>
      rw [if_pos same]
      exact ⟨same ▸ listed, rfl⟩
    next other =>
      rw [if_neg other]
      exact scanned.marked old inside primary
  · dsimp only
    rw [map_name_markPrimary column]
    exact scanned.keys

theorem Scanned.addPrimary (scanned : t.Scanned) {column : String} (listed : ListedName column) :
    (t.addPrimary column).Scanned := by
  by_cases declared : column ∈ t.columns.map (·.name)
  · rw [addPrimary_of_declared declared]
    exact scanned.markPrimary listed
  · have entry : (Key.ofColumns .primary t.name [column]).Scanned t.name
        (t.columns.map (·.name)) :=
      { own := rfl, created := rfl, distinct := List.nodup_singleton column
        columns := fun name member => List.mem_singleton.mp member ▸ listed
        named := fun other => absurd rfl other
        primary := fun _ => ⟨rfl, List.cons_ne_nil _ _, fun name member =>
          List.mem_singleton.mp member ▸ declared⟩ }
    rw [addPrimary_of_undeclared declared]
    split
    next =>
      exact
        { created := scanned.created, implicit := scanned.implicit, distinct := scanned.distinct
          own := scanned.own, named := scanned.named, columns := scanned.columns
          marked := scanned.marked, keys := scanned_extendPrimary listed declared scanned.keys }
    next => exact scanned.addKey entry

/-- **A key line keeps what a table can be.** -/
theorem Scanned.readKey (scanned : t.Scanned) {line : List Char} {t' : Table}
    (h : readKey t line = some t') (oneLine : '\n' ∉ line) : t'.Scanned := by
  rcases readKey_eq_some_iff.mp h with ⟨names, found, rfl⟩ | ⟨-, k, found, rfl⟩
  · have listed := primaryLine?_eq_some found oneLine
    have run : ∀ (names : List String) (t : Table), t.Scanned → (∀ name ∈ names, ListedName name) →
        (names.foldl Table.addPrimary t).Scanned := by
      intro names
      induction names with
      | nil => exact fun _ scanned _ => scanned
      | cons name names ih =>
        intro t scanned listed
        exact ih (t.addPrimary name) (scanned.addPrimary (listed name List.mem_cons_self))
          fun other member => listed other (List.mem_cons_of_mem name member)
    exact run _ t scanned fun name member => listed name (List.mem_of_mem_filter member)
  · exact scanned.addKey (namedKeyLine?_eq_some found oneLine _)

end Table

namespace Ddl

/-! ## Options -/

theorem searchWord_eq_some {α : Type} {attempt : List Char → Option α} {inWord : Bool}
    {line : List Char} {found : α} (h : searchWord attempt inWord line = some found) :
    ∃ rest, attempt rest = some found := by
  induction line generalizing inWord with
  | nil => cases h
  | cons c line ih =>
    rw [searchWord] at h
    split at h
    next found' succeeds =>
      obtain rfl := Option.some.inj h
      split at succeeds
      next => cases succeeds
      next => exact ⟨_, succeeds⟩
    next => exact ih h

theorem isValue_of_wordAt? {text : List Char} {value : String} (h : wordAt? text = some value) :
    IsValue value.toList := by
  unfold wordAt? at h
  split at h
  next first =>
    obtain rfl := Option.some.inj h
    rw [String.toList_ofList]
    refine ⟨fun empty => ?_, fun c member => List.all_eq_true.mp List.all_takeWhile c member⟩
    cases text with
    | nil => cases first
    | cons c text =>
      have word : isWordChar c = true := first
      rw [List.takeWhile_cons, word] at empty
      cases empty
  next => cases h

/-- Options that were read are words. -/
theorem worded_readOptions (t : Table) (line : List Char) : (readOptions t line).Worded := by
  have option : ∀ {words : String} {line : List Char} {value : String},
      option? words line = some value → IsValue value.toList := by
    intro words line value h
    obtain ⟨rest, found⟩ := searchWord_eq_some h
    obtain ⟨text, -, found⟩ := Option.bind_eq_some_iff.mp found
    exact isValue_of_wordAt? found
  have collation : ∀ {line : List Char} {value : String},
      collationOption? line = some value → IsValue value.toList := by
    intro line value h
    obtain ⟨rest, found⟩ := searchWord_eq_some h
    obtain ⟨text, -, found⟩ := Option.bind_eq_some_iff.mp found
    exact isValue_of_wordAt? found
  rintro value (given | given | given | given)
  · exact option given
  · exact option given
  · exact option given
  · exact collation given

/-! ## Lines -/

/-- What the reading can have come to. -/
def Progress.Scanned : Progress → Prop
  | .start => True
  | .columns t => t.Scanned ∧ t.keys = []
  | .keys t => t.Scanned
  | .closed t => t.Scanned ∧ t.Worded

theorem scannedName_of_opening? {line : List Char} {name : String}
    (h : opening? line = some name) (oneLine : '\n' ∉ line) : ScannedName name := by
  rw [opening?] at h
  obtain ⟨rest, start, h⟩ := Option.bind_eq_some_iff.mp h
  obtain ⟨⟨chars, behind⟩, named, h⟩ := Option.bind_eq_some_iff.mp h
  have oneLine' : '\n' ∉ (afterStart "IF NOT EXISTS ".toList rest).getD rest := by
    rw [afterStart_eq_some start, List.mem_append, not_or] at oneLine
    cases given : afterStart "IF NOT EXISTS ".toList rest with
    | none => exact oneLine.2
    | some rest' =>
      rw [afterStart_eq_some given, List.mem_append, not_or] at oneLine
      exact oneLine.2.2
  generalize " (".toList = word at h
  dsimp only at h
  split at h
  next =>
    obtain rfl := Option.some.inj h
    exact scannedName_of_backticked? named oneLine'
  next => cases h

theorem scanned_created {name : String} (named : ScannedName name) :
    (Table.created .mysql name).Scanned := by
  have columns : (Table.created .mysql name).columns.tail = [] := rfl
  have keys : (Table.created .mysql name).keys = [] := rfl
  refine { Table.started_created name with named, columns := ?_, marked := ?_, keys := ?_ }
  · rw [columns]
    exact fun _ member => absurd member List.not_mem_nil
  · rw [columns]
    exact fun _ member => absurd member List.not_mem_nil
  · rw [keys]
    exact fun _ member => absurd member List.not_mem_nil

theorem Progress.Scanned.finish {t : Table} (scanned : t.Scanned) {body : List Char}
    {progress : Progress} (h : Progress.finish t body = some progress) (oneLine : '\n' ∉ body) :
    progress.Scanned := by
  rcases finish_eq_some_iff.mp h with ⟨t', found, rfl⟩ | ⟨-, rfl⟩
  · exact scanned.readKey found oneLine
  · exact
      ⟨{ created := scanned.created, implicit := scanned.implicit, distinct := scanned.distinct
         own := scanned.own, named := scanned.named, columns := scanned.columns
         marked := scanned.marked, keys := scanned.keys }, worded_readOptions t body⟩

/-- **A line that can stand where it does keeps what a table can be.** -/
theorem Progress.Scanned.next {progress progress' : Progress} (scanned : progress.Scanned)
    {body : List Char} (h : progress.next .mysql body = some progress') (oneLine : '\n' ∉ body) :
    progress'.Scanned := by
  cases progress with
  | start =>
    obtain ⟨name, found, rfl⟩ := Option.map_eq_some_iff.mp h
    exact ⟨scanned_created (scannedName_of_opening? found oneLine), rfl⟩
  | columns t =>
    obtain ⟨scanned, keyless⟩ := scanned
    rcases next_columns_eq_some_iff.mp h with ⟨t', found, rfl⟩ | finished
    · rcases readColumn_eq_some found oneLine with rfl | ⟨c, rfl, read, own, other, unmarked⟩
      · exact ⟨scanned, keyless⟩
      · exact ⟨scanned.putColumn keyless read own other unmarked, keyless⟩
    · exact Progress.Scanned.finish scanned finished oneLine
  | keys t => exact Progress.Scanned.finish scanned h oneLine
  | closed t => cases h

theorem Progress.Scanned.through {progress progress' : Progress} (scanned : progress.Scanned)
    {bodies : List (List Char)} (h : progress.through .mysql bodies = some progress')
    (oneLine : ∀ body ∈ bodies, '\n' ∉ body) : progress'.Scanned := by
  induction bodies generalizing progress with
  | nil =>
    obtain rfl := Option.some.inj h
    exact scanned
  | cons body bodies ih =>
    rw [Progress.through_cons] at h
    obtain ⟨between, step, rest⟩ := Option.bind_eq_some_iff.mp h
    exact ih (scanned.next step (oneLine body List.mem_cons_self)) rest
      fun other member => oneLine other (List.mem_cons_of_mem body member)

theorem not_mem_of_mem_bodies {text body : List Char} (h : body ∈ bodies text) : '\n' ∉ body := by
  obtain ⟨line, among, read⟩ := List.mem_filterMap.mp h
  unfold body? at read
  split at read
  next => cases read
  next =>
    obtain rfl := Option.some.inj read
    intro feed
    exact (mem_splitOn among).1 (mem_of_mem_dropAround (mem_of_mem_dropSuffixWhile feed))

/-- **Every table that is read is a scanned one.** -/
theorem scanned_of_readTable {text : List Char} {t : Table} (h : readTable .mysql text = .ok t) :
    t.Scanned ∧ t.Worded := by
  have start : Progress.start.Scanned := trivial
  exact start.through (readTable_eq_ok.mp h) fun body member => not_mem_of_mem_bodies member

end Ddl

end SqlAccess
