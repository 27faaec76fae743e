import Mathlib.Data.List.Basic
import Mathlib.Logic.Function.Basic

/-!
# Foreign keys

What a `DELETE` does to the rows that refer to the deleted ones.

`Schema` is what the DDL statements have made of the foreign keys and of the
`NOT NULL` columns; `Schema.migrate` replays a list of statements.  A `Catalog`
adds how the rows hold their references and the row triggers that can refuse a
change.  `Catalog.delete` is the `DELETE` statement: the rows of the `WHERE`
clause go, every foreign key that refers to their table acts, and the deletions
of a cascade queue the foreign keys that refer to its own table.

Tables are indexed by `τ` and columns by `κ`.  The rows of different tables may
have different types.

`Catalog.Yields` says that a foreign key never stops a `DELETE` and never hands
it on.  Where all that refer to a table yield, a `DELETE` there goes through on
all contents, and `delete_of_yields` gives what it leaves.
-/

namespace Relational

variable {τ κ : Type} [DecidableEq τ] [DecidableEq κ]

/-! ## The schema -/

/-- `ON DELETE`. -/
inductive OnDelete where
  | noAction | cascade | setNull
deriving DecidableEq

structure ForeignKey (τ κ : Type) where
  name : String
  table : τ
  column : κ
  references : τ
  onDelete : OnDelete := .noAction
deriving DecidableEq

/-- A new column that refers to a table.  The constraint gets its name from the
system. -/
structure ColumnDef (τ κ : Type) where
  column : κ
  notNull : Bool := false
  references : τ
  onDelete : OnDelete := .noAction

/-- The statements that change foreign keys or `NOT NULL` columns. -/
inductive Ddl (τ κ : Type) where
  | createTable (table : τ) (columns : List (ColumnDef τ κ))
  | dropTable (table : τ)
  | addColumn (table : τ) (column : ColumnDef τ κ)
  | dropNotNull (table : τ) (column : κ)
  | addForeignKey (key : ForeignKey τ κ)
  | dropConstraint (table : τ) (name : String)

structure Schema (τ κ : Type) where
  tables : List τ := []
  notNull : List (τ × κ) := []
  foreignKeys : List (ForeignKey τ κ) := []

namespace Schema

/-- `ADD CONSTRAINT … FOREIGN KEY`. -/
def addForeignKey (s : Schema τ κ) (k : ForeignKey τ κ) : Option (Schema τ κ) :=
  if k.table ∈ s.tables ∧ k.references ∈ s.tables ∧
      ∀ k' ∈ s.foreignKeys, k'.table = k.table → k'.name ≠ k.name then
    some { s with foreignKeys := s.foreignKeys ++ [k] }
  else none

/-- `ADD COLUMN … REFERENCES`.  `names` gives the name of a constraint that is
written without one. -/
def addColumn (names : τ → κ → String) (s : Schema τ κ) (t : τ) (c : ColumnDef τ κ) :
    Option (Schema τ κ) :=
  { s with notNull := if c.notNull then s.notNull ++ [(t, c.column)] else s.notNull }.addForeignKey
    { name := names t c.column, table := t, column := c.column, references := c.references
      onDelete := c.onDelete }

/-- One statement.  A statement that names what is not there fails, and so does
the drop of a table that another one refers to. -/
def alter (names : τ → κ → String) (s : Schema τ κ) : Ddl τ κ → Option (Schema τ κ)
  | .createTable t columns =>
    if t ∈ s.tables then none
    else columns.foldlM (fun s c => s.addColumn names t c) { s with tables := s.tables ++ [t] }
  | .dropTable t =>
    if t ∈ s.tables ∧ ∀ k ∈ s.foreignKeys, k.references = t → k.table = t then
      some { tables := s.tables.filter fun t' => t' ≠ t
             notNull := s.notNull.filter fun x => x.1 ≠ t
             foreignKeys := s.foreignKeys.filter fun k => k.table ≠ t }
    else none
  | .addColumn t c => s.addColumn names t c
  | .dropNotNull t c =>
    if t ∈ s.tables then some { s with notNull := s.notNull.filter fun x => x ≠ (t, c) } else none
  | .addForeignKey k => s.addForeignKey k
  | .dropConstraint t name =>
    if ∃ k ∈ s.foreignKeys, k.table = t ∧ k.name = name then
      some { s with
        foreignKeys := s.foreignKeys.filter fun k => ¬(k.table = t ∧ k.name = name) }
    else none

/-- The schema that a list of statements makes. -/
def migrate (names : τ → κ → String) (statements : List (Ddl τ κ)) : Option (Schema τ κ) :=
  statements.foldlM (alter names) {}

/-- The foreign keys that refer to a table, oldest first. -/
def referencing (s : Schema τ κ) (t : τ) : List (ForeignKey τ κ) :=
  s.foreignKeys.filter fun k => k.references = t

/-- What the foreign keys on `t` do when rows of `root` go. -/
def actionsOn (s : Schema τ κ) (root t : τ) : List (κ × OnDelete) :=
  ((s.referencing root).filter fun k => k.table = t).map fun k => (k.column, k.onDelete)

/-- The foreign keys that have to act once the rows `gone` of a table are gone. -/
def pending (s : Schema τ κ) (t : τ) (gone : List Nat) : List (ForeignKey τ κ × List Nat) :=
  if gone.isEmpty then [] else (s.referencing t).map fun k => (k, gone)

/-- The schema lets the foreign key act on all contents, and no other one acts after
it. -/
def yields (s : Schema τ κ) (k : ForeignKey τ κ) : Bool :=
  match k.onDelete with
  | .noAction => false
  | .setNull => !s.notNull.contains (k.table, k.column)
  | .cascade => (s.referencing k.table).isEmpty

end Schema

/-! ## The statement -/

/-- The rows of all tables. -/
abbrev Contents (ρ : τ → Type) := (t : τ) → List (ρ t)

/-- Why a statement is refused. -/
inductive Violation (τ κ : Type) where
  | foreignKey (name : String)
  | notNull (table : τ) (column : κ)
  | raised (message : String)
deriving DecidableEq

/-- `key` is what a foreign key refers to a row by, `reference` the value of a
foreign key column and `clear` the row with `NULL` there.  The two triggers are
those that fire before a row is updated or deleted, with the message they raise. -/
structure Catalog (κ : Type) (ρ : τ → Type) where
  schema : Schema τ κ
  key : (t : τ) → ρ t → Option Nat
  reference : (t : τ) → κ → ρ t → Option Nat
  clear : (t : τ) → κ → ρ t → ρ t
  beforeUpdate : (t : τ) → ρ t → ρ t → Option String
  beforeDelete : (t : τ) → ρ t → Option String

namespace Catalog

variable {ρ : τ → Type} (d : Catalog κ ρ)

/-- The row refers to one of the rows `gone` by this column. -/
def refers (t : τ) (c : κ) (gone : List Nat) (r : ρ t) : Bool :=
  (d.reference t c r).any gone.contains

/-- What a referential action makes of the rows of its table. -/
def act (t : τ) (gone : List Nat) (rows : List (ρ t)) : κ × OnDelete → List (ρ t)
  | (_, .noAction) => rows
  | (c, .cascade) => rows.filter fun r => !d.refers t c gone r
  | (c, .setNull) => rows.map fun r => if d.refers t c gone r then d.clear t c r else r

/-- The contents after a foreign key has acted. -/
def enforce (k : ForeignKey τ κ) (gone : List Nat) (contents : Contents ρ) : Contents ρ := fun t =>
  if k.table = t then d.act t gone (contents t) (k.column, k.onDelete) else contents t

/-- A foreign key acts, with the foreign keys that have to act after it. -/
def fire (k : ForeignKey τ κ) (gone : List Nat) (contents : Contents ρ) :
    Except (Violation τ κ) (Contents ρ × List (ForeignKey τ κ × List Nat)) :=
  let hit := (contents k.table).filter (d.refers k.table k.column gone)
  match k.onDelete with
  | .noAction => if hit.isEmpty then .ok (contents, []) else .error (.foreignKey k.name)
  | .setNull =>
    match hit.findSome? fun r => d.beforeUpdate k.table r (d.clear k.table k.column r) with
    | some message => .error (.raised message)
    | none =>
      if !hit.isEmpty && d.schema.notNull.contains (k.table, k.column) then
        .error (.notNull k.table k.column)
      else .ok (d.enforce k gone contents, [])
  | .cascade =>
    match hit.findSome? (d.beforeDelete k.table) with
    | some message => .error (.raised message)
    | none =>
      .ok (d.enforce k gone contents,
        d.schema.pending k.table (hit.filterMap (d.key k.table)))

/-- The foreign keys of the queue act one after the other.  `none` is a queue that
the fuel does not empty. -/
def settle : Nat → List (ForeignKey τ κ × List Nat) → Contents ρ →
    Option (Except (Violation τ κ) (Contents ρ))
  | _, [], contents => some (.ok contents)
  | 0, _ :: _, _ => none
  | fuel + 1, (k, gone) :: queue, contents =>
    match d.fire k gone contents with
    | .error e => some (.error e)
    | .ok (contents, more) => settle fuel (queue ++ more) contents

/-- `DELETE FROM t WHERE p`, with the number of rows it deletes. -/
def delete (fuel : Nat) (t : τ) (p : ρ t → Bool) (contents : Contents ρ) :
    Option (Except (Violation τ κ) (Nat × Contents ρ)) :=
  let hit := (contents t).filter p
  match hit.findSome? (d.beforeDelete t) with
  | some message => some (.error (.raised message))
  | none =>
    (d.settle fuel (d.schema.pending t (hit.filterMap (d.key t)))
      (Function.update contents t ((contents t).filter fun r => !p r))).map
        (Except.map fun contents => (hit.length, contents))

/-! ## Foreign keys that yield -/

/-- Whatever the contents, the action of the foreign key goes through and no other
one acts after it. -/
structure Yields (k : ForeignKey τ κ) : Prop where
  schema : d.schema.yields k = true
  update : k.onDelete = .setNull → ∀ r, d.beforeUpdate k.table r (d.clear k.table k.column r) = none
  delete : k.onDelete = .cascade → ∀ r, d.beforeDelete k.table r = none

variable {d} {k : ForeignKey τ κ} {t : τ} {gone : List Nat} {contents : Contents ρ}

theorem findSome?_none {α β : Type} {f : α → Option β} (h : ∀ a, f a = none) (l : List α) :
    l.findSome? f = none :=
  List.findSome?_eq_none_iff.mpr fun a _ => h a

omit [DecidableEq κ] in
theorem pending_of_referencing_nil {s : Schema τ κ} (h : s.referencing t = []) (gone : List Nat) :
    s.pending t gone = [] := by
  rw [Schema.pending, h]
  split <;> rfl

theorem fire_of_yields (h : d.Yields k) (gone : List Nat) (contents : Contents ρ) :
    d.fire k gone contents = .ok (d.enforce k gone contents, []) := by
  obtain ⟨hschema, hupdate, hdelete⟩ := h
  unfold fire
  cases haction : k.onDelete with
  | noAction => simp [Schema.yields, haction] at hschema
  | setNull =>
    have hnull : d.schema.notNull.contains (k.table, k.column) = false := by
      simpa [Schema.yields, haction] using hschema
    simp only [findSome?_none (hupdate haction), hnull, Bool.and_false, Bool.false_eq_true,
      if_false]
  | cascade =>
    have hleaf : d.schema.referencing k.table = [] := by
      simpa [Schema.yields, haction] using hschema
    simp only [findSome?_none (hdelete haction), pending_of_referencing_nil hleaf]

/-- A queue of foreign keys that yield is emptied in one pass. -/
theorem settle_of_yields {queue : List (ForeignKey τ κ × List Nat)} {fuel : Nat}
    (h : ∀ x ∈ queue, d.Yields x.1) (hfuel : queue.length ≤ fuel) :
    d.settle fuel queue contents =
      some (.ok (queue.foldl (fun contents x => d.enforce x.1 x.2 contents) contents)) := by
  induction queue generalizing fuel contents with
  | nil => simp only [settle, List.foldl_nil]
  | cons x queue ih =>
    cases fuel with
    | zero => simp at hfuel
    | succ fuel =>
      have hrest : queue.length ≤ fuel := by simpa using hfuel
      rw [settle, fire_of_yields (h x List.mem_cons_self)]
      simp only [List.append_nil, List.foldl_cons]
      exact ih (fun y hy => h y (List.mem_cons_of_mem x hy)) hrest

omit [DecidableEq κ] in
/-- A foreign key does nothing where no row has gone. -/
theorem enforce_nil (k : ForeignKey τ κ) (contents : Contents ρ) :
    d.enforce k [] contents = contents := by
  have hrefers (t : τ) (c : κ) (r : ρ t) : d.refers t c [] r = false := by
    unfold refers
    cases d.reference t c r <;> rfl
  funext t
  unfold enforce act
  split
  · split <;> simp [hrefers]
  · rfl

omit [DecidableEq κ] in
theorem foldl_enforce_nil (keys : List (ForeignKey τ κ)) (contents : Contents ρ) :
    keys.foldl (fun contents k => d.enforce k [] contents) contents = contents := by
  induction keys with
  | nil => rfl
  | cons k keys ih => rw [List.foldl_cons, enforce_nil, ih]

omit [DecidableEq κ] in
/-- What foreign keys make of one table: only those on the table act. -/
theorem foldl_enforce (keys : List (ForeignKey τ κ)) (contents : Contents ρ) (t : τ) :
    keys.foldl (fun contents k => d.enforce k gone contents) contents t =
      ((keys.filter fun k => k.table = t).map fun k => (k.column, k.onDelete)).foldl
        (d.act t gone) (contents t) := by
  induction keys generalizing contents with
  | nil => rfl
  | cons k keys ih =>
    rw [List.foldl_cons, ih]
    by_cases htable : k.table = t
    · simp [htable, enforce]
    · simp [htable, enforce]

/-- The foreign keys of a table act on the rows that are gone from it. -/
theorem settle_pending (h : ∀ k ∈ d.schema.referencing t, d.Yields k) {fuel : Nat}
    (hfuel : (d.schema.referencing t).length ≤ fuel) :
    d.settle fuel (d.schema.pending t gone) contents =
      some (.ok fun t' => (d.schema.actionsOn t t').foldl (d.act t' gone) (contents t')) := by
  have hqueue : ∀ x ∈ d.schema.pending t gone, d.Yields x.1 := by
    intro x hx
    unfold Schema.pending at hx
    split at hx
    · cases hx
    · obtain ⟨k, hk, rfl⟩ := List.mem_map.mp hx
      exact h k hk
  have hlength : (d.schema.pending t gone).length ≤ fuel := by
    unfold Schema.pending
    split
    · exact Nat.zero_le fuel
    · rwa [List.length_map]
  rw [settle_of_yields hqueue hlength]
  congr 2
  funext t'
  unfold Schema.actionsOn
  rw [← foldl_enforce]
  unfold Schema.pending
  split
  · rename_i hempty
    rw [List.isEmpty_iff.mp hempty]
    rw [foldl_enforce_nil, List.foldl_nil]
  · rw [List.foldl_map]

/-- A `DELETE` on a table that only foreign keys that yield refer to. -/
theorem delete_of_yields (hdelete : ∀ r, d.beforeDelete t r = none)
    (h : ∀ k ∈ d.schema.referencing t, d.Yields k) {fuel : Nat}
    (hfuel : (d.schema.referencing t).length ≤ fuel) (p : ρ t → Bool) (contents : Contents ρ) :
    d.delete fuel t p contents =
      some (.ok (((contents t).filter p).length, fun t' =>
        (d.schema.actionsOn t t').foldl (d.act t' (((contents t).filter p).filterMap (d.key t)))
          (Function.update contents t ((contents t).filter fun r => !p r) t'))) := by
  simp only [delete, findSome?_none hdelete, settle_pending h hfuel, Option.map_some, Except.map]

end Catalog

end Relational
