import BikesNest.Lib.Table
import Mathlib.Data.Option.Basic

/-!
# Row versions

The versions of the row of one unique key under multiversion concurrency control.  A
version names the transaction that has inserted it and the one that has deleted it last;
what they are worth depends on how those transactions stand.

* `visible` says whether a snapshot shows a version, and `live` whether one that is taken
  now would.
* `claim` is what a `DELETE` at READ COMMITTED meets in a version of its snapshot: it takes
  the row, passes over it, or waits for another transaction.
* `check` is what an `INSERT` meets in a version of its key.
* `Sole` says that at most one version can still become or stay the row.  Under it the
  committed row is a function of the versions (`row_eq_some`), and `check` lets an `INSERT`
  through only where there is no row (`Sole.insert`).
-/

namespace Versions

open Relational

variable {ι : Type}

/-- How a transaction stands. -/
inductive Status where
  | running | committed | aborted
deriving DecidableEq

/-- A version of the row; none has inserted a version from before all transactions. -/
structure Version (ι : Type) where
  inserted : Option ι
  deleted : Option ι := none

/-- The versions of the row. -/
abbrev Heap (ι : Type) := Table (Version ι)

/-- A snapshot shows the version: it counts the insertion, and not the deletion. -/
def visible (snapshot : ι → Bool) (v : Version ι) : Bool :=
  v.inserted.all snapshot && !v.deleted.any snapshot

/-- `DELETE` of the version under the key `k`. -/
def delete (i : ι) (k : Nat) (heap : Heap ι) : Heap ι :=
  heap.update (fun j _ => j == k) fun v => { v with deleted := some i }

/-- What a `DELETE` does with a version of its snapshot. -/
inductive Claim where
  | take | pass | wait
deriving DecidableEq

/-- What an `INSERT` finds in a version of its key. -/
inductive Check where
  | dead | conflict | wait
deriving DecidableEq

variable (st : ι → Status)

def isCommitted (i : ι) : Bool := st i == .committed

/-- The version is the committed row. -/
def live (v : Version ι) : Bool := visible (isCommitted st) v

/-- The version is the row, or can become it. -/
def alive (v : Version ι) : Bool :=
  v.inserted.all (fun i => st i != .aborted) && !v.deleted.any (isCommitted st)

/-- The committed row, by what has inserted it. -/
def row (heap : Heap ι) : Option (Option ι) :=
  (heap.select fun _ v => live st v).head?.map fun x => x.2.inserted

section Statements

variable [DecidableEq ι]

/-- The transaction that has deleted a version decides: when it is still running, the others
wait for its end. -/
def claim (i : ι) (v : Version ι) : Claim :=
  match v.deleted with
  | none => .take
  | some j =>
    if j = i then .pass
    else match st j with
      | .running => .wait
      | .committed => .pass
      | .aborted => .take

/-- A version that is not visible to the transaction `i` for good is dead; one whose fate is
open makes it wait. -/
def check (i : ι) (v : Version ι) : Check :=
  if v.inserted.any fun j => st j == .aborted then .dead
  else if v.inserted.any fun j => j != i && st j == .running then .wait
  else match claim st i v with
    | .take => .conflict
    | .pass => .dead
    | .wait => .wait

/-- The unique index on the key. -/
def checkAll (i : ι) (heap : Heap ι) : Check :=
  if heap.any fun _ v => check st i v == .wait then .wait
  else if heap.any fun _ v => check st i v == .conflict then .conflict
  else .dead

end Statements

/-- At most one version can be or become the row. -/
def Sole (heap : Heap ι) : Prop :=
  ∀ k k' v v', heap.row k = some v → heap.row k' = some v' → alive st v = true →
    alive st v' = true → k = k'

variable {st}

theorem alive_of_live {v : Version ι} (h : live st v = true) : alive st v = true := by
  simp only [live, visible, Bool.and_eq_true] at h
  simp only [alive, Bool.and_eq_true]
  refine ⟨?_, h.2⟩
  cases hinserted : v.inserted with
  | none => rfl
  | some i =>
    have hcommitted : st i = .committed := by simpa [hinserted, isCommitted] using h.1
    simp [hcommitted]

/-- The row stands under the one key with a live version. -/
theorem row_eq_some {heap : Heap ι} (h : Sole st heap) {o : Option ι} :
    row st heap = some o ↔ ∃ k v, heap.row k = some v ∧ live st v = true ∧ v.inserted = o := by
  constructor
  · intro hrow
    obtain ⟨x, hx, rfl⟩ := Option.map_eq_some_iff.mp hrow
    obtain ⟨hmem, hlive⟩ := Table.mem_select.mp (List.mem_of_head? hx)
    exact ⟨x.1, x.2, hmem, hlive, rfl⟩
  · rintro ⟨k, v, hv, hlive, rfl⟩
    have hhead := Table.head?_select (p := fun _ v => live st v) hv hlive fun k' v' hv' hlive' =>
      h k' k v' v hv' hv (alive_of_live hlive') (alive_of_live hlive)
    rw [row, hhead]
    rfl

/-- Two states of the versions with the same live ones have the same row. -/
theorem row_congr {st' : ι → Status} {heap heap' : Heap ι} (h : Sole st heap)
    (h' : Sole st' heap')
    (hlive : ∀ k o, (∃ v, heap'.row k = some v ∧ live st' v = true ∧ v.inserted = o) ↔
      ∃ v, heap.row k = some v ∧ live st v = true ∧ v.inserted = o) :
    row st' heap' = row st heap := by
  have hsome : ∀ o, row st' heap' = some o ↔ row st heap = some o := by
    intro o
    rw [row_eq_some h', row_eq_some h]
    exact exists_congr fun k => hlive k o
  exact Option.ext fun o => hsome o

/-- There is no row when no version is live. -/
theorem row_eq_none {heap : Heap ι} (h : Sole st heap) :
    row st heap = none ↔ ∀ k v, heap.row k = some v → live st v = false := by
  rw [Option.eq_none_iff_forall_ne_some]
  constructor
  · intro hnone k v hv
    by_contra hlive
    exact hnone v.inserted ((row_eq_some h).mpr ⟨k, v, hv, by simpa using hlive, rfl⟩)
  · intro hnone o hrow
    obtain ⟨k, v, hv, hlive, _⟩ := (row_eq_some h).mp hrow
    rw [hnone k v hv] at hlive
    cases hlive

/-- No version comes to life when a transaction ends. -/
theorem alive_of_ended {st' : ι → Status} {v : Version ι}
    (hended : ∀ i, st' i = st i ∨ st i = .running) (hv : alive st' v = true) :
    alive st v = true := by
  simp only [alive, Bool.and_eq_true, Bool.not_eq_true'] at hv ⊢
  refine ⟨?_, ?_⟩
  · cases hinserted : v.inserted with
    | none => rfl
    | some i =>
      have hi : st' i ≠ .aborted := by simpa [hinserted] using hv.1
      rcases hended i with hsame | hrunning
      · simpa [← hsame] using hi
      · simp [hrunning]
  · cases hdeleted : v.deleted with
    | none => rfl
    | some i =>
      have hi : st' i ≠ .committed := by simpa [hdeleted, isCommitted] using hv.2
      rcases hended i with hsame | hrunning
      · simpa [isCommitted, ← hsame] using hi
      · simp [isCommitted, hrunning]

theorem Sole.of_ended {st' : ι → Status} {heap : Heap ι} (h : Sole st heap)
    (hended : ∀ i, st' i = st i ∨ st i = .running) : Sole st' heap :=
  fun k k' v v' hv hv' halive halive' =>
    h k k' v v' hv hv' (alive_of_ended hended halive) (alive_of_ended hended halive')

section Rows

variable {i : ι} {heap : Heap ι} {k : Nat} {v : Version ι}

theorem row_delete_self (hv : heap.row k = some v) :
    (delete i k heap).row k = some { v with deleted := some i } := by
  rw [delete, Table.row_update_of_some _ _ hv]
  simp

theorem row_delete_of_ne {j : Nat} (hne : j ≠ k) : (delete i k heap).row j = heap.row j := by
  rw [delete, Table.row_update]
  cases heap.row j with
  | none => rfl
  | some x => simp [hne]

/-- A version after a `DELETE` is one from before, and only that of `k` has another
deletion. -/
theorem of_row_delete {j : Nat} {x : Version ι} (hv : heap.row k = some v)
    (hx : (delete i k heap).row j = some x) :
    ∃ y, heap.row j = some y ∧ x.inserted = y.inserted ∧
      (x.deleted = y.deleted ∨ x.deleted = some i ∧ j = k) := by
  by_cases hj : j = k
  · subst hj
    rw [row_delete_self hv] at hx
    cases hx
    exact ⟨v, hv, rfl, .inr ⟨rfl, rfl⟩⟩
  · rw [row_delete_of_ne hj] at hx
    exact ⟨x, hx, rfl, .inl rfl⟩

/-- A `DELETE` leaves the insertion of each version. -/
theorem row_delete_of_some {j : Nat} {y : Version ι} (hv : heap.row k = some v)
    (hy : heap.row j = some y) :
    ∃ x, (delete i k heap).row j = some x ∧ x.inserted = y.inserted := by
  by_cases hj : j = k
  · subst hj
    obtain rfl := Option.some.inj (hv.symm.trans hy)
    exact ⟨_, row_delete_self hv, rfl⟩
  · exact ⟨y, (row_delete_of_ne hj).trans hy, rfl⟩

theorem Sole.insert (hdead : ∀ k v, heap.row k = some v → alive st v = false)
    (x : Version ι) : Sole st (heap.insert x) := by
  have hnew : ∀ {j y}, (heap.insert x).row j = some y → alive st y = true → j = heap.next := by
    intro j y hy halive
    rcases Table.row_insert_eq_some.mp hy with ⟨hj, _⟩ | hold
    · exact hj
    · rw [hdead j y hold] at halive
      cases halive
  intro j j' y y' hy hy' halive halive'
  rw [hnew hy halive, hnew hy' halive']

end Rows

section Statements

variable [DecidableEq ι] {i : ι} {heap : Heap ι} {k : Nat} {v : Version ι}

/-- A row that a `DELETE` takes is not deleted by a transaction that counts. -/
theorem not_committed_of_take (h : claim st i v = .take) :
    v.deleted.any (isCommitted st) = false := by
  unfold claim at h
  split at h
  · rename_i hdeleted
    simp [hdeleted]
  · rename_i j hdeleted
    split at h
    · cases h
    · split at h
      · cases h
      · cases h
      · rename_i haborted
        simp [hdeleted, isCommitted, haborted]

/-- A `DELETE` waits for another transaction that is deleting the row. -/
theorem not_running_of_take {j : ι} (h : claim st i v = .take) (hdeleted : v.deleted = some j)
    (hne : j ≠ i) : st j ≠ .running := by
  intro hrunning
  simp only [claim, hdeleted, if_neg hne, hrunning] at h
  cases h

/-- A deletion that is not committed changes no version's fate yet. -/
theorem Sole.delete (h : Sole st heap) (hv : heap.row k = some v)
    (htake : claim st i v = .take) : Sole st (delete i k heap) := by
  have hback : ∀ {j x}, (Versions.delete i k heap).row j = some x → alive st x = true →
      ∃ y, heap.row j = some y ∧ alive st y = true := by
    intro j x hx halive
    obtain ⟨y, hy, hinserted, hdeleted | ⟨_, rfl⟩⟩ := of_row_delete hv hx
    · exact ⟨y, hy, by rwa [alive, ← hinserted, ← hdeleted]⟩
    · obtain rfl := Option.some.inj (hv.symm.trans hy)
      refine ⟨v, hv, ?_⟩
      simp only [alive, Bool.and_eq_true] at halive ⊢
      exact ⟨hinserted ▸ halive.1, by rw [not_committed_of_take htake]; rfl⟩
  intro j j' x x' hx hx' halive halive'
  obtain ⟨y, hy, hyalive⟩ := hback hx halive
  obtain ⟨y', hy', hyalive'⟩ := hback hx' halive'
  exact h j j' y y' hy hy' hyalive hyalive'

/-- A version that is dead to a transaction that has deleted nothing is dead for all. -/
theorem not_alive_of_dead (hown : v.deleted ≠ some i) (h : check st i v = .dead) :
    alive st v = false := by
  unfold check at h
  split at h
  · rename_i haborted
    cases hinserted : v.inserted with
    | none => simp [hinserted] at haborted
    | some j =>
      have haborted : st j = .aborted := by simpa [hinserted] using haborted
      simp [alive, hinserted, haborted]
  · split at h
    · cases h
    · split at h
      · cases h
      · rename_i hpass
        unfold claim at hpass
        split at hpass
        · cases hpass
        · rename_i j hdeleted
          split at hpass
          · rename_i hj
            subst hj
            exact absurd hdeleted hown
          · split at hpass
            · cases hpass
            · rename_i hcommitted
              simp [alive, hdeleted, isCommitted, hcommitted]
            · cases hpass
      · cases h

/-- The unique index lets an `INSERT` through only when no version is alive. -/
theorem dead_of_checkAll (h : checkAll st i heap = .dead) (hv : heap.row k = some v) :
    check st i v = .dead := by
  unfold checkAll at h
  split at h
  · cases h
  · rename_i hwait
    split at h
    · cases h
    · rename_i hconflict
      rw [Bool.not_eq_true] at hwait hconflict
      have hnowait := Table.any_eq_false_iff.mp hwait k v hv
      have hnoconflict := Table.any_eq_false_iff.mp hconflict k v hv
      cases hcheck : check st i v with
      | dead => rfl
      | conflict => simp [hcheck] at hnoconflict
      | wait => simp [hcheck] at hnowait

end Statements

end Versions
