import Mathlib.Logic.Function.Basic
import Mathlib.Data.List.Nodup

/-!
# A map with a queue of its keys

A cache that is bounded by evicting what was inserted first: a map and the queue
of its keys.  `insert` overwrites the value of a key, and queues the key only
where the map did not have it.  `evict` drops keys from the front of the queue
until the bound holds.

`Consistent` says that the two have the same keys; both operations keep it.
-/

/-- A map and the queue of its keys, oldest first. -/
structure BoundedMap (κ ν : Type) where
  hits : κ → Option ν
  order : List κ

namespace BoundedMap

variable {κ ν : Type}

def empty : BoundedMap κ ν := ⟨fun _ => none, []⟩

/-- The queue has the keys of the map, each once. -/
structure Consistent (m : BoundedMap κ ν) : Prop where
  nodup : m.order.Nodup
  mem_order : ∀ k, k ∈ m.order ↔ (m.hits k).isSome = true

theorem consistent_empty : (empty : BoundedMap κ ν).Consistent :=
  ⟨List.nodup_nil, fun k => by simp [empty]⟩

variable [DecidableEq κ]

/-- A key is queued when it comes into the map. -/
def insert (m : BoundedMap κ ν) (k : κ) (v : ν) : BoundedMap κ ν where
  hits := Function.update m.hits k (some v)
  order := if (m.hits k).isNone then m.order ++ [k] else m.order

/-- The loop of the eviction, over the queue. -/
def evictFrom (capacity : Nat) (hits : κ → Option ν) : List κ → BoundedMap κ ν
  | [] => ⟨hits, []⟩
  | k :: rest =>
    if capacity < (k :: rest).length then evictFrom capacity (Function.update hits k none) rest
    else ⟨hits, k :: rest⟩

/-- While there are too many keys, the oldest one goes. -/
def evict (capacity : Nat) (m : BoundedMap κ ν) : BoundedMap κ ν :=
  evictFrom capacity m.hits m.order

/-! ## Insertion -/

theorem hits_insert (m : BoundedMap κ ν) (k : κ) (v : ν) (j : κ) :
    (m.insert k v).hits j = if j = k then some v else m.hits j :=
  Function.update_apply _ _ _ _

theorem Consistent.insert {m : BoundedMap κ ν} (h : m.Consistent) (k : κ) (v : ν) :
    (m.insert k v).Consistent := by
  refine ⟨?_, ?_⟩
  · unfold BoundedMap.insert
    dsimp only
    split_ifs with hnone
    · have hnew : k ∉ m.order := by
        rw [h.mem_order, Bool.not_eq_true, Option.isSome_eq_false_iff]
        exact hnone
      exact List.nodup_append.mpr ⟨h.nodup, List.nodup_singleton k, fun a ha b hb => by
        rw [List.mem_singleton.mp hb]
        rintro rfl
        exact hnew ha⟩
    · exact h.nodup
  · intro j
    rw [hits_insert]
    by_cases hj : j = k
    · subst hj
      rw [if_pos rfl]
      refine ⟨fun _ => rfl, fun _ => ?_⟩
      unfold BoundedMap.insert
      dsimp only
      split_ifs with hnone
      · exact List.mem_append_right _ (List.mem_singleton_self j)
      · rwa [h.mem_order, ← Bool.not_eq_false, Option.isSome_eq_false_iff]
    · rw [if_neg hj, ← h.mem_order]
      unfold BoundedMap.insert
      dsimp only
      split_ifs
      · simp [hj]
      · rfl

/-! ## Eviction -/

theorem consistent_evictFrom {capacity : Nat} {hits : κ → Option ν} {order : List κ}
    (h : Consistent ⟨hits, order⟩) : (evictFrom capacity hits order).Consistent := by
  induction order generalizing hits with
  | nil => exact h
  | cons k rest ih =>
    unfold evictFrom
    split_ifs
    · obtain ⟨hk, hrest⟩ := List.nodup_cons.mp h.nodup
      refine ih ⟨hrest, ?_⟩
      intro j
      by_cases hj : j = k
      · subst hj
        simp [hk]
      · have hmem := h.mem_order j
        rw [List.mem_cons, or_iff_right hj] at hmem
        simpa [Function.update_of_ne hj] using hmem
    · exact h

theorem Consistent.evict {m : BoundedMap κ ν} (h : m.Consistent) (capacity : Nat) :
    (m.evict capacity).Consistent := consistent_evictFrom h

theorem length_evictFrom_le (capacity : Nat) (hits : κ → Option ν) (order : List κ) :
    (evictFrom capacity hits order).order.length ≤ capacity := by
  induction order generalizing hits with
  | nil => exact Nat.zero_le capacity
  | cons k rest ih =>
    unfold evictFrom
    split_ifs with hlength
    · exact ih _
    · exact Nat.le_of_not_lt hlength

/-- After an eviction the bound holds. -/
theorem length_evict_le (capacity : Nat) (m : BoundedMap κ ν) :
    (m.evict capacity).order.length ≤ capacity := length_evictFrom_le _ _ _

theorem hits_evictFrom {capacity : Nat} {hits : κ → Option ν} {order : List κ} {k : κ} {v : ν}
    (h : (evictFrom capacity hits order).hits k = some v) : hits k = some v := by
  induction order generalizing hits with
  | nil => exact h
  | cons j rest ih =>
    unfold evictFrom at h
    split_ifs at h
    · have hrest := ih h
      by_cases hkj : k = j
      · subst hkj
        simp at hrest
      · rwa [Function.update_of_ne hkj] at hrest
    · exact h

/-- An eviction adds nothing. -/
theorem hits_evict {capacity : Nat} {m : BoundedMap κ ν} {k : κ} {v : ν}
    (h : (m.evict capacity).hits k = some v) : m.hits k = some v := hits_evictFrom h

end BoundedMap
