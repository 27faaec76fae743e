import BikesNest.Lib.Keyset
import Mathlib.Data.List.Perm.Basic
import Mathlib.Data.Prod.Lex
import Mathlib.Order.OrderDual

/-!
# The newest row of each group

`distinctOn group rank rows` is the query `SELECT DISTINCT ON (group) … ORDER BY group, rank
DESC`: of each group it keeps the first row, in an order that has the rows of the highest rank
in front.  `IsNewest` says what such a row is without any order.  The query finds only such
rows (`isNewest_of_mem`), one of each group (`exists_mem_distinctOn`) and no second one
(`nodup_distinctOn`), in whatever order the rows are stored.
-/

namespace Distinct

open Keyset (ordered)

variable {α β γ τ : Type}

/-- The first row of each group. -/
def firsts [DecidableEq γ] (group : α → γ) : List α → List α
  | [] => []
  | x :: xs => x :: (firsts group xs).filter fun y => decide (group y ≠ group x)

section Firsts

variable [DecidableEq γ] {group : α → γ}

theorem mem_firsts_iff {l : List α} {x : α} :
    x ∈ firsts group l ↔ l.find? (fun y => decide (group y = group x)) = some x := by
  induction l with
  | nil => simp [firsts]
  | cons a l ih =>
    rw [firsts, List.mem_cons, List.mem_filter, ih, List.find?_cons]
    by_cases hgroup : group a = group x
    · simp only [hgroup, decide_true, Option.some.injEq]
      constructor
      · intro h
        rcases h with rfl | ⟨_, hne⟩
        · rfl
        · simp at hne
      · intro h
        exact .inl h.symm
    · simp only [hgroup, decide_false]
      constructor
      · intro h
        rcases h with rfl | ⟨hfind, _⟩
        · exact absurd rfl hgroup
        · exact hfind
      · intro h
        exact .inr ⟨h, by simpa using fun heq => hgroup heq.symm⟩

theorem nodup_firsts (l : List α) : ((firsts group l).map group).Nodup := by
  induction l with
  | nil => exact .nil
  | cons a l ih =>
    rw [firsts, List.map_cons, List.nodup_cons]
    constructor
    · intro h
      obtain ⟨y, hy, heq⟩ := List.mem_map.mp h
      have hne := (List.mem_filter.mp hy).2
      simp [heq] at hne
    · exact ih.sublist (List.filter_sublist.map group)

theorem firsts_map (f : β → α) (l : List β) :
    firsts group (l.map f) = (firsts (fun x => group (f x)) l).map f := by
  induction l with
  | nil => rfl
  | cons a l ih =>
    rw [List.map_cons, firsts, ih, List.filter_map, firsts, List.map_cons]
    rfl

end Firsts

variable [LinearOrder γ] [LinearOrder τ] (group : α → γ) (rank : α → τ)

/-- The place of a row in the order of the query. -/
def place (x : α) : γ ×ₗ τᵒᵈ := toLex (group x, OrderDual.toDual (rank x))

/-- `SELECT DISTINCT ON (group) … ORDER BY group, rank DESC`. -/
def distinctOn (rows : List α) : List α := firsts group (ordered (place group rank) rows)

/-- The row stands, and none of its group ranks higher. -/
def IsNewest (rows : List α) (x : α) : Prop :=
  x ∈ rows ∧ ∀ y ∈ rows, group y = group x → rank y ≤ rank x

variable {group rank} {rows rows' : List α}

/-- In the order of the query a row comes before those of its group that it outranks. -/
theorem rank_le_of_place_le {x y : α} (hgroup : group y = group x)
    (h : place group rank x ≤ place group rank y) : rank y ≤ rank x := by
  rcases Prod.Lex.le_iff.mp h with hlt | ⟨_, hle⟩
  · exact absurd hgroup (ne_of_gt hlt)
  · exact hle

theorem isNewest_of_mem {x : α} (h : x ∈ distinctOn group rank rows) :
    IsNewest group rank rows x := by
  have hfind := mem_firsts_iff.mp h
  obtain ⟨_, before, after, hsplit, hbefore⟩ := List.find?_eq_some_iff_append.mp hfind
  have hperm : (ordered (place group rank) rows).Perm rows := Keyset.ordered_perm
  have hmem : x ∈ ordered (place group rank) rows := by
    rw [hsplit]
    exact List.mem_append_right _ List.mem_cons_self
  refine ⟨hperm.mem_iff.mp hmem, fun y hy hgroup => ?_⟩
  have hy := hperm.mem_iff.mpr hy
  rw [hsplit, List.mem_append, List.mem_cons] at hy
  rcases hy with hy | rfl | hy
  · have hother := hbefore y hy
    simp [hgroup] at hother
  · exact le_refl _
  · have hpairwise : (ordered (place group rank) rows).Pairwise fun a b =>
        place group rank a ≤ place group rank b := Keyset.ordered_pairwise
    rw [hsplit] at hpairwise
    have hfront := (List.pairwise_cons.mp (List.pairwise_append.mp hpairwise).2.1).1
    exact rank_le_of_place_le hgroup (hfront y hy)

/-- Every group has its row. -/
theorem exists_mem_distinctOn {y : α} (hy : y ∈ rows) :
    ∃ x ∈ distinctOn group rank rows, group x = group y := by
  have hmem : y ∈ ordered (place group rank) rows := Keyset.ordered_perm.mem_iff.mpr hy
  have hsome : ((ordered (place group rank) rows).find?
      fun x => decide (group x = group y)).isSome = true :=
    List.find?_isSome.mpr ⟨y, hmem, by simp⟩
  obtain ⟨x, hx⟩ := Option.isSome_iff_exists.mp hsome
  have hgroup : group x = group y := by simpa using List.find?_some hx
  refine ⟨x, mem_firsts_iff.mpr ?_, hgroup⟩
  rw [hgroup]
  exact hx

theorem nodup_distinctOn : ((distinctOn group rank rows).map group).Nodup := nodup_firsts _

/-- Where each group has one row, looking for it finds it. -/
theorem find?_eq_some_iff (h : (rows.map group).Nodup) {k : γ} {x : α} :
    (rows.find? fun y => group y == k) = some x ↔ group x = k ∧ x ∈ rows := by
  induction rows with
  | nil => simp
  | cons a rows ih =>
    rw [List.map_cons, List.nodup_cons] at h
    rw [List.find?_cons, List.mem_cons]
    by_cases hgroup : group a = k
    · have hother : ∀ y ∈ rows, group y ≠ k := fun y hy heq =>
        h.1 (List.mem_map.mpr ⟨y, hy, heq.trans hgroup.symm⟩)
      simp only [hgroup, beq_self_eq_true, Option.some.injEq]
      constructor
      · intro heq
        exact ⟨heq ▸ hgroup, .inl heq.symm⟩
      · intro hx
        rcases hx.2 with heq | hmem
        · exact heq.symm
        · exact absurd hx.1 (hother x hmem)
    · simp only [beq_false_of_ne hgroup, ih h.2]
      constructor
      · intro hx
        exact ⟨hx.1, .inr hx.2⟩
      · intro hx
        rcases hx.2 with heq | hmem
        · exact absurd (heq ▸ hx.1) hgroup
        · exact ⟨hx.1, hmem⟩

theorem distinctOn_map (f : β → α) (rows : List β) :
    distinctOn group rank (rows.map f) =
      (distinctOn (fun x => group (f x)) (fun x => rank (f x)) rows).map f := by
  have hordered : (ordered (place (fun x => group (f x)) fun x => rank (f x)) rows).map f =
      ordered (place group rank) (rows.map f) :=
    List.map_insertionSort _ _ f rows fun _ _ _ _ => Iff.rfl
  rw [distinctOn, ← hordered, firsts_map]
  rfl

end Distinct
