import Mathlib.Algebra.Order.Field.Rat
import Mathlib.Data.Finset.Card

/-!
# The Jaccard similarity of finite sets

The size of the intersection over the size of the union.  It is symmetric, lies
between zero and one, and is one exactly for equal sets that are not empty.  A set
is determined by its similarities (`eq_of_jaccard_eq`).
-/

variable {α : Type} [DecidableEq α]

/-- Two empty sets have similarity zero. -/
def jaccard (s t : Finset α) : Rat := ((s ∩ t).card : Rat) / (s ∪ t).card

theorem jaccard_comm (s t : Finset α) : jaccard s t = jaccard t s := by
  rw [jaccard, jaccard, Finset.inter_comm, Finset.union_comm]

theorem card_inter_le_card_union (s t : Finset α) : (s ∩ t).card ≤ (s ∪ t).card :=
  Finset.card_le_card (Finset.inter_subset_left.trans Finset.subset_union_left)

theorem jaccard_nonneg (s t : Finset α) : 0 ≤ jaccard s t :=
  div_nonneg (Nat.cast_nonneg _) (Nat.cast_nonneg _)

theorem jaccard_le_one (s t : Finset α) : jaccard s t ≤ 1 :=
  div_le_one_of_le₀ (Nat.cast_le.mpr (card_inter_le_card_union s t)) (Nat.cast_nonneg _)

theorem jaccard_self {s : Finset α} (h : s.Nonempty) : jaccard s s = 1 := by
  rw [jaccard, Finset.inter_self, Finset.union_self]
  exact div_self (Nat.cast_ne_zero.mpr h.card_pos.ne')

theorem jaccard_eq_one_iff {s t : Finset α} : jaccard s t = 1 ↔ s = t ∧ s.Nonempty := by
  refine ⟨?_, ?_⟩
  · intro h
    have hunion : ((s ∪ t).card : Rat) ≠ 0 := by
      intro hzero
      rw [jaccard, hzero, div_zero] at h
      exact absurd h (by decide)
    have hcard : (s ∩ t).card = (s ∪ t).card := Nat.cast_injective ((div_eq_one_iff_eq hunion).mp h)
    have hsets : s ∩ t = s ∪ t :=
      Finset.eq_of_subset_of_card_le (Finset.inter_subset_left.trans Finset.subset_union_left)
        hcard.ge
    have hst : s = t := inf_eq_sup.mp hsets
    subst hst
    refine ⟨rfl, Finset.card_ne_zero.mp ?_⟩
    rw [Finset.union_self] at hunion
    exact Nat.cast_ne_zero.mp hunion
  · rintro ⟨rfl, h⟩
    exact jaccard_self h

/-- Sets that are as similar to each other as to themselves are equal. -/
theorem eq_of_jaccard_eq {s t : Finset α} (hs : jaccard t s = jaccard s s)
    (ht : jaccard s t = jaccard t t) : s = t := by
  rcases s.eq_empty_or_nonempty with rfl | hnonempty
  · rcases t.eq_empty_or_nonempty with rfl | hnonempty
    · rfl
    · exact (jaccard_eq_one_iff.mp (ht.trans (jaccard_self hnonempty))).1
  · exact (jaccard_eq_one_iff.mp (hs.trans (jaccard_self hnonempty))).1.symm
