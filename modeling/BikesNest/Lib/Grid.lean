import Mathlib.Algebra.Order.Archimedean.Basic
import Mathlib.Algebra.Order.Field.Basic
import Mathlib.Order.Monotone.Basic
import Mathlib.Tactic.Linarith
import Mathlib.Tactic.Ring

/-!
# Rounding to a grid

A grid is an increasing sequence of numbers from zero on, with the index of the last of them
up to any number.  `Grid.round` takes a number to the nearest of the grid, and of two that
are as near to the one with the even index.

`lt_nearest_iff` says from where on a number is rounded past the index `n`: from the middle
between the numbers `n` and `n + 1` on (`Past`).  A step that goes from the grid through a
monotone function back to the grid has such a point too: `Grid.last` is the last index that
it leaves below a bound, and `le_round_iff_past` says what it takes to the bound or beyond.
-/

/-- An increasing sequence from zero on; `floor q` is the last index up to `q`. -/
structure Grid (K : Type) [Field K] [LinearOrder K] [IsStrictOrderedRing K] where
  val : Nat → K
  floor : K → Nat
  val_zero : val 0 = 0
  strictMono : StrictMono val
  le_floor : ∀ {q n}, 0 ≤ q → (n ≤ floor q ↔ val n ≤ q)

namespace Grid

variable {K : Type} [Field K] [LinearOrder K] [IsStrictOrderedRing K] (G : Grid K) {q q' : K}
  {n m : Nat}

/-- The middle between a number of the grid and the next. -/
def middle (n : Nat) : K := (G.val n + G.val (n + 1)) / 2

/-- The number is rounded past `n`: it lies past the middle, or on it with `n` odd. -/
def Past (n : Nat) (q : K) : Prop := G.middle n < q ∨ G.middle n = q ∧ n % 2 = 1

instance : Decidable (G.Past n q) := inferInstanceAs (Decidable (_ ∨ _))

/-- The index of the nearest number. -/
def nearest (q : K) : Nat := if G.Past (G.floor q) q then G.floor q + 1 else G.floor q

def round (q : K) : K := G.val (G.nearest q)

variable {G}

theorem val_nonneg (n : Nat) : 0 ≤ G.val n := by
  rw [← G.val_zero]
  exact G.strictMono.monotone (Nat.zero_le n)

theorem val_floor_le (hq : 0 ≤ q) : G.val (G.floor q) ≤ q := (G.le_floor hq).mp le_rfl

theorem lt_val_floor_succ (hq : 0 ≤ q) : q < G.val (G.floor q + 1) :=
  not_le.mp fun h => Nat.not_succ_le_self _ ((G.le_floor hq).mpr h)

theorem val_lt_middle (n : Nat) : G.val n < G.middle n := by
  have := G.strictMono (Nat.lt_succ_self n)
  unfold middle
  linarith

theorem middle_lt_val (n : Nat) : G.middle n < G.val (n + 1) := by
  have := G.strictMono (Nat.lt_succ_self n)
  unfold middle
  linarith

theorem Past.val_lt (h : G.Past n q) : G.val n < q := by
  rcases h with hlt | ⟨heq, _⟩
  · exact (val_lt_middle n).trans hlt
  · exact heq ▸ val_lt_middle n

theorem past_of_val_le (h : G.val (n + 1) ≤ q) : G.Past n q :=
  .inl ((middle_lt_val n).trans_le h)

/-- A number is rounded past `n` from the middle on. -/
theorem lt_nearest_iff (hq : 0 ≤ q) : n < G.nearest q ↔ G.Past n q := by
  have hfloor := val_floor_le (G := G) hq
  have hnext := lt_val_floor_succ (G := G) hq
  rcases Nat.lt_trichotomy n (G.floor q) with hlt | rfl | hlt
  · have hpast : G.Past n q := past_of_val_le ((G.strictMono.monotone hlt).trans hfloor)
    refine iff_of_true ?_ hpast
    unfold nearest
    split <;> omega
  · unfold nearest
    split
    · exact iff_of_true (Nat.lt_succ_self _) (by assumption)
    · exact iff_of_false (Nat.lt_irrefl _) (by assumption)
  · refine iff_of_false ?_ fun hpast => ?_
    · unfold nearest
      split <;> omega
    · exact absurd (hnext.trans_le (G.strictMono.monotone hlt)) (not_lt.mpr hpast.val_lt.le)

theorem nearest_mono (hq : 0 ≤ q) (h : q ≤ q') : G.nearest q ≤ G.nearest q' := by
  by_contra hlt
  have hpast := (lt_nearest_iff hq).mp (not_le.mp hlt)
  refine absurd ((lt_nearest_iff (hq.trans h)).mpr ?_) (lt_irrefl (G.nearest q'))
  rcases hpast with hmiddle | ⟨hmiddle, hodd⟩
  · exact .inl (hmiddle.trans_le h)
  · rcases h.eq_or_lt with rfl | hlt
    · exact .inr ⟨hmiddle, hodd⟩
    · exact .inl (hmiddle ▸ hlt)

theorem round_mono (hq : 0 ≤ q) (h : q ≤ q') : G.round q ≤ G.round q' :=
  G.strictMono.monotone (nearest_mono hq h)

theorem round_nonneg (q : K) : 0 ≤ G.round q := val_nonneg _

theorem nearest_val (n : Nat) : G.nearest (G.val n) = n := by
  have hn := val_nonneg (G := G) n
  refine le_antisymm (not_lt.mp fun hlt => ?_) ?_
  · exact absurd ((lt_nearest_iff hn).mp hlt).val_lt (lt_irrefl _)
  · cases n with
    | zero => exact Nat.zero_le _
    | succ n => exact (lt_nearest_iff hn).mpr (past_of_val_le le_rfl)

/-- The numbers of the grid stay. -/
theorem round_val (n : Nat) : G.round (G.val n) = G.val n := congrArg G.val (nearest_val n)

/-- Rounding moves a number by half the distance to the next at most. -/
theorem abs_round_sub_le (hq : 0 ≤ q) :
    |G.round q - q| ≤ (G.val (G.floor q + 1) - G.val (G.floor q)) / 2 := by
  have hfloor := val_floor_le (G := G) hq
  have hnext := lt_val_floor_succ (G := G) hq
  by_cases hpast : G.Past (G.floor q) q
  · have hle : G.middle (G.floor q) ≤ q := by
      rcases hpast with h | h
      · exact h.le
      · exact h.1.le
    rw [round, nearest, if_pos hpast, abs_of_nonneg (by linarith)]
    unfold middle at hle
    linarith
  · have hle : q ≤ G.middle (G.floor q) := not_lt.mp fun h => hpast (.inl h)
    rw [round, nearest, if_neg hpast, abs_of_nonpos (by linarith)]
    unfold middle at hle
    linarith

/-! ## Through a function and back -/

section Through

variable {f : K → K} {bound : K} (hf : ∀ q q', 0 ≤ q → q ≤ q' → f q ≤ f q')
  (hex : ∃ n, bound ≤ f (G.val n))

/-- The last index that the function leaves below the bound. -/
def last (hex : ∃ n, bound ≤ f (G.val n)) : Nat := Nat.find hex - 1

include hf

/-- What is rounded and taken to the bound or beyond lies past the last number below it. -/
theorem le_round_iff_past (hzero : f 0 < bound) (hq : 0 ≤ q) :
    bound ≤ f (G.round q) ↔ G.Past (last hex) q := by
  have hpos : 0 < Nat.find hex := by
    refine Nat.pos_of_ne_zero fun hfirst => ?_
    have hspec := Nat.find_spec hex
    rw [hfirst, G.val_zero] at hspec
    exact absurd hzero (not_lt.mpr hspec)
  rw [← lt_nearest_iff hq]
  constructor
  · intro h
    have hle : Nat.find hex ≤ G.nearest q := Nat.find_min' hex h
    unfold last
    omega
  · intro h
    have hle : Nat.find hex ≤ G.nearest q := by
      unfold last at h
      omega
    exact (Nat.find_spec hex).trans (hf _ _ (val_nonneg _) (G.strictMono.monotone hle))

end Through

end Grid
