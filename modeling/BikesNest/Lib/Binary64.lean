import BikesNest.Lib.Grid
import Mathlib.Algebra.Order.Floor.Semiring
import Mathlib.Data.Nat.Log
import Mathlib.Data.Rat.Floor

/-!
# The numbers of binary64

The numbers of IEEE binary64 that are not negative are a grid: their index is the 64-bit
pattern, `2 ^ 52` of them for each exponent.  `units n` is the number of the pattern `n` in
units of `2 ^ -1074`, the smallest of them.  The exponents go on without end here, so a
number that overflows is one from `2 ^ 1024` on.

`binary64.round` is rounding to nearest with ties to even, subnormal numbers included, and
`abs_round_sub_le` its error above the subnormal numbers.
-/

namespace Binary64

/-- The exponent of a pattern, from the smallest one on. -/
def shift (n : Nat) : Nat := n / 2 ^ 52 - 1

/-- A number in units of the smallest one. -/
def units (n : Nat) : Nat := (if n < 2 ^ 52 then n else 2 ^ 52 + n % 2 ^ 52) * 2 ^ shift n

/-- The last pattern up to so many units. -/
def floorUnits (u : Nat) : Nat := (u.log2 - 52) * 2 ^ 52 + u / 2 ^ (u.log2 - 52)

theorem units_succ (n : Nat) : units (n + 1) = units n + 2 ^ shift n := by
  obtain ⟨j, r, hr, rfl⟩ : ∃ j r, r < 2 ^ 52 ∧ n = 2 ^ 52 * j + r :=
    ⟨n / 2 ^ 52, n % 2 ^ 52, Nat.mod_lt _ (by decide), (Nat.div_add_mod ..).symm⟩
  have hdiv : (2 ^ 52 * j + r) / 2 ^ 52 = j := by omega
  have hmod : (2 ^ 52 * j + r) % 2 ^ 52 = r := by omega
  rcases Nat.lt_or_ge (r + 1) (2 ^ 52) with hin | hout
  · have hdiv' : (2 ^ 52 * j + r + 1) / 2 ^ 52 = j := by omega
    have hmod' : (2 ^ 52 * j + r + 1) % 2 ^ 52 = r + 1 := by omega
    unfold units shift
    rw [hdiv, hdiv', hmod, hmod']
    cases j with
    | zero =>
      rw [if_pos (show 2 ^ 52 * 0 + r + 1 < 2 ^ 52 by omega),
        if_pos (show 2 ^ 52 * 0 + r < 2 ^ 52 by omega)]
      ring
    | succ j =>
      rw [if_neg (show ¬ 2 ^ 52 * (j + 1) + r + 1 < 2 ^ 52 by omega),
        if_neg (show ¬ 2 ^ 52 * (j + 1) + r < 2 ^ 52 by omega)]
      ring
  · have hdiv' : (2 ^ 52 * j + r + 1) / 2 ^ 52 = j + 1 := by omega
    have hmod' : (2 ^ 52 * j + r + 1) % 2 ^ 52 = 0 := by omega
    have hlast : r + 1 = 2 ^ 52 := by omega
    unfold units shift
    rw [hdiv, hdiv', hmod, hmod', if_neg (show ¬ 2 ^ 52 * j + r + 1 < 2 ^ 52 by omega)]
    cases j with
    | zero =>
      rw [if_pos (show 2 ^ 52 * 0 + r < 2 ^ 52 by omega), ← hlast]
      ring
    | succ j =>
      rw [if_neg (show ¬ 2 ^ 52 * (j + 1) + r < 2 ^ 52 by omega), Nat.add_sub_cancel,
        Nat.add_sub_cancel, ← hlast]
      ring

theorem strictMono_units : StrictMono units :=
  strictMono_nat_of_lt_succ fun n => by
    rw [units_succ]
    exact Nat.lt_add_of_pos_right (Nat.two_pow_pos _)

/-- The last pattern and its exponent. -/
theorem units_floorUnits (u : Nat) :
    units (floorUnits u) = u / 2 ^ (u.log2 - 52) * 2 ^ (u.log2 - 52) ∧
      shift (floorUnits u) = u.log2 - 52 := by
  rcases Nat.lt_or_ge u (2 ^ 53) with hlow | hhigh
  · have hlog : u.log2 - 52 = 0 := by
      rcases Nat.eq_zero_or_pos u with rfl | hpos
      · decide
      · have := (Nat.log2_lt hpos.ne').mpr hlow
        omega
    have hfloor : floorUnits u = u := by
      unfold floorUnits
      rw [hlog]
      simp
    have hshift : shift u = 0 := by
      unfold shift
      omega
    rw [hfloor, hlog, hshift]
    refine ⟨?_, rfl⟩
    unfold units
    rw [hshift]
    split
    · simp
    · simp only [pow_zero, Nat.mul_one, Nat.div_one]
      omega
  · have hpos : u ≠ 0 := by
      intro hzero
      rw [hzero] at hhigh
      exact absurd hhigh (by decide)
    have hlog : 53 ≤ u.log2 := (Nat.le_log2 hpos).mpr hhigh
    obtain ⟨s, hs⟩ : ∃ s, u.log2 = s + 1 + 52 := ⟨u.log2 - 53, by omega⟩
    have hlow : 2 ^ 52 * 2 ^ (s + 1) ≤ u := by
      rw [← pow_add, Nat.add_comm 52, ← hs]
      exact Nat.log2_self_le hpos
    have hup : u < 2 ^ 53 * 2 ^ (s + 1) := by
      rw [← pow_add, show 53 + (s + 1) = u.log2 + 1 by omega]
      exact Nat.lt_log2_self
    have hlow' : 2 ^ 52 ≤ u / 2 ^ (s + 1) := (Nat.le_div_iff_mul_le (Nat.two_pow_pos _)).mpr hlow
    have hup' : u / 2 ^ (s + 1) < 2 ^ 53 := (Nat.div_lt_iff_lt_mul (Nat.two_pow_pos _)).mpr hup
    have hfloor : floorUnits u = (s + 1) * 2 ^ 52 + u / 2 ^ (s + 1) := by
      unfold floorUnits
      rw [hs, Nat.add_sub_cancel]
    rw [hfloor, hs, Nat.add_sub_cancel]
    generalize u / 2 ^ (s + 1) = t at hlow' hup'
    have hdiv : ((s + 1) * 2 ^ 52 + t) / 2 ^ 52 = s + 2 := by omega
    have hmod : ((s + 1) * 2 ^ 52 + t) % 2 ^ 52 = t - 2 ^ 52 := by omega
    have hshift : shift ((s + 1) * 2 ^ 52 + t) = s + 1 := by
      unfold shift
      rw [hdiv]
      rfl
    refine ⟨?_, hshift⟩
    unfold units
    rw [hshift, hmod, if_neg (show ¬ (s + 1) * 2 ^ 52 + t < 2 ^ 52 by omega),
      Nat.add_sub_cancel' hlow']

theorem le_floorUnits {n u : Nat} : n ≤ floorUnits u ↔ units n ≤ u := by
  obtain ⟨hunits, hshift⟩ := units_floorUnits u
  have hpos : 0 < 2 ^ (u.log2 - 52) := Nat.two_pow_pos _
  constructor
  · intro h
    refine (strictMono_units.monotone h).trans ?_
    rw [hunits]
    exact Nat.div_mul_le_self ..
  · intro h
    by_contra hlt
    have hnext : units (floorUnits u + 1) ≤ units n := strictMono_units.monotone (not_le.mp hlt)
    rw [units_succ, hunits, hshift] at hnext
    have hmod := Nat.div_add_mod u (2 ^ (u.log2 - 52))
    have hrem := Nat.mod_lt u hpos
    rw [Nat.mul_comm] at hmod
    omega

end Binary64

open Binary64 in
/-- The numbers that are not negative. -/
def binary64 : Grid Rat where
  val n := units n / 2 ^ 1074
  floor q := floorUnits ⌊q * 2 ^ 1074⌋₊
  val_zero := by simp [units]
  strictMono n m h := by
    have hunits : (units n : Rat) < units m := by exact_mod_cast strictMono_units h
    exact div_lt_div_of_pos_right hunits (by positivity)
  le_floor {q n} hq := by
    rw [le_floorUnits, Nat.le_floor_iff (by positivity), div_le_iff₀ (by positivity)]

namespace Binary64

/-- The distance to the next number, above the subnormal ones. -/
theorem val_succ_sub_le {n : Nat} (hn : 2 ^ 52 ≤ n) :
    binary64.val (n + 1) - binary64.val n ≤ binary64.val n / 2 ^ 52 := by
  have hunits : 2 ^ 52 * 2 ^ shift n ≤ units n := by
    unfold units
    rw [if_neg (not_lt.mpr hn)]
    exact Nat.mul_le_mul_right _ (Nat.le_add_right ..)
  have hcast : (2 ^ 52 * 2 ^ shift n : Rat) ≤ units n := by exact_mod_cast hunits
  show (units (n + 1) : Rat) / 2 ^ 1074 - units n / 2 ^ 1074 ≤ units n / 2 ^ 1074 / 2 ^ 52
  rw [units_succ, Nat.cast_add, Nat.cast_pow, Nat.cast_ofNat, ← sub_div, add_sub_cancel_left,
    div_right_comm]
  gcongr
  rw [le_div_iff₀ (by positivity), mul_comm]
  exact hcast

/-- Above the subnormal numbers the error of rounding is relative. -/
theorem abs_round_sub_le {q : Rat} (hq : 1 / 2 ^ 1022 ≤ q) :
    |binary64.round q - q| ≤ q / 2 ^ 53 := by
  have hpos : 0 ≤ q := le_trans (by positivity) hq
  have hnormal : 2 ^ 52 ≤ binary64.floor q := by
    rw [binary64.le_floor hpos]
    refine le_trans (le_of_eq ?_) hq
    show (units (2 ^ 52) : Rat) / 2 ^ 1074 = 1 / 2 ^ 1022
    rw [show units (2 ^ 52) = 2 ^ 52 by decide, Nat.cast_pow, Nat.cast_ofNat,
      show 1074 = 52 + 1022 from rfl, pow_add, div_mul_cancel_left₀ (by positivity), one_div]
  calc |binary64.round q - q|
      ≤ (binary64.val (binary64.floor q + 1) - binary64.val (binary64.floor q)) / 2 :=
        Grid.abs_round_sub_le hpos
    _ ≤ binary64.val (binary64.floor q) / 2 ^ 52 / 2 := by
        gcongr
        exact val_succ_sub_le hnormal
    _ ≤ q / 2 ^ 52 / 2 := by
        gcongr
        exact Grid.val_floor_le hpos
    _ = q / 2 ^ 53 := by
        rw [div_div]
        norm_num

end Binary64
