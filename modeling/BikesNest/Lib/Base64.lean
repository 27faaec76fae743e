import Mathlib.Data.List.Basic

/-!
# Base64 without padding

Bytes as digits of six bits, over any alphabet.  The reader refuses a digit that is left over
and bits that are left over.  `decode_encode` is the round trip, and `mem_encode` says of which
characters a text is made.
-/

namespace Base64

/-- The digits, and the value of each. -/
structure Alphabet where
  digit : Nat → Char
  value : Char → Option Nat
  value_eq_some_iff : ∀ {c : Char} {n : Nat}, value c = some n ↔ n < 64 ∧ digit n = c

namespace Alphabet

variable (A : Alphabet)

theorem value_digit {n : Nat} (h : n < 64) : A.value (A.digit n) = some n :=
  A.value_eq_some_iff.mpr ⟨h, rfl⟩

/-- Three bytes are four digits, and what is left over is two or three. -/
def encode : List UInt8 → List Char
  | [] => []
  | [a] => [A.digit (a.toNat / 4), A.digit (a.toNat % 4 * 16)]
  | [a, b] => [A.digit (a.toNat / 4), A.digit (a.toNat % 4 * 16 + b.toNat / 16),
      A.digit (b.toNat % 16 * 4)]
  | a :: b :: c :: rest => A.digit (a.toNat / 4) :: A.digit (a.toNat % 4 * 16 + b.toNat / 16) ::
      A.digit (b.toNat % 16 * 4 + c.toNat / 64) :: A.digit (c.toNat % 64) :: encode rest

/-- The bytes of a text, if it is one that is written. -/
def decode : List Char → Option (List UInt8)
  | [] => some []
  | [_] => none
  | [a, b] => do
    let a ← A.value a
    let b ← A.value b
    if b % 16 = 0 then return [.ofNat (a * 4 + b / 16)] else none
  | [a, b, c] => do
    let a ← A.value a
    let b ← A.value b
    let c ← A.value c
    if c % 4 = 0 then return [.ofNat (a * 4 + b / 16), .ofNat (b % 16 * 16 + c / 4)] else none
  | a :: b :: c :: d :: rest => do
    let a ← A.value a
    let b ← A.value b
    let c ← A.value c
    let d ← A.value d
    let bytes ← decode rest
    return .ofNat (a * 4 + b / 16) :: .ofNat (b % 16 * 16 + c / 4) :: .ofNat (c % 4 * 64 + d) ::
      bytes

/-- A text is made of digits. -/
theorem mem_encode (bytes : List UInt8) : ∀ c ∈ A.encode bytes, ∃ n < 64, c = A.digit n := by
  fun_induction encode A bytes with
  | case1 => exact fun c hc => by cases hc
  | case2 a =>
    have ha := a.toNat_lt
    intro c hc
    simp only [List.mem_cons, List.not_mem_nil, or_false] at hc
    rcases hc with rfl | rfl
    · exact ⟨_, by omega, rfl⟩
    · exact ⟨_, by omega, rfl⟩
  | case3 a b =>
    have ha := a.toNat_lt
    have hb := b.toNat_lt
    intro c hc
    simp only [List.mem_cons, List.not_mem_nil, or_false] at hc
    rcases hc with rfl | rfl | rfl
    · exact ⟨_, by omega, rfl⟩
    · exact ⟨_, by omega, rfl⟩
    · exact ⟨_, by omega, rfl⟩
  | case4 a b c rest ih =>
    have ha := a.toNat_lt
    have hb := b.toNat_lt
    have hc := c.toNat_lt
    intro d hd
    simp only [List.mem_cons] at hd
    rcases hd with rfl | rfl | rfl | rfl | hd
    · exact ⟨_, by omega, rfl⟩
    · exact ⟨_, by omega, rfl⟩
    · exact ⟨_, by omega, rfl⟩
    · exact ⟨_, by omega, rfl⟩
    · exact ih d hd

/-- A number of one byte. -/
theorem ofNat_eq {n : Nat} {b : UInt8} (h : n = b.toNat) : UInt8.ofNat n = b := by
  rw [h, UInt8.ofNat_toNat]

/-- Reading undoes writing. -/
theorem decode_encode (bytes : List UInt8) : A.decode (A.encode bytes) = some bytes := by
  fun_induction encode A bytes with
  | case1 => rfl
  | case2 a =>
    have ha := a.toNat_lt
    have hbyte : UInt8.ofNat (a.toNat / 4 * 4 + a.toNat % 4 * 16 / 16) = a := ofNat_eq (by omega)
    have hleft : a.toNat % 4 * 16 % 16 = 0 := by omega
    rw [decode, A.value_digit (by omega), A.value_digit (by omega)]
    simp only [Option.bind_eq_bind, Option.bind_some, if_pos hleft, hbyte, Option.pure_def]
  | case3 a b =>
    have ha := a.toNat_lt
    have hb := b.toNat_lt
    have hfirst : UInt8.ofNat (a.toNat / 4 * 4 + (a.toNat % 4 * 16 + b.toNat / 16) / 16) = a :=
      ofNat_eq (by omega)
    have hsecond : UInt8.ofNat ((a.toNat % 4 * 16 + b.toNat / 16) % 16 * 16 +
        b.toNat % 16 * 4 / 4) = b := ofNat_eq (by omega)
    have hleft : b.toNat % 16 * 4 % 4 = 0 := by omega
    rw [decode, A.value_digit (by omega), A.value_digit (by omega), A.value_digit (by omega)]
    simp only [Option.bind_eq_bind, Option.bind_some, if_pos hleft, hfirst, hsecond,
      Option.pure_def]
  | case4 a b c rest ih =>
    have ha := a.toNat_lt
    have hb := b.toNat_lt
    have hc := c.toNat_lt
    have hfirst : UInt8.ofNat (a.toNat / 4 * 4 + (a.toNat % 4 * 16 + b.toNat / 16) / 16) = a :=
      ofNat_eq (by omega)
    have hsecond : UInt8.ofNat ((a.toNat % 4 * 16 + b.toNat / 16) % 16 * 16 +
        (b.toNat % 16 * 4 + c.toNat / 64) / 4) = b := ofNat_eq (by omega)
    have hthird : UInt8.ofNat ((b.toNat % 16 * 4 + c.toNat / 64) % 4 * 64 + c.toNat % 64) = c :=
      ofNat_eq (by omega)
    rw [decode, A.value_digit (by omega), A.value_digit (by omega), A.value_digit (by omega),
      A.value_digit (by omega), ih]
    simp only [Option.bind_eq_bind, Option.bind_some, hfirst, hsecond, hthird, Option.pure_def]

end Alphabet

end Base64
