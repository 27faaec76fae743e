import BikesNest.Auth.Accounts
import BikesNest.Jobs.Schedule

/-!
# Session ids as text

`SessionId::to_hex` writes the 32 bytes of a session id as 64 hexadecimal digits
in lower case, and `SessionId::from_hex` reads a cookie value back: it cuts the
text at every second byte and hands each piece to `u8::from_str_radix`.  That
parser also takes upper-case digits and a sign in front of one digit, and cutting
a text inside of a character panics.

`readsOnlyHex_iff` says for which texts `fromHex` does what its comment says.
-/

namespace BikesNest.Auth.SessionId

open Jobs (Call)

deriving instance DecidableEq for Jobs.Call

/-! ## Texts as bytes -/

/-- `str`: bytes that are the UTF-8 of some characters. -/
structure Str where
  bytes : List UInt8
  valid : ∃ chars : List Char, bytes = chars.flatMap String.utf8EncodeChar

def Str.ofChars (chars : List Char) : Str := ⟨chars.flatMap String.utf8EncodeChar, chars, rfl⟩

theorem Str.ext {s t : Str} (h : s.bytes = t.bytes) : s = t := by
  cases s
  cases t
  cases h
  rfl

/-- `str::is_char_boundary`: not in front of a continuation byte. -/
def isCharBoundary (bytes : List UInt8) (i : Nat) : Bool :=
  match bytes[i]? with
  | some b => b < 0x80 || 0xC0 ≤ b
  | none => i = bytes.length

/-- `&s[i..i + 2]` -/
def pair (bytes : List UInt8) (i : Nat) : Call (List UInt8) :=
  if isCharBoundary bytes i && isCharBoundary bytes (i + 2) then
    .returned ((bytes.drop i).take 2)
  else .panicked

/-! ## Digits -/

/-- The two digits that `{b:02x}` writes. -/
def hexDigit (n : Nat) : Char := Char.ofNat (if n < 10 then 48 + n else 87 + n)

/-- `bytes_to_hex`. -/
def bytesToHex (bytes : List UInt8) : List Char :=
  bytes.flatMap fun b => [hexDigit (b.toNat / 16), hexDigit (b.toNat % 16)]

/-- `SessionId::to_hex`. -/
def toHex (id : Token) : Str := .ofChars (bytesToHex id.bytes)

/-- `char::to_digit(16)` of a byte. -/
def toDigit (b : UInt8) : Option Nat :=
  let n := b.toNat
  if 48 ≤ n ∧ n ≤ 57 then some (n - 48)
  else if 97 ≤ n ∧ n ≤ 102 then some (n - 87)
  else if 65 ≤ n ∧ n ≤ 70 then some (n - 55)
  else none

/-- The digits of a number below 256. -/
def readDigits : Nat → List UInt8 → Option UInt8
  | value, [] => some (UInt8.ofNat value)
  | value, b :: rest =>
    match toDigit b with
    | none => none
    | some digit =>
      if value * 16 + digit < 256 then readDigits (value * 16 + digit) rest else none

/-- `u8::from_str_radix(src, 16)`: a plus sign may stand in front. -/
def fromStrRadix (src : List UInt8) : Option UInt8 :=
  if src = [] ∨ src = [43] ∨ src = [45] then none
  else readDigits 0 (if src.head? = some 43 then src.tail else src)

/-! ## Reading -/

/-- The closure of `from_hex`. -/
def readPair (bytes : List UInt8) (i : Nat) : Call (Option UInt8) :=
  match pair bytes (i * 2) with
  | .panicked => .panicked
  | .returned src => .returned (fromStrRadix src)

/-- Collecting `f i`, `f (i + 1)` and so on into an `Option` stops at the first
`None`. -/
def collect (f : Nat → Call (Option UInt8)) (i : Nat) : Nat → Call (Option (List UInt8))
  | 0 => .returned (some [])
  | n + 1 =>
    match f i with
    | .panicked => .panicked
    | .returned none => .returned none
    | .returned (some b) =>
      match collect f (i + 1) n with
      | .panicked => .panicked
      | .returned none => .returned none
      | .returned (some bytes) => .returned (some (b :: bytes))

/-- `SessionId::from_hex`. -/
def fromHex (s : Str) : Call (Option Token) :=
  if s.bytes.length ≠ 64 then .returned none
  else
    match collect (readPair s.bytes) 0 32 with
    | .panicked => .panicked
    | .returned none => .returned none
    | .returned (some bytes) =>
      if h : bytes.length = 32 then .returned (some ⟨bytes, h⟩) else .panicked

/-! ## What a text should mean -/

/-- `from_hex` returns, and answers an id for the text that `to_hex` writes for
it and for no other. -/
def ReadsOnlyHex (s : Str) : Prop :=
  fromHex s ≠ .panicked ∧ ∀ id, fromHex s = .returned (some id) ↔ s = toHex id

def isLowerHex (b : UInt8) : Bool := (48 ≤ b && b ≤ 57) || (97 ≤ b && b ≤ 102)

def isHexDigit (b : UInt8) : Bool := isLowerHex b || (65 ≤ b && b ≤ 70)

/-- Two digits in either case, or a plus sign and a digit. -/
def isNumber : List UInt8 → Bool
  | [x, y] => (isHexDigit x || x = 43) && isHexDigit y
  | _ => false

/-- The pair at `2 * i` begins and ends between two characters. -/
def Cuttable (bytes : List UInt8) (i : Nat) : Prop :=
  isCharBoundary bytes (i * 2) = true ∧ isCharBoundary bytes (i * 2 + 2) = true

/-- 64 lower-case digits, a text of another length, or a text whose first pair
that is no number can be cut out of it. -/
def Plain (s : Str) : Prop :=
  s.bytes.length = 64 →
    (∀ b ∈ s.bytes, isLowerHex b = true) ∨
    ∃ i < 32,
      (Cuttable s.bytes i ∧ isNumber ((s.bytes.drop (i * 2)).take 2) = false) ∧
      ∀ j < i, Cuttable s.bytes j ∧ isNumber ((s.bytes.drop (j * 2)).take 2) = true

/-! ## Collecting -/

/-- Three ways to end: at the end, at a `None` and at a panic. -/
inductive Collected (f : Nat → Call (Option UInt8)) (i n : Nat) :
    Call (Option (List UInt8)) → Prop where
  | all {bytes : List UInt8} (hlength : bytes.length = n)
      (h : ∀ k < n, f (i + k) = .returned bytes[k]?) : Collected f i n (.returned (some bytes))
  | stopped {k : Nat} (hk : k < n) (hbefore : ∀ j < k, ∃ b, f (i + j) = .returned (some b))
      (h : f (i + k) = .returned none) : Collected f i n (.returned none)
  | cut {k : Nat} (hk : k < n) (h : f (i + k) = .panicked) : Collected f i n .panicked

theorem collected (f : Nat → Call (Option UInt8)) (i n : Nat) :
    Collected f i n (collect f i n) := by
  induction n generalizing i with
  | zero => exact .all rfl (by omega)
  | succ n ih =>
    have hrest := ih (i + 1)
    unfold collect
    cases hi : f i with
    | panicked => exact .cut (Nat.succ_pos n) hi
    | returned read =>
      cases read with
      | none => exact .stopped (Nat.succ_pos n) (by omega) hi
      | some b =>
        dsimp only
        generalize collect f (i + 1) n = r at hrest
        cases hrest with
        | all hlength h =>
          refine .all (by simp [hlength]) ?_
          intro k hk
          cases k with
          | zero => exact hi
          | succ k =>
            rw [show i + (k + 1) = i + 1 + k by omega]
            exact h k (by omega)
        | @stopped k hk hbefore h =>
          refine .stopped (k := k + 1) (by omega) ?_ (by rw [← h]; congr 1; omega)
          intro j hj
          cases j with
          | zero => exact ⟨b, hi⟩
          | succ j =>
            rw [show i + (j + 1) = i + 1 + j by omega]
            exact hbefore j (by omega)
        | @cut k hk h => exact .cut (k := k + 1) (by omega) (by rw [← h]; congr 1; omega)

/-- The first `None` decides. -/
theorem collect_eq_none {f : Nat → Call (Option UInt8)} {i n k : Nat} (hk : k < n)
    (hbefore : ∀ j < k, ∃ b, f (i + j) = .returned (some b)) (h : f (i + k) = .returned none) :
    collect f i n = .returned none := by
  induction k generalizing i n with
  | zero =>
    obtain ⟨n, rfl⟩ : ∃ m, n = m + 1 := ⟨n - 1, by omega⟩
    simp only [collect, show f i = .returned none from h]
  | succ k ih =>
    obtain ⟨n, rfl⟩ : ∃ m, n = m + 1 := ⟨n - 1, by omega⟩
    obtain ⟨b, hb⟩ := hbefore 0 (Nat.succ_pos k)
    have hrest : collect f (i + 1) n = .returned none := by
      refine ih (by omega) ?_ (by rw [← h]; congr 1; omega)
      intro j hj
      obtain ⟨c, hc⟩ := hbefore (j + 1) (by omega)
      exact ⟨c, by rw [← hc]; congr 1; omega⟩
    simp only [collect, show f i = .returned (some b) from hb, hrest]

/-! ## Pairs of digits -/

/-- `hexDigit` as a byte. -/
def hexByte (n : Nat) : UInt8 := UInt8.ofNat (if n < 10 then 48 + n else 87 + n)

theorem utf8_hexDigit {n : Nat} (h : n < 16) :
    String.utf8EncodeChar (hexDigit n) = [hexByte n] := by
  have hdigits : ∀ n < 16, String.utf8EncodeChar (hexDigit n) = [hexByte n] := by decide
  exact hdigits n h

theorem isLowerHex_hexByte {n : Nat} (h : n < 16) : isLowerHex (hexByte n) = true := by
  have hdigits : ∀ n < 16, isLowerHex (hexByte n) = true := by decide
  exact hdigits n h

theorem toDigit_hexByte {n : Nat} (h : n < 16) : toDigit (hexByte n) = some n := by
  have hdigits : ∀ n < 16, toDigit (hexByte n) = some n := by decide
  exact hdigits n h

theorem hexByte_ne_plus {n : Nat} (h : n < 16) : hexByte n ≠ 43 := by
  have hdigits : ∀ n < 16, hexByte n ≠ 43 := by decide
  exact hdigits n h

theorem lt_of_isLowerHex {b : UInt8} (h : isLowerHex b = true) : b < 0x80 := by
  simp only [isLowerHex, Bool.or_eq_true, Bool.and_eq_true, decide_eq_true_eq,
    UInt8.le_iff_toNat_le] at h
  rw [UInt8.lt_iff_toNat_lt]
  rcases h with ⟨-, h⟩ | ⟨-, h⟩
  · exact Nat.lt_of_le_of_lt h (by decide)
  · exact Nat.lt_of_le_of_lt h (by decide)

theorem exists_hexByte {b : UInt8} (h : isLowerHex b = true) : ∃ n < 16, b = hexByte n := by
  simp only [isLowerHex, Bool.or_eq_true, Bool.and_eq_true, decide_eq_true_eq,
    UInt8.le_iff_toNat_le] at h
  rcases h with ⟨hlow, hhigh⟩ | ⟨hlow, hhigh⟩
  · have hlow : 48 ≤ b.toNat := hlow
    have hhigh : b.toNat ≤ 57 := hhigh
    refine ⟨b.toNat - 48, by omega, ?_⟩
    rw [hexByte, if_pos (by omega), show 48 + (b.toNat - 48) = b.toNat by omega]
    exact UInt8.ofNat_toNat.symm
  · have hlow : 97 ≤ b.toNat := hlow
    have hhigh : b.toNat ≤ 102 := hhigh
    refine ⟨b.toNat - 87, by omega, ?_⟩
    rw [hexByte, if_neg (by omega), show 87 + (b.toNat - 87) = b.toNat by omega]
    exact UInt8.ofNat_toNat.symm

/-- The two bytes of a byte's digits. -/
def hexPair (b : UInt8) : List UInt8 := [hexByte (b.toNat / 16), hexByte (b.toNat % 16)]

theorem high_lt (b : UInt8) : b.toNat / 16 < 16 := by
  have hb := b.toNat_lt
  omega

theorem low_lt (b : UInt8) : b.toNat % 16 < 16 := Nat.mod_lt _ (by decide)

theorem fromStrRadix_hexPair (b : UInt8) : fromStrRadix (hexPair b) = some b := by
  have hb := b.toNat_lt
  have hplus := hexByte_ne_plus (high_lt b)
  have hvalue : b.toNat / 16 * 16 + b.toNat % 16 = b.toNat := by omega
  have hhigh : b.toNat / 16 < 256 := by omega
  simp [fromStrRadix, hexPair, hplus, readDigits, toDigit_hexByte (high_lt b),
    toDigit_hexByte (low_lt b), hvalue, hhigh, hb]

/-! ## The encoder's image -/

theorem bytes_toHex (id : Token) : (toHex id).bytes = id.bytes.flatMap hexPair := by
  show (bytesToHex id.bytes).flatMap String.utf8EncodeChar = _
  rw [bytesToHex, List.flatMap_assoc]
  congr 1
  funext b
  simp [hexPair, utf8_hexDigit (high_lt b), utf8_hexDigit (low_lt b)]

theorem length_flatMap_hexPair (bytes : List UInt8) :
    (bytes.flatMap hexPair).length = bytes.length * 2 := by
  induction bytes with
  | nil => rfl
  | cons b rest ih =>
    rw [List.flatMap_cons, List.length_append, ih, List.length_cons]
    simp only [hexPair, List.length_cons, List.length_nil]
    omega

theorem length_toHex (id : Token) : (toHex id).bytes.length = 64 := by
  rw [bytes_toHex, length_flatMap_hexPair, id.length_eq]

theorem isLowerHex_toHex (id : Token) : ∀ b ∈ (toHex id).bytes, isLowerHex b = true := by
  intro b hb
  rw [bytes_toHex] at hb
  obtain ⟨c, -, hc⟩ := List.mem_flatMap.mp hb
  simp only [hexPair, List.mem_cons, List.not_mem_nil, or_false] at hc
  rcases hc with rfl | rfl
  · exact isLowerHex_hexByte (high_lt c)
  · exact isLowerHex_hexByte (low_lt c)

/-- The `k`-th pair of the digits of some bytes. -/
theorem take_flatMap_hexPair {bytes : List UInt8} {k : Nat} (hk : k < bytes.length) :
    ((bytes.flatMap hexPair).drop (k * 2)).take 2 = hexPair bytes[k] := by
  induction bytes generalizing k with
  | nil => exact absurd hk (Nat.not_lt_zero k)
  | cons b rest ih =>
    cases k with
    | zero => rfl
    | succ k =>
      have hdrop : ((b :: rest).flatMap hexPair).drop ((k + 1) * 2) =
          (rest.flatMap hexPair).drop (k * 2) := by
        rw [Nat.succ_mul]
        rfl
      rw [hdrop, ih (by simpa using hk)]
      rfl

/-- An even number of lower-case digits are the digits of some bytes. -/
theorem exists_flatMap_hexPair {n : Nat} {bytes : List UInt8} (hlength : bytes.length = n * 2)
    (hlower : ∀ b ∈ bytes, isLowerHex b = true) :
    ∃ read : List UInt8, read.length = n ∧ bytes = read.flatMap hexPair := by
  induction n generalizing bytes with
  | zero => exact ⟨[], rfl, List.eq_nil_of_length_eq_zero hlength⟩
  | succ n ih =>
    obtain ⟨x, y, rest, rfl⟩ : ∃ x y rest, bytes = x :: y :: rest := by
      rcases bytes with _ | ⟨x, _ | ⟨y, rest⟩⟩
      · simp at hlength
      · simp at hlength
        omega
      · exact ⟨x, y, rest, rfl⟩
    obtain ⟨high, hhigh, rfl⟩ := exists_hexByte (hlower x (by simp))
    obtain ⟨low, hlow, rfl⟩ := exists_hexByte (hlower y (by simp))
    have hrest : rest.length = n * 2 := by
      simp at hlength
      omega
    obtain ⟨read, hread, rfl⟩ := ih hrest fun b hb => hlower b (by simp [hb])
    have hvalue : (UInt8.ofNat (high * 16 + low)).toNat = high * 16 + low := by
      rw [UInt8.toNat_ofNat']
      omega
    refine ⟨UInt8.ofNat (high * 16 + low) :: read, by simp [hread], ?_⟩
    simp only [List.flatMap_cons, hexPair, hvalue, List.cons_append, List.nil_append]
    rw [show (high * 16 + low) / 16 = high by omega, show (high * 16 + low) % 16 = low by omega]

/-- 64 lower-case digits are what `to_hex` writes for an id. -/
theorem exists_toHex {s : Str} (hlength : s.bytes.length = 64)
    (hlower : ∀ b ∈ s.bytes, isLowerHex b = true) : ∃ id, s = toHex id := by
  obtain ⟨read, hread, hbytes⟩ := exists_flatMap_hexPair (n := 32) hlength hlower
  exact ⟨⟨read, hread⟩, Str.ext (by rw [bytes_toHex, hbytes])⟩

/-! ## Reading back -/

theorem isCharBoundary_of_ascii {bytes : List UInt8} (h : ∀ b ∈ bytes, b < 0x80) {i : Nat}
    (hi : i ≤ bytes.length) : isCharBoundary bytes i = true := by
  unfold isCharBoundary
  cases hb : bytes[i]? with
  | none =>
    have hlength := List.getElem?_eq_none_iff.mp hb
    simp [Nat.le_antisymm hi hlength]
  | some b => simp [h b (List.mem_of_getElem? hb)]

theorem readPair_toHex (id : Token) {k : Nat} (hk : k < 32) :
    readPair (toHex id).bytes k = .returned id.bytes[k]? := by
  have hascii : ∀ b ∈ (toHex id).bytes, b < 0x80 := fun b hb =>
    lt_of_isLowerHex (isLowerHex_toHex id b hb)
  have hlength := length_toHex id
  have hstart := isCharBoundary_of_ascii hascii (i := k * 2) (by omega)
  have hend := isCharBoundary_of_ascii hascii (i := k * 2 + 2) (by omega)
  have hk : k < id.bytes.length := by rw [id.length_eq]; exact hk
  have hpair : pair (toHex id).bytes (k * 2) = .returned (hexPair id.bytes[k]) := by
    simp only [pair, hstart, hend, Bool.and_self, if_true]
    rw [bytes_toHex, take_flatMap_hexPair hk]
  simp only [readPair, hpair, fromStrRadix_hexPair, List.getElem?_eq_getElem hk]

/-- `from_hex` reads back what `to_hex` writes. -/
theorem fromHex_toHex (id : Token) : fromHex (toHex id) = .returned (some id) := by
  have hread : ∀ k < 32, readPair (toHex id).bytes (0 + k) = .returned id.bytes[k]? := by
    intro k hk
    rw [Nat.zero_add]
    exact readPair_toHex id hk
  have hsome : ∀ k < 32, ∃ b, id.bytes[k]? = some b := fun k hk =>
    ⟨_, List.getElem?_eq_getElem (by rw [id.length_eq]; exact hk)⟩
  have hcollect : collect (readPair (toHex id).bytes) 0 32 = .returned (some id.bytes) := by
    have hends := collected (readPair (toHex id).bytes) 0 32
    generalize collect (readPair (toHex id).bytes) 0 32 = r at hends
    cases hends with
    | all hlength h =>
      congr 2
      refine List.ext_getElem? ?_
      intro k
      by_cases hk : k < 32
      · have heq := (h k hk).symm.trans (hread k hk)
        injection heq
      · rw [List.getElem?_eq_none (by omega), List.getElem?_eq_none (by rw [id.length_eq]; omega)]
    | stopped hk hbefore h =>
      obtain ⟨b, hb⟩ := hsome _ hk
      rw [hread _ hk, hb] at h
      cases h
    | cut hk h =>
      rw [hread _ hk] at h
      cases h
  simp [fromHex, length_toHex, hcollect, id.length_eq]

theorem toHex_injective : Function.Injective toHex := by
  intro id other h
  have hread := fromHex_toHex id
  rw [h, fromHex_toHex] at hread
  cases hread
  rfl

/-! ## What the parser of numbers takes -/

theorem toDigit_isSome (b : UInt8) : (toDigit b).isSome = isHexDigit b := by
  rw [Bool.eq_iff_iff]
  simp only [toDigit, isHexDigit, isLowerHex, Bool.or_eq_true, Bool.and_eq_true,
    decide_eq_true_eq, UInt8.le_iff_toNat_le, UInt8.toNat_ofNat]
  split_ifs <;> simp <;> omega

theorem toDigit_lt {b : UInt8} {digit : Nat} (h : toDigit b = some digit) : digit < 16 := by
  simp only [toDigit] at h
  split_ifs at h <;> cases h <;> omega

theorem readDigits_isSome {value : Nat} (hvalue : value < 16) (y : UInt8) :
    (readDigits value [y]).isSome = isHexDigit y := by
  rw [← toDigit_isSome]
  cases hy : toDigit y with
  | none => simp [readDigits, hy]
  | some digit =>
    have hdigit := toDigit_lt hy
    simp [readDigits, hy, show value * 16 + digit < 256 by omega]

theorem fromStrRadix_isSome (x y : UInt8) :
    (fromStrRadix [x, y]).isSome = isNumber [x, y] := by
  have hshape : ([x, y] = [] ∨ [x, y] = [43] ∨ [x, y] = [45]) ↔ False := by simp
  simp only [fromStrRadix, hshape, if_false, List.head?_cons, Option.some.injEq, List.tail_cons,
    isNumber]
  split_ifs with hplus
  · simp [hplus, readDigits_isSome (show 0 < 16 by decide)]
  · rw [decide_eq_false hplus, Bool.or_false, ← toDigit_isSome x]
    cases hx : toDigit x with
    | none => simp [readDigits, hx]
    | some digit =>
      have hdigit := toDigit_lt hx
      have hfirst : readDigits 0 [x, y] = readDigits digit [y] := by
        simp [readDigits, hx, show digit < 256 by omega]
      rw [hfirst, readDigits_isSome hdigit]
      simp

/-- The pair at an index inside of the text has two bytes. -/
theorem exists_pair {bytes : List UInt8} {i : Nat} (hi : i * 2 + 1 < bytes.length) :
    ∃ x y, (bytes.drop (i * 2)).take 2 = [x, y] := by
  have hlength : (bytes.drop (i * 2)).length = bytes.length - i * 2 := List.length_drop
  generalize bytes.drop (i * 2) = pairs at hlength
  rcases pairs with _ | ⟨x, _ | ⟨y, rest⟩⟩
  · rw [List.length_nil] at hlength
    omega
  · rw [List.length_singleton] at hlength
    omega
  · exact ⟨x, y, rfl⟩

theorem readPair_of_cuttable {bytes : List UInt8} {i : Nat} (h : Cuttable bytes i) :
    readPair bytes i = .returned (fromStrRadix ((bytes.drop (i * 2)).take 2)) := by
  simp [readPair, pair, h.1, h.2]

theorem cuttable_of_readPair {bytes : List UInt8} {i : Nat} {read : Option UInt8}
    (h : readPair bytes i = .returned read) : Cuttable bytes i := by
  by_cases hcut : Cuttable bytes i
  · exact hcut
  · have hpair : pair bytes (i * 2) = .panicked := by
      rw [pair, if_neg (by rwa [Bool.and_eq_true])]
    rw [readPair, hpair] at h
    cases h

/-- What `readPair` answers for a pair that can be cut out. -/
theorem readPair_eq_iff {bytes : List UInt8} {i : Nat} (hi : i * 2 + 1 < bytes.length)
    (number : Bool) :
    (∃ read, readPair bytes i = .returned read ∧ read.isSome = number) ↔
      Cuttable bytes i ∧ isNumber ((bytes.drop (i * 2)).take 2) = number := by
  obtain ⟨x, y, hpair⟩ := exists_pair hi
  refine ⟨?_, ?_⟩
  · rintro ⟨read, hread, hsome⟩
    have hcut := cuttable_of_readPair hread
    rw [readPair_of_cuttable hcut, hpair] at hread
    cases hread
    exact ⟨hcut, by rw [hpair, ← fromStrRadix_isSome, hsome]⟩
  · rintro ⟨hcut, hnumber⟩
    exact ⟨_, readPair_of_cuttable hcut, by rw [hpair, fromStrRadix_isSome, ← hpair, hnumber]⟩

theorem readPair_eq_none_iff {bytes : List UInt8} {i : Nat} (hi : i * 2 + 1 < bytes.length) :
    readPair bytes i = .returned none ↔
      Cuttable bytes i ∧ isNumber ((bytes.drop (i * 2)).take 2) = false := by
  rw [← readPair_eq_iff hi]
  refine ⟨fun h => ⟨none, h, rfl⟩, ?_⟩
  rintro ⟨read, hread, hnone⟩
  cases read with
  | none => exact hread
  | some b => cases hnone

theorem readPair_eq_some_iff {bytes : List UInt8} {i : Nat} (hi : i * 2 + 1 < bytes.length) :
    (∃ b, readPair bytes i = .returned (some b)) ↔
      Cuttable bytes i ∧ isNumber ((bytes.drop (i * 2)).take 2) = true := by
  rw [← readPair_eq_iff hi]
  refine ⟨fun ⟨b, hb⟩ => ⟨some b, hb, rfl⟩, ?_⟩
  rintro ⟨read, hread, hsome⟩
  obtain ⟨b, rfl⟩ := Option.isSome_iff_exists.mp hsome
  exact ⟨b, hread⟩

/-- An ASCII text can be cut anywhere. -/
theorem fromHex_returns {s : Str} (hascii : ∀ b ∈ s.bytes, b < 0x80) : fromHex s ≠ .panicked := by
  unfold fromHex
  split_ifs with hlength
  · exact fun h => by cases h
  · have hlength : s.bytes.length = 64 := not_not.mp hlength
    have hends := collected (readPair s.bytes) 0 32
    generalize collect (readPair s.bytes) 0 32 = r at hends
    cases hends with
    | all hbytes hpairs => simp [hbytes]
    | stopped => exact fun h => by cases h
    | @cut k hk hpanic =>
      have hcut : Cuttable s.bytes (0 + k) :=
        ⟨isCharBoundary_of_ascii hascii (by omega), isCharBoundary_of_ascii hascii (by omega)⟩
      rw [readPair_of_cuttable hcut] at hpanic
      cases hpanic

/-! ## For which texts -/

theorem readsOnlyHex_toHex (id : Token) : ReadsOnlyHex (toHex id) := by
  rw [ReadsOnlyHex, fromHex_toHex]
  refine ⟨(fun h => by cases h), fun other => ⟨?_, ?_⟩⟩
  · intro h
    cases h
    rfl
  · intro h
    rw [toHex_injective h]

/-- A text that is read as no id at all is not the text of one. -/
theorem readsOnlyHex_of_none {s : Str} (h : fromHex s = .returned none) : ReadsOnlyHex s := by
  rw [ReadsOnlyHex, h]
  refine ⟨(fun h => by cases h), fun id => ⟨(fun h => by cases h), ?_⟩⟩
  rintro rfl
  rw [fromHex_toHex] at h
  cases h

theorem readsOnlyHex_of_plain {s : Str} (h : Plain s) : ReadsOnlyHex s := by
  by_cases hlength : s.bytes.length = 64
  · rcases h hlength with hlower | ⟨i, hi, hrefused, hbefore⟩
    · obtain ⟨id, rfl⟩ := exists_toHex hlength hlower
      exact readsOnlyHex_toHex id
    · have hnone : readPair s.bytes (0 + i) = .returned none := by
        rw [Nat.zero_add]
        exact (readPair_eq_none_iff (by omega)).mpr hrefused
      have hcollect : collect (readPair s.bytes) 0 32 = .returned none := by
        refine collect_eq_none hi ?_ hnone
        intro j hj
        rw [Nat.zero_add]
        exact (readPair_eq_some_iff (by omega)).mpr (hbefore j hj)
      exact readsOnlyHex_of_none (by simp [fromHex, hlength, hcollect])
  · exact readsOnlyHex_of_none (by simp [fromHex, hlength])

theorem plain_of_readsOnlyHex {s : Str} (h : ReadsOnlyHex s) : Plain s := by
  intro hlength
  obtain ⟨hreturns, himage⟩ := h
  have hends := collected (readPair s.bytes) 0 32
  unfold fromHex at hreturns himage
  rw [if_neg (not_not_intro hlength)] at hreturns himage
  generalize collect (readPair s.bytes) 0 32 = r at hends hreturns himage
  cases hends with
  | @all bytes hbytes hpairs =>
    left
    have hid : s = toHex ⟨bytes, hbytes⟩ := (himage ⟨bytes, hbytes⟩).mp (by simp [hbytes])
    rw [hid]
    exact isLowerHex_toHex ⟨bytes, hbytes⟩
  | @stopped k hk hbefore hnone =>
    right
    rw [Nat.zero_add] at hnone
    refine ⟨k, hk, (readPair_eq_none_iff (by omega)).mp hnone, ?_⟩
    intro j hj
    have hsome := hbefore j hj
    rw [Nat.zero_add] at hsome
    exact (readPair_eq_some_iff (by omega)).mp hsome
  | cut => exact absurd rfl hreturns

/-- `from_hex` reads exactly what `to_hex` writes where the text is plain, and
there two texts never name one session. -/
theorem readsOnlyHex_iff (s : Str) :
    (ReadsOnlyHex s ↔ Plain s) ∧
      ∀ t id, Plain s → Plain t → fromHex s = .returned (some id) →
        fromHex t = .returned (some id) → s = t := by
  refine ⟨⟨plain_of_readsOnlyHex, readsOnlyHex_of_plain⟩, ?_⟩
  intro t id hs ht hid hid'
  rw [((readsOnlyHex_of_plain hs).2 id).mp hid, ((readsOnlyHex_of_plain ht).2 id).mp hid']

/-- 64 zeros name one id. -/
theorem readsOnlyHex_zeros :
    toHex ⟨List.replicate 32 0, rfl⟩ = .ofChars (List.replicate 64 '0') :=
  (readsOnlyHex_iff (toHex ⟨List.replicate 32 0, rfl⟩)).2 (.ofChars (List.replicate 64 '0'))
    ⟨List.replicate 32 0, rfl⟩ (fun _ => Or.inl (by decide +kernel))
    (fun _ => Or.inl (by decide +kernel)) (by decide +kernel) (by decide +kernel)

/-- Upper case and a sign name a session a second time, and an accent between
two pairs panics. -/
theorem not_readsOnlyHex :
    ¬ ReadsOnlyHex (.ofChars (List.replicate 64 'A')) ∧
      fromHex (.ofChars (List.replicate 64 'A')) = fromHex (.ofChars (List.replicate 64 'a')) ∧
      fromHex (.ofChars ("+a".toList ++ List.replicate 62 'a')) =
        fromHex (.ofChars ("0a".toList ++ List.replicate 62 'a')) ∧
      fromHex (.ofChars ('a' :: 'é' :: List.replicate 61 'a')) = .panicked := by
  refine ⟨?_, by decide +kernel, by decide +kernel, by decide +kernel⟩
  intro h
  have hid := (h.2 ⟨List.replicate 32 0xAA, rfl⟩).mp (by decide +kernel)
  have hbytes : (Str.ofChars (List.replicate 64 'A')).bytes =
      (toHex ⟨List.replicate 32 0xAA, rfl⟩).bytes := congrArg Str.bytes hid
  exact absurd hbytes (by decide +kernel)

end BikesNest.Auth.SessionId
