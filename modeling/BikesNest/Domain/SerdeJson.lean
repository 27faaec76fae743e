import BikesNest.Lib.JsonText
import Mathlib.Algebra.Group.Int.Defs
import Mathlib.Data.List.Nodup
import Mathlib.Data.Rat.Defs

/-!
# The texts of serde_json

How `serde_json` writes a value, and what it reads: the escapes of its strings and the
numbers that are integers.  The text of an `f64` is another crate's and is a parameter.

`read_write` says that a value is read as it was written, if its integers fit and its `f64`
numbers are read as they are written.
-/

namespace BikesNest.SerdeJson

open JsonText

-- Facts about the characters of a text are decided along the text, not over all characters.
attribute [local instance (high)] List.decidableBAll

/-! ## Strings -/

/-- A digit of an escape. -/
def hexDigit (n : Nat) : Char := Char.ofNat (if n < 10 then 48 + n else 87 + n)

/-- The characters with an escape of two characters, and the second of these. -/
def shortEscapes : List (Char × Char) :=
  [('"', '"'), ('\\', '\\'), (Char.ofNat 8, 'b'), ('\t', 't'), ('\n', 'n'), (Char.ofNat 12, 'f'),
    ('\r', 'r')]

/-- How a character is written inside a string. -/
def escape (c : Char) : List Char :=
  match shortEscapes.find? fun p => p.1 = c with
  | some p => ['\\', p.2]
  | none =>
    if c.toNat < 0x20 then
      ['\\', 'u', '0', '0', hexDigit (c.toNat / 16), hexDigit (c.toNat % 16)]
    else [c]

theorem hexValue_hexDigit : ∀ n < 16, hexValue (hexDigit n) = some n := by decide

/-- An escape by its number is read. -/
theorem readChar_unit {v : Nat} (h : v < 0x100) (rest : List Char) :
    readChar ('\\' :: 'u' :: '0' :: '0' :: hexDigit (v / 16) :: hexDigit (v % 16) :: rest) =
      some (Char.ofNat v, rest) := by
  have hzero : hexValue '0' = some 0 := by decide
  have hhigh := hexValue_hexDigit (v / 16) (by omega)
  have hlow := hexValue_hexDigit (v % 16) (by omega)
  have hunit : ((0 * 16 + 0) * 16 + v / 16) * 16 + v % 16 = v := by omega
  have hread : readUnit ('0' :: '0' :: hexDigit (v / 16) :: hexDigit (v % 16) :: rest) =
      some (v, rest) := by
    simp only [readUnit, hzero, hhigh, hlow, Option.bind_eq_bind, Option.bind_some, hunit,
      Option.pure_def]
  show readCodePoint ('0' :: '0' :: hexDigit (v / 16) :: hexDigit (v % 16) :: rest) = _
  simp only [readCodePoint, hread, Option.bind_eq_bind, Option.bind_some]
  rw [if_neg (by omega), if_neg (by omega)]
  rfl

theorem readChar_plain {c : Char} (hquote : c ≠ '"') (hslash : c ≠ '\\') (h : ¬ c.toNat < 0x20)
    (rest : List Char) : readChar (c :: rest) = some (c, rest) := by
  unfold readChar
  split <;> simp_all

theorem readChar_short {p : Char × Char} (h : p ∈ shortEscapes) (rest : List Char) :
    readChar ('\\' :: p.2 :: rest) = some (p.1, rest) := by
  simp only [shortEscapes, List.mem_cons, List.not_mem_nil, or_false] at h
  rcases h with rfl | rfl | rfl | rfl | rfl | rfl | rfl <;> rfl

/-- Each escape is read as its character. -/
theorem escapes_escape : Escapes escape := by
  intro c rest
  unfold escape
  cases hfind : shortEscapes.find? fun p => p.1 = c with
  | some p =>
    have hc : p.1 = c := by simpa using List.find?_some hfind
    have hread := readChar_short (List.mem_of_find?_eq_some hfind) rest
    rw [hc] at hread
    exact hread
  | none =>
    have hother : ∀ p ∈ shortEscapes, c ≠ p.1 := by
      intro p hp h
      have hnone := List.find?_eq_none.mp hfind p hp
      simp [h] at hnone
    by_cases hcontrol : c.toNat < 0x20
    · have hread := readChar_unit (show c.toNat < 0x100 by omega) rest
      rw [Char.ofNat_toNat] at hread
      simp only [if_pos hcontrol]
      exact hread
    · simp only [if_neg hcontrol]
      exact readChar_plain (hother _ (.head _)) (hother _ (.tail _ (.head _))) hcontrol rest

/-! ## Numbers -/

/-- `Number`. -/
inductive Number where
  | int (n : Int)
  | float (q : Rat)
deriving DecidableEq

/-- The texts of `f64` numbers, and the cast of integers. -/
structure FloatText where
  write : Rat → List Char
  read : List Char → Option Rat
  ofInt : Int → Rat

def writeInt : Int → List Char
  | .ofNat n => Nat.toDigits 10 n
  | .negSucc n => '-' :: Nat.toDigits 10 (n + 1)

/-- A numeral without leading zeros. -/
def readNumeral (s : List Char) : Option Nat :=
  if s = Nat.toDigits 10 (Nat.ofDigitChars 10 s 0) then some (Nat.ofDigitChars 10 s 0) else none

/-- An integer that fits into `i64` or `u64`. -/
def readInt : List Char → Option Int
  | '-' :: s => (readNumeral s).bind fun n =>
    if 0 < n ∧ n ≤ 9223372036854775808 then some (-n) else none
  | s => (readNumeral s).bind fun n => if n < 18446744073709551616 then some n else none

/-- What stands for a number is an integer or is read as an `f64`. -/
def numbers (F : FloatText) : Numbers Number where
  write
    | .int n => writeInt n
    | .float q => F.write q
  read s :=
    match readInt s with
    | some n => some (.int n)
    | none => (F.read s).map .float

/-- An `f64` is written with a point or an exponent, and read as it is written. -/
structure FloatText.Faithful (F : FloatText) (q : Rat) : Prop where
  chars : ∀ c ∈ F.write q, isNumberChar c = true
  nonempty : F.write q ≠ []
  not_int : readInt (F.write q) = none
  read_write : F.read (F.write q) = some q

/-- The numbers that are read as they are written. -/
def Number.Fits (F : FloatText) : Number → Prop
  | .int n => -9223372036854775808 ≤ n ∧ n < 18446744073709551616
  | .float q => F.Faithful q

theorem fits_natCast {F : FloatText} {n : Nat} (h : n < 9223372036854775808) :
    (Number.int n).Fits F := by
  show -9223372036854775808 ≤ (n : Int) ∧ (n : Int) < 18446744073709551616
  omega

theorem readNumeral_toDigits (n : Nat) : readNumeral (Nat.toDigits 10 n) = some n := by
  rw [readNumeral, Nat.ofDigitChars_ten_toDigits, if_pos rfl]

theorem isNumberChar_toDigits (n : Nat) : ∀ c ∈ Nat.toDigits 10 n, isNumberChar c = true := by
  intro c hc
  have hdigit := Nat.isDigit_of_mem_toDigits (by decide) (by decide) hc
  simp [isNumberChar, hdigit]

theorem readInt_writeInt {n : Int} (hlow : -9223372036854775808 ≤ n)
    (hhigh : n < 18446744073709551616) : readInt (writeInt n) = some n := by
  cases n with
  | ofNat n =>
    have hread := readNumeral_toDigits n
    have hdigits : ∀ c ∈ Nat.toDigits 10 n, c.isDigit = true := fun c hc =>
      Nat.isDigit_of_mem_toDigits (by decide) (by decide) hc
    have hsmall : n < 18446744073709551616 := by
      have hcast : Int.ofNat n = (n : Int) := rfl
      omega
    show readInt (Nat.toDigits 10 n) = _
    unfold readInt
    split
    · rename_i s h
      rw [h] at hdigits
      cases hdigits '-' List.mem_cons_self
    · rw [hread, Option.bind_some, if_pos hsmall]
      rfl
  | negSucc n =>
    have hread := readNumeral_toDigits (n + 1)
    have hsmall : n + 1 ≤ 9223372036854775808 := by
      have hcast : Int.negSucc n = -((n + 1 : Nat) : Int) := rfl
      omega
    show ((readNumeral (Nat.toDigits 10 (n + 1))).bind fun n =>
      if 0 < n ∧ n ≤ 9223372036854775808 then some (-(n : Int)) else none) = _
    rw [hread, Option.bind_some, if_pos ⟨Nat.succ_pos n, hsmall⟩]
    rfl

/-- An integer that fits is written in digits and read as it is written. -/
theorem faithful_int (F : FloatText) {n : Int} (hlow : -9223372036854775808 ≤ n)
    (hhigh : n < 18446744073709551616) : (numbers F).Faithful (.int n) := by
  constructor
  · show ∀ c ∈ writeInt n, isNumberChar c = true
    cases n with
    | ofNat n => exact isNumberChar_toDigits n
    | negSucc n =>
      intro c hc
      rcases List.mem_cons.mp hc with rfl | hc
      · rfl
      · exact isNumberChar_toDigits (n + 1) c hc
  · show writeInt n ≠ []
    cases n with
    | ofNat n => exact Nat.toDigits_ne_nil
    | negSucc n => exact List.cons_ne_nil _ _
  · have hread := readInt_writeInt hlow hhigh
    simp only [numbers, hread]

theorem Number.Fits.faithful {F : FloatText} {n : Number} (h : n.Fits F) :
    (numbers F).Faithful n := by
  cases n with
  | int n => exact faithful_int F h.1 h.2
  | float q =>
    have h : F.Faithful q := h
    exact ⟨h.chars, h.nonempty, by simp only [numbers, h.not_int, h.read_write, Option.map_some]⟩

/-! ## Values -/

/-- `Value`. -/
abbrev Value := JsonText.Value Number

/-- `to_string`. -/
def toText (F : FloatText) (v : Value) : List Char := write (numbers F) escape v

/-- `from_str`. -/
def fromText (F : FloatText) (s : List Char) : Option Value := parse (numbers F) s

/-- A value is read as it is written. -/
theorem read_write {F : FloatText} {v : Value} (h : ∀ n ∈ v.numbers, n.Fits F) :
    fromText F (toText F v) = some v :=
  parse_write escapes_escape v fun n hn => (h n hn).faithful

/-- `get`: of a key that comes more than once the last one counts. -/
def get (v : Value) (key : List Char) : Option Value :=
  match v with
  | .obj fields => (fields.reverse.find? fun field => field.1 = key).map Prod.snd
  | _ => none

/-- Where no key comes twice, a member is found by its key. -/
theorem get_of_mem {fields : List (List Char × Value)} (hnodup : (fields.map Prod.fst).Nodup)
    {key : List Char} {v : Value} (h : (key, v) ∈ fields) : get (.obj fields) key = some v := by
  have hfind : fields.reverse.find? (fun field => field.1 = key) = some (key, v) := by
    cases hfound : fields.reverse.find? fun field => field.1 = key with
    | none =>
      have hnone := List.find?_eq_none.mp hfound (key, v) (List.mem_reverse.mpr h)
      simp at hnone
    | some field =>
      have hkey : field.1 = key := by simpa using List.find?_some hfound
      have hmem := List.mem_reverse.mp (List.mem_of_find?_eq_some hfound)
      rw [List.inj_on_of_nodup_map hnodup hmem h hkey]
  show (fields.reverse.find? fun field => field.1 = key).map Prod.snd = some v
  rw [hfind]
  rfl

/-- `as_str`. -/
def asStr : Value → Option (List Char)
  | .str s => some s
  | _ => none

/-- `as_f64`. -/
def asF64 (F : FloatText) : Value → Option Rat
  | .num (.int n) => some (F.ofInt n)
  | .num (.float q) => some q
  | _ => none

/-- `as_i64`. -/
def asI64 : Value → Option Int
  | .num (.int n) => if n < 9223372036854775808 then some n else none
  | _ => none

/-- An id is read as an `i64`. -/
theorem bind_asI64 {n : Nat} (h : n < 9223372036854775808) :
    (some (.num (.int n)) : Option Value).bind asI64 = some (n : Int) := by
  have hint : (n : Int) < 9223372036854775808 := by omega
  rw [Option.bind_some, asI64, if_pos hint]

/-- The texts of three numbers. -/
def threeFloats : FloatText where
  write q :=
    if q = 0 then "0.0".toList else if q = 1 then "1.0".toList
    else if q = -1 then "-1.0".toList else []
  read s :=
    if s = "0.0".toList then some 0 else if s = "1.0".toList then some 1
    else if s = "-1.0".toList then some (-1) else none
  ofInt n := n

theorem threeFloats_faithful : ∀ q ∈ [0, 1, -1], threeFloats.Faithful q := by
  intro q hq
  simp only [List.mem_cons, List.not_mem_nil, or_false] at hq
  rcases hq with rfl | rfl | rfl
  · constructor <;> decide +kernel
  · constructor <;> decide +kernel
  · constructor <;> decide +kernel

end BikesNest.SerdeJson
