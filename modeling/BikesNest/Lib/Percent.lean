import Mathlib.Data.List.TakeWhile

/-!
# Percent-encoding and query strings

A writer is a table that gives the bytes to write for each byte of a text
(`escape` is the entry `%XX`).  The reader `decode` undoes a table whose every
entry it reads back (`Reads`), and `decodeForm` is the reader of forms and
queries, for which a plus sign stands for a space.

A query string is a list of pairs, joined by `&` and split again by `pairs`.
`pairs_join` says that what a pair of tables has written is read back, whatever
the texts are.
-/

namespace Percent

/-! ## The reader -/

/-- The value of a hexadecimal digit, in upper or lower case. -/
def digitValue (b : UInt8) : Option UInt8 :=
  if 48 ≤ b ∧ b ≤ 57 then some (b - 48)
  else if 97 ≤ b ∧ b ≤ 102 then some (b - 97 + 10)
  else if 65 ≤ b ∧ b ≤ 70 then some (b - 65 + 10)
  else none

/-- A percent sign without two digits behind it stands for itself. -/
def decode : List UInt8 → List UInt8
  | 37 :: high :: low :: rest =>
    match digitValue high, digitValue low with
    | some h, some l => (h * 16 + l) :: decode rest
    | _, _ => 37 :: decode (high :: low :: rest)
  | b :: rest => b :: decode rest
  | [] => []

/-- A plus sign as a space. -/
def plusToSpace (b : UInt8) : UInt8 := if b = 43 then 32 else b

/-- The reader of forms and queries. -/
def decodeForm (bytes : List UInt8) : List UInt8 := decode (bytes.map plusToSpace)

@[simp] theorem decode_nil : decode [] = [] := rfl

theorem decode_cons {b : UInt8} (hb : b ≠ 37) (rest : List UInt8) :
    decode (b :: rest) = b :: decode rest := by
  rw [decode]
  intro high low more h
  exact absurd h hb

@[simp] theorem plusToSpace_plus : plusToSpace 43 = 32 := rfl

theorem plusToSpace_of_ne {b : UInt8} (hb : b ≠ 43) : plusToSpace b = b := by
  simp [plusToSpace, hb]

/-! ## The writers -/

/-- A hexadecimal digit in upper case. -/
def hexDigit (n : Nat) : UInt8 := .ofNat (if n < 10 then 48 + n else 55 + n)

/-- `%XX`. -/
def escape (b : UInt8) : List UInt8 := [37, hexDigit (b.toNat / 16), hexDigit (b.toNat % 16)]

/-- The bytes that `keep` lets through as they are, all others escaped. -/
def keeping (keep : UInt8 → Bool) (b : UInt8) : List UInt8 := if keep b then [b] else escape b

/-- The text that a table writes. -/
def encode (table : UInt8 → List UInt8) (bytes : List UInt8) : List UInt8 := bytes.flatMap table

@[simp] theorem encode_nil (table : UInt8 → List UInt8) : encode table [] = [] := rfl

@[simp] theorem encode_cons (table : UInt8 → List UInt8) (b : UInt8) (bytes : List UInt8) :
    encode table (b :: bytes) = table b ++ encode table bytes := rfl

theorem digitValue_hexDigit : ∀ n < 16, digitValue (hexDigit n) = some (.ofNat n) := by
  decide +kernel

/-- A digit is neither a percent nor a plus sign, nor a separator. -/
theorem hexDigit_range : ∀ n < 16, 48 ≤ (hexDigit n).toNat ∧ (hexDigit n).toNat ≤ 57 ∨
    65 ≤ (hexDigit n).toNat ∧ (hexDigit n).toNat ≤ 70 := by
  decide +kernel

theorem mem_escape {b x : UInt8} (hx : x ∈ escape b) :
    x.toNat = 37 ∨ 48 ≤ x.toNat ∧ x.toNat ≤ 57 ∨ 65 ≤ x.toNat ∧ x.toNat ≤ 70 := by
  have hb := b.toNat_lt
  simp only [escape, List.mem_cons, List.not_mem_nil, or_false] at hx
  rcases hx with rfl | rfl | rfl
  · simp
  · exact .inr (hexDigit_range _ (by omega))
  · exact .inr (hexDigit_range _ (by omega))

/-- An escape is read back. -/
theorem decode_escape (b : UInt8) (rest : List UInt8) :
    decode (escape b ++ rest) = b :: decode rest := by
  have hb := b.toNat_lt
  have hhigh := digitValue_hexDigit (b.toNat / 16) (by omega)
  have hlow := digitValue_hexDigit (b.toNat % 16) (by omega)
  have hparts : UInt8.ofNat (b.toNat / 16) * 16 + UInt8.ofNat (b.toNat % 16) = b := by
    apply UInt8.toNat_inj.mp
    simp
    omega
  show decode (37 :: hexDigit (b.toNat / 16) :: hexDigit (b.toNat % 16) :: rest) = _
  rw [decode]
  simp only [hhigh, hlow, hparts]

theorem map_plusToSpace_escape (b : UInt8) : (escape b).map plusToSpace = escape b := by
  have hplain : ∀ x ∈ escape b, plusToSpace x = id x := by
    intro x hx
    have hrange := mem_escape hx
    apply plusToSpace_of_ne
    intro h
    simp [h] at hrange
  rw [List.map_congr_left hplain, List.map_id]

/-! ## Tables that are read back -/

/-- The reader finds each byte in front of whatever follows. -/
def Reads (read : List UInt8 → List UInt8) (table : UInt8 → List UInt8) : Prop :=
  ∀ b rest, read (table b ++ rest) = b :: read rest

/-- A text is read back in front of whatever follows. -/
theorem Reads.append {read : List UInt8 → List UInt8} {table : UInt8 → List UInt8}
    (h : Reads read table) (bytes rest : List UInt8) :
    read (encode table bytes ++ rest) = bytes ++ read rest := by
  induction bytes with
  | nil => simp
  | cons b bytes ih => rw [encode_cons, List.append_assoc, h, ih, List.cons_append]

theorem Reads.encode {read : List UInt8 → List UInt8} {table : UInt8 → List UInt8}
    (h : Reads read table) (hnil : read [] = []) (bytes : List UInt8) :
    read (encode table bytes) = bytes := by
  have hread := h.append bytes []
  simp only [List.append_nil, hnil] at hread
  exact hread

/-- Without the percent and the plus sign among the bytes that are kept, a form reads all back. -/
theorem readsForm_keeping {keep : UInt8 → Bool} (hpercent : keep 37 = false)
    (hplus : keep 43 = false) : Reads decodeForm (keeping keep) := by
  intro b rest
  unfold keeping decodeForm
  split
  · rename_i hkeep
    have hne : b ≠ 43 := by
      intro hb
      simp [hb, hplus] at hkeep
    have hne' : b ≠ 37 := by
      intro hb
      simp [hb, hpercent] at hkeep
    simp only [List.singleton_append, List.map_cons, plusToSpace_of_ne hne]
    exact decode_cons hne' _
  · rw [List.map_append, map_plusToSpace_escape]
    exact decode_escape b _

/-- The table of forms: a space becomes a plus sign. -/
def form (keep : UInt8 → Bool) (b : UInt8) : List UInt8 := if b = 32 then [43] else keeping keep b

theorem reads_form {keep : UInt8 → Bool} (hpercent : keep 37 = false) (hplus : keep 43 = false) :
    Reads decodeForm (form keep) := by
  intro b rest
  unfold form
  split
  · rename_i hspace
    rw [hspace]
    show decode (plusToSpace 43 :: rest.map plusToSpace) = _
    exact decode_cons (by decide) _
  · exact readsForm_keeping hpercent hplus b rest

/-- A text of bytes that are kept is written as it is. -/
theorem encode_form_of_kept {keep : UInt8 → Bool} (hspace : keep 32 = false) {bytes : List UInt8}
    (h : ∀ b ∈ bytes, keep b = true) : encode (form keep) bytes = bytes := by
  induction bytes with
  | nil => rfl
  | cons b bytes ih =>
    have hb := h b List.mem_cons_self
    have hne : b ≠ 32 := by
      intro h32
      simp [h32, hspace] at hb
    rw [encode_cons, ih fun b hb => h b (List.mem_cons_of_mem _ hb)]
    simp [form, keeping, hb, hne]

/-- What is written for a byte: itself where it is kept, or a percent sign and digits. -/
theorem mem_keeping {keep : UInt8 → Bool} {b x : UInt8} (hx : x ∈ keeping keep b) :
    keep x = true ∨ x.toNat = 37 ∨ 48 ≤ x.toNat ∧ x.toNat ≤ 57 ∨
      65 ≤ x.toNat ∧ x.toNat ≤ 70 := by
  unfold keeping at hx
  split at hx
  · rename_i hkeep
    rw [List.mem_singleton.mp hx]
    exact .inl hkeep
  · exact .inr (mem_escape hx)

/-! ## Query strings -/

/-- The pairs of a query string.  A part without `=` is a name with an empty value, and
an empty part is none. -/
def pairs (text : List UInt8) : List (List UInt8 × List UInt8) :=
  ((text.splitOn 38).filter (· ≠ [])).map fun part =>
    (decodeForm (part.takeWhile (· ≠ 61)), decodeForm (part.dropWhile (· ≠ 61)).tail)

/-- A table for names and values: it is read back and writes no separator. -/
structure Separable (table : UInt8 → List UInt8) : Prop where
  reads : Reads decodeForm table
  ampersand : ∀ b, 38 ∉ table b
  equals : ∀ b, 61 ∉ table b

theorem separable_keeping {keep : UInt8 → Bool}
    (h : ∀ b ∈ [37, 43, 38, 61], keep b = false) : Separable (keeping keep) where
  reads := readsForm_keeping (h 37 (by simp)) (h 43 (by simp))
  ampersand b hmem := by
    have hwritten := mem_keeping hmem
    simp [h 38 (by simp)] at hwritten
  equals b hmem := by
    have hwritten := mem_keeping hmem
    simp [h 61 (by simp)] at hwritten

theorem separable_form {keep : UInt8 → Bool}
    (h : ∀ b ∈ [37, 43, 38, 61], keep b = false) : Separable (form keep) where
  reads := reads_form (h 37 (by simp)) (h 43 (by simp))
  ampersand b hmem := by
    unfold form at hmem
    split at hmem
    · simp at hmem
    · exact (separable_keeping h).ampersand b hmem
  equals b hmem := by
    unfold form at hmem
    split at hmem
    · simp at hmem
    · exact (separable_keeping h).equals b hmem

/-- One pair as it is written. -/
def writePair (table : UInt8 → List UInt8) (p : List UInt8 × List UInt8) : List UInt8 :=
  encode table p.1 ++ 61 :: encode table p.2

/-- The pairs as they are written. -/
def join (table : UInt8 → List UInt8) (l : List (List UInt8 × List UInt8)) : List UInt8 :=
  [38].intercalate (l.map (writePair table))

theorem decodeForm_nil : decodeForm [] = [] := rfl

namespace Separable

variable {table : UInt8 → List UInt8} (h : Separable table)
include h

theorem notMem_ampersand (bytes : List UInt8) : 38 ∉ encode table bytes := by
  intro hmem
  have hmem := List.mem_flatMap.mp hmem
  obtain ⟨b, -, hb⟩ := hmem
  exact h.ampersand b hb

theorem notMem_equals (bytes : List UInt8) : 61 ∉ encode table bytes := by
  intro hmem
  have hmem := List.mem_flatMap.mp hmem
  obtain ⟨b, -, hb⟩ := hmem
  exact h.equals b hb

theorem notMem_writePair (p : List UInt8 × List UInt8) : 38 ∉ writePair table p := by
  intro hmem
  simp only [writePair, List.mem_append, List.mem_cons] at hmem
  rcases hmem with hmem | hmem | hmem
  · exact h.notMem_ampersand p.1 hmem
  · simp at hmem
  · exact h.notMem_ampersand p.2 hmem

/-- Different texts are written differently. -/
theorem encode_injective : Function.Injective (encode table) := by
  intro a b hab
  rw [← h.reads.encode decodeForm_nil a, hab, h.reads.encode decodeForm_nil b]

theorem takeWhile_writePair (p : List UInt8 × List UInt8) :
    (writePair table p).takeWhile (· ≠ 61) = encode table p.1 := by
  have hname : ∀ b ∈ encode table p.1, decide (b ≠ 61) = true := by
    intro b hb
    simp only [ne_eq, decide_not, Bool.not_eq_true', decide_eq_false_iff_not]
    intro h61
    rw [h61] at hb
    exact h.notMem_equals p.1 hb
  rw [writePair, List.takeWhile_append_of_pos hname]
  simp

theorem dropWhile_writePair (p : List UInt8 × List UInt8) :
    (writePair table p).dropWhile (· ≠ 61) = 61 :: encode table p.2 := by
  have hname : ∀ b ∈ encode table p.1, decide (b ≠ 61) = true := by
    intro b hb
    simp only [ne_eq, decide_not, Bool.not_eq_true', decide_eq_false_iff_not]
    intro h61
    rw [h61] at hb
    exact h.notMem_equals p.1 hb
  rw [writePair, List.dropWhile_append_of_pos hname]
  simp

/-- A query string comes apart where its pairs were joined. -/
theorem splitOn_join {l : List (List UInt8 × List UInt8)} (hne : l ≠ []) :
    (join table l).splitOn 38 = l.map (writePair table) := by
  apply List.splitOn_intercalate
  · intro part hpart
    have hpart := List.mem_map.mp hpart
    obtain ⟨q, -, rfl⟩ := hpart
    exact h.notMem_writePair q
  · simpa using hne

end Separable

/-- What a query string says is what was written into it. -/
theorem pairs_join {table : UInt8 → List UInt8} (h : Separable table)
    (l : List (List UInt8 × List UInt8)) : pairs (join table l) = l := by
  cases l with
  | nil => rfl
  | cons p l =>
    have hnonempty : ((p :: l).map (writePair table)).filter (· ≠ []) =
        (p :: l).map (writePair table) := by
      apply List.filter_eq_self.mpr
      intro part hpart
      have hpart := List.mem_map.mp hpart
      obtain ⟨q, -, rfl⟩ := hpart
      simp [writePair]
    have hread : ∀ q, (decodeForm ((writePair table q).takeWhile (· ≠ 61)),
        decodeForm ((writePair table q).dropWhile (· ≠ 61)).tail) = q := by
      intro q
      rw [h.takeWhile_writePair, h.dropWhile_writePair, List.tail_cons,
        h.reads.encode decodeForm_nil, h.reads.encode decodeForm_nil]
    rw [pairs, h.splitOn_join (List.cons_ne_nil p l), hnonempty, List.map_map]
    calc (p :: l).map _ = (p :: l).map id := List.map_congr_left fun q _ => hread q
      _ = p :: l := List.map_id _

end Percent
