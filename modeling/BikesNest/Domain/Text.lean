import Mathlib.Data.List.DropRight

/-!
# Text as the Rust standard library reads it

`str::trim` and `str::split_whitespace` look at the Unicode property
`White_Space`, which is the finite set that `isWhitespace` lists.

`str::to_lowercase` depends on the whole Unicode case table, so the model takes
it as a parameter.  `CaseMap` packs that function with PostgreSQL's
`lower` and with the documented facts that the proofs use: lower-casing a
second time changes nothing, lower-casing neither makes nor removes white
space at the ends of a text, and `lower` leaves ASCII text without capitals as
it is.  `CaseMap.ascii` is the mapping on ASCII text.
-/

namespace BikesNest.Text

/-- The characters with the Unicode property `White_Space`. -/
def isWhitespace (c : Char) : Bool :=
  let n := c.toNat
  (9 ≤ n && n ≤ 13) || n == 0x20 || n == 0x85 || n == 0xA0 || n == 0x1680 ||
    (0x2000 ≤ n && n ≤ 0x200A) || n == 0x2028 || n == 0x2029 || n == 0x202F ||
    n == 0x205F || n == 0x3000

/-- `str::trim` on the characters of a text. -/
def trimChars (cs : List Char) : List Char :=
  (cs.dropWhile isWhitespace).rdropWhile isWhitespace

/-- `str::trim`. -/
def trim (s : String) : String := String.ofList (trimChars s.toList)

/-- `str::split_whitespace` followed by `count`. -/
def countWords (s : String) : Nat :=
  ((s.toList.splitOnP isWhitespace).filter fun word => !word.isEmpty).length

private theorem dropWhile_rdropWhile_of_head {cs : List Char} {c : Char}
    (hc : isWhitespace c = false) :
    ((c :: cs).rdropWhile isWhitespace).dropWhile isWhitespace =
      (c :: cs).rdropWhile isWhitespace := by
  induction cs using List.reverseRecOn with
  | nil => simp [List.rdropWhile_singleton, hc]
  | append_singleton cs d ih =>
    rw [← List.cons_append]
    cases hd : isWhitespace d with
    | true => rw [List.rdropWhile_concat_pos _ _ _ hd, ih]
    | false =>
      rw [List.rdropWhile_concat_neg _ _ _ (by simp [hd])]
      simp [hc]

/-- A trimmed text has no white space at its ends. -/
theorem trimChars_idem (cs : List Char) : trimChars (trimChars cs) = trimChars cs := by
  unfold trimChars
  cases hdrop : cs.dropWhile isWhitespace with
  | nil => simp
  | cons c rest =>
    have hc : isWhitespace c = false := by
      have := List.head_dropWhile_not isWhitespace (l := cs) (by rw [hdrop]; simp)
      simpa [hdrop] using this
    rw [dropWhile_rdropWhile_of_head hc, List.rdropWhile_idempotent]

@[simp] theorem trim_trim (s : String) : trim (trim s) = trim s := by
  simp [trim, trimChars_idem]

/-- A text without white space is trimmed. -/
theorem trim_of_forall {s : String} (h : ∀ c ∈ s.toList, isWhitespace c = false) :
    trim s = s := by
  have hdrop : s.toList.dropWhile isWhitespace = s.toList := by
    rw [List.dropWhile_eq_self_iff]
    intro hl
    simp [h _ (List.getElem_mem hl)]
  have hrdrop : s.toList.rdropWhile isWhitespace = s.toList := by
    rw [List.rdropWhile_eq_self_iff]
    intro hl
    simp [h _ (List.getLast_mem hl)]
  rw [trim, trimChars, hdrop, hrdrop, String.ofList_toList]

theorem isWhitespace_of_isAlpha {c : Char} (h : c.isAlpha = true) : isWhitespace c = false := by
  have hletter : ((c.val ≥ 'A'.val ∧ c.val ≤ 'Z'.val : Bool) ||
      (c.val ≥ 'a'.val && c.val ≤ 'z'.val)) = true := h
  have hcode : (65 ≤ c.toNat ∧ c.toNat ≤ 90) ∨ 97 ≤ c.toNat ∧ c.toNat ≤ 122 := by
    simpa [UInt32.le_iff_toNat_le] using hletter
  unfold isWhitespace
  simp
  omega

/-- No capital letter has a capital of its own. -/
theorem toUpper_toUpper (c : Char) : c.toUpper.toUpper = c.toUpper := by
  by_cases h : 'a'.val ≤ c.val ∧ c.val ≤ 'z'.val
  · have hlow : ¬ ('a'.val ≤ c.toUpper.val ∧ c.toUpper.val ≤ 'z'.val) := by
      unfold Char.toUpper
      rw [dif_pos h]
      simp only [Char.reduceVal, UInt32.le_iff_toNat_le, UInt32.toNat_add] at h ⊢
      simp at h ⊢
      omega
    rw [show c.toUpper.toUpper = c.toUpper from dif_neg hlow]
  · rw [show c.toUpper = c from dif_neg h]
    exact dif_neg h

/-- An ASCII character that is no capital letter. -/
def isPlain (c : Char) : Bool := c.toNat < 128 && !(65 ≤ c.toNat && c.toNat ≤ 90)

/-- The case mappings of the two programs that normalise text. -/
structure CaseMap where
  /-- Rust's `str::to_lowercase`. -/
  toLowercase : String → String
  /-- PostgreSQL's `lower`. -/
  lower : String → String
  toLowercase_idem : ∀ s, toLowercase (toLowercase s) = toLowercase s
  trim_toLowercase : ∀ s, trim (toLowercase s) = toLowercase (trim s)
  lower_plain : ∀ s, (∀ c ∈ s.toList, isPlain c = true) → lower s = s

/-! ## The mappings on ASCII text -/

/-- `char::to_ascii_lowercase`. -/
def lowerChar (c : Char) : Char :=
  if 65 ≤ c.toNat ∧ c.toNat ≤ 90 then Char.ofNat (c.toNat + 32) else c

/-- The code of the character with a code. -/
theorem toNat_charOfNat {n : Nat} (h : n.isValidChar) : (Char.ofNat n).toNat = n := by
  rw [Char.ofNat, dif_pos h]
  show (UInt32.ofNatLT _ _).toNat = _
  rw [UInt32.toNat_ofNatLT]

theorem toNat_lowerChar (c : Char) :
    (lowerChar c).toNat = if 65 ≤ c.toNat ∧ c.toNat ≤ 90 then c.toNat + 32 else c.toNat := by
  unfold lowerChar
  split
  · rename_i h
    exact toNat_charOfNat (Or.inl (by omega))
  · rfl

theorem lowerChar_idem (c : Char) : lowerChar (lowerChar c) = lowerChar c := by
  have hnot : ¬ (65 ≤ (lowerChar c).toNat ∧ (lowerChar c).toNat ≤ 90) := by
    rw [toNat_lowerChar]
    split <;> omega
  rw [lowerChar, if_neg hnot]

theorem lowerChar_of_isPlain {c : Char} (h : isPlain c = true) : lowerChar c = c := by
  simp only [isPlain, Bool.and_eq_true, Bool.not_eq_true', Bool.and_eq_false_iff,
    decide_eq_true_eq, decide_eq_false_iff_not] at h
  rw [lowerChar, if_neg (by omega)]

theorem isWhitespace_lowerChar (c : Char) : isWhitespace (lowerChar c) = isWhitespace c := by
  unfold isWhitespace
  simp only [toNat_lowerChar]
  split
  · rename_i h
    rw [Bool.eq_iff_iff]
    simp
    omega
  · rfl

theorem trimChars_map_lowerChar (cs : List Char) :
    trimChars (cs.map lowerChar) = (trimChars cs).map lowerChar := by
  have hspace : isWhitespace ∘ lowerChar = isWhitespace := funext isWhitespace_lowerChar
  rw [trimChars, trimChars, List.dropWhile_map, hspace, List.rdropWhile, List.rdropWhile,
    ← List.map_reverse, List.dropWhile_map, hspace, List.map_reverse]

/-- The case mappings on ASCII text. -/
def CaseMap.ascii : CaseMap where
  toLowercase s := String.ofList (s.toList.map lowerChar)
  lower s := String.ofList (s.toList.map lowerChar)
  toLowercase_idem s := by
    have hidem : lowerChar ∘ lowerChar = lowerChar := funext lowerChar_idem
    simp [hidem]
  trim_toLowercase s := by simp [trim, trimChars_map_lowerChar]
  lower_plain s hs := by
    have hid : s.toList.map lowerChar = s.toList.map id :=
      List.map_congr_left fun c hc => lowerChar_of_isPlain (hs c hc)
    rw [hid, List.map_id, String.ofList_toList]

end BikesNest.Text
