import BikesNest.Lib.Percent
import BikesNest.Web.Csrf

/-!
# Query strings of requests

What axum's `Query` and `Form` read out of a request, and what the encoders of
the source write into a URL: `encode_query_value` (`htmx.rs`) and `urlencode`
(`routes/search.rs`), both of them tables of `Percent`.

`queryPairs_writeQuery` says that the pairs that one of them has written are the
pairs that the request is read to have, for texts of any characters.
-/

namespace BikesNest.Web

-- Facts about the characters of a text are decided along the text, not over all characters.
attribute [local instance (high)] List.decidableBAll

/-! ## Characters read back -/

section Characters

variable {v : Nat} (rest : List UInt8)

theorem readLossy_one (hv : v < 0x80) :
    readLossy (.ofNat v) rest = (Char.ofNat v, rest) := by
  have hb : (UInt8.ofNat v).toNat = v := by simp; omega
  simp only [readLossy, hb]
  rw [if_pos hv]

theorem readLossy_two (hlow : 0x80 ≤ v) (hhigh : v < 0x800) :
    readLossy (.ofNat (v / 64 % 32 + 0xC0)) (.ofNat (v % 64 + 0x80) :: rest) =
      (Char.ofNat v, rest) := by
  have hb : (UInt8.ofNat (v / 64 % 32 + 0xC0)).toNat = v / 64 + 0xC0 := by simp; omega
  have hb₁ : (UInt8.ofNat (v % 64 + 0x80)).toNat = v % 64 + 0x80 := by simp; omega
  have hsum : (v / 64 + 0xC0 - 0xC0) * 64 + (v % 64 + 0x80 - 0x80) = v := by omega
  simp only [readLossy, hb]
  rw [if_neg (by omega), if_pos (by omega)]
  simp only [readContinuation, hb₁, hsum]
  rw [if_pos (by omega)]

theorem readLossy_three (hlow : 0x800 ≤ v) (hhigh : v < 0x10000)
    (hsurrogate : v < 0xD800 ∨ 0xDFFF < v) :
    readLossy (.ofNat (v / 4096 % 16 + 0xE0))
      (.ofNat (v / 64 % 64 + 0x80) :: .ofNat (v % 64 + 0x80) :: rest) = (Char.ofNat v, rest) := by
  have hb : (UInt8.ofNat (v / 4096 % 16 + 0xE0)).toNat = v / 4096 + 0xE0 := by simp; omega
  have hb₁ : (UInt8.ofNat (v / 64 % 64 + 0x80)).toNat = v / 64 % 64 + 0x80 := by simp; omega
  have hb₂ : (UInt8.ofNat (v % 64 + 0x80)).toNat = v % 64 + 0x80 := by simp; omega
  -- The second byte is bounded where the first is `E0` or `ED`.
  have hread : ∀ first low high, first = v / 4096 → low ≤ v / 64 % 64 + 0x80 →
      v / 64 % 64 + 0x80 ≤ high →
      readContinuation [(low, high), (0x80, 0xBF)] first
        (.ofNat (v / 64 % 64 + 0x80) :: .ofNat (v % 64 + 0x80) :: rest) = (Char.ofNat v, rest) := by
    intro first low high hfirst hle hge
    have hsum : (first * 64 + (v / 64 % 64 + 0x80 - 0x80)) * 64 + (v % 64 + 0x80 - 0x80) = v := by
      omega
    simp only [readContinuation, hb₁, hb₂, hsum]
    rw [if_pos ⟨hle, hge⟩, if_pos (by omega)]
  simp only [readLossy, hb]
  rw [if_neg (by omega), if_neg (by omega)]
  split
  · exact hread _ _ _ (by omega) (by omega) (by omega)
  · split
    · exact hread _ _ _ (by omega) (by omega) (by omega)
    · rw [if_pos (by omega)]
      exact hread _ _ _ (by omega) (by omega) (by omega)

theorem readLossy_four (hlow : 0x10000 ≤ v) (hhigh : v < 0x110000) :
    readLossy (.ofNat (v / 262144 % 8 + 0xF0)) (.ofNat (v / 4096 % 64 + 0x80) ::
      .ofNat (v / 64 % 64 + 0x80) :: .ofNat (v % 64 + 0x80) :: rest) = (Char.ofNat v, rest) := by
  have hb : (UInt8.ofNat (v / 262144 % 8 + 0xF0)).toNat = v / 262144 + 0xF0 := by simp; omega
  have hb₁ : (UInt8.ofNat (v / 4096 % 64 + 0x80)).toNat = v / 4096 % 64 + 0x80 := by simp; omega
  have hb₂ : (UInt8.ofNat (v / 64 % 64 + 0x80)).toNat = v / 64 % 64 + 0x80 := by simp; omega
  have hb₃ : (UInt8.ofNat (v % 64 + 0x80)).toNat = v % 64 + 0x80 := by simp; omega
  have hread : ∀ first low high, first = v / 262144 → low ≤ v / 4096 % 64 + 0x80 →
      v / 4096 % 64 + 0x80 ≤ high →
      readContinuation [(low, high), (0x80, 0xBF), (0x80, 0xBF)] first
        (.ofNat (v / 4096 % 64 + 0x80) :: .ofNat (v / 64 % 64 + 0x80) ::
          .ofNat (v % 64 + 0x80) :: rest) = (Char.ofNat v, rest) := by
    intro first low high hfirst hle hge
    have hsum : ((first * 64 + (v / 4096 % 64 + 0x80 - 0x80)) * 64 +
        (v / 64 % 64 + 0x80 - 0x80)) * 64 + (v % 64 + 0x80 - 0x80) = v := by omega
    simp only [readContinuation, hb₁, hb₂, hb₃, hsum]
    rw [if_pos ⟨hle, hge⟩, if_pos (by omega), if_pos (by omega)]
  simp only [readLossy, hb]
  rw [if_neg (by omega), if_neg (by omega), if_neg (by omega), if_neg (by omega),
    if_neg (by omega)]
  split
  · exact hread _ _ _ (by omega) (by omega) (by omega)
  · split
    · exact hread _ _ _ (by omega) (by omega) (by omega)
    · rw [if_pos (by omega)]
      exact hread _ _ _ (by omega) (by omega) (by omega)

end Characters

/-- A character is read back from its bytes, whatever follows them. -/
theorem readLossy_utf8EncodeChar (c : Char) (rest : List UInt8) :
    ∃ b bytes, String.utf8EncodeChar c = b :: bytes ∧ readLossy b (bytes ++ rest) = (c, rest) := by
  have hvalid := c.valid
  have hchar : Char.ofNat c.val.toNat = c := Char.ofNat_toNat c
  unfold UInt32.isValidChar Nat.isValidChar at hvalid
  unfold String.utf8EncodeChar
  generalize c.val.toNat = v at hvalid hchar
  rw [← hchar]
  dsimp only
  split
  · exact ⟨_, _, rfl, readLossy_one rest (by omega)⟩
  · split
    · exact ⟨_, _, rfl, readLossy_two rest (by omega) (by omega)⟩
    · split
      · exact ⟨_, _, rfl, readLossy_three rest (by omega) (by omega) (by omega)⟩
      · exact ⟨_, _, rfl, readLossy_four rest (by omega) (by omega)⟩

theorem fromUtf8LossyIn_utf8 (s : List Char) (steps : Nat) (h : (utf8 s).length ≤ steps) :
    fromUtf8LossyIn steps (utf8 s) = s := by
  induction s generalizing steps with
  | nil => cases steps <;> rfl
  | cons c s ih =>
    have hread := readLossy_utf8EncodeChar c (utf8 s)
    obtain ⟨b, bytes, hbytes, hread⟩ := hread
    have hcons : utf8 (c :: s) = b :: (bytes ++ utf8 s) := by
      simp [utf8, hbytes]
    rw [hcons] at h ⊢
    cases steps with
    | zero => simp at h
    | succ steps =>
      simp only [List.length_cons, List.length_append] at h
      simp only [fromUtf8LossyIn, hread]
      rw [ih steps (by omega)]

/-- `String::from_utf8_lossy` loses nothing of a text. -/
@[simp] theorem fromUtf8Lossy_utf8 (s : List Char) : fromUtf8Lossy (utf8 s) = s :=
  fromUtf8LossyIn_utf8 s _ le_rfl

/-! ## Texts of URLs -/

/-- Bytes as characters, one each: `out.push(b as char)`. -/
def latin (bytes : List UInt8) : List Char := bytes.map fun b => Char.ofNat b.toNat

theorem utf8_latin {bytes : List UInt8} (h : ∀ b ∈ bytes, b.toNat < 0x80) :
    utf8 (latin bytes) = bytes := by
  induction bytes with
  | nil => rfl
  | cons b bytes ih =>
    have hb := h b List.mem_cons_self
    have hvalid : b.toNat.isValidChar := .inl (by omega)
    have hvalue : (Char.ofNat b.toNat).val.toNat = b.toNat := by
      rw [Char.ofNat, dif_pos hvalid]
      rfl
    have hone : String.utf8EncodeChar (Char.ofNat b.toNat) = [b] := by
      unfold String.utf8EncodeChar
      rw [hvalue, if_pos (by omega), UInt8.ofNat_toNat]
    have hrest := ih fun b hb => h b (List.mem_cons_of_mem _ hb)
    simp only [utf8, latin, List.map_cons, List.flatMap_cons] at hrest ⊢
    rw [hone, hrest, List.singleton_append]

/-- The text that a table writes for a text. -/
def written (table : UInt8 → List UInt8) (s : List Char) : List Char :=
  latin (Percent.encode table (utf8 s))

/-- Letters, digits and the four signs that every encoder of the source keeps. -/
def isUnreserved (b : UInt8) : Bool :=
  (65 ≤ b && b ≤ 90) || (97 ≤ b && b ≤ 122) || (48 ≤ b && b ≤ 57) ||
    b = 45 || b = 95 || b = 46 || b = 126

/-- `encode_query_value` keeps the slash as well. -/
def encodeQueryValue : List Char → List Char :=
  written (Percent.keeping fun b => isUnreserved b || b = 47)

/-- `urlencode` writes a plus sign for a space. -/
def urlencode : List Char → List Char := written (Percent.form isUnreserved)

/-! ## Tables of ASCII -/

/-- A table for names and values that writes ASCII only. -/
structure Writes (table : UInt8 → List UInt8) : Prop extends Percent.Separable table where
  ascii : ∀ b, ∀ x ∈ table b, x.toNat < 0x80

theorem ascii_keeping {keep : UInt8 → Bool} (h : ∀ b, keep b = true → b.toNat < 0x80) (b : UInt8) :
    ∀ x ∈ Percent.keeping keep b, x.toNat < 0x80 := by
  intro x hx
  have hwritten := Percent.mem_keeping hx
  rcases hwritten with hkeep | hrange
  · exact h x hkeep
  · omega

theorem toNat_lt_of_isUnreserved {b : UInt8} (h : isUnreserved b = true) : b.toNat < 0x80 := by
  simp only [isUnreserved, Bool.or_eq_true, Bool.and_eq_true, decide_eq_true_eq,
    UInt8.le_iff_toNat_le, ← UInt8.toNat_inj] at h
  simp at h
  omega

theorem writes_query : Writes (Percent.keeping fun b => isUnreserved b || b = 47) where
  toSeparable := Percent.separable_keeping (by decide)
  ascii := by
    apply ascii_keeping
    intro b hb
    simp only [Bool.or_eq_true, decide_eq_true_eq] at hb
    rcases hb with hb | hb
    · exact toNat_lt_of_isUnreserved hb
    · simp [hb]

theorem writes_form {keep : UInt8 → Bool} (h : ∀ b ∈ [37, 43, 38, 61], keep b = false)
    (hascii : ∀ b, keep b = true → b.toNat < 0x80) : Writes (Percent.form keep) where
  toSeparable := Percent.separable_form h
  ascii := by
    intro b x hx
    unfold Percent.form at hx
    split at hx
    · simp at hx
      simp [hx]
    · exact ascii_keeping hascii b x hx

theorem writes_urlencode : Writes (Percent.form isUnreserved) :=
  writes_form (by decide) fun _ => toNat_lt_of_isUnreserved

theorem Writes.ascii_encode {table : UInt8 → List UInt8} (h : Writes table) (bytes : List UInt8) :
    ∀ x ∈ Percent.encode table bytes, x.toNat < 0x80 := by
  intro x hx
  have hx := List.mem_flatMap.mp hx
  obtain ⟨b, -, hb⟩ := hx
  exact h.ascii b x hb

@[simp] theorem Writes.utf8_written {table : UInt8 → List UInt8} (h : Writes table)
    (s : List Char) : utf8 (written table s) = Percent.encode table (utf8 s) :=
  utf8_latin (h.ascii_encode _)

/-! ## What a request says -/

/-- The pairs that `Query` and `Form` hand to serde: `form_urlencoded::parse`. -/
def formPairs (bytes : List UInt8) : List (List Char × List Char) :=
  (Percent.pairs bytes).map fun p => (fromUtf8Lossy p.1, fromUtf8Lossy p.2)

/-- The pairs of a query that may be missing. -/
def queryPairs (query : Option (List Char)) : List (List Char × List Char) :=
  formPairs (utf8 (query.getD []))

/-- What serde finds for a field of a struct.  A field that comes twice is refused;
names that the struct does not have are passed over. -/
def field (pairs : List (List Char × List Char)) (name : List Char) :
    Option (Option (List Char)) :=
  match (pairs.filter fun p => p.1 = name).map Prod.snd with
  | [] => some none
  | [value] => some (some value)
  | _ => none

/-- A pair as the source formats it. -/
def assigned (name value : List Char) : List Char := name ++ '=' :: value

/-- The pairs of a link. -/
def joined (parts : List (List Char)) : List Char := ['&'].intercalate parts

@[simp] theorem joined_singleton (part : List Char) : joined [part] = part := by
  simp [joined]

/-- Names that need no encoding. -/
def IsName (name : List Char) : Prop := ∀ b ∈ utf8 name, isUnreserved b = true

theorem utf8_append (s t : List Char) : utf8 (s ++ t) = utf8 s ++ utf8 t := List.flatMap_append

theorem utf8_joined (parts : List (List Char)) :
    utf8 (joined parts) = [38].intercalate (parts.map utf8) := by
  induction parts with
  | nil => rfl
  | cons part parts ih =>
    cases parts with
    | nil => simp [joined]
    | cons next parts =>
      have hcons : joined (part :: next :: parts) = part ++ '&' :: joined (next :: parts) := by
        simp [joined, List.intercalate, List.intersperse]
      rw [hcons, utf8_append]
      show utf8 part ++ 38 :: utf8 (joined (next :: parts)) = _
      rw [ih]
      simp [List.intercalate]

theorem formPairs_join {table : UInt8 → List UInt8} (h : Percent.Separable table)
    (pairs : List (List Char × List Char)) :
    formPairs (Percent.join table (pairs.map fun p => (utf8 p.1, utf8 p.2))) = pairs := by
  rw [formPairs, Percent.pairs_join h, List.map_map]
  conv_rhs => rw [← List.map_id pairs]
  apply List.map_congr_left
  intro p hp
  simp

/-- A table that leaves names as they are. -/
def KeepsNames (table : UInt8 → List UInt8) : Prop := ∀ b, isUnreserved b = true → table b = [b]

theorem keepsNames_keeping {keep : UInt8 → Bool} (h : ∀ b, isUnreserved b = true → keep b = true) :
    KeepsNames (Percent.keeping keep) := by
  intro b hb
  simp [Percent.keeping, h b hb]

theorem keepsNames_form {keep : UInt8 → Bool} (hspace : keep 32 = false)
    (hkeep : ∀ b, isUnreserved b = true → keep b = true) : KeepsNames (Percent.form keep) := by
  intro b hb
  have hkept := hkeep b hb
  have hne : b ≠ 32 := by
    intro h
    simp [h, hspace] at hkept
  simp [Percent.form, Percent.keeping, hkept, hne]

theorem KeepsNames.encode {table : UInt8 → List UInt8} (h : KeepsNames table) {bytes : List UInt8}
    (hbytes : ∀ b ∈ bytes, isUnreserved b = true) : Percent.encode table bytes = bytes := by
  induction bytes with
  | nil => rfl
  | cons b bytes ih =>
    have hb := hbytes b List.mem_cons_self
    have hrest := ih fun b hb => hbytes b (List.mem_cons_of_mem _ hb)
    rw [Percent.encode_cons, h b hb, hrest, List.singleton_append]

theorem utf8_assigned {table : UInt8 → List UInt8} (h : Writes table) (hnames : KeepsNames table)
    {name : List Char} (hname : IsName name) (value : List Char) :
    utf8 (assigned name (written table value)) =
      Percent.writePair table (utf8 name, utf8 value) := by
  have hcons : utf8 ('=' :: written table value) = 61 :: utf8 (written table value) := rfl
  rw [assigned, utf8_append, hcons, h.utf8_written, Percent.writePair, hnames.encode hname]

/-- The pairs that have been written into a link are the pairs that are read. -/
theorem queryPairs_writeQuery {table : UInt8 → List UInt8} (h : Writes table)
    (hnames : KeepsNames table) {pairs : List (List Char × List Char)}
    (hpairs : ∀ p ∈ pairs, IsName p.1) :
    queryPairs (some (joined (pairs.map fun p => assigned p.1 (written table p.2)))) = pairs := by
  have hwritten : (pairs.map fun p => assigned p.1 (written table p.2)).map utf8 =
      (pairs.map fun p => (utf8 p.1, utf8 p.2)).map (Percent.writePair table) := by
    rw [List.map_map, List.map_map]
    apply List.map_congr_left
    intro p hp
    exact utf8_assigned h hnames (hpairs p hp) p.2
  show formPairs (utf8 (joined _)) = _
  rw [utf8_joined, hwritten]
  exact formPairs_join h.toSeparable pairs

/-- A text that needs no encoding is its own encoding. -/
theorem written_of_encode {table : UInt8 → List UInt8} {s : List Char}
    (h : Percent.encode table (utf8 s) = utf8 s) (hascii : ∀ c ∈ s, c.toNat < 0x80) :
    written table s = s := by
  rw [written, h]
  apply utf8_injective
  apply utf8_latin
  intro b hb
  have hlt := utf8_ascii hascii b hb
  simpa using UInt8.lt_iff_toNat_lt.mp hlt

/-! ## Texts that need no encoding -/

/-- A text of unreserved characters. -/
def IsUnreservedText (s : List Char) : Prop :=
  ∀ c ∈ s, c.toNat < 128 ∧ isUnreserved (.ofNat c.toNat) = true

/-- The bytes of a text of characters that are kept. -/
theorem keeps_utf8 {keep : UInt8 → Bool} {s : List Char}
    (h : ∀ c ∈ s, c.toNat < 128 ∧ keep (.ofNat c.toNat) = true) :
    ∀ b ∈ utf8 s, keep b = true := by
  intro b hb
  have hb := List.mem_flatMap.mp hb
  obtain ⟨c, hc, hb⟩ := hb
  have hchar := h c hc
  have hsize : c.utf8Size = 1 := Char.utf8Size_eq_one_iff.mpr (by
    show c.val.toNat ≤ 127
    have hval : c.val.toNat = c.toNat := rfl
    omega)
  rw [String.utf8EncodeChar_eq_singleton hsize, List.mem_singleton] at hb
  rw [hb]
  exact hchar.2

theorem isName_of_isUnreservedText {s : List Char} (h : IsUnreservedText s) : IsName s :=
  keeps_utf8 h

/-- A text of characters that a table of forms keeps is written as it is. -/
theorem written_form_of_kept {keep : UInt8 → Bool} (hspace : keep 32 = false) {s : List Char}
    (h : ∀ c ∈ s, c.toNat < 128 ∧ keep (.ofNat c.toNat) = true) :
    written (Percent.form keep) s = s :=
  written_of_encode (Percent.encode_form_of_kept hspace (keeps_utf8 h)) fun c hc => (h c hc).1

theorem urlencode_of_isUnreservedText {s : List Char} (h : IsUnreservedText s) :
    urlencode s = s :=
  written_form_of_kept (by decide) h

theorem isUnreservedText_toDigits (n : Nat) : IsUnreservedText (Nat.toDigits 10 n) := by
  intro c hc
  have hdigit := Nat.isDigit_of_mem_toDigits (by decide) (by decide) hc
  have hrange : 48 ≤ c.toNat ∧ c.toNat ≤ 57 := by
    simp only [Char.isDigit, Bool.and_eq_true, decide_eq_true_eq, ge_iff_le,
      UInt32.le_iff_toNat_le] at hdigit
    exact hdigit
  have hbyte : (UInt8.ofNat c.toNat).toNat = c.toNat := by
    simp
    omega
  refine ⟨by omega, ?_⟩
  simp only [isUnreserved, Bool.or_eq_true, Bool.and_eq_true, decide_eq_true_eq,
    UInt8.le_iff_toNat_le, hbyte]
  simp
  omega

/-! ## Fields that are given -/

/-- The pairs of the fields that have a value. -/
def given (fields : List (List Char × Option (List Char))) : List (List Char × List Char) :=
  fields.filterMap fun f => f.2.map fun value => (f.1, value)

theorem fst_mem_of_mem_given {fields : List (List Char × Option (List Char))}
    {p : List Char × List Char} (h : p ∈ given fields) : p.1 ∈ fields.map Prod.fst := by
  have h := List.mem_filterMap.mp h
  obtain ⟨f, hf, hvalue⟩ := h
  have hvalue := Option.map_eq_some_iff.mp hvalue
  obtain ⟨value, -, rfl⟩ := hvalue
  exact List.mem_map.mpr ⟨f, hf, rfl⟩

/-- Where no name comes twice, a field has the value it was given. -/
theorem field_given {fields : List (List Char × Option (List Char))}
    (hnodup : (fields.map Prod.fst).Nodup) {name : List Char} {value : Option (List Char)}
    (h : (name, value) ∈ fields) : field (given fields) name = some value := by
  have hfilter : ((given fields).filter fun p => p.1 = name).map Prod.snd = value.toList := by
    induction fields with
    | nil => cases h
    | cons f fields ih =>
      have hparts := List.nodup_cons.mp hnodup
      have hcons : given (f :: fields) =
          (f.2.map fun value => (f.1, value)).toList ++ given fields := by
        cases hvalue : f.2 <;> simp [given, hvalue]
      rw [hcons, List.filter_append, List.map_append]
      cases h with
      | head =>
        have hrest : (given fields).filter (fun p => p.1 = name) = [] := by
          apply List.filter_eq_nil_iff.mpr
          intro p hp hname
          have hname : p.1 = name := by simpa using hname
          have hmem := fst_mem_of_mem_given hp
          rw [hname] at hmem
          exact hparts.1 hmem
        rw [hrest]
        cases value <;> simp
      | tail _ h =>
        have hne : ¬ f.1 = name := by
          intro hname
          rw [hname] at hparts
          exact hparts.1 (List.mem_map.mpr ⟨_, h, rfl⟩)
        have hfirst : (f.2.map fun value => (f.1, value)).toList.filter (fun p => p.1 = name) =
            [] := by
          cases f.2 <;> simp [hne]
        rw [hfirst, ih hparts.2 h]
        rfl
  rw [field, hfilter]
  cases value <;> rfl

/-- The fields of a link are read from it where a table of forms keeps the characters of their
values. -/
theorem queryPairs_given_of_kept {keep : UInt8 → Bool} (hwrites : Writes (Percent.form keep))
    (hspace : keep 32 = false) (hkeep : ∀ b, isUnreserved b = true → keep b = true)
    {fields : List (List Char × Option (List Char))}
    (hnames : ∀ name ∈ fields.map Prod.fst, IsUnreservedText name)
    (hvalues : ∀ p ∈ given fields, ∀ c ∈ p.2, c.toNat < 128 ∧ keep (.ofNat c.toNat) = true) :
    queryPairs (some (joined ((given fields).map fun p => assigned p.1 p.2))) = given fields := by
  have hplain : (given fields).map (fun p => assigned p.1 p.2) =
      (given fields).map fun p => assigned p.1 (written (Percent.form keep) p.2) := by
    apply List.map_congr_left
    intro p hp
    rw [written_form_of_kept hspace (hvalues p hp)]
  rw [hplain]
  apply queryPairs_writeQuery hwrites (keepsNames_form hspace hkeep)
  intro p hp
  exact isName_of_isUnreservedText (hnames p.1 (fst_mem_of_mem_given hp))

/-- The fields of a link whose names and values need no encoding are read from it. -/
theorem queryPairs_given {fields : List (List Char × Option (List Char))}
    (hnames : ∀ name ∈ fields.map Prod.fst, IsUnreservedText name)
    (hvalues : ∀ p ∈ given fields, IsUnreservedText p.2) :
    queryPairs (some (joined ((given fields).map fun p => assigned p.1 p.2))) = given fields :=
  queryPairs_given_of_kept writes_urlencode (by decide) (fun _ h => h) hnames hvalues

/-! ## Numbers -/

/-- The sign of a number, and what stands behind it. -/
def splitSign : List Char → Bool × List Char
  | '-' :: rest => (true, rest)
  | '+' :: rest => (false, rest)
  | s => (false, s)

/-- `str::parse::<i64>`. -/
def parseI64 (s : List Char) : Option Int :=
  let (negative, digits) := splitSign s
  let value : Int := Nat.ofDigitChars 10 digits 0
  let value := if negative then -value else value
  if digits ≠ [] ∧ digits.all Char.isDigit ∧ -9223372036854775808 ≤ value ∧
      value < 9223372036854775808 then
    some value
  else none

/-- A number that is no wider than an `i64` is read as it is displayed. -/
theorem parseI64_toDigits {n : Nat} (h : n < 9223372036854775808) :
    parseI64 (Nat.toDigits 10 n) = some (n : Int) := by
  have hne : Nat.toDigits 10 n ≠ [] := Nat.toDigits_ne_nil
  have hdigits : (Nat.toDigits 10 n).all Char.isDigit = true := by
    apply List.all_eq_true.mpr
    intro c hc
    exact Nat.isDigit_of_mem_toDigits (by decide) (by decide) hc
  have hsign : splitSign (Nat.toDigits 10 n) = (false, Nat.toDigits 10 n) := by
    unfold splitSign
    split
    · rename_i rest hrest
      rw [hrest] at hdigits
      simp at hdigits
    · rename_i rest hrest
      rw [hrest] at hdigits
      simp at hdigits
    · rfl
  have hvalue : Nat.ofDigitChars 10 (Nat.toDigits 10 n) 0 = n := Nat.ofDigitChars_ten_toDigits
  simp only [parseI64, hsign, hvalue, Bool.false_eq_true, if_false]
  rw [if_pos ⟨hne, hdigits, by omega, by omega⟩]

/-- `Display` of an `i64`. -/
def displayI64 (n : Int) : List Char :=
  if n < 0 then '-' :: Nat.toDigits 10 n.natAbs else Nat.toDigits 10 n.natAbs

/-- A number is read as it is displayed, with its sign. -/
theorem parseI64_displayI64 {n : Int} (hlow : -9223372036854775808 ≤ n)
    (hhigh : n < 9223372036854775808) : parseI64 (displayI64 n) = some n := by
  unfold displayI64
  split
  · have hdigits : (Nat.toDigits 10 n.natAbs).all Char.isDigit = true := by
      apply List.all_eq_true.mpr
      intro c hc
      exact Nat.isDigit_of_mem_toDigits (by decide) (by decide) hc
    have hvalue : Nat.ofDigitChars 10 (Nat.toDigits 10 n.natAbs) 0 = n.natAbs :=
      Nat.ofDigitChars_ten_toDigits
    simp only [parseI64, splitSign, hvalue, if_true]
    rw [if_pos ⟨Nat.toDigits_ne_nil, hdigits, by omega, by omega⟩]
    congr 1
    omega
  · rw [parseI64_toDigits (by omega)]
    congr 1
    omega

/-- What is read is an `i64`. -/
theorem range_of_parseI64 {s : List Char} {n : Int} (h : parseI64 s = some n) :
    -9223372036854775808 ≤ n ∧ n < 9223372036854775808 := by
  unfold parseI64 at h
  dsimp only at h
  split_ifs at h with hsign hfits hfits
  · cases h
    exact hfits.2.2
  · cases h
    exact hfits.2.2

end BikesNest.Web
