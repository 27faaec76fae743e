import BikesNest.Community.LocationForm
import BikesNest.Lib.Binary64

/-!
# The price field

`parse_price_major_to_cents` takes whatever text parses as an `f64`, and casts the
hundredfold with saturation.  `readNumber` is the grammar of `str::parse::<f64>`, which has
signs, exponents and, in any case, `nan`, `inf` and `infinity`; it reads the number that the
text denotes exactly.  `parseFloat` rounds it to the nearest `f64`.

`pricesAreReal_iff` says for which texts the field yields only prices that the text denotes.
It goes wrong where no number is denoted, where the number does not fit, where a negative one
is rounded to zero, and where the two roundings to `f64` take a number across half a cent.
The last never happens to an amount of whole cents up to `2 ^ 50` of them
(`parsePriceMajorToCents_cents`).
-/

namespace BikesNest.Community

open Domain Search

/-! ## `str::parse::<f64>` -/

def isDecimalDigit (c : Char) : Bool := 48 ≤ c.toNat && c.toNat ≤ 57

/-- The value of some digits. -/
def digitsValue (digits : List Char) : Nat :=
  digits.foldl (fun value c => value * 10 + (c.toNat - 48)) 0

/-- A sign in front of digits, as in an exponent. -/
def readSigned (s : List Char) : Option Int :=
  let digits := if s.head? = some '-' ∨ s.head? = some '+' then s.tail else s
  if digits = [] ∨ !digits.all isDecimalDigit then none
  else some (if s.head? = some '-' then -digitsValue digits else digitsValue digits)

/-- What follows the digits of a number. -/
def readExponent : List Char → Option Int
  | [] => some 0
  | c :: rest => if c = 'e' ∨ c = 'E' then readSigned rest else none

/-- Ten to a power. -/
def tenTo (e : Int) : Rat := if 0 ≤ e then (10 ^ e.toNat : Nat) else 1 / (10 ^ (-e).toNat : Nat)

/-- A number without a sign. -/
def readDecimal (s : List Char) : Option Rat :=
  let whole := s.takeWhile isDecimalDigit
  let rest := s.dropWhile isDecimalDigit
  let fraction := if rest.head? = some '.' then rest.tail.takeWhile isDecimalDigit else []
  let rest := if rest.head? = some '.' then rest.tail.dropWhile isDecimalDigit else rest
  if whole = [] ∧ fraction = [] then none
  else
    (readExponent rest).map fun e => digitsValue (whole ++ fraction) * tenTo (e - fraction.length)

/-- A text without its sign. -/
def unsigned (s : List Char) : List Char :=
  if s.head? = some '-' ∨ s.head? = some '+' then s.tail else s

/-- What a text denotes. -/
def readNumber (s : String) : Option ParsedFloat :=
  let negative := s.toList.head? = some '-'
  let body := unsigned s.toList
  match readDecimal body with
  | some q => some (.finite (if negative then -q else q))
  | none =>
    let name := body.map Text.lowerChar
    if name = "nan".toList then some .nan
    else if name = "inf".toList ∨ name = "infinity".toList then some (.infinite negative)
    else none

/-- From here on the nearest `f64` is an infinity. -/
def floatOverflow : Rat := (2 ^ 1024 - 2 ^ 970 : Nat)

/-- The nearest `f64`, as far as it does not overflow. -/
def nearestFloat (q : Rat) : Rat := if q < 0 then -binary64.round (-q) else binary64.round q

/-- A number as an `f64`. -/
def toFloat : ParsedFloat → ParsedFloat
  | .finite q => if floatOverflow ≤ |q| then .infinite (q < 0) else .finite (nearestFloat q)
  | x => x

/-- `str::parse::<f64>`. -/
def parseFloat (s : String) : Option ParsedFloat := (readNumber s).map toFloat

/-- The parsers of a form, with those of `f64` as they are. -/
def floatParsers (chrono : Chrono) (isZone : String → Bool) : FormParsers where
  chrono := chrono
  isZone := isZone
  parseF64 := parseFloat
  round := nearestFloat

/-! ## Real prices -/

/-- The text that is parsed: trimmed, with a comma read as a point. -/
def priceText (raw : String) : String :=
  (Text.trim raw).map fun c => if c = ',' then '.' else c

/-- An amount in cents, to the nearest integer; half a cent counts. -/
def centsOf (x : Rat) : Int := ⌊x * 100 + 1 / 2⌋

/-- The text denotes a number that is not negative, and `cents` is its hundredfold, to the
nearest integer, and within the range of an `i64`. -/
def RealPrice (raw : String) (cents : Int) : Prop :=
  ∃ x, readNumber (priceText raw) = some (.finite x) ∧ 0 ≤ x ∧ cents = centsOf x ∧
    cents ≤ i64Max

/-- Every price that the field yields is real, by itself and in a cost. -/
def PricesAreReal (P : FormParsers) (raw : String) : Prop :=
  (∀ cents, parsePriceMajorToCents P raw = some cents → RealPrice raw cents) ∧
    ∀ (form : ContributionForm) (price : Money), form.price = raw →
      costFromForm P form = .ok (.paid (some price)) → RealPrice raw price.cents

/-! ## Where `f64` reaches a half cent -/

/-- The hundredfold of an `f64`. -/
def hundredfold (x : Rat) : Rat := binary64.round (x * 100)

/-- Some `f64` has a hundredfold of `k` and a half cents, or more. -/
theorem exists_hundredfold (k : Nat) : ∃ n, (k : Rat) + 1 / 2 ≤ hundredfold (binary64.val n) := by
  have hk : (0 : Rat) ≤ k + 1 := by positivity
  refine ⟨binary64.floor (k + 1) + 1, ?_⟩
  have hlarge := Grid.lt_val_floor_succ (G := binary64) hk
  calc (k : Rat) + 1 / 2
      ≤ binary64.val (binary64.floor (k + 1) + 1) := by linarith
    _ = binary64.round (binary64.val (binary64.floor (k + 1) + 1)) := (Grid.round_val _).symm
    _ ≤ hundredfold (binary64.val (binary64.floor (k + 1) + 1)) :=
        Grid.round_mono (Grid.val_nonneg _) (by linarith)

/-- The last `f64` whose hundredfold is less than `k` and a half cents, by its index. -/
def lastBelow (k : Nat) : Nat := Grid.last (exists_hundredfold k)

/-- No half cent lies between the number and what `f64` makes of it: the number is at least
`k` and a half cents exactly if it is past the middle between the last `f64` whose hundredfold
is less and the next. -/
def CrossesNoHalf (x : Rat) : Prop :=
  ∀ k : Nat, k < i64Max → ((k + 1 / 2 : Rat) ≤ x * 100 ↔ binary64.Past (lastBelow k) x)

/-- From minus this on a negative number is rounded to zero. -/
def tiniest : Rat := 1 / 2 ^ 1075

/-- The numbers of which `f64` makes the right price, or none. -/
def IsPriced : ParsedFloat → Prop
  | .nan => False
  | .infinite negative => negative = true
  | .finite x => x < -tiniest ∨ 0 ≤ x ∧ centsOf x ≤ i64Max ∧ CrossesNoHalf x

/-- A cost with a price has the price of the field. -/
theorem cents_of_costFromForm {P : FormParsers} {form : ContributionForm} {price : Money}
    (h : costFromForm P form = .ok (.paid (some price))) :
    parsePriceMajorToCents P form.price = some price.cents := by
  unfold costFromForm at h
  split at h
  · cases h
  · cases hcents : parsePriceMajorToCents P form.price with
    | none =>
      rw [hcents] at h
      cases h
    | some cents =>
      rw [hcents] at h
      dsimp only at h
      split_ifs at h
      · cases hcurrency : (currencyOf form.priceCurrency).mapError FormError.invalid with
        | error e =>
          rw [hcurrency] at h
          cases h
        | ok currency =>
          cases hunit : (pricingUnitOf form.priceUnit).mapError FormError.invalid with
          | error e =>
            rw [hcurrency, hunit] at h
            cases h
          | ok unit =>
            rw [hcurrency, hunit] at h
            cases h
            rfl
      · cases h
  · cases h

/-- The price of a number: none where it is negative. -/
def priceOf (P : FormParsers) : ParsedFloat → Option Int
  | .finite major => if major < 0 then none else some (roundToI64 (P.round (major * 100)))
  | .nan => some 0
  | .infinite negative => if negative then none else some i64Max

theorem parsePriceMajorToCents_eq (P : FormParsers) (raw : String) :
    parsePriceMajorToCents P raw =
      if priceText raw = "" then none else (P.parseF64 (priceText raw)).bind (priceOf P) := by
  rw [parsePriceMajorToCents]
  rw [← priceText]
  split_ifs
  · rfl
  · cases P.parseF64 (priceText raw) with
    | none => rfl
    | some x => cases x <;> rfl

/-! ## The two roundings -/

section Roundings

variable {x : Rat}

theorem nearestFloat_of_nonneg (hx : 0 ≤ x) : nearestFloat x = binary64.round x :=
  if_neg (not_lt.mpr hx)

theorem hundredfold_mono (q q' : Rat) (hq : 0 ≤ q) (h : q ≤ q') :
    hundredfold q ≤ hundredfold q' :=
  Grid.round_mono (by linarith) (by linarith)

theorem binary64_round_zero : binary64.round 0 = 0 := by
  have h := Grid.round_val (G := binary64) 0
  rwa [binary64.val_zero] at h

/-- Where `f64` reaches a half cent. -/
theorem le_hundredfold_iff (hx : 0 ≤ x) (k : Nat) :
    (k : Rat) + 1 / 2 ≤ hundredfold (binary64.round x) ↔ binary64.Past (lastBelow k) x := by
  refine Grid.le_round_iff_past hundredfold_mono (exists_hundredfold k) ?_ hx
  rw [hundredfold, zero_mul, binary64_round_zero]
  positivity

/-- Two amounts have the same cents up to a bound when no half cent lies between them. -/
theorem min_floor_eq_iff {u v : Rat} (hu : 0 ≤ u) (hv : 0 ≤ v) {M : Int} :
    min ⌊v + 1 / 2⌋ M = ⌊u + 1 / 2⌋ ↔
      ⌊u + 1 / 2⌋ ≤ M ∧ ∀ k : Nat, k < M → ((k : Rat) + 1 / 2 ≤ u ↔ (k : Rat) + 1 / 2 ≤ v) := by
  have hcents : ∀ {q : Rat} {k : Nat}, (k : Rat) + 1 / 2 ≤ q ↔ (k : Int) + 1 ≤ ⌊q + 1 / 2⌋ := by
    intro q k
    rw [Int.le_floor]
    push_cast
    constructor <;> intro h <;> linarith
  have ha : 0 ≤ ⌊u + 1 / 2⌋ := Int.floor_nonneg.mpr (by linarith)
  have hb : 0 ≤ ⌊v + 1 / 2⌋ := Int.floor_nonneg.mpr (by linarith)
  simp only [hcents]
  generalize ⌊u + 1 / 2⌋ = a at ha
  generalize ⌊v + 1 / 2⌋ = b at hb
  constructor
  · intro h
    exact ⟨by omega, fun k hk => by omega⟩
  · intro ⟨hle, hsame⟩
    have hup := hsame (a - 1).toNat
    have hdown := hsame a.toNat
    omega

/-- The price of a number that is not negative, against the number itself. -/
theorem roundToI64_eq_iff (hx : 0 ≤ x) :
    roundToI64 (hundredfold (binary64.round x)) = centsOf x ↔
      centsOf x ≤ i64Max ∧ CrossesNoHalf x := by
  unfold roundToI64 centsOf CrossesNoHalf
  have hnonneg : 0 ≤ hundredfold (binary64.round x) := Grid.round_nonneg _
  rw [min_floor_eq_iff (by linarith) hnonneg]
  simp only [le_hundredfold_iff hx]

theorem i64Max_lt_centsOf (h : floatOverflow ≤ x) : i64Max < centsOf x := by
  refine Int.lt_of_add_one_le (Int.le_floor.mpr ?_)
  have hlarge : ((i64Max + 1 : Int) : Rat) ≤ floatOverflow := by decide +kernel
  have hpos : (0 : Rat) ≤ floatOverflow := by decide +kernel
  linarith

/-- A negative number stays one, unless it is rounded to zero. -/
theorem nearestFloat_neg_iff (hx : x < 0) : nearestFloat x < 0 ↔ x < -tiniest := by
  have hx' : 0 ≤ -x := by linarith
  have hmiddle : binary64.middle 0 = tiniest := by decide +kernel
  have hpos : 0 < binary64.nearest (-x) ↔ tiniest < -x := by
    rw [Grid.lt_nearest_iff hx', Grid.Past, hmiddle]
    simp
  have hround : 0 < binary64.round (-x) ↔ 0 < binary64.nearest (-x) := by
    rw [Grid.round, ← binary64.strictMono.lt_iff_lt, binary64.val_zero]
  rw [nearestFloat, if_pos hx, neg_lt_zero, hround, hpos, lt_neg]

/-- The roundings move whole cents by less than a quarter of a cent. -/
theorem abs_hundredfold_sub_lt {n : Nat} (hn : (n : Rat) ≤ 2 ^ 50) :
    |hundredfold (binary64.round (n / 100)) - n| < 1 / 2 := by
  rcases Nat.eq_zero_or_pos n with rfl | hpos
  · simp [hundredfold, binary64_round_zero]
  · have hone : (1 : Rat) ≤ n := by exact_mod_cast hpos
    have hfirst := Binary64.abs_round_sub_le (q := n / 100) (by
      refine le_trans ?_ (div_le_div_of_nonneg_right hone (by norm_num))
      decide +kernel)
    obtain ⟨hlow, hup⟩ := abs_le.mp hfirst
    have hnormal : (1 / 2 : Rat) ≤ binary64.round (n / 100) * 100 := by
      norm_num at hlow ⊢
      linarith
    have hsecond := Binary64.abs_round_sub_le (hnormal.trans' (by decide +kernel))
    obtain ⟨hlow', hup'⟩ := abs_le.mp hsecond
    unfold hundredfold
    generalize binary64.round (binary64.round (n / 100) * 100) = b at hlow' hup' ⊢
    generalize binary64.round (n / 100) = a at hlow hup hlow' hup'
    generalize (n : Rat) = x at hn hone hlow hup ⊢
    rw [abs_lt]
    constructor <;> linarith

theorem roundToI64_hundredfold {n : Nat} (hn : (n : Rat) ≤ 2 ^ 50) :
    roundToI64 (hundredfold (binary64.round (n / 100))) = n := by
  obtain ⟨hlow, hup⟩ := abs_lt.mp (abs_hundredfold_sub_lt hn)
  have hfloor : ⌊hundredfold (binary64.round (n / 100)) + 1 / 2⌋ = (n : Int) := by
    rw [Int.floor_eq_iff]
    push_cast
    constructor <;> linarith
  have hle : (n : Int) ≤ i64Max := by
    have hnat : n ≤ 2 ^ 50 := by exact_mod_cast hn
    have hmax : ((2 ^ 50 : Nat) : Int) ≤ i64Max := by decide
    omega
  rw [roundToI64, hfloor, min_eq_left hle]

end Roundings

section Price

variable {chrono : Chrono} {isZone : String → Bool} {raw : String}

theorem priceOf_of_nonneg {x : Rat} (hx : 0 ≤ x) :
    priceOf (floatParsers chrono isZone) (.finite (nearestFloat x)) =
      some (roundToI64 (hundredfold (binary64.round x))) := by
  have hround : 0 ≤ binary64.round x := Grid.round_nonneg x
  rw [nearestFloat_of_nonneg hx, priceOf, if_neg (not_lt.mpr hround)]
  show some (roundToI64 (nearestFloat (binary64.round x * 100))) = _
  rw [nearestFloat_of_nonneg (by linarith)]
  rfl

/-- The price of an `f64` is the one of the number that the text denotes exactly where this
is priced. -/
theorem priceOf_real_iff {x : ParsedFloat} (hread : readNumber (priceText raw) = some x) :
    (∀ cents, priceOf (floatParsers chrono isZone) (toFloat x) = some cents →
      RealPrice raw cents) ↔ IsPriced x := by
  have hreal : ∀ cents, RealPrice raw cents ↔
      ∃ q, x = .finite q ∧ 0 ≤ q ∧ cents = centsOf q ∧ cents ≤ i64Max := by
    intro cents
    simp only [RealPrice, hread, Option.some.injEq]
  cases x with
  | nan =>
    refine iff_of_false (fun h => ?_) (by exact id)
    obtain ⟨q, hnan, -⟩ := (hreal 0).mp (h 0 rfl)
    cases hnan
  | infinite negative =>
    cases negative with
    | true => exact iff_of_true (fun cents h => by cases h) rfl
    | false =>
      refine iff_of_false (fun h => ?_) nofun
      obtain ⟨q, hinf, -⟩ := (hreal i64Max).mp (h i64Max rfl)
      cases hinf
  | finite x =>
    simp only [hreal, ParsedFloat.finite.injEq, exists_eq_left', IsPriced]
    rcases lt_or_ge x 0 with hneg | hx
    · have hnot : ¬ (0 ≤ x ∧ centsOf x ≤ i64Max ∧ CrossesNoHalf x) := fun h => hneg.not_ge h.1
      rw [or_iff_left hnot]
      simp only [toFloat]
      split_ifs with hoverflow
      · rw [abs_of_neg hneg] at hoverflow
        have htiny : tiniest < floatOverflow := by decide +kernel
        refine iff_of_true (fun cents h => ?_) (by linarith)
        rw [decide_eq_true hneg] at h
        cases h
      · rw [← nearestFloat_neg_iff hneg, priceOf]
        split_ifs with hfloat
        · exact iff_of_true (fun cents h => by cases h) hfloat
        · exact iff_of_false (fun h => hneg.not_ge (h _ rfl).1) hfloat
    · have hnot : ¬ x < -tiniest := not_lt.mpr (le_trans (by decide +kernel) hx)
      rw [or_iff_right hnot, and_iff_right hx, ← roundToI64_eq_iff hx]
      simp only [toFloat, abs_of_nonneg hx]
      split_ifs with hoverflow
      · have hlarge := i64Max_lt_centsOf hoverflow
        have hle : roundToI64 (hundredfold (binary64.round x)) ≤ i64Max := min_le_right ..
        refine iff_of_false (fun h => ?_) (hle.trans_lt hlarge).ne
        have hcents := (h i64Max (by rw [decide_eq_false (not_lt.mpr hx)]; rfl)).2.1
        exact hlarge.ne hcents
      · rw [priceOf_of_nonneg hx]
        refine ⟨fun h => (h _ rfl).2.1, fun h cents hcents => ?_⟩
        obtain rfl := Option.some.inj hcents
        exact ⟨hx, h, min_le_right ..⟩

/-- The field yields only real prices exactly where its text denotes a number that is priced, or
none at all. -/
theorem pricesAreReal_iff (chrono : Chrono) (isZone : String → Bool) (raw : String) :
    PricesAreReal (floatParsers chrono isZone) raw ↔
      ∀ x, readNumber (priceText raw) = some x → IsPriced x := by
  have hfield : PricesAreReal (floatParsers chrono isZone) raw ↔
      ∀ cents, parsePriceMajorToCents (floatParsers chrono isZone) raw = some cents →
        RealPrice raw cents := by
    refine ⟨fun h => h.1, fun h => ⟨h, ?_⟩⟩
    rintro form price rfl hcost
    exact h price.cents (cents_of_costFromForm hcost)
  rw [hfield, parsePriceMajorToCents_eq]
  split_ifs with htext
  · refine iff_of_true (fun cents h => by cases h) fun x hx => ?_
    rw [htext] at hx
    cases hx
  · show (∀ cents, ((readNumber (priceText raw)).map toFloat).bind _ = some cents → _) ↔ _
    cases hread : readNumber (priceText raw) with
    | none => exact iff_of_true (fun cents h => by cases h) (fun x h => by cases h)
    | some x =>
      rw [Option.map_some, Option.bind_some, priceOf_real_iff hread]
      simp only [Option.some.injEq, forall_eq']

/-- An amount of whole cents, up to `2 ^ 50` of them, is the price. -/
theorem parsePriceMajorToCents_cents {n : Nat} (hn : n ≤ 2 ^ 50)
    (h : readNumber (priceText raw) = some (.finite (n / 100))) :
    parsePriceMajorToCents (floatParsers chrono isZone) raw = some (n : Int) := by
  have htext : priceText raw ≠ "" := by
    intro hempty
    rw [hempty] at h
    cases h
  have hx : (0 : Rat) ≤ n / 100 := by positivity
  have hbound : (n : Rat) ≤ 2 ^ 50 := by exact_mod_cast hn
  have hsmall : ¬ floatOverflow ≤ |(n : Rat) / 100| := by
    have hlarge : (2 ^ 50 : Rat) < floatOverflow := by decide +kernel
    rw [abs_of_nonneg hx]
    linarith
  rw [parsePriceMajorToCents_eq, if_neg htext]
  show ((readNumber (priceText raw)).map toFloat).bind _ = _
  rw [h, Option.map_some, Option.bind_some, toFloat, if_neg hsmall, priceOf_of_nonneg hx,
    roundToI64_hundredfold hbound]

end Price

/-! ## Spellings -/

theorem readDecimal_letter {c : Char} (hdigit : isDecimalDigit c = false) (hpoint : c ≠ '.')
    (rest : List Char) : readDecimal (c :: rest) = none := by
  simp [readDecimal, hdigit, hpoint]

/-- A text in any case, with or without a sign. -/
def IsSpelled (name : List Char) (s : String) : Prop :=
  ∃ sign ∈ [[], ['+'], ['-']], ∃ body, s.toList = sign ++ body ∧ body.map Text.lowerChar = name

theorem body_eq {sign body : List Char} (hsign : sign ∈ [[], ['+'], ['-']])
    (hbody : ∀ c ∈ body.head?, c ≠ '+' ∧ c ≠ '-') :
    (if (sign ++ body).head? = some '-' ∨ (sign ++ body).head? = some '+' then
      (sign ++ body).tail else sign ++ body) = body := by
  simp only [List.mem_cons, List.not_mem_nil, or_false] at hsign
  rcases hsign with rfl | rfl | rfl
  · rw [List.nil_append, if_neg]
    rintro (h | h)
    · exact (hbody '-' h).2 rfl
    · exact (hbody '+' h).1 rfl
  · rfl
  · rfl

/-- A letter that is lower-cased to a letter begins no number. -/
theorem ne_of_lowerChar {c d : Char} (h : Text.lowerChar c = d) (hd : 97 ≤ d.toNat) :
    isDecimalDigit c = false ∧ c ≠ '.' ∧ c ≠ '+' ∧ c ≠ '-' := by
  have hlower : ∀ e : Char, e.toNat < 65 → c ≠ e := by
    rintro e he rfl
    have hsame : Text.lowerChar c = c := by
      rw [Text.lowerChar, if_neg (by omega)]
    rw [hsame] at h
    rw [h] at he
    omega
  refine ⟨?_, hlower '.' (by decide), hlower '+' (by decide), hlower '-' (by decide)⟩
  cases hdigit : isDecimalDigit c with
  | false => rfl
  | true =>
    simp only [isDecimalDigit, Bool.and_eq_true, decide_eq_true_eq] at hdigit
    exact absurd rfl (hlower c (by omega))

theorem readNumber_nan {s : String} (h : IsSpelled "nan".toList s) : readNumber s = some .nan := by
  obtain ⟨sign, hsign, body, hs, hname⟩ := h
  cases body with
  | nil => cases hname
  | cons c rest =>
    obtain ⟨hc, -⟩ := List.cons.inj hname
    obtain ⟨hdigit, hpoint, hplus, hminus⟩ := ne_of_lowerChar hc (by decide)
    have hhead : ∀ d ∈ (c :: rest).head?, d ≠ '+' ∧ d ≠ '-' := by simp [hplus, hminus]
    have hbody : unsigned (sign ++ c :: rest) = c :: rest := body_eq hsign hhead
    simp only [readNumber, hs, hbody, readDecimal_letter hdigit hpoint, hname, if_true]

/-- Every spelling of `NaN` is the price zero. -/
theorem parsePriceMajorToCents_nan {chrono : Chrono} {isZone : String → Bool} {raw : String}
    (h : IsSpelled "nan".toList (priceText raw)) :
    parsePriceMajorToCents (floatParsers chrono isZone) raw = some 0 := by
  have htext : priceText raw ≠ "" := by
    intro hempty
    obtain ⟨sign, -, body, hs, hname⟩ := h
    rw [hempty] at hs
    rw [(List.append_eq_nil_iff.mp hs.symm).2] at hname
    cases hname
  rw [parsePriceMajorToCents_eq, if_neg htext]
  show ((readNumber (priceText raw)).map toFloat).bind _ = _
  rw [readNumber_nan h]
  rfl

def sampleParsers : FormParsers := floatParsers twoDigits fun tz => tz == "UTC"

example : parsePriceMajorToCents sampleParsers " 5,50" = some 550 := by decide +kernel

/-- `NaN` is free of charge, an infinity or a large number costs `i64::MAX`, a tiny negative
number is a price, and the roundings to `f64` give and take a cent. -/
theorem not_pricesAreReal :
    parsePriceMajorToCents sampleParsers " -NaN" = some 0 ∧
      parsePriceMajorToCents sampleParsers "+Infinity" = some i64Max ∧
      parsePriceMajorToCents sampleParsers "1e400" = some i64Max ∧
      parsePriceMajorToCents sampleParsers "1e20" = some i64Max ∧
      parsePriceMajorToCents sampleParsers "-1e-400" = some 0 ∧
      parsePriceMajorToCents sampleParsers "70368744177664.01" = some 7036874417766402 ∧
      parsePriceMajorToCents sampleParsers "1.0050000000000000001" = some 100 ∧
      ∀ raw ∈ ["NaN", "1e20", "-1e-400", "70368744177664.01", "1.0050000000000000001"],
        ¬ PricesAreReal sampleParsers raw := by
  refine ⟨by decide +kernel, by decide +kernel, by decide +kernel, by decide +kernel,
    by decide +kernel, by decide +kernel, by decide +kernel, fun raw hraw h => ?_⟩
  -- a price that is not the hundredfold of what is denoted, if anything is
  have hwrong : ∀ raw ∈ ["NaN", "1e20", "-1e-400", "70368744177664.01", "1.0050000000000000001"],
      ((parsePriceMajorToCents sampleParsers raw).any fun cents =>
        !(readNumber (priceText raw)).any fun x =>
          match x with
          | .finite x => 0 ≤ x && cents = centsOf x && cents ≤ i64Max
          | _ => false) = true := by decide +kernel
  obtain ⟨cents, hcents, hnot⟩ := (Option.any_eq_true ..).mp (hwrong raw hraw)
  obtain ⟨x, hread, hx, hsame, hmax⟩ := h.1 cents hcents
  rw [hread, Option.any_some] at hnot
  simp [hx, ← hsame, hmax] at hnot

end BikesNest.Community
