import BikesNest.Search.Pagination

/-!
# The recommended order

The score of the recommended order is a sum of five terms, one for each factor.
`recommendationScore_eq` writes it as that sum; each term is monotone in its
factor, and so is the score (`score_mono`).

The freshness term goes down a ladder of ages.  `freshnessCase` is the rung that
the statement takes, and `categorize` the one of the domain.
-/

namespace BikesNest.Search

open Domain Community Store

/-! ## The domain's ladder -/

inductive FreshnessCategory where
  | fresh
  | recentlyVerified
  | aging
  | stale
  | veryStale
  /-- Never verified. -/
  | never
  deriving DecidableEq

/-- `TimeDelta::num_seconds`: whole seconds, towards zero. -/
def numSeconds (us : Int) : Int := us.tdiv 1000000

/-- `TimeDelta::num_days`. -/
def numDays (us : Int) : Int := (numSeconds us).tdiv 86400

def categorize (lastVerifiedAt : Option Instant) (now : Instant)
    (thresholds : FreshnessThresholds) : FreshnessCategory :=
  match lastVerifiedAt with
  | none => .never
  | some verified =>
    let days := max (numDays (now - verified)) 0
    if days < thresholds.freshDays then .fresh
    else if days < thresholds.recentDays then .recentlyVerified
    else if days < thresholds.agingDays then .aging
    else if days < thresholds.staleDays then .stale
    else .veryStale

/-! ## The ladder of the statement -/

/-- The freshness `CASE` of `RECOMMENDED_SORT_KEY`: which branch is taken.  The
thresholds are bound as `float8`. -/
def freshnessCase (E : Engine) (t : FreshnessThresholds) (now : Instant) :
    Option Instant → FreshnessCategory
  | none => .never
  | some verified =>
    let days := freshnessDays E now verified
    if days < E.round t.freshDays then .fresh
    else if days < E.round t.recentDays then .recentlyVerified
    else if days < E.round t.agingDays then .aging
    else if days < E.round t.staleDays then .stale
    else .veryStale

/-- The result of each branch. -/
def freshnessScore (E : Engine) : FreshnessCategory → Rat
  | .fresh => 1
  | .recentlyVerified => 3 / 4
  | .aging => 1 / 2
  | .stale => 1 / 4
  | .veryStale => E.round (1 / 10)
  | .never => 1 / 2

/-- The same engine with exact arithmetic. -/
def Engine.exact (E : Engine) : Engine :=
  { E with
    round := fun q => q
    round_mono := fun _ _ h => h
    round_zero := rfl
    round_quarter := rfl
    round_five := rfl }

@[simp] theorem Engine.exact_round (E : Engine) (q : Rat) : E.exact.round q = q := rfl

/-- Truncating a quotient in two steps is truncating it in one. -/
theorem numDays_eq (us : Int) : numDays us = us.tdiv day := by
  have hpos : ∀ n : Int, 0 ≤ n → (n.tdiv 1000000).tdiv 86400 = n.tdiv 86400000000 := by
    intro n hn
    rw [Int.tdiv_eq_ediv_of_nonneg hn, Int.tdiv_eq_ediv_of_nonneg hn,
      Int.tdiv_eq_ediv_of_nonneg (by omega)]
    omega
  show (us.tdiv 1000000).tdiv 86400 = us.tdiv 86400000000
  rcases Int.le_total 0 us with h | h
  · exact hpos us h
  · obtain ⟨n, rfl⟩ : ∃ n, us = -n := ⟨-us, by omega⟩
    simp only [Int.neg_tdiv]
    rw [hpos n (by omega)]

/-- `TRUNC` of a fraction is the quotient towards zero. -/
theorem truncRat_div (n : Int) (k : Nat) : truncRat ((n : Rat) / k) = n.tdiv k := by
  unfold truncRat
  have hk : (0 : Rat) ≤ k := Nat.cast_nonneg k
  rcases Int.le_total 0 n with h | h
  · have hn : (0 : Rat) ≤ n := by exact_mod_cast h
    rw [if_pos (div_nonneg hn hk), Rat.floor_intCast_div_natCast, Int.tdiv_eq_ediv_of_nonneg h]
  · have hn : (n : Rat) ≤ 0 := by exact_mod_cast h
    have hceil : ⌈(n : Rat) / k⌉ = n.tdiv k := by
      rw [Rat.ceil_intCast_div_natCast]
      obtain ⟨m, rfl⟩ : ∃ m, n = -m := ⟨-n, by omega⟩
      rw [Int.neg_tdiv, Int.tdiv_eq_ediv_of_nonneg (by omega), neg_neg]
    split
    · rename_i hpos
      have hzero : (n : Rat) / k = 0 := le_antisymm (div_nonpos_of_nonpos_of_nonneg hn hk) hpos
      rw [← hceil, hzero]
      simp
    · rw [hceil]

/-- In exact arithmetic the age in days is the domain's. -/
theorem freshnessDays_exact (E : Engine) (now verified : Instant) :
    freshnessDays E.exact now verified = (max (numDays (now - verified)) 0 : Int) := by
  have hdays : epochSeconds (now - verified) / 86400 =
      ((now - verified : Int) : Rat) / ((86400000000 : Nat) : Rat) := by
    unfold epochSeconds
    rw [div_div]
    norm_num
  unfold freshnessDays
  simp only [Engine.exact_round]
  rw [hdays, truncRat_div, numDays_eq]
  push_cast
  rfl

/-- The branch of the statement is the domain's category. -/
theorem freshnessCase_exact (E : Engine) (t : FreshnessThresholds) (now : Instant)
    (lastVerifiedAt : Option Instant) :
    freshnessCase E.exact t now lastVerifiedAt = categorize lastVerifiedAt now t := by
  cases lastVerifiedAt with
  | none => rfl
  | some verified =>
    unfold freshnessCase categorize
    simp only [freshnessDays_exact, Engine.exact_round, Int.cast_lt]

/-- Rounding a threshold does not move it past an age of fewer than `2 ^ 53` days. -/
theorem lt_round_iff {E : Engine} (hfix : ∀ n : Int, |n| ≤ 2 ^ 53 → E.round n = n) {d : Int}
    (hlow : 0 ≤ d) (hhigh : d < 2 ^ 53) (t : Int) : (d : Rat) < E.round t ↔ d < t := by
  rcases Int.lt_or_le (2 ^ 53) t with ht | ht
  · have hround : ((2 ^ 53 : Int) : Rat) ≤ E.round t := by
      rw [← hfix (2 ^ 53) (by norm_num)]
      exact E.round_mono (by exact_mod_cast ht.le)
    have hd : (d : Rat) < ((2 ^ 53 : Int) : Rat) := by exact_mod_cast hhigh
    exact iff_of_true (hd.trans_le hround) (by omega)
  rcases Int.lt_or_le t 0 with hneg | hpos
  · have hround : E.round t ≤ 0 := by
      rw [← E.round_zero]
      exact E.round_mono (by exact_mod_cast hneg.le)
    have hd : (0 : Rat) ≤ d := by exact_mod_cast hlow
    exact iff_of_false (not_lt_of_ge (hround.trans hd)) (by omega)
  · rw [hfix t (by rw [abs_of_nonneg hpos]; exact ht), Int.cast_lt]

/-- Where the age comes out exact, so does the branch, with every threshold rounded. -/
theorem freshnessCase_round {E : Engine} (hfix : ∀ n : Int, |n| ≤ 2 ^ 53 → E.round n = n)
    (t : FreshnessThresholds) (now verified : Instant)
    (hdays : freshnessDays E now verified = freshnessDays E.exact now verified)
    (hage : freshnessDays E.exact now verified < 2 ^ 53) :
    freshnessCase E t now (some verified) = categorize (some verified) now t := by
  have hhigh : max (numDays (now - verified)) 0 < 2 ^ 53 := by
    rw [freshnessDays_exact] at hage
    exact_mod_cast hage
  unfold freshnessCase categorize
  simp only [hdays, freshnessDays_exact, lt_round_iff hfix (Int.le_max_right ..) hhigh]

/-! ## The terms of the score -/

/-- What the score of a location depends on. -/
structure Factors where
  distance : Rat
  /-- The number of security features confirmed as present. -/
  confirmed : Nat
  rating : Option Nat
  lastVerifiedAt : Option Instant

def factorsOf (R : SearchReader) (req : SearchRequest) (rec : LocationRecord) : Factors where
  distance := R.engine.distance rec.row.point req.origin
  confirmed := securityYes rec
  rating := rec.row.ratingAvg
  lastVerifiedAt := rec.row.lastVerifiedAt

def nearTerm (E : Engine) (radiusM : Nat) (distance : Rat) : Rat :=
  E.round (1 - min (max (E.round (distance / radiusM)) 0) 1)

def secureTerm (E : Engine) (confirmed : Nat) : Rat :=
  if 0 < confirmed then min (E.round ((confirmed : Rat) / 8)) 1 else 1 / 2

def ratedTerm (E : Engine) : Option Nat → Rat
  | some avg => E.round (ratingFloat E avg / 5)
  | none => 1 / 2

def freshTerm (R : SearchReader) (now : Instant) (lastVerifiedAt : Option Instant) : Rat :=
  freshnessScore R.engine (freshnessCase R.engine R.thresholds now lastVerifiedAt)

def verifiedTerm : Option Instant → Rat
  | none => 1 / 2
  | some _ => 1

/-- The weighted sum of the terms, rounded after each operation. -/
def weighted (E : Engine) (w : RecommendationConfig) (near secure rated fresh verified : Rat) :
    Rat :=
  let add := fun a b => E.round (a + b)
  let mul := fun a b => E.round (a * b)
  add (add (add (add (mul w.wDistance near) (mul w.wSecurity secure)) (mul w.wRating rated))
    (mul w.wFreshness fresh)) (mul w.wVerification verified)

/-- The score as a function of the factors. -/
def Factors.score (R : SearchReader) (radiusM : Nat) (now : Instant) (f : Factors) : Rat :=
  weighted R.engine R.recommendation (nearTerm R.engine radiusM f.distance)
    (secureTerm R.engine f.confirmed) (ratedTerm R.engine f.rating)
    (freshTerm R now f.lastVerifiedAt) (verifiedTerm f.lastVerifiedAt)

theorem recommendationScore_eq (R : SearchReader) (req : SearchRequest) (now : Instant)
    (rec : LocationRecord) :
    recommendationScore R req now rec = (factorsOf R req rec).score R req.radiusM now := by
  unfold recommendationScore Factors.score factorsOf weighted freshTerm freshnessCase verifiedTerm
    ratedTerm secureTerm nearTerm
  cases rec.row.lastVerifiedAt with
  | none => rfl
  | some verified =>
    simp only [apply_ite (freshnessScore R.engine)]
    rfl

/-! ## Each term is monotone -/

theorem nearTerm_antitone (E : Engine) (radiusM : Nat) : Antitone (nearTerm E radiusM) := by
  intro d d' h
  have hdiv : d / radiusM ≤ d' / radiusM := div_le_div_of_nonneg_right h (Nat.cast_nonneg radiusM)
  have hround : E.round (d / radiusM) ≤ E.round (d' / radiusM) := E.round_mono hdiv
  apply E.round_mono
  gcongr

/-- Beyond the first feature. -/
theorem secureTerm_mono (E : Engine) {m n : Nat} (hm : 0 < m) (h : m ≤ n) :
    secureTerm E m ≤ secureTerm E n := by
  have hround : E.round ((m : Rat) / 8) ≤ E.round ((n : Rat) / 8) := by
    apply E.round_mono
    gcongr
  unfold secureTerm
  rw [if_pos hm, if_pos (by omega)]
  exact min_le_min_right 1 hround

theorem ratedTerm_mono (E : Engine) {r r' : Nat} (h : r ≤ r') :
    ratedTerm E (some r) ≤ ratedTerm E (some r') := by
  have hfloat : ratingFloat E r ≤ ratingFloat E r' := by
    apply E.round_mono
    gcongr
  apply E.round_mono
  gcongr

theorem truncRat_mono : Monotone truncRat := by
  intro p q h
  unfold truncRat
  split_ifs with hp hq hq
  · exact_mod_cast Int.floor_le_floor h
  · exact absurd (hp.trans h) hq
  · have hceil : ⌈p⌉ ≤ 0 := Int.ceil_le.mpr (by push_cast; linarith)
    have hfloor : 0 ≤ ⌊q⌋ := Int.floor_nonneg.mpr hq
    exact_mod_cast hceil.trans hfloor
  · exact_mod_cast Int.ceil_le_ceil h

/-- A later verification is not older. -/
theorem freshnessDays_antitone (E : Engine) (now : Instant) {v v' : Instant} (h : v ≤ v') :
    freshnessDays E now v' ≤ freshnessDays E now v := by
  have hsub : ((now - v' : Int) : Rat) ≤ ((now - v : Int) : Rat) := by
    exact_mod_cast Int.sub_le_sub_left h now
  have hepoch : epochSeconds (now - v') ≤ epochSeconds (now - v) :=
    div_le_div_of_nonneg_right hsub (by norm_num)
  have hdays := div_le_div_of_nonneg_right (E.round_mono hepoch) (by norm_num : (0 : Rat) ≤ 86400)
  exact max_le_max_right 0 (truncRat_mono (E.round_mono hdays))

theorem freshTerm_mono (R : SearchReader) (now : Instant) {v v' : Instant} (h : v ≤ v') :
    freshTerm R now (some v) ≤ freshTerm R now (some v') := by
  have hdays := freshnessDays_antitone R.engine now h
  have hlast : R.engine.round (1 / 10) ≤ 1 / 4 := by
    rw [← R.engine.round_quarter]
    exact R.engine.round_mono (by norm_num)
  unfold freshTerm freshnessCase
  -- A rung of `v` at or above that of `v'` contradicts `hdays`.
  simp only
  split_ifs <;> simp only [freshnessScore] <;> linarith

structure RecommendationConfig.Nonneg (w : RecommendationConfig) : Prop where
  distance : 0 ≤ w.wDistance
  security : 0 ≤ w.wSecurity
  rating : 0 ≤ w.wRating
  freshness : 0 ≤ w.wFreshness
  verification : 0 ≤ w.wVerification

theorem weighted_mono (E : Engine) {w : RecommendationConfig} {n s r f v n' s' r' f' v' : Rat}
    (hw : w.Nonneg) (hn : n ≤ n') (hs : s ≤ s') (hr : r ≤ r') (hf : f ≤ f') (hv : v ≤ v') :
    weighted E w n s r f v ≤ weighted E w n' s' r' f' v' := by
  have mul : ∀ {c x y : Rat}, 0 ≤ c → x ≤ y → E.round (c * x) ≤ E.round (c * y) :=
    fun hc h => E.round_mono (mul_le_mul_of_nonneg_left h hc)
  have add : ∀ {x y z u : Rat}, x ≤ y → z ≤ u → E.round (x + z) ≤ E.round (y + u) :=
    fun h h' => E.round_mono (add_le_add h h')
  exact add (add (add (add (mul hw.distance hn) (mul hw.security hs)) (mul hw.rating hr))
    (mul hw.freshness hf)) (mul hw.verification hv)

/-! ## Better in one factor -/

structure FreshnessThresholds.Ordered (t : FreshnessThresholds) : Prop where
  fresh_recent : t.freshDays ≤ t.recentDays
  recent_aging : t.recentDays ≤ t.agingDays
  aging_stale : t.agingDays ≤ t.staleDays

/-- The first location is the better one in one factor; the others are equal. -/
inductive OneBetter : Factors → Factors → Prop
  | closer (f : Factors) (distance : Rat) (h : distance ≤ f.distance) :
      OneBetter { f with distance } f
  | safer (f : Factors) : OneBetter { f with confirmed := f.confirmed + 1 } f
  /-- Both are rated. -/
  | betterRated (f : Factors) (r r' : Nat) (hrating : f.rating = some r) (h : r ≤ r') :
      OneBetter { f with rating := some r' } f
  /-- Both are verified. -/
  | fresher (f : Factors) (v v' : Instant) (hverified : f.lastVerifiedAt = some v) (h : v ≤ v') :
      OneBetter { f with lastVerifiedAt := some v' } f

theorem score_mono {R : SearchReader} {radiusM : Nat} {now : Instant} {f g : Factors}
    (hw : R.recommendation.Nonneg) (h : OneBetter f g)
    (hfirst : g.confirmed = 0 → f.confirmed = 0) :
    g.score R radiusM now ≤ f.score R radiusM now := by
  unfold Factors.score
  cases h with
  | closer f d h =>
    exact weighted_mono _ hw (nearTerm_antitone _ _ h) le_rfl le_rfl le_rfl le_rfl
  | safer f =>
    have hsome : 0 < g.confirmed := by
      have hne : g.confirmed ≠ 0 := fun h => absurd (hfirst h) (by simp)
      omega
    exact weighted_mono _ hw le_rfl (secureTerm_mono _ hsome (Nat.le_succ _)) le_rfl le_rfl le_rfl
  | betterRated f r r' hrating h =>
    refine weighted_mono _ hw le_rfl le_rfl ?_ le_rfl le_rfl
    rw [hrating]
    exact ratedTerm_mono _ h
  | fresher f v v' hverified h =>
    refine weighted_mono _ hw le_rfl le_rfl le_rfl ?_ ?_
    · rw [hverified]
      exact freshTerm_mono R now h
    · rw [hverified]
      rfl

/-- A location that is better in one factor scores no less and its sort key is no greater,
unless the factor is its first confirmed feature. -/
theorem recommended_mono (R : SearchReader) (req : SearchRequest) (now : Instant)
    (a b : LocationRecord) (hw : R.recommendation.Nonneg)
    (h : OneBetter (factorsOf R req a) (factorsOf R req b))
    (hfirst : securityYes b = 0 → securityYes a = 0) :
    recommendationScore R req now b ≤ recommendationScore R req now a ∧
      (req.sort = .recommended → sortKey R req now a ≤ sortKey R req now b) := by
  have hscore : recommendationScore R req now b ≤ recommendationScore R req now a := by
    rw [recommendationScore_eq, recommendationScore_eq]
    exact score_mono hw h hfirst
  refine ⟨hscore, ?_⟩
  intro hsort
  unfold sortKey
  rw [hsort]
  exact neg_le_neg hscore

/-- A rack with these features confirmed. -/
def rackWith (features : List String) : LocationRecord :=
  { row := rackRow, security := features.map fun code => ⟨code, 1⟩ }

/-- A search for what is near the rack, in the recommended order. -/
def nearRack : SearchRequest := .new twoCursors rackRow.point none 500 {} .recommended 1 none

theorem oneSpot_nonneg : oneSpot.recommendation.Nonneg := by
  constructor <;> decide +kernel

theorem recommended_mono_lights :
    recommendationScore oneSpot nearRack 0 (rackWith ["cctv"]) ≤
        recommendationScore oneSpot nearRack 0 (rackWith ["cctv", "lighting"]) ∧
      (nearRack.sort = .recommended →
        sortKey oneSpot nearRack 0 (rackWith ["cctv", "lighting"]) ≤
          sortKey oneSpot nearRack 0 (rackWith ["cctv"])) :=
  recommended_mono oneSpot nearRack 0 (rackWith ["cctv", "lighting"]) (rackWith ["cctv"])
    oneSpot_nonneg (.safer (factorsOf oneSpot nearRack (rackWith ["cctv"])))
    (fun h => absurd h (by decide))

/-- The first feature turns the neutral `1 / 2` into `1 / 8`. -/
theorem first_feature_scores_lower :
    ¬ ∀ (R : SearchReader) (req : SearchRequest) (now : Instant) (a b : LocationRecord),
      R.recommendation.Nonneg → R.thresholds.Ordered →
      OneBetter (factorsOf R req a) (factorsOf R req b) →
      recommendationScore R req now b ≤ recommendationScore R req now a := by
  intro h
  have hle := h oneSpot nearRack 0 (rackWith ["cctv"]) (rackWith []) oneSpot_nonneg
    ⟨by decide, by decide, by decide⟩ (.safer (factorsOf oneSpot nearRack (rackWith [])))
  exact absurd hle (by decide +kernel)

end BikesNest.Search
