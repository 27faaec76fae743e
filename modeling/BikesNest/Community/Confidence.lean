import BikesNest.Community.Feedback
import BikesNest.Search.Ranking

/-!
# How sure it is that a place exists

`confidence` resolves the existence signals of a location.  `Specified` is what the
class should be, in terms of which signals there are and of the newest of them, so
it does not depend on the order of the list.  `confidence_specified` proves it of the
fold, and `Specified.decays` that time only makes the class weaker.
-/

namespace BikesNest.Community

open Domain Search

inductive Confidence where
  | reported | verified | recentlyVerified | stale | conflicting
deriving DecidableEq

/-- The latest existence signal of a user. -/
structure ExistenceSignal where
  user : UserId
  result : ExistenceResult
  at' : Instant
deriving DecidableEq

/-- `max_by` on the times of the signals: the last one of those that are latest. -/
def maxByAt : List ExistenceSignal → Option ExistenceSignal
  | [] => none
  | s :: ss => some (ss.foldl (fun latest x => if x.at' < latest.at' then latest else x) s)

/-- `confidence`. -/
def confidence (signals : List ExistenceSignal) (now : Instant)
    (thresholds : FreshnessThresholds) : Confidence :=
  if signals.isEmpty then .reported
  else if signals.any fun s => s.result == .noLongerExists then .conflicting
  else
    match maxByAt (signals.filter fun s => s.result == .stillExists) with
    | none => .reported
    | some latest =>
      match categorize (some latest.at') now thresholds with
      | .fresh => .recentlyVerified
      | .recentlyVerified | .aging => .verified
      | .stale | .veryStale => .stale
      | .never => .reported

/-! ## What the class should be -/

/-- The age of a signal in whole days; a signal from the future is new. -/
def ageInDays (at' now : Instant) : Int := max ((now - at' : Int).tdiv day) 0

/-- The class of an age. -/
def ageClass (t : FreshnessThresholds) (days : Int) : Confidence :=
  if days < t.freshDays then .recentlyVerified
  else if days < t.recentDays ∨ days < t.agingDays then .verified
  else .stale

/-- The class that the signals call for. -/
structure Specified (signals : List ExistenceSignal) (now : Instant) (t : FreshnessThresholds)
    (c : Confidence) : Prop where
  conflicting : (∃ s ∈ signals, s.result = .noLongerExists) → c = .conflicting
  reported : (∀ s ∈ signals, s.result ≠ .noLongerExists ∧ s.result ≠ .stillExists) →
    c = .reported
  newest : (∀ s ∈ signals, s.result ≠ .noLongerExists) →
    ∀ s ∈ signals, s.result = .stillExists →
      (∀ s' ∈ signals, s'.result = .stillExists → s'.at' ≤ s.at') →
        c = ageClass t (ageInDays s.at' now)

/-- The second class is the first, or a less confident one. -/
inductive Decays : Confidence → Confidence → Prop
  | same (c : Confidence) : Decays c c
  | fresh {c : Confidence} (h : c = .verified ∨ c = .stale) : Decays .recentlyVerified c
  | verified : Decays .verified .stale

/-! ## The newest signal -/

theorem maxByAt_eq_none {signals : List ExistenceSignal} :
    maxByAt signals = none ↔ signals = [] := by
  cases signals with
  | nil => exact iff_of_true rfl rfl
  | cons s ss => exact iff_of_false (fun h => by cases h) (fun h => by cases h)

/-- The fold keeps a signal that none of the others is later than. -/
theorem maxByAt_newest {signals : List ExistenceSignal} {latest : ExistenceSignal}
    (h : maxByAt signals = some latest) :
    latest ∈ signals ∧ ∀ s ∈ signals, s.at' ≤ latest.at' := by
  cases signals with
  | nil => cases h
  | cons s ss =>
    obtain rfl := Option.some.inj h
    clear h
    induction ss generalizing s with
    | nil => exact ⟨List.mem_singleton_self s, fun x hx => by rw [List.mem_singleton.mp hx]; rfl⟩
    | cons x xs ih =>
      rw [List.foldl_cons]
      obtain ⟨hmem, hle⟩ := ih (if x.at' < s.at' then s else x)
      have hkept := hle _ List.mem_cons_self
      constructor
      · rcases List.mem_cons.mp hmem with heq | htail
        · rw [heq]
          split
          · exact List.mem_cons_self
          · exact List.mem_cons_of_mem _ List.mem_cons_self
        · exact List.mem_cons_of_mem _ (List.mem_cons_of_mem _ htail)
      · have hboth : s.at' ≤ (if x.at' < s.at' then s else x).at' ∧
            x.at' ≤ (if x.at' < s.at' then s else x).at' := by
          split
          · next hlt => exact ⟨le_refl _, hlt.le⟩
          · next hge => exact ⟨not_lt.mp hge, le_refl _⟩
        intro y hy
        rcases List.mem_cons.mp hy with rfl | hy
        · exact hboth.1.trans hkept
        · rcases List.mem_cons.mp hy with rfl | hy
          · exact hboth.2.trans hkept
          · exact hle y (List.mem_cons_of_mem _ hy)

/-! ## The class of the signals -/

/-- The rungs of the domain's ladder, as classes. -/
theorem category_class (t : FreshnessThresholds) (at' now : Instant) :
    (match categorize (some at') now t with
      | .fresh => Confidence.recentlyVerified
      | .recentlyVerified | .aging => .verified
      | .stale | .veryStale => .stale
      | .never => .reported) = ageClass t (ageInDays at' now) := by
  unfold categorize ageClass ageInDays
  dsimp only
  rw [numDays_eq]
  generalize max ((now - at' : Int).tdiv day) 0 = days
  by_cases hfresh : days < t.freshDays
  · simp [hfresh]
  · by_cases hrecent : days < t.recentDays
    · simp [hfresh, hrecent]
    · by_cases haging : days < t.agingDays
      · simp [hfresh, hrecent, haging]
      · simp only [hfresh, hrecent, haging, if_false, or_self]
        split <;> split_ifs at * <;> simp_all

theorem confidence_specified (signals : List ExistenceSignal) (now : Instant)
    (t : FreshnessThresholds) : Specified signals now t (confidence signals now t) where
  conflicting := by
    rintro ⟨s, hs, hgone⟩
    have hany : (signals.any fun s => s.result == .noLongerExists) = true :=
      List.any_eq_true.mpr ⟨s, hs, by simp [hgone]⟩
    unfold confidence
    rw [if_neg (by simpa using List.ne_nil_of_mem hs), if_pos hany]
  reported := by
    intro hnone
    have hany : ¬ (signals.any fun s => s.result == .noLongerExists) = true := by
      simpa using fun s hs => (hnone s hs).1
    have hpositives : (signals.filter fun s => s.result == .stillExists) = [] := by
      simpa using fun s hs => (hnone s hs).2
    unfold confidence
    rw [if_neg hany, hpositives]
    exact ite_self _
  newest := by
    intro hnone s hs hstill hlatest
    have hany : ¬ (signals.any fun s => s.result == .noLongerExists) = true := by
      simpa using hnone
    have hpositive : s ∈ signals.filter fun s => s.result == .stillExists :=
      List.mem_filter.mpr ⟨hs, by simp [hstill]⟩
    unfold confidence
    rw [if_neg (by simpa using List.ne_nil_of_mem hs), if_neg hany]
    cases hmax : maxByAt (signals.filter fun s => s.result == .stillExists) with
    | none =>
      rw [maxByAt_eq_none.mp hmax] at hpositive
      cases hpositive
    | some latest =>
      obtain ⟨hmem, hle⟩ := maxByAt_newest hmax
      obtain ⟨hmem, hresult⟩ := List.mem_filter.mp hmem
      have hat : latest.at' = s.at' :=
        le_antisymm (hlatest latest hmem (by simpa using hresult)) (hle s hpositive)
      dsimp only
      rw [hat]
      exact category_class t s.at' now

/-- Either a signal speaks against the place, or none speaks at all, or one of those
that speak for it is the newest. -/
theorem signals_cases (signals : List ExistenceSignal) :
    (∃ s ∈ signals, s.result = .noLongerExists) ∨
      (∀ s ∈ signals, s.result ≠ .noLongerExists ∧ s.result ≠ .stillExists) ∨
      (∀ s ∈ signals, s.result ≠ .noLongerExists) ∧ ∃ s ∈ signals, s.result = .stillExists ∧
        ∀ s' ∈ signals, s'.result = .stillExists → s'.at' ≤ s.at' := by
  by_cases hgone : ∃ s ∈ signals, s.result = .noLongerExists
  · exact .inl hgone
  · have hgone : ∀ s ∈ signals, s.result ≠ .noLongerExists := by simpa using hgone
    cases hmax : maxByAt (signals.filter fun s => s.result == .stillExists) with
    | none =>
      have hpositives := maxByAt_eq_none.mp hmax
      refine .inr (.inl fun s hs => ⟨hgone s hs, fun hstill => ?_⟩)
      have hpositive : s ∈ signals.filter fun s => s.result == .stillExists :=
        List.mem_filter.mpr ⟨hs, by simp [hstill]⟩
      rw [hpositives] at hpositive
      cases hpositive
    | some latest =>
      obtain ⟨hmem, hle⟩ := maxByAt_newest hmax
      obtain ⟨hmem, hresult⟩ := List.mem_filter.mp hmem
      exact .inr (.inr ⟨hgone, latest, hmem, by simpa using hresult, fun s hs hstill =>
        hle s (List.mem_filter.mpr ⟨hs, by simp [hstill]⟩)⟩)

/-! ## Order and time -/

/-- There is one class that the signals call for. -/
theorem Specified.unique {signals : List ExistenceSignal} {now : Instant}
    {t : FreshnessThresholds} {c c' : Confidence} (h : Specified signals now t c)
    (h' : Specified signals now t c') : c = c' := by
  rcases signals_cases signals with hgone | hnone | ⟨hgone, s, hs, hstill, hlatest⟩
  · rw [h.conflicting hgone, h'.conflicting hgone]
  · rw [h.reported hnone, h'.reported hnone]
  · rw [h.newest hgone s hs hstill hlatest, h'.newest hgone s hs hstill hlatest]

/-- The order of the list does not matter. -/
theorem Specified.perm {signals signals' : List ExistenceSignal} {now : Instant}
    {t : FreshnessThresholds} {c : Confidence} (h : Specified signals now t c)
    (hperm : signals.Perm signals') : Specified signals' now t c := by
  have hmem : ∀ s, s ∈ signals' ↔ s ∈ signals := fun s => hperm.mem_iff.symm
  constructor
  · simp only [hmem]
    exact h.conflicting
  · simp only [hmem]
    exact h.reported
  · simp only [hmem]
    exact h.newest

theorem ageInDays_mono {at' now later : Instant} (h : now ≤ later) :
    ageInDays at' now ≤ ageInDays at' later := by
  have hage : (now - at' : Int) ≤ later - at' := by
    unfold Instant at *
    omega
  exact max_le_max (Int.tdiv_le_tdiv (by decide) hage) (le_refl 0)

/-- An older signal gives the same class or a less confident one, whatever the
thresholds are. -/
theorem ageClass_decays (t : FreshnessThresholds) {days days' : Int} (h : days ≤ days') :
    Decays (ageClass t days) (ageClass t days') := by
  unfold ageClass
  by_cases hfresh : days' < t.freshDays
  · rw [if_pos (lt_of_le_of_lt h hfresh), if_pos hfresh]
    exact .same _
  · rw [if_neg hfresh]
    by_cases hverified : days' < t.recentDays ∨ days' < t.agingDays
    · rw [if_pos hverified, if_pos (hverified.imp (lt_of_le_of_lt h) (lt_of_le_of_lt h))]
      split
      · exact .fresh (.inl rfl)
      · exact .same _
    · rw [if_neg hverified]
      split
      · exact .fresh (.inr rfl)
      · split
        · exact .verified
        · exact .same _

theorem Specified.decays {signals : List ExistenceSignal} {now later : Instant}
    {t : FreshnessThresholds} {c c' : Confidence} (hle : now ≤ later)
    (h : Specified signals now t c) (h' : Specified signals later t c') : Decays c c' := by
  rcases signals_cases signals with hgone | hnone | ⟨hgone, s, hs, hstill, hlatest⟩
  · rw [h.conflicting hgone, h'.conflicting hgone]
    exact .same _
  · rw [h.reported hnone, h'.reported hnone]
    exact .same _
  · rw [h.newest hgone s hs hstill hlatest, h'.newest hgone s hs hstill hlatest]
    exact ageClass_decays t (ageInDays_mono hle)

/-- The class of a list of signals does not depend on their order, is the one that they
call for, and only gets weaker with time. -/
theorem confidence_lawful (signals : List ExistenceSignal) (t : FreshnessThresholds) :
    (∀ signals', signals.Perm signals' → ∀ now,
        confidence signals' now t = confidence signals now t) ∧
      (∀ now, Specified signals now t (confidence signals now t)) ∧
      ∀ now later, now ≤ later →
        Decays (confidence signals now t) (confidence signals later t) := by
  refine ⟨fun signals' hperm now => ?_, fun now => confidence_specified signals now t,
    fun now later hle => ?_⟩
  · exact (confidence_specified signals' now t).unique
      ((confidence_specified signals now t).perm hperm)
  · exact Specified.decays hle (confidence_specified signals now t)
      (confidence_specified signals later t)

end BikesNest.Community
