import BikesNest.Community.Feedback

/-!
# Concurrent reviews

A system of `upsert_review` transactions.  `AggregateRight` says of its committed
rows that every location has the count and the average of its active reviews.

The recomputation takes the ratings from the rows that are committed when its
`UPDATE` begins, and may then have to wait for the row lock of the location
while another review of it commits.  `aggregate_kept` says that this is the only
way to lose the aggregate, and `aggregate_lost` is a run that does.
-/

namespace BikesNest.Community

open Domain Store Transactions Runs

/-! ## The system -/

/-- A call of `upsert_review`. -/
structure ReviewCall where
  locationId : Nat
  author : UserId
  rating : StarRating
  body : String
  clock : Instant

/-- The script of a call. -/
def ReviewCall.script (call : ReviewCall) (n : Nat) : Script ContributionError Bool :=
  upsertReviewTx n call.locationId call.author call.rating call.body call.clock

/-- A database that serves calls of `upsert_review`. -/
abbrev ReviewSystem := System Cell ReviewCall ContributionError Bool

/-- A step of it. -/
abbrev ReviewStep : ReviewSystem → Label ReviewCall → ReviewSystem → Prop :=
  System.Step ReviewCall.script

/-- The count and the average of every location are those of its active
reviews. -/
def AggregateRight (c : Rows Cell) (b : Nat) : Prop :=
  ∀ l r, c (.location l) = some r →
    r.ratingCount = (visibleRatings c b l).length ∧
      r.ratingAvg = averageHundredths (visibleRatings c b l)

/-! ## The discipline -/

/-- Who has scanned the ratings of a location relies on its active reviews. -/
def KeepsReviews (k : Key) (c c' : Rows Cell) : Prop :=
  match k with
  | .reviewOf l _ => ∀ i, activeReview c' l i = activeReview c l i
  | _ => True

def reviewDiscipline : Discipline Cell :=
  discipline KeepsReviews
    (fun k c => by cases k <;> simp [KeepsReviews])
    fun k c c' c'' h h' => by
      cases k with
      | reviewOf l a => exact fun i => (h' i).trans (h i)
      | _ => trivial

theorem standard_reviewDiscipline (n : Nat) : Standard (reviewDiscipline.own n) n :=
  ⟨rfl, fun h => h, fun h => h.1, fun h => h.2⟩

/-- What the commit of a call changes, when no active review of the location has
changed since the scan. -/
def Recomputed (n locationId : Nat) (c c' : Rows Cell) : Prop :=
  ∃ i rv c₁ b, (∀ j, activeReview c locationId j = activeReview c₁ locationId j) ∧ Fits c₁ b ∧
    i < b ∧ Reviewed n locationId i rv
      (visibleRatings (Function.update c₁ (.review i) (some rv)) b locationId) c c'

/-! ## One commit -/

/-- The ratings do not depend on the number, when it is high enough. -/
theorem visibleRatings_of_fits {c : Rows Cell} {b b' : Nat} (h : Fits c b) (hle : b ≤ b')
    (l : Nat) : visibleRatings c b' l = visibleRatings c b l := by
  obtain ⟨k, rfl⟩ := Nat.exists_eq_add_of_le hle
  rw [visibleRatings, List.range_add, List.filterMap_append]
  have hnone : ((List.range k).map (b + ·)).filterMap
      (fun i => (activeReview c l i).map Review.rating) = [] := by
    rw [List.filterMap_eq_nil_iff]
    intro i hi
    obtain ⟨j, _, rfl⟩ := List.mem_map.mp hi
    simp [activeReview, (h (b + j) (Nat.le_add_right ..)).2]
  rw [hnone, List.append_nil]
  rfl

theorem Reviewed.activeReview_of_ne {n l i j : Nat} {rv : Review} {ratings : List Nat}
    {c c' : Rows Cell} (h : Reviewed n l i rv ratings c c') (hj : j ≠ i) (l' : Nat) :
    activeReview c' l' j = activeReview c l' j := by
  rw [activeReview, h.rows (.review j) (by simpa using hj) (by simp) (by simp), activeReview]

/-- The reviews of the other locations are the same. -/
theorem Reviewed.activeReview_of_other {n l l' i : Nat} {rv : Review} {ratings : List Nat}
    {c c' : Rows Cell} (h : Reviewed n l i rv ratings c c') (hl : l' ≠ l) (j : Nat) :
    activeReview c' l' j = activeReview c l' j := by
  by_cases hj : j = i
  · subst hj
    have hnew : activeReview c' l' j = none := by
      rw [activeReview, h.review]
      simp [Option.filter, h.place, hl.symm]
    have hold : activeReview c l' j = none := by
      rw [activeReview]
      cases hr : c (.review j) with
      | none => rfl
      | some r => simp [Option.filter, h.earlier r hr, hl.symm]
    rw [hnew, hold]
  · exact h.activeReview_of_ne hj l'

theorem Reviewed.grows {n l i : Nat} {rv : Review} {ratings : List Nat} {c c' : Rows Cell}
    (h : Reviewed n l i rv ratings c c') : Grows c c' := by
  have hrow : ∀ k, (∀ j, k ≠ .review j) → (∀ j, k ≠ .reviewRevision j) →
      (∀ j, k ≠ .location j) → c' k = c k := fun k h₁ h₂ h₃ => h.rows k (h₁ i) h₂ (h₃ l)
  constructor
  · intro l' r hr
    have hchildren : c' (.hours l') = c (.hours l') ∧ c' (.security l') = c (.security l') :=
      ⟨hrow _ (by simp) (by simp) (by simp), hrow _ (by simp) (by simp) (by simp)⟩
    by_cases hl : l' = l
    · subst hl
      obtain ⟨r', hr', hafter⟩ := h.location
      obtain rfl : r' = r := Option.some.inj (hr'.symm.trans hr)
      exact ⟨_, hafter, ⟨le_refl _, fun _ => rfl⟩, fun _ => hchildren⟩
    · refine ⟨r, ?_, ⟨le_refl _, fun _ => rfl⟩, fun _ => hchildren⟩
      rw [h.rows _ (by simp) (by simp) (by simpa using hl), hr]
  · intro l' v rev hrev
    rw [hrow _ (by simp) (by simp) (by simp), hrev]
  · intro j p hp
    exact ⟨p, by rw [hrow _ (by simp) (by simp) (by simp), hp], .refl p⟩

theorem Reviewed.fits {n l i b : Nat} {rv : Review} {ratings : List Nat} {c c' : Rows Cell}
    (h : Reviewed n l i rv ratings c c') (hn : n < b) (hfits : Fits c b) : Fits c' b := by
  intro j hj
  have hne : j ≠ i := by
    rintro rfl
    by_cases hi : j = n
    · omega
    · exact h.known hi (hfits j hj).2
  rw [h.rows (.proposal j) (by simp) (by simp) (by simp),
    h.rows (.review j) (by simpa using hne) (by simp) (by simp)]
  exact hfits j hj

/-- A commit on reviews that nobody has changed since the scan keeps the
aggregate of every location. -/
theorem aggregateRight_recomputed {n l b : Nat} {c c' : Rows Cell} (hn : n < b)
    (hfits : Fits c b) (hright : AggregateRight c b) (h : Recomputed n l c c') :
    AggregateRight c' b := by
  obtain ⟨i, rv, c₁, b₁, hsame, hfits₁, hi, h⟩ := h
  intro l' r' hr'
  by_cases hl : l' = l
  · subst hl
    obtain ⟨r, _, hafter⟩ := h.location
    obtain rfl := Option.some.inj (hafter.symm.trans hr')
    have hactive : ∀ j, activeReview c' l' j =
        activeReview (Function.update c₁ (.review i) (some rv)) l' j := by
      intro j
      by_cases hj : j = i
      · subst hj
        rw [activeReview, h.review, activeReview, Function.update_self]
      · rw [h.activeReview_of_ne hj, hsame, activeReview, activeReview,
          Function.update_of_ne (by simpa using hj)]
    have hscan : Fits (Function.update c₁ (.review i) (some rv)) b₁ := by
      intro j hj
      have hne : j ≠ i := by omega
      simpa [hne] using hfits₁ j hj
    have hratings : visibleRatings (Function.update c₁ (.review i) (some rv)) b₁ l' =
        visibleRatings c' b l' := calc
      _ = visibleRatings (Function.update c₁ (.review i) (some rv)) (max b b₁) l' :=
        (visibleRatings_of_fits hscan (le_max_right ..) l').symm
      _ = visibleRatings c' (max b b₁) l' := (visibleRatings_congr hactive _).symm
      _ = visibleRatings c' b l' :=
        visibleRatings_of_fits (h.fits hn hfits) (le_max_left ..) l'
    rw [← hratings]
    exact ⟨rfl, rfl⟩
  · rw [h.rows (.location l') (by simp) (by simp) (by simpa using hl)] at hr'
    rw [visibleRatings_congr (h.activeReview_of_other hl)]
    exact hright l' r' hr'

/-! ## Runs -/

/-- What a commit of a call changes. -/
def reviewGuarantee (call : ReviewCall) (n : Nat) :
    Rows Cell → Rows Cell → Rows Cell → Script ContributionError Bool → Prop :=
  Once fun _ _ c c' => Recomputed n call.locationId c c'

theorem reviewContract :
    Contract reviewDiscipline reviewGuarantee (fun _ _ _ _ => True) ReviewCall.script where
  safe call n c b := by
    refine upsertReviewTx_safe (standard_reviewDiscipline n) (Outside.idle c b) _ _ _ _ _
      (P := fun _ => Recomputed n call.locationId) ?_ (fun a _ _ _ h => .inr ⟨a, rfl, h⟩)
      fun _ _ _ _ _ _ hout => ⟨hout.isOpen, trivial⟩
    intro i rv _ c₁ b c₂ c' _ hscan hfits hi h _
    exact ⟨i, rv, c₁, b, hscan.watched _ (List.mem_cons_self ..), hfits.1, hi, h⟩
  grows h := by
    rcases h.effect with rfl | ⟨_, i, rv, c₁, b, _, _, _, h⟩
    · exact Grows.refl _
    · exact h.grows
  fits h hn hfits := by
    rcases h.effect with rfl | ⟨_, i, rv, c₁, b, _, _, _, h⟩
    · exact hfits
    · exact h.fits hn hfits

/-- In a run in which no review of a location commits between the scan of another
one and its commit, every location always has the aggregate of its active
reviews. -/
theorem aggregate_kept {c : Rows Cell} {n : Nat} {ls : List (Label ReviewCall)}
    {s : ReviewSystem}
    (hrun : Run (Guarded (Peaceful reviewDiscipline ReviewCall.script) ReviewStep)
      ⟨c, n, []⟩ ls s)
    (hfits : Fits c n) (hright : AggregateRight c n) : AggregateRight s.committed s.serial := by
  have hinv : Sound reviewDiscipline reviewGuarantee (fun _ _ _ _ => True) s ∧
      AggregateRight s.committed s.serial := by
    refine hrun.invariant (I := fun s => Sound reviewDiscipline reviewGuarantee
      (fun _ _ _ _ => True) s ∧ AggregateRight s.committed s.serial)
      (fun s l s' ⟨hsound, hright⟩ ⟨hpeace, hstep⟩ => ?_) ⟨.of_nil hfits, hright⟩
    refine ⟨hsound.next reviewContract hpeace hstep, ?_⟩
    have hle := System.serial_le hstep
    have hright' : AggregateRight s.committed s'.serial := by
      intro l r hr
      rw [visibleRatings_of_fits hsound.fits hle]
      exact hright l r hr
    rcases hsound.guarantee hstep with heq | ⟨i, p, _, _, hp, _, hG⟩
    · rw [heq]
      exact hright'
    · rcases hG.effect with heq | ⟨_, h⟩
      · rw [heq]
        exact hright'
      · exact aggregateRight_recomputed (Nat.lt_of_lt_of_le (hsound.serial hp) hle)
          (fun i hi => hsound.fits i (hle.trans hi)) hright' h
  exact hinv.2

/-! ## A run that keeps the aggregate, and one that loses it -/

/-- A location without a review. -/
def unrated : ParkingLocation where
  name := "Rack"
  address := "Street 1"
  description := none
  parkingType := "rack"
  costKind := "free"
  priceCents := none
  priceCurrency := none
  priceUnit := none
  point := ⟨0, 0, GeoPoint.zero_lat, GeoPoint.zero_lon⟩
  timezone := "UTC"
  hoursUnknown := true
  moderationState := .active
  createdAt := 0

/-- A database with one location only. -/
def unratedRows : Rows Cell := Function.update noRows (.location 1) (some unrated)

theorem fits_unratedRows (b : Nat) : Fits unratedRows b := fun _ _ => ⟨rfl, rfl⟩

theorem aggregateRight_unratedRows (b : Nat) : AggregateRight unratedRows b := by
  intro l r hr
  by_cases hl : l = 1
  · subst hl
    obtain rfl : unrated = r := Option.some.inj hr
    have hnone : visibleRatings unratedRows b 1 = [] :=
      List.filterMap_eq_nil_iff.mpr fun _ _ => rfl
    rw [hnone]
    exact ⟨rfl, rfl⟩
  · have hne : Key.location l ≠ .location 1 := by simpa using hl
    rw [unratedRows, Function.update_of_ne hne] at hr
    cases hr

/-- A review of the location by a user. -/
def fiveStars (author : UserId) : ReviewCall := ⟨1, author, ⟨5, by decide⟩, "good", 0⟩

/-- Every script has answered a value. -/
def allAnswered (s : ReviewSystem) : Bool :=
  s.processes.all fun p => match p.script with
    | .done (.ok _) => true
    | _ => false

/-- Two users review the location at the same time.  The second one takes its ratings when
the first one has committed. -/
def reviewedTogether : List (Label ReviewCall) :=
  [.start (fiveStars 1), .start (fiveStars 2), .exec 0, .exec 1, .exec 0, .exec 1, .exec 0,
    .exec 1, .exec 0, .exec 0, .exec 0, .exec 1, .exec 1, .exec 1]

theorem aggregate_kept_together :
    ∃ s, Run (Guarded (Peaceful reviewDiscipline ReviewCall.script) ReviewStep)
        ⟨unratedRows, 1, []⟩ reviewedTogether s ∧ allAnswered s = true ∧
      AggregateRight s.committed s.serial := by
  have hrun : (reviewedTogether.foldlM (fun (s : ReviewSystem) l =>
      if s.isPeaceful (fun _ _ _ => false) l then s.next ReviewCall.script l else none)
      ⟨unratedRows, 1, []⟩).any allAnswered = true := by decide +kernel
  obtain ⟨s, hs, hanswered⟩ := (Option.any_eq_true ..).mp hrun
  have hguarded := (Run.guarded_of_foldlM hs).mono
    fun (s : ReviewSystem) l s' ⟨hpeaceful, hstep⟩ =>
      (⟨.of_isPeaceful (fun _ _ _ h => by cases h) hpeaceful, hstep⟩ :
        Guarded (Peaceful reviewDiscipline ReviewCall.script) ReviewStep s l s')
  exact ⟨s, hguarded, hanswered,
    aggregate_kept hguarded (fits_unratedRows 1) (aggregateRight_unratedRows 1)⟩

/-- Two users review the location.  The second one takes its ratings before the
first one commits, and writes them after. -/
def lostUpdate : List (Label ReviewCall) :=
  [.start (fiveStars 1), .start (fiveStars 2),
    .exec 0, .exec 0, .exec 0, .exec 1, .exec 1, .exec 1,
    .exec 0, .exec 1, .exec 0, .exec 0, .exec 1, .exec 1]

theorem aggregate_lost :
    ¬ ∀ (c : Rows Cell) (n : Nat) (ls : List (Label ReviewCall)) (s : ReviewSystem),
      Run ReviewStep ⟨c, n, []⟩ ls s → Fits c n → AggregateRight c n → allAnswered s = true →
        AggregateRight s.committed s.serial := by
  intro h
  have hrun : (lostUpdate.foldlM (System.next ReviewCall.script)
      (⟨unratedRows, 1, []⟩ : ReviewSystem)).any (fun s => allAnswered s &&
        ((s.committed (.location 1)).any fun r =>
          r.ratingCount != (visibleRatings s.committed s.serial 1).length)) = true := by
    decide +kernel
  obtain ⟨s, hs, hcheck⟩ := Option.any_eq_true _ _ |>.mp hrun
  simp only [Bool.and_eq_true, Option.any_eq_true, bne_iff_ne] at hcheck
  obtain ⟨hanswered, r, hr, hwrong⟩ := hcheck
  exact hwrong (h _ _ _ s (Run.of_foldlM hs) (fits_unratedRows 1) (aggregateRight_unratedRows 1)
    hanswered 1 r hr).1

end BikesNest.Community
