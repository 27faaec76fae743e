import BikesNest.Community.Review
import BikesNest.Store.Cells

/-!
# The review and the verification repository, statement by statement

`upsertReviewTx` is `upsertReview` as the transaction of three statements that
it is.  `record` and `markVerifiedAt` are one statement each.

`Reviewed` says what a commit changes of the rows that a revision of the location
keeps, and `Published` what it makes of the review and its history.
-/

namespace BikesNest.Community

open Domain Store Transactions

/-! ## Verification signals -/

inductive ExistenceResult where
  | stillExists | noLongerExists | infoChanged
deriving DecidableEq

def ExistenceResult.asCode : ExistenceResult → String
  | .stillExists => "still_exists"
  | .noLongerExists => "no_longer_exists"
  | .infoChanged => "info_changed"

inductive AttributeResult where
  | correct | incorrect
deriving DecidableEq

def AttributeResult.asCode : AttributeResult → String
  | .correct => "correct"
  | .incorrect => "incorrect"

/-- A verification signal to record. -/
inductive NewVerification where
  | existence (locationId : Nat) (userId : UserId) (result : ExistenceResult)
  | attribute (locationId : Nat) (userId : UserId) (code : String) (result : AttributeResult)
  | parkedHere (locationId : Nat) (userId : UserId)
deriving DecidableEq

namespace NewVerification

def locationId : NewVerification → Nat
  | .existence l _ _ => l
  | .attribute l _ _ _ => l
  | .parkedHere l _ => l

def userId : NewVerification → UserId
  | .existence _ u _ => u
  | .attribute _ u _ _ => u
  | .parkedHere _ u => u

/-- Does this positive existence confirmation refresh freshness? -/
def isStillExists : NewVerification → Bool
  | .existence _ _ result => result == .stillExists
  | _ => false

def kind : NewVerification → VerificationKind
  | .existence .. => .existence
  | .attribute .. => .attribute
  | .parkedHere .. => .parkedHere

/-- The row of a signal; a parked-here signal expires after 90 days. -/
def toRow (signal : NewVerification) (now clock : Instant) : Verification where
  locationId := signal.locationId
  userId := some signal.userId
  kind := signal.kind
  result :=
    match signal with
    | .existence _ _ result => result.asCode
    | .attribute _ _ _ result => result.asCode
    | .parkedHere _ _ => "parked_here"
  attributeCode :=
    match signal with
    | .attribute _ _ code _ => some code
    | _ => none
  createdAt := clock
  expiresAt :=
    match signal with
    | .parkedHere _ _ => some (now + 90 * day)
    | _ => none

end NewVerification

/-- `INSERT INTO verification`. -/
def insertVerification (n : Nat) (v : Verification) : Statement ContributionError Unit := fun s =>
  .ok ((), (s.lock [.verification n]).write (.verification n) (some v))

/-- `SqlxVerificationRepository::record`. -/
def record (n : Nat) (signal : NewVerification) (now clock : Instant) :
    Script ContributionError Unit :=
  .request .unavailable (insertVerification n (signal.toRow now clock))

/-- `mark_verified_at`. -/
def markVerifiedAt (locationId : Nat) (at' : Instant) : Script ContributionError Unit := do
  let _ ← .request .unavailable (updateLocation locationId (fun _ => true) fun r =>
    { r with lastVerifiedAt := some at' })

/-! ## Reviews -/

/-- The review of an author on a location, among the rows that a statement
sees. -/
def findReview (s : Connection Cell) (locationId : Nat) (author : UserId) :
    Option (Nat × Review) :=
  (List.range s.bound).findSome? fun i =>
    (s.rows (.review i)).bind fun r =>
      if r.locationId = locationId ∧ r.authorId = some author then some (i, r) else none

/-- The row that `upsert_review` inserts. -/
def newReview (locationId : Nat) (author : UserId) (rating : StarRating) (body : String)
    (clock : Instant) : Review :=
  { locationId, authorId := some author, rating := rating.value, body
    createdAt := clock, updatedAt := clock }

/-- `INSERT INTO review … ON CONFLICT (location_id, author_id) DO UPDATE`, with the
id of the row and whether the row existed.  The entry of the unique index is
locked either way. -/
def upsertReviewRow (n locationId : Nat) (author : UserId) (rating : StarRating) (body : String)
    (clock : Instant) : Statement ContributionError (Nat × Bool) := fun s =>
  if (s.rows (.location locationId)).isNone then
    .error (.invalidField "review_location_id_fkey")
  else
    let s' := s.lock [.reviewOf locationId author]
    match findReview s locationId author with
    | some (i, r) =>
      .ok ((i, true), (s'.lock [.review i]).write (.review i)
        (some { r with rating := rating.value, body, updatedAt := clock }))
    | none =>
      match s.rows (.review n) with
      | some _ => .error .conflict
      | none =>
        .ok ((n, false), (s'.lock [.review n]).write (.review n)
          (some (newReview locationId author rating body clock)))

/-- `INSERT INTO review_revision`. -/
def insertReviewRevision (n : Nat) (rev : ReviewRevision) : Statement ContributionError Unit :=
  fun s => .ok ((), (s.lock [.reviewRevision n]).write (.reviewRevision n) (some rev))

/-- The active review of a location under an id. -/
def activeReview (c : Rows Cell) (locationId i : Nat) : Option Review :=
  (c (.review i)).filter fun r => r.locationId = locationId ∧ r.moderationState = .active

/-- The ratings of the active reviews of a location with an id below `b`. -/
def visibleRatings (c : Rows Cell) (b locationId : Nat) : List Nat :=
  (List.range b).filterMap fun i => (activeReview c locationId i).map Review.rating

/-- The sub-selects of the recomputation.  The rest of the `UPDATE` relies on
them. -/
def scanRatings (locationId : Nat) (author : UserId) :
    Statement ContributionError (List Nat) := fun s =>
  .ok (visibleRatings s.rows s.bound locationId, s.watch (.reviewOf locationId author))

/-- The recomputation of the rating aggregate, one `UPDATE`: its sub-selects see
what is committed when it begins, and then it waits for the lock on the
location. -/
def recomputeRatingTx (locationId : Nat) (author : UserId) : Script ContributionError Unit := do
  let ratings ← .request .unavailable (scanRatings locationId author)
  let _ ← .request .unavailable
    (updateLocation locationId (fun _ => true) (·.withRatings ratings))

/-- `upsert_review`. -/
def upsertReviewTx (n locationId : Nat) (author : UserId) (rating : StarRating) (body : String)
    (clock : Instant) : Script ContributionError Bool :=
  transaction .unavailable do
    let row ← .request .unavailable (upsertReviewRow n locationId author rating body clock)
    .request .unavailable (insertReviewRevision n
      { reviewId := row.1, rating := rating.value, body, editedAt := clock })
    recomputeRatingTx locationId author
    return row.2

/-! ## What a commit changes -/

/-- What a commit of `upsertReviewTx` changes: the review `i` of the location
becomes `rv`, and the location gets the aggregate of the given ratings.  A new
review is the review `n`. -/
structure Reviewed (n locationId i : Nat) (rv : Review) (ratings : List Nat)
    (c c' : Rows Cell) : Prop where
  place : rv.locationId = locationId
  known : i ≠ n → c (.review i) ≠ none
  earlier : ∀ r, c (.review i) = some r → r.locationId = locationId
  review : c' (.review i) = some rv
  location : ∃ r, c (.location locationId) = some r ∧
    c' (.location locationId) = some (r.withRatings ratings)
  rows : ∀ k, k ≠ .review i → (∀ n, k ≠ .reviewRevision n) → k ≠ .location locationId →
    c' k = c k

/-- The review `i` is one of the author on the location. -/
def IsReviewOf (c : Rows Cell) (locationId : Nat) (author : UserId) (i : Nat) : Prop :=
  ∃ r, c (.review i) = some r ∧ r.locationId = locationId ∧ r.authorId = some author

/-- What `upsertReviewRow` makes of the review `i`, on the rows that it sees: `i` is
the review of the author, or there is none and `i` is the new identity. -/
structure Upserted (n locationId : Nat) (author : UserId) (rating : StarRating) (body : String)
    (rows : Rows Cell) (b i : Nat) (rv : Review) : Prop where
  place : rv.locationId = locationId
  ofAuthor : rv.authorId = some author
  withRating : rv.rating = rating.value
  withBody : rv.body = body
  row : IsReviewOf rows locationId author i ∨
    (i = n ∧ rows (.review n) = none ∧ ∀ j < b, ¬ IsReviewOf rows locationId author j)

/-- What a commit of `upsertReviewTx` makes of the review and its history.  The
review is as the upsert has found it on the rows `since`. -/
structure Published (n locationId : Nat) (author : UserId) (rating : StarRating) (body : String)
    (clock : Instant) (i : Nat) (rv : Review) (since c c' : Rows Cell) : Prop where
  upserted : ∃ b, Fits since b ∧ Upserted n locationId author rating body since b i rv
  unchanged : c (.review i) = since (.review i)
  revision : c' (.reviewRevision n) =
    some { reviewId := i, rating := rating.value, body, editedAt := clock }
  revisions : ∀ m, m ≠ n → c' (.reviewRevision m) = c (.reviewRevision m)

theorem Upserted.known {n locationId i b : Nat} {author : UserId} {rating : StarRating}
    {body : String} {rows : Rows Cell} {rv : Review}
    (h : Upserted n locationId author rating body rows b i rv) (hi : i ≠ n) :
    rows (.review i) ≠ none := by
  rcases h.row with ⟨r, hr, _⟩ | ⟨heq, _⟩
  · simp [hr]
  · exact absurd heq hi

theorem Upserted.earlier {n locationId i b : Nat} {author : UserId} {rating : StarRating}
    {body : String} {rows : Rows Cell} {rv r : Review}
    (h : Upserted n locationId author rating body rows b i rv) (hr : rows (.review i) = some r) :
    r.locationId = locationId := by
  rcases h.row with ⟨r', hr', hplace, _⟩ | ⟨rfl, hnone, _⟩
  · exact Option.some.inj (hr'.symm.trans hr) ▸ hplace
  · rw [hnone] at hr
    cases hr

theorem findReview_eq_some {s : Connection Cell} {locationId : Nat} {author : UserId} {i : Nat}
    {r : Review} (h : findReview s locationId author = some (i, r)) :
    s.rows (.review i) = some r ∧ r.locationId = locationId ∧ r.authorId = some author := by
  obtain ⟨j, _, hrow⟩ := List.exists_of_findSome?_eq_some h
  obtain ⟨r', hr', hown⟩ := Option.bind_eq_some_iff.mp hrow
  split at hown
  · rename_i hown'
    obtain ⟨rfl, rfl⟩ := Prod.mk.inj (Option.some.inj hown)
    exact ⟨hr', hown'⟩
  · cases hown

theorem findReview_eq_none {s : Connection Cell} {locationId : Nat} {author : UserId}
    (h : findReview s locationId author = none) {j : Nat} (hj : j < s.bound) :
    ¬ IsReviewOf s.rows locationId author j := by
  rintro ⟨r, hr, hown⟩
  have hrow := List.findSome?_eq_none_iff.mp h j (List.mem_range.mpr hj)
  rw [hr, Option.bind_some, if_pos hown] at hrow
  cases hrow

section Rules

variable {α : Type} {D : Discipline Cell} {since : Rows Cell} {locks relied : List Key}
  {F : Rows Cell → Rows Cell} {c : Rows Cell} {s : Connection Cell}

/-- The upsert locks and writes one review of the location. -/
theorem Safe.upsertReviewRow
    {G : Rows Cell → Rows Cell → Rows Cell → Script ContributionError (Nat × Bool) → Prop}
    {Q : Nat × Bool → Rows Cell → Connection Cell → Prop} {n locationId : Nat} {author : UserId}
    {rating : StarRating} {body : String} {clock : Instant} (hD : D.guard = Key.guard)
    (hs : Inside D since locks relied F s)
    (h : ∀ c' s' x rv, Undisturbed D locks relied c c' → D.fits c' s'.bound →
      (∃ r, F c' (.location locationId) = some r) →
      Upserted n locationId author rating body (F c') s'.bound x.1 rv →
      Inside D (sinceOf locks c' since) (.review x.1 :: .reviewOf locationId author :: locks)
        relied (fun c => Function.update (F c) (.review x.1) (some rv)) s' → Q x c' s') :
    Safe D G Q (.request .unavailable
      (upsertReviewRow n locationId author rating body clock)) c s := by
  refine Safe.statement hs fun c' s' x after hsame hfits hs' hrows hf => ?_
  have hin : ∀ i rv, Inside D (sinceOf locks c' since)
      (.review i :: .reviewOf locationId author :: locks) relied
      (fun c => Function.update (F c) (.review i) (some rv))
      (((s'.lock [.reviewOf locationId author]).lock [.review i]).write (.review i) (some rv)) :=
    fun i rv => ((hs'.lock _).lock _).write _ (by rw [hD]; exact List.mem_cons_self ..)
  simp only [Community.upsertReviewRow] at hf
  split at hf
  · cases hf
  rename_i hlocation
  have hexists : ∃ r, F c' (.location locationId) = some r := by
    rw [hrows] at hlocation
    cases hr : F c' (.location locationId) with
    | none => simp [hr] at hlocation
    | some r => exact ⟨r, rfl⟩
  split at hf
  · rename_i i r hfound
    obtain ⟨rfl, rfl⟩ := Prod.mk.inj (Except.ok.inj hf)
    obtain ⟨hr, hplace, hauthor⟩ := findReview_eq_some hfound
    rw [hrows] at hr
    exact ⟨(hin i r).isOpen,
      h c' _ _ { r with rating := rating.value, body, updatedAt := clock } hsame hfits hexists
      ⟨hplace, hauthor, rfl, rfl, .inl ⟨r, hr, hplace, hauthor⟩⟩ (hin i _)⟩
  · rename_i hunseen
    split at hf
    · cases hf
    · rename_i hvacant
      obtain ⟨rfl, rfl⟩ := Prod.mk.inj (Except.ok.inj hf)
      rw [hrows] at hvacant
      refine ⟨(hin n _).isOpen, h c' _ _ _ hsame hfits hexists
        ⟨rfl, rfl, rfl, rfl, .inr ⟨rfl, hvacant, fun j hj => ?_⟩⟩ (hin n _)⟩
      rw [← hrows]
      exact findReview_eq_none hunseen hj

theorem visibleRatings_congr {c c' : Rows Cell} {locationId : Nat}
    (h : ∀ i, activeReview c' locationId i = activeReview c locationId i) (b : Nat) :
    visibleRatings c' b locationId = visibleRatings c b locationId := by
  simp only [visibleRatings, h]

/-- `upsertReviewTx` commits what `Reviewed` says, with the ratings that its scan
has found, and what `Published` says. -/
theorem upsertReviewTx_safe
    {G : Rows Cell → Rows Cell → Rows Cell → Script ContributionError Bool → Prop}
    {Q : Bool → Rows Cell → Connection Cell → Prop} 
    {P : Rows Cell → Rows Cell → Rows Cell → Prop} {n : Nat}
    (hD : Standard D n) (hs : Outside relied s) (locationId : Nat) (author : UserId)
    (rating : StarRating) (body : String) (clock : Instant)
    (hP : ∀ i rv since c₁ b c₂ c', Undisturbed D [] relied c c₂ →
      Undisturbed D [] (.reviewOf locationId author :: relied) c₁ c₂ → D.fits c₁ b → i < b →
      Reviewed n locationId i rv
        (visibleRatings (Function.update c₁ (.review i) (some rv)) b locationId) c₂ c' →
      Published n locationId author rating body clock i rv since c₂ c' → P since c₂ c')
    (hG : ∀ a since c c', P since c c' → G since c c' (pure a))
    (hQ : ∀ a since c c' s', P since c c' → Outside relied s' → Q a c' s') :
    Safe D G Q (upsertReviewTx n locationId author rating body clock) c s := by
  refine Safe.transaction (P := fun _ => P) hs hG hQ fun c₀ s₀ hsame₀ hs => ?_
  rw [safe_bind]
  refine Safe.upsertReviewRow hD.guard hs
    fun c₁ s₁ ⟨i, wasUpdate⟩ rv hsame₁ hfits₁ hexists hupserted hs₁ => ?_
  dsimp only at hupserted hs₁
  rw [safe_bind]
  refine Safe.statement hs₁ fun c₂ s₂ _ after hsame₂ _ hs₂ _ hf => ?_
  obtain ⟨rfl, rfl⟩ := Prod.mk.inj (Except.ok.inj hf)
  have hs₂ := (hs₂.lock (.reviewRevision n)).write (k := .reviewRevision n)
    (some { reviewId := i, rating := rating.value, body, editedAt := clock })
    (by rw [hD.guard]; exact List.mem_cons_self ..)
  refine ⟨hs₂.isOpen, ?_⟩
  rw [safe_bind, recomputeRatingTx, safe_bind]
  refine Safe.statement hs₂ fun c₃ s₃ ratings after hsame₃ hfits₃ hs₃ hrows₃ hf => ?_
  obtain ⟨rfl, rfl⟩ := Prod.mk.inj (Except.ok.inj hf)
  have hs₃ := hs₃.watch (.reviewOf locationId author)
  refine ⟨hs₃.isOpen, ?_⟩
  have hforget : ∀ {locks relied' c c'}, (∀ k ∈ relied, k ∈ relied') →
      Undisturbed D locks relied' c c' → Undisturbed D [] relied c c' :=
    fun hrelied h => h.mono (by simp) hrelied
  have hmore : ∀ k ∈ relied, k ∈ .reviewOf locationId author :: relied :=
    fun _ => List.mem_cons_of_mem _
  have hlocked : ∀ {locks relied' c c'}, .review i ∈ locks → Undisturbed D locks relied' c c' →
      c' (.review i) = c (.review i) := by
    intro locks relied' c c' hi h
    exact h.held _ (by rwa [hD.guard])
  have hbefore₃ := (hforget (fun _ h => h) hsame₂).trans (hforget (fun _ h => h) hsame₃)
  have hreview₃ : c₃ (.review i) = c₁ (.review i) :=
    (hlocked (by simp) hsame₃).trans (hlocked (by simp) hsame₂)
  have hbound : i < s₃.bound := by
    by_cases hi : i = n
    · exact hi ▸ hD.serial hfits₃
    · refine Nat.lt_of_not_le fun hle => hupserted.known hi ?_
      rw [← hreview₃, (hD.fits hfits₃ i hle).2]
  rw [safe_bind]
  refine Safe.updateLocation hD.guard hs₃ (fun c₄ _ hsame₄ _ hno => ?_)
    fun c₄ s₄ r hsame₄ hr₄ _ hs₄ => ?_
  · obtain ⟨r, hr⟩ := hexists
    obtain ⟨r', hr', _⟩ := (hD.grows (hbefore₃.trans (hforget hmore hsame₄)).grows).location
      locationId r hr
    exact absurd (hno r' (by simpa using hr')) (by simp)
  refine (hs₄.commits fun c₅ hsame₅ => ?_).mono hmore
  have hscan : Undisturbed D [] (.reviewOf locationId author :: relied) c₃ c₅ :=
    (hsame₄.mono (by simp) fun _ h => h).trans (hsame₅.mono (by simp) fun _ h => h)
  have hwhole : Undisturbed D [] relied c c₅ :=
    ((hsame₀.trans hsame₁).trans hbefore₃).trans (hforget hmore hscan)
  have hratings : visibleRatings s₃.rows s₃.bound locationId =
      visibleRatings (Function.update c₃ (.review i) (some rv)) s₃.bound locationId :=
    visibleRatings_congr (fun j => by simp [activeReview, hrows₃]) _
  have hreview₅ : c₅ (.review i) = c₁ (.review i) :=
    (hlocked (by simp) hsame₅).trans ((hlocked (by simp) hsame₄).trans hreview₃)
  refine hP i rv c₁ c₃ s₃.bound c₅ _ hwhole hscan hfits₃ hbound (hratings ▸ ?_) ?_
  · refine ⟨hupserted.place, fun hi => hreview₅ ▸ hupserted.known hi,
      fun r' hr' => hupserted.earlier (hreview₅ ▸ hr'), by simp, ⟨r, ?_, by simp⟩,
      fun k h₁ h₂ h₃ => ?_⟩
    · rw [Kept.of hD.guard (List.mem_cons_self ..) hsame₅ (.location locationId) rfl, ← hr₄]
      simp
    · rw [Function.update_of_ne h₃, Function.update_of_ne (h₂ n), Function.update_of_ne h₁]
  · exact ⟨⟨_, hD.fits hfits₁, hupserted⟩, hreview₅, by simp, fun m hm => by simp [hm]⟩

/-- `record` commits the row of the signal. -/
theorem record_safe
    {G : Rows Cell → Rows Cell → Rows Cell → Script ContributionError Unit → Prop}
    {Q : Unit → Rows Cell → Connection Cell → Prop} (hD : D.guard = Key.guard)
    (hs : Outside relied s) (n : Nat) (signal : NewVerification) (now clock : Instant)
    (herror : ∀ since c e, G since c c (Service.throw e))
    (h : ∀ since c₁ s', Undisturbed D [] relied c c₁ → Outside relied s' →
      G since c₁ (Function.update c₁ (.verification n) (some (signal.toRow now clock))) (pure ()) ∧
        Q () (Function.update c₁ (.verification n) (some (signal.toRow now clock))) s') :
    Safe D G Q (record n signal now clock) c s := by
  refine Safe.autocommit hs (fun since c e => herror since c e)
    fun c' s' a after hsame _ hs' _ hf => ?_
  obtain ⟨rfl, rfl⟩ := Prod.mk.inj (Except.ok.inj hf)
  obtain ⟨hopen, hwrites, hguard, hout⟩ := hs'.write (D := D) (k := .verification n)
    (some (signal.toRow now clock)) c' (by rw [hD]; rfl)
  rw [hwrites]
  exact ⟨hopen, (h _ _ _ hsame hout).1, hguard, (h s'.since _ _ hsame hout).2⟩

/-- `markVerifiedAt` commits the new `last_verified_at`, or nothing when the
location is gone. -/
theorem markVerifiedAt_safe
    {G : Rows Cell → Rows Cell → Rows Cell → Script ContributionError Unit → Prop}
    {Q : Unit → Rows Cell → Connection Cell → Prop} (hD : D.guard = Key.guard)
    (hs : Outside relied s) (locationId : Nat) (at' : Instant)
    (herror : ∀ since c e, G since c c (Service.throw e))
    (hgone : ∀ since c₁ s', Outside relied s' → G since c₁ c₁ (pure ()) ∧ Q () c₁ s')
    (h : ∀ since c₁ s' r, Undisturbed D [] relied c c₁ → c₁ (.location locationId) = some r →
      Outside relied s' →
      G since c₁ (Function.update c₁ (.location locationId)
          (some { r with lastVerifiedAt := some at' })) (pure ()) ∧
        Q () (Function.update c₁ (.location locationId)
          (some { r with lastVerifiedAt := some at' })) s') :
    Safe D G Q (markVerifiedAt locationId at') c s := by
  rw [markVerifiedAt, safe_bind]
  refine Safe.autocommit hs (fun since c e => herror since c e)
    fun c' s' a after hsame _ hs' hrows hf => ?_
  simp only [updateLocation, hrows, if_true] at hf
  split at hf
  · obtain ⟨rfl, rfl⟩ := Prod.mk.inj (Except.ok.inj hf)
    have hsettled : Outside relied s'.settle := ⟨hs'.isOpen, rfl, rfl, hs'.relied⟩
    rw [s'.overlay_of_clean c' hs'.dirty]
    exact ⟨hs'.isOpen, (hgone _ _ _ hsettled).1, by simp [hs'.dirty],
      (hgone s'.since _ _ hsettled).2⟩
  · rename_i r hr
    obtain ⟨rfl, rfl⟩ := Prod.mk.inj (Except.ok.inj hf)
    obtain ⟨hopen, hwrites, hguard, hout⟩ := hs'.write (D := D) (k := .location locationId)
      (some { r with lastVerifiedAt := some at' }) c' (by rw [hD]; rfl)
    rw [hwrites]
    exact ⟨hopen, (h _ _ _ r hsame hr hout).1, hguard, (h s'.since _ _ r hsame hr hout).2⟩

end Rules

theorem upsertReviewTx_strict (n locationId : Nat) (author : UserId) (rating : StarRating)
    (body : String) (clock : Instant) :
    (upsertReviewTx n locationId author rating body clock).Strict :=
  strict_transaction <| .bind (.request _ _) fun _ => .bind (.request _ _) fun _ =>
    .bind (.bind (.request _ _) fun _ => .bind (.request _ _) fun _ => .pure _) fun _ => .pure _

end BikesNest.Community
