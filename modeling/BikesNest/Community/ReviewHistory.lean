import BikesNest.Community.Aggregate
import BikesNest.Lib.EntryLock

/-!
# The history of a review

Every call of `upsert_review` leaves one row in `review_revision`, and the export
sorts the rows of a review by `edited_at`.  Both times of a row are the start of
its transaction, so the order of two overlapping calls of an author is that of
their starts there, and that of their locks in the review itself.

`HistoryRight` says what the export is taken for.  `history_kept` is about the
runs in which every call starts after the calls whose review it replaces have
started, and `history_reversed` is a run with two calls the other way round.
-/

namespace BikesNest.Community

open Domain Store Transactions Runs

/-! ## The history -/

/-- The rows of a review in `review_revision` with an id below `b`. -/
def revisionsOf (c : Rows Cell) (b i : Nat) : List ReviewRevision :=
  (List.range b).filterMap fun m =>
    (c (.reviewRevision m)).filter fun rev => rev.reviewId = i

/-- A result of `ORDER BY edited_at`; the order of equal times is left open. -/
def Exported (revs out : List ReviewRevision) : Prop :=
  out.Perm revs ∧ out.Pairwise fun rev rev' => rev.editedAt ≤ rev'.editedAt

/-- The last revision of every review, in the order of the export, is the
review. -/
def EndsLive (c : Rows Cell) (b : Nat) : Prop :=
  ∀ i r, c (.review i) = some r → ∀ out, Exported (revisionsOf c b i) out →
    out.getLast?.map (fun rev => (rev.rating, rev.body)) = some (r.rating, r.body)

/-- The row that a call appends to the history of the review `i`. -/
def ReviewCall.revision (call : ReviewCall) (i : Nat) : ReviewRevision :=
  { reviewId := i, rating := call.rating.value, body := call.body, editedAt := call.clock }

/-- A connection that runs a call. -/
abbrev ReviewProcess := Process Cell ReviewCall ContributionError Bool

/-- Has the connection answered a value? -/
def answered (p : ReviewProcess) : Bool :=
  match p.script with
  | .done (.ok _) => true
  | _ => false

/-- The calls that have committed an upsert of the review. -/
def upsertsOf (s : ReviewSystem) (r : Review) : List ReviewProcess :=
  s.processes.filter fun p =>
    answered p && decide (p.op.locationId = r.locationId ∧ some p.op.author = r.authorId)

/-- In a run from the rows `c`, every review has one revision for every committed
upsert of it, besides those it has had, and ends with the live row. -/
structure HistoryRight (c : Rows Cell) (n : Nat) (s : ReviewSystem) : Prop where
  one : ∀ i r, s.committed (.review i) = some r →
    revisionsOf s.committed s.serial i =
      revisionsOf c n i ++ (upsertsOf s r).map fun p => p.op.revision i
  last : EndsLive s.committed s.serial

/-- What the constraints of the tables and the calls so far say of the rows that a
run begins with. -/
structure Recorded (c : Rows Cell) (n : Nat) : Prop where
  fits : Fits c n
  unique : ∀ l a i j, IsReviewOf c l a i → IsReviewOf c l a j → i = j
  revisions : ∀ m rev, c (.reviewRevision m) = some rev →
    m < n ∧ c (.review rev.reviewId) ≠ none
  last : EndsLive c n

/-! ## The order of the calls -/

/-- The calls start in the order of their clocks. -/
def timely (s : ReviewSystem) : Label ReviewCall → Bool
  | .start op => s.processes.all fun p => decide (p.op.clock ≤ op.clock)
  | _ => true

/-- Is the next call of the connection `COMMIT`? -/
def commits (s : ReviewSystem) (p : ReviewProcess) : Bool :=
  match p.script with
  | .call write _ _ => !(write (p.conn.on s.committed s.serial)).isOpen
  | .done _ => false

/-- A call that commits has started later than every call that is in the history of
the review it writes. -/
def inOrder (s : ReviewSystem) : Label ReviewCall → Bool
  | .exec j =>
    match s.processes[j]? with
    | none => true
    | some p => !commits s p || (List.range s.serial).all fun m =>
      match s.committed (.reviewRevision m) with
      | none => true
      | some rev =>
        match s.committed (.review rev.reviewId) with
        | none => true
        | some r =>
          !decide (r.locationId = p.op.locationId ∧ r.authorId = some p.op.author) ||
            decide (rev.editedAt < p.op.clock)
  | _ => true

/-! ## The lock of an author -/

/-- Under the entry of an author no review of the author is new. -/
def KeepsAuthor (k : Key) (c c' : Rows Cell) : Prop :=
  match k with
  | .reviewOf l a => ∀ i, IsReviewOf c' l a i → IsReviewOf c l a i
  | _ => True

/-- The entry that a call locks. -/
def ReviewCall.entry (call : ReviewCall) : Key := .reviewOf call.locationId call.author

theorem upsertReviewRow_locks {n locationId : Nat} {author : UserId} {rating : StarRating}
    {body : String} {clock : Instant} {s after : Connection Cell} {x : Nat × Bool}
    (h : upsertReviewRow n locationId author rating body clock s = .ok (x, after)) :
    after.isOpen = s.isOpen ∧ after.since = s.since ∧ .reviewOf locationId author ∈ after.held := by
  simp only [upsertReviewRow] at h
  split at h
  · cases h
  split at h
  · obtain ⟨-, rfl⟩ := Prod.mk.inj (Except.ok.inj h)
    exact ⟨rfl, rfl, by simp⟩
  · split at h
    · cases h
    · obtain ⟨-, rfl⟩ := Prod.mk.inj (Except.ok.inj h)
      exact ⟨rfl, rfl, by simp⟩

theorem updateLocation_locks {id : Nat} {p : ParkingLocation → Bool}
    {f : ParkingLocation → ParkingLocation} {s after : Connection Cell}
    {x : Option ParkingLocation}
    (h : updateLocation (ε := ContributionError) id p f s = .ok (x, after)) :
    after.isOpen = s.isOpen ∧ after.since = s.since ∧ ∀ k ∈ s.held, k ∈ after.held := by
  simp only [updateLocation] at h
  split at h
  · obtain ⟨-, rfl⟩ := Prod.mk.inj (Except.ok.inj h)
    exact ⟨rfl, rfl, fun _ hk => hk⟩
  · split at h
    · obtain ⟨-, rfl⟩ := Prod.mk.inj (Except.ok.inj h)
      exact ⟨rfl, rfl, fun k hk => by simp [hk]⟩
    · obtain ⟨-, rfl⟩ := Prod.mk.inj (Except.ok.inj h)
      exact ⟨rfl, rfl, fun _ hk => hk⟩

/-- The upsert takes the entry of its author before any other lock. -/
theorem ReviewCall.script_enters (call : ReviewCall) (n : Nat) (c : Rows Cell) (b : Nat) :
    Enters call.entry (fun _ _ => True) (call.script n) (.idle c b) := by
  refine Enters.transaction rfl fun s hopen hheld => ?_
  rw [enters_bind]
  refine Enters.request (.inl hheld) fun c₁ b₁ x s₁ h₁ => ?_
  obtain ⟨hopen₁, hsince₁, hk₁⟩ := upsertReviewRow_locks h₁
  refine ⟨hopen₁.trans hopen, hsince₁, hk₁, ?_⟩
  rw [enters_bind]
  refine Enters.request (.inr hk₁) fun c₂ b₂ _ s₂ h₂ => ?_
  obtain ⟨-, rfl⟩ := Prod.mk.inj (Except.ok.inj h₂)
  refine ⟨hopen₁.trans hopen, rfl, List.mem_cons_of_mem _ hk₁, ?_⟩
  rw [enters_bind, recomputeRatingTx, enters_bind]
  refine Enters.request (.inr (List.mem_cons_of_mem _ hk₁)) fun c₃ b₃ ratings s₃ h₃ => ?_
  obtain ⟨-, rfl⟩ := Prod.mk.inj (Except.ok.inj h₃)
  refine ⟨hopen₁.trans hopen, rfl, List.mem_cons_of_mem _ hk₁, ?_⟩
  rw [enters_bind]
  refine Enters.request (.inr (List.mem_cons_of_mem _ hk₁)) fun c₄ b₄ r s₄ h₄ => ?_
  obtain ⟨hopen₄, hsince₄, hk₄⟩ := updateLocation_locks h₄
  exact ⟨hopen₄.trans (hopen₁.trans hopen), hsince₄, hk₄ _ (List.mem_cons_of_mem _ hk₁),
    .inr (hk₄ _ (List.mem_cons_of_mem _ hk₁))⟩

/-! ## One commit -/

/-- Nobody watches anything here. -/
def historyDiscipline : Discipline Cell :=
  discipline (fun _ _ _ => True) (fun _ _ => trivial) fun _ _ _ _ _ _ => trivial

theorem standard_historyDiscipline (n : Nat) : Standard (historyDiscipline.own n) n :=
  ⟨rfl, fun h => h, fun h => h.1, fun h => h.2⟩

/-- What the commit of a call changes. -/
def ReviewEffect (call : ReviewCall) (n : Nat) (since c c' : Rows Cell) : Prop :=
  ∃ i rv ratings, Reviewed n call.locationId i rv ratings c c' ∧
    Published n call.locationId call.author call.rating call.body call.clock i rv since c c'

def historyGuarantee (call : ReviewCall) (n : Nat) :
    Rows Cell → Rows Cell → Rows Cell → Script ContributionError Bool → Prop :=
  Once fun _ => ReviewEffect call n

theorem historyContract :
    Contract historyDiscipline historyGuarantee (fun _ _ _ _ => True) ReviewCall.script where
  safe call n c b := by
    refine upsertReviewTx_safe (standard_historyDiscipline n) (Outside.idle c b) _ _ _ _ _
      (P := ReviewEffect call n) ?_ (fun a _ _ _ h => .inr ⟨a, rfl, h⟩)
      fun _ _ _ _ _ _ hout => ⟨hout.isOpen, trivial⟩
    intro i rv since c₁ b c₂ c' _ _ _ _ hreviewed hpublished
    exact ⟨i, rv, _, hreviewed, hpublished⟩
  grows h := by
    rcases h.effect with rfl | ⟨_, i, rv, ratings, h, _⟩
    · exact Grows.refl _
    · exact h.grows
  fits h hn hfits := by
    rcases h.effect with rfl | ⟨_, i, rv, ratings, h, _⟩
    · exact hfits
    · exact h.fits hn hfits

theorem ReviewEffect.keepsAuthor {call : ReviewCall} {n : Nat} {since c c' : Rows Cell}
    (h : ReviewEffect call n since c c') {k : Key} (hk : k ≠ call.entry) : KeepsAuthor k c c' := by
  obtain ⟨i, rv, ratings, hreviewed, hpublished⟩ := h
  obtain ⟨_, _, hupserted⟩ := hpublished.upserted
  cases k with
  | reviewOf l a =>
    rintro j ⟨r, hr, hl, ha⟩
    by_cases hj : j = i
    · subst hj
      obtain rfl : rv = r := Option.some.inj (hreviewed.review.symm.trans hr)
      have ha' : call.author = a := Option.some.inj (hupserted.ofAuthor.symm.trans ha)
      exact absurd (by rw [ReviewCall.entry, ha', ← hl, hupserted.place]) hk
    · rw [hreviewed.rows _ (by simpa using hj) (by simp) (by simp)] at hr
      exact ⟨r, hr, hl, ha⟩
  | _ => trivial

theorem historyExclusive :
    Exclusive ReviewCall.entry KeepsAuthor historyGuarantee ReviewCall.script where
  refl k c := by cases k <;> simp [KeepsAuthor]
  trans {k c c' c''} h h' := by
    cases k with
    | reviewOf l a => exact fun i hi => h i (h' i hi)
    | _ => trivial
  enters := ReviewCall.script_enters
  others h k hk := by
    rcases h.effect with rfl | ⟨_, heffect⟩
    · cases k <;> simp [KeepsAuthor]
    · exact heffect.keepsAuthor hk

/-- The review `i` of the author gets the rating and the body of the call, and the
history a row. -/
structure Appended (call : ReviewCall) (n i : Nat) (rv : Review) (c c' : Rows Cell) : Prop where
  review : c' (.review i) = some rv
  place : rv.locationId = call.locationId
  author : rv.authorId = some call.author
  content : (rv.rating, rv.body) = (call.rating.value, call.body)
  row : IsReviewOf c call.locationId call.author i ∨
    (c (.review i) = none ∧ ∀ j, ¬ IsReviewOf c call.locationId call.author j)
  reviews : ∀ j, j ≠ i → c' (.review j) = c (.review j)
  revision : c' (.reviewRevision n) = some (call.revision i)
  revisions : ∀ m, m ≠ n → c' (.reviewRevision m) = c (.reviewRevision m)

/-- A commit that has found every review of the author. -/
theorem ReviewEffect.appended {call : ReviewCall} {n : Nat} {since c c' : Rows Cell}
    (h : ReviewEffect call n since c c') (hkept : KeepsAuthor call.entry since c) :
    ∃ i rv, Appended call n i rv c c' := by
  obtain ⟨i, rv, ratings, hreviewed, hpublished⟩ := h
  obtain ⟨b, hfits, hupserted⟩ := hpublished.upserted
  refine ⟨i, rv, hreviewed.review, hupserted.place, hupserted.ofAuthor,
    by rw [hupserted.withRating, hupserted.withBody], ?_,
    fun j hj => hreviewed.rows _ (by simpa using hj) (by simp) (by simp), hpublished.revision,
    hpublished.revisions⟩
  rcases hupserted.row with ⟨r, hr, hown⟩ | ⟨rfl, hvacant, hnone⟩
  · exact .inl ⟨r, hpublished.unchanged.trans hr, hown⟩
  · refine .inr ⟨hpublished.unchanged.trans hvacant, fun j hj => ?_⟩
    obtain ⟨r, hr, hown⟩ := hkept j hj
    rcases Nat.lt_or_ge j b with hlt | hge
    · exact hnone j hlt ⟨r, hr, hown⟩
    · rw [(hfits j hge).2] at hr
      cases hr

section Appended

variable {call : ReviewCall} {n i b : Nat} {rv : Review} {c c' : Rows Cell}

theorem mem_revisionsOf {j : Nat} {rev : ReviewRevision} :
    rev ∈ revisionsOf c b j ↔
      ∃ m < b, c (.reviewRevision m) = some rev ∧ rev.reviewId = j := by
  simp [revisionsOf, Option.filter_eq_some_iff]

theorem Appended.isReviewOf (h : Appended call n i rv c c') :
    IsReviewOf c' call.locationId call.author i :=
  ⟨rv, h.review, h.place, h.author⟩

/-- Of which author a review is does not change. -/
theorem Appended.isReviewOf_iff (h : Appended call n i rv c c') {l : Nat} {a : UserId} {j : Nat} :
    IsReviewOf c' l a j ↔
      IsReviewOf c l a j ∨ (j = i ∧ l = call.locationId ∧ a = call.author) := by
  by_cases hj : j = i
  · subst hj
    constructor
    · rintro ⟨r, hr, hl, ha⟩
      obtain rfl : rv = r := Option.some.inj (h.review.symm.trans hr)
      exact .inr ⟨rfl, hl.symm.trans h.place, Option.some.inj (ha.symm.trans h.author)⟩
    · rintro (⟨r, hr, hl, ha⟩ | ⟨-, rfl, rfl⟩)
      · rcases h.row with ⟨r', hr', hl', ha'⟩ | ⟨hnone, _⟩
        · obtain rfl : r' = r := Option.some.inj (hr'.symm.trans hr)
          rw [← hl, hl', Option.some.inj (ha.symm.trans ha')]
          exact h.isReviewOf
        · rw [hnone] at hr
          cases hr
      · exact h.isReviewOf
  · simp [IsReviewOf, h.reviews j hj, hj]

theorem Appended.unique (h : Appended call n i rv c c')
    (hunique : ∀ l a j k, IsReviewOf c l a j → IsReviewOf c l a k → j = k) (l : Nat) (a : UserId)
    (j k : Nat) (hj : IsReviewOf c' l a j) (hk : IsReviewOf c' l a k) : j = k := by
  have honly : ∀ x, IsReviewOf c call.locationId call.author x → x = i := by
    intro x hx
    rcases h.row with hi | ⟨_, hnone⟩
    · exact hunique _ _ _ _ hx hi
    · exact absurd hx (hnone x)
  rcases h.isReviewOf_iff.mp hj with hj | ⟨rfl, rfl, rfl⟩
  · rcases h.isReviewOf_iff.mp hk with hk | ⟨rfl, rfl, rfl⟩
    · exact hunique _ _ _ _ hj hk
    · exact honly j hj
  · rcases h.isReviewOf_iff.mp hk with hk | ⟨rfl, _, _⟩
    · exact (honly k hk).symm
    · rfl

/-- The history of the other reviews is the same. -/
theorem Appended.revisionsOf_of_ne (h : Appended call n i rv c c')
    (hnew : c (.reviewRevision n) = none) {j : Nat} (hj : j ≠ i) :
    revisionsOf c' b j = revisionsOf c b j := by
  refine List.filterMap_congr fun m _ => ?_
  by_cases hm : m = n
  · subst hm
    have hother : decide ((call.revision i).reviewId = j) = false := decide_eq_false (Ne.symm hj)
    rw [h.revision, hnew, Option.filter_some, hother]
    rfl
  · rw [h.revisions m hm]

/-- The last of a history that is sorted by time, when one of it is later than all
the others. -/
theorem Exported.getLast? {revs out : List ReviewRevision} {last : ReviewRevision}
    (h : Exported revs out) (hlast : last ∈ revs)
    (hlater : ∀ rev ∈ revs, rev = last ∨ rev.editedAt < last.editedAt) :
    out.getLast? = some last := by
  obtain ⟨hperm, hsorted⟩ := h
  rcases List.eq_nil_or_concat' out with rfl | ⟨init, rev, rfl⟩
  · exact absurd (hperm.symm.subset hlast) (by simp)
  · rw [List.getLast?_concat]
    have hbefore := (List.pairwise_append.mp hsorted).2.2
    rcases hlater rev (hperm.subset (by simp)) with rfl | hlt
    · rfl
    · rcases List.mem_append.mp (hperm.symm.subset hlast) with hinit | hrev
      · have hle := hbefore last hinit rev (List.mem_singleton_self _)
        exact absurd hlt (Int.not_lt.mpr hle)
      · rw [List.mem_singleton.mp hrev]

/-- A commit whose call has started after the others of its history. -/
theorem Appended.endsLive (h : Appended call n i rv c c') (hn : n < b)
    (hnew : c (.reviewRevision n) = none) (hlive : EndsLive c b)
    (hlater : ∀ rev ∈ revisionsOf c b i, rev.editedAt < call.clock) : EndsLive c' b := by
  intro j r hr out hout
  by_cases hj : j = i
  · subst hj
    obtain rfl : rv = r := Option.some.inj (h.review.symm.trans hr)
    have hlast : out.getLast? = some (call.revision j) := by
      refine hout.getLast? (mem_revisionsOf.mpr ⟨n, hn, h.revision, rfl⟩) fun rev hrev => ?_
      obtain ⟨m, hm, hrow, hid⟩ := mem_revisionsOf.mp hrev
      by_cases hmn : m = n
      · subst hmn
        exact .inl (Option.some.inj (hrow.symm.trans h.revision))
      · rw [h.revisions m hmn] at hrow
        exact .inr (hlater rev (mem_revisionsOf.mpr ⟨m, hm, hrow, hid⟩))
    rw [hlast, h.content]
    rfl
  · rw [h.reviews j hj] at hr
    rw [h.revisionsOf_of_ne hnew hj] at hout
    exact hlive j r hr out hout

theorem Appended.recorded (h : Appended call n i rv c c') (hn : n < b)
    (hnew : c (.reviewRevision n) = none) (hrecorded : Recorded c b) (hfits : Fits c' b)
    (hlater : ∀ rev ∈ revisionsOf c b i, rev.editedAt < call.clock) : Recorded c' b where
  fits := hfits
  unique := h.unique hrecorded.unique
  revisions m rev hrev := by
    by_cases hm : m = n
    · subst hm
      obtain rfl := Option.some.inj (h.revision.symm.trans hrev)
      refine ⟨hn, ?_⟩
      rw [ReviewCall.revision, h.review]
      simp
    · rw [h.revisions m hm] at hrev
      obtain ⟨hlt, hrow⟩ := hrecorded.revisions m rev hrev
      refine ⟨hlt, ?_⟩
      by_cases hi : rev.reviewId = i
      · rw [hi, h.review]
        simp
      · rwa [h.reviews _ hi]
  last := h.endsLive hn hnew hrecorded.last hlater

end Appended

/-- A new identity changes nothing. -/
theorem Recorded.succ {c : Rows Cell} {b : Nat} (h : Recorded c b) : Recorded c (b + 1) where
  fits i hi := h.fits i (Nat.le_of_succ_le hi)
  unique := h.unique
  revisions m rev hrev := ⟨Nat.lt_succ_of_lt (h.revisions m rev hrev).1, (h.revisions m rev hrev).2⟩
  last := by
    have hnone : c (.reviewRevision b) = none := by
      cases hrow : c (.reviewRevision b) with
      | none => rfl
      | some rev => exact absurd (h.revisions b rev hrow).1 (Nat.lt_irrefl b)
    intro i r hr out hout
    rw [revisionsOf, List.range_succ, List.filterMap_append] at hout
    simp only [List.filterMap_cons, hnone, Option.filter_none, List.filterMap_nil,
      List.append_nil] at hout
    exact h.last i r hr out hout

/-! ## Runs -/

/-- What holds in every state of a run from the rows `c`: each connection has its
row in `review_revision` once it has answered, and none before. -/
structure HistoryKept (c : Rows Cell) (n : Nat) (s : ReviewSystem) : Prop where
  sound : Sound historyDiscipline historyGuarantee (fun _ _ _ _ => True) s
  strict : AllStrict s
  entered : Entered ReviewCall.entry KeepsAuthor s
  numbered : s.Numbered n
  recorded : Recorded s.committed s.serial
  before : ∀ m < n, s.committed (.reviewRevision m) = c (.reviewRevision m)
  done : ∀ {j : Nat} {p : ReviewProcess}, s.processes[j]? = some p → answered p = true →
    ∃ i, IsReviewOf s.committed p.op.locationId p.op.author i ∧
      s.committed (.reviewRevision p.serial) = some (p.op.revision i)
  ahead : ∀ {j : Nat} {p : ReviewProcess}, s.processes[j]? = some p → answered p = false →
    s.committed (.reviewRevision p.serial) = none

/-- A step commits one call, or no connection answers a value and the committed rows
are the same. -/
theorem ReviewStep.cases {s s' : ReviewSystem} {l : Label ReviewCall}
    (hsound : Sound historyDiscipline historyGuarantee (fun _ _ _ _ => True) s)
    (hstrict : AllStrict s) (hstep : ReviewStep s l s') :
    (s'.committed = s.committed ∧ ∀ {j : Nat} {p' : ReviewProcess}, s'.processes[j]? = some p' →
      (∃ p, s.processes[j]? = some p ∧ p.op = p'.op ∧ p.serial = p'.serial ∧
        answered p = answered p') ∨ (p'.serial = s.serial ∧ answered p' = false)) ∨
    ∃ i p p', l = .exec i ∧ s.processes[i]? = some p ∧ s'.processes[i]? = some p' ∧
      p'.op = p.op ∧ p'.serial = p.serial ∧ answered p = false ∧ commits s p = true ∧
      answered p' = true ∧ ReviewEffect p.op p.serial p'.conn.since s.committed s'.committed ∧
      s'.serial = s.serial ∧ ∀ j, j ≠ i → s'.processes[j]? = s.processes[j]? := by
  have hput : ∀ {c : Rows Cell} {i j : Nat} {p p' q : ReviewProcess},
      ({ s with committed := c }.put i p').processes[j]? = some q → s.processes[i]? = some p →
      p.op = p'.op → p.serial = p'.serial → answered p = answered p' →
      (∃ p, s.processes[j]? = some p ∧ p.op = q.op ∧ p.serial = q.serial ∧
        answered p = answered q) ∨ (q.serial = s.serial ∧ answered q = false) := by
    intro c i j p p' q hq hp hop hserial hanswered
    rcases System.of_put hq with ⟨rfl, rfl⟩ | ⟨_, hold⟩
    · exact .inl ⟨p, hp, hop, hserial, hanswered⟩
    · exact .inl ⟨q, hold, rfl, rfl, rfl⟩
  cases System.does_of_step hstep with
  | start op =>
    refine .inl ⟨rfl, fun hq => ?_⟩
    rcases getElem?_append_singleton hq with rfl | hold
    · exact .inr ⟨rfl, rfl⟩
    · exact .inl ⟨_, hold, rfl, rfl, rfl⟩
  | @exec i p write next failed hp hscript hfree =>
    have hbefore : answered p = false := by rw [answered, hscript]
    have hlands := hsound.lands hp hscript
    rw [System.land]
    split
    · rename_i hopen
      rw [Connection.Lands, if_pos hopen] at hlands
      refine .inl ⟨rfl, fun hq => hput hq hp rfl rfl (hbefore.trans ?_)⟩
      rw [answered]
      cases hnext : next (p.conn.on s.committed s.serial) with
      | call => rfl
      | done r =>
        cases r with
        | error e => rfl
        | ok a =>
          rw [hnext] at hlands
          exact absurd hlands.1 (by simp [hopen])
    · rename_i hclosed
      rw [Connection.Lands, if_neg hclosed] at hlands
      have hcommits : commits s p = true := by
        rw [commits, hscript]
        simpa using hclosed
      rcases hlands.1 with ⟨hsame, hno⟩ | ⟨a, ha, heffect⟩
      · refine .inl ⟨hsame, fun hq => hput hq hp rfl rfl (hbefore.trans ?_)⟩
        rw [answered]
        cases hnext : next (p.conn.on s.committed s.serial) with
        | call => rfl
        | done r =>
          cases r with
          | error e => rfl
          | ok a => exact absurd hnext (hno a)
      · refine .inr ⟨i, p, _, rfl, hp, List.getElem?_set_self
          (List.getElem?_eq_some_iff.mp hp).1, rfl, rfl, hbefore, hcommits, ?_, heffect, rfl,
          fun j hj => List.getElem?_set_ne (Ne.symm hj)⟩
        rw [answered, ha]
        rfl
  | @fail i p write next failed hp hscript =>
    have hbefore : answered p = false := by rw [answered, hscript]
    have hstrict := hstrict i p hp
    rw [hscript] at hstrict
    obtain ⟨e, rfl⟩ := hstrict.1
    exact .inl ⟨rfl, fun hq => hput hq hp rfl rfl hbefore⟩
  | finish hp hscript => exact .inl ⟨rfl, fun hq => hput hq hp rfl rfl rfl⟩

/-- Who commits in order has started later than the history of its review. -/
theorem inOrder_later {s : ReviewSystem} {i j : Nat} {p : ReviewProcess}
    (horder : inOrder s (.exec j) = true)
    (hp : s.processes[j]? = some p) (hcommits : commits s p = true)
    (hrow : IsReviewOf s.committed p.op.locationId p.op.author i) :
    ∀ rev ∈ revisionsOf s.committed s.serial i, rev.editedAt < p.op.clock := by
  intro rev hrev
  obtain ⟨m, hm, hmrow, rfl⟩ := mem_revisionsOf.mp hrev
  obtain ⟨r, hr, hl, ha⟩ := hrow
  simp only [inOrder, hp, hcommits, Bool.not_true, Bool.false_or, List.all_eq_true] at horder
  have hlater := horder m (List.mem_range.mpr hm)
  simp only [hmrow, hr, hl, ha, and_self, decide_true, Bool.not_true, Bool.false_or,
    decide_eq_true_eq] at hlater
  exact hlater

theorem HistoryKept.next {c : Rows Cell} {n : Nat} {s s' : ReviewSystem} {l : Label ReviewCall}
    (h : HistoryKept c n s) (horder : inOrder s l = true) (hstep : ReviewStep s l s') :
    HistoryKept c n s' := by
  have hsound := h.sound.next historyContract (fun _ _ _ _ _ _ _ _ _ _ => trivial) hstep
  have hstrict := h.strict.next (fun _ _ => upsertReviewTx_strict ..) hstep
  have hentered := h.entered.next historyExclusive h.sound hstep
  have hnumbered := h.numbered.next hstep
  have hvacant : s.committed (.reviewRevision s.serial) = none := by
    cases hrow : s.committed (.reviewRevision s.serial) with
    | none => rfl
    | some rev => exact absurd (h.recorded.revisions _ rev hrow).1 (Nat.lt_irrefl _)
  rcases ReviewStep.cases h.sound h.strict hstep with ⟨hsame, hprocesses⟩ |
    ⟨i, p, p', rfl, hp, hp', hop, hserial, hbefore, hcommits, hafter, heffect, hcount, hothers⟩
  · refine ⟨hsound, hstrict, hentered, hnumbered, ?_, fun m hm => ?_, fun hq ha => ?_,
      fun hq ha => ?_⟩
    · rw [hsame]
      rcases Nat.lt_or_ge s.serial s'.serial with hlt | hge
      · obtain hstart : s'.serial = s.serial + 1 := by
          cases System.does_of_step hstep with
          | start op => rfl
          | exec hp hscript hfree =>
            rw [System.land] at hlt
            split at hlt <;> exact absurd hlt (Nat.lt_irrefl _)
          | fail => exact absurd hlt (Nat.lt_irrefl _)
          | finish => exact absurd hlt (Nat.lt_irrefl _)
        rw [hstart]
        exact h.recorded.succ
      · rw [Nat.le_antisymm hge (System.serial_le hstep)]
        exact h.recorded
    · rw [hsame]
      exact h.before m hm
    · rcases hprocesses hq with ⟨q, hold, hop, hserial, hanswered⟩ | ⟨_, hno⟩
      · rw [hsame, ← hop, ← hserial]
        exact h.done hold (hanswered.trans ha)
      · rw [ha] at hno
        cases hno
    · rcases hprocesses hq with ⟨q, hold, hop, hserial, hanswered⟩ | ⟨hserial, _⟩
      · rw [hsame, ← hserial]
        exact h.ahead hold (hanswered.trans ha)
      · rw [hsame, hserial]
        exact hvacant
  · have hkept := h.entered.since historyExclusive hstep hp hp'
    obtain ⟨k, rv, happended⟩ := heffect.appended hkept
    have hnew := h.ahead hp hbefore
    have hlater : ∀ rev ∈ revisionsOf s.committed s.serial k, rev.editedAt < p.op.clock := by
      rcases happended.row with hrow | ⟨hnone, _⟩
      · exact inOrder_later horder hp hcommits hrow
      · intro rev hrev
        obtain ⟨m, _, hmrow, hid⟩ := mem_revisionsOf.mp hrev
        exact absurd (hid ▸ hnone) (h.recorded.revisions m rev hmrow).2
    have hapart : ∀ {j q}, j ≠ i → s.processes[j]? = some q → q.serial ≠ p.serial := by
      intro j q hne hq heq
      rw [h.numbered.serials hq, h.numbered.serials hp] at heq
      omega
    refine ⟨hsound, hstrict, hentered, hnumbered, ?_, fun m hm => ?_, fun {j q} hq ha => ?_,
      fun {j q} hq ha => ?_⟩
    · rw [hcount]
      exact happended.recorded (h.sound.serial hp) hnew h.recorded (hcount ▸ hsound.fits) hlater
    · rw [happended.revisions m (by have := h.numbered.serials hp; omega)]
      exact h.before m hm
    · by_cases hj : j = i
      · subst hj
        obtain rfl : p' = q := Option.some.inj (hp'.symm.trans hq)
        rw [hop, hserial]
        exact ⟨k, happended.isReviewOf, happended.revision⟩
      · rw [hothers j hj] at hq
        obtain ⟨k', hk', hrow⟩ := h.done hq ha
        exact ⟨k', happended.isReviewOf_iff.mpr (.inl hk'),
          (happended.revisions _ (hapart hj hq)).trans hrow⟩
    · by_cases hj : j = i
      · subst hj
        obtain rfl : p' = q := Option.some.inj (hp'.symm.trans hq)
        rw [hafter] at ha
        cases ha
      · rw [hothers j hj] at hq
        exact (happended.revisions _ (hapart hj hq)).trans (h.ahead hq ha)

/-- A list that is looked up by its indices. -/
theorem filterMap_range_length {α β : Type} {ps : List α} {f : Nat → Option β} {g : α → Option β}
    (h : ∀ j p, ps[j]? = some p → f j = g p) :
    (List.range ps.length).filterMap f = ps.filterMap g := by
  induction ps generalizing f with
  | nil => rfl
  | cons p ps ih =>
    have htail := ih (f := fun j => f (j + 1)) fun j q hq => h (j + 1) q hq
    rw [List.length_cons, List.range_succ_eq_map, List.filterMap_cons, List.filterMap_cons,
      h 0 p rfl, List.filterMap_map]
    cases g p with
    | none => exact htail
    | some b => exact congrArg (b :: ·) htail

/-- The new rows of a history are those of the connections that have answered. -/
theorem HistoryKept.revisionsOf_eq {c : Rows Cell} {n : Nat} {s : ReviewSystem}
    (h : HistoryKept c n s) {i : Nat} {r : Review} (hr : s.committed (.review i) = some r) :
    revisionsOf s.committed s.serial i =
      revisionsOf c n i ++ (upsertsOf s r).map fun p => p.op.revision i := by
  have hrows : ∀ j p, s.processes[j]? = some p →
      ((s.committed (.reviewRevision (n + j))).filter fun rev => rev.reviewId = i) =
        if answered p && decide (p.op.locationId = r.locationId ∧ some p.op.author = r.authorId)
          then some (p.op.revision i) else none := by
    intro j p hp
    rw [← h.numbered.serials hp]
    cases hanswered : answered p with
    | false =>
      rw [h.ahead hp hanswered]
      rfl
    | true =>
      obtain ⟨k, hk, hrow⟩ := h.done hp hanswered
      rw [hrow, Option.filter_some]
      by_cases hki : k = i
      · subst hki
        obtain ⟨r', hr', hl, ha⟩ := hk
        obtain rfl : r' = r := Option.some.inj (hr'.symm.trans hr)
        simp [ReviewCall.revision, hl, ha]
      · have hno : ¬ (p.op.locationId = r.locationId ∧ some p.op.author = r.authorId) := by
          rintro ⟨hl, ha⟩
          exact hki (h.recorded.unique _ _ _ _ hk ⟨r, hr, hl.symm, ha.symm⟩)
        simp [ReviewCall.revision, hki, hno]
  have hbefore : (List.range n).filterMap (fun m =>
      (s.committed (.reviewRevision m)).filter fun rev => rev.reviewId = i) =
        revisionsOf c n i :=
    List.filterMap_congr fun m hm => by rw [h.before m (List.mem_range.mp hm)]
  rw [revisionsOf, h.numbered.serial, List.range_add, List.filterMap_append, hbefore,
    List.filterMap_map, upsertsOf, ← List.filterMap_eq_map, List.filterMap_filter]
  exact congrArg _ (filterMap_range_length hrows)

/-- In a run in which every call that commits has started later than the calls in the
history of its review, every history has one row for each committed call, and
ends with the live review. -/
theorem history_kept {c : Rows Cell} {n : Nat} {ls : List (Label ReviewCall)} {s : ReviewSystem}
    (hrun : Run (Guarded (fun s l => inOrder s l = true) ReviewStep) ⟨c, n, []⟩ ls s)
    (hc : Recorded c n) : HistoryRight c n s := by
  have hstart : HistoryKept c n ⟨c, n, []⟩ :=
    ⟨.of_nil hc.fits, fun _ _ hp => by simp at hp, .of_nil c n, ⟨rfl, by simp⟩, hc,
      fun _ _ => rfl, by simp, by simp⟩
  have hkept : HistoryKept c n s :=
    hrun.invariant (I := HistoryKept c n) (fun s l s' h ⟨horder, hstep⟩ => h.next horder hstep)
      hstart
  exact ⟨fun i r hr => hkept.revisionsOf_eq hr, hkept.recorded.last⟩

/-! ## A run in order, and one with the starts reversed -/

theorem recorded_unratedRows : Recorded unratedRows 1 where
  fits := fits_unratedRows 1
  unique := by
    rintro l a i j ⟨r, hr, _⟩
    cases hr
  revisions m rev hrev := by cases hrev
  last := by
    intro i r hr
    cases hr

/-- The first review of a user. -/
def firstReview : ReviewCall := { fiveStars 1 with clock := 1 }

/-- The same user thinks again. -/
def secondReview : ReviewCall := ⟨1, 1, ⟨2, by decide⟩, "bad", 2⟩

theorem history_kept_in_order :
    ∃ s, Run (Guarded (fun s l => inOrder s l = true) ReviewStep) ⟨unratedRows, 1, []⟩
        [.start firstReview, .exec 0, .exec 0, .exec 0, .exec 0, .exec 0, .exec 0,
          .start secondReview, .exec 1, .exec 1, .exec 1, .exec 1, .exec 1, .exec 1] s ∧
      HistoryRight unratedRows 1 s := by
  have hrun : ([.start firstReview, .exec 0, .exec 0, .exec 0, .exec 0, .exec 0, .exec 0,
      .start secondReview, .exec 1, .exec 1, .exec 1, .exec 1, .exec 1, .exec 1].foldlM
        (fun (s : ReviewSystem) l => if inOrder s l then s.next ReviewCall.script l else none)
      ⟨unratedRows, 1, []⟩).isSome = true := by decide +kernel
  obtain ⟨s, hs⟩ := Option.isSome_iff_exists.mp hrun
  exact ⟨s, Run.guarded_of_foldlM hs, history_kept (Run.guarded_of_foldlM hs) recorded_unratedRows⟩

/-- Both transactions begin; the second one is through before the first one gets to
its upsert. -/
def reversedReviews : List (Label ReviewCall) :=
  [.start firstReview, .exec 0, .start secondReview, .exec 1,
    .exec 1, .exec 1, .exec 1, .exec 1, .exec 1,
    .exec 0, .exec 0, .exec 0, .exec 0, .exec 0]

theorem history_reversed :
    ¬ ∀ (c : Rows Cell) (n : Nat) (ls : List (Label ReviewCall)) (s : ReviewSystem),
      Run (Guarded (fun s l => timely s l = true) ReviewStep) ⟨c, n, []⟩ ls s → Recorded c n →
        allAnswered s = true → HistoryRight c n s := by
  intro h
  have hrun : (reversedReviews.foldlM
      (fun (s : ReviewSystem) l => if timely s l then s.next ReviewCall.script l else none)
      ⟨unratedRows, 1, []⟩).any (fun s => allAnswered s &&
        decide ((revisionsOf s.committed s.serial 2).Pairwise
          fun rev rev' => rev.editedAt ≤ rev'.editedAt) &&
        ((s.committed (.review 2)).any fun r =>
          (revisionsOf s.committed s.serial 2).getLast?.map (fun rev => (rev.rating, rev.body)) !=
            some (r.rating, r.body))) = true := by
    decide +kernel
  obtain ⟨s, hs, hcheck⟩ := Option.any_eq_true _ _ |>.mp hrun
  simp only [Bool.and_eq_true, Option.any_eq_true, bne_iff_ne, decide_eq_true_eq] at hcheck
  obtain ⟨⟨hanswered, hsorted⟩, r, hr, hwrong⟩ := hcheck
  exact hwrong ((h _ _ _ s (Run.guarded_of_foldlM hs) recorded_unratedRows hanswered).last 2 r hr _
    ⟨.refl _, hsorted⟩)

end BikesNest.Community
