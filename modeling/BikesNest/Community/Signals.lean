import BikesNest.Community.Explanation
import BikesNest.Lib.Distinct
import BikesNest.Lib.Run
import BikesNest.Privacy.HardPurge

/-!
# One voice for each user

Whoever has verified that a place exists may do so again, and every time is a row.  The page
of the place counts one of them for each user.  `latestExistencePerUser` is the query,
`standing` are the votes of a run that still have their owner, after erasures and purges, and
`latestExistencePerUser_run` says that the query finds a newest one of each user among them.

`communityDetails_oneVoice` carries this to the page: its confidence, its dispute and the
visitor's own vote are those of the voices, however often anybody has voted.
-/

namespace BikesNest.Community

open Domain Search Store Relational

/-- `ExistenceResult::from_code`. -/
def ExistenceResult.fromCode (code : String) : Except DomainError ExistenceResult :=
  if code = "still_exists" then .ok .stillExists
  else if code = "no_longer_exists" then .ok .noLongerExists
  else if code = "info_changed" then .ok .infoChanged
  else .error (.invalid ("unknown existence result: " ++ code))

@[simp] theorem ExistenceResult.fromCode_asCode (result : ExistenceResult) :
    ExistenceResult.fromCode result.asCode = .ok result := by
  cases result <;> rfl

/-! ## The query -/

/-- A row of the query. -/
structure SignalRow where
  user : UserId
  result : String
  createdAt : Instant

/-- What the query selects of a row on a location. -/
def signalRow (locationId : Nat) (r : Verification) : Option SignalRow :=
  if r.locationId = locationId ∧ r.kind = .existence then
    r.userId.map fun user => ⟨user, r.result, r.createdAt⟩
  else none

/-- The rows with an owner that tell of the existence of a location. -/
def signalRows (t : Table Verification) (locationId : Nat) : List SignalRow :=
  t.rows.filterMap fun x => signalRow locationId x.2

def SignalRow.decode (r : SignalRow) : Except ContributionError ExistenceSignal :=
  match ExistenceResult.fromCode r.result with
  | .ok result => .ok ⟨r.user, result, r.createdAt⟩
  | .error e => .error (.invalidField e.message)

/-- `latest_existence_per_user`.  `arrange` is the order in which the rows are stored. -/
def latestExistencePerUser (arrange : List SignalRow → List SignalRow) (db : Db)
    (locationId : Nat) : Except ContributionError (List ExistenceSignal) :=
  (Distinct.distinctOn SignalRow.user SignalRow.createdAt
    (arrange (signalRows db.verification locationId))).mapM SignalRow.decode

/-! ## The votes of a run -/

/-- What happens to the verifications of all places. -/
inductive SignalEvent where
  | recorded (signal : NewVerification) (now clock : Instant)
  | erased (user : UserId) (at' : Instant)
  | purged (now : Instant)
  | shellsGone (gone : UserId → Bool)
  | other

/-- One request or job that touches the verifications, or one that does not. -/
inductive SignalStep (cases : Text.CaseMap) : Db → SignalEvent → Db → Prop
  | recorded (db : Db) (signal : NewVerification) (now clock : Instant) :
      SignalStep cases db (.recorded signal now clock)
        { db with verification := db.verification.insert (signal.toRow now clock) }
  | erased {db db' : Db} {user : UserId} {at' : Instant} {report : Privacy.AnonymizationReport}
      (h : Privacy.anonymize cases db user at' = .ok (report, db')) :
      SignalStep cases db (.erased user at') db'
  | purged (db : Db) (now : Instant) :
      SignalStep cases db (.purged now) (Privacy.purgeExpiredParkedHere db now).2
  | shellsGone (db : Db) (cutoff : Instant) :
      SignalStep cases db (.shellsGone (Privacy.isPurged db cutoff))
        (Privacy.purgeDeletedAccounts db cutoff).2
  | other {db db' : Db} (h : db'.verification = db.verification) :
      SignalStep cases db .other db'

/-- The vote of an event on a location. -/
def SignalEvent.votes (locationId : Nat) : SignalEvent → List ExistenceSignal
  | .recorded (.existence l user result) _ clock =>
    if l = locationId then [⟨user, result, clock⟩] else []
  | _ => []

/-- Does an event leave a vote with its owner? -/
def SignalEvent.spares : SignalEvent → UserId → Bool
  | .erased user _, owner => decide (owner ≠ user)
  | .shellsGone gone, owner => !gone owner
  | _, _ => true

/-- The votes on a location that stand after one more event. -/
def standingAfter (locationId : Nat) (votes : List ExistenceSignal) (e : SignalEvent) :
    List ExistenceSignal :=
  votes.filter (fun s => e.spares s.user) ++ e.votes locationId

/-- The votes on a location that stand after a run, in the order of the run. -/
def standing (locationId : Nat) (es : List SignalEvent) : List ExistenceSignal :=
  es.foldl (standingAfter locationId) []

/-- The row of a vote. -/
def voteRow (s : ExistenceSignal) : SignalRow := ⟨s.user, s.result.asCode, s.at'⟩

@[simp] theorem decode_voteRow (s : ExistenceSignal) : (voteRow s).decode = .ok s := by
  simp [SignalRow.decode, voteRow]

section Rows

variable {cases : Text.CaseMap} {db db' : Db} {e : SignalEvent} (locationId : Nat)

theorem signalRow_toRow (signal : NewVerification) (now clock : Instant) :
    (signalRow locationId (signal.toRow now clock)).toList =
      ((SignalEvent.recorded signal now clock).votes locationId).map voteRow := by
  cases signal with
  | existence l user result =>
    by_cases h : l = locationId <;>
      simp [signalRow, NewVerification.toRow, NewVerification.locationId, NewVerification.kind,
        NewVerification.userId, SignalEvent.votes, voteRow, h]
  | «attribute» l user code result =>
    simp [signalRow, NewVerification.toRow, NewVerification.kind, SignalEvent.votes]
  | parkedHere l user =>
    simp [signalRow, NewVerification.toRow, NewVerification.kind, SignalEvent.votes]

/-- An erasure takes away the votes of its user, and no others. -/
theorem signalRows_scrubbed (user : UserId) (at' : Instant) :
    signalRows (Privacy.scrubbed db user at').verification locationId =
      (signalRows db.verification locationId).filter fun r => decide (r.user ≠ user) := by
  simp only [signalRows, Privacy.scrubbed, Table.rows_update, Table.rows_delete,
    List.filterMap_map, List.filterMap_filter, List.filter_filterMap]
  apply List.filterMap_congr
  intro x _
  by_cases hsought : x.2.locationId = locationId ∧ x.2.kind = .existence
  · cases howner : x.2.userId with
    | none => simp [signalRow, hsought, howner]
    | some owner =>
      by_cases heq : owner = user <;> simp [signalRow, hsought, howner, heq, Option.filter]
  -- a row the query does not want stays one, also the ones that go
  · have hnone : signalRow locationId x.2 = none := if_neg hsought
    rw [hnone]
    by_cases hown : x.2.userId = some user <;>
      by_cases hkind : x.2.kind = .parkedHere <;>
      simp_all [signalRow]

/-- A row whose owner is forgotten is no longer found. -/
theorem signalRow_release (gone : UserId → Bool) (r : Verification) :
    signalRow locationId { r with userId := Privacy.release gone r.userId } =
      (signalRow locationId r).filter fun x => !gone x.user := by
  by_cases hsought : r.locationId = locationId ∧ r.kind = .existence
  · cases howner : r.userId with
    | none => simp [signalRow, Privacy.release, howner]
    | some owner =>
      by_cases hgone : gone owner <;>
        simp [signalRow, Privacy.release, hsought, howner, hgone, Option.filter]
  · simp [signalRow, hsought]

/-- The purge of the shells takes away the votes of the accounts that go. -/
theorem signalRows_purgeDeletedAccounts (cutoff : Instant) :
    signalRows (Privacy.purgeDeletedAccounts db cutoff).2.verification locationId =
      (signalRows db.verification locationId).filter fun r =>
        !Privacy.isPurged db cutoff r.user := by
  show ((db.verification.update (fun _ _ => true) fun r =>
    { r with userId := Privacy.release (Privacy.isPurged db cutoff) r.userId }).rows.filterMap
      fun x => signalRow locationId x.2) = _
  rw [Table.rows_update, List.filterMap_map, signalRows, List.filter_filterMap]
  apply List.filterMap_congr
  intro x _
  exact signalRow_release locationId _ x.2

/-- Each step does to the rows of the query what it does to the votes. -/
theorem signalRows_step (h : SignalStep cases db e db') :
    signalRows db'.verification locationId =
      (signalRows db.verification locationId).filter (fun r => e.spares r.user) ++
        (e.votes locationId).map voteRow := by
  cases h with
  | recorded signal now clock =>
    rw [← signalRow_toRow]
    simp only [signalRows, Table.rows_insert, List.filterMap_append, SignalEvent.spares]
    rw [List.filter_eq_self.mpr fun _ _ => rfl]
    cases hrow : signalRow locationId (signal.toRow now clock) <;> simp [hrow]
  | erased h =>
    rw [(Privacy.anonymize_eq_ok h).1, signalRows_scrubbed]
    simp [SignalEvent.spares, SignalEvent.votes]
  | purged now =>
    simp only [signalRows, Privacy.purgeExpiredParkedHere, Table.rows_delete,
      List.filterMap_filter, SignalEvent.spares, SignalEvent.votes]
    rw [List.filter_eq_self.mpr fun _ _ => rfl, List.map_nil, List.append_nil]
    apply List.filterMap_congr
    intro x _
    by_cases hkind : x.2.kind = .parkedHere <;> simp [signalRow, hkind]
  | shellsGone cutoff =>
    rw [signalRows_purgeDeletedAccounts]
    simp [SignalEvent.spares, SignalEvent.votes]
  | other h =>
    simp [h, SignalEvent.spares, SignalEvent.votes]

/-- After a run the query finds the rows of the votes that stand. -/
theorem signalRows_run {es : List SignalEvent} (hrun : Runs.Run (SignalStep cases) db es db')
    (votes : List ExistenceSignal)
    (h : signalRows db.verification locationId = votes.map voteRow) :
    signalRows db'.verification locationId =
      (es.foldl (standingAfter locationId) votes).map voteRow := by
  induction hrun generalizing votes with
  | nil => exact h
  | cons head _ ih =>
    apply ih
    rw [signalRows_step locationId head, h, standingAfter, List.map_append, List.filter_map]
    rfl

end Rows

/-! ## The answer of the query -/

/-- Of the users who have voted, each has one voice, and it is a newest vote. -/
structure OneVoice (votes voices : List ExistenceSignal) : Prop where
  newest : ∀ s ∈ voices, Distinct.IsNewest ExistenceSignal.user ExistenceSignal.at' votes s
  heard : ∀ s ∈ votes, ∃ v ∈ voices, v.user = s.user
  once : (voices.map ExistenceSignal.user).Nodup

theorem OneVoice.perm {votes votes' voices : List ExistenceSignal} (h : OneVoice votes voices)
    (hperm : votes.Perm votes') : OneVoice votes' voices where
  newest s hs :=
    ⟨hperm.mem_iff.mp (h.newest s hs).1, fun y hy => (h.newest s hs).2 y (hperm.mem_iff.mpr hy)⟩
  heard s hs := h.heard s (hperm.mem_iff.mpr hs)
  once := h.once

/-- Rows that are the rows of some votes in another order are those of the same votes. -/
theorem exists_votes {rows : List SignalRow} {votes : List ExistenceSignal}
    (h : rows.Perm (votes.map voteRow)) :
    ∃ votes' : List ExistenceSignal, rows = votes'.map voteRow ∧ votes'.Perm votes := by
  have hback : ∀ l : List ExistenceSignal,
      (l.map voteRow).filterMap (fun r => r.decode.toOption) = l := by
    intro l
    rw [List.filterMap_map]
    simp [Function.comp_def, Except.toOption]
  have hvotes := h.filterMap fun r => r.decode.toOption
  rw [hback] at hvotes
  refine ⟨_, ?_, hvotes⟩
  have hall : ∀ r ∈ rows, ∃ s, voteRow s = r := fun r hr => by
    obtain ⟨s, _, hs⟩ := List.mem_map.mp (h.mem_iff.mp hr)
    exact ⟨s, hs⟩
  clear h hvotes
  induction rows with
  | nil => rfl
  | cons r rows ih =>
    obtain ⟨s, rfl⟩ := hall r List.mem_cons_self
    have hrest := ih fun r hr => hall r (List.mem_cons_of_mem _ hr)
    rw [List.filterMap_cons_some (b := s) (by simp [Except.toOption]), List.map_cons, ← hrest]

theorem mapM_decode (votes : List ExistenceSignal) :
    (votes.map voteRow).mapM SignalRow.decode = .ok votes := by
  induction votes with
  | nil => rfl
  | cons s votes ih => simp [List.mapM_cons, ih, bind, Except.bind, pure, Except.pure]

/-- After a run the query finds one voice for each user whose votes stand. -/
theorem latestExistencePerUser_run {cases : Text.CaseMap} {db db' : Db} {es : List SignalEvent}
    {arrange : List SignalRow → List SignalRow} {locationId : Nat}
    (harrange : ∀ rows, (arrange rows).Perm rows)
    (hstart : signalRows db.verification locationId = [])
    (hrun : Runs.Run (SignalStep cases) db es db') :
    ∃ voices, latestExistencePerUser arrange db' locationId = .ok voices ∧
      OneVoice (standing locationId es) voices := by
  have hrows : (arrange (signalRows db'.verification locationId)).Perm
      ((standing locationId es).map voteRow) := by
    refine (harrange _).trans ?_
    rw [signalRows_run locationId hrun [] hstart]
    rfl
  obtain ⟨votes, hvotes, hperm⟩ := exists_votes hrows
  refine ⟨Distinct.distinctOn ExistenceSignal.user ExistenceSignal.at' votes, ?_,
    OneVoice.perm ?_ hperm⟩
  · rw [latestExistencePerUser, hvotes, Distinct.distinctOn_map]
    exact mapM_decode _
  · exact {
      newest := fun s hs => Distinct.isNewest_of_mem hs
      heard := fun s hs => Distinct.exists_mem_distinctOn hs
      once := Distinct.nodup_distinctOn }

/-! ## The page -/

/-- What the page makes of the voices. -/
structure SpeaksFor (voices : List ExistenceSignal) (freshness : FreshnessThresholds)
    (now : Instant) (viewer : Option UserId) (page : CommunityParkingDetails) : Prop where
  confidence : page.confidence = confidence voices now freshness
  disputed : page.disputed = true ↔
    (∃ a ∈ page.attributeSummary, 0 < a.incorrect) ∨ ∃ s ∈ voices, s.result = .infoChanged
  own : ∀ s, page.ownVerification = some s ↔ viewer = some s.user ∧ s ∈ voices

/-- What a page that is shown has of the two queries on the verifications. -/
theorem communityDetails_signals {F : FloatOps} {freshness : FreshnessThresholds}
    {readers : CommunityReaders} {now : Instant} {location : LocationAggregate}
    {viewer : Option UserId} {page : CommunityParkingDetails}
    (h : communityDetails F freshness readers now location viewer = .ok page) :
    ∃ signals, readers.latestExistencePerUser location.id = .ok signals ∧
      readers.attributeAndParkedSummary location.id =
        .ok (page.attributeSummary, page.parkedHereCount) ∧
      page.confidence = confidence signals now freshness ∧
      page.disputed = ((page.attributeSummary.any fun a => 0 < a.incorrect) ||
        signals.any fun s => s.result == .infoChanged) ∧
      page.ownVerification = viewer.bind fun v => signals.find? fun s => s.user == v := by
  unfold communityDetails at h
  dsimp only at h
  obtain ⟨reviews, _, h⟩ := Moderation.bind_eq_ok h
  obtain ⟨photos, _, h⟩ := Moderation.bind_eq_ok h
  obtain ⟨signals, hsignals, h⟩ := Moderation.bind_eq_ok h
  obtain ⟨summary, hsummary, h⟩ := Moderation.bind_eq_ok h
  obtain ⟨ownReview, _, h⟩ := Moderation.bind_eq_ok h
  obtain ⟨isFavorited, _, h⟩ := Moderation.bind_eq_ok h
  obtain rfl := Except.ok.inj h
  exact ⟨signals, hsignals, hsummary, rfl, rfl, rfl⟩

theorem communityDetails_speaksFor {F : FloatOps} {freshness : FreshnessThresholds}
    {readers : CommunityReaders} {now : Instant} {location : LocationAggregate}
    {viewer : Option UserId} {page : CommunityParkingDetails} {voices : List ExistenceSignal}
    (hvoices : readers.latestExistencePerUser location.id = .ok voices)
    (honce : (voices.map ExistenceSignal.user).Nodup)
    (h : communityDetails F freshness readers now location viewer = .ok page) :
    SpeaksFor voices freshness now viewer page := by
  obtain ⟨signals, hsignals, _, hconfidence, hdisputed, hown⟩ := communityDetails_signals h
  obtain rfl := Except.ok.inj (hvoices.symm.trans hsignals)
  constructor
  · exact hconfidence
  · rw [hdisputed]
    simp only [Bool.or_eq_true, List.any_eq_true, decide_eq_true_eq, beq_iff_eq]
  · intro s
    rw [hown]
    cases viewer with
    | none => simp
    | some v =>
      rw [Option.bind_some, Distinct.find?_eq_some_iff honce, Option.some.injEq, eq_comm]

/-- However often anybody has voted, and whatever has been erased and purged, the page
speaks for one voice of each user. -/
theorem communityDetails_oneVoice {cases : Text.CaseMap} {db db' : Db} {es : List SignalEvent}
    {F : FloatOps} {freshness : FreshnessThresholds} {readers : CommunityReaders}
    {arrange : List SignalRow → List SignalRow} {now : Instant} {location : LocationAggregate}
    {viewer : Option UserId} {page : CommunityParkingDetails}
    (harrange : ∀ rows, (arrange rows).Perm rows)
    (hstart : signalRows db.verification location.id = [])
    (hrun : Runs.Run (SignalStep cases) db es db')
    (hpage : communityDetails F freshness
      { readers with latestExistencePerUser := latestExistencePerUser arrange db' } now location
      viewer = .ok page) :
    ∃ voices, OneVoice (standing location.id es) voices ∧
      SpeaksFor voices freshness now viewer page := by
  obtain ⟨voices, hvoices, hone⟩ := latestExistencePerUser_run harrange hstart hrun
  exact ⟨voices, hone, communityDetails_speaksFor hvoices hone.once hpage⟩

/-! ## A vote that was taken back -/

/-- Two users say that the place is gone; one takes it back, the other is erased. -/
def votesTakenBack : List SignalEvent :=
  [.recorded (.existence 1 1 .noLongerExists) 10 10,
    .recorded (.existence 1 2 .noLongerExists) 15 15,
    .recorded (.existence 1 1 .stillExists) 20 20,
    .erased 2 25]

def threeVotes : Db :=
  { Db.empty 0 with
    verification := ((Table.empty.insert
      ((NewVerification.existence 1 1 .noLongerExists).toRow 10 10)).insert
      ((NewVerification.existence 1 2 .noLongerExists).toRow 15 15)).insert
      ((NewVerification.existence 1 1 .stillExists).toRow 20 20) }

/-- The details page of the place after these events. -/
def takenBackPage : Except ContributionError CommunityParkingDetails :=
  communityDetails exactOps monthly
    { reviewsOnly (reviewedRows 2 200) 3 with
      latestExistencePerUser := latestExistencePerUser id (Privacy.scrubbed threeVotes 2 25) }
    30 (reviewedRack 2 200) (some 1)

theorem communityDetails_oneVoice_takenBack :
    ∃ page voices, takenBackPage = .ok page ∧
      OneVoice [⟨1, .noLongerExists, 10⟩, ⟨1, .stillExists, 20⟩] voices ∧
      SpeaksFor voices monthly 30 (some 1) page := by
  have hok : takenBackPage.isOk = true := by decide +kernel
  have herased : Privacy.anonymize Text.CaseMap.ascii threeVotes 2 25 =
      .ok (Privacy.anonymizationReport threeVotes 2, Privacy.scrubbed threeVotes 2 25) := rfl
  have hrun : Runs.Run (SignalStep Text.CaseMap.ascii) (Db.empty 0) votesTakenBack
      (Privacy.scrubbed threeVotes 2 25) :=
    .cons (.recorded ..) (.cons (.recorded ..) (.cons (.recorded ..)
      (.cons (.erased herased) (.nil _))))
  cases hpage : takenBackPage with
  | error e =>
    rw [hpage] at hok
    cases hok
  | ok page =>
    obtain ⟨voices, hone, hspeaks⟩ :=
      communityDetails_oneVoice (fun rows => List.Perm.refl rows) rfl hrun hpage
    exact ⟨page, voices, rfl, hone, hspeaks⟩

end BikesNest.Community
