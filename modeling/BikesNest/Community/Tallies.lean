import BikesNest.Community.Signals
import Mathlib.Data.List.Count
import Mathlib.Data.List.Dedup

/-!
# Tallies and recent parking

The page of a place counts what its visitors say of its attributes, and how many have parked
there of late.  `attributeAndParkedSummary` is the query for both.

`attributeRows_run` says that every vote on an attribute counts for good, also when its user
has been erased, and `recentParked_run` that a purge takes away no row that would have been
counted.  `communityDetails_tallies` carries both to the page.
-/

namespace BikesNest.Community

open Domain Search Store Relational

/-! ## The query -/

/-- A row of the query: the tally of a code, if there is one, beside the count. -/
structure TallyRow where
  attributeCode : Option String
  correct : Option Nat
  incorrect : Option Nat
  parkedHereCount : Nat

/-- The code and the result of a vote on an attribute of a location. -/
def attributeRow (locationId : Nat) (r : Verification) : Option (Option String × String) :=
  if r.locationId = locationId ∧ r.kind = .attribute then some (r.attributeCode, r.result)
  else none

def attributeRows (t : Table Verification) (locationId : Nat) : List (Option String × String) :=
  t.rows.filterMap fun x => attributeRow locationId x.2

/-- A parked-here signal as it stands. -/
structure ParkedSignal where
  user : Option UserId
  expiresAt : Option Instant

def parkedRow (locationId : Nat) (r : Verification) : Option ParkedSignal :=
  if r.locationId = locationId ∧ r.kind = .parkedHere then some ⟨r.userId, r.expiresAt⟩
  else none

def parkedRows (t : Table Verification) (locationId : Nat) : List ParkedSignal :=
  t.rows.filterMap fun x => parkedRow locationId x.2

/-- The signals within the retention window: `expires_at IS NULL OR expires_at > now()`. -/
def recent (clock : Instant) (signals : List ParkedSignal) : List ParkedSignal :=
  signals.filter fun s => s.expiresAt.all (clock < ·)

/-- The query.  `arrange` puts the codes in the order of the collation. -/
def tallyRows (arrange : List (Option String) → List (Option String)) (db : Db)
    (locationId : Nat) : List TallyRow :=
  let votes := attributeRows db.verification locationId
  let parked := (recent db.now (parkedRows db.verification locationId)).length
  match arrange (votes.map Prod.fst).dedup with
  | [] => [⟨none, none, none, parked⟩]
  | codes => codes.map fun code =>
      ⟨code, some (votes.count (code, "correct")), some (votes.count (code, "incorrect")), parked⟩

/-- A row that the join has padded has no code. -/
def TallyRow.summary (r : TallyRow) : Option AttributeSummary :=
  r.attributeCode.map fun code => ⟨code, r.correct.getD 0, r.incorrect.getD 0⟩

/-- `attribute_and_parked_summary`. -/
def attributeAndParkedSummary (arrange : List (Option String) → List (Option String)) (db : Db)
    (locationId : Nat) : Except ContributionError (List AttributeSummary × Nat) :=
  let rows := tallyRows arrange db locationId
  .ok (rows.filterMap TallyRow.summary, (rows.head?.map TallyRow.parkedHereCount).getD 0)

/-- The tally of one code. -/
def tallyOf (votes : List (Option String × String)) (code : Option String) :
    Option AttributeSummary :=
  code.map fun c => ⟨c, votes.count (code, "correct"), votes.count (code, "incorrect")⟩

/-- The join loses neither a code nor, without codes, the count. -/
theorem attributeAndParkedSummary_eq (arrange : List (Option String) → List (Option String))
    (db : Db) (locationId : Nat) :
    attributeAndParkedSummary arrange db locationId =
      .ok ((arrange ((attributeRows db.verification locationId).map Prod.fst).dedup).filterMap
          (tallyOf (attributeRows db.verification locationId)),
        (recent db.now (parkedRows db.verification locationId)).length) := by
  unfold attributeAndParkedSummary tallyRows
  dsimp only
  cases arrange ((attributeRows db.verification locationId).map Prod.fst).dedup with
  | nil => rfl
  | cons code codes => exact congrArg Except.ok (Prod.ext List.filterMap_map rfl)

/-! ## The signals of a run -/

/-- The vote of an event on an attribute of a location. -/
def SignalEvent.tallied (locationId : Nat) : SignalEvent → List (String × AttributeResult)
  | .recorded (.attribute l _ code result) _ _ => if l = locationId then [(code, result)] else []
  | _ => []

/-- The votes of a run on the attributes of a location. -/
def tallied (locationId : Nat) (es : List SignalEvent) : List (String × AttributeResult) :=
  es.flatMap (SignalEvent.tallied locationId)

/-- The parked-here signals on a location after one more event, if nothing were purged. -/
def parkedAfter (locationId : Nat) (signals : List ParkedSignal) : SignalEvent → List ParkedSignal
  | .recorded (.parkedHere l user) now _ =>
    if l = locationId then signals ++ [⟨some user, some (now + 90 * day)⟩] else signals
  | .erased user _ => signals.filter fun s => s.user != some user
  | .shellsGone gone => signals.map fun s => { s with user := Privacy.release gone s.user }
  | _ => signals

/-- The parked-here signals on a location after a run, if nothing were purged. -/
def parkedStanding (locationId : Nat) (es : List SignalEvent) : List ParkedSignal :=
  es.foldl (parkedAfter locationId) []

/-- The columns of a vote. -/
def voteColumns (v : String × AttributeResult) : Option String × String := (some v.1, v.2.asCode)

section Rows

variable {cases : Text.CaseMap} {db db' : Db} {e : SignalEvent} (locationId : Nat)

/-- An erasure leaves the votes where they are. -/
theorem attributeRows_scrubbed (user : UserId) (at' : Instant) :
    attributeRows (Privacy.scrubbed db user at').verification locationId =
      attributeRows db.verification locationId := by
  simp only [attributeRows, Privacy.scrubbed, Table.rows_update, Table.rows_delete,
    List.filterMap_map, List.filterMap_filter]
  apply List.filterMap_congr
  intro x _
  by_cases hown : x.2.userId = some user <;> by_cases hkind : x.2.kind = .parkedHere <;>
    simp [attributeRow, hown, hkind]

/-- Nothing but a new vote touches what the tallies are made of. -/
theorem attributeRows_step (h : SignalStep cases db e db') :
    attributeRows db'.verification locationId =
      attributeRows db.verification locationId ++ (e.tallied locationId).map voteColumns := by
  cases h with
  | recorded signal now clock =>
    simp only [attributeRows, Table.rows_insert, List.filterMap_append]
    congr 1
    cases signal with
    | existence l user result =>
      simp [attributeRow, NewVerification.toRow, NewVerification.kind, SignalEvent.tallied]
    | «attribute» l user code result =>
      by_cases h : l = locationId <;>
        simp [attributeRow, NewVerification.toRow, NewVerification.kind,
          NewVerification.locationId, SignalEvent.tallied, voteColumns, h]
    | parkedHere l user =>
      simp [attributeRow, NewVerification.toRow, NewVerification.kind, SignalEvent.tallied]
  | erased h =>
    rw [(Privacy.anonymize_eq_ok h).1, attributeRows_scrubbed]
    simp [SignalEvent.tallied]
  | purged now =>
    simp only [attributeRows, Privacy.purgeExpiredParkedHere, Table.rows_delete,
      List.filterMap_filter, SignalEvent.tallied, List.map_nil, List.append_nil]
    apply List.filterMap_congr
    intro x _
    by_cases hkind : x.2.kind = .parkedHere <;> simp [attributeRow, hkind]
  | shellsGone cutoff =>
    show (db.verification.update (fun _ _ => true) _).rows.filterMap _ =
      attributeRows db.verification locationId ++ []
    rw [Table.rows_update, List.filterMap_map, List.append_nil]
    rfl
  | other h =>
    simp [h, SignalEvent.tallied]

/-- Every vote of a run counts for good. -/
theorem attributeRows_run {es : List SignalEvent} (hrun : Runs.Run (SignalStep cases) db es db') :
    attributeRows db'.verification locationId =
      attributeRows db.verification locationId ++ (tallied locationId es).map voteColumns := by
  induction hrun with
  | nil => simp [tallied]
  | cons head _ ih =>
    rw [ih, attributeRows_step locationId head, List.append_assoc, ← List.map_append]
    rfl

theorem recent_append (clock : Instant) (a b : List ParkedSignal) :
    recent clock (a ++ b) = recent clock a ++ recent clock b := List.filter_append ..

theorem recent_filter (clock : Instant) (p : ParkedSignal → Bool) (l : List ParkedSignal) :
    recent clock (l.filter p) = (recent clock l).filter p := by
  rw [recent, recent, List.filter_filter, List.filter_filter]
  congr 1
  funext s
  exact Bool.and_comm _ _

theorem recent_release (clock : Instant) (gone : UserId → Bool) (l : List ParkedSignal) :
    recent clock (l.map fun s => { s with user := Privacy.release gone s.user }) =
      (recent clock l).map fun s => { s with user := Privacy.release gone s.user } :=
  List.filter_map

/-- What is left of the signals without their user's. -/
theorem parkedRows_scrubbed (user : UserId) (at' : Instant) :
    parkedRows (Privacy.scrubbed db user at').verification locationId =
      (parkedRows db.verification locationId).filter fun s => s.user != some user := by
  simp only [parkedRows, Privacy.scrubbed, Table.rows_update, Table.rows_delete,
    List.filterMap_map, List.filterMap_filter, List.filter_filterMap]
  apply List.filterMap_congr
  intro x _
  by_cases hown : x.2.userId = some user <;> by_cases hkind : x.2.kind = .parkedHere <;>
    by_cases hplace : x.2.locationId = locationId <;>
    simp [parkedRow, Option.filter, hown, hkind, hplace]

/-- A purge takes away nothing that is recent later on. -/
theorem recent_purged {now clock : Instant} (h : now ≤ clock) :
    recent clock (parkedRows (Privacy.purgeExpiredParkedHere db now).2.verification locationId) =
      recent clock (parkedRows db.verification locationId) := by
  simp only [recent, parkedRows, Privacy.purgeExpiredParkedHere, Table.rows_delete,
    List.filterMap_filter, List.filter_filterMap]
  apply List.filterMap_congr
  intro x _
  by_cases hsought : x.2.locationId = locationId ∧ x.2.kind = .parkedHere
  · cases hexpires : x.2.expiresAt with
    | none => simp [parkedRow, hsought, hexpires]
    | some expires =>
      by_cases hgone : expires < now
      · have hold : ¬ clock < expires := not_lt.mpr (hgone.le.trans h)
        simp [parkedRow, hsought, hexpires, hgone, hold, Option.filter]
      · simp [parkedRow, hsought, hexpires, hgone]
  · simp [parkedRow, hsought]

/-- What is recent of the rows stays what is recent of the signals. -/
theorem recentParked_step {clock : Instant} {signals : List ParkedSignal}
    (h : SignalStep cases db e db') (hpurge : ∀ now, e = .purged now → now ≤ clock)
    (hrows : recent clock (parkedRows db.verification locationId) = recent clock signals) :
    recent clock (parkedRows db'.verification locationId) =
      recent clock (parkedAfter locationId signals e) := by
  cases h with
  | recorded signal now stamp =>
    have hinsert : parkedRows (db.verification.insert (signal.toRow now stamp)) locationId =
        parkedRows db.verification locationId ++
          (parkedRow locationId (signal.toRow now stamp)).toList := by
      simp only [parkedRows, Table.rows_insert, List.filterMap_append]
      cases hrow : parkedRow locationId (signal.toRow now stamp) <;> simp [hrow]
    show recent clock (parkedRows (db.verification.insert _) locationId) = _
    rw [hinsert, recent_append, hrows, ← recent_append]
    cases signal with
    | existence l user result =>
      simp [parkedRow, NewVerification.toRow, NewVerification.kind, parkedAfter]
    | «attribute» l user code result =>
      simp [parkedRow, NewVerification.toRow, NewVerification.kind, parkedAfter]
    | parkedHere l user =>
      by_cases h : l = locationId <;>
        simp [parkedRow, NewVerification.toRow, NewVerification.kind,
          NewVerification.locationId, NewVerification.userId, parkedAfter, h]
  | erased h =>
    rw [(Privacy.anonymize_eq_ok h).1, parkedRows_scrubbed, recent_filter, hrows, ← recent_filter]
    rfl
  | purged now =>
    rw [recent_purged locationId (hpurge now rfl), hrows]
    rfl
  | shellsGone cutoff =>
    have hforget : parkedRows (Privacy.purgeDeletedAccounts db cutoff).2.verification locationId =
        (parkedRows db.verification locationId).map fun s =>
          { s with user := Privacy.release (Privacy.isPurged db cutoff) s.user } := by
      show (db.verification.update (fun _ _ => true) _).rows.filterMap _ = _
      rw [Table.rows_update, List.filterMap_map, parkedRows, List.map_filterMap]
      apply List.filterMap_congr
      intro x _
      by_cases hsought : x.2.locationId = locationId ∧ x.2.kind = .parkedHere
      · simp only [Function.comp_apply, parkedRow, if_pos hsought, if_true, Option.map_some]
        rfl
      · simp [parkedRow, hsought]
    rw [hforget, recent_release, hrows, ← recent_release]
    rfl
  | other h =>
    rw [h, hrows]
    rfl

theorem recentParked_run {es : List SignalEvent} {clock : Instant} {signals : List ParkedSignal}
    (hrun : Runs.Run (SignalStep cases) db es db')
    (hpurges : ∀ now, .purged now ∈ es → now ≤ clock)
    (hrows : recent clock (parkedRows db.verification locationId) = recent clock signals) :
    recent clock (parkedRows db'.verification locationId) =
      recent clock (es.foldl (parkedAfter locationId) signals) := by
  induction hrun generalizing signals with
  | nil => exact hrows
  | cons head _ ih =>
    apply ih
    · intro now hmem
      exact hpurges now (List.mem_cons_of_mem _ hmem)
    · apply recentParked_step locationId head _ hrows
      intro now heq
      exact hpurges now (heq ▸ List.mem_cons_self)

end Rows

/-! ## The page -/

/-- The summary has one tally of each code that was voted on, with all its votes. -/
structure Tallies (votes : List (String × AttributeResult)) (summary : List AttributeSummary) :
    Prop where
  correct : ∀ a ∈ summary, a.correct = votes.count (a.code, .correct)
  incorrect : ∀ a ∈ summary, a.incorrect = votes.count (a.code, .incorrect)
  all : ∀ code, (∃ a ∈ summary, a.code = code) ↔ ∃ v ∈ votes, v.1 = code
  once : (summary.map AttributeSummary.code).Nodup

/-- A page is disputed by its tallies when anybody has ever said that an attribute is
wrong. -/
theorem Tallies.any_incorrect {votes : List (String × AttributeResult)}
    {summary : List AttributeSummary} (h : Tallies votes summary) :
    (summary.any fun a => 0 < a.incorrect) = votes.any fun v => v.2 == .incorrect := by
  rw [Bool.eq_iff_iff, List.any_eq_true, List.any_eq_true]
  simp only [decide_eq_true_eq, beq_iff_eq]
  constructor
  · intro hsome
    obtain ⟨a, ha, hpos⟩ := hsome
    rw [h.incorrect a ha] at hpos
    exact ⟨_, List.count_pos_iff.mp hpos, rfl⟩
  · intro hsome
    obtain ⟨v, hv, hwrong⟩ := hsome
    obtain ⟨a, ha, hcode⟩ := (h.all v.1).mpr ⟨v, hv, rfl⟩
    refine ⟨a, ha, ?_⟩
    rw [h.incorrect a ha, hcode, ← hwrong]
    exact List.count_pos_iff.mpr hv

theorem voteColumns_injective : Function.Injective voteColumns := by
  intro v w h
  obtain ⟨hcode, hresult⟩ := Prod.mk.inj h
  apply Prod.ext (Option.some.inj hcode)
  cases hv : v.2 <;> cases hw : w.2 <;> simp_all [AttributeResult.asCode]

theorem tallyOf_eq_some {votes : List (String × AttributeResult)} {code : Option String}
    {a : AttributeSummary} :
    tallyOf (votes.map voteColumns) code = some a ↔
      code = some a.code ∧ a.correct = votes.count (a.code, .correct) ∧
        a.incorrect = votes.count (a.code, .incorrect) := by
  have hcount : ∀ c result, (votes.map voteColumns).count (some c, result.asCode) =
      votes.count (c, result) := fun c result =>
    List.count_map_of_injective votes voteColumns voteColumns_injective (c, result)
  cases code with
  | none => simp [tallyOf]
  | some c =>
    have hcorrect := hcount c .correct
    have hincorrect := hcount c .incorrect
    simp only [AttributeResult.asCode] at hcorrect hincorrect
    simp only [tallyOf, Option.map_some, Option.some.injEq, hcorrect, hincorrect]
    constructor
    · intro h
      rw [← h]
      exact ⟨rfl, rfl, rfl⟩
    · intro h
      rw [h.1, ← h.2.1, ← h.2.2]

/-- The tallies of the rows of some votes are those of the votes. -/
theorem tallies_of_codes {votes : List (String × AttributeResult)} {codes : List (Option String)}
    (hnodup : codes.Nodup) (hcodes : ∀ code, code ∈ codes ↔ ∃ v ∈ votes, some v.1 = code) :
    Tallies votes (codes.filterMap (tallyOf (votes.map voteColumns))) := by
  have hmem : ∀ a ∈ codes.filterMap (tallyOf (votes.map voteColumns)),
      a.correct = votes.count (a.code, .correct) ∧
        a.incorrect = votes.count (a.code, .incorrect) := by
    intro a ha
    obtain ⟨code, _, htally⟩ := List.mem_filterMap.mp ha
    exact (tallyOf_eq_some.mp htally).2
  constructor
  · intro a ha
    exact (hmem a ha).1
  · intro a ha
    exact (hmem a ha).2
  · intro code
    constructor
    · intro hsome
      obtain ⟨a, ha, hcode⟩ := hsome
      obtain ⟨c, hc, htally⟩ := List.mem_filterMap.mp ha
      obtain ⟨v, hv, heq⟩ := (hcodes c).mp hc
      rw [(tallyOf_eq_some.mp htally).1, hcode] at heq
      exact ⟨v, hv, Option.some.inj heq⟩
    · intro hsome
      obtain ⟨v, hv, hcode⟩ := hsome
      refine ⟨⟨code, votes.count (code, .correct), votes.count (code, .incorrect)⟩, ?_, rfl⟩
      apply List.mem_filterMap.mpr
      exact ⟨some code, (hcodes _).mpr ⟨v, hv, congrArg some hcode⟩,
        tallyOf_eq_some.mpr ⟨rfl, rfl, rfl⟩⟩
  · have hback : (codes.filterMap (tallyOf (votes.map voteColumns))).map AttributeSummary.code =
        codes.filterMap id := by
      rw [List.map_filterMap]
      apply List.filterMap_congr
      intro code _
      cases code <;> rfl
    rw [hback]
    apply hnodup.filterMap
    intro code code' c hc hc'
    exact hc.trans hc'.symm

/-- After any run the page tallies every vote on an attribute that was ever made, and counts
the parked-here signals that have not expired, whatever was purged before. -/
theorem communityDetails_tallies {cases : Text.CaseMap} {db db' : Db} {es : List SignalEvent}
    {F : FloatOps} {freshness : FreshnessThresholds} {readers : CommunityReaders}
    {arrange : List (Option String) → List (Option String)} {now : Instant}
    {location : LocationAggregate} {viewer : Option UserId} {page : CommunityParkingDetails}
    (harrange : ∀ codes, (arrange codes).Perm codes)
    (hstart : ∀ x ∈ db.verification.rows, x.2.locationId ≠ location.id)
    (hrun : Runs.Run (SignalStep cases) db es db')
    (hpurges : ∀ at', .purged at' ∈ es → at' ≤ db'.now)
    (hpage : communityDetails F freshness
      { readers with attributeAndParkedSummary := attributeAndParkedSummary arrange db' } now
      location viewer = .ok page) :
    Tallies (tallied location.id es) page.attributeSummary ∧
      (((tallied location.id es).any fun v => v.2 == .incorrect) = true → page.disputed = true) ∧
      page.parkedHereCount = (recent db'.now (parkedStanding location.id es)).length := by
  have hattributes : attributeRows db.verification location.id = [] :=
    List.filterMap_eq_nil_iff.mpr fun x hx => if_neg fun h => hstart x hx h.1
  have hparked : parkedRows db.verification location.id = [] :=
    List.filterMap_eq_nil_iff.mpr fun x hx => if_neg fun h => hstart x hx h.1
  have hvotes := attributeRows_run location.id hrun
  rw [hattributes, List.nil_append] at hvotes
  have hrecent : recent db'.now (parkedRows db'.verification location.id) =
      recent db'.now (parkedStanding location.id es) :=
    recentParked_run location.id hrun hpurges (by rw [hparked])
  have hcodes : ∀ code,
      code ∈ arrange (((tallied location.id es).map voteColumns).map Prod.fst).dedup ↔
        ∃ v ∈ tallied location.id es, some v.1 = code := by
    intro code
    rw [(harrange _).mem_iff, List.mem_dedup, List.map_map, List.mem_map]
    rfl
  obtain ⟨signals, _, hsummary, _, hdisputed, _⟩ := communityDetails_signals hpage
  have hshown := Except.ok.inj ((attributeAndParkedSummary_eq _ _ _).symm.trans hsummary)
  rw [hvotes, hrecent] at hshown
  obtain ⟨hsummary, hcount⟩ := Prod.mk.inj hshown
  have htallies : Tallies (tallied location.id es) page.attributeSummary := by
    rw [← hsummary]
    exact tallies_of_codes ((harrange _).nodup_iff.mpr (List.nodup_dedup _)) hcodes
  refine ⟨htallies, ?_, hcount.symm⟩
  intro hwrong
  rw [hdisputed, htallies.any_incorrect, hwrong, Bool.true_or]

/-! ## A vote that outlives its account -/

/-- One user says that the hours are right and another, who is erased, that they are wrong;
a third one parks there, and the purge runs. -/
def hoursDisputed : List SignalEvent :=
  [.recorded (.attribute 1 1 "hours" .correct) 10 10,
    .recorded (.attribute 1 2 "hours" .incorrect) 11 11,
    .recorded (.parkedHere 1 3) 12 12, .erased 2 13, .purged 14]

def threeSignals : Db :=
  { Db.empty 20 with
    verification := ((Table.empty.insert
      ((NewVerification.attribute 1 1 "hours" .correct).toRow 10 10)).insert
      ((NewVerification.attribute 1 2 "hours" .incorrect).toRow 11 11)).insert
      ((NewVerification.parkedHere 1 3).toRow 12 12) }

/-- The database after these events. -/
def hoursDisputedDb : Db :=
  (Privacy.purgeExpiredParkedHere (Privacy.scrubbed threeSignals 2 13) 14).2

/-- The details page of the place after these events. -/
def hoursDisputedPage : Except ContributionError CommunityParkingDetails :=
  communityDetails exactOps monthly
    { reviewsOnly (reviewedRows 2 200) 3 with
      attributeAndParkedSummary := attributeAndParkedSummary id hoursDisputedDb }
    20 (reviewedRack 2 200) none

theorem communityDetails_tallies_hours :
    ∃ page, hoursDisputedPage = .ok page ∧
      Tallies [("hours", .correct), ("hours", .incorrect)] page.attributeSummary ∧
      page.disputed = true ∧ page.parkedHereCount = 1 := by
  have hok : hoursDisputedPage.isOk = true := by decide +kernel
  have herased : Privacy.anonymize Text.CaseMap.ascii threeSignals 2 13 =
      .ok (Privacy.anonymizationReport threeSignals 2, Privacy.scrubbed threeSignals 2 13) := rfl
  have hrun : Runs.Run (SignalStep Text.CaseMap.ascii) (Db.empty 20) hoursDisputed
      hoursDisputedDb :=
    .cons (.recorded ..) (.cons (.recorded ..) (.cons (.recorded ..)
      (.cons (.erased herased) (.cons (.purged ..) (.nil _)))))
  have hpurges : ∀ at', .purged at' ∈ hoursDisputed → at' ≤ hoursDisputedDb.now := by
    intro at' hmem
    simp only [hoursDisputed, List.mem_cons, List.not_mem_nil, or_false, reduceCtorEq, false_or,
      SignalEvent.purged.injEq] at hmem
    rw [hmem]
    decide
  have hstart : ∀ x ∈ (Db.empty 20).verification.rows, x.2.locationId ≠ (reviewedRack 2 200).id :=
    fun x hx => absurd hx List.not_mem_nil
  cases hpage : hoursDisputedPage with
  | error e =>
    rw [hpage] at hok
    cases hok
  | ok page =>
    obtain ⟨htallies, hdisputed, hparked⟩ :=
      communityDetails_tallies (fun codes => List.Perm.refl codes) hstart hrun hpurges hpage
    exact ⟨page, rfl, htallies, hdisputed rfl, hparked⟩

end BikesNest.Community
