import BikesNest.Community.Service

/-!
# Contributions and takedowns

A system of contribution calls and of the moderation steps that change the state
of a location.  `TakedownWins` says of a step that it contributes to active
locations only.

`require_active` reads the state before the repository runs, and only the
transaction of an edit reads it again.  `takedown_wins` says that a takedown
between the check of another call and its last write is the only way to
contribute to a location that is not active, and `takedown_overtaken` is a run
that does.
-/

namespace BikesNest.Moderation

open Domain Community Store Transactions Runs History ContributionService

/-! ## The system -/

/-- The contribution calls, and the two repository calls of the moderation service
that change the state of a location. -/
inductive TakedownOp where
  | applyParkingEdit (user : AuthenticatedUser) (allow : String → Nat → Int → Bool)
      (times : Times) (id : Nat) (expectedVersion : Int) (edit : ParkingEdit)
  | proposeLocationChange (user : AuthenticatedUser) (allow : String → Nat → Int → Bool)
      (times : Times) (id : Nat) (kind : ProposalKind) (proposed : Json)
  | upsertReview (user : AuthenticatedUser) (allow : String → Nat → Int → Bool) (times : Times)
      (locationId : Nat) (rating : StarRating) (body : String)
  | recordVerification (user : AuthenticatedUser) (allow : String → Nat → Int → Bool)
      (times : Times) (signal : NewVerification)
  | setParkingState (id : Nat) (source : List ModerationState) (target : ModerationState)
      (moderator : UserId) (clock : Instant)
  | approveProposal (id : Nat) (moderator : UserId) (applied : ProposalApplication)
      (clock : Instant)

namespace TakedownOp

def isContribution : TakedownOp → Bool
  | .setParkingState .. => false
  | .approveProposal .. => false
  | _ => true

/-- The script of an operation. -/
def script : TakedownOp → Nat → Script StoreError Answer
  | .applyParkingEdit user allow times id expectedVersion edit, n =>
    answer .contribution .version
      (ContributionService.applyParkingEdit n user allow times id expectedVersion edit)
  | .proposeLocationChange user allow times id kind proposed, n =>
    answer .contribution .id
      (ContributionService.proposeLocationChange n user allow times id kind proposed)
  | .upsertReview user allow times locationId rating body, n =>
    answer .contribution (fun _ => .done)
      (ContributionService.upsertReview n user allow times locationId rating body)
  | .recordVerification user allow times signal, n =>
    answer .contribution (fun _ => .done)
      (ContributionService.recordVerification n user allow times signal)
  | .setParkingState id source target moderator clock, _ =>
    answer .moderation (fun _ => .done) (setParkingStateTx id source target moderator clock)
  | .approveProposal id moderator applied clock, _ =>
    answer .moderation (fun _ => .done) (Moderation.approveProposal id moderator applied clock)

end TakedownOp

/-- The database with its connections. -/
abbrev TakedownSystem := System Cell TakedownOp StoreError Answer

/-- A step of it. -/
abbrev TakedownStep : TakedownSystem → Label TakedownOp → TakedownSystem → Prop :=
  System.Step TakedownOp.script

/-- A contribution call contributes to locations only that are committed as
active. -/
def TakedownWins (s : TakedownSystem) (l : Label TakedownOp) (s' : TakedownSystem) : Prop :=
  ∀ i p, l = .exec i → s.processes[i]? = some p → p.op.isContribution = true →
    ∀ id, Contributed id s.committed s'.committed → isActive s.committed id = true

/-! ## The contract of the scripts -/

/-- Who has found a location active relies on its staying so. -/
def KeepsActive (k : Key) (c c' : Rows Cell) : Prop :=
  match k with
  | .location id => isActive c id = true → isActive c' id = true
  | _ => True

def takedownDiscipline : Discipline Cell :=
  discipline KeepsActive
    (fun k c => by cases k <;> simp [KeepsActive])
    fun k c c' c'' h h' => by
      cases k with
      | location id => exact fun hactive => h' (h hactive)
      | _ => trivial

theorem standard_takedownDiscipline (n : Nat) : Standard (takedownDiscipline.own n) n :=
  ⟨rfl, fun h => h, fun h => h.1, fun h => h.2⟩

/-- What a commit of an operation keeps. -/
structure TakedownGuarantee (op : TakedownOp) (n : Nat) (c c' : Rows Cell) : Prop where
  grows : Grows c c'
  fits : ∀ b, n < b → Fits c b → Fits c' b
  sanctioned : op.isContribution = true → Sanctioned n c c'

section Contract

variable {α ε : Type} {op : TakedownOp} {n : Nat} {c : Rows Cell} {s : Connection Cell}

theorem takedownGuarantee_sanctioned {c' : Rows Cell} (h : Sanctioned n c c') :
    TakedownGuarantee op n c c' :=
  ⟨h.grows, h.fits, fun _ => h⟩

/-- What a moderation step commits is what it commits in the history of a
location. -/
theorem takedownGuarantee_effect {op' : Op} {since c' : Rows Cell}
    (hop : op.isContribution = false) (h : Effect op' n since c c') :
    TakedownGuarantee op n c c' := by
  refine ⟨grows_of_turn (effect_turn h) (effect_proposals h), fun b hn hfits =>
    effect_fits h hn hfits, fun hcontribution => ?_⟩
  rw [hop] at hcontribution
  cases hcontribution

/-- The answer of a script commits nothing more. -/
theorem answers_safe {D : Discipline Cell} {g : ε → StoreError} {f : α → Answer}
    {m : Script ε α}
    (h : Safe D (fun _ c c' _ => TakedownGuarantee op n c c') (fun _ _ s => s.isOpen = false)
      m c s) :
    Safe D (fun _ c c' _ => TakedownGuarantee op n c c') (Answers (fun _ _ _ _ => True) op n)
      (answer g f m) c s := by
  rw [answer, safe_bind, safe_mapErr]
  exact h.mono (fun _ _ _ _ hG => hG) fun a c s hopen => ⟨hopen, trivial⟩

theorem takedownContract :
    Contract takedownDiscipline (fun op n _ c c' _ => TakedownGuarantee op n c c')
      (fun _ _ _ _ => True) TakedownOp.script where
  grows h := h.grows
  fits h hn hfits := h.fits _ hn hfits
  safe op n c b := by
    have hs := Outside.idle c b
    have hD := standard_takedownDiscipline n
    have hkeeps : ∀ id c c', (takedownDiscipline.own n).keeps (.location id) c c' →
        isActive c id = true → isActive c' id = true := fun _ _ _ h => h
    have hlawful : ∀ {α : Type} {m : Script ContributionError α},
        Lawful (takedownDiscipline.own n) n Closed m c (.idle c b) →
        Safe (takedownDiscipline.own n) (fun _ c c' _ => TakedownGuarantee op n c c')
          (fun _ _ s => s.isOpen = false) m c (.idle c b) :=
      fun h => h.mono (fun _ _ _ _ hG => takedownGuarantee_sanctioned hG) fun _ _ _ hopen => hopen
    cases op with
    | applyParkingEdit user allow times id expectedVersion edit =>
      exact answers_safe (hlawful (applyParkingEdit_safe hD hkeeps hs id expectedVersion edit))
    | proposeLocationChange user allow times id kind proposed =>
      exact answers_safe (hlawful (proposeLocationChange_safe hD hkeeps hs id kind proposed))
    | upsertReview user allow times locationId rating body =>
      exact answers_safe (hlawful (upsertReview_safe hD hkeeps hs locationId rating body))
    | recordVerification user allow times signal =>
      exact answers_safe (hlawful (recordVerification_safe hD hkeeps hs signal))
    | setParkingState id source target moderator clock =>
      refine answers_safe (setParkingStateTx_safe hD.guard hs id source target moderator clock
        (P := Effect (.setParkingState id source target moderator clock) n c)
        (fun _ _ r hsource hsame h => ⟨r, hsource, hsame, h⟩)
        (fun _ _ _ _ h => takedownGuarantee_effect rfl h) fun _ _ _ _ _ hout => hout.isOpen)
    | approveProposal id moderator applied clock =>
      exact answers_safe (approveProposal_safe hD hs id moderator applied clock
        (P := Effect (.approveProposal id moderator applied clock) n)
        (fun _ _ _ p r h => ⟨p, r, h⟩)
        (fun _ _ _ _ h => takedownGuarantee_effect rfl h) fun _ _ _ _ _ _ hout => hout.isOpen)

end Contract

/-! ## Runs -/

/-- In a run in which no location is taken down between the check of another call
that relies on it and the last write of that call, every contribution is to a
location that is active. -/
theorem takedown_wins {c : Rows Cell} {n : Nat} {ls : List (Label TakedownOp)}
    {l : Label TakedownOp} {s s' : TakedownSystem}
    (hrun : Run (Guarded (Peaceful takedownDiscipline TakedownOp.script) TakedownStep)
      ⟨c, n, []⟩ ls s)
    (hfits : Fits c n) (hstep : TakedownStep s l s') : TakedownWins s l s' := by
  have hsound : Sound takedownDiscipline (fun op n _ c c' _ => TakedownGuarantee op n c c')
      (fun _ _ _ _ => True) s := by
    refine hrun.invariant (I := fun s => Sound takedownDiscipline
      (fun op n _ c c' _ => TakedownGuarantee op n c c') (fun _ _ _ _ => True) s)
      (fun s l s' hsound ⟨hpeace, hstep⟩ => ?_) (.of_nil hfits)
    exact hsound.next takedownContract hpeace hstep
  intro i p hl hp hcontribution id hid
  rcases hsound.guarantee hstep with heq | ⟨j, q, q', hl', hq, _, hG⟩
  · obtain ⟨k, _, hne⟩ := hid
    rw [heq] at hne
    exact absurd rfl hne
  · obtain rfl : i = j := by
      rw [hl] at hl'
      exact Label.exec.inj hl'
    obtain rfl : p = q := Option.some.inj (hp.symm.trans hq)
    exact (hG.sanctioned hcontribution).active id hid

/-! ## A run that meets the condition, and one that does not -/

/-- A rider with a verified address. -/
def verifiedRider (id : UserId) : AuthenticatedUser where
  id := id
  email := "rider@example.com"
  accountState := .active
  isVerified := true
  roles := [.user]

/-- A rider confirms that the location still exists. -/
def confirmation (user : UserId) : TakedownOp :=
  .recordVerification (verifiedRider user) (fun _ _ _ => true) ⟨0, 1, 0, 2⟩
    (.existence 1 user .stillExists)

/-- The takedown of the location. -/
def invalidation : TakedownOp := .setParkingState 1 [.active] .invalid 2 0

/-- The last label of a run changes `last_verified_at` of location 1, which is
committed in a state that satisfies `p`. -/
def refreshes (p : Bool → Bool) (s s' : TakedownSystem) : Bool :=
  p (isActive s.committed 1) &&
    (s.committed (.location 1)).any (fun r => r.lastVerifiedAt.isNone) &&
    (s'.committed (.location 1)).any fun r => r.lastVerifiedAt.isSome

theorem contributed_of_refreshes {p : Bool → Bool} {s s' : TakedownSystem}
    (h : refreshes p s s' = true) :
    p (isActive s.committed 1) = true ∧ Contributed 1 s.committed s'.committed := by
  simp only [refreshes, Bool.and_eq_true] at h
  obtain ⟨⟨hp, hbefore⟩, hafter⟩ := h
  refine ⟨hp, .location 1, rfl, fun heq => ?_⟩
  rw [heq] at hafter
  obtain ⟨r, hr, hsome⟩ := (Option.any_eq_true ..).mp hafter
  rw [hr, Option.any_some] at hbefore
  cases hverified : r.lastVerifiedAt <;> simp_all

/-- Two riders' calls read the location, and a takedown of it begins. -/
def contended : List (Label TakedownOp) :=
  [.start (confirmation 1), .start (confirmation 3), .start invalidation, .exec 0, .exec 1,
    .exec 0, .exec 1, .exec 0, .exec 1, .exec 2, .exec 1, .exec 0]

/-- Both calls go on to their last write before the takedown gets the row, and end after it. -/
def settled : List (Label TakedownOp) :=
  [.exec 1, .exec 2, .exec 2, .exec 2, .exec 2, .exec 2, .exec 0, .exec 1]

/-- What a connection that relies on a row puts up with. -/
def keepsActive (k : Key) (c c' : Rows Cell) : Bool :=
  match k with
  | .location id => !isActive c id || isActive c' id
  | _ => true

theorem takedown_wins_contended :
    ∃ s s' t, Run (Guarded (Peaceful takedownDiscipline TakedownOp.script) TakedownStep)
        ⟨unratedRows, 1, []⟩ contended s ∧
      TakedownStep s (.exec 0) s' ∧ Contributed 1 s.committed s'.committed ∧
      TakedownWins s (.exec 0) s' ∧
      Run (Guarded (Peaceful takedownDiscipline TakedownOp.script) TakedownStep) s' settled t ∧
      isActive t.committed 1 = false := by
  have hkeeps : ∀ k c c', keepsActive k c c' = true → takedownDiscipline.keeps k c c' := by
    intro k c c' h
    cases k with
    | location id =>
      intro hactive
      simpa [keepsActive, hactive] using h
    | _ => trivial
  let next := fun (s : TakedownSystem) l =>
    if s.isPeaceful keepsActive l then s.next TakedownOp.script l else none
  have hguarded : ∀ {s ls s'}, ls.foldlM next s = some s' →
      Run (Guarded (Peaceful takedownDiscipline TakedownOp.script) TakedownStep) s ls s' :=
    fun h => (Run.guarded_of_foldlM h).mono fun _ _ _ h => ⟨.of_isPeaceful hkeeps h.1, h.2⟩
  have hrun : (contended.foldlM next ⟨unratedRows, 1, []⟩).any (fun s =>
      (s.next TakedownOp.script (.exec 0)).any fun s' => refreshes id s s' &&
        (settled.foldlM next s').any fun t => !isActive t.committed 1) = true := by
    decide +kernel
  obtain ⟨s, hs, hlast⟩ := (Option.any_eq_true ..).mp hrun
  obtain ⟨s', hstep, hlast⟩ := (Option.any_eq_true ..).mp hlast
  obtain ⟨hrefreshes, hlast⟩ := Bool.and_eq_true_iff.mp hlast
  obtain ⟨t, ht, hdown⟩ := (Option.any_eq_true ..).mp hlast
  exact ⟨s, s', t, hguarded hs, hstep, (contributed_of_refreshes hrefreshes).2,
    takedown_wins (hguarded hs) (fits_unratedRows 1) hstep, hguarded ht, by simpa using hdown⟩

/-- The rider's call reads the location, a moderator takes it down, and the call
goes on: it records the signal and refreshes the location. -/
def overtaken : List (Label TakedownOp) :=
  [.start (confirmation 1), .start invalidation, .exec 0, .exec 0, .exec 0,
    .exec 1, .exec 1, .exec 1, .exec 1, .exec 1, .exec 1, .exec 0]

theorem takedown_overtaken :
    ¬ ∀ (c : Rows Cell) (n : Nat) (ls : List (Label TakedownOp)) (l : Label TakedownOp)
      (s s' : TakedownSystem), Run TakedownStep ⟨c, n, []⟩ ls s → Fits c n →
        TakedownStep s l s' → TakedownWins s l s' := by
  intro h
  have hrun : (overtaken.foldlM (System.next TakedownOp.script)
      (⟨unratedRows, 1, []⟩ : TakedownSystem)).any (fun s =>
        (s.processes[0]?).any (fun p => p.op.isContribution) &&
          (s.next TakedownOp.script (.exec 0)).any (refreshes (! ·) s)) = true := by
    decide +kernel
  obtain ⟨s, hs, hlast⟩ := (Option.any_eq_true ..).mp hrun
  rw [Bool.and_eq_true] at hlast
  obtain ⟨p, hp, hcontribution⟩ := (Option.any_eq_true ..).mp hlast.1
  obtain ⟨s', hstep, hrefreshes⟩ := (Option.any_eq_true ..).mp hlast.2
  obtain ⟨hdown, hcontributed⟩ := contributed_of_refreshes hrefreshes
  have hactive := h _ _ _ _ s s' (Run.of_foldlM hs) (fits_unratedRows 1) hstep 0 p rfl hp
    hcontribution 1 hcontributed
  rw [hactive] at hdown
  cases hdown

end BikesNest.Moderation
