import BikesNest.Community.Aggregate
import BikesNest.History.Operations

/-!
# The contribution service

The calls of `ContributionService` that contribute to a location that exists:
an edit, a proposal, a review and a verification.  Each of them checks with
`require_active` that the location is active, runs its repository and writes an
audit event.

`Sanctioned` says of a commit that it contributes to active locations only.
`applyParkingEdit_safe` says so of every commit of an edit, whose transaction
looks at the state again.  The other three calls go by what `require_active` has
read: they rely on the location staying active until their last write.
-/

namespace BikesNest.Community

open Domain Store Transactions History

/-- The location is committed as active. -/
def isActive (c : Rows Cell) (id : Nat) : Bool :=
  (c (.location id)).any fun r => r.moderationState == .active

namespace ContributionService

/-! ## The checks -/

def editUserLimit : Nat := 15

def proposalUserLimit : Nat := 5

def reviewUserLimit : Nat := 10

def verificationUserLimit : Nat := 30

def parkedHereUserLimit : Nat := 20

/-- `require_verified`. -/
def requireVerified (user : AuthenticatedUser) : Script ContributionError Unit :=
  Service.require user.isVerified .notVerified

/-- `allowed`.  `allow` is the answer of the rate limiter to a key, a limit and a
window; a limiter that fails refuses. -/
def allowed (allow : String → Nat → Int → Bool) (key : String) (limit : Nat) (window : Int) :
    Script ContributionError Unit :=
  Service.require (allow key limit window) .rateLimited

/-- `validate_name_address`. -/
def validateNameAddress (name address : String) : Script ContributionError Unit := do
  Service.require (Text.trim name != "") (.invalidField "name is required")
  Service.require (Text.trim address != "") (.invalidField "address is required")

/-- The first statement of `get_for_edit`.  A connection that `relies` on the
location does so from here on, when it finds it active. -/
def findLocation (relies : Bool) (id : Nat) :
    Statement ContributionError (Option ParkingLocation) := fun s =>
  .ok (s.rows (.location id), if relies && isActive s.rows id then s.watch (.location id) else s)

/-- `get_for_edit`, the statements of `History.details`. -/
def getForEdit (relies : Bool) (id : Nat) : Script ContributionError (Option Details) := do
  let row ← .request .unavailable (findLocation relies id)
  match row with
  | none => return none
  | some row =>
    let hours ← .request .unavailable (select fun s => hoursInOrder (s.rows (.hours id)))
    let security ← .request .unavailable (select fun s => securityInOrder (s.rows (.security id)))
    return some { row, hours, security }

/-- `require_active`. -/
def requireActive (relies : Bool) (id : Nat) : Script ContributionError Details := do
  let found ← getForEdit relies id
  match found with
  | none => Service.throw .notFound
  | some location =>
    Service.require (location.row.moderationState == .active) .locationNotActive
    return location

/-- `audit`. -/
def audit (n : Nat) (event : NewAuditEvent) (clock : Instant) : Script ContributionError Unit :=
  .request .internal fun s =>
    .ok ((), (s.lock [.auditEvent n]).write (.auditEvent n) (some
      { actorUserId := event.actor, action := event.action, targetType := event.targetType
        targetId := event.targetId, result := event.result, metadata := event.metadata
        createdAt := clock }))

/-! ## The calls -/

/-- The times that a call reads: `now` and `verifiedAt` are those of the process,
the others those of the database. -/
structure Times where
  now : Instant
  verifiedAt : Instant
  clock : Instant
  auditedAt : Instant

/-- `apply_parking_edit`. -/
def applyParkingEdit (n : Nat) (user : AuthenticatedUser) (allow : String → Nat → Int → Bool)
    (times : Times) (id : Nat) (expectedVersion : Int) (edit : ParkingEdit) :
    Script ContributionError Int := do
  requireVerified user
  allowed allow ("contribution:edit:user:" ++ toString user.id) editUserLimit hour
  validateNameAddress edit.name edit.address
  let _ ← requireActive false id
  let newVersion ← applyEdit id expectedVersion edit user.id times.now times.clock
  audit n
    { actor := some user.id, action := "parking.edited", targetType := "parking_location"
      targetId := toString id, metadata := .obj [("version", .int newVersion)] } times.auditedAt
  return newVersion

/-- `propose_location_change`. -/
def proposeLocationChange (n : Nat) (user : AuthenticatedUser)
    (allow : String → Nat → Int → Bool) (times : Times) (id : Nat) (kind : ProposalKind)
    (proposed : Json) : Script ContributionError Nat := do
  requireVerified user
  allowed allow ("contribution:proposal:user:" ++ toString user.id) proposalUserLimit hour
  let current ← requireActive true id
  let proposalId ← releasing (createProposal n
    { locationId := id, proposerId := user.id, baseVersion := current.row.version, kind
      proposed } times.clock)
  audit n
    { actor := some user.id, action := "parking.proposal_created"
      targetType := "parking_proposal", targetId := toString proposalId
      metadata := .obj [("kind", .str kind.asCode)] } times.auditedAt
  return proposalId

/-- `ContributionService::upsert_review`. -/
def upsertReview (n : Nat) (user : AuthenticatedUser) (allow : String → Nat → Int → Bool)
    (times : Times) (locationId : Nat) (rating : StarRating) (body : String) :
    Script ContributionError Unit := do
  requireVerified user
  allowed allow ("contribution:review:user:" ++ toString user.id) reviewUserLimit hour
  let _ ← requireActive true locationId
  let wasUpdate ← releasing (upsertReviewTx n locationId user.id rating body times.clock)
  audit n
    { actor := some user.id, action := if wasUpdate then "review.edited" else "review.created"
      targetType := "review", targetId := toString locationId
      metadata := .obj [("rating", .int rating.value)] } times.auditedAt

/-- The key and the limit of a signal. -/
def verificationLimit (user : AuthenticatedUser) (signal : NewVerification) : String × Nat :=
  match signal with
  | .parkedHere _ _ =>
    ("contribution:parked-here:user:" ++ toString user.id, parkedHereUserLimit)
  | _ => ("contribution:verification:user:" ++ toString user.id, verificationUserLimit)

/-- The writes of `record_verification`.  Only a positive existence confirmation
has a second one. -/
def writeVerification (n : Nat) (times : Times) (signal : NewVerification) :
    Script ContributionError Unit :=
  if signal.isStillExists then do
    record n signal times.now times.clock
    releasing (markVerifiedAt signal.locationId times.verifiedAt)
  else releasing (record n signal times.now times.clock)

/-- `record_verification`. -/
def recordVerification (n : Nat) (user : AuthenticatedUser) (allow : String → Nat → Int → Bool)
    (times : Times) (signal : NewVerification) : Script ContributionError Unit := do
  requireVerified user
  allowed allow (verificationLimit user signal).1 (verificationLimit user signal).2 hour
  let _ ← requireActive true signal.locationId
  writeVerification n times signal
  audit n
    { actor := some user.id, action := "verification.recorded", targetType := "parking_location"
      targetId := toString signal.locationId
      metadata := .obj [("kind", .str signal.kind.asCode)] } times.auditedAt

end ContributionService

/-! ## What a commit contributes -/

/-- The row under a key is part of a location, or a contribution to it. -/
def concerns (id : Nat) (c : Rows Cell) : Key → Bool
  | .location l => l == id
  | .hours l => l == id
  | .security l => l == id
  | .revision l _ => l == id
  | .proposal i => (c (.proposal i)).any fun p => p.locationId == id
  | .review i => (c (.review i)).any fun r => r.locationId == id
  | .verification i => (c (.verification i)).any fun v => v.locationId == id
  | _ => false

/-- A commit writes a row that concerns the location. -/
def Contributed (id : Nat) (c c' : Rows Cell) : Prop :=
  ∃ k, concerns id c' k = true ∧ c' k ≠ c k

/-- What a commit of the connection `n` keeps of the discipline, and that it
contributes to active locations only. -/
structure Sanctioned (n : Nat) (c c' : Rows Cell) : Prop where
  grows : Grows c c'
  fits : ∀ b, n < b → Fits c b → Fits c' b
  active : ∀ id, Contributed id c c' → isActive c id = true

section Commits

variable {n id : Nat} {c c' : Rows Cell}

theorem Sanctioned.refl (c : Rows Cell) : Sanctioned n c c :=
  ⟨.refl c, fun _ _ h => h, fun _ ⟨_, _, hne⟩ => absurd rfl hne⟩

theorem contributed_update {k : Key} {v : Cell k}
    (h : Contributed id c (Function.update c k v)) :
    concerns id (Function.update c k v) k = true := by
  obtain ⟨k', hconcerns, hne⟩ := h
  by_cases hk : k' = k
  · rwa [hk] at hconcerns
  · rw [Function.update_of_ne hk] at hne
    exact absurd rfl hne

/-- A commit that writes one row beside the locations, their child rows, the
proposals and the reviews. -/
theorem Sanctioned.of_row {k : Key} {v : Cell k} (htracked : isTracked k = false)
    (hproposal : ∀ i, k ≠ .proposal i) (hreview : ∀ i, k ≠ .review i)
    (h : ∀ id, concerns id (Function.update c k v) k = true → isActive c id = true) :
    Sanctioned n c (Function.update c k v) where
  grows := by
    refine grows_of_turn (.kept fun k' hk' => Function.update_of_ne ?_ ..)
      (proposalsFollow_of_eq fun j => Function.update_of_ne (hproposal j).symm ..)
    rintro rfl
    rw [htracked] at hk'
    cases hk'
  fits b _ hfits i hi := by
    rw [Function.update_of_ne (hproposal i).symm, Function.update_of_ne (hreview i).symm]
    exact hfits i hi
  active id hid := h id (contributed_update hid)

theorem sanctioned_audit (event : AuditEvent) :
    Sanctioned n c (Function.update c (.auditEvent n) (some event)) :=
  .of_row rfl (by simp) (by simp) fun _ h => by cases h

theorem sanctioned_verification {v : Verification} (h : isActive c v.locationId = true) :
    Sanctioned n c (Function.update c (.verification n) (some v)) := by
  refine .of_row rfl (by simp) (by simp) fun id hid => ?_
  simp only [concerns, Function.update_self, Option.any_some, beq_iff_eq] at hid
  rwa [← hid]

theorem sanctioned_proposal {p : NewProposal} {clock : Instant}
    (h : isActive c p.locationId = true) (hproposed : Proposed n p clock c c') :
    Sanctioned n c c' := by
  have heffect : Effect (.createProposal p clock) n c c c' := hproposed
  refine ⟨grows_of_turn (effect_turn heffect) (effect_proposals heffect),
    fun b hn hfits => effect_fits heffect hn hfits, fun id hid => ?_⟩
  obtain ⟨_, rfl⟩ := hproposed
  have hconcerns := contributed_update hid
  simp only [concerns, Function.update_self, Option.any_some, beq_iff_eq] at hconcerns
  have hlocation : p.locationId = id := hconcerns
  rwa [← hlocation]

theorem sanctioned_edit {expectedVersion : Int} {edit : ParkingEdit} {editor : UserId}
    {now clock : Instant} (h : Edited id expectedVersion edit editor now clock c c') :
    Sanctioned n c c' := by
  have heffect : Effect (.applyEdit id expectedVersion edit editor now clock) n c c c' := h
  refine ⟨grows_of_turn (effect_turn heffect) (effect_proposals heffect),
    fun b hn hfits => effect_fits heffect hn hfits, fun id' hid => ?_⟩
  obtain ⟨r, hours, hr, hactive, _, _, _, rfl⟩ := h
  obtain ⟨k, hconcerns, hne⟩ := hid
  have hguard : k.guard = .location id := by
    by_contra hk
    have hother : ∀ k', k'.guard = .location id → k ≠ k' := fun k' hk' heq => hk (heq ▸ hk')
    rw [revise, Function.update_of_ne (hother _ rfl), Function.update_of_ne (hother _ rfl),
      Function.update_of_ne (hother _ rfl), Function.update_of_ne (hother _ rfl)] at hne
    exact hne rfl
  have hid : id = id' := by
    cases k <;> simp_all [Key.guard, concerns]
  rw [isActive, ← hid, hr, Option.any_some, hactive]
  rfl

theorem sanctioned_review {l i : Nat} {rv : Review} {ratings : List Nat}
    (h : isActive c l = true) (hreviewed : Reviewed n l i rv ratings c c') :
    Sanctioned n c c' := by
  refine ⟨hreviewed.grows, fun b hn hfits => hreviewed.fits hn hfits, fun id hid => ?_⟩
  obtain ⟨k, hconcerns, hne⟩ := hid
  have hid : l = id := by
    by_cases hk : k = .review i
    · rw [hk] at hconcerns
      simp only [concerns, hreviewed.review, Option.any_some, beq_iff_eq] at hconcerns
      rw [← hconcerns, hreviewed.place]
    · by_cases hl : k = .location l
      · rw [hl] at hconcerns
        simpa only [concerns, beq_iff_eq] using hconcerns
      · have hrevision : ∀ j, k ≠ .reviewRevision j := by
          rintro j rfl
          cases hconcerns
        exact absurd (hreviewed.rows k hk hrevision hl) hne
  rwa [← hid]

theorem sanctioned_verifiedAt {r : ParkingLocation} {at' : Instant}
    (hr : c (.location id) = some r) (h : isActive c id = true) :
    Sanctioned n c
      (Function.update c (.location id) (some { r with lastVerifiedAt := some at' })) where
  grows := by
    refine ⟨fun l r' hr' => ?_, fun l v rev hrev => ?_, proposalsFollow_of_eq fun j => by simp⟩
    · have hchildren : ∀ {c' : Rows Cell}, c' = Function.update c (.location id)
          (some { r with lastVerifiedAt := some at' }) →
          c' (.hours l) = c (.hours l) ∧ c' (.security l) = c (.security l) := by
        rintro c' rfl
        simp
      by_cases hl : l = id
      · subst hl
        obtain rfl := Option.some.inj (hr.symm.trans hr')
        exact ⟨_, Function.update_self .., ⟨le_refl _, fun _ => rfl⟩, fun _ => hchildren rfl⟩
      · exact ⟨r', by rw [Function.update_of_ne (by simpa using hl), hr'],
          ⟨le_refl _, fun _ => rfl⟩, fun _ => hchildren rfl⟩
    · rw [Function.update_of_ne (by simp), hrev]
  fits b _ hfits i hi := by
    simpa using hfits i hi
  active id' hid := by
    have hconcerns := contributed_update hid
    simp only [concerns, beq_iff_eq] at hconcerns
    rwa [← hconcerns]

end Commits

/-! ## The calls contribute to active locations -/

namespace ContributionService

/-- What a call relies on once it has found the location active. -/
def reliance (relies : Bool) (id : Nat) : List Key := if relies then [.location id] else []

section Rules

variable {α : Type} {D : Discipline Cell} {relied : List Key} {c : Rows Cell}
  {s : Connection Cell} {n id : Nat}

/-- Every commit of the script is sanctioned. -/
def Lawful (D : Discipline Cell) (n : Nat) (Q : α → Rows Cell → Connection Cell → Prop)
    (m : Script ContributionError α) (c : Rows Cell) (s : Connection Cell) : Prop :=
  Safe D (fun _ c c' _ => Sanctioned n c c') Q m c s

theorem Lawful.bind {β : Type} {Q : β → Rows Cell → Connection Cell → Prop}
    {m : Script ContributionError α} {k : α → Script ContributionError β}
    (h : Lawful D n (fun a => Lawful D n Q (k a)) m c s) : Lawful D n Q (m >>= k) c s := by
  rw [Lawful, safe_bind]
  exact h

theorem Lawful.require {Q : Unit → Rows Cell → Connection Cell → Prop} {p : Bool}
    {e : ContributionError} (h : p = true → Q () c s) :
    Lawful D n Q (Service.require p e) c s :=
  Safe.require h

/-- The check of `require_active`.  A call that relies on the location goes on with
a location that is still active. -/
theorem Lawful.requireActive {Q : Details → Rows Cell → Connection Cell → Prop} {relies : Bool}
    (hkeeps : ∀ c c', D.keeps (.location id) c c' → isActive c id = true → isActive c' id = true)
    (hs : Outside [] s)
    (h : ∀ c' s' d, (relies = true → isActive c' id = true) →
      Outside (reliance relies id) s' → Q d c' s') :
    Lawful D n Q (requireActive relies id) c s := by
  refine Lawful.bind (Lawful.bind ?_)
  refine Safe.autocommit hs (fun _ _ _ => .refl _) fun c₁ s₁ row after _ _ hs₁ hrows hf => ?_
  simp only [findLocation, Except.ok.injEq, Prod.mk.injEq, hrows] at hf
  obtain ⟨rfl, rfl⟩ := hf
  generalize hrelied : (if (relies && isActive c₁ id) = true then [Key.location id] else [])
    = relied
  have hafter : ∀ after, (if (relies && isActive c₁ id) = true then s₁.watch (.location id)
      else s₁) = after → after.isOpen = false ∧ after.dirty = [] ∧ after.overlay c₁ = c₁ ∧
        Outside relied after.settle := by
    rintro after rfl
    rw [← hrelied]
    split
    · refine ⟨hs₁.isOpen, hs₁.dirty, ?_, hs₁.isOpen, rfl, rfl, by simp⟩
      rw [Connection.overlay_watch, s₁.overlay_of_clean c₁ hs₁.dirty]
    · exact ⟨hs₁.isOpen, hs₁.dirty, s₁.overlay_of_clean c₁ hs₁.dirty, hs₁.isOpen, rfl, rfl,
        by simp⟩
  obtain ⟨hopen, hdirty, hclean, hs₂⟩ := hafter _ rfl
  rw [hclean, hdirty]
  refine ⟨hopen, .refl _, by simp, ?_⟩
  cases hrow : c₁ (.location id) with
  | none => exact trivial
  | some row =>
    refine Lawful.bind (Safe.read hs₂ (fun _ _ _ => .refl _) (fun _ _ _ => .refl _)
      fun c₂ s₂ s₂' hsame₂ _ _ hs₃ => ?_)
    refine Lawful.bind (Safe.read hs₃ (fun _ _ _ => .refl _) (fun _ _ _ => .refl _)
      fun c₃ s₃ s₃' hsame₃ _ _ hs₄ => ?_)
    refine Lawful.bind (Lawful.require fun hstate => ?_)
    have hactive : isActive c₁ id = true := by
      rw [isActive, hrow]
      exact hstate
    rw [hactive, Bool.and_true] at hrelied
    refine h c₃ s₃' _ (fun hrelies => ?_) (by rwa [reliance, hrelied])
    rw [hrelies, if_pos rfl] at hrelied
    have hsame := hsame₂.trans hsame₃
    rw [← hrelied] at hsame
    exact hkeeps _ _ (hsame.watched _ (List.mem_cons_self ..)) hactive

/-- The audit event of a call. -/
theorem Lawful.audit {Q : Unit → Rows Cell → Connection Cell → Prop} {event : NewAuditEvent}
    {clock : Instant} (hD : D.guard = Key.guard) (hs : Outside relied s)
    (h : ∀ c' s', s'.isOpen = false → Q () c' s') :
    Lawful D n Q (audit n event clock) c s := by
  refine Safe.autocommit hs (fun _ c _ => .refl c) fun c' s' a after _ _ hs' _ hf => ?_
  obtain ⟨rfl, rfl⟩ := Prod.mk.inj (Except.ok.inj hf)
  obtain ⟨hopen, hwrites, hguard, hout⟩ := hs'.write (D := D) (k := .auditEvent n)
    (some _) c' (by rw [hD]; rfl)
  rw [hwrites]
  exact ⟨hopen, sanctioned_audit _, hguard, h _ _ hout.isOpen⟩

/-- What a repository does in a call: it commits once, with its answer, and the
call relies on nothing afterwards. -/
theorem Lawful.releasing {m : Script ContributionError α}
    {Q : α → Rows Cell → Connection Cell → Prop}
    (h : Safe D (fun _ c c' rest => Sanctioned n c c' ∧ ∃ r, rest = .done r)
      (fun _ _ s => Outside [] s) m c s)
    (hQ : ∀ a c s, Outside [] s → Q a c s) :
    Lawful D n Q (releasing m) c s :=
  (Safe.releasing h fun _ _ _ hs => hs.release).mono (fun _ _ _ _ hG => hG) hQ

end Rules

/-! ### The four calls -/

section Calls

variable {D : Discipline Cell} {c : Rows Cell} {s : Connection Cell} {n : Nat}
  {user : AuthenticatedUser} {allow : String → Nat → Int → Bool} {times : Times}

/-- What a call leaves. -/
abbrev Closed {α : Type} (_ : α) (_ : Rows Cell) (s : Connection Cell) : Prop := s.isOpen = false

/-- An edit needs nobody to stand still: its transaction looks again. -/
theorem applyParkingEdit_safe (hD : Standard D n)
    (hkeeps : ∀ id c c', D.keeps (.location id) c c' → isActive c id = true →
      isActive c' id = true) (hs : Outside [] s) (id : Nat) (expectedVersion : Int)
    (edit : ParkingEdit) :
    Lawful D n Closed (applyParkingEdit n user allow times id expectedVersion edit) c s := by
  unfold applyParkingEdit validateNameAddress
  -- no step below looks at the trimmed texts
  generalize (Text.trim edit.name != "") = named
  generalize (Text.trim edit.address != "") = placed
  refine .bind (.require fun _ => .bind (.require fun _ => .bind (.bind (.require fun _ =>
    .require fun _ => .bind (.requireActive (hkeeps id) hs fun c₁ s₁ d _ hs₁ => .bind ?_)))))
  have hedit : Lawful D n (fun _ _ s => Outside [] s)
      (applyEdit id expectedVersion edit user.id times.now times.clock) c₁ s₁ :=
    applyEdit_safe hD.guard hs₁ id expectedVersion edit user.id times.now times.clock
      (fun _ _ _ _ h => sanctioned_edit h) fun _ _ _ _ _ hs₂ => hs₂
  refine Safe.mono (fun _ _ _ _ h => h) (fun version c₂ s₂ hs₂ => ?_) hedit
  exact .bind (.audit hD.guard hs₂ fun _ _ hopen => hopen)

theorem proposeLocationChange_safe (hD : Standard D n)
    (hkeeps : ∀ id c c', D.keeps (.location id) c c' → isActive c id = true →
      isActive c' id = true) (hs : Outside [] s) (id : Nat) (kind : ProposalKind)
    (proposed : Json) :
    Lawful D n Closed (proposeLocationChange n user allow times id kind proposed) c s := by
  refine .bind (.require fun _ => .bind (.require fun _ => .bind (.requireActive (hkeeps id) hs
    fun c₁ s₁ d hactive hs₁ => .bind (.releasing ?_ fun proposalId c₂ s₂ hs₂ => ?_))))
  · refine createProposal_safe hD.guard hs₁ n _ times.clock
      (fun _ _ e => ⟨.refl _, .error e, rfl⟩) (fun a _ c₂ c' hsame hproposed => ⟨?_, .ok a, rfl⟩)
      fun _ _ _ _ _ hs₂ => ⟨hs₂.isOpen, hs₂.dirty, hs₂.held, by simp⟩
    have hstill : isActive c₂ id = true :=
      hkeeps id _ _ (hsame.watched _ (List.mem_cons_self ..)) (hactive rfl)
    exact sanctioned_proposal hstill hproposed
  · exact .bind (.audit hD.guard hs₂ fun _ _ hopen => hopen)

theorem upsertReview_safe (hD : Standard D n)
    (hkeeps : ∀ id c c', D.keeps (.location id) c c' → isActive c id = true →
      isActive c' id = true) (hs : Outside [] s) (locationId : Nat) (rating : StarRating)
    (body : String) :
    Lawful D n Closed (upsertReview n user allow times locationId rating body) c s := by
  refine .bind (.require fun _ => .bind (.require fun _ => .bind (.requireActive
    (hkeeps locationId) hs fun c₁ s₁ d hactive hs₁ => .bind (.releasing ?_
      fun wasUpdate c₂ s₂ hs₂ => ?_))))
  · refine upsertReviewTx_safe hD hs₁ locationId user.id rating body times.clock
      (P := fun _ => Sanctioned n) (fun i rv _ c₂ b c₃ c' hsame _ _ _ hreviewed _ => ?_)
      (fun a _ _ _ h => ⟨h, .ok a, rfl⟩)
      fun _ _ _ _ _ _ hs₂ => ⟨hs₂.isOpen, hs₂.dirty, hs₂.held, by simp⟩
    have hstill : isActive c₃ locationId = true :=
      hkeeps locationId _ _ (hsame.watched _ (List.mem_cons_self ..)) (hactive rfl)
    exact sanctioned_review hstill hreviewed
  · exact .audit hD.guard hs₂ fun _ _ hopen => hopen

/-- Both writes of a verification rely on the location. -/
theorem recordVerification_safe (hD : Standard D n)
    (hkeeps : ∀ id c c', D.keeps (.location id) c c' → isActive c id = true →
      isActive c' id = true) (hs : Outside [] s) (signal : NewVerification) :
    Lawful D n Closed (recordVerification n user allow times signal) c s := by
  refine .bind (.require fun _ => .bind (.require fun _ => .bind (.requireActive
    (hkeeps signal.locationId) hs fun c₁ s₁ d hactive hs₁ => .bind ?_)))
  have hstill : ∀ {c c'}, Undisturbed D [] (reliance true signal.locationId) c c' →
      isActive c signal.locationId = true → isActive c' signal.locationId = true :=
    fun hsame => hkeeps _ _ _ (hsame.watched _ (List.mem_cons_self ..))
  have hwritten : ∀ c, isActive (Function.update c (.verification n)
      (some (signal.toRow times.now times.clock))) signal.locationId =
        isActive c signal.locationId := fun c => by simp [isActive]
  rw [writeVerification]
  split
  · refine .bind (record_safe hD.guard hs₁ n signal times.now times.clock (fun _ _ _ => .refl _)
      fun _ c₂ s₂ hsame₂ hs₂ => ⟨sanctioned_verification (hstill hsame₂ (hactive rfl)), ?_⟩)
    have hactive₂ := (hwritten c₂).trans (hstill hsame₂ (hactive rfl))
    refine .releasing (markVerifiedAt_safe hD.guard hs₂ signal.locationId times.verifiedAt
      (fun _ _ e => ⟨.refl _, .error e, rfl⟩) (fun _ _ _ hs₃ => ⟨⟨.refl _, .ok (), rfl⟩, ?_⟩)
      fun _ c₃ s₃ r hsame₃ hr hs₃ => ⟨⟨?_, .ok (), rfl⟩, ?_⟩) fun _ c₃ s₃ hs₃ => ?_
    · exact ⟨hs₃.isOpen, hs₃.dirty, hs₃.held, by simp⟩
    · exact sanctioned_verifiedAt hr (hstill hsame₃ hactive₂)
    · exact ⟨hs₃.isOpen, hs₃.dirty, hs₃.held, by simp⟩
    · exact .audit hD.guard hs₃ fun _ _ hopen => hopen
  · refine .releasing (record_safe hD.guard hs₁ n signal times.now times.clock
      (fun _ _ e => ⟨.refl _, .error e, rfl⟩) fun _ c₂ s₂ hsame₂ hs₂ => ⟨⟨?_, .ok (), rfl⟩, ?_⟩)
      fun _ c₃ s₃ hs₃ => .audit hD.guard hs₃ fun _ _ hopen => hopen
    · exact sanctioned_verification (hstill hsame₂ (hactive rfl))
    · exact ⟨hs₂.isOpen, hs₂.dirty, hs₂.held, by simp⟩

end Calls

end ContributionService

end BikesNest.Community
