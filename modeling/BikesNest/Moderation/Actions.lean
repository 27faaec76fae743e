import BikesNest.Moderation.Repo
import BikesNest.Store.Cells

/-!
# The moderation repository, statement by statement

The statements of the two operations of `SqlxModerationRepository` that change a
location, `setParkingState` and `approveProposal`, and of `rejectProposal`.
`setParkingState` of the module before is the first of them as one step.

`Moderated` says what a commit of one of the first two changes on the location.
-/

namespace BikesNest.Moderation

open Domain Community Store Transactions

/-! ## The scripts -/

/-- `snapshot_with`: the unchanged child rows are read in the transaction. -/
def readSnapshot (id : Nat) (row : ParkingLocation) : Script ModerationError Snapshot := do
  let hours ← .request .unavailable (select fun s => s.rows (.hours id))
  let security ← .request .unavailable (select fun s => s.rows (.security id))
  return snapshotWith row hours security

/-- The revision of a moderation step. -/
def moderationRevision (row : ParkingLocation) (moderator : UserId) (summary : String)
    (snapshot : Snapshot) (clock : Instant) : ParkingRevision where
  version := row.version
  editorId := some moderator
  changeKind := .moderation
  summary := summary
  snapshot := snapshot
  createdAt := clock

/-- `set_parking_state`. -/
def setParkingStateTx (id : Nat) (source : List ModerationState) (target : ModerationState)
    (moderator : UserId) (clock : Instant) : Script ModerationError Unit :=
  transaction .unavailable do
    let row ← .request .unavailable
      (updateLocation id (fun r => source.contains r.moderationState) (·.withState target))
    match row with
    | none => Service.throw .invalidState
    | some row =>
      let snapshot ← readSnapshot id row
      .request .unavailable (insertRevision .conflict id
        (moderationRevision row moderator "moderated" snapshot clock))

/-- The row lock on the location of a proposal, with the version of the location. -/
def lockLocationOf (id : Nat) : Statement ModerationError (Option (Nat × Int)) := fun s =>
  match s.rows (.proposal id) with
  | none => .ok (none, s)
  | some p =>
    match s.rows (.location p.locationId) with
    | none => .ok (none, s)
    | some r => .ok (some (p.locationId, r.version), s.lock [.location p.locationId])

/-- The other pending proposals on a location, by id, among the rows that a
statement sees. -/
def siblings (locationId id : Nat) (s : Connection Cell) : List Nat :=
  (List.range s.bound).filter fun i =>
    (s.rows (.proposal i)).any fun p =>
      p.locationId == locationId && p.status == .pending && i != id

/-- Supersede the proposals that are still pending when their row is locked. -/
def supersedeAll : List Nat → Script ModerationError Unit
  | [] => pure ()
  | i :: ids => do
    let _ ← .request .unavailable (updateProposal i (fun p => p.status == .pending) fun p =>
      { p with status := .superseded })
    supersedeAll ids

/-- Supersede the other pending proposals on a location.  The `UPDATE` finds the
rows when it begins, and locks them one after the other. -/
def supersede (locationId id : Nat) : Script ModerationError Unit := do
  let ids ← .request .unavailable (select (siblings locationId id))
  supersedeAll ids

/-- A proposal after its approval. -/
def approved (p : ParkingProposal) (moderator : UserId) (clock : Instant) : ParkingProposal :=
  { p with status := .approved, resolvedBy := some moderator, resolvedAt := some clock }

/-- The last two statements of `approve_proposal`: the proposal is approved, its
siblings are superseded. -/
def resolveProposal (locationId id : Nat) (moderator : UserId) (clock : Instant) :
    Script ModerationError Unit := do
  let _ ← .request .unavailable
    (updateProposal id (fun _ => true) (approved · moderator clock))
  supersede locationId id

/-- The summary of the revision of an approved proposal. -/
def ProposalApplication.summary : ProposalApplication → String
  | .moveLocation _ _ => "proposal applied (move)"
  | .changeExistence _ => "proposal applied (existence)"

/-- `approve_proposal`. -/
def approveProposal (id : Nat) (moderator : UserId) (applied : ProposalApplication)
    (clock : Instant) : Script ModerationError Unit :=
  transaction .unavailable do
    let locked ← .request .unavailable (lockLocationOf id)
    match locked with
    | none => Service.throw .notFound
    | some (locationId, currentVersion) =>
      let prop ← .request .unavailable (lockProposal id)
      match prop with
      | none => Service.throw .notFound
      | some prop =>
        Service.require (prop.status == .pending) .invalidState
        Service.require (prop.baseVersion == currentVersion) .staleProposal
        let row ← .request .unavailable
          (updateLocation locationId (fun r => r.version == prop.baseVersion) applied.apply)
        match row with
        | none => Service.throw .staleProposal
        | some row =>
          let snapshot ← readSnapshot locationId row
          .request .unavailable (insertRevision .conflict locationId
            (moderationRevision row moderator (ProposalApplication.summary applied) snapshot clock))
          resolveProposal locationId id moderator clock

/-- A proposal after its rejection. -/
def rejected (p : ParkingProposal) (moderator : UserId) (clock : Instant) : ParkingProposal :=
  { p with status := .rejected, resolvedBy := some moderator, resolvedAt := some clock }

/-- `reject_proposal`. -/
def rejectProposal (id : Nat) (moderator : UserId) (clock : Instant) :
    Script ModerationError Unit := do
  let affected ← .request .unavailable
    (updateProposal id (fun p => p.status == .pending) (rejected · moderator clock))
  Service.require (affected == 1) .invalidState

/-! ## What a commit changes -/

/-- The committed rows with a changed location `id` and its revision. -/
def amend (c : Rows Cell) (id : Nat) (row : ParkingLocation) (rev : ParkingRevision) :
    Rows Cell :=
  Function.update (Function.update c (.location id) (some row)) (.revision id rev.version)
    (some rev)

/-- What the commit of a moderation step on the location `id` changes beside the
proposals: the location, by `change`, and its revisions. -/
structure Moderated (id : Nat) (change : ParkingLocation → ParkingLocation) (moderator : UserId)
    (summary : String) (clock : Instant) (r : ParkingLocation) (c c' : Rows Cell) : Prop where
  row : c (.location id) = some r
  vacant : c (.revision id (change r).version) = none
  rows : ∀ k, (∀ j, k ≠ .proposal j) →
    c' k = amend c id (change r) (moderationRevision (change r) moderator summary
      (snapshotWith (change r) (c (.hours id)) (c (.security id))) clock) k

/-- The proposal `id` becomes `p'`, and no other proposal on the location that was
pending on the rows `since` still is. -/
structure Resolved (id locationId : Nat) (p' : ParkingProposal) (since c c' : Rows Cell) :
    Prop where
  approved : c' (.proposal id) = some p'
  siblings : ∀ j, j ≠ id → c' (.proposal j) = c (.proposal j) ∨ ∃ q, c (.proposal j) = some q ∧
    q.locationId = locationId ∧ q.status = .pending ∧
    c' (.proposal j) = some { q with status := .superseded }
  settled : ∀ j q, j ≠ id → since (.proposal j) = some q → q.locationId = locationId →
    q.status = .pending → ∃ q', c' (.proposal j) = some q' ∧ q'.status ≠ .pending

/-- What the commit of an approval of the proposal `id`, which is `p`, changes,
where `since` are the rows when it locked the location. -/
structure Approved (id : Nat) (moderator : UserId) (applied : ProposalApplication)
    (clock : Instant) (p : ParkingProposal) (r : ParkingLocation) (since c c' : Rows Cell) :
    Prop where
  moderated : Moderated p.locationId applied.apply moderator
    (ProposalApplication.summary applied) clock r c c'
  proposal : c (.proposal id) = some p
  pending : p.status = .pending
  version : p.baseVersion = r.version
  resolved : Resolved id p.locationId (approved p moderator clock) since c c'

/-- What a commit of `rejectProposal` changes. -/
def Rejected (id : Nat) (moderator : UserId) (clock : Instant) (c c' : Rows Cell) : Prop :=
  ∃ p, c (.proposal id) = some p ∧ p.status = .pending ∧
    c' = Function.update c (.proposal id) (some (rejected p moderator clock))

section Rules

variable {α : Type} {D : Discipline Cell} {since : Rows Cell} {locks relied : List Key}
  {F : Rows Cell → Rows Cell} {c : Rows Cell} {s : Connection Cell} {id : Nat}

theorem Safe.readSnapshot
    {G : Rows Cell → Rows Cell → Rows Cell → Script ModerationError Snapshot → Prop}
    {Q : Snapshot → Rows Cell → Connection Cell → Prop} {row : ParkingLocation}
    (hD : D.guard = Key.guard) (hid : .location id ∈ locks)
    (hs : Inside D since locks relied F s)
    (hF : ∀ c, F c (.hours id) = c (.hours id) ∧ F c (.security id) = c (.security id))
    (h : ∀ c' s', Undisturbed D locks relied c c' → Inside D since locks relied F s' →
      Q (snapshotWith row (c' (.hours id)) (c' (.security id))) c' s') :
    Safe D G Q (readSnapshot id row) c s := by
  rw [Moderation.readSnapshot, safe_bind]
  refine Safe.select hs fun c₁ s₁ hsame₁ _ hs₁ hrows₁ => ?_
  rw [sinceOf_of_mem hid] at hs₁
  rw [safe_bind]
  refine Safe.select hs₁ fun c₂ s₂ hsame₂ _ hs₂ hrows₂ => ?_
  rw [sinceOf_of_mem hid] at hs₂
  rw [hrows₁, hrows₂, (hF c₁).1, (hF c₂).2, ← Kept.of hD hid hsame₂ (.hours id) rfl]
  exact h c₂ s₂ (hsame₁.trans hsame₂) hs₂

/-- `setParkingStateTx` commits a moderation step on a location in one of the
source states. -/
theorem setParkingStateTx_safe
    {G : Rows Cell → Rows Cell → Rows Cell → Script ModerationError Unit → Prop}
    {Q : Unit → Rows Cell → Connection Cell → Prop} {P : Rows Cell → Rows Cell → Prop}
    (hD : D.guard = Key.guard)
    (hs : Outside relied s) (id : Nat) (source : List ModerationState)
    (target : ModerationState) (moderator : UserId) (clock : Instant)
    (hP : ∀ c c' r, source.contains r.moderationState = true →
      (∀ j, c' (.proposal j) = c (.proposal j)) →
      Moderated id (·.withState target) moderator "moderated" clock r c c' → P c c')
    (hG : ∀ a since c c', P c c' → G since c c' (pure a))
    (hQ : ∀ a c c' s', P c c' → Outside relied s' → Q a c' s') :
    Safe D G Q (setParkingStateTx id source target moderator clock) c s := by
  refine Safe.transaction (P := fun _ _ => P) hs hG (fun a _ => hQ a) fun c₀ s₀ _ hs => ?_
  have hlock : Key.location id ∈ [Key.location id] := List.mem_cons_self ..
  rw [safe_bind]
  refine Safe.updateLocation hD hs (fun _ _ _ _ _ => safe_throw _)
    fun c₁ s₁ r _ hr hsource hs₁ => ?_
  rw [safe_bind]
  refine Safe.readSnapshot hD hlock hs₁ (by simp) fun c₂ s₂ hsame₂ hs₂ => ?_
  refine Safe.insertRevision hD hlock hs₂ fun c₃ s₃ hsame₃ hfresh hs₃ => ?_
  refine hs₃.commits fun c₄ hsame₄ => hP _ _ r hsource (by simp) ?_
  have hlast := Kept.of hD (List.mem_cons_of_mem _ hlock) hsame₄
  have hlater := (Kept.of hD hlock hsame₃).trans hlast
  constructor
  · rw [(Kept.of hD hlock hsame₂).trans hlater _ rfl, hr]
  · rw [hlast _ rfl]
    simpa [moderationRevision] using hfresh
  · intro k _
    rw [hlater (.hours id) rfl, hlater (.security id) rfl]
    rfl

/-! ### Superseding -/

theorem mem_siblings {locationId i : Nat} :
    i ∈ siblings locationId id s ↔ i < s.bound ∧ ∃ p, s.rows (.proposal i) = some p ∧
      p.locationId = locationId ∧ p.status = .pending ∧ i ≠ id := by
  simp only [siblings, List.mem_filter, List.mem_range, Option.any_eq_true, Bool.and_eq_true,
    beq_iff_eq, bne_iff_ne, and_assoc]

/-- What the transaction sees of the proposals moves on as the committed rows
do. -/
def Steady (D : Discipline Cell) (locks relied : List Key) (F : Rows Cell → Rows Cell)
    (c : Rows Cell) : Prop :=
  ∀ c' c'', Undisturbed D locks relied c c' → Undisturbed D locks relied c' c'' →
    ProposalsFollow (F c') (F c'')

theorem Steady.later {c' : Rows Cell} (h : Steady D locks relied F c)
    (hsame : Undisturbed D locks relied c c') : Steady D locks relied F c' :=
  fun c₁ c₂ h₁ h₂ => h c₁ c₂ (hsame.trans h₁) h₂

/-- A proposal that the transaction has locked and written. -/
theorem Steady.update (h : Steady D locks relied F c) (i : Nat) (p : ParkingProposal) :
    Steady D (.proposal i :: locks) relied
      (fun c => Function.update (F c) (.proposal i) (some p)) c := by
  intro c₁ c₂ h₁ h₂ j q hq
  dsimp only at hq ⊢
  by_cases hij : j = i
  · subst hij
    rw [Function.update_self] at hq
    exact ⟨p, Function.update_self .., Option.some.inj hq ▸ .refl p⟩
  · have hne : Key.proposal j ≠ .proposal i := by simpa using hij
    rw [Function.update_of_ne hne] at hq ⊢
    have hmono : ∀ {c c'}, Undisturbed D (.proposal i :: locks) relied c c' →
        Undisturbed D locks relied c c' :=
      fun h => h.mono (fun k => List.mem_cons_of_mem _) fun _ hk => hk
    exact h c₁ c₂ (hmono h₁) (hmono h₂) j q hq

/-- Against `F`, the writes `F'` supersede those of `ids` that are pending. -/
def Superseded (D : Discipline Cell) (locks relied : List Key) (ids : List Nat)
    (F F' : Rows Cell → Rows Cell) (c : Rows Cell) : Prop :=
  ∀ c', Undisturbed D locks relied c c' → ∀ j,
    (F' c' (.proposal j) = F c' (.proposal j) ∧
      (j ∈ ids → ∃ q, F c' (.proposal j) = some q ∧ q.status ≠ .pending)) ∨
    (j ∈ ids ∧ ∃ q, F c' (.proposal j) = some q ∧ q.status = .pending ∧
      F' c' (.proposal j) = some { q with status := .superseded })

theorem Safe.supersedeAll
    {G : Rows Cell → Rows Cell → Rows Cell → Script ModerationError Unit → Prop}
    {Q : Unit → Rows Cell → Connection Cell → Prop} {k : Key} (hD : D.guard = Key.guard)
    (ids : List Nat) (hk : k ∈ locks) (hs : Inside D since locks relied F s)
    (hF : Steady D locks relied F c) (hids : ∀ i ∈ ids, ∃ q, F c (.proposal i) = some q)
    (h : ∀ c' s' locks' F', Undisturbed D locks relied c c' → (∀ k ∈ locks, k ∈ locks') →
      Inside D since locks' relied F' s' → (∀ c k, (∀ j, k ≠ .proposal j) → F' c k = F c k) →
      Superseded D locks' relied ids F F' c' → Q () c' s') :
    Safe D G Q (supersedeAll ids) c s := by
  induction ids generalizing locks F c s with
  | nil =>
    exact h c s locks F (.refl _ _ _) (fun _ hk => hk) hs (fun _ _ _ => rfl)
      fun _ _ _ => .inl ⟨rfl, by simp⟩
  | cons i ids ih =>
    obtain ⟨q, hq⟩ := hids i (List.mem_cons_self ..)
    rw [Moderation.supersedeAll, safe_bind]
    refine Safe.updateProposal hD hs (fun c₁ s₁ hsame₁ hs₁ hno => ?_)
      fun c₁ s₁ r hsame₁ hr hpending hs₁ => ?_
    all_goals
      rw [sinceOf_of_mem hk] at hs₁
      have hfollow := hF c c₁ (.refl _ _ _) hsame₁
    · refine ih hk hs₁ (hF.later hsame₁) (fun j hj => ?_)
        fun c₂ s₂ locks' F' hsame₂ hmore hs₂ hrest hsup =>
          h c₂ s₂ locks' F' (hsame₁.trans hsame₂) hmore hs₂ hrest fun c₃ hsame₃ j => ?_
      · obtain ⟨q', hq'⟩ := hids j (List.mem_cons_of_mem _ hj)
        obtain ⟨q₁, hq₁, _⟩ := hfollow j q' hq'
        exact ⟨q₁, hq₁⟩
      · rcases hsup c₃ hsame₃ j with ⟨heq, hdecided⟩ | ⟨hj, hsup⟩
        · refine .inl ⟨heq, fun hj => ?_⟩
          rcases List.mem_cons.mp hj with rfl | hj
          · obtain ⟨q₁, hq₁, _⟩ := hfollow j q hq
            obtain ⟨q₃, hq₃, hlast⟩ := hF c₁ c₃ hsame₁
              (hsame₂.trans (hsame₃.mono hmore fun _ hk => hk)) j q₁ hq₁
            exact ⟨q₃, hq₃, hlast.decided (by simpa using hno q₁ hq₁)⟩
          · exact hdecided hj
        · exact .inr ⟨List.mem_cons_of_mem _ hj, hsup⟩
    · refine ih (List.mem_cons_of_mem _ hk) hs₁ ((hF.later hsame₁).update i _) (fun j hj => ?_)
        fun c₂ s₂ locks' F' hsame₂ hmore hs₂ hrest hsup => h c₂ s₂ locks' F'
          (hsame₁.trans (hsame₂.mono (fun k => List.mem_cons_of_mem _) fun _ hk => hk))
          (fun k hk => hmore k (List.mem_cons_of_mem _ hk)) hs₂ (fun c k hk => ?_)
          fun c₃ hsame₃ j => ?_
      · by_cases hij : j = i
        · subst hij
          exact ⟨_, Function.update_self ..⟩
        · obtain ⟨q', hq'⟩ := hids j (List.mem_cons_of_mem _ hj)
          obtain ⟨q₁, hq₁, _⟩ := hfollow j q' hq'
          exact ⟨q₁, by rw [Function.update_of_ne (by simpa using hij), hq₁]⟩
      · rw [hrest c k hk, Function.update_of_ne (hk i)]
      · have hcase := hsup c₃ hsame₃ j
        by_cases hij : j = i
        · subst hij
          have hlocked : c₃ (.proposal j) = c₁ (.proposal j) := by
            have hmem : D.guard (.proposal j) ∈ Key.proposal j :: locks := by
              rw [hD]
              exact List.mem_cons_self ..
            exact (hsame₃.held _ (hmore _ hmem)).trans (hsame₂.held _ hmem)
          have hr₃ : F c₃ (.proposal j) = some r := (hs.congr hlocked).trans hr
          simp only [Function.update_self] at hcase
          rcases hcase with ⟨heq, _⟩ | ⟨_, q', hq', hpending', _⟩
          · exact .inr ⟨List.mem_cons_self .., r, hr₃, by simpa using hpending, heq⟩
          · obtain rfl := Option.some.inj hq'
            cases hpending'
        · have hne : Key.proposal j ≠ .proposal i := by simpa using hij
          simp only [Function.update_of_ne hne] at hcase
          simpa [hij] using hcase

/-- The siblings that the scan finds on the rows `c₂` are superseded on the rows
`c'` unless they are decided by then. -/
theorem Resolved.of {locationId : Nat} {p' : ParkingProposal} {ids : List Nat}
    {c₀ c₂ c' seen : Rows Cell} (happroved : seen (.proposal id) = some p')
    (hids : ∀ j, j ∈ ids ↔ j ≠ id ∧ ∃ q, c₂ (.proposal j) = some q ∧
      q.locationId = locationId ∧ q.status = .pending)
    (hbefore : ProposalsFollow c₀ c₂) (hafter : ProposalsFollow c₂ c')
    (hseen : ∀ j, j ≠ id → (seen (.proposal j) = c' (.proposal j) ∧
        (j ∈ ids → ∃ q, c' (.proposal j) = some q ∧ q.status ≠ .pending)) ∨
      (j ∈ ids ∧ ∃ q, c' (.proposal j) = some q ∧ q.status = .pending ∧
        seen (.proposal j) = some { q with status := .superseded })) :
    Resolved id locationId p' c₀ c' seen where
  approved := happroved
  siblings j hj := by
    rcases hseen j hj with ⟨heq, _⟩ | ⟨hmem, q, hq, hpending, heq⟩
    · exact .inl heq
    · obtain ⟨_, q₂, hq₂, hlocation, _⟩ := (hids j).mp hmem
      obtain ⟨q', hq', hfollows⟩ := hafter j q₂ hq₂
      obtain rfl : q' = q := Option.some.inj (hq'.symm.trans hq)
      exact .inr ⟨q', hq, hfollows.1.trans hlocation, hpending, heq⟩
  settled j q hj hq hlocation _ := by
    obtain ⟨q₂, hq₂, hfollows₂⟩ := hbefore j q hq
    rcases hseen j hj with ⟨heq, hdecided⟩ | ⟨_, q', _, _, heq⟩
    · rw [heq]
      by_cases hpending : q₂.status = .pending
      · exact hdecided ((hids j).mpr ⟨hj, q₂, hq₂, hfollows₂.1.trans hlocation, hpending⟩)
      · obtain ⟨q', hq', hfollows⟩ := hafter j q₂ hq₂
        exact ⟨q', hq', hfollows.decided hpending⟩
    · exact ⟨_, heq, by simp⟩

/-- The last two statements resolve the proposal and its siblings. -/
theorem Safe.resolveProposal
    {G : Rows Cell → Rows Cell → Rows Cell → Script ModerationError Unit → Prop}
    {Q : Unit → Rows Cell → Connection Cell → Prop} {locationId : Nat} {moderator : UserId}
    {clock : Instant} {p : ParkingProposal} {n : Nat} (hD : Standard D n)
    (hs : Inside D since locks relied F s) (hid : .proposal id ∈ locks)
    (hF : ∀ c j, F c (.proposal j) = c (.proposal j)) (hp : c (.proposal id) = some p)
    (h : ∀ c' s' locks' F', Undisturbed D locks relied c c' → (∀ k ∈ locks, k ∈ locks') →
      Inside D since locks' relied F' s' → (∀ c k, (∀ j, k ≠ .proposal j) → F' c k = F c k) →
      (∀ c'' c₀, Undisturbed D locks' relied c' c'' → ProposalsFollow c₀ c →
        Resolved id locationId (approved p moderator clock) c₀ c'' (F' c'')) → Q () c' s') :
    Safe D G Q (resolveProposal locationId id moderator clock) c s := by
  have hgrow : ∀ {locks c c'}, Undisturbed D locks relied c c' → ProposalsFollow c c' :=
    fun hsame => (hD.grows hsame.grows).proposals
  rw [Moderation.resolveProposal, safe_bind]
  refine Safe.updateProposal hD.guard hs (fun c₁ s₁ hsame₁ _ hno => ?_)
    fun c₁ s₁ r hsame₁ hr _ hs₁ => ?_
  · obtain ⟨p₁, hp₁, _⟩ := hgrow hsame₁ id p hp
    exact absurd (hno p₁ ((hF c₁ id).trans hp₁)) (by simp)
  rw [sinceOf_of_mem hid] at hs₁
  obtain rfl : r = p := by
    have hheld : c₁ (.proposal id) = c (.proposal id) :=
      hsame₁.held _ (by rw [hD.guard]; exact hid)
    rw [hF, hheld, hp] at hr
    exact (Option.some.inj hr).symm
  have hlock : Key.proposal id ∈ Key.proposal id :: locks := List.mem_cons_self ..
  have hsteady : Steady D (.proposal id :: locks) relied
      (fun c => Function.update (F c) (.proposal id) (some (approved r moderator clock))) c₁ := by
    refine Steady.update (fun c₂ c₃ _ hsame j q hq => ?_) id _
    rw [hF] at hq ⊢
    exact hgrow hsame j q hq
  have hother : ∀ c j, j ≠ id → Function.update (F c) (.proposal id)
      (some (approved r moderator clock)) (.proposal j) = c (.proposal j) := by
    intro c j hj
    rw [Function.update_of_ne (by simpa using hj), hF]
  rw [Moderation.supersede, safe_bind]
  refine Safe.select hs₁ fun c₂ s₂ hsame₂ hfits₂ hs₂ hrows₂ => ?_
  rw [sinceOf_of_mem hlock] at hs₂
  refine Safe.supersedeAll hD.guard _ hlock hs₂ (hsteady.later hsame₂) (fun i hi => ?_)
    fun c₃ s₃ locks' F' hsame₃ hmore hs₃ hrest hsup => h c₃ s₃ locks' F' ?_
      (fun k hk => hmore k (List.mem_cons_of_mem _ hk)) hs₃ (fun c k hk => ?_)
      fun c₄ c₀ hsame₄ hfollow₀ => ?_
  · obtain ⟨_, q, hq, _⟩ := mem_siblings.mp hi
    exact ⟨q, hrows₂ ▸ hq⟩
  · exact hsame₁.trans ((hsame₂.trans hsame₃).mono (fun k => List.mem_cons_of_mem _)
      fun _ hk => hk)
  · rw [hrest c k hk, Function.update_of_ne (hk id)]
  · have hafter : ProposalsFollow c₂ c₄ :=
      hgrow (hsame₃.trans (hsame₄.mono hmore fun _ hk => hk))
    have hbefore : ProposalsFollow c₀ c₂ :=
      (hfollow₀.trans (hgrow hsame₁)).trans (hgrow hsame₂)
    have hids : ∀ j, j ∈ siblings locationId id s₂ ↔ j ≠ id ∧ ∃ q,
        c₂ (.proposal j) = some q ∧ q.locationId = locationId ∧ q.status = .pending := by
      intro j
      rw [mem_siblings, hrows₂]
      constructor
      · rintro ⟨_, q, hq, hlocation, hpending, hj⟩
        exact ⟨hj, q, (hother c₂ j hj).symm.trans hq, hlocation, hpending⟩
      · rintro ⟨hj, q, hq, hlocation, hpending⟩
        refine ⟨Nat.lt_of_not_le fun hle => ?_, q, (hother c₂ j hj).trans hq, hlocation,
          hpending, hj⟩
        rw [(hD.fits hfits₂ j hle).1] at hq
        cases hq
    refine Resolved.of ?_ hids hbefore hafter fun j hj => ?_
    · rcases hsup c₄ hsame₄ id with ⟨heq, _⟩ | ⟨hmem, _⟩
      · exact heq.trans (Function.update_self ..)
      · exact absurd rfl ((hids id).mp hmem).1
    · have hcase := hsup c₄ hsame₄ j
      simp only [hother c₄ j hj] at hcase
      exact hcase

/-- `approveProposal` commits what `Approved` says. -/
theorem approveProposal_safe
    {G : Rows Cell → Rows Cell → Rows Cell → Script ModerationError Unit → Prop}
    {Q : Unit → Rows Cell → Connection Cell → Prop}
    {P : Rows Cell → Rows Cell → Rows Cell → Prop} {n : Nat} (hD : Standard D n)
    (hs : Outside relied s) (id : Nat) (moderator : UserId) (applied : ProposalApplication)
    (clock : Instant)
    (hP : ∀ since c c' p r, Approved id moderator applied clock p r since c c' → P since c c')
    (hG : ∀ a since c c', P since c c' → G since c c' (pure a))
    (hQ : ∀ a since c c' s', P since c c' → Outside relied s' → Q a c' s') :
    Safe D G Q (approveProposal id moderator applied clock) c s := by
  refine Safe.transaction (P := fun _ => P) hs hG hQ fun c₀ s₀ _ hs => ?_
  rw [safe_bind]
  refine Safe.statement hs fun c₁ s₁ a after hsame₁ _ hs₁ hrows hf => ?_
  simp only [lockLocationOf, hrows] at hf
  split at hf
  · obtain ⟨rfl, rfl⟩ := Prod.mk.inj (Except.ok.inj hf)
    exact ⟨hs₁.isOpen, safe_throw _⟩
  rename_i p hp
  split at hf
  · obtain ⟨rfl, rfl⟩ := Prod.mk.inj (Except.ok.inj hf)
    exact ⟨hs₁.isOpen, safe_throw _⟩
  rename_i r hr
  obtain ⟨rfl, rfl⟩ := Prod.mk.inj (Except.ok.inj hf)
  have hs₁ := hs₁.lock (.location p.locationId)
  refine ⟨hs₁.isOpen, ?_⟩
  rw [safe_bind]
  refine Safe.lockProposal hs₁ (fun _ _ => safe_throw _) fun c₂ s₂ p₂ hsame₂ hp₂ hs₂ => ?_
  rw [safe_bind]
  refine Safe.require fun hpending => ?_
  rw [safe_bind]
  refine Safe.require fun hversion => ?_
  rw [safe_bind]
  refine Safe.updateLocation hD.guard hs₂ (fun _ _ _ _ _ => safe_throw _)
    fun c₃ s₃ r₃ hsame₃ hr₃ hbase hs₃ => ?_
  have hloc : p₂.locationId = p.locationId := by
    obtain ⟨p', hp', hfollows⟩ := (hD.grows hsame₂.grows).proposals id p hp
    obtain rfl : p' = p₂ := Option.some.inj (hp'.symm.trans hp₂)
    exact hfollows.1
  rw [← hloc] at hr₃ hs₃ ⊢
  have hlock : Key.location p₂.locationId ∈ [Key.location p₂.locationId, .proposal id,
      .location p₂.locationId] := List.mem_cons_self ..
  rw [safe_bind]
  refine Safe.readSnapshot hD.guard hlock hs₃ (by simp) fun c₄ s₄ hsame₄ hs₄ => ?_
  rw [safe_bind]
  refine Safe.insertRevision hD.guard hlock hs₄ fun c₅ s₅ hsame₅ hfresh hs₅ => ?_
  have hmem := List.mem_cons_of_mem (Key.revision p₂.locationId (applied.apply r₃).version) hlock
  have hguard : ∀ {ks : List Key}, .proposal id ∈ ks → D.guard (.proposal id) ∈ ks := by
    intro ks hks
    rwa [hD.guard]
  have hp₅ : c₅ (.proposal id) = some p₂ := by
    rw [hsame₅.held _ (hguard (by simp)), hsame₄.held _ (hguard (by simp)),
      hsame₃.held _ (hguard (by simp)), hp₂]
  refine Safe.resolveProposal hD hs₅ (by simp) (by simp) hp₅
    fun c₆ s₆ locks F hsame₆ hmore hs₆ hrest hresolved => ?_
  refine hs₆.commits fun c₇ hsame₇ => hP _ _ _ p₂ r₃ ?_
  have hlast := (Kept.of hD.guard hmem hsame₆).trans (Kept.of hD.guard (hmore _ hmem) hsame₇)
  have hlater := (Kept.of hD.guard hlock hsame₅).trans hlast
  have hp₇ : c₇ (.proposal id) = some p₂ := by
    rw [hsame₇.held _ (hguard (hmore _ (by simp))), hsame₆.held _ (hguard (by simp)), hp₅]
  have hgrows := D.grows_trans _ _ _ (D.grows_trans _ _ _ hsame₂.grows hsame₃.grows)
    (D.grows_trans _ _ _ hsame₄.grows hsame₅.grows)
  refine ⟨⟨?_, ?_, fun k hk => ?_⟩, hp₇, by simpa using hpending, ?_, ?_⟩
  · rw [(Kept.of hD.guard hlock hsame₄).trans hlater _ rfl, hr₃]
  · rw [hlast _ rfl]
    simpa [moderationRevision] using hfresh
  · rw [hrest c₇ k hk, hlater (.hours _) rfl, hlater (.security _) rfl]
    rfl
  · exact (by simpa using hbase : r₃.version = p₂.baseVersion).symm
  · rw [sinceOf_of_mem (hmore _ hmem)]
    exact hresolved c₇ _ hsame₇ (hD.grows hgrows).proposals

/-- `rejectProposal` commits what `Rejected` says. -/
theorem rejectProposal_safe
    {G : Rows Cell → Rows Cell → Rows Cell → Script ModerationError Unit → Prop}
    {Q : Unit → Rows Cell → Connection Cell → Prop} (hD : D.guard = Key.guard)
    (hs : Outside relied s) (id : Nat) (moderator : UserId) (clock : Instant)
    (herror : ∀ since c e, G since c c (Service.throw e))
    (hG : ∀ a since c c', Rejected id moderator clock c c' → G since c c' (pure a))
    (hQ : ∀ a c c' s', Rejected id moderator clock c c' → Outside relied s' → Q a c' s') :
    Safe D G Q (rejectProposal id moderator clock) c s := by
  rw [rejectProposal, safe_bind]
  refine Safe.autocommit hs (fun since c e => herror since c e)
    fun c' s' a after _ _ hs' hrows hf => ?_
  have hmissed : ∀ after, s' = after → after.isOpen = false ∧
      G after.since c' (after.overlay c') (Service.require (0 == 1) .invalidState) ∧
      (∀ k ∈ after.dirty, D.guard k ∈ after.held) ∧
      Safe D G Q (Service.require (0 == 1) .invalidState) (after.overlay c') after.settle := by
    rintro after rfl
    rw [s'.overlay_of_clean c' hs'.dirty]
    exact ⟨hs'.isOpen, herror _ _ _, by simp [hs'.dirty], safe_throw _⟩
  simp only [updateProposal, hrows] at hf
  split at hf
  · obtain ⟨rfl, heq⟩ := Prod.mk.inj (Except.ok.inj hf)
    exact hmissed after heq
  · rename_i p hp
    split at hf
    · rename_i hpending
      obtain ⟨rfl, rfl⟩ := Prod.mk.inj (Except.ok.inj hf)
      have hrejected : Rejected id moderator clock c' (Function.update c' (.proposal id)
          (some (rejected p moderator clock))) := ⟨p, hp, by simpa using hpending, rfl⟩
      obtain ⟨hopen, hwrites, hguard, hout⟩ := hs'.write (D := D) (k := .proposal id)
        (some (rejected p moderator clock)) c' (by rw [hD]; rfl)
      rw [hwrites]
      exact ⟨hopen, hG () _ _ _ hrejected, hguard, hQ () _ _ _ hrejected hout⟩
    · obtain ⟨rfl, heq⟩ := Prod.mk.inj (Except.ok.inj hf)
      exact hmissed after heq

end Rules

/-! ## A failed statement is an error -/

theorem readSnapshot_strict (id : Nat) (row : ParkingLocation) : (readSnapshot id row).Strict :=
  .bind (.request _ _) fun _ => .bind (.request _ _) fun _ => .pure _

theorem setParkingStateTx_strict (id : Nat) (source : List ModerationState)
    (target : ModerationState) (moderator : UserId) (clock : Instant) :
    (setParkingStateTx id source target moderator clock).Strict := by
  refine strict_transaction (.bind (.request _ _) fun row => ?_)
  cases row with
  | none => trivial
  | some row => exact .bind (readSnapshot_strict _ _) fun _ => .request _ _

theorem supersedeAll_strict : ∀ ids : List Nat, (supersedeAll ids).Strict
  | [] => trivial
  | _ :: ids => .bind (.request _ _) fun _ => supersedeAll_strict ids

theorem resolveProposal_strict (locationId id : Nat) (moderator : UserId) (clock : Instant) :
    (resolveProposal locationId id moderator clock).Strict :=
  .bind (.request _ _) fun _ => .bind (.request _ _) fun ids => supersedeAll_strict ids

theorem approveProposal_strict (id : Nat) (moderator : UserId) (applied : ProposalApplication)
    (clock : Instant) : (approveProposal id moderator applied clock).Strict := by
  refine strict_transaction (.bind (.request _ _) fun locked => ?_)
  cases locked with
  | none => trivial
  | some locked =>
    refine .bind (.request _ _) fun prop => ?_
    cases prop with
    | none => trivial
    | some prop =>
      refine .bind (.require _ _) fun _ => .bind (.require _ _) fun _ =>
        .bind (.request _ _) fun row => ?_
      cases row with
      | none => trivial
      | some row =>
        exact .bind (readSnapshot_strict _ _) fun _ => .bind (.request _ _) fun _ =>
          resolveProposal_strict _ _ _ _

theorem rejectProposal_strict (id : Nat) (moderator : UserId) (clock : Instant) :
    (rejectProposal id moderator clock).Strict :=
  .bind (.request _ _) fun _ => .require _ _

end BikesNest.Moderation
