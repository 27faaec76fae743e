import BikesNest.Store.Cells

/-!
# The contribution repository

The statements of `SqlxParkingContributionRepository` in their order.  `create`
and `applyEdit` are transactions of several statements, `createProposal` is one
statement.

`clock` is `now()` of the transaction in the database, where `now` is the time
that the caller passes.

`Created` and `Edited` say what a commit of the first two changes.
-/

namespace BikesNest.Community

open Domain Store Transactions

/-! ## The scripts -/

/-- `write_hours`. -/
def writeHours (id : Nat) (hours : OpeningHours) : Script ContributionError Unit := do
  .request .unavailable (Store.write (.hours id) fun _ => .ok [])
  if hours.rows = [] then pure ()
  else .request .unavailable (Store.write (.hours id) fun rows => insertHours (rows (.hours id)) hours)

/-- `write_security`. -/
def writeSecurity (id : Nat) (security : List SecurityFeature) : Script ContributionError Unit :=
  .request .unavailable (Store.write (.security id) fun rows =>
    .ok (upsertSecurityRows (rows (.security id)) security))

/-- The revision of `create`. -/
def createdRevision (new : NewParkingLocation) (tz : Tz) (creator : UserId) (clock : Instant) :
    ParkingRevision where
  version := 1
  editorId := some creator
  changeKind := .create
  summary := "added"
  snapshot := snapshotOf new.name new.address new.description new.parkingType.asCode new.cost
    new.point tz new.hours new.security .active
  createdAt := clock

/-- `create`.  `n` is the identity that the insert draws. -/
def create (n : Nat) (new : NewParkingLocation) (creator : UserId) (now clock : Instant) :
    Script ContributionError Nat :=
  match new.timezone with
  | none => .throw (.invalidField "timezone is required")
  | some tz => transaction .unavailable do
    let id ← .request .unavailable (insertLocation .conflict n (new.toRow tz creator now))
    writeHours id new.hours
    writeSecurity id new.security
    .request .unavailable (insertRevision .conflict id (createdRevision new tz creator clock))
    return id

/-- The revision of `apply_edit`, from the row that its `UPDATE` returns. -/
def editedRevision (row : ParkingLocation) (edit : ParkingEdit) (editor : UserId)
    (clock : Instant) : ParkingRevision where
  version := row.version
  editorId := some editor
  changeKind := .edit
  summary := "edited"
  snapshot := snapshotOf row.name row.address row.description row.parkingType edit.cost row.point
    row.timezone edit.hours edit.security row.moderationState
  createdAt := clock

/-- `apply_edit`. -/
def applyEdit (id : Nat) (expectedVersion : Int) (edit : ParkingEdit) (editor : UserId)
    (now clock : Instant) : Script ContributionError Int :=
  transaction .unavailable do
    let guard ← .request .unavailable (lockLocation id)
    match guard with
    | none => Service.throw .notFound
    | some current =>
      Service.require (current.moderationState == .active) .locationNotActive
      Service.require (current.version == expectedVersion) .versionConflict
      let row ← .request .unavailable (updateLocation id
        (fun r => r.version == expectedVersion && r.moderationState == .active) (edit.apply now))
      match row with
      | none => Service.throw .versionConflict
      | some row =>
        writeHours id edit.hours
        writeSecurity id edit.security
        .request .unavailable (insertRevision .conflict id (editedRevision row edit editor clock))
        return row.version

/-- `NewProposal`. -/
structure NewProposal where
  locationId : Nat
  proposerId : UserId
  baseVersion : Int
  kind : ProposalKind
  proposed : Json

/-- The row that `create_proposal` inserts. -/
def NewProposal.toRow (p : NewProposal) (clock : Instant) : ParkingProposal where
  locationId := p.locationId
  proposerId := some p.proposerId
  baseVersion := p.baseVersion
  kind := p.kind
  proposed := p.proposed
  createdAt := clock

/-- `create_proposal`. -/
def createProposal (n : Nat) (p : NewProposal) (clock : Instant) :
    Script ContributionError Nat :=
  .request .unavailable (insertProposal .conflict n (p.toRow clock))

/-! ## What a commit changes -/

/-- The committed rows with a new version of the location `id` and its
revision. -/
def revise (c : Rows Cell) (id : Nat) (row : ParkingLocation) (hours : List HourRow)
    (security : List SecurityRow) (rev : ParkingRevision) : Rows Cell :=
  Function.update (Function.update (Function.update (Function.update c
    (.location id) (some row)) (.hours id) hours) (.security id) security)
    (.revision id rev.version) (some rev)

/-- What a commit of `create` changes. -/
def Created (n : Nat) (new : NewParkingLocation) (creator : UserId) (now clock : Instant)
    (c c' : Rows Cell) : Prop :=
  ∃ tz hours, new.timezone = some tz ∧ insertHours [] new.hours = .ok hours ∧
    c (.location n) = none ∧ c (.revision n 1) = none ∧
    c' = revise c n (new.toRow tz creator now) hours
      (upsertSecurityRows (c (.security n)) new.security) (createdRevision new tz creator clock)

/-- What a commit of `applyEdit` changes. -/
def Edited (id : Nat) (expectedVersion : Int) (edit : ParkingEdit) (editor : UserId)
    (now clock : Instant) (c c' : Rows Cell) : Prop :=
  ∃ r hours, c (.location id) = some r ∧ r.moderationState = .active ∧
    r.version = expectedVersion ∧ insertHours [] edit.hours = .ok hours ∧
    c (.revision id (r.version + 1)) = none ∧
    c' = revise c id (edit.apply now r) hours
      (upsertSecurityRows (c (.security id)) edit.security)
      (editedRevision (edit.apply now r) edit editor clock)

/-- What a commit of `createProposal` changes. -/
def Proposed (n : Nat) (p : NewProposal) (clock : Instant) (c c' : Rows Cell) : Prop :=
  c (.proposal n) = none ∧ c' = Function.update c (.proposal n) (some (p.toRow clock))

section Rules

variable {α : Type} {D : Discipline Cell} {since : Rows Cell} {locks relied : List Key}
  {F : Rows Cell → Rows Cell} {c : Rows Cell} {s : Connection Cell} {id : Nat}

theorem Safe.writeHours
    {G : Rows Cell → Rows Cell → Rows Cell → Script ContributionError Unit → Prop}
    {Q : Unit → Rows Cell → Connection Cell → Prop} {hours : OpeningHours}
    (hD : D.guard = Key.guard) (hid : .location id ∈ locks)
    (hs : Inside D since locks relied F s)
    (h : ∀ c' s' rows, Undisturbed D locks relied c c' → insertHours [] hours = .ok rows →
      Inside D since locks relied (fun c => Function.update (F c) (.hours id) rows) s' →
      Q () c' s') :
    Safe D G Q (writeHours id hours) c s := by
  have hk : D.guard (.hours id) ∈ locks := by rwa [hD]
  rw [Community.writeHours, safe_bind]
  refine Safe.write hk hs fun c₁ s₁ x hsame₁ hx hs₁ => ?_
  obtain rfl := Except.ok.inj hx
  split
  · rename_i hempty
    have hnone : insertHours [] hours = .ok [] := by
      simp [insertHours, hempty]
    exact h c₁ s₁ [] hsame₁ hnone hs₁
  · refine Safe.write hk hs₁ fun c₂ s₂ rows hsame₂ hrows hs₂ => ?_
    rw [Function.update_self] at hrows
    simp only [Function.update_idem] at hs₂
    exact h c₂ s₂ rows (hsame₁.trans hsame₂) hrows hs₂

theorem Safe.writeSecurity
    {G : Rows Cell → Rows Cell → Rows Cell → Script ContributionError Unit → Prop}
    {Q : Unit → Rows Cell → Connection Cell → Prop} {security : List SecurityFeature}
    (hD : D.guard = Key.guard) (hid : .location id ∈ locks)
    (hs : Inside D since locks relied F s)
    (h : ∀ c' s' rows, Undisturbed D locks relied c c' →
      upsertSecurityRows (F c' (.security id)) security = rows →
      Inside D since locks relied (fun c => Function.update (F c) (.security id) rows) s' →
      Q () c' s') :
    Safe D G Q (writeSecurity id security) c s :=
  Safe.write (by rwa [hD]) hs fun c' s' rows hsame hrows hs' =>
    h c' s' rows hsame (Except.ok.inj hrows) hs'

/-- `create` commits what `Created` says. -/
theorem create_safe
    {G : Rows Cell → Rows Cell → Rows Cell → Script ContributionError Nat → Prop}
    {Q : Nat → Rows Cell → Connection Cell → Prop} (hD : D.guard = Key.guard)
    (hs : Outside relied s) (n : Nat) (new : NewParkingLocation) (creator : UserId)
    (now clock : Instant)
    (hG : ∀ a since c c', Created n new creator now clock c c' → G since c c' (pure a))
    (hQ : ∀ a c c' s', Created n new creator now clock c c' → Outside relied s' → Q a c' s') :
    Safe D G Q (create n new creator now clock) c s := by
  rw [create]
  cases htz : new.timezone with
  | none => exact safe_throw _
  | some tz =>
    refine Safe.transaction (P := fun _ _ => Created n new creator now clock) hs hG
      (fun a _ => hQ a) fun c₀ s₀ _ hs => ?_
    rw [safe_bind]
    refine Safe.insertLocation hD hs fun c₁ s₁ hsame₁ hvacant hs₁ => ?_
    have hlock : Key.location n ∈ [Key.location n] := List.mem_cons_self ..
    rw [safe_bind]
    refine Safe.writeHours hD hlock hs₁ fun c₂ s₂ hours hsame₂ hhours hs₂ => ?_
    rw [safe_bind]
    refine Safe.writeSecurity hD hlock hs₂ fun c₃ s₃ security hsame₃ hsecurity hs₃ => ?_
    rw [safe_bind]
    refine Safe.insertRevision hD hlock hs₃ fun c₄ s₄ hsame₄ hfresh hs₄ => ?_
    refine hs₄.commits fun c₅ hsame₅ => ?_
    have hlast := Kept.of hD (List.mem_cons_of_mem _ hlock) hsame₅
    have hlater := (Kept.of hD hlock hsame₄).trans hlast
    refine ⟨tz, hours, htz, hhours, ?_, ?_, ?_⟩
    · rw [(Kept.of hD hlock (hsame₂.trans hsame₃)).trans hlater _ rfl, hvacant]
    · rw [hlast _ rfl]
      simpa [createdRevision] using hfresh
    · rw [hlater (.security n) rfl, ← hsecurity]
      simp [revise]

/-- `applyEdit` commits what `Edited` says. -/
theorem applyEdit_safe
    {G : Rows Cell → Rows Cell → Rows Cell → Script ContributionError Int → Prop}
    {Q : Int → Rows Cell → Connection Cell → Prop} (hD : D.guard = Key.guard)
    (hs : Outside relied s) (id : Nat) (expectedVersion : Int) (edit : ParkingEdit)
    (editor : UserId) (now clock : Instant)
    (hG : ∀ a since c c', Edited id expectedVersion edit editor now clock c c' →
      G since c c' (pure a))
    (hQ : ∀ a c c' s', Edited id expectedVersion edit editor now clock c c' →
      Outside relied s' → Q a c' s') :
    Safe D G Q (applyEdit id expectedVersion edit editor now clock) c s := by
  refine Safe.transaction (P := fun _ _ => Edited id expectedVersion edit editor now clock) hs hG
    (fun a _ => hQ a) fun c₀ s₀ _ hs => ?_
  rw [safe_bind]
  refine Safe.lockLocation hs (fun _ _ => safe_throw _) fun c₁ s₁ r _ hr hs₁ => ?_
  rw [safe_bind]
  refine Safe.require fun hactive => ?_
  rw [safe_bind]
  refine Safe.require fun hversion => ?_
  rw [safe_bind]
  refine Safe.updateLocation hD hs₁ (fun _ _ _ _ _ => safe_throw _)
    fun c₂ s₂ r₂ hsame₂ hr₂ _ hs₂ => ?_
  have hlock : Key.location id ∈ [Key.location id, Key.location id] := List.mem_cons_self ..
  have hkept₂ := Kept.of hD (List.mem_cons_self ..) hsame₂
  obtain rfl : r₂ = r := by
    rw [hkept₂ _ rfl, hr] at hr₂
    exact (Option.some.inj hr₂).symm
  rw [safe_bind]
  refine Safe.writeHours hD hlock hs₂ fun c₃ s₃ hours hsame₃ hhours hs₃ => ?_
  rw [safe_bind]
  refine Safe.writeSecurity hD hlock hs₃ fun c₄ s₄ security hsame₄ hsecurity hs₄ => ?_
  rw [safe_bind]
  refine Safe.insertRevision hD hlock hs₄ fun c₅ s₅ hsame₅ hfresh hs₅ => ?_
  refine hs₅.commits fun c₆ hsame₆ => ?_
  have hlast := Kept.of hD (List.mem_cons_of_mem _ hlock) hsame₆
  have hlater := (Kept.of hD hlock hsame₅).trans hlast
  refine ⟨r₂, hours, ?_, by simpa using hactive, by simpa using hversion, hhours, ?_, ?_⟩
  · rw [(Kept.of hD hlock (hsame₃.trans hsame₄)).trans hlater _ rfl, hkept₂ _ rfl, hr]
  · rw [hlast _ rfl]
    simpa [editedRevision, ParkingEdit.apply] using hfresh
  · rw [hlater (.security id) rfl, ← hsecurity]
    simp [revise]

/-- `createProposal` commits what `Proposed` says. -/
theorem createProposal_safe
    {G : Rows Cell → Rows Cell → Rows Cell → Script ContributionError Nat → Prop}
    {Q : Nat → Rows Cell → Connection Cell → Prop} (hD : D.guard = Key.guard)
    (hs : Outside relied s) (n : Nat) (p : NewProposal) (clock : Instant)
    (herror : ∀ since c e, G since c c (Service.throw e))
    (hG : ∀ a since c₁ c', Undisturbed D [] relied c c₁ → Proposed n p clock c₁ c' →
      G since c₁ c' (pure a))
    (hQ : ∀ a c c' s', Proposed n p clock c c' → Outside relied s' → Q a c' s') :
    Safe D G Q (createProposal n p clock) c s := by
  refine Safe.autocommit hs (fun since c e => herror since c e)
    fun c' s' a after hsame _ hs' hrows hf => ?_
  simp only [insertProposal, hrows] at hf
  split at hf
  · cases hf
  · rename_i hvacant
    obtain ⟨rfl, rfl⟩ := Prod.mk.inj (Except.ok.inj hf)
    obtain ⟨hopen, hwrites, hguard, hout⟩ := hs'.write (D := D) (k := .proposal n)
      (some (p.toRow clock)) c' (by rw [hD]; rfl)
    rw [hwrites]
    exact ⟨hopen, hG _ _ _ _ hsame ⟨hvacant, rfl⟩, hguard, hQ _ _ _ _ ⟨hvacant, rfl⟩ hout⟩

end Rules

/-! ## A failed statement is an error -/

theorem writeHours_strict (id : Nat) (hours : OpeningHours) : (writeHours id hours).Strict := by
  refine .bind (.request _ _) fun _ => ?_
  split
  · trivial
  · exact .request _ _

theorem create_strict (n : Nat) (new : NewParkingLocation) (creator : UserId)
    (now clock : Instant) : (create n new creator now clock).Strict := by
  unfold create
  split
  · trivial
  · exact strict_transaction <| .bind (.request _ _) fun _ => .bind (writeHours_strict _ _) fun _ =>
      .bind (.request _ _) fun _ => .bind (.request _ _) fun _ => .pure _

theorem applyEdit_strict (id : Nat) (expectedVersion : Int) (edit : ParkingEdit)
    (editor : UserId) (now clock : Instant) :
    (applyEdit id expectedVersion edit editor now clock).Strict := by
  refine strict_transaction (.bind (.request _ _) fun guard => ?_)
  cases guard with
  | none => trivial
  | some current =>
    refine .bind (.require _ _) fun _ => .bind (.require _ _) fun _ =>
      .bind (.request _ _) fun row => ?_
    cases row with
    | none => trivial
    | some row =>
      exact .bind (writeHours_strict _ _) fun _ => .bind (.request _ _) fun _ =>
        .bind (.request _ _) fun _ => .pure _

end BikesNest.Community
