import BikesNest.Privacy.Anonymize

/-!
# The columns that name an account

`Column` lists every column that references `users(id)`, and `Column.cell` reads
one of its cells: the row under a key and, for the revisions of a location, the
place of the revision.

`cell_scrubbed` says what `anonymize` does to each cell, and the rest of the file
reads it off: which columns still name the erased account
(`names_scrubbed_iff`), and when the columns that name someone else are left
alone (`anonymize_frame_iff`).
-/

namespace BikesNest.Privacy

open Domain Community Store Relational

/-- A column that references `users(id)`. -/
inductive Column where
  | identityUser | sessionUser | verificationTokenUser | resetTokenUser
  | roleUser | roleGrantor
  | auditActor
  | locationCreator | revisionEditor
  | proposalProposer | proposalResolver
  | reviewAuthor
  | verificationUser
  | favoriteUser
  | parkingPhotoUploader | parkingPhotoReviewer
  | reviewPhotoUploader | reviewPhotoReviewer
  | reportReporter | reportClaimer | reportResolver
  | requestSubject | requestFulfiller
  | exportUser
  | consentUser
deriving DecidableEq

/-- The value of a cell; none when the row is not there. -/
def Column.cell (db : Db) (k : Nat × Nat) : Column → Option (Option UserId)
  | .identityUser => (db.authenticationIdentities.row k.1).map fun r => some r.userId
  | .sessionUser => (db.sessions.row k.1).map fun r => some r.userId
  | .verificationTokenUser => (db.emailVerificationTokens.row k.1).map fun r => some r.userId
  | .resetTokenUser => (db.passwordResetTokens.row k.1).map fun r => some r.userId
  | .roleUser => (db.userRoles.row k.1).map fun r => some r.userId
  | .roleGrantor => (db.userRoles.row k.1).map UserRole.grantedBy
  | .auditActor => (db.auditEvents.row k.1).map AuditEvent.actorUserId
  | .locationCreator => (db.parkingLocation.row k.1).map fun rec => rec.row.creatorId
  | .revisionEditor => (db.parkingLocation.row k.1).bind fun rec =>
      rec.revisions[k.2]?.map ParkingRevision.editorId
  | .proposalProposer => (db.parkingProposal.row k.1).map ParkingProposal.proposerId
  | .proposalResolver => (db.parkingProposal.row k.1).map ParkingProposal.resolvedBy
  | .reviewAuthor => (db.review.row k.1).map Review.authorId
  | .verificationUser => (db.verification.row k.1).map Verification.userId
  | .favoriteUser => (db.favorite.row k.1).map fun r => some r.userId
  | .parkingPhotoUploader => (db.parkingPhoto.row k.1).map Photo.uploaderId
  | .parkingPhotoReviewer => (db.parkingPhoto.row k.1).map Photo.reviewedBy
  | .reviewPhotoUploader => (db.reviewPhoto.row k.1).map Photo.uploaderId
  | .reviewPhotoReviewer => (db.reviewPhoto.row k.1).map Photo.reviewedBy
  | .reportReporter => (db.report.row k.1).map Report.reporterId
  | .reportClaimer => (db.report.row k.1).map Report.claimedBy
  | .reportResolver => (db.report.row k.1).map Report.resolvedBy
  | .requestSubject => (db.privacyRequest.row k.1).map PrivacyRequest.userId
  | .requestFulfiller => (db.privacyRequest.row k.1).map PrivacyRequest.fulfilledBy
  | .exportUser => (db.personalDataExport.row k.1).map fun r => some r.userId
  | .consentUser => (db.consentRecord.row k.1).map fun r => some r.userId

/-- The columns that `anonymize` has no statement for. -/
def Column.isReviewer : Column → Bool
  | .parkingPhotoReviewer => true
  | .reviewPhotoReviewer => true
  | _ => false

/-- The row of the cell is private activity or identity of `u`, which
`anonymize` deletes. -/
def Column.owned (db : Db) (u : UserId) (k : Nat × Nat) : Column → Bool
  | .identityUser => (db.authenticationIdentities.row k.1).any fun r => r.userId == u
  | .sessionUser => (db.sessions.row k.1).any fun r => r.userId == u
  | .verificationTokenUser => (db.emailVerificationTokens.row k.1).any fun r => r.userId == u
  | .resetTokenUser => (db.passwordResetTokens.row k.1).any fun r => r.userId == u
  | .roleUser => (db.userRoles.row k.1).any fun r => r.userId == u
  | .roleGrantor => (db.userRoles.row k.1).any fun r => r.userId == u
  | .verificationUser => (db.verification.row k.1).any fun r =>
      r.userId == some u && r.kind == .parkedHere
  | .favoriteUser => (db.favorite.row k.1).any fun r => r.userId == u
  | .exportUser => (db.personalDataExport.row k.1).any fun r => r.userId == u
  | .consentUser => (db.consentRecord.row k.1).any fun r => r.userId == u
  | _ => false

/-- The cell belongs to a statement that nulls several columns of a row at
once, and the row names `u`. -/
def Column.wiped (db : Db) (u : UserId) (k : Nat × Nat) : Column → Bool
  | .proposalProposer => (db.parkingProposal.row k.1).any (ParkingProposal.names u)
  | .proposalResolver => (db.parkingProposal.row k.1).any (ParkingProposal.names u)
  | .reportReporter => (db.report.row k.1).any (Report.names u)
  | .reportClaimer => (db.report.row k.1).any (Report.names u)
  | .reportResolver => (db.report.row k.1).any (Report.names u)
  | .requestSubject => (db.privacyRequest.row k.1).any (PrivacyRequest.names u)
  | .requestFulfiller => (db.privacyRequest.row k.1).any (PrivacyRequest.names u)
  | _ => false

/-- What `anonymize` leaves of a cell. -/
def Column.left (db : Db) (u : UserId) (k : Nat × Nat) (c : Column) : Option (Option UserId) :=
  if c.owned db u k then none
  else (c.cell db k).map fun value =>
    if c.isReviewer then value else if c.wiped db u k then none else forget u value

/-! ## What one statement does to a cell -/

section Statements

variable {ρ : Type} {u : UserId}

theorem forget_of_ne {x : Option UserId} (h : x ≠ some u) : forget u x = x := by
  simp [forget, h]

/-- `DELETE … WHERE f = u`. -/
theorem map_filter_owner (row : Option ρ) (f : ρ → UserId) :
    ((row.filter fun r => !(f r == u)).map fun r => some (f r)) =
      if row.any (fun r => f r == u) then none
      else (row.map fun r => some (f r)).map (forget u) := by
  cases row with
  | none => rfl
  | some r =>
    by_cases h : f r = u
    · simp [Option.filter, h]
    · simp [Option.filter, h, forget_of_ne]

/-- `UPDATE … SET col = NULL WHERE col = u`. -/
theorem map_update_forget (row : Option ρ) {col : ρ → Option UserId} {f : ρ → ρ}
    (hf : ∀ r, col (f r) = none) :
    (row.map fun r => if col r == some u then f r else r).map col =
      (row.map col).map (forget u) := by
  cases row with
  | none => rfl
  | some r =>
    by_cases h : col r = some u
    · simp [h, hf]
    · simp [h, forget_of_ne]

/-- `UPDATE … SET col = NULL, … WHERE col = u OR …`. -/
theorem map_update_wipe (row : Option ρ) {col : ρ → Option UserId} {names : ρ → Bool}
    {f : ρ → ρ} (hf : ∀ r, col (f r) = none) (hnames : ∀ r, names r = false → col r ≠ some u) :
    (row.map fun r => if names r then f r else r).map col =
      (row.map col).map fun value => if row.any names then none else forget u value := by
  cases row with
  | none => rfl
  | some r =>
    cases h : names r with
    | true => simp [h, hf]
    | false => simp [h, forget_of_ne (hnames r h)]

/-- `UPDATE … SET …` of other columns. -/
theorem map_update_keep {α : Type} (row : Option ρ) {col : ρ → α} {q : ρ → Bool} {f : ρ → ρ}
    (hf : ∀ r, col (f r) = col r) :
    (row.map fun r => if q r then f r else r).map col = row.map col := by
  rw [Option.map_map]
  congr 1
  funext r
  simp only [Function.comp_apply]
  split
  · exact hf r
  · rfl

end Statements

/-! ## What all statements do to a cell -/

variable {db db' : Db} {u v : UserId} {now : Instant} {k : Nat × Nat}

theorem cell_scrubbed (db : Db) (u : UserId) (now : Instant) (k : Nat × Nat) (c : Column) :
    c.cell (scrubbed db u now) k = c.left db u k := by
  cases c with
  -- rows that go with the account
  | identityUser => exact map_filter_owner _ _
  | sessionUser => exact map_filter_owner _ _
  | verificationTokenUser => exact map_filter_owner _ _
  | resetTokenUser => exact map_filter_owner _ _
  | favoriteUser => exact map_filter_owner _ _
  | exportUser => exact map_filter_owner _ _
  | consentUser => exact map_filter_owner _ _
  -- two statements on one table
  | roleUser =>
    refine (map_update_keep _ ?_).trans (map_filter_owner (db.userRoles.row k.1) UserRole.userId)
    exact fun _ => rfl
  | roleGrantor =>
    refine (map_update_forget _ fun _ => rfl).trans ?_
    cases h : db.userRoles.row k.1 with
    | none => simp [Column.left, Column.owned, Column.cell, h]
    | some r =>
      by_cases hown : r.userId = u <;>
        simp [Column.left, Column.owned, Column.cell, Column.isReviewer, Column.wiped,
          Option.filter, h, hown]
  | verificationUser =>
    cases h : db.verification.row k.1 with
    | none => simp [Column.left, Column.cell, scrubbed, h]
    | some r =>
      by_cases hown : r.userId = some u <;> by_cases hkind : r.kind = .parkedHere <;>
        simp [Column.left, Column.owned, Column.cell, Column.isReviewer, Column.wiped, scrubbed,
          Option.filter, h, hown, hkind, forget_of_ne]
  -- one column of a row that stays
  | reviewAuthor => exact map_update_forget _ fun _ => rfl
  | parkingPhotoUploader => exact map_update_forget _ fun _ => rfl
  | reviewPhotoUploader => exact map_update_forget _ fun _ => rfl
  | auditActor =>
    show ((db.auditEvents.row k.1).map _).map _ = ((db.auditEvents.row k.1).map _).map _
    rw [Option.map_map, Option.map_map]
    rfl
  | locationCreator =>
    show ((db.parkingLocation.row k.1).map _).map _ = ((db.parkingLocation.row k.1).map _).map _
    rw [Option.map_map, Option.map_map]
    rfl
  | revisionEditor =>
    show ((db.parkingLocation.row k.1).map _).bind _ = ((db.parkingLocation.row k.1).bind _).map _
    cases db.parkingLocation.row k.1 with
    | none => rfl
    | some rec => simp [LocationRecord.scrubbed, Column.isReviewer, Column.wiped]; rfl
  -- rows that name several people
  | proposalProposer =>
    exact map_update_wipe _ (fun _ => rfl) fun r h => by simp_all [ParkingProposal.names]
  | proposalResolver =>
    exact map_update_wipe _ (fun _ => rfl) fun r h => by simp_all [ParkingProposal.names]
  | reportReporter => exact map_update_wipe _ (fun _ => rfl) fun r h => by simp_all [Report.names]
  | reportClaimer => exact map_update_wipe _ (fun _ => rfl) fun r h => by simp_all [Report.names]
  | reportResolver => exact map_update_wipe _ (fun _ => rfl) fun r h => by simp_all [Report.names]
  | requestSubject =>
    exact map_update_wipe _ (fun _ => rfl) fun r h => by simp_all [PrivacyRequest.names]
  | requestFulfiller =>
    exact map_update_wipe _ (fun _ => rfl) fun r h => by simp_all [PrivacyRequest.names]
  -- columns without a statement
  | parkingPhotoReviewer =>
    refine (map_update_keep _ ?_).trans Option.map_id'.symm
    exact fun _ => rfl
  | reviewPhotoReviewer =>
    refine (map_update_keep _ ?_).trans Option.map_id'.symm
    exact fun _ => rfl

/-! ## The erased account -/

/-- The column names `u` in some row. -/
def Column.Names (db : Db) (c : Column) (u : UserId) : Prop := ∃ k, c.cell db k = some (some u)

theorem owned_of_isReviewer {c : Column} (h : c.isReviewer = true) : c.owned db u k = false := by
  cases c <;> first | rfl | cases h

/-- After the statements only a reviewer of photos still names the account. -/
theorem names_scrubbed_iff (c : Column) :
    c.Names (scrubbed db u now) u ↔ c.isReviewer = true ∧ c.Names db u := by
  constructor
  · rintro ⟨k, hk⟩
    rw [cell_scrubbed, Column.left] at hk
    split at hk
    · cases hk
    obtain ⟨value, hvalue, hleft⟩ := Option.map_eq_some_iff.mp hk
    split at hleft
    · rename_i hreviewer
      exact ⟨hreviewer, k, by rw [hvalue, hleft]⟩
    · split at hleft
      · cases hleft
      · exact absurd hleft (forget_ne_some u value)
  · rintro ⟨hreviewer, k, hk⟩
    refine ⟨k, ?_⟩
    rw [cell_scrubbed, Column.left, owned_of_isReviewer hreviewer, hk]
    simp [hreviewer]

/-! ## Everybody else -/

/-- A proposal, a report or a privacy request names both accounts. -/
def together (db : Db) (u v : UserId) : Bool :=
  (db.parkingProposal.any fun _ r => ParkingProposal.names u r && ParkingProposal.names v r) ||
  (db.report.any fun _ r => Report.names u r && Report.names v r) ||
  (db.privacyRequest.any fun _ r => PrivacyRequest.names u r && PrivacyRequest.names v r)

/-- Every cell that names `v` before still does so after.  The roles of `u` go
with `u`, and with them who granted them. -/
def LeavesAlone (u v : UserId) (db db' : Db) : Prop :=
  ∀ (c : Column) k, c.cell db k = some (some v) →
    c.cell db' k = some (some v) ∨
      (c = .roleGrantor ∧ Column.roleUser.cell db k = some (some u))

/-- A column of a row that is not wiped keeps every name but `u`. -/
theorem cell_scrubbed_of_not_wiped {c : Column} (hne : v ≠ u)
    (hcell : c.cell db k = some (some v)) (hwiped : c.wiped db u k = false) :
    c.cell (scrubbed db u now) k = some (some v) ∨ c.owned db u k = true := by
  rw [cell_scrubbed, Column.left, hcell]
  cases hown : c.owned db u k with
  | true => exact Or.inr rfl
  | false =>
    refine Or.inl ?_
    simp only [Bool.false_eq_true, if_false, Option.map_some, hwiped]
    split
    · rfl
    · rw [(forget_eq_some hne).mpr rfl]

/-- A row that goes with `u` and names someone else is a role of `u`. -/
theorem owned_names_other {c : Column} (hne : v ≠ u) (hcell : c.cell db k = some (some v))
    (hown : c.owned db u k = true) :
    c = .roleGrantor ∧ Column.roleUser.cell db k = some (some u) := by
  cases c with
  | roleGrantor =>
    obtain ⟨r, hr, hr'⟩ := (Option.any_eq_true ..).mp hown
    simp_all [Column.cell]
  | identityUser | sessionUser | verificationTokenUser | resetTokenUser | roleUser
  | verificationUser | favoriteUser | exportUser | consentUser =>
    obtain ⟨r, hr, hr'⟩ := (Option.any_eq_true ..).mp hown
    simp_all [Column.cell]
  | _ => cases hown

/-- A cell that names `v` is wiped exactly in a row that names both. -/
theorem wiped_names_other {c : Column} (hcell : c.cell db k = some (some v))
    (hwiped : c.wiped db u k = true) : together db u v = true := by
  simp only [together, Bool.or_eq_true, Table.any_iff, Bool.and_eq_true]
  cases c with
  | proposalProposer | proposalResolver =>
    obtain ⟨r, hr, hu⟩ := (Option.any_eq_true ..).mp hwiped
    refine Or.inl (Or.inl ⟨k.1, r, hr, hu, ?_⟩)
    simp_all [Column.cell, ParkingProposal.names]
  | reportReporter | reportClaimer | reportResolver =>
    obtain ⟨r, hr, hu⟩ := (Option.any_eq_true ..).mp hwiped
    refine Or.inl (Or.inr ⟨k.1, r, hr, hu, ?_⟩)
    simp_all [Column.cell, Report.names]
  | requestSubject | requestFulfiller =>
    obtain ⟨r, hr, hu⟩ := (Option.any_eq_true ..).mp hwiped
    refine Or.inr ⟨k.1, r, hr, hu, ?_⟩
    simp_all [Column.cell, PrivacyRequest.names]
  | _ => cases hwiped

/-- A cell that is wiped names nobody afterwards. -/
theorem cell_scrubbed_of_wiped {c : Column} {value : Option UserId}
    (hcell : c.cell db k = some value) (hwiped : c.wiped db u k = true) :
    c.cell (scrubbed db u now) k = some none := by
  have hown : c.owned db u k = false := by
    cases c <;> first | rfl | cases hwiped
  have hreviewer : c.isReviewer = false := by
    cases c <;> first | rfl | cases hwiped
  rw [cell_scrubbed, Column.left, hown, hcell]
  simp [hreviewer, hwiped]

/-- A row that names both loses a cell that names `v`. -/
theorem not_leavesAlone_of_together (h : together db u v = true) :
    ¬ LeavesAlone u v db (scrubbed db u now) := by
  have hlost : ∀ (c : Column) (k : Nat × Nat), c.cell db k = some (some v) →
      c.wiped db u k = true → ¬ LeavesAlone u v db (scrubbed db u now) := by
    intro c k hcell hwiped hkept
    rcases hkept c k hcell with hsame | ⟨rfl, _⟩
    · rw [cell_scrubbed_of_wiped hcell hwiped] at hsame
      cases hsame
    · cases hwiped
  simp only [together, Bool.or_eq_true, Table.any_iff, Bool.and_eq_true] at h
  rcases h with (⟨i, r, hr, hu, hv⟩ | ⟨i, r, hr, hu, hv⟩) | ⟨i, r, hr, hu, hv⟩
  · simp only [ParkingProposal.names, Bool.or_eq_true, beq_iff_eq] at hv
    rcases hv with hv | hv
    · exact hlost .proposalProposer (i, 0) (by simp [Column.cell, hr, hv])
        (by simp [Column.wiped, hr, hu])
    · exact hlost .proposalResolver (i, 0) (by simp [Column.cell, hr, hv])
        (by simp [Column.wiped, hr, hu])
  · simp only [Report.names, Bool.or_eq_true, beq_iff_eq] at hv
    rcases hv with (hv | hv) | hv
    · exact hlost .reportReporter (i, 0) (by simp [Column.cell, hr, hv])
        (by simp [Column.wiped, hr, hu])
    · exact hlost .reportClaimer (i, 0) (by simp [Column.cell, hr, hv])
        (by simp [Column.wiped, hr, hu])
    · exact hlost .reportResolver (i, 0) (by simp [Column.cell, hr, hv])
        (by simp [Column.wiped, hr, hu])
  · simp only [PrivacyRequest.names, Bool.or_eq_true, beq_iff_eq] at hv
    rcases hv with hv | hv
    · exact hlost .requestSubject (i, 0) (by simp [Column.cell, hr, hv])
        (by simp [Column.wiped, hr, hu])
    · exact hlost .requestFulfiller (i, 0) (by simp [Column.cell, hr, hv])
        (by simp [Column.wiped, hr, hu])

/-- Erasing `u` leaves alone what names `v` exactly when no proposal, report or
privacy request names both. -/
theorem anonymize_frame_iff {cases : Text.CaseMap} {report : AnonymizationReport} (hne : v ≠ u)
    (h : anonymize cases db u now = .ok (report, db')) :
    LeavesAlone u v db db' ↔ together db u v = false := by
  rw [(anonymize_eq_ok h).1]
  constructor
  · intro hkept
    by_contra htogether
    exact not_leavesAlone_of_together (by simpa using htogether) hkept
  · intro hapart c k hcell
    have hwiped : c.wiped db u k = false := by
      by_contra hwiped
      rw [wiped_names_other hcell (by simpa using hwiped)] at hapart
      cases hapart
    rcases cell_scrubbed_of_not_wiped hne hcell hwiped with hkept | hown
    · exact Or.inl hkept
    · exact Or.inr (owned_names_other hne hcell hown)

/-- A reader who reported a place and a moderator who resolved the report. -/
def resolvedReport : Db :=
  { Db.empty 0 with
    users := (Table.empty.insert
      { email := "rider@example.com", displayName := none, accountState := .active
        locale := .en, createdAt := 0 }).insert
      { email := "mod@example.com", displayName := none, accountState := .active
        locale := .en, createdAt := 0 }
    report := Table.empty.insert
      { reporterId := some 1, targetType := .parking, targetId := 1, reason := "wrong_location"
        description := none, state := .resolved, claimedBy := some 2, resolvedBy := some 2
        resolutionNote := some "Moved.", createdAt := 0 } }

/-- The same without the report, and a review of each. -/
def twoReviews : Db :=
  { resolvedReport with
    report := Table.empty
    review := (Table.empty.insert
      { locationId := 1, authorId := some 1, rating := 4, body := "Good.", createdAt := 0
        updatedAt := 0 }).insert
      { locationId := 1, authorId := some 2, rating := 5, body := "Fine.", createdAt := 0
        updatedAt := 0 } }

/-- Erasing the author of the first review leaves the second author's name. -/
theorem anonymize_frame_iff_reviews : LeavesAlone 1 2 twoReviews (scrubbed twoReviews 1 0) := by
  have hok : anonymize .ascii twoReviews 1 0 =
      .ok (anonymizationReport twoReviews 1, scrubbed twoReviews 1 0) := rfl
  exact (anonymize_frame_iff (by decide) hok).mpr (by decide)

/-- Erasing the reporter erases who claimed and who resolved the report. -/
theorem resolver_erased_with_reporter :
    ∃ report db', anonymize .ascii resolvedReport 1 0 = .ok (report, db') ∧
      ¬ LeavesAlone 1 2 resolvedReport db' := by
  refine ⟨_, _, rfl, fun h => ?_⟩
  rcases h .reportResolver (1, 0) rfl with hkept | ⟨hgrantor, _⟩
  · exact absurd hkept (by decide)
  · cases hgrantor

end BikesNest.Privacy
