import BikesNest.Privacy.RetentionJob
import BikesNest.Store.Migrations

/-!
# The purge of the shells

`purge_deleted_accounts` is one `DELETE` on `users`.  What it does to the other
tables is up to the foreign keys that refer to an account and to the trigger of the
audit log, as the migrations have left them.

`delete_users` runs the statement on the catalog of the migrations: it goes through
whatever the database holds, and it leaves what `deleteUsers` says.
-/

namespace BikesNest.Privacy

open Domain Community Store Relational

section Actions

variable {setting : Option String} {gone : List Nat} (t : TableName) (c : KeyColumn)

/-- `ON DELETE SET NULL` on a column that may be `NULL`. -/
theorem act_setNull (h : ∀ r, setColumn t c (reference t c r) r = r) (rows : List t.Row) :
    (catalog setting).act t gone rows (c, .setNull) =
      rows.map fun r => setColumn t c (release gone.contains (reference t c r)) r := by
  apply List.map_congr_left
  intro r _
  show (if (reference t c r).any gone.contains then setColumn t c none r else r) = _
  have hkept := h r
  cases hcolumn : reference t c r with
  | none =>
    rw [hcolumn] at hkept
    exact hkept.symm
  | some u =>
    rw [hcolumn] at hkept
    cases hgone : gone.contains u with
    | true =>
      simp only [Option.any_some, hgone, if_true, release, Option.filter, Bool.not_true,
        Bool.false_eq_true, if_false]
    | false =>
      simp only [Option.any_some, hgone, Bool.false_eq_true, if_false, release, Option.filter,
        Bool.not_false, if_true, hkept]

/-- `ON DELETE CASCADE`. -/
theorem act_cascade (rows : List t.Row) :
    (catalog setting).act t gone rows (c, .cascade) =
      rows.filter fun r => !(reference t c r).any gone.contains := rfl

end Actions

variable {db : Db} {p : UserId → User → Bool}

/-- The accounts that the statement deletes. -/
def found (db : Db) (p : UserId → User → Bool) : List UserId :=
  (db.users.rows.filter fun x => p x.1 x.2).filterMap (key .users)

theorem contains_found :
    (found db p).contains = fun u => (db.users.row u).any (p u) := by
  funext u
  rw [Bool.eq_iff_iff, List.contains_iff_mem, Option.any_eq_true]
  simp only [found, List.mem_filterMap, List.mem_filter, key, Option.some.injEq, Prod.exists]
  constructor
  · rintro ⟨i, r, ⟨hrow, hp⟩, rfl⟩
    exact ⟨r, Table.mem_rows.mp hrow, hp⟩
  · rintro ⟨r, hrow, hp⟩
    exact ⟨u, r, ⟨Table.mem_rows.mpr hrow, hp⟩, rfl⟩

/-- The rows of a table after an update of all of them. -/
theorem rows_updateAll {α : Type} (table : Table α) (f : α → α) :
    (table.update (fun _ _ => true) f).rows = table.rows.map fun x => (x.1, f x.2) := by
  rw [Table.rows_update]
  rfl

/-- A table whose rows go with their account. -/
theorem rows_cascaded {α : Type} (table : Table α) (owner : α → UserId) :
    (table.rows.filter fun x => !(some (owner x.2)).any (found db p).contains) =
      (table.delete fun _ r => (db.users.row (owner r)).any (p (owner r))).rows := by
  rw [contains_found, Table.rows_delete]
  rfl

/-- A location that forgets who is gone, with its revisions. -/
def forgetIn (gone : UserId → Bool) (rec : LocationRecord) : LocationRecord :=
  { rec with
    row := { rec.row with creatorId := release gone rec.row.creatorId }
    revisions := rec.revisions.map fun rev => { rev with editorId := release gone rev.editorId } }

theorem rows_parkingLocation (db : Db) (p : UserId → User → Bool) :
    (deleteUsers db p).parkingLocation.rows =
      db.parkingLocation.rows.map fun x =>
        (x.1, forgetIn (fun u => (db.users.row u).any (p u)) x.2) :=
  rows_updateAll db.parkingLocation _

theorem childRows_deleteUsers {α : Type} (db : Db) (p : UserId → User → Bool)
    (children : LocationRecord → List α) :
    childRows (deleteUsers db p) children =
      db.parkingLocation.rows.flatMap fun x =>
        (children (forgetIn (fun u => (db.users.row u).any (p u)) x.2)).map fun r => (x.1, r) := by
  rw [childRows, rows_parkingLocation, List.flatMap_map]

variable (db p) in
/-- What the foreign keys make of a table. -/
theorem contents_deleteUsers (setting : Option String) {t : TableName} (ht : t ≠ .users) :
    (accountActions t).foldl ((catalog setting).act t (found db p)) (db.contents t) =
      (deleteUsers db p).contents t := by
  cases t
  all_goals simp only [accountActions, List.foldl_cons, List.foldl_nil]
  case users => exact absurd rfl ht
  case authenticationIdentities => exact rows_cascaded _ AuthenticationIdentity.userId
  case sessions => exact rows_cascaded _ Session.userId
  case emailVerificationTokens => exact rows_cascaded _ EmailVerificationToken.userId
  case passwordResetTokens => exact rows_cascaded _ PasswordResetToken.userId
  case favorite => exact rows_cascaded _ Favorite.userId
  case personalDataExport => exact rows_cascaded _ PersonalDataExport.userId
  case consentRecord => exact rows_cascaded _ ConsentRecord.userId
  case auditEvents =>
    rw [act_setNull .auditEvents .actorUserId (fun _ => rfl), contains_found]
    refine Eq.trans ?_ (rows_updateAll db.auditEvents _).symm
    rfl
  case parkingProposal =>
    rw [act_setNull .parkingProposal .resolvedBy (fun _ => rfl),
      act_setNull .parkingProposal .proposerId (fun _ => rfl), List.map_map, contains_found]
    refine Eq.trans ?_ (rows_updateAll db.parkingProposal _).symm
    rfl
  case review =>
    rw [act_setNull .review .authorId (fun _ => rfl), contains_found]
    refine Eq.trans ?_ (rows_updateAll db.review _).symm
    rfl
  case verification =>
    rw [act_setNull .verification .userId (fun _ => rfl), contains_found]
    refine Eq.trans ?_ (rows_updateAll db.verification _).symm
    rfl
  case parkingPhoto =>
    rw [act_setNull .parkingPhoto .uploaderId (fun _ => rfl),
      act_setNull .parkingPhoto .reviewedBy (fun _ => rfl), List.map_map, contains_found]
    refine Eq.trans ?_ (rows_updateAll db.parkingPhoto _).symm
    rfl
  case reviewPhoto =>
    rw [act_setNull .reviewPhoto .uploaderId (fun _ => rfl),
      act_setNull .reviewPhoto .reviewedBy (fun _ => rfl), List.map_map, contains_found]
    refine Eq.trans ?_ (rows_updateAll db.reviewPhoto _).symm
    rfl
  case report =>
    rw [act_setNull .report .claimedBy (fun _ => rfl),
      act_setNull .report .resolvedBy (fun _ => rfl),
      act_setNull .report .reporterId (fun _ => rfl), List.map_map, List.map_map, contains_found]
    refine Eq.trans ?_ (rows_updateAll db.report _).symm
    rfl
  case privacyRequest =>
    rw [act_setNull .privacyRequest .userId (fun _ => rfl),
      act_setNull .privacyRequest .fulfilledBy (fun _ => rfl), List.map_map, contains_found]
    refine Eq.trans ?_ (rows_updateAll db.privacyRequest _).symm
    rfl
  case userRoles =>
    rw [act_setNull .userRoles .grantedBy (fun _ => rfl), act_cascade, contains_found]
    refine Eq.trans ?_ (rows_updateAll (db.userRoles.delete _) _).symm
    rw [Table.rows_delete]
    rfl
  case parkingLocation =>
    rw [act_setNull .parkingLocation .creatorId (fun _ => rfl), contains_found]
    show _ = (deleteUsers db p).parkingLocation.rows.map fun x => (x.1, x.2.row)
    rw [rows_parkingLocation, List.map_map]
    exact List.map_map
  case parkingRevision =>
    rw [act_setNull .parkingRevision .editorId (fun _ => rfl), contains_found]
    refine Eq.trans ?_ (childRows_deleteUsers db p LocationRecord.revisions).symm
    refine List.map_flatMap.trans (List.flatMap_congr fun x _ => ?_)
    simp only [forgetIn, List.map_map]
    rfl
  case parkingSecurity => exact (childRows_deleteUsers db p LocationRecord.security).symm
  case openingHours => exact (childRows_deleteUsers db p LocationRecord.hours).symm
  case reviewRevision => rfl
  case securityFeature => rfl

/-! ## The purge -/

/-- The account is a shell that the purge deletes. -/
def isPurged (db : Db) (cutoff : Instant) (u : UserId) : Bool :=
  (db.users.row u).any (isShell cutoff u)

/-- Every row is still there, as `forget` leaves it. -/
def Stays {α : Type} (forget : α → α) (before after : Table α) : Prop :=
  ∀ i, after.row i = (before.row i).map forget

/-- `db'` is `db` without the shells older than `cutoff`.  What the community and the
moderators wrote is there, and of its columns only the references to those shells
have changed, to `NULL`. -/
structure OnlyShellsGone (cutoff : Instant) (db db' : Db) : Prop where
  users : ∀ u r, db'.users.row u = some r ↔
    db.users.row u = some r ∧
      ¬(r.accountState = .deleted ∧ ∃ deleted, r.deletedAt = some deleted ∧ deleted < cutoff)
  locations : Stays (forgetIn (isPurged db cutoff)) db.parkingLocation db'.parkingLocation
  proposals : Stays (fun r =>
    { r with proposerId := release (isPurged db cutoff) r.proposerId
             resolvedBy := release (isPurged db cutoff) r.resolvedBy })
    db.parkingProposal db'.parkingProposal
  reviews : Stays (fun r => { r with authorId := release (isPurged db cutoff) r.authorId })
    db.review db'.review
  reviewRevisions : Stays id db.reviewRevision db'.reviewRevision
  verifications : Stays (fun r => { r with userId := release (isPurged db cutoff) r.userId })
    db.verification db'.verification
  parkingPhotos : Stays (fun r =>
    { r with uploaderId := release (isPurged db cutoff) r.uploaderId
             reviewedBy := release (isPurged db cutoff) r.reviewedBy })
    db.parkingPhoto db'.parkingPhoto
  reviewPhotos : Stays (fun r =>
    { r with uploaderId := release (isPurged db cutoff) r.uploaderId
             reviewedBy := release (isPurged db cutoff) r.reviewedBy })
    db.reviewPhoto db'.reviewPhoto
  reports : Stays (fun r =>
    { r with reporterId := release (isPurged db cutoff) r.reporterId
             claimedBy := release (isPurged db cutoff) r.claimedBy
             resolvedBy := release (isPurged db cutoff) r.resolvedBy })
    db.report db'.report
  privacyRequests : Stays (fun r =>
    { r with userId := release (isPurged db cutoff) r.userId
             fulfilledBy := release (isPurged db cutoff) r.fulfilledBy })
    db.privacyRequest db'.privacyRequest
  auditEvents : Stays (fun r =>
    { r with actorUserId := release (isPurged db cutoff) r.actorUserId })
    db.auditEvents db'.auditEvents

theorem purgeDeletedAccounts_onlyShellsGone (db : Db) (cutoff : Instant) :
    OnlyShellsGone cutoff db (purgeDeletedAccounts db cutoff).2 where
  users u r := by
    refine Table.row_delete_eq_some.trans (and_congr_right fun _ => ?_)
    rw [← Bool.not_eq_true, isShell, Bool.and_eq_true, beq_iff_eq, Option.any_eq_true]
    simp only [decide_eq_true_eq]
  locations _ := rfl
  proposals _ := rfl
  reviews _ := rfl
  reviewRevisions _ := by
    rw [Option.map_id]
    rfl
  verifications _ := rfl
  parkingPhotos _ := rfl
  reviewPhotos _ := rfl
  reports _ := rfl
  privacyRequests _ := rfl
  auditEvents _ := rfl

/-- `DELETE FROM users` goes through whatever the database holds and whatever the
session has set, and it leaves what `deleteUsers` says. -/
theorem delete_users (setting : Option String) (db : Db) (p : UserId → User → Bool) (fuel : Nat) :
    (catalog setting).delete (25 + fuel) .users (fun x => p x.1 x.2) db.contents =
      some (.ok (db.users.affected p, (deleteUsers db p).contents)) := by
  have hfuel : ((catalog setting).schema.referencing .users).length ≤ 25 + fuel := by
    rw [show ((catalog setting).schema.referencing .users).length = 25 from
      length_referencing_users]
    omega
  rw [Catalog.delete_of_yields (fun _ => rfl) (catalog_yields setting) hfuel]
  congr 2
  refine Prod.ext rfl (funext fun t => ?_)
  show (schema.actionsOn .users t).foldl _ _ = _
  rw [actionsOn_users]
  by_cases ht : t = .users
  · subst ht
    exact (Function.update_self ..).trans (Table.rows_delete db.users p).symm
  · rw [Function.update_of_ne ht]
    exact contents_deleteUsers db p setting ht

/-- The hard purge succeeds on every database and takes the shells of deleted
accounts only: the statement, run on the foreign keys and the trigger of the
migrations, ends in a database where nothing else is gone. -/
theorem purge_takes_only_shells (setting : Option String) (db : Db) (cutoff : Instant)
    (fuel : Nat) :
    (catalog setting).delete (25 + fuel) .users (fun x => isShell cutoff x.1 x.2) db.contents =
        some (.ok
          ((purgeDeletedAccounts db cutoff).1, (purgeDeletedAccounts db cutoff).2.contents)) ∧
      OnlyShellsGone cutoff db (purgeDeletedAccounts db cutoff).2 :=
  ⟨delete_users setting db (isShell cutoff) fuel, purgeDeletedAccounts_onlyShellsGone db cutoff⟩

end BikesNest.Privacy
