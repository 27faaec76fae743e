import BikesNest.Lib.Extract
import BikesNest.Privacy.Export
import BikesNest.Store.Migrations
import Mathlib.Data.Prod.Lex
import Mathlib.Data.String.Basic

/-!
# What is in an export

`assemble_payload` reads the sections of an export in one snapshot.  The revisions of all
reviews come from one query and are taken apart in a map.

* `exportReviews_eq`: every review has its own revisions under it, as one query for each of
  them would find them.
* `assemblePayload_onlyOwn`: the export of an account can be assembled where there are no
  other rows than its own, and no hash and no token.
* `assemblePayload_erased`: after an erasure the export of the account is empty, and the
  export of another account has lost nothing but the proposals and reports that the erased
  account had a hand in as a moderator.
-/

namespace BikesNest.Privacy

open Domain Community Store Relational
open Keyset (ordered)
open Relational.Table (scanned)

/-! ## The document -/

structure ExportAccount where
  userId : UserId
  email : String
  displayName : Option String
  accountState : AccountState
  emailVerifiedAt : Option Instant
  createdAt : Instant
  roles : List Role

structure ExportProvider where
  provider : AuthenticationProvider
  subject : String
  emailVerified : Bool

structure ExportSession where
  createdAt : Instant
  lastSeenAt : Instant
  expiresAt : Instant

structure ExportFavorite where
  locationId : Nat
  createdAt : Instant

structure ExportReviewRevision where
  rating : Nat
  body : String
  editedAt : Instant

structure ExportReview where
  id : Nat
  locationId : Nat
  rating : Nat
  body : String
  moderationState : ReviewState
  createdAt : Instant
  updatedAt : Instant
  revisions : List ExportReviewRevision

structure ExportVerification where
  locationId : Nat
  kind : VerificationKind
  result : String
  attributeCode : Option String
  createdAt : Instant

structure ExportProposal where
  locationId : Nat
  baseVersion : Int
  kind : ProposalKind
  proposed : Json
  status : ProposalStatus
  createdAt : Instant

structure ExportReport where
  targetType : ReportTargetType
  targetId : Nat
  reason : String
  description : Option String
  state : ReportState
  createdAt : Instant

structure ExportPhoto where
  kind : String
  locationId : Option Nat
  reviewId : Option Nat
  storageKey : String
  thumbnailKey : Option String
  contentType : Option String
  moderationState : PhotoModerationState
  createdAt : Instant

structure ExportPayload where
  schemaVersion : Nat
  exportedAt : Instant
  account : ExportAccount
  authentication : List ExportProvider
  sessions : List ExportSession
  favorites : List ExportFavorite
  reviews : List ExportReview
  verifications : List ExportVerification
  proposals : List ExportProposal
  reports : List ExportReport
  photos : List ExportPhoto

/-! ## The sections -/

/-- Where the rows of the tables lie, which is the order of what no query orders. -/
abbrev Places := TableName → Nat → Nat

/-- The code of a role in its column. -/
def roleCode : Role → String
  | .user => "USER"
  | .moderator => "MODERATOR"
  | .admin => "ADMIN"

def exportRoles (places : Places) (db : Db) (u : UserId) : List Role :=
  db.userRoles.extract (places .userRoles) (fun r => r.userId == u)
    (fun r => roleCode r.role) fun _ r => r.role

/-- The identities come in no order that was asked for. -/
def exportAuthentication (places : Places) (db : Db) (u : UserId) : List ExportProvider :=
  db.authenticationIdentities.extract (places .authenticationIdentities)
    (fun r => r.userId == u) (fun _ => ()) fun _ r =>
    { provider := r.provider, subject := r.providerSubject
      emailVerified := (db.users.row u).any fun user => user.emailVerifiedAt.isSome }

def exportSessions (places : Places) (db : Db) (u : UserId) : List ExportSession :=
  db.sessions.extract (places .sessions) (fun r => r.userId == u) (fun r => r.createdAt) fun _ r =>
    { createdAt := r.createdAt, lastSeenAt := r.lastSeenAt, expiresAt := r.expiresAt }

def exportFavorites (places : Places) (db : Db) (u : UserId) : List ExportFavorite :=
  db.favorite.extract (places .favorite) (fun r => r.userId == u) (fun r => r.createdAt) fun _ r =>
    { locationId := r.locationId, createdAt := r.createdAt }

def revisionView (r : ReviewRevision) : ExportReviewRevision :=
  { rating := r.rating, body := r.body, editedAt := r.editedAt }

def reviewView (id : Nat) (r : Review) (revisions : List ExportReviewRevision) : ExportReview :=
  { id, locationId := r.locationId, rating := r.rating, body := r.body
    moderationState := r.moderationState, createdAt := r.createdAt, updatedAt := r.updatedAt
    revisions }

/-- The reviews, with one query for the revisions of all of them. -/
def exportReviews (places : Places) (db : Db) (u : UserId) : List ExportReview :=
  let rows := ordered (fun x => x.2.createdAt)
    (scanned (places .review) (db.review.select fun _ r => r.authorId == some u))
  let reviewIds := rows.map Prod.fst
  let byReview : Nat → List ExportReviewRevision :=
    if reviewIds = [] then fun _ => []
    else Table.pack ((ordered (fun x => toLex (x.2.reviewId, x.2.editedAt))
      (scanned (places .reviewRevision)
        (db.reviewRevision.select fun _ r => reviewIds.contains r.reviewId))).map fun x =>
        (x.2.reviewId, revisionView x.2))
  (Table.unpack rows byReview).map fun x => reviewView x.1 x.2.1 x.2.2

def exportVerifications (places : Places) (db : Db) (u : UserId) : List ExportVerification :=
  db.verification.extract (places .verification) (fun r => r.userId == some u)
    (fun r => r.createdAt) fun _ r =>
    { locationId := r.locationId, kind := r.kind, result := r.result
      attributeCode := r.attributeCode, createdAt := r.createdAt }

def exportProposals (places : Places) (db : Db) (u : UserId) : List ExportProposal :=
  db.parkingProposal.extract (places .parkingProposal) (fun r => r.proposerId == some u)
    (fun r => r.createdAt) fun _ r =>
    { locationId := r.locationId, baseVersion := r.baseVersion, kind := r.kind
      proposed := r.proposed, status := r.status, createdAt := r.createdAt }

def exportReports (places : Places) (db : Db) (u : UserId) : List ExportReport :=
  db.report.extract (places .report) (fun r => r.reporterId == some u)
    (fun r => r.createdAt) fun _ r =>
    { targetType := r.targetType, targetId := r.targetId, reason := r.reason
      description := r.description, state := r.state, createdAt := r.createdAt }

/-- The photos of one table. -/
def exportPhotosOf (table : Table Photo) (place : Nat → Nat) (u : UserId)
    (view : Photo → ExportPhoto) : List ExportPhoto :=
  table.extract place (fun r => r.uploaderId == some u) (fun r => r.createdAt) fun _ r => view r

def parkingPhotoView (r : Photo) : ExportPhoto :=
  { kind := "parking", locationId := some r.parentId, reviewId := none
    storageKey := r.storageKey, thumbnailKey := r.thumbnailKey
    contentType := some r.contentType, moderationState := r.moderationState
    createdAt := r.createdAt }

def reviewPhotoView (r : Photo) : ExportPhoto :=
  { kind := "review", locationId := none, reviewId := some r.parentId
    storageKey := r.storageKey, thumbnailKey := r.thumbnailKey
    contentType := none, moderationState := r.moderationState, createdAt := r.createdAt }

def exportPhotos (places : Places) (db : Db) (u : UserId) : List ExportPhoto :=
  exportPhotosOf db.parkingPhoto (places .parkingPhoto) u parkingPhotoView ++
    exportPhotosOf db.reviewPhoto (places .reviewPhoto) u reviewPhotoView

/-- `assemble_payload`: all sections of one state of the database. -/
def assemblePayload (places : Places) (db : Db) (u : UserId) (now : Instant) :
    Except PrivacyError ExportPayload :=
  match db.users.row u with
  | none => .error .notFound
  | some row => .ok
    { schemaVersion := 1
      exportedAt := now
      account :=
        { userId := u, email := row.email, displayName := row.displayName
          accountState := row.accountState, emailVerifiedAt := row.emailVerifiedAt
          createdAt := row.createdAt, roles := exportRoles places db u }
      authentication := exportAuthentication places db u
      sessions := exportSessions places db u
      favorites := exportFavorites places db u
      reviews := exportReviews places db u
      verifications := exportVerifications places db u
      proposals := exportProposals places db u
      reports := exportReports places db u
      photos := exportPhotos places db u }

/-! ## Reviews and their revisions -/

/-- The revisions of one review, the oldest first. -/
def revisionsOf (places : Places) (db : Db) (id : Nat) : List ExportReviewRevision :=
  db.reviewRevision.extract (places .reviewRevision) (fun r => r.reviewId == id)
    (fun r => r.editedAt) fun _ r => revisionView r

/-- The one query and the map give each review what its own query would give. -/
theorem exportReviews_eq (places : Places) (db : Db) (u : UserId) :
    exportReviews places db u =
      db.review.extract (places .review) (fun r => r.authorId == some u) (fun r => r.createdAt)
        fun id r => reviewView id r (revisionsOf places db id) := by
  have hnodup : ((ordered (fun x : Nat × Review => x.2.createdAt) (scanned (places .review)
      (db.review.select fun _ r => r.authorId == some u))).map Prod.fst).Nodup := by
    refine ((Keyset.ordered_perm.map Prod.fst).nodup_iff).mpr ?_
    refine ((Keyset.ordered_perm.map Prod.fst).nodup_iff).mpr ?_
    exact db.review.nodup_keys.sublist (List.filter_sublist.map Prod.fst)
  rw [exportReviews, Table.extract, Table.unpack_eq hnodup, List.map_map]
  apply List.map_congr_left
  intro x hx
  have hid : x.1 ∈ (ordered (fun x : Nat × Review => x.2.createdAt) (scanned (places .review)
      (db.review.select fun _ r => r.authorId == some u))).map Prod.fst :=
    List.mem_map.mpr ⟨x, hx, rfl⟩
  generalize (ordered (fun x : Nat × Review => x.2.createdAt) (scanned (places .review)
    (db.review.select fun _ r => r.authorId == some u))).map Prod.fst = ids at hid ⊢
  have hne : ids ≠ [] := List.ne_nil_of_mem hid
  have hselect : (db.reviewRevision.select fun _ r => ids.contains r.reviewId).filter
      (fun y => y.2.reviewId = x.1) = db.reviewRevision.select fun _ r => r.reviewId == x.1 := by
    rw [Table.select, Table.select, List.filter_filter]
    apply List.filter_congr
    intro y _
    by_cases hy : y.2.reviewId = x.1
    · simp [hy, hid]
    · simp [hy]
  -- Among the revisions of one review the first column of the order says nothing.
  have horder : ordered (fun y : Nat × ReviewRevision => toLex (y.2.reviewId, y.2.editedAt))
      (scanned (places .reviewRevision)
        (db.reviewRevision.select fun _ r => r.reviewId == x.1)) =
      ordered (fun y => y.2.editedAt) (scanned (places .reviewRevision)
        (db.reviewRevision.select fun _ r => r.reviewId == x.1)) := by
    apply Keyset.ordered_congr
    intro a ha b hb
    have ha : a.2.reviewId = x.1 := by
      simpa using (Table.mem_select.mp (Table.mem_scanned.mp ha)).2
    have hb : b.2.reviewId = x.1 := by
      simpa using (Table.mem_select.mp (Table.mem_scanned.mp hb)).2
    rw [ha, hb, Prod.Lex.toLex_le_toLex]
    simp
  have hpack : Table.pack ((ordered (fun y : Nat × ReviewRevision =>
      toLex (y.2.reviewId, y.2.editedAt)) (scanned (places .reviewRevision)
        (db.reviewRevision.select fun _ r => ids.contains r.reviewId))).map fun y =>
        (y.2.reviewId, revisionView y.2)) x.1 = revisionsOf places db x.1 := by
    rw [Table.pack_eq, List.filter_map, List.map_map]
    have hfilter : ((fun y : Nat × ExportReviewRevision => decide (y.1 = x.1)) ∘
        fun y : Nat × ReviewRevision => (y.2.reviewId, revisionView y.2)) =
        fun y => decide (y.2.reviewId = x.1) := rfl
    rw [hfilter, Keyset.filter_ordered, scanned, Keyset.filter_ordered, hselect]
    rw [← scanned, horder]
    rfl
  rw [if_neg hne]
  exact congrArg (reviewView x.1 x.2) hpack

/-! ## Nobody else's data -/

variable (places : Places)

/-- Does the row belong to the review of an account? -/
def isRevisionBy (db : Db) (u : UserId) (r : ReviewRevision) : Bool :=
  (db.review.row r.reviewId).any fun review => review.authorId == some u

/-- A database with nothing but the rows of an account, and in them neither hash nor token
nor another account. -/
def onlyOwn (db : Db) (u : UserId) : Db :=
  { Db.empty db.now with
    users := db.users.only (fun i _ => i == u) fun r =>
      { r with suspendedAt := none, deletedAt := none, locale := .en }
    authenticationIdentities := db.authenticationIdentities.only (fun _ r => r.userId == u)
      fun r => { r with credentialHash := none }
    sessions := db.sessions.only (fun _ r => r.userId == u) fun r =>
      { r with tokenHash := "", csrfToken := "", revokedAt := none }
    userRoles := db.userRoles.only (fun _ r => r.userId == u) fun r =>
      { r with grantedBy := none, grantedAt := 0 }
    favorite := db.favorite.only (fun _ r => r.userId == u) id
    review := db.review.only (fun _ r => r.authorId == some u) id
    reviewRevision := db.reviewRevision.only (fun _ r => isRevisionBy db u r) id
    verification := db.verification.only (fun _ r => r.userId == some u) fun r =>
      { r with expiresAt := none }
    parkingProposal := db.parkingProposal.only (fun _ r => r.proposerId == some u) fun r =>
      { r with resolvedBy := none, resolvedAt := none }
    report := db.report.only (fun _ r => r.reporterId == some u) fun r =>
      { r with claimedBy := none, resolvedBy := none, resolutionNote := none }
    parkingPhoto := db.parkingPhoto.only (fun _ r => r.uploaderId == some u) fun r =>
      { r with reviewedBy := none, reviewedAt := none, rejectionReason := none }
    reviewPhoto := db.reviewPhoto.only (fun _ r => r.uploaderId == some u) fun r =>
      { r with reviewedBy := none, reviewedAt := none, rejectionReason := none } }

theorem row_onlyOwn (db : Db) (u : UserId) :
    (onlyOwn db u).users.row u = (db.users.row u).map fun r =>
      { r with suspendedAt := none, deletedAt := none, locale := .en } :=
  Table.row_only fun _ => beq_self_eq_true u

theorem exportReviews_onlyOwn (db : Db) (u : UserId) :
    exportReviews places (onlyOwn db u) u = exportReviews places db u := by
  rw [exportReviews_eq, exportReviews_eq]
  have hreviews : (onlyOwn db u).review.extract (places .review) (fun r => r.authorId == some u)
      (fun r => r.createdAt) (fun i r => reviewView i r (revisionsOf places (onlyOwn db u) i)) =
      db.review.extract (places .review) (fun r => r.authorId == some u) (fun r => r.createdAt)
        fun i r => reviewView i r (revisionsOf places (onlyOwn db u) i) :=
    Table.extract_only (fun _ _ _ h => h) (fun _ => rfl) (fun _ => rfl) fun _ _ => rfl
  refine hreviews.trans ?_
  apply Table.extract_congr
  intro i r hrow hauthor
  -- The revisions that are kept are those of the reviews that are kept.
  have hrevisions : revisionsOf places (onlyOwn db u) i = revisionsOf places db i := by
    apply Table.extract_only
    · intro j rev _ hof
      have hid : rev.reviewId = i := by simpa using hof
      rw [isRevisionBy, hid, hrow]
      exact hauthor
    · exact fun _ => rfl
    · exact fun _ => rfl
    · exact fun _ _ => rfl
  rw [hrevisions]

/-- An export says nothing that is not in the rows of its own account, and none of the
secrets in them. -/
theorem assemblePayload_onlyOwn (db : Db) (u : UserId) (now : Instant) :
    assemblePayload places (onlyOwn db u) u now = assemblePayload places db u now := by
  have hroles : exportRoles places (onlyOwn db u) u = exportRoles places db u :=
    Table.extract_only (fun _ _ _ h => h) (fun _ => rfl) (fun _ => rfl) fun _ _ => rfl
  have hauthentication : exportAuthentication places (onlyOwn db u) u =
      exportAuthentication places db u := by
    have hverified : ((onlyOwn db u).users.row u).any (fun user => user.emailVerifiedAt.isSome) =
        (db.users.row u).any fun user => user.emailVerifiedAt.isSome := by
      rw [row_onlyOwn]
      cases db.users.row u <;> rfl
    rw [exportAuthentication, hverified]
    exact Table.extract_only (fun _ _ _ h => h) (fun _ => rfl) (fun _ => rfl) fun _ _ => rfl
  have hsessions : exportSessions places (onlyOwn db u) u = exportSessions places db u :=
    Table.extract_only (fun _ _ _ h => h) (fun _ => rfl) (fun _ => rfl) fun _ _ => rfl
  have hfavorites : exportFavorites places (onlyOwn db u) u = exportFavorites places db u :=
    Table.extract_only (fun _ _ _ h => h) (fun _ => rfl) (fun _ => rfl) fun _ _ => rfl
  have hverifications : exportVerifications places (onlyOwn db u) u =
      exportVerifications places db u :=
    Table.extract_only (fun _ _ _ h => h) (fun _ => rfl) (fun _ => rfl) fun _ _ => rfl
  have hproposals : exportProposals places (onlyOwn db u) u = exportProposals places db u :=
    Table.extract_only (fun _ _ _ h => h) (fun _ => rfl) (fun _ => rfl) fun _ _ => rfl
  have hreports : exportReports places (onlyOwn db u) u = exportReports places db u :=
    Table.extract_only (fun _ _ _ h => h) (fun _ => rfl) (fun _ => rfl) fun _ _ => rfl
  have hparking : exportPhotosOf (onlyOwn db u).parkingPhoto (places .parkingPhoto) u
      parkingPhotoView = exportPhotosOf db.parkingPhoto (places .parkingPhoto) u parkingPhotoView :=
    Table.extract_only (fun _ _ _ h => h) (fun _ => rfl) (fun _ => rfl) fun _ _ => rfl
  have hreview : exportPhotosOf (onlyOwn db u).reviewPhoto (places .reviewPhoto) u
      reviewPhotoView = exportPhotosOf db.reviewPhoto (places .reviewPhoto) u reviewPhotoView :=
    Table.extract_only (fun _ _ _ h => h) (fun _ => rfl) (fun _ => rfl) fun _ _ => rfl
  unfold assemblePayload exportPhotos
  rw [row_onlyOwn, hroles, hauthentication, hsessions, hfavorites, exportReviews_onlyOwn,
    hverifications, hproposals, hreports, hparking, hreview]
  cases db.users.row u <;> rfl

/-! ## After an erasure -/

/-- The database without the rows that were taken from others: what the erased account had
resolved, claimed or decided as a moderator. -/
def withoutHandled (db : Db) (u : UserId) : Db :=
  { db with
    parkingProposal := db.parkingProposal.delete fun _ r => r.resolvedBy == some u
    report := db.report.delete fun _ r => r.claimedBy == some u || r.resolvedBy == some u }

/-- What is left of an account that was erased. -/
def erasedPayload (u : UserId) (createdAt now : Instant) : ExportPayload where
  schemaVersion := 1
  exportedAt := now
  account :=
    { userId := u, email := anonymizedEmail u, displayName := none, accountState := .deleted
      emailVerifiedAt := none, createdAt, roles := [] }
  authentication := []
  sessions := []
  favorites := []
  reviews := []
  verifications := []
  proposals := []
  reports := []
  photos := []

section Erased

variable {db : Db} {u v : UserId} {at' now : Instant}

theorem row_scrubbed : (scrubbed db u at').users.row v =
    (db.users.row v).map fun r => if v = u then User.scrubbed r u at' else r := by
  show (db.users.update _ _).row v = _
  rw [Table.row_update]
  cases db.users.row v with
  | none => rfl
  | some r => by_cases hvu : v = u <;> simp [hvu]

/-- Rows that name the erased account, as their owner or otherwise, are nobody's. -/
theorem extract_disowned {ρ β τ : Type} [LinearOrder τ] {t : Table ρ} {place : Nat → Nat}
    {owner : ρ → Option UserId}
    {time : ρ → τ} {view : Nat → ρ → β} {lost other : ρ → Bool} {forget : ρ → ρ}
    (hlost : ∀ r, lost r = (owner r == some u || other r))
    (hforget : ∀ r, owner (forget r) = none) :
    (t.update (fun _ r => lost r) forget).extract place (fun r => owner r == some v) time view =
      if v = u then []
      else (t.delete fun _ r => other r).extract place (fun r => owner r == some v) time
        view := by
  rw [Table.extract_update_lost fun r _ => by simp [hforget], Table.extract_delete]
  by_cases hvu : v = u
  · rw [if_pos hvu, hvu]
    apply Table.extract_nil
    intro r
    cases hr : owner r == some u <;> simp [hlost, hr]
  · rw [if_neg hvu]
    congr 1
    funext r
    cases hr : owner r == some v with
    | true =>
      have howner : owner r = some v := by simpa using hr
      simp [hlost, howner, hvu]
    | false => rfl

theorem extract_owned {ρ β τ : Type} [LinearOrder τ] {t : Table ρ} {place : Nat → Nat}
    {owner : ρ → Option UserId} {time : ρ → τ} {view : Nat → ρ → β} {forget : ρ → ρ}
    (h : ∀ r, owner (forget r) = none) :
    (t.update (fun _ r => owner r == some u) forget).extract place
        (fun r => owner r == some v) time view =
      if v = u then [] else t.extract place (fun r => owner r == some v) time view := by
  have hlost : ∀ r, (owner r == some u) = (owner r == some u || false) :=
    fun r => (Bool.or_false _).symm
  refine (extract_disowned hlost h).trans ?_
  rw [Table.extract_delete]
  simp only [Bool.not_false, Bool.and_true]

theorem extract_deleted {ρ β τ : Type} [LinearOrder τ] {t : Table ρ} {place : Nat → Nat}
    {owner : ρ → UserId} {time : ρ → τ} {view : Nat → ρ → β} :
    (t.delete fun _ r => owner r == u).extract place (fun r => owner r == v) time view =
      if v = u then [] else t.extract place (fun r => owner r == v) time view := by
  rw [Table.extract_delete fun r => owner r == u]
  by_cases hvu : v = u
  · rw [if_pos hvu, hvu]
    exact Table.extract_nil fun r => by simp
  · rw [if_neg hvu]
    congr 1
    funext r
    by_cases hr : owner r = v
    · simp [hr, hvu]
    · simp [hr]

theorem exportRoles_scrubbed : exportRoles places (scrubbed db u at') v =
    if v = u then [] else exportRoles places db v := by
  have hkept : exportRoles places (scrubbed db u at') v =
      (db.userRoles.delete fun _ r => r.userId == u).extract (places .userRoles)
        (fun r => r.userId == v) (fun r => roleCode r.role) fun _ r => r.role :=
    Table.extract_update_kept (fun _ => rfl) (fun _ => rfl) fun _ _ => rfl
  exact hkept.trans extract_deleted

theorem exportAuthentication_scrubbed : exportAuthentication places (scrubbed db u at') v =
    if v = u then [] else exportAuthentication places db v := by
  refine extract_deleted.trans ?_
  split
  · rfl
  · rename_i hvu
    have hrow : (scrubbed db u at').users.row v = db.users.row v := by
      rw [row_scrubbed]
      cases db.users.row v with
      | none => rfl
      | some r => simp [hvu]
    rw [hrow]
    rfl

theorem exportReviews_scrubbed : exportReviews places (scrubbed db u at') v =
    if v = u then [] else exportReviews places db v := by
  rw [exportReviews_eq, exportReviews_eq]
  exact extract_owned fun _ => rfl

/-- Verifications that tell where somebody parked are deleted, and the others are forgotten. -/
theorem exportVerifications_scrubbed : exportVerifications places (scrubbed db u at') v =
    if v = u then [] else exportVerifications places db v := by
  refine (Table.extract_update_lost fun _ _ => rfl).trans ?_
  rw [Table.extract_delete fun r : Verification => r.userId == some u && r.kind == .parkedHere]
  by_cases hvu : v = u
  · rw [if_pos hvu, hvu]
    apply Table.extract_nil
    intro r
    cases hkind : r.kind == .parkedHere <;> simp [hkind, bne]
  · rw [if_neg hvu, exportVerifications]
    congr 1
    funext r
    cases hr : r.userId == some v with
    | true =>
      have howner : r.userId = some v := by simpa using hr
      simp [howner, hvu]
    | false => rfl

theorem exportProposals_scrubbed : exportProposals places (scrubbed db u at') v =
    if v = u then [] else exportProposals places (withoutHandled db u) v :=
  extract_disowned (fun _ => rfl) fun _ => rfl

theorem exportReports_scrubbed : exportReports places (scrubbed db u at') v =
    if v = u then [] else exportReports places (withoutHandled db u) v :=
  extract_disowned (fun _ => Bool.or_assoc _ _ _) fun _ => rfl

theorem exportPhotos_scrubbed : exportPhotos places (scrubbed db u at') v =
    if v = u then [] else exportPhotos places db v := by
  have howned : ∀ (table : Table Photo) (place : Nat → Nat) (view : Photo → ExportPhoto),
      exportPhotosOf (table.update (fun _ r => r.uploaderId == some u) fun r =>
        { r with uploaderId := none }) place v view =
        if v = u then [] else exportPhotosOf table place v view :=
    fun _ _ _ => extract_owned fun _ => rfl
  have hparking := howned db.parkingPhoto (places .parkingPhoto) parkingPhotoView
  have hreview := howned db.reviewPhoto (places .reviewPhoto) reviewPhotoView
  show exportPhotosOf _ _ v parkingPhotoView ++ exportPhotosOf _ _ v reviewPhotoView = _
  refine (congrArg₂ (· ++ ·) hparking hreview).trans ?_
  split
  · rfl
  · rfl

/-- An erasure that commits leaves an export of nothing but a tombstone, and the export of
another account is the one of a database where the erased account has handled nothing. -/
theorem assemblePayload_erased {cases : Text.CaseMap} {db' : Db} {report : AnonymizationReport}
    (h : anonymize cases db u at' = .ok (report, db')) (now : Instant) :
    (∀ row, db.users.row u = some row →
      assemblePayload places db' u now = .ok (erasedPayload u row.createdAt now)) ∧
      ∀ v, v ≠ u →
        assemblePayload places db' v now = assemblePayload places (withoutHandled db u) v now := by
  have hsessions : ∀ v, exportSessions places (scrubbed db u at') v =
      if v = u then [] else exportSessions places db v := fun _ => extract_deleted
  have hfavorites : ∀ v, exportFavorites places (scrubbed db u at') v =
      if v = u then [] else exportFavorites places db v := fun _ => extract_deleted
  rw [(anonymize_eq_ok h).1]
  constructor
  · intro row hrow
    simp only [assemblePayload, row_scrubbed, hrow, Option.map_some, if_true, exportRoles_scrubbed,
      exportAuthentication_scrubbed, hsessions, hfavorites, exportReviews_scrubbed,
      exportVerifications_scrubbed, exportProposals_scrubbed, exportReports_scrubbed,
      exportPhotos_scrubbed]
    rfl
  · intro v hvu
    have hrow : (scrubbed db u at').users.row v = db.users.row v := by
      rw [row_scrubbed]
      cases db.users.row v with
      | none => rfl
      | some r => simp [hvu]
    simp only [assemblePayload, hrow, exportRoles_scrubbed, exportAuthentication_scrubbed,
      hsessions, hfavorites, exportReviews_scrubbed, exportVerifications_scrubbed,
      exportProposals_scrubbed, exportReports_scrubbed, exportPhotos_scrubbed, if_neg hvu]
    rfl

end Erased

/-- Rows lie in the order in which they came. -/
def asInserted : Places := fun _ id => id

/-- A reviewer and a moderator who decided the reviewer's proposal. -/
def twoAccounts : Db :=
  { Db.empty 0 with
    users := (Table.empty.insert
      { email := "a@example.com", displayName := none, accountState := .active, locale := .en
        createdAt := 0 }).insert
      { email := "b@example.com", displayName := some "B", accountState := .active, locale := .en
        createdAt := 1 }
    review := Table.empty.insert
      { locationId := 1, authorId := some 1, rating := 5, body := "Dry", createdAt := 2
        updatedAt := 2 }
    parkingProposal := Table.empty.insert
      { locationId := 1, proposerId := some 1, baseVersion := 1, kind := .changeExistence
        proposed := .obj [], status := .rejected, resolvedBy := some 2, createdAt := 3 } }

theorem assemblePayload_erased_two :
    assemblePayload asInserted (scrubbed twoAccounts 2 day) 1 day =
        assemblePayload asInserted (withoutHandled twoAccounts 2) 1 day ∧
      assemblePayload asInserted (scrubbed twoAccounts 2 day) 2 day =
        .ok (erasedPayload 2 1 day) := by
  have hanonymize : anonymize Text.CaseMap.ascii twoAccounts 2 day =
      .ok (anonymizationReport twoAccounts 2, scrubbed twoAccounts 2 day) := by
    have hadmin : lastAdminLocked twoAccounts 2 = false := by decide +kernel
    have htaken :
        emailTaken Text.CaseMap.ascii twoAccounts.users 2 (anonymizedEmail 2) = false := by
      decide +kernel
    simp [anonymize, hadmin, htaken]
  have herased := assemblePayload_erased asInserted hanonymize day
  exact ⟨herased.2 1 (by decide), herased.1 _ rfl⟩

end BikesNest.Privacy
