import BikesNest.Lib.Guarantee
import BikesNest.Photos.Objects
import Mathlib.Logic.Relation

/-!
# The state machine of a photo

Any number of approvals, rejections, hidings and restorations of photos of both tables run
at the same time, call by call, and any call may be lost.  Each operation guarantees a
`PhotoMove`: it moves its own photo along its own edge of `StateStep`, and deletes only
objects of rejected photos.  It relies on no more than that of the others.
-/

namespace BikesNest.Photos

open Domain Store Relational Runs Threads
open Moderation (PhotoKind ModerationError)
open Privacy (photos)

/-! ## Decisions -/

inductive PhotoVerb where
  | approve
  | reject (reason : String)
  | hide
  | restore

/-- A decision of a moderator on a photo. -/
structure PhotoDecision where
  verb : PhotoVerb
  moderator : AuthenticatedUser
  kind : PhotoKind
  id : Nat

namespace PhotoDecision

variable (d : PhotoDecision)

def source : PhotoModerationState :=
  match d.verb with
  | .approve | .reject _ => .pendingReview
  | .hide => .approved
  | .restore => .hidden

def target : PhotoModerationState :=
  match d.verb with
  | .approve | .restore => .approved
  | .reject _ => .rejected
  | .hide => .hidden

/-- The service of the decision, with its result. -/
def script : Service Media (PhotoError ⊕ ModerationError) Unit :=
  match d.verb with
  | .approve => (approvePhoto d.moderator d.kind d.id).mapErr .inl
  | .reject reason => (rejectPhoto d.moderator d.kind d.id reason).mapErr .inl
  | .hide => (moderate d.moderator (.hidePhoto d.kind d.id)).mapErr .inr
  | .restore => (moderate d.moderator (.restorePhoto d.kind d.id)).mapErr .inr

/-- The service goes past its checks of the request: the moderator may decide, has an account,
and gives a reason for a rejection. -/
def Authorised (db : Db) : Prop :=
  Moderation.isModerator d.moderator = true ∧ (db.users.row d.moderator.id).isSome = true ∧
    match d.verb with
    | .reject reason => (Text.trim reason).isEmpty = false
    | _ => True

/-- An approval or a rejection of the photo. -/
def Decides (kind : PhotoKind) (id : Nat) : Prop :=
  d.source = .pendingReview ∧ d.kind = kind ∧ d.id = id

end PhotoDecision

abbrev DecisionPool := Pool Media (PhotoError ⊕ ModerationError) Unit PhotoDecision

/-! ## Moves of a photo -/

/-- The edges of the state machine. -/
inductive StateStep : PhotoModerationState → PhotoModerationState → Prop where
  | approve : StateStep .pendingReview .approved
  | reject : StateStep .pendingReview .rejected
  | hide : StateStep .approved .hidden
  | restore : StateStep .hidden .approved

theorem PhotoDecision.stateStep (d : PhotoDecision) : StateStep d.source d.target := by
  unfold source target
  cases d.verb with
  | approve => exact .approve
  | reject reason => exact .reject
  | hide => exact .hide
  | restore => exact .restore

/-- A rejection is final. -/
theorem rejected_of_reached {state : PhotoModerationState}
    (h : Relation.ReflTransGen StateStep .rejected state) : state = .rejected := by
  induction h with
  | refl => rfl
  | tail _ hstep ih =>
    subst ih
    cases hstep

/-- No photo becomes pending again. -/
theorem settled_of_reached {state state' : PhotoModerationState}
    (h : Relation.ReflTransGen StateStep state state') (hstate : state ≠ .pendingReview) :
    state' ≠ .pendingReview := by
  induction h with
  | refl => exact hstate
  | tail _ hstep _ => cases hstep <;> exact nofun

/-- The photos stay, and each moves by `S`. -/
structure PhotosMove (S : PhotoKind → Nat → Photo → Photo → Prop) (db db' : Db) : Prop where
  row : ∀ {kind id r}, (photos db kind).row id = some r →
    ∃ r', (photos db' kind).row id = some r' ∧ S kind id r r'
  new : ∀ {kind id}, (photos db kind).row id = none → (photos db' kind).row id = none

/-- The photo of a decision moves along its edge; every other photo stays as it is. -/
def PhotoDecision.Edge (d : PhotoDecision) (kind : PhotoKind) (id : Nat) (r r' : Photo) : Prop :=
  r' = r ∨ kind = d.kind ∧ id = d.id ∧ r.moderationState = d.source ∧
    r'.moderationState = d.target ∧ keysOf r' = keysOf r

/-- What a decision does in one call, at most: its photo moves along its edge, and
objects of rejected photos are deleted. -/
structure PhotoMove (d : PhotoDecision) (m m' : Media) : Prop where
  rows : PhotosMove d.Edge m.db m'.db
  users : m'.db.users = m.db.users
  objects : ∀ key, m'.objects key = m.objects key ∨ m'.objects key = none ∧
    ∃ kind id r, (photos m.db kind).row id = some r ∧ r.moderationState = .rejected ∧
      key ∈ keysOf r

/-- What any number of decisions may do to the photos. -/
structure Reaches (m m' : Media) : Prop extends
  PhotosMove (fun _ _ r r' => keysOf r' = keysOf r ∧
    Relation.ReflTransGen StateStep r.moderationState r'.moderationState) m.db m'.db where
  users : m'.db.users = m.db.users

instance : IsPreorder Media Reaches where
  refl m := ⟨⟨fun {_ _ r} hr => ⟨r, hr, rfl, .refl⟩, id⟩, rfl⟩
  trans m m' m'' h h' := by
    refine ⟨⟨fun hr => ?_, fun hr => h'.new (h.new hr)⟩, h'.users.trans h.users⟩
    obtain ⟨r', hr', hkeys, hstate⟩ := h.row hr
    obtain ⟨r'', hr'', hkeys', hstate'⟩ := h'.row hr'
    exact ⟨r'', hr'', hkeys'.trans hkeys, hstate.trans hstate'⟩

theorem PhotoMove.reaches (d : PhotoDecision) (m m' : Media) (h : PhotoMove d m m') :
    Reaches m m' := by
  refine ⟨⟨fun hr => ?_, h.rows.new⟩, h.users⟩
  obtain ⟨r', hr', rfl | ⟨_, _, hsource, htarget, hkeys⟩⟩ := h.rows.row hr
  · exact ⟨_, hr', rfl, .refl⟩
  · exact ⟨r', hr', hkeys, by rw [hsource, htarget]; exact .single d.stateStep⟩

/-- The photo is there and has been decided. -/
def Settled (kind : PhotoKind) (id : Nat) (m : Media) : Prop :=
  ∃ r, (photos m.db kind).row id = some r ∧ r.moderationState ≠ .pendingReview

/-- The photo is rejected and has these keys. -/
def Rejected (kind : PhotoKind) (id : Nat) (keys : List String) (m : Media) : Prop :=
  ∃ r, (photos m.db kind).row id = some r ∧ r.moderationState = .rejected ∧ keysOf r = keys

section Moves

variable {d : PhotoDecision} {m m' : Media} {db db' : Db} {kind : PhotoKind} {id : Nat}
  {keys : List String} {moderator : AuthenticatedUser}

theorem Settled.reaches (h : Settled kind id m) (hm : Reaches m m') : Settled kind id m' := by
  obtain ⟨r, hr, hstate⟩ := h
  obtain ⟨r', hr', _, hreached⟩ := hm.row hr
  exact ⟨r', hr', settled_of_reached hreached hstate⟩

theorem Rejected.reaches (h : Rejected kind id keys m) (hm : Reaches m m') :
    Rejected kind id keys m' := by
  obtain ⟨r, hr, hstate, rfl⟩ := h
  obtain ⟨r', hr', hkeys, hreached⟩ := hm.row hr
  rw [hstate] at hreached
  exact ⟨r', hr', rejected_of_reached hreached, hkeys⟩

theorem Rejected.settled (h : Rejected kind id keys m) : Settled kind id m := by
  obtain ⟨r, hr, hstate, _⟩ := h
  exact ⟨r, hr, by rw [hstate]; exact nofun⟩

theorem PhotoMove.refl (m : Media) : PhotoMove d m m :=
  ⟨⟨fun {_ _ r} hr => ⟨r, hr, .inl rfl⟩, fun hr => hr⟩, rfl, fun _ => .inl rfl⟩

/-- An update of the photo of a decision, from its source to its target. -/
theorem PhotosMove.of_update {q : Photo → Bool} {f : Photo → Photo}
    (hq : ∀ r, q r = true → r.moderationState = d.source)
    (hstate : ∀ r, (f r).moderationState = d.target) (hkeys : ∀ r, keysOf (f r) = keysOf r)
    (h : Moderation.updatePhoto db d.kind d.id q f = .ok db') :
    PhotosMove d.Edge db db' := by
  obtain ⟨_, ⟨r, hr, hsource, hr'⟩, hothers⟩ := updatePhoto_ok h
  refine ⟨fun {kind id x} hx => ?_, fun {kind id} hnone => ?_⟩
  · by_cases hown : kind = d.kind ∧ id = d.id
    · obtain ⟨rfl, rfl⟩ := hown
      obtain rfl := Option.some.inj (hr.symm.trans hx)
      exact ⟨f r, hr', .inr ⟨rfl, rfl, hq r hsource, hstate r, hkeys r⟩⟩
    · exact ⟨x, (hothers kind id hown).trans hx, .inl rfl⟩
  · rwa [hothers kind id]
    rintro ⟨rfl, rfl⟩
    rw [hr] at hnone
    cases hnone

/-- A transaction that leaves the photos. -/
theorem PhotosMove.of_eq {S : PhotoKind → Nat → Photo → Photo → Prop}
    (hS : ∀ kind id r, S kind id r r) (h : ∀ kind, photos db' kind = photos db kind) :
    PhotosMove S db db' := by
  refine ⟨fun {kind id r} hr => ⟨r, ?_, hS kind id r⟩, fun {kind id} hr => ?_⟩
  · rwa [h kind]
  · rwa [h kind]

theorem recordAudit_photos {event : NewAuditEvent} (h : db.recordAudit event = some db')
    (kind : PhotoKind) : photos db' kind = photos db kind := by
  obtain ⟨_, _, rfl⟩ := recordAudit_eq_some h
  cases kind <;> rfl

theorem recordAudit_users {event : NewAuditEvent} (h : db.recordAudit event = some db') :
    db'.users = db.users := by
  obtain ⟨_, _, rfl⟩ := recordAudit_eq_some h
  rfl

theorem updatePhoto_users {q : Photo → Bool} {f : Photo → Photo}
    (h : Moderation.updatePhoto db kind id q f = .ok db') : db'.users = db.users := by
  rw [updatePhoto_eq] at h
  cases hupdate : Moderation.updateOne (photos db kind) id q f with
  | error e =>
    rw [hupdate] at h
    cases h
  | ok table =>
    rw [hupdate] at h
    cases h
    cases kind <;> rfl

/-- A transaction of the database that moves the photos as the decision may. -/
theorem PhotoMove.of_db (h : PhotosMove d.Edge m.db db') (husers : db'.users = m.db.users) :
    PhotoMove d m { m with db := db' } :=
  ⟨h, husers, fun _ => .inl rfl⟩

/-- The deletion of an object of a rejected photo. -/
theorem PhotoMove.of_delete (h : Rejected kind id keys m) {key : String} (hkey : key ∈ keys) :
    PhotoMove d m (m.delete key) := by
  obtain ⟨r, hr, hstate, rfl⟩ := h
  refine ⟨⟨fun {_ _ x} hx => ⟨x, hx, .inl rfl⟩, fun hx => hx⟩, rfl, fun key' => ?_⟩
  rw [Media.objects_delete]
  by_cases hsame : key' = key
  · subst hsame
    exact .inr ⟨if_pos rfl, kind, id, r, hr, hstate, hkey⟩
  · exact .inl (if_neg hsame)

/-! ## The services -/

/-- The update of a pending photo fails when the photo has been decided. -/
theorem settled_of_notPending {f : Photo → Photo} {userId : UserId}
    (hrow : ∃ r, (photos m.db kind).row id = some r)
    (h : decidePending m.db kind id userId f = .error .notPending) : Settled kind id m := by
  obtain ⟨r, hr⟩ := hrow
  unfold decidePending at h
  split at h
  · rename_i e hupdate
    obtain ⟨_, hany⟩ := updatePhoto_error hupdate
    rw [hr, Option.any_some] at hany
    exact ⟨r, hr, by simpa using hany⟩
  · split at h <;> cases h

/-- What the result of an approval or a rejection says of the photo. -/
def Says (kind : PhotoKind) (id : Nat) (r : Except PhotoError Unit) (m : Media) : Prop :=
  r = .ok () ∨ r = .error .notPending → Settled kind id m

theorem says_error {e : PhotoError} (he : e ≠ .notPending) : Says kind id (.error e) m := by
  rintro (h | h)
  · cases h
  · exact absurd (Except.error.inj h) he

/-- The audit event of a decided photo. -/
theorem audit_guarantees (event : NewAuditEvent) (h : Settled kind id m) :
    (audit event).Guarantees Reaches (PhotoMove d) (Says kind id) m := by
  refine .request (fun m' _ => .refl m') ?_ ?_ fun _ => says_error nofun
  · intro m' u t hm hf
    split at hf
    · rename_i u' db' hdb
      cases hf
      have haudit := recordAudit_of_ok hdb
      have hmove : PhotoMove d m' { m' with db := db' } :=
        .of_db (.of_eq (fun _ _ _ => .inl rfl) (recordAudit_photos haudit))
          (recordAudit_users haudit)
      exact ⟨hmove, fun _ => (h.reaches hm).reaches (hmove.reaches ..)⟩
    · cases hf
  · intro m' e hm hf
    split at hf
    · cases hf
    · exact fun _ => h.reaches hm

/-- A find: the photo is as it stands. -/
theorem find_guarantees {d : PhotoDecision} {Q : Except PhotoError Unit → Media → Prop}
    {k : Option Photo → Service Media PhotoError Unit}
    (hk : ∀ m', Reaches m m' →
      (k ((photos m'.db kind).row id)).Guarantees Reaches (PhotoMove d) Q m')
    (hlost : ∀ m', Q (.error .unavailable) m') :
    (query (fun db => (photos db kind).row id) >>= k).Guarantees Reaches (PhotoMove d) Q m :=
  .bind (.query (fun m' _ => .refl m') hk hlost)

theorem decidePending_moves {f : Photo → Photo} (hsource : d.source = .pendingReview)
    (hstate : ∀ r, (f r).moderationState = d.target) (hkeys : ∀ r, keysOf (f r) = keysOf r)
    (h : decidePending m.db d.kind d.id d.moderator.id f = .ok db') :
    PhotoMove d m { m with db := db' } ∧
      ∃ r, (photos db' d.kind).row d.id = some (f r) ∧ (photos m.db d.kind).row d.id = some r := by
  obtain ⟨_, hupdate, _, rfl⟩ := decidePending_ok h
  obtain ⟨_, ⟨r, hr, _, hr'⟩, _⟩ := updatePhoto_ok hupdate
  refine ⟨.of_db (.of_update (fun r hr => ?_) hstate hkeys hupdate) (updatePhoto_users hupdate), r,
    hr', hr⟩
  rw [hsource]
  exact eq_of_beq hr

/-- A decision that finds the photo not pending. -/
theorem settled_of_bind {α : Type} {f : Photo → Photo} {g : Db → Except PhotoError α}
    {userId : UserId} (hrow : ∃ r, (photos m.db kind).row id = some r)
    (hg : ∀ db, g db ≠ .error .notPending)
    (h : decidePending m.db kind id userId f >>= g = .error .notPending) : Settled kind id m := by
  have hrefused : decidePending m.db kind id userId f = .error .notPending := by
    cases hdecide : decidePending m.db kind id userId f with
    | ok db =>
      rw [hdecide] at h
      exact absurd h (hg db)
    | error e =>
      rw [hdecide] at h
      rw [Except.error.inj h]
  exact settled_of_notPending hrow hrefused

/-- A transaction of the database on a photo that is there. -/
theorem repo_guarantees {α : Type} {f : Db → Except PhotoError (α × Db)}
    {Q : Except PhotoError α → Media → Prop} (hrow : ∃ r, (photos m.db kind).row id = some r)
    (hok : ∀ {m' : Media} {a db'}, f m'.db = .ok (a, db') →
      PhotoMove d m' { m' with db := db' } ∧ Q (.ok a) { m' with db := db' })
    (herror : ∀ {m' : Media} {e}, (∃ r, (photos m'.db kind).row id = some r) →
      f m'.db = .error e → Q (.error e) m')
    (hlost : ∀ m', Q (.error .unavailable) m') :
    (repo f).Guarantees Reaches (PhotoMove d) Q m := by
  refine .request (fun m' _ => .refl m') (fun m' a t hm hf => ?_) (fun m' e hm hf => ?_) hlost
  · split at hf
    · rename_i a' db' hdb
      cases hf
      exact hok hdb
    · cases hf
  · split at hf
    · cases hf
    · rename_i e' hdb
      cases hf
      obtain ⟨r, hr⟩ := hrow
      obtain ⟨r', hr', _⟩ := hm.row hr
      exact herror ⟨r', hr'⟩ hdb

theorem approveRow_guarantees {position : Int}
    (hrow : ∃ r, (photos m.db kind).row id = some r) :
    (repo fun db => approveRow db kind id moderator.id position).Guarantees Reaches
      (PhotoMove ⟨.approve, moderator, kind, id⟩) (Says kind id) m := by
  refine repo_guarantees hrow (fun {m' u db'} hdb => ?_) (fun {m' e} hrow hdb => ?_) fun _ =>
    says_error nofun
  · obtain ⟨mid, hdecide, hlast⟩ := Moderation.bind_eq_ok hdb
    cases hlast
    obtain ⟨hmove, r, hr', _⟩ := decidePending_moves (d := ⟨.approve, moderator, kind, id⟩) rfl
      (by exact fun _ => rfl) (by exact fun _ => rfl) hdecide
    exact ⟨hmove, fun _ => ⟨_, hr', nofun⟩⟩
  · rintro (htrue | htrue)
    · cases htrue
    · cases htrue
      exact settled_of_bind hrow (by exact fun _ => nofun) hdb

/-- What the answer of `reject` says of the photo. -/
def SaysRejected (kind : PhotoKind) (id : Nat) : Except PhotoError (String × Option String) →
    Media → Prop
  | .ok keys, m => Rejected kind id (keys.1 :: keys.2.toList) m
  | .error e, m => e = .notPending → Settled kind id m

theorem rejectRow_guarantees {reason given : String}
    (hrow : ∃ r, (photos m.db kind).row id = some r) :
    (repo fun db => rejectRow db kind id moderator.id reason).Guarantees Reaches
      (PhotoMove ⟨.reject given, moderator, kind, id⟩) (SaysRejected kind id) m := by
  refine repo_guarantees hrow (fun {m' keys db'} hdb => ?_) (fun {m' e} hrow hdb => ?_) fun _ =>
    nofun
  · obtain ⟨mid, hdecide, hlast⟩ := Moderation.bind_eq_ok hdb
    obtain ⟨hmove, r, hr', hr⟩ :=
      decidePending_moves (d := ⟨.reject given, moderator, kind, id⟩) rfl
        (by exact fun _ => rfl) (by exact fun _ => rfl) hdecide
    rw [hr] at hlast
    cases hlast
    exact ⟨hmove, _, hr', rfl, rfl⟩
  · rintro rfl
    obtain ⟨r, hr⟩ := hrow
    refine settled_of_bind ⟨r, hr⟩ (fun db => ?_) hdb
    rw [hr]
    exact nofun

theorem approvePhoto_guarantees :
    (approvePhoto moderator kind id).Guarantees Reaches
      (PhotoMove ⟨.approve, moderator, kind, id⟩) (Says kind id) m := by
  unfold approvePhoto
  refine .bind (.require (fun _ => ?_) fun _ => says_error nofun)
  refine find_guarantees (fun m' _ => ?_) fun _ => says_error nofun
  cases hrow : (photos m'.db kind).row id with
  | none => exact .throw (says_error nofun)
  | some photo =>
    dsimp only
    cases hstate : photo.moderationState with
    | approved => exact .pure fun _ => ⟨photo, hrow, by rw [hstate]; exact nofun⟩
    | rejected | hidden => exact .throw fun _ => ⟨photo, hrow, by rw [hstate]; exact nofun⟩
    | pendingReview =>
      refine .bind (.query (fun m' _ => .refl m') (fun m'' hm' => ?_) fun _ => says_error nofun)
      obtain ⟨r, hr, _⟩ := hm'.row hrow
      refine .bind ((approveRow_guarantees ⟨r, hr⟩).mono fun result m₁ htrue => ?_)
      cases result with
      | ok u => exact audit_guarantees _ (htrue (.inl rfl))
      | error e => exact htrue

/-- The objects of a rejected photo may go. -/
theorem deleteQuietly_guarantees {key : String} (hkey : key ∈ keys)
    {Q : Except PhotoError Unit → Media → Prop} (h : Rejected kind id keys m)
    (hQ : ∀ m', Rejected kind id keys m' → Q (.ok ()) m') :
    (deleteQuietly key).Guarantees Reaches (PhotoMove d) Q m := by
  intro m' hm
  have hrejected := h.reaches hm
  have hmove : PhotoMove d m' (m'.delete key) := .of_delete hrejected hkey
  have hdeleted : Rejected kind id keys (m'.delete key) := hrejected.reaches (hmove.reaches ..)
  exact ⟨hmove, hQ _ hdeleted, hQ _ hrejected, hQ _ hdeleted⟩

theorem rejected_guarantees {keys : String × Option String} {reason : String}
    (h : Rejected kind id (keys.1 :: keys.2.toList) m) :
    (rejected moderator.id kind id reason keys).Guarantees Reaches (PhotoMove d)
      (Says kind id) m := by
  obtain ⟨full, thumb⟩ := keys
  refine .bind (deleteQuietly_guarantees List.mem_cons_self h fun m₁ h₁ => ?_)
  cases thumb with
  | none => exact .bind (.pure (audit_guarantees _ h₁.settled))
  | some thumb =>
    have hmem : thumb ∈ full :: (some thumb).toList :=
      List.mem_cons_of_mem _ List.mem_cons_self
    refine .bind (deleteQuietly_guarantees hmem h₁ fun m₂ h₂ => ?_)
    exact audit_guarantees _ h₂.settled

theorem rejectPhoto_guarantees {reason : String} :
    (rejectPhoto moderator kind id reason).Guarantees Reaches
      (PhotoMove ⟨.reject reason, moderator, kind, id⟩) (Says kind id) m := by
  unfold rejectPhoto
  generalize Text.trim reason = trimmed
  refine .bind (.require (fun _ => ?_) fun _ => says_error nofun)
  refine .bind (.require (fun _ => ?_) fun _ => says_error nofun)
  refine find_guarantees (fun m' _ => ?_) fun _ => says_error nofun
  cases hrow : (photos m'.db kind).row id with
  | none => exact .throw (says_error nofun)
  | some photo =>
    dsimp only
    cases hstate : photo.moderationState with
    | rejected => exact .pure fun _ => ⟨photo, hrow, by rw [hstate]; exact nofun⟩
    | approved | hidden => exact .throw fun _ => ⟨photo, hrow, by rw [hstate]; exact nofun⟩
    | pendingReview =>
      refine .bind ((rejectRow_guarantees ⟨photo, hrow⟩).mono fun result m₁ htrue => ?_)
      cases result with
      | ok keys => exact rejected_guarantees htrue
      | error e =>
        rintro (hdone | hrefused)
        · cases hdone
        · exact htrue (Except.error.inj hrefused)

/-! ## Calls that are all answered -/

/-- The photo and the account of the moderator are there. -/
structure Reviewable (kind : PhotoKind) (id : Nat) (moderator : UserId) (m : Media) : Prop where
  row : ∃ r, (photos m.db kind).row id = some r
  account : (m.db.users.row moderator).isSome = true

theorem Reviewable.reaches {user : UserId} (h : Reviewable kind id user m) (hm : Reaches m m') :
    Reviewable kind id user m' := by
  obtain ⟨r, hr⟩ := h.row
  obtain ⟨r', hr', _⟩ := hm.row hr
  exact ⟨⟨r', hr'⟩, hm.users ▸ h.account⟩

/-- A transaction that leaves the photos and the accounts. -/
theorem Reaches.of_eq (hphotos : ∀ kind, photos m'.db kind = photos m.db kind)
    (husers : m'.db.users = m.db.users) : Reaches m m' :=
  ⟨.of_eq (fun _ _ _ => ⟨rfl, .refl⟩) hphotos, husers⟩

theorem audit_reaches (event : NewAuditEvent) : (audit event).Respects Reaches := by
  refine .request (refl_of Reaches) fun m u m' hf => ?_
  split at hf
  · rename_i hdb
    cases hf
    have haudit := recordAudit_of_ok hdb
    exact .of_eq (recordAudit_photos haudit) (recordAudit_users haudit)
  · cases hf

theorem deleteQuietly_reaches (key : String) : (deleteQuietly key).Respects Reaches :=
  ⟨fun _ => .of_eq (fun _ => rfl) rfl, fun _ => trivial, trivial⟩

theorem rejected_reaches {user : UserId} {reason : String} (keys : String × Option String) :
    (rejected user kind id reason keys).Respects Reaches := by
  refine .bind (deleteQuietly_reaches _) fun _ => ?_
  cases keys.2 with
  | none => exact audit_reaches _
  | some thumb => exact .bind (deleteQuietly_reaches _) fun _ => audit_reaches _

/-- The update settles the photo, or finds it settled. -/
theorem decidePending_settles {α : Type} {f : Photo → Photo} {g : Db → Except PhotoError (α × Db)}
    {user : UserId} (hstate : ∀ r, (f r).moderationState ≠ .pendingReview)
    (hg : ∀ db', ∃ a, g db' = .ok (a, db')) (h : Reviewable kind id user m) :
    (∃ a db', decidePending m.db kind id user f >>= g = .ok (a, db') ∧
      Settled kind id { m with db := db' }) ∨
      (∃ e, decidePending m.db kind id user f >>= g = .error e) ∧ Settled kind id m := by
  obtain ⟨r, hr⟩ := h.row
  cases hdecide : decidePending m.db kind id user f with
  | ok db' =>
    obtain ⟨mid, hupdate, _, rfl⟩ := decidePending_ok hdecide
    obtain ⟨_, ⟨r', _, _, hr'⟩, _⟩ := updatePhoto_ok hupdate
    obtain ⟨a, ha⟩ := hg mid
    exact .inl ⟨a, mid, ha, _, hr', hstate r'⟩
  | error e =>
    refine .inr ⟨⟨e, rfl⟩, settled_of_notPending ⟨r, hr⟩ (hdecide.trans ?_)⟩
    unfold decidePending at hdecide
    split at hdecide
    · exact hdecide.symm
    · split at hdecide
      · rename_i hnone
        rw [Option.isNone_iff_eq_none] at hnone
        have haccount := h.account
        rw [hnone] at haccount
        cases haccount
      · cases hdecide

/-- A transaction that decides the photo goes on with what keeps it decided. -/
theorem repo_answers {α : Type} {f : Db → Except PhotoError (α × Db)}
    {k : α → Service Media PhotoError Unit} {user : UserId} (h : Reviewable kind id user m)
    (hf : ∀ m', Reviewable kind id user m' →
      (∃ a db', f m'.db = .ok (a, db') ∧ Settled kind id { m' with db := db' }) ∨
        (∃ e, f m'.db = .error e) ∧ Settled kind id m')
    (hk : ∀ a, (k a).Respects Reaches) :
    (repo f >>= k).Answers Reaches (fun _ => Settled kind id) m := by
  refine .bind (.request (fun m' a t hm hdb => ?_) fun m' e hm hdb => ?_)
  · rcases hf m' (h.reaches hm) with ⟨a', db', hok, hsettled⟩ | ⟨⟨e, herror⟩, _⟩
    · rw [hok] at hdb
      cases hdb
      exact .of_respects (fun _ _ hm hs => hs.reaches hm) (hk _) hsettled
    · rw [herror] at hdb
      cases hdb
  · rcases hf m' (h.reaches hm) with ⟨a', db', hok, _⟩ | ⟨_, hsettled⟩
    · rw [hok] at hdb
      cases hdb
    · exact hsettled

theorem approvePhoto_answers (hmoderator : Moderation.isModerator moderator = true)
    (h : Reviewable kind id moderator.id m) :
    (approvePhoto moderator kind id).Answers Reaches (fun _ => Settled kind id) m := by
  refine .require hmoderator (.query fun m' hm => ?_)
  have h' := h.reaches hm
  obtain ⟨photo, hrow⟩ := h'.row
  dsimp only
  rw [hrow]
  dsimp only
  cases hstate : photo.moderationState with
  | approved | rejected | hidden =>
    exact ⟨photo, hrow, by rw [hstate]; exact nofun⟩
  | pendingReview =>
    refine .query fun m'' hm' => repo_answers (h'.reaches hm') (fun m₁ h₁ => ?_) fun _ =>
      audit_reaches _
    exact decidePending_settles (by exact fun _ => nofun) (fun _ => ⟨(), rfl⟩) h₁

theorem rejectPhoto_answers {reason : String}
    (hmoderator : Moderation.isModerator moderator = true)
    (hreason : (Text.trim reason).isEmpty = false) (h : Reviewable kind id moderator.id m) :
    (rejectPhoto moderator kind id reason).Answers Reaches (fun _ => Settled kind id) m := by
  refine .require hmoderator (.require (by rw [hreason]; rfl) (.query fun m' hm => ?_))
  have h' := h.reaches hm
  obtain ⟨photo, hrow⟩ := h'.row
  dsimp only
  rw [hrow]
  dsimp only
  cases hstate : photo.moderationState with
  | approved | rejected | hidden =>
    exact ⟨photo, hrow, by rw [hstate]; exact nofun⟩
  | pendingReview =>
    refine repo_answers h' (fun m₁ h₁ => ?_) fun keys => rejected_reaches keys
    obtain ⟨r, hr⟩ := h₁.row
    exact decidePending_settles (by exact fun _ => nofun) (fun _ => ⟨_, by rw [hr]; rfl⟩) h₁

/-- An authorised decision leaves the photo decided. -/
theorem script_answers (d : PhotoDecision) (hsource : d.source = .pendingReview)
    (hauthorised : d.Authorised m.db) (hrow : ∃ r, (photos m.db d.kind).row d.id = some r) :
    d.script.Answers Reaches (fun _ => Settled d.kind d.id) m := by
  obtain ⟨verb, moderator, kind, id⟩ := d
  obtain ⟨hmoderator, haccount, hverb⟩ := hauthorised
  cases verb with
  | approve => exact .mapErr _ (approvePhoto_answers hmoderator ⟨hrow, haccount⟩)
  | reject reason => exact .mapErr _ (rejectPhoto_answers hmoderator hverb ⟨hrow, haccount⟩)
  | hide => cases hsource
  | restore => cases hsource

/-! ## Hiding and restoring -/

theorem moderate_respects {action : Moderation.ContentAction}
    {f : Db → Except ModerationError (Unit × Db)} {event : NewAuditEvent}
    (haction : action.changes (fun _ => false) moderator = Moderation.changed moderator f event)
    (hf : f = fun db => Moderation.flipPhoto db d.kind d.id d.source d.target moderator.id) :
    (moderate moderator action).Respects (PhotoMove d) := by
  have hdb : (action.service (fun _ => false) moderator).Respects fun db db' =>
      PhotosMove d.Edge db db' ∧ db'.users = db.users := by
    have hsame : ∀ db, PhotosMove d.Edge db db ∧ db.users = db.users :=
      fun db => ⟨.of_eq (fun _ _ _ => .inl rfl) fun _ => rfl, rfl⟩
    unfold Moderation.ContentAction.service
    rw [haction, hf]
    refine .bind (.bind (.require _ _) fun _ => .bind (.request hsame ?_) fun _ => .pure _)
      fun event => .request hsame fun db u db' h => ?_
    · intro db u db' h
      obtain ⟨mid, hupdate, hlast⟩ := Moderation.bind_eq_ok h
      split at hlast
      · cases hlast
      · cases hlast
        refine ⟨.of_update (fun r hr => eq_of_beq hr) (by exact fun _ => rfl)
          (by exact fun _ => rfl) hupdate, updatePhoto_users hupdate⟩
    · have haudit := recordAudit_of_ok h
      exact ⟨.of_eq (fun _ _ _ => .inl rfl) (recordAudit_photos haudit), recordAudit_users haudit⟩
  exact hdb.zoom fun m db' h => .of_db h.1 h.2

/-- What the result of a decision says of its photo. -/
def Tells (d : PhotoDecision) (r : Except (PhotoError ⊕ ModerationError) Unit) (m : Media) :
    Prop :=
  d.source = .pendingReview → r = .ok () ∨ r = .error (.inl .notPending) → Settled d.kind d.id m

/-- Every decision guarantees its moves, and its result is true. -/
theorem script_guarantees (d : PhotoDecision) (m : Media) :
    d.script.Guarantees Reaches (PhotoMove d) (Tells d) m := by
  obtain ⟨verb, moderator, kind, id⟩ := d
  have hmapped : ∀ {verb} {service : Service Media PhotoError Unit},
      service.Guarantees Reaches (PhotoMove ⟨verb, moderator, kind, id⟩) (Says kind id) m →
      (service.mapErr Sum.inl).Guarantees Reaches (PhotoMove ⟨verb, moderator, kind, id⟩)
        (Tells ⟨verb, moderator, kind, id⟩) m := by
    intro verb service hservice
    refine .mapErr (hservice.mono fun r m' htrue => ?_)
    cases r with
    | ok u => exact fun _ _ => htrue (.inl rfl)
    | error e =>
      rintro _ (hdone | hrefused)
      · cases hdone
      · exact htrue (.inr (by rw [Sum.inl.inj (Except.error.inj hrefused)]))
  cases verb with
  | approve => exact hmapped approvePhoto_guarantees
  | reject reason => exact hmapped rejectPhoto_guarantees
  | hide =>
    have hmoves : (moderate moderator (.hidePhoto kind id)).Respects
        (PhotoMove ⟨.hide, moderator, kind, id⟩) :=
      moderate_respects (by exact rfl) (by exact rfl)
    exact .of_respects hmoves.mapErr fun r m' hsource => nomatch hsource
  | restore =>
    have hmoves : (moderate moderator (.restorePhoto kind id)).Respects
        (PhotoMove ⟨.restore, moderator, kind, id⟩) :=
      moderate_respects (by exact rfl) (by exact rfl)
    exact .of_respects hmoves.mapErr fun r m' hsource => nomatch hsource

end Moves

/-! ## Any number of decisions -/

/-- The step `n` of the run `es` decides the photo, and a call of the decision `d` makes it. -/
def DecidedAt (m₀ : Media) (es : List (Event PhotoDecision)) (kind : PhotoKind) (id n : Nat)
    (d : PhotoDecision) : Prop :=
  ∃ (e : Event PhotoDecision) (q q' : DecisionPool), es[n]? = some e ∧
    PoolRun PhotoDecision.script (Pool.init m₀) (es.take n) q ∧
    q.next PhotoDecision.script e = some q' ∧
    ¬ Settled kind id q.store ∧ Settled kind id q'.store ∧
    ∃ i t, e.on = some i ∧ q.threads[i]? = some t ∧ t.op = d

section Run

variable {m₀ : Media} {es : List (Event PhotoDecision)} {p p' : DecisionPool} {kind : PhotoKind}
  {id : Nat}

theorem tells_reaches (d : PhotoDecision) (r : Except (PhotoError ⊕ ModerationError) Unit)
    (m m' : Media) (h : Reaches m m') (htrue : Tells d r m) : Tells d r m' :=
  fun hsource hr => (htrue hsource hr).reaches h

/-- Every run of decisions keeps to the state machine, and the results are true. -/
theorem decisions_run (hrun : PoolRun PhotoDecision.script (Pool.init m₀) es p) :
    Guaranteed Reaches PhotoMove Tells m₀ p :=
  guarantee_run PhotoMove.reaches tells_reaches (fun d m _ => script_guarantees d m) hrun

theorem decisions_next (hp : Guaranteed Reaches PhotoMove Tells m₀ p) {e : Event PhotoDecision}
    (h : p.next PhotoDecision.script e = some p') :
    p'.store = p.store ∨ MovedBy PhotoMove p e p'.store :=
  (hp.next PhotoMove.reaches tells_reaches (fun d m _ => script_guarantees d m) h).1

/-- The decision that settles a photo is one of this photo. -/
theorem PhotoMove.decides {d : PhotoDecision} {m m' : Media} (h : PhotoMove d m m')
    (hpending : ¬ Settled kind id m) (hsettled : Settled kind id m') : d.Decides kind id := by
  obtain ⟨r', hr', hstate'⟩ := hsettled
  cases hr : (photos m.db kind).row id with
  | none =>
    rw [h.rows.new hr] at hr'
    cases hr'
  | some r =>
    obtain ⟨x, hx, hsame | ⟨rfl, rfl, hsource, _⟩⟩ := h.rows.row hr
    · obtain rfl := Option.some.inj (hr'.symm.trans hx)
      exact absurd ⟨r, hr, by rwa [← hsame]⟩ hpending
    · refine ⟨?_, rfl, rfl⟩
      rw [← hsource]
      by_contra hne
      exact hpending ⟨r, hr, hne⟩

/-- At most one step decides a photo. -/
theorem decidedAt_unique {n n' : Nat} {d d' : PhotoDecision} (hlt : n < n')
    (h : DecidedAt m₀ es kind id n d) (h' : DecidedAt m₀ es kind id n' d') : False := by
  obtain ⟨e, q, q₁, he, hq, hstep, _, hsettled, _⟩ := h
  obtain ⟨_, q', _, he', hq', _, hpending, _⟩ := h'
  have hn : n < es.length := (List.getElem?_eq_some_iff.mp he).1
  have htake : (es.take n').take (n + 1) = es.take n ++ [e] := by
    rw [List.take_take, Nat.min_eq_left hlt, List.take_add_one, he]
    rfl
  have hsplit : es.take n' = (es.take n ++ [e]) ++ (es.take n').drop (n + 1) := by
    rw [← htake, List.take_append_drop]
  rw [hsplit] at hq'
  obtain ⟨q₂, hfirst, hrest⟩ := hq'.exists_of_append
  have hsame : q₂ = q₁ := by
    refine Run.unique (fun h h' => ?_) hfirst (hq.append (.cons hstep (.nil _)))
    exact Option.some.inj (h.symm.trans h')
  subst hsame
  have hp₂ := decisions_run hfirst
  have hreached := (hp₂.run PhotoMove.reaches tells_reaches
    (fun d m _ => script_guarantees d m) hrest).1
  exact hpending (hsettled.reaches hreached)

/-- No two photos come to share an object. -/
theorem unshared_of_reaches {m m' : Media} (hunshared : Unshared m.db) (h : Reaches m m') :
    Unshared m'.db := by
  intro kind kind' i i' r r' key hr hr' hkey hkey'
  have hold : ∀ {kind i x}, (photos m'.db kind).row i = some x →
      ∃ y, (photos m.db kind).row i = some y ∧ keysOf x = keysOf y := by
    intro kind i x hx
    cases hy : (photos m.db kind).row i with
    | none =>
      rw [h.new hy] at hx
      cases hx
    | some y =>
      obtain ⟨x', hx', hkeys, _⟩ := h.row hy
      obtain rfl := Option.some.inj (hx.symm.trans hx')
      exact ⟨y, rfl, hkeys⟩
  obtain ⟨y, hy, hkeys⟩ := hold hr
  obtain ⟨y', hy', hkeys'⟩ := hold hr'
  exact hunshared hy hy' (hkeys ▸ hkey) (hkeys' ▸ hkey')

/-- A photo that was pending and is settled has been decided at some step. -/
theorem decidedAt_of_settled (hrun : PoolRun PhotoDecision.script (Pool.init m₀) es p) {r : Photo}
    (hr : (photos m₀.db kind).row id = some r) (hpending : r.moderationState = .pendingReview)
    (hsettled : Settled kind id p.store) : ∃ n d, DecidedAt m₀ es kind id n d := by
  have hstart : ¬ Settled kind id m₀ := by
    rintro ⟨x, hx, hstate⟩
    obtain rfl := Option.some.inj (hr.symm.trans hx)
    exact hstate hpending
  obtain ⟨es₁, e, es₂, q, q', rfl, hq, hstep, hbefore, hafter⟩ :=
    hrun.exists_turn (P := fun q => Settled kind id q.store) hstart hsettled
  rcases decisions_next (decisions_run hq) hstep with hsame | ⟨i, u, hon, hu, _⟩
  · rw [hsame] at hafter
    exact absurd hafter hbefore
  · refine ⟨es₁.length, u.op, e, q, q', ?_, ?_, hstep, hbefore, hafter, i, u, hon, hu, rfl⟩
    · rw [List.getElem?_append_right le_rfl, Nat.sub_self]
      rfl
    · rwa [List.take_left']
      rfl

/-- The result of an authorised decision none of whose calls is lost. -/
theorem decided_run (hrun : PoolRun PhotoDecision.script (Pool.init m₀) es p)
    (hrow : ∃ r, (photos m₀.db kind).row id = some r) {i : Nat}
    {t : Thread Media (PhotoError ⊕ ModerationError) Unit PhotoDecision}
    (ht : p.threads[i]? = some t) (hdecides : t.op.Decides kind id)
    (hauthorised : t.op.Authorised m₀.db) (hanswered : ∀ applied, .lose i applied ∉ es)
    {result : Except (PhotoError ⊕ ModerationError) Unit} (hrest : t.rest = .done result) :
    Settled kind id p.store := by
  refine answers_run (E := fun d _ m => d.Decides kind id → d.Authorised m₀.db → Settled kind id m)
    PhotoMove.reaches tells_reaches (fun d m _ => script_guarantees d m)
    (fun d r m m' hm hs hdecides hauthorised => (hs hdecides hauthorised).reaches hm)
    (fun d m hm => ?_) hrun hanswered ht hrest hdecides hauthorised
  by_cases hd : d.Decides kind id ∧ d.Authorised m₀.db
  · obtain ⟨⟨hsource, rfl, rfl⟩, hmoderator, haccount, hverb⟩ := hd
    obtain ⟨r, hr⟩ := hrow
    obtain ⟨r', hr', _⟩ := hm.row hr
    have hanswers := script_answers d hsource ⟨hmoderator, hm.users ▸ haccount, hverb⟩ ⟨r', hr'⟩
    exact hanswers.mono fun _ _ hs _ _ => hs
  · exact .of_forall fun _ _ h h' => absurd ⟨h, h'⟩ hd

/-- Whatever the interleaving of decisions on photos of both tables: a photo's state only
moves along its state machine; one step at most decides a pending photo, an approval or a
rejection of it, and there is one once such a call has answered that it is done or that the
photo is not pending, or whatever it has answered if it is authorised and none of its calls
is lost; and only objects of rejected photos are deleted. -/
theorem photo_moderation (hrun : PoolRun PhotoDecision.script (Pool.init m₀) es p) :
    (∀ e p', p.next PhotoDecision.script e = some p' →
      PhotosMove (fun _ _ r r' => r' = r ∨ StateStep r.moderationState r'.moderationState)
        p.store.db p'.store.db ∧
      (∀ key, p'.store.objects key = p.store.objects key ∨ p'.store.objects key = none ∧
        ∃ kind id r, (photos p.store.db kind).row id = some r ∧ r.moderationState = .rejected ∧
          key ∈ keysOf r) ∧
      (Unshared m₀.db → ∀ kind id r key, (photos p.store.db kind).row id = some r →
        key ∈ keysOf r → r.moderationState ≠ .rejected →
          p'.store.objects key = p.store.objects key)) ∧
    ∀ kind id r, (photos m₀.db kind).row id = some r → r.moderationState = .pendingReview →
      (∀ n d n' d', DecidedAt m₀ es kind id n d → DecidedAt m₀ es kind id n' d' → n = n') ∧
      (∀ n d, DecidedAt m₀ es kind id n d → d.Decides kind id) ∧
      (∀ t ∈ p.threads, t.op.Decides kind id →
        (t.rest = .done (.ok ()) ∨ t.rest = .done (.error (.inl .notPending))) →
          ∃ n d, DecidedAt m₀ es kind id n d) ∧
      ∀ i t result, p.threads[i]? = some t → t.op.Decides kind id → t.op.Authorised m₀.db →
        (∀ applied, .lose i applied ∉ es) → t.rest = .done result →
          ∃ n d, DecidedAt m₀ es kind id n d := by
  have hp := decisions_run hrun
  refine ⟨fun e p' h => ?_, fun kind id r hr hpending => ⟨fun n d n' d' hn hn' => ?_,
    fun n d hn => ?_, fun t ht hdecides hanswer => ?_,
    fun i t result ht hdecides hauthorised hanswered hrest =>
      decidedAt_of_settled hrun hr hpending
        (decided_run hrun ⟨r, hr⟩ ht hdecides hauthorised hanswered hrest)⟩⟩
  · have hobjects : ∀ key, p'.store.objects key = p.store.objects key ∨
        p'.store.objects key = none ∧ ∃ kind id r, (photos p.store.db kind).row id = some r ∧
          r.moderationState = .rejected ∧ key ∈ keysOf r := by
      rcases decisions_next hp h with hsame | ⟨_, t, _, _, hmove⟩
      · exact fun key => .inl (by rw [hsame])
      · exact hmove.objects
    refine ⟨?_, hobjects, fun hunshared kind id r key hr hkey hstate => ?_⟩
    · rcases decisions_next hp h with hsame | ⟨_, t, _, _, hmove⟩
      · rw [hsame]
        exact .of_eq (fun _ _ _ => .inl rfl) fun _ => rfl
      · refine ⟨fun hr => ?_, hmove.rows.new⟩
        obtain ⟨r', hr', hsame | ⟨_, _, hsource, htarget, _⟩⟩ := hmove.rows.row hr
        · exact ⟨r', hr', .inl hsame⟩
        · exact ⟨r', hr', .inr (by rw [hsource, htarget]; exact t.op.stateStep)⟩
    · rcases hobjects key with hsame | ⟨_, kind', id', r', hr', hrejected, hkey'⟩
      · exact hsame
      · obtain ⟨rfl, rfl⟩ := unshared_of_reaches hunshared hp.store hr hr' hkey hkey'
        obtain rfl := Option.some.inj (hr.symm.trans hr')
        exact absurd hrejected hstate
  · rcases Nat.lt_trichotomy n n' with hlt | hsame | hlt
    · exact (decidedAt_unique hlt hn hn').elim
    · exact hsame
    · exact (decidedAt_unique hlt hn' hn).elim
  · obtain ⟨e, q, q', _, hq, hstep, hbefore, hafter, i, u, hon, hu, rfl⟩ := hn
    rcases decisions_next (decisions_run hq) hstep with hsame | ⟨j, t, hon', ht, hmove⟩
    · rw [hsame] at hafter
      exact absurd hafter hbefore
    · obtain rfl := Option.some.inj (hon.symm.trans hon')
      obtain rfl := Option.some.inj (hu.symm.trans ht)
      exact hmove.decides hbefore hafter
  · have hsettled : Settled kind id p.store := by
      obtain ⟨hsource, rfl, rfl⟩ := hdecides
      rcases hanswer with hdone | hrefused
      · exact hp.result ht hdone hsource (.inl rfl)
      · exact hp.result ht hrefused hsource (.inr rfl)
    exact decidedAt_of_settled hrun hr hpending hsettled

end Run

/-! ## A photo that two moderators decide -/

/-- The rack with one pending photo and its objects. -/
def pendingRack : Media where
  db := { Moderation.freshRack with
    parkingPhoto := Table.empty.insert
      { parentId := 1, uploaderId := some 1, storageKey := "uploads/00/full.jpg"
        thumbnailKey := some "uploads/00/thumb.jpg", createdAt := 0 } }
  objects key :=
    if key = "uploads/00/full.jpg" ∨ key = "uploads/00/thumb.jpg" then some 0 else none

/-- An approval and a rejection both find the photo pending; the rejection is first. -/
def contended : List (Event PhotoDecision) :=
  [.start ⟨.approve, Moderation.rackModerator, .parking, 1⟩,
    .start ⟨.reject "blurred", Moderation.rackModerator, .parking, 1⟩,
    .answer 0, .answer 1, .answer 0, .answer 1, .answer 0, .answer 1, .answer 1, .answer 1]

/-- The approval is told that the photo is not pending, and the rejection has ended. -/
def isRefused (t u : Thread Media (PhotoError ⊕ ModerationError) Unit PhotoDecision) : Bool :=
  match t.rest, u.rest with
  | .done (.error (.inl .notPending)), .done _ => true
  | _, _ => false

theorem photo_moderation_contended :
    ∃ p, PoolRun PhotoDecision.script (Pool.init pendingRack) contended p ∧
      (∃ t, p.threads[0]? = some t ∧ t.rest = .done (.error (.inl .notPending))) ∧
      ∃ n d, DecidedAt pendingRack contended .parking 1 n d ∧ d.Decides .parking 1 ∧
        ∀ n' d', DecidedAt pendingRack contended .parking 1 n' d' → n = n' := by
  have hend : (contended.foldlM (Pool.next PhotoDecision.script) (Pool.init pendingRack)).any
      (fun p => (p.threads[0]?).any fun t => (p.threads[1]?).any fun u => isRefused t u) =
      true := by
    decide +kernel
  obtain ⟨p, hp, hrefused⟩ := (Option.any_eq_true ..).mp hend
  obtain ⟨t, ht, hrefused⟩ := (Option.any_eq_true ..).mp hrefused
  obtain ⟨u, hu, hrefused⟩ := (Option.any_eq_true ..).mp hrefused
  have hrun := Run.of_foldlM hp
  have hops : p.threads.map Thread.op = [⟨.approve, Moderation.rackModerator, .parking, 1⟩,
      ⟨.reject "blurred", Moderation.rackModerator, .parking, 1⟩] := ops_run hrun
  have hop : t.op = ⟨.approve, Moderation.rackModerator, .parking, 1⟩ := by
    have hfirst := congrArg (fun ops : List PhotoDecision => ops[0]?) hops
    simpa [ht] using hfirst
  have hop' : u.op = ⟨.reject "blurred", Moderation.rackModerator, .parking, 1⟩ := by
    have hsecond := congrArg (fun ops : List PhotoDecision => ops[1]?) hops
    simpa [hu] using hsecond
  obtain ⟨hanswer, result, hresult⟩ :
      t.rest = .done (.error (.inl .notPending)) ∧ ∃ result, u.rest = .done result := by
    unfold isRefused at hrefused
    split at hrefused
    · rename_i hanswer hresult
      exact ⟨hanswer, _, hresult⟩
    · cases hrefused
  obtain ⟨hunique, hdecides, hanswered, hkept⟩ := (photo_moderation hrun).2 .parking 1
    { parentId := 1, uploaderId := some 1, storageKey := "uploads/00/full.jpg"
      thumbnailKey := some "uploads/00/thumb.jpg", createdAt := 0 } rfl rfl
  obtain ⟨n, d, hn⟩ := hanswered t (List.mem_of_getElem? ht) (by rw [hop]; exact ⟨rfl, rfl, rfl⟩)
    (.inr hanswer)
  obtain ⟨n', d', hn'⟩ := hkept 1 u result hu (by rw [hop']; exact ⟨rfl, rfl, rfl⟩)
    (by rw [hop']; exact ⟨rfl, rfl, by decide +kernel⟩) (by simp [contended]) hresult
  -- the refusal and the rejection that lost no call tell of the same step
  obtain rfl : n = n' := hunique n d n' d' hn hn'
  exact ⟨p, hrun, ⟨t, ht, hanswer⟩, n, d', hn', hdecides n d' hn',
    fun n' d' => hunique n d n' d' hn⟩

end BikesNest.Photos
