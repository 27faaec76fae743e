import BikesNest.Auth.Sessions
import BikesNest.Lib.Run

/-!
# The lifetime of a session

A session from its creation on, over any sequence of uses and revocations of this
and other sessions.  `resolve` accepts a session by its `last_seen_at`, and moves
that only when it is stale, so the row may lag behind the last use.

* `SessionLife` is the database with the times of the accepted uses.
* `Tracked` is the invariant: the row is not ahead of the last use and, when no gap
  between two uses has come close to the limit, behind it by the refresh
  throttle at most.
* `session_lifetime` says what an accepted use tells about the history, and which
  histories are enough for the session to be accepted.
-/

namespace BikesNest.Auth

open Domain Store Relational

/-! ## The life of a session -/

/-- A session with the database it stands in, the times of its accepted uses, the
latest first and its creation last, and whether a revocation has met it. -/
structure SessionLife where
  db : Db
  uses : List Instant
  revoked : Bool := false

/-- A step of a run.  The clock of the process is that of the database, so the instants it reads
are those that a column can hold, in whole microseconds. -/
inductive SessionOp where
  | wait (duration : Nat)
  | create (u : UserId) (raw csrf : Token)
  | present (raw : Token)
  | revoke (raw : Token)
  | revokeAll (u : UserId)
  | revokeAllExcept (u : UserId) (keep : Token)

/-- Is the session of the raw id accepted? -/
def accepts (deps : Deps) (db : Db) (raw : Token) : Bool :=
  match ((resolve deps raw db.now).run db).1 with
  | .ok (some _) => true
  | _ => false

/-- Both raw ids stand for the same session. -/
def isSame (deps : Deps) (raw raw' : Token) : Bool :=
  deps.sha256Hex raw'.bytes == deps.sha256Hex raw.bytes

/-- One step, seen from the session `raw` of the user `u`. -/
def SessionLife.exec (deps : Deps) (raw : Token) (u : UserId) (s : SessionLife) :
    SessionOp → SessionLife
  | .wait duration => { s with db := { s.db with now := s.db.now + duration } }
  | .create v raw' csrf =>
    match createSession deps s.db v raw' csrf with
    | .ok (_, db) => { s with db }
    | .error _ => s
  | .present raw' => { s with
      db := ((resolve deps raw' s.db.now).run s.db).2
      uses := if isSame deps raw raw' && accepts deps s.db raw' then s.db.now :: s.uses
        else s.uses }
  | .revoke raw' => { s with
      db := revoke deps s.db raw'
      revoked := s.revoked || isSame deps raw raw' }
  | .revokeAll v => { s with
      db := revokeAllForUser s.db v
      revoked := s.revoked || v == u }
  | .revokeAllExcept v keep => { s with
      db := revokeAllForUserExcept deps s.db v keep
      revoked := s.revoked || (v == u && !isSame deps raw keep) }

/-- Every gap between two times, the latest first, is less than the idle limit
without the refresh throttle. -/
def Steady (times : List Instant) : Prop :=
  times.IsChain fun later earlier => later - earlier < inactiveIdle - lastSeenRefresh

/-- What is promised of a session that was created at `created`: an accepted one has
not been revoked, is within the cap, and was used or created within the idle
limit; and one that has not been revoked, is within the cap, and has been used
steadily until now is accepted. -/
structure LifetimeRight (deps : Deps) (raw : Token) (created : Instant) (s : SessionLife) :
    Prop where
  sound : accepts deps s.db raw = true → s.revoked = false ∧ s.db.now ≤ created + absoluteCap ∧
    ∃ last, s.uses.head? = some last ∧ s.db.now - last ≤ inactiveIdle
  complete : s.revoked = false → s.db.now ≤ created + absoluteCap →
    Steady (s.db.now :: s.uses) → accepts deps s.db raw = true

/-! ## The row of the session -/

/-- The only row of the raw session id. -/
structure Stands (deps : Deps) (raw : Token) (db : Db) (k : Nat) (r : Session) : Prop where
  row : db.sessions.row k = some r
  hash : r.tokenHash = deps.sha256Hex raw.bytes
  only : ∀ j x, db.sessions.row j = some x → x.tokenHash = deps.sha256Hex raw.bytes → j = k

section Row

variable {deps : Deps} {raw : Token} {db : Db} {k : Nat} {r : Session}

theorem Stands.sessionOf (h : Stands deps raw db k r) : sessionOf deps db raw = some r := by
  rw [Auth.sessionOf, Table.head?_select h.row (beq_iff_eq.mpr h.hash)
    fun j x hx hp => h.only j x hx (beq_iff_eq.mp hp)]
  rfl

/-- A statement that leaves the hashes alone. -/
theorem Stands.update (h : Stands deps raw db k r) (p : Nat → Session → Bool)
    (f : Session → Session) (hf : ∀ x, (f x).tokenHash = x.tokenHash) :
    Stands deps raw { db with sessions := db.sessions.update p f } k
      (if p k r then f r else r) := by
  refine ⟨by simp [h.row], ?_, fun j x hx hhash => ?_⟩
  · split
    · rw [hf, h.hash]
    · exact h.hash
  · obtain ⟨y, hy, rfl⟩ := Table.row_update_eq_some.mp hx
    refine h.only j y hy ?_
    split at hhash
    · rwa [hf] at hhash
    · exact hhash

/-- The token store takes no second session with the hash. -/
theorem Stands.create (h : Stands deps raw db k r) {db' : Db} {v : UserId} {raw' csrf : Token}
    (hcreate : createSession deps db v raw' csrf = .ok ((), db')) :
    Stands deps raw db' k r ∧ db'.now = db.now := by
  obtain ⟨hfree, hmade⟩ := createSession_eq_ok hcreate
  cases hmade
  refine ⟨⟨Table.row_insert_of_some _ h.row, h.hash, fun j x hx hhash => ?_⟩, rfl⟩
  rcases Table.row_insert_eq_some.mp hx with ⟨_, rfl⟩ | hold
  · exact absurd (h.hash.trans hhash.symm) (hfree k r h.row)
  · exact h.only j x hold hhash

/-- The session is accepted when its row is valid and its CSRF token can be read. -/
theorem Stands.accepts_eq (h : Stands deps raw db k r) :
    accepts deps db raw = (isValid db.now r && (decodeToken deps r.csrfToken).isSome) := by
  rw [accepts, resolve, Service.run_bind, repo, Service.run_request, h.sessionOf]
  dsimp only
  cases isValid db.now r with
  | false => rfl
  | true =>
    rw [if_pos rfl, Service.run_bind, Service.run_require]
    cases (decodeToken deps r.csrfToken).isSome <;> rfl

theorem accepts_of_absent
    (h : ∀ j x, db.sessions.row j = some x → x.tokenHash ≠ deps.sha256Hex raw.bytes) :
    accepts deps db raw = false := by
  have hnone : Auth.sessionOf deps db raw = none := by
    rw [Auth.sessionOf, Option.map_eq_none_iff, List.head?_eq_none_iff,
      List.eq_nil_iff_forall_not_mem]
    rintro ⟨j, x⟩ hmem
    obtain ⟨hx, hhash⟩ := Table.mem_select.mp hmem
    exact h j x hx (beq_iff_eq.mp hhash)
  rw [accepts, resolve, Service.run_bind, repo, Service.run_request, hnone]
  rfl

end Row

/-! ## The invariant -/

/-- What the row of the session knows of its life: it is not ahead of the last use,
and after a steady life it is behind by the throttle at most. -/
structure Tracked (deps : Deps) (raw csrf : Token) (u : UserId) (created : Instant)
    (s : SessionLife) (k : Nat) (r : Session) (last : Instant) (earlier : List Instant) :
    Prop where
  stands : Stands deps raw s.db k r
  user : r.userId = u
  csrf : r.csrfToken = deps.base64url csrf.bytes
  expires : r.expiresAt = created + absoluteCap
  revoked : r.revokedAt.isSome = s.revoked
  uses : s.uses = last :: earlier
  now : last ≤ s.db.now
  seen : r.lastSeenAt ≤ last
  fresh : Steady s.uses → last - lastSeenRefresh ≤ r.lastSeenAt

section Tracked

variable {deps : Deps} {raw csrf : Token} {u : UserId} {created last : Instant}
  {earlier : List Instant} {s : SessionLife} {k : Nat} {r : Session}

/-- A statement on the sessions that only ever revokes. -/
theorem Tracked.revoke (h : Tracked deps raw csrf u created s k r last earlier)
    (p : Nat → Session → Bool) (at' : Instant) (hit : Bool)
    (hp : p k r = (hit && r.revokedAt.isNone)) :
    Tracked deps raw csrf u created
      { s with
        db := { s.db with sessions := s.db.sessions.update p fun x => { x with revokedAt := some at' } }
        revoked := s.revoked || hit }
      k (if p k r then { r with revokedAt := some at' } else r) last earlier := by
  have hstands := h.stands.update p (fun x => { x with revokedAt := some at' }) fun _ => rfl
  have hrevoked := h.revoked
  cases hk : p k r with
  | true =>
    rw [hk] at hstands hp
    have hhit : hit = true := by
      cases hit with
      | true => rfl
      | false => cases hp
    exact ⟨hstands, h.user, h.csrf, h.expires, by simp [hhit], h.uses, h.now, h.seen, h.fresh⟩
  | false =>
    rw [hk] at hstands hp
    refine ⟨hstands, h.user, h.csrf, h.expires, ?_, h.uses, h.now, h.seen, h.fresh⟩
    show r.revokedAt.isSome = (s.revoked || hit)
    rw [← hrevoked]
    cases hit with
    | false => simp
    | true =>
      cases hr : r.revokedAt with
      | none => simp [hr] at hp
      | some t => rfl

theorem sub_le_of_sub_lt {now seen idle : Int} (h : now - idle < seen) : now - seen ≤ idle := by
  omega

/-- A gap that leaves room for the throttle. -/
theorem sub_lt_of_gap {now last seen idle refresh : Int} (hgap : now - last < idle - refresh)
    (hfresh : last - refresh ≤ seen) : now - idle < seen := by
  omega

theorem isValid_of_isStale {now : Instant} {x : Session} (h : isStale now x = true) :
    isValid now x = true := by
  simp only [isStale, isValid, Bool.and_eq_true, decide_eq_true_eq] at h ⊢
  obtain ⟨⟨⟨hrevoked, hexpires⟩, hidle⟩, _⟩ := h
  exact ⟨⟨hrevoked, hexpires⟩, sub_le_of_sub_lt hidle⟩

/-- A valid session whose idle time is not exactly at the limit is stale as soon as
the throttle allows. -/
theorem le_lastSeenAt_of_isValid {now : Instant} {x : Session} (hvalid : isValid now x = true)
    (hstale : isStale now x = false) (hidle : now - inactiveIdle < x.lastSeenAt) :
    now - lastSeenRefresh ≤ x.lastSeenAt := by
  simp only [isValid, Bool.and_eq_true, decide_eq_true_eq] at hvalid
  obtain ⟨⟨hrevoked, hexpires⟩, _⟩ := hvalid
  simpa [isStale, hrevoked, hexpires, hidle] using hstale

theorem lastSeenRefresh_nonneg : 0 ≤ lastSeenRefresh := by decide

/-- A session that is presented. -/
theorem Tracked.present (h : Tracked deps raw csrf u created s k r last earlier)
    (hread : (decodeToken deps r.csrfToken).isSome = true) {raw' : Token}
    (hsame : isSame deps raw raw' = true) :
    ∃ r last earlier,
      Tracked deps raw csrf u created (s.exec deps raw u (.present raw')) k r last earlier := by
  have hhash : deps.sha256Hex raw'.bytes = deps.sha256Hex raw.bytes := beq_iff_eq.mp hsame
  have hstands' : Stands deps raw' s.db k r :=
    ⟨h.stands.row, hhash ▸ h.stands.hash, hhash ▸ h.stands.only⟩
  have htouched := h.stands.update
    (fun _ x => x.tokenHash == deps.sha256Hex raw'.bytes && isStale s.db.now x)
    (fun x => { x with lastSeenAt := s.db.now }) fun _ => rfl
  have hhit : (r.tokenHash == deps.sha256Hex raw'.bytes && isStale s.db.now r) =
      isStale s.db.now r := by rw [hstands'.hash, beq_self_eq_true, Bool.true_and]
  rw [hhit] at htouched
  simp only [SessionLife.exec, resolve_run, hsame, Bool.true_and, hstands'.accepts_eq, hread,
    Bool.and_true]
  cases hvalid : isValid s.db.now r with
  | false =>
    have hstale : isStale s.db.now r = false := by
      cases hstale : isStale s.db.now r with
      | false => rfl
      | true => rw [isValid_of_isStale hstale] at hvalid; cases hvalid
    rw [hstale] at htouched
    exact ⟨r, last, earlier, htouched, h.user, h.csrf, h.expires, h.revoked, h.uses, h.now, h.seen,
      h.fresh⟩
  | true =>
    cases hstale : isStale s.db.now r with
    | true =>
      rw [hstale] at htouched
      exact ⟨_, s.db.now, s.uses, htouched, h.user, h.csrf, h.expires, h.revoked, rfl,
        Int.le_refl _, Int.le_refl _, fun _ => Int.sub_le_self _ lastSeenRefresh_nonneg⟩
    | false =>
      rw [hstale] at htouched
      refine ⟨r, s.db.now, s.uses, htouched, h.user, h.csrf, h.expires, h.revoked, rfl,
        Int.le_refl _, h.seen.trans h.now, fun hsteady => ?_⟩
      have hsteady' : Steady (s.db.now :: last :: earlier) := by
        rw [← h.uses]
        exact hsteady
      obtain ⟨hgap, hbefore⟩ := List.isChain_cons_cons.mp hsteady'
      have hfresh := h.fresh (h.uses ▸ hbefore)
      exact le_lastSeenAt_of_isValid hvalid hstale (sub_lt_of_gap hgap hfresh)

/-- A step keeps the session tracked. -/
theorem Tracked.exec (h : Tracked deps raw csrf u created s k r last earlier)
    (hread : (decodeToken deps (deps.base64url csrf.bytes)).isSome = true) (op : SessionOp) :
    ∃ r last earlier,
      Tracked deps raw csrf u created (s.exec deps raw u op) k r last earlier := by
  cases op with
  | wait duration =>
    have hnow : last ≤ s.db.now + duration :=
      h.now.trans (Int.le_add_of_nonneg_right (Int.natCast_nonneg _))
    exact ⟨r, last, earlier, ⟨h.stands.row, h.stands.hash, h.stands.only⟩, h.user, h.csrf,
      h.expires, h.revoked, h.uses, hnow, h.seen, h.fresh⟩
  | create v raw' csrf' =>
    rw [SessionLife.exec]
    cases hcreate : createSession deps s.db v raw' csrf' with
    | error e => exact ⟨r, last, earlier, h⟩
    | ok x =>
      obtain ⟨hstands, hnow⟩ := h.stands.create hcreate
      exact ⟨r, last, earlier, hstands, h.user, h.csrf, h.expires, h.revoked, h.uses,
        by show last ≤ x.2.now; rw [hnow]; exact h.now, h.seen, h.fresh⟩
  | present raw' =>
    cases hsame : isSame deps raw raw' with
    | true => exact h.present (h.csrf ▸ hread) hsame
    | false =>
      have hother : (r.tokenHash == deps.sha256Hex raw'.bytes) = false := by
        rw [h.stands.hash]
        exact beq_eq_false_iff_ne.mpr fun heq => by simp [isSame, heq] at hsame
      have htouched := h.stands.update
        (fun _ x => x.tokenHash == deps.sha256Hex raw'.bytes && isStale s.db.now x)
        (fun x => { x with lastSeenAt := s.db.now }) fun _ => rfl
      rw [hother, Bool.false_and] at htouched
      simp only [SessionLife.exec, resolve_run, hsame, Bool.false_and]
      exact ⟨r, last, earlier, htouched, h.user, h.csrf, h.expires, h.revoked, h.uses, h.now,
        h.seen, h.fresh⟩
  | revoke raw' =>
    refine ⟨_, last, earlier, h.revoke _ s.db.now (isSame deps raw raw') ?_⟩
    rw [h.stands.hash, isSame, Bool.beq_comm]
  | revokeAll v =>
    refine ⟨_, last, earlier, h.revoke _ s.db.now (v == u) ?_⟩
    rw [h.user, Bool.beq_comm]
  | revokeAllExcept v keep =>
    refine ⟨_, last, earlier, h.revoke _ s.db.now (v == u && !isSame deps raw keep) ?_⟩
    rw [h.user, h.stands.hash, isSame, bne, Bool.beq_comm,
      Bool.beq_comm (a := deps.sha256Hex raw.bytes)]

/-- What the row knows is enough for the promise. -/
theorem Tracked.right (h : Tracked deps raw csrf u created s k r last earlier)
    (hread : (decodeToken deps (deps.base64url csrf.bytes)).isSome = true) :
    LifetimeRight deps raw created s := by
  have haccepts : accepts deps s.db raw = isValid s.db.now r := by
    rw [h.stands.accepts_eq, h.csrf, hread, Bool.and_true]
  refine ⟨fun haccepted => ?_, fun hrevoked hcap hsteady => ?_⟩
  · rw [haccepts] at haccepted
    simp only [isValid, Bool.and_eq_true, decide_eq_true_eq, Option.isNone_iff_eq_none]
      at haccepted
    obtain ⟨⟨hnone, hexpires⟩, hidle⟩ := haccepted
    exact ⟨by rw [← h.revoked, hnone]; rfl, h.expires ▸ hexpires, last, by rw [h.uses]; rfl,
      (Int.sub_le_sub_left h.seen _).trans hidle⟩
  · rw [haccepts]
    rw [h.uses] at hsteady
    obtain ⟨hgap, hbefore⟩ := List.isChain_cons_cons.mp hsteady
    have hfresh := h.fresh (h.uses ▸ hbefore)
    have hnone : r.revokedAt.isNone = true := by
      rw [← Option.not_isSome, h.revoked, hrevoked]
      rfl
    simp only [isValid, hnone, h.expires, hcap, decide_true, Bool.true_and, decide_eq_true_eq]
    exact sub_le_of_sub_lt (sub_lt_of_gap hgap hfresh)

end Tracked

/-! ## Over a run -/

/-- After its creation a session is accepted only within its limits, and whenever it
is used steadily. -/
theorem session_lifetime {deps : Deps} {db db' : Db} {u : UserId} {raw csrf : Token}
    (hread : decodeToken deps (deps.base64url csrf.bytes) = some csrf)
    (hcreate : createSession deps db u raw csrf = .ok ((), db')) (ops : List SessionOp) :
    Runs.Throughout (SessionLife.exec deps raw u) (LifetimeRight deps raw db.now)
      ⟨db', [db.now], false⟩ ops := by
  have hsome : (decodeToken deps (deps.base64url csrf.bytes)).isSome = true := by
    rw [hread]
    rfl
  refine Runs.Throughout.of_invariant
    (J := fun s => ∃ k r last earlier, Tracked deps raw csrf u db.now s k r last earlier)
    (fun s op ⟨k, r, last, earlier, h⟩ => ⟨k, h.exec hsome op⟩)
    (fun s ⟨k, r, last, earlier, h⟩ => h.right hsome) ?_
  obtain ⟨hfree, hmade⟩ := createSession_eq_ok hcreate
  cases hmade
  refine ⟨_, _, db.now, [], ⟨Table.row_insert_next _ _, rfl, fun j x hx hhash => ?_⟩, rfl, rfl, rfl,
    rfl, rfl, Int.le_refl _, Int.le_refl _, fun _ => Int.sub_le_self _ lastSeenRefresh_nonneg⟩
  rcases Table.row_insert_eq_some.mp hx with ⟨rfl, _⟩ | hold
  · rfl
  · exact absurd hhash (hfree j x hold)

/-- A database with one user. -/
def oneUser : Db :=
  { Db.empty 0 with
    users := Table.empty.insert
      { email := "a@example.com", displayName := none, accountState := .active, locale := .en
        createdAt := 0 } }

/-- The database after the user has signed in. -/
def oneUserSignedIn : Db :=
  { oneUser with
    sessions := oneUser.sessions.insert
      { tokenHash := sampleDeps.sha256Hex zeroToken.bytes, userId := 1
        csrfToken := sampleDeps.base64url oneToken.bytes, createdAt := 0, lastSeenAt := 0
        expiresAt := 0 + absoluteCap } }

/-- The user comes back after three weeks, and signs out after three more. -/
theorem session_lifetime_weeks :
    decodeToken sampleDeps (sampleDeps.base64url oneToken.bytes) = some oneToken ∧
      createSession sampleDeps oneUser 1 zeroToken oneToken = .ok ((), oneUserSignedIn) ∧
      Runs.Throughout (SessionLife.exec sampleDeps zeroToken 1)
        (LifetimeRight sampleDeps zeroToken 0) ⟨oneUserSignedIn, [0], false⟩
        [.wait 1814400000000, .present zeroToken, .wait 1814400000000, .revoke zeroToken] := by
  have hread : decodeToken sampleDeps (sampleDeps.base64url oneToken.bytes) = some oneToken := by
    decide +kernel
  have hcreate : createSession sampleDeps oneUser 1 zeroToken oneToken =
      .ok ((), oneUserSignedIn) := rfl
  exact ⟨hread, hcreate, session_lifetime hread hcreate _⟩

end BikesNest.Auth
