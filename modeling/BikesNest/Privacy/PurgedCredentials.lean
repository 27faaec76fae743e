import BikesNest.Auth.SessionLifetime
import BikesNest.Privacy.Export
import BikesNest.Privacy.RetentionJob

/-!
# What the purges take from the holder of a credential

The retention job deletes expired sessions, tokens and exports.  A run of the
operations on them goes on after the purges and without them, and the two runs
are compared answer by answer.

* `Spared` relates the two databases: the purged one lacks dead rows only, which no
  later call accepts.
* `Spared.exec` keeps the relation for every operation, with equal answers.
* `purges_invisible_iff` says for which policies the purges are invisible.  They
  take the idle time of a session from the policy, where `resolve` has its own.
-/

namespace BikesNest.Privacy

open Domain Store Relational Auth

/-! ## The operations -/

/-- The purges of sessions, tokens and exports, in the order of the job. -/
def purged (policy : RetentionPolicy) (db : Db) : Db :=
  let db := (purgeExpiredPasswordResetTokens db db.now).2
  let db := (purgeExpiredEmailVerificationTokens db db.now).2
  let db := (purgeExpiredSessions policy db db.now).2
  (purgeExpiredExports db db.now).2

/-- What goes on after the purges. -/
inductive CredentialOp where
  | wait (duration : Nat)
  | signIn (u : UserId) (raw csrf : Token)
  | resolve (raw : Token)
  | revoke (raw : Token)
  | revokeAll (u : UserId)
  | revokeAllExcept (u : UserId) (keep : Token)
  | issueVerification (u : UserId) (email : String) (raw : Token)
  | consumeVerification (raw : Token)
  | issueReset (u : UserId) (raw : Token)
  | consumeReset (raw : Token)
  | exportData (u : UserId) (token : Token) (payload : Json)
  | consumeDownload (id : Nat) (token : Token)
  | anonymize (u : UserId)
  | purge

/-- The database after a statement. -/
def landed {ε α : Type} (db : Db) : Except ε (α × Db) → Db
  | .ok (_, db') => db'
  | .error _ => db

/-- Did a call answer `Ok`? -/
def isOk {ε α : Type} : Except ε α → Bool
  | .ok _ => true
  | .error _ => false

namespace CredentialOp

variable {π : Type} (deps : Deps) (fromValue : Json → Option π) (policy : RetentionPolicy)

/-- The database after an operation. -/
def exec (db : Db) : CredentialOp → Db
  | .wait duration => { db with now := db.now + duration }
  | .signIn u raw csrf => landed db (createSession deps db u raw csrf)
  | .resolve raw => ((Auth.resolve deps raw db.now).run db).2
  | .revoke raw => Auth.revoke deps db raw
  | .revokeAll u => revokeAllForUser db u
  | .revokeAllExcept u keep => revokeAllForUserExcept deps db u keep
  | .issueVerification u email raw => landed db (Auth.issueVerification deps db u email raw)
  | .consumeVerification raw => (Auth.consumeVerification deps db raw).2
  | .issueReset u raw => landed db (Auth.issueReset deps db u raw db.now)
  | .consumeReset raw => (Auth.consumeReset deps db raw db.now).2
  | .exportData u token payload =>
    landed db (createExport deps db u token payload (db.now + exportTtl))
  | .consumeDownload id token =>
    ((Privacy.consumeDownload deps fromValue id token db.now).run db).2
  | .anonymize u => scrubbed db u db.now
  | .purge => purged policy db

/-- Does the operation succeed? -/
def succeeds (db : Db) : CredentialOp → Bool
  | .signIn u raw csrf => isOk (createSession deps db u raw csrf)
  | .resolve raw => accepts deps db raw
  | .issueVerification u email raw => isOk (Auth.issueVerification deps db u email raw)
  | .consumeVerification raw => (Auth.consumeVerification deps db raw).1.isSome
  | .issueReset u raw => isOk (Auth.issueReset deps db u raw db.now)
  | .consumeReset raw => (Auth.consumeReset deps db raw db.now).1.isSome
  | .exportData u token payload =>
    isOk (createExport deps db u token payload (db.now + exportTtl))
  | .consumeDownload id token =>
    isOk ((Privacy.consumeDownload deps fromValue id token db.now).run db).1
  | _ => true

/-- The generator does not give a token out that is in use. -/
def isFresh (db : Db) : CredentialOp → Bool
  | .signIn _ raw _ => !db.sessions.any fun _ r => r.tokenHash == deps.sha256Hex raw.bytes
  | .issueVerification _ _ raw =>
    !db.emailVerificationTokens.any fun _ r => r.tokenHash == deps.sha256Hex raw.bytes
  | .issueReset _ raw =>
    !db.passwordResetTokens.any fun _ r => r.tokenHash == deps.sha256Hex raw.bytes
  | _ => true

/-- Which of the operations succeed, one after the other. -/
def outcomes (db : Db) : List CredentialOp → List Bool
  | [] => []
  | op :: ops =>
    op.succeeds deps fromValue db :: outcomes (op.exec deps fromValue policy db) ops

end CredentialOp

/-! ## Dead rows -/

/-- No later call accepts the session. -/
def DeadSession (now : Instant) (r : Session) : Prop :=
  r.expiresAt < now ∨ r.lastSeenAt < now - inactiveIdle

/-- The primary key of `sessions`. -/
def UniqueHashes (db : Db) : Prop :=
  ∀ i j x y, db.sessions.row i = some x → db.sessions.row j = some y →
    x.tokenHash = y.tokenHash → i = j

theorem DeadSession.mono {now now' : Instant} {r : Session} (h : DeadSession now r)
    (hle : now ≤ now') : DeadSession now' r := by
  rcases h with hexpired | hidle
  · exact .inl (lt_of_lt_of_le hexpired hle)
  · exact .inr (lt_of_lt_of_le hidle (Int.sub_le_sub_right hle _))

theorem not_sub_le_of_lt {now seen idle : Int} (h : seen < now - idle) : ¬ now - seen ≤ idle := by
  omega

theorem DeadSession.not_valid {now : Instant} {r : Session} (h : DeadSession now r) :
    isValid now r = false := by
  rcases h with hexpired | hidle
  · simp [isValid, Int.not_le.mpr hexpired]
  · have hlong : ¬ now - r.lastSeenAt ≤ inactiveIdle := not_sub_le_of_lt hidle
    simp [isValid, hlong]

theorem DeadSession.not_stale {now : Instant} {r : Session} (h : DeadSession now r) :
    isStale now r = false := by
  cases hstale : isStale now r with
  | false => rfl
  | true =>
    have hvalid := isValid_of_isStale hstale
    rw [h.not_valid] at hvalid
    cases hvalid

/-! ## The purged database -/

/-- `db'` is the database without some of its dead rows. -/
structure Spared (db db' : Db) : Prop where
  now : db'.now = db.now
  users : db'.users = db.users
  sessions : Table.Thinned (DeadSession db.now) db.sessions db'.sessions
  verifications : Table.Thinned (fun r => r.expiresAt < db.now) db.emailVerificationTokens
    db'.emailVerificationTokens
  resets : Table.Thinned (fun r => r.expiresAt < db.now) db.passwordResetTokens
    db'.passwordResetTokens
  exports : Table.Thinned (fun r => r.expiresAt < db.now) db.personalDataExport
    db'.personalDataExport
  unique : UniqueHashes db

/-- The purges under a policy that leaves sessions at least as long as `resolve`. -/
theorem Spared.of_purged {policy : RetentionPolicy} {db : Db} (hunique : UniqueHashes db)
    (hidle : inactiveIdle ≤ policy.sessionIdle) : Spared db (purged policy db) where
  now := rfl
  users := rfl
  sessions := Table.Thinned.of_delete fun _ r hr => by
    simp only [isExpired, Bool.or_eq_true, decide_eq_true_eq] at hr
    rcases hr with hexpired | hlong
    · exact .inl hexpired
    · exact .inr (lt_of_lt_of_le hlong (Int.sub_le_sub_left hidle _))
  verifications := Table.Thinned.of_delete fun _ _ hr => of_decide_eq_true hr
  resets := Table.Thinned.of_delete fun _ _ hr => of_decide_eq_true hr
  exports := Table.Thinned.of_delete fun _ _ hr => of_decide_eq_true hr
  unique := hunique

theorem UniqueHashes.update {db : Db} (h : UniqueHashes db) (p : Nat → Session → Bool)
    {f : Session → Session} (hf : ∀ x, (f x).tokenHash = x.tokenHash) {db' : Db}
    (hdb' : db'.sessions = db.sessions.update p f) : UniqueHashes db' := by
  intro i j x y hx hy hhash
  rw [hdb'] at hx hy
  obtain ⟨x', hx', rfl⟩ := Table.row_update_eq_some.mp hx
  obtain ⟨y', hy', rfl⟩ := Table.row_update_eq_some.mp hy
  refine h i j x' y' hx' hy' ?_
  have hkept : ∀ k z, (if p k z then f z else z).tokenHash = z.tokenHash := by
    intro k z
    split
    · exact hf z
    · rfl
  rwa [hkept, hkept] at hhash

theorem UniqueHashes.delete {db : Db} (h : UniqueHashes db) (p : Nat → Session → Bool) {db' : Db}
    (hdb' : db'.sessions = db.sessions.delete p) : UniqueHashes db' := by
  intro i j x y hx hy hhash
  rw [hdb'] at hx hy
  exact h i j x y (Table.row_delete_eq_some.mp hx).1 (Table.row_delete_eq_some.mp hy).1 hhash

section Spared

variable {π : Type} {deps : Deps} {fromValue : Json → Option π} {policy : RetentionPolicy}
  {db db' : Db}

/-- Nothing dead comes back to life. -/
theorem Spared.wait (h : Spared db db') (duration : Nat) :
    Spared { db with now := db.now + duration } { db' with now := db'.now + duration } := by
  have hle : db.now ≤ db.now + duration := Int.le_add_of_nonneg_right (Int.natCast_nonneg _)
  exact ⟨by show db'.now + duration = _; rw [h.now], h.users,
    h.sessions.mono fun r hr => hr.mono hle, h.verifications.mono fun r hr => lt_of_lt_of_le hr hle,
    h.resets.mono fun r hr => lt_of_lt_of_le hr hle, h.exports.mono fun r hr => lt_of_lt_of_le hr hle,
    h.unique⟩

/-- An update of the sessions that neither wakes a dead one nor writes a hash.  The
clauses of both databases are the same once the times are. -/
theorem Spared.updateSessions (h : Spared db db') {p p' : Nat → Session → Bool}
    {f f' : Session → Session} (hp : p' = p) (hf : f' = f)
    (hdead : ∀ i r, DeadSession db.now r → p i r = true → DeadSession db.now (f r))
    (hhash : ∀ x, (f x).tokenHash = x.tokenHash) :
    Spared { db with sessions := db.sessions.update p f }
      { db' with sessions := db'.sessions.update p' f' } := by
  subst hp hf
  exact ⟨h.now, h.users, h.sessions.update hdead, h.verifications, h.resets, h.exports,
    h.unique.update _ hhash rfl⟩

/-- A revoked session stays dead. -/
theorem Spared.revokeSessions (h : Spared db db') (p : Nat → Session → Bool) :
    Spared
      { db with sessions := db.sessions.update p fun r => { r with revokedAt := some db.now } }
      { db' with sessions := db'.sessions.update p fun r => { r with revokedAt := some db'.now } } :=
  h.updateSessions rfl (by rw [h.now]) (fun _ _ hdead _ => hdead) fun _ => rfl

/-- A use of a session wakes no dead one. -/
theorem Spared.touched (h : Spared db db') (raw : Token) :
    Spared (touched deps db raw db.now) (touched deps db' raw db'.now) := by
  refine h.updateSessions (by rw [h.now]) (by rw [h.now]) (fun i r hdead hp => ?_) fun _ => rfl
  rw [hdead.not_stale, Bool.and_false] at hp
  cases hp

theorem Spared.accepts_eq (h : Spared db db') (raw : Token) :
    accepts deps db' raw = accepts deps db raw := by
  by_cases hsome : ∃ k r, db.sessions.row k = some r ∧ r.tokenHash = deps.sha256Hex raw.bytes
  · obtain ⟨k, r, hr, hhash⟩ := hsome
    have honly : ∀ j x, db.sessions.row j = some x → x.tokenHash = deps.sha256Hex raw.bytes →
        j = k := fun j x hx hx' => h.unique j k x r hx hr (hx'.trans hhash.symm)
    have hstands : Stands deps raw db k r := ⟨hr, hhash, honly⟩
    rcases h.sessions.row k with hsame | ⟨hnone, r', hr', hdead⟩
    · have hstands' : Stands deps raw db' k r :=
        ⟨hsame.trans hr, hhash, fun j x hx => honly j x (h.sessions.row_eq_some hx)⟩
      rw [hstands.accepts_eq, hstands'.accepts_eq, h.now]
    · obtain rfl : r' = r := Option.some.inj (hr'.symm.trans hr)
      rw [hstands.accepts_eq, hdead.not_valid, Bool.false_and]
      refine accepts_of_absent fun j x hx hx' => ?_
      obtain rfl := honly j x (h.sessions.row_eq_some hx) hx'
      rw [hnone] at hx
      cases hx
  · have habsent : ∀ j x, db.sessions.row j = some x →
        x.tokenHash ≠ deps.sha256Hex raw.bytes := fun j x hx hx' => hsome ⟨j, x, hx, hx'⟩
    rw [accepts_of_absent habsent,
      accepts_of_absent fun j x hx => habsent j x (h.sessions.row_eq_some hx)]

/-- A new session, under a hash that is not in use. -/
theorem Spared.signIn (h : Spared db db') {u : UserId} {raw csrf : Token}
    (hfresh : (CredentialOp.signIn u raw csrf).isFresh deps db = true) :
    Spared (landed db (createSession deps db u raw csrf))
        (landed db' (createSession deps db' u raw csrf)) ∧
      isOk (createSession deps db' u raw csrf) = isOk (createSession deps db u raw csrf) := by
  have hnone : (db.sessions.any fun _ r => r.tokenHash == deps.sha256Hex raw.bytes) = false := by
    simpa [CredentialOp.isFresh] using hfresh
  rw [createSession, createSession, hnone, h.sessions.any_eq_false hnone, h.users, h.now]
  simp only [Bool.false_eq_true, if_false]
  split
  · exact ⟨h, rfl⟩
  · refine ⟨⟨rfl, rfl, h.sessions.insert _, h.verifications, h.resets, h.exports,
      fun i j x y hx hy hhash => ?_⟩, rfl⟩
    have hnew : ∀ k z, db.sessions.row k = some z → z.tokenHash ≠ deps.sha256Hex raw.bytes :=
      fun k z hz => by simpa using Table.any_eq_false_iff.mp hnone k z hz
    rcases Table.row_insert_eq_some.mp hx with ⟨rfl, rfl⟩ | hx
    · rcases Table.row_insert_eq_some.mp hy with ⟨rfl, rfl⟩ | hy
      · rfl
      · exact absurd hhash.symm (hnew j y hy)
    · rcases Table.row_insert_eq_some.mp hy with ⟨rfl, rfl⟩ | hy
      · exact absurd hhash (hnew i x hx)
      · exact h.unique i j x y hx hy hhash

theorem Spared.issueVerification (h : Spared db db') {u : UserId} {email : String} {raw : Token}
    (hfresh : (CredentialOp.issueVerification u email raw).isFresh deps db = true) :
    Spared (landed db (Auth.issueVerification deps db u email raw))
        (landed db' (Auth.issueVerification deps db' u email raw)) ∧
      isOk (Auth.issueVerification deps db' u email raw) =
        isOk (Auth.issueVerification deps db u email raw) := by
  have hnone : (db.emailVerificationTokens.any fun _ r =>
      r.tokenHash == deps.sha256Hex raw.bytes) = false := by
    simpa [CredentialOp.isFresh] using hfresh
  rw [Auth.issueVerification, Auth.issueVerification, hnone, h.verifications.any_eq_false hnone,
    h.users, h.now]
  simp only [Bool.false_eq_true, if_false]
  split
  · exact ⟨h, rfl⟩
  · exact ⟨⟨rfl, rfl, h.sessions, h.verifications.insert _, h.resets, h.exports, h.unique⟩,
      rfl⟩

theorem Spared.issueReset (h : Spared db db') {u : UserId} {raw : Token}
    (hfresh : (CredentialOp.issueReset u raw).isFresh deps db = true) :
    Spared (landed db (Auth.issueReset deps db u raw db.now))
        (landed db' (Auth.issueReset deps db' u raw db'.now)) ∧
      isOk (Auth.issueReset deps db' u raw db'.now) =
        isOk (Auth.issueReset deps db u raw db.now) := by
  have hnone : (db.passwordResetTokens.any fun _ r =>
      r.tokenHash == deps.sha256Hex raw.bytes) = false := by
    simpa [CredentialOp.isFresh] using hfresh
  rw [Auth.issueReset, Auth.issueReset, hnone, h.resets.any_eq_false hnone, h.users, h.now]
  simp only [Bool.false_eq_true, if_false]
  split
  · exact ⟨h, rfl⟩
  · exact ⟨⟨rfl, rfl, h.sessions, h.verifications, h.resets.insert _, h.exports, h.unique⟩,
      rfl⟩

theorem isLive_of_dead {tokenHash : String} {now : Instant} {r : EmailVerificationToken}
    (h : r.expiresAt < now) : isLive tokenHash now r = false := by
  simp [isLive, Int.not_lt.mpr (Int.le_of_lt h)]

theorem isLiveReset_of_dead {tokenHash : String} {now : Instant} {r : PasswordResetToken}
    (h : r.expiresAt < now) : isLiveReset tokenHash now r = false := by
  simp [isLiveReset, Int.not_lt.mpr (Int.le_of_lt h)]

/-- An expired token is not consumed. -/
theorem Spared.consumeVerification (h : Spared db db') (deps : Deps) (raw : Token) :
    Spared (Auth.consumeVerification deps db raw).2 (Auth.consumeVerification deps db' raw).2 ∧
      (Auth.consumeVerification deps db' raw).1 = (Auth.consumeVerification deps db raw).1 := by
  rw [Auth.consumeVerification, Auth.consumeVerification, liveVerification, liveVerification, h.now,
    h.verifications.select_eq fun _ _ hr => isLive_of_dead hr]
  exact ⟨⟨rfl, h.users, h.sessions, h.verifications.update fun _ _ hr _ => hr, h.resets, h.exports,
    h.unique⟩, rfl⟩

theorem Spared.consumeReset (h : Spared db db') (deps : Deps) (raw : Token) :
    Spared (Auth.consumeReset deps db raw db.now).2 (Auth.consumeReset deps db' raw db'.now).2 ∧
      (Auth.consumeReset deps db' raw db'.now).1 = (Auth.consumeReset deps db raw db.now).1 := by
  rw [Auth.consumeReset, Auth.consumeReset, liveReset, liveReset, h.now,
    h.resets.select_eq fun _ _ hr => isLiveReset_of_dead hr]
  exact ⟨⟨rfl, h.users, h.sessions, h.verifications, h.resets.update fun _ _ hr _ => hr, h.exports,
    h.unique⟩, rfl⟩

theorem Spared.exportData (h : Spared db db') (u : UserId) (token : Token) (payload : Json) :
    Spared (landed db (createExport deps db u token payload (db.now + exportTtl)))
        (landed db' (createExport deps db' u token payload (db'.now + exportTtl))) ∧
      isOk (createExport deps db' u token payload (db'.now + exportTtl)) =
        isOk (createExport deps db u token payload (db.now + exportTtl)) := by
  rw [createExport, createExport, h.users, h.now]
  split
  · exact ⟨h, rfl⟩
  · exact ⟨⟨rfl, rfl, h.sessions, h.verifications, h.resets, h.exports.insert _, h.unique⟩, rfl⟩

/-- An expired export is not downloaded, and not marked. -/
theorem consumeDownload_of_expired (deps : Deps) (fromValue : Json → Option π) {id : Nat} (token : Token)
    {r : PersonalDataExport} (hr : db.personalDataExport.row id = some r)
    (hexpired : r.expiresAt < db.now) :
    ∃ e, (Privacy.consumeDownload deps fromValue id token db.now).run db = (.error e, db) := by
  rw [consumeDownload_run_of_some deps fromValue token db.now hr]
  split
  · exact ⟨_, rfl⟩
  split
  · exact ⟨_, rfl⟩
  · rw [if_pos (.inr hexpired)]
    exact ⟨_, rfl⟩

theorem Spared.consumeDownload (h : Spared db db') (id : Nat) (token : Token) :
    Spared ((Privacy.consumeDownload deps fromValue id token db.now).run db).2
        ((Privacy.consumeDownload deps fromValue id token db'.now).run db').2 ∧
      isOk ((Privacy.consumeDownload deps fromValue id token db'.now).run db').1 =
        isOk ((Privacy.consumeDownload deps fromValue id token db.now).run db).1 := by
  rw [h.now]
  rcases h.exports.row id with hsame | ⟨hnone, r, hr, hdead⟩
  · cases hr : db.personalDataExport.row id with
    | none =>
      rw [consumeDownload_run_of_none deps fromValue token db.now hr,
        consumeDownload_run_of_none deps fromValue token db.now (hsame.trans hr)]
      exact ⟨h, rfl⟩
    | some r =>
      rw [consumeDownload_run_of_some deps fromValue token db.now hr,
        consumeDownload_run_of_some deps fromValue token db.now (hsame.trans hr)]
      split
      · exact ⟨h, rfl⟩
      split
      · exact ⟨h, rfl⟩
      split
      · exact ⟨h, rfl⟩
      · exact ⟨⟨h.now, h.users, h.sessions, h.verifications, h.resets,
          h.exports.update fun _ _ hr _ => hr, h.unique⟩, rfl⟩
  · obtain ⟨e, hrun⟩ := consumeDownload_of_expired deps fromValue token hr hdead
    rw [hrun, consumeDownload_run_of_none deps fromValue token db.now hnone]
    exact ⟨h, rfl⟩

/-- Every operation keeps the relation and answers the same. -/
theorem Spared.exec (h : Spared db db') (op : CredentialOp)
    (hfresh : op.isFresh deps db = true) :
    Spared (op.exec deps fromValue policy db) (op.exec deps fromValue policy db') ∧
      op.succeeds deps fromValue db' = op.succeeds deps fromValue db := by
  cases op with
  | wait duration => exact ⟨h.wait duration, rfl⟩
  | signIn u raw csrf => exact h.signIn hfresh
  | resolve raw =>
    refine ⟨?_, h.accepts_eq raw⟩
    rw [CredentialOp.exec, CredentialOp.exec, resolve_run, resolve_run]
    exact h.touched raw
  | revoke raw => exact ⟨h.revokeSessions _, rfl⟩
  | revokeAll u => exact ⟨h.revokeSessions _, rfl⟩
  | revokeAllExcept u keep => exact ⟨h.revokeSessions _, rfl⟩
  | issueVerification u email raw => exact h.issueVerification hfresh
  | consumeVerification raw =>
    obtain ⟨hspared, hsame⟩ := h.consumeVerification deps raw
    exact ⟨hspared, by rw [CredentialOp.succeeds, hsame]; rfl⟩
  | issueReset u raw => exact h.issueReset hfresh
  | consumeReset raw =>
    obtain ⟨hspared, hsame⟩ := h.consumeReset deps raw
    exact ⟨hspared, by rw [CredentialOp.succeeds, hsame]; rfl⟩
  | exportData u token payload => exact h.exportData u token payload
  | consumeDownload id token => exact h.consumeDownload id token
  | anonymize u =>
    refine ⟨⟨h.now, ?_, h.sessions.delete _, h.verifications.delete _, h.resets.delete _,
      h.exports.delete _, h.unique.delete _ rfl⟩, rfl⟩
    show db'.users.update _ _ = db.users.update _ _
    rw [h.users, h.now]
  | purge =>
    refine ⟨⟨h.now, h.users, ?_, ?_, ?_, ?_, h.unique.delete _ rfl⟩, rfl⟩
    · show Table.Thinned _ (db.sessions.delete _) (db'.sessions.delete fun _ r =>
        isExpired policy db'.now r)
      rw [h.now]
      exact h.sessions.delete _
    · show Table.Thinned _ (db.emailVerificationTokens.delete _)
        (db'.emailVerificationTokens.delete fun _ r => r.expiresAt < db'.now)
      rw [h.now]
      exact h.verifications.delete _
    · show Table.Thinned _ (db.passwordResetTokens.delete _)
        (db'.passwordResetTokens.delete fun _ r => r.expiresAt < db'.now)
      rw [h.now]
      exact h.resets.delete _
    · show Table.Thinned _ (db.personalDataExport.delete _)
        (db'.personalDataExport.delete fun _ r => r.expiresAt < db'.now)
      rw [h.now]
      exact h.exports.delete _

/-- Along a run with fresh tokens every answer is the same. -/
theorem Spared.outcomes_eq (ops : List CredentialOp) (h : Spared db db')
    (hfresh : Runs.Along (CredentialOp.exec deps fromValue policy)
      (fun db op => op.isFresh deps db = true) db ops) :
    CredentialOp.outcomes deps fromValue policy db ops =
      CredentialOp.outcomes deps fromValue policy db' ops := by
  induction ops generalizing db db' with
  | nil => rfl
  | cons op ops ih =>
    have hstep : Spared (op.exec deps fromValue policy db) (op.exec deps fromValue policy db') ∧
        op.succeeds deps fromValue db' = op.succeeds deps fromValue db := h.exec op hfresh.1
    obtain ⟨hnext, hsame⟩ := hstep
    rw [CredentialOp.outcomes, CredentialOp.outcomes, hsame, ih hnext hfresh.2]

end Spared

/-! ## The policies that take nothing -/

/-- A user whose session was last seen one microsecond before the idle time of the
policy began. -/
def justIdle (deps : Deps) (raw csrf : Token) (policy : RetentionPolicy) : Db :=
  { oneUser with
    now := policy.sessionIdle + 1
    sessions := Table.empty.insert
      { tokenHash := deps.sha256Hex raw.bytes, userId := 1, csrfToken := deps.base64url csrf.bytes
        createdAt := 0, lastSeenAt := 0, expiresAt := absoluteCap } }

theorem row_justIdle {deps : Deps} {raw csrf : Token} {policy : RetentionPolicy} {j : Nat}
    {x : Session} (h : (justIdle deps raw csrf policy).sessions.row j = some x) :
    j = 1 ∧ x.lastSeenAt = 0 := by
  rcases Table.row_insert_eq_some.mp h with ⟨rfl, rfl⟩ | hold
  · exact ⟨rfl, rfl⟩
  · cases hold

theorem uniqueHashes_justIdle (deps : Deps) (raw csrf : Token) (policy : RetentionPolicy) :
    UniqueHashes (justIdle deps raw csrf policy) :=
  fun _ _ _ _ hx hy _ => (row_justIdle hx).1.trans (row_justIdle hy).1.symm

/-- A policy that is shorter than the limit of `resolve` takes a session that would
have been accepted. -/
theorem justIdle_taken {deps : Deps} (raw : Token) {csrf : Token} {policy : RetentionPolicy}
    (hread : (decodeToken deps (deps.base64url csrf.bytes)).isSome = true)
    (hshort : policy.sessionIdle < inactiveIdle) :
    accepts deps (justIdle deps raw csrf policy) raw = true ∧
      accepts deps (purged policy (justIdle deps raw csrf policy)) raw = false := by
  constructor
  · have hstands : Stands deps raw (justIdle deps raw csrf policy) 1
        { tokenHash := deps.sha256Hex raw.bytes, userId := 1
          csrfToken := deps.base64url csrf.bytes
          createdAt := 0, lastSeenAt := 0, expiresAt := absoluteCap } :=
      ⟨rfl, rfl, fun j x hx _ => (row_justIdle hx).1⟩
    rw [hstands.accepts_eq, hread, Bool.and_true]
    have hcap : inactiveIdle ≤ absoluteCap := by decide
    have hidle : policy.sessionIdle + 1 ≤ inactiveIdle := hshort
    have hseen : policy.sessionIdle + 1 - 0 ≤ inactiveIdle := by rwa [Int.sub_zero]
    simp only [isValid, justIdle, Option.isNone_none, Bool.true_and, Bool.and_eq_true]
    exact ⟨decide_eq_true (hidle.trans hcap), decide_eq_true hseen⟩
  · refine accepts_of_absent fun j x hx _ => ?_
    obtain ⟨hrow, hkept⟩ := Table.row_delete_eq_some.mp hx
    have hseen := (row_justIdle hrow).2
    have hlong : (0 : Int) < policy.sessionIdle + 1 - policy.sessionIdle := by omega
    simp only [isExpired, Bool.or_eq_false_iff, decide_eq_false_iff_not] at hkept
    exact hkept.2 (by rw [hseen]; exact hlong)

/-- The purges are invisible exactly when the policy leaves a session for as long as
`resolve` accepts it. -/
theorem purges_invisible_iff {π : Type} {deps : Deps} {csrf : Token}
    (hread : decodeToken deps (deps.base64url csrf.bytes) = some csrf)
    (fromValue : Json → Option π) (policy : RetentionPolicy) :
    (∀ (db : Db) (ops : List CredentialOp), UniqueHashes db →
      Runs.Along (CredentialOp.exec deps fromValue policy)
        (fun db op => op.isFresh deps db = true) db ops →
      CredentialOp.outcomes deps fromValue policy db ops =
        CredentialOp.outcomes deps fromValue policy (purged policy db) ops) ↔
      inactiveIdle ≤ policy.sessionIdle := by
  constructor
  · intro h
    refine Int.not_lt.mp fun hshort => ?_
    obtain ⟨haccepted, htaken⟩ := justIdle_taken zeroToken (by rw [hread]; rfl) hshort
    have hsame := h _ [.resolve zeroToken] (uniqueHashes_justIdle deps zeroToken csrf policy)
      ⟨rfl, trivial⟩
    simp only [CredentialOp.outcomes, CredentialOp.succeeds, haccepted, htaken] at hsame
    cases hsame
  · intro hidle db ops hunique hfresh
    exact (Spared.of_purged hunique hidle).outcomes_eq ops hfresh

/-- What `serde_json` makes of a payload, for the examples. -/
def rawPayload (payload : Json) : Option Json := some payload

/-- A user whose session is refused, who is refused again a week later and resets the password, and
who presents the session once more behind a purge. -/
def weekAway : List CredentialOp :=
  [.resolve zeroToken, .wait 604800000000, .resolve zeroToken, .issueReset 1 oneToken,
    .consumeReset oneToken, .purge, .resolve zeroToken]

/-- The default policy takes the session that was seen more than 30 days ago, which is refused with
and without the purge. -/
theorem purges_invisible_default :
    decodeToken sampleDeps (sampleDeps.base64url oneToken.bytes) = some oneToken ∧
      CredentialOp.outcomes sampleDeps rawPayload {} (justIdle sampleDeps zeroToken oneToken {})
          weekAway =
        CredentialOp.outcomes sampleDeps rawPayload {}
          (purged {} (justIdle sampleDeps zeroToken oneToken {})) weekAway := by
  have hread : decodeToken sampleDeps (sampleDeps.base64url oneToken.bytes) = some oneToken := by
    decide +kernel
  refine ⟨hread, (purges_invisible_iff hread rawPayload {}).mpr (by decide) _ _
    (uniqueHashes_justIdle _ _ _ _) ?_⟩
  decide +kernel

/-- `RETENTION_SESSION_IDLE_SECONDS=86400`. -/
def oneDayIdle : RetentionPolicy := { sessionIdle := day }

/-- Under a shorter policy the purge takes a session that would be accepted. -/
theorem purges_not_invisible :
    ¬ ∀ policy : RetentionPolicy, 0 ≤ policy.sessionIdle → 0 ≤ policy.uploadOrphanTtl →
      ∀ (db : Db) (ops : List CredentialOp), UniqueHashes db →
        Runs.Along (CredentialOp.exec sampleDeps rawPayload policy)
          (fun db op => op.isFresh sampleDeps db = true) db ops →
        CredentialOp.outcomes sampleDeps rawPayload policy db ops =
          CredentialOp.outcomes sampleDeps rawPayload policy (purged policy db) ops := by
  intro h
  have hsame := h oneDayIdle (by decide) (by decide)
    (justIdle sampleDeps zeroToken oneToken oneDayIdle) [.resolve zeroToken]
    (uniqueHashes_justIdle _ _ _ _) ⟨rfl, trivial⟩
  exact absurd hsame (by decide +kernel)

end BikesNest.Privacy
