import BikesNest.Auth.SessionLifetime
import BikesNest.Lib.Outline
import BikesNest.Privacy.Export
import BikesNest.Privacy.RetentionJob

/-!
# A download link is single-use

Any number of downloads of one export run at the same time as the purges of the
retention job.  In every run at most one download returns the payload, and none after
the end of the export.  A download answers `AlreadyDownloaded` also when its update finds
no row for another reason: the export has been purged, or ends at that very instant.
When every update finds the export there and not ended, `AlreadyDownloaded` is the truth.

`Stage` says where one operation stands, and `OneTaker` what holds between them.
-/

namespace BikesNest.Privacy

open Domain Store Relational Auth Runs Threads

/-- An operation on one export with what it is called with. -/
inductive DownloadOp where
  | consume (token : Token) (now : Instant)
  | purge (now : Instant)

section Script

variable {π : Type} (deps : Deps) (fromValue : Json → Option π) (id : Nat)

/-- A download answers the payload; a purge answers none. -/
def DownloadOp.script : DownloadOp → Service Db PrivacyError (Option π)
  | .consume token now => consumeDownload deps fromValue id token now >>= fun payload =>
    return some payload
  | .purge now => Privacy.purge (fun db => purgeExpiredExports db now) >>= fun _ => return none

/-- The rest of a download once the row is checked. -/
def takeExport (now : Instant) (row : PersonalDataExport) : Service Db PrivacyError π := do
  let affected ← repo fun db =>
    .ok (db.personalDataExport.affected (isReady id now), downloaded db id now)
  Service.require (affected == 1) .alreadyDownloaded
  match fromValue row.payload with
  | none => Service.throw .internal
  | some payload => return payload

/-- The checks of a download and what follows. -/
def checkRow (token : Token) (now : Instant) (row check : PersonalDataExport) :
    Service Db PrivacyError π := do
  Service.require (constantTimeHexEq check.tokenHash (deps.sha256Hex token.bytes)) .invalidToken
  Service.require (check.state != .downloaded) .alreadyDownloaded
  Service.require (!(check.state == .expired || check.expiresAt < now)) .expired
  takeExport fromValue id now row

/-- The rest of a download once the payload is read. -/
def checkExport (token : Token) (now : Instant) (row : PersonalDataExport) :
    Service Db PrivacyError π :=
  findExport id >>= checkRow deps fromValue id token now row

end Script

section Pool

variable {π : Type}

abbrev DownloadPool (π : Type) := Pool Db PrivacyError (Option π) DownloadOp

abbrev DownloadThread (π : Type) := Thread Db PrivacyError (Option π) DownloadOp

/-- Two finds come before the update that takes the export. -/
def isTaking (t : DownloadThread π) : Bool := t.found.length == 2

/-- The update of a download, if it comes next, finds the export in the table and not
ended. -/
def finds (id : Nat) (db : Db) (t : DownloadThread π) : Bool :=
  match t.op with
  | .consume _ now => !isTaking t || (db.personalDataExport.row id).any (now < ·.expiresAt)
  | .purge _ => true

/-- The next call is not the update of a download. -/
def isIdle (t : DownloadThread π) : Bool :=
  match t.op with
  | .consume _ _ => !isTaking t
  | .purge _ => true

/-- A step in which the update of a download, if it is one, finds the export in the table
and not ended, and is answered. -/
def findsExport (id : Nat) (p : DownloadPool π) : Event DownloadOp → Bool
  | .start _ => true
  | .answer i => (p.threads[i]?).all (finds id p.store)
  | .lose i applied => !applied || (p.threads[i]?).all isIdle

/-- The download has returned the payload. -/
def HasReturned (t : DownloadThread π) : Prop :=
  ∃ payload, t.rest = .done (.ok (some payload))

def AnswersDownloaded (t : DownloadThread π) : Prop :=
  t.rest = .done (.error .alreadyDownloaded)

/-- At most one download returns the payload, and none that comes after the end. -/
structure SingleUse (expiresAt : Instant) (p : DownloadPool π) : Prop where
  once : ∀ {i j : Nat} {t t' : DownloadThread π}, p.threads[i]? = some t → p.threads[j]? = some t' →
    HasReturned t → HasReturned t' → i = j
  inTime : ∀ {t : DownloadThread π} {token now}, t ∈ p.threads → t.op = .consume token now →
    HasReturned t → now ≤ expiresAt

/-- `AlreadyDownloaded` is the truth: a download has returned the payload. -/
def Truthful (p : DownloadPool π) : Prop :=
  ∀ t ∈ p.threads, AnswersDownloaded t → ∃ t' ∈ p.threads, HasReturned t'

end Pool

/-! ## One operation -/

section Run

variable {π : Type} {deps : Deps} {fromValue : Json → Option π} {id : Nat}
  {r : PersonalDataExport} {payload : π}

/-- The export keeps what it is created with. -/
structure Same (r x : PersonalDataExport) : Prop where
  payload : x.payload = r.payload
  expiresAt : x.expiresAt = r.expiresAt
  state : x.state ≠ .expired

/-- The row under `id` is that of `r`. -/
def Kept (id : Nat) (r : PersonalDataExport) (db : Db) : Prop :=
  ∀ x, db.personalDataExport.row id = some x → Same r x

def Downloaded (id : Nat) (db : Db) : Prop :=
  ∃ x, db.personalDataExport.row id = some x ∧ x.state = .downloaded

def Ready (id : Nat) (db : Db) : Prop :=
  ∃ x, db.personalDataExport.row id = some x ∧ x.state = .ready

/-- Where an operation on the export `r` stands. -/
inductive Stage (deps : Deps) (fromValue : Json → Option π) (id : Nat) (r : PersonalDataExport) :
    DownloadThread π → Prop where
  | asked (token : Token) (now : Instant) : Stage deps fromValue id r
      ⟨.consume token now, [], DownloadOp.script deps fromValue id (.consume token now)⟩
  | read (token : Token) (now : Instant) (x : Nat × Db) {row : PersonalDataExport}
      (hrow : row.payload = r.payload) : Stage deps fromValue id r
      ⟨.consume token now, [x], checkExport deps fromValue id token now row >>= fun payload =>
        return some payload⟩
  | checked (token : Token) {now : Instant} (x y : Nat × Db) {row : PersonalDataExport}
      (hrow : row.payload = r.payload) (hnow : now ≤ r.expiresAt) : Stage deps fromValue id r
      ⟨.consume token now, [x, y], takeExport fromValue id now row >>= fun payload =>
        return some payload⟩
  | returned (token : Token) {now : Instant} (found : List (Nat × Db)) (payload : π)
      (hnow : now < r.expiresAt) :
      Stage deps fromValue id r ⟨.consume token now, found, .done (.ok (some payload))⟩
  | refused (op : DownloadOp) (found : List (Nat × Db)) (e : PrivacyError) :
      Stage deps fromValue id r ⟨op, found, Service.throw e⟩
  | purging (now : Instant) : Stage deps fromValue id r
      ⟨.purge now, [], DownloadOp.script deps fromValue id (.purge now)⟩
  | purged (now : Instant) (found : List (Nat × Db)) :
      Stage deps fromValue id r ⟨.purge now, found, .done (.ok none)⟩

variable {p p' : DownloadPool π} {e : Event DownloadOp} {i : Nat} {t : DownloadThread π}
  {op : DownloadOp} {token : Token} {now : Instant}

theorem not_returned_throw {found : List (Nat × Db)} {e : PrivacyError} :
    ¬ HasReturned (⟨op, found, Service.throw e⟩ : DownloadThread π) := nofun

/-- A step that leaves the export or purges it, and returns nothing. -/
structure Quiet (id : Nat) (p : DownloadPool π) (e : Event DownloadOp) (t' : DownloadThread π)
    (db' : Db) : Prop where
  row : ∀ x, db'.personalDataExport.row id = some x → p.store.personalDataExport.row id = some x
  returned : ¬ HasReturned t'
  downloaded : AnswersDownloaded t' → Downloaded id p.store ∨ findsExport id p e = false

/-- A step that takes the export. -/
structure Taken (id : Nat) (now : Instant) (p : DownloadPool π) (e : Event DownloadOp)
    (t' : DownloadThread π) (db' : Db) : Prop where
  row : ∃ x, p.store.personalDataExport.row id = some x ∧ x.state = .ready ∧
    db'.personalDataExport.row id = some { x with state := .downloaded, downloadedAt := some now }
  answered : ¬ AnswersDownloaded t'
  returned : HasReturned t' ∨ findsExport id p e = false

theorem Quiet.refused {found : List (Nat × Db)} {error : PrivacyError} {db' : Db}
    (hdb : db' = p.store)
    (h : error = .alreadyDownloaded → Downloaded id p.store ∨ findsExport id p e = false) :
    Quiet id p e ⟨op, found, Service.throw error⟩ db' := by
  subst hdb
  refine ⟨fun _ hx => hx, not_returned_throw, fun hdownloaded => h ?_⟩
  exact Except.error.inj (Service.done.inj hdownloaded)

theorem Quiet.calling {t' : DownloadThread π} {db' : Db} (hdb : db' = p.store)
    {β : Type} {f : Db → Except PrivacyError (β × Db)}
    {k : β → Service Db PrivacyError (Option π)} (hrest : t'.rest = repo f >>= k) :
    Quiet id p e t' db' := by
  subst hdb
  refine ⟨fun _ hx => hx, fun ⟨_, hdone⟩ => ?_, fun hdone => ?_⟩
  · exact request_ne_done (hrest.symm.trans hdone)
  · exact absurd (hrest.symm.trans hdone) request_ne_done

theorem checkExport_bind {row : PersonalDataExport}
    (k : π → Service Db PrivacyError (Option π)) :
    checkExport deps fromValue id token now row >>= k =
      findExport id >>= fun check => checkRow deps fromValue id token now row check >>= k :=
  Service.bind_assoc (findExport id) _ _

/-- The checks refuse the download, or let it go on before the end. -/
theorem checkRow_cases (deps : Deps) (fromValue : Json → Option π) (id : Nat) (token : Token)
    (now : Instant) (row check : PersonalDataExport) :
    (∃ error, checkRow deps fromValue id token now row check = Service.throw error ∧
      (error = .alreadyDownloaded → check.state = .downloaded)) ∨
    checkRow deps fromValue id token now row check = takeExport fromValue id now row ∧
      now ≤ check.expiresAt := by
  unfold checkRow
  cases constantTimeHexEq check.tokenHash (deps.sha256Hex token.bytes) with
  | false => exact .inl ⟨.invalidToken, rfl, nofun⟩
  | true =>
    by_cases hdownloaded : check.state = .downloaded
    · exact .inl ⟨.alreadyDownloaded, by rw [hdownloaded]; rfl, fun _ => hdownloaded⟩
    rw [bne_iff_ne.mpr hdownloaded]
    cases hended : (check.state == .expired || check.expiresAt < now) with
    | true => exact .inl ⟨.expired, rfl, nofun⟩
    | false =>
      refine .inr ⟨rfl, ?_⟩
      exact not_lt.mp (of_decide_eq_false (Bool.or_eq_false_iff.mp hended).2)

theorem export_found {db db' : Db} {x : PersonalDataExport}
    (h : (match db.personalDataExport.row id with
      | none => .error .notFound
      | some r => .ok (r, db) : Except PrivacyError (PersonalDataExport × Db)) = .ok (x, db')) :
    db.personalDataExport.row id = some x ∧ db' = db := by
  split at h
  · cases h
  · cases h
    exact ⟨by assumption, rfl⟩

/-- A find that is not answered with the row ends the download. -/
theorem find_cases (h : p.next (DownloadOp.script deps fromValue id) e = some p')
    (he : e.on = some i) (ht : p.threads[i]? = some t)
    {k : PersonalDataExport → Service Db PrivacyError (Option π)}
    (hrest : t.rest = findExport id >>= k) :
    p'.store = p.store ∧
      ((∃ x, p.store.personalDataExport.row id = some x ∧
          p'.threads = p.threads.set i ⟨t.op, t.found ++ [(p.time, p.store)], k x⟩) ∨
        ∃ found error, error ≠ .alreadyDownloaded ∧
          p'.threads = p.threads.set i ⟨t.op, found, Service.throw error⟩) := by
  rcases request_cases h he ht hrest with
    ⟨x, _, hf, hthreads⟩ | ⟨error, _, hf, hstore, hthreads⟩ | ⟨_, found, _, hstore, hthreads⟩
  · obtain ⟨hx, hstore⟩ := export_found hf
    exact ⟨hstore, .inl ⟨x, hx, hthreads⟩⟩
  · refine ⟨hstore, .inr ⟨_, error, ?_, hthreads⟩⟩
    split at hf
    · rw [← Except.error.inj hf]
      intro h
      cases h
    · cases hf
  · refine ⟨?_, .inr ⟨found, .unavailable, (fun h => by cases h), hthreads⟩⟩
    rcases hstore with hsame | ⟨_, x, hf⟩
    · exact hsame
    · exact (export_found hf).2

/-- The step after which the thread is `t'`. -/
def Leads (deps : Deps) (fromValue : Json → Option π) (id : Nat) (r : PersonalDataExport)
    (p : DownloadPool π) (e : Event DownloadOp) (p' : DownloadPool π) (i : Nat) : Prop :=
  ∃ t', p'.threads = p.threads.set i t' ∧ Stage deps fromValue id r t' ∧
    (Quiet id p e t' p'.store ∨ ∃ now, Taken id now p e t' p'.store)

theorem asked_next (h : p.next (DownloadOp.script deps fromValue id) e = some p')
    (he : e.on = some i) (hkept : Kept id r p.store)
    (ht : p.threads[i]? =
      some ⟨.consume token now, [], DownloadOp.script deps fromValue id (.consume token now)⟩) :
    Leads deps fromValue id r p e p' i := by
  have hrest : DownloadOp.script deps fromValue id (.consume token now) = findExport id >>=
      fun row => checkExport deps fromValue id token now row >>= fun payload =>
        return some payload :=
    Service.bind_assoc (findExport id) (checkExport deps fromValue id token now) _
  obtain ⟨hstore, ⟨x, hx, hthreads⟩ | ⟨found, error, herror, hthreads⟩⟩ := find_cases h he ht hrest
  · exact ⟨_, hthreads, .read token now _ (hkept x hx).payload,
      .inl (.calling hstore (checkExport_bind _))⟩
  · exact ⟨_, hthreads, .refused _ _ _, .inl (.refused hstore fun hsame => absurd hsame herror)⟩

theorem takeExport_bind {row : PersonalDataExport}
    (k : π → Service Db PrivacyError (Option π)) :
    takeExport fromValue id now row >>= k = (repo fun db =>
      .ok (db.personalDataExport.affected (isReady id now), downloaded db id now)) >>= fun affected =>
        (do
          Service.require (affected == 1) .alreadyDownloaded
          match fromValue row.payload with
          | none => Service.throw .internal
          | some payload => return payload : Service Db PrivacyError π) >>= k :=
  Service.bind_assoc _ _ _

theorem read_next (h : p.next (DownloadOp.script deps fromValue id) e = some p')
    (he : e.on = some i) (hkept : Kept id r p.store) {x : Nat × Db} {row : PersonalDataExport}
    (hrow : row.payload = r.payload)
    (ht : p.threads[i]? = some ⟨.consume token now, [x],
      checkExport deps fromValue id token now row >>= fun payload => return some payload⟩) :
    Leads deps fromValue id r p e p' i := by
  obtain ⟨hstore, ⟨check, hcheck, hthreads⟩ | ⟨found, error, herror, hthreads⟩⟩ :=
    find_cases h he ht (checkExport_bind _)
  · obtain ⟨error, hrefuses, herror⟩ | ⟨hgoes, hnow⟩ :=
      checkRow_cases deps fromValue id token now row check
    · rw [hrefuses] at hthreads
      exact ⟨_, hthreads, .refused _ _ error, .inl (.refused hstore fun hsame =>
        .inl ⟨check, hcheck, herror hsame⟩)⟩
    · rw [hgoes] at hthreads
      rw [(hkept check hcheck).expiresAt] at hnow
      exact ⟨_, hthreads, .checked token x _ hrow hnow,
        .inl (.calling hstore (takeExport_bind _))⟩
  · exact ⟨_, hthreads, .refused _ _ _, .inl (.refused hstore fun hsame => absurd hsame herror)⟩

/-- The export before and after the update. -/
theorem downloaded_row (db : Db) :
    (downloaded db id now).personalDataExport.row id =
      (db.personalDataExport.row id).map fun x =>
        if isReady id now id x then { x with state := .downloaded, downloadedAt := some now }
        else x := rfl

/-- The update affects the row of the export or none. -/
theorem affected_isReady (db : Db) :
    db.personalDataExport.affected (isReady id now) =
      if (db.personalDataExport.row id).any (isReady id now id) then 1 else 0 := by
  have hreassoc : isReady id now = fun i x =>
      i == id && (x.state == .ready && decide (now < x.expiresAt)) := by
    funext i x
    rw [isReady, Bool.and_assoc]
  rw [hreassoc, Table.affected_key db.personalDataExport id fun x =>
    x.state == .ready && now < x.expiresAt]
  simp

/-- An update that finds no row that is ready leaves the export. -/
theorem downloaded_row_of_unready {db : Db}
    (h : (db.personalDataExport.row id).any (isReady id now id) = false) :
    (downloaded db id now).personalDataExport.row id = db.personalDataExport.row id := by
  rw [downloaded_row]
  cases hrow : db.personalDataExport.row id with
  | none => rfl
  | some x =>
    rw [hrow, Option.any_some] at h
    rw [Option.map_some, if_neg (by simp [h])]

/-- When the update affects no row, the export is downloaded, is gone, or has ended. -/
theorem unready_cases {db : Db} (hkept : Kept id r db)
    (h : (db.personalDataExport.row id).any (isReady id now id) = false) :
    Downloaded id db ∨ (db.personalDataExport.row id).any (now < ·.expiresAt) = false := by
  cases hrow : db.personalDataExport.row id with
  | none => exact .inr rfl
  | some x =>
    rw [hrow, Option.any_some, isReady, beq_self_eq_true, Bool.true_and] at h
    cases hstate : x.state with
    | expired => exact absurd hstate (hkept x hrow).state
    | downloaded => exact .inl ⟨x, hrow, hstate⟩
    | ready =>
      rw [hstate] at h
      exact .inr h

/-- The update takes a ready export that has not ended. -/
theorem downloaded_of_ready {db : Db} (hkept : Kept id r db)
    (hany : (db.personalDataExport.row id).any (isReady id now id) = true) :
    now < r.expiresAt ∧ ∃ z, db.personalDataExport.row id = some z ∧ z.state = .ready ∧
      (downloaded db id now).personalDataExport.row id =
        some { z with state := .downloaded, downloadedAt := some now } := by
  obtain ⟨z, hz, hisReady⟩ := (Option.any_eq_true ..).mp hany
  refine ⟨?_, z, hz, ?_, ?_⟩
  · simp only [isReady, Bool.and_eq_true, decide_eq_true_eq] at hisReady
    exact (hkept z hz).expiresAt ▸ hisReady.2
  · simp only [isReady, Bool.and_eq_true, beq_iff_eq] at hisReady
    exact hisReady.1.2
  · rw [downloaded_row, hz, Option.map_some, if_pos hisReady]

theorem checked_next (hpayload : fromValue r.payload = some payload)
    (h : p.next (DownloadOp.script deps fromValue id) e = some p')
    (he : e.on = some i) (hkept : Kept id r p.store) {x y : Nat × Db} {row : PersonalDataExport}
    (hrow : row.payload = r.payload)
    (ht : p.threads[i]? = some ⟨.consume token now, [x, y],
      takeExport fromValue id now row >>= fun payload => return some payload⟩) :
    Leads deps fromValue id r p e p' i := by
  have hready : ∀ {db'}, downloaded p.store id now = db' →
      (p.store.personalDataExport.row id).any (isReady id now id) = true →
      now < r.expiresAt ∧ ∃ z, p.store.personalDataExport.row id = some z ∧ z.state = .ready ∧
        db'.personalDataExport.row id =
          some { z with state := .downloaded, downloadedAt := some now } := by
    rintro db' rfl hany
    exact downloaded_of_ready hkept hany
  have hleaves : ∀ {db'}, db' = downloaded p.store id now →
      (p.store.personalDataExport.row id).any (isReady id now id) = false →
      ∀ z, db'.personalDataExport.row id = some z →
        p.store.personalDataExport.row id = some z := by
    intro db' hdb hany z hz
    rwa [hdb, downloaded_row_of_unready hany] at hz
  rcases request_cases h he ht (takeExport_bind _) with
    ⟨affected, rfl, hf, hthreads⟩ | ⟨error, _, hf, _⟩ | ⟨applied, found, rfl, hstore, hthreads⟩
  · obtain ⟨rfl, hdb⟩ := Prod.mk.inj (Except.ok.inj hf)
    cases hany : (p.store.personalDataExport.row id).any (isReady id now id) with
    | true =>
      rw [affected_isReady, if_pos hany, hrow, hpayload] at hthreads
      exact ⟨_, hthreads, .returned token _ payload (hready hdb hany).1,
        .inr ⟨now, (hready hdb hany).2, (fun h => by cases h), .inl ⟨payload, rfl⟩⟩⟩
    | false =>
      rw [affected_isReady, if_neg (by simp [hany])] at hthreads
      refine ⟨_, hthreads, .refused _ _ .alreadyDownloaded,
        .inl ⟨hleaves hdb.symm hany, not_returned_throw, fun _ => ?_⟩⟩
      refine (unready_cases hkept hany).imp_right fun hlate => ?_
      rw [findsExport, ht, Option.all_some]
      exact hlate
  · cases hf
  · have hrefused : ∀ {db'}, p'.store = db' →
        (∀ z, db'.personalDataExport.row id = some z →
          p.store.personalDataExport.row id = some z) →
        Leads deps fromValue id r p (.lose i applied) p' i :=
      fun hdb hsame => ⟨_, hthreads, .refused _ _ _,
        .inl ⟨fun z hz => hsame z (hdb ▸ hz), not_returned_throw, (fun h => by cases h)⟩⟩
    rcases hstore with hsame | ⟨rfl, affected, hf⟩
    · exact hrefused hsame fun _ hz => hz
    have hdb := (Prod.mk.inj (Except.ok.inj hf)).2
    cases hany : (p.store.personalDataExport.row id).any (isReady id now id) with
    | true =>
      refine ⟨_, hthreads, .refused _ _ _,
        .inr ⟨now, (hready hdb hany).2, (fun h => by cases h), .inr ?_⟩⟩
      rw [findsExport, ht]
      rfl
    | false => exact hrefused hdb.symm (hleaves rfl hany)

theorem purging_next (h : p.next (DownloadOp.script deps fromValue id) e = some p')
    (he : e.on = some i) (ht : p.threads[i]? =
      some ⟨.purge now, [], DownloadOp.script deps fromValue id (.purge now)⟩) :
    Leads deps fromValue id r p e p' i := by
  have hpurged : ∀ {count db'}, (Except.ok (purgeExpiredExports p.store now) :
      Except PrivacyError (Nat × Db)) = .ok (count, db') →
      ∀ x, db'.personalDataExport.row id = some x →
        p.store.personalDataExport.row id = some x := by
    intro count db' hf x hx
    obtain rfl := (Prod.mk.inj (Except.ok.inj hf)).2
    exact (Table.row_delete_eq_some.mp hx).1
  have hrest : DownloadOp.script deps fromValue id (.purge now) =
      (repo fun db => .ok (purgeExpiredExports db now)) >>= fun _ =>
        (pure none : Service Db PrivacyError (Option π)) := rfl
  rcases request_cases h he ht hrest with
    ⟨count, _, hf, hthreads⟩ | ⟨error, _, hf, _⟩ | ⟨_, found, _, hstore, hthreads⟩
  · exact ⟨_, hthreads, .purged _ _, .inl ⟨hpurged hf, nofun, nofun⟩⟩
  · cases hf
  · refine ⟨_, hthreads, .refused _ _ _, .inl ⟨fun x hx => ?_, not_returned_throw, nofun⟩⟩
    rcases hstore with hsame | ⟨_, count, hf⟩
    · rwa [hsame] at hx
    · exact hpurged hf x hx

/-- A step of an operation leads to its next stage. -/
theorem Stage.next (hpayload : fromValue r.payload = some payload)
    (h : p.next (DownloadOp.script deps fromValue id) e = some p') (he : e.on = some i)
    (hkept : Kept id r p.store) (ht : p.threads[i]? = some t)
    (hstage : Stage deps fromValue id r t) :
    ¬ HasReturned t ∧ Leads deps fromValue id r p e p' i := by
  obtain ⟨op, found, write, next, failed, hcall⟩ := call_of_next h he
  have hdone : ∀ result, t.rest ≠ .done result := by
    obtain rfl := Option.some.inj (ht.symm.trans hcall)
    exact nofun
  refine ⟨fun ⟨_, hreturned⟩ => hdone _ hreturned, ?_⟩
  cases hstage with
  | asked token now => exact asked_next h he hkept ht
  | read token now x hrow => exact read_next h he hkept hrow ht
  | checked token x y hrow hnow => exact checked_next hpayload h he hkept hrow ht
  | returned token found payload hnow => exact absurd rfl (hdone _)
  | refused op found e => exact absurd rfl (hdone _)
  | purging now => exact purging_next h he ht
  | purged now found => exact absurd rfl (hdone _)

/-! ## Any number of operations -/

/-- What holds of the operations on one export in every run. -/
structure OneTaker (deps : Deps) (fromValue : Json → Option π) (id : Nat)
    (r : PersonalDataExport) (p : DownloadPool π) : Prop where
  kept : Kept id r p.store
  stages : ∀ t ∈ p.threads, Stage deps fromValue id r t
  untaken : Ready id p.store → ∀ t ∈ p.threads, ¬ HasReturned t
  once : ∀ {i j : Nat} {t t' : DownloadThread π}, p.threads[i]? = some t →
    p.threads[j]? = some t' → HasReturned t → HasReturned t' → i = j

/-- What holds as long as every update finds the export. -/
structure Honest (id : Nat) (p : DownloadPool π) : Prop where
  returned : Downloaded id p.store → ∃ t ∈ p.threads, HasReturned t
  truthful : Truthful p

theorem getElem?_set_cases {j : Nat} {t' u : DownloadThread π}
    (h : (p.threads.set i t')[j]? = some u) : j = i ∧ u = t' ∨ p.threads[j]? = some u := by
  rw [List.getElem?_set] at h
  split at h
  · split at h
    · exact .inl ⟨by omega, (Option.some.inj h).symm⟩
    · cases h
  · exact .inr h

theorem mem_set_cases {t' u : DownloadThread π} (h : u ∈ p.threads.set i t') :
    u = t' ∨ u ∈ p.threads :=
  (List.mem_or_eq_of_mem_set h).symm

/-- A thread that has returned goes on to be one. -/
theorem mem_set_of_returned {t' u : DownloadThread π} (ht : p.threads[i]? = some t)
    (hnot : ¬ HasReturned t) (hu : u ∈ p.threads) (hreturned : HasReturned u) :
    u ∈ p.threads.set i t' := by
  obtain ⟨j, hj⟩ := List.mem_iff_getElem?.mp hu
  have hne : i ≠ j := by
    rintro rfl
    obtain rfl := Option.some.inj (ht.symm.trans hj)
    exact hnot hreturned
  rw [← List.getElem?_set_ne hne] at hj
  exact List.mem_of_getElem? hj

theorem Kept.of_quiet {t' : DownloadThread π} {db' : Db} (hkept : Kept id r p.store)
    (hquiet : Quiet id p e t' db') : Kept id r db' :=
  fun x hx => hkept x (hquiet.row x hx)

theorem Kept.of_taken {t' : DownloadThread π} {db' : Db} (hkept : Kept id r p.store)
    (htaken : Taken id now p e t' db') : Kept id r db' := by
  obtain ⟨x, hx, _, hx'⟩ := htaken.row
  intro y hy
  obtain rfl := Option.some.inj (hx'.symm.trans hy)
  exact ⟨(hkept x hx).payload, (hkept x hx).expiresAt, nofun⟩

/-- A start changes nothing. -/
theorem OneTaker.start (hp : OneTaker deps fromValue id r p) (n : Nat) (op : DownloadOp) :
    OneTaker deps fromValue id r
      ⟨n, p.store, p.threads ++ [⟨op, [], DownloadOp.script deps fromValue id op⟩]⟩ := by
  have hnew : Stage deps fromValue id r ⟨op, [], DownloadOp.script deps fromValue id op⟩ ∧
      ¬ HasReturned (⟨op, [], DownloadOp.script deps fromValue id op⟩ : DownloadThread π) := by
    cases op with
    | consume token now => exact ⟨.asked token now, nofun⟩
    | purge now => exact ⟨.purging now, nofun⟩
  have hold : ∀ {j : Nat} {u : DownloadThread π},
      (p.threads ++ [⟨op, [], DownloadOp.script deps fromValue id op⟩])[j]? = some u →
      HasReturned u → p.threads[j]? = some u := by
    intro j u hj hu
    rw [List.getElem?_append] at hj
    split at hj
    · exact hj
    · have hmem := List.mem_of_getElem? hj
      rw [List.mem_singleton.mp hmem] at hu
      exact absurd hu hnew.2
  refine ⟨hp.kept, fun t ht => ?_, fun hready t ht hreturned => ?_, fun hi hj ht ht' => ?_⟩
  · rcases List.mem_append.mp ht with hmem | hmem
    · exact hp.stages t hmem
    · rw [List.mem_singleton.mp hmem]
      exact hnew.1
  · obtain ⟨j, hj⟩ := List.mem_iff_getElem?.mp ht
    exact hp.untaken hready t (List.mem_of_getElem? (hold hj hreturned)) hreturned
  · exact hp.once (hold hi ht) (hold hj ht') ht ht'

theorem Honest.start (hp : Honest id p) (n : Nat) (op : DownloadOp) :
    Honest id (⟨n, p.store, p.threads ++ [⟨op, [], DownloadOp.script deps fromValue id op⟩]⟩ :
      DownloadPool π) := by
  have hmore : (∃ t ∈ p.threads, HasReturned t) → ∃ t ∈
      p.threads ++ [⟨op, [], DownloadOp.script deps fromValue id op⟩], HasReturned t :=
    fun ⟨t, ht, hreturned⟩ => ⟨t, List.mem_append_left _ ht, hreturned⟩
  refine ⟨fun hdownloaded => hmore (hp.returned hdownloaded), fun t ht hanswers => hmore ?_⟩
  rcases List.mem_append.mp ht with hmem | hmem
  · exact hp.truthful _ hmem hanswers
  · rw [List.mem_singleton.mp hmem] at hanswers
    cases op with
    | consume token now => cases hanswers
    | purge now => cases hanswers

/-- A call of one thread. -/
theorem OneTaker.call (hp : OneTaker deps fromValue id r p) {t' : DownloadThread π} (n : Nat)
    {db' : Db} (hstage : Stage deps fromValue id r t')
    (hstep : Quiet id p e t' db' ∨ ∃ now, Taken id now p e t' db') :
    OneTaker deps fromValue id r ⟨n, db', p.threads.set i t'⟩ := by
  have hstages : ∀ u ∈ p.threads.set i t', Stage deps fromValue id r u := by
    intro u hu
    rcases mem_set_cases hu with rfl | hmem
    · exact hstage
    · exact hp.stages u hmem
  rcases hstep with hquiet | ⟨now, htaken⟩
  · have hold : ∀ {j : Nat} {u : DownloadThread π}, (p.threads.set i t')[j]? = some u →
        HasReturned u → p.threads[j]? = some u := by
      intro j u hj hu
      rcases getElem?_set_cases hj with ⟨_, rfl⟩ | hsame
      · exact absurd hu hquiet.returned
      · exact hsame
    refine ⟨hp.kept.of_quiet hquiet, hstages, fun ⟨x, hx, hready⟩ u hu hreturned => ?_,
      fun hi hj hu hu' => hp.once (hold hi hu) (hold hj hu') hu hu'⟩
    obtain ⟨j, hj⟩ := List.mem_iff_getElem?.mp hu
    exact hp.untaken ⟨x, hquiet.row x hx, hready⟩ u (List.mem_of_getElem? (hold hj hreturned))
      hreturned
  · obtain ⟨x, hx, hready, hx'⟩ := htaken.row
    -- before this step nobody had returned
    have hfirst : ∀ {j : Nat} {u : DownloadThread π}, (p.threads.set i t')[j]? = some u →
        HasReturned u → j = i := by
      intro j u hj hu
      rcases getElem?_set_cases hj with ⟨hij, _⟩ | hsame
      · exact hij
      · exact absurd hu (hp.untaken ⟨x, hx, hready⟩ u (List.mem_of_getElem? hsame))
    refine ⟨hp.kept.of_taken htaken, hstages, fun ⟨y, hy, hready'⟩ => ?_, fun hi hj hu hu' => ?_⟩
    · obtain rfl := Option.some.inj (hx'.symm.trans hy)
      cases hready'
    · rw [hfirst hi hu, hfirst hj hu']

theorem Honest.call (hp : Honest id p) (ht : p.threads[i]? = some t) (hnot : ¬ HasReturned t)
    {t' : DownloadThread π} (n : Nat) {db' : Db}
    (hstep : Quiet id p e t' db' ∨ ∃ now, Taken id now p e t' db')
    (hfinds : findsExport id p e = true) :
    Honest id (⟨n, db', p.threads.set i t'⟩ : DownloadPool π) := by
  have hmore : (∃ u ∈ p.threads, HasReturned u) → ∃ u ∈ p.threads.set i t', HasReturned u :=
    fun ⟨u, hu, hreturned⟩ => ⟨u, mem_set_of_returned ht hnot hu hreturned, hreturned⟩
  have hmem' : t' ∈ p.threads.set i t' :=
    List.mem_set (List.getElem?_eq_some_iff.mp ht).1 t'
  rcases hstep with hquiet | ⟨now, htaken⟩
  · refine ⟨fun ⟨x, hx, hdownloaded⟩ => hmore (hp.returned ⟨x, hquiet.row x hx, hdownloaded⟩),
      fun u hu hanswers => hmore ?_⟩
    rcases mem_set_cases hu with rfl | hmem
    · rcases hquiet.downloaded hanswers with hdownloaded | hlate
      · exact hp.returned hdownloaded
      · rw [hfinds] at hlate
        cases hlate
    · exact hp.truthful _ hmem hanswers
  · have hreturned : HasReturned t' := by
      rcases htaken.returned with hreturned | hlate
      · exact hreturned
      · rw [hfinds] at hlate
        cases hlate
    exact ⟨fun _ => ⟨t', hmem', hreturned⟩, fun _ _ _ => ⟨t', hmem', hreturned⟩⟩

/-- A step keeps both, the second when its update finds the export. -/
theorem OneTaker.next (hpayload : fromValue r.payload = some payload)
    (hp : OneTaker deps fromValue id r p)
    (h : p.next (DownloadOp.script deps fromValue id) e = some p') :
    OneTaker deps fromValue id r p' ∧
      (findsExport id p e = true → Honest id p → Honest id p') := by
  cases he : e.on with
  | none =>
    cases e with
    | start op =>
      cases h
      exact ⟨hp.start _ op, fun _ hhonest => hhonest.start _ op⟩
    | answer i => cases he
    | lose i applied => cases he
  | some i =>
    obtain ⟨op, found, write, next, failed, ht⟩ := call_of_next h he
    obtain ⟨hnot, t', hthreads, hstage, hstep⟩ := Stage.next hpayload h he hp.kept ht
      (hp.stages _ (List.mem_of_getElem? ht))
    have hp' : p' = ⟨p'.time, p'.store, p.threads.set i t'⟩ := by rw [← hthreads]
    rw [hp']
    exact ⟨hp.call _ hstage hstep, fun hfinds hhonest =>
      hhonest.call ht hnot _ hstep hfinds⟩

/-- Whatever the interleaving of downloads and purges of an export that is ready, at most one
download returns the payload, and none after the end.  When every update of a download
finds the export in the table and not ended, and is answered, `AlreadyDownloaded` is the
truth. -/
theorem download_single_use {db : Db} (hr : db.personalDataExport.row id = some r)
    (hready : r.state = .ready) (hpayload : fromValue r.payload = some payload)
    {es : List (Event DownloadOp)}
    (hrun : PoolRun (DownloadOp.script deps fromValue id) (Pool.init db) es p) :
    SingleUse r.expiresAt p ∧
      (Run (Guarded (fun p e => findsExport id p e = true) fun p e p' =>
        p.next (DownloadOp.script deps fromValue id) e = some p') (Pool.init db) es p →
      Truthful p) := by
  have hinit : OneTaker deps fromValue id r (Pool.init db) := by
    refine ⟨fun x hx => ?_, fun t ht => ?_, fun _ t ht => ?_, fun hi => ?_⟩
    · obtain rfl := Option.some.inj (hr.symm.trans hx)
      exact ⟨rfl, rfl, by rw [hready]; exact nofun⟩
    · cases ht
    · cases ht
    · cases hi
  have hp := hrun.invariant (I := OneTaker deps fromValue id r)
    (fun p e p' hp h => (hp.next hpayload h).1) hinit
  refine ⟨⟨hp.once, fun {t token now} ht hop hreturned => ?_⟩, fun hguarded => ?_⟩
  · obtain ⟨_, hdone⟩ := hreturned
    have hstage := hp.stages t ht
    cases hstage with
    | returned token' found payload' hnow =>
      cases hop
      exact Int.le_of_lt hnow
    | asked token' now' => cases hdone
    | read token' now' x hrow => cases hdone
    | checked token' x y hrow hnow => cases hdone
    | refused op found e => cases hdone
    | purging now' => cases hop
    | purged now' found => cases hop
  · have hhonest : Honest id (Pool.init db : DownloadPool π) := by
      refine ⟨fun ⟨x, hx, hdownloaded⟩ => ?_, fun t ht => ?_⟩
      · obtain rfl := Option.some.inj (hr.symm.trans hx)
        rw [hready] at hdownloaded
        cases hdownloaded
      · cases ht
    exact (hguarded.invariant (I := fun p => OneTaker deps fromValue id r p ∧ Honest id p)
      (fun p e p' hp h => ⟨(hp.1.next hpayload h.2).1, (hp.1.next hpayload h.2).2 h.1 hp.2⟩)
      ⟨hinit, hhonest⟩).2.truthful

end Run

/-! ## On an export of one user -/

/-- The members of an `ExportPayload`. -/
def payloadMembers : List String :=
  ["schema_version", "exported_at", "account", "authentication", "sessions", "favorites",
    "reviews", "verifications", "proposals", "reports", "photos"]

/-- `from_value` on an export, whose payload is kept as it is. -/
def samplePayload (v : Json) : Option Json :=
  if payloadMembers.all fun key => (v.get key).isSome then some v else none

/-- The payload of an export without content. -/
def emptyPayload : Json :=
  .obj
    [("schema_version", .int 1), ("exported_at", .str "1970-01-01T00:00:00Z"),
      ("account", .obj
        [("user_id", .int 1), ("email", .str "a@example.com"), ("display_name", .null),
          ("account_state", .str "ACTIVE"), ("email_verified_at", .null),
          ("created_at", .str "1970-01-01T00:00:00Z"), ("roles", .arr [])]),
      ("authentication", .arr []), ("sessions", .arr []), ("favorites", .arr []),
      ("reviews", .arr []), ("verifications", .arr []), ("proposals", .arr []),
      ("reports", .arr []), ("photos", .arr [])]

/-- The export of the user. -/
def sampleExport : PersonalDataExport where
  userId := 1
  tokenHash := sampleDeps.sha256Hex zeroToken.bytes
  payload := emptyPayload
  createdAt := 0
  expiresAt := exportTtl

def oneExport : Db := { oneUser with personalDataExport := Table.empty.insert sampleExport }

/-- Two downloads before the end; the first takes the export between the checks of the
second and its update. -/
def twoDownloads : List (Event DownloadOp) :=
  [.start (.consume zeroToken 10), .start (.consume zeroToken 20), .answer 1, .answer 1,
    .answer 0, .answer 0, .answer 0, .answer 1]

def hasReturned (t : DownloadThread Json) : Bool :=
  match t.rest with
  | .done (.ok (some _)) => true
  | _ => false

def answersDownloaded (t : DownloadThread Json) : Bool :=
  match t.rest with
  | .done (.error .alreadyDownloaded) => true
  | _ => false

theorem hasReturned_iff {t : DownloadThread Json} : hasReturned t = true ↔ HasReturned t := by
  unfold hasReturned HasReturned
  split
  · rename_i payload hrest
    rw [hrest]
    exact ⟨fun _ => ⟨payload, rfl⟩, fun _ => rfl⟩
  · rename_i hrest
    exact ⟨nofun, fun ⟨payload, hdone⟩ => absurd hdone (hrest payload)⟩

theorem answersDownloaded_iff {t : DownloadThread Json} :
    answersDownloaded t = true ↔ AnswersDownloaded t := by
  unfold answersDownloaded AnswersDownloaded
  split
  · rename_i hrest
    exact ⟨fun _ => hrest, fun _ => rfl⟩
  · rename_i hrest
    exact ⟨nofun, fun hdone => absurd hdone hrest⟩

theorem download_single_use_two :
    ∃ p : DownloadPool Json,
      PoolRun (DownloadOp.script sampleDeps samplePayload 1) (Pool.init oneExport) twoDownloads p ∧
      SingleUse exportTtl p ∧ Truthful p ∧ ∃ t ∈ p.threads, AnswersDownloaded t := by
  have hend : (twoDownloads.foldlM (fun p e => if findsExport 1 p e then
      p.next (DownloadOp.script sampleDeps samplePayload 1) e else none)
      (Pool.init oneExport)).any (fun p => p.threads.any answersDownloaded) = true := by
    decide +kernel
  obtain ⟨p, hp, hanswers⟩ := (Option.any_eq_true ..).mp hend
  have hguarded := Run.guarded_of_foldlM hp
  have hrow : oneExport.personalDataExport.row 1 = some sampleExport := rfl
  have hpayload : samplePayload sampleExport.payload = some emptyPayload := by rfl
  have hlaw := download_single_use hrow rfl hpayload hguarded.unguard
  obtain ⟨t, ht, hdownloaded⟩ := List.any_eq_true.mp hanswers
  exact ⟨p, hguarded.unguard, hlaw.1, hlaw.2 hguarded, t, ht, answersDownloaded_iff.mp hdownloaded⟩

/-- One download at the very end of the export. -/
def atTheEnd : List (Event DownloadOp) :=
  [.start (.consume zeroToken exportTtl), .answer 0, .answer 0, .answer 0]

/-- A purge after the end, between the checks of a download in time and its update. -/
def purgedMeanwhile : List (Event DownloadOp) :=
  [.start (.consume zeroToken 10), .answer 0, .answer 0, .start (.purge (exportTtl + 1)),
    .answer 1, .answer 0]

theorem not_truthful_of {p : DownloadPool Json}
    (h : (p.threads.any answersDownloaded && !p.threads.any hasReturned) = true) :
    ¬ Truthful p := by
  intro htruthful
  rw [Bool.and_eq_true, Bool.not_eq_true', List.any_eq_false] at h
  obtain ⟨t, ht, hanswers⟩ := List.any_eq_true.mp h.1
  obtain ⟨t', ht', hreturned⟩ := htruthful t ht (answersDownloaded_iff.mp hanswers)
  exact h.2 t' ht' (hasReturned_iff.mpr hreturned)

/-- A download at the very end answers `AlreadyDownloaded`, and so does one whose export is
purged before its update. -/
theorem already_downloaded_untrue :
    (∃ p, PoolRun (DownloadOp.script sampleDeps samplePayload 1) (Pool.init oneExport)
        atTheEnd p ∧ ¬ Truthful p) ∧
      ∃ p, PoolRun (DownloadOp.script sampleDeps samplePayload 1) (Pool.init oneExport)
        purgedMeanwhile p ∧ ¬ Truthful p := by
  constructor
  · have hend : (atTheEnd.foldlM (Pool.next (DownloadOp.script sampleDeps samplePayload 1))
        (Pool.init oneExport)).any (fun p =>
          p.threads.any answersDownloaded && !p.threads.any hasReturned) = true := by
      decide +kernel
    obtain ⟨p, hp, hanswers⟩ := (Option.any_eq_true ..).mp hend
    exact ⟨p, Run.of_foldlM hp, not_truthful_of hanswers⟩
  · have hend : (purgedMeanwhile.foldlM (Pool.next (DownloadOp.script sampleDeps samplePayload 1))
        (Pool.init oneExport)).any (fun p =>
          p.threads.any answersDownloaded && !p.threads.any hasReturned) = true := by
      decide +kernel
    obtain ⟨p, hp, hanswers⟩ := (Option.any_eq_true ..).mp hend
    exact ⟨p, Run.of_foldlM hp, not_truthful_of hanswers⟩

end BikesNest.Privacy
