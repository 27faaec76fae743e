import BikesNest.Privacy.Deletion

/-!
# Exports of personal data

`SqlxExportRepository`: an export is stored under the hash of its download token,
and `consume_download` hands its payload out once.  What `serde_json` makes of a
stored payload is a parameter.
-/

namespace BikesNest.Privacy

open Domain Store Relational Auth

/-- `constant_time_hex_eq`. -/
def constantTimeHexEq (a b : String) : Bool :=
  let xs := a.toUTF8.toList
  let ys := b.toUTF8.toList
  xs.length == ys.length && xs.length % 2 == 0 &&
    ((xs.zip ys).foldl (fun diff x => diff ||| (x.1 ^^^ x.2)) 0) == 0

/-- `EXPORT_TTL`, as `request_export` writes it. -/
def exportTtl : Int := 24 * hour

/-- `ExportRepository::create`. -/
def createExport (deps : Deps) (db : Db) (u : UserId) (token : Token) (payload : Json)
    (expiresAt : Instant) : Except PrivacyError (Nat × Db) :=
  if (db.users.row u).isNone then .error (.invalidField "personal_data_export_user_id_fkey")
  else .ok (db.personalDataExport.next, { db with
    personalDataExport := db.personalDataExport.insert
      { userId := u, tokenHash := deps.sha256Hex token.bytes, payload, createdAt := db.now
        expiresAt } })

/-- The row of an export. -/
def findExport (id : Nat) : Service Db PrivacyError PersonalDataExport :=
  repo fun db =>
    match db.personalDataExport.row id with
    | none => .error .notFound
    | some r => .ok (r, db)

/-- The `WHERE` clause of the update in `consume_download`. -/
def isReady (id : Nat) (now : Instant) (i : Nat) (r : PersonalDataExport) : Bool :=
  i == id && r.state == .ready && now < r.expiresAt

/-- The database after that update. -/
def downloaded (db : Db) (id : Nat) (now : Instant) : Db :=
  { db with
    personalDataExport := db.personalDataExport.update (isReady id now) fun r =>
      { r with state := .downloaded, downloadedAt := some now } }

/-- `ExportRepository::consume_download`: the payload is read first, then the token,
the state and the end are checked, and then the row is taken. -/
def consumeDownload {π : Type} (deps : Deps) (fromValue : Json → Option π) (id : Nat)
    (token : Token) (now : Instant) : Service Db PrivacyError π := do
  let row ← findExport id
  let check ← findExport id
  Service.require (constantTimeHexEq check.tokenHash (deps.sha256Hex token.bytes)) .invalidToken
  Service.require (check.state != .downloaded) .alreadyDownloaded
  Service.require (!(check.state == .expired || check.expiresAt < now)) .expired
  let affected ← repo fun db =>
    .ok (db.personalDataExport.affected (isReady id now), downloaded db id now)
  Service.require (affected == 1) .alreadyDownloaded
  match fromValue row.payload with
  | none => Service.throw .internal
  | some payload => return payload

/-- Without the row nothing is downloaded. -/
theorem consumeDownload_run_of_none {π : Type} (deps : Deps) (fromValue : Json → Option π)
    {id : Nat} (token : Token) (now : Instant) {db : Db}
    (h : db.personalDataExport.row id = none) :
    (consumeDownload deps fromValue id token now).run db = (.error .notFound, db) := by
  rw [consumeDownload, Service.run_bind, findExport, repo, Service.run_request]
  simp only [h]

/-- The download of a row, check by check. -/
theorem consumeDownload_run_of_some {π : Type} (deps : Deps) (fromValue : Json → Option π)
    {id : Nat} (token : Token) (now : Instant) {db : Db} {r : PersonalDataExport}
    (h : db.personalDataExport.row id = some r) :
    (consumeDownload deps fromValue id token now).run db =
      if constantTimeHexEq r.tokenHash (deps.sha256Hex token.bytes) = false then
        (.error .invalidToken, db)
      else if r.state = .downloaded then (.error .alreadyDownloaded, db)
      else if r.state = .expired ∨ r.expiresAt < now then (.error .expired, db)
      else
        (if isReady id now id r then
          match fromValue r.payload with
          | none => .error .internal
          | some payload => .ok payload
        else .error .alreadyDownloaded, downloaded db id now) := by
  have hfind : (findExport id).run db = (.ok r, db) := by
    rw [findExport, repo, Service.run_request]
    simp only [h]
  have haffected : db.personalDataExport.affected (isReady id now) =
      if isReady id now id r then 1 else 0 := by
    have hkey := Table.affected_key db.personalDataExport id fun x =>
      x.state == .ready && now < x.expiresAt
    have hreassoc : isReady id now = fun i x =>
        i == id && (x.state == .ready && decide (now < x.expiresAt)) := by
      funext i x
      rw [isReady, Bool.and_assoc]
    rw [hreassoc, hkey, h]
    simp
  rw [consumeDownload, Service.run_bind_of_ok hfind, Service.run_bind_of_ok hfind]
  cases hhash : constantTimeHexEq r.tokenHash (deps.sha256Hex token.bytes) with
  | false => rfl
  | true =>
    rw [Service.run_of_require rfl, if_neg (by simp)]
    by_cases hdownloaded : r.state = .downloaded
    · rw [if_pos hdownloaded, hdownloaded]
      rfl
    rw [if_neg hdownloaded, Service.run_of_require (by simpa using hdownloaded)]
    by_cases hexpired : r.state = .expired ∨ r.expiresAt < now
    · have hrefused : (!(r.state == .expired || r.expiresAt < now)) = false := by
        rcases hexpired with hstate | hlate
        · simp [hstate]
        · simp [hlate]
      rw [if_pos hexpired, hrefused]
      rfl
    rw [if_neg hexpired, Service.run_of_require (by simpa using hexpired), repo,
      Service.run_of_request rfl, haffected]
    cases isReady id now id r with
    | false => rfl
    | true =>
      rw [if_pos rfl, if_pos rfl, Service.run_of_require (c := 1 == 1) rfl]
      cases fromValue r.payload <;> rfl

end BikesNest.Privacy
