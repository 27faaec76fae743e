import BikesNest.Auth.SessionId
import BikesNest.Auth.Sessions
import BikesNest.Domain.Account
import BikesNest.Web.LoginNext

/-!
# The auth middleware

`auth_middleware` of `web/src/auth.rs`: it resolves the session cookie of a
request, and before a request with a state-changing method reaches its handler
it looks for a CSRF token in the `x-csrf-token` header, in the `csrf` query
parameter and, where neither is there, in the `csrf` field of a form.  To look
into the form it takes the body off the request and puts it back.

`authMiddleware_run` says when the handler runs: a token that the request
presents, in whichever of the three places, decodes to the token of the valid
session or equals the `csrf` cookie where there is no valid session, and the
handler sees the request as it came.

The locale and the map settings of `Auth` only shape the page of a refusal and
are left out.
-/

namespace BikesNest.Web

open Auth Domain
open Jobs (Call)

/-! ## Texts -/

/-- `str::as_bytes`. -/
def utf8 (s : List Char) : List UInt8 := s.flatMap String.utf8EncodeChar

/-- `str::split_once` or its equal on bytes. -/
def splitAtFirst {α : Type} [DecidableEq α] (mark : α) (s : List α) : Option (List α × List α) :=
  match s.dropWhile (· ≠ mark) with
  | [] => none
  | _ :: rest => some (s.takeWhile (· ≠ mark), rest)

/-- The rest of a character whose value so far is `value`: each further byte has
its range.  A byte out of range is not used up. -/
def readContinuation : List (Nat × Nat) → Nat → List UInt8 → Char × List UInt8
  | [], value, rest => (Char.ofNat value, rest)
  | _ :: _, _, [] => (Char.ofNat 0xFFFD, [])
  | (low, high) :: more, value, b :: rest =>
    if low ≤ b.toNat ∧ b.toNat ≤ high then
      readContinuation more (value * 64 + (b.toNat - 0x80)) rest
    else (Char.ofNat 0xFFFD, b :: rest)

/-- The character at the front, or the replacement character for the longest
beginning of one. -/
def readLossy (b : UInt8) (rest : List UInt8) : Char × List UInt8 :=
  let n := b.toNat
  let any := (0x80, 0xBF)
  if n < 0x80 then (Char.ofNat n, rest)
  else if 0xC2 ≤ n ∧ n ≤ 0xDF then readContinuation [any] (n - 0xC0) rest
  else if n = 0xE0 then readContinuation [(0xA0, 0xBF), any] 0 rest
  else if n = 0xED then readContinuation [(0x80, 0x9F), any] 0xD rest
  else if 0xE1 ≤ n ∧ n ≤ 0xEF then readContinuation [any, any] (n - 0xE0) rest
  else if n = 0xF0 then readContinuation [(0x90, 0xBF), any, any] 0 rest
  else if 0xF1 ≤ n ∧ n ≤ 0xF3 then readContinuation [any, any, any] (n - 0xF0) rest
  else if n = 0xF4 then readContinuation [(0x80, 0x8F), any, any] 4 rest
  else (Char.ofNat 0xFFFD, rest)

/-- Each step uses up a byte at least, so that the number of bytes is enough
steps. -/
def fromUtf8LossyIn : Nat → List UInt8 → List Char
  | 0, _ | _, [] => []
  | steps + 1, b :: rest => (readLossy b rest).1 :: fromUtf8LossyIn steps (readLossy b rest).2

/-- `String::from_utf8_lossy`. -/
def fromUtf8Lossy (bytes : List UInt8) : List Char := fromUtf8LossyIn bytes.length bytes

/-- `hex_val`. -/
def hexVal (b : UInt8) : Option UInt8 :=
  if 48 ≤ b ∧ b ≤ 57 then some (b - 48)
  else if 97 ≤ b ∧ b ≤ 102 then some (b - 97 + 10)
  else if 65 ≤ b ∧ b ≤ 70 then some (b - 65 + 10)
  else none

/-- The loop of `url_decode`. -/
def urlDecodeBytes : List UInt8 → List UInt8
  | 37 :: high :: low :: rest =>
    match hexVal high, hexVal low with
    | some h, some l => (h * 16 + l) :: urlDecodeBytes rest
    | _, _ => 37 :: urlDecodeBytes (high :: low :: rest)
  | b :: rest => b :: urlDecodeBytes rest
  | [] => []

/-- `url_decode`. -/
def urlDecode (bytes : List UInt8) : List Char := fromUtf8Lossy (urlDecodeBytes bytes)

/-! ## Requests -/

/-- A body: what the stream delivers, and whether it ends in an error. -/
structure Body where
  chunks : List (List UInt8)
  fails : Bool

def Body.bytes (body : Body) : List UInt8 := body.chunks.flatten

/-- `Body::from(bytes)`. -/
def Body.ofBytes (bytes : List UInt8) : Body := ⟨[bytes], false⟩

structure Request where
  method : Method
  uri : Uri
  headers : HeaderMap
  body : Body

/-- The loop of `to_bytes` below a limit, with `room` bytes left. -/
def collectChunks (fails : Bool) : Nat → List (List UInt8) → Option (List UInt8)
  | _, [] => if fails then none else some []
  | room, chunk :: rest =>
    if room < chunk.length then none
    else (collectChunks fails (room - chunk.length) rest).map (chunk ++ ·)

/-- `axum::body::to_bytes`. -/
def toBytes (body : Body) (limit : Nat) : Option (List UInt8) :=
  collectChunks body.fails limit body.chunks

/-! ## Cookies -/

/-- The text of a header's first line. -/
def headerText (headers : HeaderMap) (name : List Char) : Option (List Char) :=
  (headers.get name).bind HeaderValue.toStr

/-- `cookie_value`. -/
def cookieValue (headers : HeaderMap) (name : List Char) : Option (List Char) :=
  (headerText headers "cookie".toList).bind fun cookie =>
    (((cookie.splitOn ';').filterMap (splitAtFirst '=')).find? fun kv =>
      Text.trimChars kv.1 = name).map fun kv => Text.trimChars kv.2

/-- `SESSION_COOKIE`. -/
def sessionCookie : List Char := "session_id".toList

/-- `session_id_from_headers`. -/
def sessionIdFromHeaders (headers : HeaderMap) : Option (List Char) :=
  cookieValue headers sessionCookie

/-- `ANON_CSRF_COOKIE`. -/
def anonCsrfCookie : List Char := "csrf".toList

/-- `csrf_cookie_value`. -/
def csrfCookieValue (headers : HeaderMap) : Option (List Char) :=
  cookieValue headers anonCsrfCookie

/-! ## Tokens -/

/-- The comparison of two byte strings of one length. -/
def diff (a b : List UInt8) : UInt8 :=
  (a.zip b).foldl (fun diff pair => diff ||| (pair.1 ^^^ pair.2)) 0

/-- `constant_time_eq`. -/
def constantTimeEq (a b : List Char) : Bool :=
  if (utf8 a).length ≠ (utf8 b).length then false
  else diff (utf8 a) (utf8 b) = 0

/-- `CsrfToken::verify`, with the decoder of URL-safe Base64. -/
def verify (fromBase64url : String → Option (List UInt8)) (token : Token) (encoded : List Char) :
    Bool :=
  match fromBase64url (String.ofList encoded) with
  | none => false
  | some decoded =>
    if decoded.length ≠ token.bytes.length then false
    else diff token.bytes decoded = 0

/-- `CSRF_HEADER`. -/
def csrfHeader : List Char := "x-csrf-token".toList

/-- `CSRF_QUERY`. -/
def csrfQuery : List Char := "csrf".toList

/-- `csrf_from_headers`. -/
def csrfFromHeaders (headers : HeaderMap) : Option (List Char) :=
  headerText headers csrfHeader

/-- The loop of `csrf_from_query` and of `csrf_from_form_body`: the value of the
first pair under a key. -/
def firstValue {α : Type} [DecidableEq α] (separator mark : α) (key s : List α) :
    Option (List α) :=
  (s.splitOn separator).findSome? fun pair =>
    (splitAtFirst mark pair).bind fun kv => if kv.1 = key then some kv.2 else none

/-- `csrf_from_query`. -/
def csrfFromQuery (query : Option (List Char)) : Option (List Char) :=
  (firstValue '&' '=' csrfQuery (query.getD [])).map fun value => urlDecode (utf8 value)

/-- The content type of a form. -/
def formContentType : List Char := "application/x-www-form-urlencoded".toList

/-- `csrf_from_form_body`. -/
def csrfFromFormBody (bytes : List UInt8) (contentType : Option (List Char)) :
    Option (List Char) :=
  if formContentType.isPrefixOf (contentType.getD []) then
    (firstValue 38 61 (utf8 csrfQuery) bytes).map urlDecode
  else none

/-! ## The middleware -/

/-- `ResolvedSession`. -/
structure ResolvedSession where
  user : AuthenticatedUser
  csrfToken : Token

/-- What the middleware calls: the decoder of URL-safe Base64 and
`AuthService::resolve_session`. -/
structure App where
  fromBase64url : String → Option (List UInt8)
  resolveSession : Token → Except AuthError (Option ResolvedSession)

/-- `Auth`. -/
structure Auth where
  user : Option AuthenticatedUser
  csrf : Option Token
  session : Option Token
  next : List Char
  fragment : Bool

/-- `is_fragment_request`. -/
def isFragmentRequest (headers : HeaderMap) : Bool :=
  (headers.get "hx-request".toList).isSome &&
    !((headers.get "hx-boosted".toList).isSome ||
      (headers.get "hx-history-restore-request".toList).isSome) &&
    !(match headers.get "hx-request-type".toList with
      | none => false
      | some value =>
        (value.bytes.map fun b => (Char.ofNat b.toNat).toLower) = "full".toList)

/-- `resolve_auth`. -/
def resolveAuth (app : App) (req : Request) : Call Auth :=
  let base : Auth :=
    { user := none, csrf := none, session := none
      next := loginNext req.method req.uri req.headers
      fragment := isFragmentRequest req.headers }
  match sessionIdFromHeaders req.headers with
  | none => .returned base
  | some raw =>
    match SessionId.fromHex (.ofChars raw) with
    | .panicked => .panicked
    | .returned none => .returned base
    | .returned (some sessionId) =>
      match app.resolveSession sessionId with
      | .ok (some resolved) =>
        .returned { base with
          user := some resolved.user, csrf := some resolved.csrfToken, session := some sessionId }
      | _ => .returned base

/-- How the middleware answers: by a refusal of its own with a status and the
key of its text, or by what the handler makes of the request. -/
inductive Outcome where
  | denied (auth : Auth) (status : Nat) (key : String)
  | handled (auth : Auth) (req : Request)

/-- `CSRF_BODY_LIMIT`. -/
def csrfBodyLimit : Nat := 64 * 1024

/-- The methods that need no token. -/
def isSafe (method : Method) : Bool := method = .get || method = .head || method = .options

/-- The check of the token that was submitted. -/
def tokenOk (app : App) (auth : Auth) (headers : HeaderMap) (submitted : Option (List Char)) :
    Bool :=
  match auth.csrf, submitted with
  | some sessionCsrf, some sub => verify app.fromBase64url sessionCsrf sub
  | some _, none => false
  | none, some got =>
    match csrfCookieValue headers with
    | some expected => constantTimeEq expected got
    | none => false
  | none, none => false

/-- The end of the middleware. -/
def admitted (app : App) (auth : Auth) (req : Request) (submitted : Option (List Char)) : Outcome :=
  if tokenOk app auth req.headers submitted then .handled auth req
  else .denied auth 403 "error.csrf"

/-- `auth_middleware`. -/
def authMiddleware (app : App) (req : Request) : Call Outcome :=
  match resolveAuth app req with
  | .panicked => .panicked
  | .returned auth =>
    if isSafe req.method then .returned (.handled auth req)
    else
      match (csrfFromHeaders req.headers).or (csrfFromQuery req.uri.query) with
      | some submitted => .returned (admitted app auth req (some submitted))
      | none =>
        match toBytes req.body csrfBodyLimit with
        | none => .returned (.denied auth 413 "error.too_large")
        | some bytes =>
          .returned (admitted app auth { req with body := .ofBytes bytes }
            (csrfFromFormBody bytes (headerText req.headers "content-type".toList)))

/-! ## What a request presents -/

/-- The values under a key of a list of pairs. -/
def valuesOf {α : Type} [DecidableEq α] (separator mark : α) (key s : List α) : List (List α) :=
  (((s.splitOn separator).filterMap (splitAtFirst mark)).filter fun kv => kv.1 = key).map Prod.snd

/-- The request says that its body is a form. -/
def HasForm (req : Request) : Prop :=
  ∃ value text, ("content-type".toList, value) ∈ req.headers ∧ value.toStr = some text ∧
    formContentType <+: text

/-- The tokens of a request: every `x-csrf-token` line, every `csrf` parameter
of the query and every `csrf` field of a form. -/
inductive Presented (req : Request) : List Char → Prop where
  | header {value : HeaderValue} {token : List Char} (hline : (csrfHeader, value) ∈ req.headers)
      (htext : value.toStr = some token) : Presented req token
  | query {query value : List Char} (hquery : req.uri.query = some query)
      (hvalue : value ∈ valuesOf '&' '=' csrfQuery query) :
      Presented req (urlDecode (utf8 value))
  | field {value : List UInt8} (hform : HasForm req)
      (hvalue : value ∈ valuesOf 38 61 (utf8 csrfQuery) req.body.bytes) :
      Presented req (urlDecode value)

/-- The session cookie of the request names a session that is valid. -/
def HasSession (app : App) (req : Request) (session : ResolvedSession) : Prop :=
  ∃ raw sessionId, cookieValue req.headers sessionCookie = some raw ∧
    SessionId.fromHex (.ofChars raw) = .returned (some sessionId) ∧
    app.resolveSession sessionId = .ok (some session)

/-! ## Comparing -/

theorem foldl_diff_eq_zero {a b : List UInt8} (h : a.length = b.length) (start : UInt8) :
    (a.zip b).foldl (fun diff pair => diff ||| (pair.1 ^^^ pair.2)) start = 0 ↔
      start = 0 ∧ a = b := by
  induction a generalizing b start with
  | nil =>
    cases b with
    | nil => simp
    | cons y b => cases h
  | cons x a ih =>
    cases b with
    | nil => cases h
    | cons y b =>
      rw [List.zip_cons_cons, List.foldl_cons, ih (Nat.succ.inj h), UInt8.or_eq_zero_iff,
        UInt8.xor_eq_zero_iff, and_assoc, List.cons.injEq]

theorem diff_eq_zero {a b : List UInt8} (h : a.length = b.length) : diff a b = 0 ↔ a = b := by
  rw [diff, foldl_diff_eq_zero h]
  simp

theorem utf8_injective : Function.Injective utf8 := by
  intro a b h
  have hstrings : String.ofList a = String.ofList b := by
    rw [← String.toByteArray_inj, String.toByteArray_ofList, String.toByteArray_ofList]
    exact congrArg List.toByteArray h
  rw [← String.toList_ofList (l := a), hstrings, String.toList_ofList]

theorem constantTimeEq_iff {a b : List Char} : constantTimeEq a b = true ↔ a = b := by
  unfold constantTimeEq
  split_ifs with hlength
  · refine ⟨(fun h => by cases h), ?_⟩
    rintro rfl
    exact absurd rfl hlength
  · rw [decide_eq_true_eq, diff_eq_zero (not_not.mp hlength)]
    exact utf8_injective.eq_iff

/-- The check of a token is equality of the decoded bytes. -/
theorem verify_iff {fromBase64url : String → Option (List UInt8)} {token : Token}
    {encoded : List Char} :
    verify fromBase64url token encoded = true ↔
      fromBase64url (String.ofList encoded) = some token.bytes := by
  unfold verify
  cases fromBase64url (String.ofList encoded) with
  | none => simp
  | some decoded =>
    dsimp only
    split_ifs with hlength
    · refine ⟨(fun h => by cases h), ?_⟩
      intro h
      cases h
      exact absurd rfl hlength
    · rw [decide_eq_true_eq, diff_eq_zero (not_not.mp hlength).symm, Option.some.injEq, eq_comm]

/-! ## Bodies -/

theorem collectChunks_eq_some {fails : Bool} {room : Nat} {chunks : List (List UInt8)}
    {bytes : List UInt8} (h : collectChunks fails room chunks = some bytes) :
    bytes = chunks.flatten ∧ fails = false := by
  induction chunks generalizing room bytes with
  | nil =>
    cases fails with
    | false =>
      cases h
      exact ⟨rfl, rfl⟩
    | true => cases h
  | cons chunk rest ih =>
    unfold collectChunks at h
    split_ifs at h
    obtain ⟨more, hmore, rfl⟩ := Option.map_eq_some_iff.mp h
    obtain ⟨rfl, hfails⟩ := ih hmore
    exact ⟨rfl, hfails⟩

/-- What `to_bytes` answers is all of the body, and the stream did not fail. -/
theorem toBytes_eq_some {body : Body} {limit : Nat} {bytes : List UInt8}
    (h : toBytes body limit = some bytes) : bytes = body.bytes ∧ body.fails = false :=
  collectChunks_eq_some h

theorem bytes_ofBytes (bytes : List UInt8) : (Body.ofBytes bytes).bytes = bytes := by
  simp [Body.ofBytes, Body.bytes]

/-! ## Tokens that are found are presented -/

theorem headerText_eq_some {headers : HeaderMap} {name text : List Char}
    (h : headerText headers name = some text) :
    ∃ value, (name, value) ∈ headers ∧ value.toStr = some text := by
  obtain ⟨value, hget, htext⟩ := Option.bind_eq_some_iff.mp h
  obtain ⟨line, hline, rfl⟩ := Option.map_eq_some_iff.mp hget
  have hname : line.1 = name := by simpa using List.find?_some hline
  exact ⟨line.2, by rw [← hname]; exact List.mem_of_find?_eq_some hline, htext⟩

/-- The first value under a key is one of the values under it. -/
theorem mem_valuesOf {α : Type} [DecidableEq α] {separator mark : α} {key s value : List α}
    (h : firstValue separator mark key s = some value) :
    value ∈ valuesOf separator mark key s := by
  obtain ⟨pair, hpair, hfound⟩ := List.exists_of_findSome?_eq_some h
  obtain ⟨kv, hsplit, hfound⟩ := Option.bind_eq_some_iff.mp hfound
  split_ifs at hfound with hkey
  cases hfound
  refine List.mem_map.mpr ⟨kv, List.mem_filter.mpr ⟨?_, by simpa using hkey⟩, rfl⟩
  exact List.mem_filterMap.mpr ⟨pair, hpair, hsplit⟩

theorem presented_of_headers {req : Request} {token : List Char}
    (h : csrfFromHeaders req.headers = some token) : Presented req token := by
  obtain ⟨value, hline, htext⟩ := headerText_eq_some h
  exact .header hline htext

theorem presented_of_query {req : Request} {token : List Char}
    (h : csrfFromQuery req.uri.query = some token) : Presented req token := by
  obtain ⟨value, hvalue, rfl⟩ := Option.map_eq_some_iff.mp h
  cases hquery : req.uri.query with
  | none =>
    rw [hquery] at hvalue
    have hempty : firstValue '&' '=' csrfQuery [] = none := by decide
    cases hempty.symm.trans hvalue
  | some query =>
    rw [hquery] at hvalue
    exact .query hquery (mem_valuesOf hvalue)

theorem presented_of_form {req : Request} {token : List Char}
    (h : csrfFromFormBody req.body.bytes (headerText req.headers "content-type".toList) =
      some token) : Presented req token := by
  unfold csrfFromFormBody at h
  split_ifs at h with htype
  obtain ⟨value, hvalue, rfl⟩ := Option.map_eq_some_iff.mp h
  refine .field ?_ (mem_valuesOf hvalue)
  rw [List.isPrefixOf_iff_prefix] at htype
  cases htext : headerText req.headers "content-type".toList with
  | none =>
    rw [htext] at htype
    exact absurd htype (by decide)
  | some text =>
    rw [htext] at htype
    obtain ⟨value, hline, hvalue⟩ := headerText_eq_some htext
    exact ⟨value, text, hline, hvalue, htype⟩

/-! ## Sessions -/

/-- A session of a request is the one that its cookie resolves to. -/
theorem HasSession.resolved {app : App} {req : Request} {session : ResolvedSession}
    {raw : List Char} {sessionId : Token} (h : HasSession app req session)
    (hraw : sessionIdFromHeaders req.headers = some raw)
    (hid : SessionId.fromHex (.ofChars raw) = .returned (some sessionId)) :
    app.resolveSession sessionId = .ok (some session) := by
  obtain ⟨raw', id', hcookie, hparsed, hsession⟩ := h
  cases hraw.symm.trans hcookie
  cases hid.symm.trans hparsed
  exact hsession

/-- The request has one valid session at most. -/
theorem HasSession.unique {app : App} {req : Request} {session other : ResolvedSession}
    (h : HasSession app req session) (hother : HasSession app req other) : session = other := by
  obtain ⟨raw, id, hraw, hid, hsession⟩ := h
  cases hsession.symm.trans (hother.resolved hraw hid)
  rfl

/-- The auth context holds the token of the valid session, where there is one. -/
theorem resolveAuth_csrf {app : App} {req : Request} {auth : Auth}
    (h : resolveAuth app req = .returned auth) :
    (∃ session, HasSession app req session ∧ auth.csrf = some session.csrfToken) ∨
      (∀ session, ¬ HasSession app req session) ∧ auth.csrf = none := by
  unfold resolveAuth at h
  cases hraw : sessionIdFromHeaders req.headers with
  | none =>
    rw [hraw] at h
    cases h
    refine Or.inr ⟨?_, rfl⟩
    rintro session ⟨raw, id, hcookie, -, -⟩
    cases hraw.symm.trans hcookie
  | some raw =>
    rw [hraw] at h
    dsimp only at h
    cases hid : SessionId.fromHex (.ofChars raw) with
    | panicked =>
      rw [hid] at h
      cases h
    | returned parsed =>
      rw [hid] at h
      cases parsed with
      | none =>
        cases h
        refine Or.inr ⟨?_, rfl⟩
        rintro session ⟨raw', id', hcookie, hparsed, -⟩
        cases hraw.symm.trans hcookie
        cases hid.symm.trans hparsed
      | some sessionId =>
        dsimp only at h
        have hunique : ∀ session, HasSession app req session →
            app.resolveSession sessionId = .ok (some session) :=
          fun session hhas => hhas.resolved hraw hid
        cases hresolved : app.resolveSession sessionId with
        | error e =>
          rw [hresolved] at h hunique
          cases h
          exact Or.inr ⟨fun session hhas => (by cases hunique session hhas), rfl⟩
        | ok found =>
          rw [hresolved] at h hunique
          cases found with
          | none =>
            cases h
            exact Or.inr ⟨fun session hhas => (by cases hunique session hhas), rfl⟩
          | some session =>
            cases h
            exact Or.inl ⟨session, ⟨raw, sessionId, hraw, hid, hresolved⟩, rfl⟩

/-! ## When the handler runs -/

/-- A token for the request: that of its session, or the cookie where it has no
session. -/
def IsTokenFor (app : App) (req : Request) (token : List Char) : Prop :=
  (∃ session, HasSession app req session ∧
    app.fromBase64url (String.ofList token) = some session.csrfToken.bytes) ∨
  ((∀ session, ¬ HasSession app req session) ∧ csrfCookieValue req.headers = some token)

theorem isTokenFor_of_tokenOk {app : App} {req : Request} {auth : Auth}
    {submitted : Option (List Char)} (hauth : resolveAuth app req = .returned auth)
    (h : tokenOk app auth req.headers submitted = true) :
    ∃ token, submitted = some token ∧ IsTokenFor app req token := by
  cases submitted with
  | none =>
    unfold tokenOk at h
    cases hcsrf : auth.csrf with
    | none =>
      rw [hcsrf] at h
      cases h
    | some csrf =>
      rw [hcsrf] at h
      cases h
  | some token =>
    refine ⟨token, rfl, ?_⟩
    unfold tokenOk at h
    rcases resolveAuth_csrf hauth with ⟨session, hsession, hcsrf⟩ | ⟨hnone, hcsrf⟩
    · rw [hcsrf] at h
      exact Or.inl ⟨session, hsession, verify_iff.mp h⟩
    · rw [hcsrf] at h
      cases hcookie : csrfCookieValue req.headers with
      | none =>
        rw [hcookie] at h
        cases h
      | some expected =>
        rw [hcookie] at h
        exact Or.inr ⟨hnone, by rw [hcookie, constantTimeEq_iff.mp h]⟩

/-- The request as the handler sees it is the one that came. -/
def SameRequest (req seen : Request) : Prop :=
  seen.method = req.method ∧ seen.uri = req.uri ∧ seen.headers = req.headers ∧
    seen.body.bytes = req.body.bytes ∧ seen.body.fails = req.body.fails

theorem admitted_eq_handled {app : App} {auth seenBy : Auth} {req seen : Request}
    {submitted : Option (List Char)} (h : admitted app auth req submitted = .handled seenBy seen) :
    tokenOk app auth req.headers submitted = true ∧ seenBy = auth ∧ seen = req := by
  unfold admitted at h
  split_ifs at h with hok
  cases h
  exact ⟨hok, rfl, rfl⟩

/-- A state-changing request reaches its handler only with a token, and as it
came. -/
theorem authMiddleware_run {app : App} {req seen : Request} {auth : Auth}
    (hmethod : req.method ≠ .get ∧ req.method ≠ .head ∧ req.method ≠ .options)
    (h : authMiddleware app req = .returned (.handled auth seen)) :
    (∃ token, Presented req token ∧ IsTokenFor app req token) ∧ SameRequest req seen := by
  have hwrites : isSafe req.method = false := by
    simp [isSafe, hmethod.1, hmethod.2.1, hmethod.2.2]
  unfold authMiddleware at h
  cases hauth : resolveAuth app req with
  | panicked =>
    rw [hauth] at h
    cases h
  | returned resolved =>
    rw [hauth] at h
    simp only [hwrites, Bool.false_eq_true, if_false] at h
    cases hfound : (csrfFromHeaders req.headers).or (csrfFromQuery req.uri.query) with
    | some submitted =>
      rw [hfound] at h
      injection h with hadmitted
      obtain ⟨hok, -, rfl⟩ := admitted_eq_handled hadmitted
      obtain ⟨token, htoken, hfor⟩ := isTokenFor_of_tokenOk hauth hok
      cases htoken
      refine ⟨⟨submitted, ?_, hfor⟩, rfl, rfl, rfl, rfl, rfl⟩
      rcases Option.or_eq_some_iff.mp hfound with hheader | ⟨-, hquery⟩
      · exact presented_of_headers hheader
      · exact presented_of_query hquery
    | none =>
      rw [hfound] at h
      dsimp only at h
      cases hbytes : toBytes req.body csrfBodyLimit with
      | none =>
        rw [hbytes] at h
        cases h
      | some bytes =>
        rw [hbytes] at h
        injection h with hadmitted
        obtain ⟨rfl, hfails⟩ := toBytes_eq_some hbytes
        obtain ⟨hok, -, rfl⟩ := admitted_eq_handled hadmitted
        obtain ⟨token, htoken, hfor⟩ := isTokenFor_of_tokenOk hauth hok
        exact ⟨⟨token, presented_of_form htoken, hfor⟩, rfl, rfl, rfl, bytes_ofBytes _,
          hfails.symm⟩

/-- A form in two chunks, whose field is percent-encoded, with the cookie of a
visitor without a session. -/
def sampleRequest : Request where
  method := .post
  uri := ⟨"/login".toList, some "/login".toList, none⟩
  headers :=
    [("content-type".toList, ⟨asciiBytes (formContentType ++ "; charset=utf-8".toList),
        by decide +kernel⟩),
      ("cookie".toList, ⟨asciiBytes "theme=dark; csrf=Abc".toList, by decide +kernel⟩)]
  body := ⟨[asciiBytes "email=a&cs".toList, asciiBytes "rf=%41bc".toList], false⟩

/-- A decoder and a store that answer nothing. -/
def emptyApp : App := ⟨fun _ => none, fun _ => .ok none⟩

theorem authMiddleware_run_sample :
    ∃ token, Presented sampleRequest token ∧ IsTokenFor emptyApp sampleRequest token := by
  have hhandled : authMiddleware emptyApp sampleRequest =
      .returned (.handled ⟨none, none, none, "/".toList, false⟩
        { sampleRequest with body := .ofBytes sampleRequest.body.bytes }) := by
    rfl
  exact (authMiddleware_run (by decide) hhandled).1

/-! ## Cookies never panic -/

theorem mem_of_mem_splitOn {α : Type} [BEq α] {mark x : α} {s part : List α}
    (hpart : part ∈ s.splitOn mark) (hx : x ∈ part) : x ∈ s := by
  have hsplit : part ∈ s.splitOnP (· == mark) := hpart
  induction s generalizing part with
  | nil =>
    rw [List.splitOnP_nil, List.mem_singleton] at hsplit
    rw [hsplit] at hx
    cases hx
  | cons c s ih =>
    rw [List.splitOnP_cons_eq_if_modifyHead] at hsplit
    split_ifs at hsplit
    · rcases List.mem_cons.mp hsplit with rfl | hrest
      · cases hx
      · exact List.mem_cons_of_mem c (ih hrest hx hrest)
    · cases hparts : s.splitOnP (· == mark) with
      | nil => exact absurd hparts (List.splitOnP_ne_nil _ s)
      | cons first rest =>
        rw [hparts, List.modifyHead_cons] at hsplit
        rcases List.mem_cons.mp hsplit with rfl | hrest
        · rcases List.mem_cons.mp hx with rfl | hx
          · exact List.mem_cons_self
          · have hfirst : first ∈ s.splitOnP (· == mark) := by simp [hparts]
            exact List.mem_cons_of_mem c (ih hfirst hx hfirst)
        · have hmem : part ∈ s.splitOnP (· == mark) := by simp [hparts, hrest]
          exact List.mem_cons_of_mem c (ih hmem hx hmem)

theorem ascii_of_toStr {value : HeaderValue} {text : List Char} (h : value.toStr = some text) :
    ∀ c ∈ text, c.toNat < 128 := by
  unfold HeaderValue.toStr at h
  split_ifs at h with hvisible
  cases h
  intro c hc
  obtain ⟨b, hb, rfl⟩ := List.mem_map.mp hc
  have hb : b.toNat < 127 := by
    have hb := List.all_eq_true.mp hvisible b hb
    simp only [isVisibleAscii, Bool.or_eq_true, Bool.and_eq_true, decide_eq_true_eq,
      UInt8.lt_iff_toNat_lt] at hb
    rcases hb with hb | rfl
    · exact hb.2
    · decide
  have hvalid : b.toNat.isValidChar := Or.inl (by omega)
  rw [Char.ofNat, dif_pos hvalid]
  exact Nat.lt_succ_of_lt hb

/-- The text of a cookie is part of the header's. -/
theorem ascii_of_cookieValue {headers : HeaderMap} {name text : List Char}
    (h : cookieValue headers name = some text) : ∀ c ∈ text, c.toNat < 128 := by
  obtain ⟨cookie, hcookie, hfound⟩ := Option.bind_eq_some_iff.mp h
  obtain ⟨kv, hkv, rfl⟩ := Option.map_eq_some_iff.mp hfound
  obtain ⟨pair, hpair, hsplit⟩ := List.mem_filterMap.mp (List.mem_of_find?_eq_some hkv)
  obtain ⟨value, -, htext⟩ := headerText_eq_some hcookie
  intro c hc
  refine ascii_of_toStr htext c (mem_of_mem_splitOn hpair ?_)
  have hmem : c ∈ kv.2 := (List.dropWhile_sublist _).mem ((List.rdropWhile_prefix _ _).mem hc)
  unfold splitAtFirst at hsplit
  cases hdrop : pair.dropWhile (· ≠ '=') with
  | nil =>
    rw [hdrop] at hsplit
    cases hsplit
  | cons d rest =>
    rw [hdrop] at hsplit
    cases hsplit
    have hrest : c ∈ pair.dropWhile (· ≠ '=') := by
      rw [hdrop]
      exact List.mem_cons_of_mem d hmem
    exact (List.dropWhile_sublist _).mem hrest

theorem utf8_ascii {text : List Char} (h : ∀ c ∈ text, c.toNat < 128) :
    ∀ b ∈ utf8 text, b < 0x80 := by
  intro b hb
  obtain ⟨c, hc, hb⟩ := List.mem_flatMap.mp hb
  have hsmall : c.toNat < 128 := h c hc
  have hsize : c.utf8Size = 1 := Char.utf8Size_eq_one_iff.mpr (Nat.le_of_lt_succ hsmall)
  rw [String.utf8EncodeChar_eq_singleton hsize, List.mem_singleton] at hb
  have hbyte : b.toNat = c.toNat := by
    rw [hb, UInt32.toNat_toUInt8]
    exact Nat.mod_eq_of_lt (Nat.lt_trans hsmall (by decide))
  rw [UInt8.lt_iff_toNat_lt, hbyte]
  exact hsmall

/-- The middleware always answers. -/
theorem authMiddleware_returns (app : App) (req : Request) :
    ∃ outcome, authMiddleware app req = .returned outcome := by
  have hauth : ∃ auth, resolveAuth app req = .returned auth := by
    unfold resolveAuth
    cases hraw : sessionIdFromHeaders req.headers with
    | none => exact ⟨_, rfl⟩
    | some raw =>
      have hreturns := SessionId.fromHex_returns (s := .ofChars raw)
        (utf8_ascii (ascii_of_cookieValue hraw))
      dsimp only
      cases hid : SessionId.fromHex (.ofChars raw) with
      | panicked => exact absurd hid hreturns
      | returned parsed =>
        cases parsed with
        | none => exact ⟨_, rfl⟩
        | some id =>
          dsimp only
          split
          · exact ⟨_, rfl⟩
          · exact ⟨_, rfl⟩
  obtain ⟨auth, hauth⟩ := hauth
  rw [authMiddleware, hauth]
  dsimp only
  split_ifs
  · exact ⟨_, rfl⟩
  · split
    · exact ⟨_, rfl⟩
    · split
      · exact ⟨_, rfl⟩
      · exact ⟨_, rfl⟩

/-! ## The sessions of the store -/

/-- `AuthService::resolve_session` with the token of the session. -/
def resolvedSession (deps : Deps) (raw : Token) (now : Instant) :
    Service Store.Db AuthError (Option ResolvedSession) := do
  let session ← resolve deps raw now
  match session with
  | none => return none
  | some session =>
    let found ← Auth.read fun db => findById deps.cases db session.userId
    match found with
    | none => return none
    | some user =>
      if user.accountState.canAccessAccount then
        -- `resolve` has answered an error where the column does not decode.
        return (decodeToken deps session.csrfToken).map fun csrfToken => ⟨fromUser user, csrfToken⟩
      else return none

/-- The application over a database. -/
def App.ofStore (deps : Deps) (now : Instant) (db : Store.Db) : App where
  fromBase64url := deps.fromBase64url
  resolveSession raw := ((resolvedSession deps raw now).run db).1

/-- What `resolve` answers stands in the store and is valid. -/
theorem sessionOf_of_resolve {deps : Deps} {now : Instant} {db db' : Store.Db} {raw : Token}
    {row : Store.Session} (h : (resolve deps raw now).run db = (.ok (some row), db')) :
    sessionOf deps db raw = some row ∧ isValid now row = true ∧
      ∃ token, decodeToken deps row.csrfToken = some token := by
  obtain ⟨found, store, hfound, hrest⟩ := Service.run_bind_ok h
  have hrow := Service.run_request_ok.mp hfound
  cases hrow
  cases hsession : sessionOf deps db raw with
  | none =>
    rw [hsession] at hrest
    simp at hrest
  | some r =>
    rw [hsession] at hrest
    dsimp only at hrest
    split_ifs at hrest with hvalid
    · obtain ⟨done, store', hdecodes, hdone⟩ := Service.run_bind_ok hrest
      cases hdone
      exact ⟨rfl, hvalid, Option.isSome_iff_exists.mp (Service.run_require_ok.mp hdecodes).1⟩
    · simp at hrest

/-- A session that is resolved stands in a valid row, and its token is the
row's. -/
theorem resolveSession_ofStore {deps : Deps} {now : Instant} {db : Store.Db} {raw : Token}
    {session : ResolvedSession}
    (h : (App.ofStore deps now db).resolveSession raw = .ok (some session)) :
    ∃ row, sessionOf deps db raw = some row ∧ isValid now row = true ∧
      decodeToken deps row.csrfToken = some session.csrfToken := by
  have hrun : (resolvedSession deps raw now).run db =
      (.ok (some session), ((resolvedSession deps raw now).run db).2) := Prod.ext h rfl
  obtain ⟨found, store, hresolve, hrest⟩ := Service.run_bind_ok hrun
  cases found with
  | none => simp at hrest
  | some row =>
    obtain ⟨hrow, hvalid, -⟩ := sessionOf_of_resolve hresolve
    obtain ⟨user, store', -, hrest⟩ := Service.run_bind_ok hrest
    cases user with
    | none => simp at hrest
    | some user =>
      dsimp only at hrest
      split_ifs at hrest
      · obtain ⟨hsession, -⟩ := Prod.mk.inj hrest
        obtain ⟨token, htoken, rfl⟩ := Option.map_eq_some_iff.mp (Except.ok.inj hsession)
        exact ⟨row, hrow, hvalid, htoken⟩
      · simp at hrest

/-- A valid session of a request is a valid row of the store, under the id in the
cookie. -/
theorem HasSession.row {deps : Deps} {now : Instant} {db : Store.Db} {req : Request}
    {session : ResolvedSession} (h : HasSession (.ofStore deps now db) req session) :
    ∃ raw sessionId row, cookieValue req.headers sessionCookie = some raw ∧
      SessionId.fromHex (.ofChars raw) = .returned (some sessionId) ∧
      sessionOf deps db sessionId = some row ∧ isValid now row = true ∧
      decodeToken deps row.csrfToken = some session.csrfToken := by
  obtain ⟨raw, sessionId, hraw, hid, hsession⟩ := h
  obtain ⟨row, hrow, hvalid, htoken⟩ := resolveSession_ofStore hsession
  exact ⟨raw, sessionId, row, hraw, hid, hrow, hvalid, htoken⟩

/-- Without its token a resolved session is what `resolveSession` answers. -/
theorem resolveSession_run (deps : Deps) (raw : Token) (now : Instant) (db : Store.Db) :
    ((resolveSession deps raw now).run db).1 =
      ((App.ofStore deps now db).resolveSession raw).map (Option.map ResolvedSession.user) := by
  show _ = (((resolvedSession deps raw now).run db).1).map _
  rw [resolveSession, resolvedSession, Service.run_bind, Service.run_bind]
  cases hresolve : (resolve deps raw now).run db with
  | mk answer store =>
    cases answer with
    | error e => rfl
    | ok found =>
      cases found with
      | none => rfl
      | some row =>
        obtain ⟨-, -, token, htoken⟩ := sessionOf_of_resolve hresolve
        dsimp only
        rw [Service.run_bind, Service.run_bind]
        cases (Auth.read fun db => findById deps.cases db row.userId).run store with
        | mk answer store =>
          cases answer with
          | error e => rfl
          | ok user =>
            cases user with
            | none => rfl
            | some user =>
              dsimp only
              split_ifs
              · simp [htoken, Except.map]
              · rfl

end BikesNest.Web
