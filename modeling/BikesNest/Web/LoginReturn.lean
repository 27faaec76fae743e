import BikesNest.Web.Forms
import Mathlib.Algebra.Order.BigOperators.Group.List
import Mathlib.Algebra.Order.Group.Nat

/-!
# Back to the page that asked for a login

A request that needs an account is answered with a link to `/login` that carries
its page (`loginUrl`).  The login page keeps it in a hidden field, a refused
attempt renders the page again, and an accepted one redirects to it.

A `Visit` is what a browser has after some responses: its cookies and the login
page that it shows.  `login_returns` says that whatever page the visitor came from
and however many attempts were refused, the one that is accepted signs the visitor
in and leads back to that page.
-/

namespace BikesNest.Web

open BikesNest.Auth Domain
open Browser (Page)

-- Facts about the characters of a text are decided along the text, not over all characters.
attribute [local instance (high)] List.decidableBAll

/-! ## The link -/

/-- `Auth::login_url`. -/
def Auth.loginUrl (auth : Auth) : List Char := "/login?next=".toList ++ encodeQueryValue auth.next

/-- What the address bar holds becomes the target of the next request. -/
def uriOf (url : Browser.Url) : Uri where
  path := '/' :: ['/'].intercalate url.path
  pathAndQuery := some ('/' :: ['/'].intercalate url.path ++ (url.query.elim [] fun q => '?' :: q))
  query := url.query

theorem range_of_isUnreserved {b : UInt8} (h : isUnreserved b = true) :
    45 ≤ b.toNat ∧ b.toNat ≤ 126 := by
  simp only [isUnreserved, Bool.or_eq_true, Bool.and_eq_true, decide_eq_true_eq,
    UInt8.le_iff_toNat_le, ← UInt8.toNat_inj] at h
  simp at h
  omega

/-- The characters of an encoded value: no space, control character or hash. -/
theorem encodeQueryValue_plain (s : List Char) :
    ∀ c ∈ encodeQueryValue s, 33 ≤ c.toNat ∧ c ≠ '#' := by
  intro c hc
  have hc := List.mem_map.mp hc
  obtain ⟨b, hb, rfl⟩ := hc
  have hb := List.mem_flatMap.mp hb
  obtain ⟨x, -, hb⟩ := hb
  have hrange : 37 ≤ b.toNat ∧ b.toNat ≤ 126 := by
    rcases Percent.mem_keeping hb with hkeep | hdigits
    · simp only [Bool.or_eq_true, decide_eq_true_eq] at hkeep
      rcases hkeep with hkeep | hslash
      · have hrange := range_of_isUnreserved hkeep
        omega
      · simp [hslash]
    · omega
  have hvalid : b.toNat.isValidChar := .inl (by omega)
  have hvalue : (Char.ofNat b.toNat).toNat = b.toNat := by
    rw [Char.ofNat, dif_pos hvalid]
    rfl
  constructor
  · omega
  · intro hhash
    rw [hhash] at hvalue
    have hnumber : '#'.toNat = 35 := rfl
    omega

/-- The text behind the slash of the link. -/
theorem loginUrl_plain (auth : Auth) : ∀ c ∈ auth.loginUrl, 33 ≤ c.toNat ∧ c ≠ '#' := by
  intro c hc
  rcases List.mem_append.mp hc with hc | hc
  · exact (by decide : ∀ c ∈ "/login?next=".toList, 33 ≤ c.toNat ∧ c ≠ '#') c hc
  · exact encodeQueryValue_plain auth.next c hc

/-- A browser follows the link to the login page and leaves its query as it is. -/
theorem resolve_loginUrl (page : Page) (auth : Auth) :
    (Browser.resolve page auth.loginUrl).map uriOf =
      some ⟨"/login".toList, some auth.loginUrl,
        some (assigned "next".toList (encodeQueryValue auth.next))⟩ := by
  have hsegment : Browser.IsSegment "login".toList :=
    ⟨by decide, by decide, by decide +kernel⟩
  have hplain : ∀ c ∈ '/' :: "login".toList ++ '?' ::
      assigned "next".toList (encodeQueryValue auth.next), 33 ≤ c.toNat ∧ c ≠ '#' :=
    loginUrl_plain auth
  have hresolve := Browser.resolve_segment page hsegment hplain
  show (Browser.resolve page ('/' :: "login".toList ++ '?' ::
    assigned "next".toList (encodeQueryValue auth.next))).map uriOf = _
  rw [hresolve]
  rfl

/-! ## The login page -/

/-- `LoginNotices`. -/
structure LoginNotices where
  registered : Option (List Char)
  verified : Option (List Char)
  reset : Option (List Char)
  resend : Option (List Char)
  oauth : Option (List Char)
  next : List Char

/-- `Query<LoginNotices>`. -/
def LoginNotices.read (query : Option (List Char)) : Option LoginNotices := do
  let pairs := queryPairs query
  let registered ← field pairs "registered".toList
  let verified ← field pairs "verified".toList
  let reset ← field pairs "reset".toList
  let resend ← field pairs "resend".toList
  let oauth ← field pairs "oauth".toList
  let next ← field pairs "next".toList
  return { registered, verified, reset, resend, oauth, next := next.getD [] }

/-- `login_notice`, by the key of its text. -/
def loginNotice (q : LoginNotices) : Option String :=
  if q.registered.isSome then some "auth.registered"
  else if q.verified.isSome then some "auth.verified"
  else if q.reset.isSome then some "auth.reset_sent"
  else if q.resend.isSome then some "auth.resend_sent"
  else if q.oauth.isSome then some "auth.oauth_failed"
  else none

/-- `LoginForm`. -/
structure LoginForm where
  email : List Char
  password : List Char
  next : List Char

/-- `Form<LoginForm>` takes the body of a request that calls it a form. -/
def LoginForm.read (req : Request) : Option LoginForm :=
  if formContentType.isPrefixOf ((headerText req.headers contentType).getD []) then do
    let pairs := formPairs req.body.bytes
    let email ← field pairs "email".toList
    let password ← field pairs "password".toList
    let next ← field pairs "next".toList
    return { email := email.getD [], password := password.getD [], next := next.getD [] }
  else none

/-- What is filled into the login page: its token, the keys of its texts and the
hidden field. -/
structure LoginPage where
  csrf : List Char
  notice : Option String
  error : Option String
  next : List Char

/-- How a handler answers: with a redirect, with the login page and the cookie of its
token, or not at all where an extractor refuses the request. -/
inductive Answer where
  | redirect (location : List Char) (session : Option Token)
  | page (page : LoginPage)
  | refused

/-- `login_destination`. -/
def loginDestination (next : List Char) : List Char := (safeLocalPath next).getD "/account".toList

/-- `login_page`, with the token that it makes. -/
def loginPage (auth : Auth) (query : Option (List Char)) (token : List Char) : Answer :=
  match LoginNotices.read query with
  | none => .refused
  | some q =>
    if auth.user.isSome then .redirect (loginDestination q.next) none
    else .page {
      csrf := token
      notice := loginNotice q
      error := none
      next := (safeLocalPath q.next).getD [] }

/-- `login_post`, with what `AuthService::login` answers. -/
def loginPost (login : List Char → List Char → Except AuthError Token) (auth : Auth)
    (req : Request) (token : List Char) : Answer :=
  match LoginNotices.read req.uri.query, LoginForm.read req with
  | some q, some form =>
    let next := if form.next = [] then q.next else form.next
    if auth.user.isSome then .redirect (loginDestination next) none
    else
      match login form.email form.password with
      | .ok session => .redirect (loginDestination next) (some session)
      | .error _ => .page {
          csrf := token
          notice := none
          error := some "auth.error.invalid_credentials"
          next := (safeLocalPath next).getD [] }
  | _, _ => .refused

/-! ## Attempts -/

/-- An attempt to sign in: what is typed and when, what else the browser sends, what
`AuthService::login` answers, and the token of the page that is rendered again. -/
structure Attempt where
  time : Instant
  email : List Char
  password : List Char
  headers : HeaderMap
  login : List Char → List Char → Except AuthError Token
  fresh : PageToken
  plain : IsOther headers

/-- A browser: the responses that have set its cookies, and the login page that it
shows. -/
structure Visit where
  run : List (Instant × SiteCookie)
  page : LoginPage

/-- The fields of the form; the one of the target is left out where there is none. -/
def loginFields (csrf next email password : List Char) : List (List Char × List Char) :=
  (csrfQuery, csrf) :: ((if next = [] then [] else [("next".toList, next)]) ++
    [("email".toList, email), ("password".toList, password)])

/-- The request of an attempt. -/
def Visit.submission (v : Visit) (a : Attempt) : Request where
  method := .post
  uri := ⟨"/login".toList, some "/login".toList, none⟩
  headers := formHeaders a.headers (cookieHeaders a.time "/login".toList (jarAfter v.run))
  body := .ofBytes (formBody (loginFields v.page.csrf v.page.next a.email a.password))

/-- The answer of the middleware and the handler behind it. -/
def Visit.answer (app : App) (v : Visit) (a : Attempt) : Answer :=
  match authMiddleware app (v.submission a) with
  | .returned (.handled auth req) => loginPost a.login auth req a.fresh.chars
  | _ => .refused

/-- After a refused attempt the browser shows the login page again, with a new
cookie. -/
def Visit.retry (app : App) (v : Visit) (a : Attempt) : Option Visit :=
  match v.answer app a with
  | .page page => some ⟨v.run ++ [(a.time, .anonCsrf a.fresh.cookieText)], page⟩
  | _ => none

/-- Several attempts, one after the other. -/
def Visit.retries (app : App) : Visit → List Attempt → Option Visit
  | v, [] => some v
  | v, a :: rest => (v.retry app a).bind fun v => v.retries app rest

/-- The login page, opened by its address. -/
def openLogin (app : App) (run : List (Instant × SiteCookie)) (now : Instant) (uri : Uri)
    (token : PageToken) : Option Visit :=
  match authMiddleware app ⟨.get, uri, cookieHeaders now uri.path (jarAfter run), ⟨[], false⟩⟩ with
  | .returned (.handled auth req) =>
    match loginPage auth req.uri.query token.chars with
    | .page page => some ⟨run ++ [(now, .anonCsrf token.cookieText)], page⟩
    | _ => none
  | _ => none

/-! ## What the handlers read -/

/-- The cookies of a browser name no session that is valid. -/
def SignedOut (app : App) (run : List (Instant × SiteCookie)) : Prop :=
  ∀ now id session, signedInAs run now = some id → app.resolveSession id ≠ .ok (some session)

theorem read_loginUrl (next : List Char) :
    LoginNotices.read (some (assigned "next".toList (encodeQueryValue next))) =
      some ⟨none, none, none, none, none, next⟩ := by
  have hname : ∀ p ∈ [("next".toList, next)], IsName p.1 := by
    intro p hp
    rw [List.mem_singleton.mp hp]
    show IsName "next".toList
    unfold IsName
    decide
  have hpairs : queryPairs (some (assigned "next".toList (encodeQueryValue next))) =
      [("next".toList, next)] := by
    have hread := queryPairs_writeQuery writes_query
      (keepsNames_keeping fun b hb => by simp [hb]) hname
    rw [List.map_cons, List.map_nil, joined_singleton] at hread
    exact hread
  simp only [LoginNotices.read, hpairs]
  rfl

theorem read_loginFields (req : Request) {csrf next email password : List Char}
    (htype : headerText req.headers contentType = some formContentType)
    (hbody : req.body.bytes = formBody (loginFields csrf next email password)) :
    LoginForm.read req = some ⟨email, password, next⟩ := by
  have hprefix : formContentType.isPrefixOf ((some formContentType).getD []) = true := by decide
  rw [LoginForm.read, htype, if_pos hprefix, hbody, formPairs_formBody]
  unfold loginFields
  by_cases hnext : next = []
  · rw [if_pos hnext, hnext]
    rfl
  · rw [if_neg hnext]
    rfl

/-- The auth context has the target of the request, and a user only with a valid
session. -/
theorem resolveAuth_cases {app : App} {req : Request} {auth : Auth}
    (hauth : resolveAuth app req = .returned auth) :
    auth.next = loginNext req.method req.uri req.headers ∧
      (auth.user = none ∨ ∃ session, HasSession app req session) := by
  unfold resolveAuth at hauth
  cases hraw : sessionIdFromHeaders req.headers with
  | none =>
    rw [hraw] at hauth
    cases hauth
    exact ⟨rfl, .inl rfl⟩
  | some raw =>
    rw [hraw] at hauth
    dsimp only at hauth
    cases hid : SessionId.fromHex (.ofChars raw) with
    | panicked =>
      rw [hid] at hauth
      cases hauth
    | returned found =>
      rw [hid] at hauth
      cases found with
      | none =>
        cases hauth
        exact ⟨rfl, .inl rfl⟩
      | some id =>
        dsimp only at hauth
        split at hauth
        · rename_i session hsession
          cases hauth
          exact ⟨rfl, .inr ⟨session, raw, id, hraw, hid, hsession⟩⟩
        · cases hauth
          exact ⟨rfl, .inl rfl⟩

theorem user_of_resolveAuth {app : App} {req : Request} {auth : Auth}
    (hauth : resolveAuth app req = .returned auth)
    (hnone : ∀ session, ¬ HasSession app req session) : auth.user = none := by
  rcases (resolveAuth_cases hauth).2 with huser | ⟨session, hhas⟩
  · exact huser
  · exact absurd hhas (hnone session)

/-! ## One attempt -/

/-- The browser shows the login page that came last, with a target. -/
structure Shows (v : Visit) (t : Instant) (next : List Char) : Prop where
  next : v.page.next = next
  csrf : ∃ token : PageToken, v.page.csrf = token.chars ∧
    lastSet anonCsrfCookie v.run = some (t, .anonCsrf token.cookieText)

/-- The form is small enough for the middleware. -/
def Attempt.Small (next : List Char) (a : Attempt) : Prop :=
  ∀ token : PageToken,
    (formBody (loginFields token.chars next a.email a.password)).length ≤ csrfBodyLimit

theorem sentBy_submission (v : Visit) (a : Attempt) : SentBy v.run a.time (v.submission a) where
  path := ⟨"login".toList, rfl⟩
  cookies := (get_cookie_formHeaders a.plain).trans (get_cookieHeaders _ _ _)

theorem submits_submission {v : Visit} {a : Attempt}
    (hsize : (formBody (loginFields v.page.csrf v.page.next a.email a.password)).length ≤
      csrfBodyLimit) : Submits (v.submission a) v.page.csrf := by
  have hcookies := get_cookieHeaders_of_ne a.time "/login".toList (jarAfter v.run)
    (by decide : csrfHeader ≠ "cookie".toList)
  have hquery : csrfFromQuery (v.submission a).uri.query = none :=
    (by decide +kernel : csrfFromQuery none = none)
  apply Submits.field (csrfFromHeaders_formHeaders a.plain hcookies) hquery
    (headerText_contentType a.plain) (List.prefix_refl _) rfl hsize
  simp [loginFields]

theorem signedOut_of_append {app : App} {run : List (Instant × SiteCookie)} {t : Instant}
    {token : CookieText} (h : SignedOut app run) :
    SignedOut app (run ++ [(t, .anonCsrf token)]) := by
  intro now id session hid
  apply h now id session
  have hname : ¬ (SiteCookie.anonCsrf token).name = sessionCookie := by
    show ¬ anonCsrfCookie = sessionCookie
    decide
  have hlast : lastSet sessionCookie (run ++ [(t, .anonCsrf token)]) =
      lastSet sessionCookie run := by
    simp only [lastSet, List.reverse_append, List.reverse_cons, List.reverse_nil, List.nil_append,
      List.singleton_append, List.find?_cons, hname, decide_false]
  rw [signedInAs, hlast] at hid
  exact hid

/-- An attempt on the page that is shown reaches the handler, which reads what was
typed and the target of the page. -/
theorem answer_eq {app : App} {v : Visit} {a : Attempt} {t : Instant} {next : List Char}
    (hout : SignedOut app v.run) (hshows : Shows v t next) (htime : a.time < t + hour)
    (hsmall : a.Small next) :
    v.answer app a =
      match a.login a.email a.password with
      | .ok session => .redirect (loginDestination next) (some session)
      | .error _ => .page {
          csrf := a.fresh.chars
          notice := none
          error := some "auth.error.invalid_credentials"
          next := (safeLocalPath next).getD [] } := by
  obtain ⟨token, hcsrf, hset⟩ := hshows.csrf
  have hsent := sentBy_submission v a
  have hsubmits : Submits (v.submission a) v.page.csrf := by
    apply submits_submission
    rw [hcsrf, hshows.next]
    exact hsmall token
  have hpage : IsPageToken v.page.csrf := by
    rw [hcsrf]
    exact token.isPageToken
  have hnone : ∀ session, ¬ HasSession app (v.submission a) session := by
    intro session hhas
    have hset := (hasSession_iff hsent session).mp hhas
    obtain ⟨id, hid, hsession⟩ := hset
    exact hout _ id session hid hsession
  have hfor : IsTokenFor app (v.submission a) v.page.csrf :=
    .inr ⟨hnone, (csrfCookieValue_iff hsent _).mpr ⟨t, token.cookieText, hset, hcsrf.symm, htime⟩⟩
  have hreturns := (authMiddleware_submits_iff rfl hpage hsubmits).mpr hfor
  obtain ⟨auth, hhandled⟩ := hreturns
  cases hauth : resolveAuth app (v.submission a) with
  | panicked =>
    rw [authMiddleware, hauth] at hhandled
    cases hhandled
  | returned resolved =>
    have hsame : resolved = auth := by
      rw [authMiddleware_of_submits rfl hpage hsubmits hauth] at hhandled
      exact (admitted_eq_handled (Jobs.Call.returned.inj hhandled)).2.1.symm
    have huser : auth.user = none := by
      rw [← hsame]
      exact user_of_resolveAuth hauth hnone
    have hquery : LoginNotices.read (v.submission a).uri.query =
        some ⟨none, none, none, none, none, []⟩ := rfl
    have hform := read_loginFields (v.submission a) (headerText_contentType a.plain)
      (bytes_ofBytes (formBody (loginFields v.page.csrf v.page.next a.email a.password)))
    have hnext : (if v.page.next = [] then [] else v.page.next) = next := by
      rw [hshows.next]
      split
      · rename_i hempty
        exact hempty.symm
      · rfl
    simp only [Visit.answer, hhandled, loginPost, hquery, hform, huser, hnext, Option.isSome_none,
      Bool.false_eq_true, if_false]

/-! ## Several attempts -/

/-- The attempt is refused. -/
def Attempt.Fails (a : Attempt) : Prop := ∃ e, a.login a.email a.password = .error e

/-- Each attempt is made within an hour of the page before it. -/
def Prompt : Instant → List Attempt → Prop
  | _, [] => True
  | t, a :: rest => a.time < t + hour ∧ Prompt a.time rest

/-- The time of the page that is shown after some attempts. -/
def shownAt : Instant → List Attempt → Instant
  | t, [] => t
  | _, a :: rest => shownAt a.time rest

theorem prompt_append {t : Instant} {attempts : List Attempt} {last : Attempt} :
    Prompt t (attempts ++ [last]) ↔
      Prompt t attempts ∧ last.time < shownAt t attempts + hour := by
  induction attempts generalizing t with
  | nil => simp [Prompt, shownAt]
  | cons a rest ih => simp [Prompt, shownAt, ih, and_assoc]

theorem lastSet_append (run : List (Instant × SiteCookie)) (t : Instant) (token : CookieText) :
    lastSet anonCsrfCookie (run ++ [(t, .anonCsrf token)]) = some (t, .anonCsrf token) := by
  rw [lastSet, List.reverse_append, List.reverse_singleton, List.singleton_append,
    List.find?_cons_of_pos]
  exact decide_eq_true rfl

/-- A target that is a path on the site. -/
theorem safeLocalPath_getD {next : List Char} (h : IsLocalPath next) (other : List Char) :
    (safeLocalPath next).getD other = next := by
  rw [safeLocalPath_of_isLocalPath h, Option.getD_some]

/-- A refused attempt shows the page again, with the same target. -/
theorem retry_of_fails {app : App} {v : Visit} {a : Attempt} {t : Instant} {next : List Char}
    (hlocal : IsLocalPath next) (hout : SignedOut app v.run) (hshows : Shows v t next)
    (htime : a.time < t + hour) (hsmall : a.Small next) (hfails : a.Fails) :
    ∃ v', v.retry app a = some v' ∧ SignedOut app v'.run ∧ Shows v' a.time next := by
  obtain ⟨e, he⟩ := hfails
  have hanswer := answer_eq hout hshows htime hsmall
  simp only [he] at hanswer
  refine ⟨_, by rw [Visit.retry, hanswer], signedOut_of_append hout, ?_⟩
  constructor
  · exact safeLocalPath_getD hlocal []
  · exact ⟨a.fresh, rfl, lastSet_append v.run a.time a.fresh.cookieText⟩

/-- However often an attempt is refused, the page keeps its target. -/
theorem retries_of_fails {app : App} {next : List Char} (hlocal : IsLocalPath next)
    {attempts : List Attempt} {v : Visit} {t : Instant} (hout : SignedOut app v.run)
    (hshows : Shows v t next) (hprompt : Prompt t attempts)
    (hsmall : ∀ a ∈ attempts, a.Small next) (hfails : ∀ a ∈ attempts, a.Fails) :
    ∃ v', v.retries app attempts = some v' ∧ SignedOut app v'.run ∧
      Shows v' (shownAt t attempts) next := by
  induction attempts generalizing v t with
  | nil => exact ⟨v, rfl, hout, hshows⟩
  | cons a rest ih =>
    have hstep := retry_of_fails hlocal hout hshows hprompt.1 (hsmall a List.mem_cons_self)
      (hfails a List.mem_cons_self)
    obtain ⟨v', hretry, hout', hshows'⟩ := hstep
    have hrest := ih hout' hshows' hprompt.2 (fun b hb => hsmall b (List.mem_cons_of_mem _ hb))
      fun b hb => hfails b (List.mem_cons_of_mem _ hb)
    obtain ⟨v'', hretries, hout'', hshows''⟩ := hrest
    exact ⟨v'', by rw [Visit.retries, hretry, Option.bind_some, hretries], hout'', hshows''⟩

/-! ## The whole way -/

/-- The link leads to the login page with the target of the request. -/
theorem openLogin_loginUrl {app : App} {run : List (Instant × SiteCookie)} {auth : Auth}
    (hout : SignedOut app run) (hlocal : IsLocalPath auth.next) (now : Instant)
    (token : PageToken) :
    ∃ v, openLogin app run now ⟨"/login".toList, some auth.loginUrl,
        some (assigned "next".toList (encodeQueryValue auth.next))⟩ token = some v ∧
      SignedOut app v.run ∧ Shows v now auth.next := by
  have hsent : SentBy run now ⟨.get, ⟨"/login".toList, some auth.loginUrl,
      some (assigned "next".toList (encodeQueryValue auth.next))⟩,
      cookieHeaders now "/login".toList (jarAfter run), ⟨[], false⟩⟩ :=
    ⟨⟨"login".toList, rfl⟩, get_cookieHeaders _ _ _⟩
  have hreturns := authMiddleware_returns app ⟨.get, ⟨"/login".toList, some auth.loginUrl,
      some (assigned "next".toList (encodeQueryValue auth.next))⟩,
      cookieHeaders now "/login".toList (jarAfter run), ⟨[], false⟩⟩
  obtain ⟨outcome, houtcome⟩ := hreturns
  unfold openLogin
  unfold authMiddleware at houtcome ⊢
  split at houtcome
  · cases houtcome
  · rename_i resolved hresolved
    have huser : resolved.user = none := by
      apply user_of_resolveAuth hresolved
      intro session hhas
      have hset := (hasSession_iff hsent session).mp hhas
      obtain ⟨id, hid, hsession⟩ := hset
      exact hout _ id session hid hsession
    have hsafe : isSafe .get = true := rfl
    simp only [hresolved, hsafe, if_true, loginPage, read_loginUrl, huser, Option.isSome_none,
      Bool.false_eq_true, if_false]
    refine ⟨_, rfl, signedOut_of_append hout, ?_⟩
    constructor
    · exact safeLocalPath_getD hlocal []
    · exact ⟨token, rfl, lastSet_append run now token.cookieText⟩

/-- Whatever a request was for, the link in its refusal leads a browser that is signed out
to the login page, every refused attempt keeps the target, and the attempt that is accepted
signs the visitor in and leads back to the page of the request.  The attempts follow one
another within the hour of the form's CSRF cookie, and their forms are no longer than the
middleware reads. -/
theorem login_returns {app : App} {req : Request} {auth : Auth}
    (hauth : resolveAuth app req = .returned auth) (page : Page)
    {run : List (Instant × SiteCookie)} (hout : SignedOut app run) (t : Instant)
    (token : PageToken) {attempts : List Attempt} {last : Attempt}
    (hprompt : Prompt t (attempts ++ [last]))
    (hsmall : ∀ a ∈ attempts ++ [last], a.Small auth.next)
    (hfails : ∀ a ∈ attempts, a.Fails) {session : Token}
    (hsession : last.login last.email last.password = .ok session) :
    ∃ uri v, (Browser.resolve page auth.loginUrl).map uriOf = some uri ∧
      (openLogin app run t uri token).bind (·.retries app attempts) = some v ∧
      v.answer app last =
        .redirect (loginNext req.method req.uri req.headers) (some session) ∧
      ∀ now < last.time + sessionLife,
        signedInAs (v.run ++ [(last.time, .session session)]) now = some session := by
  have hnext := (resolveAuth_cases hauth).1
  have hlocal : IsLocalPath auth.next := by
    rw [hnext]
    exact isLocalPath_loginNext req.method req.uri req.headers
  obtain ⟨first, hopen, hout', hshows⟩ := openLogin_loginUrl hout hlocal t token
  have hparts := prompt_append.mp hprompt
  have hretries := retries_of_fails hlocal hout' hshows hparts.1
    (fun a ha => hsmall a (List.mem_append_left _ ha)) hfails
  obtain ⟨v, hv, hout'', hshows'⟩ := hretries
  refine ⟨_, v, resolve_loginUrl page auth, by rw [hopen, Option.bind_some, hv], ?_, ?_⟩
  · rw [answer_eq hout'' hshows' hparts.2 (hsmall last (by simp)), hsession]
    dsimp only
    rw [loginDestination, safeLocalPath_getD hlocal, hnext]
  · intro now hnow
    have hlast : lastSet sessionCookie (v.run ++ [(last.time, .session session)]) =
        some (last.time, .session session) := by
      rw [lastSet, List.reverse_append, List.reverse_singleton, List.singleton_append,
        List.find?_cons_of_pos]
      exact decide_eq_true rfl
    simp only [signedInAs, hlast, hnow, if_true]

/-! ## Small forms -/

theorem length_encode_le (bytes : List UInt8) :
    (Percent.encode (Percent.form formKeep) bytes).length ≤ 3 * bytes.length := by
  induction bytes with
  | nil => simp
  | cons b bytes ih =>
    have hone : (Percent.form formKeep b).length ≤ 3 := by
      simp only [Percent.form, Percent.keeping, Percent.escape]
      split
      · simp
      · split <;> simp
    rw [Percent.encode_cons, List.length_append, List.length_cons]
    omega

theorem length_joined_le {α : Type} (mark : α) (parts : List (List α)) :
    ([mark].intercalate parts).length ≤ (parts.map fun part => part.length + 1).sum := by
  induction parts with
  | nil => simp
  | cons part parts ih =>
    cases parts with
    | nil => simp
    | cons next parts =>
      have hcons : [mark].intercalate (part :: next :: parts) =
          part ++ mark :: [mark].intercalate (next :: parts) := by
        simp [List.intercalate]
      rw [hcons, List.length_append, List.length_cons, List.map_cons, List.sum_cons]
      omega

theorem length_formBody_le (fields : List (List Char × List Char)) :
    (formBody fields).length ≤
      (fields.map fun p => 3 * (utf8 p.1).length + 3 * (utf8 p.2).length + 2).sum := by
  apply (length_joined_le _ _).trans
  rw [List.map_map, List.map_map]
  apply List.sum_le_sum
  intro p hp
  have hname := length_encode_le (utf8 p.1)
  have hvalue := length_encode_le (utf8 p.2)
  simp only [Function.comp_apply, Percent.writePair, List.length_append, List.length_cons]
  omega

/-- A form of texts that are not too long. -/
theorem Attempt.small_of_le {a : Attempt} {next : List Char}
    (h : (utf8 next).length + (utf8 a.email).length + (utf8 a.password).length ≤ 20000) :
    a.Small next := by
  intro token
  apply (length_formBody_le _).trans
  have htoken := token.length_utf8
  have hnames : (utf8 csrfQuery).length = 4 ∧ (utf8 "next".toList).length = 4 ∧
      (utf8 "email".toList).length = 5 ∧ (utf8 "password".toList).length = 8 := by decide +kernel
  have hlimit : csrfBodyLimit = 65536 := rfl
  unfold loginFields
  split
  · simp only [List.nil_append, List.map_cons, List.map_nil, List.sum_cons, List.sum_nil, htoken,
      hnames, hlimit]
    omega
  · simp only [List.cons_append, List.nil_append, List.map_cons, List.map_nil, List.sum_cons,
      List.sum_nil, htoken, hnames, hlimit]
    omega

/-! ## A visitor -/

/-- Some token. -/
def someToken : PageToken where
  chars := List.replicate 43 'A'
  base64url := by decide
  length_eq := by decide

/-- An attempt with a password that the account does not have, and one with the right
password. -/
def someAttempt (time : Instant) (password : List Char) : Attempt where
  time := time
  email := "rider@example.com".toList
  password := password
  headers := [("user-agent".toList, ⟨[], by simp⟩)]
  login _ given :=
    if given = "battery staple".toList then .ok zeroToken else .error .invalidCredentials
  fresh := someToken
  plain := by
    unfold IsOther
    decide

/-- The page that asked for the login. -/
def favoritesRequest : Request where
  method := .get
  uri := ⟨"/account/favorites".toList, some "/account/favorites?after=Olá&x=1".toList,
    some "after=Olá&x=1".toList⟩
  headers := []
  body := ⟨[], false⟩

theorem login_returns_favorites :
    ∃ uri v, (Browser.resolve samplePage
        (Auth.mk none none none "/account/favorites?after=Olá&x=1".toList false).loginUrl).map
          uriOf = some uri ∧
      (openLogin emptyApp [] 0 uri someToken).bind
        (·.retries emptyApp [someAttempt second "horse".toList]) = some v ∧
      v.answer emptyApp (someAttempt (2 * second) "battery staple".toList) =
        .redirect "/account/favorites?after=Olá&x=1".toList (some zeroToken) ∧
      ∀ now < 2 * second + sessionLife,
        signedInAs (v.run ++ [(2 * second, .session zeroToken)]) now = some zeroToken := by
  have hout : SignedOut emptyApp [] := by
    intro now id session hid
    cases hid
  have hauth : resolveAuth emptyApp favoritesRequest =
      .returned ⟨none, none, none, "/account/favorites?after=Olá&x=1".toList, false⟩ := by rfl
  apply login_returns hauth samplePage hout 0 someToken
  · exact ⟨by decide, by decide, trivial⟩
  · intro a ha
    simp only [List.singleton_append, List.mem_cons, List.not_mem_nil, or_false] at ha
    rcases ha with rfl | rfl
    · exact Attempt.small_of_le (by decide +kernel)
    · exact Attempt.small_of_le (by decide +kernel)
  · intro a ha
    rw [List.mem_singleton.mp ha]
    exact ⟨.invalidCredentials, rfl⟩
  · rfl

end BikesNest.Web
