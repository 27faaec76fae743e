import BikesNest.Web.Cookies
import BikesNest.Web.Query

/-!
# Forms of the site

A page carries a CSRF token, and the site's requests carry it back in one of
three ways: htmx writes it into a header, the forms with files have it in the
query of their action, and every other form has it in a field (`Submits`).

`authMiddleware_form_iff` is the other half of the middleware's check: a request
that a page of the site sends reaches its handler exactly if the page's token is
that of the session or, for a visitor who is not signed in, the one whose cookie
was set last.
-/

namespace BikesNest.Web

open BikesNest.Auth Domain

-- Facts about the characters of a text are decided along the text, not over all characters.
attribute [local instance (high)] List.decidableBAll

/-! ## What a browser submits -/

/-- The bytes that a browser keeps in a form. -/
def formKeep (b : UInt8) : Bool :=
  (65 ≤ b && b ≤ 90) || (97 ≤ b && b ≤ 122) || (48 ≤ b && b ≤ 57) ||
    b = 42 || b = 45 || b = 46 || b = 95

/-- The body of a form with these fields. -/
def formBody (fields : List (List Char × List Char)) : List UInt8 :=
  Percent.join (Percent.form formKeep) (fields.map fun p => (utf8 p.1, utf8 p.2))

theorem separable_formKeep : Percent.Separable (Percent.form formKeep) :=
  Percent.separable_form (by decide)

/-- The name of the header that says what the body is. -/
def contentType : List Char := "content-type".toList

/-- The header of a form. -/
def formHeader : HeaderValue := ⟨asciiBytes formContentType, by decide +kernel⟩

theorem toStr_formHeader : formHeader.toStr = some formContentType := by
  decide +kernel

/-- What a browser sends with a form, in front of it what does not matter here. -/
def formHeaders (others : HeaderMap) (cookies : HeaderMap) : HeaderMap :=
  others ++ (contentType, formHeader) :: cookies

/-- Headers that say nothing about the body, the cookies or the token. -/
def IsOther (others : HeaderMap) : Prop :=
  ∀ line ∈ others, line.1 ≠ contentType ∧ line.1 ≠ "cookie".toList ∧ line.1 ≠ csrfHeader

section FormHeaders

variable {others cookies : HeaderMap} (h : IsOther others)
include h

theorem headerText_contentType :
    headerText (formHeaders others cookies) contentType = some formContentType := by
  rw [headerText, formHeaders, HeaderMap.get_append fun line hline => (h line hline).1,
    HeaderMap.get_cons, if_pos rfl]
  exact toStr_formHeader

theorem get_cookie_formHeaders :
    (formHeaders others cookies).get "cookie".toList = cookies.get "cookie".toList := by
  have hne : ¬ contentType = "cookie".toList := by decide
  rw [formHeaders, HeaderMap.get_append fun line hline => (h line hline).2.1,
    HeaderMap.get_cons, if_neg hne]

theorem csrfFromHeaders_formHeaders (hcookies : cookies.get csrfHeader = none) :
    csrfFromHeaders (formHeaders others cookies) = none := by
  have hne : ¬ contentType = csrfHeader := by decide
  rw [csrfFromHeaders, headerText, formHeaders,
    HeaderMap.get_append fun line hline => (h line hline).2.2, HeaderMap.get_cons, if_neg hne,
    hcookies]
  rfl

end FormHeaders

/-- The server reads the fields of a form as they were filled in. -/
@[simp] theorem formPairs_formBody (fields : List (List Char × List Char)) :
    formPairs (formBody fields) = fields :=
  formPairs_join separable_formKeep fields

/-- Letters, digits, minus and underscore: URL-safe base64. -/
def isBase64urlByte (b : UInt8) : Bool :=
  (65 ≤ b && b ≤ 90) || (97 ≤ b && b ≤ 122) || (48 ≤ b && b ≤ 57) || b = 45 || b = 95

/-- A token as it stands on a page. -/
def IsPageToken (token : List Char) : Prop := ∀ b ∈ utf8 token, isBase64urlByte b = true

/-- The character of such a byte. -/
def isBase64urlChar (c : Char) : Bool := c.toNat < 128 && isBase64urlByte (.ofNat c.toNat)

/-- A token that the server has made: 32 bytes in URL-safe base64. -/
structure PageToken where
  chars : List Char
  base64url : ∀ c ∈ chars, isBase64urlChar c = true
  length_eq : chars.length = 43

theorem range_of_isBase64urlChar {c : Char} (h : isBase64urlChar c = true) :
    45 ≤ c.toNat ∧ c.toNat ≤ 122 ∧ c ≠ ';' := by
  simp only [isBase64urlChar, isBase64urlByte, Bool.and_eq_true, decide_eq_true_eq, Bool.or_eq_true,
    UInt8.le_iff_toNat_le, ← UInt8.toNat_inj] at h
  have hbyte : (UInt8.ofNat c.toNat).toNat = c.toNat := by
    simp
    omega
  rw [hbyte] at h
  simp at h
  refine ⟨by omega, by omega, ?_⟩
  intro hsemicolon
  have hnumber : c.toNat = 59 := by rw [hsemicolon]; rfl
  omega

theorem utf8EncodeChar_of_isBase64urlChar {c : Char} (h : isBase64urlChar c = true) :
    String.utf8EncodeChar c = [.ofNat c.toNat] := by
  have hrange := range_of_isBase64urlChar h
  have hsize : c.utf8Size = 1 := Char.utf8Size_eq_one_iff.mpr (by
    show c.val.toNat ≤ 127
    have hval : c.val.toNat = c.toNat := rfl
    omega)
  rw [String.utf8EncodeChar_eq_singleton hsize]
  rfl

theorem PageToken.isPageToken (token : PageToken) : IsPageToken token.chars := by
  intro b hb
  have hb := List.mem_flatMap.mp hb
  obtain ⟨c, hc, hb⟩ := hb
  have hchar := token.base64url c hc
  rw [utf8EncodeChar_of_isBase64urlChar hchar, List.mem_singleton] at hb
  simp only [isBase64urlChar, Bool.and_eq_true] at hchar
  rw [hb]
  exact hchar.2

theorem PageToken.length_utf8 (token : PageToken) : (utf8 token.chars).length = 43 := by
  have hsame : ∀ s : List Char, (∀ c ∈ s, isBase64urlChar c = true) →
      (utf8 s).length = s.length := by
    intro s hs
    induction s with
    | nil => rfl
    | cons c s ih =>
      have hone := utf8EncodeChar_of_isBase64urlChar (hs c List.mem_cons_self)
      have hrest := ih fun d hd => hs d (List.mem_cons_of_mem _ hd)
      simp only [utf8, List.flatMap_cons, hone] at hrest ⊢
      simp [hrest]
  rw [hsame token.chars token.base64url, token.length_eq]

theorem PageToken.isCookieChar_chars (token : PageToken) :
    ∀ c ∈ token.chars, isCookieChar c = true := by
  intro c hc
  have hrange := range_of_isBase64urlChar (token.base64url c hc)
  simp only [isCookieChar, Bool.and_eq_true, decide_eq_true_eq]
  exact ⟨⟨by omega, by omega⟩, by simp [hrange.2.2]⟩

/-- Such a token may stand in a cookie. -/
def PageToken.cookieText (token : PageToken) : CookieText where
  chars := token.chars
  plain := token.isCookieChar_chars

theorem formKeep_of_isBase64urlByte {b : UInt8} (h : isBase64urlByte b = true) :
    formKeep b = true := by
  simp only [isBase64urlByte, formKeep, Bool.or_eq_true] at h ⊢
  tauto

theorem encode_pageToken {token : List Char} (h : IsPageToken token) :
    Percent.encode (Percent.form formKeep) (utf8 token) = utf8 token :=
  Percent.encode_form_of_kept (by decide) fun b hb => formKeep_of_isBase64urlByte (h b hb)

theorem urlDecodeBytes_of_plain {bytes : List UInt8} (h : ∀ b ∈ bytes, b ≠ 37) :
    urlDecodeBytes bytes = bytes := by
  induction bytes with
  | nil => rfl
  | cons b bytes ih =>
    have hb := h b List.mem_cons_self
    have hrest := ih fun b hb => h b (List.mem_cons_of_mem _ hb)
    rw [urlDecodeBytes, hrest]
    intro high low more hcons
    exact absurd hcons hb

/-- A token of a page is read as it stands. -/
theorem urlDecode_pageToken {token : List Char} (h : IsPageToken token) :
    urlDecode (utf8 token) = token := by
  have hplain : ∀ b ∈ utf8 token, b ≠ 37 := by
    intro b hb h37
    have hbyte := h b hb
    rw [h37] at hbyte
    exact absurd hbyte (by decide)
  rw [urlDecode, urlDecodeBytes_of_plain hplain, fromUtf8Lossy_utf8]

/-! ## The token of a request -/

theorem splitAtFirst_writePair {table : UInt8 → List UInt8} (h : Percent.Separable table)
    (p : List UInt8 × List UInt8) :
    splitAtFirst 61 (Percent.writePair table p) =
      some (Percent.encode table p.1, Percent.encode table p.2) := by
  simp only [splitAtFirst, h.dropWhile_writePair, h.takeWhile_writePair]

/-- The first field of a name, as it is written. -/
theorem firstValue_formBody {key : List Char} (hkey : IsPageToken key)
    (fields : List (List Char × List Char)) :
    firstValue 38 61 (utf8 key) (formBody fields) =
      (fields.find? fun p => p.1 = key).map fun p =>
        Percent.encode (Percent.form formKeep) (utf8 p.2) := by
  have hsame : ∀ name : List Char,
      Percent.encode (Percent.form formKeep) (utf8 name) = utf8 key ↔ name = key := by
    intro name
    rw [← encode_pageToken hkey, separable_formKeep.encode_injective.eq_iff,
      utf8_injective.eq_iff]
  cases fields with
  | nil => rfl
  | cons p fields =>
    have hne : (p :: fields).map (fun p => (utf8 p.1, utf8 p.2)) ≠ [] := by simp
    rw [firstValue, formBody, separable_formKeep.splitOn_join hne]
    generalize p :: fields = l
    induction l with
    | nil => rfl
    | cons q l ih =>
      simp only [List.map_cons, List.findSome?_cons, splitAtFirst_writePair separable_formKeep,
        Option.bind_some, hsame, ih, List.find?_cons]
      by_cases hq : q.1 = key
      · simp [hq]
      · simp [hq]

theorem csrfFromFormBody_formBody {fields : List (List Char × List Char)} {type : List Char}
    (htype : formContentType <+: type) {token : List Char} (htoken : IsPageToken token)
    (h : (fields.find? fun p => p.1 = csrfQuery).map Prod.snd = some token) :
    csrfFromFormBody (formBody fields) (some type) = some token := by
  have hkey : IsPageToken csrfQuery := by
    unfold IsPageToken
    decide
  have hprefix : formContentType.isPrefixOf ((some type).getD []) = true :=
    List.isPrefixOf_iff_prefix.mpr htype
  have hfound := Option.map_eq_some_iff.mp h
  obtain ⟨p, hp, rfl⟩ := hfound
  rw [csrfFromFormBody, if_pos hprefix, firstValue_formBody hkey, hp, Option.map_some,
    Option.map_some, encode_pageToken htoken, urlDecode_pageToken htoken]

theorem notMem_ampersand {token : List Char} (htoken : IsPageToken token) : '&' ∉ token := by
  intro h
  have hbyte := htoken 38 (List.mem_flatMap.mpr ⟨'&', h, by decide⟩)
  exact absurd hbyte (by decide)

/-- A token in the query of a form's action. -/
theorem csrfFromQuery_action {token : List Char} (htoken : IsPageToken token) :
    csrfFromQuery (some (assigned csrfQuery token)) = some token := by
  have hpart : '&' ∉ assigned csrfQuery token := by
    intro h
    rcases List.mem_append.mp h with h | h
    · exact absurd h (by decide)
    · cases h with
      | tail _ h => exact notMem_ampersand htoken h
  have hsplit : splitAtFirst '=' (assigned csrfQuery token) = some (csrfQuery, token) :=
    splitAtFirst_append (by decide)
  have hvalue : firstValue '&' '=' csrfQuery (assigned csrfQuery token) = some token := by
    rw [firstValue, List.splitOn_eq_singleton hpart, List.findSome?_cons, hsplit, Option.bind_some,
      if_pos rfl]
  rw [csrfFromQuery, Option.getD_some, hvalue, Option.map_some, urlDecode_pageToken htoken]

/-- The ways in which a request of a page carries the page's token. -/
inductive Submits (req : Request) (token : List Char) : Prop where
  | header (h : csrfFromHeaders req.headers = some token)
  | query (hheader : csrfFromHeaders req.headers = none)
      (h : req.uri.query = some (assigned csrfQuery token))
  | field {fields : List (List Char × List Char)} {type : List Char}
      (hheader : csrfFromHeaders req.headers = none)
      (hquery : csrfFromQuery req.uri.query = none)
      (htype : headerText req.headers contentType = some type)
      (hform : formContentType <+: type) (hbody : req.body = .ofBytes (formBody fields))
      (hsize : (formBody fields).length ≤ csrfBodyLimit)
      (h : (fields.find? fun p => p.1 = csrfQuery).map Prod.snd = some token)

/-! ## What the middleware makes of it -/

theorem toBytes_ofBytes {bytes : List UInt8} (h : bytes.length ≤ csrfBodyLimit) :
    toBytes (.ofBytes bytes) csrfBodyLimit = some bytes := by
  have hroom : ¬ csrfBodyLimit < bytes.length := by omega
  simp [toBytes, Body.ofBytes, collectChunks, hroom]

/-- The middleware checks the token that the page's request carries. -/
theorem authMiddleware_of_submits {app : App} {req : Request} {token : List Char} {auth : Auth}
    (hwrites : isSafe req.method = false) (htoken : IsPageToken token) (h : Submits req token)
    (hauth : resolveAuth app req = .returned auth) :
    authMiddleware app req = .returned (admitted app auth req (some token)) := by
  unfold authMiddleware
  rw [hauth]
  simp only [hwrites, Bool.false_eq_true, if_false]
  cases h with
  | header h => simp only [h, Option.some_or]
  | query hheader h =>
    simp only [hheader, h, csrfFromQuery_action htoken, Option.none_or]
  | @field fields type hheader hquery htype hform hbody hsize h =>
    have hbytes : toBytes req.body csrfBodyLimit = some (formBody fields) := by
      rw [hbody]
      exact toBytes_ofBytes hsize
    have hsame : { req with body := .ofBytes (formBody fields) } = req := by
      rw [← hbody]
    have htype : headerText req.headers "content-type".toList = some type := htype
    simp only [hheader, hquery, Option.none_or, hbytes, htype, hsame,
      csrfFromFormBody_formBody hform htoken h]

/-- The check of the token is whether it is one for the request. -/
theorem tokenOk_iff {app : App} {req : Request} {auth : Auth} {token : List Char}
    (hauth : resolveAuth app req = .returned auth) :
    tokenOk app auth req.headers (some token) = true ↔ IsTokenFor app req token := by
  constructor
  · intro h
    have hfound := isTokenFor_of_tokenOk hauth h
    obtain ⟨found, hsome, hfor⟩ := hfound
    cases hsome
    exact hfor
  · intro h
    rcases resolveAuth_csrf hauth with ⟨session, hsession, hcsrf⟩ | ⟨hnone, hcsrf⟩
    · rcases h with ⟨session', hsession', hbytes⟩ | ⟨hnone, -⟩
      · rw [hsession'.unique hsession] at hbytes
        simp only [tokenOk, hcsrf]
        exact verify_iff.mpr hbytes
      · exact absurd hsession (hnone session)
    · rcases h with ⟨session, hsession, -⟩ | ⟨-, hcookie⟩
      · exact absurd hsession (hnone session)
      · simp only [tokenOk, hcsrf, hcookie]
        exact constantTimeEq_iff.mpr rfl

/-- A request that a page sends reaches its handler, as it came, exactly if the token
of the page is one for the request. -/
theorem authMiddleware_submits_iff {app : App} {req : Request} {token : List Char}
    (hwrites : isSafe req.method = false) (htoken : IsPageToken token) (h : Submits req token) :
    (∃ auth, authMiddleware app req = .returned (.handled auth req)) ↔
      IsTokenFor app req token := by
  have hreturns := authMiddleware_returns app req
  obtain ⟨outcome, houtcome⟩ := hreturns
  cases hauth : resolveAuth app req with
  | panicked =>
    rw [authMiddleware, hauth] at houtcome
    cases houtcome
  | returned auth =>
    rw [authMiddleware_of_submits hwrites htoken h hauth, ← tokenOk_iff hauth, admitted]
    cases hok : tokenOk app auth req.headers (some token) with
    | true => simp
    | false => simp

/-! ## Over the visits of a browser -/

/-- A request that a browser makes after a run of responses. -/
structure SentBy (run : List (Instant × SiteCookie)) (now : Instant) (req : Request) : Prop where
  path : ∃ rest, req.uri.path = '/' :: rest
  cookies : req.headers.get "cookie".toList = cookieHeader now req.uri.path (jarAfter run)

theorem hasSession_iff {app : App} {run : List (Instant × SiteCookie)} {now : Instant}
    {req : Request} (h : SentBy run now req) (session : ResolvedSession) :
    HasSession app req session ↔
      ∃ id, signedInAs run now = some id ∧ app.resolveSession id = .ok (some session) := by
  obtain ⟨rest, hpath⟩ := h.path
  have hcookies := h.cookies
  rw [hpath] at hcookies
  have hpresented := presentedSession_register run now rest req.headers hcookies
  unfold presentedSession at hpresented
  constructor
  · intro hhas
    obtain ⟨raw, id, hraw, hid, hsession⟩ := hhas
    have hraw : sessionIdFromHeaders req.headers = some raw := hraw
    rw [hraw] at hpresented
    have hsame : some id = signedInAs run now :=
      Jobs.Call.returned.inj (hid.symm.trans hpresented)
    exact ⟨id, hsame.symm, hsession⟩
  · intro hset
    obtain ⟨id, hid, hsession⟩ := hset
    rw [hid] at hpresented
    cases hraw : sessionIdFromHeaders req.headers with
    | none =>
      rw [hraw] at hpresented
      cases hpresented
    | some raw =>
      rw [hraw] at hpresented
      exact ⟨raw, id, hraw, hpresented, hsession⟩

theorem anonCsrf_of_name {sc : SiteCookie} (h : sc.name = anonCsrfCookie) :
    ∃ token, sc = .anonCsrf token := by
  cases sc with
  | session id => exact absurd h (by decide : sessionCookie ≠ anonCsrfCookie)
  | signedOut => exact absurd h (by decide : sessionCookie ≠ anonCsrfCookie)
  | anonCsrf token => exact ⟨token, rfl⟩
  | exported id token => exact absurd h (exportCookieName_ne id).2.1
  | lang locale => exact absurd h (by decide : langCookie ≠ anonCsrfCookie)

/-- The cookie of anonymous forms is that of the page that came last, for an hour. -/
theorem csrfCookieValue_iff {run : List (Instant × SiteCookie)} {now : Instant} {req : Request}
    (h : SentBy run now req) (token : List Char) :
    csrfCookieValue req.headers = some token ↔
      ∃ t text, lastSet anonCsrfCookie run = some (t, .anonCsrf text) ∧ text.chars = token ∧
        now < t + hour := by
  obtain ⟨rest, hpath⟩ := h.path
  have hcookies := h.cookies
  rw [hpath] at hcookies
  have hvalue := cookieValue_register run now ('/' :: rest) req.headers hcookies anonCsrfCookie
  rw [csrfCookieValue, hvalue]
  have hpresents : ∀ t text, Presents now ('/' :: rest) (t, .anonCsrf text) = true ↔
      now < t + hour := by
    intro t text
    have hroot : pathOf (SiteCookie.anonCsrf text).name = "/".toList := rfl
    have hage : ((SiteCookie.anonCsrf text).maxAge : Int) * second = hour := rfl
    simp only [Presents, hroot, hage, pathMatches_root, Bool.and_true, decide_eq_true_eq]
  cases hlast : lastSet anonCsrfCookie run with
  | none => simp
  | some response =>
    have hname := anonCsrf_of_name (lastSet_eq_some hlast).2
    obtain ⟨text, hsc⟩ := hname
    have hresponse : response = (response.1, .anonCsrf text) := Prod.ext rfl hsc
    rw [hresponse, Option.filter]
    constructor
    · intro hfound
      split at hfound
      · rename_i hpresent
        refine ⟨response.1, text, rfl, by simpa [SiteCookie.value] using hfound, ?_⟩
        exact (hpresents _ _).mp hpresent
      · simp at hfound
    · intro hset
      obtain ⟨t, text', hset, rfl, hpresent⟩ := hset
      cases hset
      rw [if_pos ((hpresents _ _).mpr hpresent)]
      rfl

/-- The token of a page fits the browser: it is that of the session that the browser
is signed in with, or else that of the anonymous page that came last. -/
def Fits (app : App) (run : List (Instant × SiteCookie)) (now : Instant) (token : List Char) :
    Prop :=
  (∃ id session, signedInAs run now = some id ∧ app.resolveSession id = .ok (some session) ∧
    app.fromBase64url (String.ofList token) = some session.csrfToken.bytes) ∨
  ((∀ id session, signedInAs run now = some id → app.resolveSession id ≠ .ok (some session)) ∧
    ∃ t text, lastSet anonCsrfCookie run = some (t, .anonCsrf text) ∧ text.chars = token ∧
      now < t + hour)

/-- After any visits a request of a page reaches its handler exactly if the token of
the page fits the browser. -/
theorem authMiddleware_form_iff {app : App} {run : List (Instant × SiteCookie)} {now : Instant}
    {req : Request} {token : List Char} (hsent : SentBy run now req)
    (hwrites : isSafe req.method = false) (htoken : IsPageToken token) (h : Submits req token) :
    (∃ auth, authMiddleware app req = .returned (.handled auth req)) ↔
      Fits app run now token := by
  rw [authMiddleware_submits_iff hwrites htoken h, IsTokenFor, Fits, csrfCookieValue_iff hsent]
  simp only [hasSession_iff hsent]
  constructor
  · intro hfor
    rcases hfor with ⟨session, ⟨id, hid, hsession⟩, hbytes⟩ | ⟨hnone, hcookie⟩
    · exact .inl ⟨id, session, hid, hsession, hbytes⟩
    · exact .inr ⟨fun id session hid hsession => hnone session ⟨id, hid, hsession⟩, hcookie⟩
  · intro hfits
    rcases hfits with ⟨id, session, hid, hsession, hbytes⟩ | ⟨hnone, hcookie⟩
    · exact .inl ⟨session, ⟨id, hid, hsession⟩, hbytes⟩
    · refine .inr ⟨?_, hcookie⟩
      intro session hhas
      obtain ⟨id, hid, hsession⟩ := hhas
      exact hnone id session hid hsession

theorem isCookieChar_earlier : ∀ c ∈ "Ab-_9".toList, isCookieChar c = true := by
  decide

theorem isCookieChar_later : ∀ c ∈ "Zz".toList, isCookieChar c = true := by
  decide

/-- A visitor who has opened the login page twice. -/
def twoLoginPages : List (Instant × SiteCookie) :=
  [(0, .anonCsrf ⟨"Ab-_9".toList, isCookieChar_earlier⟩),
    (second, .anonCsrf ⟨"Zz".toList, isCookieChar_later⟩)]

/-- The form of one of the two pages. -/
def loginSubmission (token : List Char) : Request where
  method := .post
  uri := ⟨"/login".toList, some "/login".toList, none⟩
  headers := formHeaders []
    (cookieHeaders (2 * second) "/login".toList (jarAfter twoLoginPages))
  body := .ofBytes (formBody [("email".toList, "a+b@c.example".toList), (csrfQuery, token)])

theorem authMiddleware_form_iff_second :
    (∃ auth, authMiddleware emptyApp (loginSubmission "Zz".toList) =
      .returned (.handled auth (loginSubmission "Zz".toList))) ↔
    Fits emptyApp twoLoginPages (2 * second) "Zz".toList := by
  have hother : IsOther [] := by
    intro line hline
    cases hline
  have hcookies := get_cookieHeaders_of_ne (2 * second) "/login".toList (jarAfter twoLoginPages)
    (by decide : csrfHeader ≠ "cookie".toList)
  apply authMiddleware_form_iff
  · constructor
    · exact ⟨"login".toList, rfl⟩
    · exact (get_cookie_formHeaders hother).trans (get_cookieHeaders _ _ _)
  · rfl
  · unfold IsPageToken
    decide
  · apply Submits.field (csrfFromHeaders_formHeaders hother hcookies) (by decide +kernel)
      (headerText_contentType hother) (List.prefix_refl _) rfl
    · decide +kernel
    · decide +kernel

end BikesNest.Web
