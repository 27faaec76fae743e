import BikesNest.Lib.Cookies
import BikesNest.Web.Csrf

/-!
# The cookies of the site

The five `Set-Cookie` headers that the source writes: a session and its end, the
token of an anonymous form, the token of an export and the language.  `receive`
is what a browser does with one, `cookieHeader` what it sends, and `cookieValue`
what the server reads out of that.

`cookieValue_register` says that the three together are a set of registers: a
request presents under a name what the site set last under it, as long as it
lives and wherever its path matches.  What a visitor is signed in as, the token
of an export and the language of a page are read off it.
-/

namespace BikesNest.Web

open BikesNest.Auth Domain
open Browser (Cookie)

-- Facts about the characters of a text are decided along the text, not over all characters.
attribute [local instance (high)] List.decidableBAll

/-! ## Texts of cookies -/

/-- Visible ASCII without a semicolon. -/
def isCookieChar (c : Char) : Bool := 0x21 ≤ c.toNat && c.toNat ≤ 0x7E && c ≠ ';'

/-- A text that stands in a cookie as it is. -/
structure CookieText where
  chars : List Char
  plain : ∀ c ∈ chars, isCookieChar c = true

theorem range_of_isCookieChar {c : Char} (h : isCookieChar c = true) :
    0x21 ≤ c.toNat ∧ c.toNat ≤ 0x7E ∧ c ≠ ';' := by
  simpa [isCookieChar, and_assoc] using h

theorem isBlank_of_isCookieChar {c : Char} (h : isCookieChar c = true) :
    Browser.isBlank c = false := by
  have hrange := range_of_isCookieChar h
  have hspace : c ≠ ' ' := by
    intro hc
    simp [hc] at hrange
  have htab : c ≠ '\t' := by
    intro hc
    simp [hc] at hrange
  simp [Browser.isBlank, hspace, htab]

theorem isWhitespace_of_isCookieChar {c : Char} (h : isCookieChar c = true) :
    Text.isWhitespace c = false := by
  have hrange := range_of_isCookieChar h
  simp only [Text.isWhitespace, Bool.or_eq_false_iff, Bool.and_eq_false_iff,
    decide_eq_false_iff_not, beq_eq_false_iff_ne]
  omega

/-! ## The headers of the source -/

/-- The presentation locale. -/
inductive Locale where
  | en
  | ptBr
deriving DecidableEq

/-- `Locale::code`. -/
def Locale.code : Locale → List Char
  | .en => "en".toList
  | .ptBr => "pt-br".toList

/-- `export_cookie_name`. -/
def exportCookieName (id : Nat) : List Char := "export_".toList ++ Nat.toDigits 10 id

/-- `EXPORT_TOKEN_MAX_AGE_SECONDS`. -/
def exportTokenMaxAgeSeconds : Nat := 24 * 60 * 60

/-- `set_session_cookie`. -/
def setSessionCookie (id : Token) : List Char :=
  sessionCookie ++ "=".toList ++ SessionId.bytesToHex id.bytes ++
    "; HttpOnly; Secure; SameSite=Lax; Path=/; Max-Age=2592000".toList

/-- `clear_session_cookie`. -/
def clearSessionCookie : List Char :=
  sessionCookie ++ "=; HttpOnly; Secure; SameSite=Lax; Path=/; Max-Age=0".toList

/-- `set_anon_csrf_cookie`. -/
def setAnonCsrfCookie (token : List Char) : List Char :=
  anonCsrfCookie ++ "=".toList ++ token ++
    "; Path=/; HttpOnly; Secure; SameSite=Lax; Max-Age=3600".toList

/-- `set_export_cookie`. -/
def setExportCookie (id : Nat) (token : List Char) : List Char :=
  exportCookieName id ++ "=".toList ++ token ++
    "; HttpOnly; Secure; SameSite=Lax; Path=/account/export/".toList ++ Nat.toDigits 10 id ++
    "; Max-Age=".toList ++ Nat.toDigits 10 exportTokenMaxAgeSeconds

/-- The name of the cookie of the language. -/
def langCookie : List Char := "lang".toList

/-- The cookie of `set_lang`. -/
def setLangCookie (locale : Locale) : List Char :=
  langCookie ++ "=".toList ++ locale.code ++ "; Path=/; Max-Age=31536000; SameSite=Lax".toList

/-- The cookies that the site sets. -/
inductive SiteCookie where
  | session (id : Token)
  | signedOut
  | anonCsrf (token : CookieText)
  | exported (id : Nat) (token : CookieText)
  | lang (locale : Locale)

/-- Its header. -/
def SiteCookie.header : SiteCookie → List Char
  | .session id => setSessionCookie id
  | .signedOut => clearSessionCookie
  | .anonCsrf token => setAnonCsrfCookie token.chars
  | .exported id token => setExportCookie id token.chars
  | .lang locale => setLangCookie locale

/-! ## The browser -/

/-- A header that comes at a time.  Every one of the source says its path. -/
def receive (jar : List Cookie) (response : Instant × SiteCookie) : List Cookie :=
  match Browser.readCookie second response.1 "/".toList response.2.header with
  | some c => Browser.put c jar
  | none => jar

/-- The jar after some responses, from an empty one. -/
def jarAfter (run : List (Instant × SiteCookie)) : List Cookie := run.foldl receive []

/-- A header value of a text, where it is one. -/
def headerValue (s : List Char) : Option HeaderValue :=
  if h : ∀ b ∈ utf8 s, isHeaderByte b = true then some ⟨utf8 s, h⟩ else none

/-- The `Cookie` header of a request for a path. -/
def cookieHeader (now : Instant) (path : List Char) (jar : List Cookie) : Option HeaderValue :=
  match Browser.sent now path jar with
  | [] => none
  | cookies => headerValue (Browser.cookieLine cookies)

theorem HeaderMap.get_cons (line : List Char × HeaderValue) (headers : HeaderMap)
    (name : List Char) :
    HeaderMap.get (line :: headers) name =
      if line.1 = name then some line.2 else headers.get name := by
  by_cases h : line.1 = name
  · simp only [HeaderMap.get, List.find?_cons, h, decide_true, Option.map_some, if_true]
  · simp only [HeaderMap.get, List.find?_cons, h, decide_false, if_false]

theorem HeaderMap.get_append {first : HeaderMap} {name : List Char}
    (h : ∀ line ∈ first, line.1 ≠ name) (rest : HeaderMap) :
    HeaderMap.get (first ++ rest) name = rest.get name := by
  induction first with
  | nil => rfl
  | cons line first ih =>
    have hrest := ih fun line hline => h line (List.mem_cons_of_mem _ hline)
    rw [List.cons_append, HeaderMap.get_cons, if_neg (h line List.mem_cons_self), hrest]

/-- A request with nothing but its cookies. -/
def cookieHeaders (now : Instant) (path : List Char) (jar : List Cookie) : HeaderMap :=
  (cookieHeader now path jar).toList.map fun value => ("cookie".toList, value)

theorem get_cookieHeaders (now : Instant) (path : List Char) (jar : List Cookie) :
    (cookieHeaders now path jar).get "cookie".toList = cookieHeader now path jar := by
  unfold cookieHeaders
  cases cookieHeader now path jar with
  | none => rfl
  | some value =>
    show HeaderMap.get [("cookie".toList, value)] "cookie".toList = _
    rw [HeaderMap.get_cons, if_pos rfl]

theorem get_cookieHeaders_of_ne (now : Instant) (path : List Char) (jar : List Cookie)
    {name : List Char} (h : name ≠ "cookie".toList) :
    (cookieHeaders now path jar).get name = none := by
  unfold cookieHeaders
  cases cookieHeader now path jar with
  | none => rfl
  | some value =>
    show HeaderMap.get [("cookie".toList, value)] name = _
    rw [HeaderMap.get_cons, if_neg h.symm]
    rfl

/-! ## What the browser reads -/

/-- The value of a cookie. -/
def SiteCookie.value : SiteCookie → List Char
  | .session id => SessionId.bytesToHex id.bytes
  | .signedOut => []
  | .anonCsrf token => token.chars
  | .exported _ token => token.chars
  | .lang locale => locale.code

/-- Its name. -/
def SiteCookie.name : SiteCookie → List Char
  | .session _ | .signedOut => sessionCookie
  | .anonCsrf _ => anonCsrfCookie
  | .exported id _ => exportCookieName id
  | .lang _ => langCookie

/-- How long it lives, in seconds. -/
def SiteCookie.maxAge : SiteCookie → Nat
  | .session _ => 2592000
  | .signedOut => 0
  | .anonCsrf _ => 3600
  | .exported _ _ => exportTokenMaxAgeSeconds
  | .lang _ => 31536000

/-- The path of an export and everything below it, and all paths for the others. -/
def pathOf (name : List Char) : List Char :=
  if "export_".toList.isPrefixOf name then "/account/export/".toList ++ name.drop 7 else "/".toList

/-- The cookie that a header of the site makes. -/
def SiteCookie.cookie (response : Instant × SiteCookie) : Cookie where
  name := response.2.name
  value := response.2.value
  path := pathOf response.2.name
  expires := some (response.1 + response.2.maxAge * second)

theorem isCookieChar_of_isDigit {c : Char} (h : c.isDigit = true) :
    isCookieChar c = true ∧ c ≠ '=' := by
  have hrange : 48 ≤ c.toNat ∧ c.toNat ≤ 57 := by
    simp only [Char.isDigit, Bool.and_eq_true, decide_eq_true_eq, ge_iff_le,
      UInt32.le_iff_toNat_le] at h
    exact h
  have hne : ∀ d : Char, d.toNat < 48 ∨ 57 < d.toNat → c ≠ d := by
    intro d hd hc
    rw [hc] at hrange
    omega
  have hsemicolon := hne ';' (by decide)
  have hequals := hne '=' (by decide)
  simp only [isCookieChar, hsemicolon, ne_eq, not_false_iff, decide_true, Bool.and_true,
    Bool.and_eq_true, decide_eq_true_eq]
  exact ⟨by omega, hequals⟩

theorem isCookieChar_toDigits (n : Nat) : ∀ c ∈ Nat.toDigits 10 n,
    isCookieChar c = true ∧ c ≠ '=' := by
  intro c hc
  exact isCookieChar_of_isDigit (Nat.isDigit_of_mem_toDigits (by decide) (by decide) hc)

theorem isCookieChar_hexDigit : ∀ n < 16, isCookieChar (SessionId.hexDigit n) = true := by
  decide +kernel

theorem isCookieChar_bytesToHex (bytes : List UInt8) :
    ∀ c ∈ SessionId.bytesToHex bytes, isCookieChar c = true := by
  intro c hc
  have hc := List.mem_flatMap.mp hc
  obtain ⟨b, -, hc⟩ := hc
  have hb := b.toNat_lt
  simp only [List.mem_cons, List.not_mem_nil, or_false] at hc
  rcases hc with hc | hc
  · rw [hc]
    exact isCookieChar_hexDigit _ (by omega)
  · rw [hc]
    exact isCookieChar_hexDigit _ (by omega)

/-- Names are visible ASCII without separators. -/
theorem SiteCookie.plain_name (sc : SiteCookie) :
    ∀ c ∈ sc.name, isCookieChar c = true ∧ c ≠ '=' := by
  have hfixed : ∀ name ∈ [sessionCookie, anonCsrfCookie, langCookie, "export_".toList],
      ∀ c ∈ name, isCookieChar c = true ∧ c ≠ '=' := by decide +kernel
  cases sc with
  | session id => exact hfixed sessionCookie (by simp)
  | signedOut => exact hfixed sessionCookie (by simp)
  | anonCsrf token => exact hfixed anonCsrfCookie (by simp)
  | lang locale => exact hfixed langCookie (by simp)
  | exported id token =>
    intro c hc
    have hc : c ∈ "export_".toList ∨ c ∈ Nat.toDigits 10 id := List.mem_append.mp hc
    rcases hc with hc | hc
    · exact hfixed "export_".toList (by simp) c hc
    · exact isCookieChar_toDigits id c hc

theorem SiteCookie.name_ne_nil (sc : SiteCookie) : sc.name ≠ [] := by
  cases sc with
  | session id => exact (by decide : sessionCookie ≠ [])
  | signedOut => exact (by decide : sessionCookie ≠ [])
  | anonCsrf token => exact (by decide : anonCsrfCookie ≠ [])
  | lang locale => exact (by decide : langCookie ≠ [])
  | exported id token => exact List.append_ne_nil_of_left_ne_nil (by decide) _

theorem SiteCookie.plain_value (sc : SiteCookie) : ∀ c ∈ sc.value, isCookieChar c = true := by
  cases sc with
  | session id => exact isCookieChar_bytesToHex id.bytes
  | signedOut => simp [value]
  | anonCsrf token => exact token.plain
  | exported id token => exact token.plain
  | lang locale =>
    cases locale with
    | en => decide +kernel
    | ptBr => decide +kernel

/-- The attributes of a header. -/
def SiteCookie.attributes : SiteCookie → List (List Char)
  | .session _ => ["HttpOnly".toList, "Secure".toList, "SameSite=Lax".toList, "Path=/".toList,
      "Max-Age=2592000".toList]
  | .signedOut => ["HttpOnly".toList, "Secure".toList, "SameSite=Lax".toList, "Path=/".toList,
      "Max-Age=0".toList]
  | .anonCsrf _ => ["Path=/".toList, "HttpOnly".toList, "Secure".toList, "SameSite=Lax".toList,
      "Max-Age=3600".toList]
  | .exported id _ => ["HttpOnly".toList, "Secure".toList, "SameSite=Lax".toList,
      "Path=/account/export/".toList ++ Nat.toDigits 10 id, "Max-Age=86400".toList]
  | .lang _ => ["Path=/".toList, "Max-Age=31536000".toList, "SameSite=Lax".toList]

theorem SiteCookie.header_eq (sc : SiteCookie) :
    sc.header = Browser.writeCookie sc.name sc.value sc.attributes := by
  have hage : Nat.toDigits 10 exportTokenMaxAgeSeconds = "86400".toList := by decide +kernel
  cases sc <;>
    simp [header, Browser.writeCookie, name, value, attributes, setSessionCookie,
      clearSessionCookie, setAnonCsrfCookie, setExportCookie, setLangCookie, hage]

/-- No attribute has a semicolon: the digits of an export's path have none. -/
theorem SiteCookie.plain_attributes (sc : SiteCookie) :
    ∀ a ∈ sc.attributes, ∀ c ∈ a, c ≠ ';' := by
  have hall : (sc.attributes.all fun a => a.all (· ≠ ';')) = true := by
    cases sc with
    | session id => rfl
    | signedOut => rfl
    | anonCsrf token => rfl
    | lang locale => rfl
    | exported id token =>
      have hdigits : ((Nat.toDigits 10 id).all (· ≠ ';')) = true := by
        apply List.all_eq_true.mpr
        intro c hc
        have hplain := range_of_isCookieChar (isCookieChar_toDigits id c hc).1
        simp [hplain.2.2]
      simp only [attributes, List.all_cons, List.all_append, hdigits]
      rfl
  intro a ha c hc
  simpa using List.all_eq_true.mp (List.all_eq_true.mp hall a ha) c hc

theorem readAttribute_path (id : Nat) :
    Browser.readAttribute (' ' :: ("Path=/account/export/".toList ++ Nat.toDigits 10 id)) =
      ("path".toList, "/account/export/".toList ++ Nat.toDigits 10 id) := by
  have hequals : Browser.splitEquals
      (" Path".toList ++ '=' :: ("/account/export/".toList ++ Nat.toDigits 10 id)) =
      some (" Path".toList, "/account/export/".toList ++ Nat.toDigits 10 id) :=
    Browser.splitEquals_append (by decide) _
  have hpath : Browser.trimBlanks ("/account/export/".toList ++ Nat.toDigits 10 id) =
      "/account/export/".toList ++ Nat.toDigits 10 id := by
    apply Browser.trimBlanks_of_no_blank
    intro c hc
    rcases List.mem_append.mp hc with hc | hc
    · exact (by decide : ∀ c ∈ "/account/export/".toList, Browser.isBlank c = false) c hc
    · exact isBlank_of_isCookieChar (isCookieChar_toDigits id c hc).1
  have hname : (Browser.trimBlanks " Path".toList).map Char.toLower = "path".toList := by
    decide +kernel
  show Browser.readAttribute
    (" Path".toList ++ '=' :: ("/account/export/".toList ++ Nat.toDigits 10 id)) = _
  rw [Browser.readAttribute, hequals]
  simp only [hpath, hname]

/-- The attributes say the path of the name. -/
theorem SiteCookie.readPath_attributes (sc : SiteCookie) :
    Browser.readPath "/".toList (sc.attributes.map fun a => ' ' :: a) = pathOf sc.name := by
  cases sc with
  | session id => rfl
  | signedOut => rfl
  | anonCsrf token => rfl
  | lang locale => rfl
  | exported id token =>
    have hlast : Browser.lastAttribute "path".toList
        ((SiteCookie.exported id token).attributes.map fun a => ' ' :: a) =
        some ("/account/export/".toList ++ Nat.toDigits 10 id) := by
      have hage : ((Browser.readAttribute (' ' :: "Max-Age=86400".toList)).1 =
          "path".toList) = False := by
        decide +kernel
      simp only [Browser.lastAttribute, attributes, List.map_cons, List.map_nil,
        List.reverse_cons, List.reverse_nil, List.nil_append, List.cons_append, List.find?_cons,
        readAttribute_path, hage, decide_true, decide_false, Option.map_some]
    have hprefix : "export_".toList.isPrefixOf (exportCookieName id) = true :=
      List.isPrefixOf_iff_prefix.mpr (List.prefix_append _ _)
    have hname : pathOf (SiteCookie.exported id token).name =
        "/account/export/".toList ++ Nat.toDigits 10 id := by
      show pathOf (exportCookieName id) = _
      rw [pathOf, if_pos hprefix]
      rfl
    rw [hname, Browser.readPath, hlast]
    rfl

theorem SiteCookie.readMaxAge_attributes (sc : SiteCookie) :
    Browser.readMaxAge (sc.attributes.map fun a => ' ' :: a) = some (sc.maxAge : Int) := by
  cases sc with
  | session id => rfl
  | signedOut => rfl
  | anonCsrf token => rfl
  | lang locale => rfl
  | exported id token =>
    have hlast : Browser.lastAttribute "max-age".toList
        ((SiteCookie.exported id token).attributes.map fun a => ' ' :: a) =
        some "86400".toList := by
      have hage : Browser.readAttribute (' ' :: "Max-Age=86400".toList) =
          ("max-age".toList, "86400".toList) := by
        decide +kernel
      simp only [Browser.lastAttribute, attributes, List.map_cons, List.map_nil,
        List.reverse_cons, List.reverse_nil, List.nil_append, List.cons_append, List.find?_cons,
        hage, decide_true, Option.map_some]
    rw [Browser.readMaxAge, hlast]
    rfl

/-- A browser reads the cookie that the header is to make. -/
theorem readCookie_header (response : Instant × SiteCookie) :
    Browser.readCookie second response.1 "/".toList response.2.header =
      some (SiteCookie.cookie response) := by
  have hname : Browser.IsToken response.2.name := by
    intro c hc
    have hplain := response.2.plain_name c hc
    exact ⟨(range_of_isCookieChar hplain.1).2.2, hplain.2, isBlank_of_isCookieChar hplain.1⟩
  have hvalue : ∀ c ∈ response.2.value, c ≠ ';' ∧ Browser.isBlank c = false := by
    intro c hc
    have hplain := response.2.plain_value c hc
    exact ⟨(range_of_isCookieChar hplain).2.2, isBlank_of_isCookieChar hplain⟩
  rw [SiteCookie.header_eq,
    Browser.readCookie_writeCookie response.2.name_ne_nil hname hvalue response.2.plain_attributes,
    SiteCookie.readPath_attributes, SiteCookie.readMaxAge_attributes]
  rfl

/-- A run of responses is a run of cookies. -/
theorem jarAfter_eq (run : List (Instant × SiteCookie)) :
    jarAfter run = Browser.after [] (run.map SiteCookie.cookie) := by
  have hreceive : receive = fun jar response => Browser.put (SiteCookie.cookie response) jar := by
    funext jar response
    simp only [receive, readCookie_header]
  rw [jarAfter, Browser.after, List.foldl_map, hreceive]

/-! ## What the server reads -/

theorem trimChars_of_forall {s : List Char} (h : ∀ c ∈ s, Text.isWhitespace c = false) :
    Text.trimChars s = s := by
  have htrim := Text.trim_of_forall (s := String.ofList s) (by simpa using h)
  simpa [Text.trim] using congrArg String.toList htrim

theorem trimChars_cons_space (s : List Char) : Text.trimChars (' ' :: s) = Text.trimChars s := by
  have hspace : Text.isWhitespace ' ' = true := by decide
  simp [Text.trimChars, hspace]

/-- A cookie whose name and value stand as they are. -/
structure IsPlain (c : Cookie) : Prop where
  name : ∀ x ∈ c.name, isCookieChar x = true ∧ x ≠ '='
  value : ∀ x ∈ c.value, isCookieChar x = true

theorem SiteCookie.isPlain (response : Instant × SiteCookie) :
    IsPlain (SiteCookie.cookie response) :=
  ⟨response.2.plain_name, response.2.plain_value⟩

theorem IsPlain.pair {c : Cookie} (h : IsPlain c) :
    ∀ x ∈ c.pair, 0x20 ≤ x.toNat ∧ x.toNat ≤ 0x7E ∧ x ≠ ';' := by
  intro x hx
  rw [Cookie.pair, List.mem_append, List.mem_cons] at hx
  rcases hx with hx | hx | hx
  · have hrange := range_of_isCookieChar (h.name x hx).1
    exact ⟨by omega, hrange.2⟩
  · rw [hx]
    decide
  · have hrange := range_of_isCookieChar (h.value x hx)
    exact ⟨by omega, hrange.2⟩

theorem splitAtFirst_append {name value : List Char} (h : ∀ c ∈ name, c ≠ '=') :
    splitAtFirst '=' (name ++ '=' :: value) = some (name, value) := by
  simp only [splitAtFirst, Browser.dropWhile_append_equals h, Browser.takeWhile_append_equals h]

theorem splitAtFirst_pair {c : Cookie} (h : IsPlain c) :
    splitAtFirst '=' c.pair = some (c.name, c.value) :=
  splitAtFirst_append fun x hx => (h.name x hx).2

/-- The first pair of the header is written without a space in front of it. -/
theorem splitOn_cookieLine {c : Cookie} {cookies : List Cookie} (hc : IsPlain c)
    (h : ∀ d ∈ cookies, IsPlain d) :
    (Browser.cookieLine (c :: cookies)).splitOn ';' =
      c.pair :: cookies.map fun d => ' ' :: d.pair := by
  have hline : Browser.cookieLine (c :: cookies) =
      c.pair ++ (cookies.map Cookie.pair).flatMap fun a => ';' :: ' ' :: a := by
    induction cookies generalizing c with
    | nil => simp [Browser.cookieLine]
    | cons d cookies ih =>
      have hrest := ih (h d List.mem_cons_self) fun e he => h e (List.mem_cons_of_mem _ he)
      have hcons : Browser.cookieLine (c :: d :: cookies) =
          c.pair ++ ';' :: ' ' :: Browser.cookieLine (d :: cookies) := by
        simp [Browser.cookieLine, List.intercalate]
      rw [hcons, hrest]
      rfl
  have hpairs : ∀ a ∈ cookies.map Cookie.pair, ∀ x ∈ a, x ≠ ';' := by
    intro a ha x hx
    have ha := List.mem_map.mp ha
    obtain ⟨d, hd, rfl⟩ := ha
    exact ((h d hd).pair x hx).2.2
  rw [hline, Browser.splitOn_attributes (fun x hx => (hc.pair x hx).2.2) hpairs, List.map_map]
  rfl

/-- The pairs of the header as the server splits them. -/
theorem filterMap_cookieLine {cookies : List Cookie} (h : ∀ c ∈ cookies, IsPlain c) :
    (cookies.map fun d => ' ' :: d.pair).filterMap (splitAtFirst '=') =
      cookies.map fun d => (' ' :: d.name, d.value) := by
  induction cookies with
  | nil => rfl
  | cons c cookies ih =>
    have hrest := ih fun d hd => h d (List.mem_cons_of_mem _ hd)
    have hname : ∀ x ∈ ' ' :: c.name, x ≠ '=' := by
      intro x hx
      cases hx with
      | head => decide
      | tail _ hx => exact ((h c List.mem_cons_self).name x hx).2
    have hsplit : splitAtFirst '=' (' ' :: c.pair) = some (' ' :: c.name, c.value) :=
      splitAtFirst_append hname
    simp only [List.map_cons, List.filterMap_cons, hsplit, hrest]

theorem find?_trimmed {cookies : List Cookie} (h : ∀ c ∈ cookies, IsPlain c) (name : List Char) :
    ((cookies.map fun d => (' ' :: d.name, d.value)).find? fun kv =>
      Text.trimChars kv.1 = name).map (fun kv => Text.trimChars kv.2) =
      (Browser.lookup name cookies).map Cookie.value := by
  induction cookies with
  | nil => rfl
  | cons c cookies ih =>
    have hrest := ih fun d hd => h d (List.mem_cons_of_mem _ hd)
    have hc := h c List.mem_cons_self
    have hname : Text.trimChars (' ' :: c.name) = c.name := by
      rw [trimChars_cons_space]
      exact trimChars_of_forall fun x hx => isWhitespace_of_isCookieChar (hc.name x hx).1
    have hvalue : Text.trimChars c.value = c.value :=
      trimChars_of_forall fun x hx => isWhitespace_of_isCookieChar (hc.value x hx)
    simp only [Browser.lookup] at hrest ⊢
    simp only [List.map_cons, List.find?_cons, hname]
    by_cases hsame : c.name = name
    · simp [hsame, hvalue]
    · simp only [hsame, decide_false, hrest]

/-- What the server finds under a name in the header of a browser. -/
theorem cookieValue_of_line {headers : HeaderMap} {cookies : List Cookie} (hne : cookies ≠ [])
    (h : ∀ c ∈ cookies, IsPlain c)
    (hheader : headerText headers "cookie".toList = some (Browser.cookieLine cookies))
    (name : List Char) :
    cookieValue headers name = (Browser.lookup name cookies).map Cookie.value := by
  cases cookies with
  | nil => exact absurd rfl hne
  | cons c cookies =>
    have hc := h c List.mem_cons_self
    have hcookies : ∀ d ∈ cookies, IsPlain d := fun d hd => h d (List.mem_cons_of_mem _ hd)
    have hname : Text.trimChars c.name = c.name :=
      trimChars_of_forall fun x hx => isWhitespace_of_isCookieChar (hc.name x hx).1
    have hvalue : Text.trimChars c.value = c.value :=
      trimChars_of_forall fun x hx => isWhitespace_of_isCookieChar (hc.value x hx)
    have hrest := find?_trimmed hcookies name
    rw [cookieValue, hheader]
    simp only [Option.bind_some, splitOn_cookieLine hc hcookies, List.filterMap_cons,
      splitAtFirst_pair hc, filterMap_cookieLine hcookies, List.find?_cons, hname]
    simp only [Browser.lookup] at hrest ⊢
    simp only [List.find?_cons]
    by_cases hsame : c.name = name
    · simp [hsame, hvalue]
    · simp only [hsame, decide_false, hrest]

/-! ## Registers -/

theorem pathOf_cookie (response : Instant × SiteCookie) :
    (SiteCookie.cookie response).path = pathOf (SiteCookie.cookie response).name := rfl

theorem pathOf_of_mem {run : List (Instant × SiteCookie)} {c : Cookie}
    (h : c ∈ run.map SiteCookie.cookie) : c.path = pathOf c.name := by
  have h := List.mem_map.mp h
  obtain ⟨response, -, rfl⟩ := h
  exact pathOf_cookie response

theorem orderly_jarAfter (run : List (Instant × SiteCookie)) :
    Browser.Orderly pathOf (jarAfter run) := by
  rw [jarAfter_eq]
  exact Browser.orderly_nil.after fun c hc => pathOf_of_mem hc

theorem mem_after {jar cookies : List Cookie} {c : Cookie} (h : c ∈ Browser.after jar cookies) :
    c ∈ jar ∨ c ∈ cookies := by
  induction cookies generalizing jar with
  | nil => exact .inl h
  | cons d cookies ih =>
    rcases ih h with hjar | hcookies
    · rcases Browser.mem_put hjar with hd | hjar
      · exact .inr (by simp [hd])
      · exact .inl hjar
    · exact .inr (List.mem_cons_of_mem _ hcookies)

theorem isPlain_jarAfter {run : List (Instant × SiteCookie)} {c : Cookie} (h : c ∈ jarAfter run) :
    IsPlain c := by
  rw [jarAfter_eq] at h
  have hrun : c ∈ run.map SiteCookie.cookie := (mem_after h).resolve_left (by simp)
  have hrun := List.mem_map.mp hrun
  obtain ⟨response, -, rfl⟩ := hrun
  exact SiteCookie.isPlain response

/-- The bytes of printable ASCII are read as they are. -/
theorem toStr_headerValue {s : List Char} (h : ∀ c ∈ s, 0x20 ≤ c.toNat ∧ c.toNat ≤ 0x7E) :
    (headerValue s).bind HeaderValue.toStr = some s := by
  have hbytes : utf8 s = asciiBytes s := by
    induction s with
    | nil => rfl
    | cons c s ih =>
      have hc := h c List.mem_cons_self
      have hsize : c.utf8Size = 1 := Char.utf8Size_eq_one_iff.mpr (by
        show c.val.toNat ≤ 127
        have : c.val.toNat = c.toNat := rfl
        omega)
      have hone : String.utf8EncodeChar c = [UInt8.ofNat c.toNat] := by
        rw [String.utf8EncodeChar_eq_singleton hsize]
        rfl
      have hrest := ih fun d hd => h d (List.mem_cons_of_mem _ hd)
      simp only [utf8, List.flatMap_cons, asciiBytes, List.map_cons] at hrest ⊢
      rw [hone, hrest, List.singleton_append]
  have hvisible : ∀ b ∈ utf8 s, isVisibleAscii b = true := by
    intro b hb
    rw [hbytes] at hb
    have hb := List.mem_map.mp hb
    obtain ⟨c, hc, rfl⟩ := hb
    exact isVisibleAscii_ofNat (h c hc).1 (h c hc).2
  have hvalid : ∀ b ∈ utf8 s, isHeaderByte b = true := fun b hb =>
    isHeaderByte_of_isVisibleAscii (hvisible b hb)
  rw [headerValue, dif_pos hvalid, Option.bind_some, HeaderValue.toStr,
    if_pos (List.all_eq_true.mpr hvisible)]
  show some ((utf8 s).map _) = _
  rw [hbytes, map_asciiBytes]
  intro c hc
  have hrange := h c hc
  omega

theorem printable_cookieLine {cookies : List Cookie} (h : ∀ c ∈ cookies, IsPlain c) :
    ∀ x ∈ Browser.cookieLine cookies, 0x20 ≤ x.toNat ∧ x.toNat ≤ 0x7E := by
  induction cookies with
  | nil => simp [Browser.cookieLine]
  | cons c cookies ih =>
    intro x hx
    have hc : ∀ x ∈ c.pair, 0x20 ≤ x.toNat ∧ x.toNat ≤ 0x7E := fun x hx =>
      ⟨((h c List.mem_cons_self).pair x hx).1, ((h c List.mem_cons_self).pair x hx).2.1⟩
    cases cookies with
    | nil => exact hc x (by simpa [Browser.cookieLine] using hx)
    | cons d cookies =>
      have hline : Browser.cookieLine (c :: d :: cookies) =
          c.pair ++ ';' :: ' ' :: Browser.cookieLine (d :: cookies) := by
        simp [Browser.cookieLine, List.intercalate]
      rw [hline, List.mem_append, List.mem_cons, List.mem_cons] at hx
      rcases hx with hx | hx | hx | hx
      · exact hc x hx
      · simp [hx]
      · simp [hx]
      · exact ih (fun e he => h e (List.mem_cons_of_mem _ he)) x hx

/-- The response that set a name last. -/
def lastSet (name : List Char) (run : List (Instant × SiteCookie)) :
    Option (Instant × SiteCookie) :=
  run.reverse.find? fun response => response.2.name = name

theorem latest_eq (name : List Char) (run : List (Instant × SiteCookie)) :
    Browser.latest name (run.map SiteCookie.cookie) =
      (lastSet name run).map SiteCookie.cookie := by
  rw [Browser.latest, lastSet, ← List.map_reverse, List.find?_map]
  rfl

/-- A request presents what was set. -/
def Presents (now : Instant) (path : List Char) (response : Instant × SiteCookie) : Bool :=
  now < response.1 + response.2.maxAge * second && Browser.pathMatches path (pathOf response.2.name)

/-- Cookies are registers: under every name a request presents what the site set
last, as long as it lives and where its path matches. -/
theorem cookieValue_register (run : List (Instant × SiteCookie)) (now : Instant)
    (path : List Char) (headers : HeaderMap)
    (h : headers.get "cookie".toList = cookieHeader now path (jarAfter run)) (name : List Char) :
    cookieValue headers name =
      ((lastSet name run).filter (Presents now path)).map fun response => response.2.value := by
  have hlookup : Browser.lookup name (Browser.sent now path (jarAfter run)) =
      ((lastSet name run).filter (Presents now path)).map SiteCookie.cookie := by
    rw [(orderly_jarAfter run).lookup_sent, jarAfter_eq,
      Browser.lookup_after Browser.orderly_nil (fun c hc => pathOf_of_mem hc), latest_eq]
    cases lastSet name run with
    | none => rfl
    | some response =>
      have hsame : ((SiteCookie.cookie response).isAlive now &&
          Browser.pathMatches path (SiteCookie.cookie response).path) =
          Presents now path response := rfl
      show (some (SiteCookie.cookie response)).filter _ = _
      cases hpresents : Presents now path response with
      | true => simp [Option.filter, hsame, hpresents]
      | false => simp [Option.filter, hsame, hpresents]
  have hvalue : (Browser.lookup name (Browser.sent now path (jarAfter run))).map Cookie.value =
      ((lastSet name run).filter (Presents now path)).map fun response => response.2.value := by
    rw [hlookup, Option.map_map]
    rfl
  rw [← hvalue]
  cases hsent : Browser.sent now path (jarAfter run) with
  | nil =>
    rw [cookieHeader, hsent] at h
    have hnone : headers.get "cookie".toList = none := h
    rw [cookieValue, headerText, hnone]
    rfl
  | cons c cookies =>
    have hplain : ∀ d ∈ c :: cookies, IsPlain d := by
      intro d hd
      rw [← hsent, Browser.sent, List.mem_mergeSort] at hd
      exact isPlain_jarAfter (List.mem_of_mem_filter hd)
    rw [cookieHeader, hsent] at h
    apply cookieValue_of_line (List.cons_ne_nil c cookies) hplain
    rw [headerText, h]
    exact toStr_headerValue (printable_cookieLine hplain)

/-! ## Sessions and exports -/

theorem lastSet_eq_some {name : List Char} {run : List (Instant × SiteCookie)}
    {response : Instant × SiteCookie} (h : lastSet name run = some response) :
    response ∈ run ∧ response.2.name = name :=
  ⟨List.mem_reverse.mp (List.mem_of_find?_eq_some h), by simpa using List.find?_some h⟩

theorem exportCookieName_starts (id : Nat) : "export_".toList <+: exportCookieName id :=
  List.prefix_append _ _

/-- The name of an export's cookie is none of the fixed ones. -/
theorem exportCookieName_ne (id : Nat) :
    exportCookieName id ≠ sessionCookie ∧ exportCookieName id ≠ anonCsrfCookie ∧
      exportCookieName id ≠ langCookie := by
  have hother : ∀ name, ¬ "export_".toList <+: name → exportCookieName id ≠ name := by
    intro name hname h
    rw [← h] at hname
    exact hname (exportCookieName_starts id)
  exact ⟨hother _ (by decide), hother _ (by decide), hother _ (by decide)⟩

theorem exportCookieName_injective : Function.Injective exportCookieName := by
  intro id id' h
  have hdigits : Nat.toDigits 10 id = Nat.toDigits 10 id' := List.append_cancel_left h
  rw [← Nat.ofDigitChars_ten_toDigits (n := id), hdigits, Nat.ofDigitChars_ten_toDigits]

theorem sessionCookie_of_name {sc : SiteCookie} (h : sc.name = sessionCookie) :
    (∃ id, sc = .session id) ∨ sc = .signedOut := by
  cases sc with
  | session id => exact .inl ⟨id, rfl⟩
  | signedOut => exact .inr rfl
  | anonCsrf token => exact absurd h (by decide : anonCsrfCookie ≠ sessionCookie)
  | exported id token => exact absurd h (exportCookieName_ne id).1
  | lang locale => exact absurd h (by decide : langCookie ≠ sessionCookie)

theorem exported_of_name {sc : SiteCookie} {id : Nat} (h : sc.name = exportCookieName id) :
    ∃ token, sc = .exported id token := by
  have hne := exportCookieName_ne id
  cases sc with
  | session id => exact absurd h.symm hne.1
  | signedOut => exact absurd h.symm hne.1
  | anonCsrf token => exact absurd h.symm hne.2.1
  | exported id' token =>
    have hid : id' = id := exportCookieName_injective h
    exact ⟨token, by rw [hid]⟩
  | lang locale => exact absurd h.symm hne.2.2

/-- Every path of a request starts with a slash. -/
theorem pathMatches_root (rest : List Char) :
    Browser.pathMatches ('/' :: rest) "/".toList = true := by
  simp [Browser.pathMatches]

/-- The time for which a session cookie lives. -/
def sessionLife : Int := 30 * day

/-- The session of the last sign-in, until the site has cleared the cookie or thirty
days are over. -/
def signedInAs (run : List (Instant × SiteCookie)) (now : Instant) : Option Token :=
  match lastSet sessionCookie run with
  | some (t, .session id) => if now < t + sessionLife then some id else none
  | _ => none

/-- The session id that a request presents. -/
def presentedSession (headers : HeaderMap) : Jobs.Call (Option Token) :=
  match sessionIdFromHeaders headers with
  | none => .returned none
  | some raw => SessionId.fromHex (.ofChars raw)

/-- Whoever signs in is known by every request until then, and nobody else is. -/
theorem presentedSession_register (run : List (Instant × SiteCookie)) (now : Instant)
    (rest : List Char) (headers : HeaderMap)
    (h : headers.get "cookie".toList = cookieHeader now ('/' :: rest) (jarAfter run)) :
    presentedSession headers = .returned (signedInAs run now) := by
  have hvalue := cookieValue_register run now ('/' :: rest) headers h sessionCookie
  rw [presentedSession, sessionIdFromHeaders, hvalue, signedInAs]
  cases hlast : lastSet sessionCookie run with
  | none => rfl
  | some response =>
    have hname := (lastSet_eq_some hlast).2
    rcases sessionCookie_of_name hname with ⟨id, hsc⟩ | hsc
    · have hresponse : response = (response.1, .session id) := Prod.ext rfl hsc
      have hlife : (2592000 : Int) * second = sessionLife := by decide
      have hpresents : Presents now ('/' :: rest) (response.1, .session id) =
          decide (now < response.1 + sessionLife) := by
        have hpath : pathOf (SiteCookie.session id).name = "/".toList := rfl
        have hage : ((SiteCookie.session id).maxAge : Int) = 2592000 := rfl
        simp only [Presents, hpath, pathMatches_root, Bool.and_true, hage, hlife]
      have hread : SessionId.fromHex (.ofChars (SiteCookie.session id).value) =
          .returned (some id) := SessionId.fromHex_toHex id
      rw [hresponse, Option.filter, hpresents]
      by_cases halive : now < response.1 + sessionLife
      · simp [halive, hread]
      · simp [halive]
    · have hresponse : response = (response.1, .signedOut) := Prod.ext rfl hsc
      have hempty : SessionId.fromHex (.ofChars SiteCookie.signedOut.value) = .returned none := by
        decide +kernel
      rw [hresponse, Option.filter]
      cases Presents now ('/' :: rest) (response.1, .signedOut) with
      | true => simp [hempty]
      | false => simp

/-! ## Exports -/

/-- `export_token`. -/
def exportToken (headers : HeaderMap) (id : Nat) (tokenParam : Option (List Char)) :
    Option (List Char) :=
  (cookieValue headers (exportCookieName id)).or tokenParam

/-- The page of an export. -/
def exportPage (id : Nat) : List Char := "/account/export/".toList ++ Nat.toDigits 10 id

theorem pathOf_exportCookieName (id : Nat) : pathOf (exportCookieName id) = exportPage id := by
  rw [pathOf, if_pos (List.isPrefixOf_iff_prefix.mpr (exportCookieName_starts id))]
  rfl

theorem getLast?_toDigits (s : List Char) (n : Nat) :
    (s ++ Nat.toDigits 10 n).getLast? ≠ some '/' := by
  have hne : Nat.toDigits 10 n ≠ [] := Nat.toDigits_ne_nil
  intro h
  rw [List.getLast?_append, List.getLast?_eq_some_getLast hne, Option.some_or,
    Option.some.injEq] at h
  have hdigit := Nat.isDigit_of_mem_toDigits (by decide) (by decide) (List.getLast_mem hne)
  rw [h] at hdigit
  exact absurd hdigit (by decide)

/-- A page and what is below it, segment by segment. -/
theorem pathMatches_exportPage (path : List Char) (id : Nat) :
    Browser.pathMatches path (exportPage id) = true ↔
      path = exportPage id ∨ (exportPage id ++ ['/']) <+: path :=
  Browser.pathMatches_of_page (getLast?_toDigits _ id)

/-- The token of an export reaches the export's page and what is below it for a day,
and no other page and no other export's. -/
theorem exportToken_register (run : List (Instant × SiteCookie)) (now : Instant)
    (path : List Char) (headers : HeaderMap)
    (h : headers.get "cookie".toList = cookieHeader now path (jarAfter run)) (id : Nat)
    (token : List Char) :
    exportToken headers id none = some token ↔
      ∃ t text, lastSet (exportCookieName id) run = some (t, .exported id text) ∧
        text.chars = token ∧ now < t + day ∧
        (path = exportPage id ∨ (exportPage id ++ ['/']) <+: path) := by
  have hvalue := cookieValue_register run now path headers h (exportCookieName id)
  have hpresents : ∀ t text, Presents now path (t, .exported id text) = true ↔
      now < t + day ∧ (path = exportPage id ∨ (exportPage id ++ ['/']) <+: path) := by
    intro t text
    have hpath : pathOf (SiteCookie.exported id text).name = exportPage id :=
      pathOf_exportCookieName id
    have hage : ((SiteCookie.exported id text).maxAge : Int) * second = day := by
      show (86400 : Int) * second = day
      decide
    simp only [Presents, hpath, hage, Bool.and_eq_true, decide_eq_true_eq,
      pathMatches_exportPage]
  rw [exportToken, Option.or_none, hvalue]
  cases hlast : lastSet (exportCookieName id) run with
  | none => simp
  | some response =>
    have hname := exported_of_name (lastSet_eq_some hlast).2
    obtain ⟨text, hsc⟩ := hname
    have hresponse : response = (response.1, .exported id text) := Prod.ext rfl hsc
    rw [hresponse, Option.filter]
    constructor
    · intro hfound
      split at hfound
      · rename_i hpresent
        refine ⟨response.1, text, rfl, by simpa [SiteCookie.value] using hfound, ?_⟩
        exact (hpresents _ _).mp hpresent
      · simp at hfound
    · intro hset
      obtain ⟨t, text', hset, rfl, hpresent⟩ := hset
      cases hset
      rw [if_pos ((hpresents _ _).mpr hpresent)]
      rfl

/-- Two exports, of which the longer number does not get the token of the shorter. -/
def twoExports : List (Instant × SiteCookie) :=
  [(0, .exported 12 ⟨"Ab-_9".toList, by decide⟩), (1, .exported 123 ⟨"Zz".toList, by decide⟩)]

theorem exportToken_register_download :
    exportToken (cookieHeaders second "/account/export/12/download".toList (jarAfter twoExports))
      12 none = some "Ab-_9".toList :=
  (exportToken_register twoExports second "/account/export/12/download".toList _
    (get_cookieHeaders _ _ _) 12 "Ab-_9".toList).mpr
    ⟨0, ⟨"Ab-_9".toList, by decide⟩, rfl, rfl, by decide, .inr (by decide)⟩

end BikesNest.Web
