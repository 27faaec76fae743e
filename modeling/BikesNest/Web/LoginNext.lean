import BikesNest.Lib.Url
import BikesNest.Web.ClientIp

/-!
# Where a login sends the user back to

`htmx.rs`: `safeLocalPath` lets a text through as a path on the site,
`localPart` cuts an absolute URL down to one, and `loginNext` takes the target
of a login from the request, from `HX-Current-URL` or from `Referer`.

`target_of_safeLocalPath` says that what `safeLocalPath` accepts leads a browser
to the origin of the page it is on, and `loginNext_stays_on_origin` that nothing
else comes out of `loginNext`, whatever the headers hold.
-/

namespace BikesNest.Web

open Browser (Page target)

/-! ## The request -/

/-- `http::Method`. -/
inductive Method where
  | get
  | head
  | options
  | post
  | put
  | patch
  | delete
  | trace
  | connect
  | extension (name : List Char)
  deriving DecidableEq, Repr

/-- What is read of `http::Uri`: three texts, of which the second is missing where
the target of the request is an authority. -/
structure Uri where
  path : List Char
  pathAndQuery : Option (List Char)
  query : Option (List Char)

/-- `http::HeaderMap`: the lines in the order in which they came, under names in
lower case. -/
abbrev HeaderMap := List (List Char × HeaderValue)

/-- `HeaderMap::get` answers the first line of a name. -/
def HeaderMap.get (headers : HeaderMap) (name : List Char) : Option HeaderValue :=
  (headers.find? fun line => line.1 = name).map Prod.snd

/-! ## Local paths -/

/-- `safe_local_path`.  The source tests bytes: those of a character above
`0x7F` are above it as well, so the tests say the same of characters. -/
def safeLocalPath (s : List Char) : Option (List Char) :=
  if s[0]? ≠ some '/' then none
  else if s[1]? = some '/' ∨ s[1]? = some '\\' then none
  else if s.any fun c => c = '\\' || c.toNat < 0x20 || c.toNat = 0x7F then none
  else some s

/-- What stands after the first `://`. -/
def afterScheme : List Char → Option (List Char)
  | [] => none
  | ':' :: '/' :: '/' :: after => some after
  | _ :: rest => afterScheme rest

/-- `local_part`. -/
def localPart (raw : List Char) : Option (List Char) :=
  let rest :=
    match afterScheme raw with
    | some after =>
      match after.dropWhile (· ≠ '/') with
      | [] => "/".toList
      | path => path
    | none => raw
  safeLocalPath rest

/-! ## The target of a login -/

/-- `HX_CURRENT_URL`. -/
def hxCurrentUrl : List Char := "hx-current-url".toList

/-- The first of the headers named whose text has a local part. -/
def localPartOf (headers : HeaderMap) (names : List (List Char)) : Option (List Char) :=
  names.findSome? fun name => ((headers.get name).bind HeaderValue.toStr).bind localPart

/-- The path up to its last slash; none where there is no slash. -/
def beforeLastSlash (path : List Char) : Option (List Char) :=
  match path.reverse.dropWhile (· ≠ '/') with
  | [] => none
  | _ :: before => some before.reverse

/-- `login_next`. -/
def loginNext (method : Method) (uri : Uri) (headers : HeaderMap) : List Char :=
  if method = .get ∨ method = .head then
    (safeLocalPath (uri.pathAndQuery.getD uri.path)).getD "/".toList
  else
    match localPartOf headers [hxCurrentUrl, "referer".toList] with
    | some page => page
    | none =>
      match beforeLastSlash uri.path with
      | none | some [] => "/".toList
      | some parent => (safeLocalPath parent).getD "/".toList

/-! ## What is accepted -/

/-- One slash, not a second one, and no backslash or control character. -/
def IsLocalPath (s : List Char) : Prop :=
  ∃ rest, s = '/' :: rest ∧ rest[0]? ≠ some '/' ∧
    ∀ c ∈ s, c ≠ '\\' ∧ 0x20 ≤ c.toNat ∧ c.toNat ≠ 0x7F

theorem safeLocalPath_eq_some_iff {s p : List Char} :
    safeLocalPath s = some p ↔ p = s ∧ IsLocalPath s := by
  have hplain : (s.any fun c => c = '\\' || c.toNat < 0x20 || c.toNat = 0x7F) = false ↔
      ∀ c ∈ s, c ≠ '\\' ∧ 0x20 ≤ c.toNat ∧ c.toNat ≠ 0x7F := by
    simp [List.any_eq_false, and_assoc]
  unfold safeLocalPath
  split_ifs with hfirst hsecond hbad
  · refine ⟨(fun h => by cases h), ?_⟩
    rintro ⟨-, rest, rfl, -, -⟩
    exact absurd rfl hfirst
  · refine ⟨(fun h => by cases h), ?_⟩
    rintro ⟨-, rest, rfl, hne, hchars⟩
    rcases hsecond with hslash | hback
    · exact absurd hslash hne
    · exact absurd rfl (hchars '\\' (List.mem_of_getElem? hback)).1
  · refine ⟨(fun h => by cases h), ?_⟩
    rintro ⟨-, rest, -, -, hchars⟩
    rw [hplain.mpr hchars] at hbad
    cases hbad
  · have hchars := hplain.mp (by simpa using hbad)
    refine ⟨?_, fun h => by rw [h.1]⟩
    intro h
    cases s with
    | nil => exact absurd hfirst (by simp)
    | cons c rest =>
      obtain rfl : c = '/' := by simpa using hfirst
      exact ⟨(Option.some.inj h).symm, rest, rfl, fun hslash => hsecond (Or.inl hslash), hchars⟩

theorem safeLocalPath_of_isLocalPath {s : List Char} (h : IsLocalPath s) :
    safeLocalPath s = some s :=
  safeLocalPath_eq_some_iff.mpr ⟨rfl, h⟩

theorem isLocalPath_slash : IsLocalPath "/".toList := by
  refine ⟨[], rfl, by simp, ?_⟩
  intro c hc
  obtain rfl : c = '/' := List.mem_singleton.mp hc
  decide

/-- A browser stays on the site. -/
theorem target_of_isLocalPath {s : List Char} (h : IsLocalPath s) (page : Page) :
    target page s = some page.origin := by
  obtain ⟨rest, rfl, hne, hchars⟩ := h
  refine Browser.target_of_path (fun c hc => (hchars c hc).2.1) ?_
  intro c hc
  have hback : c ≠ '\\' := (hchars c (List.mem_cons_of_mem _ (List.mem_of_mem_head? hc))).1
  have hslash : c ≠ '/' := by
    rintro rfl
    exact hne (by rw [← List.head?_eq_getElem?]; exact hc)
  simp [Browser.isSlash, hslash, hback]

/-- A page of the site, for the examples. -/
def samplePage : Page where
  scheme := "https".toList
  web := by decide
  authority := "bikesnest.example".toList
  path := ["parking".toList, "7".toList]
  query := none

-- A browser drops the tab before it looks for the second slash.
example : target samplePage "/\t/evil.example".toList =
    some ⟨"https".toList, "evil.example".toList⟩ := by decide +kernel

/-! ## What comes out -/

theorem isLocalPath_getD (s : List Char) :
    IsLocalPath ((safeLocalPath s).getD "/".toList) := by
  cases h : safeLocalPath s with
  | none => exact isLocalPath_slash
  | some p =>
    obtain ⟨rfl, hlocal⟩ := safeLocalPath_eq_some_iff.mp h
    exact hlocal

theorem isLocalPath_of_localPart {raw p : List Char} (h : localPart raw = some p) :
    IsLocalPath p := by
  obtain ⟨rfl, hlocal⟩ := safeLocalPath_eq_some_iff.mp h
  exact hlocal

theorem isLocalPath_of_localPartOf {headers : HeaderMap} {names : List (List Char)}
    {p : List Char} (h : localPartOf headers names = some p) : IsLocalPath p := by
  obtain ⟨name, -, hname⟩ := List.exists_of_findSome?_eq_some h
  obtain ⟨raw, -, hraw⟩ := Option.bind_eq_some_iff.mp hname
  exact isLocalPath_of_localPart hraw

/-- Every way through `loginNext` ends in a local path. -/
theorem isLocalPath_loginNext (method : Method) (uri : Uri) (headers : HeaderMap) :
    IsLocalPath (loginNext method uri headers) := by
  unfold loginNext
  split_ifs
  · exact isLocalPath_getD _
  · cases hpart : localPartOf headers [hxCurrentUrl, "referer".toList] with
    | some page => exact isLocalPath_of_localPartOf hpart
    | none =>
      cases beforeLastSlash uri.path with
      | none => exact isLocalPath_slash
      | some parent =>
        cases parent with
        | nil => exact isLocalPath_slash
        | cons c parent => exact isLocalPath_getD _

/-- No open redirect after a login. -/
theorem loginNext_stays_on_origin (method : Method) (uri : Uri) (headers : HeaderMap) :
    safeLocalPath (loginNext method uri headers) = some (loginNext method uri headers) ∧
      ∀ (page : Page) (s p : List Char), safeLocalPath s = some p →
        p = s ∧ target page s = some page.origin := by
  refine ⟨safeLocalPath_of_isLocalPath (isLocalPath_loginNext method uri headers), ?_⟩
  intro page s p h
  obtain ⟨rfl, hlocal⟩ := safeLocalPath_eq_some_iff.mp h
  exact ⟨rfl, target_of_isLocalPath hlocal page⟩

/-- Dot segments in front of two slashes do not leave the site. -/
theorem loginNext_stays_on_origin_dots :
    loginNext .post ⟨"/reports".toList, some "/reports".toList, none⟩
        [("referer".toList, ⟨asciiBytes "https://evil.example/.//evil.example".toList,
          by decide +kernel⟩)] = "/.//evil.example".toList ∧
      target samplePage "/.//evil.example".toList = some samplePage.origin :=
  ⟨by decide +kernel, ((loginNext_stays_on_origin .post ⟨"/reports".toList, none, none⟩ []).2
    samplePage "/.//evil.example".toList "/.//evil.example".toList (by decide +kernel)).2⟩

end BikesNest.Web
