import Mathlib.Data.List.Basic
import Mathlib.Data.List.DropRight

/-!
# Resolving a reference

What a browser makes of a reference (the text of a link, a form's action or a
`Location` header) on a page of a site.  `resolve` follows the basic URL parser
of the browsers for a page whose scheme is `http` or `https`: white space is
stripped and tabs and newlines are dropped, a scheme is looked for, a backslash
counts as a slash, two slashes start an authority, dot segments are collapsed,
also where they are written with `%2e`.  Texts are kept as they are written: the
percent-encoding of a path and the spelling of a host do not matter here.

The rule to use is `target_of_path`: a reference without control characters that
starts with exactly one slash leads to the origin of the page.
-/

namespace BikesNest.Browser

/-- The parts of a URL. -/
structure Url where
  scheme : List Char
  /-- Credentials, host and port; a URL such as `mailto:` has none. -/
  authority : Option (List Char)
  path : List (List Char)
  query : Option (List Char)
  fragment : Option (List Char)
  deriving DecidableEq, Repr

/-- The origin of a URL that has one. -/
structure Origin where
  scheme : List Char
  hostAndPort : List Char
  deriving DecidableEq, Repr

/-- The schemes of web sites. -/
def isWeb (scheme : List Char) : Bool :=
  scheme = "http".toList || scheme = "https".toList

/-- The special schemes apart from `file`. -/
def isSpecial (scheme : List Char) : Bool :=
  isWeb scheme || scheme = "ws".toList || scheme = "wss".toList || scheme = "ftp".toList

/-- Credentials end at the last `@`. -/
def hostAndPort (authority : List Char) : List Char :=
  (authority.reverse.takeWhile (· ≠ '@')).reverse

/-- A URL without a host, or of a scheme that is not special, has an origin of
its own that equals no other. -/
def Url.origin (url : Url) : Option Origin :=
  if isSpecial url.scheme then
    url.authority.map fun authority => ⟨url.scheme, hostAndPort authority⟩
  else none

/-- A page of a web site. -/
structure Page where
  scheme : List Char
  web : isWeb scheme = true
  authority : List Char
  path : List (List Char)
  query : Option (List Char)

namespace Page

def url (page : Page) : Url where
  scheme := page.scheme
  authority := some page.authority
  path := page.path
  query := page.query
  fragment := none

def origin (page : Page) : Origin := ⟨page.scheme, hostAndPort page.authority⟩

theorem origin_url (page : Page) : page.url.origin = some page.origin := by
  have hspecial : isSpecial page.scheme = true := by simp [isSpecial, page.web]
  simp [Url.origin, url, origin, hspecial]

end Page

/-! ## Cleaning -/

def isControlOrSpace (c : Char) : Bool := c.toNat ≤ 32

def isTabOrNewline (c : Char) : Bool := c = '\t' || c = '\n' || c = '\r'

/-- Control characters and spaces at the ends and every tab and newline are
dropped before anything else. -/
def clean (s : List Char) : List Char :=
  ((s.dropWhile isControlOrSpace).rdropWhile isControlOrSpace).filter (!isTabOrNewline ·)

/-! ## Paths -/

/-- A backslash is a slash in a URL of a special scheme. -/
def isSlash (c : Char) : Bool := c = '/' || c = '\\'

/-- What ends an authority or a path. -/
def isEnd (c : Char) : Bool := c = '?' || c = '#'

def isSingleDot (segment : List Char) : Bool :=
  segment.map Char.toLower ∈ [".".toList, "%2e".toList]

def isDoubleDot (segment : List Char) : Bool :=
  segment.map Char.toLower ∈
    ["..".toList, ".%2e".toList, "%2e.".toList, "%2e%2e".toList]

/-- The path after the segments have been read one by one.  A dot segment in
the last place leaves an empty one there. -/
def appendSegments (path : List (List Char)) : List (List Char) → List (List Char)
  | [] => path
  | segment :: rest =>
    let path :=
      if isDoubleDot segment then path.dropLast
      else if isSingleDot segment then path
      else path ++ [segment]
    if rest = [] ∧ (isDoubleDot segment ∨ isSingleDot segment) then path ++ [[]]
    else appendSegments path rest

/-- The query and the fragment of what follows the path. -/
def tail (s : List Char) : Option (List Char) × Option (List Char) :=
  let query :=
    match s.takeWhile (· ≠ '#') with
    | '?' :: query => some query
    | _ => none
  let fragment :=
    match s.dropWhile (· ≠ '#') with
    | '#' :: fragment => some fragment
    | _ => none
  (query, fragment)

/-- The path state: segments from `start` on, then query and fragment. -/
def withPath (scheme authority : List Char) (start : List (List Char)) (s : List Char) : Url where
  scheme := scheme
  authority := some authority
  path := appendSegments start ((s.takeWhile (!isEnd ·)).splitOnP isSlash)
  query := (tail (s.dropWhile (!isEnd ·))).1
  fragment := (tail (s.dropWhile (!isEnd ·))).2

/-! ## The states of the parser -/

/-- After the slashes in front of an authority.  A special URL needs a host. -/
def readAuthority (scheme : List Char) (s : List Char) : Option Url :=
  let s := s.dropWhile isSlash
  let authority := s.takeWhile fun c => !(isSlash c || isEnd c)
  if hostAndPort authority = [] then none
  else
    match s.dropWhile fun c => !(isSlash c || isEnd c) with
    | c :: rest => some (withPath scheme authority [] (if isSlash c then rest else c :: rest))
    | [] => some (withPath scheme authority [] [])

/-- The relative state, for a reference without a scheme of its own. -/
def relative (page : Page) : List Char → Option Url
  | [] => some page.url
  | c :: rest =>
    if isSlash c then
      match rest with
      | d :: _ => if isSlash d then readAuthority page.scheme rest
          else some (withPath page.scheme page.authority [] rest)
      | [] => some (withPath page.scheme page.authority [] [])
    else if c = '#' then some { page.url with fragment := some rest }
    else if c = '?' then
      some { page.url with query := (tail (c :: rest)).1, fragment := (tail (c :: rest)).2 }
    else some (withPath page.scheme page.authority page.path.dropLast (c :: rest))

def isSchemeChar (c : Char) : Bool :=
  c.isAlphanum || c = '+' || c = '-' || c = '.'

/-- A letter, letters, digits and signs, and a colon. -/
def readScheme (s : List Char) : Option (List Char × List Char) :=
  match s.head? with
  | none => none
  | some c =>
    if c.isAlpha then
      match s.dropWhile isSchemeChar with
      | ':' :: rest => some ((s.takeWhile isSchemeChar).map Char.toLower, rest)
      | _ => none
    else none

/-- A URL of a scheme that is neither special nor `file`, and one of the latter:
neither has an origin to compare. -/
def otherUrl (scheme rest : List Char) : Url where
  scheme := scheme
  authority := none
  path := [rest.takeWhile (!isEnd ·)]
  query := (tail (rest.dropWhile (!isEnd ·))).1
  fragment := (tail (rest.dropWhile (!isEnd ·))).2

/-- The URL that a reference on a page means; `none` where it is no URL. -/
def resolve (page : Page) (reference : List Char) : Option Url :=
  let s := clean reference
  match readScheme s with
  | none => relative page s
  | some (scheme, rest) =>
    if isSpecial scheme then
      if scheme = page.scheme then
        match rest with
        | '/' :: '/' :: rest => readAuthority scheme rest
        | _ => relative page rest
      else readAuthority scheme rest
    else some (otherUrl scheme rest)

/-- The origin that a reference leads to. -/
def target (page : Page) (reference : List Char) : Option Origin :=
  (resolve page reference).bind Url.origin

/-! ## References with one slash -/

theorem origin_withPath (page : Page) (start : List (List Char)) (s : List Char) :
    (withPath page.scheme page.authority start s).origin = some page.origin :=
  page.origin_url

/-- One slash and no second one keeps the origin. -/
theorem target_of_slash {page : Page} {reference rest : List Char}
    (hclean : clean reference = '/' :: rest) (hrest : ∀ c ∈ rest.head?, isSlash c = false) :
    target page reference = some page.origin := by
  have hscheme : readScheme ('/' :: rest) = none := rfl
  have hresolve : resolve page reference = some (withPath page.scheme page.authority [] rest) := by
    simp only [resolve, hclean, hscheme]
    cases rest with
    | nil => rfl
    | cons d rest =>
      have hfirst : isSlash '/' = true := rfl
      have hd : isSlash d = false := hrest d rfl
      simp [relative, hfirst, hd]
  rw [target, hresolve]
  exact origin_withPath page [] rest

/-- Cleaning a text without control characters only takes spaces off its ends. -/
theorem clean_of_plain {s : List Char} (hplain : ∀ c ∈ s, 32 ≤ c.toNat) :
    clean s = (s.dropWhile isControlOrSpace).rdropWhile isControlOrSpace := by
  refine List.filter_eq_self.mpr ?_
  intro c hc
  have hmem : c ∈ s :=
    (List.dropWhile_sublist _).mem ((List.rdropWhile_prefix _ _).mem hc)
  have hle : 32 ≤ c.toNat := hplain c hmem
  have hne : ∀ d : Char, d.toNat < 32 → c ≠ d := by
    rintro d hd rfl
    omega
  simp [isTabOrNewline, hne '\t' (by decide), hne '\n' (by decide), hne '\r' (by decide)]

/-- A text without control characters that starts with exactly one slash. -/
theorem target_of_path {page : Page} {rest : List Char}
    (hplain : ∀ c ∈ '/' :: rest, 32 ≤ c.toNat) (hrest : ∀ c ∈ rest.head?, isSlash c = false) :
    target page ('/' :: rest) = some page.origin := by
  have hdrop : clean ('/' :: rest) = ('/' :: rest).rdropWhile isControlOrSpace := by
    rw [clean_of_plain hplain]
    rfl
  obtain ⟨kept, hkept⟩ : ∃ kept, ('/' :: rest).rdropWhile isControlOrSpace = '/' :: kept ∧
      kept <+: rest := by
    have hstart := List.rdropWhile_prefix isControlOrSpace ('/' :: rest)
    cases hkept : ('/' :: rest).rdropWhile isControlOrSpace with
    | nil =>
      have hslash := List.rdropWhile_eq_nil_iff.mp hkept '/' List.mem_cons_self
      exact absurd hslash (by decide)
    | cons d kept =>
      rw [hkept, List.cons_prefix_cons] at hstart
      exact ⟨kept, by rw [hstart.1], hstart.2⟩
  refine target_of_slash (hdrop.trans hkept.1) ?_
  intro c hc
  obtain ⟨more, rfl⟩ := hkept.2
  cases kept with
  | nil => cases hc
  | cons d kept => exact hrest c hc

/-! ## References with a query -/

/-- A text without spaces and control characters is left as it is. -/
theorem clean_of_visible {s : List Char} (h : ∀ c ∈ s, 33 ≤ c.toNat) : clean s = s := by
  have hkept : ∀ c ∈ s, isControlOrSpace c = false := by
    intro c hc
    have hvisible := h c hc
    simp only [isControlOrSpace, decide_eq_false_iff_not]
    omega
  have hfront : s.dropWhile isControlOrSpace = s := by
    rw [List.dropWhile_eq_self_iff]
    intro hl
    simp [hkept _ (List.getElem_mem hl)]
  have hback : s.rdropWhile isControlOrSpace = s := by
    rw [List.rdropWhile_eq_self_iff]
    intro hl
    simp [hkept _ (List.getLast_mem hl)]
  have hplain : ∀ c ∈ s, 32 ≤ c.toNat := by
    intro c hc
    have hvisible := h c hc
    omega
  rw [clean_of_plain hplain, hfront, hback]

/-- A segment that is a name, and no separator in it. -/
structure IsSegment (segment : List Char) : Prop where
  plain : ∀ c ∈ segment, isSlash c = false ∧ isEnd c = false
  nonempty : segment ≠ []
  noDots : isDoubleDot segment = false ∧ isSingleDot segment = false

/-- One segment and a query lead to that page of the site, with the query as it is
written. -/
theorem resolve_segment (page : Page) {segment query : List Char} (hsegment : IsSegment segment)
    (h : ∀ c ∈ '/' :: segment ++ '?' :: query, 33 ≤ c.toNat ∧ c ≠ '#') :
    resolve page ('/' :: segment ++ '?' :: query) = some {
      scheme := page.scheme
      authority := some page.authority
      path := [segment]
      query := some query
      fragment := none } := by
  have hclean := clean_of_visible fun c hc => (h c hc).1
  have hscheme : readScheme ('/' :: segment ++ '?' :: query) = none := rfl
  have hname : ∀ c ∈ segment, (!isEnd c) = true := by
    intro c hc
    simp [(hsegment.plain c hc).2]
  have htake : (segment ++ '?' :: query).takeWhile (!isEnd ·) = segment := by
    rw [List.takeWhile_append_of_pos hname]
    simp [isEnd]
  have hdrop : (segment ++ '?' :: query).dropWhile (!isEnd ·) = '?' :: query := by
    rw [List.dropWhile_append_of_pos hname]
    simp [isEnd]
  have hhash : ∀ c ∈ '?' :: query, decide (c ≠ '#') = true := by
    intro c hc
    have hne := (h c (List.mem_append_right _ hc)).2
    simp [hne]
  have htail : tail ('?' :: query) = (some query, none) := by
    have hquery : ('?' :: query).takeWhile (· ≠ '#') = '?' :: query :=
      List.takeWhile_eq_self_iff.mpr hhash
    have hrest : ('?' :: query).dropWhile (· ≠ '#') = [] :=
      List.dropWhile_eq_nil_iff.mpr hhash
    simp only [tail, hquery, hrest]
  have hsplit : segment.splitOnP isSlash = [segment] :=
    List.splitOnP_eq_singleton fun c hc => (hsegment.plain c hc).1
  have hpath : appendSegments [] [segment] = [segment] := by
    simp [appendSegments, hsegment.noDots.1, hsegment.noDots.2]
  have hwith : withPath page.scheme page.authority [] (segment ++ '?' :: query) = {
      scheme := page.scheme
      authority := some page.authority
      path := [segment]
      query := some query
      fragment := none } := by
    simp only [withPath, htake, hdrop, htail, hsplit, hpath]
  have hfirst : isSlash '/' = true := rfl
  simp only [resolve, hclean, hscheme]
  rw [← hwith]
  cases segment with
  | nil => exact absurd rfl hsegment.nonempty
  | cons d segment =>
    have hd := (hsegment.plain d List.mem_cons_self).1
    simp [relative, hfirst, hd]

end BikesNest.Browser
