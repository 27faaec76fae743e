import Mathlib.Data.List.DropRight
import Mathlib.Data.List.Nodup

/-!
# Cookies

What a browser keeps of the `Set-Cookie` headers of one site and sends back, after
RFC 6265: the header is a pair and attributes separated by semicolons, of which
`Path` and `Max-Age` matter here; a cookie takes the place of an older one of its
name and path; a request carries the cookies that are alive and whose path
matches, those with longer paths first.

Where every name has one path (`Orderly`), the cookies of a site are registers:
`lookup_after` says that a name stands for the cookie that was set under it last,
and `Orderly.lookup_sent` that this is what a request carries under the name.
-/

namespace BikesNest.Browser

structure Cookie where
  name : List Char
  value : List Char
  path : List Char
  /-- None for a cookie that lives as long as the browser does. -/
  expires : Option Int
deriving DecidableEq

/-! ## Reading a header -/

/-- Spaces and tabs. -/
def isBlank (c : Char) : Bool := c = ' ' || c = '\t'

def trimBlanks (s : List Char) : List Char := (s.dropWhile isBlank).rdropWhile isBlank

/-- The parts in front of the first equals sign and behind it. -/
def splitEquals (s : List Char) : Option (List Char × List Char) :=
  match s.dropWhile (· ≠ '=') with
  | [] => none
  | _ :: rest => some (s.takeWhile (· ≠ '='), rest)

/-- An attribute without a value has the empty one. -/
def readAttribute (s : List Char) : List Char × List Char :=
  match splitEquals s with
  | some (name, value) => ((trimBlanks name).map Char.toLower, trimBlanks value)
  | none => ((trimBlanks s).map Char.toLower, [])

/-- Of several attributes of one name the last one counts. -/
def lastAttribute (name : List Char) (attributes : List (List Char)) : Option (List Char) :=
  ((attributes.map readAttribute).reverse.find? fun a => a.1 = name).map Prod.snd

/-- `Path`, where it starts with a slash. -/
def readPath (default : List Char) (attributes : List (List Char)) : List Char :=
  match lastAttribute "path".toList attributes with
  | some ('/' :: path) => '/' :: path
  | _ => default

/-- The number that digits stand for. -/
def digits (s : List Char) : Option Nat :=
  if s ≠ [] ∧ s.all Char.isDigit then
    some (s.foldl (fun n c => n * 10 + (c.toNat - '0'.toNat)) 0)
  else none

/-- `Max-Age` in seconds. -/
def readMaxAge (attributes : List (List Char)) : Option Int :=
  match lastAttribute "max-age".toList attributes with
  | some ('-' :: s) => (digits s).map fun n => -n
  | some s => (digits s).map fun n => n
  | none => none

/-- The cookie of a `Set-Cookie` header that comes at `now`. -/
def readCookie (second now : Int) (default : List Char) (header : List Char) : Option Cookie :=
  match header.splitOn ';' with
  | [] => none
  | pair :: attributes =>
    match splitEquals pair with
    | none => none
    | some (name, value) =>
      if trimBlanks name = [] then none
      else some {
        name := trimBlanks name
        value := trimBlanks value
        path := readPath default attributes
        expires := (readMaxAge attributes).map fun age => now + age * second }

/-! ## The jar -/

/-- A new cookie takes the place of the one of its name and path. -/
def put (c : Cookie) : List Cookie → List Cookie
  | [] => [c]
  | d :: jar => if d.name = c.name ∧ d.path = c.path then c :: jar else d :: put c jar

def Cookie.isAlive (now : Int) (c : Cookie) : Bool :=
  match c.expires with
  | none => true
  | some expires => now < expires

/-- A path matches itself and everything below it. -/
def pathMatches (request path : List Char) : Bool :=
  request = path ||
    (path.isPrefixOf request && (path.getLast? = some '/' || request[path.length]? = some '/'))

/-- Longer paths first. -/
def specific (a b : Cookie) : Bool := b.path.length ≤ a.path.length

/-- The cookies of a request. -/
def sent (now : Int) (request : List Char) (jar : List Cookie) : List Cookie :=
  (jar.filter fun c => c.isAlive now && pathMatches request c.path).mergeSort specific

/-- One pair of the `Cookie` header. -/
def Cookie.pair (c : Cookie) : List Char := c.name ++ '=' :: c.value

/-- The `Cookie` header. -/
def cookieLine (cookies : List Cookie) : List Char :=
  "; ".toList.intercalate (cookies.map Cookie.pair)

/-! ## Writing a header -/

/-- A header with its attributes. -/
def writeCookie (name value : List Char) (attributes : List (List Char)) : List Char :=
  name ++ '=' :: value ++ attributes.flatMap fun a => ';' :: ' ' :: a

/-- A text that stands in a header as it is: no separator and no white space. -/
def IsToken (s : List Char) : Prop := ∀ c ∈ s, c ≠ ';' ∧ c ≠ '=' ∧ isBlank c = false

theorem trimBlanks_of_no_blank {s : List Char} (h : ∀ c ∈ s, isBlank c = false) :
    trimBlanks s = s := by
  have hfront : s.dropWhile isBlank = s := by
    cases s with
    | nil => rfl
    | cons c s => simp [h c List.mem_cons_self]
  rw [trimBlanks, hfront, List.rdropWhile_eq_self_iff]
  intro hne hblank
  simp [h _ (List.getLast_mem hne)] at hblank

theorem takeWhile_append_equals {name value : List Char} (h : ∀ c ∈ name, c ≠ '=') :
    (name ++ '=' :: value).takeWhile (· ≠ '=') = name := by
  rw [List.takeWhile_append_of_pos fun c hc => by simp [h c hc]]
  simp

theorem dropWhile_append_equals {name value : List Char} (h : ∀ c ∈ name, c ≠ '=') :
    (name ++ '=' :: value).dropWhile (· ≠ '=') = '=' :: value := by
  rw [List.dropWhile_append_of_pos fun c hc => by simp [h c hc]]
  simp

theorem splitEquals_append {name : List Char} (h : ∀ c ∈ name, c ≠ '=') (value : List Char) :
    splitEquals (name ++ '=' :: value) = some (name, value) := by
  simp only [splitEquals, dropWhile_append_equals h, takeWhile_append_equals h]

theorem splitOn_attributes {s : List Char} {attributes : List (List Char)}
    (hs : ∀ c ∈ s, c ≠ ';') (h : ∀ a ∈ attributes, ∀ c ∈ a, c ≠ ';') :
    (s ++ attributes.flatMap fun a => ';' :: ' ' :: a).splitOn ';' =
      s :: attributes.map fun a => ' ' :: a := by
  induction attributes generalizing s with
  | nil =>
    simp only [List.flatMap_nil, List.append_nil, List.map_nil]
    exact List.splitOn_eq_singleton fun hmem => hs ';' hmem rfl
  | cons a attributes ih =>
    have hblank : ∀ c ∈ ' ' :: a, c ≠ ';' := by
      intro c hc
      cases hc with
      | head => decide
      | tail _ hc => exact h a List.mem_cons_self c hc
    have hrest := ih hblank fun b hb => h b (List.mem_cons_of_mem _ hb)
    rw [List.flatMap_cons, List.cons_append,
      List.splitOn_append_cons_self_of_not_mem fun hmem => hs ';' hmem rfl, hrest]
    rfl

/-- A header is read as it was written. -/
theorem readCookie_writeCookie {name value : List Char} {attributes : List (List Char)}
    (hne : name ≠ []) (hname : IsToken name)
    (hvalue : ∀ c ∈ value, c ≠ ';' ∧ isBlank c = false)
    (h : ∀ a ∈ attributes, ∀ c ∈ a, c ≠ ';') (second now : Int) (default : List Char) :
    readCookie second now default (writeCookie name value attributes) = some {
      name, value
      path := readPath default (attributes.map fun a => ' ' :: a)
      expires := (readMaxAge (attributes.map fun a => ' ' :: a)).map fun age =>
        now + age * second } := by
  have hpair : ∀ c ∈ name ++ '=' :: value, c ≠ ';' := by
    intro c hc
    rw [List.mem_append, List.mem_cons] at hc
    rcases hc with hc | hc | hc
    · exact (hname c hc).1
    · rw [hc]
      decide
    · exact (hvalue c hc).1
  have hsplit := splitOn_attributes hpair h
  have hequals := splitEquals_append (fun c hc => (hname c hc).2.1) value
  have htrim := trimBlanks_of_no_blank fun c hc => (hname c hc).2.2
  have htrim' := trimBlanks_of_no_blank fun c hc => (hvalue c hc).2
  simp only [readCookie, writeCookie, hsplit, hequals, htrim, htrim']
  rw [if_neg hne]

/-! ## Cookies as registers -/

/-- The cookie of a name. -/
def lookup (name : List Char) (jar : List Cookie) : Option Cookie :=
  jar.find? fun c => c.name = name

/-- No name stands twice, and each has its own path. -/
structure Orderly (pathOf : List Char → List Char) (jar : List Cookie) : Prop where
  nodup : (jar.map Cookie.name).Nodup
  path : ∀ c ∈ jar, c.path = pathOf c.name

variable {pathOf : List Char → List Char} {jar : List Cookie}

theorem mem_put {c d : Cookie} (h : d ∈ put c jar) : d = c ∨ d ∈ jar := by
  induction jar with
  | nil => exact .inl (List.mem_singleton.mp h)
  | cons e jar ih =>
    unfold put at h
    split at h
    · cases h with
      | head => exact .inl rfl
      | tail _ h => exact .inr (List.mem_cons_of_mem _ h)
    · cases h with
      | head => exact .inr List.mem_cons_self
      | tail _ h =>
        apply (ih h).imp_right
        exact List.mem_cons_of_mem _

theorem map_name_put {c : Cookie} (hpath : ∀ d ∈ jar, d.name = c.name → d.path = c.path) :
    (put c jar).map Cookie.name =
      if c.name ∈ jar.map Cookie.name then jar.map Cookie.name
      else jar.map Cookie.name ++ [c.name] := by
  induction jar with
  | nil => simp [put]
  | cons e jar ih =>
    have hrest := ih fun d hd => hpath d (List.mem_cons_of_mem _ hd)
    by_cases hname : e.name = c.name
    · simp [put, hname, hpath e List.mem_cons_self hname]
    · have hname' : ¬ c.name = e.name := fun h => hname h.symm
      simp only [put, hname, false_and, if_false, List.map_cons, hrest, List.mem_cons, hname',
        false_or]
      split <;> rfl

theorem Orderly.put (h : Orderly pathOf jar) {c : Cookie} (hc : c.path = pathOf c.name) :
    Orderly pathOf (put c jar) where
  nodup := by
    have hpath : ∀ d ∈ jar, d.name = c.name → d.path = c.path := by
      intro d hd hname
      rw [h.path d hd, hc, hname]
    rw [map_name_put hpath]
    split
    · exact h.nodup
    · rename_i hnew
      rw [← List.concat_eq_append]
      exact h.nodup.concat hnew
  path d hd := by
    rcases mem_put hd with hd | hd
    · rw [hd, hc]
    · exact h.path d hd

/-- Setting a cookie sets its name and no other. -/
theorem Orderly.lookup_put (h : Orderly pathOf jar) {c : Cookie} (hc : c.path = pathOf c.name)
    (name : List Char) :
    lookup name (Browser.put c jar) = if c.name = name then some c else lookup name jar := by
  have hpath : ∀ d ∈ jar, d.name = c.name → d.path = c.path := by
    intro d hd hname
    rw [h.path d hd, hc, hname]
  clear h hc
  induction jar with
  | nil =>
    by_cases hname : c.name = name <;> simp [Browser.put, lookup, hname]
  | cons e jar ih =>
    have hrest := ih fun d hd => hpath d (List.mem_cons_of_mem _ hd)
    simp only [lookup] at hrest ⊢
    by_cases hsame : e.name = c.name
    · have hput : Browser.put c (e :: jar) = c :: jar := by
        simp [Browser.put, hsame, hpath e List.mem_cons_self hsame]
      by_cases hname : c.name = name <;> simp [hput, hsame, hname]
    · have hput : Browser.put c (e :: jar) = e :: Browser.put c jar := by
        simp [Browser.put, hsame]
      rw [hput]
      by_cases hname : e.name = name
      · have hother : ¬ c.name = name := fun h => hsame (hname.trans h.symm)
        simp [hname, hother]
      · simp only [List.find?_cons, hname, decide_false, hrest]

/-- Where no name stands twice the order does not matter to a name. -/
theorem lookup_of_perm {l l' : List Cookie} (hperm : l.Perm l') (h : (l.map Cookie.name).Nodup)
    (name : List Char) : lookup name l = lookup name l' := by
  induction hperm with
  | nil => rfl
  | cons c hperm ih =>
    have hrest := ih (List.nodup_cons.mp h).2
    simp only [lookup, List.find?_cons] at hrest ⊢
    rw [hrest]
  | swap c d l =>
    have hne : d.name ≠ c.name := by
      intro hname
      simp [hname] at h
    simp only [lookup, List.find?_cons]
    by_cases hd : d.name = name
    · have hc : ¬ c.name = name := fun hc => hne (hd.trans hc.symm)
      simp [hd, hc]
    · simp [hd]
  | trans hfirst hsecond ih ih' =>
    exact (ih h).trans (ih' ((hfirst.map _).nodup_iff.mp h))

theorem lookup_filter (h : (jar.map Cookie.name).Nodup) (keep : Cookie → Bool)
    (name : List Char) : lookup name (jar.filter keep) = (lookup name jar).filter keep := by
  induction jar with
  | nil => rfl
  | cons c jar ih =>
    have hparts := List.nodup_cons.mp h
    have hrest := ih hparts.2
    simp only [lookup] at hrest ⊢
    by_cases hname : c.name = name
    · have hnone : ∀ d ∈ jar, ¬ d.name = name := by
        intro d hd hd'
        exact hparts.1 (List.mem_map.mpr ⟨d, hd, hd'.trans hname.symm⟩)
      by_cases hkeep : keep c = true
      · simp [hkeep, hname, Option.filter]
      · have hgone : (jar.filter keep).find? (fun d => d.name = name) = none := by
          apply List.find?_eq_none.mpr
          intro d hd
          simp [hnone d (List.mem_of_mem_filter hd)]
        simp [hkeep, hname, Option.filter, hgone]
    · by_cases hkeep : keep c = true
      · simp only [List.filter_cons, hkeep, if_true, List.find?_cons, hname, decide_false, hrest]
      · simp only [List.filter_cons, hkeep, Bool.false_eq_true, if_false, List.find?_cons, hname,
          decide_false, hrest]

/-- What a request carries under a name. -/
theorem Orderly.lookup_sent (h : Orderly pathOf jar) (now : Int) (request name : List Char) :
    lookup name (sent now request jar) =
      (lookup name jar).filter fun c => c.isAlive now && pathMatches request c.path := by
  have hnodup : ((jar.filter fun c => c.isAlive now && pathMatches request c.path).map
      Cookie.name).Nodup := h.nodup.sublist (List.filter_sublist.map _)
  rw [sent, ← lookup_of_perm (List.mergeSort_perm _ specific).symm hnodup, lookup_filter h.nodup]

/-- A path that does not end in a slash matches itself and what is below it, segment
by segment. -/
theorem pathMatches_of_page {request path : List Char} (h : path.getLast? ≠ some '/') :
    pathMatches request path = true ↔ request = path ∨ (path ++ ['/']) <+: request := by
  have hbelow : path.isPrefixOf request = true ∧ request[path.length]? = some '/' ↔
      (path ++ ['/']) <+: request := by
    rw [List.isPrefixOf_iff_prefix]
    constructor
    · intro hboth
      have hsplit := hboth.1
      obtain ⟨rest, rfl⟩ := hsplit
      have hslash := hboth.2
      rw [List.getElem?_append_right le_rfl, Nat.sub_self] at hslash
      cases rest with
      | nil => simp at hslash
      | cons c rest =>
        have hc : c = '/' := by simpa using hslash
        exact ⟨rest, by simp [hc]⟩
    · intro hprefix
      obtain ⟨rest, rfl⟩ := hprefix
      rw [List.append_assoc]
      refine ⟨List.prefix_append _ _, ?_⟩
      rw [List.getElem?_append_right le_rfl, Nat.sub_self]
      rfl
  simp only [pathMatches, Bool.or_eq_true, Bool.and_eq_true, decide_eq_true_eq, h, false_or,
    hbelow]

/-! ## Runs -/

/-- The jar after cookies have been set, the latest last. -/
def after (jar cookies : List Cookie) : List Cookie := cookies.foldl (fun jar c => put c jar) jar

/-- The cookie that was set last under a name. -/
def latest (name : List Char) (cookies : List Cookie) : Option Cookie :=
  cookies.reverse.find? fun c => c.name = name

theorem Orderly.after (h : Orderly pathOf jar) {cookies : List Cookie}
    (hcookies : ∀ c ∈ cookies, c.path = pathOf c.name) :
    Orderly pathOf (Browser.after jar cookies) := by
  induction cookies generalizing jar with
  | nil => exact h
  | cons c cookies ih =>
    apply ih (h.put (hcookies c List.mem_cons_self))
    exact fun d hd => hcookies d (List.mem_cons_of_mem _ hd)

theorem orderly_nil : Orderly pathOf [] := ⟨List.nodup_nil, by simp⟩

/-- After any run a name stands for the cookie that was set last under it. -/
theorem lookup_after {cookies : List Cookie} (h : Orderly pathOf jar)
    (hcookies : ∀ c ∈ cookies, c.path = pathOf c.name) (name : List Char) :
    lookup name (after jar cookies) = (latest name cookies).or (lookup name jar) := by
  induction cookies generalizing jar with
  | nil => rfl
  | cons c cookies ih =>
    have hc := hcookies c List.mem_cons_self
    have hrest := ih (h.put hc) fun d hd => hcookies d (List.mem_cons_of_mem _ hd)
    rw [after, List.foldl_cons]
    refine hrest.trans ?_
    rw [h.lookup_put hc, latest, latest, List.reverse_cons, List.find?_append]
    by_cases hname : c.name = name <;> simp [hname]

end BikesNest.Browser
