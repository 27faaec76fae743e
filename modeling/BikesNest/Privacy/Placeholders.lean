import BikesNest.Domain.Text
import BikesNest.Lib.Needle

/-!
# The placeholders of the legal pages

`fill_policy_placeholders` replaces every `{{TOKEN}}` of a policy before
`seed_policy` publishes it, or reports the tokens that the deployment does not
resolve.  Its scanner pairs the first opening braces with the first closing braces
behind them and copies the span where it holds no token.

* `placeholders` are the tokens that a reader of the text finds, and `NoHoles` is what
  the caller relies on.
* `spans` are the spans of the scanner, and `placeholders_eq` finds the placeholders
  span by span.
* `noHoles_iff` says for which policies nothing is published with a hole: those where no
  span that is copied ends in a placeholder; three braces around a token are such a span.
-/

namespace BikesNest.Privacy.Placeholders

open Text

/-! ## The scanner -/

def opening : List Char := ['{', '{']

def closing : List Char := ['}', '}']

def isTokenChar (c : Char) : Bool := c.isUpper || c.isDigit || c == '_'

/-- `is_token`. -/
def isToken (t : List Char) : Bool := !t.isEmpty && t.all isTokenChar

/-- What supplies the value of a token. -/
abbrev Lookup := List Char → Option (List Char)

theorem opening_ne_nil : opening ≠ [] := by decide

theorem closing_ne_nil : closing ≠ [] := by decide

/-- What is left behind the closing braces of a span. -/
theorem rest_length {s before after inner rest : List Char}
    (hopen : Needle.find opening s = some (before, after))
    (hclose : Needle.find closing after = some (inner, rest)) : rest.length < s.length :=
  (Needle.find_length closing_ne_nil hclose).trans (Needle.find_length opening_ne_nil hopen)

/-- The loop of `fill_policy_placeholders`: `rest` is still to be read. -/
def fillLoop (lookup : Lookup) (rest out : List Char) (missing : List (List Char)) :
    List Char × List (List Char) :=
  match _hopen : Needle.find opening rest with
  | none => (out ++ rest, missing)
  | some (before, after) =>
    match _hclose : Needle.find closing after with
    -- the rest of the text, from the opening braces on
    | none => (out ++ before ++ (opening ++ after), missing)
    | some (inner, rest') =>
      let token := trimChars inner
      if isToken token then
        match lookup token with
        | some value => fillLoop lookup rest' (out ++ before ++ value) missing
        | none =>
          fillLoop lookup rest' (out ++ before)
            (if token ∈ missing then missing else missing ++ [token])
      else fillLoop lookup rest' (out ++ before ++ (opening ++ inner ++ closing)) missing
termination_by rest.length
decreasing_by all_goals exact rest_length _hopen _hclose

/-- `fill_policy_placeholders`. -/
def fillPolicyPlaceholders (content : List Char) (lookup : Lookup) :
    Except (List (List Char)) (List Char) :=
  let (out, missing) := fillLoop lookup content [] []
  if missing = [] then .ok out else .error missing

/-! ## Placeholders -/

/-- `p` is a placeholder of a token: the token between double braces, with white space
around it. -/
def IsPlaceholder (token p : List Char) : Prop :=
  isToken token = true ∧ ∃ w₁ w₂ : List Char,
    (∀ c ∈ w₁, isWhitespace c = true) ∧ (∀ c ∈ w₂, isWhitespace c = true) ∧
      p = opening ++ (w₁ ++ (token ++ (w₂ ++ closing)))

/-- A hole in a text. -/
def HasPlaceholder (s : List Char) : Prop :=
  ∃ token p, IsPlaceholder token p ∧ p <:+: s

/-- The token of the placeholder that a text begins with. -/
def placeholderAt (s : List Char) : Option (List Char) :=
  let body := (s.drop 2).dropWhile isWhitespace
  let token := body.takeWhile isTokenChar
  if opening <+: s ∧ token ≠ [] ∧
      closing <+: (body.dropWhile isTokenChar).dropWhile isWhitespace then some token
  else none

/-- The tokens of the placeholders of a text, from left to right. -/
def placeholders : List Char → List (List Char)
  | [] => []
  | c :: s => (placeholderAt (c :: s)).toList ++ placeholders s

/-- The distinct tokens without a value, in the order of their first occurrence. -/
def unresolved (lookup : Lookup) (tokens : List (List Char)) : List (List Char) :=
  (tokens.filter fun token => lookup token = none).eraseDups

/-- `out` is the text with its placeholders replaced by their values. -/
inductive Filled (lookup : Lookup) : List Char → List Char → Prop
  | nil : Filled lookup [] []
  | placeholder {token p value s out : List Char} : IsPlaceholder token p →
      lookup token = some value → Filled lookup s out → Filled lookup (p ++ s) (value ++ out)
  | char {c : Char} {s out : List Char} : placeholderAt (c :: s) = none →
      Filled lookup s out → Filled lookup (c :: s) (c :: out)

def BraceFree (lookup : Lookup) : Prop :=
  ∀ token value, lookup token = some value → '{' ∉ value ∧ '}' ∉ value

/-- What the caller relies on. -/
structure NoHoles (lookup : Lookup) (content : List Char) : Prop where
  noPlaceholder : ∀ out, fillPolicyPlaceholders content lookup = .ok out → ¬ HasPlaceholder out
  filled : ∀ out, fillPolicyPlaceholders content lookup = .ok out → Filled lookup content out
  missing : (∃ token ∈ placeholders content, lookup token = none) →
    fillPolicyPlaceholders content lookup = .error (unresolved lookup (placeholders content))

/-! ## Spans -/

/-- What the scanner finds between the braces that it pairs. -/
def spans (s : List Char) : List (List Char) :=
  match _hopen : Needle.find opening s with
  | none => []
  | some (_, after) =>
    match _hclose : Needle.find closing after with
    | none => []
    | some (inner, rest) => inner :: spans rest
termination_by s.length
decreasing_by exact rest_length _hopen _hclose

/-- The tokens that the scanner reads. -/
def tokensRead (s : List Char) : List (List Char) :=
  ((spans s).map trimChars).filter fun token => isToken token

/-- A span that holds no token is copied although it ends in a placeholder. -/
def Hides (s : List Char) : Prop :=
  ∃ inner ∈ spans s, isToken (trimChars inner) = false ∧
    HasPlaceholder (opening ++ inner ++ closing)

/-! ## Characters -/

theorem isWhitespace_of_isTokenChar {c : Char} (h : isTokenChar c = true) :
    isWhitespace c = false := by
  have hcode : 48 ≤ c.toNat ∧ c.toNat ≤ 57 ∨ 65 ≤ c.toNat ∧ c.toNat ≤ 90 ∨ c.toNat = 95 := by
    rcases (by simpa [isTokenChar] using h : (c.isUpper = true ∨ c.isDigit = true) ∨ c = '_') with
      (hupper | hdigit) | rfl
    · have hletter : (c.val ≥ 'A'.val ∧ c.val ≤ 'Z'.val : Bool) = true := hupper
      right; left
      simpa [UInt32.le_iff_toNat_le] using hletter
    · have hfigure : (c.val ≥ '0'.val && c.val ≤ '9'.val) = true := hdigit
      left
      simpa [UInt32.le_iff_toNat_le] using hfigure
    · exact Or.inr (Or.inr rfl)
  unfold isWhitespace
  simp
  omega

theorem ne_brace_of_isTokenChar {c : Char} (h : isTokenChar c = true) : c ≠ '{' ∧ c ≠ '}' := by
  refine ⟨?_, ?_⟩
  · rintro rfl
    exact absurd h (by decide)
  · rintro rfl
    exact absurd h (by decide)

theorem ne_brace_of_isWhitespace {c : Char} (h : isWhitespace c = true) : c ≠ '{' ∧ c ≠ '}' := by
  refine ⟨?_, ?_⟩
  · rintro rfl
    exact absurd h (by decide)
  · rintro rfl
    exact absurd h (by decide)

theorem isToken_iff {t : List Char} :
    isToken t = true ↔ t ≠ [] ∧ ∀ c ∈ t, isTokenChar c = true := by
  simp [isToken]

/-! ## One placeholder -/

/-- A placeholder has no braces apart from those around it. -/
theorem IsPlaceholder.braces {token p : List Char} (h : IsPlaceholder token p) :
    ∃ body, p = opening ++ (body ++ closing) ∧ '{' ∉ body ∧ '}' ∉ body := by
  obtain ⟨htoken, w₁, w₂, hw₁, hw₂, rfl⟩ := h
  have hbrace : ∀ c ∈ w₁ ++ (token ++ w₂), c ≠ '{' ∧ c ≠ '}' := by
    intro c hc
    rcases List.mem_append.mp hc with hc | hc
    · exact ne_brace_of_isWhitespace (hw₁ c hc)
    rcases List.mem_append.mp hc with hc | hc
    · exact ne_brace_of_isTokenChar ((isToken_iff.mp htoken).2 c hc)
    · exact ne_brace_of_isWhitespace (hw₂ c hc)
  refine ⟨w₁ ++ (token ++ w₂), by simp, ?_, ?_⟩
  · exact fun h => (hbrace _ h).1 rfl
  · exact fun h => (hbrace _ h).2 rfl

theorem IsPlaceholder.opening_prefix {token p : List Char} (h : IsPlaceholder token p) :
    opening <+: p := by
  obtain ⟨body, rfl, -⟩ := h.braces
  exact List.prefix_append _ _

/-- A span whose trimmed text is a token is a placeholder. -/
theorem isPlaceholder_of_trim {inner : List Char} (h : isToken (trimChars inner) = true) :
    IsPlaceholder (trimChars inner) (opening ++ inner ++ closing) := by
  have hdrop : inner.dropWhile isWhitespace =
      trimChars inner ++ (inner.dropWhile isWhitespace).rtakeWhile isWhitespace := by
    unfold trimChars
    generalize inner.dropWhile isWhitespace = l
    rw [List.rdropWhile, List.rtakeWhile, ← List.reverse_append,
      List.takeWhile_append_dropWhile, List.reverse_reverse]
  refine ⟨h, inner.takeWhile isWhitespace, (inner.dropWhile isWhitespace).rtakeWhile isWhitespace,
    ?_, ?_, ?_⟩
  · exact fun c hc => List.mem_takeWhile_imp hc
  · exact fun c hc => List.mem_rtakeWhile_imp hc
  · rw [← List.append_assoc (trimChars inner), ← hdrop, ← List.append_assoc (List.takeWhile _ _),
      List.takeWhile_append_dropWhile, List.append_assoc]

/-- A text that goes on with something else. -/
theorem takeWhile_append_of_head {q : Char → Bool} {l s : List Char} (hl : ∀ c ∈ l, q c = true)
    (hs : ∀ c ∈ s.head?, q c = false) :
    (l ++ s).takeWhile q = l ∧ (l ++ s).dropWhile q = s := by
  rw [List.takeWhile_append_of_pos hl, List.dropWhile_append_of_pos hl]
  cases s with
  | nil => exact ⟨List.append_nil l, rfl⟩
  | cons c s =>
    have hc : q c = false := hs c rfl
    rw [List.takeWhile_cons_of_neg (by simp [hc]), List.dropWhile_cons_of_neg (by simp [hc])]
    exact ⟨List.append_nil l, rfl⟩

theorem isPlaceholder_of_placeholderAt {s token : List Char} (h : placeholderAt s = some token) :
    ∃ p, IsPlaceholder token p ∧ p <+: s := by
  unfold placeholderAt at h
  obtain ⟨⟨hopen, hne, hclose⟩, htoken⟩ := Option.ite_none_right_eq_some.mp h
  obtain ⟨body, rfl⟩ := hopen
  obtain ⟨rest, hrest⟩ := hclose
  have hbody : (opening ++ body).drop 2 = body := rfl
  rw [hbody] at hne hrest htoken
  cases htoken
  refine ⟨_, ⟨?_, body.takeWhile isWhitespace,
    ((body.dropWhile isWhitespace).dropWhile isTokenChar).takeWhile isWhitespace, ?_, ?_, rfl⟩,
    rest, ?_⟩
  · exact isToken_iff.mpr ⟨hne, fun c hc => List.mem_takeWhile_imp hc⟩
  · exact fun c hc => List.mem_takeWhile_imp hc
  · exact fun c hc => List.mem_takeWhile_imp hc
  · simp only [List.append_assoc, hrest, List.takeWhile_append_dropWhile]

theorem placeholderAt_of_isPlaceholder {token p : List Char} (h : IsPlaceholder token p)
    (rest : List Char) : placeholderAt (p ++ rest) = some token := by
  obtain ⟨htoken, w₁, w₂, hw₁, hw₂, rfl⟩ := h
  obtain ⟨hne, hchars⟩ := isToken_iff.mp htoken
  have hbody : (opening ++ (w₁ ++ (token ++ (w₂ ++ closing))) ++ rest).drop 2 =
      w₁ ++ (token ++ (w₂ ++ (closing ++ rest))) := by
    simp [opening]
  have hspace₁ : (w₁ ++ (token ++ (w₂ ++ (closing ++ rest)))).dropWhile isWhitespace =
      token ++ (w₂ ++ (closing ++ rest)) := by
    refine (takeWhile_append_of_head hw₁ ?_).2
    intro c hc
    obtain ⟨d, token', rfl⟩ := List.exists_cons_of_ne_nil hne
    obtain rfl : d = c := Option.some.inj hc
    exact isWhitespace_of_isTokenChar (hchars d List.mem_cons_self)
  have htail := takeWhile_append_of_head hchars (s := w₂ ++ (closing ++ rest)) (by
    intro c hc
    cases w₂ with
    | nil =>
      obtain rfl : '}' = c := Option.some.inj hc
      decide
    | cons d w₂ =>
      obtain rfl : d = c := Option.some.inj hc
      refine Bool.eq_false_iff.mpr fun hd => ?_
      have hspace := hw₂ d List.mem_cons_self
      rw [isWhitespace_of_isTokenChar hd] at hspace
      cases hspace)
  have hspace₂ : (w₂ ++ (closing ++ rest)).dropWhile isWhitespace = closing ++ rest := by
    refine (takeWhile_append_of_head hw₂ ?_).2
    intro c hc
    obtain rfl : '}' = c := Option.some.inj hc
    decide
  unfold placeholderAt
  simp only [hbody, hspace₁, htail.1, htail.2, hspace₂]
  refine if_pos ⟨?_, hne, List.prefix_append _ _⟩
  rw [List.append_assoc]
  exact List.prefix_append _ _

/-- `placeholderAt` finds the placeholders that a text can begin with. -/
theorem placeholderAt_eq_some {s token : List Char} :
    placeholderAt s = some token ↔ ∃ p, IsPlaceholder token p ∧ p <+: s := by
  refine ⟨isPlaceholder_of_placeholderAt, ?_⟩
  rintro ⟨p, hp, rest, rfl⟩
  exact placeholderAt_of_isPlaceholder hp rest

/-! ## The placeholders of a text -/

theorem mem_placeholders {s token : List Char} :
    token ∈ placeholders s ↔ ∃ p, IsPlaceholder token p ∧ p <:+: s := by
  induction s with
  | nil =>
    refine iff_of_false (by simp [placeholders]) ?_
    rintro ⟨p, hp, hinfix⟩
    obtain ⟨body, rfl, -⟩ := hp.braces
    cases List.eq_nil_of_infix_nil hinfix
  | cons c s ih =>
    rw [placeholders, List.mem_append, Option.mem_toList, ih]
    simp only [List.infix_cons_iff, and_or_left, exists_or]
    exact or_congr placeholderAt_eq_some Iff.rfl

theorem hasPlaceholder_iff {s : List Char} : HasPlaceholder s ↔ placeholders s ≠ [] := by
  simp only [HasPlaceholder, ← mem_placeholders]
  refine ⟨?_, List.exists_mem_of_ne_nil _⟩
  rintro ⟨token, htoken⟩
  exact List.ne_nil_of_mem htoken

instance (s : List Char) : Decidable (HasPlaceholder s) :=
  decidable_of_iff _ hasPlaceholder_iff.symm

instance (s : List Char) : Decidable (Hides s) :=
  inferInstanceAs (Decidable (∃ inner ∈ spans s, isToken (trimChars inner) = false ∧
    HasPlaceholder (opening ++ inner ++ closing)))

theorem placeholders_eq_nil {s : List Char} (h : ¬ HasPlaceholder s) : placeholders s = [] :=
  of_not_not fun hne => h (hasPlaceholder_iff.mpr hne)

/-- No placeholder begins where no braces open. -/
theorem placeholderAt_eq_none {s : List Char} (h : ¬ opening <+: s) : placeholderAt s = none :=
  if_neg fun hpair => h hpair.1

/-- Text without opening braces adds no placeholder, whatever follows it. -/
theorem placeholders_append_of_unopened {text : List Char} (s : List Char)
    (h : ¬ opening <:+: text ++ opening.dropLast) :
    placeholders (text ++ s) = placeholders s := by
  induction text with
  | nil => rfl
  | cons c text ih =>
    have hhead : ¬ opening <+: c :: (text ++ s) := by
      intro hopen
      obtain ⟨rfl, hnext⟩ := List.cons_prefix_cons.mp hopen
      apply h
      cases text with
      | nil => exact List.infix_rfl
      | cons d text =>
        obtain ⟨rfl, -⟩ := List.cons_prefix_cons.mp hnext
        exact ⟨[], _, rfl⟩
    rw [List.cons_append, placeholders, placeholderAt_eq_none hhead]
    exact ih fun hinfix => h (List.infix_cons hinfix)

theorem placeholders_append_of_braceless {text : List Char} (s : List Char) (h : '{' ∉ text) :
    placeholders (text ++ s) = placeholders s := by
  induction text with
  | nil => rfl
  | cons c text ih =>
    have hhead : ¬ opening <+: c :: (text ++ s) := by
      intro hopen
      exact h (List.mem_cons.mpr (Or.inl (List.cons_prefix_cons.mp hopen).1))
    rw [List.cons_append, placeholders, placeholderAt_eq_none hhead]
    exact ih fun hmem => h (List.mem_cons_of_mem c hmem)

/-- A placeholder that begins before closing braces ends with them at the latest. -/
theorem IsPlaceholder.prefix_closing {token p text rest : List Char}
    (h : IsPlaceholder token p) (hp : p <+: text ++ (closing ++ rest)) : p <+: text ++ closing := by
  obtain ⟨body, rfl, -, hbody⟩ := h.braces
  have htext : text ++ closing <+: text ++ (closing ++ rest) :=
    (List.prefix_append_right_inj _).mpr (List.prefix_append _ _)
  refine List.prefix_of_prefix_length_le hp htext ?_
  by_contra hlong
  -- otherwise a closing brace would stand inside
  have hbrace : text ++ ['}'] <+: opening ++ body := by
    have hpair : text ++ ['}'] <+: text ++ (closing ++ rest) :=
      (List.prefix_append_right_inj _).mpr ⟨'}' :: rest, rfl⟩
    have hinner : opening ++ body <+: text ++ (closing ++ rest) :=
      (List.prefix_append (opening ++ body) closing).trans (by rwa [List.append_assoc])
    refine List.prefix_of_prefix_length_le hpair hinner ?_
    simp only [List.length_append, closing, List.length_cons, List.length_nil] at hlong ⊢
    omega
  have hmem := hbrace.subset (List.mem_append_right text (List.mem_singleton_self '}'))
  rcases List.mem_append.mp hmem with hmem | hmem
  · exact absurd hmem (by decide)
  · exact hbody hmem

/-- Closing braces separate the placeholders before them from those behind them. -/
theorem placeholders_append_closing (text rest : List Char) :
    placeholders (text ++ (closing ++ rest)) =
      placeholders (text ++ closing) ++ placeholders rest := by
  induction text with
  | nil => exact placeholders_append_of_braceless rest (by decide)
  | cons c text ih =>
    have hhead : placeholderAt (c :: (text ++ (closing ++ rest))) =
        placeholderAt (c :: (text ++ closing)) := by
      apply Option.ext
      intro token
      rw [placeholderAt_eq_some, placeholderAt_eq_some]
      refine ⟨?_, ?_⟩
      · rintro ⟨p, hp, hstart⟩
        have hwhole : p <+: (c :: text) ++ (closing ++ rest) := hstart
        exact ⟨p, hp, hp.prefix_closing hwhole⟩
      · rintro ⟨p, hp, hstart⟩
        refine ⟨p, hp, hstart.trans ⟨rest, ?_⟩⟩
        simp
    rw [List.cons_append, List.cons_append, placeholders, placeholders, hhead, ih,
      List.append_assoc]

/-- Behind a single brace there is no placeholder. -/
theorem placeholders_cons_of_not_mem {c : Char} {s : List Char} (h : '{' ∉ s) :
    placeholders (c :: s) = [] := by
  apply placeholders_eq_nil
  rintro ⟨token, p, hp, hinfix⟩
  have hopen : ['{'] <:+: s :=
    Needle.infix_of_cons_infix_cons (hp.opening_prefix.isInfix.trans hinfix)
  exact h (hopen.subset (List.mem_singleton_self '{'))

/-- A placeholder is the only one in itself. -/
theorem IsPlaceholder.placeholders {token p : List Char} (h : IsPlaceholder token p) :
    placeholders p = [token] := by
  have hself : placeholderAt p = some token := placeholderAt_eq_some.mpr ⟨p, h, List.prefix_rfl⟩
  obtain ⟨body, rfl, hbody, -⟩ := h.braces
  have hend : '{' ∉ body ++ closing := by
    intro hmem
    rcases List.mem_append.mp hmem with hmem | hmem
    · exact hbody hmem
    · exact absurd hmem (by decide)
  calc Placeholders.placeholders (opening ++ (body ++ closing))
      = (placeholderAt (opening ++ (body ++ closing))).toList ++
          Placeholders.placeholders ('{' :: (body ++ closing)) := rfl
    _ = [token] := by rw [hself, placeholders_cons_of_not_mem hend]; rfl

/-- Braces that nothing closes hold no placeholder. -/
theorem placeholders_of_unclosed {s : List Char} (h : ¬ closing <:+: s) :
    placeholders (opening ++ s) = [] := by
  apply placeholders_eq_nil
  rintro ⟨token, p, hp, hinfix⟩
  obtain ⟨body, rfl, -⟩ := hp.braces
  have hbehind : body ++ closing <:+: s :=
    Needle.infix_of_cons_infix_cons (Needle.infix_of_cons_infix_cons hinfix)
  exact h ((List.suffix_append body closing).isInfix.trans hbehind)

theorem placeholders_of_unopened {s : List Char} (h : ¬ opening <:+: s) : placeholders s = [] := by
  apply placeholders_eq_nil
  rintro ⟨token, p, hp, hinfix⟩
  exact h (hp.opening_prefix.isInfix.trans hinfix)

/-! ## One round of the scanner -/

section round

variable {lookup : Lookup} {s before after inner rest : List Char}

theorem spans_of_unopened (hopen : Needle.find opening s = none) : spans s = [] := by
  rw [spans]
  split
  · rfl
  · rename_i h
    rw [hopen] at h
    cases h

theorem spans_of_unclosed (hopen : Needle.find opening s = some (before, after))
    (hclose : Needle.find closing after = none) : spans s = [] := by
  rw [spans]
  split
  · rfl
  · rename_i h
    cases hopen.symm.trans h
    split
    · rfl
    · rename_i h
      rw [hclose] at h
      cases h

theorem spans_cons (hopen : Needle.find opening s = some (before, after))
    (hclose : Needle.find closing after = some (inner, rest)) :
    spans s = inner :: spans rest := by
  rw [spans]
  split
  · rename_i h
    rw [hopen] at h
    cases h
  · rename_i h
    cases hopen.symm.trans h
    split
    · rename_i h
      rw [hclose] at h
      cases h
    · rename_i h
      cases hclose.symm.trans h
      rfl

/-- Where a round splits the text. -/
theorem eq_of_find (hopen : Needle.find opening s = some (before, after))
    (hclose : Needle.find closing after = some (inner, rest)) :
    s = before ++ (opening ++ inner ++ (closing ++ rest)) := by
  rw [(Needle.find_eq_some opening_ne_nil hopen).1,
    (Needle.find_eq_some closing_ne_nil hclose).1, List.append_assoc]

/-- What is in front of a span adds no placeholder. -/
theorem placeholders_before (hopen : Needle.find opening s = some (before, after))
    (text : List Char) : placeholders (before ++ text) = placeholders text :=
  placeholders_append_of_unopened text (Needle.find_eq_some opening_ne_nil hopen).2

/-- What the loop writes for a span. -/
def fillSpan (lookup : Lookup) (inner : List Char) : List Char :=
  if isToken (trimChars inner) then (lookup (trimChars inner)).getD []
  else opening ++ inner ++ closing

/-- What the loop notes at a span. -/
def noteSpan (lookup : Lookup) (missing : List (List Char)) (inner : List Char) :
    List (List Char) :=
  if isToken (trimChars inner) = true ∧ lookup (trimChars inner) = none ∧
      trimChars inner ∉ missing then missing ++ [trimChars inner]
  else missing

theorem fillLoop_of_unopened (hopen : Needle.find opening s = none) (out : List Char)
    (missing : List (List Char)) : fillLoop lookup s out missing = (out ++ s, missing) := by
  rw [fillLoop]
  split
  · rfl
  · rename_i h
    rw [hopen] at h
    cases h

theorem fillLoop_of_unclosed (hopen : Needle.find opening s = some (before, after))
    (hclose : Needle.find closing after = none) (out : List Char) (missing : List (List Char)) :
    fillLoop lookup s out missing = (out ++ before ++ (opening ++ after), missing) := by
  rw [fillLoop]
  split
  · rename_i h
    rw [hopen] at h
    cases h
  · rename_i h
    cases hopen.symm.trans h
    split
    · rfl
    · rename_i h
      rw [hclose] at h
      cases h

theorem fillLoop_span (hopen : Needle.find opening s = some (before, after))
    (hclose : Needle.find closing after = some (inner, rest)) (out : List Char)
    (missing : List (List Char)) :
    fillLoop lookup s out missing =
      fillLoop lookup rest (out ++ before ++ fillSpan lookup inner)
        (noteSpan lookup missing inner) := by
  rw [fillLoop]
  split
  · rename_i h
    rw [hopen] at h
    cases h
  · rename_i h
    cases hopen.symm.trans h
    split
    · rename_i h
      rw [hclose] at h
      cases h
    · rename_i h
      cases hclose.symm.trans h
      unfold fillSpan noteSpan
      cases htoken : isToken (trimChars inner) with
      | false => simp [htoken]
      | true =>
        cases hlookup : lookup (trimChars inner) with
        | some value => simp [htoken, hlookup]
        | none =>
          by_cases hmem : trimChars inner ∈ missing
          · simp [htoken, hlookup, hmem]
          · simp [htoken, hlookup, hmem]

end round

/-! ## All rounds -/

/-- What the loop writes for a text. -/
def filling (lookup : Lookup) (s : List Char) : List Char := (fillLoop lookup s [] []).1

theorem fillLoop_fst (lookup : Lookup) (s out : List Char) (missing : List (List Char)) :
    (fillLoop lookup s out missing).1 = out ++ filling lookup s := by
  induction s using spans.induct generalizing out missing with
  | case1 s hopen =>
    rw [filling, fillLoop_of_unopened hopen, fillLoop_of_unopened hopen, List.nil_append]
  | case2 s before after hopen hclose =>
    rw [filling, fillLoop_of_unclosed hopen hclose, fillLoop_of_unclosed hopen hclose]
    simp
  | case3 s before after hopen inner rest hclose ih =>
    rw [filling, fillLoop_span hopen hclose, fillLoop_span hopen hclose, ih, ih]
    simp

theorem filling_span {lookup : Lookup} {s before after inner rest : List Char}
    (hopen : Needle.find opening s = some (before, after))
    (hclose : Needle.find closing after = some (inner, rest)) :
    filling lookup s = before ++ (fillSpan lookup inner ++ filling lookup rest) := by
  rw [filling, fillLoop_span hopen hclose, fillLoop_fst, List.nil_append, List.append_assoc]

theorem filling_of_unread {lookup : Lookup} {s : List Char}
    (h : Needle.find opening s = none ∨
      ∃ before after, Needle.find opening s = some (before, after) ∧
        Needle.find closing after = none) :
    filling lookup s = s := by
  rcases h with hopen | ⟨before, after, hopen, hclose⟩
  · rw [filling, fillLoop_of_unopened hopen, List.nil_append]
  · rw [filling, fillLoop_of_unclosed hopen hclose, List.nil_append]
    exact (Needle.find_eq_some opening_ne_nil hopen).1.symm

theorem tokensRead_span {s before after inner rest : List Char}
    (hopen : Needle.find opening s = some (before, after))
    (hclose : Needle.find closing after = some (inner, rest)) :
    tokensRead s =
      (if isToken (trimChars inner) then [trimChars inner] else []) ++ tokensRead rest := by
  rw [tokensRead, spans_cons hopen hclose, List.map_cons, List.filter_cons]
  split_ifs
  · rfl
  · rfl

/-- One more token. -/
theorem unresolved_concat (lookup : Lookup) (seen : List (List Char)) (token : List Char) :
    unresolved lookup (seen ++ [token]) =
      if lookup token = none ∧ token ∉ unresolved lookup seen then
        unresolved lookup seen ++ [token]
      else unresolved lookup seen := by
  unfold unresolved
  rw [List.filter_append, List.eraseDups_append]
  cases hlookup : lookup token with
  | some value => simp [hlookup]
  | none =>
    by_cases hmem : token ∈ seen
    · simp [hlookup, hmem, List.removeAll]
    · simp [hlookup, hmem, List.removeAll, List.eraseDups_cons]

/-- The loop notes the tokens that it reads and the lookup does not know. -/
theorem fillLoop_snd (lookup : Lookup) (s out : List Char) (seen : List (List Char)) :
    (fillLoop lookup s out (unresolved lookup seen)).2 =
      unresolved lookup (seen ++ tokensRead s) := by
  induction s using spans.induct generalizing out seen with
  | case1 s hopen =>
    rw [fillLoop_of_unopened hopen, tokensRead, spans_of_unopened hopen]
    simp
  | case2 s before after hopen hclose =>
    rw [fillLoop_of_unclosed hopen hclose, tokensRead, spans_of_unclosed hopen hclose]
    simp
  | case3 s before after hopen inner rest hclose ih =>
    have hnote : ∃ seen', noteSpan lookup (unresolved lookup seen) inner = unresolved lookup seen' ∧
        seen ++ tokensRead s = seen' ++ tokensRead rest := by
      rw [tokensRead_span hopen hclose]
      cases htoken : isToken (trimChars inner) with
      | false => exact ⟨seen, by simp [noteSpan, htoken], by simp⟩
      | true => exact ⟨seen ++ [trimChars inner], by simp [noteSpan, htoken, unresolved_concat],
          by simp⟩
    obtain ⟨seen', hnoted, hread⟩ := hnote
    rw [fillLoop_span hopen hclose, hnoted, ih, hread]

/-- What the code returns. -/
theorem fillPolicyPlaceholders_eq (lookup : Lookup) (content : List Char) :
    fillPolicyPlaceholders content lookup =
      if unresolved lookup (tokensRead content) = [] then .ok (filling lookup content)
      else .error (unresolved lookup (tokensRead content)) := by
  have hmissing : (fillLoop lookup content [] []).2 = unresolved lookup (tokensRead content) :=
    fillLoop_snd lookup content [] []
  rw [← hmissing]
  rfl

/-! ## Placeholders by spans -/

/-- The scanner passes over no placeholder outside its spans. -/
theorem placeholders_eq (s : List Char) :
    placeholders s = (spans s).flatMap fun inner => placeholders (opening ++ inner ++ closing) := by
  induction s using spans.induct with
  | case1 s hopen =>
    rw [spans_of_unopened hopen, placeholders_of_unopened (Needle.find_eq_none hopen)]
    rfl
  | case2 s before after hopen hclose =>
    rw [spans_of_unclosed hopen hclose, (Needle.find_eq_some opening_ne_nil hopen).1,
      placeholders_before hopen, placeholders_of_unclosed (Needle.find_eq_none hclose)]
    rfl
  | case3 s before after hopen inner rest hclose ih =>
    rw [spans_cons hopen hclose, List.flatMap_cons, ← ih, eq_of_find hopen hclose,
      placeholders_before hopen, placeholders_append_closing]

theorem tokensRead_eq (s : List Char) :
    tokensRead s = (spans s).flatMap fun inner =>
      if isToken (trimChars inner) then [trimChars inner] else [] := by
  unfold tokensRead
  induction spans s with
  | nil => rfl
  | cons inner inners ih =>
    rw [List.map_cons, List.filter_cons, List.flatMap_cons, ← ih]
    split_ifs
    · rfl
    · rfl

/-- A token that the scanner reads is one of a placeholder. -/
theorem mem_placeholders_of_mem_tokensRead {s token : List Char} (h : token ∈ tokensRead s) :
    token ∈ placeholders s := by
  obtain ⟨hspan, htoken⟩ := List.mem_filter.mp h
  obtain ⟨inner, hinner, rfl⟩ := List.mem_map.mp hspan
  rw [placeholders_eq]
  refine List.mem_flatMap.mpr ⟨inner, hinner, ?_⟩
  rw [(isPlaceholder_of_trim htoken).placeholders]
  exact List.mem_singleton_self _

/-- Without a hidden one the scanner reads every placeholder. -/
theorem tokensRead_of_not_hides {s : List Char} (h : ¬ Hides s) :
    tokensRead s = placeholders s := by
  rw [tokensRead_eq, placeholders_eq]
  refine List.flatMap_congr ?_
  intro inner hinner
  cases htoken : isToken (trimChars inner) with
  | true => exact (isPlaceholder_of_trim htoken).placeholders.symm
  | false => exact (placeholders_eq_nil fun hhole => h ⟨inner, hinner, htoken, hhole⟩).symm

/-! ## What is published -/

/-- A span that is copied stands in the output. -/
theorem copied_infix_filling {lookup : Lookup} {s inner : List Char} (hinner : inner ∈ spans s)
    (htoken : isToken (trimChars inner) = false) :
    opening ++ inner ++ closing <:+: filling lookup s := by
  induction s using spans.induct with
  | case1 s hopen =>
    rw [spans_of_unopened hopen] at hinner
    cases hinner
  | case2 s before after hopen hclose =>
    rw [spans_of_unclosed hopen hclose] at hinner
    cases hinner
  | case3 s before after hopen inner' rest hclose ih =>
    rw [spans_cons hopen hclose] at hinner
    rw [filling_span hopen hclose]
    rcases List.mem_cons.mp hinner with rfl | hinner
    · have hcopy : fillSpan lookup inner = opening ++ inner ++ closing := by
        rw [fillSpan, htoken]
        rfl
      rw [hcopy]
      exact List.infix_append' _ _ _
    · exact List.infix_append_of_infix_right (List.infix_append_of_infix_right (ih hinner))

theorem hasPlaceholder_filling {lookup : Lookup} {s : List Char} (h : Hides s) :
    HasPlaceholder (filling lookup s) := by
  obtain ⟨inner, hinner, htoken, token, p, hp, hinfix⟩ := h
  exact ⟨token, p, hp, hinfix.trans (copied_infix_filling hinner htoken)⟩

theorem hides_span {s before after inner rest : List Char}
    (hopen : Needle.find opening s = some (before, after))
    (hclose : Needle.find closing after = some (inner, rest)) :
    Hides s ↔ (isToken (trimChars inner) = false ∧ HasPlaceholder (opening ++ inner ++ closing)) ∨
      Hides rest := by
  unfold Hides
  rw [spans_cons hopen hclose]
  exact List.exists_mem_cons_iff _ _ _

/-- The output of a text that hides no placeholder. -/
theorem placeholders_filling {lookup : Lookup} (hlookup : BraceFree lookup) {s : List Char}
    (h : ¬ Hides s) : placeholders (filling lookup s) = [] := by
  induction s using spans.induct with
  | case1 s hopen =>
    rw [filling_of_unread (Or.inl hopen), placeholders_of_unopened (Needle.find_eq_none hopen)]
  | case2 s before after hopen hclose =>
    rw [filling_of_unread (Or.inr ⟨before, after, hopen, hclose⟩), placeholders_eq,
      spans_of_unclosed hopen hclose]
    rfl
  | case3 s before after hopen inner rest hclose ih =>
    rw [hides_span hopen hclose, not_or] at h
    rw [filling_span hopen hclose, placeholders_before hopen]
    unfold fillSpan
    split_ifs with htoken
    · have hvalue : '{' ∉ (lookup (trimChars inner)).getD [] := by
        cases hvalue : lookup (trimChars inner) with
        | none => exact List.not_mem_nil
        | some value => exact (hlookup _ _ hvalue).1
      rw [placeholders_append_of_braceless _ hvalue, ih h.2]
    · have hcopied : placeholders (opening ++ inner ++ closing) = [] :=
        placeholders_eq_nil fun hhole => h.1 ⟨eq_false_of_ne_true htoken, hhole⟩
      rw [List.append_assoc, placeholders_append_closing, hcopied, ih h.2]
      rfl

/-- A text keeps the placeholders behind it. -/
theorem placeholders_suffix (text s : List Char) : placeholders s <:+ placeholders (text ++ s) := by
  induction text with
  | nil => exact List.suffix_rfl
  | cons c text ih => exact ih.trans (List.suffix_append _ _)

/-- Text between placeholders is copied. -/
theorem Filled.text {lookup : Lookup} {text s out : List Char}
    (h : placeholders (text ++ s) = placeholders s) (hs : Filled lookup s out) :
    Filled lookup (text ++ s) (text ++ out) := by
  induction text with
  | nil => exact hs
  | cons c text ih =>
    rw [List.cons_append, Placeholders.placeholders] at h
    have hsuffix := placeholders_suffix text s
    have hlength := congrArg List.length h
    rw [List.length_append] at hlength
    have hnone : placeholderAt (c :: (text ++ s)) = none := by
      have hle := hsuffix.length_le
      rw [← Option.toList_eq_nil_iff, ← List.length_eq_zero_iff]
      omega
    rw [hnone] at h
    exact Filled.char hnone (ih h)

/-- A text without a placeholder is its own filling. -/
theorem Filled.self {lookup : Lookup} {s : List Char} (h : placeholders s = []) :
    Filled lookup s s := by
  have htext : Filled lookup (s ++ []) (s ++ []) :=
    Filled.text (by rw [List.append_nil, h]; rfl) Filled.nil
  rwa [List.append_nil] at htext

theorem filled_filling {lookup : Lookup} {s : List Char} (h : ¬ Hides s)
    (hresolved : ∀ token ∈ tokensRead s, lookup token ≠ none) :
    Filled lookup s (filling lookup s) := by
  induction s using spans.induct with
  | case1 s hopen =>
    rw [filling_of_unread (Or.inl hopen)]
    exact Filled.self (placeholders_of_unopened (Needle.find_eq_none hopen))
  | case2 s before after hopen hclose =>
    rw [filling_of_unread (Or.inr ⟨before, after, hopen, hclose⟩)]
    exact Filled.self (by rw [placeholders_eq, spans_of_unclosed hopen hclose]; rfl)
  | case3 s before after hopen inner rest hclose ih =>
    rw [hides_span hopen hclose, not_or] at h
    rw [tokensRead_span hopen hclose] at hresolved
    have hrest := ih h.2 fun token htoken => hresolved token (List.mem_append_right _ htoken)
    rw [filling_span hopen hclose, eq_of_find hopen hclose, ← List.append_assoc _ closing]
    refine Filled.text (placeholders_before hopen _) ?_
    unfold fillSpan
    split_ifs with htoken
    · obtain ⟨value, hvalue⟩ := Option.ne_none_iff_exists'.mp
        (hresolved (trimChars inner) (by simp [htoken]))
      rw [hvalue]
      exact Filled.placeholder (isPlaceholder_of_trim htoken) hvalue hrest
    · have hcopied : placeholders (opening ++ inner ++ closing) = [] :=
        placeholders_eq_nil fun hhole => h.1 ⟨eq_false_of_ne_true htoken, hhole⟩
      refine Filled.text ?_ hrest
      rw [List.append_assoc, placeholders_append_closing, hcopied]
      rfl

theorem unresolved_eq_nil {lookup : Lookup} {tokens : List (List Char)} :
    unresolved lookup tokens = [] ↔ ∀ token ∈ tokens, lookup token ≠ none := by
  simp only [List.eq_nil_iff_forall_not_mem, unresolved, List.mem_eraseDups, List.mem_filter,
    decide_eq_true_eq, not_and]

/-! ## For which policies -/

/-- A call that fails is judged by the tokens that it reports. -/
theorem noHoles_iff_of_error {lookup : Lookup} {content : List Char} {missing : List (List Char)}
    (h : fillPolicyPlaceholders content lookup = .error missing)
    (hneeded : ∃ token ∈ placeholders content, lookup token = none) :
    NoHoles lookup content ↔ missing = unresolved lookup (placeholders content) := by
  refine ⟨fun hholes => Except.error.inj (h.symm.trans (hholes.missing hneeded)), ?_⟩
  rintro rfl
  refine ⟨?_, ?_, fun _ => h⟩
  · intro out hout
    cases h.symm.trans hout
  · intro out hout
    cases h.symm.trans hout

/-- A token that is reported has a placeholder. -/
theorem exists_unresolved {lookup : Lookup} {content : List Char}
    (h : unresolved lookup (tokensRead content) ≠ []) :
    ∃ token ∈ placeholders content, lookup token = none := by
  by_contra hall
  refine h (unresolved_eq_nil.mpr fun token htoken hnone => hall ⟨token, ?_, hnone⟩)
  exact mem_placeholders_of_mem_tokensRead htoken

theorem noHoles_of_not_hides {lookup : Lookup} (hlookup : BraceFree lookup) {content : List Char}
    (h : ¬ Hides content) : NoHoles lookup content := by
  have hread := tokensRead_of_not_hides h
  have hcode := fillPolicyPlaceholders_eq lookup content
  by_cases hopen : unresolved lookup (tokensRead content) = []
  · rw [if_pos hopen] at hcode
    refine ⟨?_, ?_, ?_⟩
    · intro out hout
      cases hcode.symm.trans hout
      exact fun hhole => hasPlaceholder_iff.mp hhole (placeholders_filling hlookup h)
    · intro out hout
      cases hcode.symm.trans hout
      exact filled_filling h (unresolved_eq_nil.mp hopen)
    · rintro ⟨token, htoken, hnone⟩
      exact absurd hnone (unresolved_eq_nil.mp hopen token (hread ▸ htoken))
  · rw [if_neg hopen] at hcode
    rw [noHoles_iff_of_error hcode (exists_unresolved hopen), hread]

/-- With a hidden placeholder only a lookup that leaves another token open is safe. -/
theorem noHoles_iff_of_hides {lookup : Lookup} {content : List Char} (h : Hides content) :
    NoHoles lookup content ↔
      unresolved lookup (tokensRead content) ≠ [] ∧
        unresolved lookup (tokensRead content) = unresolved lookup (placeholders content) := by
  have hcode := fillPolicyPlaceholders_eq lookup content
  by_cases hopen : unresolved lookup (tokensRead content) = []
  · rw [if_pos hopen] at hcode
    refine iff_of_false ?_ (fun hboth => hboth.1 hopen)
    intro hholes
    exact hholes.noPlaceholder _ hcode (hasPlaceholder_filling h)
  · rw [if_neg hopen] at hcode
    rw [noHoles_iff_of_error hcode (exists_unresolved hopen)]
    exact ⟨fun hsame => ⟨hopen, hsame⟩, And.right⟩

/-- With brace-free values nothing is published with a hole exactly where no span that
is copied hides a placeholder; a lookup gets away with a hidden one only where it
leaves another token open, and reports the same tokens without it. -/
theorem noHoles_iff (content : List Char) :
    ((∀ lookup, BraceFree lookup → NoHoles lookup content) ↔ ¬ Hides content) ∧
      ∀ lookup, BraceFree lookup →
        (NoHoles lookup content ↔
          (Hides content → unresolved lookup (tokensRead content) ≠ [] ∧
            unresolved lookup (tokensRead content) =
              unresolved lookup (placeholders content))) := by
  refine ⟨⟨?_, ?_⟩, ?_⟩
  · intro hall hhides
    -- a lookup that resolves everything
    have hfree : BraceFree fun _ => some [] := by
      rintro token value ⟨⟩
      exact ⟨List.not_mem_nil, List.not_mem_nil⟩
    obtain ⟨hopen, -⟩ := (noHoles_iff_of_hides hhides).mp (hall _ hfree)
    exact hopen (unresolved_eq_nil.mpr fun token _ hnone => by cases hnone)
  · intro h lookup hlookup
    exact noHoles_of_not_hides hlookup h
  · intro lookup hlookup
    by_cases hhides : Hides content
    · rw [noHoles_iff_of_hides hhides]
      exact ⟨fun h _ => h, fun h => h hhides⟩
    · exact iff_of_true (noHoles_of_not_hides hlookup hhides) fun h => absurd h hhides

/-! ## Three braces -/

/-- An operator without a registration number. -/
def operator : Lookup := fun token =>
  if token = "OPERATOR_NAME".toList then some "Acme Ltda.".toList
  else if token = "CONTACT_EMAIL".toList then some "privacidade@example.com".toList
  else none

theorem operator_braceFree : BraceFree operator := by
  intro token value h
  unfold operator at h
  split_ifs at h
  · cases h
    decide
  · cases h
    decide

/-- A text between double braces. -/
def braced (s : String) : List Char := opening ++ s.toList ++ closing

/-- The registration number between three braces. -/
def tripled : List Char := '{' :: (braced "OPERATOR_CNPJ" ++ ['}'])

/-- A name behind braces that are not closed. -/
def unclosed : List Char := opening ++ "not ".toList ++ braced "OPERATOR_NAME"

/-- Braces around other text are copied, and a hidden placeholder that also stands in
the open is reported. -/
theorem noHoles_operator :
    NoHoles operator ("By ".toList ++ braced "OPERATOR_NAME" ++ " (".toList ++
        braced " CONTACT_EMAIL " ++ "), ".toList ++ braced "not one" ++ opening) ∧
      NoHoles operator (tripled ++ braced "OPERATOR_CNPJ") := by
  refine ⟨(noHoles_iff _).1.mpr (by decide +kernel) operator operator_braceFree, ?_⟩
  refine ((noHoles_iff _).2 operator operator_braceFree).mpr ?_
  intro _
  decide +kernel

/-- A third brace publishes a placeholder, whether its token is resolved or not. -/
theorem not_noHoles :
    BraceFree operator ∧
      operator "OPERATOR_CNPJ".toList = none ∧
      fillPolicyPlaceholders tripled operator = .ok tripled ∧ ¬ NoHoles operator tripled ∧
      fillPolicyPlaceholders unclosed operator = .ok unclosed ∧ ¬ NoHoles operator unclosed := by
  have htripled : fillPolicyPlaceholders tripled operator = .ok tripled := by
    decide +kernel
  have hunclosed : fillPolicyPlaceholders unclosed operator = .ok unclosed := by
    decide +kernel
  refine ⟨operator_braceFree, by decide, htripled, ?_, hunclosed, ?_⟩
  · intro h
    exact h.noPlaceholder _ htripled (by decide +kernel)
  · intro h
    exact h.noPlaceholder _ hunclosed (by decide +kernel)

end BikesNest.Privacy.Placeholders
