import BikesNest.Domain.Text
import BikesNest.Lib.Jaccard

/-!
# Similar names

`fold` and `trigram_similarity`, with which a submission is compared with the
locations around it: names are lower-cased character by character and compared by
their groups of three characters.  The comment on `trigram_similarity` promises a
comparison that is case and diacritic folded.

`ignoresForms_iff` says for which pairs of names that is so: where no character
of the folded names carries a diacritic, and where a final sigma in upper case
changes no group.

Unicode's tables are the parameter `Unicode`, with the laws that the proofs use.
The similarity is a quotient of two counts; the one of `f64` differs from the
exact one by rounding, and is one just where the counts are equal.
-/

namespace BikesNest.Community

/-! ## Characters -/

/-- The tables of Unicode. -/
structure Unicode where
  /-- `char::to_lowercase` -/
  lower : Char → List Char
  /-- The canonical decomposition of a character without its nonspacing marks. -/
  strip : Char → List Char
  isCased : Char → Bool
  isCaseIgnorable : Char → Bool
  lower_ne_nil : ∀ c, lower c ≠ []
  lower_idem : ∀ c, (lower c).flatMap lower = lower c
  lower_sigma : lower 'Σ' = ['σ']
  lower_finalSigma : lower 'ς' = ['ς']
  /-- Lower-casing what is stripped brings no diacritic back. -/
  strip_lower_strip : ∀ c, ∀ d ∈ strip c, ∀ e ∈ lower d, strip e = [e]
  /-- A character whose lower case has no diacritic loses nothing else. -/
  lower_strip : ∀ c, (∀ e ∈ lower c, strip e = [e]) → (strip c).flatMap lower = lower c

namespace Unicode

variable (U : Unicode)

/-- The name without its accents. -/
def accentStripped (s : List Char) : List Char := s.flatMap U.strip

/-- `case_ignorable_then_cased` -/
def caseIgnorableThenCased (s : List Char) : Bool :=
  match s.dropWhile U.isCaseIgnorable with
  | [] => false
  | c :: _ => U.isCased c

/-- The lower case of a sigma between the reversed text before it and the text
after it. -/
def sigma (before after : List Char) : Char :=
  if U.caseIgnorableThenCased before && !U.caseIgnorableThenCased after then 'ς' else 'σ'

/-- The loop of `str::to_lowercase`. -/
def lowercaseAfter : List Char → List Char → List Char
  | _, [] => []
  | before, c :: rest =>
    (if c = 'Σ' then [U.sigma before rest] else U.lower c) ++ lowercaseAfter (c :: before) rest

/-- `str::to_lowercase` -/
def toLowercase (s : List Char) : List Char := U.lowercaseAfter [] s

end Unicode

/-! ## The comparison -/

/-- `fold`. -/
def fold (U : Unicode) (s : List Char) : List Char := s.flatMap U.lower

/-- `windows(3)` -/
def windows : List Char → List (List Char)
  | a :: b :: c :: rest => [a, b, c] :: windows (b :: c :: rest)
  | _ => []

/-- The groups of a text: a short one is a group of its own. -/
def grams (s : List Char) : Finset (List Char) :=
  if s.length < 3 then {s} else (windows s).toFinset

/-- `trigram_similarity`. -/
def trigramSimilarity (U : Unicode) (a b : List Char) : Rat :=
  let a := fold U a
  let b := fold U b
  if a = [] ∨ b = [] then 0
  else
    let inter := (grams a ∩ grams b).card
    let union := (grams a ∪ grams b).card
    if union = 0 then 0 else inter / union

/-! ## What the comparison should ignore -/

/-- A name after case folding and removal of diacritics. -/
def bareFold (U : Unicode) (s : List Char) : List Char := U.accentStripped (fold U s)

/-- The comparison of two names is symmetric and within its bounds, it is one
for names that are equal up to case and accents, and writing either name in lower
case or without accents changes no comparison. -/
structure IgnoresForms (U : Unicode) (a b : List Char) : Prop where
  symmetric : trigramSimilarity U a b = trigramSimilarity U b a
  bounds : 0 ≤ trigramSimilarity U a b ∧ trigramSimilarity U a b ≤ 1
  same : a ≠ [] → b ≠ [] → bareFold U a = bareFold U b → trigramSimilarity U a b = 1
  forms : ∀ x ∈ [a, b], ∀ form ∈ [U.toLowercase x, U.accentStripped x], ∀ other,
    trigramSimilarity U form other = trigramSimilarity U x other ∧
      trigramSimilarity U other form = trigramSimilarity U other x

/-- No character of the folded name carries a diacritic, and the final sigmas of
its lower case are in its groups anyway. -/
def IsPlain (U : Unicode) (s : List Char) : Prop :=
  (∀ c ∈ fold U s, U.strip c = [c]) ∧ grams (U.toLowercase s) = grams (fold U s)

/-! ## Groups -/

theorem exists_mem_windows {s : List Char} (hlength : 3 ≤ s.length) {x : Char} (hx : x ∈ s) :
    ∃ g ∈ windows s, x ∈ g := by
  induction s using windows.induct with
  | case1 a b c rest ih =>
    by_cases hfirst : x ∈ [a, b, c]
    · exact ⟨[a, b, c], List.mem_cons_self, hfirst⟩
    · have hrest : x ∈ rest := by
        simp only [List.mem_cons, List.not_mem_nil, or_false, not_or] at hfirst
        simpa [hfirst.1, hfirst.2.1, hfirst.2.2] using hx
      have hlength : 3 ≤ (b :: c :: rest).length := by
        have hpos := List.length_pos_of_mem hrest
        simp only [List.length_cons]
        omega
      obtain ⟨g, hg, hxg⟩ := ih hlength (by simp [hrest])
      exact ⟨g, List.mem_cons_of_mem _ hg, hxg⟩
  | case2 s hshort =>
    rcases s with _ | ⟨a, _ | ⟨b, _ | ⟨c, rest⟩⟩⟩
    · simp at hlength
    · simp at hlength
    · simp at hlength
    · exact absurd rfl (hshort a b c rest)

theorem mem_of_mem_windows {s g : List Char} (hg : g ∈ windows s) {x : Char} (hx : x ∈ g) :
    x ∈ s := by
  induction s using windows.induct with
  | case1 a b c rest ih =>
    rcases List.mem_cons.mp hg with rfl | hg
    · simp only [List.mem_cons, List.not_mem_nil, or_false] at hx
      rcases hx with rfl | rfl | rfl
      · exact List.mem_cons_self
      · simp
      · simp
    · exact List.mem_cons_of_mem a (ih hg)
  | case2 s hshort =>
    rw [windows.eq_2 s hshort] at hg
    cases hg

/-- Every character of a text is in one of its groups. -/
theorem exists_mem_grams {s : List Char} {x : Char} (hx : x ∈ s) : ∃ g ∈ grams s, x ∈ g := by
  unfold grams
  split_ifs with hlength
  · exact ⟨s, Finset.mem_singleton_self s, hx⟩
  · obtain ⟨g, hg, hxg⟩ := exists_mem_windows (not_lt.mp hlength) hx
    exact ⟨g, List.mem_toFinset.mpr hg, hxg⟩

theorem mem_of_mem_grams {s g : List Char} (hg : g ∈ grams s) {x : Char} (hx : x ∈ g) :
    x ∈ s := by
  unfold grams at hg
  split_ifs at hg
  · rwa [Finset.mem_singleton.mp hg] at hx
  · exact mem_of_mem_windows (List.mem_toFinset.mp hg) hx

theorem grams_nonempty (s : List Char) : (grams s).Nonempty := by
  unfold grams
  split_ifs with hlength
  · exact Finset.singleton_nonempty s
  · cases s with
    | nil => exact absurd (by simp) hlength
    | cons x s =>
      obtain ⟨g, hg, -⟩ := exists_mem_windows (not_lt.mp hlength) (List.mem_cons_self (a := x))
      exact ⟨g, List.mem_toFinset.mpr hg⟩

/-! ## The similarity as a similarity of sets -/

/-- The groups that a name is compared by; the empty name has none. -/
def groups (U : Unicode) (s : List Char) : Finset (List Char) :=
  if fold U s = [] then ∅ else grams (fold U s)

variable {U : Unicode}

theorem trigramSimilarity_eq (a b : List Char) :
    trigramSimilarity U a b = jaccard (groups U a) (groups U b) := by
  unfold trigramSimilarity groups jaccard
  dsimp only
  by_cases ha : fold U a = []
  · simp [ha]
  · by_cases hb : fold U b = []
    · simp [hb]
    · have hunion : (grams (fold U a) ∪ grams (fold U b)).card ≠ 0 :=
        Finset.card_ne_zero.mpr ((grams_nonempty _).mono Finset.subset_union_left)
      rw [if_neg (by simp [ha, hb]), if_neg hunion, if_neg ha, if_neg hb]

theorem fold_eq_nil_iff {s : List Char} : fold U s = [] ↔ s = [] := by
  cases s with
  | nil => exact iff_of_true rfl rfl
  | cons c s => simp [fold, U.lower_ne_nil c]

theorem groups_of_ne_nil {s : List Char} (h : s ≠ []) : groups U s = grams (fold U s) :=
  if_neg (mt fold_eq_nil_iff.mp h)

/-- Writing a name in another form changes no comparison where its groups stay. -/
theorem forms_iff {x form : List Char} :
    (∀ other, trigramSimilarity U form other = trigramSimilarity U x other ∧
      trigramSimilarity U other form = trigramSimilarity U other x) ↔
      groups U form = groups U x := by
  simp only [trigramSimilarity_eq]
  refine ⟨?_, fun h other => by rw [h]; exact ⟨rfl, rfl⟩⟩
  intro h
  exact (eq_of_jaccard_eq (h x).1 (h form).1.symm).symm

/-! ## Forms of a name -/

theorem fold_append (s t : List Char) : fold U (s ++ t) = fold U s ++ fold U t :=
  List.flatMap_append

theorem fold_lowercaseAfter (before s : List Char) :
    fold U (U.lowercaseAfter before s) = U.lowercaseAfter before s := by
  induction s generalizing before with
  | nil => rfl
  | cons c s ih =>
    unfold Unicode.lowercaseAfter
    rw [fold_append, ih]
    congr 1
    split_ifs
    · unfold Unicode.sigma
      split_ifs
      · simp [fold, U.lower_finalSigma]
      · have hsmall : U.lower 'σ' = ['σ'] := by
          have hidem := U.lower_idem 'Σ'
          rwa [U.lower_sigma, List.flatMap_singleton] at hidem
        simp [fold, hsmall]
    · exact U.lower_idem c

/-- What is in lower case stays as it is. -/
theorem fold_toLowercase (s : List Char) : fold U (U.toLowercase s) = U.toLowercase s :=
  fold_lowercaseAfter [] s

theorem toLowercase_eq_nil_iff {s : List Char} : U.toLowercase s = [] ↔ s = [] := by
  cases s with
  | nil => exact iff_of_true rfl rfl
  | cons c s =>
    refine iff_of_false ?_ (by simp)
    unfold Unicode.toLowercase Unicode.lowercaseAfter
    split_ifs
    · simp
    · simp [U.lower_ne_nil c]

/-- Lower case keeps the groups exactly where it keeps those of the folded name. -/
theorem groups_toLowercase_iff (s : List Char) :
    groups U (U.toLowercase s) = groups U s ↔ grams (U.toLowercase s) = grams (fold U s) := by
  by_cases hs : s = []
  · subst hs
    exact iff_of_true rfl rfl
  · rw [groups_of_ne_nil hs, groups_of_ne_nil (mt toLowercase_eq_nil_iff.mp hs), fold_toLowercase]

theorem strip_fold_accentStripped {s : List Char} {c : Char}
    (hc : c ∈ fold U (U.accentStripped s)) : U.strip c = [c] := by
  obtain ⟨d, hd, hc⟩ := List.mem_flatMap.mp hc
  obtain ⟨e, -, hd⟩ := List.mem_flatMap.mp hd
  exact U.strip_lower_strip e d hd c hc

theorem fold_accentStripped {s : List Char} (h : ∀ c ∈ fold U s, U.strip c = [c]) :
    fold U (U.accentStripped s) = fold U s := by
  induction s with
  | nil => rfl
  | cons c s ih =>
    have hc : ∀ d ∈ U.lower c, U.strip d = [d] := fun d hd => h d (by simp [fold, hd])
    have hs : ∀ d ∈ fold U s, U.strip d = [d] := fun d hd => h d (List.mem_append_right _ hd)
    calc fold U (U.accentStripped (c :: s))
        = fold U (U.strip c) ++ fold U (U.accentStripped s) := by
          rw [← fold_append]
          rfl
      _ = U.lower c ++ fold U s := by rw [ih hs, fold, U.lower_strip c hc]
      _ = fold U (c :: s) := rfl

/-- Stripping keeps the groups exactly where the folded name has no diacritic. -/
theorem groups_accentStripped_iff (s : List Char) :
    groups U (U.accentStripped s) = groups U s ↔ ∀ c ∈ fold U s, U.strip c = [c] := by
  refine ⟨?_, ?_⟩
  · intro h c hc
    have hs : s ≠ [] := by
      rintro rfl
      cases hc
    obtain ⟨g, hg, hcg⟩ := exists_mem_grams hc
    rw [← groups_of_ne_nil hs, ← h] at hg
    unfold groups at hg
    split_ifs at hg
    · cases hg
    · exact strip_fold_accentStripped (mem_of_mem_grams hg hcg)
  · intro h
    unfold groups
    rw [fold_accentStripped h]

/-! ## For which names -/

theorem bareFold_of_plain {s : List Char} (h : IsPlain U s) : bareFold U s = fold U s := by
  have hstrip : ∀ t : List Char, (∀ c ∈ t, U.strip c = [c]) → U.accentStripped t = t := by
    intro t ht
    induction t with
    | nil => rfl
    | cons c t ih =>
      have hrest := ih fun d hd => ht d (List.mem_cons_of_mem c hd)
      rw [Unicode.accentStripped, List.flatMap_cons, ht c List.mem_cons_self]
      exact congrArg (c :: ·) hrest
  exact hstrip (fold U s) h.1

/-- The forms of a name compare like the name exactly where it is plain. -/
theorem forms_iff_plain (x : List Char) :
    (∀ form ∈ [U.toLowercase x, U.accentStripped x], ∀ other,
      trigramSimilarity U form other = trigramSimilarity U x other ∧
        trigramSimilarity U other form = trigramSimilarity U other x) ↔ IsPlain U x := by
  simp only [List.forall_mem_cons, List.not_mem_nil, IsEmpty.forall_iff, implies_true, and_true,
    forms_iff, groups_toLowercase_iff, groups_accentStripped_iff]
  exact and_comm

/-- The comparison of two names ignores case and accents exactly where both are
plain. -/
theorem ignoresForms_iff (U : Unicode) (a b : List Char) :
    IgnoresForms U a b ↔ IsPlain U a ∧ IsPlain U b := by
  refine ⟨?_, ?_⟩
  · intro h
    exact ⟨(forms_iff_plain a).mp (h.forms a (by simp)),
      (forms_iff_plain b).mp (h.forms b (by simp))⟩
  · rintro ⟨ha, hb⟩
    refine ⟨?_, ?_, ?_, ?_⟩
    · rw [trigramSimilarity_eq, trigramSimilarity_eq, jaccard_comm]
    · rw [trigramSimilarity_eq]
      exact ⟨jaccard_nonneg _ _, jaccard_le_one _ _⟩
    · intro hane hbne hsame
      rw [bareFold_of_plain ha, bareFold_of_plain hb] at hsame
      rw [trigramSimilarity_eq, groups_of_ne_nil hane, groups_of_ne_nil hbne, hsame]
      exact jaccard_self (grams_nonempty _)
    · intro x hx
      simp only [List.mem_cons, List.not_mem_nil, or_false] at hx
      rcases hx with rfl | rfl
      · exact (forms_iff_plain x).mpr ha
      · exact (forms_iff_plain x).mpr hb

/-! ## A cedilla and a sigma -/

/-- Lower case for a cedilla and a sigma. -/
def cedillaLower (c : Char) : Char :=
  if c = 'Ç' then 'ç' else if c = 'Σ' then 'σ' else c

/-- A c with a cedilla, composed or as a mark of its own, loses it. -/
def cedillaStrip (c : Char) : List Char :=
  if c = 'ç' then ['c'] else if c = 'Ç' then ['C'] else if c = '\u0327' then [] else [c]

theorem cedillaStrip_strip {c d : Char} (hd : d ∈ cedillaStrip c) : cedillaStrip d = [d] := by
  unfold cedillaStrip at hd
  split_ifs at hd with h₁ h₂ h₃
  · obtain rfl := List.mem_singleton.mp hd
    decide
  · obtain rfl := List.mem_singleton.mp hd
    decide
  · cases hd
  · obtain rfl := List.mem_singleton.mp hd
    simp [cedillaStrip, h₁, h₂, h₃]

/-- A character without a cedilla is its own lower case, apart from the sigma. -/
theorem cedillaLower_cases {c : Char} (h : cedillaStrip c = [c]) :
    c = 'Σ' ∧ cedillaLower c = 'σ' ∨ cedillaLower c = c := by
  unfold cedillaLower
  split_ifs with hC hsigma
  · rw [hC] at h
    exact absurd h (by decide)
  · exact Or.inl ⟨hsigma, rfl⟩
  · exact Or.inr rfl

theorem cedillaLower_idem (c : Char) : cedillaLower (cedillaLower c) = cedillaLower c := by
  by_cases hC : c = 'Ç'
  · subst hC
    decide
  by_cases hsigma : c = 'Σ'
  · subst hsigma
    decide
  have hself : cedillaLower c = c := by
    rw [cedillaLower, if_neg hC, if_neg hsigma]
  rw [hself, hself]

/-- The part of Unicode's tables that the examples use. -/
def cedilla : Unicode where
  lower c := [cedillaLower c]
  strip := cedillaStrip
  isCased c := c.isAlpha || c = 'α'
  isCaseIgnorable c := c = '.'
  lower_ne_nil c := by simp
  lower_idem c := by
    rw [List.flatMap_singleton]
    exact congrArg (fun d => [d]) (cedillaLower_idem c)
  lower_sigma := by decide
  lower_finalSigma := by decide
  strip_lower_strip c d hd e he := by
    rw [List.mem_singleton.mp he]
    rcases cedillaLower_cases (cedillaStrip_strip hd) with ⟨-, hlower⟩ | hlower
    · rw [hlower]
      decide
    · rw [hlower]
      exact cedillaStrip_strip hd
  lower_strip c h := by
    have hlower := h (cedillaLower c) (List.mem_singleton_self _)
    have hc : cedillaStrip c = [c] := by
      by_cases hC : c = 'Ç'
      · subst hC
        exact absurd hlower (by decide)
      · by_cases hsigma : c = 'Σ'
        · subst hsigma
          decide
        · rwa [cedillaLower, if_neg hC, if_neg hsigma] at hlower
    rw [hc, List.flatMap_singleton]

example : trigramSimilarity cedilla "praÇa".toList "praça".toList = 1 := by decide +kernel

/-- With and without its cedilla a name is not recognised, and neither is a name
whose final sigma is written in lower case. -/
theorem not_ignoresForms :
    trigramSimilarity cedilla "praça".toList "praca".toList = 1 / 5 ∧
      bareFold cedilla "praça".toList = bareFold cedilla "praca".toList ∧
      ¬ IgnoresForms cedilla "praça".toList "praca".toList ∧
      trigramSimilarity cedilla "ααΣ".toList (cedilla.toLowercase "ααΣ".toList) = 0 := by
  have hbare : bareFold cedilla "praça".toList = bareFold cedilla "praca".toList := by
    decide +kernel
  have hsim : trigramSimilarity cedilla "praça".toList "praca".toList = 1 / 5 := by
    decide +kernel
  refine ⟨hsim, hbare, ?_, by decide +kernel⟩
  intro h
  have hone := h.same (by decide) (by decide) hbare
  rw [hsim] at hone
  exact absurd hone (by decide +kernel)

end BikesNest.Community
