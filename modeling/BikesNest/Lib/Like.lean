import Mathlib.Data.List.Infix

/-!
# `LIKE` patterns

The patterns of SQL's `LIKE` with an escape character: a percent sign stands for
any text, an underscore for one character, and the character after an escape for
itself.  A pattern that ends in a lone escape is malformed.  The matcher tries
every end of the text behind a percent sign.  Characters are compared after
`fold`, which is the identity for `LIKE` and a case mapping for `ILIKE`.

`likes_contains`: literals between two percent signs match the texts that contain
them.
-/

namespace Like

/-- What a pattern is made of. -/
inductive Token where
  | lit (c : Char)
  | one
  | any
deriving DecidableEq

/-- Read a pattern; none where an escape stands at its end. -/
def parse (escape : Char) : List Char → Option (List Token)
  | [] => some []
  | c :: rest =>
    if c = escape then
      match rest with
      | [] => none
      | d :: rest => (parse escape rest).map (Token.lit d :: ·)
    else if c = '%' then (parse escape rest).map (Token.any :: ·)
    else if c = '_' then (parse escape rest).map (Token.one :: ·)
    else (parse escape rest).map (Token.lit c :: ·)

/-- The matcher. -/
def likes (fold : Char → Char) : List Token → List Char → Bool
  | [], s => s.isEmpty
  | .lit _ :: _, [] => false
  | .lit c :: p, d :: s => fold c = fold d && likes fold p s
  | .one :: _, [] => false
  | .one :: p, _ :: s => likes fold p s
  | .any :: p, s => s.tails.any (likes fold p)

/-- `s LIKE pattern ESCAPE escape`; none is the error of a malformed pattern. -/
def like (fold : Char → Char) (escape : Char) (pattern s : List Char) : Option Bool :=
  (parse escape pattern).map fun tokens => likes fold tokens s

/-! ## Reading -/

theorem parse_escape (escape d : Char) (rest : List Char) :
    parse escape (escape :: d :: rest) = (parse escape rest).map (Token.lit d :: ·) := by
  rw [parse.eq_def]
  simp

theorem parse_any {escape : Char} (h : escape ≠ '%') (rest : List Char) :
    parse escape ('%' :: rest) = (parse escape rest).map (Token.any :: ·) := by
  rw [parse.eq_def]
  simp [h.symm]

/-- A character that means nothing else stands for itself. -/
theorem parse_lit {escape c : Char} (hescape : c ≠ escape) (hany : c ≠ '%') (hone : c ≠ '_')
    (rest : List Char) :
    parse escape (c :: rest) = (parse escape rest).map (Token.lit c :: ·) := by
  rw [parse.eq_def]
  simp [hescape, hany, hone]

variable {fold : Char → Char}

/-! ## The matcher -/

theorem likes_any {p : List Token} {s : List Char} :
    likes fold (.any :: p) s = true ↔ ∃ u v, s = u ++ v ∧ likes fold p v = true := by
  simp only [likes, List.any_eq_true, List.mem_tails]
  refine ⟨?_, ?_⟩
  · rintro ⟨v, ⟨u, rfl⟩, hv⟩
    exact ⟨u, v, rfl, hv⟩
  · rintro ⟨u, v, rfl, hv⟩
    exact ⟨v, List.suffix_append u v, hv⟩

/-- A percent sign at the end takes all that is left. -/
theorem likes_any_nil (s : List Char) : likes fold [.any] s = true :=
  likes_any.mpr ⟨s, [], (List.append_nil s).symm, rfl⟩

theorem likes_lits_append {t : List Char} {p : List Token} {s : List Char} :
    likes fold (t.map .lit ++ p) s = true ↔
      ∃ u v, s = u ++ v ∧ u.map fold = t.map fold ∧ likes fold p v = true := by
  induction t generalizing s with
  | nil => simp
  | cons c t ih =>
    cases s with
    | nil =>
      refine ⟨(fun h => by cases h), ?_⟩
      rintro ⟨u, v, huv, hu, -⟩
      rw [(List.nil_eq_append_iff.mp huv).1] at hu
      cases hu
    | cons d s =>
      simp only [List.map_cons, List.cons_append, likes, Bool.and_eq_true, decide_eq_true_eq, ih]
      refine ⟨?_, ?_⟩
      · rintro ⟨hcd, u, v, rfl, hu, hv⟩
        exact ⟨d :: u, v, rfl, by rw [List.map_cons, hcd, hu], hv⟩
      · rintro ⟨u, v, huv, hu, hv⟩
        cases u with
        | nil => cases hu
        | cons e u =>
          obtain ⟨rfl, rfl⟩ := List.cons.inj huv
          obtain ⟨hde, hu⟩ := List.cons.inj hu
          exact ⟨hde.symm, u, v, rfl, hu, hv⟩

/-- Literals between two percent signs: the text contains them. -/
theorem likes_contains {t s : List Char} :
    likes fold (.any :: (t.map .lit ++ [.any])) s = true ↔ t.map fold <:+: s.map fold := by
  rw [likes_any]
  refine ⟨?_, ?_⟩
  · rintro ⟨u, w, rfl, hw⟩
    obtain ⟨x, v, rfl, hx, -⟩ := likes_lits_append.mp hw
    exact ⟨u.map fold, v.map fold, by simp [hx]⟩
  · rintro ⟨u, v, huv⟩
    obtain ⟨l, v', rfl, hl, -⟩ := List.map_eq_append_iff.mp huv.symm
    obtain ⟨u', t', rfl, -, ht⟩ := List.map_eq_append_iff.mp hl
    exact ⟨u', t' ++ v', by simp, likes_lits_append.mpr ⟨t', v', rfl, ht, likes_any_nil v'⟩⟩

end Like
