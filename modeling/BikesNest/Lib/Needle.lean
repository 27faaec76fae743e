import Mathlib.Data.List.Infix

/-!
# Looking for a needle

`find` splits a list at the first occurrence of another one, the needle, and
drops the needle.  `find_eq_some` says where it splits and that the needle does
not occur earlier, not even where it would overlap with the one that was found;
`find_eq_none` says that `find` misses no occurrence.
-/

namespace Needle

variable {α : Type}

/-- An occurrence that does not start at the head. -/
theorem infix_of_cons_infix_cons {a b : α} {l s : List α} (h : a :: l <:+: b :: s) : l <:+: s := by
  rcases List.infix_cons_iff.mp h with hhead | htail
  · exact (List.cons_prefix_cons.mp hhead).2.isInfix
  · exact (List.suffix_cons a l).isInfix.trans htail

variable [DecidableEq α]

/-- What is in front of the first occurrence of a needle, and what is behind it. -/
def find (needle : List α) : List α → Option (List α × List α)
  | [] => if needle = [] then some ([], []) else none
  | a :: s =>
    if needle <+: a :: s then some ([], (a :: s).drop needle.length)
    else (find needle s).map fun found => (a :: found.1, found.2)

variable {needle s before after : List α}

theorem find_of_prefix (rest : List α) : find needle (needle ++ rest) = some ([], rest) := by
  cases hs : needle ++ rest with
  | nil =>
    obtain ⟨hneedle, hrest⟩ := List.append_eq_nil_iff.mp hs
    rw [find, if_pos hneedle, hrest]
  | cons a s =>
    have hprefix : needle <+: a :: s := ⟨rest, hs⟩
    rw [find, if_pos hprefix, ← hs, List.drop_left]

theorem find_cons {a : α} (h : ¬ needle <+: a :: s) :
    find needle (a :: s) = (find needle s).map fun found => (a :: found.1, found.2) :=
  if_neg h

/-- Where a list is split. -/
theorem find_eq_some (hneedle : needle ≠ []) (h : find needle s = some (before, after)) :
    s = before ++ (needle ++ after) ∧ ¬ needle <:+: before ++ needle.dropLast := by
  induction s generalizing before with
  | nil => rw [find, if_neg hneedle] at h; cases h
  | cons a s ih =>
    by_cases hprefix : needle <+: a :: s
    · obtain ⟨rest, hrest⟩ := hprefix
      rw [← hrest, find_of_prefix] at h
      cases h
      refine ⟨hrest.symm, ?_⟩
      intro hinfix
      have hlength := hinfix.length_le
      have hpos := List.length_pos_of_ne_nil hneedle
      rw [List.nil_append, List.length_dropLast] at hlength
      omega
    · rw [find_cons hprefix] at h
      obtain ⟨⟨before', after'⟩, hfind, heq⟩ := Option.map_eq_some_iff.mp h
      cases heq
      obtain ⟨hs, hfirst⟩ := ih hfind
      refine ⟨by rw [hs]; rfl, ?_⟩
      intro hinfix
      rcases List.infix_cons_iff.mp hinfix with hhead | htail
      · apply hprefix
        rw [hs]
        have hlonger : before' ++ needle.dropLast <+: before' ++ (needle ++ after') :=
          (List.prefix_append_right_inj _).mpr
            ((List.dropLast_prefix needle).trans (List.prefix_append _ _))
        exact hhead.trans (List.cons_prefix_cons.mpr ⟨rfl, hlonger⟩)
      · exact hfirst htail

/-- What is behind a needle is shorter than the list. -/
theorem find_length (hneedle : needle ≠ []) (h : find needle s = some (before, after)) :
    after.length < s.length := by
  have hpos := List.length_pos_of_ne_nil hneedle
  rw [(find_eq_some hneedle h).1, List.length_append, List.length_append]
  omega

/-- Without a split there is no needle. -/
theorem find_eq_none (h : find needle s = none) : ¬ needle <:+: s := by
  induction s with
  | nil =>
    intro hinfix
    rw [find, if_pos (List.eq_nil_of_infix_nil hinfix)] at h
    cases h
  | cons a s ih =>
    by_cases hprefix : needle <+: a :: s
    · obtain ⟨rest, hrest⟩ := hprefix
      rw [← hrest, find_of_prefix] at h
      cases h
    · rw [find_cons hprefix, Option.map_eq_none_iff] at h
      intro hinfix
      rcases List.infix_cons_iff.mp hinfix with hhead | htail
      · exact hprefix hhead
      · exact ih h htail

end Needle
