import Mathlib.Data.List.Sort

/-!
# Keyset pagination

A query lists its rows in the order of a key.  A page is read with a cursor, the
key of the last row that the reader has seen: the rows with a greater key, in
order, up to a limit.  The reader asks for one row more than a page holds, to
know whether another page follows.

`Walk` is the list of pages that a reader sees who starts with some cursor and
takes each next one.  `Walk.exists_flatten` says that the walk ends and that its
pages, one after the other, are the rows in order; `Walk.unique` that there is
no other walk.
-/

namespace Keyset

variable {α β : Type} [LinearOrder α] (key : β → α) (rows : List β)

/-- The rows in the order of their keys. -/
def ordered : List β := rows.insertionSort fun a b => key a ≤ key b

/-- Is the row after the cursor? -/
def isAfter : Option α → β → Bool
  | none, _ => true
  | some c, r => c < key r

/-- The query: the first `limit` rows after the cursor. -/
def fetch (limit : Nat) (cursor : Option α) : List β :=
  (ordered key (rows.filter (isAfter key cursor))).take limit

/-- The `n` rows of a page. -/
def page (n : Nat) (cursor : Option α) : List β := (fetch key rows (n + 1) cursor).take n

/-- The cursor of the next page: the key of the last row of this one, when one row
more was found. -/
def next (n : Nat) (cursor : Option α) : Option α :=
  if n < (fetch key rows (n + 1) cursor).length then
    ((page key rows n cursor).getLast?).map key
  else none

/-- The pages from a cursor on. -/
inductive Walk (n : Nat) : Option α → List (List β) → Prop where
  | last {cursor : Option α} (hnext : next key rows n cursor = none) :
      Walk n cursor [page key rows n cursor]
  | more {cursor : Option α} {c : α} {pages : List (List β)}
      (hnext : next key rows n cursor = some c) (rest : Walk n (some c) pages) :
      Walk n cursor (page key rows n cursor :: pages)

variable {key rows}

/-! ## Order -/

theorem ordered_perm : (ordered key rows).Perm rows := List.perm_insertionSort _ _

theorem ordered_pairwise : (ordered key rows).Pairwise fun a b => key a ≤ key b := by
  have : Std.Total fun a b : β => key a ≤ key b := ⟨fun a b => le_total (key a) (key b)⟩
  have : IsTrans β fun a b => key a ≤ key b := ⟨fun _ _ _ => le_trans⟩
  exact List.pairwise_insertionSort _ _

/-- Rows with different keys are in strict order. -/
theorem ordered_strict (hrows : (rows.map key).Nodup) :
    (ordered key rows).Pairwise fun a b => key a < key b := by
  have hnodup : ((ordered key rows).map key).Nodup := (ordered_perm.map key).nodup_iff.mpr hrows
  rw [List.Nodup, List.pairwise_map] at hnodup
  exact ordered_pairwise.imp₂ (fun _ _ hle hne => lt_of_le_of_ne hle hne) hnodup

/-- Filtering before ordering is filtering after ordering. -/
theorem ordered_filter (hrows : (rows.map key).Nodup) (p : β → Bool) :
    ordered key (rows.filter p) = (ordered key rows).filter p := by
  have hfilter : ((rows.filter p).map key).Nodup :=
    hrows.sublist (List.filter_sublist.map key)
  have hperm : (ordered key (rows.filter p)).Perm ((ordered key rows).filter p) :=
    ordered_perm.trans (ordered_perm.symm.filter p)
  refine hperm.eq_of_pairwise (fun a b _ _ hab hba => ?_) (ordered_strict hfilter)
    ((ordered_strict hrows).filter p)
  exact absurd hba (lt_asymm hab)

theorem fetch_eq (hrows : (rows.map key).Nodup) (limit : Nat) (cursor : Option α) :
    fetch key rows limit cursor =
      ((ordered key rows).filter (isAfter key cursor)).take limit := by
  rw [fetch, ordered_filter hrows]

/-! ## The walk -/

/-- After the key of a row in the middle come the rows behind it. -/
theorem filter_isAfter_append {front back : List β} {last : β}
    (h : (front ++ last :: back).Pairwise fun a b => key a < key b) :
    (front ++ last :: back).filter (isAfter key (some (key last))) = back := by
  rw [List.pairwise_append] at h
  obtain ⟨_, hback, hfront⟩ := h
  rw [List.pairwise_cons] at hback
  rw [List.filter_append, List.filter_cons_of_neg (by simp [isAfter])]
  rw [List.filter_eq_nil_iff.mpr, List.nil_append, List.filter_eq_self]
  · intro b hb
    exact decide_eq_true (hback.1 b hb)
  · intro a ha
    simpa [isAfter] using le_of_lt (hfront a ha last List.mem_cons_self)

/-- The rows behind a later cursor are among those behind an earlier one. -/
theorem filter_isAfter_filter {cursor : Option α} {r : β} (h : isAfter key cursor r = true)
    (l : List β) :
    l.filter (isAfter key (some (key r))) =
      (l.filter (isAfter key cursor)).filter (isAfter key (some (key r))) := by
  rw [List.filter_filter]
  refine List.filter_congr fun x _ => ?_
  cases cursor with
  | none => simp [isAfter]
  | some c =>
    have hc : c < key r := of_decide_eq_true h
    rw [Bool.eq_iff_iff, Bool.and_eq_true]
    simp only [isAfter, decide_eq_true_eq]
    exact ⟨fun hx => ⟨hx, hc.trans hx⟩, fun hx => hx.1⟩

/-- A full page ends in a row, and the rest comes behind it. -/
theorem take_eq_concat {n : Nat} (hn : 0 < n) {rest : List β} (hlen : n ≤ rest.length) :
    ∃ front last, rest.take n = front ++ [last] ∧ rest = front ++ last :: rest.drop n := by
  have hne : rest.take n ≠ [] := by
    rw [← List.length_pos_iff, List.length_take]
    omega
  have hconcat := (List.dropLast_append_getLast hne).symm
  refine ⟨_, _, hconcat, ?_⟩
  conv_lhs => rw [← List.take_append_drop n rest, hconcat]
  rw [List.append_assoc, List.singleton_append]

/-- What is left behind a cursor, cut at one of its rows. -/
theorem filter_isAfter_of_split (hrows : (rows.map key).Nodup) {cursor : Option α}
    {rest front back : List β} {last : β}
    (hrest : (ordered key rows).filter (isAfter key cursor) = rest)
    (hsplit : rest = front ++ last :: back) :
    (ordered key rows).filter (isAfter key (some (key last))) = back := by
  have hafter : isAfter key cursor last = true := by
    have hmem : last ∈ rest := hsplit ▸ List.mem_append_right _ List.mem_cons_self
    rw [← hrest] at hmem
    exact (List.mem_filter.mp hmem).2
  have hstrict : rest.Pairwise fun a b => key a < key b :=
    hrest ▸ (ordered_strict hrows).filter _
  rw [filter_isAfter_filter hafter, hrest, hsplit]
  rw [hsplit] at hstrict
  exact filter_isAfter_append hstrict

/-- With rows of different keys, the walk from a cursor ends, and its pages are
the rows behind the cursor, in order. -/
theorem Walk.exists_flatten (hrows : (rows.map key).Nodup) {n : Nat} (hn : 0 < n)
    (cursor : Option α) :
    ∃ pages, Walk key rows n cursor pages ∧
      pages.flatten = (ordered key rows).filter (isAfter key cursor) := by
  generalize hrest : (ordered key rows).filter (isAfter key cursor) = rest
  -- By induction on the number of rows that are left.
  induction hlen : rest.length using Nat.strong_induction_on generalizing cursor rest with
  | _ k ih =>
    have hfetch : fetch key rows (n + 1) cursor = rest.take (n + 1) := by
      rw [fetch_eq hrows, hrest]
    have hpage : page key rows n cursor = rest.take n := by
      rw [page, hfetch, List.take_take, Nat.min_eq_left (by omega)]
    by_cases hmore : n < rest.length
    · obtain ⟨front, last, htake, hsplit⟩ := take_eq_concat hn hmore.le
      have hnext : next key rows n cursor = some (key last) := by
        rw [next, if_pos (by rw [hfetch, List.length_take]; omega), hpage, htake,
          List.getLast?_concat, Option.map_some]
      have hdrop : (ordered key rows).filter (isAfter key (some (key last))) = rest.drop n :=
        filter_isAfter_of_split hrows hrest hsplit
      obtain ⟨pages, hwalk, hflat⟩ :=
        ih (rest.drop n).length (by rw [List.length_drop]; omega) (some (key last)) _ hdrop rfl
      refine ⟨_, .more hnext hwalk, ?_⟩
      rw [List.flatten_cons, hflat, hpage, List.take_append_drop]
    · have hnext : next key rows n cursor = none := by
        rw [next, if_neg (by rw [hfetch, List.length_take]; omega)]
      refine ⟨_, .last hnext, ?_⟩
      rw [List.flatten_singleton, hpage, List.take_of_length_le (by omega)]

/-- A reader sees one list of pages. -/
theorem Walk.unique {n : Nat} {cursor : Option α} {pages pages' : List (List β)}
    (h : Walk key rows n cursor pages) (h' : Walk key rows n cursor pages') :
    pages = pages' := by
  induction h generalizing pages' with
  | last hnext =>
    cases h' with
    | last => rfl
    | more hnext' =>
      rw [hnext] at hnext'
      cases hnext'
  | more hnext _ ih =>
    cases h' with
    | last hnext' =>
      rw [hnext] at hnext'
      cases hnext'
    | more hnext' rest =>
      rw [hnext] at hnext'
      obtain rfl := Option.some.inj hnext'
      rw [ih rest]

end Keyset
