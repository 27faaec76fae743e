import BikesNest.Lib.Keyset

/-!
# Pages up to a short one

A query lists the rows behind a cursor in the order of a key, up to a limit.  The
reader's cursor is the *mark* of the last row, which need not be the key, and
the reader goes on until a page is shorter than the limit.

`IsPage` is what the query may answer: rows with equal keys come in any order.
`Exhaustive` says that the reader sees every row once and in the order of the
keys, whatever the answers.  `exhaustive_iff` gives the condition on the rows:
the marks are all different and never go against the order of the keys.

Where the keys are all different there is only one answer, `fetch`, and
`fetch_exhaustive_iff` is about that.
-/

namespace Paging

variable {α μ β : Type} [LinearOrder α] [LinearOrder μ]

section Definitions

variable (key : β → α) (mark : β → μ) (rows : List β)

/-- An answer of the query. -/
def IsPage (n : Nat) (cursor : Option μ) (page : List β) : Prop :=
  ∃ sorted : List β, sorted.Perm (rows.filter (Keyset.isAfter mark cursor)) ∧
    sorted.Pairwise (fun a b => key a ≤ key b) ∧ page = sorted.take n

/-- The answer that leaves rows with equal keys in the order in which they stand. -/
def fetch (n : Nat) (cursor : Option μ) : List β :=
  (Keyset.ordered key (rows.filter (Keyset.isAfter mark cursor))).take n

/-- What a reader sees from a cursor on, who takes a page of fewer than `n` rows
for the last one. -/
inductive Walk (n : Nat) (answer : Option μ → List β) : Option μ → List β → Prop where
  | short {cursor : Option μ} (h : (answer cursor).length < n) :
      Walk n answer cursor (answer cursor)
  | full {cursor : Option μ} {last : β} {more : List β} (h : n ≤ (answer cursor).length)
      (hlast : (answer cursor).getLast? = some last)
      (rest : Walk n answer (some (mark last)) more) :
      Walk n answer cursor (answer cursor ++ more)

/-- With pages of `n` rows the reader comes to an end and has seen every row once,
in the order of the keys. -/
def Exhaustive (n : Nat) : Prop :=
  ∀ answer : Option μ → List β, (∀ cursor, IsPage key mark rows n cursor (answer cursor)) →
    ∃ seen, Walk mark n answer none seen ∧ seen.Perm rows ∧
      seen.Pairwise fun a b => key a ≤ key b

/-- The marks tell the rows apart and agree with the order. -/
structure Aligned : Prop where
  nodup : (rows.map mark).Nodup
  mono : ∀ a ∈ rows, ∀ b ∈ rows, mark a < mark b → key a ≤ key b

end Definitions

variable {key : β → α} {mark : β → μ} {rows : List β}

theorem fetch_isPage (n : Nat) (cursor : Option μ) :
    IsPage key mark rows n cursor (fetch key mark rows n cursor) :=
  ⟨_, Keyset.ordered_perm, Keyset.ordered_pairwise, rfl⟩

/-- Rows in the order of different keys stand in one order only. -/
theorem IsPage.eq_fetch (hrows : (rows.map key).Nodup) {n : Nat} {cursor : Option μ}
    {page : List β} (h : IsPage key mark rows n cursor page) :
    page = fetch key mark rows n cursor := by
  obtain ⟨sorted, hperm, hsorted, rfl⟩ := h
  have hkeys : ((rows.filter (Keyset.isAfter mark cursor)).map key).Nodup :=
    hrows.sublist (List.filter_sublist.map key)
  have hstrict : sorted.Pairwise fun a b => key a < key b := by
    have hnodup := (hperm.map key).nodup_iff.mpr hkeys
    rw [List.Nodup, List.pairwise_map] at hnodup
    exact hsorted.imp₂ (fun _ _ hle hne => lt_of_le_of_ne hle hne) hnodup
  rw [fetch]
  congr 1
  refine (hperm.trans Keyset.ordered_perm.symm).eq_of_pairwise (fun a b _ _ hab hba => ?_)
    hstrict (Keyset.ordered_strict hkeys)
  exact absurd hba (lt_asymm hab)

/-! ## Rows whose marks agree with the order -/

section Aligned

variable (h : Aligned key mark rows) (hmark : ∀ a b, key a = key b → mark a = mark b)

include h hmark

/-- Rows in the order of the keys are in the order of the marks. -/
theorem Aligned.pairwise {l : List β} (hl : ∀ a ∈ l, a ∈ rows) (hnodup : (l.map mark).Nodup)
    (hsorted : l.Pairwise fun a b => key a ≤ key b) :
    l.Pairwise fun a b => mark a < mark b := by
  rw [List.Nodup, List.pairwise_map] at hnodup
  refine (hsorted.and hnodup).imp_of_mem fun {a b} ha hb hab => ?_
  refine lt_of_le_of_ne (not_lt.mp fun hlt => ?_) hab.2
  have hle := h.mono b (hl b hb) a (hl a ha) hlt
  exact hab.2 (hmark a b (le_antisymm hab.1 hle))

/-- Every answer is the first rows behind the cursor in the order of the marks. -/
theorem Aligned.isPage {n : Nat} {cursor : Option μ} {page : List β}
    (hpage : IsPage key mark rows n cursor page) :
    page = ((Keyset.ordered mark rows).filter (Keyset.isAfter mark cursor)).take n := by
  obtain ⟨sorted, hperm, hsorted, rfl⟩ := hpage
  have hsub : (rows.filter (Keyset.isAfter mark cursor)).Sublist rows := List.filter_sublist
  have hstrict : sorted.Pairwise fun a b => mark a < mark b := by
    refine h.pairwise hmark (fun a ha => hsub.subset (hperm.mem_iff.mp ha)) ?_ hsorted
    exact (hperm.map mark).nodup_iff.mpr (h.nodup.sublist (hsub.map mark))
  rw [← Keyset.ordered_filter h.nodup]
  congr 1
  refine (hperm.trans Keyset.ordered_perm.symm).eq_of_pairwise (fun a b _ _ hab hba => ?_)
    hstrict (Keyset.ordered_strict (h.nodup.sublist (hsub.map mark)))
  exact absurd hba (lt_asymm hab)

/-- From any cursor the reader comes to the end, and has seen the rows behind it. -/
theorem Aligned.exists_walk {n : Nat} (hn : 0 < n) {answer : Option μ → List β}
    (hanswer : ∀ cursor, IsPage key mark rows n cursor (answer cursor)) (cursor : Option μ) :
    Walk mark n answer cursor ((Keyset.ordered mark rows).filter (Keyset.isAfter mark cursor)) := by
  generalize hrest : (Keyset.ordered mark rows).filter (Keyset.isAfter mark cursor) = rest
  -- By induction on the number of rows that are left.
  induction hlen : rest.length using Nat.strong_induction_on generalizing cursor rest with
  | _ k ih =>
    have hpage : answer cursor = rest.take n := by
      rw [h.isPage hmark (hanswer cursor), hrest]
    by_cases hfull : n ≤ rest.length
    · obtain ⟨front, last, htake, hsplit⟩ := Keyset.take_eq_concat hn hfull
      have hdrop : (Keyset.ordered mark rows).filter (Keyset.isAfter mark (some (mark last))) =
          rest.drop n := Keyset.filter_isAfter_of_split h.nodup hrest hsplit
      have hwalk := ih (rest.drop n).length (by rw [List.length_drop]; omega)
        (some (mark last)) _ hdrop rfl
      have hwhole : rest = answer cursor ++ rest.drop n := by
        rw [hpage, List.take_append_drop]
      have hseen : Walk mark n answer cursor (answer cursor ++ rest.drop n) := by
        refine .full ?_ ?_ hwalk
        · rw [hpage, List.length_take]
          omega
        · rw [hpage, htake, List.getLast?_concat]
      rwa [← hwhole] at hseen
    · have hwhole : answer cursor = rest := by
        rw [hpage, List.take_of_length_le (by omega)]
      have hseen : Walk mark n answer cursor (answer cursor) := by
        refine .short ?_
        rw [hwhole]
        omega
      rwa [hwhole] at hseen

theorem Aligned.exhaustive {n : Nat} (hn : 0 < n) : Exhaustive key mark rows n := by
  intro answer hanswer
  have hwalk := h.exists_walk hmark hn hanswer none
  have hall : (Keyset.ordered mark rows).filter (Keyset.isAfter mark none) =
      Keyset.ordered mark rows := List.filter_eq_self.mpr fun _ _ => rfl
  rw [hall] at hwalk
  refine ⟨_, hwalk, Keyset.ordered_perm, ?_⟩
  refine (Keyset.ordered_strict h.nodup).imp_of_mem fun {a b} ha hb hlt => ?_
  exact h.mono a (Keyset.ordered_perm.mem_iff.mp ha) b (Keyset.ordered_perm.mem_iff.mp hb) hlt

end Aligned

omit [LinearOrder μ] in
/-- A reader sees one list of rows. -/
theorem Walk.unique {n : Nat} {answer : Option μ → List β} {cursor : Option μ}
    {seen seen' : List β} (h : Walk mark n answer cursor seen)
    (h' : Walk mark n answer cursor seen') : seen = seen' := by
  induction h generalizing seen' with
  | short h =>
    cases h' with
    | short => rfl
    | full h' => omega
  | full h hlast _ ih =>
    cases h' with
    | short h' => omega
    | full h' hlast' rest =>
      rw [hlast] at hlast'
      obtain rfl := Option.some.inj hlast'
      rw [ih rest]

/-! ## What pages of one row show -/

/-- With pages of one row, every row that is seen is behind the one before. -/
theorem Walk.pairwise {answer : Option μ → List β}
    (hanswer : ∀ cursor, IsPage key mark rows 1 cursor (answer cursor)) {cursor : Option μ}
    {seen : List β} (h : Walk mark 1 answer cursor seen) :
    (∀ a ∈ seen, Keyset.isAfter mark cursor a = true) ∧
      seen.Pairwise fun a b => mark a < mark b := by
  have hbehind : ∀ cursor, ∀ a ∈ answer cursor, Keyset.isAfter mark cursor a = true := by
    intro cursor a ha
    obtain ⟨sorted, hperm, -, hpage⟩ := hanswer cursor
    rw [hpage] at ha
    exact (List.mem_filter.mp (hperm.mem_iff.mp (List.mem_of_mem_take ha))).2
  induction h with
  | short h =>
    rename_i cursor
    have hnil : answer cursor = [] := List.eq_nil_of_length_eq_zero (by omega)
    rw [hnil]
    exact ⟨by simp, List.Pairwise.nil⟩
  | full h hlast rest ih =>
    rename_i cursor last more
    have hone : answer cursor = [last] := by
      obtain ⟨sorted, -, -, hpage⟩ := hanswer cursor
      have hle : (answer cursor).length ≤ 1 := by
        rw [hpage, List.length_take]
        omega
      obtain ⟨a, ha⟩ := List.length_eq_one_iff.mp (Nat.le_antisymm hle h)
      rw [ha] at hlast ⊢
      simpa using hlast
    have hlast' := hbehind cursor last (by rw [hone]; exact List.mem_singleton_self last)
    have hmore : ∀ a ∈ more, mark last < mark a := fun a ha => of_decide_eq_true (ih.1 a ha)
    rw [hone, List.singleton_append]
    refine ⟨fun a ha => ?_, List.pairwise_cons.mpr ⟨hmore, ih.2⟩⟩
    rcases List.mem_cons.mp ha with rfl | ha
    · exact hlast'
    · cases cursor with
      | none => rfl
      | some c => exact decide_eq_true ((of_decide_eq_true hlast').trans (hmore a ha))

/-- Rows that are seen one by one have marks that agree with the order. -/
theorem aligned_of_exhaustive (h : Exhaustive key mark rows 1) : Aligned key mark rows := by
  obtain ⟨seen, hwalk, hperm, hsorted⟩ := h _ (fetch_isPage 1)
  have hmarks := (hwalk.pairwise (fetch_isPage 1)).2
  have hnodup : (seen.map mark).Nodup :=
    List.pairwise_map.mpr (hmarks.imp fun hlt => ne_of_lt hlt)
  refine ⟨(hperm.map mark).nodup_iff.mp hnodup, fun a ha b hb hlt => ?_⟩
  obtain ⟨i, hi, rfl⟩ := List.mem_iff_getElem.mp (hperm.mem_iff.mpr ha)
  obtain ⟨j, hj, rfl⟩ := List.mem_iff_getElem.mp (hperm.mem_iff.mpr hb)
  rcases Nat.lt_trichotomy i j with hij | rfl | hji
  · exact List.pairwise_iff_getElem.mp hsorted i j hi hj hij
  · exact absurd hlt (lt_irrefl _)
  · exact absurd (List.pairwise_iff_getElem.mp hmarks j i hj hi hji) (lt_asymm hlt)

/-- The size of a page: a limit brought between 1 and `cap`. -/
def clamp (cap : Nat) (limit : Int) : Nat := (max 1 (min limit cap)).toNat

theorem clamp_pos (cap : Nat) (limit : Int) : 0 < clamp cap limit := by
  unfold clamp
  omega

/-- The reader sees every row once and in order, with any limit, exactly when the
marks agree with the order. -/
theorem exhaustive_iff (hmark : ∀ a b, key a = key b → mark a = mark b) (cap : Nat) :
    (∀ limit : Int, Exhaustive key mark rows (clamp cap limit)) ↔ Aligned key mark rows := by
  constructor
  · intro h
    have hone : clamp cap 1 = 1 := by
      unfold clamp
      omega
    exact aligned_of_exhaustive (hone ▸ h 1)
  · intro h limit
    exact h.exhaustive hmark (clamp_pos cap limit)

/-- The same for the one answer that there is when the keys are different. -/
theorem fetch_exhaustive_iff (hrows : (rows.map key).Nodup)
    (hmark : ∀ a b, key a = key b → mark a = mark b) (cap : Nat) :
    (∀ limit : Int, ∃ seen, Walk mark (clamp cap limit) (fetch key mark rows (clamp cap limit))
        none seen ∧ seen.Perm rows ∧ seen.Pairwise fun a b => key a < key b) ↔
      Aligned key mark rows := by
  rw [← exhaustive_iff hmark cap]
  refine forall_congr' fun limit => ⟨fun ⟨seen, hwalk, hperm, hsorted⟩ answer hanswer => ?_,
    fun h => ?_⟩
  · have hfetch : answer = fetch key mark rows (clamp cap limit) :=
      funext fun cursor => (hanswer cursor).eq_fetch hrows
    exact ⟨seen, hfetch ▸ hwalk, hperm, hsorted.imp le_of_lt⟩
  · obtain ⟨seen, hwalk, hperm, hsorted⟩ := h _ (fetch_isPage _)
    refine ⟨seen, hwalk, hperm, ?_⟩
    have hnodup := (hperm.map key).nodup_iff.mpr hrows
    rw [List.Nodup, List.pairwise_map] at hnodup
    exact hsorted.imp₂ (fun _ _ hle hne => lt_of_le_of_ne hle hne) hnodup

end Paging
