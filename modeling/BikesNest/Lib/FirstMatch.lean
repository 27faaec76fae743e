import Mathlib.Data.List.Basic

/-!
# Tables that are searched from the front

A table is a list of regions with an answer for each, and `lookup` gives the
answer of the first region that covers a point.  What a reader of such a table
expects, that a point in a region gets the answer of that region, holds exactly
where the regions around the point agree (`lookup_eq_iff`), and where regions can
be intersected, exactly outside of the intersections of regions with different
answers (`agree_iff`).  A region inside of an earlier one is never asked
(`lookup_ne_of_covered`).
-/

namespace FirstMatch

variable {ρ α β : Type}

section Lookup

variable (covers : ρ → α → Bool)

/-- The answer of the first region that covers a point. -/
def lookup (table : List (ρ × β)) (x : α) : Option β :=
  (table.find? fun entry => covers entry.1 x).map Prod.snd

/-- All regions around a point have one answer. -/
def Agree (table : List (ρ × β)) (x : α) : Prop :=
  ∀ entry ∈ table, covers entry.1 x = true → ∀ other ∈ table, covers other.1 x = true →
    entry.2 = other.2

variable {covers}

theorem exists_of_lookup {table : List (ρ × β)} {x : α} {b : β}
    (h : lookup covers table x = some b) :
    ∃ entry ∈ table, covers entry.1 x = true ∧ entry.2 = b := by
  obtain ⟨entry, hfind, rfl⟩ := Option.map_eq_some_iff.mp h
  have hcovers := List.find?_some (p := fun e : ρ × β => covers e.1 x) hfind
  exact ⟨entry, List.mem_of_find?_eq_some hfind, hcovers, rfl⟩

theorem lookup_isSome {table : List (ρ × β)} {x : α} {entry : ρ × β} (hmem : entry ∈ table)
    (hcovers : covers entry.1 x = true) : ∃ b, lookup covers table x = some b := by
  rw [← Option.isSome_iff_exists, lookup, Option.isSome_map, List.find?_isSome]
  exact ⟨entry, hmem, hcovers⟩

theorem lookup_append (table more : List (ρ × β)) (x : α) :
    lookup covers (table ++ more) x = (lookup covers table x).or (lookup covers more x) := by
  unfold lookup
  rw [List.find?_append]
  cases table.find? fun entry => covers entry.1 x with
  | none => rfl
  | some entry => rfl

/-- A point gets the answer of every region around it exactly where they agree. -/
theorem lookup_eq_iff {table : List (ρ × β)} {x : α} :
    (∀ entry ∈ table, covers entry.1 x = true → lookup covers table x = some entry.2) ↔
      Agree covers table x := by
  refine ⟨?_, ?_⟩
  · intro h entry hmem hcovers other hother hcovers'
    have heq := (h entry hmem hcovers).symm.trans (h other hother hcovers')
    exact Option.some.inj heq
  · intro h entry hmem hcovers
    obtain ⟨b, hb⟩ := lookup_isSome hmem hcovers
    obtain ⟨first, hfirst, hcovers', rfl⟩ := exists_of_lookup hb
    rw [hb, h first hfirst hcovers' entry hmem hcovers]

/-- An answer that only a region inside of an earlier one gives is never given. -/
theorem lookup_ne_of_covered {before after : List (ρ × β)} {earlier entry : ρ × β} {x : α}
    (hearlier : earlier ∈ before) (hne : ∀ e ∈ before, e.2 ≠ entry.2)
    (hafter : ∀ e ∈ after, e.2 ≠ entry.2)
    (hcovered : covers entry.1 x = true → covers earlier.1 x = true) :
    lookup covers (before ++ entry :: after) x ≠ some entry.2 := by
  intro h
  rw [lookup_append] at h
  rcases Option.or_eq_some_iff.mp h with hbefore | ⟨hnone, hrest⟩
  · obtain ⟨e, hmem, -, heq⟩ := exists_of_lookup hbefore
    exact hne e hmem heq
  · obtain ⟨e, hmem, hcovers, heq⟩ := exists_of_lookup hrest
    rcases List.mem_cons.mp hmem with rfl | hmem
    · obtain ⟨b, hb⟩ := lookup_isSome hearlier (hcovered hcovers)
      rw [hnone] at hb
      cases hb
    · exact hafter e hmem heq

end Lookup

/-! ## Where regions overlap -/

section Overlaps

variable {covers : ρ → α → Bool} {meet : ρ → ρ → Option ρ} {x : α}

theorem agree_iff_pairwise {table : List (ρ × β)} :
    Agree covers table x ↔ table.Pairwise fun entry other =>
      covers entry.1 x = true → covers other.1 x = true → entry.2 = other.2 := by
  refine ⟨?_, ?_⟩
  · intro h
    refine List.pairwise_of_forall_mem_list fun entry hentry other hother => ?_
    exact fun hcovers hcovers' => h entry hentry hcovers other hother hcovers'
  · intro h entry hentry hcovers other hother hcovers'
    have hflip : table.Pairwise (flip fun entry other =>
        covers entry.1 x = true → covers other.1 x = true → entry.2 = other.2) :=
      h.imp fun hab hb ha => (hab ha hb).symm
    exact h.forall_of_forall_of_flip (fun _ _ _ _ => rfl) hflip hentry hother hcovers hcovers'

variable [DecidableEq β]

/-- The intersections of the regions that have different answers. -/
def contested (meet : ρ → ρ → Option ρ) : List (ρ × β) → List ρ
  | [] => []
  | entry :: rest =>
    (rest.filter fun other => entry.2 ≠ other.2).filterMap (fun other => meet entry.1 other.1) ++
      contested meet rest

/-- The regions around a point agree exactly where it lies in no contested region. -/
theorem agree_iff {table : List (ρ × β)}
    (hmeet : ∀ a b, (∃ r, meet a b = some r ∧ covers r x = true) ↔
      covers a x = true ∧ covers b x = true) :
    Agree covers table x ↔ ∀ r ∈ contested meet table, covers r x = false := by
  rw [agree_iff_pairwise]
  induction table with
  | nil => simp [contested]
  | cons entry rest ih =>
    rw [List.pairwise_cons, ih, contested, List.forall_mem_append]
    refine and_congr ?_ Iff.rfl
    refine ⟨?_, ?_⟩
    · intro h r hr
      obtain ⟨other, hother, hr⟩ := List.mem_filterMap.mp hr
      obtain ⟨hother, hne⟩ := List.mem_filter.mp hother
      by_contra hcovers
      have hboth := (hmeet entry.1 other.1).mp ⟨r, hr, by simpa using hcovers⟩
      exact (by simpa using hne : entry.2 ≠ other.2) (h other hother hboth.1 hboth.2)
    · intro h other hother hcovers hcovers'
      by_contra hne
      obtain ⟨r, hr, hin⟩ := (hmeet entry.1 other.1).mpr ⟨hcovers, hcovers'⟩
      have hout := h r (List.mem_filterMap.mpr
        ⟨other, List.mem_filter.mpr ⟨hother, by simpa using hne⟩, hr⟩)
      rw [hin] at hout
      cases hout

end Overlaps

end FirstMatch
