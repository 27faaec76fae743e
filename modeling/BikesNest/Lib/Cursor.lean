import Mathlib.Data.List.Sort
import Mathlib.Data.Set.Card
import Mathlib.Order.CompletePartialOrder

/-!
# Listing a set from a cursor

A store lists a set of keys in order.  Each answer is a page of the first keys after a
cursor, as many as the store likes, and says whether there are more (`IsPage`).  The last
key of a page is the cursor of the next one.

A reader who changes the set between two pages goes on as before as long as the keys after
the cursor are the same: all that a page says is about `after S cursor`.
-/

namespace Cursor

/-- The members of a list, counted. -/
theorem ncard_mem {α : Type} {l : List α} (h : l.Nodup) : {a | a ∈ l}.ncard = l.length := by
  classical
  rw [← List.toFinset_card_of_nodup h, ← Set.ncard_coe_finset]
  congr 1
  ext a
  simp

variable {α : Type} [LinearOrder α]

/-- The keys of `S` after the cursor. -/
def after (S : Set α) : Option α → Set α
  | none => S
  | some c => {a ∈ S | c < a}

/-- The keys of `S` up to the cursor. -/
def upTo (S : Set α) (cursor : Option α) : Set α := S \ after S cursor

/-- A page of the keys of `S` after the cursor. -/
structure IsPage (S : Set α) (cursor : Option α) (page : List α) (more : Bool) : Prop where
  sorted : page.Pairwise (· < ·)
  sound : ∀ a ∈ page, a ∈ after S cursor
  complete : ∀ a ∈ after S cursor, a ∈ page ∨ more = true ∧ ∀ b ∈ page, b < a
  nonempty : more = true → page ≠ []

/-- The cursor of the next page. -/
def next (page : List α) (more : Bool) : Option α := if more then page.getLast? else none

variable {S T : Set α} {cursor : Option α} {a c : α} {page : List α} {more : Bool}

@[simp] theorem after_none : after S none = S := rfl

@[simp] theorem mem_after_some : a ∈ after S (some c) ↔ a ∈ S ∧ c < a := Iff.rfl

theorem after_subset : after S cursor ⊆ S := by
  cases cursor with
  | none => exact subset_rfl
  | some c => exact Set.sep_subset ..

theorem after_mono (h : S ⊆ T) : after S cursor ⊆ after T cursor := by
  cases cursor with
  | none => exact h
  | some c => exact fun a ha => ⟨h ha.1, ha.2⟩

/-- Whether a key of `T` is after the cursor does not depend on the set. -/
theorem mem_after (ha : a ∈ after T cursor) (hS : a ∈ S) : a ∈ after S cursor := by
  cases cursor with
  | none => exact hS
  | some c => exact ⟨hS, ha.2⟩

omit [LinearOrder α] in
theorem next_mem (hnext : next page more = some c) : c ∈ page := by
  unfold next at hnext
  split at hnext
  · exact List.mem_of_getLast? hnext
  · cases hnext

@[simp] theorem upTo_none : upTo S none = ∅ := Set.sdiff_self

theorem upTo_subset : upTo S cursor ⊆ S := Set.sdiff_subset

theorem upTo_union_after : upTo S cursor ∪ after S cursor = S :=
  Set.sdiff_union_of_subset after_subset

/-- A page says nothing about the keys before the cursor. -/
theorem IsPage.congr (h : IsPage S cursor page more) (hafter : after T cursor = after S cursor) :
    IsPage T cursor page more where
  sorted := h.sorted
  sound a ha := hafter ▸ h.sound a ha
  complete a ha := h.complete a (hafter ▸ ha)
  nonempty := h.nonempty

namespace IsPage

variable (h : IsPage S cursor page more)

include h

theorem nodup : page.Nodup := h.sorted.imp ne_of_lt

/-- The keys of a last page are all there are. -/
theorem whole (hnext : next page more = none) : after S cursor = {a | a ∈ page} := by
  have hlast : more = false := by
    rw [← Bool.not_eq_true]
    intro hmore
    rw [next, if_pos hmore, List.getLast?_eq_none_iff] at hnext
    exact h.nonempty hmore hnext
  apply Set.Subset.antisymm
  · intro a ha
    rcases h.complete a ha with hmem | ⟨hmore, _⟩
    · exact hmem
    · rw [hlast] at hmore
      cases hmore
  · exact h.sound

/-- The cursor of the next page is the greatest key of this one. -/
theorem le_next (hnext : next page more = some c) (ha : a ∈ page) : a ≤ c := by
  unfold next at hnext
  split at hnext
  · obtain ⟨front, rfl⟩ := List.getLast?_eq_some_iff.mp hnext
    rcases List.mem_append.mp ha with hfront | hlast
    · exact le_of_lt ((List.pairwise_append.mp h.sorted).2.2 a hfront c List.mem_cons_self)
    · exact le_of_eq (List.mem_singleton.mp hlast)
  · cases hnext

/-- The keys after the next cursor are after this one. -/
theorem after_next_subset (hnext : next page more = some c) :
    after S (some c) ⊆ after S cursor := by
  intro a ha
  have hc := h.sound c (next_mem hnext)
  cases cursor with
  | none => exact ha.1
  | some b => exact ⟨ha.1, lt_trans hc.2 ha.2⟩

/-- The keys after the cursor are those of the page and those after the next cursor. -/
theorem split (hnext : next page more = some c) :
    after S cursor = {a | a ∈ page} ∪ after S (some c) := by
  apply Set.Subset.antisymm
  · intro a ha
    rcases h.complete a ha with hmem | ⟨_, hbeyond⟩
    · exact .inl hmem
    · exact .inr ⟨after_subset ha, hbeyond c (next_mem hnext)⟩
  · intro a ha
    rcases ha with hmem | hafter
    · exact h.sound a hmem
    · exact h.after_next_subset hnext hafter

theorem disjoint (hnext : next page more = some c) :
    Disjoint {a | a ∈ page} (after S (some c)) := by
  rw [Set.disjoint_left]
  intro a hpage hafter
  exact absurd hafter.2 (not_lt.mpr (h.le_next hnext hpage))

/-- A part of the set after the cursor is cut in the same way. -/
theorem split_of_subset (hT : T ⊆ S) (hnext : next page more = some c) :
    after T cursor = {a ∈ T | a ∈ page} ∪ after T (some c) := by
  apply Set.Subset.antisymm
  · intro a ha
    have hsplit : a ∈ {a | a ∈ page} ∪ after S (some c) := by
      rw [← h.split hnext]
      exact after_mono hT ha
    rcases hsplit with hmem | hafter
    · exact .inl ⟨after_subset ha, hmem⟩
    · exact .inr ⟨after_subset ha, hafter.2⟩
  · intro a ha
    rcases ha with ⟨hmem, hpage⟩ | hafter
    · exact mem_after (h.sound a hpage) hmem
    · exact mem_after (h.after_next_subset hnext (after_mono hT hafter)) hafter.1

theorem whole_of_subset (hT : T ⊆ S) (hnext : next page more = none) :
    after T cursor = {a ∈ T | a ∈ page} := by
  apply Set.Subset.antisymm
  · intro a ha
    have hpage : a ∈ {a | a ∈ page} := by
      rw [← h.whole hnext]
      exact after_mono hT ha
    exact ⟨after_subset ha, hpage⟩
  · intro a ha
    exact mem_after (h.sound a ha.2) ha.1

/-- What a page moves from after the cursor to before it. -/
theorem upTo_next (hT : T ⊆ S) (hnext : next page more = some c) :
    upTo T (some c) = upTo T cursor ∪ {a ∈ T | a ∈ page} := by
  have hdisjoint : Disjoint {a ∈ T | a ∈ page} (after T (some c)) :=
    (h.disjoint hnext).mono (fun _ ha => ha.2) (after_mono hT)
  ext a
  simp only [upTo, h.split_of_subset hT hnext, Set.mem_union, Set.mem_sdiff]
  have hnot : a ∈ {a ∈ T | a ∈ page} → a ∉ after T (some c) :=
    fun ha => Set.disjoint_left.mp hdisjoint ha
  have hin : a ∈ {a ∈ T | a ∈ page} → a ∈ T := fun ha => ha.1
  tauto

/-- The keys after the cursor, counted by pages. -/
theorem ncard_next (hT : T ⊆ S) (hfinite : T.Finite) (hnext : next page more = some c) :
    (after T cursor).ncard = {a ∈ T | a ∈ page}.ncard + (after T (some c)).ncard := by
  rw [h.split_of_subset hT hnext]
  apply Set.ncard_union_eq
  · exact (h.disjoint hnext).mono (fun _ ha => ha.2) (after_mono hT)
  · exact hfinite.subset (Set.sep_subset ..)
  · exact hfinite.subset after_subset

/-- Each page leaves fewer keys. -/
theorem ncard_lt (hfinite : S.Finite) (hnext : next page more = some c) :
    (after S (some c)).ncard < (after S cursor).ncard := by
  have hc := next_mem hnext
  apply Set.ncard_lt_ncard _ (hfinite.subset after_subset)
  refine ⟨h.after_next_subset hnext, fun hsub => ?_⟩
  exact lt_irrefl c (hsub (h.sound c hc)).2

end IsPage

/-! ## A store that knows its keys -/

/-- The keys after the cursor. -/
def isAfter : Option α → α → Bool
  | none, _ => true
  | some c, a => c < a

/-- The first `size` of the keys that are present. -/
def fetch (keys : List α) (present : α → Bool) (size : Nat) (cursor : Option α) : List α × Bool :=
  let found := keys.filter fun a => present a && isAfter cursor a
  (found.take size, decide (size < found.length))

theorem mem_after_iff : a ∈ after S cursor ↔ a ∈ S ∧ isAfter cursor a = true := by
  cases cursor with
  | none => simp [isAfter]
  | some c => simp [isAfter]

/-- The keys in order, cut at a size, are a page. -/
theorem fetch_isPage {keys : List α} {present : α → Bool} {size : Nat} (hsize : 0 < size)
    (hsorted : keys.Pairwise (· < ·)) (hknown : ∀ a, present a = true → a ∈ keys) :
    IsPage {a | present a = true} cursor (fetch keys present size cursor).1
      (fetch keys present size cursor).2 := by
  have hmem : ∀ a, a ∈ after {a | present a = true} cursor ↔
      a ∈ keys.filter fun a => present a && isAfter cursor a := by
    intro a
    rw [mem_after_iff, List.mem_filter, Bool.and_eq_true]
    exact ⟨fun ha => ⟨hknown a ha.1, ha⟩, fun ha => ha.2⟩
  have hfound := hsorted.filter fun a => present a && isAfter cursor a
  unfold fetch
  generalize keys.filter (fun a => present a && isAfter cursor a) = found at hmem hfound
  refine ⟨hfound.sublist (List.take_sublist ..), fun a ha => ?_, fun a ha => ?_, fun hmore => ?_⟩
  · exact (hmem a).mpr (List.mem_of_mem_take ha)
  · have hin : a ∈ found := (hmem a).mp ha
    rw [← List.take_append_drop size found, List.mem_append] at hin
    rcases hin with htake | hdrop
    · exact .inl htake
    · refine .inr ⟨?_, fun b hb => ?_⟩
      · have hlength := List.length_pos_of_mem hdrop
        rw [List.length_drop] at hlength
        exact decide_eq_true (by omega)
      · rw [← List.take_append_drop size found, List.pairwise_append] at hfound
        exact hfound.2.2 b hb a hdrop
  · have hlength : size < found.length := of_decide_eq_true hmore
    intro hempty
    have hnone := congrArg List.length hempty
    rw [List.length_take, List.length_nil] at hnone
    omega

end Cursor
