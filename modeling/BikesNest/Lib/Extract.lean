import BikesNest.Lib.Keyset
import BikesNest.Lib.Table

/-!
# Extracts of a table

The rows of a table that belong to somebody, in the order of a column and as a document
shows them (`extract`), and what a statement on the table does to them.

A document may show under each row the rows of another table that refer to it.  Instead of
one query for each row a program asks for all of them at once and takes them apart in a map:
`unpack_eq` says that this is the same.
-/

namespace Keyset

variable {α β : Type} [LinearOrder α] {key : β → α}

/-- A row that goes in front of all others goes in front of those that are kept. -/
theorem filter_orderedInsert (p : β → Bool) (a : β) {l : List β}
    (h : l.Pairwise fun a b => key a ≤ key b) :
    (l.orderedInsert (fun a b => key a ≤ key b) a).filter p =
      if p a then (l.filter p).orderedInsert (fun a b => key a ≤ key b) a else l.filter p := by
  induction l with
  | nil => cases hp : p a <;> simp [hp]
  | cons b l ih =>
    have hparts := List.pairwise_cons.mp h
    by_cases hle : key a ≤ key b
    · rw [List.orderedInsert_cons, if_pos hle]
      cases hp : p a with
      | false => simp [hp]
      | true =>
        -- What is kept of the others still comes behind it.
        have hfront : ∀ c ∈ (b :: l).filter p, key a ≤ key c := by
          intro c hc
          rcases List.mem_cons.mp (List.mem_of_mem_filter hc) with rfl | hc
          · exact hle
          · exact hle.trans (hparts.1 c hc)
        rw [List.filter_cons_of_pos hp, if_pos rfl]
        cases hrest : (b :: l).filter p with
        | nil => rfl
        | cons c rest =>
          have hc := hfront c (by rw [hrest]; exact List.mem_cons_self)
          rw [List.orderedInsert_cons, if_pos hc]
    · rw [List.orderedInsert_cons, if_neg hle]
      cases hb : p b with
      | false => simp [hb, ih hparts.2]
      | true =>
        rw [List.filter_cons_of_pos hb, List.filter_cons_of_pos hb, ih hparts.2]
        cases hp : p a with
        | false => rfl
        | true => rw [if_pos rfl, if_pos rfl, List.orderedInsert_cons, if_neg hle]

/-- The order is stable, so rows that are left out do not disturb the others. -/
theorem filter_ordered (p : β → Bool) (rows : List β) :
    (ordered key rows).filter p = ordered key (rows.filter p) := by
  induction rows with
  | nil => rfl
  | cons a rows ih =>
    have hcons : ∀ rows : List β, ordered key (a :: rows) =
        (ordered key rows).orderedInsert (fun a b => key a ≤ key b) a := fun _ => rfl
    rw [hcons, filter_orderedInsert p a ordered_pairwise, ih]
    cases hp : p a with
    | false => rw [if_neg (by simp), List.filter_cons_of_neg (by simp [hp])]
    | true => rw [if_pos rfl, List.filter_cons_of_pos hp, hcons]

/-- Keys that compare alike put rows in the same order. -/
theorem ordered_congr {α' : Type} [LinearOrder α'] {key' : β → α'} {rows : List β}
    (h : ∀ a ∈ rows, ∀ b ∈ rows, key a ≤ key b ↔ key' a ≤ key' b) :
    ordered key rows = ordered key' rows := by
  have hmap := List.map_insertionSort (r := fun a b => key a ≤ key b)
    (s := fun a b => key' a ≤ key' b) id rows h
  rw [List.map_id, List.map_id] at hmap
  exact hmap

theorem map_ordered {γ : Type} {key' : γ → α} (f : β → γ) (rows : List β)
    (h : ∀ r ∈ rows, key' (f r) = key r) :
    (ordered key rows).map f = ordered key' (rows.map f) :=
  List.map_insertionSort _ _ f rows fun a ha b hb => by rw [h a ha, h b hb]

end Keyset

namespace Relational.Table

open Keyset (ordered)

variable {ρ τ β : Type} [LinearOrder τ]

/-- Rows as they lie in a table, which is the order of a query that asks for none. -/
def scanned (place : Nat → Nat) (rows : List (Nat × ρ)) : List (Nat × ρ) :=
  ordered (fun x => place x.1) rows

/-- `SELECT … WHERE mine ORDER BY time`, and what is shown of each row.  Rows of one time
come as they lie in the table. -/
def extract (t : Table ρ) (place : Nat → Nat) (mine : ρ → Bool) (time : ρ → τ)
    (view : Nat → ρ → β) : List β :=
  (ordered (fun x => time x.2) (scanned place (t.select fun _ r => mine r))).map fun x =>
    view x.1 x.2

/-- The rows that belong to somebody, as they are known to them. -/
def only (p : Nat → ρ → Bool) (known : ρ → ρ) (t : Table ρ) : Table ρ :=
  (t.delete fun i r => !p i r).update (fun _ _ => true) known

variable {t : Table ρ} {place : Nat → Nat} {mine : ρ → Bool} {time : ρ → τ} {view : Nat → ρ → β}

theorem mem_scanned {rows : List (Nat × ρ)} {x : Nat × ρ} : x ∈ scanned place rows ↔ x ∈ rows :=
  Keyset.ordered_perm.mem_iff

theorem extract_nil (h : ∀ r, mine r = false) : t.extract place mine time view = [] := by
  have hselect : t.select (fun _ r => mine r) = [] := by
    rw [select, List.filter_eq_nil_iff]
    intro x _
    simp [h x.2]
  rw [extract, hselect]
  rfl

/-- Rows that are deleted are gone from the extract, and nothing else is. -/
theorem extract_delete (gone : ρ → Bool) :
    (t.delete fun _ r => gone r).extract place mine time view =
      t.extract place (fun r => mine r && !gone r) time view := by
  have hselect : (t.delete fun _ r => gone r).select (fun _ r => mine r) =
      t.select fun _ r => mine r && !gone r := by
    rw [select, select, rows_delete, List.filter_filter]
  rw [extract, extract, hselect]

/-- So are rows that an update takes away from their owner. -/
theorem extract_update_lost {lost : ρ → Bool} {f : ρ → ρ}
    (h : ∀ r, lost r = true → mine (f r) = false) :
    (t.update (fun _ r => lost r) f).extract place mine time view =
      t.extract place (fun r => mine r && !lost r) time view := by
  have hselect : (t.update (fun _ r => lost r) f).select (fun _ r => mine r) =
      t.select fun _ r => mine r && !lost r := by
    rw [select, select, rows_update, List.filter_map]
    have hfilter : t.rows.filter ((fun x => mine x.2) ∘
        fun x => (x.1, if lost x.2 then f x.2 else x.2)) =
        t.rows.filter fun x => mine x.2 && !lost x.2 := by
      apply List.filter_congr
      intro x _
      cases hlost : lost x.2 with
      | true => simp [hlost, h x.2 hlost]
      | false => simp [hlost]
    rw [hfilter]
    refine (List.map_congr_left fun x hx => ?_).trans (List.map_id _)
    have hkept : (mine x.2 && !lost x.2) = true := (List.mem_filter.mp hx).2
    have hlost : lost x.2 = false := by simpa using (Bool.and_eq_true_iff.mp hkept).2
    simp [hlost]
  rw [extract, extract, hselect]

/-- The row of a key among those that are known. -/
theorem row_only {p : Nat → ρ → Bool} {known : ρ → ρ} {i : Nat} (h : ∀ r, p i r = true) :
    (t.only p known).row i = (t.row i).map known := by
  rw [only, row_update, row_delete]
  cases t.row i with
  | none => rfl
  | some r => simp [Option.filter, h r]

/-- A statement that leaves the rows and what is shown of them leaves the extract. -/
theorem extract_of_select {t' : Table ρ} {g : Nat × ρ → ρ}
    (h : t'.select (fun _ r => mine r) = (t.select fun _ r => mine r).map fun x => (x.1, g x))
    (htime : ∀ x, time (g x) = time x.2) (hview : ∀ x, view x.1 (g x) = view x.1 x.2) :
    t'.extract place mine time view = t.extract place mine time view := by
  have hscanned : (scanned place (t.select fun _ r => mine r)).map (fun x => (x.1, g x)) =
      scanned place ((t.select fun _ r => mine r).map fun x => (x.1, g x)) :=
    Keyset.map_ordered _ _ fun _ _ => rfl
  have hordered : (ordered (fun x => time x.2) (scanned place (t.select fun _ r => mine r))).map
      (fun x => (x.1, g x)) =
      ordered (fun x : Nat × ρ => time x.2)
        (scanned place ((t.select fun _ r => mine r).map fun x => (x.1, g x))) := by
    rw [← hscanned]
    exact Keyset.map_ordered _ _ fun x _ => htime x
  rw [extract, h, ← hordered, List.map_map, extract]
  apply List.map_congr_left
  intro x _
  exact hview x

/-- An extract needs no other rows, and of its own only what it shows. -/
theorem extract_only {p : Nat → ρ → Bool} {known : ρ → ρ}
    (hp : ∀ i r, t.row i = some r → mine r = true → p i r = true)
    (hmine : ∀ r, mine (known r) = mine r) (htime : ∀ r, time (known r) = time r)
    (hview : ∀ i r, view i (known r) = view i r) :
    (t.only p known).extract place mine time view = t.extract place mine time view := by
  apply extract_of_select (g := fun x => known x.2) _ (fun x => htime x.2) fun x => hview x.1 x.2
  rw [only, select, rows_update, rows_delete, List.filter_map, List.filter_filter, select]
  congr 1
  apply List.filter_congr
  intro x hx
  have hkept := hp x.1 x.2 (mem_rows.mp hx)
  cases hx' : mine x.2 with
  | false => simp [hmine, hx']
  | true => simp [hmine, hx', hkept hx']

/-- An update of what is not shown. -/
theorem extract_update_kept {p : Nat → ρ → Bool} {f : ρ → ρ} (hmine : ∀ r, mine (f r) = mine r)
    (htime : ∀ r, time (f r) = time r) (hview : ∀ i r, view i (f r) = view i r) :
    (t.update p f).extract place mine time view = t.extract place mine time view := by
  apply extract_of_select (g := fun x => if p x.1 x.2 then f x.2 else x.2)
  · exact select_update fun i r _ _ => hmine r
  · intro x
    split
    · exact htime x.2
    · rfl
  · intro x
    split
    · exact hview x.1 x.2
    · rfl

/-- What is shown of a row may be known of the row. -/
theorem extract_congr {view' : Nat → ρ → β}
    (h : ∀ i r, t.row i = some r → mine r = true → view i r = view' i r) :
    t.extract place mine time view = t.extract place mine time view' := by
  rw [extract, extract]
  apply List.map_congr_left
  intro x hx
  have hx := mem_select.mp (mem_scanned.mp (Keyset.ordered_perm.mem_iff.mp hx))
  exact h x.1 x.2 hx.1 hx.2

/-! ## Rows under rows -/

/-- A map from keys to the values that were pushed under them, in order. -/
def pack {κ γ : Type} [DecidableEq κ] (rows : List (κ × γ)) : κ → List γ :=
  rows.foldl (fun m x k => if k = x.1 then m k ++ [x.2] else m k) fun _ => []

/-- Takes the values of each key out of the map. -/
def unpack {κ δ γ : Type} [DecidableEq κ] : List (κ × δ) → (κ → List γ) → List (κ × δ × List γ)
  | [], _ => []
  | (k, d) :: rows, m => (k, d, m k) :: unpack rows fun k' => if k' = k then [] else m k'

theorem pack_eq {κ γ : Type} [DecidableEq κ] (rows : List (κ × γ)) (k : κ) :
    pack rows k = (rows.filter fun x => x.1 = k).map Prod.snd := by
  have hfold : ∀ m : κ → List γ,
      rows.foldl (fun m x k => if k = x.1 then m k ++ [x.2] else m k) m k =
        m k ++ (rows.filter fun x => x.1 = k).map Prod.snd := by
    intro m
    induction rows generalizing m with
    | nil => simp
    | cons x rows ih =>
      rw [List.foldl_cons, ih]
      by_cases hx : x.1 = k
      · simp [hx]
      · have hne : ¬ k = x.1 := fun h => hx h.symm
        simp [hx, hne]
  rw [pack, hfold, List.nil_append]

/-- Under different keys nothing is taken away before its turn. -/
theorem unpack_eq {κ δ γ : Type} [DecidableEq κ] {rows : List (κ × δ)}
    (h : (rows.map Prod.fst).Nodup) (m : κ → List γ) :
    unpack rows m = rows.map fun x => (x.1, x.2, m x.1) := by
  induction rows generalizing m with
  | nil => rfl
  | cons x rows ih =>
    have hparts := List.nodup_cons.mp h
    rw [unpack, ih hparts.2, List.map_cons]
    congr 1
    apply List.map_congr_left
    intro y hy
    have hne : ¬ y.1 = x.1 := by
      intro heq
      rw [← heq] at hparts
      exact hparts.1 (List.mem_map.mpr ⟨y, hy, rfl⟩)
    simp [hne]

end Relational.Table
