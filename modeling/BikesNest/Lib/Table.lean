import Mathlib.Data.List.Basic
import Mathlib.Data.List.Range
import Mathlib.Data.List.Nodup
import Mathlib.Data.List.Dedup

/-!
# Tables with an identity key

`Table ρ` is an SQL table whose rows are numbered by an identity column: the
key of a row is never given out twice, also not after the row is deleted.
The fields are the next key, the row under each key and the fact that no row
stands at or above the next key.

The operations are the SQL statements: `insert`, `update` with a `WHERE`
predicate and a `SET` function, `delete` with a `WHERE` predicate, and
`rows`, which lists the rows in key order.  For each there is a lemma for the
row under a key and a lemma for the list of rows.
-/

namespace Relational

/-- A table whose rows are keyed by an identity column. -/
structure Table (ρ : Type) where
  /-- The key the next insert gets. -/
  next : Nat
  row : Nat → Option ρ
  fresh : ∀ i, next ≤ i → row i = none

namespace Table

variable {ρ : Type}

/-- The table without rows. -/
def empty : Table ρ where
  next := 1
  row _ := none
  fresh _ _ := rfl

/-- `INSERT`: the new row stands under `t.next`. -/
def insert (t : Table ρ) (r : ρ) : Table ρ where
  next := t.next + 1
  row i := if i = t.next then some r else t.row i
  fresh i hi := by
    rw [if_neg (by omega)]
    exact t.fresh i (by omega)

/-- `UPDATE … SET f WHERE p`. -/
def update (t : Table ρ) (p : Nat → ρ → Bool) (f : ρ → ρ) : Table ρ where
  next := t.next
  row i := (t.row i).map fun r => if p i r then f r else r
  fresh i hi := by simp [t.fresh i hi]

/-- `DELETE … WHERE p`. -/
def delete (t : Table ρ) (p : Nat → ρ → Bool) : Table ρ where
  next := t.next
  row i := (t.row i).filter fun r => !p i r
  fresh i hi := by simp [t.fresh i hi]

/-- The rows with their keys, in key order. -/
def rows (t : Table ρ) : List (Nat × ρ) :=
  (List.range t.next).filterMap fun i => (t.row i).map fun r => (i, r)

/-- `SELECT … WHERE p`, in key order. -/
def select (t : Table ρ) (p : Nat → ρ → Bool) : List (Nat × ρ) :=
  t.rows.filter fun x => p x.1 x.2

/-- `EXISTS (SELECT … WHERE p)`. -/
def any (t : Table ρ) (p : Nat → ρ → Bool) : Bool :=
  t.rows.any fun x => p x.1 x.2

/-- The number of rows a statement with this `WHERE` clause affects. -/
def affected (t : Table ρ) (p : Nat → ρ → Bool) : Nat := (t.select p).length

/-! ## The row under a key -/

@[simp] theorem row_empty (i : Nat) : (empty : Table ρ).row i = none := rfl

theorem row_insert (t : Table ρ) (r : ρ) (i : Nat) :
    (t.insert r).row i = if i = t.next then some r else t.row i := rfl

@[simp] theorem row_insert_next (t : Table ρ) (r : ρ) :
    (t.insert r).row t.next = some r := by simp [row_insert]

theorem row_insert_of_some {t : Table ρ} {i : Nat} {x : ρ} (r : ρ)
    (h : t.row i = some x) : (t.insert r).row i = some x := by
  have hne : i ≠ t.next := by
    rintro rfl
    simp [t.fresh t.next le_rfl] at h
  rw [row_insert, if_neg hne, h]

@[simp] theorem row_update (t : Table ρ) (p : Nat → ρ → Bool) (f : ρ → ρ)
    (i : Nat) :
    (t.update p f).row i = (t.row i).map fun r => if p i r then f r else r := rfl

theorem row_update_of_some {t : Table ρ} {i : Nat} {r : ρ} (p : Nat → ρ → Bool) (f : ρ → ρ)
    (h : t.row i = some r) : (t.update p f).row i = some (if p i r then f r else r) := by
  rw [row_update, h, Option.map_some]

@[simp] theorem row_delete (t : Table ρ) (p : Nat → ρ → Bool) (i : Nat) :
    (t.delete p).row i = (t.row i).filter fun r => !p i r := rfl

@[simp] theorem next_insert (t : Table ρ) (r : ρ) :
    (t.insert r).next = t.next + 1 := rfl

@[simp] theorem next_update (t : Table ρ) (p : Nat → ρ → Bool) (f : ρ → ρ) :
    (t.update p f).next = t.next := rfl

@[simp] theorem next_delete (t : Table ρ) (p : Nat → ρ → Bool) :
    (t.delete p).next = t.next := rfl

/-- A key with a row is below the next key. -/
theorem lt_next {t : Table ρ} {i : Nat} {r : ρ} (h : t.row i = some r) :
    i < t.next := by
  by_contra hge
  rw [t.fresh i (by omega)] at h
  cases h

/-- A row of an updated table comes from a row under the same key. -/
theorem row_update_eq_some {t : Table ρ} {p : Nat → ρ → Bool} {f : ρ → ρ}
    {i : Nat} {x : ρ} :
    (t.update p f).row i = some x ↔
      ∃ r, t.row i = some r ∧ x = if p i r then f r else r := by
  rw [row_update, Option.map_eq_some_iff]
  simp only [eq_comm (a := x)]

/-- A row of a table after a delete is a row the delete left. -/
theorem row_delete_eq_some {t : Table ρ} {p : Nat → ρ → Bool} {i : Nat} {x : ρ} :
    (t.delete p).row i = some x ↔ t.row i = some x ∧ p i x = false := by
  simp [Option.filter_eq_some_iff]

/-- A row of a table after an insert is the new row or an old one. -/
theorem row_insert_eq_some {t : Table ρ} {i : Nat} {r x : ρ} :
    (t.insert r).row i = some x ↔ (i = t.next ∧ x = r) ∨ t.row i = some x := by
  rw [row_insert]
  split
  · rename_i hi
    subst hi
    simp [t.fresh t.next le_rfl, eq_comm]
  · rename_i hi
    simp [hi]

/-! ## Predicates on every row -/

/-- Every row of the table satisfies `P`. -/
def All (P : ρ → Prop) (t : Table ρ) : Prop := ∀ i r, t.row i = some r → P r

namespace All

variable {P Q : ρ → Prop} {t : Table ρ} {p : Nat → ρ → Bool} {f : ρ → ρ} {r : ρ}

theorem empty : All P (Table.empty : Table ρ) := by
  intro i r h
  cases h

theorem mono (h : All P t) (hPQ : ∀ r, P r → Q r) : All Q t :=
  fun i r hr => hPQ r (h i r hr)

theorem insert (h : All P t) (hr : P r) : All P (t.insert r) := by
  intro i x hx
  rcases row_insert_eq_some.mp hx with ⟨_, rfl⟩ | hold
  · exact hr
  · exact h i x hold

/-- An update keeps `P` when its `SET` function keeps it on the rows that its
`WHERE` clause selects. -/
theorem update (h : All P t) (hf : ∀ i r, P r → p i r = true → P (f r)) :
    All P (t.update p f) := by
  intro i x hx
  obtain ⟨r, hr, rfl⟩ := row_update_eq_some.mp hx
  split
  · rename_i hp
    exact hf i r (h i r hr) hp
  · exact h i r hr

theorem delete (h : All P t) : All P (t.delete p) :=
  fun i r hr => h i r (row_delete_eq_some.mp hr).1

end All

/-! ## The list of rows -/

theorem mem_rows {t : Table ρ} {i : Nat} {r : ρ} :
    (i, r) ∈ t.rows ↔ t.row i = some r := by
  simp only [rows, List.mem_filterMap, List.mem_range, Option.map_eq_some_iff,
    Prod.mk.injEq]
  constructor
  · rintro ⟨j, _, x, hx, rfl, rfl⟩
    exact hx
  · intro h
    exact ⟨i, lt_next h, r, h, rfl, rfl⟩

theorem any_iff {t : Table ρ} {p : Nat → ρ → Bool} :
    t.any p = true ↔ ∃ i r, t.row i = some r ∧ p i r = true := by
  simp only [any, List.any_eq_true, Prod.exists, mem_rows]

theorem any_eq_false_iff {t : Table ρ} {p : Nat → ρ → Bool} :
    t.any p = false ↔ ∀ i r, t.row i = some r → p i r = false := by
  rw [← Bool.not_eq_true, any_iff]
  simp only [not_exists, not_and, Bool.not_eq_true]

theorem mem_select {t : Table ρ} {p : Nat → ρ → Bool} {i : Nat} {r : ρ} :
    (i, r) ∈ t.select p ↔ t.row i = some r ∧ p i r = true := by
  simp [select, mem_rows]

/-- The first row of a query that only one row meets. -/
theorem head?_select {t : Table ρ} {p : Nat → ρ → Bool} {i : Nat} {r : ρ}
    (hrow : t.row i = some r) (hp : p i r = true)
    (honly : ∀ j x, t.row j = some x → p j x = true → j = i) :
    (t.select p).head? = some (i, r) := by
  have hmem : (i, r) ∈ t.select p := mem_select.mpr ⟨hrow, hp⟩
  cases hhead : (t.select p).head? with
  | none =>
    rw [List.head?_eq_none_iff] at hhead
    rw [hhead] at hmem
    cases hmem
  | some found =>
    obtain ⟨j, x⟩ := found
    obtain ⟨hrow', hp'⟩ := mem_select.mp (List.mem_of_head? hhead)
    obtain rfl := honly j x hrow' hp'
    rw [hrow] at hrow'
    rw [Option.some.inj hrow']

theorem rows_insert (t : Table ρ) (r : ρ) :
    (t.insert r).rows = t.rows ++ [(t.next, r)] := by
  simp only [rows, next_insert, List.range_succ, List.filterMap_append]
  congr 1
  · apply List.filterMap_congr
    intro i hi
    rw [row_insert, if_neg (List.mem_range.mp hi).ne]
  · simp

theorem rows_update (t : Table ρ) (p : Nat → ρ → Bool) (f : ρ → ρ) :
    (t.update p f).rows =
      t.rows.map fun x => (x.1, if p x.1 x.2 then f x.2 else x.2) := by
  simp only [rows, next_update, row_update, List.map_filterMap, Option.map_map]
  rfl

theorem rows_delete (t : Table ρ) (p : Nat → ρ → Bool) :
    (t.delete p).rows = t.rows.filter fun x => !p x.1 x.2 := by
  simp only [rows, next_delete, row_delete, List.filter_filterMap]
  apply List.filterMap_congr
  intro i _
  cases t.row i with
  | none => rfl
  | some r => cases hp : p i r <;> simp [hp, Option.filter]

/-- A `SELECT` after an update that keeps what the `WHERE` clause reads. -/
theorem select_update {t : Table ρ} {p q : Nat → ρ → Bool} {f : ρ → ρ}
    (h : ∀ i r, t.row i = some r → p i r = true → q i (f r) = q i r) :
    (t.update p f).select q =
      (t.select q).map fun x => (x.1, if p x.1 x.2 then f x.2 else x.2) := by
  rw [select, select, rows_update, List.filter_map]
  congr 1
  apply List.filter_congr
  rintro ⟨i, r⟩ hmem
  simp only [Function.comp_apply]
  split
  · rename_i hp
    exact h i r (mem_rows.mp hmem) hp
  · rfl

/-- A `SELECT` that finds none of the updated rows, neither before nor after. -/
theorem select_update_of_skipped {t : Table ρ} {p q : Nat → ρ → Bool} {f : ρ → ρ}
    (h : ∀ i r, p i r = true → q i r = false ∧ q i (f r) = false) :
    (t.update p f).select q = t.select q := by
  rw [select_update fun i r _ hp => (h i r hp).2.trans (h i r hp).1.symm]
  refine (List.map_congr_left fun x hx => ?_).trans (List.map_id _)
  have hq : q x.1 x.2 = true := (List.mem_filter.mp hx).2
  have hp : p x.1 x.2 = false := by
    by_contra hp
    rw [(h x.1 x.2 (by simpa using hp)).1] at hq
    cases hq
  simp [hp]

/-- An update that finds no row changes nothing. -/
theorem update_of_select_nil {t : Table ρ} {p : Nat → ρ → Bool} (f : ρ → ρ)
    (h : t.select p = []) : t.update p f = t := by
  have hrow : (t.update p f).row = t.row := by
    funext i
    rw [row_update]
    cases hr : t.row i with
    | none => rfl
    | some r =>
      have hp : p i r ≠ true := by
        intro hp
        have hmem : (i, r) ∈ t.select p := mem_select.mpr ⟨hr, hp⟩
        rw [h] at hmem
        cases hmem
      rw [Option.map_some, if_neg hp]
  unfold update at hrow ⊢
  cases t
  congr

/-- An update after which no row is found again. -/
theorem select_update_nil {t : Table ρ} {p : Nat → ρ → Bool} {f : ρ → ρ}
    (h : ∀ i r, p i (f r) = false) : (t.update p f).select p = [] := by
  rw [List.eq_nil_iff_forall_not_mem]
  rintro ⟨i, x⟩ hmem
  obtain ⟨hx, hp⟩ := mem_select.mp hmem
  obtain ⟨r, _, rfl⟩ := row_update_eq_some.mp hx
  split at hp
  · rw [h] at hp
    cases hp
  · contradiction

/-- The keys stand in order. -/
theorem keys_sublist (t : Table ρ) : (t.rows.map Prod.fst).Sublist (List.range t.next) := by
  simp only [rows]
  generalize List.range t.next = keys
  induction keys with
  | nil => simp
  | cons i keys ih =>
    cases hr : t.row i with
    | none => simpa [hr] using ih.trans (List.sublist_cons_self i keys)
    | some r => simpa [hr] using ih

/-- No key stands twice in the list of rows. -/
theorem nodup_keys (t : Table ρ) : (t.rows.map Prod.fst).Nodup :=
  (keys_sublist t).nodup List.nodup_range

/-- The rows of a query come in key order. -/
theorem pairwise_select (t : Table ρ) (p : Nat → ρ → Bool) :
    (t.select p).Pairwise fun x y => x.1 < y.1 := by
  have hkeys : (t.rows.map Prod.fst).Pairwise (· < ·) :=
    List.pairwise_lt_range.sublist (keys_sublist t)
  exact (List.pairwise_map.mp hkeys).sublist List.filter_sublist

/-- The last row of a query has the largest key. -/
theorem select_eq_append {t : Table ρ} {p : Nat → ρ → Bool} {i : Nat} {r : ρ}
    (hr : t.row i = some r) (hp : p i r = true) :
    ∃ older k last, t.select p = older ++ [(k, last)] ∧ ∀ y ∈ older, y.1 < k := by
  have hmem : (i, r) ∈ t.select p := mem_select.mpr ⟨hr, hp⟩
  have hpairs := t.pairwise_select p
  rcases List.eq_nil_or_concat (t.select p) with hnil | ⟨older, ⟨k, last⟩, hlast⟩
  · rw [hnil] at hmem
    cases hmem
  · rw [List.concat_eq_append] at hlast
    rw [hlast, List.pairwise_append] at hpairs
    exact ⟨older, k, last, hlast, fun y hy => hpairs.2.2 y hy (k, last) List.mem_cons_self⟩

/-- What a query makes of its rows has different ids, when each has the key of its
row for an id. -/
theorem nodup_filterMap_select {γ : Type} (t : Table ρ) (p : Nat → ρ → Bool)
    {f : Nat × ρ → Option γ} {id : γ → Nat} (h : ∀ x y, f x = some y → id y = x.1) :
    (((t.select p).filterMap f).map id).Nodup := by
  have hsub : ∀ l : List (Nat × ρ), ((l.filterMap f).map id).Sublist (l.map Prod.fst) := by
    intro l
    induction l with
    | nil => simp
    | cons x l ih =>
      cases hx : f x with
      | none =>
        rw [List.filterMap_cons_none hx]
        exact ih.trans (List.sublist_cons_self ..)
      | some y =>
        rw [List.filterMap_cons_some hx, List.map_cons, List.map_cons, h x y hx]
        exact ih.cons_cons x.1
  exact (hsub _).nodup (t.nodup_keys.sublist (List.filter_sublist.map Prod.fst))

/-- An update of one key changes one entry of the list of rows. -/
theorem rows_update_key {t : Table ρ} {i : Nat} {r : ρ} (h : t.row i = some r)
    (q : ρ → Bool) (f : ρ → ρ) :
    ∃ before after, t.rows = before ++ (i, r) :: after ∧
      (t.update (fun j x => j == i && q x) f).rows =
        before ++ (i, if q r then f r else r) :: after := by
  obtain ⟨before, after, hrows⟩ := List.append_of_mem (mem_rows.mpr h)
  have hnodup := t.nodup_keys
  rw [hrows, List.map_append, List.map_cons, List.nodup_append] at hnodup
  have hbefore : ∀ x ∈ before, x.1 ≠ i := fun x hx =>
    hnodup.2.2 _ (List.mem_map_of_mem hx) _ (List.mem_cons_self ..)
  have hafter : ∀ x ∈ after, x.1 ≠ i := by
    rintro x hx rfl
    exact (List.nodup_cons.mp hnodup.2.1).1 (List.mem_map.mpr ⟨x, hx, rfl⟩)
  have hkeep : ∀ l : List (Nat × ρ), (∀ x ∈ l, x.1 ≠ i) →
      l.map (fun x => (x.1, if x.1 == i && q x.2 then f x.2 else x.2)) = l := by
    intro l hl
    refine (List.map_congr_left fun x hx => ?_).trans (List.map_id l)
    simp [hl x hx]
  refine ⟨before, after, hrows, ?_⟩
  rw [rows_update, hrows, List.map_append, List.map_cons, hkeep before hbefore,
    hkeep after hafter]
  simp

/-- A statement that addresses one key affects one row or none. -/
theorem affected_key (t : Table ρ) (i : Nat) (q : ρ → Bool) :
    t.affected (fun j r => j == i && q r) =
      if (t.row i).any q then 1 else 0 := by
  have hcount : ∀ l : List (Nat × ρ), (l.map Prod.fst).Nodup →
      (l.filter fun x => x.1 == i && q x.2).length =
        if ∃ x ∈ l, x.1 = i ∧ q x.2 = true then 1 else 0 := by
    intro l hl
    induction l with
    | nil => simp
    | cons x l ih =>
      obtain ⟨hx, hl⟩ := List.nodup_cons.mp hl
      by_cases hhead : x.1 = i ∧ q x.2 = true
      · have hrest : ¬ ∃ y ∈ l, y.1 = i ∧ q y.2 = true := by
          rintro ⟨y, hy, hyi, _⟩
          exact hx (List.mem_map.mpr ⟨y, hy, hyi.trans hhead.1.symm⟩)
        have := ih hl
        rw [if_neg hrest] at this
        simp [hhead, this]
      · have := ih hl
        have hfilter : (x.1 == i && q x.2) = false := by
          simpa [Bool.and_eq_false_iff] using hhead
        simp only [List.filter_cons, hfilter, List.mem_cons, exists_eq_or_imp, hhead,
          false_or, Bool.false_eq_true, if_false]
        exact this
  rw [affected, select, hcount _ t.nodup_keys]
  congr 1
  simp only [Prod.exists, mem_rows, eq_iff_iff, Option.any_eq_true]
  constructor
  · rintro ⟨j, r, hr, rfl, hq⟩
    exact ⟨r, hr, hq⟩
  · rintro ⟨r, hr, hq⟩
    exact ⟨i, r, hr, rfl, hq⟩

/-! ## Tables that differ in dead rows -/

/-- `t'` is the table without some of the rows that are dead. -/
structure Thinned (dead : ρ → Prop) (t t' : Table ρ) : Prop where
  next : t'.next = t.next
  row : ∀ i, t'.row i = t.row i ∨ (t'.row i = none ∧ ∃ r, t.row i = some r ∧ dead r)

namespace Thinned

variable {dead dead' : ρ → Prop} {t t' : Table ρ}

theorem refl (dead : ρ → Prop) (t : Table ρ) : Thinned dead t t := ⟨rfl, fun _ => .inl rfl⟩

theorem of_delete {p : Nat → ρ → Bool} (h : ∀ i r, p i r = true → dead r) :
    Thinned dead t (t.delete p) := by
  refine ⟨rfl, fun i => ?_⟩
  rw [row_delete]
  cases hr : t.row i with
  | none => exact .inl rfl
  | some r =>
    cases hp : p i r with
    | true => exact .inr ⟨by simp [hp], r, rfl, h i r hp⟩
    | false => exact .inl (by simp [hp])

theorem mono (h : Thinned dead t t') (hdead : ∀ r, dead r → dead' r) : Thinned dead' t t' := by
  refine ⟨h.next, fun i => ?_⟩
  rcases h.row i with hsame | ⟨hnone, r, hr, hdied⟩
  · exact .inl hsame
  · exact .inr ⟨hnone, r, hr, hdead r hdied⟩

theorem row_eq_some (h : Thinned dead t t') {i : Nat} {r : ρ} (hr : t'.row i = some r) :
    t.row i = some r := by
  rcases h.row i with hsame | ⟨hnone, _⟩
  · rw [← hsame, hr]
  · rw [hnone] at hr
    cases hr

theorem insert (h : Thinned dead t t') (r : ρ) : Thinned dead (t.insert r) (t'.insert r) := by
  refine ⟨by rw [next_insert, next_insert, h.next], fun i => ?_⟩
  rw [row_insert, row_insert, h.next]
  split
  · exact .inl rfl
  · exact h.row i

theorem update (h : Thinned dead t t') {p : Nat → ρ → Bool} {f : ρ → ρ}
    (hdead : ∀ i r, dead r → p i r = true → dead (f r)) :
    Thinned dead (t.update p f) (t'.update p f) := by
  refine ⟨h.next, fun i => ?_⟩
  rcases h.row i with hsame | ⟨hnone, r, hr, hdied⟩
  · exact .inl (by rw [row_update, row_update, hsame])
  · refine .inr ⟨by rw [row_update, hnone]; rfl, _, by rw [row_update, hr]; rfl, ?_⟩
    show dead (if p i r then f r else r)
    split
    · rename_i hp
      exact hdead i r hdied hp
    · exact hdied

theorem delete (h : Thinned dead t t') (p : Nat → ρ → Bool) :
    Thinned dead (t.delete p) (t'.delete p) := by
  refine ⟨h.next, fun i => ?_⟩
  rw [row_delete, row_delete]
  rcases h.row i with hsame | ⟨hnone, r, hr, hdied⟩
  · exact .inl (by rw [hsame])
  · cases hp : p i r with
    | true => exact .inl (by rw [hnone, hr, Option.filter_some, hp]; rfl)
    | false => exact .inr ⟨by rw [hnone]; rfl, r, by rw [hr, Option.filter_some, hp]; rfl, hdied⟩

theorem any_eq_false (h : Thinned dead t t') {p : Nat → ρ → Bool} (hany : t.any p = false) :
    t'.any p = false :=
  any_eq_false_iff.mpr fun i r hr => any_eq_false_iff.mp hany i r (h.row_eq_some hr)

/-- A query that selects no dead row answers the same. -/
theorem select_eq (h : Thinned dead t t') {p : Nat → ρ → Bool}
    (hdead : ∀ i r, dead r → p i r = false) : t'.select p = t.select p := by
  rw [select, select, rows, rows, h.next, List.filter_filterMap, List.filter_filterMap]
  refine List.filterMap_congr fun i _ => ?_
  rcases h.row i with hsame | ⟨hnone, r, hr, hdied⟩
  · rw [hsame]
  · simp [hnone, hr, Option.filter, hdead i r hdied]

end Thinned

end Table

end Relational
