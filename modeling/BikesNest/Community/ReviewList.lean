import BikesNest.Community.Aggregate
import BikesNest.Lib.Paging
import Mathlib.Data.Prod.Lex

/-!
# The list of reviews

`listActive` reads the active reviews of a location, the newest first, and goes
on from the id of the last one.  Ids are given out when a row is inserted, and
`created_at` is when its transaction began, so that the order of the list and
the cursor can disagree.  `listActive_visits_iff` says that this is what it
takes to miss a review, and `crossedInserts` is a run in which two users review
a location at the same time and one review is not seen.
-/

namespace BikesNest.Community

open Domain Store Transactions Runs

/-- The active reviews of a location, with their ids, which are below `b`. -/
def activeRows (c : Rows Cell) (b locationId : Nat) : List (Nat × Review) :=
  (List.range b).filterMap fun i => (activeReview c locationId i).map fun r => (i, r)

/-- `ORDER BY created_at DESC, id DESC`. -/
def newestFirst (x : Nat × Review) : (Instant ×ₗ Nat)ᵒᵈ :=
  OrderDual.toDual (toLex (x.2.createdAt, x.1))

/-- The cursor: `id < after_id`. -/
def idDescending (x : Nat × Review) : Natᵒᵈ := OrderDual.toDual x.1

/-- `list_active`. -/
def listActive (c : Rows Cell) (b locationId : Nat) (afterId : Option Nat) (limit : Int) :
    List (Nat × Review) :=
  Paging.fetch newestFirst idDescending (activeRows c b locationId) (Paging.clamp 200 limit)
    (afterId.map OrderDual.toDual)

/-- With pages of any size, a reader who starts without a cursor sees every active
review of the location once, the newest first. -/
def VisitsReviews (c : Rows Cell) (b locationId : Nat) : Prop :=
  ∀ limit : Int, ∃ seen,
    Paging.Walk idDescending (Paging.clamp 200 limit)
      (fun cursor => listActive c b locationId (cursor.map OrderDual.ofDual) limit) none seen ∧
    seen.Perm (activeRows c b locationId) ∧
    seen.Pairwise fun x y =>
      y.2.createdAt < x.2.createdAt ∨ (y.2.createdAt = x.2.createdAt ∧ y.1 < x.1)

variable {c : Rows Cell} {b locationId : Nat}

theorem mem_activeRows {x : Nat × Review} :
    x ∈ activeRows c b locationId ↔ x.1 < b ∧ activeReview c locationId x.1 = some x.2 := by
  simp only [activeRows, List.mem_filterMap, List.mem_range, Option.map_eq_some_iff]
  constructor
  · rintro ⟨i, hi, r, hr, rfl⟩
    exact ⟨hi, hr⟩
  · intro h
    exact ⟨x.1, h.1, x.2, h.2, rfl⟩

theorem nodup_activeRows (c : Rows Cell) (b locationId : Nat) :
    ((activeRows c b locationId).map Prod.fst).Nodup := by
  rw [activeRows, List.map_filterMap]
  refine List.nodup_range.filterMap fun i j k hi hj => ?_
  simp only [Option.map_map, Option.mem_def, Option.map_eq_some_iff, Function.comp_apply] at hi hj
  obtain ⟨_, _, rfl⟩ := hi
  obtain ⟨_, _, hk⟩ := hj
  exact hk.symm

/-- The reader sees every review when the ids agree with the order, and else misses
one with some limit. -/
theorem visitsReviews_iff_aligned :
    VisitsReviews c b locationId ↔
      Paging.Aligned newestFirst idDescending (activeRows c b locationId) := by
  have hkeys : ((activeRows c b locationId).map newestFirst).Nodup := by
    refine List.Nodup.of_map (fun k : (Instant ×ₗ Nat)ᵒᵈ => (ofLex (OrderDual.ofDual k)).2) ?_
    rw [List.map_map]
    exact nodup_activeRows c b locationId
  have hmark : ∀ x y : Nat × Review, newestFirst x = newestFirst y →
      idDescending x = idDescending y := fun x y h =>
    congrArg (fun k : (Instant ×ₗ Nat)ᵒᵈ => OrderDual.toDual (ofLex (OrderDual.ofDual k)).2) h
  rw [← Paging.fetch_exhaustive_iff hkeys hmark 200]
  have hanswer : ∀ limit : Int, (fun cursor : Option Natᵒᵈ =>
      listActive c b locationId (cursor.map OrderDual.ofDual) limit) =
      Paging.fetch newestFirst idDescending (activeRows c b locationId)
        (Paging.clamp 200 limit) := by
    intro limit
    funext cursor
    cases cursor <;> rfl
  have hnewer : ∀ x y : Nat × Review, newestFirst x < newestFirst y ↔
      (y.2.createdAt < x.2.createdAt ∨ (y.2.createdAt = x.2.createdAt ∧ y.1 < x.1)) := by
    intro x y
    rw [newestFirst, newestFirst, OrderDual.toDual_lt_toDual, Prod.Lex.toLex_lt_toLex]
  simp only [VisitsReviews, hanswer, hnewer]

/-- The reader sees every active review of the location exactly when none of them
has a smaller id and a later `created_at` than another. -/
theorem listActive_visits_iff (c : Rows Cell) (b locationId : Nat) :
    VisitsReviews c b locationId ↔
      ∀ i r j r', i < b → j < b → activeReview c locationId i = some r →
        activeReview c locationId j = some r' → i < j → r.createdAt ≤ r'.createdAt := by
  rw [visitsReviews_iff_aligned]
  constructor
  · intro h i r j r' hi hj hr hr' hlt
    have hle := h.mono (j, r') (mem_activeRows.mpr ⟨hj, hr'⟩) (i, r) (mem_activeRows.mpr ⟨hi, hr⟩)
      (OrderDual.toDual_lt_toDual.mpr hlt)
    rw [newestFirst, newestFirst, OrderDual.toDual_le_toDual, Prod.Lex.toLex_le_toLex] at hle
    rcases hle with hlt | heq
    · exact le_of_lt hlt
    · exact le_of_eq heq.1
  · intro h
    refine ⟨?_, fun x hx y hy hlt => ?_⟩
    · have hids := (nodup_activeRows c b locationId).map OrderDual.toDual.injective
      rwa [List.map_map] at hids
    · obtain ⟨hxb, hx⟩ := mem_activeRows.mp hx
      obtain ⟨hyb, hy⟩ := mem_activeRows.mp hy
      have hids : y.1 < x.1 := OrderDual.toDual_lt_toDual.mp hlt
      have hle := h y.1 y.2 x.1 x.2 hyb hxb hy hx hids
      rw [newestFirst, newestFirst, OrderDual.toDual_le_toDual, Prod.Lex.toLex_le_toLex]
      rcases lt_or_eq_of_le hle with hlt | heq
      · exact Or.inl hlt
      · exact Or.inr ⟨heq, le_of_lt hids⟩

/-! ## Two reviews at the same time -/

/-- A review of the location by a user, in a transaction that begins at `clock`. -/
def reviewAt (author : UserId) (clock : Instant) : ReviewCall :=
  { fiveStars author with clock }

/-- The transaction of the user 1 begins first, and that of the user 2 inserts
first; then one after the other goes on to its commit. -/
def crossedInserts : List (Label ReviewCall) :=
  [.start (reviewAt 2 20), .start (reviewAt 1 10), .exec 1, .exec 0,
    .exec 0, .exec 1, .exec 0, .exec 0, .exec 0, .exec 0,
    .exec 1, .exec 1, .exec 1, .exec 1]

theorem listActive_misses :
    ∃ s : ReviewSystem, Run ReviewStep ⟨unratedRows, 1, []⟩ crossedInserts s ∧
      allAnswered s = true ∧ ¬ VisitsReviews s.committed s.serial 1 := by
  have hrun : (crossedInserts.foldlM (System.next ReviewCall.script)
      (⟨unratedRows, 1, []⟩ : ReviewSystem)).any (fun s => allAnswered s &&
        (activeRows s.committed s.serial 1).map (fun x => (x.1, x.2.createdAt)) ==
          [(1, 20), (2, 10)]) = true := by
    decide +kernel
  obtain ⟨s, hs, hcheck⟩ := Option.any_eq_true _ _ |>.mp hrun
  simp only [Bool.and_eq_true, beq_iff_eq] at hcheck
  refine ⟨s, Run.of_foldlM hs, hcheck.1, fun hvisits => ?_⟩
  have haligned := visitsReviews_iff_aligned.mp hvisits
  have hplace : ∀ p ∈ [(1, (20 : Instant)), (2, 10)],
      ∃ x ∈ activeRows s.committed s.serial 1, (x.1, x.2.createdAt) = p := by
    rw [← hcheck.2]
    exact fun p hp => List.mem_map.mp hp
  obtain ⟨x, hx, hxp⟩ := hplace (1, 20) (by simp)
  obtain ⟨y, hy, hyp⟩ := hplace (2, 10) (by simp)
  obtain ⟨hx₁, hx₂⟩ := Prod.mk.inj hxp
  obtain ⟨hy₁, hy₂⟩ := Prod.mk.inj hyp
  -- The later id is behind the earlier one in the order, and before it for the cursor.
  have hlt : idDescending y < idDescending x := by
    rw [idDescending, idDescending, hx₁, hy₁]
    decide
  have hle := haligned.mono y hy x hx hlt
  rw [newestFirst, newestFirst, hx₁, hx₂, hy₁, hy₂] at hle
  exact absurd hle (by decide)

end BikesNest.Community
