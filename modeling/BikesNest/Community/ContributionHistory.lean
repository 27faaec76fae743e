import BikesNest.Community.Aggregate
import BikesNest.Lib.Paging
import Mathlib.Data.Prod.Lex
import Mathlib.Logic.Encodable.Basic

/-!
# The contribution history

One feed of everything a user has contributed, from eight tables.  Each row gets
the synthetic id `pk * 10 + tag` with the tag of its source, and the feed goes
from the newest to the oldest by `(at, id)`.

`IsContribution` says what belongs to the feed, source by source.  The ids tell
all rows apart (`nodup_ids`), so that a reader who follows the cursor sees
exactly these rows (`history_exact`).

`Db` keeps the revisions of a location with the location; `revisionId` is the
identity column of `parking_revision`.
-/

namespace BikesNest.Community

open Domain Store Relational

/-- `ContributionItem`. -/
structure ContributionItem where
  kind : String
  target : String
  state : String
  createdAt : Instant
  id : Nat
deriving DecidableEq

/-! ## The sources -/

section Sources

variable {ρ : Type} (db : Db) (revisionId : Nat → Int → Nat) (user : UserId)

/-- A source that joins its rows to their location. -/
def joined (t : Table ρ) (mine : ρ → Bool) (location : ρ → Option Nat)
    (event : Nat → ρ → String → ContributionItem) : List ContributionItem :=
  (t.select fun _ r => mine r).filterMap fun x =>
    (location x.2).bind fun l =>
      (db.parkingLocation.row l).map fun rec => event x.1 x.2 rec.row.name

def added : List ContributionItem :=
  (db.parkingLocation.select fun _ rec => rec.row.creatorId == some user).filterMap fun x =>
    some ⟨"added", x.2.row.name, "active", x.2.row.createdAt, x.1 * 10 + 1⟩

def edited : List ContributionItem :=
  db.parkingLocation.rows.flatMap fun x =>
    (x.2.revisions.filter fun rev => rev.editorId == some user && rev.changeKind == .edit).map
      fun rev =>
        ⟨"edited", x.2.row.name, "history", rev.createdAt, revisionId x.1 rev.version * 10 + 2⟩

def proposed : List ContributionItem :=
  joined db db.parkingProposal (fun p => p.proposerId == some user) (fun p => some p.locationId)
    fun pk p name => ⟨"proposed", name, "pending", p.createdAt, pk * 10 + 3⟩

def reviewed : List ContributionItem :=
  joined db db.review (fun r => r.authorId == some user) (fun r => some r.locationId)
    fun pk r name => ⟨"reviewed", name, "active", r.createdAt, pk * 10 + 4⟩

def verified : List ContributionItem :=
  joined db db.verification (fun v => v.userId == some user) (fun v => some v.locationId)
    fun pk v name =>
      ⟨if v.kind = .parkedHere then "parked_here" else "verified", name, "active", v.createdAt,
        pk * 10 + 5⟩

def favorited : List ContributionItem :=
  joined db db.favorite (fun f => f.userId == user) (fun f => some f.locationId)
    fun _ f name => ⟨"favorited", name, "active", f.createdAt, f.locationId * 10 + 6⟩

/-- Is a photo the user's own, and pending? -/
def isPendingOf (ph : Photo) : Bool :=
  ph.uploaderId == some user && ph.moderationState == .pendingReview

def pendingParking : List ContributionItem :=
  joined db db.parkingPhoto (isPendingOf user) (fun ph => some ph.parentId)
    fun pk ph name => ⟨"photo.pending", name, "pending", ph.createdAt, pk * 10 + 7⟩

def pendingReview : List ContributionItem :=
  joined db db.reviewPhoto (isPendingOf user)
    (fun ph => (db.review.row ph.parentId).map Review.locationId)
    fun pk ph name => ⟨"photo.pending", name, "pending", ph.createdAt, pk * 10 + 8⟩

/-- The sources with their tags. -/
def sources : List (Nat × List ContributionItem) :=
  [(1, added db user), (2, edited db revisionId user), (3, proposed db user),
    (4, reviewed db user), (5, verified db user), (6, favorited db user),
    (7, pendingParking db user), (8, pendingReview db user)]

/-- The common table expression `events`. -/
def events : List ContributionItem := (sources db revisionId user).flatMap Prod.snd

end Sources

/-- `ORDER BY at DESC, id DESC`, and the cursor. -/
def newestEvent (e : ContributionItem) : (Instant ×ₗ Nat)ᵒᵈ :=
  OrderDual.toDual (toLex (e.createdAt, e.id))

/-- `history`. -/
def history (db : Db) (revisionId : Nat → Int → Nat) (user : UserId)
    (after : Option (Instant × Nat)) (limit : Int) : List ContributionItem :=
  Paging.fetch newestEvent newestEvent (events db revisionId user) (Paging.clamp 200 limit)
    (after.map fun at' => OrderDual.toDual (toLex at'))

/-! ## What belongs to the feed -/

/-- A contribution of the user: a row of one of the eight tables, with the name of
its location. -/
inductive IsContribution (db : Db) (revisionId : Nat → Int → Nat) (user : UserId) :
    ContributionItem → Prop where
  | added {i : Nat} {rec : LocationRecord} (hloc : db.parkingLocation.row i = some rec)
      (hmine : rec.row.creatorId = some user) :
      IsContribution db revisionId user
        ⟨"added", rec.row.name, "active", rec.row.createdAt, i * 10 + 1⟩
  | edited {i : Nat} {rec : LocationRecord} {rev : ParkingRevision}
      (hloc : db.parkingLocation.row i = some rec) (hrev : rev ∈ rec.revisions)
      (hmine : rev.editorId = some user) (hkind : rev.changeKind = .edit) :
      IsContribution db revisionId user
        ⟨"edited", rec.row.name, "history", rev.createdAt, revisionId i rev.version * 10 + 2⟩
  | proposed {i : Nat} {p : ParkingProposal} {rec : LocationRecord}
      (hrow : db.parkingProposal.row i = some p) (hmine : p.proposerId = some user)
      (hloc : db.parkingLocation.row p.locationId = some rec) :
      IsContribution db revisionId user
        ⟨"proposed", rec.row.name, "pending", p.createdAt, i * 10 + 3⟩
  | reviewed {i : Nat} {r : Review} {rec : LocationRecord}
      (hrow : db.review.row i = some r) (hmine : r.authorId = some user)
      (hloc : db.parkingLocation.row r.locationId = some rec) :
      IsContribution db revisionId user
        ⟨"reviewed", rec.row.name, "active", r.createdAt, i * 10 + 4⟩
  | verified {i : Nat} {v : Verification} {rec : LocationRecord}
      (hrow : db.verification.row i = some v) (hmine : v.userId = some user)
      (hloc : db.parkingLocation.row v.locationId = some rec) :
      IsContribution db revisionId user
        ⟨if v.kind = .parkedHere then "parked_here" else "verified", rec.row.name, "active",
          v.createdAt, i * 10 + 5⟩
  | favorited {i : Nat} {f : Favorite} {rec : LocationRecord}
      (hrow : db.favorite.row i = some f) (hmine : f.userId = user)
      (hloc : db.parkingLocation.row f.locationId = some rec) :
      IsContribution db revisionId user
        ⟨"favorited", rec.row.name, "active", f.createdAt, f.locationId * 10 + 6⟩
  | pendingParking {i : Nat} {ph : Photo} {rec : LocationRecord}
      (hrow : db.parkingPhoto.row i = some ph) (hmine : ph.uploaderId = some user)
      (hpending : ph.moderationState = .pendingReview)
      (hloc : db.parkingLocation.row ph.parentId = some rec) :
      IsContribution db revisionId user
        ⟨"photo.pending", rec.row.name, "pending", ph.createdAt, i * 10 + 7⟩
  | pendingReview {i : Nat} {ph : Photo} {r : Review} {rec : LocationRecord}
      (hrow : db.reviewPhoto.row i = some ph) (hmine : ph.uploaderId = some user)
      (hpending : ph.moderationState = .pendingReview)
      (hreview : db.review.row ph.parentId = some r)
      (hloc : db.parkingLocation.row r.locationId = some rec) :
      IsContribution db revisionId user
        ⟨"photo.pending", rec.row.name, "pending", ph.createdAt, i * 10 + 8⟩

/-- The keys of the tables that the feed reads: `parking_revision` by its id and by
location and version, `favorite` by user and location. -/
structure HistoryKeys (db : Db) (revisionId : Nat → Int → Nat) : Prop where
  revision : ∀ l v l' v', revisionId l v = revisionId l' v' → l = l' ∧ v = v'
  version : ∀ l rec, db.parkingLocation.row l = some rec →
    (rec.revisions.map ParkingRevision.version).Nodup
  favorite : ∀ i f j g, db.favorite.row i = some f → db.favorite.row j = some g →
    f.userId = g.userId → f.locationId = g.locationId → i = j

section Feed

variable {ρ : Type} {db : Db} {revisionId : Nat → Int → Nat} {user : UserId}

theorem mem_joined {t : Table ρ} {mine : ρ → Bool} {location : ρ → Option Nat}
    {event : Nat → ρ → String → ContributionItem} {e : ContributionItem} :
    e ∈ joined db t mine location event ↔ ∃ i r l rec, t.row i = some r ∧ mine r = true ∧
      location r = some l ∧ db.parkingLocation.row l = some rec ∧ event i r rec.row.name = e := by
  simp only [joined, List.mem_filterMap, Option.bind_eq_some_iff, Option.map_eq_some_iff]
  constructor
  · rintro ⟨⟨i, r⟩, hx, l, hl, rec, hrec, rfl⟩
    obtain ⟨hrow, hmine⟩ := Table.mem_select.mp hx
    exact ⟨i, r, l, rec, hrow, hmine, hl, hrec, rfl⟩
  · rintro ⟨i, r, l, rec, hrow, hmine, hl, hrec, rfl⟩
    exact ⟨(i, r), Table.mem_select.mpr ⟨hrow, hmine⟩, l, hl, rec, hrec, rfl⟩

theorem mem_events {e : ContributionItem} :
    e ∈ events db revisionId user ↔ IsContribution db revisionId user e := by
  simp only [events, sources, List.mem_flatMap, List.mem_cons, List.not_mem_nil, or_false,
    exists_eq_or_imp, exists_eq_left]
  constructor
  · rintro (h | h | h | h | h | h | h | h)
    · obtain ⟨⟨i, rec⟩, hx, he⟩ := List.mem_filterMap.mp h
      obtain ⟨hloc, hmine⟩ := Table.mem_select.mp hx
      cases he
      exact .added hloc (by simpa using hmine)
    · obtain ⟨⟨i, rec⟩, hx, he⟩ := List.mem_flatMap.mp h
      obtain ⟨rev, hrev, rfl⟩ := List.mem_map.mp he
      obtain ⟨hrev, hmine⟩ := List.mem_filter.mp hrev
      rw [Bool.and_eq_true, beq_iff_eq, beq_iff_eq] at hmine
      exact .edited (Table.mem_rows.mp hx) hrev hmine.1 hmine.2
    · obtain ⟨i, p, l, rec, hrow, hmine, hl, hloc, rfl⟩ := mem_joined.mp h
      cases hl
      exact .proposed hrow (by simpa using hmine) hloc
    · obtain ⟨i, r, l, rec, hrow, hmine, hl, hloc, rfl⟩ := mem_joined.mp h
      cases hl
      exact .reviewed hrow (by simpa using hmine) hloc
    · obtain ⟨i, v, l, rec, hrow, hmine, hl, hloc, rfl⟩ := mem_joined.mp h
      cases hl
      exact .verified hrow (by simpa using hmine) hloc
    · obtain ⟨i, f, l, rec, hrow, hmine, hl, hloc, rfl⟩ := mem_joined.mp h
      cases hl
      exact .favorited hrow (by simpa using hmine) hloc
    · obtain ⟨i, ph, l, rec, hrow, hmine, hl, hloc, rfl⟩ := mem_joined.mp h
      rw [isPendingOf, Bool.and_eq_true, beq_iff_eq, beq_iff_eq] at hmine
      cases hl
      exact .pendingParking hrow hmine.1 hmine.2 hloc
    · obtain ⟨i, ph, l, rec, hrow, hmine, hl, hloc, rfl⟩ := mem_joined.mp h
      rw [isPendingOf, Bool.and_eq_true, beq_iff_eq, beq_iff_eq] at hmine
      obtain ⟨r, hreview, rfl⟩ := Option.map_eq_some_iff.mp hl
      exact .pendingReview hrow hmine.1 hmine.2 hreview hloc
  · intro h
    cases h with
    | added hloc hmine =>
      exact .inl (List.mem_filterMap.mpr ⟨_, Table.mem_select.mpr ⟨hloc, by simpa using hmine⟩, rfl⟩)
    | edited hloc hrev hmine hkind =>
      refine .inr (.inl (List.mem_flatMap.mpr ⟨_, Table.mem_rows.mpr hloc, ?_⟩))
      refine List.mem_map.mpr ⟨_, List.mem_filter.mpr ⟨hrev, ?_⟩, rfl⟩
      rw [Bool.and_eq_true, beq_iff_eq, beq_iff_eq]
      exact ⟨hmine, hkind⟩
    | proposed hrow hmine hloc =>
      exact .inr (.inr (.inl (mem_joined.mpr
        ⟨_, _, _, _, hrow, by simpa using hmine, rfl, hloc, rfl⟩)))
    | reviewed hrow hmine hloc =>
      exact .inr (.inr (.inr (.inl (mem_joined.mpr
        ⟨_, _, _, _, hrow, by simpa using hmine, rfl, hloc, rfl⟩))))
    | verified hrow hmine hloc =>
      exact .inr (.inr (.inr (.inr (.inl (mem_joined.mpr
        ⟨_, _, _, _, hrow, by simpa using hmine, rfl, hloc, rfl⟩)))))
    | favorited hrow hmine hloc =>
      exact .inr (.inr (.inr (.inr (.inr (.inl (mem_joined.mpr
        ⟨_, _, _, _, hrow, by simpa using hmine, rfl, hloc, rfl⟩))))))
    | pendingParking hrow hmine hpending hloc =>
      exact .inr (.inr (.inr (.inr (.inr (.inr (.inl (mem_joined.mpr
        ⟨_, _, _, _, hrow, by simp [isPendingOf, hmine, hpending], rfl, hloc, rfl⟩)))))))
    | pendingReview hrow hmine hpending hreview hloc =>
      exact .inr (.inr (.inr (.inr (.inr (.inr (.inr (mem_joined.mpr
        ⟨_, _, _, _, hrow, by simp [isPendingOf, hmine, hpending], by rw [hreview]; rfl, hloc,
          rfl⟩)))))))

/-! ## The ids -/

/-- The ids of a source end in its tag and are all different. -/
structure Tagged (x : Nat × List ContributionItem) : Prop where
  digit : ∀ e ∈ x.2, e.id % 10 = x.1
  nodup : (x.2.map ContributionItem.id).Nodup

/-- Sources with different tags have different ids. -/
theorem nodup_of_tagged {tagged : List (Nat × List ContributionItem)}
    (htags : (tagged.map Prod.fst).Nodup) (h : ∀ x ∈ tagged, Tagged x) :
    ((tagged.flatMap Prod.snd).map ContributionItem.id).Nodup := by
  induction tagged with
  | nil => exact List.nodup_nil
  | cons x tagged ih =>
    rw [List.map_cons, List.nodup_cons] at htags
    rw [List.flatMap_cons, List.map_append, List.nodup_append]
    have hrest : ∀ y ∈ tagged, Tagged y := fun y hy => h y (List.mem_cons_of_mem _ hy)
    refine ⟨(h x List.mem_cons_self).nodup, ih htags.2 hrest, ?_⟩
    intro a ha b hb hab
    obtain ⟨e, he, rfl⟩ := List.mem_map.mp ha
    obtain ⟨e', he', rfl⟩ := List.mem_map.mp hb
    obtain ⟨y, hy, he'⟩ := List.mem_flatMap.mp he'
    have hx := (h x List.mem_cons_self).digit e he
    rw [hab, (hrest y hy).digit e' he'] at hx
    exact htags.1 (hx ▸ List.mem_map_of_mem hy)

theorem digit_joined {t : Table ρ} {mine : ρ → Bool} {location : ρ → Option Nat}
    {event : Nat → ρ → String → ContributionItem} {tag : Nat}
    (hid : ∀ i r name, (event i r name).id % 10 = tag) :
    ∀ e ∈ joined db t mine location event, e.id % 10 = tag := by
  intro e he
  obtain ⟨i, r, l, rec, -, -, -, -, rfl⟩ := mem_joined.mp he
  exact hid i r rec.row.name

/-- A source with the key of its row in the id. -/
theorem tagged_joined {t : Table ρ} {mine : ρ → Bool} {location : ρ → Option Nat}
    {event : Nat → ρ → String → ContributionItem} {tag : Nat} (htag : tag < 10)
    (hid : ∀ i r name, (event i r name).id = i * 10 + tag) :
    Tagged (tag, joined db t mine location event) := by
  refine ⟨digit_joined fun i r name => by rw [hid]; omega, ?_⟩
  refine List.Nodup.of_map (fun n => n / 10) ?_
  rw [List.map_map]
  refine t.nodup_filterMap_select _ fun x e he => ?_
  obtain ⟨l, -, he⟩ := Option.bind_eq_some_iff.mp he
  obtain ⟨rec, -, rfl⟩ := Option.map_eq_some_iff.mp he
  show (event x.1 x.2 rec.row.name).id / 10 = x.1
  rw [hid]
  omega

theorem tagged_added : Tagged (1, added db user) := by
  constructor
  · intro e he
    obtain ⟨x, -, he⟩ := List.mem_filterMap.mp he
    cases he
    exact Nat.mul_add_mod_of_lt (by decide)
  · refine List.Nodup.of_map (fun n => n / 10) ?_
    rw [List.map_map]
    refine db.parkingLocation.nodup_filterMap_select _ fun x e he => ?_
    cases he
    show (x.1 * 10 + 1) / 10 = x.1
    omega

theorem tagged_edited (hkeys : HistoryKeys db revisionId) :
    Tagged (2, edited db revisionId user) := by
  constructor
  · intro e he
    obtain ⟨x, -, he⟩ := List.mem_flatMap.mp he
    obtain ⟨rev, -, rfl⟩ := List.mem_map.mp he
    exact Nat.mul_add_mod_of_lt (by decide)
  show ((edited db revisionId user).map ContributionItem.id).Nodup
  rw [edited, List.map_flatMap, List.nodup_flatMap]
  constructor
  · intro x hx
    have hversions := hkeys.version x.1 x.2 (Table.mem_rows.mp hx)
    rw [List.map_map, List.Nodup, List.pairwise_map]
    rw [List.Nodup, List.pairwise_map] at hversions
    refine (hversions.sublist List.filter_sublist).imp fun {a b} hne heq => hne ?_
    have hids : revisionId x.1 a.version = revisionId x.1 b.version := by
      have : revisionId x.1 a.version * 10 + 2 = revisionId x.1 b.version * 10 + 2 := heq
      omega
    exact (hkeys.revision _ _ _ _ hids).2
  · have hlocations := db.parkingLocation.nodup_keys
    rw [List.Nodup, List.pairwise_map] at hlocations
    refine hlocations.imp fun {x y} hne => ?_
    intro n hx hy
    obtain ⟨e, he, rfl⟩ := List.mem_map.mp hx
    obtain ⟨a, -, rfl⟩ := List.mem_map.mp he
    obtain ⟨e', he', hids⟩ := List.mem_map.mp hy
    obtain ⟨b, -, rfl⟩ := List.mem_map.mp he'
    have heq : revisionId y.1 b.version = revisionId x.1 a.version := by
      have : revisionId y.1 b.version * 10 + 2 = revisionId x.1 a.version * 10 + 2 := hids
      omega
    exact hne (hkeys.revision _ _ _ _ heq).1.symm

/-- The id of a favorite is that of its location, and a user has one favorite for a
location. -/
theorem tagged_favorited (hkeys : HistoryKeys db revisionId) :
    Tagged (6, favorited db user) := by
  have hdigit : ∀ e ∈ favorited db user, e.id % 10 = 6 :=
    digit_joined fun _ _ _ => Nat.mul_add_mod_of_lt (by decide)
  refine ⟨hdigit, ?_⟩
  show ((favorited db user).map ContributionItem.id).Nodup
  have hrows : ((db.favorite.select fun _ f => f.userId == user)).Pairwise fun x y =>
      x.2.locationId ≠ y.2.locationId := by
    have hnodup : ((db.favorite.select fun _ f => f.userId == user).map Prod.fst).Nodup :=
      db.favorite.nodup_keys.sublist (List.filter_sublist.map Prod.fst)
    rw [List.Nodup, List.pairwise_map] at hnodup
    refine hnodup.imp_of_mem fun {x y} hx hy hne heq => hne ?_
    obtain ⟨hrow, huser⟩ := Table.mem_select.mp hx
    obtain ⟨hrow', huser'⟩ := Table.mem_select.mp hy
    rw [beq_iff_eq] at huser huser'
    exact hkeys.favorite _ _ _ _ hrow hrow' (huser.trans huser'.symm) heq
  rw [favorited, joined, List.Nodup, List.pairwise_map, List.pairwise_filterMap]
  refine hrows.imp fun {x y} hne e he e' he' heq => hne ?_
  obtain ⟨l, -, he⟩ := Option.bind_eq_some_iff.mp he
  obtain ⟨rec, -, rfl⟩ := Option.map_eq_some_iff.mp he
  obtain ⟨l', -, he'⟩ := Option.bind_eq_some_iff.mp he'
  obtain ⟨rec', -, rfl⟩ := Option.map_eq_some_iff.mp he'
  have : x.2.locationId * 10 + 6 = y.2.locationId * 10 + 6 := heq
  omega

theorem tagged_sources (hkeys : HistoryKeys db revisionId) :
    ∀ x ∈ sources db revisionId user, Tagged x := by
  intro x hx
  simp only [sources, List.mem_cons, List.not_mem_nil, or_false] at hx
  rcases hx with rfl | rfl | rfl | rfl | rfl | rfl | rfl | rfl
  · exact tagged_added
  · exact tagged_edited hkeys
  · exact tagged_joined (by decide) fun _ _ _ => rfl
  · exact tagged_joined (by decide) fun _ _ _ => rfl
  · exact tagged_joined (by decide) fun _ _ _ => rfl
  · exact tagged_favorited hkeys
  · exact tagged_joined (by decide) fun _ _ _ => rfl
  · exact tagged_joined (by decide) fun _ _ _ => rfl

/-- No two rows of the feed have the same id. -/
theorem nodup_ids (hkeys : HistoryKeys db revisionId) :
    ((events db revisionId user).map ContributionItem.id).Nodup := by
  refine nodup_of_tagged ?_ (tagged_sources hkeys)
  show [1, 2, 3, 4, 5, 6, 7, 8].Nodup
  decide

end Feed

/-! ## The whole feed -/

/-- A reader comes to the end of the feed and has seen its rows in order. -/
theorem history_walk {db : Db} {revisionId : Nat → Int → Nat} (hkeys : HistoryKeys db revisionId)
    (user : UserId) (limit : Int) :
    ∃ seen, Paging.Walk newestEvent (Paging.clamp 200 limit)
        (fun cursor => history db revisionId user
          (cursor.map fun at' => ofLex (OrderDual.ofDual at')) limit) none seen ∧
      seen.Perm (events db revisionId user) ∧
      seen.Pairwise fun e e' => newestEvent e < newestEvent e' := by
  have hplaces : ((events db revisionId user).map newestEvent).Nodup := by
    refine List.Nodup.of_map (fun k : (Instant ×ₗ Nat)ᵒᵈ => (ofLex (OrderDual.ofDual k)).2) ?_
    rw [List.map_map]
    exact nodup_ids hkeys
  have hanswer : (fun cursor : Option (Instant ×ₗ Nat)ᵒᵈ => history db revisionId user
        (cursor.map fun at' => ofLex (OrderDual.ofDual at')) limit) =
      Paging.fetch newestEvent newestEvent (events db revisionId user)
        (Paging.clamp 200 limit) := by
    funext cursor
    cases cursor <;> rfl
  have haligned : Paging.Aligned newestEvent newestEvent (events db revisionId user) :=
    ⟨hplaces, fun _ _ _ _ => le_of_lt⟩
  rw [hanswer]
  exact (Paging.fetch_exhaustive_iff hplaces (fun _ _ h => h) 200).mpr haligned limit

/-- With any limit, a reader who follows the cursor from the start sees every
contribution of the user once, the newest first. -/
theorem history_exact (db : Db) (revisionId : Nat → Int → Nat)
    (hkeys : HistoryKeys db revisionId) (user : UserId) (limit : Int) :
    ∃ seen, Paging.Walk newestEvent (Paging.clamp 200 limit)
        (fun cursor => history db revisionId user
          (cursor.map fun at' => ofLex (OrderDual.ofDual at')) limit) none seen ∧
      (∀ e, e ∈ seen ↔ IsContribution db revisionId user e) ∧
      seen.Pairwise fun e e' =>
        e'.createdAt < e.createdAt ∨ (e'.createdAt = e.createdAt ∧ e'.id < e.id) := by
  obtain ⟨seen, hwalk, hperm, hsorted⟩ := history_walk hkeys user limit
  refine ⟨seen, hwalk, fun e => hperm.mem_iff.trans mem_events, ?_⟩
  refine hsorted.imp fun {e e'} hlt => ?_
  rwa [newestEvent, newestEvent, OrderDual.toDual_lt_toDual, Prod.Lex.toLex_lt_toLex] at hlt

/-- A location that its creator reviews and likes at once. -/
def busyContributor : Db :=
  { Db.empty 0 with
    parkingLocation := Table.empty.insert { row := { unrated with creatorId := some 1 } }
    review := Table.empty.insert
      { locationId := 1, authorId := some 1, rating := 5, body := "good"
        createdAt := 0, updatedAt := 0 }
    favorite := Table.empty.insert ⟨1, 1, 0⟩ }

theorem historyKeys_busyContributor :
    HistoryKeys busyContributor fun l v => Encodable.encode (l, v) := by
  constructor
  · intro l v l' v' h
    exact Prod.mk.inj (Encodable.encode_injective h)
  · intro l rec hrec
    rcases Table.row_insert_eq_some.mp hrec with ⟨-, rfl⟩ | h
    · exact List.nodup_nil
    · cases h
  · intro i f j g hf hg _ _
    rcases Table.row_insert_eq_some.mp hf with ⟨rfl, -⟩ | h
    · rcases Table.row_insert_eq_some.mp hg with ⟨rfl, -⟩ | h
      · rfl
      · cases h
    · cases h

theorem history_exact_busyContributor :
    HistoryKeys busyContributor (fun l v => Encodable.encode (l, v)) ∧
      ∃ seen, Paging.Walk newestEvent (Paging.clamp 200 1)
          (fun cursor => history busyContributor (fun l v => Encodable.encode (l, v)) 1
            (cursor.map fun at' => ofLex (OrderDual.ofDual at')) 1) none seen ∧
        (∀ e, e ∈ seen ↔
          IsContribution busyContributor (fun l v => Encodable.encode (l, v)) 1 e) ∧
        seen.Pairwise fun e e' =>
          e'.createdAt < e.createdAt ∨ (e'.createdAt = e.createdAt ∧ e'.id < e.id) :=
  ⟨historyKeys_busyContributor, history_exact busyContributor _ historyKeys_busyContributor 1 1⟩

end BikesNest.Community
