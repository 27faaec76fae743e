import BikesNest.Photos.Operations

/-!
# Stored photos have their objects

Any number of operations on photos run at the same time, and each of their calls may be
lost.  In every run from a sound store in which no lost call has added a photo, and none has
come later than the term after the whole second of its first object, every photo that is not
rejected keeps both of its objects.

A sweep reads the times of the objects in `S3ObjectStorage::list`, which drops the fraction of
the second: it may take an object that long before its term is over (`not_stocked_lateInsert`).

The invariant follows the uploads.  An upload that has not yet added its row is at a
`Stage`, and its objects are there or its time is over.  `Aged` and `Dead` are what the
other threads may know of the keys: both only grow, so that what a sweep has found in
one call still holds when it deletes.
-/

namespace BikesNest.Photos

open Domain Store Relational Runs Threads
open Moderation (PhotoKind)
open Privacy (photos holdsKey RetentionPolicy)

/-! ## What is stored -/

/-- Both objects of the photo are there. -/
def hasObjects (m : Media) (r : Photo) : Bool :=
  (m.objects r.storageKey).isSome && r.thumbnailKey.any fun key => (m.objects key).isSome

/-- A pending, approved or hidden photo has both of its objects. -/
def Stocked (m : Media) : Prop :=
  ∀ kind i r, (photos m.db kind).row i = some r → isLive r = true → hasObjects m r = true

/-- No two photos share an object. -/
def Unshared (db : Db) : Prop :=
  ∀ {kind kind' i i' r r' key}, (photos db kind).row i = some r →
    (photos db kind').row i' = some r' → key ∈ keysOf r → key ∈ keysOf r' →
      kind = kind' ∧ i = i'

structure Sound (m : Media) : Prop where
  stocked : Stocked m
  unshared : Unshared m.db

variable {db : Db} {m : Media} {r : Photo} {key : String}

theorem hasObjects_iff : hasObjects m r = true ↔
    r.thumbnailKey.isSome = true ∧ ∀ key ∈ keysOf r, (m.objects key).isSome = true := by
  unfold hasObjects keysOf
  cases r.thumbnailKey with
  | none => simp
  | some thumb => simp

theorem thumbnailKey_of_keysOf {r r' : Photo} (h : keysOf r' = keysOf r) :
    r'.thumbnailKey = r.thumbnailKey := by
  have htail : r'.thumbnailKey.toList = r.thumbnailKey.toList := (List.cons.inj h).2
  cases hnew : r'.thumbnailKey with
  | none => cases hold : r.thumbnailKey <;> simp_all
  | some thumb => cases hold : r.thumbnailKey <;> simp_all

theorem holdsKey_iff {table : Table Photo} : holdsKey table key = true ↔
    ∃ i r, table.row i = some r ∧ key ∈ keysOf r := by
  unfold holdsKey
  rw [Table.any_iff]
  simp only [Bool.or_eq_true, beq_iff_eq, keysOf, List.mem_cons, Option.mem_toList,
    eq_comm (a := key)]

theorem isReferenced_iff : isReferenced db key = true ↔
    ∃ kind i r, (photos db kind).row i = some r ∧ key ∈ keysOf r := by
  unfold isReferenced
  rw [Bool.or_eq_true, holdsKey_iff, holdsKey_iff]
  constructor
  · intro h
    cases h with
    | inl h => exact ⟨.parking, h⟩
    | inr h => exact ⟨.review, h⟩
  · intro ⟨kind, h⟩
    cases kind with
    | parking => exact .inl h
    | review => exact .inr h

theorem not_mem_of_unreferenced {kind : PhotoKind} {i : Nat} (h : isReferenced db key = false)
    (hr : (photos db kind).row i = some r) : key ∉ keysOf r := by
  intro hkey
  rw [isReferenced_iff.mpr ⟨kind, i, r, hr, hkey⟩] at h
  cases h

/-- A photo after an insert is the new one or an old one. -/
theorem row_insertPhoto {kind kind' : PhotoKind} {i : Nat} {r' : Photo}
    (h : (photos (insertPhoto db kind r) kind').row i = some r') :
    (kind' = kind ∧ i = (photos db kind).next ∧ r' = r) ∨ (photos db kind').row i = some r' := by
  cases kind with
  | parking =>
    cases kind' with
    | parking =>
      rcases Table.row_insert_eq_some.mp h with ⟨hi, hr⟩ | hold
      · exact .inl ⟨rfl, hi, hr⟩
      · exact .inr hold
    | review => exact .inr h
  | review =>
    cases kind' with
    | parking => exact .inr h
    | review =>
      rcases Table.row_insert_eq_some.mp h with ⟨hi, hr⟩ | hold
      · exact .inl ⟨rfl, hi, hr⟩
      · exact .inr hold

theorem row_insertPhoto_next {kind : PhotoKind} :
    (photos (insertPhoto db kind r) kind).row (photos db kind).next = some r := by
  cases kind <;> exact Table.row_insert_next ..

/-! ## The pool -/

/-- The keys that an upload mints. -/
def Upload.keys (x : Upload) : List String := [fullKey x.uploadId, thumbKey x.uploadId]

def PhotoOp.keys : PhotoOp → List String
  | .upload x => x.keys
  | _ => []

abbrev PhotoThread := Thread Media Unit Unit PhotoOp

abbrev PhotoPool := Pool Media Unit Unit PhotoOp

/-- When the first call of a thread has reached the store: the write of the full image,
for an upload. -/
def firstCall (t : PhotoThread) : Option Instant := t.found.head?.map fun x => x.2.now

/-- An object or a photo of the first store has the key, or an upload has minted it. -/
def known (m₀ : Media) (p : PhotoPool) (key : String) : Bool :=
  (m₀.objects key).isSome || isReferenced m₀.db key ||
    (p.threads.map Thread.op).any fun op => op.keys.contains key

/-- The term of an upload is over. -/
def overdue (ttl : Int) (p : PhotoPool) (t : PhotoThread) : Bool :=
  (firstCall t).any fun start => start + ttl ≤ p.store.now

/-- To a listing in whole seconds the term of an upload is over. -/
def expired (ttl : Int) (p : PhotoPool) (t : PhotoThread) : Bool :=
  (firstCall t).any fun start => wholeSecond start + ttl < p.store.now

/-- A photo table has given out a key. -/
def insertsPhoto (db db' : Db) : Bool :=
  db'.parkingPhoto.next != db.parkingPhoto.next || db'.reviewPhoto.next != db.reviewPhoto.next

/-- The next call of thread `i` adds a photo. -/
def addsPhoto (p : PhotoPool) (i : Nat) : Bool :=
  match p.threads[i]? with
  | some ⟨_, _, .call write _ _⟩ => insertsPhoto p.store.db (write p.store).db
  | _ => false

/-- The identifiers that uploads mint are new, a sweep has its time from the clock, and an
upload inserts its row before the term after its first object is over. -/
def inTime (m₀ : Media) (ttl : Int) (p : PhotoPool) : Event PhotoOp → Bool
  | .start op =>
    op.keys.all (fun key => !known m₀ p key) && op.clock.all fun now => now ≤ p.store.now
  | e =>
    e.calls.all fun i => !addsPhoto p i || p.threads[i]?.all fun t => !overdue ttl p t

/-- An upload inserts its row before the term after the second of its first object is over. -/
def inSecond (ttl : Int) (p : PhotoPool) (e : Event PhotoOp) : Bool :=
  e.calls.all fun i => !addsPhoto p i || p.threads[i]?.all fun t => !expired ttl p t

/-- A call that is lost has added no photo. -/
def acknowledged (p : PhotoPool) : Event PhotoOp → Bool
  | .lose i true => !addsPhoto p i
  | _ => true

section Pool

variable {m₀ : Media} {ttl : Int} {p p' : PhotoPool} {t t' : PhotoThread} {i : Nat}

theorem known_iff : known m₀ p key = true ↔
    ((m₀.objects key).isSome = true ∨ isReferenced m₀.db key = true) ∨
      ∃ t ∈ p.threads, key ∈ t.op.keys := by
  simp [known]

/-! ## What the other threads may know -/

/-- No photo comes. -/
def NoNewPhoto (m m' : Media) : Prop :=
  ∀ kind i, (photos m.db kind).row i = none → (photos m'.db kind).row i = none

theorem Steady.noNewPhoto {m m' : Media} (h : Steady m m') : NoNewPhoto m m' := by
  intro kind i hnone
  by_contra hsome
  obtain ⟨r', hr'⟩ := Option.ne_none_iff_exists'.mp hsome
  obtain ⟨r, hr, _⟩ := h.db.rows hr'
  rw [hnone] at hr
  cases hr

/-- A thread that adds no photo any more, or not in time. -/
def Past (ttl : Int) (p : PhotoPool) (t : PhotoThread) : Prop :=
  t.rest.Respects NoNewPhoto ∨ expired ttl p t = true

/-- The keys that no upload adds a photo with any more. -/
def Aged (m₀ : Media) (ttl : Int) (p : PhotoPool) : Set String :=
  {key | known m₀ p key = true ∧ ∀ t ∈ p.threads, key ∈ t.op.keys → Past ttl p t}

/-- Those of them that no photo needs. -/
def Dead (m₀ : Media) (ttl : Int) (p : PhotoPool) : Set String :=
  {key | key ∈ Aged m₀ ttl p ∧
    ∀ kind i r, (photos p.store.db kind).row i = some r → isLive r = true → key ∉ keysOf r}

def knowledge (m₀ : Media) (ttl : Int) (p : PhotoPool) : Knowledge := (Aged m₀ ttl p, Dead m₀ ttl p)

/-! ## The invariant -/

/-- How far an upload is that has not yet added its photo. -/
inductive Stage (ttl : Int) (p : PhotoPool) (x : Upload) (t : PhotoThread) : Prop where
  | full (hrest : t.rest = x.write.void) (hfound : t.found = [])
  | thumb (hrest : t.rest = x.writeThumb.void)
      (hfull : (p.store.objects (fullKey x.uploadId)).isSome = true ∨ Past ttl p t)
  | row (hrest : t.rest = x.writeRow.void)
      (hboth : (∀ key ∈ x.keys, (p.store.objects key).isSome = true) ∨ Past ttl p t)

/-- A thread makes careful calls and adds no photo, or is an upload at some stage. -/
def Underway (m₀ : Media) (ttl : Int) (p : PhotoPool) (t : PhotoThread) : Prop :=
  (t.rest.Careful (licence ttl t.op.clock) (fun _ _ => True) (knowledge m₀ ttl p) ∧
    (t.op.keys ≠ [] → t.rest.Respects NoNewPhoto)) ∨
  ((∀ key ∈ t.op.keys, isReferenced p.store.db key = false) ∧
    ∃ x, t.op = .upload x ∧ Stage ttl p x t)

structure ThreadInv (m₀ : Media) (ttl : Int) (p : PhotoPool) (t : PhotoThread) : Prop where
  clock : ∀ now ∈ t.op.clock, now ≤ p.store.now
  /-- The objects of an upload are no older than its first call. -/
  written : ∀ key ∈ t.op.keys, ∀ time, p.store.objects key = some time →
    ∃ start, firstCall t = some start ∧ start ≤ time
  started : ∀ start, firstCall t = some start → start ≤ p.store.now
  underway : Underway m₀ ttl p t

structure Inv (m₀ : Media) (ttl : Int) (p : PhotoPool) : Prop where
  sound : Sound p.store
  objects : ∀ key, (p.store.objects key).isSome = true → known m₀ p key = true
  rows : ∀ key, isReferenced p.store.db key = true → known m₀ p key = true
  /-- No key is minted twice. -/
  minted : ∀ {i j : Nat} {t t' : PhotoThread} {key : String}, p.threads[i]? = some t → p.threads[j]? = some t' →
    key ∈ t.op.keys → key ∈ t'.op.keys → i = j
  threads : ∀ t ∈ p.threads, ThreadInv m₀ ttl p t

/-! ## The effect of a call -/

/-- What a call of the thread `t` does to the store. -/
inductive Effect (m₀ : Media) (ttl : Int) (p : PhotoPool) (t : PhotoThread) (m' : Media) : Prop where
  | steady (h : Steady p.store m')
  | delete {key : String} (hdead : key ∈ Dead m₀ ttl p) (h : m' = p.store.delete key)
  | put {key : String} (hkey : key ∈ t.op.keys) (h : m' = p.store.put key)
  | insert {kind : PhotoKind} {r : Photo} (hkeys : keysOf r = t.op.keys)
      (hobjects : hasObjects p.store r = true)
      (hunused : ∀ key ∈ t.op.keys, isReferenced p.store.db key = false)
      (hpast : ¬ Past ttl p t)
      (h : m' = { p.store with db := insertPhoto p.store.db kind r })

namespace Effect

variable {m' : Media}

/-- A call that the licence allows. -/
theorem of_allows (h : (licence ttl t.op.clock).allows (knowledge m₀ ttl p) p.store m') :
    Effect m₀ ttl p t m' := by
  rcases h with hsteady | ⟨key, hdead, hdelete⟩
  · exact .steady hsteady
  · exact .delete hdead hdelete

theorem now_le (h : Effect m₀ ttl p t m') : p.store.now ≤ m'.now := by
  cases h with
  | steady h => exact h.db.now
  | delete _ h => rw [h]; exact le_rfl
  | put _ h => rw [h]; exact le_rfl
  | @insert kind _ _ _ _ _ h => rw [h]; cases kind <;> exact le_rfl

/-- A photo after the call was there before, or is the one that the call has added. -/
theorem row (h : Effect m₀ ttl p t m') {kind : PhotoKind} {i : Nat} {r' : Photo}
    (hr' : (photos m'.db kind).row i = some r') :
    (∃ r, (photos p.store.db kind).row i = some r ∧ keysOf r' = keysOf r ∧
      (isLive r' = true → isLive r = true)) ∨
    (keysOf r' = t.op.keys ∧ ¬ Past ttl p t ∧ hasObjects m' r' = true) := by
  cases h with
  | steady h => exact .inl (h.db.rows hr')
  | delete _ h =>
    rw [h] at hr'
    exact .inl ⟨r', hr', rfl, fun h => h⟩
  | put _ h =>
    rw [h] at hr'
    exact .inl ⟨r', hr', rfl, fun h => h⟩
  | insert hkeys hobjects _ hpast h =>
    rw [h] at hr'
    rcases row_insertPhoto hr' with ⟨_, _, rfl⟩ | hold
    · rw [h]
      exact .inr ⟨hkeys, hpast, hobjects⟩
    · exact .inl ⟨r', hold, rfl, fun h => h⟩

/-- A key that a photo holds after the call was held before, or is one of the upload. -/
theorem referenced (h : Effect m₀ ttl p t m') (hkey : isReferenced m'.db key = true) :
    isReferenced p.store.db key = true ∨ key ∈ t.op.keys := by
  obtain ⟨kind, j, r', hr', hmem⟩ := isReferenced_iff.mp hkey
  rcases h.row hr' with ⟨r, hr, hkeys, _⟩ | ⟨hkeys, _⟩
  · exact .inl (isReferenced_iff.mpr ⟨kind, j, r, hr, hkeys ▸ hmem⟩)
  · exact .inr (hkeys ▸ hmem)

/-- An object after the call was there before, or is one that an upload has written. -/
theorem object (h : Effect m₀ ttl p t m') {time : Instant} (hkey : m'.objects key = some time) :
    p.store.objects key = some time ∨ (key ∈ t.op.keys ∧ time = p.store.now) := by
  cases h with
  | steady h =>
    rw [h.objects] at hkey
    exact .inl hkey
  | delete _ h =>
    rw [h, Media.objects_delete] at hkey
    split at hkey
    · cases hkey
    · exact .inl hkey
  | put hown h =>
    rw [h, Media.objects_put] at hkey
    split at hkey
    · rename_i hsame
      rw [hsame]
      exact .inr ⟨hown, (Option.some.inj hkey).symm⟩
    · exact .inl hkey
  | insert _ _ _ _ h =>
    rw [h] at hkey
    exact .inl hkey

/-- An object stays, unless its key is dead. -/
theorem kept (h : Effect m₀ ttl p t m') (hkey : (p.store.objects key).isSome = true) :
    (m'.objects key).isSome = true ∨ key ∈ Dead m₀ ttl p := by
  cases h with
  | steady h =>
    rw [h.objects]
    exact .inl hkey
  | delete hdead h =>
    rw [h, Media.objects_delete]
    split
    · rename_i hsame
      rw [hsame]
      exact .inr hdead
    · exact .inl hkey
  | put _ h =>
    rw [h, Media.objects_put]
    split
    · exact .inl rfl
    · exact .inl hkey
  | insert _ _ _ _ h =>
    rw [h]
    exact .inl hkey

/-- The photos that stay keep their objects, and a new one has them. -/
theorem stocked (h : Effect m₀ ttl p t m') (hs : Stocked p.store) : Stocked m' := by
  intro kind i r' hr' hlive
  rcases h.row hr' with ⟨r, hr, hkeys, hlive'⟩ | ⟨_, _, hobjects⟩
  · obtain ⟨hthumb, hobjects⟩ := hasObjects_iff.mp (hs kind i r hr (hlive' hlive))
    rw [hasObjects_iff, thumbnailKey_of_keysOf hkeys, hkeys]
    refine ⟨hthumb, fun key hkey => ?_⟩
    rcases h.kept (hobjects key hkey) with hthere | hdead
    · exact hthere
    · exact absurd hkey (hdead.2 kind i r hr (hlive' hlive))
  · exact hobjects

/-- Two photos that share an object after the call did so before, or are the new one. -/
theorem unshared (h : Effect m₀ ttl p t m') (hs : Unshared p.store.db) : Unshared m'.db := by
  intro kind kind' i i' r r' key hr hr' hkey hkey'
  cases h with
  | steady h =>
    obtain ⟨q, hq, hkeys, _⟩ := h.db.rows hr
    obtain ⟨q', hq', hkeys', _⟩ := h.db.rows hr'
    exact hs hq hq' (hkeys ▸ hkey) (hkeys' ▸ hkey')
  | delete _ h =>
    rw [h] at hr hr'
    exact hs hr hr' hkey hkey'
  | put _ h =>
    rw [h] at hr hr'
    exact hs hr hr' hkey hkey'
  | insert hkeys _ hunused _ h =>
    rw [h] at hr hr'
    rcases row_insertPhoto hr with ⟨rfl, rfl, rfl⟩ | hold
    · rcases row_insertPhoto hr' with ⟨rfl, rfl, _⟩ | hold'
      · exact ⟨rfl, rfl⟩
      · exact absurd hkey' (not_mem_of_unreferenced (hunused key (hkeys ▸ hkey)) hold')
    · rcases row_insertPhoto hr' with ⟨_, _, rfl⟩ | hold'
      · exact absurd hkey (not_mem_of_unreferenced (hunused key (hkeys ▸ hkey')) hold)
      · exact hs hold hold' hkey hkey'

end Effect

/-! ## The step of a thread -/

/-- Thread `i` makes one step, from `t` to `t'`. -/
structure Moved (m₀ : Media) (ttl : Int) (p p' : PhotoPool) (i : Nat) (t t' : PhotoThread) :
    Prop where
  thread : p.threads[i]? = some t
  threads : p'.threads = p.threads.set i t'
  op : t'.op = t.op
  found : (p'.store = p.store ∧ t'.found = t.found) ∨ t'.found = t.found ++ [(p.time, p.store)]
  respects : t.rest.Respects NoNewPhoto → t'.rest.Respects NoNewPhoto
  effect : Effect m₀ ttl p t p'.store

namespace Moved

theorem ops (h : Moved m₀ ttl p p' i t t') :
    p'.threads.map Thread.op = p.threads.map Thread.op := by
  apply List.ext_getElem?
  intro j
  rw [h.threads, List.getElem?_map, List.getElem?_map, List.getElem?_set]
  split
  · rename_i hij
    subst hij
    rw [if_pos (List.getElem?_eq_some_iff.mp h.thread).1, h.thread]
    exact congrArg some h.op
  · rfl

theorem known_eq (h : Moved m₀ ttl p p' i t t') : known m₀ p' key = known m₀ p key := by
  unfold known
  rw [h.ops]

/-- A thread after the step is the one that moved, or stands where it stood. -/
theorem getElem? (h : Moved m₀ ttl p p' i t t') {j : Nat} {u : PhotoThread}
    (hu : p'.threads[j]? = some u) : (j = i ∧ u = t') ∨ (j ≠ i ∧ p.threads[j]? = some u) := by
  rw [h.threads, List.getElem?_set] at hu
  split at hu
  · rename_i hij
    rw [if_pos (List.getElem?_eq_some_iff.mp h.thread).1] at hu
    exact .inl ⟨hij.symm, (Option.some.inj hu).symm⟩
  · rename_i hij
    exact .inr ⟨fun hji => hij hji.symm, hu⟩

theorem mem (h : Moved m₀ ttl p p' i t t') {u : PhotoThread} (hu : u ∈ p'.threads) :
    u = t' ∨ ∃ j, j ≠ i ∧ p.threads[j]? = some u := by
  obtain ⟨j, hj⟩ := List.mem_iff_getElem?.mp hu
  rcases h.getElem? hj with ⟨_, hsame⟩ | hother
  · exact .inl hsame
  · exact .inr ⟨j, hother⟩

theorem firstCall_eq (h : Moved m₀ ttl p p' i t t') {start : Instant}
    (hstart : firstCall t = some start) : firstCall t' = some start := by
  rcases h.found with ⟨_, hsame⟩ | hmore
  · rw [firstCall, hsame]
    exact hstart
  · unfold firstCall at hstart ⊢
    rw [hmore]
    cases hfound : t.found with
    | nil =>
      rw [hfound] at hstart
      cases hstart
    | cons x found =>
      rw [hfound] at hstart
      exact hstart

/-- A first call was made before, or is the one of this step. -/
theorem firstCall_cases (h : Moved m₀ ttl p p' i t t') {start : Instant}
    (hstart : firstCall t' = some start) : firstCall t = some start ∨ start = p.store.now := by
  rcases h.found with ⟨_, hsame⟩ | hmore
  · rw [firstCall, hsame] at hstart
    exact .inl hstart
  · unfold firstCall at hstart ⊢
    rw [hmore] at hstart
    cases hfound : t.found with
    | nil =>
      rw [hfound] at hstart
      exact .inr (Option.some.inj hstart).symm
    | cons x found =>
      rw [hfound] at hstart
      exact .inl hstart

theorem expired_mono (hnow : p.store.now ≤ p'.store.now) {u : PhotoThread}
    (h : expired ttl p u = true) : expired ttl p' u = true := by
  obtain ⟨start, hstart, hover⟩ := (Option.any_eq_true ..).mp h
  refine (Option.any_eq_true ..).mpr ⟨start, hstart, decide_eq_true ?_⟩
  exact lt_of_lt_of_le (of_decide_eq_true hover) hnow

theorem past_other (h : Moved m₀ ttl p p' i t t') {u : PhotoThread} (hu : Past ttl p u) :
    Past ttl p' u :=
  hu.imp_right (expired_mono h.effect.now_le)

theorem past_own (h : Moved m₀ ttl p p' i t t') (ht : Past ttl p t) : Past ttl p' t' := by
  rcases ht with hrest | hover
  · exact .inl (h.respects hrest)
  · refine .inr (expired_mono h.effect.now_le ?_)
    obtain ⟨start, hstart, hterm⟩ := (Option.any_eq_true ..).mp hover
    exact (Option.any_eq_true ..).mpr ⟨start, h.firstCall_eq hstart, hterm⟩

/-- What is known of the keys only grows. -/
theorem knowledge_le (h : Moved m₀ ttl p p' i t t') :
    knowledge m₀ ttl p ≤ knowledge m₀ ttl p' := by
  have haged : Aged m₀ ttl p ⊆ Aged m₀ ttl p' := by
    intro key ⟨hknown, hpast⟩
    refine ⟨h.known_eq.trans hknown, fun u hu hkey => ?_⟩
    rcases h.mem hu with rfl | ⟨j, _, hj⟩
    · rw [h.op] at hkey
      exact h.past_own (hpast t (List.mem_of_getElem? h.thread) hkey)
    · exact h.past_other (hpast u (List.mem_of_getElem? hj) hkey)
  refine ⟨haged, fun key ⟨hkey, hunused⟩ => ⟨haged hkey, fun kind j r' hr' hlive hmem => ?_⟩⟩
  rcases h.effect.row hr' with ⟨r, hr, hkeys, hlive'⟩ | ⟨hkeys, hpast, _⟩
  · exact hunused kind j r hr (hlive' hlive) (hkeys ▸ hmem)
  · rw [hkeys] at hmem
    exact hpast (hkey.2 t (List.mem_of_getElem? h.thread) hmem)

/-- The keys of an upload that adds no photo are dead. -/
theorem own_dead (h : Moved m₀ ttl p p' i t t') (hinv : Inv m₀ ttl p)
    (hrest : t'.rest.Respects NoNewPhoto)
    (hunused : ∀ key ∈ t.op.keys, isReferenced p'.store.db key = false) :
    ∀ key ∈ t.op.keys, key ∈ Dead m₀ ttl p' := by
  intro key hkey
  refine ⟨⟨?_, fun u hu hown => ?_⟩, fun kind j r hr _ => ?_⟩
  · rw [h.known_eq]
    exact known_iff.mpr (.inr ⟨t, List.mem_of_getElem? h.thread, hkey⟩)
  · rcases h.mem hu with rfl | ⟨j, hne, hj⟩
    · exact .inl hrest
    · exact absurd (hinv.minted hj h.thread hown hkey) hne
  · exact not_mem_of_unreferenced (hunused key hkey) hr

/-- What a careful call teaches is known after it. -/
theorem learns (h : Moved m₀ ttl p p' i t t') (hinv : Inv m₀ ttl p)
    (hallows : (licence ttl t.op.clock).allows (knowledge m₀ ttl p) p.store p'.store) :
    (licence ttl t.op.clock).learns p.store p'.store (knowledge m₀ ttl p') := by
  have hrows : ∀ {kind j r'}, (photos p'.store.db kind).row j = some r' →
      ∃ r, (photos p.store.db kind).row j = some r ∧ keysOf r' = keysOf r := by
    intro kind j r' hr'
    rcases hallows with hsteady | ⟨key, _, hdelete⟩
    · obtain ⟨r, hr, hkeys, _⟩ := hsteady.db.rows hr'
      exact ⟨r, hr, hkeys⟩
    · rw [hdelete] at hr'
      exact ⟨r', hr', rfl⟩
  refine ⟨(hinv.threads t (List.mem_of_getElem? h.thread)).clock, ?_, ?_, ?_⟩
  · intro key written hobject hold
    refine h.knowledge_le.1 ⟨hinv.objects key (by rw [hobject]; rfl), fun u hu hkey => .inr ?_⟩
    obtain ⟨start, hstart, hle⟩ := (hinv.threads u hu).written key hkey written hobject
    refine (Option.any_eq_true ..).mpr ⟨start, hstart, decide_eq_true ?_⟩
    exact lt_of_le_of_lt (Int.add_le_add_right (wholeSecond_mono hle) ttl) hold
  · intro key haged hunused
    refine ⟨haged, fun kind j r' hr' _ => ?_⟩
    obtain ⟨r, hr, hkeys⟩ := hrows hr'
    rw [hkeys]
    exact not_mem_of_unreferenced hunused hr
  · intro kind j r' hr' hrejected key hkey
    obtain ⟨r, hr, hkeys⟩ := hrows hr'
    have href : isReferenced p.store.db key = true :=
      isReferenced_iff.mpr ⟨kind, j, r, hr, hkeys ▸ hkey⟩
    refine ⟨h.knowledge_le.1 ⟨hinv.rows key href, fun u hu hown => .inl ?_⟩, ?_⟩
    · rcases (hinv.threads u hu).underway with ⟨_, hrest⟩ | ⟨hunused, _⟩
      · exact hrest (List.ne_nil_of_mem hown)
      · rw [hunused key hown] at href
        cases href
    · intro kind' j' q hq hlive hmem
      obtain ⟨rfl, rfl⟩ := h.effect.unshared hinv.sound.unshared hr' hq hkey hmem
      obtain rfl := Option.some.inj (hr'.symm.trans hq)
      rw [hrejected] at hlive
      cases hlive

/-- The other threads stand where they stood. -/
theorem other (h : Moved m₀ ttl p p' i t t') (hinv : Inv m₀ ttl p) {j : Nat} {u : PhotoThread}
    (hne : j ≠ i) (hu : p.threads[j]? = some u) : ThreadInv m₀ ttl p' u := by
  have hold := hinv.threads u (List.mem_of_getElem? hu)
  have hdisjoint : ∀ key ∈ u.op.keys, key ∉ t.op.keys :=
    fun key hkey hown => hne (hinv.minted hu h.thread hkey hown)
  have hnow := h.effect.now_le
  have hkept : ∀ key ∈ u.op.keys, (p.store.objects key).isSome = true →
      (p'.store.objects key).isSome = true ∨ Past ttl p' u := by
    intro key hkey hobject
    rcases h.effect.kept hobject with hthere | hdead
    · exact .inl hthere
    · exact .inr (h.past_other (hdead.1.2 u (List.mem_of_getElem? hu) hkey))
  refine ⟨fun now hclock => le_trans (hold.clock now hclock) hnow, ?_,
    fun start hstart => le_trans (hold.started start hstart) hnow, ?_⟩
  · intro key hkey time hobject
    rcases h.effect.object hobject with hbefore | ⟨hown, _⟩
    · exact hold.written key hkey time hbefore
    · exact absurd hown (hdisjoint key hkey)
  · rcases hold.underway with ⟨hcareful, hrest⟩ | ⟨hunused, x, hop, hstage⟩
    · exact .inl ⟨hcareful.mono (fun _ _ _ _ _ => trivial) h.knowledge_le, hrest⟩
    · refine .inr ⟨fun key hkey => ?_, x, hop, ?_⟩
      · rw [Bool.eq_false_iff]
        intro href
        rcases h.effect.referenced href with hbefore | hown
        · rw [hunused key hkey] at hbefore
          cases hbefore
        · exact hdisjoint key hkey hown
      · cases hstage with
        | full hrest hfound => exact .full hrest hfound
        | thumb hrest hfull =>
          refine .thumb hrest ?_
          rcases hfull with hobject | hpast
          · refine hkept _ ?_ hobject
            rw [hop]
            exact List.mem_cons_self
          · exact .inr (h.past_other hpast)
        | row hrest hboth =>
          refine .row hrest ?_
          rcases hboth with hobjects | hpast
          · by_cases hpast : Past ttl p' u
            · exact .inr hpast
            · refine .inl fun key hkey => (hkept key ?_ (hobjects key hkey)).resolve_right hpast
              rw [hop]
              exact hkey
          · exact .inr (h.past_other hpast)

/-- The objects of the thread that moved are no older than its first call. -/
theorem own (h : Moved m₀ ttl p p' i t t') (hinv : Inv m₀ ttl p)
    (hunderway : Underway m₀ ttl p' t') : ThreadInv m₀ ttl p' t' := by
  have hold := hinv.threads t (List.mem_of_getElem? h.thread)
  have hnow := h.effect.now_le
  have hstarted : ∀ start, firstCall t' = some start → start ≤ p.store.now := by
    intro start hstart
    rcases h.firstCall_cases hstart with hbefore | rfl
    · exact hold.started start hbefore
    · exact le_rfl
  refine ⟨fun now hclock => ?_, fun key hkey time hobject => ?_,
    fun start hstart => le_trans (hstarted start hstart) hnow, hunderway⟩
  · rw [h.op] at hclock
    exact le_trans (hold.clock now hclock) hnow
  · rw [h.op] at hkey
    have hbefore (hb : p.store.objects key = some time) :
        ∃ start, firstCall t' = some start ∧ start ≤ time := by
      obtain ⟨start, hstart, hle⟩ := hold.written key hkey time hb
      exact ⟨start, h.firstCall_eq hstart, hle⟩
    rcases h.found with ⟨hstore, _⟩ | hmore
    · rw [hstore] at hobject
      exact hbefore hobject
    · rcases h.effect.object hobject with hb | ⟨_, rfl⟩
      · exact hbefore hb
      · obtain ⟨start, hstart⟩ : ∃ start, firstCall t' = some start := by
          unfold firstCall
          rw [hmore]
          cases t.found <;> exact ⟨_, rfl⟩
        exact ⟨start, hstart, hstarted start hstart⟩

/-- A step keeps the invariant when the thread that moved is underway again. -/
theorem inv (h : Moved m₀ ttl p p' i t t') (hinv : Inv m₀ ttl p)
    (hunderway : Underway m₀ ttl p' t') : Inv m₀ ttl p' := by
  have hown : ∀ {key}, key ∈ t.op.keys → known m₀ p key = true :=
    fun hkey => known_iff.mpr (.inr ⟨t, List.mem_of_getElem? h.thread, hkey⟩)
  refine ⟨⟨h.effect.stocked hinv.sound.stocked, h.effect.unshared hinv.sound.unshared⟩,
    fun key hobject => ?_, fun key href => ?_, fun hj hl hkey hkey' => ?_, fun u hu => ?_⟩
  · obtain ⟨time, htime⟩ := Option.isSome_iff_exists.mp hobject
    rw [h.known_eq]
    rcases h.effect.object htime with hbefore | ⟨hkey, _⟩
    · exact hinv.objects key (by rw [hbefore]; rfl)
    · exact hown hkey
  · rw [h.known_eq]
    rcases h.effect.referenced href with hbefore | hkey
    · exact hinv.rows key hbefore
    · exact hown hkey
  · have hthread : ∀ {j : Nat} {u : PhotoThread}, p'.threads[j]? = some u →
        ∃ v, p.threads[j]? = some v ∧ v.op = u.op := by
      intro j u hu
      rcases h.getElem? hu with ⟨rfl, rfl⟩ | ⟨_, hv⟩
      · exact ⟨t, h.thread, h.op.symm⟩
      · exact ⟨u, hv, rfl⟩
    obtain ⟨v, hv, hop⟩ := hthread hj
    obtain ⟨w, hw, hop'⟩ := hthread hl
    exact hinv.minted hv hw (hop ▸ hkey) (hop' ▸ hkey')
  · rcases h.mem hu with rfl | ⟨j, hne, hj⟩
    · exact h.own hinv hunderway
    · exact h.other hinv hne hj

end Moved

/-! ## The calls of an upload -/

section Upload

variable (x : Upload)

/-- The row that an upload adds. -/
def Upload.insert (db : Db) : Except PhotoError (Nat × Db) :=
  insertPending db x.target x.user.id (fullKey x.uploadId) (thumbKey x.uploadId)

/-- The compensation for a thumbnail that was not written. -/
def Upload.unwritten : Service Media PhotoError (Nat × PhotoKind) := do
  deleteQuietly (fullKey x.uploadId)
  Service.throw (.storage .unavailable)

theorem write_void : x.write.void =
    .call (·.put (fullKey x.uploadId)) (fun _ => x.writeThumb.void) (.done (.ok ())) := rfl

theorem writeThumb_void : x.writeThumb.void =
    .call (·.put (thumbKey x.uploadId)) (fun _ => x.writeRow.void) x.unwritten.void := rfl

theorem writeRow_void : x.writeRow.void =
    .call
      (fun m => match x.insert m.db with
        | .ok (_, db) => { m with db }
        | .error _ => m)
      (fun m => match x.insert m.db with
        | .ok (id, _) => (x.recorded id).void
        | .error e => (x.undone e).void)
      (x.undone .unavailable).void := by
  have hcall : ∀ (write : Media → Media) (next : Media → Service Media PhotoError Nat)
      (failed : Service Media PhotoError Nat)
      (k : Except PhotoError Nat → Service Media PhotoError (Nat × PhotoKind)),
      ((Service.call write next failed).attempt >>= k).void =
        .call write (fun m => ((next m).attempt >>= k).void) (failed.attempt >>= k).void :=
    fun _ _ _ _ => rfl
  unfold Upload.writeRow repo Service.request Upload.insert
  rw [hcall]
  congr 1
  · funext m
    dsimp only
    cases insertPending m.db x.target x.user.id (fullKey x.uploadId) (thumbKey x.uploadId) with
    | ok row => rfl
    | error e => rfl
  · funext m
    dsimp only
    cases insertPending m.db x.target x.user.id (fullKey x.uploadId) (thumbKey x.uploadId) with
    | ok row => rfl
    | error e => rfl

/-- The photo that an upload adds names its two objects. -/
theorem insert_ok {x : Upload} {db db' : Db} {id : Nat} (h : x.insert db = .ok (id, db')) :
    ∃ r, keysOf r = x.keys ∧ r.thumbnailKey.isSome = true ∧
      db' = insertPhoto db x.target.kind r := by
  unfold Upload.insert insertPending at h
  split at h
  · cases h
  split at h
  · cases h
  cases h
  exact ⟨_, rfl, rfl, rfl⟩

theorem insertsPhoto_insertPhoto (db : Db) (kind : PhotoKind) (r : Photo) :
    insertsPhoto db (insertPhoto db kind r) = true := by
  unfold insertsPhoto
  cases kind with
  | parking => simp [insertPhoto]
  | review => simp [insertPhoto]

theorem deleteQuietly_noNewPhoto (key : String) : (deleteQuietly key).Respects NoNewPhoto :=
  ⟨fun _ _ _ h => h, fun _ => trivial, trivial⟩

theorem unwritten_noNewPhoto : x.unwritten.void.Respects NoNewPhoto :=
  .void (.bind (deleteQuietly_noNewPhoto _) fun _ => .throw _)

theorem undone_noNewPhoto (e : PhotoError) : (x.undone e).void.Respects NoNewPhoto :=
  .void (.bind (deleteQuietly_noNewPhoto _) fun _ => .bind (deleteQuietly_noNewPhoto _) fun _ =>
    .throw _)

theorem recorded_steady (id : Nat) : (x.recorded id).void.Respects Steady :=
  .void (.bind (audit_steady _) fun _ => .pure _)

variable {x} {clock : Option Instant} {k : Knowledge}

/-- The compensations delete the objects of the upload itself. -/
theorem unwritten_careful (hkeys : ∀ key ∈ x.keys, key ∈ k.2) :
    x.unwritten.void.Careful (licence ttl clock) (fun _ _ => True) k :=
  .void (.bind (deleteQuietly_careful (hkeys _ List.mem_cons_self) fun _ _ => .throw _))

theorem undone_careful (e : PhotoError) (hkeys : ∀ key ∈ x.keys, key ∈ k.2) :
    (x.undone e).void.Careful (licence ttl clock) (fun _ _ => True) k := by
  have hthumb : thumbKey x.uploadId ∈ k.2 :=
    hkeys _ (List.mem_cons_of_mem _ List.mem_cons_self)
  have hfull : fullKey x.uploadId ∈ k.2 := hkeys _ List.mem_cons_self
  refine .void (.bind (deleteQuietly_careful hthumb fun k' hk => ?_))
  exact .bind (deleteQuietly_careful (hk.2 hfull) fun _ _ => .throw _)

/-- An upload that passes its checks writes the full image; else it makes no call. -/
theorem uploadPhoto_void (x : Upload) :
    (uploadPhoto x).void = x.write.void ∨ ∃ r, (uploadPhoto x).void = .done r := by
  unfold uploadPhoto
  cases x.user.isVerified with
  | false => exact .inr ⟨_, rfl⟩
  | true =>
    cases x.allow ("photo:upload:user:" ++ toString x.user.id) photoUploadUserLimit day with
    | false => exact .inr ⟨_, rfl⟩
    | true =>
      cases x.allow ("photo:upload:ip:" ++ x.ip) photoUploadIpLimit day with
      | false => exact .inr ⟨_, rfl⟩
      | true =>
        cases decide (x.size ≤ x.maxBytes) with
        | false => exact .inr ⟨_, rfl⟩
        | true =>
          cases normalizeAlt x.alt with
          | error e => exact .inr ⟨_, rfl⟩
          | ok alt =>
            cases x.processed with
            | error e => exact .inr ⟨_, rfl⟩
            | ok u => exact .inl rfl

end Upload

/-! ## The steps of the pool -/

section Step

variable {op : PhotoOp} {found : List (Nat × Media)} {write : Media → Media}
  {next : Media → Service Media Unit Unit} {failed : Service Media Unit Unit}

/-- A call of thread `i` reaches the store. -/
theorem Moved.called (hthread : p.threads[i]? = some ⟨op, found, .call write next failed⟩)
    (heffect : Effect m₀ ttl p ⟨op, found, .call write next failed⟩ (write p.store))
    {rest : Service Media Unit Unit} (hrest : rest = next p.store ∨ rest = failed) :
    Moved m₀ ttl p (p.called i op found (write p.store) rest) i
      ⟨op, found, .call write next failed⟩ ⟨op, found ++ [(p.time, p.store)], rest⟩ := by
  refine ⟨hthread, rfl, rfl, .inr rfl, fun h => ?_, heffect⟩
  rcases hrest with rfl | rfl
  · exact h.2.1 p.store
  · exact h.2.2

/-- A call of thread `i` is lost on its way. -/
theorem Moved.missed (m₀ : Media) (ttl : Int)
    (hthread : p.threads[i]? = some ⟨op, found, .call write next failed⟩) :
    Moved m₀ ttl p
      { p with time := p.time + 1, threads := p.threads.set i ⟨op, found, failed⟩ } i
      ⟨op, found, .call write next failed⟩ ⟨op, found, failed⟩ :=
  ⟨hthread, rfl, rfl, .inl ⟨rfl, rfl⟩, fun h => h.2.2, .steady (.refl _)⟩

/-- An upload that gives up deletes its objects, which no photo holds. -/
theorem Moved.gaveUp (h : Moved m₀ ttl p p' i t t') (hinv : Inv m₀ ttl p)
    (hunused : ∀ key ∈ t.op.keys, isReferenced p'.store.db key = false)
    (hrest : t'.rest.Respects NoNewPhoto)
    (hcareful : ∀ k : Knowledge, (∀ key ∈ t.op.keys, key ∈ k.2) →
      t'.rest.Careful (licence ttl t'.op.clock) (fun _ _ => True) k) : Underway m₀ ttl p' t' :=
  .inl ⟨hcareful _ (h.own_dead hinv hrest hunused), fun _ => hrest⟩

/-- The invariant holds after the next call of thread `i`, however the call goes: unless it
adds a photo when the term is over, or adds one and is lost. -/
structure Survives (m₀ : Media) (ttl : Int) (p : PhotoPool) (i : Nat) (op : PhotoOp)
    (found : List (Nat × Media)) (write : Media → Media) (next : Media → Service Media Unit Unit)
    (failed : Service Media Unit Unit) : Prop where
  answered : (insertsPhoto p.store.db (write p.store).db = true →
      expired ttl p ⟨op, found, .call write next failed⟩ = false) →
    Inv m₀ ttl (p.called i op found (write p.store) (next p.store))
  lost : insertsPhoto p.store.db (write p.store).db = false →
    Inv m₀ ttl (p.called i op found (write p.store) failed)
  missed :
    Inv m₀ ttl { p with time := p.time + 1, threads := p.threads.set i ⟨op, found, failed⟩ }

/-- The call of a careful thread. -/
theorem Inv.careful (hinv : Inv m₀ ttl p)
    (hthread : p.threads[i]? = some ⟨op, found, .call write next failed⟩)
    (hcareful : (Service.call write next failed).Careful (licence ttl op.clock) (fun _ _ => True)
      (knowledge m₀ ttl p))
    (hrest : op.keys ≠ [] → (Service.call write next failed).Respects NoNewPhoto) :
    Survives m₀ ttl p i op found write next failed := by
  obtain ⟨hallows, hnext, hfailed⟩ := hcareful
  have heffect : Effect m₀ ttl p ⟨op, found, .call write next failed⟩ (write p.store) :=
    .of_allows (hallows p.store)
  refine ⟨fun _ => ?_, fun _ => ?_, ?_⟩
  · have hmoved := Moved.called hthread heffect (.inl rfl)
    refine hmoved.inv hinv (.inl ⟨?_, fun h => (hrest h).2.1 p.store⟩)
    exact hnext p.store _ hmoved.knowledge_le (hmoved.learns hinv (hallows p.store))
  · have hmoved := Moved.called hthread heffect (.inr rfl)
    refine hmoved.inv hinv (.inl ⟨?_, fun h => (hrest h).2.2⟩)
    exact hfailed.mono (fun _ _ _ _ _ => trivial) hmoved.knowledge_le
  · have hmoved := Moved.missed m₀ ttl hthread
    refine hmoved.inv hinv (.inl ⟨?_, fun h => (hrest h).2.2⟩)
    exact hfailed.mono (fun _ _ _ _ _ => trivial) hmoved.knowledge_le

variable {x : Upload}

/-- The write of the full image. -/
theorem Inv.writesFull (hinv : Inv m₀ ttl p)
    (hthread : p.threads[i]? = some ⟨.upload x, found, .call write next failed⟩)
    (hunused : ∀ key ∈ x.keys, isReferenced p.store.db key = false)
    (hcall : Service.call write next failed = x.write.void) :
    Survives m₀ ttl p i (.upload x) found write next failed := by
  rw [write_void] at hcall
  cases hcall
  have heffect : ∀ {t : PhotoThread}, t.op = .upload x →
      Effect m₀ ttl p t (p.store.put (fullKey x.uploadId)) := by
    intro t hop
    refine .put ?_ rfl
    rw [hop]
    exact List.mem_cons_self
  refine ⟨fun _ => ?_, fun _ => ?_, ?_⟩
  · have hmoved := Moved.called hthread (heffect rfl) (.inl rfl)
    refine hmoved.inv hinv (.inr ⟨hunused, x, rfl, .thumb rfl (.inl ?_)⟩)
    show ((p.store.put (fullKey x.uploadId)).objects _).isSome = true
    rw [Media.objects_put, if_pos rfl]
    rfl
  · have hmoved := Moved.called hthread (heffect rfl) (.inr rfl)
    exact hmoved.inv hinv (hmoved.gaveUp hinv hunused trivial fun _ _ => trivial)
  · have hmoved := Moved.missed m₀ ttl hthread
    exact hmoved.inv hinv (hmoved.gaveUp hinv hunused trivial fun _ _ => trivial)

/-- The write of the thumbnail. -/
theorem Inv.writesThumb (hinv : Inv m₀ ttl p)
    (hthread : p.threads[i]? = some ⟨.upload x, found, .call write next failed⟩)
    (hunused : ∀ key ∈ x.keys, isReferenced p.store.db key = false)
    (hcall : Service.call write next failed = x.writeThumb.void)
    (hfull : (p.store.objects (fullKey x.uploadId)).isSome = true ∨
      Past ttl p ⟨.upload x, found, .call write next failed⟩) :
    Survives m₀ ttl p i (.upload x) found write next failed := by
  rw [writeThumb_void] at hcall
  cases hcall
  have heffect : ∀ {t : PhotoThread}, t.op = .upload x →
      Effect m₀ ttl p t (p.store.put (thumbKey x.uploadId)) := by
    intro t hop
    refine .put ?_ rfl
    rw [hop]
    exact List.mem_cons_of_mem _ List.mem_cons_self
  refine ⟨fun _ => ?_, fun _ => ?_, ?_⟩
  · have hmoved := Moved.called hthread (heffect rfl) (.inl rfl)
    refine hmoved.inv hinv (.inr ⟨hunused, x, rfl, .row rfl ?_⟩)
    rcases hfull with hthere | hpast
    · refine .inl fun key hkey => ?_
      show ((p.store.put (thumbKey x.uploadId)).objects key).isSome = true
      rw [Media.objects_put]
      split
      · rfl
      · rename_i hne
        rcases List.mem_cons.mp hkey with rfl | hthumb
        · exact hthere
        · exact absurd (List.mem_singleton.mp hthumb) hne
    · exact .inr (hmoved.past_own hpast)
  · have hmoved := Moved.called hthread (heffect rfl) (.inr rfl)
    exact hmoved.inv hinv (hmoved.gaveUp hinv hunused (unwritten_noNewPhoto x)
      fun _ => unwritten_careful)
  · have hmoved := Moved.missed m₀ ttl hthread
    exact hmoved.inv hinv (hmoved.gaveUp hinv hunused (unwritten_noNewPhoto x)
      fun _ => unwritten_careful)

/-- The insert of the photo: it happens in time, with both objects there, or not at all. -/
theorem Inv.writesRow (hinv : Inv m₀ ttl p)
    (hthread : p.threads[i]? = some ⟨.upload x, found, .call write next failed⟩)
    (hunused : ∀ key ∈ x.keys, isReferenced p.store.db key = false)
    (hcall : Service.call write next failed = x.writeRow.void)
    (hboth : (∀ key ∈ x.keys, (p.store.objects key).isSome = true) ∨
      Past ttl p ⟨.upload x, found, .call write next failed⟩) :
    Survives m₀ ttl p i (.upload x) found write next failed := by
  have hfailed : failed = (x.undone .unavailable).void := by
    rw [writeRow_void] at hcall
    cases hcall
    rfl
  have hwrite : write p.store = (match x.insert p.store.db with
      | .ok (_, db) => { p.store with db }
      | .error _ => p.store) := by
    rw [writeRow_void] at hcall
    cases hcall
    rfl
  have hnext : next p.store = (match x.insert p.store.db with
      | .ok (id, _) => (x.recorded id).void
      | .error e => (x.undone e).void) := by
    rw [writeRow_void] at hcall
    cases hcall
    rfl
  have hmissed : Inv m₀ ttl
      { p with time := p.time + 1, threads := p.threads.set i ⟨.upload x, found, failed⟩ } := by
    have hmoved := Moved.missed m₀ ttl hthread
    rw [hfailed] at hmoved ⊢
    exact hmoved.inv hinv (hmoved.gaveUp hinv hunused (undone_noNewPhoto x _)
      fun _ => undone_careful _)
  cases hinsert : x.insert p.store.db with
  | error e =>
    rw [hinsert] at hwrite hnext
    dsimp only at hwrite hnext
    have heffect : ∀ {t : PhotoThread}, Effect m₀ ttl p t (write p.store) := by
      rw [hwrite]
      exact .steady (.refl _)
    have hunused' : ∀ key ∈ x.keys, isReferenced (write p.store).db key = false := by
      rw [hwrite]
      exact hunused
    refine ⟨fun _ => ?_, fun _ => ?_, hmissed⟩
    · have hmoved := Moved.called hthread heffect (.inl hnext.symm)
      rw [hnext]
      exact hmoved.inv hinv (hmoved.gaveUp hinv hunused' (undone_noNewPhoto x e)
        fun _ => undone_careful e)
    · have hmoved := Moved.called hthread heffect (.inr hfailed.symm)
      rw [hfailed]
      exact hmoved.inv hinv (hmoved.gaveUp hinv hunused' (undone_noNewPhoto x _)
        fun _ => undone_careful _)
  | ok row =>
    obtain ⟨id, db'⟩ := row
    obtain ⟨r, hkeys, hthumb, hdb⟩ := insert_ok hinsert
    rw [hinsert] at hwrite hnext
    dsimp only at hwrite hnext
    rw [hdb] at hwrite
    have hinserts : insertsPhoto p.store.db (write p.store).db = true := by
      rw [hwrite]
      exact insertsPhoto_insertPhoto ..
    refine ⟨fun hsecond => ?_, fun hnone => ?_, hmissed⟩
    · have hpast : ¬ Past ttl p ⟨.upload x, found, .call write next failed⟩ := by
        rintro (hrest | hover)
        · have hnew := hrest.1 p.store x.target.kind _ ((photos p.store.db x.target.kind).fresh _ le_rfl)
          rw [hwrite, row_insertPhoto_next] at hnew
          cases hnew
        · rw [hsecond hinserts] at hover
          cases hover
      have heffect : Effect m₀ ttl p ⟨.upload x, found, .call write next failed⟩ (write p.store) := by
        refine .insert hkeys (hasObjects_iff.mpr ⟨hthumb, fun key hkey => ?_⟩) hunused hpast hwrite
        exact hboth.resolve_right hpast key (hkeys ▸ hkey)
      have hmoved := Moved.called hthread heffect (.inl hnext.symm)
      rw [hnext]
      exact hmoved.inv hinv (.inl ⟨careful_of_steady (recorded_steady x id),
        fun _ => (recorded_steady x id).mono fun _ _ => Steady.noNewPhoto⟩)
    · rw [hinserts] at hnone
      cases hnone

end Step

/-- The next call of any thread. -/
theorem Inv.call (hinv : Inv m₀ ttl p) {op : PhotoOp} {found : List (Nat × Media)}
    {write : Media → Media} {next : Media → Service Media Unit Unit}
    {failed : Service Media Unit Unit}
    (hthread : p.threads[i]? = some ⟨op, found, .call write next failed⟩) :
    Survives m₀ ttl p i op found write next failed := by
  rcases (hinv.threads _ (List.mem_of_getElem? hthread)).underway with
    ⟨hcareful, hrest⟩ | ⟨hunused, x, hop, hstage⟩
  · exact hinv.careful hthread hcareful hrest
  · obtain rfl : op = .upload x := hop
    cases hstage with
    | full hcall _ => exact hinv.writesFull hthread hunused hcall
    | thumb hcall hfull => exact hinv.writesThumb hthread hunused hcall hfull
    | row hcall hboth => exact hinv.writesRow hthread hunused hcall hboth

section Start

variable {policy : RetentionPolicy} {list : Lister} {op : PhotoOp}

/-- The thread of a new operation. -/
def started (policy : RetentionPolicy) (list : Lister) (op : PhotoOp) : PhotoThread :=
  ⟨op, [], op.script policy list⟩

/-- The pool after the start of an operation. -/
def starting (policy : RetentionPolicy) (list : Lister) (p : PhotoPool) (op : PhotoOp) :
    PhotoPool :=
  { p with time := p.time + 1, threads := p.threads ++ [started policy list op] }

theorem mem_starting {u : PhotoThread} (h : u ∈ (starting policy list p op).threads) :
    u ∈ p.threads ∨ u = started policy list op := by
  rcases List.mem_append.mp h with hold | hnew
  · exact .inl hold
  · exact .inr (List.mem_singleton.mp hnew)

theorem known_starting (h : known m₀ p key = true) :
    known m₀ (starting policy list p op) key = true := by
  rw [known_iff] at h ⊢
  exact h.imp_right fun ⟨t, ht, hkey⟩ => ⟨t, List.mem_append_left _ ht, hkey⟩

/-- The keys of a new operation are not among those that are known. -/
theorem knowledge_starting (hfresh : ∀ key ∈ op.keys, known m₀ p key = false) :
    knowledge m₀ ttl p ≤ knowledge m₀ ttl (starting policy list p op) := by
  have haged : Aged m₀ ttl p ⊆ Aged m₀ ttl (starting policy list p op) := by
    intro key ⟨hknown, hpast⟩
    refine ⟨known_starting hknown, fun u hu hkey => ?_⟩
    rcases mem_starting hu with hold | rfl
    · exact hpast u hold hkey
    · rw [hfresh key hkey] at hknown
      cases hknown
  exact ⟨haged, fun key hdead => ⟨haged hdead.1, hdead.2⟩⟩

/-- A new operation is careful, or is an upload that will write its first object. -/
theorem underway_started (hlist : ReportsSeconds list)
    (hunused : ∀ key ∈ op.keys, isReferenced p.store.db key = false) :
    Underway m₀ policy.uploadOrphanTtl p (started policy list op) := by
  cases op with
  | upload x =>
    rcases uploadPhoto_void x with hwrite | ⟨r, hdone⟩
    · exact .inr ⟨hunused, x, rfl, .full hwrite rfl⟩
    · have hrest : (started policy list (.upload x)).rest = .done r := hdone
      left
      rw [hrest]
      refine ⟨?_, fun _ => trivial⟩
      cases r <;> trivial
  | _ => exact .inl ⟨script_careful hlist _ (by intro x h; cases h), fun h => absurd rfl h⟩

/-- The start of an operation keeps the invariant. -/
theorem Inv.start (hlist : ReportsSeconds list) (hinv : Inv m₀ policy.uploadOrphanTtl p)
    (hfresh : ∀ key ∈ op.keys, known m₀ p key = false)
    (hclock : ∀ now ∈ op.clock, now ≤ p.store.now) :
    Inv m₀ policy.uploadOrphanTtl (starting policy list p op) := by
  have hfree : ∀ {j : Nat} {u : PhotoThread} {key : String}, p.threads[j]? = some u →
      key ∈ u.op.keys → key ∉ op.keys := by
    intro j u key hu hkey hown
    have hknown : known m₀ p key = true := known_iff.mpr (.inr ⟨u, List.mem_of_getElem? hu, hkey⟩)
    rw [hfresh key hown] at hknown
    cases hknown
  refine ⟨hinv.sound, fun key hobject => known_starting (hinv.objects key hobject),
    fun key href => known_starting (hinv.rows key href), ?_, fun u hu => ?_⟩
  · intro j l u v key hu hv hkey hkey'
    have hthread : ∀ {j : Nat} {u : PhotoThread},
        (starting policy list p op).threads[j]? = some u →
          p.threads[j]? = some u ∨ (j = p.threads.length ∧ u = started policy list op) := by
      intro j u hu
      rw [starting, List.getElem?_append] at hu
      split at hu
      · exact .inl hu
      · rename_i hlt
        rw [List.getElem?_singleton] at hu
        split at hu
        · rename_i hzero
          exact .inr ⟨by omega, (Option.some.inj hu).symm⟩
        · cases hu
    rcases hthread hu with hold | ⟨rfl, rfl⟩
    · rcases hthread hv with hold' | ⟨rfl, rfl⟩
      · exact hinv.minted hold hold' hkey hkey'
      · exact absurd hkey' (hfree hold hkey)
    · rcases hthread hv with hold' | ⟨rfl, rfl⟩
      · exact absurd hkey (hfree hold' hkey')
      · rfl
  · rcases mem_starting hu with hold | rfl
    · have hthread := hinv.threads u hold
      refine ⟨hthread.clock, hthread.written, hthread.started, ?_⟩
      rcases hthread.underway with ⟨hcareful, hrest⟩ | ⟨hunused, x, hop, hstage⟩
      · exact .inl ⟨hcareful.mono (fun _ _ _ _ _ => trivial) (knowledge_starting hfresh), hrest⟩
      · refine .inr ⟨hunused, x, hop, ?_⟩
        cases hstage with
        | full hrest hfound => exact .full hrest hfound
        | thumb hrest hfull => exact .thumb hrest hfull
        | row hrest hboth => exact .row hrest hboth
    · refine ⟨hclock, fun key hkey time hobject => ?_, fun start hstart => ?_,
        underway_started hlist fun key hkey => ?_⟩
      · have hknown := hinv.objects key (by
          show (p.store.objects key).isSome = true
          rw [show p.store.objects key = some time from hobject]
          rfl)
        rw [hfresh key hkey] at hknown
        cases hknown
      · cases hstart
      · show isReferenced p.store.db key = false
        rw [Bool.eq_false_iff]
        intro href
        have hknown := hinv.rows key href
        rw [hfresh key hkey] at hknown
        cases hknown

end Start

theorem addsPhoto_eq {op : PhotoOp} {found : List (Nat × Media)} {write : Media → Media}
    {next : Media → Service Media Unit Unit} {failed : Service Media Unit Unit}
    (hthread : p.threads[i]? = some ⟨op, found, .call write next failed⟩) :
    addsPhoto p i = insertsPhoto p.store.db (write p.store).db := by
  unfold addsPhoto
  rw [hthread]

/-- Every step in time, in which no lost call adds a photo, keeps the invariant. -/
theorem Inv.next {policy : RetentionPolicy} {list : Lister} (hlist : ReportsSeconds list)
    (hinv : Inv m₀ policy.uploadOrphanTtl p) {e : Event PhotoOp}
    (htime : inTime m₀ policy.uploadOrphanTtl p e = true)
    (hsecond : inSecond policy.uploadOrphanTtl p e = true) (hheard : acknowledged p e = true)
    (h : p.next (PhotoOp.script policy list) e = some p') : Inv m₀ policy.uploadOrphanTtl p' := by
  cases e with
  | start op =>
    cases h
    rw [inTime, Bool.and_eq_true, List.all_eq_true] at htime
    refine hinv.start hlist (fun key hkey => ?_) fun now hnow => ?_
    · simpa using htime.1 key hkey
    · simpa using (Option.all_eq_true ..).mp htime.2 now hnow
  | answer i =>
    obtain ⟨op, found, write, next, failed, hthread, rfl⟩ := next_answer h
    refine (hinv.call hthread).answered fun hinserts => ?_
    have hbefore : (!addsPhoto p i || p.threads[i]?.all fun t =>
        !expired policy.uploadOrphanTtl p t) = true := hsecond
    rw [addsPhoto_eq hthread, hinserts, hthread] at hbefore
    simpa using hbefore
  | lose i applied =>
    obtain ⟨op, found, write, next, failed, hthread, rfl⟩ := next_lose h
    cases applied with
    | true =>
      refine (hinv.call hthread).lost ?_
      have hnone : (!addsPhoto p i) = true := hheard
      rw [addsPhoto_eq hthread] at hnone
      simpa using hnone
    | false => exact (hinv.call hthread).missed

theorem Inv.init (hm₀ : Sound m₀) : Inv m₀ ttl (Pool.init m₀) := by
  refine ⟨hm₀, fun key hobject => ?_, fun key href => ?_, fun hj _ _ _ => ?_, fun t ht => ?_⟩
  · exact known_iff.mpr (.inl (.inl hobject))
  · exact known_iff.mpr (.inl (.inr href))
  · cases hj
  · cases ht

end Pool

/-- A run of photo operations whose steps all meet `C`. -/
def PhotoRun (policy : RetentionPolicy) (list : Lister) (C : PhotoPool → Event PhotoOp → Bool)
    (m₀ : Media) (es : List (Event PhotoOp)) (p : PhotoPool) : Prop :=
  Run (Guarded (fun p e => C p e = true) fun p e p' =>
    p.next (PhotoOp.script policy list) e = some p') (Pool.init m₀) es p

/-- In a run from any sound store in which no lost call has added a photo, and each was added
before the term after the second of its first object, every photo that is not rejected has
both of its objects. -/
theorem stocked_throughout (policy : RetentionPolicy) (listObjects : ListObjectsV2)
    (clock : String → Instant) (hlist : ListsPresent listObjects) (m₀ : Media) (hm₀ : Sound m₀)
    (es : List (Event PhotoOp)) (p : PhotoPool)
    (hrun : PhotoRun policy (s3List listObjects clock uploadPrefix)
      (fun p e => inTime m₀ policy.uploadOrphanTtl p e && inSecond policy.uploadOrphanTtl p e &&
        acknowledged p e) m₀ es p) :
    Stocked p.store := by
  have hinv : Inv m₀ policy.uploadOrphanTtl p := by
    refine hrun.invariant (fun p e p' hinv hstep => ?_) (.init hm₀)
    obtain ⟨hboth, hheard⟩ := Bool.and_eq_true_iff.mp hstep.1
    obtain ⟨htime, hsecond⟩ := Bool.and_eq_true_iff.mp hboth
    exact hinv.next (reportsSeconds_s3List hlist) htime hsecond hheard hstep.2
  exact hinv.sound.stocked

/-! ## A rack with photos -/

/-- A bucket that lists, of the keys it knows, those of the objects with a time that a
`DateTime` can hold. -/
def listKeys (keys : List String) : ListObjectsV2 := fun objects _ =>
  ⟨keys.filterMap fun key => ((objects key).filter fun t => (fromTimestamp (t / second)).isSome).map
    fun t => ⟨some key, some (.ofInstant t)⟩, some false⟩

theorem listsPresent_listKeys (keys : List String) : ListsPresent (listKeys keys) := by
  intro objects req o ho key hkey
  obtain ⟨key', _, hmap⟩ := List.mem_filterMap.mp ho
  obtain ⟨t, ht, rfl⟩ := Option.map_eq_some_iff.mp hmap
  obtain rfl := Option.some.inj hkey
  obtain ⟨hobject, hdated⟩ := Option.filter_eq_some_iff.mp ht
  exact ⟨t, hobject, rfl, hdated⟩

/-- The listing of a bucket that knows these keys. -/
def listing (keys : List String) : Lister := s3List (listKeys keys) (fun _ => 0) uploadPrefix

/-- The rack before the first photo. -/
def bareRack : Media := ⟨Moderation.freshRack, fun _ => none⟩

theorem sound_bareRack : Sound bareRack := by
  have hnone : ∀ kind i, (photos bareRack.db kind).row i = none := by
    intro kind i
    cases kind <;> rfl
  refine ⟨fun kind i r hr => ?_, fun hr _ _ _ => ?_⟩
  · rw [hnone] at hr
    cases hr
  · rw [hnone] at hr
    cases hr

/-- An upload of a photo of the rack. -/
def rackUpload (raw : Auth.Token) : Upload where
  user := { Moderation.rackModerator with id := 1, email := "rider@example.com", roles := [.user] }
  allow := fun _ _ _ => true
  ip := "203.0.113.7"
  target := ⟨.parking, 1⟩
  size := 1
  maxBytes := 1
  processed := .ok ()
  alt := none
  raw := raw

def rackKeys : List String :=
  (rackUpload Auth.zeroToken).keys ++ (rackUpload Auth.oneToken).keys

/-- Two uploads run at the same time; the thumbnail of the second is written, but the answer is
lost, and so is the deletion of its full image.  A day later the sweep finds both objects, and
the first photo is approved. -/
def sweptOrphan : List (Event PhotoOp) :=
  [.start (.upload (rackUpload Auth.zeroToken)), .start (.upload (rackUpload Auth.oneToken)),
    .answer 0, .answer 1, .answer 0, .answer 0, .lose 1 true, .lose 1 false,
    .start (.wait (25 * hour.toNat)), .answer 2, .start (.sweep (25 * hour) 1),
    .answer 3, .answer 3, .answer 3,
    .start (.approve Moderation.rackModerator .parking 1), .answer 4, .answer 4, .answer 4,
    .answer 3]

/-- A run that can be computed. -/
theorem photoRun_of_foldlM {policy : RetentionPolicy} {list : Lister}
    {C : PhotoPool → Event PhotoOp → Bool} {m₀ : Media} {es : List (Event PhotoOp)} {p : PhotoPool}
    (h : es.foldlM (fun p e => if C p e then p.next (PhotoOp.script policy list) e else none)
      (Pool.init m₀) = some p) : PhotoRun policy list C m₀ es p :=
  Run.guarded_of_foldlM h

theorem stocked_throughout_sweptOrphan : ∃ p, PhotoRun {} (listing rackKeys)
    (fun p e => inTime bareRack (24 * hour) p e && inSecond (24 * hour) p e && acknowledged p e)
      bareRack sweptOrphan p ∧ Stocked p.store := by
  have hcheck : (sweptOrphan.foldlM (fun (p : PhotoPool) e =>
      if inTime bareRack (24 * hour) p e && inSecond (24 * hour) p e && acknowledged p e then
        p.next (PhotoOp.script {} (listing rackKeys)) e else none)
      (Pool.init bareRack)).isSome = true := by decide +kernel
  obtain ⟨p, hp⟩ := Option.isSome_iff_exists.mp hcheck
  have hrun := photoRun_of_foldlM hp
  exact ⟨p, hrun, stocked_throughout {} _ _ (listsPresent_listKeys rackKeys) _ sound_bareRack _ p
    hrun⟩

/-- The insert of the photo takes effect, but its answer is lost: the upload deletes both
objects. -/
def lostInsert : List (Event PhotoOp) :=
  [.start (.upload (rackUpload Auth.zeroToken)), .answer 0, .answer 0, .lose 0 true,
    .answer 0, .answer 0]

/-- A run of photos on the bare rack after which a photo is pending and its objects are gone. -/
theorem not_stocked_of_check {es : List (Event PhotoOp)}
    {C : PhotoPool → Event PhotoOp → Bool}
    (hcheck : (es.foldlM (fun (p : PhotoPool) e =>
      if C p e then p.next (PhotoOp.script {} (listing rackKeys)) e else none)
      (Pool.init bareRack)).any (fun p => ((photos p.store.db .parking).row 1).any fun r =>
        isLive r && !hasObjects p.store r) = true) :
    ∃ p, PhotoRun {} (listing rackKeys) C bareRack es p ∧ ¬ Stocked p.store := by
  obtain ⟨p, hp, hbare⟩ := (Option.any_eq_true ..).mp hcheck
  obtain ⟨r, hr, hgone⟩ := (Option.any_eq_true ..).mp hbare
  refine ⟨p, photoRun_of_foldlM hp, fun hstocked => ?_⟩
  rw [Bool.and_eq_true] at hgone
  rw [hstocked .parking 1 r hr hgone.1] at hgone
  cases hgone.2

/-- The photo is pending, and its objects are gone. -/
theorem not_stocked_lostInsert : ListsPresent (listKeys rackKeys) ∧ Sound bareRack ∧
    ∃ p, PhotoRun {} (listing rackKeys)
      (fun p e => inTime bareRack (24 * hour) p e && inSecond (24 * hour) p e) bareRack lostInsert
        p ∧ ¬ Stocked p.store :=
  ⟨listsPresent_listKeys rackKeys, sound_bareRack, not_stocked_of_check (by decide +kernel)⟩

/-- The objects are written half a second after the epoch.  A sweep finds them a day and three
tenths of a second after it, and the row comes next, in time. -/
def lateInsert : List (Event PhotoOp) :=
  [.start (.wait (500 * millisecond.toNat)), .answer 0,
    .start (.upload (rackUpload Auth.zeroToken)), .answer 1, .answer 1,
    .start (.wait (24 * hour.toNat - 200 * millisecond.toNat)), .answer 2,
    .start (.sweep (24 * hour + 300 * millisecond) 1), .answer 3, .answer 3, .answer 3, .answer 3,
    .answer 1]

/-- The photo is pending, and the sweep has taken its objects before their term was over. -/
theorem not_stocked_lateInsert : ∃ p, PhotoRun {} (listing rackKeys)
    (fun p e => inTime bareRack (24 * hour) p e && acknowledged p e) bareRack lateInsert p ∧
      ¬ Stocked p.store :=
  not_stocked_of_check (by decide +kernel)

end BikesNest.Photos
