import BikesNest.Lib.Cursor
import BikesNest.Lib.Interrupted
import BikesNest.Photos.Operations
import Mathlib.Data.String.Basic

/-!
# The sweep of orphan uploads

`purge_orphan_uploads` pages through the objects under `uploads/` while it deletes some of
them.  On a store that lists in order it deletes every object that its listing reports as
older than the cutoff and that no photo references, and nothing else; and whichever call
fails, nothing else is deleted either (`sweepsExactly_stale`).

`S3ObjectStorage::list` reports the last write of an object without the fraction of its
second.  So the sweep deletes exactly the orphans unless one of them was written in the very
second of the cutoff, at or after it (`orphanSweep_exact_iff`).
-/

namespace BikesNest.Photos

open Domain Store Relational
open Privacy (ObjectInfo PrivacyError RetentionPolicy referencedKeys)

/-! ## What is to be deleted -/

/-- `starts_with`. -/
def startsWith (key keyPrefix : String) : Bool := keyPrefix.toList.isPrefixOf key.toList

/-- The keys of the objects under a prefix. -/
def objectsUnder (keyPrefix : String) (objects : String → Option Instant) : Set String :=
  {key | startsWith key keyPrefix = true ∧ (objects key).isSome = true}

/-- The uploads that no photo references, written before the cutoff. -/
def orphans (m : Media) (cutoff : Instant) : Set String :=
  {key | startsWith key uploadPrefix = true ∧
    (∃ t, m.objects key = some t ∧ t < cutoff) ∧ isReferenced m.db key = false}

/-- Some objects are deleted, and nothing else. -/
structure Swept (m₀ : Media) (gone : Set String) (m : Media) : Prop where
  db : m.db = m₀.db
  deleted : ∀ key ∈ gone, m.objects key = none
  kept : ∀ key ∉ gone, m.objects key = m₀.objects key

/-- The sweep comes to an end, deletes exactly these objects and counts them.  A run in which
a call goes unanswered ends with an error, and has deleted no other object. -/
structure SweepsExactly (policy : RetentionPolicy) (list : Lister) (now : Instant) (m₀ : Media)
    (doomed : Set String) : Prop where
  answered : ∃ bound, ∀ pages, bound ≤ pages → ∃ m,
    (purgeOrphanUploads policy list now pages).run m₀ = (.ok (doomed.ncard, true), m) ∧
      Swept m₀ doomed m
  interrupted : ∀ pages lost r m, (purgeOrphanUploads policy list now pages).Ends m₀ lost r m →
    (lost = true ↔ ∃ e, r = .error e) ∧ ∃ gone ⊆ doomed, Swept m₀ gone m

/-! ## Stores that list in order -/

/-- What is left of the objects. -/
def Part (objects objects₀ : String → Option Instant) : Prop :=
  ∀ key t, objects key = some t → objects₀ key = some t

/-- While the store holds what is left of the objects, it lists the uploads in order and
reports these times. -/
def Reports (list : Lister) (objects₀ : String → Option Instant) (reported : String → Instant) :
    Prop :=
  ∀ objects, Part objects objects₀ → ∀ after, ∃ keys more,
    Cursor.IsPage (objectsUnder uploadPrefix objects) after keys more ∧
      list objects after =
        ⟨keys.map fun key => ⟨key, reported key⟩, Cursor.next keys more⟩

/-- The uploads that no photo references, reported as written before the cutoff. -/
def stale (m : Media) (reported : String → Instant) (cutoff : Instant) : Set String :=
  {key ∈ objectsUnder uploadPrefix m.objects |
    reported key < cutoff ∧ isReferenced m.db key = false}

section Sweep

variable {list : Lister} {m₀ m : Media} {gone doomed : Set String} {reported : String → Instant}
  {cutoff : Instant}

theorem Swept.refl (m : Media) : Swept m ∅ m := ⟨rfl, fun _ h => h.elim, fun _ _ => rfl⟩

theorem Swept.delete (h : Swept m₀ gone m) (key : String) :
    Swept m₀ (insert key gone) (m.delete key) where
  db := h.db
  deleted key' hkey' := by
    rw [Media.objects_delete]
    split
    · rfl
    · rename_i hne
      exact h.deleted key' (hkey'.resolve_left hne)
  kept key' hkey' := by
    rw [Media.objects_delete, if_neg fun heq => hkey' (.inl heq)]
    exact h.kept key' fun hmem => hkey' (.inr hmem)

theorem Swept.part (h : Swept m₀ gone m) : Part m.objects m₀.objects := by
  intro key t hkey
  by_cases hgone : key ∈ gone
  · rw [h.deleted key hgone] at hkey
    cases hkey
  · rw [← h.kept key hgone]
    exact hkey

/-- What is deleted before the cursor does not change the listing after it. -/
theorem Swept.after_eq (h : Swept m₀ gone m) {keyPrefix : String} {after : Option String}
    (hgone : ∀ key ∈ Cursor.after (objectsUnder keyPrefix m₀.objects) after, key ∉ gone) :
    Cursor.after (objectsUnder keyPrefix m₀.objects) after =
      Cursor.after (objectsUnder keyPrefix m.objects) after := by
  apply Set.Subset.antisymm
  · intro key hkey
    refine Cursor.mem_after hkey ⟨(Cursor.after_subset hkey).1, ?_⟩
    rw [h.kept key (hgone key hkey)]
    exact (Cursor.after_subset hkey).2
  · apply Cursor.after_mono
    intro key hkey
    obtain ⟨t, ht⟩ := Option.isSome_iff_exists.mp hkey.2
    exact ⟨hkey.1, Option.isSome_iff_exists.mpr ⟨t, h.part key t ht⟩⟩

/-- Some of the doomed objects are deleted. -/
def Partly (m₀ : Media) (doomed : Set String) (m : Media) : Prop := ∃ gone ⊆ doomed, Swept m₀ gone m

theorem deleteObjects_ensures (keys : List String) (hgone : gone ⊆ doomed)
    (hkeys : ∀ key ∈ keys, key ∈ doomed) :
    (mediaStores.deleteObjects keys).Ensures (Swept m₀ gone)
      (fun n m => n = keys.length ∧ Swept m₀ (gone ∪ {key | key ∈ keys}) m)
      (Partly m₀ doomed) := by
  induction keys generalizing gone with
  | nil =>
    refine .pure 0 fun m hm => ⟨rfl, ?_⟩
    rwa [show gone ∪ {key | key ∈ ([] : List String)} = gone by simp]
  | cons key keys ih =>
    have hnow : key ∈ doomed := hkeys key List.mem_cons_self
    have hmore : insert key gone ⊆ doomed := Set.insert_subset hnow hgone
    have hfirst : (Service.execute PrivacyError.unavailable fun m : Media => m.delete key).Ensures
        (Swept m₀ gone) (fun _ => Swept m₀ (insert key gone)) (Partly m₀ doomed) :=
      .execute _ (fun m hm => hm.delete key) fun m hm =>
        ⟨⟨gone, hgone, hm⟩, ⟨_, hmore, hm.delete key⟩⟩
    refine hfirst.bind fun _ => ?_
    refine .bind (ih hmore fun key' h => hkeys key' (List.mem_cons_of_mem _ h)) fun n => ?_
    refine .pure _ fun m ⟨hn, hm⟩ => ⟨by rw [hn, List.length_cons], ?_⟩
    rwa [show gone ∪ {key' | key' ∈ key :: keys} = insert key gone ∪ {key' | key' ∈ keys} by
      ext key'
      simp only [Set.mem_union, Set.mem_insert_iff, Set.mem_ofPred_eq, List.mem_cons]
      tauto]

/-- Of the candidates go those that no photo references. -/
theorem purgeUnreferenced_ensures (candidates : List String) (hgone : gone ⊆ doomed)
    (hdoomed : ∀ key ∈ candidates, isReferenced m₀.db key = false → key ∈ doomed) :
    (mediaStores.purgeUnreferenced candidates).Ensures (Swept m₀ gone)
      (fun n m => n = (candidates.filter fun key => !isReferenced m₀.db key).length ∧
        Swept m₀ (gone ∪ {key | key ∈ candidates ∧ isReferenced m₀.db key = false}) m)
      (Partly m₀ doomed) := by
  have hrest : ∀ kept, kept = referencedKeys m₀.db candidates →
      (mediaStores.deleteObjects (candidates.filter fun key => !kept.contains key)).Ensures
        (Swept m₀ gone)
        (fun n m => n = (candidates.filter fun key => !isReferenced m₀.db key).length ∧
          Swept m₀ (gone ∪ {key | key ∈ candidates ∧ isReferenced m₀.db key = false}) m)
        (Partly m₀ doomed) := by
    intro kept hkept
    have hfilter : (candidates.filter fun key => !kept.contains key) =
        candidates.filter fun key => !isReferenced m₀.db key := by
      refine List.filter_congr fun key hkey => ?_
      have hiff : key ∈ kept ↔ isReferenced m₀.db key = true := by
        rw [hkept]
        exact List.mem_filter.trans (and_iff_right hkey)
      congr 1
      rw [Bool.eq_iff_iff, List.contains_iff_mem]
      exact hiff
    rw [hfilter]
    refine (deleteObjects_ensures _ hgone fun key hkey => ?_).mono (fun _ => id) fun n m hm => ?_
    · obtain ⟨hmem, hfree⟩ := List.mem_filter.mp hkey
      exact hdoomed key hmem (by simpa using hfree)
    · simpa only [List.mem_filter, Bool.not_eq_true'] using hm
  unfold Privacy.Stores.purgeUnreferenced Privacy.Stores.referenced
  split
  · rename_i hempty
    obtain rfl := List.isEmpty_iff.mp hempty
    exact hrest [] rfl
  · have hasked : (Service.query PrivacyError.unavailable fun m : Media =>
        referencedKeys m.db candidates).Ensures (Swept m₀ gone)
        (fun kept m => kept = referencedKeys m₀.db candidates ∧ Swept m₀ gone m)
        (Partly m₀ doomed) :=
      .query _ (fun m hm => ⟨by rw [hm.db], hm⟩) fun m hm => ⟨gone, hgone, hm⟩
    refine hasked.bind fun kept => ?_
    refine .assume (fun _ h => h.1) fun hkept => ?_
    exact (hrest kept hkept).mono (fun _ h => h.2) fun _ _ => id

/-- One page: its stale objects go. -/
theorem purgePage_ensures {keys : List String} (hnodup : keys.Nodup)
    (hkeys : ∀ key ∈ keys, key ∈ objectsUnder uploadPrefix m₀.objects)
    (hdoomed : doomed = stale m₀ reported cutoff) (hgone : gone ⊆ doomed) :
    (mediaStores.purgeUnreferenced (((keys.map fun key =>
        ObjectInfo.mk key (reported key)).filter fun o =>
          o.lastModified < cutoff).map ObjectInfo.key)).Ensures (Swept m₀ gone)
      (fun n m => n = {key ∈ doomed | key ∈ keys}.ncard ∧
        Swept m₀ (gone ∪ {key ∈ doomed | key ∈ keys}) m) (Partly m₀ doomed) := by
  have hcandidates : ((keys.map fun key => ObjectInfo.mk key (reported key)).filter fun o =>
      o.lastModified < cutoff).map ObjectInfo.key =
        keys.filter fun key => reported key < cutoff := by
    rw [List.filter_map, List.map_map]
    exact List.map_id _
  have hset : {key ∈ doomed | key ∈ keys} = {key | key ∈ (keys.filter fun key =>
      reported key < cutoff).filter fun key => !isReferenced m₀.db key} := by
    ext key
    simp only [hdoomed, stale, Set.mem_ofPred_eq, List.mem_filter,
      decide_eq_true_eq, Bool.not_eq_true']
    have hkey := hkeys key
    tauto
  rw [hcandidates, hset, Cursor.ncard_mem ((hnodup.filter _).filter _)]
  refine (purgeUnreferenced_ensures _ hgone fun key hmem hfree => ?_).mono (fun _ => id)
    fun n m hm => ?_
  · obtain ⟨hkey, hold⟩ := List.mem_filter.mp hmem
    rw [hdoomed]
    exact ⟨hkeys key hkey, of_decide_eq_true hold, hfree⟩
  · simpa only [List.mem_filter (p := fun key => !isReferenced m₀.db key),
      Bool.not_eq_true'] using hm

/-- What the loop keeps: before the page after `after`, the stale objects up to there are
deleted. -/
theorem purgePages_ensures (hlist : Reports list m₀.objects reported)
    (hfinite : (objectsUnder uploadPrefix m₀.objects).Finite)
    (hdoomed : doomed = stale m₀ reported cutoff) (pages : Nat) (after : Option String) :
    (mediaStores.purgePages (fun after => .query .unavailable fun m => list m.objects after) cutoff
      pages after).Ensures (Swept m₀ (Cursor.upTo doomed after))
      (fun r m => ∃ gone ⊆ doomed, Swept m₀ gone m ∧
        ((Cursor.after (objectsUnder uploadPrefix m₀.objects) after).ncard < pages →
          r = ((Cursor.after doomed after).ncard, true) ∧ gone = doomed))
      (Partly m₀ doomed) := by
  have hsub : doomed ⊆ objectsUnder uploadPrefix m₀.objects := hdoomed ▸ Set.sep_subset ..
  induction pages generalizing after with
  | zero =>
    refine .pure _ fun m hm => ⟨_, Cursor.upTo_subset, hm, fun hpages => ?_⟩
    exact absurd hpages (Nat.not_lt_zero _)
  | succ pages ih =>
    have hlisted : (Service.query PrivacyError.unavailable fun m : Media =>
        list m.objects after).Ensures (Swept m₀ (Cursor.upTo doomed after))
        (fun page m => (∃ keys more,
          Cursor.IsPage (objectsUnder uploadPrefix m₀.objects) after keys more ∧
            page = ⟨keys.map fun key => ⟨key, reported key⟩, Cursor.next keys more⟩) ∧
          Swept m₀ (Cursor.upTo doomed after) m) (Partly m₀ doomed) := by
      refine .query _ (fun m hm => ⟨?_, hm⟩) fun m hm => ⟨_, Cursor.upTo_subset, hm⟩
      obtain ⟨keys, more, hpage, hout⟩ := hlist m.objects hm.part after
      refine ⟨keys, more, hpage.congr (hm.after_eq fun key hkey hgone => ?_), hout⟩
      exact hgone.2 (Cursor.mem_after hkey hgone.1)
    refine hlisted.bind fun page => .assume (fun _ h => h.1) fun ⟨keys, more, hpage, hout⟩ => ?_
    subst hout
    have hkeys : ∀ key ∈ keys, key ∈ objectsUnder uploadPrefix m₀.objects :=
      fun key hkey => Cursor.after_subset (hpage.sound key hkey)
    have hbehind : Cursor.upTo doomed after ⊆ doomed := Cursor.upTo_subset
    have hpurged := purgePage_ensures hpage.nodup hkeys hdoomed hbehind
    refine (hpurged.mono (fun _ h => h.2) fun _ _ => id).bind fun purged => ?_
    cases hnext : Cursor.next keys more with
    | none =>
      refine .pure _ fun m ⟨hcount, hm⟩ => ⟨doomed, subset_rfl, ?_, fun _ => ⟨?_, rfl⟩⟩
      · rwa [← hpage.whole_of_subset hsub hnext, Cursor.upTo_union_after] at hm
      · rw [hcount, hpage.whole_of_subset hsub hnext]
    | some next =>
      refine .assume (fun _ h => h.1) fun hcount => ?_
      have hrest := ih (some next)
      rw [hpage.upTo_next hsub hnext] at hrest
      refine (hrest.mono (fun _ h => h.2) fun _ _ => id).bind fun r => ?_
      refine .pure _ fun m ⟨gone, hgone, hm, hend⟩ => ?_
      refine ⟨gone, hgone, hm, fun hpages => ?_⟩
      have hfewer := hpage.ncard_lt hfinite hnext
      obtain ⟨hr, hall⟩ := hend (by omega)
      refine ⟨?_, hall⟩
      rw [hpage.ncard_next hsub (hfinite.subset hsub) hnext, hcount, hr]

end Sweep

section Exact

variable {policy : RetentionPolicy} {list : Lister} {now : Instant} {m₀ : Media}

/-- On a store that lists in order exactly the stale objects go. -/
theorem sweepsExactly_stale {reported : String → Instant}
    (hlist : Reports list m₀.objects reported)
    (hfinite : (objectsUnder uploadPrefix m₀.objects).Finite) :
    SweepsExactly policy list now m₀ (stale m₀ reported (now - policy.uploadOrphanTtl)) := by
  generalize hdoomed : stale m₀ reported (now - policy.uploadOrphanTtl) = doomed
  have hsweep : ∀ pages, (purgeOrphanUploads policy list now pages).Ensures (Swept m₀ ∅)
      (fun r m => ∃ gone ⊆ doomed, Swept m₀ gone m ∧
        ((objectsUnder uploadPrefix m₀.objects).ncard < pages →
          r = (doomed.ncard, true) ∧ gone = doomed)) (Partly m₀ doomed) := by
    intro pages
    have h := purgePages_ensures hlist hfinite hdoomed.symm pages none
    rwa [Cursor.upTo_none] at h
  constructor
  · refine ⟨(objectsUnder uploadPrefix m₀.objects).ncard + 1, fun pages hpages => ?_⟩
    obtain ⟨r, m, hrun, gone, _, hm, hend⟩ := (hsweep pages).run (Swept.refl m₀)
    obtain ⟨rfl, rfl⟩ := hend (by omega)
    exact ⟨m, hrun, hm⟩
  · intro pages lost r m hend
    have hresult := hsweep pages m₀ lost r m (Swept.refl m₀) hend
    cases r with
    | ok a =>
      obtain ⟨rfl, gone, hgone, hm, _⟩ := hresult
      exact ⟨by simp, gone, hgone, hm⟩
    | error e =>
      obtain ⟨rfl, gone, hgone, hm⟩ := hresult
      exact ⟨by simp, gone, hgone, hm⟩

/-- What a sweep deletes of the objects that are there is determined. -/
theorem SweepsExactly.subset {S T : Set String} (hS : SweepsExactly policy list now m₀ S)
    (hT : SweepsExactly policy list now m₀ T)
    (hpresent : ∀ key ∈ S, (m₀.objects key).isSome = true) : S ⊆ T := by
  obtain ⟨n, hn⟩ := hS.answered
  obtain ⟨n', hn'⟩ := hT.answered
  obtain ⟨m, hrun, hm⟩ := hn (max n n') (Nat.le_max_left ..)
  obtain ⟨m', hrun', hm'⟩ := hn' (max n n') (Nat.le_max_right ..)
  obtain rfl : m = m' := congrArg Prod.snd (hrun.symm.trans hrun')
  intro key hkey
  by_contra hnot
  have hthere := hpresent key hkey
  rw [← hm'.kept key hnot, hm.deleted key hkey] at hthere
  cases hthere

end Exact

/-! ## The bucket -/

/-- A bucket holds finitely many uploads, each written at a time that a `DateTime` can hold. -/
structure IsBucket (objects : String → Option Instant) : Prop where
  finite : (objectsUnder uploadPrefix objects).Finite
  dated : ∀ key t, objects key = some t → (fromTimestamp (t / second)).isSome = true

/-- The entry of an object. -/
def S3Object.of (objects : String → Option Instant) (key : String) : S3Object :=
  ⟨some key, (objects key).map S3DateTime.ofInstant⟩

/-- While the bucket holds what is left of the objects, `ListObjectsV2` answers the first keys
after `startAfter` in order, each with the time of its last write, and whether there are
more. -/
def ListsInOrder (listObjects : ListObjectsV2) (objects₀ : String → Option Instant) : Prop :=
  ∀ objects, Part objects objects₀ → ∀ req : ListObjectsRequest, 0 < req.maxKeys →
    ∃ keys more, Cursor.IsPage (objectsUnder req.keyPrefix objects) req.startAfter keys more ∧
      listObjects objects req = ⟨keys.map (S3Object.of objects), some more⟩

section Bucket

variable {listObjects : ListObjectsV2} {clock : String → Instant} {policy : RetentionPolicy}
  {now : Instant} {m₀ : Media} {objects objects₀ : String → Option Instant}

/-- The time of an object without the fraction of its second. -/
def truncated (objects : String → Option Instant) (key : String) : Instant :=
  wholeSecond ((objects key).getD 0)

theorem objectInfo_of (hpart : Part objects objects₀) (hbucket : IsBucket objects₀) {key : String}
    (hkey : (objects key).isSome = true) :
    objectInfo clock (S3Object.of objects key) = some ⟨key, truncated objects₀ key⟩ := by
  obtain ⟨t, ht⟩ := Option.isSome_iff_exists.mp hkey
  have ht₀ := hpart key t ht
  have hdated := fromTimestamp_eq (hbucket.dated key t ht₀)
  simp only [objectInfo, S3Object.of, S3DateTime.ofInstant, truncated, ht, ht₀, hdated,
    Option.map_some, Option.bind_some, Option.getD_some]

/-- `list` reports whole seconds. -/
theorem reports_s3List (hbucket : IsBucket objects₀) (hlist : ListsInOrder listObjects objects₀) :
    Reports (s3List listObjects clock uploadPrefix) objects₀ (truncated objects₀) := by
  intro objects hpart after
  obtain ⟨keys, more, hpage, hout⟩ :=
    hlist objects hpart ⟨uploadPrefix, listPageKeys, after⟩ (Nat.succ_pos 999)
  refine ⟨keys, more, hpage, ?_⟩
  have hfound : (keys.map (S3Object.of objects)).filterMap (objectInfo clock) =
      keys.map fun key => ⟨key, truncated objects₀ key⟩ := by
    rw [List.filterMap_map, ← List.filterMap_eq_map]
    refine List.filterMap_congr fun key hkey => ?_
    exact objectInfo_of hpart hbucket (Cursor.after_subset (hpage.sound key hkey)).2
  have hlast : ((keys.map fun key => ObjectInfo.mk key (truncated objects₀ key)).getLast?.map
      ObjectInfo.key) = keys.getLast? := by
    rw [List.getLast?_map, Option.map_map]
    exact Option.map_id' ..
  unfold s3List
  simp only [hout, hfound, hlast, Cursor.next, Option.getD_some]

theorem mem_stale {cutoff : Instant} {key : String} :
    key ∈ stale m₀ (truncated m₀.objects) cutoff ↔ startsWith key uploadPrefix = true ∧
      (∃ t, m₀.objects key = some t ∧ wholeSecond t < cutoff) ∧
        isReferenced m₀.db key = false := by
  constructor
  · intro ⟨⟨hunder, hthere⟩, hold, hfree⟩
    obtain ⟨t, ht⟩ := Option.isSome_iff_exists.mp hthere
    rw [truncated, ht] at hold
    exact ⟨hunder, ⟨t, ht, hold⟩, hfree⟩
  · intro ⟨hunder, ⟨t, ht, hold⟩, hfree⟩
    refine ⟨⟨hunder, Option.isSome_iff_exists.mpr ⟨t, ht⟩⟩, ?_, hfree⟩
    rw [truncated, ht]
    exact hold

/-- The sweep deletes exactly the orphans when no upload without a photo was written in the
second of the cutoff, at or after it, and only then. -/
theorem orphanSweep_exact_iff (listObjects : ListObjectsV2) (clock : String → Instant)
    (policy : RetentionPolicy) (now : Instant) (m₀ : Media) (hbucket : IsBucket m₀.objects)
    (hlist : ListsInOrder listObjects m₀.objects) :
    SweepsExactly policy (s3List listObjects clock uploadPrefix) now m₀
        (orphans m₀ (now - policy.uploadOrphanTtl)) ↔
      ∀ key t, startsWith key uploadPrefix = true → m₀.objects key = some t →
        isReferenced m₀.db key = false →
        ¬ (wholeSecond t < now - policy.uploadOrphanTtl ∧ now - policy.uploadOrphanTtl ≤ t) := by
  have hstale : SweepsExactly policy (s3List listObjects clock uploadPrefix) now m₀
      (stale m₀ (truncated m₀.objects) (now - policy.uploadOrphanTtl)) :=
    sweepsExactly_stale (reports_s3List hbucket hlist) hbucket.finite
  constructor
  · intro hexact key t hunder ht hfree hsecond
    have hmem : key ∈ stale m₀ (truncated m₀.objects) (now - policy.uploadOrphanTtl) :=
      mem_stale.mpr ⟨hunder, ⟨t, ht, hsecond.1⟩, hfree⟩
    obtain ⟨_, ⟨t', ht', hold⟩, _⟩ := hstale.subset hexact (fun _ h => h.1.2) hmem
    obtain rfl : t = t' := Option.some.inj (ht.symm.trans ht')
    exact absurd hold (not_lt.mpr hsecond.2)
  · intro hsecond
    suffices h : orphans m₀ (now - policy.uploadOrphanTtl) =
        stale m₀ (truncated m₀.objects) (now - policy.uploadOrphanTtl) by
      rw [h]
      exact hstale
    ext key
    rw [mem_stale]
    constructor
    · intro ⟨hunder, ⟨t, ht, hold⟩, hfree⟩
      exact ⟨hunder, ⟨t, ht, lt_of_le_of_lt (wholeSecond_le t) hold⟩, hfree⟩
    · intro ⟨hunder, ⟨t, ht, hold⟩, hfree⟩
      refine ⟨hunder, ⟨t, ht, ?_⟩, hfree⟩
      exact not_le.mp fun hlate => hsecond key t hunder ht hfree ⟨hold, hlate⟩

end Bucket

/-! ## A bucket with one upload -/

/-- A bucket that knows its keys. -/
def listSorted (keys : List String) : ListObjectsV2 := fun objects req =>
  let page := Cursor.fetch keys
    (fun key => startsWith key req.keyPrefix && (objects key).isSome) req.maxKeys req.startAfter
  ⟨page.1.map (S3Object.of objects), some page.2⟩

theorem listsInOrder_listSorted {keys : List String} {objects₀ : String → Option Instant}
    (hsorted : keys.Pairwise (· < ·)) (hknown : ∀ key t, objects₀ key = some t → key ∈ keys) :
    ListsInOrder (listSorted keys) objects₀ := by
  intro objects hpart req hmax
  have hset : objectsUnder req.keyPrefix objects =
      {key | (startsWith key req.keyPrefix && (objects key).isSome) = true} := by
    ext key
    exact (Bool.and_eq_true_iff ..).symm
  rw [hset]
  refine ⟨_, _, Cursor.fetch_isPage hmax hsorted fun key hkey => ?_, rfl⟩
  obtain ⟨t, ht⟩ := Option.isSome_iff_exists.mp (Bool.and_eq_true_iff.mp hkey).2
  exact hknown key t (hpart key t ht)

def leftKey : String := "uploads/left/full.jpg"

def leftBucket : ListObjectsV2 := listSorted [leftKey]

/-- An upload that no photo references, written half a second after the epoch. -/
def halfPast : Media where
  db := Moderation.freshRack
  objects key := if key = leftKey then some (500 * millisecond) else none

theorem halfPast_objects {key : String} {t : Instant} (h : halfPast.objects key = some t) :
    key = leftKey ∧ t = 500 * millisecond := by
  change (if key = leftKey then some (500 * millisecond) else none) = some t at h
  split at h
  · rename_i hkey
    exact ⟨hkey, (Option.some.inj h).symm⟩
  · cases h

theorem isBucket_halfPast : IsBucket halfPast.objects where
  finite := by
    refine (Set.finite_singleton leftKey).subset fun key hkey => ?_
    obtain ⟨t, ht⟩ := Option.isSome_iff_exists.mp hkey.2
    exact (halfPast_objects ht).1
  dated key t ht := by
    rw [(halfPast_objects ht).2]
    decide

theorem listsInOrder_halfPast : ListsInOrder leftBucket halfPast.objects := by
  refine listsInOrder_listSorted (List.pairwise_singleton ..) fun key t ht => ?_
  exact List.mem_singleton.mpr (halfPast_objects ht).1

def leftList : Lister := s3List leftBucket (fun _ => 25 * hour) uploadPrefix

/-- An hour past its term the upload is an orphan, and the sweep takes it. -/
theorem orphanSweep_exact_iff_halfPast :
    SweepsExactly {} leftList (25 * hour) halfPast (orphans halfPast (25 * hour - 24 * hour)) := by
  refine (orphanSweep_exact_iff _ _ {} _ halfPast isBucket_halfPast listsInOrder_halfPast).mpr
    fun key t _ ht _ => ?_
  rw [(halfPast_objects ht).2]
  decide

/-- The sweep takes the upload three tenths of a second before its term is over. -/
theorem orphanSweep_takes_young :
    IsBucket halfPast.objects ∧ ListsInOrder leftBucket halfPast.objects ∧
      ¬ SweepsExactly {} leftList (24 * hour + 200 * millisecond) halfPast
        (orphans halfPast (24 * hour + 200 * millisecond - 24 * hour)) := by
  refine ⟨isBucket_halfPast, listsInOrder_halfPast, fun h => ?_⟩
  obtain ⟨gone, hgone, hm⟩ := (h.interrupted 1 false _ _ (Service.ends_run ..)).2
  have hdeleted : ((purgeOrphanUploads {} leftList (24 * hour + 200 * millisecond) 1).run
      halfPast).2.objects leftKey = none := by decide +kernel
  have hyoung : leftKey ∉ orphans halfPast (24 * hour + 200 * millisecond - 24 * hour) := by
    intro ⟨_, ⟨t, ht, hold⟩, _⟩
    rw [(halfPast_objects ht).2] at hold
    revert hold
    decide
  rw [hm.kept _ fun hmem => hyoung (hgone hmem)] at hdeleted
  cases hdeleted

end BikesNest.Photos
