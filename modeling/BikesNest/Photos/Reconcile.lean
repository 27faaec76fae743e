import BikesNest.Photos.Moderation

/-!
# The reconciliation next to the moderators

`reconcile_pending_photos` selects the pending photos of a table, looks for the object of
each, and deletes those rows by their id whose object it has not found.  Next to it run
uploads, the decisions of moderators, sweeps and other reconciliations.

The deletion does not look at the state again.  A photo that a moderator has decided is
deleted when the reconciliation finds its object missing after the decision, as a rejection
leaves it, or when the decision falls between the look and the deletion.  In every run
without such a step, only pending photos are deleted.

`Place` is where a reconciliation stands, computed from what its calls have found.
-/

namespace BikesNest.Photos

open Domain Store Relational Runs Threads
open Moderation (PhotoKind ModerationError)
open Privacy (photos PrivacyError RetentionPolicy pendingPhotos deletePhoto pendingReconcileGrace)

/-! ## Where a reconciliation stands -/

inductive Place where
  | selecting (kind : PhotoKind)
  /-- It is about to look for the object under `key`. -/
  | checking (kind : PhotoKind) (id : Nat) (key : String) (rest : List (Nat × String))
  /-- It has not found the object, and is about to delete the row. -/
  | deleting (kind : PhotoKind) (id : Nat) (rest : List (Nat × String))
  | finished

namespace Place

/-- The place before the candidates that are left of a table. -/
def enter (kind : PhotoKind) : List (Nat × String) → Place
  | [] =>
    match kind with
    | .parking => .selecting .review
    | .review => .finished
  | (id, key) :: rest => .checking kind id key rest

/-- The place after a call that has found the store `m`. -/
def next (now : Instant) (m : Media) : Place → Place
  | .selecting kind => enter kind (pendingPhotos kind m.db (now - pendingReconcileGrace))
  | .checking kind id key rest =>
    if (m.objects key).isSome then enter kind rest else .deleting kind id rest
  | .deleting kind _ rest => enter kind rest
  | .finished => .finished

end Place

/-- Where the thread stands; another operation stands nowhere. -/
def placeOf (t : PhotoThread) : Place :=
  match t.op with
  | .reconcile now => t.found.foldl (fun place x => place.next now x.2) (.selecting .parking)
  | _ => .finished

/-- The thread has calls left. -/
def isRunning (t : PhotoThread) : Bool :=
  match t.rest with
  | .done _ => false
  | .call .. => true

/-- The photo is there and has been decided. -/
def isSettled (m : Media) (kind : PhotoKind) (id : Nat) : Bool :=
  ((photos m.db kind).row id).any fun r => r.moderationState != .pendingReview

/-- The next call of thread `i` decides the photo. -/
def settles (p : PhotoPool) (i : Nat) (kind : PhotoKind) (id : Nat) : Bool :=
  match p.threads[i]? with
  | some ⟨_, _, .call write _ _⟩ => !isSettled p.store kind id && isSettled (write p.store) kind id
  | _ => false

/-- A look that does not find the object is at a photo that is not decided. -/
def looksSafely (m : Media) (t : PhotoThread) : Bool :=
  match placeOf t with
  | .checking kind id key _ => (m.objects key).isSome || !isSettled m kind id
  | _ => true

/-- The next call of thread `i` does not decide the photo that `u` is about to delete. -/
def spares (p : PhotoPool) (i : Nat) (u : PhotoThread) : Bool :=
  match placeOf u with
  | .deleting kind id _ => !isRunning u || !settles p i kind id
  | _ => true

/-- A step in which no reconciliation finds the object of a decided photo missing, and
which decides no photo that one is about to delete. -/
def sparesDecisions (p : PhotoPool) : Event PhotoOp → Bool
  | .start _ => true
  | .answer i => (p.threads[i]?).all (looksSafely p.store) && p.threads.all (spares p i)
  | .lose i applied => !applied || p.threads.all (spares p i)

/-- What may become of the photos: each stays and moves along its state machine, or it was
pending and is deleted. -/
def SparesDecided (m m' : Media) : Prop :=
  ∀ kind id r, (photos m.db kind).row id = some r →
    (∃ r', (photos m'.db kind).row id = some r' ∧
      Relation.ReflTransGen StateStep r.moderationState r'.moderationState) ∨
    (photos m'.db kind).row id = none ∧ r.moderationState = .pendingReview

/-- Every photo that is decided stays, and moves along its state machine. -/
def KeepsDecided (m m' : Media) : Prop :=
  ∀ kind id r, (photos m.db kind).row id = some r → r.moderationState ≠ .pendingReview →
    ∃ r', (photos m'.db kind).row id = some r' ∧
      Relation.ReflTransGen StateStep r.moderationState r'.moderationState

/-! ## The other operations delete no photo -/

/-- Each photo stays and moves along its state machine. -/
structure Preserves (m m' : Media) : Prop where
  row : ∀ {kind id r}, (photos m.db kind).row id = some r →
    ∃ r', (photos m'.db kind).row id = some r' ∧
      Relation.ReflTransGen StateStep r.moderationState r'.moderationState

section Preserves

variable {m m' : Media} {kind : PhotoKind} {id : Nat} {db db' : Db}

theorem Preserves.of_eq (h : ∀ kind, photos m'.db kind = photos m.db kind) : Preserves m m' :=
  ⟨fun {kind _ r} hr => ⟨r, by rwa [h kind], .refl⟩⟩

theorem Preserves.refl (m : Media) : Preserves m m := .of_eq fun _ => rfl

theorem PhotoMove.preserves {d : PhotoDecision} (h : PhotoMove d m m') : Preserves m m' := by
  refine ⟨fun hr => ?_⟩
  obtain ⟨r', hr', _, hstate⟩ := (h.reaches ..).row hr
  exact ⟨r', hr', hstate⟩

/-- A transaction of the database. -/
theorem repo_preserves {α : Type} {f : Db → Except PhotoError (α × Db)}
    (h : ∀ m a db', f m.db = .ok (a, db') → Preserves m { m with db := db' }) :
    (repo f).Respects Preserves := by
  refine .request Preserves.refl fun m a m' hf => ?_
  split at hf
  · rename_i hdb
    cases hf
    exact h m _ _ hdb
  · cases hf

theorem query_preserves {α : Type} (f : Db → α) : (query f).Respects Preserves :=
  .query _ _ Preserves.refl

theorem audit_preserves (event : NewAuditEvent) : (audit event).Respects Preserves :=
  repo_preserves fun _ _ _ h => .of_eq (recordAudit_photos (recordAudit_of_ok h))

theorem deleteQuietly_preserves (key : String) : (deleteQuietly key).Respects Preserves :=
  ⟨fun _ => .of_eq fun _ => rfl, fun _ => trivial, trivial⟩

theorem approvePhoto_preserves {moderator : AuthenticatedUser} :
    (approvePhoto moderator kind id).Respects Preserves := by
  refine approvePhoto_respects query_preserves (fun position => repo_preserves ?_) audit_preserves
  intro m u db' h
  obtain ⟨mid, hdecide, hlast⟩ := Moderation.bind_eq_ok h
  cases hlast
  exact (decidePending_moves (d := ⟨.approve, moderator, kind, id⟩) rfl
    (by exact fun _ => rfl) (by exact fun _ => rfl) hdecide).1.preserves

theorem rejectPhoto_preserves {moderator : AuthenticatedUser} {reason : String} :
    (rejectPhoto moderator kind id reason).Respects Preserves := by
  unfold rejectPhoto
  generalize Text.trim reason = trimmed
  refine .bind (.require _ _) fun _ => .bind (.require _ _) fun _ =>
    .bind (query_preserves _) fun found => ?_
  cases found with
  | none => exact .throw _
  | some photo =>
    dsimp only
    cases photo.moderationState with
    | rejected => exact .pure _
    | approved => exact .throw _
    | hidden => exact .throw _
    | pendingReview =>
      refine .bind (repo_preserves ?_) fun keys => ?_
      · intro m keys db' h
        obtain ⟨mid, hdecide, hlast⟩ := Moderation.bind_eq_ok h
        have hmove := (decidePending_moves (d := ⟨.reject reason, moderator, kind, id⟩) rfl
          (by exact fun _ => rfl) (by exact fun _ => rfl) hdecide).1
        split at hlast
        · cases hlast
        · cases hlast
          exact hmove.preserves
      · unfold rejected
        refine .bind (deleteQuietly_preserves _) fun _ => ?_
        cases keys.2 with
        | none => exact audit_preserves _
        | some thumb =>
          exact .bind (deleteQuietly_preserves _) fun _ => audit_preserves _

theorem moderate_preserves {moderator : AuthenticatedUser} {d : PhotoDecision}
    {action : Moderation.ContentAction} {f : Db → Except ModerationError (Unit × Db)}
    {event : NewAuditEvent}
    (haction : action.changes (fun _ => false) moderator = Moderation.changed moderator f event)
    (hf : f = fun db => Moderation.flipPhoto db d.kind d.id d.source d.target moderator.id) :
    (moderate moderator action).Respects Preserves :=
  (moderate_respects haction hf).mono fun _ _ => PhotoMove.preserves

/-- A sweep deletes objects. -/
theorem purgeOrphanUploads_preserves {policy : RetentionPolicy} {list : Lister} {now : Instant}
    (pages : Nat) : (purgeOrphanUploads policy list now pages).Respects Preserves :=
  Privacy.Stores.purgePages_respects (fun f => .query _ _ Preserves.refl)
    (fun after => .query _ _ Preserves.refl) (fun key => .execute _ fun _ => .of_eq fun _ => rfl)
    pages none

theorem putObject_preserves (key : String) : (putObject key).Respects Preserves :=
  ⟨fun _ => .of_eq fun _ => rfl, fun _ => trivial, trivial⟩

/-- An insert leaves the photos that are there. -/
theorem insertPhoto_preserves {r : Photo} : Preserves m { m with db := insertPhoto m.db kind r } := by
  refine ⟨fun {kind' i x} hx => ⟨x, ?_, .refl⟩⟩
  cases kind with
  | parking =>
    cases kind' with
    | parking => exact Table.row_insert_of_some _ hx
    | review => exact hx
  | review =>
    cases kind' with
    | parking => exact hx
    | review => exact Table.row_insert_of_some _ hx

theorem uploadPhoto_preserves (x : Upload) : (uploadPhoto x).Respects Preserves := by
  have hundone : ∀ e, (x.undone e).Respects Preserves := fun e =>
    .bind (deleteQuietly_preserves _) fun _ => .bind (deleteQuietly_preserves _) fun _ => .throw _
  have hinsert : (repo fun db => insertPending db x.target x.user.id (fullKey x.uploadId)
      (thumbKey x.uploadId)).Respects Preserves := by
    refine repo_preserves fun m i db' h => ?_
    obtain ⟨r, _, _, rfl⟩ := insert_ok (x := x) h
    exact insertPhoto_preserves
  have hrow : x.writeRow.Respects Preserves := by
    refine .bind hinsert.attempt fun inserted => ?_
    cases inserted with
    | ok id => exact .bind (audit_preserves _) fun _ => .pure _
    | error e => exact hundone e
  have hthumb : x.writeThumb.Respects Preserves := by
    refine .bind (putObject_preserves _) fun written => ?_
    cases written with
    | ok u => exact hrow
    | error e => exact .bind (deleteQuietly_preserves _) fun _ => .throw _
  have hwrite : x.write.Respects Preserves := by
    refine .bind (putObject_preserves _) fun written => ?_
    cases written with
    | ok u => exact hthumb
    | error e => exact .throw _
  unfold uploadPhoto
  refine .bind (.require _ _) fun _ => .bind (.require _ _) fun _ => .bind (.require _ _) fun _ =>
    .bind (.require _ _) fun _ => ?_
  split
  · exact .throw _
  · exact .throw _
  · exact hwrite

/-- Every operation but a reconciliation. -/
theorem script_preserves {policy : RetentionPolicy} {list : Lister} (op : PhotoOp)
    (hop : ∀ now, op ≠ .reconcile now) : (op.script policy list).Respects Preserves := by
  cases op with
  | upload x => exact (uploadPhoto_preserves x).void
  | approve moderator kind id => exact approvePhoto_preserves.void
  | reject moderator kind id reason => exact rejectPhoto_preserves.void
  | hide moderator kind id =>
    exact (moderate_preserves (d := ⟨.hide, moderator, kind, id⟩) (by exact rfl)
      (by exact rfl)).void
  | restore moderator kind id =>
    exact (moderate_preserves (d := ⟨.restore, moderator, kind, id⟩) (by exact rfl)
      (by exact rfl)).void
  | sweep now pages => exact (purgeOrphanUploads_preserves pages).void
  | reconcile now => exact absurd rfl (hop now)
  | wait d => exact .execute _ fun m => .of_eq fun kind => by cases kind <;> rfl

end Preserves

/-! ## The calls of a reconciliation -/

/-- The second half of a reconciliation: the photos of reviews. -/
def reviewPart (now : Instant) (deleted : Nat) : Service Media PrivacyError Nat := do
  let review ← Service.query .unavailable fun m =>
    pendingPhotos .review m.db (now - pendingReconcileGrace)
  let more ← mediaStores.reconcilePhotos .review review
  return deleted + more

/-- What follows the loop over a table. -/
def Follows (now : Instant) (kind : PhotoKind) (k : Nat → Service Media PrivacyError Nat) : Prop :=
  match kind with
  | .parking => ∀ count, ∃ deleted, k count = reviewPart now deleted
  | .review => ∀ count, ∃ deleted, k count = pure deleted

/-- The service goes on as the place says. -/
def Tracks (now : Instant) : Place → Service Media Unit Unit → Prop
  | .selecting .parking, m => m = (mediaStores.reconcilePendingPhotos now).void
  | .selecting .review, m => ∃ deleted, m = (reviewPart now deleted).void
  | .checking kind id key rest, m => ∃ k, Follows now kind k ∧
      m = (mediaStores.reconcilePhotos kind ((id, key) :: rest) >>= k).void
  | .deleting kind id rest, m => ∃ k, Follows now kind k ∧
      m = (mediaStores.purge (fun db => deletePhoto kind db id) >>= fun deleted =>
        mediaStores.reconcilePhotos kind rest >>= fun count => k (deleted + count)).void
  | .finished, m => m = .done (.ok ())

section Tracks

variable {now : Instant} {kind : PhotoKind} {k : Nat → Service Media PrivacyError Nat}

theorem Follows.add (h : Follows now kind k) (deleted : Nat) :
    Follows now kind fun count => k (deleted + count) := by
  cases kind with
  | parking => exact fun count => h (deleted + count)
  | review => exact fun count => h (deleted + count)

theorem follows_reviewPart : Follows now .parking (reviewPart now) := fun count => ⟨count, rfl⟩

theorem follows_pure (deleted : Nat) :
    Follows now .review fun more => pure (deleted + more) := fun more => ⟨deleted + more, rfl⟩

/-- The loop on one candidate and the rest of them. -/
theorem reconcilePhotos_cons (id : Nat) (key : String) (rest : List (Nat × String)) :
    mediaStores.reconcilePhotos kind ((id, key) :: rest) >>= k =
      Service.query .unavailable (fun m : Media => (m.objects key).isSome) >>= fun found =>
        mediaStores.reconcilePhoto kind id found >>= fun deleted =>
          mediaStores.reconcilePhotos kind rest >>= fun count => k (deleted + count) := by
  rw [Privacy.Stores.reconcilePhotos]
  simp only [Service.bind_assoc]
  rfl

theorem tracks_enter (h : Follows now kind k) (rows : List (Nat × String)) :
    Tracks now (Place.enter kind rows) (mediaStores.reconcilePhotos kind rows >>= k).void := by
  cases rows with
  | nil =>
    cases kind with
    | parking =>
      obtain ⟨deleted, hk⟩ := h 0
      exact ⟨deleted, congrArg Service.void hk⟩
    | review =>
      obtain ⟨deleted, hk⟩ := h 0
      exact congrArg Service.void hk
  | cons row rows => exact ⟨k, h, rfl⟩

/-- A call of a reconciliation reads, or deletes the row it is about to delete; a lost call
ends it. -/
theorem Tracks.call {place : Place} {write : Media → Media} {next : Media → Service Media Unit Unit}
    {failed : Service Media Unit Unit} (h : Tracks now place (.call write next failed)) :
    failed = .done (.ok ()) ∧ (∀ m, Tracks now (place.next now m) (next m)) ∧
      ((∀ m, write m = m) ∨ ∃ kind id rest, place = .deleting kind id rest ∧
        ∀ m, write m = { m with db := (deletePhoto kind m.db id).2 }) := by
  cases place with
  | selecting kind =>
    cases kind with
    | parking =>
      obtain ⟨rfl, rfl, rfl⟩ := Service.call.inj h
      exact ⟨rfl, fun m => tracks_enter follows_reviewPart _, .inl fun _ => rfl⟩
    | review =>
      obtain ⟨deleted, h⟩ := h
      obtain ⟨rfl, rfl, rfl⟩ := Service.call.inj h
      exact ⟨rfl, fun m => tracks_enter (follows_pure deleted) _, .inl fun _ => rfl⟩
  | checking kind id key rest =>
    obtain ⟨k, hk, h⟩ := h
    rw [reconcilePhotos_cons] at h
    obtain ⟨rfl, rfl, rfl⟩ := Service.call.inj h
    refine ⟨rfl, fun m => ?_, .inl fun _ => rfl⟩
    have hnext : ∀ found, (m.objects key).isSome = found →
        Tracks now (if found then Place.enter kind rest else .deleting kind id rest)
          (mediaStores.reconcilePhoto kind id found >>= fun deleted =>
            mediaStores.reconcilePhotos kind rest >>= fun count => k (deleted + count)).void := by
      intro found hfound
      cases found with
      | true => exact tracks_enter (hk.add 0) rest
      | false => exact ⟨k, hk, rfl⟩
    exact hnext _ rfl
  | deleting kind id rest =>
    obtain ⟨k, hk, h⟩ := h
    obtain ⟨rfl, rfl, rfl⟩ := Service.call.inj h
    refine ⟨rfl, fun m => ?_, .inr ⟨kind, id, rest, rfl, fun _ => rfl⟩⟩
    exact tracks_enter (hk.add _) rest
  | finished => cases h

end Tracks

/-! ## Runs -/

section Run

variable {policy : RetentionPolicy} {list : Lister} {p p' : PhotoPool} {i : Nat} {op : PhotoOp}
  {found : List (Nat × Media)} {write : Media → Media} {next : Media → Service Media Unit Unit}
  {failed : Service Media Unit Unit} {kind : PhotoKind} {id : Nat}

theorem SparesDecided.refl (m : Media) : SparesDecided m m :=
  fun _ _ r hr => .inl ⟨r, hr, .refl⟩

theorem SparesDecided.keeps {m m' : Media} (h : SparesDecided m m') : KeepsDecided m m' := by
  intro kind id r hr hdecided
  rcases h kind id r hr with hstays | ⟨_, hpending⟩
  · exact hstays
  · exact absurd hpending hdecided

instance : IsPreorder Media KeepsDecided where
  refl m := (SparesDecided.refl m).keeps
  trans m m' m'' h h' := by
    intro kind id r hr hdecided
    obtain ⟨r', hr', hstate⟩ := h kind id r hr hdecided
    obtain ⟨r'', hr'', hstate'⟩ := h' kind id r' hr' (settled_of_reached hstate hdecided)
    exact ⟨r'', hr'', hstate.trans hstate'⟩

/-- A thread of a run: a reconciliation is where its place says, and is about to delete
only a photo that is not decided; another operation deletes no photo. -/
structure Watchful (m : Media) (t : PhotoThread) : Prop where
  tracks : ∀ now, t.op = .reconcile now → t.rest = .done (.ok ()) ∨ Tracks now (placeOf t) t.rest
  undecided : ∀ kind id rest, placeOf t = .deleting kind id rest → isRunning t = true →
    isSettled m kind id = false
  preserves : (∀ now, t.op ≠ .reconcile now) → t.rest.Respects Preserves

theorem placeOf_snoc (rest rest' : Service Media Unit Unit) {now : Instant} (x : Nat × Media) :
    placeOf ⟨.reconcile now, found ++ [x], rest'⟩ =
      (placeOf ⟨.reconcile now, found, rest⟩).next now x.2 := by
  simp [placeOf]

theorem Place.enter_ne_deleting {rows rest : List (Nat × String)} {kind' : PhotoKind} :
    Place.enter kind' rows ≠ .deleting kind id rest := by
  cases rows with
  | nil => cases kind' <;> exact nofun
  | cons row rows => exact nofun

/-- A reconciliation is about to delete a photo once it has not found its object. -/
theorem Place.next_eq_deleting {place : Place} {now : Instant} {m : Media}
    {rest : List (Nat × String)} (h : place.next now m = .deleting kind id rest) :
    ∃ key, place = .checking kind id key rest ∧ (m.objects key).isSome = false := by
  cases place with
  | selecting kind' => exact absurd h enter_ne_deleting
  | checking kind' id' key rest' =>
    rw [Place.next] at h
    cases hfound : (m.objects key).isSome with
    | true =>
      rw [hfound, if_pos rfl] at h
      exact absurd h enter_ne_deleting
    | false =>
      rw [hfound, if_neg Bool.false_ne_true] at h
      cases h
      exact ⟨key, rfl, hfound⟩
  | deleting kind' id' rest' => exact absurd h enter_ne_deleting
  | finished => cases h

/-- An operation that starts. -/
theorem Watchful.started (m : Media) (op : PhotoOp) :
    Watchful m ⟨op, [], op.script policy list⟩ := by
  refine ⟨fun now hop => ?_, fun kind id rest hplace => ?_, script_preserves op⟩
  · obtain rfl : op = .reconcile now := hop
    exact .inr rfl
  · cases op <;> cases hplace

/-- The row under the id is gone, and the others stay. -/
theorem row_deletePhoto (db : Db) (kind kind' : PhotoKind) (id i : Nat) :
    (photos (deletePhoto kind db id).2 kind').row i =
      if kind' = kind ∧ i = id then none else (photos db kind').row i := by
  have hdelete : ∀ table : Table Photo, (table.delete fun i _ => i == id).row i =
      if i = id then none else table.row i := by
    intro table
    rw [Table.row_delete]
    by_cases hi : i = id
    · subst hi
      cases table.row i <;> simp
    · cases table.row i <;> simp [hi]
  cases kind with
  | parking =>
    cases kind' with
    | parking => exact (hdelete db.parkingPhoto).trans (if_congr (by simp) rfl rfl)
    | review => simp [deletePhoto, photos]
  | review =>
    cases kind' with
    | parking => simp [deletePhoto, photos]
    | review => exact (hdelete db.reviewPhoto).trans (if_congr (by simp) rfl rfl)

theorem isSettled_eq_false {m : Media} {r : Photo} (h : isSettled m kind id = false)
    (hr : (photos m.db kind).row id = some r) : r.moderationState = .pendingReview := by
  rw [isSettled, hr, Option.any_some] at h
  simpa using h

/-- A call of a thread deletes only a photo that is not decided. -/
theorem Watchful.sparesDecided {m : Media} (h : Watchful m ⟨op, found, .call write next failed⟩) :
    SparesDecided m (write m) := by
  by_cases hop : ∃ now, op = .reconcile now
  · obtain ⟨now, rfl⟩ := hop
    rcases h.tracks now rfl with hdone | htracks
    · cases hdone
    rcases htracks.call.2.2 with hreads | ⟨kind, id, rest, hplace, hdeletes⟩
    · rw [hreads m]
      exact .refl m
    · have hpending := h.undecided kind id rest hplace rfl
      rw [hdeletes m]
      intro kind' i r hr
      rw [row_deletePhoto]
      by_cases hsame : kind' = kind ∧ i = id
      · obtain ⟨rfl, rfl⟩ := hsame
        exact .inr ⟨if_pos ⟨rfl, rfl⟩, isSettled_eq_false hpending hr⟩
      · exact .inl ⟨r, (if_neg hsame).trans hr, .refl⟩
  · have hpreserves := h.preserves fun now hsame => hop ⟨now, hsame⟩
    exact fun kind id r hr => .inl ((hpreserves.1 m).row hr)

/-- A call of another thread. -/
theorem Watchful.other {u : PhotoThread} (h : Watchful p.store u)
    (hspares : spares p i u = true)
    (ht : p.threads[i]? = some ⟨op, found, .call write next failed⟩) :
    Watchful (write p.store) u := by
  refine ⟨h.tracks, fun kind id rest hplace hrunning => ?_, h.preserves⟩
  have hbefore := h.undecided kind id rest hplace hrunning
  unfold spares settles at hspares
  rw [hplace, ht] at hspares
  simpa [hrunning, hbefore] using hspares

/-- The thread whose call is answered. -/
theorem Watchful.answered (h : Watchful p.store ⟨op, found, .call write next failed⟩)
    (hlooks : looksSafely p.store ⟨op, found, .call write next failed⟩ = true) (n : Nat) :
    Watchful (write p.store) ⟨op, found ++ [(n, p.store)], next p.store⟩ := by
  by_cases hop : ∃ now, op = .reconcile now
  · obtain ⟨now, rfl⟩ := hop
    rcases h.tracks now rfl with hdone | htracks
    · cases hdone
    obtain ⟨_, hnext, hwrite⟩ := htracks.call
    refine ⟨fun now' hop' => .inr ?_, fun kind id rest hplace _ => ?_, fun hop => ?_⟩
    · cases hop'
      rw [placeOf_snoc (.call write next failed)]
      exact hnext p.store
    · rw [placeOf_snoc (.call write next failed)] at hplace
      obtain ⟨key, hchecking, hmissing⟩ := Place.next_eq_deleting hplace
      have hpending : isSettled p.store kind id = false := by
        unfold looksSafely at hlooks
        rw [hchecking] at hlooks
        simpa [hmissing] using hlooks
      rcases hwrite with hreads | ⟨_, _, _, hdeleting, _⟩
      · rwa [hreads]
      · rw [hchecking] at hdeleting
        cases hdeleting
    · exact absurd rfl (hop now)
  · refine ⟨fun now hsame => absurd ⟨now, hsame⟩ hop, fun kind id rest hplace => ?_, fun hop' => ?_⟩
    · cases op <;> first | cases hplace | exact absurd ⟨_, rfl⟩ hop
    · exact (h.preserves hop').2.1 p.store

/-- The thread whose call is lost. -/
theorem Watchful.lost {m m' : Media} (h : Watchful m ⟨op, found, .call write next failed⟩)
    (found' : List (Nat × Media)) : Watchful m' ⟨op, found', failed⟩ := by
  refine ⟨fun now hop => ?_, fun kind id rest hplace hrunning => ?_, fun hop =>
    (h.preserves hop).2.2⟩
  · rcases h.tracks now hop with hdone | htracks
    · cases hdone
    · exact .inl htracks.call.1
  · cases op with
    | reconcile now =>
      rcases h.tracks now rfl with hdone | htracks
      · cases hdone
      · obtain rfl := htracks.call.1
        cases hrunning
    | upload x => cases hplace
    | approve moderator kind id => cases hplace
    | reject moderator kind id reason => cases hplace
    | hide moderator kind id => cases hplace
    | restore moderator kind id => cases hplace
    | sweep now pages => cases hplace
    | wait d => cases hplace

/-- Every thread is watchful. -/
def AllWatchful (p : PhotoPool) : Prop := ∀ t ∈ p.threads, Watchful p.store t

/-- A step that spares decisions deletes only a photo that is not decided. -/
theorem AllWatchful.step (hp : AllWatchful p) {e : Event PhotoOp}
    (hspares : sparesDecisions p e = true) (h : p.next (PhotoOp.script policy list) e = some p') :
    SparesDecided p.store p'.store ∧ AllWatchful p' := by
  cases e with
  | start op =>
    cases h
    refine ⟨.refl _, fun t ht => ?_⟩
    rcases List.mem_append.mp ht with hold | hnew
    · exact hp t hold
    · rw [List.mem_singleton.mp hnew]
      exact .started _ op
  | answer i =>
    obtain ⟨op, found, write, next, failed, ht, rfl⟩ := next_answer h
    obtain ⟨hlooks, hothers⟩ := Bool.and_eq_true_iff.mp hspares
    rw [ht, Option.all_some] at hlooks
    have hown := hp _ (List.mem_of_getElem? ht)
    refine ⟨hown.sparesDecided, fun u hu => ?_⟩
    rcases List.mem_or_eq_of_mem_set hu with hold | rfl
    · exact (hp u hold).other (List.all_eq_true.mp hothers u hold) ht
    · exact hown.answered hlooks p.time
  | lose i applied =>
    obtain ⟨op, found, write, next, failed, ht, rfl⟩ := next_lose h
    have hown := hp _ (List.mem_of_getElem? ht)
    cases applied with
    | true =>
      refine ⟨hown.sparesDecided, fun u hu => ?_⟩
      rcases List.mem_or_eq_of_mem_set hu with hold | rfl
      · exact (hp u hold).other (List.all_eq_true.mp hspares u hold) ht
      · exact hown.lost _
    | false =>
      refine ⟨.refl _, fun u hu => ?_⟩
      rcases List.mem_or_eq_of_mem_set hu with hold | rfl
      · exact hp u hold
      · exact hown.lost _

/-- In every run in which no reconciliation finds the object of a decided photo missing, and
no photo is decided between such a look and the deletion that follows it, a step deletes only
photos that are pending, and a photo that is decided stays decided. -/
theorem reconcile_spares_decided {m₀ : Media} {es es' : List (Event PhotoOp)}
    (hrun : PhotoRun policy list sparesDecisions m₀ es p)
    (hmore : Run (Guarded (fun p e => sparesDecisions p e = true) fun p e p' =>
      p.next (PhotoOp.script policy list) e = some p') p es' p') :
    KeepsDecided p.store p'.store ∧
      ∀ e p'', sparesDecisions p' e = true → p'.next (PhotoOp.script policy list) e = some p'' →
        SparesDecided p'.store p''.store := by
  have hinit : AllWatchful (Pool.init m₀) := by
    intro t ht
    cases ht
  have hp : AllWatchful p :=
    hrun.invariant (fun p e p' hp hstep => (hp.step hstep.1 hstep.2).2) hinit
  have hp' : KeepsDecided p.store p'.store ∧ AllWatchful p' := by
    refine hmore.invariant (I := fun q => KeepsDecided p.store q.store ∧ AllWatchful q)
      (fun q e q' hq hstep => ?_) ⟨refl_of KeepsDecided _, hp⟩
    obtain ⟨hspares, hq'⟩ := hq.2.step hstep.1 hstep.2
    exact ⟨trans_of KeepsDecided hq.1 hspares.keeps, hq'⟩
  exact ⟨hp'.1, fun e p'' hspares h => (hp'.2.step hspares h).1⟩

end Run

/-! ## A rack with a stuck photo -/

/-- The rack with a second pending photo, whose objects are not there. -/
def stuckRack : Media :=
  { pendingRack with
    db := insertPhoto pendingRack.db .parking
      { parentId := 1, uploaderId := some 1, storageKey := "uploads/01/full.jpg"
        thumbnailKey := some "uploads/01/thumb.jpg", createdAt := 0 } }

/-- The first photo is approved while a reconciliation has both before it. -/
def approvedMeanwhile : List (Event PhotoOp) :=
  [.start (.reconcile (2 * hour)), .answer 0,
    .start (.approve Moderation.rackModerator .parking 1), .answer 1, .answer 1, .answer 1]

/-- It goes on: the first photo has its object, the second is deleted. -/
def stuckDeleted : List (Event PhotoOp) := [.answer 0, .answer 0, .answer 0, .answer 1]

def stateOf (m : Media) (id : Nat) : Option PhotoModerationState :=
  ((photos m.db .parking).row id).map Photo.moderationState

theorem stateOf_eq_some {m : Media} {id : Nat} {state : PhotoModerationState}
    (h : stateOf m id = some state) :
    ∃ r, (photos m.db .parking).row id = some r ∧ r.moderationState = state :=
  Option.map_eq_some_iff.mp h

theorem reconcile_spares_decided_stuck :
    ∃ p p' : PhotoPool, PhotoRun {} (listing []) sparesDecisions stuckRack approvedMeanwhile p ∧
      stateOf p.store 1 = some .approved ∧ KeepsDecided p.store p'.store ∧
      stateOf p'.store 2 = none := by
  have hstart : (approvedMeanwhile.foldlM (fun (p : PhotoPool) e =>
      if sparesDecisions p e then p.next (PhotoOp.script {} (listing [])) e else none)
      (Pool.init stuckRack)).any (fun p => stateOf p.store 1 == some .approved &&
        (stuckDeleted.foldlM (fun (p : PhotoPool) e =>
          if sparesDecisions p e then p.next (PhotoOp.script {} (listing [])) e else none)
          p).any fun p' => stateOf p'.store 2 == none) = true := by decide +kernel
  obtain ⟨p, hp, hmore⟩ := (Option.any_eq_true ..).mp hstart
  obtain ⟨happroved, hmore⟩ := Bool.and_eq_true_iff.mp hmore
  obtain ⟨p', hp', hgone⟩ := (Option.any_eq_true ..).mp hmore
  have hrun := photoRun_of_foldlM hp
  have hkeeps := (reconcile_spares_decided hrun (Run.guarded_of_foldlM hp')).1
  exact ⟨p, p', hrun, eq_of_beq happroved, hkeeps, eq_of_beq hgone⟩

/-- A reconciliation has selected the photo; the photo is rejected, and its object deleted,
before the reconciliation looks for it. -/
def rejectedMeanwhile : List (Event PhotoOp) :=
  [.start (.reconcile (2 * hour)), .answer 0,
    .start (.reject Moderation.rackModerator .parking 1 "blurred"), .answer 1, .answer 1,
    .answer 1, .answer 0]

/-- A reconciliation has not found the object of the second photo, and a moderator approves
the photo before the deletion. -/
def approvedInBetween : List (Event PhotoOp) :=
  [.start (.reconcile (2 * hour)), .answer 0, .answer 0, .answer 0,
    .start (.approve Moderation.rackModerator .parking 2), .answer 1, .answer 1, .answer 1]

/-- The next step of the reconciliation deletes a photo that is decided. -/
theorem not_sparesDecided {es : List (Event PhotoOp)} {id : Nat} {state : PhotoModerationState}
    (hstate : state ≠ .pendingReview)
    (h : (es.foldlM (Pool.next (PhotoOp.script {} (listing []))) (Pool.init stuckRack)).any
      (fun p => stateOf p.store id == some state &&
        (p.next (PhotoOp.script {} (listing [])) (.answer 0)).any fun p' =>
          stateOf p'.store id == none) = true) :
    ∃ p p', PoolRun (PhotoOp.script {} (listing [])) (Pool.init stuckRack) es p ∧
      p.next (PhotoOp.script {} (listing [])) (.answer 0) = some p' ∧
      stateOf p.store id = some state ∧ ¬ SparesDecided p.store p'.store := by
  obtain ⟨p, hp, hnext⟩ := (Option.any_eq_true ..).mp h
  obtain ⟨hdecided, hnext⟩ := Bool.and_eq_true_iff.mp hnext
  obtain ⟨p', hp', hgone⟩ := (Option.any_eq_true ..).mp hnext
  refine ⟨p, p', Run.of_foldlM hp, hp', eq_of_beq hdecided, fun hspares => ?_⟩
  obtain ⟨r, hr, rfl⟩ := stateOf_eq_some (eq_of_beq hdecided)
  have hnone : (photos p'.store.db .parking).row id = none :=
    Option.map_eq_none_iff.mp (eq_of_beq hgone)
  rcases hspares .parking id r hr with ⟨r', hr', _⟩ | ⟨_, hpending⟩
  · rw [hnone] at hr'
    cases hr'
  · exact hstate hpending

/-- A photo that is being rejected is deleted, and so is one that is approved between the
look and the deletion. -/
theorem reconcile_deletes_decided :
    (∃ p p', PoolRun (PhotoOp.script {} (listing [])) (Pool.init stuckRack) rejectedMeanwhile p ∧
      p.next (PhotoOp.script {} (listing [])) (.answer 0) = some p' ∧
      stateOf p.store 1 = some .rejected ∧ ¬ SparesDecided p.store p'.store) ∧
    ∃ p p', PoolRun (PhotoOp.script {} (listing [])) (Pool.init stuckRack) approvedInBetween p ∧
      p.next (PhotoOp.script {} (listing [])) (.answer 0) = some p' ∧
      stateOf p.store 2 = some .approved ∧ ¬ SparesDecided p.store p'.store :=
  ⟨not_sparesDecided (by decide) (by decide +kernel),
    not_sparesDecided (by decide) (by decide +kernel)⟩

end BikesNest.Photos
