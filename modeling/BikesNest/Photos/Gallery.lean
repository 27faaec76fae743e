import BikesNest.Photos.Moderation

/-!
# The places of a gallery

Any number of approvals of photos of both tables run at the same time, call by call, and
any call may be lost.  An approval reads the largest position of the target in one call
and writes its photo in a later one, so that a second approval of the target can come in
between.  `undisturbed` is the condition that none does; in the runs that meet it the
positions of a target follow the order of the approvals.
-/

namespace BikesNest.Photos

open Domain Store Relational Runs Threads
open Moderation (PhotoKind)
open Privacy (photos)

/-- An `approve_photo` of a moderator. -/
structure Approval where
  moderator : AuthenticatedUser
  kind : PhotoKind
  id : Nat

/-- A place in a gallery, and the time at which it was chosen or taken. -/
structure GalleryPlace where
  time : Nat
  parentId : Nat
  position : Int

abbrev ApprovalPool := Pool Media PhotoError Unit Approval

namespace Approval

variable (d : Approval)

def script : Service Media PhotoError Unit := approvePhoto d.moderator d.kind d.id

/-- The place of the photo, once the approval has read the photo and the largest position
of its target, and before the photo is written. -/
def chosen : List (Nat × Media) → Option GalleryPlace
  | [(_, m₀), (n₁, m₁)] =>
    ((photos m₀.db d.kind).row d.id).map fun photo =>
      ⟨n₁, photo.parentId, maxPosition m₁.db ⟨d.kind, photo.parentId⟩ + 1⟩
  | _ => none

/-- The `UPDATE` of the approval. -/
def update (c : GalleryPlace) (db : Db) : Except PhotoError (Unit × Db) :=
  approveRow db d.kind d.id d.moderator.id c.position

/-- The place that the photo has taken, with the time of the `UPDATE`. -/
def taken : List (Nat × Media) → Option GalleryPlace
  | x :: y :: (n, m) :: _ =>
    (d.chosen [x, y]).bind fun c =>
      match d.update c m.db with
      | .ok _ => some { c with time := n }
      | .error _ => none
  | _ => none

end Approval

/-- The photo `id` has been approved and took the place `a`. -/
def Taken (h : History Approval Media) (kind : PhotoKind) (id : Nat) (a : GalleryPlace) : Prop :=
  ∃ t ∈ h, t.1.kind = kind ∧ t.1.id = id ∧ t.1.taken t.2 = some a

/-- No approval of another photo of the target has come between the reading of the largest
position and the `UPDATE` that thread `i` is about to make, unless the photo is approved
already and the `UPDATE` finds it so. -/
def undisturbed (h : History Approval Media) (i : Nat) : Bool :=
  (h[i]?).all fun t => (t.1.chosen t.2).all fun c =>
    h.any (fun u => u.1.kind == t.1.kind && u.1.id == t.1.id && (u.1.taken u.2).isSome) ||
      h.all fun u => (u.1.taken u.2).all fun a =>
        u.1.kind != t.1.kind || a.parentId != c.parentId || decide (a.time < c.time)

/-- The condition on a step. -/
def placing (p : ApprovalPool) (e : Event Approval) : Bool :=
  e.calls.all (undisturbed p.history)

/-! ## The calls of an approval -/

section Calls

variable {d : Approval} {found : List (Nat × Media)} {x : Nat × Media} {a c : GalleryPlace}
  {write : Media → Media} {next : Media → Service Media PhotoError Unit}
  {failed : Service Media PhotoError Unit}

/-- What a call of an approval does to the photos. -/
inductive Approval.Does (d : Approval) (found : List (Nat × Media)) (write : Media → Media) :
    Prop where
  | quiet (hchosen : d.chosen found = none)
      (hwrite : ∀ m kind, photos (write m).db kind = photos m.db kind)
  | update (c : GalleryPlace) (hchosen : d.chosen found = some c)
      (hwrite : ∀ m, write m = match d.update c m.db with
        | .ok (_, db) => { m with db }
        | .error _ => m)

/-- The calls of an approval whose photo is pending. -/
def Approval.rest (d : Approval) (parentId : Nat) : Service Media PhotoError Unit := do
  let top ← query fun db => maxPosition db ⟨d.kind, parentId⟩
  repo (d.update ⟨0, parentId, top + 1⟩)
  audit
    { actor := some d.moderator.id, action := "photo.approved", targetType := tableOf d.kind
      targetId := toString d.id, metadata := .obj [("position", .int (top + 1))] }

/-- What follows the look-up of the photo. -/
def Approval.look (d : Approval) : Option Photo → Service Media PhotoError Unit
  | none => Service.throw .notFound
  | some photo =>
    match photo.moderationState with
    | .approved => pure ()
    | .rejected | .hidden => Service.throw .notPending
    | .pendingReview => d.rest photo.parentId

theorem script_eq (d : Approval) :
    d.script = Service.throw .unauthorized ∨
      d.script = query (fun db => (photos db d.kind).row d.id) >>= d.look := by
  unfold Approval.script approvePhoto
  cases Moderation.isModerator d.moderator with
  | false => exact .inl rfl
  | true =>
    refine .inr (congrArg (Service.call _ · _) (funext fun m => ?_))
    dsimp only
    cases (photos m.db d.kind).row d.id with
    | none => rfl
    | some photo => rfl

/-- An approval that has found its photo goes on with its rest, or ends. -/
theorem look_eq (d : Approval) (found : Option Photo) :
    (∃ r, d.look found = .done r) ∨
      ∃ photo, found = some photo ∧ d.look found = d.rest photo.parentId := by
  cases found with
  | none => exact .inl ⟨_, rfl⟩
  | some photo =>
    unfold Approval.look
    dsimp only
    cases photo.moderationState with
    | approved => exact .inl ⟨_, rfl⟩
    | rejected | hidden => exact .inl ⟨_, rfl⟩
    | pendingReview => exact .inr ⟨photo, rfl, rfl⟩

/-- The audit event leaves the photos. -/
theorem audit_leaves {event : NewAuditEvent} {seen : List Media}
    (h : (audit event).resume seen = .call write next failed) (m : Media) (kind : PhotoKind) :
    photos (write m).db kind = photos m.db kind := by
  have haudit : (audit event).Respects
      fun m m' => ∀ kind, photos m'.db kind = photos m.db kind := by
    refine .request (fun _ _ => rfl) fun m u m' hf => ?_
    split at hf
    · rename_i u' db' hdb
      cases hf
      exact recordAudit_photos (recordAudit_of_ok hdb)
    · cases hf
  have hrest := haudit.resume seen
  rw [h] at hrest
  exact hrest.1 m kind

/-- The calls after the reading of the photo. -/
theorem rest_does {parentId : Nat} {seen : List (Nat × Media)}
    (hchosen : ∀ y, d.chosen [x, y] =
      some ⟨y.1, parentId, maxPosition y.2.db ⟨d.kind, parentId⟩ + 1⟩)
    (h : (d.rest parentId).resume (seen.map Prod.snd) = .call write next failed) :
    d.Does (x :: seen) write := by
  unfold Approval.rest at h
  rcases seen with _ | ⟨y, _ | ⟨z, seen⟩⟩
  · -- the reading of the largest position
    cases h
    exact .quiet rfl fun _ _ => rfl
  · refine .update _ (hchosen y) fun m => ?_
    cases h
    dsimp only [Approval.update]
    cases approveRow m.db d.kind d.id d.moderator.id
      (maxPosition y.2.db ⟨d.kind, parentId⟩ + 1) <;> rfl
  · -- the audit event
    refine .quiet rfl ?_
    rw [List.map_cons, List.map_cons, query, Service.resume_query, repo,
      Service.resume_request] at h
    split at h
    · exact audit_leaves h
    · cases h

theorem approval_does
    (h : d.script.resume (found.map Prod.snd) = .call write next failed) :
    d.Does found write := by
  rcases script_eq d with hthrow | hscript
  · rw [hthrow, Service.throw, Service.resume_done] at h
    cases h
  · rw [hscript] at h
    rcases found with _ | ⟨x, seen⟩
    · -- the look-up of the photo
      cases h
      exact .quiet rfl fun _ _ => rfl
    · rw [List.map_cons, query, Service.resume_query] at h
      rcases look_eq d ((photos x.2.db d.kind).row d.id) with ⟨r, hdone⟩ | ⟨photo, hrow, hrest⟩
      · rw [hdone, Service.resume_done] at h
        cases h
      · rw [hrest] at h
        refine rest_does (fun y => ?_) h
        simp [Approval.chosen, hrow]

/-- A lost call ends an approval with an error. -/
theorem approval_strict (d : Approval) : d.script.Strict := by
  rcases script_eq d with hthrow | hscript
  · rw [hthrow]
    exact .throw _
  · rw [hscript]
    refine .bind (.query _ _) fun found => ?_
    rcases look_eq d found with ⟨r, hdone⟩ | ⟨photo, _, hrest⟩
    · rw [hdone]
      trivial
    · rw [hrest]
      exact .bind (.query _ _) fun _ => .bind (.request _ _) fun _ => .request _ _

/-! ## How far an approval has come -/

theorem taken_mono (h : d.taken found = some a) : d.taken (found ++ [x]) = some a := by
  rcases found with _ | ⟨y, _ | ⟨z, _ | ⟨u, found⟩⟩⟩
  · cases h
  · cases h
  · cases h
  · exact h

theorem taken_snoc (h : d.taken (found ++ [x]) = some a) :
    d.taken found = some a ∨
      ∃ c, d.chosen found = some c ∧ a = { c with time := x.1 } ∧
        ∃ db, d.update c x.2.db = .ok ((), db) := by
  rcases found with _ | ⟨y, _ | ⟨z, _ | ⟨u, found⟩⟩⟩
  · cases h
  · cases h
  · refine .inr ?_
    obtain ⟨n, m⟩ := x
    obtain ⟨c, hchosen, h⟩ := Option.bind_eq_some_iff.mp h
    split at h
    · rename_i made hupdate
      exact ⟨c, hchosen, (Option.some.inj h).symm, made.2, hupdate⟩
    · cases h
  · exact .inl h

theorem taken_of_update {db : Db} (hchosen : d.chosen found = some c)
    (h : d.update c x.2.db = .ok ((), db)) :
    d.taken (found ++ [x]) = some { c with time := x.1 } := by
  rcases found with _ | ⟨y, _ | ⟨z, _ | ⟨u, found⟩⟩⟩
  · cases hchosen
  · cases hchosen
  · show (d.chosen [y, z]).bind _ = _
    rw [hchosen, Option.bind_some, h]
  · cases hchosen

/-- A place was taken in a call. -/
theorem taken_time (h : d.taken found = some a) : ∃ m, (a.time, m) ∈ found := by
  rcases found with _ | ⟨y, _ | ⟨z, _ | ⟨⟨n, m⟩, found⟩⟩⟩
  · cases h
  · cases h
  · cases h
  · obtain ⟨c, hchosen, h⟩ := Option.bind_eq_some_iff.mp h
    split at h
    · cases h
      exact ⟨m, by simp⟩
    · cases h

/-- A chosen place is behind every photo of the target that the approval has seen. -/
theorem chosen_spec (h : d.chosen found = some c) :
    ∃ x y photo, found = [x, y] ∧ c.time = y.1 ∧ (photos x.2.db d.kind).row d.id = some photo ∧
      c.parentId = photo.parentId ∧
      c.position = maxPosition y.2.db ⟨d.kind, c.parentId⟩ + 1 := by
  rcases found with _ | ⟨y, _ | ⟨z, _ | ⟨u, found⟩⟩⟩
  · cases h
  · cases h
  · obtain ⟨photo, hrow, rfl⟩ := Option.map_eq_some_iff.mp h
    exact ⟨y, z, photo, rfl, rfl, hrow, rfl, rfl⟩
  · cases h

end Calls

/-! ## What an approval does to the galleries -/

/-- The photo is approved and stands at the place. -/
def Stands (m : Media) (kind : PhotoKind) (id : Nat) (a : GalleryPlace) : Prop :=
  ∃ r, (photos m.db kind).row id = some r ∧ r.moderationState = .approved ∧
    r.parentId = a.parentId ∧ r.position = a.position

theorem le_foldl_max {ι : Type} (f : ι → Int) :
    ∀ (xs : List ι) (top : Int), top ≤ xs.foldl (fun top x => max top (f x)) top ∧
      ∀ x ∈ xs, f x ≤ xs.foldl (fun top x => max top (f x)) top
  | [], top => ⟨le_rfl, nofun⟩
  | x :: xs, top => by
    obtain ⟨hstart, hrest⟩ := le_foldl_max f xs (max top (f x))
    refine ⟨le_trans (le_max_left ..) hstart, fun y hy => ?_⟩
    rcases List.mem_cons.mp hy with rfl | hy
    · exact le_trans (le_max_right ..) hstart
    · exact hrest y hy

/-- No photo of the target stands behind the largest position. -/
theorem Stands.le_maxPosition {m : Media} {kind : PhotoKind} {id : Nat} {a : GalleryPlace}
    (h : Stands m kind id a) : a.position ≤ maxPosition m.db ⟨kind, a.parentId⟩ := by
  obtain ⟨r, hr, _, hparent, hposition⟩ := h
  have hmem : (id, r) ∈ (photos m.db kind).select fun _ r => r.parentId == a.parentId :=
    Table.mem_select.mpr ⟨hr, by simpa using hparent⟩
  rw [← hposition]
  exact (le_foldl_max (fun x : Nat × Photo => x.2.position) _ 0).2 _ hmem

section Update

variable {d : Approval} {a c : GalleryPlace} {m : Media} {db : Db} {kind : PhotoKind} {id : Nat}

/-- The `UPDATE` of an approval approves a pending photo at the chosen position. -/
theorem update_ok (h : d.update c m.db = .ok ((), db)) :
    ∃ r r', (photos m.db d.kind).row d.id = some r ∧ r.moderationState = .pendingReview ∧
      (photos db d.kind).row d.id = some r' ∧ r'.moderationState = .approved ∧
      r'.parentId = r.parentId ∧ r'.position = c.position ∧
      ∀ kind id, ¬ (kind = d.kind ∧ id = d.id) →
        (photos db kind).row id = (photos m.db kind).row id := by
  obtain ⟨mid, hdecide, hlast⟩ := Moderation.bind_eq_ok h
  cases hlast
  obtain ⟨_, hupdate, _, rfl⟩ := decidePending_ok hdecide
  obtain ⟨_, ⟨r, hr, hpending, hr'⟩, hothers⟩ := updatePhoto_ok hupdate
  exact ⟨r, _, hr, eq_of_beq hpending, hr', rfl, rfl, rfl, hothers⟩

/-- A photo that has its place keeps it. -/
theorem Stands.update (hstands : Stands m kind id a) (h : d.update c m.db = .ok ((), db)) :
    Stands { m with db } kind id a := by
  obtain ⟨r, r', hr, hpending, _, _, _, _, hothers⟩ := update_ok h
  obtain ⟨x, hx, happroved, hplace⟩ := hstands
  refine ⟨x, ?_, happroved, hplace⟩
  rw [← hx]
  refine hothers kind id ?_
  rintro ⟨rfl, rfl⟩
  obtain rfl := Option.some.inj (hr.symm.trans hx)
  rw [hpending] at happroved
  cases happroved

/-- The photos stay with their targets. -/
theorem parents_update (h : d.update c m.db = .ok ((), db)) :
    PhotosMove (fun _ _ r r' => r'.parentId = r.parentId) m.db db := by
  obtain ⟨r, r', hr, _, hr', _, hparent, _, hothers⟩ := update_ok h
  refine ⟨fun {kind id x} hx => ?_, fun {kind id} hnone => ?_⟩
  · by_cases hown : kind = d.kind ∧ id = d.id
    · obtain ⟨rfl, rfl⟩ := hown
      obtain rfl := Option.some.inj (hr.symm.trans hx)
      exact ⟨r', hr', hparent⟩
    · exact ⟨x, (hothers kind id hown).trans hx, rfl⟩
  · rw [hothers kind id]
    · exact hnone
    · rintro ⟨rfl, rfl⟩
      rw [hr] at hnone
      cases hnone

end Update

/-! ## The invariant -/

/-- The photos stay with their targets. -/
abbrev SameParents (m m' : Media) : Prop :=
  PhotosMove (fun _ _ r r' => r'.parentId = r.parentId) m.db m'.db

/-- What holds in every run whose steps meet the condition. -/
structure Ordered (m₀ : Media) (n : Nat) (m : Media) (h : History Approval Media) : Prop where
  past : ∀ t ∈ h, ∀ x ∈ t.2, x.1 < n
  parents : ∀ t ∈ h, ∀ x ∈ t.2, SameParents x.2 m
  stands : ∀ kind id a, Taken h kind id a → Stands m kind id a
  seen : ∀ kind id a, Taken h kind id a → ∀ t ∈ h, ∀ x ∈ t.2, a.time < x.1 →
    Stands x.2 kind id a
  behind : ∀ kind id a kind' id' a', Taken h kind id a → Taken h kind' id' a' →
    a.time < a'.time → kind = kind' → a.parentId = a'.parentId → a.position < a'.position
  once : ∀ kind id a kind' id' a', Taken h kind id a → Taken h kind' id' a' →
    a.time = a'.time → kind = kind' ∧ id = id' ∧ a = a'
  made : ∀ kind id r, (photos m.db kind).row id = some r → r.moderationState = .approved →
    (photos m₀.db kind).row id = some r ∨ ∃ a, Taken h kind id a

section Invariant

variable {m₀ m : Media} {n : Nat} {h : History Approval Media} {d : Approval} {i : Nat}
  {found : List (Nat × Media)} {kind : PhotoKind} {id : Nat} {a c : GalleryPlace}

theorem taken_start (h' : Taken (h ++ [(d, [])]) kind id a) : Taken h kind id a := by
  obtain ⟨t, hmem, hkind, hid, htaken⟩ := h'
  rcases List.mem_append.mp hmem with hold | hnew
  · exact ⟨t, hold, hkind, hid, htaken⟩
  · rw [List.mem_singleton.mp hnew] at htaken
    cases htaken

/-- A place that is taken after a call was taken before, or the call takes it. -/
theorem taken_set {x : Nat × Media} (hi : h[i]? = some (d, found))
    (h' : Taken (h.set i (d, found ++ [x])) kind id a) :
    Taken h kind id a ∨ kind = d.kind ∧ id = d.id ∧
      ∃ c, d.chosen found = some c ∧ a = { c with time := x.1 } ∧
        ∃ db, d.update c x.2.db = .ok ((), db) := by
  obtain ⟨t, hmem, hkind, hid, htaken⟩ := h'
  rcases List.mem_or_eq_of_mem_set hmem with hold | rfl
  · exact .inl ⟨t, hold, hkind, hid, htaken⟩
  · rcases taken_snoc htaken with hbefore | hnow
    · exact .inl ⟨_, List.mem_of_getElem? hi, hkind, hid, hbefore⟩
    · exact .inr ⟨hkind.symm, hid.symm, hnow⟩

/-- What is taken stays taken. -/
theorem Taken.set {x : Nat × Media} (hi : h[i]? = some (d, found)) (h' : Taken h kind id a) :
    Taken (h.set i (d, found ++ [x])) kind id a := by
  obtain ⟨t, hmem, hkind, hid, htaken⟩ := h'
  obtain ⟨j, hj⟩ := List.mem_iff_getElem?.mp hmem
  by_cases hij : i = j
  · subst hij
    obtain rfl := Option.some.inj (hi.symm.trans hj)
    have hlt : i < h.length := (List.getElem?_eq_some_iff.mp hi).1
    exact ⟨_, List.mem_set hlt _, hkind, hid, taken_mono htaken⟩
  · refine ⟨t, List.mem_of_getElem? (i := j) ?_, hkind, hid, htaken⟩
    rw [List.getElem?_set_ne hij]
    exact hj

/-- A place was taken before now. -/
theorem Ordered.taken_lt (hinv : Ordered m₀ n m h) (h' : Taken h kind id a) : a.time < n := by
  obtain ⟨t, hmem, _, _, htaken⟩ := h'
  obtain ⟨x, hx⟩ := taken_time htaken
  exact hinv.past t hmem _ hx

/-- A store that an approval has found was found before, or it is found now. -/
theorem found_set {x y : Nat × Media} {t : Approval × List (Nat × Media)}
    (hi : h[i]? = some (d, found)) (ht : t ∈ h.set i (d, found ++ [x])) (hy : y ∈ t.2) :
    (∃ u ∈ h, y ∈ u.2) ∨ y = x := by
  rcases List.mem_or_eq_of_mem_set ht with hold | rfl
  · exact .inl ⟨t, hold, hy⟩
  · rcases List.mem_append.mp hy with hbefore | hnow
    · exact .inl ⟨_, List.mem_of_getElem? hi, hbefore⟩
    · exact .inr (List.mem_singleton.mp hnow)

theorem SameParents.refl (m : Media) : SameParents m m :=
  .of_eq (fun _ _ _ => rfl) fun _ => rfl

theorem SameParents.trans {m m' m'' : Media} (h : SameParents m m') (h' : SameParents m' m'') :
    SameParents m m'' := by
  refine ⟨fun hr => ?_, fun hnone => h'.new (h.new hnone)⟩
  obtain ⟨r', hr', hparent⟩ := h.row hr
  obtain ⟨r'', hr'', hparent'⟩ := h'.row hr'
  exact ⟨r'', hr'', hparent'.trans hparent⟩

/-- What an approval has found is behind the clock, and the photos hang where they did. -/
theorem Ordered.found_call {m' : Media} (hinv : Ordered m₀ n m h) (hi : h[i]? = some (d, found))
    (hparents : SameParents m m') :
    ∀ t ∈ h.set i (d, found ++ [(n, m)]), ∀ y ∈ t.2, y.1 < n + 1 ∧ SameParents y.2 m' := by
  intro t ht y hy
  rcases found_set hi ht hy with ⟨u, hu, hold⟩ | rfl
  · have hlt := hinv.past u hu y hold
    exact ⟨by omega, (hinv.parents u hu y hold).trans hparents⟩
  · exact ⟨Nat.lt_succ_self n, hparents⟩

/-- A call finds the places that were taken before it. -/
theorem Ordered.seen_call (hinv : Ordered m₀ n m h) (hi : h[i]? = some (d, found))
    (htaken : Taken h kind id a) :
    ∀ t ∈ h.set i (d, found ++ [(n, m)]), ∀ y ∈ t.2, a.time < y.1 → Stands y.2 kind id a := by
  intro t ht y hy hlt
  rcases found_set hi ht hy with ⟨u, hu, hold⟩ | rfl
  · exact hinv.seen kind id a htaken u hu y hold hlt
  · exact hinv.stands kind id a htaken

/-- A call that takes no place. -/
theorem Ordered.still {m' : Media} (hinv : Ordered m₀ n m h) (hi : h[i]? = some (d, found))
    (hphotos : ∀ kind, photos m'.db kind = photos m.db kind)
    (hnone : ∀ {kind id a}, Taken (h.set i (d, found ++ [(n, m)])) kind id a →
      Taken h kind id a) : Ordered m₀ (n + 1) m' (h.set i (d, found ++ [(n, m)])) := by
  have hsame : ∀ {kind id a}, Stands m kind id a → Stands m' kind id a := by
    intro kind id a hstands
    unfold Stands
    rw [hphotos kind]
    exact hstands
  have hparents : SameParents m m' := .of_eq (fun _ _ _ => rfl) hphotos
  constructor
  · exact fun t ht y hy => (hinv.found_call hi hparents t ht y hy).1
  · exact fun t ht y hy => (hinv.found_call hi hparents t ht y hy).2
  · intro kind id a htaken
    exact hsame (hinv.stands kind id a (hnone htaken))
  · exact fun kind id a htaken => hinv.seen_call hi (hnone htaken)
  · intro kind id a kind' id' a' htaken htaken'
    exact hinv.behind kind id a kind' id' a' (hnone htaken) (hnone htaken')
  · intro kind id a kind' id' a' htaken htaken'
    exact hinv.once kind id a kind' id' a' (hnone htaken) (hnone htaken')
  · intro kind id r hr happroved
    rw [hphotos kind] at hr
    rcases hinv.made kind id r hr happroved with hold | ⟨a, htaken⟩
    · exact .inl hold
    · exact .inr ⟨a, htaken.set hi⟩

/-- A place that an undisturbed approval has chosen is behind every place that is taken. -/
theorem Ordered.behind_chosen (hinv : Ordered m₀ n m h) (hi : h[i]? = some (d, found))
    (hundisturbed : undisturbed h i = true) (hchosen : d.chosen found = some c)
    (hpending : ∀ a, ¬ Taken h d.kind d.id a) (h' : Taken h d.kind id a)
    (hparent : a.parentId = c.parentId) : a.position < c.position := by
  obtain ⟨x, y, photo, rfl, htime, hrow, _, hposition⟩ := chosen_spec hchosen
  obtain ⟨t, ht, hkind, hid, htaken⟩ := h'
  have hearlier : a.time < c.time := by
    simp only [undisturbed, hi, Option.all_some, hchosen, Bool.or_eq_true] at hundisturbed
    rcases hundisturbed with hown | hothers
    · obtain ⟨u, hu, hsame⟩ := List.any_eq_true.mp hown
      simp only [Bool.and_eq_true, beq_iff_eq] at hsame
      obtain ⟨b, hb⟩ := Option.isSome_iff_exists.mp hsame.2
      exact absurd ⟨u, hu, hsame.1.1, hsame.1.2, hb⟩ (hpending b)
    · have hother := List.all_eq_true.mp hothers t ht
      rw [htaken] at hother
      simpa [hkind, hparent] using hother
  rw [htime] at hearlier
  have hstands := hinv.seen d.kind id a ⟨t, ht, hkind, hid, htaken⟩ _ (List.mem_of_getElem? hi) y
    (by simp) hearlier
  have hmax := hstands.le_maxPosition
  rw [hparent] at hmax
  omega

/-- The photo that an approval writes had no place. -/
theorem Ordered.unplaced {db : Db} (hinv : Ordered m₀ n m h)
    (hupdate : d.update c m.db = .ok ((), db)) : ∀ a, ¬ Taken h d.kind d.id a := by
  intro a htaken
  obtain ⟨r, r', hr, hpending, -⟩ := update_ok hupdate
  obtain ⟨x, hx, hstate, _⟩ := hinv.stands _ _ _ htaken
  obtain rfl := Option.some.inj (hr.symm.trans hx)
  rw [hpending] at hstate
  cases hstate

/-- The photo still hangs off the target that the approval has read. -/
theorem Ordered.stands_place {db : Db} (hinv : Ordered m₀ n m h) (hi : h[i]? = some (d, found))
    (hchosen : d.chosen found = some c) (hupdate : d.update c m.db = .ok ((), db)) :
    Stands { m with db } d.kind d.id { c with time := n } := by
  obtain ⟨r, r', hr, _, hr', happroved, hparent, hposition, _⟩ := update_ok hupdate
  obtain ⟨x, y, photo, rfl, _, hrow, htarget, _⟩ := chosen_spec hchosen
  obtain ⟨r₁, hr₁, hparent₁⟩ := (hinv.parents _ (List.mem_of_getElem? hi) x (by simp)).row hrow
  obtain rfl := Option.some.inj (hr.symm.trans hr₁)
  exact ⟨r', hr', happroved, by rw [hparent, hparent₁, htarget], hposition⟩

/-- The call of an approval that has chosen its place takes that place, or none. -/
theorem taken_place (hi : h[i]? = some (d, found)) (hchosen : d.chosen found = some c)
    (h' : Taken (h.set i (d, found ++ [(n, m)])) kind id a) :
    Taken h kind id a ∨ kind = d.kind ∧ id = d.id ∧ a = { c with time := n } := by
  rcases taken_set hi h' with hold | ⟨rfl, rfl, c', hchosen', rfl, _⟩
  · exact .inl hold
  · rw [hchosen] at hchosen'
    cases hchosen'
    exact .inr ⟨rfl, rfl, rfl⟩

/-- A call that takes a place. -/
theorem Ordered.place {db : Db} (hinv : Ordered m₀ n m h) (hi : h[i]? = some (d, found))
    (hundisturbed : undisturbed h i = true) (hchosen : d.chosen found = some c)
    (hupdate : d.update c m.db = .ok ((), db)) :
    Ordered m₀ (n + 1) { m with db } (h.set i (d, found ++ [(n, m)])) := by
  have hnew : ∀ {kind id a}, Taken (h.set i (d, found ++ [(n, m)])) kind id a →
      Taken h kind id a ∨ kind = d.kind ∧ id = d.id ∧ a = { c with time := n } :=
    taken_place hi hchosen
  have hparents : SameParents m { m with db } := parents_update hupdate
  constructor
  · exact fun t ht y hy => (hinv.found_call hi hparents t ht y hy).1
  · exact fun t ht y hy => (hinv.found_call hi hparents t ht y hy).2
  · intro kind id a htaken
    rcases hnew htaken with hold | ⟨rfl, rfl, rfl⟩
    · exact (hinv.stands kind id a hold).update hupdate
    · exact hinv.stands_place hi hchosen hupdate
  · intro kind id a htaken t ht y hy hlt
    rcases hnew htaken with hold | ⟨rfl, rfl, rfl⟩
    · exact hinv.seen_call hi hold t ht y hy hlt
    · -- nothing has been found after the present call
      rcases found_set hi ht hy with ⟨u, hu, hbefore⟩ | rfl
      · have hpast := hinv.past u hu y hbefore
        change n < y.1 at hlt
        omega
      · exact absurd hlt (Nat.lt_irrefl n)
  · intro kind id a kind' id' a' htaken htaken' hlt hkind hsame
    rcases hnew htaken with hold | ⟨rfl, rfl, rfl⟩ <;>
      rcases hnew htaken' with hold' | ⟨rfl, rfl, rfl⟩
    · exact hinv.behind kind id a kind' id' a' hold hold' hlt hkind hsame
    · subst hkind
      show a.position < c.position
      exact hinv.behind_chosen hi hundisturbed hchosen (hinv.unplaced hupdate) hold hsame
    · have hpast := hinv.taken_lt hold'
      change n < a'.time at hlt
      omega
    · exact absurd hlt (Nat.lt_irrefl n)
  · intro kind id a kind' id' a' htaken htaken' htime
    rcases hnew htaken with hold | ⟨rfl, rfl, rfl⟩ <;>
      rcases hnew htaken' with hold' | ⟨rfl, rfl, rfl⟩
    · exact hinv.once kind id a kind' id' a' hold hold' htime
    · have hpast := hinv.taken_lt hold
      change a.time = n at htime
      omega
    · have hpast := hinv.taken_lt hold'
      change n = a'.time at htime
      omega
    · exact ⟨rfl, rfl, rfl⟩
  · intro kind id x hx hstate
    by_cases hown : kind = d.kind ∧ id = d.id
    · obtain ⟨rfl, rfl⟩ := hown
      have hlt : i < h.length := (List.getElem?_eq_some_iff.mp hi).1
      exact .inr ⟨{ c with time := n }, _, List.mem_set hlt _, rfl, rfl,
        taken_of_update (x := (n, m)) hchosen hupdate⟩
    · obtain ⟨_, _, _, _, _, _, _, _, hothers⟩ := update_ok hupdate
      change (photos db kind).row id = some x at hx
      rw [hothers kind id hown] at hx
      rcases hinv.made kind id x hx hstate with hold | ⟨a, htaken⟩
      · exact .inl hold
      · exact .inr ⟨a, htaken.set hi⟩

theorem ordered_init (m₀ : Media) : Ordered m₀ 0 m₀ [] := by
  have hnone : ∀ {kind id a}, ¬ Taken [] kind id a := by
    rintro kind id a ⟨t, hmem, _⟩
    cases hmem
  constructor
  · exact nofun
  · exact nofun
  · exact fun _ _ _ htaken => absurd htaken hnone
  · exact fun _ _ _ htaken => absurd htaken hnone
  · exact fun _ _ _ _ _ _ htaken => absurd htaken hnone
  · exact fun _ _ _ _ _ _ htaken => absurd htaken hnone
  · exact fun _ _ _ hr _ => .inl hr

/-- Time passes, and operations start. -/
theorem Ordered.later {h' : History Approval Media} (hinv : Ordered m₀ n m h)
    (hfound : ∀ t ∈ h', ∀ x ∈ t.2, ∃ u ∈ h, x ∈ u.2)
    (htaken : ∀ {kind id a}, Taken h' kind id a ↔ Taken h kind id a) :
    Ordered m₀ (n + 1) m h' := by
  constructor
  · intro t ht x hx
    obtain ⟨u, hu, hold⟩ := hfound t ht x hx
    have hlt := hinv.past u hu x hold
    omega
  · intro t ht x hx
    obtain ⟨u, hu, hold⟩ := hfound t ht x hx
    exact hinv.parents u hu x hold
  · exact fun kind id a h => hinv.stands kind id a (htaken.mp h)
  · intro kind id a h t ht x hx
    obtain ⟨u, hu, hold⟩ := hfound t ht x hx
    exact hinv.seen kind id a (htaken.mp h) u hu x hold
  · exact fun _ _ _ _ _ _ h h' => hinv.behind _ _ _ _ _ _ (htaken.mp h) (htaken.mp h')
  · exact fun _ _ _ _ _ _ h h' => hinv.once _ _ _ _ _ _ (htaken.mp h) (htaken.mp h')
  · intro kind id r hr happroved
    rcases hinv.made kind id r hr happroved with hold | ⟨a, h⟩
    · exact .inl hold
    · exact .inr ⟨a, htaken.mpr h⟩

/-- Every call that meets the condition keeps the places in order. -/
theorem ordered_keeps (m₀ : Media) :
    Keeps Approval.script (fun h i => undisturbed h i = true) (Ordered m₀) where
  start := by
    intro n m h d hinv
    refine hinv.later (fun t ht x hx => ?_) ⟨taken_start, ?_⟩
    · rcases List.mem_append.mp ht with hold | hnew
      · exact ⟨t, hold, hx⟩
      · rw [List.mem_singleton.mp hnew] at hx
        cases hx
    · rintro ⟨t, ht, htaken⟩
      exact ⟨t, List.mem_append_left _ ht, htaken⟩
  idle hinv := hinv.later (fun t ht x hx => ⟨t, ht, hx⟩) Iff.rfl
  call := by
    intro n m h i d found write next failed hinv hundisturbed hi hcall
    cases approval_does hcall with
    | quiet hchosen hwrite =>
      refine hinv.still hi (hwrite m) fun htaken => ?_
      rcases taken_set hi htaken with hold | ⟨_, _, c, hc, _⟩
      · exact hold
      · rw [hchosen] at hc
        cases hc
    | update c hchosen hwrite =>
      rw [hwrite m]
      cases hupdate : d.update c m.db with
      | ok made => exact hinv.place hi hundisturbed hchosen hupdate
      | error e =>
        refine hinv.still hi (fun _ => rfl) fun htaken => ?_
        rcases taken_set hi htaken with hold | ⟨_, _, c', hc', _, db, hok⟩
        · exact hold
        · rw [hchosen] at hc'
          cases hc'
          rw [hupdate] at hok
          cases hok

end Invariant

/-! ## The law -/

/-- Every photo that was approved in the run stands at the place its approval took, no two
photos of a target at one position, and the positions of a target follow the times of the
approvals. -/
structure InOrder (m₀ : Media) (p : ApprovalPool) : Prop where
  made : ∀ kind id r, (photos p.store.db kind).row id = some r → r.moderationState = .approved →
    (photos m₀.db kind).row id = some r ∨ ∃ a, Taken p.history kind id a
  stands : ∀ kind id a, Taken p.history kind id a → Stands p.store kind id a
  distinct : ∀ kind id id' a a', Taken p.history kind id a → Taken p.history kind id' a' →
    a.parentId = a'.parentId → id ≠ id' → a.position ≠ a'.position
  order : ∀ kind id id' a a', Taken p.history kind id a → Taken p.history kind id' a' →
    a.parentId = a'.parentId → (a.position < a'.position ↔ a.time < a'.time)

/-- In every run in which no other approval of the target comes between the reading of the
largest position and the `UPDATE`, the galleries are in order in every state. -/
theorem gallery_in_order {m₀ : Media} {es : List (Event Approval)} {p : ApprovalPool}
    (hrun : Run (Guarded (fun p e => placing p e = true)
      fun p e p' => p.next Approval.script e = some p') (Pool.init m₀) es p) :
    InOrder m₀ p := by
  have hguarded : Run (Guarded (fun p e => ∀ i, e.calls = some i → undisturbed p.history i = true)
      fun p e p' => p.next Approval.script e = some p') (Pool.init m₀) es p := by
    refine hrun.mono fun p e p' hstep => ⟨fun i hi => ?_, hstep.2⟩
    have hplacing : placing p e = true := hstep.1
    unfold placing at hplacing
    rw [hi] at hplacing
    exact hplacing
  obtain ⟨_, hinv⟩ := (ordered_keeps m₀).run approval_strict (ordered_init m₀) hguarded
  -- two places of a target that were taken at different times
  have htimes : ∀ {kind id id' a a'}, Taken p.history kind id a → Taken p.history kind id' a' →
      a.parentId = a'.parentId → a.time < a'.time → a.position < a'.position :=
    fun h h' hparent hlt => hinv.behind _ _ _ _ _ _ h h' hlt rfl hparent
  refine ⟨hinv.made, hinv.stands, ?_, ?_⟩
  · intro kind id id' a a' h h' hparent hne
    rcases Nat.lt_trichotomy a.time a'.time with hlt | hsame | hlt
    · have hbehind := htimes h h' hparent hlt
      omega
    · exact absurd (hinv.once _ _ _ _ _ _ h h' hsame).2.1 hne
    · have hbehind := htimes h' h hparent.symm hlt
      omega
  · intro kind id id' a a' h h' hparent
    refine ⟨fun hposition => ?_, htimes h h' hparent⟩
    rcases Nat.lt_trichotomy a.time a'.time with hlt | hsame | hlt
    · exact hlt
    · obtain ⟨_, _, rfl⟩ := hinv.once _ _ _ _ _ _ h h' hsame
      exact absurd hposition (Int.lt_irrefl _)
    · have hbehind := htimes h' h hparent.symm hlt
      omega

/-! ## Two photos of one rack -/

/-- The rack with two pending photos. -/
def pendingPair : Media :=
  { pendingRack with
    db := { pendingRack.db with
      parkingPhoto := pendingRack.db.parkingPhoto.insert
        { parentId := 1, uploaderId := some 1, storageKey := "uploads/01/full.jpg"
          thumbnailKey := some "uploads/01/thumb.jpg", createdAt := 0 } } }

/-- The approval of one of them. -/
def approvalOf (id : Nat) : Approval := ⟨Moderation.rackModerator, .parking, id⟩

/-- The photos of the pair are approved, and `test` holds of their positions. -/
def pairPlaced (test : Int → Int → Bool) (p : ApprovalPool) : Bool :=
  (p.store.db.parkingPhoto.row 1).any fun r => (p.store.db.parkingPhoto.row 2).any fun r' =>
    r.moderationState == .approved && r'.moderationState == .approved &&
      r.parentId == r'.parentId && test r.position r'.position

/-- A photo of the pair that is approved has taken a place. -/
theorem InOrder.place_of_pair {p : ApprovalPool} (horder : InOrder pendingPair p) {id : Nat}
    {r : Photo} (hr : p.store.db.parkingPhoto.row id = some r)
    (happroved : r.moderationState = .approved) :
    ∃ a, Taken p.history .parking id a ∧ a.parentId = r.parentId ∧ a.position = r.position := by
  rcases horder.made .parking id r hr happroved with hold | ⟨a, htaken⟩
  · -- none of the photos is approved at the start
    exfalso
    have hpending : pendingPair.db.parkingPhoto.All fun r => r.moderationState ≠ .approved :=
      .insert (.insert .empty nofun) nofun
    exact hpending id r hold happroved
  · obtain ⟨x, hx, _, hparent, hposition⟩ := horder.stands .parking id a htaken
    obtain rfl := Option.some.inj (hr.symm.trans hx)
    exact ⟨a, htaken, hparent.symm, hposition.symm⟩

/-- Both approvals read the largest position before either writes its photo: the photos get
one position. -/
theorem pair_shares_position :
    ∃ p, PoolRun Approval.script (Pool.init pendingPair)
      [.start (approvalOf 1), .start (approvalOf 2), .answer 0, .answer 1, .answer 0, .answer 1,
        .answer 0, .answer 1] p ∧ pairPlaced (· == ·) p = true ∧ ¬ InOrder pendingPair p := by
  have hend : ([.start (approvalOf 1), .start (approvalOf 2), .answer 0, .answer 1, .answer 0,
      .answer 1, .answer 0, .answer 1].foldlM (Pool.next Approval.script)
      (Pool.init pendingPair)).any (pairPlaced (· == ·)) = true := by decide +kernel
  obtain ⟨p, hp, hplaced⟩ := (Option.any_eq_true ..).mp hend
  refine ⟨p, Run.of_foldlM hp, hplaced, fun horder => ?_⟩
  obtain ⟨r, hr, hplaced⟩ := (Option.any_eq_true ..).mp hplaced
  obtain ⟨r', hr', hplaced⟩ := (Option.any_eq_true ..).mp hplaced
  simp only [Bool.and_eq_true, beq_iff_eq] at hplaced
  obtain ⟨⟨⟨happroved, happroved'⟩, hparent⟩, hposition⟩ := hplaced
  obtain ⟨a, htaken, ha, hat⟩ := horder.place_of_pair hr happroved
  obtain ⟨a', htaken', ha', hat'⟩ := horder.place_of_pair hr' happroved'
  refine horder.distinct .parking 1 2 a a' htaken htaken' ?_ (by decide) ?_
  · rw [ha, ha', hparent]
  · rw [hat, hat', hposition]

/-- The second approval reads the largest position after the first has written its photo. -/
theorem gallery_in_order_pair :
    ∃ p, Run (Guarded (fun p e => placing p e = true)
        fun p e p' => p.next Approval.script e = some p') (Pool.init pendingPair)
        [.start (approvalOf 1), .start (approvalOf 2), .answer 0, .answer 1, .answer 0, .answer 0,
          .answer 1, .answer 1] p ∧
      pairPlaced (fun k k' => k < k') p = true ∧ InOrder pendingPair p := by
  have hend : ([.start (approvalOf 1), .start (approvalOf 2), .answer 0, .answer 1, .answer 0,
      .answer 0, .answer 1, .answer 1].foldlM
      (fun p e => if placing p e then p.next Approval.script e else none)
      (Pool.init pendingPair)).any (pairPlaced fun k k' => k < k') = true := by decide +kernel
  obtain ⟨p, hp, hplaced⟩ := (Option.any_eq_true ..).mp hend
  have hrun := Run.guarded_of_foldlM hp
  exact ⟨p, hrun, hplaced, gallery_in_order hrun⟩

end BikesNest.Photos
