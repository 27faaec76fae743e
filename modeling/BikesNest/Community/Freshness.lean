import BikesNest.Community.Service
import BikesNest.Lib.Latch

/-!
# The freshness of a location

Any number of `record_verification` calls run at the same time, statement by statement.
Each of them has a time stamp from when it starts, and a positive existence confirmation
writes it to `parking_location.last_verified_at`, whatever stands there.

`Timeline` is the system with its clock and the stamps written so far, and `inStampOrder`
the condition that the stamps of a location are written in their order.  In the runs that
meet it the freshness of a location never goes back (`Timely`).
-/

namespace BikesNest.Community

open Domain Store Transactions Runs
open ContributionService (Times recordVerification)

/-- A call of `record_verification`. -/
structure VerificationCall where
  user : AuthenticatedUser
  allow : String → Nat → Int → Bool
  times : Times
  signal : NewVerification

namespace VerificationCall

variable (d : VerificationCall)

def script (n : Nat) : Script ContributionError Unit :=
  recordVerification n d.user d.allow d.times d.signal

def location : Nat := d.signal.locationId

/-- The time stamp of the call. -/
def stamp : Instant := d.times.verifiedAt

/-- A positive existence confirmation of the location. -/
def Confirms (l : Nat) : Prop := d.signal.isStillExists = true ∧ d.location = l

end VerificationCall

abbrev VerificationSystem := System Cell VerificationCall ContributionError Unit

/-- A system with the present time and the stamps that its calls have written to
`last_verified_at` so far, each with the location. -/
structure Timeline where
  system : VerificationSystem
  clock : Instant
  marks : List (Nat × Instant) := []

/-- The stamp that a step writes to `last_verified_at`. -/
def marking (s : VerificationSystem) : Label VerificationCall → Option (Nat × Instant)
  | .exec i =>
    (s.processes[i]?).bind fun p =>
      match p.script with
      | .done _ => none
      | .call write _ _ =>
        if Key.location p.op.location ∈ (write (p.conn.on s.committed s.serial)).dirty then
          some (p.op.location, p.op.stamp)
        else none
  | _ => none

/-- A step.  A call takes its stamp when it starts, and the clock does not go back. -/
def Timeline.next (w : Timeline) (l : Label VerificationCall) : Option Timeline :=
  match l with
  | .start op =>
    if w.clock ≤ op.stamp then
        (w.system.next VerificationCall.script l).map fun s =>
        { w with system := s, clock := op.stamp }
    else none
  | _ =>
    (w.system.next VerificationCall.script l).map fun s =>
      { w with system := s, marks := w.marks ++ (marking w.system l).toList }

/-- The stamps of a location are written in their order. -/
def inStampOrder (w : Timeline) (l : Label VerificationCall) : Bool :=
  (marking w.system l).all fun x => w.marks.all fun y => y.1 != x.1 || decide (y.2 ≤ x.2)

/-- The steps that meet the condition. -/
abbrev OrderedStep : Timeline → Label VerificationCall → Timeline → Prop :=
  Guarded (fun w l => inStampOrder w l = true) fun w l w' => w.next l = some w'

/-- `parking_location.last_verified_at`. -/
def lastVerifiedAt (c : Rows Cell) (l : Nat) : Option Instant :=
  (c (.location l)).bind fun r => r.lastVerifiedAt

theorem lastVerifiedAt_congr {c c' : Rows Cell} {l : Nat}
    (h : c' (.location l) = c (.location l)) : lastVerifiedAt c' l = lastVerifiedAt c l := by
  rw [lastVerifiedAt, lastVerifiedAt, h]

/-- A `last_verified_at` and a later one. -/
def NotOlder (v v' : Option Instant) : Prop := ∀ t, v = some t → ∃ t', v' = some t' ∧ t ≤ t'

theorem NotOlder.refl (v : Option Instant) : NotOlder v v := fun t ht => ⟨t, ht, le_rfl⟩

theorem NotOlder.trans {v v' v'' : Option Instant} (h : NotOlder v v') (h' : NotOlder v' v'') :
    NotOlder v v'' := by
  intro t ht
  obtain ⟨t', ht', hle⟩ := h t ht
  obtain ⟨t'', ht'', hle'⟩ := h' t' ht'
  exact ⟨t'', ht'', le_trans hle hle'⟩

/-! ## The statements of a call -/

section Statements

variable {ε α : Type} {R : Connection Cell → Connection Cell → Prop}

theorem respects_releasing {m : Script ε α} (hm : m.Respects R)
    (hR : ∀ s s', R s s' → R s s'.release) : (releasing m).Respects R := by
  induction m with
  | done r => trivial
  | call write next failed ih ihf =>
    refine ⟨fun s => ?_, fun s => ih s (hm.2.1 s), ihf hm.2.2⟩
    dsimp only
    split
    · exact hm.1 s
    · exact hR s _ (hm.1 s)

theorem performs_releasing {m : Script ε α} (hm : m.Performs R)
    (hR : ∀ s s', R s s' → R s s'.release) : (releasing m).Performs R := by
  induction m with
  | done r => exact hm
  | call write next failed ih _ =>
    intro s
    dsimp only
    refine (hm s).imp (fun h => ?_) (ih s)
    split
    · exact h
    · exact hR s _ h

theorem strict_releasing {m : Script ε α} (hm : m.Strict) : (releasing m).Strict := by
  induction m with
  | done r => trivial
  | call write next failed ih _ =>
    obtain ⟨⟨e, rfl⟩, hnext⟩ := hm
    exact ⟨⟨e, rfl⟩, fun s => ih s (hnext s)⟩

variable (d : VerificationCall)

/-- What a statement of the call does, outside of a transaction: the only location that it
may write is that of a confirmation, which gets the stamp. -/
def VerificationCall.Refreshes (s s' : Connection Cell) : Prop :=
  s.isOpen = false → s.dirty = [] → s'.isOpen = false ∧ ∀ l, Key.location l ∈ s'.dirty →
    d.Confirms l ∧ ∃ r, s.rows (.location l) = some r ∧
      s'.rows (.location l) = some { r with lastVerifiedAt := some d.stamp }

/-- The `UPDATE` of the call has found no row, or has written it. -/
def VerificationCall.Marks (s s' : Connection Cell) : Prop :=
  s.rows (.location d.location) = none ∨ Key.location d.location ∈ s'.dirty

variable {d}

/-- A statement that writes no location. -/
theorem refreshes_of_quiet {s s' : Connection Cell} (hopen : s'.isOpen = s.isOpen)
    (hdirty : ∀ l, Key.location l ∈ s'.dirty → Key.location l ∈ s.dirty) : d.Refreshes s s' := by
  intro hclosed hclean
  refine ⟨by rw [hopen, hclosed], fun l hl => ?_⟩
  have hnone := hdirty l hl
  rw [hclean] at hnone
  cases hnone

/-- A statement that only reads. -/
theorem reading_refreshes {f : Statement ContributionError α}
    (h : ∀ s a s', f s = .ok (a, s') → s'.isOpen = s.isOpen ∧ s'.dirty = s.dirty) :
    (Service.request ContributionError.unavailable f).Respects d.Refreshes := by
  refine .request (fun _ => refreshes_of_quiet rfl fun _ h => h) fun s a s' hf => ?_
  obtain ⟨hopen, hdirty⟩ := h s a s' hf
  exact refreshes_of_quiet hopen fun l hl => by rwa [hdirty] at hl

theorem requireActive_refreshes (relies : Bool) (id : Nat) :
    (ContributionService.requireActive relies id).Respects d.Refreshes := by
  refine .bind (.bind (reading_refreshes fun s a s' hf => ?_) fun row => ?_) fun found => ?_
  · cases hf
    split <;> exact ⟨rfl, rfl⟩
  · cases row with
    | none => exact .pure _
    | some row =>
      refine .bind (reading_refreshes fun s a s' hf => ?_) fun _ =>
        .bind (reading_refreshes fun s a s' hf => ?_) fun _ => .pure _
      · cases hf
        exact ⟨rfl, rfl⟩
      · cases hf
        exact ⟨rfl, rfl⟩
  · cases found with
    | none => exact .throw _
    | some location => exact .bind (.require _ _) fun _ => .pure _

theorem audit_refreshes (n : Nat) (event : NewAuditEvent) (clock : Instant) :
    (ContributionService.audit n event clock).Respects d.Refreshes := by
  refine .request (fun _ => refreshes_of_quiet rfl fun _ h => h) fun s a s' hf => ?_
  cases hf
  exact refreshes_of_quiet rfl fun l hl => by simpa using hl

theorem record_refreshes (n : Nat) (signal : NewVerification) (now clock : Instant) :
    (record n signal now clock).Respects d.Refreshes := by
  refine .request (fun _ => refreshes_of_quiet rfl fun _ h => h) fun s a s' hf => ?_
  cases hf
  exact refreshes_of_quiet rfl fun l hl => by simpa using hl

theorem markVerifiedAt_refreshes (hconfirms : d.signal.isStillExists = true) :
    (markVerifiedAt d.location d.stamp).Respects d.Refreshes := by
  refine .bind (.request (fun _ => refreshes_of_quiet rfl fun _ h => h) fun s a s' hf => ?_)
    fun _ => .pure _
  simp only [updateLocation, if_true] at hf
  split at hf
  · cases hf
    exact refreshes_of_quiet rfl fun _ h => h
  · rename_i r hr
    cases hf
    intro hclosed hclean
    refine ⟨hclosed, fun l hl => ?_⟩
    simp only [Connection.write_dirty, Connection.lock_dirty, hclean, List.mem_singleton] at hl
    cases hl
    exact ⟨⟨hconfirms, rfl⟩, r, hr, by simp⟩

theorem script_refreshes (d : VerificationCall) (n : Nat) :
    (d.script n).Respects d.Refreshes := by
  have hrelease : ∀ s s' : Connection Cell, d.Refreshes s s' → d.Refreshes s s'.release :=
    fun _ _ h => h
  refine .bind (.require _ _) fun _ => .bind (.require _ _) fun _ =>
    .bind (requireActive_refreshes ..) fun _ => .bind ?_ fun _ => audit_refreshes ..
  unfold ContributionService.writeVerification
  split
  · rename_i hconfirms
    exact .bind (record_refreshes ..) fun _ =>
      respects_releasing (markVerifiedAt_refreshes hconfirms) hrelease
  · exact respects_releasing (record_refreshes ..) hrelease

/-- A confirmation does not succeed without its `UPDATE`. -/
theorem script_performs (n : Nat) (hconfirms : d.signal.isStillExists = true) :
    (d.script n).Performs d.Marks := by
  have hmark : (markVerifiedAt d.location d.stamp).Performs d.Marks := by
    refine .bind _ (.request fun s a s' hf => ?_)
    simp only [updateLocation, if_true] at hf
    split at hf
    · exact .inl (by assumption)
    · cases hf
      exact .inr (by simp)
  refine .after _ fun _ => .after _ fun _ => .after _ fun _ => .bind _ ?_
  unfold ContributionService.writeVerification
  rw [if_pos hconfirms]
  exact .after _ fun _ => performs_releasing hmark fun _ _ h => h

/-- A statement that fails ends the call with an error. -/
theorem verification_strict (d : VerificationCall) (n : Nat) : (d.script n).Strict := by
  have hactive : (ContributionService.requireActive true d.location).Strict := by
    refine .bind (.bind (.request _ _) fun row => ?_) fun found => ?_
    · cases row with
      | none => exact .pure _
      | some row => exact .bind (.request _ _) fun _ => .bind (.request _ _) fun _ => .pure _
    · cases found with
      | none => exact .throw _
      | some location => exact .bind (.require _ _) fun _ => .pure _
  refine .bind (.require _ _) fun _ => .bind (.require _ _) fun _ => .bind hactive fun _ =>
    .bind ?_ fun _ => .request _ _
  unfold ContributionService.writeVerification
  split
  · exact .bind (.request _ _) fun _ => strict_releasing (.bind (.request _ _) fun _ => .pure _)
  · exact strict_releasing (.request _ _)

end Statements

/-! ## The invariant -/

/-- `v` is the newest of the stamps written for the location, or the first value when there
are none. -/
def Newest (marks : List (Nat × Instant)) (l : Nat) (first v : Option Instant) : Prop :=
  v = first ∧ (∀ t, (l, t) ∉ marks) ∨
    ∃ t, v = some t ∧ (l, t) ∈ marks ∧ ∀ t', (l, t') ∈ marks → t' ≤ t

/-- What holds in every run that writes the stamps in their order, from the rows `c₀` and
the time `t₀`. -/
structure Timely (c₀ : Rows Cell) (t₀ : Instant) (w : Timeline) : Prop where
  clock : t₀ ≤ w.clock
  stamps : ∀ p ∈ w.system.processes, t₀ ≤ p.op.stamp
  outside : ∀ p ∈ w.system.processes, p.conn.isOpen = false ∧ p.conn.dirty = []
  refreshes : ∀ p ∈ w.system.processes, p.script.Respects p.op.Refreshes
  strict : AllStrict w.system
  exist : ∀ l, (w.system.committed (.location l)).isSome = (c₀ (.location l)).isSome
  marked : ∀ p ∈ w.system.processes, p.op.signal.isStillExists = true →
    (c₀ (.location p.op.location)).isSome = true →
      (p.op.location, p.op.stamp) ∈ w.marks ∨ p.script.Performs p.op.Marks
  confirmed : ∀ l t, (l, t) ∈ w.marks →
    ∃ p ∈ w.system.processes, p.op.Confirms l ∧ p.op.stamp = t
  newest : ∀ l, Newest w.marks l (lastVerifiedAt c₀ l) (lastVerifiedAt w.system.committed l)

section Steps

variable {c₀ : Rows Cell} {t₀ : Instant} {w w' : Timeline} {l : Label VerificationCall}

/-- A stamp that is written last and is no older than those before it is the newest. -/
theorem Newest.mark {marks : List (Nat × Instant)} {id : Nat} {t : Instant}
    {first : Option Instant} (h : ∀ t', (id, t') ∈ marks → t' ≤ t) :
    Newest (marks ++ [(id, t)]) id first (some t) := by
  refine .inr ⟨t, rfl, by simp, fun t' ht' => ?_⟩
  rcases List.mem_append.mp ht' with hold | hnew
  · exact h t' hold
  · obtain ⟨_, rfl⟩ := Prod.mk.inj (List.mem_singleton.mp hnew)
    exact le_rfl

/-- The stamps of another location do not matter. -/
theorem Newest.other {marks : List (Nat × Instant)} {id id' : Nat} {t : Instant}
    {first v : Option Instant} (h : Newest marks id first v) (hne : id ≠ id') :
    Newest (marks ++ [(id', t)]) id first v := by
  have hmem : ∀ t', (id, t') ∈ marks ++ [(id', t)] ↔ (id, t') ∈ marks := by
    intro t'
    simp [hne]
  unfold Newest
  simp only [hmem]
  exact h

/-- A process in place of one with its operation, on other rows and with more stamps. -/
theorem Timely.put {i : Nat} {p p' : Process Cell VerificationCall ContributionError Unit}
    {c : Rows Cell} {marks : List (Nat × Instant)} (h : Timely c₀ t₀ w)
    (hp : w.system.processes[i]? = some p) (hop : p'.op = p.op)
    (houtside : p'.conn.isOpen = false ∧ p'.conn.dirty = [])
    (hrefreshes : p'.script.Respects p.op.Refreshes) (hstrict : p'.script.Strict)
    (hmarks : ∀ x ∈ w.marks, x ∈ marks)
    (hnew : ∀ id t, (id, t) ∈ marks → (id, t) ∈ w.marks ∨ p.op.Confirms id ∧ p.op.stamp = t)
    (hexist : ∀ id, (c (.location id)).isSome = (w.system.committed (.location id)).isSome)
    (hmarked : (c₀ (.location p.op.location)).isSome = true → p.script.Performs p.op.Marks →
      (p.op.location, p.op.stamp) ∈ marks ∨ p'.script.Performs p.op.Marks)
    (hnewest : ∀ id, Newest marks id (lastVerifiedAt c₀ id) (lastVerifiedAt c id)) :
    Timely c₀ t₀ ⟨{ w.system with committed := c }.put i p', w.clock, marks⟩ := by
  have hmem : p ∈ w.system.processes := List.mem_of_getElem? hp
  have hprocess : ∀ {q}, q ∈ w.system.processes.set i p' → q = p' ∨ q ∈ w.system.processes :=
    fun hq => (List.mem_or_eq_of_mem_set hq).symm
  refine ⟨h.clock, ?_, ?_, ?_, ?_, ?_, ?_, ?_, hnewest⟩
  · intro q hq
    rcases hprocess hq with rfl | hold
    · rw [hop]
      exact h.stamps p hmem
    · exact h.stamps q hold
  · intro q hq
    rcases hprocess hq with rfl | hold
    · exact houtside
    · exact h.outside q hold
  · intro q hq
    rcases hprocess hq with rfl | hold
    · rw [hop]
      exact hrefreshes
    · exact h.refreshes q hold
  · intro j q hq
    rcases System.of_put hq with ⟨_, rfl⟩ | ⟨_, hold⟩
    · exact hstrict
    · exact h.strict j q hold
  · intro id
    show (c (.location id)).isSome = _
    rw [hexist id]
    exact h.exist id
  · intro q hq hconfirms hsome
    rcases hprocess hq with rfl | hold
    · rw [hop] at hconfirms hsome ⊢
      rcases h.marked p hmem hconfirms hsome with hold | hperforms
      · exact .inl (hmarks _ hold)
      · exact hmarked hsome hperforms
    · exact (h.marked q hold hconfirms hsome).imp_left (hmarks _)
  · intro id t ht
    rcases hnew id t ht with hold | ⟨hconfirms, hstamp⟩
    · obtain ⟨q, hq, hconfirms, hstamp⟩ := h.confirmed id t hold
      obtain ⟨j, hj⟩ := List.mem_iff_getElem?.mp hq
      by_cases hij : i = j
      · subst hij
        obtain rfl := Option.some.inj (hp.symm.trans hj)
        refine ⟨p', ?_, by rwa [hop], by rwa [hop]⟩
        exact List.mem_set (List.getElem?_eq_some_iff.mp hp).1 p'
      · refine ⟨q, List.mem_of_getElem? (i := j) ?_, hconfirms, hstamp⟩
        rwa [System.put, List.getElem?_set_ne hij]
    · refine ⟨p', ?_, by rwa [hop], by rwa [hop]⟩
      exact List.mem_set (List.getElem?_eq_some_iff.mp hp).1 p'

/-- What stands in `last_verified_at` is no newer than a stamp that follows all others. -/
theorem Timely.notOlder {id : Nat} {t : Instant} (h : Timely c₀ t₀ w)
    (hfirst : ∀ id t, lastVerifiedAt c₀ id = some t → t ≤ t₀) (hstart : t₀ ≤ t)
    (horder : ∀ t', (id, t') ∈ w.marks → t' ≤ t) :
    NotOlder (lastVerifiedAt w.system.committed id) (some t) := by
  intro v hv
  refine ⟨t, rfl, ?_⟩
  rcases h.newest id with ⟨hsame, _⟩ | ⟨t', hvalue, hmark, _⟩
  · rw [hsame] at hv
    exact le_trans (hfirst id v hv) hstart
  · rw [hvalue] at hv
    cases hv
    exact horder v hmark

/-- A process whose statement has written no location, in place of what it was. -/
theorem Timely.putQuiet {i : Nat} {p p' : Process Cell VerificationCall ContributionError Unit}
    {c : Rows Cell} (h : Timely c₀ t₀ w) (hp : w.system.processes[i]? = some p)
    (hop : p'.op = p.op) (houtside : p'.conn.isOpen = false ∧ p'.conn.dirty = [])
    (hrefreshes : p'.script.Respects p.op.Refreshes) (hstrict : p'.script.Strict)
    (hsame : ∀ id, c (.location id) = w.system.committed (.location id))
    (hmarked : (c₀ (.location p.op.location)).isSome = true → p.script.Performs p.op.Marks →
      p'.script.Performs p.op.Marks) :
    Timely c₀ t₀ ⟨{ w.system with committed := c }.put i p', w.clock, w.marks⟩ ∧
      ∀ id, NotOlder (lastVerifiedAt w.system.committed id) (lastVerifiedAt c id) := by
  refine ⟨h.put hp hop houtside hrefreshes hstrict (fun _ hx => hx) (fun _ _ => .inl)
    (fun id => by rw [hsame id]) (fun hsome hmarks => .inr (hmarked hsome hmarks)) ?_, ?_⟩
  · intro id
    rw [lastVerifiedAt_congr (hsame id)]
    exact h.newest id
  · intro id
    rw [lastVerifiedAt_congr (hsame id)]
    exact .refl _

/-- A process whose `UPDATE` has landed, in place of what it was. -/
theorem Timely.putMarked {i : Nat} {p p' : Process Cell VerificationCall ContributionError Unit}
    {c : Rows Cell} (h : Timely c₀ t₀ w)
    (hfirst : ∀ id t, lastVerifiedAt c₀ id = some t → t ≤ t₀)
    (hp : w.system.processes[i]? = some p) (hop : p'.op = p.op)
    (houtside : p'.conn.isOpen = false ∧ p'.conn.dirty = [])
    (hrefreshes : p'.script.Respects p.op.Refreshes) (hstrict : p'.script.Strict)
    (hconfirms : p.op.Confirms p.op.location)
    (hwritten : ∃ r, w.system.committed (.location p.op.location) = some r ∧
      c (.location p.op.location) = some { r with lastVerifiedAt := some p.op.stamp })
    (hothers : ∀ id, id ≠ p.op.location →
      c (.location id) = w.system.committed (.location id))
    (hearlier : ∀ t', (p.op.location, t') ∈ w.marks → t' ≤ p.op.stamp) :
    Timely c₀ t₀ ⟨{ w.system with committed := c }.put i p', w.clock,
        w.marks ++ [(p.op.location, p.op.stamp)]⟩ ∧
      ∀ id, NotOlder (lastVerifiedAt w.system.committed id) (lastVerifiedAt c id) := by
  obtain ⟨r, hr, hr'⟩ := hwritten
  have hvalue : lastVerifiedAt c p.op.location = some p.op.stamp := by
    simp [lastVerifiedAt, hr']
  refine ⟨h.put hp hop houtside hrefreshes hstrict (fun x hx => List.mem_append_left _ hx) ?_ ?_
    (fun _ _ => .inl (by simp)) ?_, ?_⟩
  · intro id t ht
    rcases List.mem_append.mp ht with hold | hnew
    · exact .inl hold
    · obtain ⟨rfl, rfl⟩ := Prod.mk.inj (List.mem_singleton.mp hnew)
      exact .inr ⟨hconfirms, rfl⟩
  · intro id
    by_cases hid : id = p.op.location
    · subst hid
      rw [hr', hr]
      rfl
    · rw [hothers id hid]
  · intro id
    by_cases hid : id = p.op.location
    · subst hid
      rw [hvalue]
      exact .mark hearlier
    · rw [lastVerifiedAt_congr (hothers id hid)]
      exact (h.newest id).other hid
  · intro id
    by_cases hid : id = p.op.location
    · subst hid
      rw [hvalue]
      exact h.notOlder hfirst (h.stamps p (List.mem_of_getElem? hp)) hearlier
    · rw [lastVerifiedAt_congr (hothers id hid)]
      exact .refl _

/-- A call that starts. -/
theorem Timely.start {op : VerificationCall} (h : Timely c₀ t₀ w) (hclock : w.clock ≤ op.stamp) :
    Timely c₀ t₀ { w with
      clock := op.stamp
      system := { w.system with
        serial := w.system.serial + 1
        processes := w.system.processes ++ [⟨op, w.system.serial,
          .idle w.system.committed w.system.serial, op.script w.system.serial⟩] } } := by
  have hprocess : ∀ {q}, q ∈ w.system.processes ++ [⟨op, w.system.serial,
      .idle w.system.committed w.system.serial, op.script w.system.serial⟩] →
      q ∈ w.system.processes ∨ q = ⟨op, w.system.serial,
        .idle w.system.committed w.system.serial, op.script w.system.serial⟩ :=
    fun hq => (List.mem_append.mp hq).imp_right List.mem_singleton.mp
  refine ⟨le_trans h.clock hclock, ?_, ?_, ?_, ?_, h.exist, ?_, ?_, h.newest⟩
  · intro q hq
    rcases hprocess hq with hold | rfl
    · exact h.stamps q hold
    · exact le_trans h.clock hclock
  · intro q hq
    rcases hprocess hq with hold | rfl
    · exact h.outside q hold
    · exact ⟨rfl, rfl⟩
  · intro q hq
    rcases hprocess hq with hold | rfl
    · exact h.refreshes q hold
    · exact script_refreshes op _
  · intro j q hq
    rcases getElem?_append_singleton hq with rfl | hold
    · exact verification_strict op _
    · exact h.strict j q hold
  · intro q hq hconfirms hsome
    rcases hprocess hq with hold | rfl
    · exact h.marked q hold hconfirms hsome
    · exact .inr (script_performs _ hconfirms)
  · intro id t ht
    obtain ⟨q, hq, hconfirms⟩ := h.confirmed id t ht
    exact ⟨q, List.mem_append_left _ hq, hconfirms⟩

/-- A statement that meets the condition. -/
theorem Timely.exec {i : Nat} {p : Process Cell VerificationCall ContributionError Unit}
    {write : Connection Cell → Connection Cell}
    {next : Connection Cell → Script ContributionError Unit}
    {failed : Script ContributionError Unit} (h : Timely c₀ t₀ w)
    (hfirst : ∀ id t, lastVerifiedAt c₀ id = some t → t ≤ t₀)
    (hp : w.system.processes[i]? = some p) (hscript : p.script = .call write next failed)
    (horder : inStampOrder w (.exec i) = true) {w' : Timeline}
    (hw' : w' = ⟨w.system.land i p (write (p.conn.on w.system.committed w.system.serial))
      (next (p.conn.on w.system.committed w.system.serial)), w.clock,
      w.marks ++ (marking w.system (.exec i)).toList⟩) :
    Timely c₀ t₀ w' ∧ ∀ id, NotOlder (lastVerifiedAt w.system.committed id)
      (lastVerifiedAt w'.system.committed id) := by
  have hmem : p ∈ w.system.processes := List.mem_of_getElem? hp
  obtain ⟨hclosed, hclean⟩ := h.outside p hmem
  have hrefreshes := h.refreshes p hmem
  rw [hscript] at hrefreshes
  have hstrict := h.strict i p hp
  rw [hscript] at hstrict
  -- the statement finds the committed rows
  have hrows : (p.conn.on w.system.committed w.system.serial).rows = w.system.committed :=
    p.conn.overlay_of_clean _ hclean
  obtain ⟨hafter, hwrites⟩ := hrefreshes.1 (p.conn.on w.system.committed w.system.serial)
    hclosed hclean
  rw [hrows] at hwrites
  have hmarking : marking w.system (.exec i) =
      if Key.location p.op.location ∈
          (write (p.conn.on w.system.committed w.system.serial)).dirty then
        some (p.op.location, p.op.stamp) else none := by
    simp [marking, hp, hscript]
  rw [inStampOrder, hmarking] at horder
  rw [hmarking] at hw'
  have hperforms : ∀ hmarks : p.script.Performs p.op.Marks, p.op.Marks
      (p.conn.on w.system.committed w.system.serial)
      (write (p.conn.on w.system.committed w.system.serial)) ∨
        (next (p.conn.on w.system.committed w.system.serial)).Performs p.op.Marks := by
    intro hmarks
    rw [hscript] at hmarks
    exact hmarks _
  unfold VerificationCall.Marks at hperforms
  rw [hrows] at hperforms
  generalize hfound : p.conn.on w.system.committed w.system.serial = found at *
  generalize write found = after at *
  rw [System.land, if_neg (by rw [hafter]; decide)] at hw'
  subst hw'
  by_cases hdirty : Key.location p.op.location ∈ after.dirty
  · -- the `UPDATE` of a confirmation
    obtain ⟨hconfirms, r, hr, hr'⟩ := hwrites _ hdirty
    rw [if_pos hdirty] at horder ⊢
    refine h.putMarked hfirst hp rfl ⟨hafter, rfl⟩ (hrefreshes.2.1 found) (hstrict.2 found)
      hconfirms ⟨r, hr, ?_⟩ ?_ ?_
    · rw [Connection.overlay_apply, if_pos hdirty, hr']
    · intro id hne
      rw [Connection.overlay_apply, if_neg]
      exact fun hmem => hne (hwrites id hmem).1.2.symm
    · intro t' ht'
      have hle := List.all_eq_true.mp horder _ ht'
      simpa using hle
  · -- a statement that writes no location
    rw [if_neg hdirty, Option.toList_none, List.append_nil]
    refine h.putQuiet hp rfl ⟨hafter, rfl⟩ (hrefreshes.2.1 found) (hstrict.2 found) ?_ ?_
    · intro id
      rw [Connection.overlay_apply, if_neg]
      intro hmem
      rw [← (hwrites id hmem).1.2] at hmem
      exact hdirty hmem
    · intro hsome hmarks
      rcases hperforms hmarks with (hnone | hwritten) | hrest
      · have hexist := h.exist p.op.location
        rw [hnone, hsome] at hexist
        cases hexist
      · exact absurd hwritten hdirty
      · exact hrest

/-- A step of the timeline is one of the system. -/
theorem Timeline.next_cases (hnext : w.next l = some w') :
    ∃ s, System.Step VerificationCall.script w.system l s ∧
      ((∃ op, l = .start op ∧ w.clock ≤ op.stamp ∧ w' = ⟨s, op.stamp, w.marks⟩) ∨
        (∀ op, l ≠ .start op) ∧
          w' = ⟨s, w.clock, w.marks ++ (marking w.system l).toList⟩) := by
  unfold Timeline.next at hnext
  split at hnext
  · rename_i op
    split at hnext
    · rename_i hclock
      obtain ⟨s, hs, rfl⟩ := Option.map_eq_some_iff.mp hnext
      exact ⟨s, hs, .inl ⟨op, rfl, hclock, rfl⟩⟩
    · cases hnext
  · rename_i hno
    obtain ⟨s, hs, rfl⟩ := Option.map_eq_some_iff.mp hnext
    exact ⟨s, hs, .inr ⟨hno, rfl⟩⟩

/-- One step that meets the condition: the invariant stays, and no location gets older. -/
theorem Timely.next (h : Timely c₀ t₀ w)
    (hfirst : ∀ id t, lastVerifiedAt c₀ id = some t → t ≤ t₀) (hstep : OrderedStep w l w') :
    Timely c₀ t₀ w' ∧ ∀ id, NotOlder (lastVerifiedAt w.system.committed id)
      (lastVerifiedAt w'.system.committed id) := by
  obtain ⟨horder, hnext⟩ := hstep
  obtain ⟨s, hstep, hcases⟩ := Timeline.next_cases hnext
  cases System.does_of_step hstep with
  | start op =>
    rcases hcases with ⟨op', hop, hclock, rfl⟩ | ⟨hno, _⟩
    · cases hop
      exact ⟨h.start hclock, fun id => .refl _⟩
    · exact absurd rfl (hno op)
  | @exec i p write next failed hp hscript hfree =>
    rcases hcases with ⟨op', hop, _⟩ | ⟨_, hw'⟩
    · cases hop
    · exact h.exec hfirst hp hscript horder hw'
  | @fail i p write next failed hp hscript =>
    rcases hcases with ⟨op', hop, _⟩ | ⟨_, rfl⟩
    · cases hop
    · have hmem : p ∈ w.system.processes := List.mem_of_getElem? hp
      have hrefreshes := h.refreshes p hmem
      rw [hscript] at hrefreshes
      have hstrict := h.strict i p hp
      rw [hscript] at hstrict
      obtain ⟨e, rfl⟩ := hstrict.1
      rw [show marking w.system (.fail i) = none from rfl, Option.toList_none, List.append_nil]
      exact h.putQuiet hp rfl (h.outside p hmem) hrefreshes.2.2 trivial (fun _ => rfl)
        fun _ _ => trivial
  | @finish i p r hp hscript =>
    rcases hcases with ⟨op', hop, _⟩ | ⟨_, rfl⟩
    · cases hop
    · have hmem : p ∈ w.system.processes := List.mem_of_getElem? hp
      rw [show marking w.system (.finish i) = none from rfl, Option.toList_none, List.append_nil]
      exact h.putQuiet hp rfl ⟨rfl, rfl⟩ (h.refreshes p hmem) (h.strict i p hp) (fun _ => rfl)
        fun _ => id

end Steps

/-! ## The law -/

/-- Every call has succeeded. -/
def allSucceeded (s : VerificationSystem) : Bool :=
  s.processes.all fun p =>
    match p.script with
    | .done (.ok _) => true
    | _ => false

/-- The location has the newest stamp of its confirmations, or what it had when there are
none. -/
def Freshest (c₀ : Rows Cell) (s : VerificationSystem) (l : Nat) : Prop :=
  (lastVerifiedAt s.committed l = lastVerifiedAt c₀ l ∧ ∀ p ∈ s.processes, ¬ p.op.Confirms l) ∨
    ∃ p ∈ s.processes, p.op.Confirms l ∧ lastVerifiedAt s.committed l = some p.op.stamp ∧
      ∀ q ∈ s.processes, q.op.Confirms l → q.op.stamp ≤ p.op.stamp

theorem timely_init {c₀ : Rows Cell} {t₀ : Instant} {n : Nat} :
    Timely c₀ t₀ ⟨⟨c₀, n, []⟩, t₀, []⟩ := by
  have hnone : ∀ {p : Process Cell VerificationCall ContributionError Unit}, p ∉ [] :=
    List.not_mem_nil
  constructor
  · exact le_rfl
  · exact fun p hp => absurd hp hnone
  · exact fun p hp => absurd hp hnone
  · exact fun p hp => absurd hp hnone
  · exact fun i p hp => absurd (List.mem_of_getElem? hp) hnone
  · exact fun _ => rfl
  · exact fun p hp => absurd hp hnone
  · exact fun l t ht => absurd ht List.not_mem_nil
  · exact fun l => .inl ⟨rfl, fun t => List.not_mem_nil⟩

/-- Every run whose steps meet the condition keeps the invariant, and no location gets
older in it. -/
theorem Timely.run {c₀ : Rows Cell} {t₀ : Instant} {w w' : Timeline}
    {ls : List (Label VerificationCall)} (h : Timely c₀ t₀ w)
    (hfirst : ∀ id t, lastVerifiedAt c₀ id = some t → t ≤ t₀) (hrun : Run OrderedStep w ls w') :
    Timely c₀ t₀ w' ∧ ∀ id, NotOlder (lastVerifiedAt w.system.committed id)
      (lastVerifiedAt w'.system.committed id) := by
  induction hrun with
  | nil w => exact ⟨h, fun id => .refl _⟩
  | cons head _ ih =>
    obtain ⟨hnext, hstep⟩ := h.next hfirst head
    obtain ⟨hlast, hrest⟩ := ih hnext
    exact ⟨hlast, fun id => (hstep id).trans (hrest id)⟩

/-- When every call has succeeded, the stamps of all confirmations are written. -/
theorem Timely.freshest {c₀ : Rows Cell} {t₀ : Instant} {w : Timeline} {l : Nat}
    (h : Timely c₀ t₀ w) (hexists : (c₀ (.location l)).isSome = true)
    (hdone : allSucceeded w.system = true) : Freshest c₀ w.system l := by
  have hmarked : ∀ p ∈ w.system.processes, p.op.Confirms l → (l, p.op.stamp) ∈ w.marks := by
    rintro p hp ⟨hconfirms, rfl⟩
    rcases h.marked p hp hconfirms hexists with hold | hperforms
    · exact hold
    · have hsucceeded := List.all_eq_true.mp hdone p hp
      split at hsucceeded
      · rename_i hscript
        rw [hscript] at hperforms
        exact hperforms.elim
      · cases hsucceeded
  rcases h.newest l with ⟨hsame, hnone⟩ | ⟨t, hvalue, hmark, hnewest⟩
  · exact .inl ⟨hsame, fun p hp hconfirms => hnone _ (hmarked p hp hconfirms)⟩
  · obtain ⟨p, hp, hconfirms, rfl⟩ := h.confirmed l t hmark
    exact .inr ⟨p, hp, hconfirms, hvalue, fun q hq hq' => hnewest _ (hmarked q hq hq')⟩

/-- In every run that writes the stamps of a location in their order, no location gets older
between two states, and a location has the newest stamp of its confirmations once every call
has succeeded. -/
theorem freshness_never_goes_back {c₀ : Rows Cell} {n : Nat} {t₀ : Instant} {w w' : Timeline}
    {ls ls' : List (Label VerificationCall)}
    (hfirst : ∀ id t, lastVerifiedAt c₀ id = some t → t ≤ t₀)
    (hrun : Run OrderedStep ⟨⟨c₀, n, []⟩, t₀, []⟩ ls w) (hrun' : Run OrderedStep w ls' w')
    (l : Nat) :
    NotOlder (lastVerifiedAt w.system.committed l) (lastVerifiedAt w'.system.committed l) ∧
      ((c₀ (.location l)).isSome = true → allSucceeded w'.system = true →
        Freshest c₀ w'.system l) := by
  obtain ⟨hw, _⟩ := timely_init.run hfirst hrun
  obtain ⟨hw', hstep⟩ := hw.run hfirst hrun'
  exact ⟨hstep l, hw'.freshest⟩

/-! ## Two confirmations of one location -/

/-- A rider with a verified address. -/
def confirmingRider : AuthenticatedUser where
  id := 1
  email := "rider@example.com"
  accountState := .active
  isVerified := true
  roles := [.user]

/-- The rider confirms location 1 at the time `t`. -/
def confirmationAt (t : Instant) : VerificationCall :=
  ⟨confirmingRider, fun _ _ _ => true, ⟨t, t, t, t⟩, .existence 1 1 .stillExists⟩

/-- Both calls have recorded their signal; the second one goes on first. -/
def newerFirst : List (Label VerificationCall) :=
  [.start (confirmationAt 1), .start (confirmationAt 2), .exec 0, .exec 0, .exec 0, .exec 0,
    .exec 1, .exec 1, .exec 1, .exec 1, .exec 1, .exec 1]

/-- Location 1 has `last_verified_at` `t`. -/
def verifiedAt (t : Instant) (w : Timeline) : Bool :=
  lastVerifiedAt w.system.committed 1 == some t

/-- The location gets the stamp of the second confirmation, and then that of the first. -/
theorem older_confirmation_wins :
    ∃ w w' : Timeline,
      Run (fun w l w' => w.next l = some w') ⟨⟨unratedRows, 1, []⟩, 0, []⟩ newerFirst w ∧
      Run (fun w l w' => w.next l = some w') w [.exec 0, .exec 0] w' ∧
      allSucceeded w'.system = true ∧
      ¬ NotOlder (lastVerifiedAt w.system.committed 1) (lastVerifiedAt w'.system.committed 1) ∧
      ¬ Freshest unratedRows w'.system 1 := by
  have hend : (newerFirst.foldlM Timeline.next ⟨⟨unratedRows, 1, []⟩, 0, []⟩).any (fun w =>
      verifiedAt 2 w && ([.exec 0, .exec 0].foldlM Timeline.next w).any fun w' =>
        verifiedAt 1 w' && allSucceeded w'.system &&
          w'.system.processes.any fun p =>
            p.op.signal.isStillExists && p.op.location == 1 && p.op.stamp == 2) = true := by
    decide +kernel
  obtain ⟨w, hw, hend⟩ := (Option.any_eq_true ..).mp hend
  rw [Bool.and_eq_true] at hend
  obtain ⟨hnewer, hend⟩ := hend
  obtain ⟨w', hw', hend⟩ := (Option.any_eq_true ..).mp hend
  simp only [Bool.and_eq_true, List.any_eq_true] at hend
  obtain ⟨⟨holder, hdone⟩, q, hq, ⟨hconfirms, hlocation⟩, hstamp⟩ := hend
  have hvalue : lastVerifiedAt w.system.committed 1 = some 2 := eq_of_beq hnewer
  have hvalue' : lastVerifiedAt w'.system.committed 1 = some 1 := eq_of_beq holder
  have hq' : q.op.Confirms 1 := ⟨hconfirms, eq_of_beq hlocation⟩
  refine ⟨w, w', Run.of_foldlM hw, Run.of_foldlM hw', hdone, fun hle => ?_, fun hfresh => ?_⟩
  · obtain ⟨t', ht', hle⟩ := hle 2 hvalue
    rw [hvalue'] at ht'
    cases ht'
    exact absurd hle (by decide)
  · rcases hfresh with ⟨_, hnone⟩ | ⟨p, hp, _, hstamp', hnewest⟩
    · exact hnone q hq hq'
    · have hle := hnewest q hq hq'
      rw [hvalue'] at hstamp'
      rw [eq_of_beq hstamp, ← Option.some.inj hstamp'] at hle
      exact absurd hle (by decide)

/-- The same two confirmations, the first one first. -/
def olderFirst : List (Label VerificationCall) :=
  [.start (confirmationAt 1), .start (confirmationAt 2), .exec 0, .exec 0, .exec 0, .exec 0,
    .exec 1, .exec 1, .exec 1, .exec 1, .exec 0]

theorem freshness_never_goes_back_twice :
    ∃ w w' : Timeline, Run OrderedStep ⟨⟨unratedRows, 1, []⟩, 0, []⟩ olderFirst w ∧
      Run OrderedStep w [.exec 1, .exec 1, .exec 0] w' ∧ verifiedAt 1 w = true ∧
      NotOlder (lastVerifiedAt w.system.committed 1) (lastVerifiedAt w'.system.committed 1) ∧
      Freshest unratedRows w'.system 1 := by
  have hend : (olderFirst.foldlM (fun w l => if inStampOrder w l then Timeline.next w l else none)
      ⟨⟨unratedRows, 1, []⟩, 0, []⟩).any (fun w => verifiedAt 1 w &&
        ([.exec 1, .exec 1, .exec 0].foldlM
          (fun w l => if inStampOrder w l then Timeline.next w l else none) w).any fun w' =>
            allSucceeded w'.system) = true := by decide +kernel
  obtain ⟨w, hw, hend⟩ := (Option.any_eq_true ..).mp hend
  rw [Bool.and_eq_true] at hend
  obtain ⟨w', hw', hdone⟩ := (Option.any_eq_true ..).mp hend.2
  have hfirst : ∀ id t, lastVerifiedAt unratedRows id = some t → t ≤ 0 := by
    intro id t ht
    by_cases hid : id = 1
    · subst hid
      cases ht
    · simp [lastVerifiedAt, unratedRows, hid, noRows] at ht
  have hrun := Run.guarded_of_foldlM hw
  have hrun' := Run.guarded_of_foldlM hw'
  have hlaw := freshness_never_goes_back hfirst hrun hrun' 1
  exact ⟨w, w', hrun, hrun', hend.1, hlaw.1, hlaw.2 rfl hdone⟩

end BikesNest.Community
