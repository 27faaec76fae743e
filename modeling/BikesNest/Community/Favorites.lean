import BikesNest.Lib.Run
import BikesNest.Lib.Versions

/-!
# The favorite of a user

Any number of `toggle` calls for one user and one location run at the same time.  A call is
one statement under READ COMMITTED.  Its `DELETE` looks at the versions of the row that the
snapshot of the statement shows, and waits for a transaction that deletes one of them; when
it has returned no row, the `INSERT` meets the primary key, whose index knows all versions.

`serial` runs toggles one after the other on a row.  `Linear` says that the calls which have
returned `Ok` are such a run, in the order of their commits.
-/

namespace BikesNest.Community

open Runs Relational Versions

variable {ι : Type} [DecidableEq ι]

/-! ## The calls -/

/-- How far a call of `toggle` has come. -/
inductive TogglePhase where
  | idle
  /-- The versions that the `DELETE` has not looked at yet, and whether it has returned a
  row. -/
  | deleting (todo : List Nat) (removed : Bool)
  | inserting
  /-- The statement has run and returns the row. -/
  | returned (row : Option Bool)
  | ok (added : Bool)
  | err
deriving DecidableEq

namespace TogglePhase

def status : TogglePhase → Status
  | .ok _ => .committed
  | .err => .aborted
  | _ => .running

/-- The call is under way. -/
def running : TogglePhase → Bool
  | .deleting _ _ | .inserting | .returned _ => true
  | _ => false

end TogglePhase

/-- The versions of the row of `favorite`, and the calls. -/
structure Toggles (ι : Type) where
  heap : Heap ι
  phase : ι → TogglePhase

inductive ToggleLabel (ι : Type) where
  | start (i : ι)
  | step (i : ι)
  | commit (i : ι)
  /-- The call fails, for any other reason than a conflict. -/
  | fail (i : ι)

namespace Toggles

def status (s : Toggles ι) (i : ι) : Status := (s.phase i).status

/-- The committed row, by the call that has inserted it. -/
def row (s : Toggles ι) : Option (Option ι) := Versions.row s.status s.heap

def turn (s : Toggles ι) (i : ι) (phase : TogglePhase) : Toggles ι :=
  { s with phase := Function.update s.phase i phase }

/-- One step of a call. -/
def step (s : Toggles ι) (i : ι) : Option (Toggles ι) :=
  match s.phase i with
  | .deleting (k :: todo) removed =>
    (s.heap.row k).bind fun v =>
      match claim s.status i v with
      | .take => some ({ s with heap := delete i k s.heap }.turn i (.deleting todo true))
      | .pass => some (s.turn i (.deleting todo removed))
      | .wait => none
  -- `SELECT $1, $2 WHERE NOT EXISTS (SELECT 1 FROM del)`
  | .deleting [] true => some (s.turn i (.returned none))
  | .deleting [] false => some (s.turn i .inserting)
  | .inserting =>
    match checkAll s.status i s.heap with
    | .dead =>
      some ({ s with heap := s.heap.insert ⟨some i, none⟩ }.turn i (.returned (some true)))
    | .conflict => some (s.turn i .err)
    | .wait => none
  | _ => none

/-- The step function; none when the step is not possible. -/
def next (s : Toggles ι) : ToggleLabel ι → Option (Toggles ι)
  | .start i =>
    match s.phase i with
    | .idle =>
      some (s.turn i (.deleting ((s.heap.select fun _ v => live s.status v).map Prod.fst) false))
    | _ => none
  | .step i => s.step i
  | .commit i =>
    match s.phase i with
    | .returned row => some (s.turn i (.ok row.isSome))
    | _ => none
  | .fail i => if (s.phase i).running then some (s.turn i .err) else none

/-- The row is there or not, and no call has started. -/
def init (favorited : Bool) : Toggles ι where
  heap := if favorited then Table.empty.insert ⟨none, none⟩ else .empty
  phase _ := .idle

end Toggles

abbrev ToggleRun : Toggles ι → List (ToggleLabel ι) → Toggles ι → Prop :=
  Run fun s l s' => s.next l = some s'

/-! ## Toggles one after the other -/

/-- A toggle by `i` of the row: it removes the row that is there, or adds its own. -/
def toggled (i : ι) : Option (Option ι) → Option (Option ι)
  | some _ => none
  | none => some (some i)

/-- The answers of toggles that run one after the other, and the row after them. -/
def serial : Option (Option ι) → List ι → List (ι × Bool) × Option (Option ι)
  | row, [] => ([], row)
  | row, i :: order =>
    ((i, row.isNone) :: (serial (toggled i row) order).1, (serial (toggled i row) order).2)

omit [DecidableEq ι] in
theorem serial_snoc (i : ι) : ∀ (order : List ι) (row : Option (Option ι)),
    serial row (order ++ [i]) =
      ((serial row order).1 ++ [(i, (serial row order).2.isNone)],
        toggled i (serial row order).2)
  | [], row => rfl
  | j :: order, row => by
    have ih := serial_snoc i order (toggled j row)
    simp only [List.cons_append, serial, ih]

omit [DecidableEq ι] in
theorem mem_serial {i : ι} {b : Bool} : ∀ {order : List ι} {row : Option (Option ι)},
    (i, b) ∈ (serial row order).1 → i ∈ order
  | [], _, h => by cases h
  | j :: order, row, h => by
    rcases List.mem_cons.mp h with heq | hrest
    · rw [(Prod.mk.inj heq).1]
      exact List.mem_cons_self
    · exact List.mem_cons_of_mem _ (mem_serial hrest)

omit [DecidableEq ι] in
/-- Added and removed alternate. -/
theorem serial_alternates : ∀ (order : List ι) (row : Option (Option ι)),
    ((serial row order).1.map Prod.snd).IsChain (· ≠ ·)
  | [], _ => .nil
  | [_], _ => .singleton _
  | i :: j :: order, row => by
    have ih := serial_alternates (j :: order) (toggled i row)
    simp only [serial, List.map_cons] at ih ⊢
    refine .cons_cons ?_ ih
    cases row with
    | none => exact nofun
    | some r => exact nofun

/-- The calls that have returned `Ok` are toggles one after the other in this order, with
their answers and with the row. -/
structure Linear (row : Option (Option ι)) (order : List ι) (s : Toggles ι) : Prop where
  nodup : order.Nodup
  answers : ∀ i b, s.phase i = .ok b ↔ (i, b) ∈ (serial row order).1
  row : s.row = (serial row order).2

/-! ## What a step does -/

section Steps

variable {s s' : Toggles ι} {i : ι} {l : ToggleLabel ι}

omit [DecidableEq ι] in
/-- What a step does. -/
inductive Toggles.Does [DecidableEq ι] (s : Toggles ι) : ToggleLabel ι → Toggles ι → Prop where
  | start {i : ι} (hphase : s.phase i = .idle) :
    Does s (.start i)
      (s.turn i (.deleting ((s.heap.select fun _ v => live s.status v).map Prod.fst) false))
  | take {i : ι} {k : Nat} {todo : List Nat} {removed : Bool} {v : Version ι}
    (hphase : s.phase i = .deleting (k :: todo) removed) (hrow : s.heap.row k = some v)
    (hclaim : claim s.status i v = .take) :
    Does s (.step i) ({ s with heap := delete i k s.heap }.turn i (.deleting todo true))
  | pass {i : ι} {k : Nat} {todo : List Nat} {removed : Bool}
    (hphase : s.phase i = .deleting (k :: todo) removed) :
    Does s (.step i) (s.turn i (.deleting todo removed))
  | removed {i : ι} (hphase : s.phase i = .deleting [] true) :
    Does s (.step i) (s.turn i (.returned none))
  | absent {i : ι} (hphase : s.phase i = .deleting [] false) :
    Does s (.step i) (s.turn i .inserting)
  | insert {i : ι} (hphase : s.phase i = .inserting)
    (hcheck : checkAll s.status i s.heap = .dead) :
    Does s (.step i)
      ({ s with heap := s.heap.insert ⟨some i, none⟩ }.turn i (.returned (some true)))
  | conflict {i : ι} (hphase : s.phase i = .inserting) : Does s (.step i) (s.turn i .err)
  | commit {i : ι} {row : Option Bool} (hphase : s.phase i = .returned row) :
    Does s (.commit i) (s.turn i (.ok row.isSome))
  | fail {i : ι} (hphase : (s.phase i).running = true) : Does s (.fail i) (s.turn i .err)

theorem Toggles.does_of_step (h : s.step i = some s') : s.Does (.step i) s' := by
  unfold Toggles.step at h
  split at h
  · rename_i k todo removed hphase
    obtain ⟨v, hrow, h⟩ := Option.bind_eq_some_iff.mp h
    split at h
    · rename_i hclaim
      cases h
      exact .take hphase hrow hclaim
    · cases h
      exact .pass hphase
    · cases h
  · rename_i hphase
    cases h
    exact .removed hphase
  · rename_i hphase
    cases h
    exact .absent hphase
  · rename_i hphase
    split at h
    · rename_i hcheck
      cases h
      exact .insert hphase hcheck
    · cases h
      exact .conflict hphase
    · cases h
  · cases h

theorem Toggles.does_of_next (h : s.next l = some s') : s.Does l s' := by
  cases l with
  | start i =>
    simp only [Toggles.next] at h
    split at h
    · rename_i hphase
      cases h
      exact .start hphase
    · cases h
  | step i => exact does_of_step h
  | commit i =>
    simp only [Toggles.next] at h
    split at h
    · rename_i row hphase
      cases h
      exact .commit hphase
    · cases h
  | fail i =>
    simp only [Toggles.next] at h
    split at h
    · rename_i hphase
      cases h
      exact .fail hphase
    · cases h

@[simp] theorem Toggles.turn_heap (s : Toggles ι) (i : ι) (phase : TogglePhase) :
    (s.turn i phase).heap = s.heap := rfl

@[simp] theorem Toggles.turn_phase_self (s : Toggles ι) (i : ι) (phase : TogglePhase) :
    (s.turn i phase).phase i = phase := by
  simp [Toggles.turn]

@[simp] theorem Toggles.turn_turn (s : Toggles ι) (i : ι) (phase phase' : TogglePhase) :
    (s.turn i phase).turn i phase' = s.turn i phase' := by
  simp [Toggles.turn]

theorem Toggles.turn_phase_of_ne {j : ι} (hne : j ≠ i) (phase : TogglePhase) :
    (s.turn i phase).phase j = s.phase j := by
  simp [Toggles.turn, hne]

/-- What holds of the phase of each call holds after a turn, if the new phase keeps it. -/
theorem Toggles.turn_phase_of {phase : TogglePhase} {P : TogglePhase → Prop} {j : ι}
    (hj : P (s.phase j)) (hi : P (s.phase i) → P phase) : P ((s.turn i phase).phase j) := by
  by_cases hji : j = i
  · subst hji
    rw [Toggles.turn_phase_self]
    exact hi hj
  · rw [Toggles.turn_phase_of_ne hji]
    exact hj

theorem Toggles.of_turn_phase {phase : TogglePhase} {P : TogglePhase → Prop} {j : ι}
    (hj : P ((s.turn i phase).phase j)) (hi : P phase → P (s.phase i)) : P (s.phase j) := by
  by_cases hji : j = i
  · subst hji
    rw [Toggles.turn_phase_self] at hj
    exact hi hj
  · rwa [Toggles.turn_phase_of_ne hji] at hj

end Steps

/-! ## The invariant -/

namespace TogglePhase

/-- The phases of a call that may have inserted a version. -/
def mayInsert : TogglePhase → Bool
  | .returned (some _) | .ok true | .err => true
  | _ => false

/-- The phases of a call that may have deleted a version. -/
def mayDelete : TogglePhase → Bool
  | .deleting _ true | .returned none | .ok false | .err => true
  | _ => false

/-- A call that has inserted a version and goes on. -/
def inserts : TogglePhase → Bool
  | .returned (some _) => true
  | _ => false

/-- A call that has deleted a version and goes on. -/
def deletes : TogglePhase → Bool
  | .deleting _ true | .returned none => true
  | _ => false

end TogglePhase

/-- The version was inserted by a committed call, or before all calls. -/
def settled (st : ι → Status) (v : Version ι) : Bool := v.inserted.all (isCommitted st)

/-- What holds of the versions and the calls in every reachable state. -/
structure TogglesTidy (s : Toggles ι) : Prop where
  sole : Sole s.status s.heap
  inserted : ∀ k v i, s.heap.row k = some v → v.inserted = some i → (s.phase i).mayInsert = true
  deleted : ∀ k v i, s.heap.row k = some v → v.deleted = some i →
    (s.phase i).mayDelete = true ∧ settled s.status v = true
  seen : ∀ i todo removed, s.phase i = .deleting todo removed →
    ∀ k ∈ todo, ∃ v, s.heap.row k = some v ∧ settled s.status v = true
  inserts : ∀ i, (s.phase i).inserts = true → ∃ k v, s.heap.row k = some v ∧ v.inserted = some i
  deletes : ∀ i, (s.phase i).deletes = true → ∃ k v, s.heap.row k = some v ∧ v.deleted = some i

section Invariant

variable {s s' : Toggles ι} {i : ι} {l : ToggleLabel ι}

/-- A call ends or goes on. -/
theorem Toggles.status_turn {phase : TogglePhase}
    (hstatus : phase.status = s.status i ∨ s.status i = .running) (j : ι) :
    (s.turn i phase).status j = s.status j ∨ s.status j = .running := by
  by_cases hj : j = i
  · subst hj
    unfold Toggles.status at hstatus ⊢
    rw [Toggles.turn_phase_self]
    exact hstatus
  · left
    unfold Toggles.status
    rw [Toggles.turn_phase_of_ne hj]

omit [DecidableEq ι] in
theorem settled_congr {st : ι → Status} {x y : Version ι} (h : x.inserted = y.inserted) :
    settled st x = settled st y := by
  rw [settled, settled, h]

omit [DecidableEq ι] in
/-- What is settled stays so. -/
theorem settled_of_ended {st st' : ι → Status} {v : Version ι}
    (hended : ∀ i, st' i = st i ∨ st i = .running) (h : settled st v = true) :
    settled st' v = true := by
  unfold settled at h ⊢
  cases hinserted : v.inserted with
  | none => rfl
  | some i =>
    have hcommitted : st i = .committed := by simpa [hinserted, isCommitted] using h
    rcases hended i with hsame | hrunning
    · simp [isCommitted, hsame, hcommitted]
    · rw [hrunning] at hcommitted
      cases hcommitted

/-- A call goes on or ends without a version. -/
theorem TogglesTidy.turn (h : TogglesTidy s) {phase : TogglePhase}
    (hstatus : phase.status = s.status i ∨ s.status i = .running)
    (hinserted : (s.phase i).mayInsert = true → phase.mayInsert = true)
    (hdeleted : (s.phase i).mayDelete = true → phase.mayDelete = true)
    (hinserts : phase.inserts = true → (s.phase i).inserts = true)
    (hdeletes : phase.deletes = true → (s.phase i).deletes = true)
    (hseen : ∀ todo removed, phase = .deleting todo removed →
      ∀ k ∈ todo, ∃ v, s.heap.row k = some v ∧ settled s.status v = true) :
    TogglesTidy (s.turn i phase) := by
  have hended := Toggles.status_turn hstatus
  refine ⟨h.sole.of_ended hended, ?_, ?_, ?_, ?_, ?_⟩
  · intro k v j hv hj
    exact Toggles.turn_phase_of (P := (·.mayInsert = true)) (h.inserted k v j hv hj) hinserted
  · intro k v j hv hj
    obtain ⟨hmay, hsettled⟩ := h.deleted k v j hv hj
    exact ⟨Toggles.turn_phase_of (P := (·.mayDelete = true)) hmay hdeleted,
      settled_of_ended hended hsettled⟩
  · intro j todo removed hj k hk
    have hold : ∃ v, s.heap.row k = some v ∧ settled s.status v = true := by
      by_cases hji : j = i
      · subst hji
        rw [Toggles.turn_phase_self] at hj
        exact hseen todo removed hj k hk
      · rw [Toggles.turn_phase_of_ne hji] at hj
        exact h.seen j todo removed hj k hk
    obtain ⟨v, hv, hsettled⟩ := hold
    exact ⟨v, hv, settled_of_ended hended hsettled⟩
  · intro j hj
    exact h.inserts j (Toggles.of_turn_phase (P := (·.inserts = true)) hj hinserts)
  · intro j hj
    exact h.deletes j (Toggles.of_turn_phase (P := (·.deletes = true)) hj hdeletes)

/-- A step within a call that leaves its status. -/
theorem Toggles.status_turn_running (heap : Heap ι) {phase : TogglePhase}
    (hphase : (s.phase i).status = .running) (hrunning : phase.status = .running) :
    ({ s with heap := heap }.turn i phase).status = s.status := by
  funext j
  by_cases hj : j = i
  · subst hj
    unfold Toggles.status
    rw [Toggles.turn_phase_self, hrunning, hphase]
  · unfold Toggles.status
    rw [Toggles.turn_phase_of_ne hj]

theorem deletes_status {phase : TogglePhase} (h : phase.deletes = true) :
    phase.status = .running := by
  cases phase with
  | deleting | returned => rfl
  | idle | inserting | ok | err => cases h

/-- The `DELETE` takes a version. -/
theorem TogglesTidy.take {k : Nat} {todo : List Nat} {removed : Bool} {v : Version ι}
    (h : TogglesTidy s) (hphase : s.phase i = .deleting (k :: todo) removed)
    (hrow : s.heap.row k = some v) (hclaim : claim s.status i v = .take) :
    TogglesTidy ({ s with heap := delete i k s.heap }.turn i (.deleting todo true)) := by
  have hstatus : ({ s with heap := delete i k s.heap }.turn i (.deleting todo true)).status =
      s.status := Toggles.status_turn_running _ (by rw [hphase]; rfl) rfl
  obtain ⟨w, hw, hsettled⟩ := h.seen i _ _ hphase k List.mem_cons_self
  obtain rfl := Option.some.inj (hrow.symm.trans hw)
  have hown : (s.phase i).mayInsert = false := by rw [hphase]; cases removed <;> rfl
  refine ⟨?_, ?_, ?_, ?_, ?_, ?_⟩
  · rw [hstatus]
    exact h.sole.delete hrow hclaim
  · intro j x i' hx hi'
    obtain ⟨y, hy, hinserted, _⟩ := of_row_delete hrow hx
    have hmay := h.inserted j y i' hy (hinserted ▸ hi')
    refine Toggles.turn_phase_of (P := (·.mayInsert = true)) hmay fun hself => ?_
    exact absurd (hown.symm.trans hself) (by decide)
  · intro j x i' hx hi'
    rw [hstatus]
    obtain ⟨y, hy, hinserted, hdeleted | ⟨hdeleted, rfl⟩⟩ := of_row_delete hrow hx
    · obtain ⟨hmay, hset⟩ := h.deleted j y i' hy (hdeleted ▸ hi')
      exact ⟨Toggles.turn_phase_of (P := (·.mayDelete = true)) hmay fun _ => rfl,
        (settled_congr hinserted).trans hset⟩
    · rw [hdeleted] at hi'
      cases hi'
      obtain rfl := Option.some.inj (hrow.symm.trans hy)
      rw [Toggles.turn_phase_self]
      exact ⟨rfl, (settled_congr hinserted).trans hsettled⟩
  · intro i' todo' removed' hi' j hj
    rw [hstatus]
    have hseen : ∃ y, s.heap.row j = some y ∧ settled s.status y = true := by
      by_cases hi : i' = i
      · subst hi
        rw [Toggles.turn_phase_self] at hi'
        cases hi'
        exact h.seen i' _ _ hphase j (List.mem_cons_of_mem _ hj)
      · rw [Toggles.turn_phase_of_ne hi] at hi'
        exact h.seen i' _ _ hi' j hj
    obtain ⟨y, hy, hset⟩ := hseen
    obtain ⟨x, hx, hinserted⟩ := row_delete_of_some hrow hy
    exact ⟨x, hx, (settled_congr hinserted).trans hset⟩
  · intro i' hi'
    obtain ⟨j, y, hy, hj⟩ := h.inserts i'
      (Toggles.of_turn_phase (P := (·.inserts = true)) hi' fun hself => by cases hself)
    obtain ⟨x, hx, hinserted⟩ := row_delete_of_some hrow hy
    exact ⟨j, x, hx, hinserted.trans hj⟩
  · intro i' hi'
    by_cases hi : i' = i
    · subst hi
      exact ⟨k, _, row_delete_self hrow, rfl⟩
    · rw [Toggles.turn_phase_of_ne hi] at hi'
      obtain ⟨j, y, hy, hj⟩ := h.deletes i' hi'
      have hjk : j ≠ k := by
        -- the version that another call is deleting makes this one wait
        rintro rfl
        obtain rfl := Option.some.inj (hrow.symm.trans hy)
        exact not_running_of_take hclaim hj hi (deletes_status hi')
      exact ⟨j, y, (row_delete_of_ne hjk).trans hy, hj⟩

/-- No version is alive when the index lets an `INSERT` through. -/
theorem TogglesTidy.dead (h : TogglesTidy s) (hphase : s.phase i = .inserting)
    (hcheck : checkAll s.status i s.heap = .dead) :
    ∀ k v, s.heap.row k = some v → alive s.status v = false := by
  intro k v hv
  refine not_alive_of_dead (fun hown => ?_) (dead_of_checkAll hcheck hv)
  have hmay := (h.deleted k v i hv hown).1
  rw [hphase] at hmay
  cases hmay

/-- The `INSERT` adds a version. -/
theorem TogglesTidy.insert (h : TogglesTidy s) (hphase : s.phase i = .inserting)
    (hcheck : checkAll s.status i s.heap = .dead) :
    TogglesTidy
      ({ s with heap := s.heap.insert ⟨some i, none⟩ }.turn i (.returned (some true))) := by
  have hstatus : ({ s with heap := s.heap.insert ⟨some i, none⟩ }.turn i
      (.returned (some true))).status = s.status :=
    Toggles.status_turn_running _ (by rw [hphase]; rfl) rfl
  have hkept : ∀ {j x}, s.heap.row j = some x →
      (s.heap.insert ⟨some i, none⟩).row j = some x := Table.row_insert_of_some _
  refine ⟨?_, ?_, ?_, ?_, ?_, ?_⟩
  · rw [hstatus]
    exact .insert (h.dead hphase hcheck) _
  · intro j x i' hx hi'
    rcases Table.row_insert_eq_some.mp hx with ⟨_, rfl⟩ | hold
    · cases hi'
      rw [Toggles.turn_phase_self]
      rfl
    · have hmay := h.inserted j x i' hold hi'
      refine Toggles.turn_phase_of (P := (·.mayInsert = true)) hmay fun hself => ?_
      rw [hphase] at hself
      cases hself
  · intro j x i' hx hi'
    rw [hstatus]
    rcases Table.row_insert_eq_some.mp hx with ⟨_, rfl⟩ | hold
    · cases hi'
    · obtain ⟨hmay, hset⟩ := h.deleted j x i' hold hi'
      refine ⟨Toggles.turn_phase_of (P := (·.mayDelete = true)) hmay fun hself => ?_, hset⟩
      rw [hphase] at hself
      cases hself
  · intro i' todo removed hi' j hj
    rw [hstatus]
    obtain ⟨x, hx, hset⟩ := h.seen i' todo removed (Toggles.of_turn_phase
      (P := (· = .deleting todo removed)) hi' fun hself => by cases hself) j hj
    exact ⟨x, hkept hx, hset⟩
  · intro i' hi'
    by_cases hi : i' = i
    · subst hi
      exact ⟨s.heap.next, _, Table.row_insert_next .., rfl⟩
    · rw [Toggles.turn_phase_of_ne hi] at hi'
      obtain ⟨j, x, hx, hj⟩ := h.inserts i' hi'
      exact ⟨j, x, hkept hx, hj⟩
  · intro i' hi'
    obtain ⟨j, x, hx, hj⟩ := h.deletes i'
      (Toggles.of_turn_phase (P := (·.deletes = true)) hi' fun hself => by cases hself)
    exact ⟨j, x, hkept hx, hj⟩

theorem running_status {phase : TogglePhase} (h : phase.running = true) :
    phase.status = .running := by
  cases phase with
  | deleting | inserting | returned => rfl
  | idle | ok | err => cases h

/-- A call that fails. -/
theorem TogglesTidy.fail (h : TogglesTidy s) (hphase : (s.phase i).running = true) :
    TogglesTidy (s.turn i .err) :=
  h.turn (.inr (running_status hphase)) (fun _ => rfl) (fun _ => rfl) nofun nofun nofun

theorem TogglesTidy.next (h : TogglesTidy s) (hstep : s.next l = some s') : TogglesTidy s' := by
  cases Toggles.does_of_next hstep with
  | start hphase =>
    refine h.turn (.inl (by rw [Toggles.status, hphase]; rfl)) ?_ ?_ (fun h => by cases h)
      (fun h => by cases h) fun todo removed heq k hk => ?_
    · rw [hphase]
      exact fun hmay => by cases hmay
    · rw [hphase]
      exact fun hmay => by cases hmay
    · cases heq
      -- what the snapshot shows is settled
      obtain ⟨x, hx, rfl⟩ := List.mem_map.mp hk
      obtain ⟨hrow, hlive⟩ := Table.mem_select.mp hx
      refine ⟨x.2, hrow, ?_⟩
      simp only [live, visible, Bool.and_eq_true] at hlive
      exact hlive.1
  | take hphase hrow hclaim => exact h.take hphase hrow hclaim
  | @pass i k todo removed hphase =>
    refine h.turn (.inl (by rw [Toggles.status, hphase]; rfl)) ?_ ?_ (fun h => by cases h) ?_ ?_
    · rw [hphase]
      exact fun hmay => by cases removed <;> cases hmay
    · rw [hphase]
      cases removed <;> exact id
    · rw [hphase]
      cases removed <;> exact id
    · intro todo' removed' heq j hj
      cases heq
      exact h.seen i _ _ hphase j (List.mem_cons_of_mem _ hj)
  | removed hphase =>
    refine h.turn (.inl (by rw [Toggles.status, hphase]; rfl)) ?_ (fun _ => rfl)
      (fun h => by cases h) ?_ (fun _ _ heq => by cases heq)
    · rw [hphase]
      exact fun hmay => by cases hmay
    · rw [hphase]
      exact id
  | absent hphase =>
    refine h.turn (.inl (by rw [Toggles.status, hphase]; rfl)) ?_ ?_ (fun h => by cases h)
      (fun h => by cases h) (fun _ _ heq => by cases heq)
    · rw [hphase]
      exact fun hmay => by cases hmay
    · rw [hphase]
      exact fun hmay => by cases hmay
  | insert hphase hcheck => exact h.insert hphase hcheck
  | conflict hphase => exact h.fail (by rw [hphase]; rfl)
  | @commit i row hphase =>
    refine h.turn (.inr (by rw [Toggles.status, hphase]; rfl)) ?_ ?_ (fun h => by cases h)
      (fun h => by cases h) (fun _ _ heq => by cases heq)
    · rw [hphase]
      cases row with
      | none => exact fun hmay => by cases hmay
      | some b => exact fun _ => rfl
    · rw [hphase]
      cases row with
      | none => exact fun _ => rfl
      | some b => exact fun hmay => by cases hmay
  | fail hphase => exact h.fail hphase

/-! ## The row -/

/-- A step that does not commit, on the same versions. -/
theorem Toggles.row_turn {phase : TogglePhase} (hbefore : s.status i ≠ .committed)
    (hafter : phase.status ≠ .committed) : (s.turn i phase).row = s.row := by
  have hcommitted : isCommitted (s.turn i phase).status = isCommitted s.status := by
    funext j
    by_cases hj : j = i
    · subst hj
      unfold isCommitted Toggles.status at *
      rw [Toggles.turn_phase_self]
      rw [beq_eq_false_iff_ne.mpr hbefore, beq_eq_false_iff_ne.mpr hafter]
    · unfold isCommitted Toggles.status
      rw [Toggles.turn_phase_of_ne hj]
  unfold Toggles.row Versions.row live
  rw [hcommitted]
  rfl

/-- A version of the snapshot that the `DELETE` takes stays the row until the commit. -/
theorem TogglesTidy.row_take {k : Nat} {todo : List Nat} {removed : Bool} {v : Version ι}
    (h : TogglesTidy s) (hphase : s.phase i = .deleting (k :: todo) removed)
    (hrow : s.heap.row k = some v) (hclaim : claim s.status i v = .take) :
    ({ s with heap := delete i k s.heap }.turn i (.deleting todo true)).row = s.row := by
  have hstatus : ({ s with heap := delete i k s.heap }.turn i (.deleting todo true)).status =
      s.status := Toggles.status_turn_running _ (by rw [hphase]; rfl) rfl
  have hafter := (h.take hphase hrow hclaim).sole
  have hrunning : isCommitted s.status i = false := by
    unfold isCommitted Toggles.status
    rw [hphase]
    rfl
  unfold Toggles.row
  rw [hstatus] at hafter ⊢
  refine row_congr h.sole hafter fun j o => ?_
  by_cases hj : j = k
  · subst hj
    have hlive : live s.status { v with deleted := some i } = live s.status v := by
      simp only [live, visible, Option.any_some, hrunning, not_committed_of_take hclaim]
    show (∃ x, (delete i j s.heap).row j = some x ∧ _) ↔ _
    rw [row_delete_self hrow, hrow]
    constructor
    · rintro ⟨x, hx, hx', ho⟩
      cases hx
      exact ⟨v, rfl, hlive ▸ hx', ho⟩
    · rintro ⟨x, hx, hx', ho⟩
      cases hx
      exact ⟨_, rfl, hlive.trans hx', ho⟩
  · show (∃ x, (delete i k s.heap).row j = some x ∧ _) ↔ _
    rw [row_delete_of_ne hj]

/-- A version that is inserted is not the row before the commit. -/
theorem TogglesTidy.row_insert (h : TogglesTidy s) (hphase : s.phase i = .inserting)
    (hcheck : checkAll s.status i s.heap = .dead) :
    ({ s with heap := s.heap.insert ⟨some i, none⟩ }.turn i (.returned (some true))).row =
      s.row := by
  have hstatus : ({ s with heap := s.heap.insert ⟨some i, none⟩ }.turn i
      (.returned (some true))).status = s.status :=
    Toggles.status_turn_running _ (by rw [hphase]; rfl) rfl
  have hafter := (h.insert hphase hcheck).sole
  have hrunning : isCommitted s.status i = false := by
    unfold isCommitted Toggles.status
    rw [hphase]
    rfl
  unfold Toggles.row
  rw [hstatus] at hafter ⊢
  refine row_congr h.sole hafter fun j o => ⟨?_, ?_⟩
  · rintro ⟨x, hx, hlive, ho⟩
    rcases Table.row_insert_eq_some.mp hx with ⟨_, rfl⟩ | hold
    · simp [live, visible, hrunning] at hlive
    · exact ⟨x, hold, hlive, ho⟩
  · rintro ⟨x, hx, hlive, ho⟩
    exact ⟨x, Table.row_insert_of_some _ hx, hlive, ho⟩

theorem committed_turn (b : Bool) : (s.turn i (.ok b)).status i = .committed := by
  rw [Toggles.status, Toggles.turn_phase_self]
  rfl

/-- The version that a call has inserted is the only one alive, and not live yet: the commit
makes it the row. -/
theorem TogglesTidy.row_commit_inserted {b : Bool} (h : TogglesTidy s)
    (hphase : s.phase i = .returned (some b)) (hafter : TogglesTidy (s.turn i (.ok true))) :
    s.row = none ∧ (s.turn i (.ok true)).row = some (some i) := by
  have hrunning : s.status i = .running := by
    rw [Toggles.status, hphase]
    rfl
  obtain ⟨k, v, hv, hinserted⟩ := h.inserts i (by rw [hphase]; rfl)
  have hdeleted : v.deleted = none := by
    cases hdeleted : v.deleted with
    | none => rfl
    | some j =>
      have hsettled := (h.deleted k v j hv hdeleted).2
      simp [settled, hinserted, isCommitted, hrunning] at hsettled
  have halive : alive s.status v = true := by
    simp [alive, hinserted, hdeleted, hrunning]
  constructor
  · refine (row_eq_none h.sole).mpr fun k' v' hv' => ?_
    by_contra hlive
    rw [Bool.not_eq_false] at hlive
    obtain rfl := h.sole k' k v' v hv' hv (alive_of_live hlive) halive
    obtain rfl := Option.some.inj (hv.symm.trans hv')
    simp [live, visible, hinserted, isCommitted, hrunning] at hlive
  · refine (row_eq_some hafter.sole).mpr ⟨k, v, hv, ?_, hinserted⟩
    simp [live, visible, hinserted, hdeleted, isCommitted, committed_turn]

/-- The version that a call has deleted was the row: after the commit there is none. -/
theorem TogglesTidy.row_commit_deleted (h : TogglesTidy s) (hphase : s.phase i = .returned none)
    (hafter : TogglesTidy (s.turn i (.ok false))) :
    (∃ o, s.row = some o) ∧ (s.turn i (.ok false)).row = none := by
  have hrunning : s.status i = .running := by
    rw [Toggles.status, hphase]
    rfl
  obtain ⟨k, v, hv, hdeleted⟩ := h.deletes i (by rw [hphase]; rfl)
  have hsettled := (h.deleted k v i hv hdeleted).2
  have hlive : live s.status v = true := by
    simp only [live, visible, Bool.and_eq_true]
    exact ⟨hsettled, by simp [hdeleted, isCommitted, hrunning]⟩
  refine ⟨⟨v.inserted, (row_eq_some h.sole).mpr ⟨k, v, hv, hlive, rfl⟩⟩, ?_⟩
  refine (row_eq_none hafter.sole).mpr fun k' v' hv' => ?_
  by_cases hk : k' = k
  · subst hk
    obtain rfl := Option.some.inj (hv.symm.trans hv')
    simp [live, visible, hdeleted, isCommitted, committed_turn]
  · -- no other version is alive
    by_contra hlive'
    rw [Bool.not_eq_false] at hlive'
    have halive := alive_of_ended (Toggles.status_turn (.inr hrunning)) (alive_of_live hlive')
    exact hk (h.sole k' k v' v hv' hv halive (alive_of_live hlive))

/-- A commit toggles the row, and the answer says how. -/
theorem TogglesTidy.row_commit {row : Option Bool} (h : TogglesTidy s)
    (hphase : s.phase i = .returned row) :
    row.isSome = s.row.isNone ∧ (s.turn i (.ok row.isSome)).row = toggled i s.row := by
  have hstep : s.next (.commit i) = some (s.turn i (.ok row.isSome)) := by
    simp only [Toggles.next, hphase]
  have hafter := h.next hstep
  cases row with
  | some b =>
    obtain ⟨hnone, hrow⟩ := h.row_commit_inserted hphase hafter
    rw [hnone]
    exact ⟨rfl, hrow⟩
  | none =>
    obtain ⟨⟨o, hsome⟩, hrow⟩ := h.row_commit_deleted hphase hafter
    rw [hsome]
    exact ⟨rfl, hrow⟩

/-- Only a commit changes the row. -/
theorem TogglesTidy.row_next (h : TogglesTidy s) (hstep : s.next l = some s') :
    s'.row = s.row ∨ ∃ i row, l = .commit i ∧ s.phase i = .returned row := by
  have hrunning : ∀ {i phase}, s.phase i = phase → phase.status ≠ .committed →
      s.status i ≠ .committed := by
    intro i phase hphase hne
    rw [Toggles.status, hphase]
    exact hne
  cases Toggles.does_of_next hstep with
  | start hphase => exact .inl (Toggles.row_turn (hrunning hphase (by decide)) (by exact nofun))
  | take hphase hrow hclaim => exact .inl (h.row_take hphase hrow hclaim)
  | pass hphase => exact .inl (Toggles.row_turn (hrunning hphase nofun) (by exact nofun))
  | removed hphase => exact .inl (Toggles.row_turn (hrunning hphase nofun) (by exact nofun))
  | absent hphase => exact .inl (Toggles.row_turn (hrunning hphase nofun) (by exact nofun))
  | insert hphase hcheck => exact .inl (h.row_insert hphase hcheck)
  | conflict hphase => exact .inl (Toggles.row_turn (hrunning hphase nofun) (by exact nofun))
  | commit hphase => exact .inr ⟨_, _, rfl, hphase⟩
  | fail hphase =>
    refine .inl (Toggles.row_turn ?_ (by exact nofun))
    rw [Toggles.status, running_status hphase]
    exact nofun

end Invariant

/-! ## The law -/

section Law

variable {s s' : Toggles ι} {l : ToggleLabel ι} {favorited : Bool} {order : List ι}
  {row : Option (Option ι)}

/-- A call that has returned stays as it is. -/
theorem Toggles.returned_stays {i : ι} (hstep : s.next l = some s')
    (hphase : (∃ b, s.phase i = .ok b) ∨ s.phase i = .err) : s'.phase i = s.phase i := by
  have hturn : ∀ {heap : Heap ι} {j : ι} {phase : TogglePhase}, (∀ b, s.phase j ≠ .ok b) →
      s.phase j ≠ .err → ({ s with heap := heap }.turn j phase).phase i = s.phase i := by
    intro heap j phase hok herr
    refine Toggles.turn_phase_of_ne ?_ phase
    rintro rfl
    rcases hphase with ⟨b, hb⟩ | hb
    · exact hok b hb
    · exact herr hb
  cases Toggles.does_of_next hstep with
  | start hj | pass hj | removed hj | absent hj | conflict hj | commit hj =>
    exact hturn (by rw [hj]; exact nofun) (by rw [hj]; exact nofun)
  | take hj | insert hj => exact hturn (by rw [hj]; exact nofun) (by rw [hj]; exact nofun)
  | fail hj =>
    refine hturn (fun b hb => ?_) fun hb => ?_
    · rw [hb] at hj
      cases hj
    · rw [hb] at hj
      cases hj

/-- A step that does not commit answers no call with `Ok`. -/
theorem Toggles.ok_of_next {i : ι} {b : Bool} (hstep : s.next l = some s')
    (hnot : ∀ j, l ≠ .commit j) : s'.phase i = .ok b ↔ s.phase i = .ok b := by
  refine ⟨fun hok => ?_, fun hok => ?_⟩
  · have hturn : ∀ {heap : Heap ι} {j : ι} {phase : TogglePhase}, phase ≠ .ok b →
        ({ s with heap := heap }.turn j phase).phase i = .ok b → s.phase i = .ok b := by
      intro heap j phase hne hi
      by_cases hij : i = j
      · subst hij
        rw [Toggles.turn_phase_self] at hi
        exact absurd hi hne
      · rwa [Toggles.turn_phase_of_ne hij] at hi
    cases Toggles.does_of_next hstep with
    | start | pass | removed | absent | conflict | take | insert | fail =>
      exact hturn (by exact nofun) hok
    | commit => exact absurd rfl (hnot _)
  · rw [Toggles.returned_stays hstep (.inl ⟨b, hok⟩)]
    exact hok

/-- The call that a step commits. -/
def ToggleLabel.commits : ToggleLabel ι → Option ι
  | .commit i => some i
  | _ => none

/-- The calls in the order of their commits. -/
def commitOrder (ls : List (ToggleLabel ι)) : List ι := ls.filterMap ToggleLabel.commits

omit [DecidableEq ι] in
theorem exists_mem_serial {i : ι} : ∀ {order : List ι} (row : Option (Option ι)),
    i ∈ order → ∃ b, (i, b) ∈ (serial row order).1
  | j :: order, row, h => by
    rcases List.mem_cons.mp h with rfl | hrest
    · exact ⟨_, List.mem_cons_self⟩
    · obtain ⟨b, hb⟩ := exists_mem_serial (toggled j row) hrest
      exact ⟨b, List.mem_cons_of_mem _ hb⟩

/-- A commit is the next toggle of the order. -/
theorem Linear.commit {i : ι} {returned : Option Bool} (h : Linear row order s)
    (htidy : TogglesTidy s) (hphase : s.phase i = .returned returned) :
    Linear row (order ++ [i]) (s.turn i (.ok returned.isSome)) := by
  obtain ⟨hanswer, hrow⟩ := htidy.row_commit hphase
  have hnew : i ∉ order := by
    intro hmem
    obtain ⟨b, hb⟩ := exists_mem_serial row hmem
    rw [(h.answers i b).mpr hb] at hphase
    cases hphase
  refine ⟨?_, fun j b => ?_, ?_⟩
  · rw [List.nodup_append]
    refine ⟨h.nodup, List.nodup_singleton i, fun j hj j' hj' => ?_⟩
    rw [List.mem_singleton.mp hj']
    rintro rfl
    exact hnew hj
  · rw [serial_snoc, List.mem_append, List.mem_singleton, ← h.row, ← hanswer]
    by_cases hj : j = i
    · subst hj
      rw [Toggles.turn_phase_self]
      constructor
      · intro heq
        cases heq
        exact .inr rfl
      · rintro (hold | heq)
        · exact absurd (mem_serial hold) hnew
        · rw [(Prod.mk.inj heq).2]
    · rw [Toggles.turn_phase_of_ne hj, h.answers j b]
      refine ⟨.inl, ?_⟩
      rintro (hold | heq)
      · exact hold
      · exact absurd (Prod.mk.inj heq).1 hj
  · rw [serial_snoc, ← h.row]
    exact hrow

theorem Linear.next (h : Linear row order s) (htidy : TogglesTidy s)
    (hstep : s.next l = some s') : Linear row (order ++ l.commits.toList) s' := by
  rcases htidy.row_next hstep with hrow | ⟨i, returned, rfl, hphase⟩
  · by_cases hcommit : ∃ i, l = .commit i
    · obtain ⟨i, rfl⟩ := hcommit
      cases Toggles.does_of_next hstep with
      | commit hphase => exact h.commit htidy hphase
    · have hnot : ∀ i, l ≠ .commit i := fun i hi => hcommit ⟨i, hi⟩
      have hnone : l.commits = none := by
        cases l with
        | commit i => exact absurd rfl (hnot i)
        | start | step | fail => rfl
      rw [hnone, Option.toList_none, List.append_nil]
      refine ⟨h.nodup, fun i b => ?_, hrow.trans h.row⟩
      rw [Toggles.ok_of_next hstep hnot, h.answers i b]
  · cases Toggles.does_of_next hstep with
    | commit hphase => exact h.commit htidy hphase

theorem Linear.run {ls : List (ToggleLabel ι)} (h : Linear row order s) (htidy : TogglesTidy s)
    (hrun : ToggleRun s ls s') : TogglesTidy s' ∧ Linear row (order ++ commitOrder ls) s' := by
  induction hrun generalizing order with
  | nil s =>
    rw [commitOrder, List.filterMap_nil, List.append_nil]
    exact ⟨htidy, h⟩
  | @cons s t s' l ls head _ ih =>
    have hsplit : order ++ commitOrder (l :: ls) = order ++ l.commits.toList ++ commitOrder ls := by
      rw [List.append_assoc, commitOrder, commitOrder, List.filterMap_cons]
      cases l.commits <;> rfl
    rw [hsplit]
    exact ih (h.next htidy head) (htidy.next head)

omit [DecidableEq ι] in
theorem init_tidy : TogglesTidy (Toggles.init favorited : Toggles ι) := by
  have hversion : ∀ {k v}, (Toggles.init favorited : Toggles ι).heap.row k = some v →
      k = 1 ∧ v = ⟨none, none⟩ := by
    intro k v hv
    cases favorited with
    | false => cases hv
    | true =>
      rcases Table.row_insert_eq_some.mp hv with ⟨hk, rfl⟩ | hold
      · exact ⟨hk, rfl⟩
      · cases hold
  refine ⟨?_, ?_, ?_, nofun, nofun, nofun⟩
  · intro k k' v v' hv hv' _ _
    rw [(hversion hv).1, (hversion hv').1]
  · intro k v i hv hi
    rw [(hversion hv).2] at hi
    cases hi
  · intro k v i hv hi
    rw [(hversion hv).2] at hi
    cases hi

/-- What holds in every run from a row that is there or not. -/
theorem linear_run {ls : List (ToggleLabel ι)}
    (hrun : ToggleRun (Toggles.init favorited : Toggles ι) ls s) :
    TogglesTidy s ∧
      Linear (Toggles.init favorited : Toggles ι).row (commitOrder ls) s := by
  have hstart : Linear (Toggles.init favorited : Toggles ι).row [] (Toggles.init favorited) :=
    ⟨List.nodup_nil, fun i b => ⟨nofun, nofun⟩, rfl⟩
  exact hstart.run init_tidy hrun

/-! ## A call that runs alone -/

theorem TogglesTidy.quiet (h : TogglesTidy s) (hstep : s.next l = some s')
    (hnot : ∀ i, l ≠ .commit i) : TogglesTidy s' ∧ s'.row = s.row := by
  refine ⟨h.next hstep, ?_⟩
  rcases h.row_next hstep with hrow | ⟨i, _, hl, _⟩
  · exact hrow
  · exact absurd hl (hnot i)

/-- No other call is under way: a version is deleted for good, or not at all. -/
theorem TogglesTidy.claim_alone {i : ι} {k : Nat} {v : Version ι} (h : TogglesTidy s)
    (hmay : (s.phase i).mayDelete = false) (halone : ∀ j, (s.phase j).running = false)
    (hv : s.heap.row k = some v) :
    claim s.status i v = if v.deleted.any (isCommitted s.status) then .pass else .take := by
  unfold claim
  cases hdeleted : v.deleted with
  | none => rfl
  | some j =>
    have hj := (h.deleted k v j hv hdeleted).1
    have hne : j ≠ i := by
      rintro rfl
      rw [hmay] at hj
      cases hj
    have hended : s.status j = .committed ∨ s.status j = .aborted := by
      have hrunning := halone j
      unfold Toggles.status
      cases hphase : s.phase j with
      | ok => exact .inl rfl
      | err => exact .inr rfl
      | idle | inserting =>
        rw [hphase] at hj
        cases hj
      | deleting | returned =>
        rw [hphase] at hrunning
        cases hrunning
    rcases hended with hstatus | hstatus <;> simp [hne, isCommitted, hstatus]

/-- No other call is under way and there is no row: the index lets an `INSERT` through. -/
theorem TogglesTidy.check_alone {i : ι} (h : TogglesTidy s)
    (hmay : (s.phase i).mayDelete = false) (halone : ∀ j, (s.phase j).running = false)
    (hnone : s.row = none) : checkAll s.status i s.heap = .dead := by
  have hdead : ∀ k v, s.heap.row k = some v → check s.status i v = .dead := by
    intro k v hv
    have hlive := (row_eq_none h.sole).mp hnone k v hv
    unfold check
    rw [h.claim_alone hmay halone hv]
    cases hinserted : v.inserted with
    | none =>
      have hdeleted : v.deleted.any (isCommitted s.status) = true := by
        simpa [live, visible, hinserted] using hlive
      simp [hdeleted]
    | some j =>
      have hj := h.inserted k v j hv hinserted
      have hrunning := halone j
      cases hphase : s.phase j with
      | idle | deleting | inserting =>
        rw [hphase] at hj
        cases hj
      | returned =>
        rw [hphase] at hrunning
        cases hrunning
      | err => simp [Toggles.status, TogglePhase.status, hphase]
      | ok b =>
        have hdeleted : v.deleted.any (isCommitted s.status) = true := by
          simpa [live, visible, hinserted, isCommitted, Toggles.status, TogglePhase.status,
            hphase] using hlive
        simp [hdeleted, Toggles.status, TogglePhase.status, hphase]
  have hany : ∀ c, c ≠ .dead → s.heap.any (fun _ v => check s.status i v == c) = false := by
    intro c hc
    rw [Table.any_eq_false_iff]
    intro k v hv
    rw [hdead k v hv]
    exact beq_eq_false_iff_ne.mpr (Ne.symm hc)
  unfold checkAll
  rw [hany .wait (by decide), hany .conflict (by decide)]
  rfl

omit [DecidableEq ι] in
/-- The snapshot of a statement shows the row, and nothing else. -/
theorem TogglesTidy.shown (h : TogglesTidy s) :
    (s.row = none ∧ (s.heap.select fun _ v => live s.status v) = []) ∨
      ∃ k v, s.row = some v.inserted ∧ s.heap.row k = some v ∧ live s.status v = true ∧
        (s.heap.select fun _ v => live s.status v) = [(k, v)] := by
  have hkeys := Table.pairwise_select s.heap fun _ v => live s.status v
  have hmem : ∀ x ∈ s.heap.select fun _ v => live s.status v,
      s.heap.row x.1 = some x.2 ∧ live s.status x.2 = true := fun x hx => Table.mem_select.mp hx
  rw [Toggles.row, Versions.row]
  generalize (s.heap.select fun _ v => live s.status v) = shown at hkeys hmem
  cases shown with
  | nil => exact .inl ⟨rfl, rfl⟩
  | cons x rest =>
    obtain ⟨hrow, hlive⟩ := hmem x List.mem_cons_self
    cases rest with
    | nil => exact .inr ⟨x.1, x.2, rfl, hrow, hlive, rfl⟩
    | cons y rest =>
      obtain ⟨hrow', hlive'⟩ := hmem y (by simp)
      have hsame := h.sole x.1 y.1 x.2 y.2 hrow hrow' (alive_of_live hlive) (alive_of_live hlive')
      have hlt := (List.pairwise_cons.mp hkeys).1 y List.mem_cons_self
      omega

theorem Toggles.next_start {i : ι} (hidle : s.phase i = .idle) :
    s.next (.start i) = some
      (s.turn i (.deleting ((s.heap.select fun _ v => live s.status v).map Prod.fst) false)) := by
  simp only [Toggles.next, hidle]

/-- The statements of a call that is alone and finds no row. -/
theorem TogglesTidy.alone_inserts {i : ι} (h : TogglesTidy s) (hidle : s.phase i = .idle)
    (halone : ∀ j, (s.phase j).running = false) (hnone : s.row = none)
    (hshown : (s.heap.select fun _ v => live s.status v) = []) :
    ∃ ls s', ToggleRun s ls s' ∧ TogglesTidy s' ∧ s'.row = s.row ∧
      s'.phase i = .returned (some true) := by
  have hstart := Toggles.next_start hidle
  rw [hshown, List.map_nil] at hstart
  obtain ⟨htidy₁, hrow₁⟩ := h.quiet hstart (fun _ hl => by cases hl)
  have habsent : (s.turn i (.deleting [] false)).next (.step i) = some (s.turn i .inserting) := by
    simp [Toggles.next, Toggles.step]
  obtain ⟨htidy₂, hrow₂⟩ := htidy₁.quiet habsent (fun _ hl => by cases hl)
  have hcheck : checkAll (s.turn i .inserting).status i (s.turn i .inserting).heap = .dead := by
    have hsame : (s.turn i .inserting).status = s.status :=
      Toggles.status_turn_running s.heap (by rw [hidle]; rfl) rfl
    exact hsame ▸ h.check_alone (by rw [hidle]; rfl) halone hnone
  have hinsert : (s.turn i .inserting).next (.step i) = some
      ({ s with heap := s.heap.insert ⟨some i, none⟩ }.turn i (.returned (some true))) := by
    simp only [Toggles.next, Toggles.step, Toggles.turn_phase_self, hcheck]
    simp [Toggles.turn]
  obtain ⟨htidy₃, hrow₃⟩ := htidy₂.quiet hinsert (fun _ hl => by cases hl)
  exact ⟨_, _, .cons hstart (.cons habsent (.cons hinsert (.nil _))), htidy₃,
    hrow₃.trans (hrow₂.trans hrow₁), Toggles.turn_phase_self ..⟩

/-- The statements of a call that is alone and finds the row. -/
theorem TogglesTidy.alone_deletes {i : ι} {k : Nat} {v : Version ι} (h : TogglesTidy s)
    (hidle : s.phase i = .idle) (halone : ∀ j, (s.phase j).running = false)
    (hv : s.heap.row k = some v) (hlive : live s.status v = true)
    (hshown : (s.heap.select fun _ v => live s.status v) = [(k, v)]) :
    ∃ ls s', ToggleRun s ls s' ∧ TogglesTidy s' ∧ s'.row = s.row ∧
      s'.phase i = .returned none := by
  have hstart := Toggles.next_start hidle
  rw [hshown, List.map_singleton] at hstart
  obtain ⟨htidy₁, hrow₁⟩ := h.quiet hstart (fun _ hl => by cases hl)
  have hclaim : claim (s.turn i (.deleting [k] false)).status i v = .take := by
    have hsame : (s.turn i (.deleting [k] false)).status = s.status :=
      Toggles.status_turn_running s.heap (by rw [hidle]; rfl) rfl
    rw [hsame, h.claim_alone (by rw [hidle]; rfl) halone hv]
    simp only [live, visible, Bool.and_eq_true, Bool.not_eq_true'] at hlive
    rw [hlive.2]
    rfl
  have htake : (s.turn i (.deleting [k] false)).next (.step i) =
      some ({ s with heap := delete i k s.heap }.turn i (.deleting [] true)) := by
    have hv' : (s.turn i (.deleting [k] false)).heap.row k = some v := hv
    simp only [Toggles.next, Toggles.step, Toggles.turn_phase_self, hv', Option.bind_some, hclaim]
    simp [Toggles.turn]
  obtain ⟨htidy₂, hrow₂⟩ := htidy₁.quiet htake (fun _ hl => by cases hl)
  have hremoved : ({ s with heap := delete i k s.heap }.turn i (.deleting [] true)).next
      (.step i) = some ({ s with heap := delete i k s.heap }.turn i (.returned none)) := by
    simp [Toggles.next, Toggles.step]
  obtain ⟨htidy₃, hrow₃⟩ := htidy₂.quiet hremoved (fun _ hl => by cases hl)
  exact ⟨_, _, .cons hstart (.cons htake (.cons hremoved (.nil _))), htidy₃,
    hrow₃.trans (hrow₂.trans hrow₁), Toggles.turn_phase_self ..⟩

/-- A call that runs while no other is under way toggles the row. -/
theorem toggle_alone {i : ι} (h : TogglesTidy s) (hidle : s.phase i = .idle)
    (halone : ∀ j, (s.phase j).running = false) :
    ∃ ls s', ToggleRun s ls s' ∧ s'.phase i = .ok s.row.isNone ∧ s'.row = toggled i s.row := by
  -- up to the commit
  have hreturned : ∃ ls s₁ returned, ToggleRun s ls s₁ ∧ TogglesTidy s₁ ∧ s₁.row = s.row ∧
      s₁.phase i = .returned returned := by
    rcases h.shown with ⟨hnone, hshown⟩ | ⟨k, v, _, hv, hlive, hshown⟩
    · obtain ⟨ls, s₁, h₁⟩ := h.alone_inserts hidle halone hnone hshown
      exact ⟨ls, s₁, _, h₁⟩
    · obtain ⟨ls, s₁, h₁⟩ := h.alone_deletes hidle halone hv hlive hshown
      exact ⟨ls, s₁, _, h₁⟩
  obtain ⟨ls, s₁, returned, hrun, htidy, hrow, hphase⟩ := hreturned
  obtain ⟨hanswer, hafter⟩ := htidy.row_commit hphase
  have hcommit : s₁.next (.commit i) = some (s₁.turn i (.ok returned.isSome)) := by
    simp only [Toggles.next, hphase]
  refine ⟨ls ++ [.commit i], _, hrun.append (.cons hcommit (.nil _)), ?_, ?_⟩
  · rw [Toggles.turn_phase_self, hanswer, hrow]
  · rw [hafter, hrow]

/-- In every run the calls that have returned `Ok` are toggles one after the other, in the
order of their commits: their answers alternate, and the row is the one that these toggles
leave.  A call changes nothing unless it commits and returns `Ok`, and one that has returned
does nothing more; a call that runs alone is such a toggle. -/
theorem toggles_linearise {ls : List (ToggleLabel ι)}
    (hrun : ToggleRun (Toggles.init favorited : Toggles ι) ls s) :
    Linear (Toggles.init favorited : Toggles ι).row (commitOrder ls) s ∧
      ((serial (Toggles.init favorited : Toggles ι).row (commitOrder ls)).1.map
        Prod.snd).IsChain (· ≠ ·) ∧
      (∀ l s', s.next l = some s' →
        (s'.row = s.row ∨ ∃ i b, l = .commit i ∧ s'.phase i = .ok b) ∧
          ∀ i, (∃ b, s.phase i = .ok b) ∨ s.phase i = .err → s'.phase i = s.phase i) ∧
      ∀ i, s.phase i = .idle → (∀ j, (s.phase j).running = false) →
        ∃ ls' s', ToggleRun s ls' s' ∧ s'.phase i = .ok s.row.isNone ∧
          s'.row = toggled i s.row := by
  obtain ⟨htidy, hlinear⟩ := linear_run hrun
  refine ⟨hlinear, serial_alternates .., fun l s' hstep => ⟨?_, fun i => ?_⟩, fun i => ?_⟩
  · rcases htidy.row_next hstep with hrow | ⟨i, returned, rfl, hphase⟩
    · exact .inl hrow
    · cases Toggles.does_of_next hstep with
      | commit => exact .inr ⟨i, _, rfl, Toggles.turn_phase_self ..⟩
  · exact Toggles.returned_stays hstep
  · exact toggle_alone htidy

end Law

/-! ## Three clicks at once -/

/-- All three statements begin while the row is there.  The first removes it; the other two
find it gone, and the second one's row makes the `INSERT` of the third fail. -/
def threeClicks : List (ToggleLabel (Fin 3)) :=
  [.start 0, .start 1, .start 2, .step 0, .step 0, .commit 0, .step 1, .step 2, .step 1,
    .step 2, .step 1, .commit 1, .step 2]

theorem toggles_linearise_threeClicks :
    ∃ s : Toggles (Fin 3), ToggleRun (Toggles.init true) threeClicks s ∧
      s.phase 0 = .ok false ∧ s.phase 1 = .ok true ∧ s.phase 2 = .err ∧
      Linear (some none) [0, 1] s := by
  have hend : (threeClicks.foldlM Toggles.next (Toggles.init true)).any (fun s =>
      decide (s.phase 0 = .ok false ∧ s.phase 1 = .ok true ∧ s.phase 2 = .err)) = true := by
    decide +kernel
  obtain ⟨s, hs, hphases⟩ := (Option.any_eq_true ..).mp hend
  obtain ⟨hfirst, hsecond, hthird⟩ := of_decide_eq_true hphases
  have hrun : ToggleRun (Toggles.init true) threeClicks s := Run.of_foldlM hs
  exact ⟨s, hrun, hfirst, hsecond, hthird, (toggles_linearise hrun).1⟩

end BikesNest.Community
