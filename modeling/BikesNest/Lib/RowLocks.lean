import BikesNest.Lib.Run
import Mathlib.Data.List.AList
import Mathlib.Data.List.Nodup
import Mathlib.Logic.Function.Basic

/-!
# Row locks under READ COMMITTED

Transactions over one table of keyed rows.  A statement looks for the rows that
meet its condition as the transaction sees the table when the statement starts.
It then takes these rows one by one, in any order: it waits while another
transaction has the row locked, looks again, and passes over a row that is gone or
does not meet the condition any more.  A row that it takes stays locked until the
transaction ends.  `SELECT … FOR UPDATE`, `DELETE` and `UPDATE` are such statements;
they differ in what they do to the row.  Nothing is inserted.

`Step` is what the system can do next.  A transaction may fail at any time, also as
the victim of a deadlock.  `Tidy` says that pending writes are to locked rows that
are there, and `Scan` what a locking statement knows of the rows while it runs.
`Stage` follows a transaction that locks the rows of some keys and then rolls back
or leaves one of them in the table: whichever way such transactions interleave, one
of the rows stays (`Kept.step`).
-/

namespace RowLocks

variable {ι κ ρ ω : Type}

/-- What a statement does to a row that it takes. -/
inductive Action (ρ : Type) where
  | lock
  | delete
  | set (f : ρ → ρ)

/-- The write, if any: `some none` deletes the row. -/
def Action.write : Action ρ → ρ → Option (Option ρ)
  | .lock, _ => none
  | .delete, _ => some none
  | .set f, r => some (some (f r))

/-- A transaction: statements, each continued with the keys of its rows, and an
end. -/
inductive Script (κ ρ ω : Type) where
  | commit (answer : ω)
  | rollback (answer : ω)
  | statement (p : κ → ρ → Bool) (a : Action ρ) (next : List κ → Script κ ρ ω)

inductive Outcome (ω : Type) where
  | committed (answer : ω)
  | rolledBack (answer : ω)
  | failed
deriving DecidableEq

inductive Phase (κ ρ ω : Type) where
  | ready (script : Script κ ρ ω)
  | scanning (p : κ → ρ → Bool) (a : Action ρ) (next : List κ → Script κ ρ ω)
      (todo got : List κ)
  | ended (outcome : Outcome ω)

structure Transaction (κ ρ ω : Type) where
  phase : Phase κ ρ ω
  /-- The uncommitted writes. -/
  writes : κ → Option (Option ρ) := fun _ => none

structure System (ι κ ρ ω : Type) where
  keys : List κ
  rows : κ → Option ρ
  lock : κ → Option ι
  txs : ι → Transaction κ ρ ω

namespace System

/-- The row that a transaction sees under a key. -/
def seen (s : System ι κ ρ ω) (i : ι) (k : κ) : Option ρ :=
  ((s.txs i).writes k).getD (s.rows k)

variable [DecidableEq ι] [DecidableEq κ]

/-- A transaction goes on in another phase. -/
def turn (s : System ι κ ρ ω) (i : ι) (phase : Phase κ ρ ω) : System ι κ ρ ω :=
  { s with txs := Function.update s.txs i { phase, writes := (s.txs i).writes } }

/-- A transaction takes a row. -/
def take (s : System ι κ ρ ω) (i : ι) (k : κ) (write : Option (Option ρ)) (phase : Phase κ ρ ω) :
    System ι κ ρ ω :=
  { s with
    lock := Function.update s.lock k (some i)
    txs := Function.update s.txs i
      { phase
        writes := Function.update (s.txs i).writes k (write.or ((s.txs i).writes k)) } }

/-- A transaction ends, and its locks are free. -/
def close (s : System ι κ ρ ω) (i : ι) (rows : κ → Option ρ) (outcome : Outcome ω) :
    System ι κ ρ ω :=
  { s with
    rows
    lock := fun k => if s.lock k = some i then none else s.lock k
    txs := Function.update s.txs i { phase := .ended outcome } }

variable (s : System ι κ ρ ω) (i : ι) (k : κ) (phase : Phase κ ρ ω)
  (write : Option (Option ρ)) (rows : κ → Option ρ) (outcome : Outcome ω)

omit [DecidableEq κ] in
@[simp] theorem turn_phase : ((s.turn i phase).txs i).phase = phase := by
  simp [turn]

omit [DecidableEq κ] in
@[simp] theorem turn_writes : ((s.turn i phase).txs i).writes = (s.txs i).writes := by
  simp [turn]

@[simp] theorem take_phase : ((s.take i k write phase).txs i).phase = phase := by
  simp [take]

@[simp] theorem take_writes : ((s.take i k write phase).txs i).writes =
    Function.update (s.txs i).writes k (write.or ((s.txs i).writes k)) := by
  simp [take]

omit [DecidableEq κ] in
@[simp] theorem close_phase : ((s.close i rows outcome).txs i).phase = .ended outcome := by
  simp [close]

omit [DecidableEq κ] in
@[simp] theorem close_writes : ((s.close i rows outcome).txs i).writes = fun _ => none := by
  simp [close]

end System

inductive Label (ι κ : Type) where
  | start (i : ι)
  | row (i : ι) (k : κ)
  | proceed (i : ι)
  | finish (i : ι)
  | fail (i : ι)

variable [DecidableEq ι] [DecidableEq κ]

/-- What the system can do next. -/
inductive Step (s : System ι κ ρ ω) : Label ι κ → System ι κ ρ ω → Prop where
  | start {i : ι} {p : κ → ρ → Bool} {a : Action ρ} {next : List κ → Script κ ρ ω}
      (hphase : (s.txs i).phase = .ready (.statement p a next)) :
      Step s (.start i)
        (s.turn i (.scanning p a next (s.keys.filter fun k => (s.seen i k).any (p k)) []))
  | take {i : ι} {p : κ → ρ → Bool} {a : Action ρ} {next : List κ → Script κ ρ ω}
      {todo got : List κ} {k : κ} {r : ρ}
      (hphase : (s.txs i).phase = .scanning p a next todo got) (hk : k ∈ todo)
      (hfree : s.lock k = none ∨ s.lock k = some i) (hseen : s.seen i k = some r)
      (hp : p k r = true) :
      Step s (.row i k)
        (s.take i k (a.write r) (.scanning p a next (todo.erase k) (got ++ [k])))
  | pass {i : ι} {p : κ → ρ → Bool} {a : Action ρ} {next : List κ → Script κ ρ ω}
      {todo got : List κ} {k : κ}
      (hphase : (s.txs i).phase = .scanning p a next todo got) (hk : k ∈ todo)
      (hfree : s.lock k = none ∨ s.lock k = some i) (hp : (s.seen i k).any (p k) = false) :
      Step s (.row i k) (s.turn i (.scanning p a next (todo.erase k) got))
  | proceed {i : ι} {p : κ → ρ → Bool} {a : Action ρ} {next : List κ → Script κ ρ ω}
      {got : List κ} (hphase : (s.txs i).phase = .scanning p a next [] got) :
      Step s (.proceed i) (s.turn i (.ready (next got)))
  | commit {i : ι} {answer : ω} (hphase : (s.txs i).phase = .ready (.commit answer)) :
      Step s (.finish i) (s.close i (s.seen i) (.committed answer))
  | rollback {i : ι} {answer : ω} (hphase : (s.txs i).phase = .ready (.rollback answer)) :
      Step s (.finish i) (s.close i s.rows (.rolledBack answer))
  | fail (i : ι) (hphase : ∀ outcome, (s.txs i).phase ≠ .ended outcome) :
      Step s (.fail i) (s.close i s.rows .failed)

/-- The transaction that takes the step. -/
def Label.actor : Label ι κ → ι
  | .start i | .row i _ | .proceed i | .finish i | .fail i => i

/-! ## What a step leaves alone -/

section Others

variable {s s' : System ι κ ρ ω} {l : Label ι κ} {i j : ι} {k : κ}

theorem Step.txs_other (h : Step s l s') (hj : j ≠ l.actor) : s'.txs j = s.txs j := by
  cases h with
  | start => exact Function.update_of_ne hj _ _
  | take => exact Function.update_of_ne hj _ _
  | pass => exact Function.update_of_ne hj _ _
  | proceed => exact Function.update_of_ne hj _ _
  | commit => exact Function.update_of_ne hj _ _
  | rollback => exact Function.update_of_ne hj _ _
  | fail => exact Function.update_of_ne hj _ _

omit [DecidableEq κ] in
/-- Freeing the locks of `i` leaves those of `j`. -/
theorem lock_freed_other (hj : j ≠ i) :
    (if s.lock k = some i then none else s.lock k) = some j ↔ s.lock k = some j := by
  by_cases hlock : s.lock k = some i
  · have hne : some i ≠ some j := fun h => hj (Option.some.inj h).symm
    simp [hlock, hne]
  · rw [if_neg hlock]

theorem Step.lock_other (h : Step s l s') (hj : j ≠ l.actor) :
    s'.lock k = some j ↔ s.lock k = some j := by
  cases h with
  | start => exact Iff.rfl
  | @take i p a next todo got k' r hphase hk hfree hseen hp =>
    have hne : some i ≠ some j := fun h => hj (Option.some.inj h).symm
    show Function.update s.lock k' (some i) k = some j ↔ _
    by_cases heq : k = k'
    · have hlock : s.lock k' ≠ some j := by
        intro hlock
        rw [hlock] at hfree
        simp [hne.symm] at hfree
      rw [heq, Function.update_self]
      exact ⟨fun h => absurd h hne, fun h => absurd h hlock⟩
    · rw [Function.update_of_ne heq]
  | pass => exact Iff.rfl
  | proceed => exact Iff.rfl
  | commit => exact lock_freed_other hj
  | rollback => exact lock_freed_other hj
  | fail => exact lock_freed_other hj

theorem Step.keys_eq (h : Step s l s') : s'.keys = s.keys := by
  cases h <;> rfl

end Others

/-! ## What holds of every table -/

/-- Pending writes are to rows that are there and that their transaction has locked,
and the keys are listed once each. -/
structure Tidy (s : System ι κ ρ ω) : Prop where
  nodup : s.keys.Nodup
  listed : ∀ k, (s.rows k).isSome = true → k ∈ s.keys
  held : ∀ i k, ((s.txs i).writes k).isSome = true → s.lock k = some i
  there : ∀ i k, ((s.txs i).writes k).isSome = true → (s.rows k).isSome = true

section Tidy

variable {s s' : System ι κ ρ ω} {l : Label ι κ} {i j : ι} {k : κ}

omit [DecidableEq ι] [DecidableEq κ] in
theorem Tidy.of_seen (h : Tidy s) (hseen : (s.seen i k).isSome = true) :
    (s.rows k).isSome = true := by
  unfold System.seen at hseen
  cases hw : (s.txs i).writes k with
  | none => rwa [hw] at hseen
  | some w => exact h.there i k (by rw [hw]; rfl)

omit [DecidableEq ι] [DecidableEq κ] in
/-- A transaction sees a row that another one has locked as it is in the table. -/
theorem Tidy.seen_other (h : Tidy s) (hlock : s.lock k = some j) (hj : j ≠ i) :
    s.seen i k = s.rows k := by
  unfold System.seen
  cases hw : (s.txs i).writes k with
  | none => rfl
  | some w =>
    have hheld := h.held i k (by rw [hw]; rfl)
    rw [hlock] at hheld
    exact absurd (Option.some.inj hheld) hj

/-- No row comes into being. -/
theorem Step.rows_shrink (hstep : Step s l s') (h : Tidy s) (hk : (s'.rows k).isSome = true) :
    (s.rows k).isSome = true := by
  cases hstep with
  | start => exact hk
  | take => exact hk
  | pass => exact hk
  | proceed => exact hk
  | commit => exact h.of_seen hk
  | rollback => exact hk
  | fail => exact hk

/-- A row that another transaction has locked stays as it is. -/
theorem Step.rows_other (hstep : Step s l s') (h : Tidy s) (hlock : s.lock k = some j)
    (hj : j ≠ l.actor) : s'.rows k = s.rows k := by
  cases hstep with
  | start => rfl
  | take => rfl
  | pass => rfl
  | proceed => rfl
  | commit => exact h.seen_other hlock hj
  | rollback => rfl
  | fail => rfl

/-- Another transaction sees a row that it has locked as before. -/
theorem Step.seen_other (hstep : Step s l s') (h : Tidy s) (hlock : s.lock k = some j)
    (hj : j ≠ l.actor) : s'.seen j k = s.seen j k := by
  unfold System.seen
  rw [hstep.txs_other hj, hstep.rows_other h hlock hj]

/-- A write after a step is an old one, or that of the row taken. -/
theorem Step.writes_actor (hstep : Step s l s') (h : Tidy s)
    (hw : ((s'.txs l.actor).writes k).isSome = true) :
    s'.lock k = some l.actor ∧ (s'.rows k).isSome = true := by
  cases hstep with
  | start =>
    dsimp only [Label.actor] at hw
    rw [System.turn_writes] at hw
    exact ⟨h.held _ k hw, h.there _ k hw⟩
  | @take i p a next todo got k' r hphase hk hfree hseen hp =>
    dsimp only [Label.actor] at hw ⊢
    show Function.update s.lock k' (some i) k = some i ∧ (s.rows k).isSome = true
    rw [System.take_writes] at hw
    by_cases heq : k = k'
    · have hthere : (s.seen i k).isSome = true := by rw [heq, hseen]; rfl
      rw [heq, Function.update_self, ← heq]
      exact ⟨rfl, h.of_seen hthere⟩
    · rw [Function.update_of_ne heq] at hw
      rw [Function.update_of_ne heq]
      exact ⟨h.held i k hw, h.there i k hw⟩
  | pass =>
    dsimp only [Label.actor] at hw
    rw [System.turn_writes] at hw
    exact ⟨h.held _ k hw, h.there _ k hw⟩
  | proceed =>
    dsimp only [Label.actor] at hw
    rw [System.turn_writes] at hw
    exact ⟨h.held _ k hw, h.there _ k hw⟩
  | commit =>
    dsimp only [Label.actor] at hw
    rw [System.close_writes] at hw
    cases hw
  | rollback =>
    dsimp only [Label.actor] at hw
    rw [System.close_writes] at hw
    cases hw
  | fail =>
    dsimp only [Label.actor] at hw
    rw [System.close_writes] at hw
    cases hw

theorem Tidy.step (h : Tidy s) (hstep : Step s l s') : Tidy s' := by
  have hwrites : ∀ j k, ((s'.txs j).writes k).isSome = true →
      s'.lock k = some j ∧ (s'.rows k).isSome = true := by
    intro j k hw
    by_cases hj : j = l.actor
    · rw [hj] at hw ⊢
      exact hstep.writes_actor h hw
    · rw [hstep.txs_other hj] at hw
      have hheld := h.held j k hw
      rw [hstep.lock_other hj, hstep.rows_other h hheld hj]
      exact ⟨hheld, h.there j k hw⟩
  refine ⟨hstep.keys_eq ▸ h.nodup, fun k hk => ?_, fun j k hw => (hwrites j k hw).1,
    fun j k hw => (hwrites j k hw).2⟩
  rw [hstep.keys_eq]
  exact h.listed k (hstep.rows_shrink h hk)

end Tidy

/-! ## A statement that locks the rows of some keys -/

/-- What a transaction that has written nothing knows while it locks the rows whose
keys meet `q`: those it has are locked and there, and it has or has still to look at
every one that is there. -/
structure Scan (q : κ → Bool) (s : System ι κ ρ ω) (i : ι) (todo got : List κ) : Prop where
  clean : ∀ k, (s.txs i).writes k = none
  locked : ∀ k ∈ got, s.lock k = some i
  there : ∀ k ∈ got, q k = true ∧ (s.rows k).isSome = true
  covers : ∀ k, q k = true → (s.rows k).isSome = true → k ∈ todo ∨ k ∈ got
  nodup : (todo ++ got).Nodup

section Scan

variable {q : κ → Bool} {s s' : System ι κ ρ ω} {l : Label ι κ} {i : ι} {todo got : List κ}
  {k : κ} {phase : Phase κ ρ ω}

omit [DecidableEq ι] [DecidableEq κ] in
theorem Scan.seen_eq (h : Scan q s i todo got) (k : κ) : s.seen i k = s.rows k := by
  unfold System.seen
  rw [h.clean k]
  rfl

/-- The steps of others neither take its rows away nor add any. -/
theorem Scan.other (h : Scan q s i todo got) (ht : Tidy s) (hstep : Step s l s')
    (hi : i ≠ l.actor) : Scan q s' i todo got where
  clean k := by
    rw [hstep.txs_other hi]
    exact h.clean k
  locked k hk := (hstep.lock_other hi).mpr (h.locked k hk)
  there k hk := by
    rw [hstep.rows_other ht (h.locked k hk) hi]
    exact h.there k hk
  covers k hq hk := h.covers k hq (hstep.rows_shrink ht hk)
  nodup := h.nodup

omit [DecidableEq κ] in
/-- When it starts, it has every row to look at. -/
theorem Scan.start (ht : Tidy s) (hclean : ∀ k, (s.txs i).writes k = none) :
    Scan q (s.turn i phase) i (s.keys.filter fun k => (s.seen i k).any fun _ => q k) [] where
  clean k := by
    rw [System.turn_writes]
    exact hclean k
  locked k hk := by cases hk
  there k hk := by cases hk
  covers k hq hk := by
    have hseen : s.seen i k = s.rows k := by
      unfold System.seen
      rw [hclean k]
      rfl
    refine .inl (List.mem_filter.mpr ⟨ht.listed k hk, ?_⟩)
    obtain ⟨r, hr⟩ := Option.isSome_iff_exists.mp hk
    change s.rows k = some r at hr
    rw [hseen, hr]
    exact hq
  nodup := by
    rw [List.append_nil]
    exact ht.nodup.filter _

/-- The row that it looks at is there, and it takes it. -/
theorem Scan.take (h : Scan q s i todo got) (hk : k ∈ todo) (hthere : (s.rows k).isSome = true)
    (hq : q k = true) : Scan q (s.take i k none phase) i (todo.erase k) (got ++ [k]) where
  clean k' := by
    rw [System.take_writes, Option.none_or, Function.update_eq_self]
    exact h.clean k'
  locked k' hk' := by
    show Function.update s.lock k (some i) k' = some i
    by_cases heq : k' = k
    · rw [heq, Function.update_self]
    · rw [Function.update_of_ne heq]
      have hold : k' ∈ got := by simpa [heq] using hk'
      exact h.locked k' hold
  there k' hk' := by
    rcases List.mem_append.mp hk' with hold | hnew
    · exact h.there k' hold
    · rw [List.mem_singleton.mp hnew]
      exact ⟨hq, hthere⟩
  covers k' hq' hk' := by
    by_cases heq : k' = k
    · exact .inr (by simp [heq])
    · rcases h.covers k' hq' hk' with htodo | hgot
      · exact .inl ((List.mem_erase_of_ne heq).mpr htodo)
      · exact .inr (List.mem_append_left _ hgot)
  nodup := by
    have hperm : (todo.erase k ++ (got ++ [k])).Perm (todo ++ got) := by
      have hfront := (List.perm_cons_erase hk).symm.append_right got
      refine List.Perm.trans ?_ hfront
      rw [← List.append_assoc]
      exact List.perm_append_singleton k (todo.erase k ++ got)
    exact hperm.nodup_iff.mpr h.nodup

/-- The row that it looks at is gone. -/
theorem Scan.pass (h : Scan q s i todo got)
    (hp : ((s.seen i k).any fun _ => q k) = false) :
    Scan q (s.turn i phase) i (todo.erase k) got where
  clean k' := by
    rw [System.turn_writes]
    exact h.clean k'
  locked := h.locked
  there := h.there
  covers k' hq' hk' := by
    have hne : k' ≠ k := by
      intro heq
      obtain ⟨r, hr⟩ := Option.isSome_iff_exists.mp hk'
      change s.rows k' = some r at hr
      rw [← heq, h.seen_eq, hr] at hp
      change q k' = false at hp
      rw [hq'] at hp
      cases hp
    rcases h.covers k' hq' hk' with htodo | hgot
    · exact .inl ((List.mem_erase_of_ne hne).mpr htodo)
    · exact .inr hgot
  nodup := h.nodup.sublist (List.Sublist.append_right List.erase_sublist got)

end Scan

/-! ## A guarded deletion -/

/-- The script comes to a commit, whatever it finds, and deletes no row under `k`. -/
def Script.Spares (k : κ) : Script κ ρ ω → Prop
  | .commit _ => True
  | .rollback _ => False
  | .statement p a next => (∀ r, a.write r = some none → p k r = false) ∧
      ∀ got, (next got).Spares k

def Phase.Spares (k : κ) : Phase κ ρ ω → Prop
  | .ready script => script.Spares k
  | .scanning p a next _ _ => (Script.statement p a next).Spares k
  | .ended _ => False

/-- How far a transaction is that locks the rows whose keys meet `q`, and then goes
on with `body`. -/
inductive Stage (q : κ → Bool) (body : List κ → Script κ ρ ω) (s : System ι κ ρ ω) (i : ι) :
    Prop where
  | before (hphase : (s.txs i).phase = .ready (.statement (fun k _ => q k) .lock body))
      (clean : ∀ k, (s.txs i).writes k = none)
  | looking {todo got : List κ}
      (hphase : (s.txs i).phase = .scanning (fun k _ => q k) .lock body todo got)
      (scan : Scan q s i todo got)
  | refusing {got : List κ} {answer : ω} (hphase : (s.txs i).phase = .ready (.rollback answer))
      (hbody : body got = .rollback answer) (scan : Scan q s i [] got)
  | sparing {k : κ} (hq : q k = true) (hlock : s.lock k = some i)
      (hseen : (s.seen i k).isSome = true) (hphase : (s.txs i).phase.Spares k)
  | done {outcome : Outcome ω} (hphase : (s.txs i).phase = .ended outcome)

/-- With the rows at hand the transaction rolls back, or goes on and leaves one of
them. -/
def Careful (q : κ → Bool) (body : List κ → Script κ ρ ω) : Prop :=
  ∀ got, got ≠ [] → got.Nodup → (∀ k ∈ got, q k = true) →
    (∃ answer, body got = .rollback answer) ∨ ∃ k ∈ got, (body got).Spares k

section Stage

variable {q : κ → Bool} {body : List κ → Script κ ρ ω} {s s' : System ι κ ρ ω}
  {l : Label ι κ} {i : ι} {k : κ}

theorem Stage.other (h : Stage q body s i) (ht : Tidy s) (hstep : Step s l s')
    (hi : i ≠ l.actor) : Stage q body s' i := by
  have htx := hstep.txs_other hi
  cases h with
  | before hphase clean => exact .before (by rw [htx]; exact hphase) (by rw [htx]; exact clean)
  | looking hphase scan => exact .looking (by rw [htx]; exact hphase) (scan.other ht hstep hi)
  | refusing hphase hbody scan =>
    exact .refusing (by rw [htx]; exact hphase) hbody (scan.other ht hstep hi)
  | sparing hq hlock hseen hphase =>
    refine .sparing hq ((hstep.lock_other hi).mpr hlock) ?_ (by rw [htx]; exact hphase)
    rw [hstep.seen_other ht hlock hi]
    exact hseen
  | done hphase => exact .done (by rw [htx]; exact hphase)

omit [DecidableEq κ] in
theorem System.seen_turn (phase : Phase κ ρ ω) : (s.turn i phase).seen i k = s.seen i k := by
  unfold System.seen
  rw [System.turn_writes]
  rfl

/-- A row that is not deleted is seen on. -/
theorem System.seen_take {phase : Phase κ ρ ω} {write : Option (Option ρ)} {k' : κ}
    (hseen : (s.seen i k).isSome = true) (hwrite : k = k' → write ≠ some none) :
    ((s.take i k' write phase).seen i k).isSome = true := by
  unfold System.seen at hseen ⊢
  rw [System.take_writes]
  by_cases heq : k = k'
  · subst heq
    rw [Function.update_self]
    match write, hwrite rfl with
    | none, _ => exact hseen
    | some (some r), _ => rfl
    | some none, h => exact absurd rfl h
  · rw [Function.update_of_ne heq]
    exact hseen

/-- A transaction that spares a row goes on so, or it ends and the row is there. -/
theorem Step.sparing (hstep : Step s l s') (ht : Tidy s) (hlock : s.lock k = some l.actor)
    (hseen : (s.seen l.actor k).isSome = true) (hspares : (s.txs l.actor).phase.Spares k) :
    s'.lock k = some l.actor ∧ (s'.seen l.actor k).isSome = true ∧
        (s'.txs l.actor).phase.Spares k ∨
      (∃ outcome, (s'.txs l.actor).phase = .ended outcome) ∧ (s'.rows k).isSome = true := by
  cases hstep with
  | start hphase =>
    dsimp only [Label.actor] at hlock hseen hspares ⊢
    rw [hphase] at hspares
    rw [System.seen_turn, System.turn_phase]
    exact .inl ⟨hlock, hseen, hspares⟩
  | @take i p a next todo got k' r hphase hk hfree hrow hp =>
    dsimp only [Label.actor] at hlock hseen hspares ⊢
    rw [hphase] at hspares
    rw [System.take_phase]
    have hlock' : Function.update s.lock k' (some i) k = some i := by
      by_cases heq : k = k'
      · rw [heq, Function.update_self]
      · rw [Function.update_of_ne heq]
        exact hlock
    refine .inl ⟨hlock', System.seen_take hseen fun heq hdelete => ?_, hspares⟩
    have hnot := hspares.1 r hdelete
    rw [heq, hp] at hnot
    cases hnot
  | pass hphase =>
    dsimp only [Label.actor] at hlock hseen hspares ⊢
    rw [hphase] at hspares
    rw [System.seen_turn, System.turn_phase]
    exact .inl ⟨hlock, hseen, hspares⟩
  | proceed hphase =>
    dsimp only [Label.actor] at hlock hseen hspares ⊢
    rw [hphase] at hspares
    rw [System.seen_turn, System.turn_phase]
    exact .inl ⟨hlock, hseen, hspares.2 _⟩
  | commit => exact .inr ⟨⟨_, System.close_phase ..⟩, hseen⟩
  | rollback hphase =>
    dsimp only [Label.actor] at hspares
    rw [hphase] at hspares
    exact hspares.elim
  | fail => exact .inr ⟨⟨_, System.close_phase ..⟩, ht.of_seen hseen⟩

/-- What a transaction can do before a statement. -/
theorem Step.of_statement {p : κ → ρ → Bool} {a : Action ρ} {next : List κ → Script κ ρ ω}
    (hstep : Step s l s') (hphase : (s.txs l.actor).phase = .ready (.statement p a next)) :
    s' = s.turn l.actor
        (.scanning p a next (s.keys.filter fun k => (s.seen l.actor k).any (p k)) []) ∨
      s' = s.close l.actor s.rows .failed := by
  cases hstep with
  | start hnow =>
    dsimp only [Label.actor] at hphase ⊢
    cases hphase.symm.trans hnow
    exact .inl rfl
  | take hnow => cases hphase.symm.trans hnow
  | pass hnow => cases hphase.symm.trans hnow
  | proceed hnow => cases hphase.symm.trans hnow
  | commit hnow => cases hphase.symm.trans hnow
  | rollback hnow => cases hphase.symm.trans hnow
  | fail => exact .inr rfl

/-- What a transaction can do during a statement. -/
theorem Step.of_scanning {p : κ → ρ → Bool} {a : Action ρ} {next : List κ → Script κ ρ ω}
    {todo got : List κ} (hstep : Step s l s')
    (hphase : (s.txs l.actor).phase = .scanning p a next todo got) :
    (∃ k r, k ∈ todo ∧ s.seen l.actor k = some r ∧ p k r = true ∧
        s' = s.take l.actor k (a.write r) (.scanning p a next (todo.erase k) (got ++ [k]))) ∨
      (∃ k, (s.seen l.actor k).any (p k) = false ∧
        s' = s.turn l.actor (.scanning p a next (todo.erase k) got)) ∨
      (todo = [] ∧ s' = s.turn l.actor (.ready (next got))) ∨
      s' = s.close l.actor s.rows .failed := by
  cases hstep with
  | start hnow => cases hphase.symm.trans hnow
  | take hnow hk hfree hseen hp =>
    dsimp only [Label.actor] at hphase ⊢
    cases hphase.symm.trans hnow
    exact .inl ⟨_, _, hk, hseen, hp, rfl⟩
  | pass hnow hk hfree hp =>
    dsimp only [Label.actor] at hphase ⊢
    cases hphase.symm.trans hnow
    exact .inr (.inl ⟨_, hp, rfl⟩)
  | proceed hnow =>
    dsimp only [Label.actor] at hphase ⊢
    cases hphase.symm.trans hnow
    exact .inr (.inr (.inl ⟨rfl, rfl⟩))
  | commit hnow => cases hphase.symm.trans hnow
  | rollback hnow => cases hphase.symm.trans hnow
  | fail => exact .inr (.inr (.inr rfl))

/-- What a transaction can do that rolls back. -/
theorem Step.of_rollback {answer : ω} (hstep : Step s l s')
    (hphase : (s.txs l.actor).phase = .ready (.rollback answer)) :
    ∃ outcome, s' = s.close l.actor s.rows outcome := by
  cases hstep with
  | start hnow => cases hphase.symm.trans hnow
  | take hnow => cases hphase.symm.trans hnow
  | pass hnow => cases hphase.symm.trans hnow
  | proceed hnow => cases hphase.symm.trans hnow
  | commit hnow => cases hphase.symm.trans hnow
  | rollback => exact ⟨_, rfl⟩
  | fail => exact ⟨_, rfl⟩

/-- A transaction that has ended does nothing. -/
theorem Step.of_ended {outcome : Outcome ω} (hstep : Step s l s') :
    (s.txs l.actor).phase ≠ .ended outcome := by
  intro hphase
  cases hstep with
  | start hnow => cases hphase.symm.trans hnow
  | take hnow => cases hphase.symm.trans hnow
  | pass hnow => cases hphase.symm.trans hnow
  | proceed hnow => cases hphase.symm.trans hnow
  | commit hnow => cases hphase.symm.trans hnow
  | rollback hnow => cases hphase.symm.trans hnow
  | fail i hgoing => exact hgoing outcome hphase

/-- Only a rollback ends a transaction as one. -/
theorem Step.of_rolledBack {answer : ω} (hstep : Step s l s')
    (hended : (s'.txs l.actor).phase = .ended (.rolledBack answer)) :
    (s.txs l.actor).phase = .ready (.rollback answer) := by
  cases hstep with
  | start => cases (System.turn_phase ..).symm.trans hended
  | take => cases (System.take_phase ..).symm.trans hended
  | pass => cases (System.turn_phase ..).symm.trans hended
  | proceed => cases (System.turn_phase ..).symm.trans hended
  | commit => cases (System.close_phase ..).symm.trans hended
  | rollback hnow =>
    cases (System.close_phase ..).symm.trans hended
    exact hnow
  | fail => cases (System.close_phase ..).symm.trans hended

omit [DecidableEq ι] [DecidableEq κ] in
/-- The statement is over, and the transaction goes on with the rows that are there. -/
theorem Stage.of_scan {got : List κ} (hcareful : Careful q body)
    (hsome : ∃ k, q k = true ∧ (s.rows k).isSome = true) (scan : Scan q s i [] got)
    (hphase : (s.txs i).phase = .ready (body got)) : Stage q body s i := by
  have hne : got ≠ [] := by
    obtain ⟨k, hq, hk⟩ := hsome
    rcases scan.covers k hq hk with htodo | hgot
    · cases htodo
    · exact List.ne_nil_of_mem hgot
  rcases hcareful got hne scan.nodup fun k hk => (scan.there k hk).1 with
    ⟨answer, hbody⟩ | ⟨k, hk, hspares⟩
  · exact .refusing (hbody ▸ hphase) hbody scan
  · refine .sparing (scan.there k hk).1 (scan.locked k hk) ?_ (by rw [hphase]; exact hspares)
    rw [scan.seen_eq]
    exact (scan.there k hk).2

/-- When a row is there, the transaction that takes the step stays on its way. -/
theorem Stage.own (h : Stage q body s l.actor) (hcareful : Careful q body) (ht : Tidy s)
    (hsome : ∃ k, q k = true ∧ (s.rows k).isSome = true) (hstep : Step s l s') :
    Stage q body s' l.actor := by
  cases h with
  | before hphase clean =>
    rcases hstep.of_statement hphase with rfl | rfl
    · exact .looking (System.turn_phase ..) (Scan.start ht clean)
    · exact .done (System.close_phase ..)
  | @looking todo got hphase scan =>
    rcases hstep.of_scanning hphase with
      ⟨k, r, hk, hseen, hq, rfl⟩ | ⟨k, hp, rfl⟩ | ⟨rfl, rfl⟩ | rfl
    · have hthere : (s.rows k).isSome = true := by
        rw [← scan.seen_eq, hseen]
        rfl
      exact .looking (System.take_phase ..) (scan.take hk hthere hq)
    · exact .looking (System.turn_phase ..) (scan.pass hp)
    · have scan' : Scan q (s.turn l.actor (.ready (body got))) l.actor [] got :=
        { scan with clean := fun k => by rw [System.turn_writes]; exact scan.clean k }
      exact .of_scan hcareful hsome scan' (System.turn_phase ..)
    · exact .done (System.close_phase ..)
  | refusing hphase hbody scan =>
    obtain ⟨outcome, rfl⟩ := hstep.of_rollback hphase
    exact .done (System.close_phase ..)
  | sparing hq hlock hseen hphase =>
    rcases hstep.sparing ht hlock hseen hphase with ⟨hlock', hseen', hspares⟩ | ⟨⟨_, hended⟩, _⟩
    · exact .sparing hq hlock' hseen' hspares
    · exact .done hended
  | done hphase => exact absurd hphase hstep.of_ended

end Stage

/-! ## The invariant -/

/-- A row that meets `q` is there, and every transaction is on its way. -/
structure Kept (q : κ → Bool) (body : ι → List κ → Script κ ρ ω) (s : System ι κ ρ ω) :
    Prop where
  tidy : Tidy s
  some_row : ∃ k, q k = true ∧ (s.rows k).isSome = true
  stage : ∀ i, Stage q (body i) s i

section Kept

variable {q : κ → Bool} {body : ι → List κ → Script κ ρ ω} {s s' : System ι κ ρ ω}
  {l : Label ι κ} {i : ι}

/-- A commit leaves the row that its transaction spares. -/
theorem Kept.some_row_step (h : Kept q body s) (hstep : Step s l s') :
    ∃ k, q k = true ∧ (s'.rows k).isSome = true := by
  cases hstep with
  | start => exact h.some_row
  | take => exact h.some_row
  | pass => exact h.some_row
  | proceed => exact h.some_row
  | @commit i answer hnow =>
    cases h.stage i with
    | before hphase => cases hphase.symm.trans hnow
    | looking hphase => cases hphase.symm.trans hnow
    | refusing hphase => cases hphase.symm.trans hnow
    | sparing hq hlock hseen => exact ⟨_, hq, hseen⟩
    | done hphase => cases hphase.symm.trans hnow
  | rollback => exact h.some_row
  | fail => exact h.some_row

theorem Kept.step (hcareful : ∀ i, Careful q (body i)) (h : Kept q body s) (hstep : Step s l s') :
    Kept q body s' where
  tidy := h.tidy.step hstep
  some_row := h.some_row_step hstep
  stage i := by
    by_cases hi : i = l.actor
    · subst hi
      exact (h.stage l.actor).own (hcareful _) h.tidy h.some_row hstep
    · exact (h.stage i).other h.tidy hstep hi

/-- A transaction that rolls back has found exactly the rows that are there. -/
theorem Kept.rolledBack {answer : ω} (h : Kept q body s) (hstep : Step s l s')
    (hnow : (s.txs i).phase ≠ .ended (.rolledBack answer))
    (hended : (s'.txs i).phase = .ended (.rolledBack answer)) :
    ∃ got, body i got = .rollback answer ∧ Scan q s i [] got := by
  have hi : i = l.actor := by
    by_contra hne
    rw [hstep.txs_other hne] at hended
    exact hnow hended
  subst hi
  have hback := hstep.of_rolledBack hended
  cases h.stage l.actor with
  | before hphase => cases hphase.symm.trans hback
  | looking hphase => cases hphase.symm.trans hback
  | refusing hphase hbody scan =>
    cases hphase.symm.trans hback
    exact ⟨_, hbody, scan⟩
  | sparing hq hlock hseen hphase =>
    rw [hback] at hphase
    exact hphase.elim
  | done hphase => exact absurd hphase hstep.of_ended

end Kept

/-! ## Runs from a table -/

/-- A table on which every transaction has still to begin. -/
def System.begin (table : AList fun _ : κ => ρ) (script : ι → Script κ ρ ω) :
    System ι κ ρ ω where
  keys := table.keys
  rows k := table.lookup k
  lock _ := none
  txs i := { phase := .ready (script i) }

omit [DecidableEq ι] in
theorem Tidy.begin (table : AList fun _ : κ => ρ) (script : ι → Script κ ρ ω) :
    Tidy (System.begin table script) where
  nodup := table.keys_nodup
  listed k hk := AList.lookup_isSome.mp hk
  held i k hw := by cases hw
  there i k hw := by cases hw

/-- A row that is there in a later state was in the table. -/
theorem rows_of_begin {table : AList fun _ : κ => ρ} {script : ι → Script κ ρ ω}
    {ls : List (Label ι κ)} {s : System ι κ ρ ω} {k : κ}
    (hrun : Runs.Run Step (System.begin table script) ls s) (hk : (s.rows k).isSome = true) :
    k ∈ table := by
  have hinv : Tidy s ∧ ∀ k, (s.rows k).isSome = true → k ∈ table := by
    refine hrun.invariant (I := fun s => Tidy s ∧ ∀ k, (s.rows k).isSome = true → k ∈ table)
      ?_ ⟨Tidy.begin table script, fun k hk => AList.lookup_isSome.mp hk⟩
    intro s l s' h hstep
    exact ⟨h.1.step hstep, fun k hk => h.2 k (hstep.rows_shrink h.1 hk)⟩
  exact hinv.2 k hk

omit [DecidableEq ι] in
/-- Guarded deletions that start on a table with a row that meets `q`. -/
theorem Kept.begin {table : AList fun _ : κ => ρ} {script : ι → Script κ ρ ω} {q : κ → Bool}
    {body : ι → List κ → Script κ ρ ω}
    (hscript : ∀ i, script i = .statement (fun k _ => q k) .lock (body i))
    (hsome : ∃ k ∈ table, q k = true) : Kept q body (System.begin table script) where
  tidy := Tidy.begin table script
  some_row := by
    obtain ⟨k, hk, hq⟩ := hsome
    exact ⟨k, hq, AList.lookup_isSome.mpr hk⟩
  stage i := .before (congrArg Phase.ready (hscript i)) fun _ => rfl

/-! ## Running a schedule -/

/-- The state after a label, when it can be next. -/
def next (s : System ι κ ρ ω) : Label ι κ → Option (System ι κ ρ ω)
  | .start i =>
    match (s.txs i).phase with
    | .ready (.statement p a next) =>
      some (s.turn i (.scanning p a next (s.keys.filter fun k => (s.seen i k).any (p k)) []))
    | _ => none
  | .row i k =>
    match (s.txs i).phase with
    | .scanning p a next todo got =>
      if k ∈ todo ∧ (s.lock k = none ∨ s.lock k = some i) then
        match (s.seen i k).filter (p k) with
        | some r => some (s.take i k (a.write r) (.scanning p a next (todo.erase k) (got ++ [k])))
        | none => some (s.turn i (.scanning p a next (todo.erase k) got))
      else none
    | _ => none
  | .proceed i =>
    match (s.txs i).phase with
    | .scanning _ _ next [] got => some (s.turn i (.ready (next got)))
    | _ => none
  | .finish i =>
    match (s.txs i).phase with
    | .ready (.commit answer) => some (s.close i (s.seen i) (.committed answer))
    | .ready (.rollback answer) => some (s.close i s.rows (.rolledBack answer))
    | _ => none
  | .fail i =>
    match (s.txs i).phase with
    | .ended _ => none
    | _ => some (s.close i s.rows .failed)

theorem step_of_next {s s' : System ι κ ρ ω} {l : Label ι κ} (h : next s l = some s') :
    Step s l s' := by
  cases l with
  | start i =>
    simp only [next] at h
    split at h
    · next hphase =>
      cases h
      exact .start hphase
    · cases h
  | row i k =>
    simp only [next] at h
    split at h
    · next p a nxt todo got hphase =>
      split at h
      · next hfree =>
        split at h
        · next r hrow =>
          cases h
          obtain ⟨hseen, hp⟩ := Option.filter_eq_some_iff.mp hrow
          exact .take hphase hfree.1 hfree.2 hseen hp
        · next hrow =>
          cases h
          refine .pass hphase hfree.1 hfree.2 ?_
          cases hseen : s.seen i k with
          | none => rfl
          | some r =>
            rw [hseen] at hrow
            simpa using hrow
      · cases h
    · cases h
  | proceed i =>
    simp only [next] at h
    split at h
    · next hphase =>
      cases h
      exact .proceed hphase
    · cases h
  | finish i =>
    simp only [next] at h
    split at h
    · next hphase =>
      cases h
      exact .commit hphase
    · next hphase =>
      cases h
      exact .rollback hphase
    · cases h
  | fail i =>
    simp only [next] at h
    split at h
    · cases h
    · next hphase =>
      cases h
      exact .fail i hphase

end RowLocks
