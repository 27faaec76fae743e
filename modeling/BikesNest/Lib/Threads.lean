import BikesNest.Lib.Run
import BikesNest.Lib.Service
import Mathlib.Data.List.Basic

/-!
# Threads that share a store

A pool is a store and a list of threads.  A thread runs one operation as a
service; each step of the pool is one call of one thread, so the calls of
different threads interleave freely.  A call can also be lost: the store then
took it or not, and the service goes on with its failure branch.

A thread keeps the stores that its calls found, each with the time of the call.
They determine what it will do next:

* `Service.resume m found` is the rest of `m` after calls that found these
  stores, and `Traced` says that every thread rests there or was lost.
* `Keeps script G I` is what a statement about the history has to survive, and
  `Keeps.run` carries it over a run.
* `Respects R m` says that every call of `m`, whatever store it meets, relates
  the store before and after by `R`.
-/

namespace Service

variable {σ ε ε' α β : Type}

/-- The rest of `m` after calls that found the stores. -/
def resume : Service σ ε α → List σ → Service σ ε α
  | m, [] => m
  | .done r, _ :: _ => .done r
  | .call _ next _, s :: found => (next s).resume found

@[simp] theorem resume_nil (m : Service σ ε α) : m.resume [] = m := by
  cases m <;> rfl

@[simp] theorem resume_call_cons (write : σ → σ) (next : σ → Service σ ε α)
    (failed : Service σ ε α) (s : σ) (found : List σ) :
    (call write next failed).resume (s :: found) = (next s).resume found := rfl

@[simp] theorem resume_done (r : Except ε α) (found : List σ) :
    (done r : Service σ ε α).resume found = done r := by
  cases found <;> rfl

/-- One more call goes on from the rest. -/
theorem resume_append (found : List σ) (s : σ) :
    ∀ m : Service σ ε α, m.resume (found ++ [s]) = (m.resume found).resume [s] := by
  induction found with
  | nil =>
    intro m
    rw [List.nil_append, resume_nil]
  | cons t found ih =>
    intro m
    cases m with
    | done r => simp
    | call write next failed =>
      rw [List.cons_append, resume_call_cons, resume_call_cons]
      exact ih (next t)

/-- The rest of a sequence whose first call has found `s`. -/
theorem resume_request (unreachable : ε) (f : σ → Except ε (α × σ)) (k : α → Service σ ε β)
    (s : σ) (found : List σ) :
    (request unreachable f >>= k).resume (s :: found) =
      match f s with
      | .ok (a, _) => (k a).resume found
      | .error e => throw e := by
  show ((match f s with
    | .ok (a, _) => Pure.pure a
    | .error e => throw e : Service σ ε α) >>= k).resume found = _
  split
  · rfl
  · exact resume_done ..

theorem resume_query (unreachable : ε) (f : σ → α) (k : α → Service σ ε β) (s : σ)
    (found : List σ) :
    (query unreachable f >>= k).resume (s :: found) = (k (f s)).resume found := rfl

/-- The rest of a strict service is strict. -/
theorem Strict.resume {m : Service σ ε α} (h : m.Strict) (found : List σ) :
    (m.resume found).Strict := by
  induction found generalizing m with
  | nil =>
    rw [resume_nil]
    exact h
  | cons s found ih =>
    cases m with
    | done r => exact h
    | call write next failed => exact ih (h.2 s)

/-- Every call of `m` stays within `R`. -/
def Respects (R : σ → σ → Prop) : Service σ ε α → Prop
  | .done _ => True
  | .call write next failed =>
    (∀ s, R s (write s)) ∧ (∀ s, (next s).Respects R) ∧ failed.Respects R

namespace Respects

variable {R : σ → σ → Prop}

theorem pure (a : α) : (Pure.pure a : Service σ ε α).Respects R := trivial

theorem throw (e : ε) : (Service.throw e : Service σ ε α).Respects R := trivial

theorem require (c : Bool) (e : ε) :
    (Service.require c e : Service σ ε Unit).Respects R := by
  cases c <;> trivial

theorem request {unreachable : ε} {f : σ → Except ε (α × σ)} (hrefl : ∀ s, R s s)
    (h : ∀ s a s', f s = .ok (a, s') → R s s') : (Service.request unreachable f).Respects R := by
  refine ⟨fun s => ?_, fun s => ?_, trivial⟩
  · dsimp only
    split
    · rename_i a s' hf
      exact h s a s' hf
    · exact hrefl s
  · dsimp only
    split <;> trivial

theorem query (unreachable : ε) (f : σ → α) (hrefl : ∀ s, R s s) :
    (Service.query unreachable f).Respects R :=
  ⟨hrefl, fun _ => trivial, trivial⟩

theorem execute (unreachable : ε) {f : σ → σ} (h : ∀ s, R s (f s)) :
    (Service.execute unreachable f).Respects R :=
  ⟨h, fun _ => trivial, trivial⟩

theorem bind {m : Service σ ε α} {k : α → Service σ ε β} (hm : m.Respects R)
    (hk : ∀ a, (k a).Respects R) : (m >>= k).Respects R := by
  show (m.bind k).Respects R
  induction m with
  | done r =>
    cases r with
    | ok a => exact hk a
    | error e => trivial
  | call write next failed ih ihf =>
    exact ⟨hm.1, fun s => ih s (hm.2.1 s), ihf hm.2.2⟩

theorem mono {R' : σ → σ → Prop} (h : ∀ s s', R s s' → R' s s') {m : Service σ ε α}
    (hm : m.Respects R) : m.Respects R' := by
  induction m with
  | done r => trivial
  | call write next failed ih ihf =>
    exact ⟨fun s => h _ _ (hm.1 s), fun s => ih s (hm.2.1 s), ihf hm.2.2⟩

theorem attempt {m : Service σ ε α} (hm : m.Respects R) :
    (m.attempt : Service σ ε' (Except ε α)).Respects R := by
  induction m with
  | done r => trivial
  | call write next failed ih ihf => exact ⟨hm.1, fun s => ih s (hm.2.1 s), ihf hm.2.2⟩

theorem mapErr {g : ε → ε'} {m : Service σ ε α} (hm : m.Respects R) : (m.mapErr g).Respects R := by
  induction m with
  | done r => cases r <;> trivial
  | call write next failed ih ihf => exact ⟨hm.1, fun s => ih s (hm.2.1 s), ihf hm.2.2⟩

theorem void {m : Service σ ε α} (hm : m.Respects R) : m.void.Respects R := by
  induction m with
  | done r => trivial
  | call write next failed ih ihf => exact ⟨hm.1, fun s => ih s (hm.2.1 s), ihf hm.2.2⟩

theorem zoom {τ : Type} {R' : τ → τ → Prop} {get : τ → σ} {set : τ → σ → τ}
    (h : ∀ t s', R (get t) s' → R' t (set t s')) {m : Service σ ε α} (hm : m.Respects R) :
    (m.zoom get set).Respects R' := by
  induction m with
  | done r => trivial
  | call write next failed ih ihf =>
    exact ⟨fun t => h t _ (hm.1 (get t)), fun t => ih (get t) (hm.2.1 (get t)), ihf hm.2.2⟩

/-- A run relates the store before and after, whichever call is lost. -/
theorem runLosing [IsPreorder σ R] {m : Service σ ε α} (hm : m.Respects R) (lost : Option Nat)
    (s : σ) : R s (m.runLosing lost s).2 := by
  have hrun : ∀ {m : Service σ ε α} {s : σ}, m.Respects R → R s (m.run s).2 := by
    intro m s hm
    induction m generalizing s with
    | done r => exact refl_of R s
    | call write next failed ih _ => exact trans_of R (hm.1 s) (ih s (hm.2.1 s))
  cases lost with
  | none => exact hrun hm
  | some n =>
    show R s (m.runFailing n s).2
    induction m generalizing n s with
    | done r => exact refl_of R s
    | call write next failed ih _ =>
      cases n with
      | zero => exact hrun hm.2.2
      | succ n => exact trans_of R (hm.1 s) (ih s (hm.2.1 s) (write s) n)

/-- The rest of a service stays within `R` too. -/
theorem resume {m : Service σ ε α} (h : m.Respects R) (found : List σ) :
    (m.resume found).Respects R := by
  induction found generalizing m with
  | nil =>
    rw [resume_nil]
    exact h
  | cons s found ih =>
    cases m with
    | done r => trivial
    | call write next failed => exact ih (h.2.1 s)

end Respects

end Service

namespace Threads

open Runs

variable {σ ε α κ : Type}

/-- An operation that runs. -/
structure Thread (σ ε α κ : Type) where
  op : κ
  /-- The stores that its calls found, each with the time of the call. -/
  found : List (Nat × σ)
  rest : Service σ ε α

structure Pool (σ ε α κ : Type) where
  /-- How many steps the pool has taken. -/
  time : Nat
  store : σ
  threads : List (Thread σ ε α κ)

inductive Event (κ : Type) where
  | start (op : κ)
  | answer (i : Nat)
  /-- The call of thread `i` fails; `applied` says whether the store took it. -/
  | lose (i : Nat) (applied : Bool)

/-- The pool after a call of thread `i`: the store the call leaves, and the rest of
the thread. -/
def Pool.called (p : Pool σ ε α κ) (i : Nat) (op : κ) (found : List (Nat × σ)) (store : σ)
    (rest : Service σ ε α) : Pool σ ε α κ where
  time := p.time + 1
  store := store
  threads := p.threads.set i ⟨op, found ++ [(p.time, p.store)], rest⟩

/-- One step; none when the event cannot happen. -/
def Pool.next (script : κ → Service σ ε α) (p : Pool σ ε α κ) : Event κ → Option (Pool σ ε α κ)
  | .start op =>
    some { p with time := p.time + 1, threads := p.threads ++ [⟨op, [], script op⟩] }
  | .answer i =>
    match p.threads[i]? with
    | some ⟨op, found, .call write next _⟩ =>
      some (p.called i op found (write p.store) (next p.store))
    | _ => none
  | .lose i applied =>
    match p.threads[i]? with
    | some ⟨op, found, .call write _ failed⟩ =>
      some (if applied then p.called i op found (write p.store) failed
        else { p with time := p.time + 1, threads := p.threads.set i ⟨op, found, failed⟩ })
    | _ => none

section Next

variable {script : κ → Service σ ε α} {p p' : Pool σ ε α κ} {i : Nat}

/-- A call that is answered. -/
theorem next_answer (h : p.next script (.answer i) = some p') :
    ∃ op found write next failed, p.threads[i]? = some ⟨op, found, .call write next failed⟩ ∧
      p' = p.called i op found (write p.store) (next p.store) := by
  simp only [Pool.next] at h
  split at h
  · cases h
    exact ⟨_, _, _, _, _, by assumption, rfl⟩
  · cases h

/-- A call that is lost, taken by the store or not. -/
theorem next_lose {applied : Bool} (h : p.next script (.lose i applied) = some p') :
    ∃ op found write next failed, p.threads[i]? = some ⟨op, found, .call write next failed⟩ ∧
      p' = if applied then p.called i op found (write p.store) failed
        else { p with time := p.time + 1, threads := p.threads.set i ⟨op, found, failed⟩ } := by
  simp only [Pool.next] at h
  split at h
  · cases h
    exact ⟨_, _, _, _, _, by assumption, rfl⟩
  · cases h

end Next

/-- A finite run of the pool. -/
abbrev PoolRun (script : κ → Service σ ε α) :
    Pool σ ε α κ → List (Event κ) → Pool σ ε α κ → Prop :=
  Run fun p e p' => p.next script e = some p'

/-- The pool before the first operation. -/
def Pool.init (s : σ) : Pool σ ε α κ := ⟨0, s, []⟩

/-! ## The history of a pool -/

/-- What the threads have found so far. -/
abbrev History (κ σ : Type) := List (κ × List (Nat × σ))

def Pool.history (p : Pool σ ε α κ) : History κ σ := p.threads.map fun t => (t.op, t.found)

/-- The thread whose call reaches the store. -/
def Event.calls : Event κ → Option Nat
  | .start _ => none
  | .answer i => some i
  | .lose i applied => if applied then some i else none

/-- Every thread rests where the stores it found have led it, unless a call was
lost and has ended it. -/
def Traced (script : κ → Service σ ε α) (p : Pool σ ε α κ) : Prop :=
  ∀ t ∈ p.threads, t.rest = (script t.op).resume (t.found.map Prod.snd) ∨
    ∃ e, t.rest = Service.throw e

/-- What a statement about the time, the store and the history has to survive:
a start, a step without effect, and a call that meets `G`. -/
structure Keeps (script : κ → Service σ ε α) (G : History κ σ → Nat → Prop)
    (I : Nat → σ → History κ σ → Prop) : Prop where
  start : ∀ {n s h} (op : κ), I n s h → I (n + 1) s (h ++ [(op, [])])
  idle : ∀ {n s h}, I n s h → I (n + 1) s h
  call : ∀ {n s h i op found write next failed}, I n s h → G h i → h[i]? = some (op, found) →
    (script op).resume (found.map Prod.snd) = .call write next failed →
    I (n + 1) (write s) (h.set i (op, found ++ [(n, s)]))

variable {script : κ → Service σ ε α} {G : History κ σ → Nat → Prop}
  {I : Nat → σ → History κ σ → Prop} {p p' : Pool σ ε α κ} {e : Event κ}

theorem getElem?_history {i : Nat} {t : Thread σ ε α κ} (h : p.threads[i]? = some t) :
    p.history[i]? = some (t.op, t.found) := by
  rw [Pool.history, List.getElem?_map, h]
  rfl

theorem history_called {i : Nat} {op : κ} {found : List (Nat × σ)} {store : σ}
    {rest : Service σ ε α} :
    (p.called i op found store rest).history =
      p.history.set i (op, found ++ [(p.time, p.store)]) := by
  simp [Pool.history, Pool.called, List.map_set]

/-- A thread that fails keeps its place in the history. -/
theorem history_failed {i : Nat} {op : κ} {found : List (Nat × σ)} {rest rest' : Service σ ε α}
    (h : p.threads[i]? = some ⟨op, found, rest⟩) :
    (p.threads.set i ⟨op, found, rest'⟩).map (fun t => (t.op, t.found)) = p.history := by
  rw [List.map_set]
  apply List.ext_getElem?
  intro j
  rw [List.getElem?_set]
  split
  · rename_i hij
    subst hij
    have hlt : i < (p.threads.map fun t => (t.op, t.found)).length := by
      rw [List.length_map]
      exact (List.getElem?_eq_some_iff.mp h).1
    rw [if_pos hlt, getElem?_history h]
  · rfl

/-- A rest that the stores found so far have led to, after one more. -/
theorem resume_snoc {m : Service σ ε α} {found : List (Nat × σ)} {write : σ → σ}
    {next : σ → Service σ ε α} {failed : Service σ ε α} (x : Nat × σ)
    (h : m.resume (found.map Prod.snd) = .call write next failed) :
    m.resume ((found ++ [x]).map Prod.snd) = next x.2 := by
  rw [List.map_append, List.map_singleton, Service.resume_append, h, Service.resume_call_cons,
    Service.resume_nil]

/-- A thread whose rest is a call got there by the stores it found. -/
theorem Traced.call (ht : Traced script p) {i : Nat} {op : κ} {found : List (Nat × σ)}
    {write : σ → σ} {next : σ → Service σ ε α} {failed : Service σ ε α}
    (h : p.threads[i]? = some ⟨op, found, .call write next failed⟩) :
    (script op).resume (found.map Prod.snd) = .call write next failed := by
  rcases ht _ (List.mem_of_getElem? h) with hrest | ⟨_, hrest⟩
  · exact hrest.symm
  · cases hrest

theorem Traced.set (ht : Traced script p) {i : Nat} {t : Thread σ ε α κ} {n : Nat} {store : σ}
    (hrest : t.rest = (script t.op).resume (t.found.map Prod.snd) ∨
      ∃ e, t.rest = Service.throw e) : Traced script ⟨n, store, p.threads.set i t⟩ := by
  intro t' ht'
  rcases List.mem_or_eq_of_mem_set ht' with hold | rfl
  · exact ht t' hold
  · exact hrest

/-- One guarded step of strict scripts keeps the statement. -/
theorem Keeps.next (hk : Keeps script G I) (hstrict : ∀ op, (script op).Strict)
    (hG : ∀ i, e.calls = some i → G p.history i) (h : p.next script e = some p')
    (ht : Traced script p) (hI : I p.time p.store p.history) :
    Traced script p' ∧ I p'.time p'.store p'.history := by
  cases e with
  | start op =>
    cases h
    refine ⟨fun t hmem => ?_, ?_⟩
    · rcases List.mem_append.mp hmem with hold | hnew
      · exact ht t hold
      · rw [List.mem_singleton.mp hnew]
        exact Or.inl (by simp)
    · simpa [Pool.history] using hk.start op hI
  | answer i =>
    obtain ⟨op, found, write, next, failed, hthread, rfl⟩ := next_answer h
    have hcall := ht.call hthread
    refine ⟨ht.set (Or.inl (resume_snoc (p.time, p.store) hcall).symm), ?_⟩
    rw [history_called]
    exact hk.call hI (hG i rfl) (getElem?_history hthread) hcall
  | lose i applied =>
    obtain ⟨op, found, write, next, failed, hthread, rfl⟩ := next_lose h
    have hcall := ht.call hthread
    have hstrict := (hstrict op).resume (found.map Prod.snd)
    rw [hcall] at hstrict
    obtain ⟨e, hfailed⟩ := hstrict.1
    cases applied with
    | true =>
      refine ⟨ht.set (Or.inr ⟨e, hfailed⟩), ?_⟩
      rw [if_pos rfl, history_called]
      exact hk.call hI (hG i rfl) (getElem?_history hthread) hcall
    | false =>
      refine ⟨ht.set (Or.inr ⟨e, hfailed⟩), ?_⟩
      show I (p.time + 1) p.store ((p.threads.set i _).map _)
      rw [history_failed hthread]
      exact hk.idle hI

/-- Every step of strict scripts leaves the threads where the stores have led them. -/
theorem Traced.next (hstrict : ∀ op, (script op).Strict) (h : p.next script e = some p')
    (ht : Traced script p) : Traced script p' := by
  have hk : Keeps script (fun _ _ => True) fun _ _ _ => True :=
    ⟨fun _ _ => trivial, fun _ => trivial, fun _ _ _ _ => trivial⟩
  exact (hk.next hstrict (fun _ _ => trivial) h ht trivial).1

/-- Every guarded run of strict scripts keeps the statement. -/
theorem Keeps.run (hk : Keeps script G I) (hstrict : ∀ op, (script op).Strict) {s : σ}
    (hI : I 0 s []) {ls : List (Event κ)}
    (hrun : Run (Guarded (fun p e => ∀ i, e.calls = some i → G p.history i)
      fun p e p' => p.next script e = some p') (Pool.init s) ls p) :
    Traced script p ∧ I p.time p.store p.history := by
  refine hrun.invariant (I := fun p => Traced script p ∧ I p.time p.store p.history) ?_ ⟨?_, hI⟩
  · rintro p e p' ⟨ht, hI⟩ ⟨hG, hstep⟩
    exact hk.next hstrict hG hstep ht hI
  · intro t hmem
    cases hmem

/-- An operation that has succeeded went all the way. -/
theorem Traced.succeeded (ht : Traced script p) {t : Thread σ ε α κ} (hmem : t ∈ p.threads)
    {a : α} (hrest : t.rest = .done (.ok a)) :
    (script t.op).resume (t.found.map Prod.snd) = .done (.ok a) := by
  rcases ht t hmem with hsame | ⟨e, hthrow⟩
  · rw [← hsame, hrest]
  · rw [hrest] at hthrow
    cases hthrow

end Threads
