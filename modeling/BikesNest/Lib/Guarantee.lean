import BikesNest.Lib.Outline

/-!
# Rely and guarantee

`Service.Guarantees R G Q m s` says of a service `m` that goes on from the store `s`, while
the other threads move the store by `R`: each of its calls moves the store by `G`, and its
result satisfies `Q`.  Any call may be lost.

When every operation of a pool guarantees what the others rely on, every step of the pool is
a move by the `G` of its operation, and every result satisfies its `Q` from then on
(`Threads.guarantee_run`).

`Service.Answers R Q m s` says the same of the result alone, when no call of the service is
lost; `Threads.answers_run` is its rule for the threads of a pool that lose no call.
-/

namespace Service

variable {σ ε ε' α β : Type}

def Guarantees (R G : σ → σ → Prop) (Q : Except ε α → σ → Prop) : Service σ ε α → σ → Prop
  | .done r, s => Q r s
  | .call write next failed, s => ∀ s', R s s' →
      G s' (write s') ∧ (next s').Guarantees R G Q (write s') ∧
      -- a lost call has reached the store or not
      failed.Guarantees R G Q s' ∧ failed.Guarantees R G Q (write s')

namespace Guarantees

variable {R G : σ → σ → Prop} {Q Q' : Except ε α → σ → Prop} {s s' : σ}

theorem pure {a : α} (h : Q (.ok a) s) : (Pure.pure a : Service σ ε α).Guarantees R G Q s := h

theorem throw {e : ε} (h : Q (.error e) s) : (Service.throw e : Service σ ε α).Guarantees R G Q s :=
  h

theorem require {Q : Except ε Unit → σ → Prop} {c : Bool} {e : ε} (hok : c = true → Q (.ok ()) s)
    (herror : c = false → Q (.error e) s) : (Service.require c e).Guarantees R G Q s := by
  cases c with
  | true => exact hok rfl
  | false => exact herror rfl

/-- One call: a transaction. -/
theorem request {unreachable : ε} {f : σ → Except ε (α × σ)}
    (hG : ∀ s', R s s' → G s' s')
    (hok : ∀ s' a t, R s s' → f s' = .ok (a, t) → G s' t ∧ Q (.ok a) t)
    (herror : ∀ s' e, R s s' → f s' = .error e → Q (.error e) s')
    (hlost : ∀ t, Q (.error unreachable) t) :
    (Service.request unreachable f).Guarantees R G Q s := by
  intro s' hs
  dsimp only
  cases hf : f s' with
  | ok x => exact ⟨(hok s' x.1 x.2 hs hf).1, (hok s' x.1 x.2 hs hf).2, hlost _, hlost _⟩
  | error e => exact ⟨hG s' hs, herror s' e hs hf, hlost _, hlost _⟩

/-- One call that only reads. -/
theorem query {unreachable : ε} {f : σ → α} (hG : ∀ s', R s s' → G s' s')
    (hok : ∀ s', R s s' → Q (.ok (f s')) s') (hlost : ∀ t, Q (.error unreachable) t) :
    (Service.query unreachable f).Guarantees R G Q s :=
  fun s' hs => ⟨hG s' hs, hok s' hs, hlost _, hlost _⟩

theorem mono (hQ : ∀ r s, Q r s → Q' r s) {m : Service σ ε α} (h : m.Guarantees R G Q s) :
    m.Guarantees R G Q' s := by
  induction m generalizing s with
  | done r => exact hQ r s h
  | call write next failed ih ihf =>
    intro s' hs
    obtain ⟨hG, hnext, hlost, happlied⟩ := h s' hs
    exact ⟨hG, ih s' hnext, ihf hlost, ihf happlied⟩

/-- The second part goes on where the first ends. -/
theorem bind {m : Service σ ε α} {k : α → Service σ ε β} {Q : Except ε β → σ → Prop}
    (h : m.Guarantees R G (fun r s => match r with
      | .ok a => (k a).Guarantees R G Q s
      | .error e => Q (.error e) s) s) :
    (m >>= k).Guarantees R G Q s := by
  show (m.bind k).Guarantees R G Q s
  induction m generalizing s with
  | done r => cases r <;> exact h
  | call write next failed ih ihf =>
    intro s' hs
    obtain ⟨hG, hnext, hlost, happlied⟩ := h s' hs
    exact ⟨hG, ih s' hnext, ihf hlost, ihf happlied⟩

theorem mapErr {m : Service σ ε α} {g : ε → ε'} {Q : Except ε' α → σ → Prop}
    (h : m.Guarantees R G (fun r s => match r with
      | .ok a => Q (.ok a) s
      | .error e => Q (.error (g e)) s) s) : (m.mapErr g).Guarantees R G Q s := by
  induction m generalizing s with
  | done r => cases r <;> exact h
  | call write next failed ih ihf =>
    intro s' hs
    obtain ⟨hG, hnext, hlost, happlied⟩ := h s' hs
    exact ⟨hG, ih s' hnext, ihf hlost, ihf happlied⟩

/-- A service whose calls are all moves by `G` guarantees `G`, whatever the others do. -/
theorem of_respects {m : Service σ ε α} (hm : m.Respects G) (hQ : ∀ r s, Q r s) :
    m.Guarantees R G Q s := by
  induction m generalizing s with
  | done r => exact hQ r s
  | call write next failed ih ihf =>
    exact fun s' _ => ⟨hm.1 s', ih s' (hm.2.1 s'), ihf hm.2.2, ihf hm.2.2⟩

/-- The other threads may move before the service does. -/
theorem rely [IsTrans σ R] (hQ : ∀ r s s', R s s' → Q r s → Q r s') {m : Service σ ε α}
    (h : m.Guarantees R G Q s) (hs : R s s') : m.Guarantees R G Q s' := by
  cases m with
  | done r => exact hQ r s s' hs h
  | call write next failed => exact fun s'' hs' => h s'' (trans_of R hs hs')

end Guarantees

/-- From the store `s`, while the other threads move it by `R`, the result satisfies `Q` if
every call is answered. -/
def Answers (R : σ → σ → Prop) (Q : Except ε α → σ → Prop) : Service σ ε α → σ → Prop
  | .done r, s => Q r s
  | .call write next _, s => ∀ s', R s s' → (next s').Answers R Q (write s')

namespace Answers

variable {R : σ → σ → Prop} {Q : Except ε α → σ → Prop} {s s' : σ}

theorem require {Q : Except ε β → σ → Prop} {k : Unit → Service σ ε β} {c : Bool} {e : ε}
    (hc : c = true) (h : (k ()).Answers R Q s) : (Service.require c e >>= k).Answers R Q s := by
  rw [hc]
  exact h

theorem query {Q : Except ε β → σ → Prop} {unreachable : ε} {f : σ → α} {k : α → Service σ ε β}
    (h : ∀ s', R s s' → (k (f s')).Answers R Q s') :
    (Service.query unreachable f >>= k).Answers R Q s := h

theorem request {unreachable : ε} {f : σ → Except ε (α × σ)}
    (hok : ∀ s' a t, R s s' → f s' = .ok (a, t) → Q (.ok a) t)
    (herror : ∀ s' e, R s s' → f s' = .error e → Q (.error e) s') :
    (Service.request unreachable f).Answers R Q s := by
  intro s' hs
  dsimp only
  cases hf : f s' with
  | ok x => exact hok s' x.1 x.2 hs hf
  | error e => exact herror s' e hs hf

theorem mono {Q' : Except ε α → σ → Prop} (hQ : ∀ r s, Q r s → Q' r s) {m : Service σ ε α}
    (h : m.Answers R Q s) : m.Answers R Q' s := by
  induction m generalizing s with
  | done r => exact hQ r s h
  | call write next failed ih _ => exact fun s' hs => ih s' (h s' hs)

/-- What holds of every result and store. -/
theorem of_forall (hQ : ∀ r s, Q r s) {m : Service σ ε α} : m.Answers R Q s := by
  induction m generalizing s with
  | done r => exact hQ r s
  | call write next failed ih _ => exact fun s' _ => ih s'

/-- The second part goes on where the first ends. -/
theorem bind {m : Service σ ε α} {k : α → Service σ ε β} {Q : Except ε β → σ → Prop}
    (h : m.Answers R (fun r s => match r with
      | .ok a => (k a).Answers R Q s
      | .error e => Q (.error e) s) s) :
    (m >>= k).Answers R Q s := by
  show (m.bind k).Answers R Q s
  induction m generalizing s with
  | done r => cases r <;> exact h
  | call write next failed ih _ => exact fun s' hs => ih s' (h s' hs)

theorem mapErr {P : σ → Prop} {m : Service σ ε α} (g : ε → ε')
    (h : m.Answers R (fun _ => P) s) : (m.mapErr g).Answers R (fun _ => P) s := by
  induction m generalizing s with
  | done r => cases r <;> exact h
  | call write next failed ih _ => exact fun s' hs => ih s' (h s' hs)

/-- What `R` keeps, a service whose calls are moves by `R` keeps. -/
theorem of_respects {P : σ → Prop} (hP : ∀ s s', R s s' → P s → P s') {m : Service σ ε α}
    (hm : m.Respects R) (h : P s) : m.Answers R (fun _ => P) s := by
  induction m generalizing s with
  | done r => exact h
  | call write next failed ih _ =>
    exact fun s' hs => ih s' (hm.2.1 s') (hP _ _ (hm.1 s') (hP _ _ hs h))

/-- The other threads may move before the service does. -/
theorem rely [IsTrans σ R] (hQ : ∀ r s s', R s s' → Q r s → Q r s') {m : Service σ ε α}
    (h : m.Answers R Q s) (hs : R s s') : m.Answers R Q s' := by
  cases m with
  | done r => exact hQ r s s' hs h
  | call write next failed => exact fun s'' hs' => h s'' (trans_of R hs hs')

end Answers

end Service

namespace Threads

open Runs Service

variable {σ ε α κ : Type} {script : κ → Service σ ε α} {p p' : Pool σ ε α κ} {e : Event κ}
  {R : σ → σ → Prop} {G : κ → σ → σ → Prop} {Q : κ → Except ε α → σ → Prop} {s₀ : σ}

/-- The store has moved by `R`, and every thread goes on to guarantee its `G`. -/
structure Guaranteed (R : σ → σ → Prop) (G : κ → σ → σ → Prop) (Q : κ → Except ε α → σ → Prop)
    (s₀ : σ) (p : Pool σ ε α κ) : Prop where
  store : R s₀ p.store
  threads : ∀ t ∈ p.threads, t.rest.Guarantees R (G t.op) (Q t.op) p.store

/-- A call of a thread is a move by its `G`, unless it is lost. -/
theorem Move.guaranteed [Std.Refl R] {t t' : Thread σ ε α κ} {s : σ} (h : Move p t t' s)
    (ht : t.rest.Guarantees R (G t.op) (Q t.op) p.store) :
    (s = p.store ∨ G t.op p.store s) ∧ t'.rest.Guarantees R (G t'.op) (Q t'.op) s := by
  cases h with
  | answered =>
    obtain ⟨hG, hnext, _, _⟩ := ht p.store (refl_of R _)
    exact ⟨.inr hG, hnext⟩
  | applied =>
    obtain ⟨hG, _, _, happlied⟩ := ht p.store (refl_of R _)
    exact ⟨.inr hG, happlied⟩
  | lost =>
    obtain ⟨_, _, hlost, _⟩ := ht p.store (refl_of R _)
    exact ⟨.inl rfl, hlost⟩

/-- The step is a call of a thread that moves the store by its `G`. -/
def MovedBy (G : κ → σ → σ → Prop) (p : Pool σ ε α κ) (e : Event κ) (s : σ) : Prop :=
  ∃ i t, e.on = some i ∧ p.threads[i]? = some t ∧ G t.op p.store s

section Step

variable [IsPreorder σ R] (hG : ∀ op s s', G op s s' → R s s')
  (hQ : ∀ op r s s', R s s' → Q op r s → Q op r s')
  (hop : ∀ op s, R s₀ s → (script op).Guarantees R (G op) (Q op) s)

include hG hQ hop

/-- A step of the pool leaves the store or moves it by the `G` of its thread. -/
theorem Guaranteed.next (hp : Guaranteed R G Q s₀ p) (h : p.next script e = some p') :
    (p'.store = p.store ∨ MovedBy G p e p'.store) ∧ Guaranteed R G Q s₀ p' := by
  rcases next_cases h with ⟨op, _, hstore, hthreads⟩ | ⟨i, t, t', hon, ht, hmove, hthreads⟩
  · refine ⟨.inl hstore, hstore ▸ hp.store, fun t ht => ?_⟩
    rw [hstore]
    rw [hthreads] at ht
    rcases List.mem_append.mp ht with hold | hnew
    · exact hp.threads t hold
    · rw [List.mem_singleton.mp hnew]
      exact hop op p.store hp.store
  · obtain ⟨hstep, hrest⟩ := hmove.guaranteed (hp.threads t (List.mem_of_getElem? ht))
    have hR : R p.store p'.store := by
      rcases hstep with hsame | hmoved
      · rw [hsame]
        exact refl_of R _
      · exact hG _ _ _ hmoved
    refine ⟨hstep.imp_right fun hmoved => ⟨i, t, hon, ht, hmoved⟩, trans_of R hp.store hR,
      fun u hu => ?_⟩
    rw [hthreads] at hu
    rcases List.mem_or_eq_of_mem_set hu with hold | rfl
    · exact (hp.threads u hold).rely (hQ u.op) hR
    · exact hrest

/-- A step moves the store by `R`. -/
theorem Guaranteed.moves (hp : Guaranteed R G Q s₀ p) (h : p.next script e = some p') :
    R p.store p'.store := by
  rcases (hp.next hG hQ hop h).1 with hsame | ⟨_, _, _, _, hmoved⟩
  · rw [hsame]
    exact refl_of R _
  · exact hG _ _ _ hmoved

/-- A run goes on from where it is by `R`. -/
theorem Guaranteed.run (hp : Guaranteed R G Q s₀ p) {es : List (Event κ)}
    (hrun : PoolRun script p es p') : R p.store p'.store ∧ Guaranteed R G Q s₀ p' := by
  refine hrun.invariant (I := fun q => R p.store q.store ∧ Guaranteed R G Q s₀ q)
    (fun q e q' hq h => ?_) ⟨refl_of R _, hp⟩
  exact ⟨trans_of R hq.1 (hq.2.moves hG hQ hop h), (hq.2.next hG hQ hop h).2⟩

/-- When every operation guarantees what the others rely on, so does every run. -/
theorem guarantee_run {es : List (Event κ)} (hrun : PoolRun script (Pool.init s₀) es p) :
    Guaranteed R G Q s₀ p := by
  have hinit : Guaranteed R G Q s₀ (Pool.init s₀ : Pool σ ε α κ) := by
    refine ⟨refl_of R s₀, fun t ht => ?_⟩
    cases ht
  exact (hinit.run hG hQ hop hrun).2

section Answers

variable {E : κ → Except ε α → σ → Prop} (hE : ∀ op r s s', R s s' → E op r s → E op r s')
  (hresult : ∀ op s, R s₀ s → (script op).Answers R (E op) s) {i : Nat}

include hE hresult

/-- A thread whose call is not lost goes on to answer as it should. -/
theorem Guaranteed.answers (hp : Guaranteed R G Q s₀ p) (h : p.next script e = some p')
    (hne : ∀ applied, e ≠ .lose i applied)
    (hi : ∀ t, p.threads[i]? = some t → t.rest.Answers R (E t.op) p.store)
    {t : Thread σ ε α κ} (ht : p'.threads[i]? = some t) : t.rest.Answers R (E t.op) p'.store := by
  have hR := hp.moves hG hQ hop h
  by_cases hon : e.on = some i
  · cases e with
    | start op => cases hon
    | lose k applied =>
      obtain rfl := Option.some.inj hon
      exact absurd rfl (hne applied)
    | answer k =>
      obtain rfl := Option.some.inj hon
      obtain ⟨op, found, write, next, failed, hcall, rfl⟩ := next_answer h
      have hlt := (List.getElem?_eq_some_iff.mp hcall).1
      change (p.threads.set k _)[k]? = some t at ht
      rw [List.getElem?_set_self hlt] at ht
      cases ht
      exact hi _ hcall p.store (refl_of R _)
  · rcases next_cases h with ⟨op, _, _, hthreads⟩ | ⟨j, u, u', hj, _, _, hthreads⟩
    · rw [hthreads, List.getElem?_append] at ht
      split at ht
      · exact (hi t ht).rely (hE t.op) hR
      · obtain rfl := List.mem_singleton.mp (List.mem_of_getElem? ht)
        exact hresult op p'.store (trans_of R hp.store hR)
    · have hij : j ≠ i := fun hij => hon (hij ▸ hj)
      rw [hthreads, List.getElem?_set_ne hij] at ht
      exact (hi t ht).rely (hE t.op) hR

/-- The result of a thread that has lost no call. -/
theorem answers_run {es : List (Event κ)} (hrun : PoolRun script (Pool.init s₀) es p)
    (hanswered : ∀ applied, .lose i applied ∉ es) {t : Thread σ ε α κ}
    (ht : p.threads[i]? = some t) {r : Except ε α} (hrest : t.rest = .done r) :
    E t.op r p.store := by
  have hguarded := hrun.guarded_of_forall (C := fun e => ∀ applied, e ≠ .lose i applied)
    fun e he applied hlose => hanswered applied (hlose ▸ he)
  have hkept : Guaranteed R G Q s₀ p ∧
      ∀ t, p.threads[i]? = some t → t.rest.Answers R (E t.op) p.store := by
    refine hguarded.invariant (I := fun p => Guaranteed R G Q s₀ p ∧
      ∀ t, p.threads[i]? = some t → t.rest.Answers R (E t.op) p.store) ?_
      ⟨⟨refl_of R s₀, nofun⟩, nofun⟩
    intro p e p' ⟨hp, hi⟩ ⟨hne, h⟩
    exact ⟨(hp.next hG hQ hop h).2, fun t ht => hp.answers hG hQ hop hE hresult h hne hi ht⟩
  have hend := hkept.2 t ht
  rwa [hrest] at hend

end Answers

end Step

/-- A result of a thread that is done. -/
theorem Guaranteed.result (hp : Guaranteed R G Q s₀ p) {t : Thread σ ε α κ} (ht : t ∈ p.threads)
    {r : Except ε α} (hrest : t.rest = .done r) : Q t.op r p.store := by
  have h := hp.threads t ht
  rwa [hrest] at h

end Threads
