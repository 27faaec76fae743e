import BikesNest.Lib.Outline

/-!
# Latches

A latch is a property of the store that no call takes back.  In every run of the pool one
call at most shuts it, and some call has once it is shut (`Latched`).

`Service.Performs C m` says that `m` answers no value before one of its calls has moved
the store by `C`.  So two operations that cannot succeed without shutting the same latch
do not both succeed (`Latched.succeeds_once`).
-/

namespace Service

variable {σ ε ε' α β : Type} {R C : σ → σ → Prop}

/-- Every call of a service is a move by what it respects. -/
theorem Respects.writes {m : Service σ ε α} (hm : m.Respects R) :
    ∀ {found : List σ} {c : σ × σ}, c ∈ m.writes found → R c.1 c.2 := by
  induction m with
  | done r =>
    intro found c hc
    cases found <;> cases hc
  | call write next failed ih _ =>
    intro found c hc
    cases found with
    | nil => cases hc
    | cons s found =>
      rcases List.mem_cons.mp hc with rfl | hmem
      · exact hm.1 s
      · exact ih s (hm.2.1 s) hmem

/-- No value is answered before a call has moved the store by `C`. -/
def Performs (C : σ → σ → Prop) : Service σ ε α → Prop
  | .done (.ok _) => False
  | .done (.error _) => True
  | .call write next _ => ∀ s, C s (write s) ∨ (next s).Performs C

namespace Performs

theorem throw (e : ε) : (Service.throw e : Service σ ε α).Performs C := trivial

theorem request {unreachable : ε} {f : σ → Except ε (α × σ)}
    (h : ∀ s a t, f s = .ok (a, t) → C s t) : (Service.request unreachable f).Performs C := by
  intro s
  dsimp only
  cases hf : f s with
  | ok x => exact .inl (h s x.1 x.2 hf)
  | error e => exact .inr trivial

/-- The first part does it. -/
theorem bind {m : Service σ ε α} (k : α → Service σ ε β) (hm : m.Performs C) :
    (m >>= k).Performs C := by
  show (m.bind k).Performs C
  induction m with
  | done r =>
    cases r with
    | ok a => exact hm.elim
    | error e => trivial
  | call write next failed ih _ => exact fun s => (hm s).imp_right (ih s)

/-- The second part does it, whatever the first answers. -/
theorem after (m : Service σ ε α) {k : α → Service σ ε β} (hk : ∀ a, (k a).Performs C) :
    (m >>= k).Performs C := by
  show (m.bind k).Performs C
  induction m with
  | done r =>
    cases r with
    | ok a => exact hk a
    | error e => trivial
  | call write next failed ih _ => exact fun s => .inr (ih s)

theorem mapErr {m : Service σ ε α} {g : ε → ε'} (hm : m.Performs C) : (m.mapErr g).Performs C := by
  induction m with
  | done r =>
    cases r with
    | ok a => exact hm.elim
    | error e => trivial
  | call write next failed ih _ => exact fun s => (hm s).imp_right (ih s)

/-- One of the calls of a service that has answered a value is a move by `C`. -/
theorem writes {m : Service σ ε α} (hm : m.Performs C) :
    ∀ {found : List σ} {a : α}, m.resume found = .done (.ok a) →
      ∃ c ∈ m.writes found, C c.1 c.2 := by
  induction m with
  | done r =>
    intro found a h
    cases r with
    | ok b => exact hm.elim
    | error e => cases found <;> cases h
  | call write next failed ih _ =>
    intro found a h
    cases found with
    | nil => cases h
    | cons s found =>
      rw [resume_call_cons] at h
      rcases hm s with hC | hnext
      · exact ⟨(s, write s), List.mem_cons_self, hC⟩
      · obtain ⟨c, hc, hC⟩ := ih s hnext h
        exact ⟨c, List.mem_cons_of_mem _ hc, hC⟩

end Performs

end Service

namespace Threads

open Runs Service

variable {σ ε α κ : Type} {script : κ → Service σ ε α} {p p' : Pool σ ε α κ} {e : Event κ}
  {Shut : σ → Prop} {s₀ : σ}

/-- A call shuts the latch. -/
def Shutting (Shut : σ → Prop) (s s' : σ) : Prop := ¬ Shut s ∧ Shut s'

/-- A call of the thread has shut the latch. -/
def Thread.Shuts (script : κ → Service σ ε α) (Shut : σ → Prop) (t : Thread σ ε α κ) : Prop :=
  ∃ c ∈ t.calls script, Shutting Shut c.1 c.2

/-- The calls of a thread after a step of it. -/
theorem Move.calls {t t' : Thread σ ε α κ} {s : σ} (h : Move p t t' s)
    (ht : t.rest = (script t.op).resume (t.found.map Prod.snd) ∨ ∃ e, t.rest = Service.throw e) :
    s = p.store ∧ t'.calls script = t.calls script ∨
      t'.calls script = t.calls script ++ [(p.store, s)] := by
  cases h with
  | @answered op found write next failed | @applied op found write next failed =>
    have hcall : (script op).resume (found.map Prod.snd) = .call write next failed := by
      rcases ht with hsame | ⟨_, hthrow⟩
      · exact hsame.symm
      · cases hthrow
    right
    simp only [Thread.calls, List.map_append, List.map_singleton]
    exact writes_snoc p.store hcall
  | lost => exact .inl ⟨rfl, rfl⟩

/-- One call at most shuts the latch, and some call has once it is shut. -/
structure Latched (script : κ → Service σ ε α) (Shut : σ → Prop) (s₀ : σ)
    (p : Pool σ ε α κ) : Prop where
  traced : Traced script p
  unshut : ¬ Shut p.store → ∀ t ∈ p.threads, ¬ t.Shuts script Shut
  once : ∀ {i j : Nat} {t t' : Thread σ ε α κ}, p.threads[i]? = some t →
    p.threads[j]? = some t' → t.Shuts script Shut → t'.Shuts script Shut → i = j
  shut : Shut p.store → Shut s₀ ∨ ∃ t ∈ p.threads, t.Shuts script Shut

theorem Latched.start (hp : Latched script Shut s₀ p) {op : κ} (htraced : Traced script p')
    (hstore : p'.store = p.store) (hthreads : p'.threads = p.threads ++ [⟨op, [], script op⟩]) :
    Latched script Shut s₀ p' := by
  have hnew : ¬ (⟨op, [], script op⟩ : Thread σ ε α κ).Shuts script Shut := by
    rintro ⟨c, hc, _⟩
    rw [Thread.calls, List.map_nil, writes_nil] at hc
    cases hc
  have hold : ∀ {j : Nat} {t : Thread σ ε α κ}, p'.threads[j]? = some t →
      t.Shuts script Shut → p.threads[j]? = some t := by
    intro j t hj ht
    rw [hthreads, List.getElem?_append] at hj
    split at hj
    · exact hj
    · rw [List.mem_singleton.mp (List.mem_of_getElem? hj)] at ht
      exact absurd ht hnew
  refine ⟨htraced, fun hopen t ht hshuts => ?_, fun hi hj ht ht' => ?_, fun hshut => ?_⟩
  · obtain ⟨j, hj⟩ := List.mem_iff_getElem?.mp ht
    rw [hstore] at hopen
    exact hp.unshut hopen t (List.mem_of_getElem? (hold hj hshuts)) hshuts
  · exact hp.once (hold hi ht) (hold hj ht') ht ht'
  · rw [hstore] at hshut
    refine (hp.shut hshut).imp_right fun h => ?_
    obtain ⟨t, ht, hshuts⟩ := h
    refine ⟨t, ?_, hshuts⟩
    rw [hthreads]
    exact List.mem_append_left _ ht

/-- A call that leaves the latch where it is, for the threads that have shut it. -/
theorem Latched.keep (hp : Latched script Shut s₀ p) {i : Nat} {t t' : Thread σ ε α κ}
    (ht : p.threads[i]? = some t) (htraced : Traced script p')
    (hthreads : p'.threads = p.threads.set i t') (hstore : Shut p'.store ↔ Shut p.store)
    (hsame : t'.Shuts script Shut ↔ t.Shuts script Shut) : Latched script Shut s₀ p' := by
  have hold : ∀ {j : Nat} {u : Thread σ ε α κ}, p'.threads[j]? = some u →
      u.Shuts script Shut → ∃ v, p.threads[j]? = some v ∧ v.Shuts script Shut := by
    intro j u hj hu
    rw [hthreads, List.getElem?_set] at hj
    split at hj
    · rename_i hij
      subst hij
      split at hj
      · cases hj
        exact ⟨t, ht, hsame.mp hu⟩
      · cases hj
    · exact ⟨u, hj, hu⟩
  refine ⟨htraced, fun hopen u hu hshuts => ?_, fun hi hj hu hu' => ?_, fun hshut => ?_⟩
  · obtain ⟨j, hj⟩ := List.mem_iff_getElem?.mp hu
    obtain ⟨v, hv, hvshuts⟩ := hold hj hshuts
    exact hp.unshut (mt hstore.mpr hopen) v (List.mem_of_getElem? hv) hvshuts
  · obtain ⟨v, hv, hvshuts⟩ := hold hi hu
    obtain ⟨v', hv', hvshuts'⟩ := hold hj hu'
    exact hp.once hv hv' hvshuts hvshuts'
  · refine (hp.shut (hstore.mp hshut)).imp_right fun ⟨u, hu, hshuts⟩ => ?_
    obtain ⟨j, hj⟩ := List.mem_iff_getElem?.mp hu
    by_cases hij : i = j
    · subst hij
      obtain rfl := Option.some.inj (ht.symm.trans hj)
      refine ⟨t', ?_, hsame.mpr hshuts⟩
      rw [hthreads]
      exact List.mem_set (List.getElem?_eq_some_iff.mp ht).1 t'
    · rw [← List.getElem?_set_ne hij, ← hthreads] at hj
      exact ⟨u, List.mem_of_getElem? hj, hshuts⟩

/-- The call that shuts the latch is the first. -/
theorem Latched.turn (hp : Latched script Shut s₀ p) {i : Nat} {t t' : Thread σ ε α κ}
    (ht : p.threads[i]? = some t) (htraced : Traced script p')
    (hthreads : p'.threads = p.threads.set i t') (hopen : ¬ Shut p.store) (hshut : Shut p'.store)
    (hshuts : t'.Shuts script Shut) : Latched script Shut s₀ p' := by
  have hfirst : ∀ {j : Nat} {u : Thread σ ε α κ}, p'.threads[j]? = some u →
      u.Shuts script Shut → j = i := by
    intro j u hj hu
    rw [hthreads, List.getElem?_set] at hj
    split at hj
    · omega
    · exact absurd hu (hp.unshut hopen u (List.mem_of_getElem? hj))
  refine ⟨htraced, fun hopen' => absurd hshut hopen', fun hi hj hu hu' => ?_, fun _ => ?_⟩
  · rw [hfirst hi hu, hfirst hj hu']
  · refine .inr ⟨t', ?_, hshuts⟩
    rw [hthreads]
    exact List.mem_set (List.getElem?_eq_some_iff.mp ht).1 t'

theorem Latched.next (hstrict : ∀ op, (script op).Strict)
    (hlatch : ∀ op, (script op).Respects (Service.Stable Shut))
    (hp : Latched script Shut s₀ p) (h : p.next script e = some p') :
    Latched script Shut s₀ p' := by
  have htraced := Traced.next hstrict h hp.traced
  rcases next_cases h with ⟨op, _, hstore, hthreads⟩ | ⟨i, t, t', _, ht, hmove, hthreads⟩
  · exact hp.start htraced hstore hthreads
  · rcases hmove.calls (hp.traced t (List.mem_of_getElem? ht)) with ⟨hstore, hcalls⟩ | hcalls
    · refine hp.keep ht htraced hthreads (by rw [hstore]) ?_
      rw [Thread.Shuts, Thread.Shuts, hcalls]
    · have hstays : Shut p.store → Shut p'.store :=
        hmove.within (hp.traced.respects (List.mem_of_getElem? ht) (hlatch t.op))
      by_cases hshuts : Shutting Shut p.store p'.store
      · refine hp.turn ht htraced hthreads hshuts.1 hshuts.2 ⟨(p.store, p'.store), ?_, hshuts⟩
        rw [hcalls]
        exact List.mem_append_right _ List.mem_cons_self
      · have hback : Shut p'.store → Shut p.store := fun hshut => by
          by_contra hopen
          exact hshuts ⟨hopen, hshut⟩
        refine hp.keep ht htraced hthreads ⟨hback, hstays⟩ ?_
        simp only [Thread.Shuts, hcalls, List.mem_append, List.mem_singleton, or_and_right,
          exists_or, exists_eq_left, hshuts, or_false]

/-- In every run one call at most shuts the latch, and some call has once it is shut. -/
theorem latched_run (hstrict : ∀ op, (script op).Strict)
    (hlatch : ∀ op, (script op).Respects (Service.Stable Shut)) {es : List (Event κ)}
    (hrun : PoolRun script (Pool.init s₀) es p) : Latched script Shut s₀ p := by
  refine hrun.invariant (fun p e p' hp h => hp.next hstrict hlatch h)
    ⟨fun t ht => ?_, fun _ t ht => ?_, fun hi => ?_, fun hshut => .inl hshut⟩
  · cases ht
  · cases ht
  · cases hi

/-- An operation that succeeds only by shutting the latch has shut it. -/
theorem Latched.shuts (hp : Latched script Shut s₀ p) {t : Thread σ ε α κ} (ht : t ∈ p.threads)
    (hperforms : (script t.op).Performs (Shutting Shut)) {a : α}
    (hrest : t.rest = .done (.ok a)) : t.Shuts script Shut :=
  hperforms.writes (hp.traced.succeeded ht hrest)

/-- Two operations that succeed only by shutting the latch do not both succeed. -/
theorem Latched.succeeds_once (hp : Latched script Shut s₀ p) {i j : Nat}
    {t t' : Thread σ ε α κ} (ht : p.threads[i]? = some t) (ht' : p.threads[j]? = some t')
    (hperforms : (script t.op).Performs (Shutting Shut))
    (hperforms' : (script t'.op).Performs (Shutting Shut)) {a a' : α}
    (hrest : t.rest = .done (.ok a)) (hrest' : t'.rest = .done (.ok a')) : i = j :=
  hp.once ht ht' (hp.shuts (List.mem_of_getElem? ht) hperforms hrest)
    (hp.shuts (List.mem_of_getElem? ht') hperforms' hrest')

/-- Who has shut the latch is no operation whose calls leave it open. -/
theorem Thread.Shuts.not_respects {t : Thread σ ε α κ} (h : t.Shuts script Shut)
    (hopen : (script t.op).Respects fun s s' => Shut s' → Shut s) : False := by
  obtain ⟨c, hc, hbefore, hafter⟩ := h
  exact hbefore (hopen.writes hc hafter)

end Threads
