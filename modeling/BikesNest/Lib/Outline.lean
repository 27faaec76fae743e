import BikesNest.Lib.Threads

/-!
# Proof outlines of a service among other threads

A service that shares its store with other threads is proved right by an outline:
an assertion for each place between two of its calls.  An assertion speaks of
the calls that have reached the store so far, each with the store before and
after it, and of the present store.

* `Service.Amid R E Q m` says that `m` ends as it should while the other threads move
  the store by `R` and any call is lost: with `Q` when it answers a value and with
  `E` when it fails.
* `Place R E P` is what an assertion needs: the other threads keep it, and the
  service may fail there.
* `Outline R E P m Q` is the triple, with one rule for each way to build a service.
* `Threads.outline_run` carries an outline over to a run of the pool.
-/

namespace Service

variable {σ ε ε' α β : Type}

/-- The store before and after each call of `m`, when the calls found the stores. -/
def writes : Service σ ε α → List σ → List (σ × σ)
  | _, [] => []
  | .done _, _ :: _ => []
  | .call write next _, s :: found => (s, write s) :: (next s).writes found

@[simp] theorem writes_nil (m : Service σ ε α) : m.writes [] = [] := by
  cases m <;> rfl

/-- The next call comes last. -/
theorem writes_snoc {write : σ → σ} {next : σ → Service σ ε α} {failed : Service σ ε α} (s : σ) :
    ∀ {found : List σ} {m : Service σ ε α}, m.resume found = .call write next failed →
      m.writes (found ++ [s]) = m.writes found ++ [(s, write s)]
  | [], m, h => by
    rw [resume_nil] at h
    subst h
    show (s, write s) :: (next s).writes [] = _
    rw [writes_nil, writes_nil]
    rfl
  | t :: found, m, h => by
    cases m with
    | done r => cases h
    | call write' next' failed' =>
      rw [resume_call_cons] at h
      show (t, write' t) :: (next' t).writes (found ++ [s]) = _
      rw [writes_snoc s h]
      rfl

/-- A request that found `s` comes first, and what follows it writes as the answer says. -/
theorem writes_request (unreachable : ε) (f : σ → Except ε (α × σ)) (k : α → Service σ ε β) (s : σ)
    (found : List σ) :
    (request unreachable f >>= k).writes (s :: found) =
      match f s with
      | .ok (a, t) => (s, t) :: (k a).writes found
      | .error _ => [(s, s)] := by
  show (s, match f s with
    | .ok (_, t) => t
    | .error _ => s) :: Service.writes ((match f s with
    | .ok (a, _) => Pure.pure a
    | .error e => throw e : Service σ ε α) >>= k) found = _
  split
  · rfl
  · congr 1
    cases found <;> rfl

theorem resume_mapErr (g : ε → ε') (found : List σ) :
    ∀ m : Service σ ε α, (m.mapErr g).resume found = (m.resume found).mapErr g := by
  induction found with
  | nil =>
    intro m
    rw [resume_nil, resume_nil]
  | cons s found ih =>
    intro m
    cases m with
    | done r => cases r <;> rfl
    | call write next failed => exact ih (next s)

theorem writes_mapErr (g : ε → ε') (found : List σ) :
    ∀ m : Service σ ε α, (m.mapErr g).writes found = m.writes found := by
  induction found with
  | nil =>
    intro m
    rw [writes_nil, writes_nil]
  | cons s found ih =>
    intro m
    cases m with
    | done r => cases r <;> rfl
    | call write next failed => exact congrArg ((s, write s) :: ·) (ih (next s))

/-- Only a value of the service is a value of it with other errors. -/
theorem mapErr_eq_ok {g : ε → ε'} {m : Service σ ε α} {a : α}
    (h : m.mapErr g = .done (.ok a)) : m = .done (.ok a) := by
  cases m with
  | done r =>
    cases r with
    | ok b =>
      cases h
      rfl
    | error e => cases h
  | call write next failed => cases h

/-- What is asserted of the calls so far and the present store. -/
abbrev Assertion (σ : Type) := List (σ × σ) → σ → Prop

/-- After `calls` and from the store `s`, the service ends with `Q` or fails with `E`,
while the other threads move the store by `R`. -/
def Amid (R : σ → σ → Prop) (E : Assertion σ) (Q : α → Assertion σ) :
    Service σ ε α → List (σ × σ) → σ → Prop
  | .done (.ok a), calls, s => ∀ s', R s s' → Q a calls s'
  | .done (.error _), calls, s => ∀ s', R s s' → E calls s'
  | .call write next failed, calls, s => ∀ s', R s s' →
      (next s').Amid R E Q (calls ++ [(s', write s')]) (write s') ∧
      -- a lost call has reached the store or not
      failed.Amid R E Q calls s' ∧
      failed.Amid R E Q (calls ++ [(s', write s')]) (write s')

section Amid

variable {R : σ → σ → Prop} {E : Assertion σ} {Q : α → Assertion σ}

/-- A place between two calls: the other threads keep the assertion, a call without
effect keeps it, and the service may fail there. -/
structure Place (R : σ → σ → Prop) (E P : Assertion σ) : Prop where
  stable : ∀ {calls s s'}, P calls s → R s s' → P calls s'
  idle : ∀ {calls s}, P calls s → P (calls ++ [(s, s)]) s
  fails : ∀ {calls s}, P calls s → E calls s

theorem Amid.throw {P : Assertion σ} (hP : Place R E P) (e : ε) {calls : List (σ × σ)} {s : σ}
    (h : P calls s) : (Service.throw e : Service σ ε α).Amid R E Q calls s :=
  fun _ hs => hP.fails (hP.stable h hs)

/-- The other threads may move before the service does. -/
theorem Amid.rely [IsTrans σ R] {m : Service σ ε α} {calls : List (σ × σ)} {s s' : σ}
    (h : m.Amid R E Q calls s) (hs : R s s') : m.Amid R E Q calls s' := by
  cases m with
  | done r =>
    cases r with
    | ok a => exact fun s'' hs' => h s'' (trans_of R hs hs')
    | error e => exact fun s'' hs' => h s'' (trans_of R hs hs')
  | call write next failed => exact fun s'' hs' => h s'' (trans_of R hs hs')

/-- From `P`, the service ends with `Q` or fails with `E`. -/
def Outline (R : σ → σ → Prop) (E P : Assertion σ) (m : Service σ ε α) (Q : α → Assertion σ) :
    Prop :=
  ∀ calls s, P calls s → m.Amid R E Q calls s

end Amid

namespace Outline

variable {R : σ → σ → Prop} {E P : Assertion σ}

theorem pure {Q : α → Assertion σ} {a : α}
    (hstable : ∀ {calls s s'}, P calls s → R s s' → P calls s') (h : ∀ calls s, P calls s → Q a calls s) :
    Outline R E P (Pure.pure a : Service σ ε α) Q :=
  fun calls _ hP s' hs => h calls s' (hstable hP hs)

theorem throw {Q : α → Assertion σ} (hP : Place R E P) (e : ε) :
    Outline R E P (Service.throw e : Service σ ε α) Q :=
  fun _ _ => Amid.throw hP e

theorem require (hP : Place R E P) (c : Bool) (e : ε) :
    Outline R E P (Service.require c e) fun _ => P := by
  cases c with
  | true => exact .pure hP.stable fun _ _ => id
  | false => exact .throw hP e

/-- A transaction that commits leads from one place to the next. -/
theorem request {P' : α → Assertion σ} (hP : Place R E P) (hP' : ∀ a, Place R E (P' a))
    {unreachable : ε} {f : σ → Except ε (α × σ)}
    (h : ∀ calls s a t, P calls s → f s = .ok (a, t) → P' a (calls ++ [(s, t)]) t) :
    Outline R E P (Service.request unreachable f) P' := by
  intro calls s hs s' hR
  have hs' := hP.stable hs hR
  dsimp only
  split
  · rename_i a t hf
    have ht := h calls s' a t hs' hf
    exact ⟨fun t' ht' => (hP' a).stable ht ht', .throw hP unreachable hs',
      .throw (hP' a) unreachable ht⟩
  · rename_i e hf
    exact ⟨.throw hP e (hP.idle hs'), .throw hP unreachable hs',
      .throw hP unreachable (hP.idle hs')⟩

theorem query (hP : Place R E P) (unreachable : ε) (f : σ → α) :
    Outline R E P (Service.query unreachable f) fun _ => P := by
  intro calls s hs s' hR
  have hs' := hP.stable hs hR
  exact ⟨fun t ht => hP.stable (hP.idle hs') ht, .throw hP unreachable hs',
    .throw hP unreachable (hP.idle hs')⟩

theorem execute {P' : Assertion σ} (hP : Place R E P) (hP' : Place R E P') {unreachable : ε}
    {f : σ → σ} (h : ∀ calls s, P calls s → P' (calls ++ [(s, f s)]) (f s)) :
    Outline R E P (Service.execute unreachable f) fun _ => P' := by
  intro calls s hs s' hR
  have hs' := hP.stable hs hR
  have ht := h calls s' hs'
  exact ⟨fun t ht' => hP'.stable ht ht', .throw hP unreachable hs',
    .throw hP' unreachable ht⟩

/-- A service that only reads stays at its place. -/
theorem reads (hP : Place R E P) {m : Service σ ε α} (hm : m.Respects fun s s' => s' = s) :
    Outline R E P m fun _ => P := by
  induction m with
  | done r =>
    cases r with
    | ok a => exact .pure hP.stable fun _ _ => id
    | error e => exact .throw hP e
  | call write next failed ih ihf =>
    intro calls s hs s' hR
    have hs' := hP.stable hs hR
    rw [hm.1 s']
    exact ⟨ih s' (hm.2.1 s') _ s' (hP.idle hs'), ihf hm.2.2 _ s' hs', ihf hm.2.2 _ s' (hP.idle hs')⟩

/-- The second part starts where the first ends. -/
theorem bind [Std.Refl R] {m : Service σ ε α} {k : α → Service σ ε β} {P' : α → Assertion σ}
    {Q : β → Assertion σ} (hm : Outline R E P m P') (hk : ∀ a, Outline R E (P' a) (k a) Q) :
    Outline R E P (m >>= k) Q := by
  have hamid : ∀ (m : Service σ ε α) (calls : List (σ × σ)) (s : σ),
      m.Amid R E P' calls s → (m.bind k).Amid R E Q calls s := by
    intro m
    induction m with
    | done r =>
      cases r with
      | ok a => exact fun calls s h => hk a calls s (h s (refl_of R s))
      | error e => exact fun _ _ h => h
    | call write next failed ih ihf =>
      intro calls s h s' hR
      obtain ⟨hnext, hlost, happlied⟩ := h s' hR
      exact ⟨ih s' _ _ hnext, ihf _ _ hlost, ihf _ _ happlied⟩
  exact fun calls s hP => hamid m calls s (hm calls s hP)

theorem mapErr {Q : α → Assertion σ} {m : Service σ ε α} {g : ε → ε'} (h : Outline R E P m Q) :
    Outline R E P (m.mapErr g) Q := by
  have hamid : ∀ (m : Service σ ε α) (calls : List (σ × σ)) (s : σ),
      m.Amid R E Q calls s → (m.mapErr g).Amid R E Q calls s := by
    intro m
    induction m with
    | done r => cases r <;> exact fun _ _ h => h
    | call write next failed ih ihf =>
      intro calls s h s' hR
      obtain ⟨hnext, hlost, happlied⟩ := h s' hR
      exact ⟨ih s' _ _ hnext, ihf _ _ hlost, ihf _ _ happlied⟩
  exact fun calls s hP => hamid m calls s (h calls s hP)

end Outline

end Service

namespace Threads

open Runs Service

variable {σ ε α κ : Type} {script : κ → Service σ ε α} {p p' : Pool σ ε α κ} {e : Event κ}

/-- The calls of a thread that have reached the store. -/
def Thread.calls (script : κ → Service σ ε α) (t : Thread σ ε α κ) : List (σ × σ) :=
  (script t.op).writes (t.found.map Prod.snd)

/-- One call of a thread: the thread before and after, and the store after. -/
inductive Move (p : Pool σ ε α κ) : Thread σ ε α κ → Thread σ ε α κ → σ → Prop where
  | answered {op : κ} {found : List (Nat × σ)} {write : σ → σ} {next : σ → Service σ ε α}
      {failed : Service σ ε α} :
      Move p ⟨op, found, .call write next failed⟩
        ⟨op, found ++ [(p.time, p.store)], next p.store⟩ (write p.store)
  | applied {op : κ} {found : List (Nat × σ)} {write : σ → σ} {next : σ → Service σ ε α}
      {failed : Service σ ε α} :
      Move p ⟨op, found, .call write next failed⟩ ⟨op, found ++ [(p.time, p.store)], failed⟩
        (write p.store)
  | lost {op : κ} {found : List (Nat × σ)} {write : σ → σ} {next : σ → Service σ ε α}
      {failed : Service σ ε α} :
      Move p ⟨op, found, .call write next failed⟩ ⟨op, found, failed⟩ p.store

/-- The operation that starts. -/
def Event.started : Event κ → Option κ
  | .start op => some op
  | _ => none

/-- The thread that an event is about. -/
def Event.on : Event κ → Option Nat
  | .start _ => none
  | .answer i => some i
  | .lose i _ => some i

/-- An event on a thread starts none. -/
theorem Event.started_of_on {e : Event κ} {i : Nat} (h : e.on = some i) : e.started = none := by
  cases e with
  | start op => cases h
  | answer j => rfl
  | lose j applied => rfl

/-- A step starts a thread or is one call of one. -/
theorem next_cases (h : p.next script e = some p') :
    (∃ op, e.started = some op ∧ p'.store = p.store ∧
        p'.threads = p.threads ++ [⟨op, [], script op⟩]) ∨
      ∃ i t t', e.on = some i ∧ p.threads[i]? = some t ∧ Move p t t' p'.store ∧
        p'.threads = p.threads.set i t' := by
  cases e with
  | start op =>
    cases h
    exact .inl ⟨op, rfl, rfl, rfl⟩
  | answer i =>
    obtain ⟨op, found, write, next, failed, ht, rfl⟩ := next_answer h
    exact .inr ⟨i, _, _, rfl, ht, .answered, rfl⟩
  | lose i applied =>
    obtain ⟨op, found, write, next, failed, ht, rfl⟩ := next_lose h
    cases applied with
    | true => exact .inr ⟨i, _, _, rfl, ht, .applied, rfl⟩
    | false => exact .inr ⟨i, _, _, rfl, ht, .lost, rfl⟩

theorem Move.op_eq {t t' : Thread σ ε α κ} {s : σ} (h : Move p t t' s) : t'.op = t.op := by
  cases h <;> rfl

/-- An event on a thread finds it before a call. -/
theorem call_of_next (h : p.next script e = some p') {i : Nat} (he : e.on = some i) :
    ∃ op found write next failed, p.threads[i]? = some ⟨op, found, .call write next failed⟩ := by
  cases e with
  | start op => cases he
  | answer j =>
    obtain rfl := Option.some.inj he
    obtain ⟨op, found, write, next, failed, ht, _⟩ := next_answer h
    exact ⟨op, found, write, next, failed, ht⟩
  | lose j applied =>
    obtain rfl := Option.some.inj he
    obtain ⟨op, found, write, next, failed, ht, _⟩ := next_lose h
    exact ⟨op, found, write, next, failed, ht⟩

/-- How a request of thread `i` ends: it is answered with a value or with an error, or it
is lost. -/
theorem request_cases {β : Type} (h : p.next script e = some p') {i : Nat}
    (he : e.on = some i) {t : Thread σ ε α κ} (ht : p.threads[i]? = some t) {unreachable : ε}
    {f : σ → Except ε (β × σ)} {k : β → Service σ ε α}
    (hrest : t.rest = Service.request unreachable f >>= k) :
    (∃ b, e = .answer i ∧ f p.store = .ok (b, p'.store) ∧
        p'.threads = p.threads.set i ⟨t.op, t.found ++ [(p.time, p.store)], k b⟩) ∨
      (∃ error, e = .answer i ∧ f p.store = .error error ∧ p'.store = p.store ∧
        p'.threads =
          p.threads.set i ⟨t.op, t.found ++ [(p.time, p.store)], Service.throw error⟩) ∨
      ∃ applied found, e = .lose i applied ∧
        (p'.store = p.store ∨ applied = true ∧ ∃ b, f p.store = .ok (b, p'.store)) ∧
        p'.threads = p.threads.set i ⟨t.op, found, Service.throw unreachable⟩ := by
  obtain ⟨op, found, write, next, failed, hcall⟩ := call_of_next h he
  obtain rfl := Option.some.inj (ht.symm.trans hcall)
  obtain ⟨rfl, rfl, rfl⟩ := Service.call.inj hrest
  cases e with
  | start op => cases he
  | answer j =>
    obtain rfl := Option.some.inj he
    simp only [Pool.next, hcall] at h
    cases h
    dsimp only [Pool.called]
    cases hf : f p.store with
    | ok x => exact .inl ⟨x.1, rfl, rfl, rfl⟩
    | error error => exact .inr (.inl ⟨error, rfl, rfl, rfl, rfl⟩)
  | lose j applied =>
    obtain rfl := Option.some.inj he
    simp only [Pool.next, hcall] at h
    cases h
    cases applied with
    | true =>
      refine .inr (.inr ⟨true, _, rfl, ?_, rfl⟩)
      dsimp only [if_true, Pool.called]
      cases hf : f p.store with
      | ok x => exact .inr ⟨rfl, x.1, rfl⟩
      | error error => exact .inl rfl
    | false => exact .inr (.inr ⟨false, _, rfl, .inl rfl, rfl⟩)

/-- Where a thread of strict operations is: where the stores that it found have led it, or
behind the call that was lost. -/
inductive Thread.Stands (script : κ → Service σ ε α) (t : Thread σ ε α κ) : Prop where
  | led (h : t.rest = (script t.op).resume (t.found.map Prod.snd))
  | lost {found : List σ} {write : σ → σ} {next : σ → Service σ ε α} {failed : Service σ ε α}
      (hcall : (script t.op).resume found = .call write next failed) (hrest : t.rest = failed)
      (hfound : t.found.map Prod.snd = found ∨ ∃ s, t.found.map Prod.snd = found ++ [s])

theorem Move.stands (hstrict : ∀ op, (script op).Strict) {t t' : Thread σ ε α κ} {s : σ}
    (h : Move p t t' s) (ht : t.Stands script) : t'.Stands script := by
  have hcall : ∀ {write : σ → σ} {next : σ → Service σ ε α} {failed : Service σ ε α},
      t.rest = .call write next failed →
      (script t.op).resume (t.found.map Prod.snd) = .call write next failed := by
    intro write next failed hrest
    cases ht with
    | led hled => rw [← hled, hrest]
    | lost hlost hfailed hfound =>
      -- behind a lost call there is no other
      have hends := (hstrict t.op).resume ‹_›
      rw [hlost] at hends
      obtain ⟨e, he⟩ := hends.1
      rw [hfailed, he] at hrest
      cases hrest
  cases h with
  | answered => exact .led (resume_snoc (p.time, p.store) (hcall rfl)).symm
  | applied => exact .lost (hcall rfl) rfl (.inr ⟨p.store, by simp⟩)
  | lost => exact .lost (hcall rfl) rfl (.inl rfl)

/-- In every run of strict operations each thread stands somewhere. -/
theorem stands_run (hstrict : ∀ op, (script op).Strict) {s₀ : σ} {es : List (Event κ)}
    (hrun : PoolRun script (Pool.init s₀) es p) {t : Thread σ ε α κ} (ht : t ∈ p.threads) :
    t.Stands script := by
  refine hrun.invariant (I := fun p => ∀ t ∈ p.threads, t.Stands script) (fun p e p' hp h => ?_)
    (fun t ht => ?_) t ht
  · rcases next_cases h with ⟨op, _, _, hthreads⟩ | ⟨i, t, t', _, ht, hmove, hthreads⟩
    · intro u hu
      rw [hthreads] at hu
      rcases List.mem_append.mp hu with hold | hnew
      · exact hp u hold
      · rw [List.mem_singleton.mp hnew]
        exact .led (by simp)
    · intro u hu
      rw [hthreads] at hu
      rcases List.mem_or_eq_of_mem_set hu with hold | rfl
      · exact hp u hold
      · exact hmove.stands hstrict (hp t (List.mem_of_getElem? ht))
  · cases ht

theorem traced_run (hstrict : ∀ op, (script op).Strict) {s₀ : σ} {es : List (Event κ)}
    (hrun : PoolRun script (Pool.init s₀) es p) : Traced script p := by
  intro t ht
  cases stands_run hstrict hrun ht with
  | led hled => exact .inl hled
  | lost hlost hfailed _ =>
    have hends := (hstrict t.op).resume ‹_›
    rw [hlost] at hends
    obtain ⟨e, he⟩ := hends.1
    exact .inr ⟨e, hfailed.trans he⟩

/-- A thread keeps its place and its operation, and a new one comes last. -/
theorem ops_next (h : p.next script e = some p') :
    p'.threads.map Thread.op = p.threads.map Thread.op ++ e.started.toList := by
  rcases next_cases h with ⟨op, hstarted, _, hthreads⟩ | ⟨i, t, t', hon, ht, hmove, hthreads⟩
  · rw [hthreads, hstarted, List.map_append]
    rfl
  · rw [hthreads, Event.started_of_on hon, Option.toList_none, List.append_nil, List.map_set, hmove.op_eq]
    obtain ⟨hlt, rfl⟩ := List.getElem?_eq_some_iff.mp ht
    rw [← List.getElem_map Thread.op, List.set_getElem_self]
    rwa [List.length_map]

/-- The threads run the operations that have started, in the order of their starts. -/
theorem ops_run {es : List (Event κ)} (hrun : PoolRun script p es p') :
    p'.threads.map Thread.op = p.threads.map Thread.op ++ es.filterMap Event.started := by
  induction hrun with
  | nil => simp
  | @cons p p₁ p' e es head tail ih =>
    rw [ih, ops_next head, List.append_assoc]
    cases hstarted : e.started with
    | none => simp [hstarted]
    | some op => simp [hstarted]

/-- What thread `i` has answered. -/
def Pool.outcome (p : Pool σ ε α κ) (i : Nat) : Option (Except ε α) :=
  p.threads[i]?.bind fun t =>
    match t.rest with
    | .done r => some r
    | .call .. => none

/-- The thread of an operation that has started and has answered. -/
theorem getElem?_of_outcome {s₀ : σ} {es : List (Event κ)}
    (hrun : PoolRun script (Pool.init s₀) es p) {i : Nat} {op : κ}
    (hop : (es.filterMap Event.started)[i]? = some op) {r : Except ε α}
    (h : p.outcome i = some r) : ∃ t, p.threads[i]? = some t ∧ t.op = op ∧ t.rest = .done r := by
  obtain ⟨t, ht, hrest⟩ := Option.bind_eq_some_iff.mp h
  have hops := ops_run hrun
  refine ⟨t, ht, ?_, ?_⟩
  · have hi : (p.threads.map Thread.op)[i]? = some op := by
      rw [hops]
      exact hop
    rw [List.getElem?_map, ht] at hi
    exact Option.some.inj hi
  · split at hrest
    · rename_i r' hdone
      rw [hdone, Option.some.inj hrest]
    · cases hrest

theorem exists_outcome {s₀ : σ} {es : List (Event κ)} (hrun : PoolRun script (Pool.init s₀) es p)
    {i : Nat} {op : κ} (hop : (es.filterMap Event.started)[i]? = some op) {r : Except ε α}
    (h : p.outcome i = some r) : ∃ t ∈ p.threads, t.op = op ∧ t.rest = .done r := by
  obtain ⟨t, ht, hop, hdone⟩ := getElem?_of_outcome hrun hop h
  exact ⟨t, List.mem_of_getElem? ht, hop, hdone⟩

theorem op_kept (h : p.next script e = some p') {i : Nat} {t : Thread σ ε α κ}
    (ht : p.threads[i]? = some t) : ∃ t', p'.threads[i]? = some t' ∧ t'.op = t.op := by
  have hop : (p.threads.map Thread.op)[i]? = some t.op := by
    rw [List.getElem?_map, ht]
    rfl
  have hlt : i < (p.threads.map Thread.op).length := (List.getElem?_eq_some_iff.mp hop).1
  have hop' : (p'.threads.map Thread.op)[i]? = some t.op := by
    rw [ops_next h, List.getElem?_append_left hlt, hop]
  rw [List.getElem?_map] at hop'
  exact Option.map_eq_some_iff.mp hop'

/-- A thread before a request is not done. -/
theorem request_ne_done {β : Type} {unreachable : ε} {f : σ → Except ε (β × σ)}
    {k : β → Service σ ε α} {r : Except ε α} : Service.request unreachable f >>= k ≠ .done r :=
  nofun

/-! ## The outline of one thread -/

section Outline

variable {R : σ → σ → Prop} {E : Assertion σ} {Q : α → Assertion σ} {i : Nat} {op : κ} {s₀ : σ}

/-- Thread `i` runs `op`, and every other thread stays within `R`. -/
structure Alone (script : κ → Service σ ε α) (R : σ → σ → Prop) (i : Nat) (op : κ)
    (p : Pool σ ε α κ) : Prop where
  own : ∀ t, p.threads[i]? = some t → t.op = op
  others : ∀ j t, p.threads[j]? = some t → j ≠ i → (script t.op).Respects R

theorem Alone.of_next (h : p.next script e = some p') (ha : Alone script R i op p') :
    Alone script R i op p := by
  refine ⟨fun t ht => ?_, fun j t ht hj => ?_⟩
  · obtain ⟨t', ht', hop⟩ := op_kept h ht
    rw [← hop]
    exact ha.own t' ht'
  · obtain ⟨t', ht', hop⟩ := op_kept h ht
    rw [← hop]
    exact ha.others j t' ht' hj

/-- Until thread `i` starts, the store moves by `R`; from then on the thread is at a
place of its outline. -/
structure Follows (script : κ → Service σ ε α) (R : σ → σ → Prop) (E : Assertion σ)
    (Q : α → Assertion σ) (i : Nat) (s₀ : σ) (p : Pool σ ε α κ) : Prop where
  waiting : p.threads[i]? = none → R s₀ p.store
  running : ∀ t, p.threads[i]? = some t → t.rest.Amid R E Q (t.calls script) p.store

/-- A call of another thread is a move of the store by `R`. -/
theorem Move.within [Std.Refl R] {t t' : Thread σ ε α κ} {s : σ} (h : Move p t t' s)
    (hrest : t.rest.Respects R) : R p.store s := by
  cases h with
  | answered => exact hrest.1 p.store
  | applied => exact hrest.1 p.store
  | lost => exact refl_of R p.store

/-- What is left of an operation stays within what the operation stays within. -/
theorem Traced.respects (htraced : Traced script p) {t : Thread σ ε α κ} (ht : t ∈ p.threads)
    (hop : (script t.op).Respects R) : t.rest.Respects R := by
  rcases htraced t ht with hsame | ⟨e, hthrow⟩
  · rw [hsame]
    exact hop.resume _
  · rw [hthrow]
    exact .throw e

/-- A step of the pool leaves the store, or is a move by what its operation stays within. -/
theorem Traced.moved {G : κ → σ → σ → Prop} (htraced : Traced script p)
    (hrefl : ∀ op s, G op s s) (hop : ∀ op, (script op).Respects (G op))
    (h : p.next script e = some p') : p'.store = p.store ∨ ∃ op, G op p.store p'.store := by
  rcases next_cases h with ⟨_, _, hstore, _⟩ | ⟨i, t, t', _, ht, hmove, _⟩
  · exact .inl hstore
  · have : Std.Refl (G t.op) := ⟨hrefl t.op⟩
    exact .inr ⟨t.op, hmove.within (htraced.respects (List.mem_of_getElem? ht) (hop t.op))⟩

theorem Move.respects {t t' : Thread σ ε α κ} {s : σ} (h : Move p t t' s)
    (hrest : t.rest.Respects R) : t'.rest.Respects R := by
  cases h with
  | answered => exact hrest.2.1 p.store
  | applied => exact hrest.2.2
  | lost => exact hrest.2.2

/-- A run of operations that stay within `R` does so too. -/
theorem respects_run [IsPreorder σ R] (hop : ∀ op, (script op).Respects R) {es : List (Event κ)}
    (hrun : PoolRun script (Pool.init s₀) es p) : R s₀ p.store := by
  have hinv : R s₀ p.store ∧ ∀ t ∈ p.threads, t.rest.Respects R := by
    refine hrun.invariant (I := fun p => R s₀ p.store ∧ ∀ t ∈ p.threads, t.rest.Respects R)
      (fun p e p' hp h => ?_) ⟨refl_of R s₀, fun t ht => ?_⟩
    · rcases next_cases h with ⟨op, _, hstore, hthreads⟩ | ⟨i, t, t', _, ht, hmove, hthreads⟩
      · refine ⟨by rw [hstore]; exact hp.1, fun u hu => ?_⟩
        rw [hthreads] at hu
        rcases List.mem_append.mp hu with hold | hnew
        · exact hp.2 u hold
        · rw [List.mem_singleton.mp hnew]
          exact hop op
      · have hrest := hp.2 t (List.mem_of_getElem? ht)
        refine ⟨trans_of R hp.1 (hmove.within hrest), fun u hu => ?_⟩
        rw [hthreads] at hu
        rcases List.mem_or_eq_of_mem_set hu with hold | rfl
        · exact hp.2 u hold
        · exact hmove.respects hrest
    · cases ht
  exact hinv.1

/-- A call of the thread goes on to the next place of its outline. -/
theorem Move.amid [Std.Refl R] {t t' : Thread σ ε α κ} {s : σ} (h : Move p t t' s)
    (hrest : t.rest = (script t.op).resume (t.found.map Prod.snd) ∨ ∃ e, t.rest = Service.throw e)
    (hamid : t.rest.Amid R E Q (t.calls script) p.store) :
    t'.rest.Amid R E Q (t'.calls script) s := by
  cases h with
  | @answered op found write next failed | @applied op found write next failed =>
    have hcall : (script op).resume (found.map Prod.snd) = .call write next failed := by
      rcases hrest with hsame | ⟨_, hthrow⟩
      · exact hsame.symm
      · cases hthrow
    obtain ⟨hnext, _, happlied⟩ := hamid p.store (refl_of R _)
    simp only [Thread.calls, List.map_append, List.map_singleton, writes_snoc p.store hcall]
    assumption
  | lost => exact (hamid p.store (refl_of R _)).2.1

theorem Follows.next [IsPreorder σ R] (hop : ∀ s, R s₀ s → (script op).Amid R E Q [] s)
    (h : p.next script e = some p') (htraced : Traced script p) (ha : Alone script R i op p')
    (hf : Follows script R E Q i s₀ p) : Follows script R E Q i s₀ p' := by
  rcases next_cases h with ⟨op', _, hstore, hthreads⟩ | ⟨j, u, u', _, hu, hmove, hthreads⟩
  · refine ⟨fun hnone => ?_, fun t ht => ?_⟩
    · rw [hstore]
      apply hf.waiting
      rw [hthreads, List.getElem?_append] at hnone
      split at hnone
      · exact hnone
      · exact List.getElem?_eq_none_iff.mpr (by omega)
    · rw [hstore]
      have hop' := ha.own t ht
      rw [hthreads, List.getElem?_append] at ht
      split at ht
      · exact hf.running t ht
      · rename_i hlt
        have ht' : t = ⟨op', [], script op'⟩ := by
          have hmem := List.mem_of_getElem? ht
          exact List.mem_singleton.mp hmem
        subst ht'
        obtain rfl : op' = op := hop'
        simp only [Thread.calls, List.map_nil, writes_nil]
        exact hop p.store (hf.waiting (List.getElem?_eq_none_iff.mpr (by omega)))
  · by_cases hij : j = i
    · subst hij
      refine ⟨fun hnone => ?_, fun t ht => ?_⟩
      · obtain ⟨t', ht', _⟩ := op_kept h hu
        rw [ht'] at hnone
        cases hnone
      · rw [hthreads, List.getElem?_set, if_pos rfl,
          if_pos (List.getElem?_eq_some_iff.mp hu).1] at ht
        cases ht
        exact hmove.amid (htraced u (List.mem_of_getElem? hu)) (hf.running u hu)
    · have hR := hmove.within
        (htraced.respects (List.mem_of_getElem? hu) ((ha.of_next h).others j u hu hij))
      refine ⟨fun hnone => ?_, fun t ht => ?_⟩
      · rw [hthreads, List.getElem?_set, if_neg hij] at hnone
        exact trans_of R (hf.waiting hnone) hR
      · rw [hthreads, List.getElem?_set, if_neg hij] at ht
        exact (hf.running t ht).rely hR

/-- In a run in which the other threads stay within `R`, a thread with an outline ends
as the outline says. -/
theorem outline_run [IsPreorder σ R] {P : Assertion σ}
    (houtline : Outline R E P (script op) Q) (hstart : ∀ s, R s₀ s → P [] s)
    (hstrict : ∀ op, (script op).Strict) {es : List (Event κ)}
    (hrun : PoolRun script (Pool.init s₀) es p) (ha : Alone script R i op p)
    {t : Thread σ ε α κ} (ht : p.threads[i]? = some t) :
    (∀ a, t.rest = .done (.ok a) → Q a (t.calls script) p.store) ∧
      ∀ e, t.rest = .done (.error e) → E (t.calls script) p.store := by
  have hamid : ∀ s, R s₀ s → (script op).Amid R E Q [] s := fun s hs => houtline [] s (hstart s hs)
  have hinv : Traced script p ∧
      (Alone script R i op p → Follows script R E Q i s₀ p) := by
    refine hrun.invariant
      (I := fun p => Traced script p ∧ (Alone script R i op p → Follows script R E Q i s₀ p))
      (fun p e p' hp h => ?_) ⟨fun t hmem => ?_, fun _ => ⟨fun _ => refl_of R s₀, fun t ht => ?_⟩⟩
    · exact ⟨Traced.next hstrict h hp.1, fun ha' => .next hamid h hp.1 ha' (hp.2 (ha'.of_next h))⟩
    · cases hmem
    · cases ht
  have hrunning := (hinv.2 ha).running t ht
  refine ⟨fun a hrest => ?_, fun e hrest => ?_⟩
  · rw [hrest] at hrunning
    exact hrunning p.store (refl_of R _)
  · rw [hrest] at hrunning
    exact hrunning p.store (refl_of R _)

end Outline

end Threads
