import Mathlib.Order.Defs.Unbundled

/-!
# Services that call a store

A service is a program that calls a store of type `σ` and answers a value or
an error.  It is the tree of its possible calls: `call write next failed` is
one call, which changes the store by `write`, goes on with `next` of the store
it found, and goes on with `failed` when the store does not answer.

* `run` is the run of a service that nothing interrupts and whose calls all
  reach the store.  Its rules are simp lemmas, one for each way to build a
  service.
* `Within R m` says that every run of `m` relates the store before and after by
  `R`.  `Frame v` and `Stable P` are the two relations that are used most: the
  view `v` is unchanged, and the property `P` is kept.
-/

/-- A program over a store `σ` with errors `ε` and values `α`. -/
inductive Service (σ ε α : Type) where
  | done (result : Except ε α)
  | call (write : σ → σ) (next : σ → Service σ ε α) (failed : Service σ ε α)

namespace Service

variable {σ ε ε' α β : Type}

/-- Run `m`, and then `k` of its value. -/
def bind : Service σ ε α → (α → Service σ ε β) → Service σ ε β
  | .done (.ok a), k => k a
  | .done (.error e), _ => .done (.error e)
  | .call write next failed, k =>
    .call write (fun s => (next s).bind k) (failed.bind k)

instance : Monad (Service σ ε) where
  pure a := .done (.ok a)
  bind := bind

/-- Answer an error. -/
def throw (e : ε) : Service σ ε α := .done (.error e)

/-- Go on only when `c` holds. -/
def require (c : Bool) (e : ε) : Service σ ε Unit := if c then pure () else throw e

/-- One call: a transaction that answers a value and the new store, or rolls
back with an error.  `unreachable` is the error when the store does not
answer. -/
def request (unreachable : ε) (f : σ → Except ε (α × σ)) : Service σ ε α :=
  .call
    (fun s => match f s with
      | .ok (_, s') => s'
      | .error _ => s)
    (fun s => match f s with
      | .ok (a, _) => pure a
      | .error e => throw e)
    (throw unreachable)

/-- One call that only reads. -/
def query (unreachable : ε) (f : σ → α) : Service σ ε α :=
  .call id (fun s => pure (f s)) (throw unreachable)

/-- One call that only writes. -/
def execute (unreachable : ε) (f : σ → σ) : Service σ ε Unit :=
  .call f (fun _ => pure ()) (throw unreachable)

/-- `map_err`. -/
def mapErr (g : ε → ε') : Service σ ε α → Service σ ε' α
  | .done (.ok a) => .done (.ok a)
  | .done (.error e) => .done (.error (g e))
  | .call write next failed => .call write (fun s => (next s).mapErr g) (failed.mapErr g)

/-- The result as a value, an error included. -/
def attempt : Service σ ε α → Service σ ε' (Except ε α)
  | .done r => .done (.ok r)
  | .call write next failed => .call write (fun s => (next s).attempt) failed.attempt

/-- Forget the result. -/
def void : Service σ ε α → Service σ Unit Unit
  | .done _ => .done (.ok ())
  | .call write next failed => .call write (fun s => (next s).void) failed.void

/-- Run on the part of a larger store that `get` reads and `set` writes. -/
def zoom {τ : Type} (get : τ → σ) (set : τ → σ → τ) : Service σ ε α → Service τ ε α
  | .done r => .done r
  | .call write next failed =>
    .call (fun t => set t (write (get t))) (fun t => (next (get t)).zoom get set)
      (failed.zoom get set)

/-- A call that fails ends the service with an error. -/
def Strict : Service σ ε α → Prop
  | .done _ => True
  | .call _ next failed => (∃ e, failed = throw e) ∧ ∀ s, (next s).Strict

/-- Sequences associate. -/
theorem bind_assoc {γ : Type} (m : Service σ ε α) (k : α → Service σ ε β)
    (l : β → Service σ ε γ) : m >>= k >>= l = m >>= fun a => k a >>= l := by
  show (m.bind k).bind l = m.bind fun a => (k a).bind l
  induction m with
  | done r => cases r <;> rfl
  | call write next failed ih ihf => simp only [Service.bind, ihf, ih]

/-! ## Running a service -/

/-- Run the service alone on a store that answers every call. -/
def run : Service σ ε α → σ → Except ε α × σ
  | .done r, s => (r, s)
  | .call write next _, s => (next s).run (write s)

@[simp] theorem run_pure (a : α) (s : σ) : (pure a : Service σ ε α).run s = (.ok a, s) := rfl

@[simp] theorem run_throw (e : ε) (s : σ) :
    (throw e : Service σ ε α).run s = (.error e, s) := rfl

@[simp] theorem run_require (c : Bool) (e : ε) (s : σ) :
    (require c e : Service σ ε Unit).run s = (if c then .ok () else .error e, s) := by
  cases c <;> rfl

@[simp] theorem run_request (unreachable : ε) (f : σ → Except ε (α × σ)) (s : σ) :
    (request unreachable f).run s =
      match f s with
      | .ok (a, s') => (.ok a, s')
      | .error e => (.error e, s) := by
  simp only [request, run]
  split <;> simp

@[simp] theorem run_query (unreachable : ε) (f : σ → α) (s : σ) :
    (query unreachable f).run s = (.ok (f s), s) := rfl

@[simp] theorem run_execute (unreachable : ε) (f : σ → σ) (s : σ) :
    (execute unreachable f).run s = (.ok (), f s) := rfl

@[simp] theorem run_bind (m : Service σ ε α) (k : α → Service σ ε β) (s : σ) :
    (m >>= k).run s =
      match m.run s with
      | (.ok a, s') => (k a).run s'
      | (.error e, s') => (.error e, s') := by
  show (m.bind k).run s = _
  induction m generalizing s with
  | done r => cases r <;> rfl
  | call write next failed ih _ => exact ih s (write s)

@[simp] theorem run_mapErr (g : ε → ε') (m : Service σ ε α) (s : σ) :
    (m.mapErr g).run s =
      match m.run s with
      | (.ok a, s') => (.ok a, s')
      | (.error e, s') => (.error (g e), s') := by
  induction m generalizing s with
  | done r => cases r <;> rfl
  | call write next failed ih _ => exact ih s (write s)

@[simp] theorem run_attempt (m : Service σ ε α) (s : σ) :
    (m.attempt : Service σ ε' (Except ε α)).run s = (.ok (m.run s).1, (m.run s).2) := by
  induction m generalizing s with
  | done r => rfl
  | call write next failed ih _ => exact ih s (write s)

theorem run_bind_of_ok {m : Service σ ε α} {k : α → Service σ ε β} {s s' : σ} {a : α}
    (h : m.run s = (.ok a, s')) : (m >>= k).run s = (k a).run s' := by
  rw [run_bind, h]

/-- A sequence that succeeds is a first part and a second part that succeed. -/
theorem run_bind_ok {m : Service σ ε α} {k : α → Service σ ε β} {s s' : σ} {b : β}
    (h : (m >>= k).run s = (.ok b, s')) :
    ∃ a t, m.run s = (.ok a, t) ∧ (k a).run t = (.ok b, s') := by
  rw [run_bind] at h
  split at h
  · rename_i a t hm
    exact ⟨a, t, hm, h⟩
  · cases h

/-- A call that succeeds is a transaction that commits. -/
theorem run_request_ok {unreachable : ε} {f : σ → Except ε (α × σ)} {s s' : σ} {a : α} :
    (request unreachable f).run s = (.ok a, s') ↔ f s = .ok (a, s') := by
  rw [run_request]
  split
  · rename_i h
    simp [h]
  · rename_i h
    simp [h]

theorem run_require_ok {c : Bool} {e : ε} {s s' : σ} {a : Unit} :
    (require c e).run s = (.ok a, s') ↔ c = true ∧ s = s' := by
  cases c <;> simp

theorem run_mapErr_ok {g : ε → ε'} {m : Service σ ε α} {s s' : σ} {a : α} :
    (m.mapErr g).run s = (.ok a, s') ↔ m.run s = (.ok a, s') := by
  rw [run_mapErr]
  split
  · rename_i h
    rw [h]
    simp
  · rename_i h
    simp [h]

theorem run_query_ok {unreachable : ε} {f : σ → α} {s s' : σ} {a : α} :
    (query unreachable f).run s = (.ok a, s') ↔ a = f s ∧ s = s' := by
  simp [eq_comm]

section Pass

variable {k : α → Service σ ε β} {s s' : σ}

theorem run_of_require {k : Unit → Service σ ε β} {c : Bool} {e : ε} (h : c = true) :
    (require c e >>= k).run s = (k ()).run s := by
  rw [h]
  rfl

theorem run_of_query {unreachable : ε} {f : σ → α} :
    (query unreachable f >>= k).run s = (k (f s)).run s := rfl

theorem run_of_request {unreachable : ε} {f : σ → Except ε (α × σ)} {a : α}
    (h : f s = .ok (a, s')) : (request unreachable f >>= k).run s = (k a).run s' :=
  run_bind_of_ok (run_request_ok.mpr h)

end Pass

/-! ## A run that loses one call -/

/-- Run the service alone on a store that does not take call `n`, counted from 0, and
answers every other call. -/
def runFailing : Service σ ε α → Nat → σ → Except ε α × σ
  | .done r, _, s => (r, s)
  | .call _ _ failed, 0, s => failed.run s
  | .call write next _, n + 1, s => (next s).runFailing n (write s)

/-- Run the service alone on a store that does not take call `lost`, if one is lost. -/
def runLosing (m : Service σ ε α) : Option Nat → σ → Except ε α × σ
  | none, s => m.run s
  | some n, s => m.runFailing n s

section Losing

variable {k : α → Service σ ε β} {unreachable : ε} (lost : Option Nat) (s : σ)

/-- A read is the call that is lost, or the rest loses a later one. -/
theorem runLosing_query (f : σ → α) :
    (query unreachable f >>= k).runLosing lost s =
      if lost = some 0 then (.error unreachable, s)
      else (k (f s)).runLosing (lost.map (· - 1)) s := by
  match lost with
  | none => rfl
  | some 0 => rfl
  | some (n + 1) => rfl

theorem runLosing_request (f : σ → Except ε (α × σ)) :
    (request unreachable f >>= k).runLosing lost s =
      if lost = some 0 then (.error unreachable, s)
      else match f s with
        | .ok (a, s') => (k a).runLosing (lost.map (· - 1)) s'
        | .error e => (.error e, s) := by
  match lost with
  | none =>
    show (request unreachable f >>= k).run s = _
    rw [run_bind, run_request]
    cases f s with
    | ok r => rfl
    | error e => rfl
  | some 0 => rfl
  | some (n + 1) =>
    show ((match f s with
      | .ok (a, _) => Pure.pure a
      | .error e => throw e : Service σ ε α) >>= k).runFailing n
      (match f s with
        | .ok (_, t) => t
        | .error _ => s) = _
    cases f s with
    | ok r => rfl
    | error e => rfl

theorem runLosing_execute {k : Unit → Service σ ε β} (f : σ → σ) :
    (execute unreachable f >>= k).runLosing lost s =
      if lost = some 0 then (.error unreachable, s)
      else (k ()).runLosing (lost.map (· - 1)) (f s) := by
  match lost with
  | none => rfl
  | some 0 => rfl
  | some (n + 1) => rfl

theorem runLosing_throw (e : ε) : (throw e : Service σ ε α).runLosing lost s = (.error e, s) := by
  cases lost <;> rfl

theorem runLosing_require {k : Unit → Service σ ε β} (c : Bool) (e : ε) :
    (require c e >>= k).runLosing lost s =
      if c then (k ()).runLosing lost s else (.error e, s) := by
  cases c with
  | true => rfl
  | false => exact runLosing_throw lost s e

end Losing

section Failing

variable {k : α → Service σ ε β} {e : ε} {n : Nat} {s s' : σ}

theorem runFailing_require {k : Unit → Service σ ε β} {c : Bool} {e' : ε}
    (h : (require c e' >>= k).runFailing n s = (.error e, s')) :
    s' = s ∨ c = true ∧ (k ()).runFailing n s = (.error e, s') := by
  cases c with
  | true => exact .inr ⟨rfl, h⟩
  | false =>
    change (Except.error e', s) = (.error e, s') at h
    exact .inl (Prod.mk.inj h).2.symm

/-- A transaction that is lost or rolls back leaves the store as it is. -/
theorem runFailing_request {unreachable : ε} {f : σ → Except ε (α × σ)}
    (h : (request unreachable f >>= k).runFailing n s = (.error e, s')) :
    s' = s ∨ ∃ a t m, n = m + 1 ∧ f s = .ok (a, t) ∧
      (k a).runFailing m t = (.error e, s') := by
  cases n with
  | zero =>
    change (Except.error unreachable, s) = (.error e, s') at h
    exact .inl (Prod.mk.inj h).2.symm
  | succ m =>
    change ((match f s with
      | .ok (a, _) => Pure.pure a
      | .error e => throw e : Service σ ε α) >>= k).runFailing m
      (match f s with
        | .ok (_, t) => t
        | .error _ => s) = _ at h
    split at h
    · next a t hf => exact .inr ⟨a, t, m, rfl, hf, h⟩
    · next e' hf =>
      change (Except.error e', s) = (.error e, s') at h
      exact .inl (Prod.mk.inj h).2.symm

theorem runFailing_query {unreachable : ε} {f : σ → α}
    (h : (query unreachable f >>= k).runFailing n s = (.error e, s')) :
    s' = s ∨ ∃ m, n = m + 1 ∧ (k (f s)).runFailing m s = (.error e, s') := by
  cases n with
  | zero =>
    change (Except.error unreachable, s) = (.error e, s') at h
    exact .inl (Prod.mk.inj h).2.symm
  | succ m => exact .inr ⟨m, rfl, h⟩

/-- A transaction whose error goes on as a value. -/
theorem runFailing_attempt {unreachable : ε} {f : σ → Except ε (α × σ)}
    {k : Except ε α → Service σ ε β} {r : Except ε β × σ}
    (h : (attempt (request unreachable f) >>= k).runFailing n s = r) :
    n = 0 ∧ (k (.error unreachable)).run s = r ∨
      ∃ m, n = m + 1 ∧
        (k ((request unreachable f).run s).1).runFailing m ((request unreachable f).run s).2 = r := by
  cases n with
  | zero => exact .inl ⟨rfl, h⟩
  | succ m =>
    refine .inr ⟨m, rfl, ?_⟩
    rw [run_request]
    change ((attempt (match f s with
      | .ok (a, _) => Pure.pure a
      | .error e => throw e : Service σ ε α) : Service σ ε (Except ε α)) >>= k).runFailing m
      (match f s with
        | .ok (_, t) => t
        | .error _ => s) = _ at h
    split at h
    · exact h
    · exact h

/-- A single transaction. -/
theorem runFailing_last {unreachable : ε} {f : σ → Except ε (α × σ)}
    (h : (request unreachable f).runFailing n s = (.error e, s')) : s' = s := by
  cases n with
  | zero =>
    change (Except.error unreachable, s) = (.error e, s') at h
    exact (Prod.mk.inj h).2.symm
  | succ m =>
    change (match f s with
      | .ok (a, _) => Pure.pure a
      | .error e => throw e : Service σ ε α).runFailing m
      (match f s with
        | .ok (_, t) => t
        | .error _ => s) = _ at h
    split at h
    · next a t hf =>
      change (Except.ok a, t) = (.error e, s') at h
      cases h
    · next e' hf =>
      change (Except.error e', s) = (.error e, s') at h
      exact (Prod.mk.inj h).2.symm

end Failing

/-! ## What every run of a service keeps -/

/-- Every run of `m` relates the store before and after by `R`. -/
def Within (R : σ → σ → Prop) (m : Service σ ε α) : Prop := ∀ s, R s (m.run s).2

/-- The view `v` of the store is unchanged. -/
def Frame (v : σ → β) : σ → σ → Prop := fun s s' => v s' = v s

/-- The property `P` is kept. -/
def Stable (P : σ → Prop) : σ → σ → Prop := fun s s' => P s → P s'

instance (v : σ → β) : IsPreorder σ (Frame v) where
  refl _ := rfl
  trans _ _ _ h h' := h'.trans h

instance (P : σ → Prop) : IsPreorder σ (Stable P) where
  refl _ := id
  trans _ _ _ h h' := h' ∘ h

namespace Within

variable {R : σ → σ → Prop} [IsPreorder σ R] {m : Service σ ε α} {k : α → Service σ ε β}

theorem pure (a : α) : Within R (Pure.pure a : Service σ ε α) := fun s => refl_of R s

theorem throw (e : ε) : Within R (Service.throw e : Service σ ε α) := fun s => refl_of R s

theorem require (c : Bool) (e : ε) : Within R (Service.require c e : Service σ ε Unit) := by
  intro s
  rw [run_require]
  exact refl_of R s

theorem query (unreachable : ε) (f : σ → α) : Within R (Service.query unreachable f) :=
  fun s => refl_of R s

theorem request {unreachable : ε} {f : σ → Except ε (α × σ)}
    (h : ∀ s a s', f s = .ok (a, s') → R s s') : Within R (Service.request unreachable f) := by
  intro s
  rw [run_request]
  split
  · rename_i a s' hf
    exact h s a s' hf
  · exact refl_of R s

/-- A second part that stays within `R` starts where the first part ends. -/
theorem run_bind (hk : ∀ a, Within R (k a)) (s : σ) : R (m.run s).2 ((m >>= k).run s).2 := by
  rw [Service.run_bind]
  split
  · rename_i a t hrun
    rw [hrun]
    exact hk a t
  · rename_i e t hrun
    rw [hrun]
    exact refl_of R t

theorem bind (hm : Within R m) (hk : ∀ a, Within R (k a)) : Within R (m >>= k) :=
  fun s => trans_of R (hm s) (run_bind hk s)

omit [IsPreorder σ R] in
theorem mapErr {g : ε → ε'} (hm : Within R m) : Within R (m.mapErr g) := by
  intro s
  have := hm s
  rw [run_mapErr]
  split
  · rename_i hrun
    rwa [hrun] at this
  · rename_i hrun
    rwa [hrun] at this

omit [IsPreorder σ R] in
theorem attempt (hm : Within R m) :
    Within R (m.attempt : Service σ ε' (Except ε α)) := by
  intro s
  rw [run_attempt]
  exact hm s

end Within

/-! ## Strict services -/

namespace Strict

theorem pure (a : α) : (Pure.pure a : Service σ ε α).Strict := trivial

theorem throw (e : ε) : (Service.throw e : Service σ ε α).Strict := trivial

theorem require (c : Bool) (e : ε) : (Service.require c e : Service σ ε Unit).Strict := by
  cases c <;> trivial

theorem request (unreachable : ε) (f : σ → Except ε (α × σ)) :
    (Service.request unreachable f).Strict := by
  refine ⟨⟨unreachable, rfl⟩, fun s => ?_⟩
  dsimp only
  split <;> trivial

theorem query (unreachable : ε) (f : σ → α) : (Service.query unreachable f).Strict :=
  ⟨⟨unreachable, rfl⟩, fun _ => trivial⟩

theorem execute (unreachable : ε) (f : σ → σ) : (Service.execute unreachable f).Strict :=
  ⟨⟨unreachable, rfl⟩, fun _ => trivial⟩

theorem bind {m : Service σ ε α} {k : α → Service σ ε β} (hm : m.Strict)
    (hk : ∀ a, (k a).Strict) : (m >>= k).Strict := by
  show (m.bind k).Strict
  induction m with
  | done r =>
    cases r with
    | ok a => exact hk a
    | error e => trivial
  | call write next failed ih _ =>
    obtain ⟨⟨e, rfl⟩, hnext⟩ := hm
    exact ⟨⟨e, rfl⟩, fun s => ih s (hnext s)⟩

/-- A transaction whose error goes on as a value, when a lost call ends the service. -/
theorem attempt {unreachable : ε} {f : σ → Except ε (α × σ)} {k : Except ε α → Service σ ε' β}
    {e : ε'} (hfailed : k (.error unreachable) = Service.throw e) (hk : ∀ r, (k r).Strict) :
    (Service.attempt (Service.request unreachable f) >>= k).Strict := by
  refine ⟨⟨e, hfailed⟩, fun s => ?_⟩
  show ((Service.attempt (match f s with
    | .ok (a, _) => Pure.pure a
    | .error e => Service.throw e : Service σ ε α)).bind k).Strict
  cases f s with
  | ok r => exact hk _
  | error e => exact hk _

theorem mapErr {g : ε → ε'} {m : Service σ ε α} (hm : m.Strict) : (m.mapErr g).Strict := by
  induction m with
  | done r => cases r <;> trivial
  | call write next failed ih _ =>
    obtain ⟨⟨e, rfl⟩, hnext⟩ := hm
    exact ⟨⟨g e, rfl⟩, fun s => ih s (hnext s)⟩

/-- A strict service that succeeds has lost no call. -/
theorem runLosing_ok {m : Service σ ε α} (hm : m.Strict) {lost : Option Nat} {s s' : σ} {a : α}
    (h : m.runLosing lost s = (.ok a, s')) : m.run s = (.ok a, s') := by
  cases lost with
  | none => exact h
  | some n =>
    change m.runFailing n s = _ at h
    induction m generalizing n s with
    | done r => exact h
    | call write next failed ih _ =>
      obtain ⟨⟨e, rfl⟩, hnext⟩ := hm
      cases n with
      | zero => cases h
      | succ n => exact ih s (hnext s) n h

end Strict

end Service
