import BikesNest.Lib.Service

/-!
# Runs that may be interrupted

Any call of a service may get no answer, whether the store took it or not.  `Ends` is every
way in which a run ends, with a flag that says whether a call went unanswered.

`Ensures P m Q E` is a triple for such runs: from a store with `P`, a run of `m` whose calls
are all answered ends with a value and `Q`, and any other run ends with an error and `E`.
A service that keeps an invariant at each of its calls meets it by the rules below.
-/

namespace Service

variable {σ ε α β : Type}

/-- The ways in which a run from a store may end: whether a call went unanswered, the result
and the store. -/
inductive Ends : Service σ ε α → σ → Bool → Except ε α → σ → Prop where
  | done (r : Except ε α) (s : σ) : Ends (.done r) s false r s
  | answered {write : σ → σ} {next : σ → Service σ ε α} {failed : Service σ ε α} {s s' : σ}
      {lost : Bool} {r : Except ε α} (h : Ends (next s) (write s) lost r s') :
      Ends (.call write next failed) s lost r s'
  | applied {write : σ → σ} {next : σ → Service σ ε α} {failed : Service σ ε α} {s s' : σ}
      {lost : Bool} {r : Except ε α} (h : Ends failed (write s) lost r s') :
      Ends (.call write next failed) s true r s'
  | dropped {write : σ → σ} {next : σ → Service σ ε α} {failed : Service σ ε α} {s s' : σ}
      {lost : Bool} {r : Except ε α} (h : Ends failed s lost r s') :
      Ends (.call write next failed) s true r s'

/-- The run that nothing interrupts. -/
theorem ends_run (m : Service σ ε α) (s : σ) : Ends m s false (m.run s).1 (m.run s).2 := by
  induction m generalizing s with
  | done r => exact .done r s
  | call write next failed ih _ => exact .answered (ih s (write s))

/-- A sequence ends in its first part, or in its second. -/
theorem Ends.of_bind {m : Service σ ε α} {k : α → Service σ ε β} {s s' : σ} {lost : Bool}
    {r : Except ε β} (h : Ends (m >>= k) s lost r s') :
    (∃ e, Ends m s lost (.error e) s' ∧ r = .error e) ∨
      ∃ a t l l', Ends m s l (.ok a) t ∧ Ends (k a) t l' r s' ∧ lost = (l || l') := by
  change Ends (m.bind k) s lost r s' at h
  induction m generalizing s lost with
  | done result =>
    cases result with
    | ok a => exact .inr ⟨a, s, false, lost, .done _ s, h, (Bool.false_or lost).symm⟩
    | error e =>
      cases h
      exact .inl ⟨e, .done _ _, rfl⟩
  | call write next failed ih ihf =>
    cases h with
    | answered h =>
      rcases ih s h with ⟨e, hm, hr⟩ | ⟨a, t, l, l', hm, hk, hlost⟩
      · exact .inl ⟨e, .answered hm, hr⟩
      · exact .inr ⟨a, t, l, l', .answered hm, hk, hlost⟩
    | applied h =>
      rcases ihf h with ⟨e, hm, hr⟩ | ⟨a, t, l, l', hm, hk, _⟩
      · exact .inl ⟨e, .applied hm, hr⟩
      · exact .inr ⟨a, t, true, l', .applied hm, hk, (Bool.true_or l').symm⟩
    | dropped h =>
      rcases ihf h with ⟨e, hm, hr⟩ | ⟨a, t, l, l', hm, hk, _⟩
      · exact .inl ⟨e, .dropped hm, hr⟩
      · exact .inr ⟨a, t, true, l', .dropped hm, hk, (Bool.true_or l').symm⟩

/-- Answered throughout, a run from `P` ends with a value and `Q`; otherwise with an error
and `E`. -/
def Ensures (P : σ → Prop) (m : Service σ ε α) (Q : α → σ → Prop) (E : σ → Prop) : Prop :=
  ∀ s lost r s', P s → Ends m s lost r s' →
    match r with
    | .ok a => lost = false ∧ Q a s'
    | .error _ => lost = true ∧ E s'

namespace Ensures

variable {P P' E : σ → Prop} {Q Q' : α → σ → Prop} {m : Service σ ε α}

theorem pure (a : α) (h : ∀ s, P s → Q a s) : Ensures P (Pure.pure a : Service σ ε α) Q E := by
  intro s lost r s' hs hend
  cases hend
  exact ⟨rfl, h s hs⟩

/-- A read finds the store as it is. -/
theorem query (unreachable : ε) {f : σ → α} (hQ : ∀ s, P s → Q (f s) s) (hE : ∀ s, P s → E s) :
    Ensures P (Service.query unreachable f) Q E := by
  intro s lost r s' hs hend
  cases hend with
  | answered h =>
    cases h
    exact ⟨rfl, hQ s hs⟩
  | applied h =>
    cases h
    exact ⟨rfl, hE s hs⟩
  | dropped h =>
    cases h
    exact ⟨rfl, hE s hs⟩

/-- A write that fails may have been taken. -/
theorem execute (unreachable : ε) {f : σ → σ} {Q : Unit → σ → Prop}
    (hQ : ∀ s, P s → Q () (f s)) (hE : ∀ s, P s → E s ∧ E (f s)) :
    Ensures P (Service.execute unreachable f) Q E := by
  intro s lost r s' hs hend
  cases hend with
  | answered h =>
    cases h
    exact ⟨rfl, hQ s hs⟩
  | applied h =>
    cases h
    exact ⟨rfl, (hE s hs).2⟩
  | dropped h =>
    cases h
    exact ⟨rfl, (hE s hs).1⟩

theorem bind {R : β → σ → Prop} {k : α → Service σ ε β} (hm : Ensures P m Q E)
    (hk : ∀ a, Ensures (Q a) (k a) R E) : Ensures P (m >>= k) R E := by
  intro s lost r s' hs hend
  rcases hend.of_bind with ⟨e, hfirst, rfl⟩ | ⟨a, t, l, l', hfirst, hrest, rfl⟩
  · exact hm s lost (.error e) s' hs hfirst
  · obtain ⟨rfl, hQ⟩ : l = false ∧ Q a t := hm s l (.ok a) t hs hfirst
    rw [Bool.false_or]
    exact hk a t l' r s' hQ hrest

theorem mono (h : Ensures P m Q E) (hP : ∀ s, P' s → P s) (hQ : ∀ a s, Q a s → Q' a s) :
    Ensures P' m Q' E := by
  intro s lost r s' hs hend
  have hresult := h s lost r s' (hP s hs) hend
  cases r with
  | ok a => exact ⟨hresult.1, hQ a s' hresult.2⟩
  | error e => exact hresult

/-- What the first store says for itself may be assumed. -/
theorem assume {φ : Prop} (hφ : ∀ s, P s → φ) (h : φ → Ensures P m Q E) : Ensures P m Q E :=
  fun s lost r s' hs hend => h (hφ s hs) s lost r s' hs hend

/-- The run that nothing interrupts. -/
theorem run (h : Ensures P m Q E) {s : σ} (hs : P s) :
    ∃ a s', m.run s = (.ok a, s') ∧ Q a s' := by
  have hresult := h s false _ _ hs (ends_run m s)
  generalize m.run s = result at hresult
  obtain ⟨r, s'⟩ := result
  cases r with
  | ok a => exact ⟨a, s', rfl, hresult.2⟩
  | error e => cases hresult.1

end Ensures

end Service
