import BikesNest.Lib.Threads
import Mathlib.Order.Defs.PartialOrder

/-!
# Services that act on what they know

A thread of a pool may act on what an earlier call has found only when no other thread can
undo it in between.  What stays true in spite of the other threads is knowledge: an element
of a preorder in which a thread only climbs.

* A `Licence` says which calls some knowledge allows, and what a call teaches.
* `Careful L Q m k` says that `m`, started with the knowledge `k`, makes only calls that
  its knowledge at that time allows, and that a value it answers satisfies `Q`.
-/

/-- What knowledge allows, and where it comes from. -/
structure Licence (σ κ : Type) [Preorder κ] where
  /-- With the knowledge `k` a call may take the store `s` to `s'`. -/
  allows : κ → σ → σ → Prop
  /-- Whoever has found `s` and left `s'` knows `k`. -/
  learns : σ → σ → κ → Prop
  mono : ∀ {k k' s s'}, k ≤ k' → allows k s s' → allows k' s s'

namespace Service

variable {σ κ ε ε' α β : Type} [Preorder κ]

/-- Every call is allowed by what is known when it is made. -/
def Careful (L : Licence σ κ) (Q : α → κ → Prop) : Service σ ε α → κ → Prop
  | .done (.ok a), k => Q a k
  | .done (.error _), _ => True
  | .call write next failed, k =>
    (∀ s, L.allows k s (write s)) ∧
      (∀ s k', k ≤ k' → L.learns s (write s) k' → (next s).Careful L Q k') ∧
      failed.Careful L Q k

namespace Careful

variable {L : Licence σ κ} {Q Q' : α → κ → Prop} {k k' : κ}

/-- More knowledge does no harm. -/
theorem mono {m : Service σ ε α} (hQ : ∀ a k k', k ≤ k' → Q a k → Q a k') (hk : k ≤ k')
    (h : m.Careful L Q k) : m.Careful L Q k' := by
  induction m generalizing k k' with
  | done r =>
    cases r with
    | ok a => exact hQ a k k' hk h
    | error e => trivial
  | call write next failed _ ihf =>
    obtain ⟨hallows, hnext, hfailed⟩ := h
    exact ⟨fun s => L.mono hk (hallows s), fun s k'' hk' hlearns =>
      hnext s k'' (le_trans hk hk') hlearns, ihf hk hfailed⟩

theorem imp {m : Service σ ε α} (hQ : ∀ a k, Q a k → Q' a k) (h : m.Careful L Q k) :
    m.Careful L Q' k := by
  induction m generalizing k with
  | done r =>
    cases r with
    | ok a => exact hQ a k h
    | error e => trivial
  | call write next failed ih ihf =>
    obtain ⟨hallows, hnext, hfailed⟩ := h
    exact ⟨hallows, fun s k' hk hlearns => ih s (hnext s k' hk hlearns), ihf hfailed⟩

theorem pure {a : α} (h : Q a k) : (Pure.pure a : Service σ ε α).Careful L Q k := h

theorem throw (e : ε) : (Service.throw e : Service σ ε α).Careful L Q k := trivial

theorem require {Q : Unit → κ → Prop} (c : Bool) (e : ε) (h : c = true → Q () k) :
    (Service.require c e : Service σ ε Unit).Careful L Q k := by
  cases c with
  | true => exact h rfl
  | false => trivial

theorem request {unreachable : ε} {f : σ → Except ε (α × σ)} (hrefl : ∀ s, L.allows k s s)
    (hallows : ∀ s a s', f s = .ok (a, s') → L.allows k s s')
    (h : ∀ s a s' k', f s = .ok (a, s') → k ≤ k' → L.learns s s' k' → Q a k') :
    (Service.request unreachable f).Careful L Q k := by
  refine ⟨fun s => ?_, fun s k' hk hlearns => ?_, trivial⟩
  · dsimp only
    cases hf : f s with
    | ok r =>
      obtain ⟨a, s'⟩ := r
      exact hallows s a s' hf
    | error e => exact hrefl s
  · dsimp only at hlearns ⊢
    cases hf : f s with
    | ok r =>
      obtain ⟨a, s'⟩ := r
      rw [hf] at hlearns
      exact h s a s' k' hf hk hlearns
    | error e => trivial

theorem query {unreachable : ε} {f : σ → α} (hrefl : ∀ s, L.allows k s s)
    (h : ∀ s k', k ≤ k' → L.learns s s k' → Q (f s) k') :
    (Service.query unreachable f).Careful L Q k :=
  ⟨hrefl, fun s k' hk hlearns => h s k' hk hlearns, trivial⟩

theorem execute {Q : Unit → κ → Prop} {unreachable : ε} {f : σ → σ}
    (hallows : ∀ s, L.allows k s (f s)) (h : ∀ k', k ≤ k' → Q () k') :
    (Service.execute unreachable f).Careful L Q k :=
  ⟨hallows, fun _ k' hk _ => h k' hk, trivial⟩

theorem bind {m : Service σ ε α} {g : α → Service σ ε β} {Q : β → κ → Prop}
    (h : m.Careful L (fun a k => (g a).Careful L Q k) k) : (m >>= g).Careful L Q k := by
  show (m.bind g).Careful L Q k
  induction m generalizing k with
  | done r =>
    cases r with
    | ok a => exact h
    | error e => trivial
  | call write next failed ih ihf =>
    obtain ⟨hallows, hnext, hfailed⟩ := h
    exact ⟨hallows, fun s k' hk hlearns => ih s (hnext s k' hk hlearns), ihf hfailed⟩

/-- Calls that any knowledge allows need no care. -/
theorem of_respects {R : σ → σ → Prop} {m : Service σ ε α} (hm : m.Respects R)
    (hR : ∀ k s s', R s s' → L.allows k s s') (hQ : ∀ a k, Q a k) : m.Careful L Q k := by
  induction m generalizing k with
  | done r =>
    cases r with
    | ok a => exact hQ a k
    | error e => trivial
  | call write next failed ih ihf =>
    exact ⟨fun s => hR k s _ (hm.1 s), fun s _ _ _ => ih s (hm.2.1 s), ihf hm.2.2⟩

theorem void {m : Service σ ε α} (hm : m.Careful L (fun _ _ => True) k) :
    m.void.Careful L (fun _ _ => True) k := by
  induction m generalizing k with
  | done r => trivial
  | call write next failed ih ihf =>
    obtain ⟨hallows, hnext, hfailed⟩ := hm
    exact ⟨hallows, fun s k' hk hlearns => ih s (hnext s k' hk hlearns), ihf hfailed⟩

end Careful

end Service
