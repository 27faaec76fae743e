import Mathlib.Logic.Relation

/-!
# Runs of a system

A system is a step relation `σ → ℓ → σ → Prop` over states and labels, or a
function `σ → ℓ → σ` when every step has one outcome.  This file has the two
notions of run that go with them and the induction rules for both.

* `Run step s ls s'` is a finite run of a relation, with the labels of its
  steps.  `Run.invariant` is the invariant rule, and `Guarded C step` keeps
  the steps that meet a condition `C` on the state before the step.
* `Throughout exec P s ls` says that `P` holds in every state that the steps
  `ls` reach from `s`, the first included.  `Along exec C s ls` says that
  every step of `ls` meets `C` in the state before it.
  `throughout_iff_along` trades one for the other.
-/

namespace Runs

variable {σ ℓ : Type}

/-! ## Runs of a relation -/

/-- A finite run of `step`, with the labels of its steps in order. -/
inductive Run (step : σ → ℓ → σ → Prop) : σ → List ℓ → σ → Prop where
  | nil (s : σ) : Run step s [] s
  | cons {s s' s'' : σ} {l : ℓ} {ls : List ℓ} (head : step s l s')
      (tail : Run step s' ls s'') : Run step s (l :: ls) s''

/-- The steps of `step` that meet `C` in the state before the step. -/
def Guarded (C : σ → ℓ → Prop) (step : σ → ℓ → σ → Prop) : σ → ℓ → σ → Prop :=
  fun s l s' => C s l ∧ step s l s'

namespace Run

variable {step step' : σ → ℓ → σ → Prop} {s s' s'' : σ} {ls ls' : List ℓ}

/-- What every step keeps, every run keeps. -/
theorem invariant {I : σ → Prop}
    (hstep : ∀ s l s', I s → step s l s' → I s')
    (hrun : Run step s ls s') (hs : I s) : I s' := by
  induction hrun with
  | nil => exact hs
  | cons head _ ih => exact ih (hstep _ _ _ hs head)

/-- A run of a smaller step relation is a run of a larger one. -/
theorem mono (h : ∀ s l s', step s l s' → step' s l s')
    (hrun : Run step s ls s') : Run step' s ls s' := by
  induction hrun with
  | nil => exact .nil _
  | cons head _ ih => exact .cons (h _ _ _ head) ih

/-- Two runs in sequence are one run. -/
theorem append (h : Run step s ls s') (h' : Run step s' ls' s'') :
    Run step s (ls ++ ls') s'' := by
  induction h with
  | nil => exact h'
  | cons head _ ih => exact .cons head (ih h')

/-- A run of two lists is two runs in sequence. -/
theorem exists_of_append {ls ls' : List ℓ} {s s'' : σ} (h : Run step s (ls ++ ls') s'') :
    ∃ s', Run step s ls s' ∧ Run step s' ls' s'' := by
  induction ls generalizing s with
  | nil => exact ⟨s, .nil s, h⟩
  | cons l ls ih =>
    cases h with
    | cons head tail =>
      obtain ⟨s', hfirst, hsecond⟩ := ih tail
      exact ⟨s', .cons head hfirst, hsecond⟩

/-- What fails at the start of a run and holds at its end is gained at a step. -/
theorem exists_turn {P : σ → Prop} (hrun : Run step s ls s') (hs : ¬ P s) (hs' : P s') :
    ∃ ls₁ l ls₂ t t', ls = ls₁ ++ l :: ls₂ ∧ Run step s ls₁ t ∧ step t l t' ∧ ¬ P t ∧ P t' := by
  induction hrun with
  | nil s => exact absurd hs' hs
  | @cons s t s' l ls head tail ih =>
    by_cases ht : P t
    · exact ⟨[], l, ls, s, t, rfl, .nil s, head, hs, ht⟩
    · obtain ⟨ls₁, l', ls₂, u, u', rfl, hrun, hstep, hu, hu'⟩ := ih ht hs'
      exact ⟨l :: ls₁, l', ls₂, u, u', rfl, .cons head hrun, hstep, hu, hu'⟩

/-- A system whose steps have one outcome has one run for each list of labels. -/
theorem unique (hstep : ∀ {s l t t'}, step s l t → step s l t' → t = t') {s s' s'' : σ}
    (h : Run step s ls s') (h' : Run step s ls s'') : s' = s'' := by
  induction h with
  | nil s =>
    cases h'
    rfl
  | cons head tail ih =>
    cases h' with
    | cons head' tail' =>
      obtain rfl := hstep head head'
      exact ih tail'

/-- A run of the guarded steps is a run. -/
theorem unguard {C : σ → ℓ → Prop} (h : Run (Guarded C step) s ls s') :
    Run step s ls s' :=
  h.mono fun _ _ _ hstep => hstep.2

/-- A list of labels that a partial step function accepts one after the other
is a run of its graph. -/
theorem of_foldlM {next : σ → ℓ → Option σ} :
    ∀ {ls : List ℓ} {s s' : σ}, ls.foldlM next s = some s' →
      Run (fun s l s' => next s l = some s') s ls s'
  | [], s, s', h => by
    obtain rfl : s = s' := by simpa using h
    exact .nil _
  | l :: ls, s, s', h => by
    rw [List.foldlM_cons] at h
    obtain ⟨t, ht, hrest⟩ := Option.bind_eq_some_iff.mp h
    exact .cons ht (of_foldlM hrest)

/-- The same for labels that also meet a condition that can be computed. -/
theorem guarded_of_foldlM {next : σ → ℓ → Option σ} {C : σ → ℓ → Bool} {ls : List ℓ}
    {s s' : σ} (h : ls.foldlM (fun s l => if C s l then next s l else none) s = some s') :
    Run (Guarded (fun s l => C s l = true) fun s l s' => next s l = some s') s ls s' := by
  refine (of_foldlM h).mono fun s l s' hstep => ?_
  split at hstep
  · exact ⟨by assumption, hstep⟩
  · cases hstep

/-- A run whose labels all meet a condition. -/
theorem guarded_of_forall {C : ℓ → Prop} (h : Run step s ls s') (hlabels : ∀ l ∈ ls, C l) :
    Run (Guarded (fun _ l => C l) step) s ls s' := by
  induction h with
  | nil => exact .nil _
  | cons head _ ih =>
    rw [List.forall_mem_cons] at hlabels
    exact .cons ⟨hlabels.1, head⟩ (ih hlabels.2)

end Run

/-! ## Runs of a function -/

/-- `P` holds in every state that the steps reach, the first included. -/
def Throughout (exec : σ → ℓ → σ) (P : σ → Prop) : σ → List ℓ → Prop
  | s, [] => P s
  | s, l :: ls => P s ∧ Throughout exec P (exec s l) ls

/-- Every step meets `C` in the state before it. -/
def Along (exec : σ → ℓ → σ) (C : σ → ℓ → Prop) : σ → List ℓ → Prop
  | _, [] => True
  | s, l :: ls => C s l ∧ Along exec C (exec s l) ls

variable {exec : σ → ℓ → σ} {P : σ → Prop} {C D : σ → ℓ → Prop}

instance Along.decidable [∀ s l, Decidable (C s l)] :
    ∀ (s : σ) (ls : List ℓ), Decidable (Along exec C s ls)
  | _, [] => isTrue trivial
  | s, l :: ls => @instDecidableAnd _ _ _ (Along.decidable (exec s l) ls)

theorem Throughout.start {s : σ} {ls : List ℓ} (h : Throughout exec P s ls) :
    P s := by
  cases ls with
  | nil => exact h
  | cons => exact h.1

/-- A condition that every step meets. -/
theorem Along.of_forall (h : ∀ s l, C s l) : ∀ {ls : List ℓ} {s : σ}, Along exec C s ls
  | [], _ => trivial
  | _ :: _, s => ⟨h s _, Along.of_forall h⟩

/-- A condition on the labels alone holds along a run when it holds of every label. -/
theorem Along.with_labels {L : ℓ → Prop} :
    ∀ {ls : List ℓ} {s : σ}, (∀ l ∈ ls, L l) → Along exec C s ls →
      Along exec (fun s l => L l ∧ C s l) s ls
  | [], _, _, _ => trivial
  | l :: _, _, hls, h =>
    ⟨⟨hls l List.mem_cons_self, h.1⟩,
      Along.with_labels (fun l' hl' => hls l' (List.mem_cons_of_mem _ hl')) h.2⟩

/-- Two runs in sequence. -/
theorem along_append {s : σ} {ls ls' : List ℓ} :
    Along exec C s (ls ++ ls') ↔ Along exec C s ls ∧ Along exec C (ls.foldl exec s) ls' := by
  induction ls generalizing s with
  | nil => simp [Along]
  | cons l ls ih =>
    show C s l ∧ Along exec C (exec s l) (ls ++ ls') ↔ (C s l ∧ Along exec C (exec s l) ls) ∧ _
    rw [ih, and_assoc]
    rfl

/-- When a step that meets `C` keeps `J`, a run whose steps all meet `C` stays in
what `J` implies. -/
theorem Along.throughout {J : σ → Prop} (hstep : ∀ s l, J s → C s l → J (exec s l))
    (hP : ∀ s, J s → P s) :
    ∀ {ls : List ℓ} {s : σ}, J s → Along exec C s ls → Throughout exec P s ls
  | [], s, hs, _ => hP s hs
  | l :: _, s, hs, h => ⟨hP s hs, Along.throughout hstep hP (hstep s l hs h.1) h.2⟩

/-- When every step keeps `J`, every run stays in what `J` implies. -/
theorem Throughout.of_invariant {J : σ → Prop} (hkeep : ∀ s l, J s → J (exec s l))
    (hP : ∀ s, J s → P s) : ∀ {ls : List ℓ} {s : σ}, J s → Throughout exec P s ls
  | [], s, hs => hP s hs
  | l :: _, s, hs => ⟨hP s hs, Throughout.of_invariant hkeep hP (hkeep s l hs)⟩

/-- When every step keeps `J`, and a step from a state with `J` and `P` leads
to a state with `P` exactly if it meets `C`, then a run stays in `P` exactly if
all its steps meet `C`. -/
theorem throughout_iff_along {J : σ → Prop} (hkeep : ∀ s l, J s → J (exec s l))
    (hstep : ∀ s l, J s → P s → (P (exec s l) ↔ C s l)) :
    ∀ {ls : List ℓ} {s : σ}, J s → P s → (Throughout exec P s ls ↔ Along exec C s ls)
  | [], _, _, hs => by simp [Throughout, Along, hs]
  | l :: ls, s, hj, hs => by
    have hnext := hkeep s l hj
    constructor
    · intro h
      have hp : P (exec s l) := h.2.start
      exact ⟨(hstep s l hj hs).mp hp, (throughout_iff_along hkeep hstep hnext hp).mp h.2⟩
    · intro h
      have hp : P (exec s l) := (hstep s l hj hs).mpr h.1
      exact ⟨hs, (throughout_iff_along hkeep hstep hnext hp).mpr h.2⟩

/-- On the states of an invariant a condition may be weakened along a run. -/
theorem Along.mono (hkeep : ∀ s l, P s → P (exec s l))
    (himp : ∀ s l, P s → C s l → D s l) :
    ∀ {ls : List ℓ} {s : σ}, P s → Along exec C s ls → Along exec D s ls
  | [], _, _, _ => trivial
  | l :: _, s, hs, h => ⟨himp s l hs h.1, Along.mono hkeep himp (hkeep s l hs) h.2⟩

/-- Two conditions that agree on the states of an invariant agree on every
run that starts in it. -/
theorem along_congr (hkeep : ∀ s l, P s → P (exec s l))
    (hiff : ∀ s l, P s → (C s l ↔ D s l)) :
    ∀ {ls : List ℓ} {s : σ}, P s → (Along exec C s ls ↔ Along exec D s ls)
  | [], _, _ => Iff.rfl
  | l :: _, s, hs =>
    and_congr (hiff s l hs) (along_congr hkeep hiff (hkeep s l hs))

end Runs
