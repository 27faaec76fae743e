import BikesNest.Lib.Run
import Mathlib.Data.List.Sort
import Mathlib.Logic.Function.Basic

/-!
# Sliding-window rate limits

A limiter answers a sequence of checks.  The reference limiter keeps the times of
all the checks that it allowed, for each key, and allows a check when fewer than
`limit` of them are recent: less than `window` in the past.

`answers_eq` compares two limiters step by step, `dropWhile_eq_recent` says that
popping old times off the front of a queue leaves the recent ones, and
`length_between_le` bounds the allowed checks in any window of time.

Times and durations are natural numbers in one unit.
-/

namespace SlidingWindow

/-! ## Recent times -/

/-- The times less than `window` before `now`. -/
def recent (now window : Nat) (ts : List Nat) : List Nat :=
  ts.filter fun t => now - t < window

@[simp] theorem recent_nil (now window : Nat) : recent now window [] = [] := rfl

theorem recent_append (now window : Nat) (ts us : List Nat) :
    recent now window (ts ++ us) = recent now window ts ++ recent now window us :=
  List.filter_append ..

/-- What is recent later is recent now. -/
theorem recent_recent {now later : Nat} (h : now ≤ later) (window : Nat) (ts : List Nat) :
    recent later window (recent now window ts) = recent later window ts := by
  unfold recent
  rw [List.filter_filter]
  refine List.filter_congr fun t _ => ?_
  rw [Bool.eq_iff_iff, Bool.and_eq_true]
  simp only [decide_eq_true_eq]
  omega

/-- Times that agree now agree later. -/
theorem recent_congr {now later window : Nat} {ts us : List Nat} (h : now ≤ later)
    (heq : recent now window ts = recent now window us) :
    recent later window ts = recent later window us := by
  rw [← recent_recent h, heq, recent_recent h]

theorem recent_eq_nil {now window : Nat} {ts : List Nat} :
    recent now window ts = [] ↔ ∀ t ∈ ts, window ≤ now - t := by
  unfold recent
  rw [List.filter_eq_nil_iff]
  simp

/-- Popping the old times off the front of a queue leaves the recent ones. -/
theorem dropWhile_eq_recent {ts : List Nat} (h : ts.Pairwise (· ≤ ·)) (now window : Nat) :
    ts.dropWhile (fun t => window ≤ now - t) = recent now window ts := by
  induction ts with
  | nil => rfl
  | cons t ts ih =>
    rw [List.pairwise_cons] at h
    unfold recent
    by_cases hold : window ≤ now - t
    · rw [List.dropWhile_cons_of_pos (by simpa using hold), ih h.2,
        List.filter_cons_of_neg (by simpa using hold)]
      rfl
    · rw [List.dropWhile_cons_of_neg (by simpa using hold)]
      refine (List.filter_eq_self.mpr fun u hu => ?_).symm
      rw [decide_eq_true_eq]
      rcases List.mem_cons.mp hu with rfl | hu
      · omega
      · have := h.1 u hu
        omega

/-! ## Limiters -/

/-- A check of a key against a limit, at a reading of the clock. -/
structure Check (κ : Type) where
  key : κ
  limit : Nat
  window : Nat
  now : Nat

variable {κ σ τ ℓ α : Type}

/-- The answers of a limiter to a sequence of checks. -/
def answers (step : σ → ℓ → α × σ) : σ → List ℓ → List α
  | _, [] => []
  | s, c :: cs => (step s c).1 :: answers step (step s c).2 cs

/-- The state after a sequence of checks. -/
def stateAfter (step : σ → ℓ → α × σ) (s : σ) (cs : List ℓ) : σ :=
  cs.foldl (fun s c => (step s c).2) s

/-! ## Simulation -/

section Simulation

variable {clock : ℓ → Nat} {A : σ → ℓ → α × σ} {B : τ → ℓ → α × τ} {R : Nat → σ → τ → Prop}
  {C : σ → ℓ → Prop}

/-- Two limiters whose states are related, as of the last reading of the clock, and
whose checks answer the same and lead to related states, answer the same. -/
theorem answers_eq
    (hstep : ∀ now s t c, R now s t → now ≤ clock c → C s c →
      (A s c).1 = (B t c).1 ∧ R (clock c) (A s c).2 (B t c).2)
    {cs : List ℓ} (hclock : (cs.map clock).Pairwise (· ≤ ·)) {now : Nat} {s : σ}
    {t : τ} (hstart : R now s t) (hlater : ∀ c ∈ cs, now ≤ clock c)
    (hC : Runs.Along (fun s c => (A s c).2) C s cs) : answers A s cs = answers B t cs := by
  induction cs generalizing now s t with
  | nil => rfl
  | cons c cs ih =>
    rw [List.map_cons, List.pairwise_cons] at hclock
    obtain ⟨hans, hnext⟩ := hstep now s t c hstart (hlater c List.mem_cons_self) hC.1
    unfold answers
    rw [hans, ih hclock.2 hnext (fun d hd => hclock.1 _ (List.mem_map_of_mem hd)) hC.2]

/-- Their states stay related. -/
theorem related_stateAfter
    (hstep : ∀ now s t c, R now s t → now ≤ clock c → C s c →
      (A s c).1 = (B t c).1 ∧ R (clock c) (A s c).2 (B t c).2)
    (hmono : ∀ {now later s t}, now ≤ later → R now s t → R later s t)
    {cs : List ℓ} (hclock : (cs.map clock).Pairwise (· ≤ ·)) {now later : Nat} {s : σ}
    {t : τ} (hstart : R now s t) (hle : now ≤ later)
    (hbetween : ∀ c ∈ cs, now ≤ clock c ∧ clock c ≤ later)
    (hC : Runs.Along (fun s c => (A s c).2) C s cs) :
    R later (stateAfter A s cs) (stateAfter B t cs) := by
  induction cs generalizing now s t with
  | nil => exact hmono hle hstart
  | cons c cs ih =>
    rw [List.map_cons, List.pairwise_cons] at hclock
    have hc := hbetween c List.mem_cons_self
    obtain ⟨_, hnext⟩ := hstep now s t c hstart hc.1 hC.1
    exact ih hclock.2 hnext hc.2 (fun d hd => ⟨hclock.1 _ (List.mem_map_of_mem hd),
      (hbetween d (List.mem_cons_of_mem _ hd)).2⟩) hC.2

end Simulation

/-! ## The reference limiter -/

section Reference

variable [DecidableEq κ]

/-- The reference limiter: the history has the times of the allowed checks of every
key. -/
def reference (history : κ → List Nat) (c : Check κ) : Bool × (κ → List Nat) :=
  if (recent c.now c.window (history c.key)).length < c.limit then
    (true, Function.update history c.key (history c.key ++ [c.now]))
  else (false, history)

/-- The times of the allowed checks of a key. -/
def allowedTimes (key : κ) (cs : List (Check κ)) (bs : List Bool) : List Nat :=
  ((cs.zip bs).filter fun x => decide (x.1.key = key) && x.2).map fun x => x.1.now

theorem allowedTimes_cons (key : κ) (c : Check κ) (cs : List (Check κ)) (b : Bool)
    (bs : List Bool) :
    allowedTimes key (c :: cs) (b :: bs) =
      (if c.key = key ∧ b = true then [c.now] else []) ++ allowedTimes key cs bs := by
  unfold allowedTimes
  rw [List.zip_cons_cons, List.filter_cons]
  by_cases hkey : c.key = key
  · cases b <;> simp [hkey]
  · simp [hkey]

/-- An allowed check is added to the history of its key. -/
theorem reference_history (history : κ → List Nat) (c : Check κ) (key : κ) :
    (reference history c).2 key =
      history key ++ if c.key = key ∧ (reference history c).1 = true then [c.now] else [] := by
  unfold reference
  split
  · by_cases hkey : c.key = key
    · subst hkey
      simp
    · simp [hkey, Function.update_of_ne (Ne.symm hkey)]
  · simp

/-- The history has the times of the allowed checks. -/
theorem stateAfter_reference (history : κ → List Nat) (cs : List (Check κ)) (key : κ) :
    stateAfter reference history cs key =
      history key ++ allowedTimes key cs (answers reference history cs) := by
  induction cs generalizing history with
  | nil => simp [stateAfter, allowedTimes]
  | cons c cs ih =>
    show stateAfter reference (reference history c).2 cs key =
      _ ++ allowedTimes key (c :: cs) (_ :: answers reference (reference history c).2 cs)
    rw [ih, allowedTimes_cons, reference_history, List.append_assoc]

/-- The times of a key with a constant limit and window: each was allowed on top of
those before it. -/
inductive Admitted (limit window : Nat) : List Nat → Prop where
  | nil : Admitted limit window []
  | snoc {ts : List Nat} {t : Nat} (h : Admitted limit window ts) (hlast : ∀ u ∈ ts, u ≤ t)
      (hroom : (recent t window ts).length < limit) : Admitted limit window (ts ++ [t])

theorem reference_allows {history : κ → List Nat} {c : Check κ} :
    (reference history c).1 = true ↔
      (recent c.now c.window (history c.key)).length < c.limit := by
  unfold reference
  split <;> simp_all

/-- A check keeps the times of a key admitted. -/
theorem Admitted.reference {history : κ → List Nat} {c : Check κ} {key : κ} {limit window : Nat}
    (h : Admitted limit window (history key)) (hbefore : ∀ t ∈ history key, t ≤ c.now)
    (hsame : c.key = key → c.limit = limit ∧ c.window = window) :
    Admitted limit window ((SlidingWindow.reference history c).2 key) := by
  rw [reference_history]
  split
  · next hallowed =>
    have hroom := reference_allows.mp hallowed.2
    rw [hallowed.1, (hsame hallowed.1).1, (hsame hallowed.1).2] at hroom
    exact h.snoc hbefore hroom
  · rwa [List.append_nil]

/-- A run of the reference limiter with non-decreasing clock readings admits the
times of a key that always has the same limit and window. -/
theorem admitted_stateAfter {cs : List (Check κ)} {key : κ} {limit window : Nat}
    (hclock : (cs.map Check.now).Pairwise (· ≤ ·))
    (hsame : ∀ c ∈ cs, c.key = key → c.limit = limit ∧ c.window = window)
    {history : κ → List Nat} (hhistory : Admitted limit window (history key))
    (hbefore : ∀ c ∈ cs, ∀ t ∈ history key, t ≤ c.now) :
    Admitted limit window (stateAfter reference history cs key) := by
  induction cs generalizing history with
  | nil => exact hhistory
  | cons c cs ih =>
    rw [List.map_cons, List.pairwise_cons] at hclock
    have hlater : ∀ d ∈ cs, c.now ≤ d.now := fun d hd => hclock.1 _ (List.mem_map_of_mem hd)
    refine ih hclock.2 (fun d hd => hsame d (List.mem_cons_of_mem _ hd)) ?_ ?_
    · exact hhistory.reference (hbefore c List.mem_cons_self) (hsame c List.mem_cons_self)
    · intro d hd t ht
      change t ∈ (SlidingWindow.reference history c).2 key at ht
      rw [reference_history] at ht
      rcases List.mem_append.mp ht with ht | ht
      · exact hbefore d (List.mem_cons_of_mem _ hd) t ht
      · split at ht
        · rw [List.mem_singleton.mp ht]
          exact hlater d hd
        · cases ht

/-- No half-open interval as long as the window has more than `limit` of the times. -/
theorem Admitted.length_between_le {limit window : Nat} {ts : List Nat}
    (h : Admitted limit window ts) (a : Nat) :
    (ts.filter fun t => a ≤ t && t < a + window).length ≤ limit := by
  induction h with
  | nil => exact Nat.zero_le _
  | @snoc ts t _ hlast hroom ih =>
    rw [List.filter_append, List.length_append]
    by_cases hin : a ≤ t ∧ t < a + window
    · -- All the times of the interval are recent at the last one.
      have hsub : (ts.filter fun u => a ≤ u && u < a + window).length ≤
          (recent t window ts).length := by
        refine (List.monotone_filter_right ts fun u hu => ?_).length_le
        simp only [Bool.and_eq_true, decide_eq_true_eq] at hu ⊢
        omega
      have hone : (([t]).filter fun u => a ≤ u && u < a + window).length ≤ 1 :=
        List.length_filter_le _ _
      omega
    · have hnone : ([t].filter fun u => decide (a ≤ u) && decide (u < a + window)) = [] := by
        rw [List.filter_cons_of_neg (by simpa using hin), List.filter_nil]
      rw [hnone]
      exact ih

/-! ## Units -/

/-- A check with its times in a unit `k` times as small. -/
def Check.scale (k : Nat) (c : Check κ) : Check κ :=
  { c with window := k * c.window, now := k * c.now }

theorem recent_scale {k : Nat} (hk : 0 < k) (now window : Nat) (ts : List Nat) :
    recent (k * now) (k * window) (ts.map (k * ·)) = (recent now window ts).map (k * ·) := by
  unfold recent
  rw [List.filter_map]
  congr 1
  refine List.filter_congr fun t _ => ?_
  rw [Bool.eq_iff_iff]
  simp only [Function.comp_apply, decide_eq_true_eq]
  rw [← Nat.mul_sub, Nat.mul_lt_mul_left hk]

/-- The unit of time does not matter to the reference limiter. -/
theorem answers_scale {k : Nat} (hk : 0 < k) (history : κ → List Nat) (cs : List (Check κ)) :
    answers reference (fun key => (history key).map (k * ·)) (cs.map (Check.scale k)) =
      answers reference history cs := by
  induction cs generalizing history with
  | nil => rfl
  | cons c cs ih =>
    have hstep : reference (fun key => (history key).map (k * ·)) (c.scale k) =
        ((reference history c).1, fun key => ((reference history c).2 key).map (k * ·)) := by
      unfold reference Check.scale
      dsimp only
      rw [recent_scale hk, List.length_map]
      split
      · refine Prod.ext rfl (funext fun key => ?_)
        by_cases hkey : key = c.key
        · subst hkey
          simp
        · simp [Function.update_of_ne hkey]
      · rfl
    rw [List.map_cons]
    unfold answers
    rw [hstep, ih]

end Reference

end SlidingWindow
