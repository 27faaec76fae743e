import BikesNest.Lib.SlidingWindow
import Mathlib.Data.List.AList

/-!
# The in-memory rate limiter

`InMemoryRateLimiter` has a bucket for each key: the times of the allowed checks
that may still count, the time of the last check and the window it was made
with.  Now and then, when a new key arrives, a sweep drops the buckets whose
window has passed since their last check, and the oldest ones when too many are
left.

`Tracks` relates the buckets to the history of the reference limiter.
`Tracks.check` is the step, and `in_memory_eq_reference` the result for any
sequence of checks in which no bucket has to be evicted.

An instant of the monotonic clock and a duration are nanoseconds.
-/

namespace BikesNest.RateLimit

open SlidingWindow Runs

/-! ## The limiter -/

/-- `MAX_BUCKETS`. -/
def maxBuckets : Nat := 100000

/-- `SWEEP_EVERY_NEW_KEYS`. -/
def sweepEveryNewKeys : Nat := 512

structure Bucket where
  events : List Nat
  lastSeen : Nat
  window : Nat

abbrev BucketMap := AList fun _ : String => Bucket

structure Buckets where
  map : BucketMap
  sinceSweep : Nat

/-- No bucket. -/
def Buckets.empty : Buckets := ⟨∅, 0⟩

/-- `HashMap::retain`. -/
def retain (m : BucketMap) (p : Bucket → Bool) : BucketMap where
  entries := m.entries.filter fun e => p e.2
  nodupKeys := List.NodupKeys.sublist List.filter_sublist m.nodupKeys

/-- The buckets whose window has not passed since their last check. -/
def live (m : BucketMap) (now : Nat) : BucketMap :=
  retain m fun b => now - b.lastSeen < b.window

/-- Removes the buckets that were not seen for longest, down to nine tenths of the
cap.  The order of those seen at the same time is left open by the code. -/
def evict (m : BucketMap) : BucketMap :=
  let target := maxBuckets - maxBuckets / 10
  let excess := m.keys.length - target
  let ages := (m.entries.map fun e => (e.2.lastSeen, e.1)).insertionSort fun a b => a.1 ≤ b.1
  (ages.take excess).foldl (fun m a => m.erase a.2) m

/-- `InMemoryRateLimiter::sweep`. -/
def sweep (s : Buckets) (now : Nat) : Buckets :=
  let m := live s.map now
  if m.keys.length < maxBuckets then { map := m, sinceSweep := 0 }
  else { map := evict m, sinceSweep := 0 }

/-- The sweep that a check of a new key may begin with. -/
def makeRoom (s : Buckets) (c : Check String) : Buckets :=
  if c.key ∈ s.map then s
  else
    let s := { s with sinceSweep := s.sinceSweep + 1 }
    if sweepEveryNewKeys ≤ s.sinceSweep ∨ maxBuckets ≤ s.map.keys.length then sweep s c.now else s

/-- `InMemoryRateLimiter::check`. -/
def check (s : Buckets) (c : Check String) : Bool × Buckets :=
  let s := makeRoom s c
  let bucket := (s.map.lookup c.key).getD { events := [], lastSeen := c.now, window := c.window }
  -- Drop events that have fallen outside the window.
  let events := bucket.events.dropWhile fun front => c.window ≤ c.now - front
  if c.limit ≤ events.length then
    (false, { s with map := s.map.insert c.key { events, lastSeen := c.now, window := c.window } })
  else
    (true, { s with
      map := s.map.insert c.key
        { events := events ++ [c.now], lastSeen := c.now, window := c.window } })

/-- No bucket is evicted by a sweep at this time. -/
def HasRoom (s : Buckets) (now : Nat) : Prop := (live s.map now).keys.length < maxBuckets

/-- A check finds its key, or no bucket is evicted for it. -/
def Uncapped (s : Buckets) (c : Check String) : Prop := c.key ∉ s.map → HasRoom s c.now

instance (s : Buckets) (now : Nat) : Decidable (HasRoom s now) :=
  inferInstanceAs (Decidable (_ < _))

instance (s : Buckets) (c : Check String) : Decidable (Uncapped s c) :=
  inferInstanceAs (Decidable (_ → _))

/-! ## Lookups -/

theorem lookup_retain (m : BucketMap) (p : Bucket → Bool) (key : String) :
    (retain m p).lookup key = (m.lookup key).filter p := by
  ext b
  rw [Option.filter_eq_some_iff]
  exact AList.mem_lookup_iff.trans
    (List.mem_filter.trans (and_congr_left' AList.mem_lookup_iff.symm))

/-! ## The invariant -/

variable {windowOf : String → Nat}

/-- What the bucket of a key says about the history of the key at a time.  Without
a bucket, the history is old; with one, the bucket has its recent times. -/
def Agrees (window now : Nat) : Option Bucket → List Nat → Prop
  | none, ts => ∀ t ∈ ts, window ≤ now - t
  | some b, ts => b.window = window ∧ b.lastSeen ≤ now ∧ (∀ t ∈ ts, t ≤ b.lastSeen) ∧
      b.events.Pairwise (· ≤ ·) ∧ recent now window b.events = recent now window ts

/-- The buckets track the history of every key. -/
structure Tracks (windowOf : String → Nat) (now : Nat) (s : Buckets)
    (history : String → List Nat) : Prop where
  past : ∀ key, ∀ t ∈ history key, t ≤ now
  agrees : ∀ key, Agrees (windowOf key) now (s.map.lookup key) (history key)

section Agrees

variable {window now : Nat} {b : Option Bucket} {ts : List Nat}

theorem Agrees.later (h : Agrees window now b ts) {now' : Nat} (hle : now ≤ now') :
    Agrees window now' b ts := by
  cases b with
  | none =>
    intro t ht
    have := h t ht
    omega
  | some b =>
    obtain ⟨hwindow, hseen, hts, hsorted, hrecent⟩ := h
    exact ⟨hwindow, hseen.trans hle, hts, hsorted, recent_congr hle hrecent⟩

/-- A sweep drops a bucket only when the history of its key is old. -/
theorem Agrees.swept (h : Agrees window now b ts) :
    Agrees window now (b.filter fun b => now - b.lastSeen < b.window) ts := by
  cases b with
  | none => exact h
  | some b =>
    rw [Option.filter_some]
    split
    · exact h
    · next hold =>
      obtain ⟨hwindow, _, hts, _⟩ := h
      intro t ht
      have := hts t ht
      rw [decide_eq_true_eq, hwindow] at hold
      omega

/-- What is left of a bucket after the old times are popped. -/
theorem Agrees.popped (h : Agrees window now b ts) (fresh : Bucket)
    (hfresh : fresh.events = []) :
    (b.getD fresh).events.dropWhile (fun front => window ≤ now - front) =
        recent now window ts ∧
      (recent now window ts).Pairwise (· ≤ ·) := by
  cases b with
  | none =>
    show fresh.events.dropWhile _ = _ ∧ _
    rw [hfresh, recent_eq_nil.mpr h]
    exact ⟨rfl, .nil⟩
  | some b =>
    obtain ⟨_, _, _, hsorted, hrecent⟩ := h
    show b.events.dropWhile _ = _ ∧ _
    rw [dropWhile_eq_recent hsorted, hrecent]
    exact ⟨rfl, hrecent ▸ hsorted.filter _⟩

end Agrees

theorem Tracks.later {now now' : Nat} {s : Buckets} {history : String → List Nat}
    (hle : now ≤ now') (h : Tracks windowOf now s history) : Tracks windowOf now' s history where
  past key t ht := (h.past key t ht).trans hle
  agrees key := (h.agrees key).later hle

/-- A sweep that evicts no bucket. -/
theorem Tracks.sweep {now : Nat} {s : Buckets} {history : String → List Nat}
    (h : Tracks windowOf now s history) (hroom : HasRoom s now) :
    Tracks windowOf now (sweep s now) history := by
  refine ⟨h.past, fun key => ?_⟩
  have hsweep : RateLimit.sweep s now = { map := live s.map now, sinceSweep := 0 } := if_pos hroom
  rw [hsweep]
  show Agrees _ _ ((live s.map now).lookup key) _
  rw [live, lookup_retain]
  exact (h.agrees key).swept

theorem Tracks.makeRoom {s : Buckets} {history : String → List Nat} {c : Check String}
    (h : Tracks windowOf c.now s history) (hroom : Uncapped s c) :
    Tracks windowOf c.now (makeRoom s c) history := by
  unfold RateLimit.makeRoom
  split
  · exact h
  · next hnew =>
    have hcounted : Tracks windowOf c.now { s with sinceSweep := s.sinceSweep + 1 } history :=
      ⟨h.past, h.agrees⟩
    dsimp only
    split
    · exact hcounted.sweep (hroom hnew)
    · exact hcounted

/-- The buckets after a check, which replaces the bucket of its key. -/
theorem Tracks.replace {s : Buckets} {history history' : String → List Nat} {c : Check String}
    (h : Tracks windowOf c.now s history) {b : Bucket} {n : Nat}
    (hpast : ∀ t ∈ history' c.key, t ≤ c.now)
    (hkey : Agrees (windowOf c.key) c.now (some b) (history' c.key))
    (hother : ∀ key, key ≠ c.key → history' key = history key) :
    Tracks windowOf c.now { map := s.map.insert c.key b, sinceSweep := n } history' := by
  constructor
  · intro key
    by_cases heq : key = c.key
    · rw [heq]
      exact hpast
    · rw [hother key heq]
      exact h.past key
  · intro key
    by_cases heq : key = c.key
    · rw [heq, AList.lookup_insert]
      exact hkey
    · rw [hother key heq, AList.lookup_insert_ne heq]
      exact h.agrees key

/-- A check answers as the reference limiter does, and the buckets track its history
afterwards. -/
theorem Tracks.check {now : Nat} {s : Buckets} {history : String → List Nat} {c : Check String}
    (h : Tracks windowOf now s history) (hle : now ≤ c.now)
    (hC : c.window = windowOf c.key ∧ Uncapped s c) :
    (check s c).1 = (reference history c).1 ∧
      Tracks windowOf c.now (check s c).2 (reference history c).2 := by
  obtain ⟨hwindow, hroom⟩ := hC
  have hmade := (h.later hle).makeRoom hroom
  have hpast := hmade.past c.key
  obtain ⟨hpopped, hsorted⟩ := (hmade.agrees c.key).popped ⟨[], c.now, c.window⟩ rfl
  unfold RateLimit.check reference
  dsimp only
  rw [← hwindow] at hpopped hsorted
  rw [hpopped]
  by_cases hfull : c.limit ≤ (recent c.now c.window (history c.key)).length
  · rw [if_pos hfull, if_neg (by omega)]
    refine ⟨rfl, hmade.replace hpast ?_ fun _ _ => rfl⟩
    exact ⟨hwindow, le_rfl, hpast, hsorted, by rw [← hwindow, recent_recent le_rfl]⟩
  · rw [if_neg hfull, if_pos (by omega)]
    have hpast' : ∀ t ∈ history c.key ++ [c.now], t ≤ c.now := by
      intro t ht
      rcases List.mem_append.mp ht with ht | ht
      · exact hpast t ht
      · rw [List.mem_singleton.mp ht]
    refine ⟨rfl, hmade.replace ?_ ?_ fun key hne => Function.update_of_ne hne _ _⟩
    · dsimp only
      rw [Function.update_self]
      exact hpast'
    · dsimp only
      rw [Function.update_self]
      refine ⟨hwindow, le_rfl, hpast', ?_, ?_⟩
      · refine List.pairwise_append.mpr ⟨hsorted, List.pairwise_singleton _ _, fun t ht u hu => ?_⟩
        rw [List.mem_singleton.mp hu]
        exact hpast t (List.mem_of_mem_filter ht)
      · rw [← hwindow, recent_append, recent_append, recent_recent le_rfl]

/-! ## Sequences of checks -/

theorem tracks_empty (windowOf : String → Nat) :
    Tracks windowOf 0 .empty fun _ => [] where
  past _ _ ht := by cases ht
  agrees _ _ ht := by cases ht

/-- The buckets after a check. -/
def after (s : Buckets) (c : Check String) : Buckets := (check s c).2

/-- A check with the window of its key that evicts nothing. -/
def Fits (windowOf : String → Nat) (s : Buckets) (c : Check String) : Prop :=
  c.window = windowOf c.key ∧ Uncapped s c

theorem check_step (windowOf : String → Nat) (now : Nat) (s : Buckets)
    (history : String → List Nat) (c : Check String) (h : Tracks windowOf now s history)
    (hle : now ≤ c.now) (hC : Fits windowOf s c) :
    (check s c).1 = (reference history c).1 ∧
      Tracks windowOf c.now (check s c).2 (reference history c).2 :=
  h.check hle hC

/-- The limiter answers as the reference limiter. -/
theorem answers_check (windowOf : String → Nat) {calls : List (Check String)}
    (hclock : (calls.map Check.now).Pairwise (· ≤ ·))
    (hwindow : ∀ c ∈ calls, c.window = windowOf c.key)
    (hcap : Along after Uncapped .empty calls) :
    answers check .empty calls = answers reference (fun _ => []) calls :=
  answers_eq (check_step windowOf) hclock (tracks_empty windowOf)
    (fun _ _ => Nat.zero_le _) (hcap.with_labels hwindow)

/-- For checks with non-decreasing clock readings, one window for each key and no
eviction, the in-memory limiter answers as the reference limiter.  A sweep in
between that evicts nothing changes no later answer.  A key with a constant limit is
allowed at most that often in any half-open interval of the length of its window. -/
theorem in_memory_eq_reference (windowOf : String → Nat) (calls : List (Check String))
    (hclock : (calls.map Check.now).Pairwise (· ≤ ·))
    (hwindow : ∀ c ∈ calls, c.window = windowOf c.key)
    (hcap : Along after Uncapped .empty calls) :
    answers check .empty calls = answers reference (fun _ => []) calls ∧
    (∀ first rest now, calls = first ++ rest → (∀ c ∈ first, c.now ≤ now) →
      (∀ c ∈ rest, now ≤ c.now) → HasRoom (stateAfter check .empty first) now →
      Along after Uncapped (sweep (stateAfter check .empty first) now) rest →
      answers check (sweep (stateAfter check .empty first) now) rest =
        answers check (stateAfter check .empty first) rest) ∧
    ∀ key limit, (∀ c ∈ calls, c.key = key → c.limit = limit) → ∀ a,
      ((allowedTimes key calls (answers check .empty calls)).filter fun t =>
        a ≤ t && t < a + windowOf key).length ≤ limit := by
  have hfits : Along after (Fits windowOf) .empty calls := hcap.with_labels hwindow
  refine ⟨answers_check windowOf hclock hwindow hcap, ?_, ?_⟩
  · intro first rest now hsplit hfirst hrest hroom hrun
    subst hsplit
    rw [List.map_append, List.pairwise_append] at hclock
    have hbefore := along_append.mp hfits
    have htracks : Tracks windowOf now (stateAfter check .empty first)
        (stateAfter reference (fun _ => []) first) :=
      related_stateAfter (check_step windowOf) Tracks.later hclock.1 (tracks_empty windowOf) (Nat.zero_le now)
        (fun c hc => ⟨Nat.zero_le _, hfirst c hc⟩) hbefore.1
    have hswept := hrun.with_labels fun c hc => hwindow c (List.mem_append_right _ hc)
    rw [answers_eq (check_step windowOf) hclock.2.1 (htracks.sweep hroom) hrest hswept,
      answers_eq (check_step windowOf) hclock.2.1 htracks hrest hbefore.2]
  · intro key limit hlimit a
    have hadmitted : Admitted limit (windowOf key)
        (stateAfter reference (fun _ : String => []) calls key) :=
      admitted_stateAfter hclock
        (fun c hc hkey => ⟨hlimit c hc hkey, by rw [hwindow c hc, hkey]⟩) .nil
        fun _ _ _ ht => by cases ht
    rw [stateAfter_reference, List.nil_append] at hadmitted
    rw [answers_check windowOf hclock hwindow hcap]
    exact hadmitted.length_between_le a

/-- Three attempts to log in from one address, two of which are allowed in a minute. -/
def threeLogins : List (Check String) :=
  [⟨"login:ip:203.0.113.7", 2, 60000000000, 0⟩,
    ⟨"login:ip:203.0.113.7", 2, 60000000000, 1000000000⟩,
    ⟨"login:ip:203.0.113.7", 2, 60000000000, 59999999999⟩]

theorem in_memory_eq_reference_logins :
    answers check .empty threeLogins = answers reference (fun _ => []) threeLogins ∧
    (∀ first rest now, threeLogins = first ++ rest → (∀ c ∈ first, c.now ≤ now) →
      (∀ c ∈ rest, now ≤ c.now) → HasRoom (stateAfter check .empty first) now →
      Along after Uncapped (sweep (stateAfter check .empty first) now) rest →
      answers check (sweep (stateAfter check .empty first) now) rest =
        answers check (stateAfter check .empty first) rest) ∧
    ∀ key limit, (∀ c ∈ threeLogins, c.key = key → c.limit = limit) → ∀ a,
      ((allowedTimes key threeLogins (answers check .empty threeLogins)).filter fun t =>
        a ≤ t && t < a + 60000000000).length ≤ limit :=
  in_memory_eq_reference (fun _ => 60000000000) threeLogins (by decide) (by decide)
    (by decide +kernel)

end BikesNest.RateLimit
