import BikesNest.Jobs.Recurring

/-!
# The times of the next run

When the arithmetic behind a run time is safe.  The retry delay is a saturating `u64`
that is cast to `i64` and added to an instant; the interval of a recurring job is any
positive `i64`.  Both go wrong beyond the end of the calendar and nowhere else:
`retry_time_iff` and `next_run_at_iff`.
-/

namespace BikesNest.Jobs

open Relational

/-! ## The retry delay -/

/-- The delay without saturation. -/
def exactDelay (attempt : Int) (baseMs jitter : Nat) : Nat :=
  baseMs * 2 ^ (attempt - 1).toNat + jitter

/-- The delay is exact below `2 ^ 63`, and what is larger stays larger. -/
theorem backoffMs_cases (attempt : Int) {baseMs jitter : Nat}
    (hjitter : jitter < max baseMs 1) :
    (backoffMs attempt baseMs jitter = exactDelay attempt baseMs jitter ∧
      exactDelay attempt baseMs jitter < 2 ^ 63) ∨
    (2 ^ 63 ≤ backoffMs attempt baseMs jitter ∧ backoffMs attempt baseMs jitter < 2 ^ 64 ∧
      2 ^ 63 ≤ exactDelay attempt baseMs jitter) := by
  have hexp : (max (attempt - 1) 0).toNat = (attempt - 1).toNat := by omega
  unfold backoffMs exactDelay
  simp only [hexp]
  generalize (attempt - 1).toNat = exp
  rcases Nat.lt_or_ge 63 exp with hlarge | hsmall
  · rw [Nat.min_eq_right hlarge.le]
    rcases Nat.eq_zero_or_pos baseMs with hzero | hpos
    · subst hzero
      simp only [Nat.zero_mul, Nat.zero_add]
      omega
    · have hcapped : 2 ^ 63 ≤ baseMs * 2 ^ 63 := Nat.le_mul_of_pos_left _ hpos
      have hpow : 2 ^ 63 ≤ 2 ^ exp := Nat.pow_le_pow_right (by omega) hlarge.le
      have hexact : 2 ^ 63 ≤ baseMs * 2 ^ exp :=
        hpow.trans (Nat.le_mul_of_pos_left _ hpos)
      generalize baseMs * 2 ^ 63 = capped at *
      generalize baseMs * 2 ^ exp = exact at *
      omega
  · rw [Nat.min_eq_left hsmall]
    generalize baseMs * 2 ^ exp = exact
    omega

/-- A later attempt never waits less, whatever the two jitters are. -/
theorem backoffMs_mono {attempt later : Int} {baseMs jitter : Nat} (hattempt : 1 ≤ attempt)
    (hlater : attempt < later) (hjitter : jitter < max baseMs 1) (laterJitter : Nat) :
    backoffMs attempt baseMs jitter ≤ backoffMs later baseMs laterJitter := by
  have hexp : (max (attempt - 1) 0).toNat < (max (later - 1) 0).toNat := by omega
  unfold backoffMs
  dsimp only
  generalize (max (attempt - 1) 0).toNat = exp at *
  generalize (max (later - 1) 0).toNat = exp' at *
  have hnext : baseMs * 2 ^ min exp 63 + jitter ≤ baseMs * 2 ^ min exp' 63 ∨
      2 ^ 64 ≤ baseMs * 2 ^ min exp' 63 := by
    rcases Nat.lt_or_ge exp 63 with hsmall | hlarge
    · -- The jitter is less than the step to the next power.
      have hpow : 2 ^ (exp + 1) ≤ 2 ^ min exp' 63 := Nat.pow_le_pow_right (by omega) (by omega)
      have hmul := Nat.mul_le_mul_left baseMs hpow
      have hone : baseMs ≤ baseMs * 2 ^ exp := Nat.le_mul_of_pos_right _ (Nat.two_pow_pos exp)
      rw [pow_succ, ← mul_assoc] at hmul
      rw [Nat.min_eq_left hsmall.le]
      omega
    · rw [Nat.min_eq_right hlarge, Nat.min_eq_right (by omega)]
      omega
  generalize baseMs * 2 ^ min exp 63 = delay at *
  generalize baseMs * 2 ^ min exp' 63 = delay' at *
  omega

/-! ## Retries -/

/-- The retry is at a time of the calendar that is not past, and no later retry waits less. -/
structure RetryWellTimed (env : Worker) (q : JobQueue) (now : Instant) (w : WorkerId)
    (job : ClaimedJob) (e : String) (endedAt : Instant) (jitter : Nat) : Prop where
  future : ∃ runAt,
    addMillis endedAt (backoffMs job.attempts env.config.backoffBaseMs jitter) =
      .returned runAt ∧
    recordOutcome env q now w job (.error (.failed e)) endedAt jitter =
      .returned (retry q job.id w e runAt) ∧
    endedAt ≤ runAt ∧ runAt < endOfTime
  grows : ∀ later laterJitter, job.attempts < later →
    laterJitter < max env.config.backoffBaseMs 1 →
    backoffMs job.attempts env.config.backoffBaseMs jitter ≤
      backoffMs later env.config.backoffBaseMs laterJitter

/-- Adding the delay: exact within the calendar, and a panic or an earlier instant beyond it. -/
theorem addMillis_backoffMs_iff (attempt : Int) {baseMs jitter : Nat} {now : Instant}
    (hjitter : jitter < max baseMs 1) (hnow : startOfTime ≤ now) :
    (∃ runAt, addMillis now (backoffMs attempt baseMs jitter) = .returned runAt ∧
      now ≤ runAt ∧ runAt < endOfTime) ↔
      now + exactDelay attempt baseMs jitter * millisecond < endOfTime := by
  unfold startOfTime second Instant at hnow
  unfold addMillis startOfTime endOfTime millisecond second Instant
  dsimp only
  rcases backoffMs_cases attempt hjitter with ⟨hexact, hsmall⟩ | ⟨hlow, hhigh, hlarge⟩
  · have hcast : Int.bmod (exactDelay attempt baseMs jitter) (2 ^ 64) =
        exactDelay attempt baseMs jitter := by
      rw [Int.bmod_eq_of_le] <;> omega
    rw [hexact, hcast]
    generalize exactDelay attempt baseMs jitter = delay at *
    constructor
    · rintro ⟨runAt, hadd, _, _⟩
      split at hadd
      · cases hadd
      · omega
    · intro hend
      rw [if_neg (by omega)]
      exact ⟨_, rfl, by omega, hend⟩
  · have hcast : Int.bmod (backoffMs attempt baseMs jitter) (2 ^ 64) =
        backoffMs attempt baseMs jitter - 2 ^ 64 := by
      rw [Int.bmod_eq_emod, Int.emod_eq_of_lt (by omega) (by omega), if_pos (by omega)]
      rfl
    rw [hcast]
    generalize exactDelay attempt baseMs jitter = delay at *
    generalize backoffMs attempt baseMs jitter = wrapped at *
    constructor
    · rintro ⟨runAt, hadd, hfuture, _⟩
      split at hadd
      · cases hadd
      · obtain rfl := Call.returned.inj hadd
        omega
    · intro hend
      omega

/-- A retry is well timed exactly if the delay, without saturation, ends within the
calendar. -/
theorem retry_time_iff (env : Worker) (q : JobQueue) (now : Instant) (w : WorkerId)
    (job : ClaimedJob) (e : String) (endedAt : Instant) (jitter : Nat)
    (hattempts : 1 ≤ job.attempts) (hbudget : job.attempts < job.maxAttempts)
    (hjitter : jitter < max env.config.backoffBaseMs 1) (hnow : startOfTime ≤ endedAt) :
    RetryWellTimed env q now w job e endedAt jitter ↔
      endedAt + (env.config.backoffBaseMs * 2 ^ (job.attempts - 1).toNat + jitter : Nat) *
        millisecond < endOfTime := by
  have hadd := addMillis_backoffMs_iff job.attempts hjitter hnow
  unfold exactDelay at hadd
  rw [← hadd]
  constructor
  · intro h
    obtain ⟨runAt, hreturned, _, hfuture, hend⟩ := h.future
    exact ⟨runAt, hreturned, hfuture, hend⟩
  · rintro ⟨runAt, hreturned, hfuture, hend⟩
    have hrecord : recordOutcome env q now w job (.error (.failed e)) endedAt jitter =
        .returned (retry q job.id w e runAt) := by
      show (if job.attempts < job.maxAttempts then _ else _) = _
      rw [if_pos hbudget, hreturned]
    exact ⟨⟨runAt, hreturned, hrecord, hfuture, hend⟩,
      fun later laterJitter hlater _ => backoffMs_mono hattempts hlater hjitter laterJitter⟩

/-- A job with this many attempts, out of sixty. -/
def attempted (attempts : Int) : ClaimedJob :=
  { id := 1, kind := jobEmailSend, payload := .obj [], attempts, maxAttempts := 60,
    schedule := none }

theorem retry_time_first :
    RetryWellTimed builtin Table.empty 0 1 (attempted 1) "timeout" 0 1999 ↔
      (0 : Instant) + (2000 * 2 ^ ((1 : Int) - 1).toNat + 1999 : Nat) * millisecond < endOfTime :=
  retry_time_iff builtin Table.empty 0 1 (attempted 1) "timeout" 0 1999 (by decide) (by decide)
    (by decide) (by decide)

/-- With the default base the 55th attempt saturates and is cast to `-1`. -/
theorem retry_55_not_well_timed :
    ¬RetryWellTimed builtin Table.empty 0 1 (attempted 55) "timeout" 0 0 := by
  intro h
  obtain ⟨runAt, hreturned, _, hfuture, _⟩ := h.future
  have hpast : addMillis 0 (backoffMs 55 2000 0) = .returned (-millisecond) := by rfl
  obtain rfl := Call.returned.inj (hpast.symm.trans hreturned)
  exact absurd hfuture (by decide)

/-! ## Schedules -/

/-- The answer is none for an absent or null schedule only, a permanent error, or a time
to come. -/
def NextRunTotal (crates : SchedulingCrates) (schedule : Option Json) (now : Instant) : Prop :=
  ∃ answer, nextRunAt crates schedule now = .returned answer ∧
    (answer = .ok none ↔ schedule = none ∨ schedule = some .null) ∧
    (∀ next, answer = .ok (some next) → now < next) ∧
    ∀ e, answer = .error e → ∃ message, e = .permanent message

/-- Every tick of a cron schedule is strictly after the time it is asked for. -/
def TicksAhead (crates : SchedulingCrates) : Prop :=
  ∀ text next, crates.parseCron text = .ok next → ∀ now tick, next now = some tick → now < tick

/-- The seconds that a schedule asks for, when they are a positive number. -/
def interval (s : Json) : Option Int := (everySeconds s).filter fun n => 0 < n

theorem addSeconds_iff {now : Instant} {n : Int} (hn : 0 < n) (hnow : startOfTime ≤ now) :
    (∃ next, addSeconds now n = .returned next ∧ now < next) ↔ now + n * second < endOfTime := by
  unfold startOfTime second Instant at hnow
  unfold addSeconds endOfTime second Instant
  constructor
  · rintro ⟨next, hadd, _⟩
    split_ifs at hadd
    omega
  · intro hend
    rw [if_neg (by omega), if_neg (by omega)]
    exact ⟨_, rfl, by omega⟩

theorem nextCronTick_answer {crates : SchedulingCrates} (hticks : TicksAhead crates)
    (expr : String) (now : Instant) :
    (∃ message, nextCronTick crates expr now = .error (.permanent message)) ∨
      ∃ next, nextCronTick crates expr now = .ok (some next) ∧ now < next := by
  unfold nextCronTick
  cases hparse : crates.parseCron (normalizeCron expr) with
  | error e => exact .inl ⟨_, rfl⟩
  | ok next =>
    dsimp only
    cases htick : next now with
    | none => exact .inl ⟨_, rfl⟩
    | some tick => exact .inr ⟨tick, rfl, hticks _ next hparse now tick htick⟩

/-- A schedule without a positive number of seconds: a permanent error or a cron tick. -/
theorem nextRunAt_of_no_interval {crates : SchedulingCrates} (hticks : TicksAhead crates)
    {s : Json} (hnull : s.isNull = false) (hnone : interval s = none) (now : Instant) :
    ∃ answer, nextRunAt crates (some s) now = .returned answer ∧
      ((∃ message, answer = .error (.permanent message)) ∨
        ∃ next, answer = .ok (some next) ∧ now < next) := by
  unfold nextRunAt
  simp only [hnull, Bool.false_eq_true, if_false]
  split
  · exact ⟨_, rfl, .inl ⟨_, rfl⟩⟩
  · split
    · next n hn =>
      have hsecs : everySeconds s = some n := hn
      unfold interval at hnone
      rw [hsecs, Option.filter_some] at hnone
      split
      · exact ⟨_, rfl, .inl ⟨_, rfl⟩⟩
      · next hpos =>
        rw [if_pos (by simpa using hpos)] at hnone
        cases hnone
    · split
      · next expr _ => exact ⟨_, rfl, nextCronTick_answer hticks expr now⟩
      · exact ⟨_, rfl, .inl ⟨_, rfl⟩⟩

/-- A schedule of a positive number of seconds. -/
theorem nextRunAt_of_interval (crates : SchedulingCrates) {s : Json} {n : Int}
    (hsome : interval s = some n) (now : Instant) :
    s.isNull = false ∧ nextRunAt crates (some s) now =
      match addSeconds now n with
      | .returned next => .returned (.ok (some next))
      | .panicked => .panicked := by
  obtain ⟨hsecs, hpos⟩ := Option.filter_eq_some_iff.mp hsome
  have hobject : s.isNull = false ∧ s.isObject = true := by
    cases s <;> simp_all [everySeconds, Json.get, Json.isNull, Json.isObject]
  refine ⟨hobject.1, ?_⟩
  unfold everySeconds at hsecs
  unfold nextRunAt
  simp only [hobject.1, hobject.2, hsecs, Bool.false_eq_true, if_false, Bool.not_true]
  refine (if_neg (by simpa using hpos)).trans ?_
  rfl

theorem isNull_eq_false {s : Json} (h : s ≠ .null) : s.isNull = false := by
  cases s <;> first | rfl | exact absurd rfl h

/-- An answer that a schedule may have. -/
theorem nextRunTotal_of_answer {crates : SchedulingCrates} {s : Json} {now : Instant}
    (hnull : s ≠ .null) {answer : Except JobError (Option Instant)}
    (hreturned : nextRunAt crates (some s) now = .returned answer)
    (h : (∃ message, answer = .error (.permanent message)) ∨
      ∃ next, answer = .ok (some next) ∧ now < next) : NextRunTotal crates (some s) now := by
  refine ⟨answer, hreturned, ?_⟩
  have hscheduled : ¬(some s = none ∨ some s = some .null) := by
    simpa using hnull
  rcases h with ⟨message, rfl⟩ | ⟨next, rfl, hlt⟩
  · refine ⟨iff_of_false (by simp) hscheduled, by simp, ?_⟩
    intro e he
    exact ⟨message, (Except.error.inj he).symm⟩
  · refine ⟨iff_of_false (by simp) hscheduled, ?_, by simp⟩
    intro next' hnext
    obtain rfl := Option.some.inj (Except.ok.inj hnext)
    exact hlt

/-- On an interval the answer is that of one addition. -/
theorem nextRunTotal_iff_addSeconds (crates : SchedulingCrates) {s : Json} {n : Int}
    (hnull : s ≠ .null) (hinterval : interval s = some n) (now : Instant) :
    NextRunTotal crates (some s) now ↔ ∃ next, addSeconds now n = .returned next ∧ now < next := by
  have hnext := (nextRunAt_of_interval crates hinterval now).2
  constructor
  · rintro ⟨answer, hreturned, _, hlater, _⟩
    cases hadd : addSeconds now n with
    | panicked =>
      rw [hnext, hadd] at hreturned
      cases hreturned
    | returned next =>
      rw [hnext, hadd] at hreturned
      exact ⟨next, rfl, hlater next (Call.returned.inj hreturned).symm⟩
  · rintro ⟨next, hadd, hlt⟩
    rw [hadd] at hnext
    exact nextRunTotal_of_answer hnull hnext (.inr ⟨next, rfl, hlt⟩)

/-- `next_run_at` is total exactly if no schedule asks for a time beyond the calendar. -/
theorem next_run_at_iff (crates : SchedulingCrates) (schedule : Option Json) (now : Instant)
    (hticks : TicksAhead crates) (hnow : startOfTime ≤ now) :
    NextRunTotal crates schedule now ↔
      ∀ s n, schedule = some s → everySeconds s = some n → 0 < n →
        now + n * second < endOfTime := by
  cases schedule with
  | none =>
    refine iff_of_true ⟨.ok none, rfl, by simp, by simp, by simp⟩ ?_
    intro s n hs
    cases hs
  | some s =>
    by_cases hnull : s = .null
    · subst hnull
      refine iff_of_true ⟨.ok none, rfl, by simp, by simp, by simp⟩ ?_
      intro s n hs hsecs
      obtain rfl := Option.some.inj hs
      cases hsecs
    cases hinterval : interval s with
    | none =>
      obtain ⟨answer, hreturned, hanswer⟩ :=
        nextRunAt_of_no_interval hticks (isNull_eq_false hnull) hinterval now
      refine iff_of_true (nextRunTotal_of_answer hnull hreturned hanswer) ?_
      intro s' n hs hsecs hpos
      obtain rfl := Option.some.inj hs
      unfold interval at hinterval
      rw [hsecs, Option.filter_some, if_pos (by simpa using hpos)] at hinterval
      cases hinterval
    | some n =>
      obtain ⟨hsecs, hpos⟩ := Option.filter_eq_some_iff.mp hinterval
      rw [decide_eq_true_eq] at hpos
      rw [nextRunTotal_iff_addSeconds crates hnull hinterval, addSeconds_iff hpos hnow]
      constructor
      · intro h s' m hs hm _
        obtain rfl := Option.some.inj hs
        obtain rfl := Option.some.inj (hsecs.symm.trans hm)
        exact h
      · intro h
        exact h s n rfl hsecs hpos

/-- A parser that knows the expression for three in the morning. -/
def threeInTheMorning : SchedulingCrates where
  displayJson _ := "{}"
  debugStr text := text
  parseCron text :=
    if text = "0 0 3 * * *" then .ok fun now => some ((now - 3 * hour) / day * day + day + 3 * hour)
    else .error "unknown expression"

theorem threeInTheMorning_ticksAhead : TicksAhead threeInTheMorning := by
  intro text next hparse now tick htick
  change (if text = "0 0 3 * * *" then _ else _) = _ at hparse
  split at hparse
  · obtain rfl := Except.ok.inj hparse
    obtain rfl := Option.some.inj htick
    unfold day hour second Instant
    omega
  · cases hparse

theorem next_run_at_nightly :
    NextRunTotal threeInTheMorning (some (.obj [("cron", .str "0 3 * * *")])) (2 * hour) ↔
      ∀ s n, some (Json.obj [("cron", .str "0 3 * * *")]) = some s → everySeconds s = some n →
        0 < n → (2 * hour : Instant) + n * second < endOfTime :=
  next_run_at_iff threeInTheMorning (some (.obj [("cron", .str "0 3 * * *")])) (2 * hour)
    threeInTheMorning_ticksAhead (by decide)

/-- A positive number of seconds that is an `i64` and no duration. -/
theorem next_run_at_panics :
    ¬NextRunTotal threeInTheMorning (some (.obj [("every_seconds", .int (2 ^ 63 - 1))])) 0 := by
  rintro ⟨answer, hreturned, _⟩
  have hpanics : nextRunAt threeInTheMorning
      (some (.obj [("every_seconds", .int (2 ^ 63 - 1))])) 0 = .panicked := by rfl
  rw [hpanics] at hreturned
  cases hreturned

end BikesNest.Jobs
