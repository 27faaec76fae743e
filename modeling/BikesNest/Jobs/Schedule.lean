import BikesNest.Domain.Json
import BikesNest.Domain.Text
import BikesNest.Domain.Time

/-!
# When a job runs next

The scheduling helpers of the job queue: `nextRunAt` for a recurring job and
`backoffMs` for a retry.

The `cron` crate and the rendering of JSON and of quoted text inside error
messages are code outside the repository; `SchedulingCrates` takes them as
parameters.  Time arithmetic in `chrono` panics outside its range, so
`nextRunAt` answers a `Call`.
-/

namespace BikesNest.Jobs

/-- The first instant past `DateTime::<Utc>::MAX_UTC`. -/
def endOfTime : Instant := 8210266876800 * second

/-- The first instant of the calendar, `DateTime::<Utc>::MIN_UTC`. -/
def startOfTime : Instant := -8334601228800 * second

/-- What a Rust call does: it returns, or it panics. -/
inductive Call (α : Type) where
  | returned (a : α)
  | panicked

/-- A job-run failure.  The worker retries a `failed` one while the attempt
budget lasts and dead-letters a `permanent` one at once. -/
inductive JobError where
  | failed (message : String)
  | permanent (message : String)
deriving DecidableEq

/-- The message inside a `JobError` as its `Display` writes it. -/
def JobError.display : JobError → String
  | .failed e => "job failed: " ++ e
  | .permanent e => "job failed permanently (no retry): " ++ e

/-- The third-party code that scheduling calls. -/
structure SchedulingCrates where
  /-- The `Display` of a JSON value. -/
  displayJson : Json → String
  /-- The `Debug` of a string: quoted and escaped. -/
  debugStr : String → String
  /-- `cron::Schedule::from_str`, then `after(now).next()`. -/
  parseCron : String → Except String (Instant → Option Instant)

/-- `Duration::seconds` panics beyond `i64::MAX` milliseconds, and adding a
duration panics past the end of the calendar. -/
def addSeconds (now : Instant) (secs : Int) : Call Instant :=
  if (2 ^ 63 - 1) / 1000 < secs then .panicked
  else if endOfTime ≤ now + secs * second then .panicked
  else .returned (now + secs * second)

/-- The common five-field form gets a seconds field in front. -/
def normalizeCron (expr : String) : String :=
  if Text.countWords expr = 5 then "0 " ++ expr else expr

/-- The `{"cron": "…"}` branch of `nextRunAt`. -/
def nextCronTick (crates : SchedulingCrates) (expr : String) (now : Instant) :
    Except JobError (Option Instant) :=
  match crates.parseCron (normalizeCron expr) with
  | .error e =>
    .error (.permanent
      ("invalid cron expression " ++ crates.debugStr expr ++ ": " ++ e))
  | .ok next =>
    match next now with
    | some tick => .ok (some tick)
    | none => .error (.permanent ("cron " ++ crates.debugStr expr ++ " yields no future run"))

/-- The next run time of a schedule: none for a one-shot job, an instant for a
recurring one, a permanent error for a schedule it cannot read. -/
def nextRunAt (crates : SchedulingCrates) (schedule : Option Json) (now : Instant) :
    Call (Except JobError (Option Instant)) :=
  match schedule with
  | none => .returned (.ok none)
  | some s =>
    if s.isNull then .returned (.ok none)
    else if !s.isObject then
      .returned (.error (.permanent
        ("schedule must be an object, got " ++ crates.displayJson s)))
    else
      match (s.get "every_seconds").bind Json.asI64 with
      | some secs =>
        if secs ≤ 0 then
          .returned (.error (.permanent
            ("every_seconds must be positive, got " ++ toString secs)))
        else
          match addSeconds now secs with
          | .returned next => .returned (.ok (some next))
          | .panicked => .panicked
      | none =>
        match (s.get "cron").bind Json.asStr with
        | some expr => .returned (nextCronTick crates expr now)
        | none =>
          .returned (.error (.permanent
            ("unsupported schedule: " ++ crates.displayJson s)))

/-- The `every_seconds` field of a schedule. -/
def everySeconds (schedule : Json) : Option Int :=
  (schedule.get "every_seconds").bind Json.asI64

/-- A job without a schedule is a one-shot job. -/
@[simp] theorem nextRunAt_none (crates : SchedulingCrates) (now : Instant) :
    nextRunAt crates none now = .returned (.ok none) := rfl

/-- Retry delay for the 1-based `attempt`: `base * 2^(attempt-1)` plus the
jitter, both saturating at `u64::MAX`.  The caller draws the jitter below
`max base 1`. -/
def backoffMs (attempt : Int) (baseMs jitter : Nat) : Nat :=
  let exp := (max (attempt - 1) 0).toNat
  let exponential := min (baseMs * 2 ^ min exp 63) (2 ^ 64 - 1)
  min (exponential + jitter) (2 ^ 64 - 1)

end BikesNest.Jobs
