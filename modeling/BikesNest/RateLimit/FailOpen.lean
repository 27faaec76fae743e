import BikesNest.RateLimit.ValKey

/-!
# Failures of the store

A `ValKeyRateLimiter` connects on first use and keeps the connection.  `checkOver` is
its `check` with what the network does: whether an attempt to connect succeeds, and
whether the script fails or its reply is lost.

`Honoured` is what the switch `fail_open` promises of a check.  `honoured_iff` says when
a check keeps it, and `fail_open_honoured` when all the checks of a run do.
-/

namespace BikesNest.RateLimit

open Runs

/-! ## The limiter and the network -/

structure Limiter where
  /-- Is a connection kept? -/
  connected : Bool
  store : Store

/-- A limiter that was not used yet. -/
def Limiter.new (store : Store) : Limiter := ⟨false, store⟩

/-- What the network and the store do with a check. -/
structure Link where
  /-- An attempt to connect succeeds. -/
  connects : Bool
  /-- The script fails, or its reply does not arrive; the store that this leaves. -/
  failure : Option Store

/-- `ValKeyRateLimiter::conn`: is there a connection now? -/
def conn (s : Limiter) (link : Link) : Bool := s.connected || link.connects

/-- `ValKeyRateLimiter::check`. -/
def checkOver (V : Server) (failOpen : Bool) (s : Limiter) (c : Call) (link : Link) :
    Except RateLimitError Bool × Limiter :=
  if conn s link then
    match link.failure with
    | some store => (if failOpen then .ok true else .error .unexpected, ⟨true, store⟩)
    | none =>
      let (answer, store) := valKeyCheck V failOpen s.store c
      (answer, ⟨true, store⟩)
  else (.ok true, s)

/-- The limiter after a check. -/
def afterCheck (V : Server) (failOpen : Bool) (s : Limiter) (x : Call × Link) : Limiter :=
  (checkOver V failOpen s x.1 x.2).2

/-! ## The switch -/

/-- The script ran and its reply arrived. -/
def Ran (s : Limiter) (link : Link) : Prop := conn s link = true ∧ link.failure = none

/-- The arguments of the script. -/
def Call.argNow (c : Call) : Nat := c.nowMs % 2 ^ 64

def Call.argWindow (c : Call) : Nat := c.window / 1000000 % 2 ^ 64

/-- The set of the call's key once the script has removed the old members. -/
def trimmed (V : Server) (store : Store) (c : Call) : Option SortedSet :=
  zremrangebyscore 0 (V.double (V.double c.argNow - V.double c.argWindow))
    (V.get store c.nowMs c.key)

/-- The script denies the call. -/
def Denied (V : Server) (store : Store) (c : Call) : Prop :=
  V.double c.limit.toNat ≤ zcard (trimmed V store c)

/-- The script has recorded the call: the set has its member and a new deadline. -/
def Recorded (V : Server) (store store' : Store) (c : Call) : Prop :=
  ¬Denied V store c ∧
    pexpire c.nowMs (V.double c.argWindow) (zadd (V.double c.argNow) c.member (trimmed V store c)) =
      some (store' c.key)

/-- What the switch promises of a check.  Failing closed, it allows only what the script
has recorded; failing open, it denies only what the script has denied. -/
structure Honoured (V : Server) (failOpen : Bool) (s : Limiter) (x : Call × Link) : Prop where
  closed : failOpen = false → (checkOver V failOpen s x.1 x.2).1 = .ok true →
    Ran s x.2 ∧ Recorded V s.store (afterCheck V failOpen s x).store x.1
  opened : failOpen = true → (checkOver V failOpen s x.1 x.2).1 ≠ .ok true →
    Ran s x.2 ∧ Denied V s.store x.1

/-! ## The script -/

/-- What a run of the script does with the call. -/
theorem valKeyCheck_cases (V : Server) (failOpen : Bool) (store : Store) (c : Call) :
    (Denied V store c ∧ (valKeyCheck V failOpen store c).1 = .ok false) ∨
    (Recorded V store (valKeyCheck V failOpen store c).2 c ∧
      (valKeyCheck V failOpen store c).1 = .ok true) ∨
    (valKeyCheck V failOpen store c).1 = if failOpen then .ok true else .error .unexpected := by
  by_cases hdenied : Denied V store c
  · have hlua : rateLimitLua V c.nowMs (V.get store c.nowMs c.key) c.argNow c.argWindow
        c.limit.toNat c.member = (some 0, trimmed V store c) := if_pos hdenied
    have hcheck : (valKeyCheck V failOpen store c).1 = .ok false := by
      unfold valKeyCheck
      dsimp only
      rw [← Call.argNow, ← Call.argWindow, hlua]
      rfl
    exact .inl ⟨hdenied, hcheck⟩
  · cases hexpire : pexpire c.nowMs (V.double c.argWindow)
        (zadd (V.double c.argNow) c.member (trimmed V store c)) with
    | none =>
      have hlua : rateLimitLua V c.nowMs (V.get store c.nowMs c.key) c.argNow c.argWindow
          c.limit.toNat c.member =
          (none, some (zadd (V.double c.argNow) c.member (trimmed V store c))) := by
        refine (if_neg hdenied).trans ?_
        rw [← trimmed, hexpire]
      unfold valKeyCheck Recorded
      dsimp only
      rw [← Call.argNow, ← Call.argWindow, hlua]
      exact .inr (.inr rfl)
    | some z =>
      have hlua : rateLimitLua V c.nowMs (V.get store c.nowMs c.key) c.argNow c.argWindow
          c.limit.toNat c.member = (some 1, z) := by
        refine (if_neg hdenied).trans ?_
        rw [← trimmed, hexpire]
      have hset : some z = some (Function.update store c.key z c.key) := by
        rw [Function.update_self]
      unfold valKeyCheck Recorded
      dsimp only
      rw [← Call.argNow, ← Call.argWindow, hlua, hexpire]
      exact .inr (.inl ⟨⟨hdenied, hset⟩, rfl⟩)

/-! ## A check -/

variable {V : Server} {failOpen : Bool} {s : Limiter} {x : Call × Link}

/-- A connection on which the command fails: the switch decides. -/
theorem honoured_of_failure {c : Call} {link : Link} {store : Store} (hconn : conn s link = true)
    (hfailure : link.failure = some store) : Honoured V failOpen s (c, link) := by
  have hcheck : checkOver V failOpen s c link =
      (if failOpen then .ok true else .error .unexpected, ⟨true, store⟩) := by
    unfold checkOver
    rw [if_pos hconn, hfailure]
  constructor
  · intro hclosed hallowed
    rw [hcheck, hclosed] at hallowed
    cases hallowed
  · intro hopen hdenied
    rw [hcheck, hopen] at hdenied
    exact absurd rfl hdenied

/-- A connection on which the script runs. -/
theorem honoured_of_ran {c : Call} {link : Link} (hran : Ran s link) :
    Honoured V failOpen s (c, link) := by
  have hcheck : checkOver V failOpen s c link =
      ((valKeyCheck V failOpen s.store c).1, ⟨true, (valKeyCheck V failOpen s.store c).2⟩) := by
    unfold checkOver
    rw [if_pos hran.1, hran.2]
  have hstore : (afterCheck V failOpen s (c, link)).store =
      (valKeyCheck V failOpen s.store c).2 := by
    unfold afterCheck
    rw [hcheck]
  constructor
  · intro hclosed hallowed
    refine ⟨hran, ?_⟩
    rw [hstore]
    rw [hcheck] at hallowed
    rcases valKeyCheck_cases V failOpen s.store c with ⟨_, hans⟩ | ⟨hrecorded, _⟩ | hans
    · rw [hans] at hallowed
      cases hallowed
    · exact hrecorded
    · rw [hans, hclosed] at hallowed
      cases hallowed
  · intro hopen hnot
    refine ⟨hran, ?_⟩
    rw [hcheck] at hnot
    rcases valKeyCheck_cases V failOpen s.store c with ⟨hdenied, _⟩ | ⟨_, hans⟩ | hans
    · exact hdenied
    · exact absurd hans hnot
    · rw [if_pos hopen] at hans
      exact absurd hans hnot

/-- With a connection, every error goes through the switch. -/
theorem honoured_of_conn (hconn : conn s x.2 = true) : Honoured V failOpen s x := by
  cases hfailure : x.2.failure with
  | some store => exact honoured_of_failure hconn hfailure
  | none => exact honoured_of_ran ⟨hconn, hfailure⟩

variable (V failOpen) in
/-- Without one the answer is to allow, whatever the switch says. -/
theorem checkOver_of_not_conn (hconn : conn s x.2 = false) :
    checkOver V failOpen s x.1 x.2 = (.ok true, s) := by
  unfold checkOver
  rw [if_neg (by simp [hconn])]

theorem honoured_iff :
    Honoured V failOpen s x ↔ failOpen = true ∨ conn s x.2 = true := by
  cases hconn : conn s x.2 with
  | true => exact iff_of_true (honoured_of_conn hconn) (.inr rfl)
  | false =>
    have hcheck := checkOver_of_not_conn V failOpen hconn
    constructor
    · intro h
      cases failOpen with
      | true => exact .inl rfl
      | false =>
        have hran := (h.closed rfl (by rw [hcheck])).1.1
        rw [hconn] at hran
        cases hran
    · intro h
      rcases h with hopen | hfalse
      · constructor
        · intro hclosed
          rw [hopen] at hclosed
          cases hclosed
        · intro _ hnot
          rw [hcheck] at hnot
          exact absurd rfl hnot
      · cases hfalse

/-! ## Runs of checks -/

/-- The checks of a run keep what the switch promises exactly if it is set to fail open or
each of them has a connection. -/
theorem fail_open_honoured (V : Server) (failOpen : Bool) (s : Limiter)
    (calls : List (Call × Link)) :
    Along (afterCheck V failOpen) (Honoured V failOpen) s calls ↔
      failOpen = true ∨ Along (afterCheck V failOpen) (fun s x => conn s x.2 = true) s calls := by
  have hkeep : ∀ s x, True → True := fun (_ : Limiter) (_ : Call × Link) h => h
  cases failOpen with
  | true =>
    exact iff_of_true (Along.of_forall fun _ _ => honoured_iff.mpr (.inl rfl)) (.inl rfl)
  | false =>
    rw [or_iff_right (by simp)]
    refine along_congr hkeep (fun s x _ => ?_) trivial
    rw [honoured_iff, or_iff_right (by simp)]

/-- A store that cannot be reached. -/
def unreachable : Link := ⟨false, none⟩

/-- A login, five of which are allowed in a minute. -/
def login : Call := ⟨"login:ip:203.0.113.7", 5, 60000000000, 1700000000000, 17⟩

/-- Set to fail closed, a limiter that cannot connect allows the check. -/
theorem fail_closed_allows :
    ¬ ∀ (V : Server) (failOpen : Bool) (s : Limiter) (calls : List (Call × Link)),
      Along (afterCheck V failOpen) (Honoured V failOpen) s calls := by
  intro h
  have hfirst := (h promptServer false (.new fun _ => none) [(login, unreachable)]).1
  have hran := (hfirst.closed rfl rfl).1.1
  exact absurd hran (by decide)

end BikesNest.RateLimit
