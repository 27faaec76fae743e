import Mathlib.Algebra.Group.Int.Defs
import Mathlib.Algebra.GroupWithZero.Nat

/-!
# Instants

An instant is a number of microseconds since the Unix epoch, the resolution of
PostgreSQL's `timestamptz`.
-/

namespace BikesNest

/-- Microseconds since 1970-01-01T00:00:00Z. -/
abbrev Instant := Int

/-- One second. -/
def second : Int := 1000000

/-- One millisecond. -/
def millisecond : Int := 1000

/-- One hour. -/
def hour : Int := 3600 * second

/-- One day. -/
def day : Int := 24 * hour

end BikesNest
