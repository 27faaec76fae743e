import BikesNest.Domain.Text
import BikesNest.Store.Schema

/-!
# The body of a proposal

`ProposedChange` is the typed body of a proposal, and `ofJson` reads it from the
stored payload.  The kind of the row says how to read it; a payload that cannot be
read is `unknown`.
-/

namespace BikesNest.Community

open Domain Store

/-- An `f64`: the number it denotes, if it is finite. -/
inductive F64 where
  | finite (q : Rat)
  | nonFinite
deriving DecidableEq

/-- `is_finite`, and between `-bound` and `bound`. -/
def F64.within (bound : Rat) : F64 → Option {q : Rat // -bound ≤ q ∧ q ≤ bound}
  | .finite q => if h : -bound ≤ q ∧ q ≤ bound then some ⟨q, h⟩ else none
  | .nonFinite => none

inductive ProposedChange where
  | moveLocation (lat lon : F64) (timezone : Option String)
  | changeExistence (exists' : Bool)
  | unknown
deriving DecidableEq

namespace ProposedChange

/-- `Value::as_f64`.  An integer that is rounded is out of range before and after. -/
def asF64 : Json → Option F64
  | .int n => some (.finite n)
  | .float q => some (.finite q)
  | _ => none

def asBool : Json → Option Bool
  | .bool b => some b
  | _ => none

/-- `coords_in_range`. -/
def coordsInRange (lat lon : F64) : Bool :=
  (lat.within 90).isSome && (lon.within 180).isSome

/-- A text without the white space around it, if something is left. -/
def trimmed (s : String) : Option String :=
  let t := Text.trim s
  if t.isEmpty then none else some t

/-- `from_json`. -/
def ofJson (kind : ProposalKind) (raw : Json) : ProposedChange :=
  match kind with
  | .moveLocation =>
    match (raw.get "lat").bind asF64, (raw.get "lon").bind asF64 with
    | some lat, some lon =>
      if coordsInRange lat lon then
        .moveLocation lat lon (((raw.get "timezone").bind Json.asStr).bind trimmed)
      else .unknown
    | _, _ => .unknown
  | .changeExistence =>
    match (raw.get "existence").bind Json.asStr with
    | some code =>
      if code = "exists" then .changeExistence true
      else if code = "removed" then .changeExistence false
      else .unknown
    | none =>
      match (raw.get "exists").bind asBool with
      | some exists' => .changeExistence exists'
      | none => .unknown

end ProposedChange

end BikesNest.Community
