import Mathlib.Algebra.Group.Int.Defs
import Mathlib.Data.Rat.Defs

/-!
# JSON values

The values of `serde_json::Value` and of PostgreSQL's `jsonb`, with the
accessors that the modelled code calls.  `serde_json` keeps integers and
floating-point numbers apart, so the model does too; a finite `f64` is the
rational number it denotes.
-/

namespace BikesNest

/-- `serde_json::Value`. -/
inductive Json where
  | null
  | bool (b : Bool)
  | int (n : Int)
  | float (q : Rat)
  | str (s : String)
  | arr (items : List Json)
  | obj (fields : List (String × Json))

namespace Json

/-- `Value::get` with a string key: only an object has members. -/
def get (v : Json) (key : String) : Option Json :=
  match v with
  | .obj fields => (fields.find? fun field => field.1 == key).map Prod.snd
  | _ => none

def isNull : Json → Bool
  | .null => true
  | _ => false

def isObject : Json → Bool
  | .obj _ => true
  | _ => false

/-- `Value::as_i64`: an integer in the range of `i64`. -/
def asI64 : Json → Option Int
  | .int n => if -2 ^ 63 ≤ n ∧ n < 2 ^ 63 then some n else none
  | _ => none

/-- `Value::as_str`. -/
def asStr : Json → Option String
  | .str s => some s
  | _ => none

/-! ## Equality -/

mutual

/-- `=` of two values.  The fields of an object come in the order of `jsonb`. -/
def isSame : Json → Json → Bool
  | .null, .null => true
  | .bool a, .bool b => a == b
  | .int a, .int b => a == b
  | .float a, .float b => a == b
  | .str a, .str b => a == b
  | .arr xs, .arr ys => sameItems xs ys
  | .obj xs, .obj ys => sameFields xs ys
  | _, _ => false

def sameItems : List Json → List Json → Bool
  | [], [] => true
  | x :: xs, y :: ys => x.isSame y && sameItems xs ys
  | _, _ => false

def sameFields : List (String × Json) → List (String × Json) → Bool
  | [], [] => true
  | (k, v) :: xs, (k', v') :: ys => k == k' && v.isSame v' && sameFields xs ys
  | _, _ => false

end

mutual

theorem isSame_self (v : Json) : v.isSame v = true := by
  cases v with
  | null => rfl
  | bool b => simp [isSame]
  | int n => simp [isSame]
  | float q => simp [isSame]
  | str s => simp [isSame]
  | arr items => rw [isSame, sameItems_self]
  | obj fields => rw [isSame, sameFields_self]

theorem sameItems_self (items : List Json) : sameItems items items = true := by
  cases items with
  | nil => rfl
  | cons v items => rw [sameItems, isSame_self, sameItems_self, Bool.and_self]

theorem sameFields_self (fields : List (String × Json)) : sameFields fields fields = true := by
  cases fields with
  | nil => rfl
  | cons field fields =>
    obtain ⟨k, v⟩ := field
    rw [sameFields, isSame_self, sameFields_self, beq_self_eq_true, Bool.and_self, Bool.and_self]

end

end Json

end BikesNest
