import BikesNest.Lib.BoundedMap
import BikesNest.Lib.Run
import BikesNest.Search.UseCases

/-!
# The geocoding cache

`CachingGeocoder`: answers of the provider are remembered under the normalised
query for a time, and the oldest keys are evicted when there are too many.  A
lookup reads the cache under the lock, calls the provider without it, and takes
the lock again to remember the answer, so that lookups overlap.

`geocode_run` says, for every run from an empty cache: the map and the queue have
the same keys, each once and never more than the capacity, and what a lookup is
served from the cache is what the provider gave for a query of the same key less
than the time-to-live before.
-/

namespace BikesNest.Geo

open Domain Search Runs

/-- The replacements of `normalize`, which turn some characters into one other each. -/
def foldAccent (c : Char) : Char :=
  if c ∈ ['á', 'à', 'â', 'ã'] then 'a'
  else if c ∈ ['é', 'ê'] then 'e'
  else if c = 'í' then 'i'
  else if c ∈ ['ó', 'ô', 'õ'] then 'o'
  else if c = 'ú' then 'u'
  else if c = 'ç' then 'c'
  else c

/-- `normalize`. -/
def normalize (cases : Text.CaseMap) (q : String) : String :=
  String.ofList ((cases.toLowercase (Text.trim q)).toList.map foldAccent)

/-- `GeocodeError`. -/
inductive GeocodeError where
  | unavailable
  | unexpected (message : String)

/-- What an inner geocoder answers. -/
abbrev Answer := Except GeocodeError (Option GeoHit)

/-- `CachingGeocoder` without its state. -/
structure CachingGeocoder where
  cases : Text.CaseMap
  ttl : Int
  capacity : Nat

/-- `Cache`. -/
abbrev Cache := BoundedMap String (GeoHit × Instant)

namespace CachingGeocoder

variable (g : CachingGeocoder)

/-- The key of a query. -/
def key (query : String) : String := normalize g.cases query

/-- `peek` at an instant.  `elapsed` is not negative. -/
def peek (cache : Cache) (query : String) (now : Instant) : Option GeoHit :=
  match cache.hits (g.key query) with
  | none => none
  | some (hit, since) => if max 0 (now - since) < g.ttl then some hit else none

/-- `remember` at an instant. -/
def remember (cache : Cache) (query : String) (hit : GeoHit) (now : Instant) : Cache :=
  (cache.insert (g.key query) (hit, now)).evict g.capacity

/-- The second half of `geocode`, once the provider has answered. -/
def receive (cache : Cache) (query : String) (answer : Answer) (now : Instant) : Cache :=
  match answer with
  | .ok (some hit) => g.remember cache query hit now
  | _ => cache

/-! ## Lookups that overlap -/

/-- The cache, the latest instant that was read, and the queries whose lookups
wait for the provider. -/
structure State where
  now : Instant
  cache : Cache
  pending : List String

def State.init (now : Instant) : State := ⟨now, .empty, []⟩

/-- What happens: a lookup that the cache serves, one that asks the provider, an
answer of the provider, and a lookup that is given up. -/
inductive Event where
  | served (now : Instant) (query : String) (hit : GeoHit)
  | asked (now : Instant) (query : String)
  | answered (now : Instant) (query : String) (answer : Answer)
  | dropped (query : String)

/-- Between the answer and `remember` the lookup does not wait, so both are one
step. -/
inductive Step : State → Event → State → Prop where
  | served {s : State} {now : Instant} {query : String} {hit : GeoHit} (hclock : s.now ≤ now)
      (hpeek : g.peek s.cache query now = some hit) :
      Step s (.served now query hit) { s with now := now }
  | asked {s : State} {now : Instant} {query : String} (hclock : s.now ≤ now)
      (hpeek : g.peek s.cache query now = none) :
      Step s (.asked now query) { s with now := now, pending := query :: s.pending }
  | answered {s : State} {now : Instant} {query : String} (hclock : s.now ≤ now)
      (hpending : query ∈ s.pending) (answer : Answer) :
      Step s (.answered now query answer)
        { now := now, cache := g.receive s.cache query answer now
          pending := s.pending.erase query }
  | dropped {s : State} {query : String} (hpending : query ∈ s.pending) :
      Step s (.dropped query) { s with pending := s.pending.erase query }

/-! ## The invariant -/

variable {g}

/-- The cache represents a map with its keys in order, within the bound, and
nothing in it is later than the clock. -/
structure Inv (g : CachingGeocoder) (s : State) : Prop where
  consistent : s.cache.Consistent
  bound : s.cache.order.length ≤ g.capacity
  past : ∀ k hit since, s.cache.hits k = some (hit, since) → since ≤ s.now

theorem inv_init (now : Instant) : Inv g (.init now) where
  consistent := BoundedMap.consistent_empty
  bound := Nat.zero_le g.capacity
  past k hit since h := by cases h

/-- What `remember` leaves was there before or is the entry it wrote. -/
theorem hits_remember {cache : Cache} {query : String} {hit : GeoHit} {now : Instant}
    {k : String} {entry : GeoHit × Instant}
    (h : (g.remember cache query hit now).hits k = some entry) :
    cache.hits k = some entry ∨ k = g.key query ∧ entry = (hit, now) := by
  have hinsert := BoundedMap.hits_evict h
  rw [BoundedMap.hits_insert] at hinsert
  split_ifs at hinsert with hk
  · exact Or.inr ⟨hk, (Option.some.inj hinsert).symm⟩
  · exact Or.inl hinsert

/-- The same of `receive`. -/
theorem hits_receive {cache : Cache} {query : String} {answer : Answer} {now : Instant}
    {k : String} {entry : GeoHit × Instant}
    (h : (g.receive cache query answer now).hits k = some entry) :
    cache.hits k = some entry ∨
      k = g.key query ∧ answer = .ok (some entry.1) ∧ entry.2 = now := by
  cases answer with
  | error e => exact Or.inl h
  | ok found =>
    cases found with
    | none => exact Or.inl h
    | some hit =>
      refine (hits_remember h).imp id ?_
      rintro ⟨hk, rfl⟩
      exact ⟨hk, rfl, rfl⟩

theorem consistent_receive {cache : Cache} (h : cache.Consistent) (query : String)
    (answer : Answer) (now : Instant) : (g.receive cache query answer now).Consistent := by
  cases answer with
  | error e => exact h
  | ok found =>
    cases found with
    | none => exact h
    | some hit => exact (h.insert _ _).evict g.capacity

theorem bound_receive {cache : Cache} (h : cache.order.length ≤ g.capacity) (query : String)
    (answer : Answer) (now : Instant) :
    (g.receive cache query answer now).order.length ≤ g.capacity := by
  cases answer with
  | error e => exact h
  | ok found =>
    cases found with
    | none => exact h
    | some hit => exact BoundedMap.length_evict_le _ _

/-- Every step keeps the invariant. -/
theorem Inv.step {s s' : State} {event : Event} (h : Inv g s) (hstep : g.Step s event s') :
    Inv g s' := by
  cases hstep with
  | served hclock => exact { h with past := fun k hit at' hk => (h.past k hit at' hk).trans hclock }
  | asked hclock => exact { h with past := fun k hit at' hk => (h.past k hit at' hk).trans hclock }
  | @answered now query hclock hpending answer =>
    refine ⟨consistent_receive h.consistent _ _ _, bound_receive h.bound _ _ _, ?_⟩
    intro k hit since hk
    rcases hits_receive hk with hold | ⟨-, -, hsince⟩
    · exact (h.past k hit since hold).trans hclock
    · exact le_of_eq hsince
  | dropped => exact ⟨h.consistent, h.bound, h.past⟩

/-! ## Where entries come from -/

/-- An entry of the cache after a run was there before it, or was given by the
provider at an instant of the run. -/
theorem entry_of_run {s s' : State} {events : List Event} {k : String} {hit : GeoHit}
    {since : Instant} (hrun : Run g.Step s events s')
    (h : s'.cache.hits k = some (hit, since)) :
    s.cache.hits k = some (hit, since) ∨
      ∃ query, g.key query = k ∧ .answered since query (.ok (some hit)) ∈ events := by
  induction hrun with
  | nil => exact Or.inl h
  | cons head tail ih =>
    rcases ih h with hthere | ⟨query, hkey, hmem⟩
    · cases head with
      | served => exact Or.inl hthere
      | asked => exact Or.inl hthere
      | @answered now query hclock hpending answer =>
        rcases hits_receive hthere with hold | ⟨hk, rfl, rfl⟩
        · exact Or.inl hold
        · exact Or.inr ⟨query, hk.symm, List.mem_cons_self⟩
      | dropped => exact Or.inl hthere
    · exact Or.inr ⟨query, hkey, List.mem_cons_of_mem _ hmem⟩

theorem peek_eq_some {cache : Cache} {query : String} {now : Instant} {hit : GeoHit}
    (h : g.peek cache query now = some hit) :
    ∃ since, cache.hits (g.key query) = some (hit, since) ∧ now - since < g.ttl := by
  unfold peek at h
  cases hfound : cache.hits (g.key query) with
  | none =>
    rw [hfound] at h
    cases h
  | some entry =>
    rw [hfound] at h
    dsimp only at h
    split_ifs at h with hlive
    cases h
    exact ⟨entry.2, rfl, lt_of_le_of_lt (le_max_right 0 _) hlive⟩

/-- The representation of the cache after every run, and what lookups are served
from it. -/
theorem geocode_run {start : Instant} {events : List Event} {s : State}
    (hrun : Run g.Step (.init start) events s) :
    (s.cache.order.Nodup ∧ (∀ k, k ∈ s.cache.order ↔ (s.cache.hits k).isSome = true) ∧
      s.cache.order.length ≤ g.capacity) ∧
    ∀ before after now query hit, events = before ++ .served now query hit :: after →
      ∃ asked since, .answered since asked (.ok (some hit)) ∈ before ∧
        g.key asked = g.key query ∧ since ≤ now ∧ now - since < g.ttl := by
  have hinv : Inv g s := hrun.invariant (fun _ _ _ h hstep => h.step hstep) (inv_init start)
  refine ⟨⟨hinv.consistent.nodup, hinv.consistent.mem_order, hinv.bound⟩, ?_⟩
  rintro before after now query hit rfl
  obtain ⟨t, hbefore, hafter⟩ := hrun.exists_of_append
  have ht : Inv g t := hbefore.invariant (fun _ _ _ h hstep => h.step hstep) (inv_init start)
  cases hafter with
  | cons head tail =>
    cases head with
    | served hclock hpeek =>
      obtain ⟨since, hentry, hlive⟩ := peek_eq_some hpeek
      have hpast := (ht.past _ _ _ hentry).trans hclock
      rcases entry_of_run hbefore hentry with hinit | ⟨asked, hkey, hmem⟩
      · cases hinit
      · exact ⟨asked, since, hmem, hkey, hpast, hlive⟩

/-- A cache for one key and ten instants. -/
def sample : CachingGeocoder := ⟨Text.CaseMap.ascii, 10, 1⟩

def sampleHit : GeoHit := ⟨"Praça Tiradentes", ⟨0, 0, GeoPoint.zero_lat, GeoPoint.zero_lon⟩⟩

theorem key_sample : sample.key "Praça " = "praca" ∧ sample.key "praca" = "praca" := by
  decide +kernel

theorem peek_sample :
    sample.peek (sample.remember .empty "Praça " sampleHit 2) "praca" 5 = some sampleHit := by
  have hentry : (sample.remember .empty "Praça " sampleHit 2).hits "praca" =
      some (sampleHit, 2) := by
    rw [remember, key_sample.1]
    simp [BoundedMap.insert, BoundedMap.evict, BoundedMap.empty, BoundedMap.evictFrom, sample]
  have hlive : max 0 ((5 : Instant) - 2) < sample.ttl := by decide
  simp only [peek, key_sample.2, hentry, if_pos hlive]

/-- A query that was answered serves another spelling of it. -/
theorem geocode_run_sample :
    ∃ asked since, Event.answered since asked (.ok (some sampleHit)) ∈
        [Event.asked 0 "Praça ", .answered 2 "Praça " (.ok (some sampleHit))] ∧
      sample.key asked = sample.key "praca" ∧ since ≤ 5 ∧ 5 - since < sample.ttl :=
  (geocode_run (.cons (.asked (s := .init 0) (le_refl 0) rfl)
    (.cons (.answered (show (0 : Instant) ≤ 2 by decide) List.mem_cons_self
        (.ok (some sampleHit)))
      (.cons (.served (by decide) peek_sample) (.nil _))))).2
    [_, _] [] 5 "praca" sampleHit rfl

end CachingGeocoder
end BikesNest.Geo
