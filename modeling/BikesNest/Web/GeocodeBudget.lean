import BikesNest.Geo.GeocodeCache
import BikesNest.RateLimit.InMemory
import BikesNest.Web.SearchLinks

/-!
# The geocoding budget

`/search` and `/api/geocode` resolve a text through the cached geocoder.  A text that the cache
does not know costs a call of the provider, so such a request is first charged to its network,
by the rate limiter that the rest of the site uses too.

`Metered` is the system of both handlers: the check of the cache, the check of the limiter, the
lookup and the answer of the provider are steps of their own, and any number of requests
overlap.  `Funded` is the invariant of its runs, and `geocode_budget` the result.
-/

namespace BikesNest.Web

open Domain Geo Search RateLimit SlidingWindow Runs

/-! ## The handlers -/

/-- `GeocodeLimits`, in nanoseconds. -/
structure GeocodeLimits where
  perIp : Nat
  window : Nat

/-- `GeocodeLimits::default`. -/
def GeocodeLimits.standard : GeocodeLimits := ⟨60, 15 * 60 * 1000000000⟩

/-- The key of a network in the limiter. -/
def geocodeKey (ip : String) : String := "geocode:ip:" ++ ip

/-- The check that `geocode_within_budget` makes. -/
def GeocodeLimits.check (limits : GeocodeLimits) (ip : String) (now : Nat) : Check String :=
  ⟨geocodeKey ip, limits.perIp, limits.window, now⟩

/-- The text that `SearchParking::resolve` asks the geocoder about. -/
def destination (input : SearchInput) : Option String :=
  if input.lat.isSome && input.lon.isSome then none else nonBlank input.query

/-- What pays for a lookup. -/
inductive Payment where
  /-- The network was charged at a time. -/
  | charged (at' : Nat)
  /-- The cache had an answer when the request came, written at `since`. -/
  | cached (found : Nat) (since : Instant)
deriving DecidableEq

inductive Progress where
  /-- The limiter is asked next. -/
  | unpaid
  /-- The geocoder is asked next. -/
  | ready (payment : Payment)
  /-- The provider has been called. -/
  | waiting
deriving DecidableEq

/-- A request on its way to the geocoder. -/
structure GeocodeRequest where
  ip : String
  query : String
  progress : Progress
deriving DecidableEq

/-- When the answer of the cache for a text was written. -/
def writtenAt (g : CachingGeocoder) (cache : Geo.Cache) (query : String) : Instant :=
  ((cache.hits (g.key query)).map Prod.snd).getD 0

/-- `search`, up to the check of its budget.  None for a page that needs no geocoder. -/
def searchArrives (g : CachingGeocoder) (cache : Geo.Cache) (now : Nat) (ip : String)
    (params : SearchParams) : Option GeocodeRequest :=
  if params.isBrowse then none
  else
    (destination params.toInput).map fun query =>
      { ip, query
        progress :=
          if geocodeIsBillable (fun q => (g.peek cache q now).isSome) params.toInput then .unpaid
          else .ready (.cached now (writtenAt g cache query)) }

/-- `geocode_api`, up to the check of its budget.  It answers itself from the cache. -/
def apiArrives (g : CachingGeocoder) (cache : Geo.Cache) (now : Nat) (ip : String)
    (isVerified : Bool) (q : String) : Option GeocodeRequest :=
  if isVerified then
    (nonBlank (some q)).bind fun query =>
      if (g.peek cache query now).isSome then none else some { ip, query, progress := .unpaid }
  else none

/-! ## The system -/

/-- What the site is built with.  The limiter is also asked for other keys, each with one
window. -/
structure MeteredApp where
  geocoder : CachingGeocoder
  limits : GeocodeLimits
  windowOf : String → Nat
  window_eq : ∀ ip, windowOf (geocodeKey ip) = limits.window

/-- A call of the provider. -/
structure ProviderCall where
  ip : String
  query : String
  payment : Payment
  at' : Nat
  /-- The cache had no entry for the text any more. -/
  forgotten : Bool
deriving DecidableEq

structure Metered where
  now : Nat
  cache : Geo.Cache
  buckets : Buckets
  requests : List GeocodeRequest
  /-- The charges that the limiter has granted, with their networks. -/
  granted : List (String × Nat)
  /-- The calls of the provider, the last one first. -/
  calls : List ProviderCall

def Metered.init (now : Nat) : Metered := ⟨now, .empty, .empty, [], [], []⟩

inductive MeteredLabel where
  | tick (duration : Nat)
  | search (ip : String) (params : SearchParams)
  | api (ip : String) (isVerified : Bool) (q : String)
  /-- A request asks the limiter. -/
  | charge (i : Nat)
  /-- Another part of the site asks the limiter. -/
  | other (key : String) (limit : Nat)
  /-- `geocode` looks into the cache, and calls the provider where it finds nothing. -/
  | lookup (i : Nat)
  | answer (i : Nat) (answer : Geo.Answer)
  /-- A request is given up. -/
  | drop (i : Nat)

/-- The keys of the budgets. -/
def isGeocodeKey (key : String) : Bool := "geocode:ip:".toList.isPrefixOf key.toList

/-- A charge: a request over the budget is refused. -/
def Metered.charge (app : MeteredApp) (s : Metered) (i : Nat) (r : GeocodeRequest) : Metered :=
  let answer := check s.buckets (app.limits.check r.ip s.now)
  { s with
    buckets := answer.2
    granted := if answer.1 then s.granted ++ [(r.ip, s.now)] else s.granted
    requests :=
      if answer.1 then s.requests.set i { r with progress := .ready (.charged s.now) }
      else s.requests.eraseIdx i }

/-- A lookup, which may call the provider. -/
def Metered.lookup (app : MeteredApp) (s : Metered) (i : Nat) (r : GeocodeRequest)
    (payment : Payment) : Metered :=
  match app.geocoder.peek s.cache r.query s.now with
  | some _ => { s with requests := s.requests.eraseIdx i }
  | none =>
    { s with
      requests := s.requests.set i { r with progress := .waiting }
      calls :=
        { ip := r.ip, query := r.query, payment, at' := s.now
          forgotten := (s.cache.hits (app.geocoder.key r.query)).isNone } :: s.calls }

/-- One step of the system; none when the label cannot happen. -/
def meteredStep (app : MeteredApp) (s : Metered) : MeteredLabel → Option Metered
  | .tick duration => some { s with now := s.now + duration }
  | .search ip params =>
    some { s with
      requests := (searchArrives app.geocoder s.cache s.now ip params).toList ++ s.requests }
  | .api ip isVerified q =>
    some { s with
      requests := (apiArrives app.geocoder s.cache s.now ip isVerified q).toList ++ s.requests }
  | .charge i =>
    match s.requests[i]? with
    | some ⟨ip, query, .unpaid⟩ => some (s.charge app i ⟨ip, query, .unpaid⟩)
    | _ => none
  | .other key limit =>
    if isGeocodeKey key then none
    else some { s with buckets := (check s.buckets ⟨key, limit, app.windowOf key, s.now⟩).2 }
  | .lookup i =>
    match s.requests[i]? with
    | some ⟨ip, query, .ready payment⟩ =>
      some (s.lookup app i ⟨ip, query, .ready payment⟩ payment)
    | _ => none
  | .answer i answer =>
    match s.requests[i]? with
    | some ⟨_, query, .waiting⟩ =>
      some { s with
        cache := app.geocoder.receive s.cache query answer s.now
        requests := s.requests.eraseIdx i }
    | _ => none
  | .drop i => (s.requests[i]?).map fun _ => { s with requests := s.requests.eraseIdx i }

/-- The limiter has room for the key of a check. -/
def Roomy (app : MeteredApp) (s : Metered) : MeteredLabel → Prop
  | .charge i => ∀ r ∈ s.requests[i]?, Uncapped s.buckets (app.limits.check r.ip s.now)
  | .other key limit => Uncapped s.buckets ⟨key, limit, app.windowOf key, s.now⟩
  | _ => True

/-- A finite run of the system in which the limiter never has to evict a bucket. -/
abbrev MeteredRun (app : MeteredApp) : Metered → List MeteredLabel → Metered → Prop :=
  Run (Guarded (Roomy app) fun s l s' => meteredStep app s l = some s')

variable {app : MeteredApp} {s s' : Metered} {history : String → List Nat} {l : MeteredLabel}

/-! ## What the handlers ask -/

/-- The use case asks the geocoder about its destination and nothing else. -/
theorem origin_of_destination {geocode geocode' : String → Except Unit (Option GeoHit)}
    {input : SearchInput} (h : ∀ query ∈ destination input, geocode query = geocode' query) :
    SearchParking.origin geocode input = SearchParking.origin geocode' input := by
  unfold SearchParking.origin
  cases hlat : input.lat <;> cases hlon : input.lon <;> dsimp only
  all_goals
    cases hquery : nonBlank input.query with
    | none => rfl
    | some query =>
      have hdest : destination input = some query := by simp [destination, hlat, hlon, hquery]
      dsimp only
      rw [h query (by rw [hdest]; rfl)]

/-- A page that sends no request asks the geocoder nothing. -/
theorem origin_of_searchArrives {g : CachingGeocoder} {cache : Geo.Cache} {now : Nat}
    {ip : String} {params : SearchParams} (h : searchArrives g cache now ip params = none)
    (hsearch : params.isBrowse = false) (geocode geocode' : String → Except Unit (Option GeoHit)) :
    SearchParking.origin geocode params.toInput = SearchParking.origin geocode' params.toInput := by
  rw [searchArrives, hsearch, if_neg Bool.false_ne_true, Option.map_eq_none_iff] at h
  refine origin_of_destination fun query hquery => ?_
  rw [h] at hquery
  cases hquery

/-- The keys of two networks differ. -/
theorem geocodeKey_inj {ip ip' : String} : geocodeKey ip = geocodeKey ip' ↔ ip = ip' := by
  simp [geocodeKey]

theorem isGeocodeKey_geocodeKey (ip : String) : isGeocodeKey (geocodeKey ip) = true := by
  rw [isGeocodeKey, geocodeKey, String.toList_append]
  exact List.isPrefixOf_iff_prefix.mpr (List.prefix_append _ _)

/-! ## Requests in a list -/

/-- What setting and erasing a place of a list does. -/
theorem exists_of_place {α : Type} {l : List α} {i : Nat} {a : α} (h : l[i]? = some a) :
    ∃ before after, l = before ++ a :: after ∧ (∀ b, l.set i b = before ++ b :: after) ∧
      l.eraseIdx i = before ++ after := by
  obtain ⟨hi, rfl⟩ := List.getElem?_eq_some_iff.mp h
  refine ⟨l.take i, l.drop (i + 1), ?_, fun b => ?_, List.eraseIdx_eq_take_drop_succ ..⟩
  · rw [← List.drop_eq_getElem_cons hi, List.take_append_drop]
  · rw [List.set_eq_take_append_cons_drop, if_pos hi]

/-! ## Charges -/

def Payment.charge : Payment → Option Nat
  | .charged at' => some at'
  | .cached .. => none

/-- The charge that a request of a network holds. -/
def GeocodeRequest.held (ip : String) (r : GeocodeRequest) : Option Nat :=
  match r.progress with
  | .ready payment => if r.ip = ip then payment.charge else none
  | _ => none

/-- The charge that paid for a call. -/
def ProviderCall.paid (ip : String) (c : ProviderCall) : Option Nat :=
  if c.ip = ip then c.payment.charge else none

/-- The charges of the calls of a network. -/
def charges (ip : String) (calls : List ProviderCall) : List Nat := calls.filterMap (·.paid ip)

/-- The charges that a network was granted. -/
def Metered.grants (s : Metered) (ip : String) : List Nat :=
  s.granted.filterMap fun g => if g.1 = ip then some g.2 else none

/-- The charges that are used up or held. -/
def Metered.spent (s : Metered) (ip : String) : List Nat :=
  charges ip s.calls ++ s.requests.filterMap (·.held ip)

/-- The buckets of the limiter track a history of what was granted, which has every charge as
often as it is used, and no more charges in a window than the budget. -/
structure Funded (app : MeteredApp) (s : Metered) (history : String → List Nat) : Prop where
  tracks : Tracks app.windowOf s.now s.buckets history
  admitted : ∀ ip, Admitted app.limits.perIp app.limits.window (history (geocodeKey ip))
  granted : ∀ ip, history (geocodeKey ip) = s.grants ip
  spent : ∀ ip, (s.spent ip).Subperm (history (geocodeKey ip))

theorem funded_init (app : MeteredApp) (now : Nat) :
    Funded app (Metered.init now) fun _ => [] where
  tracks := (tracks_empty app.windowOf).later (Nat.zero_le now)
  admitted _ := .nil
  granted _ := rfl
  spent _ := List.nil_subperm

/-- A request comes without a charge. -/
theorem held_searchArrives {g : CachingGeocoder} {cache : Geo.Cache} {now : Nat} {ip : String}
    {params : SearchParams} (ip' : String) :
    ((searchArrives g cache now ip params).toList.filterMap (·.held ip')) = [] := by
  unfold searchArrives
  split
  · rfl
  · cases destination params.toInput with
    | none => rfl
    | some query =>
      rw [Option.map_some, Option.toList_some, List.filterMap_cons_none]
      · rfl
      · unfold GeocodeRequest.held
        dsimp only
        split
        · rename_i hready
          split at hready
          · cases hready
          · cases hready
            exact ite_self _
        · rfl

theorem held_apiArrives {g : CachingGeocoder} {cache : Geo.Cache} {now : Nat} {ip q : String}
    {isVerified : Bool} (ip' : String) :
    ((apiArrives g cache now ip isVerified q).toList.filterMap (·.held ip')) = [] := by
  unfold apiArrives
  split
  · cases nonBlank (some q) with
    | none => rfl
    | some query =>
      rw [Option.bind_some]
      split <;> rfl
  · rfl

/-- A request that goes gives nothing back. -/
theorem Funded.erase (h : Funded app s history) (cache : Geo.Cache) (i : Nat) :
    Funded app { s with cache := cache, requests := s.requests.eraseIdx i } history where
  tracks := h.tracks
  admitted := h.admitted
  granted := h.granted
  spent ip := by
    have hless : ((s.requests.eraseIdx i).filterMap (·.held ip)).Sublist
        (s.requests.filterMap (·.held ip)) := (List.eraseIdx_sublist ..).filterMap _
    exact ((List.Sublist.refl _).append hless).subperm.trans (h.spent ip)

/-- A check for another key leaves the budgets alone. -/
theorem Funded.other (h : Funded app s history) {key : String} {limit : Nat}
    (hother : isGeocodeKey key = false)
    (hroom : Uncapped s.buckets ⟨key, limit, app.windowOf key, s.now⟩) :
    Funded app
      { s with buckets := (check s.buckets ⟨key, limit, app.windowOf key, s.now⟩).2 }
      (reference history ⟨key, limit, app.windowOf key, s.now⟩).2 := by
  have hsame : ∀ ip, (reference history ⟨key, limit, app.windowOf key, s.now⟩).2
      (geocodeKey ip) = history (geocodeKey ip) := by
    intro ip
    rw [reference_history, if_neg, List.append_nil]
    rintro ⟨rfl, _⟩
    rw [isGeocodeKey_geocodeKey] at hother
    cases hother
  refine ⟨(h.tracks.check le_rfl ⟨rfl, hroom⟩).2, fun ip => ?_, fun ip => ?_, fun ip => ?_⟩
  · rw [hsame]
    exact h.admitted ip
  · rw [hsame]
    exact h.granted ip
  · rw [hsame]
    exact h.spent ip

/-- What the limiter grants is what its history gets. -/
theorem grants_charge (h : ∀ ip, history (geocodeKey ip) = s.grants ip) {i : Nat}
    {r : GeocodeRequest}
    (hanswer : (check s.buckets (app.limits.check r.ip s.now)).1 =
      (reference history (app.limits.check r.ip s.now)).1) (ip : String) :
    (reference history (app.limits.check r.ip s.now)).2 (geocodeKey ip) =
      (s.charge app i r).grants ip := by
  have hkey : (app.limits.check r.ip s.now).key = geocodeKey ip ↔ r.ip = ip := geocodeKey_inj
  have htime : (app.limits.check r.ip s.now).now = s.now := rfl
  simp only [reference_history, ← hanswer, h, Metered.grants, Metered.charge, hkey, htime]
  cases (check s.buckets (app.limits.check r.ip s.now)).1 with
  | false => simp
  | true =>
    by_cases hip : r.ip = ip
    · simp [hip]
    · simp [hip]

/-- A charge is in the history before the request holds it. -/
theorem Funded.charge (h : Funded app s history) {i : Nat} {r : GeocodeRequest}
    (hr : s.requests[i]? = some r) (hunpaid : r.progress = .unpaid)
    (hroom : Uncapped s.buckets (app.limits.check r.ip s.now)) :
    Funded app (s.charge app i r) (reference history (app.limits.check r.ip s.now)).2 := by
  have hwindow : (app.limits.check r.ip s.now).window =
      app.windowOf (app.limits.check r.ip s.now).key := (app.window_eq r.ip).symm
  obtain ⟨hanswer, htracks⟩ := h.tracks.check le_rfl ⟨hwindow, hroom⟩
  refine ⟨htracks, fun ip => ?_, grants_charge h.granted hanswer, fun ip => ?_⟩
  · exact (h.admitted ip).reference (h.tracks.past _) fun _ => ⟨rfl, rfl⟩
  · obtain ⟨before, after, hlist, hset, herase⟩ := exists_of_place hr
    have hspent := h.spent ip
    have hnone : r.held ip = none := by simp [GeocodeRequest.held, hunpaid]
    rw [Metered.spent, hlist, List.filterMap_append, List.filterMap_cons_none hnone] at hspent
    rw [reference_history, ← hanswer]
    show ((charges ip s.calls ++ List.filterMap _ (if _ then _ else _))).Subperm _
    cases hallowed : (check s.buckets (app.limits.check r.ip s.now)).1 with
    | false =>
      rw [if_neg Bool.false_ne_true, herase, List.filterMap_append,
        if_neg (fun hand => Bool.false_ne_true hand.2), List.append_nil]
      exact hspent
    | true =>
      rw [if_pos rfl, hset, List.filterMap_append]
      by_cases hip : r.ip = ip
      · have hheld : ({ r with progress := .ready (.charged s.now) } : GeocodeRequest).held ip =
            some s.now := by simp [GeocodeRequest.held, hip, Payment.charge]
        have hkey : (app.limits.check r.ip s.now).key = geocodeKey ip := by rw [← hip]; rfl
        rw [List.filterMap_cons_some hheld, if_pos ⟨hkey, rfl⟩]
        -- The new charge moves to the end of the list.
        have hperm : (charges ip s.calls ++ (before.filterMap (·.held ip) ++
            s.now :: after.filterMap (·.held ip))).Perm
            ((charges ip s.calls ++ (before.filterMap (·.held ip) ++
              after.filterMap (·.held ip))) ++ [s.now]) := by
          rw [List.append_assoc, List.append_assoc]
          refine .append_left _ (.append_left _ ?_)
          exact List.perm_append_singleton _ _ |>.symm
        exact hperm.subperm.trans ((List.subperm_append_right _).mpr hspent)
      · have hheld : ({ r with progress := .ready (.charged s.now) } : GeocodeRequest).held ip =
            none := by simp [GeocodeRequest.held, hip]
        have hkey : ¬ (app.limits.check r.ip s.now).key = geocodeKey ip :=
          fun hsame => hip (geocodeKey_inj.mp hsame)
        rw [List.filterMap_cons_none hheld, if_neg (fun hand => hkey hand.1), List.append_nil]
        exact hspent

/-- A lookup hands the charge on to the call. -/
theorem Funded.lookup (h : Funded app s history) {i : Nat} {r : GeocodeRequest}
    {payment : Payment} (hr : s.requests[i]? = some r) (hready : r.progress = .ready payment) :
    Funded app (s.lookup app i r payment) history := by
  unfold Metered.lookup
  split
  · exact h.erase _ i
  · refine ⟨h.tracks, h.admitted, h.granted, fun ip => ?_⟩
    obtain ⟨before, after, hlist, hset, _⟩ := exists_of_place hr
    have hspent := h.spent ip
    rw [Metered.spent, hlist] at hspent
    unfold Metered.spent charges
    dsimp only
    rw [hset]
    have hwaits : ({ r with progress := .waiting } : GeocodeRequest).held ip = none := rfl
    have hheld : r.held ip = if r.ip = ip then payment.charge else none := by
      rw [GeocodeRequest.held, hready]
    rw [List.filterMap_append, List.filterMap_cons_none hwaits]
    cases hcharge : r.held ip with
    | none =>
      rw [List.filterMap_append, List.filterMap_cons_none hcharge] at hspent
      rw [List.filterMap_cons_none (by rw [ProviderCall.paid, ← hheld, hcharge])]
      exact hspent
    | some at' =>
      rw [List.filterMap_append, List.filterMap_cons_some hcharge] at hspent
      rw [List.filterMap_cons_some (b := at') (by rw [ProviderCall.paid, ← hheld, hcharge])]
      refine List.Perm.subperm ?_ |>.trans hspent
      rw [← List.append_assoc, ← List.append_assoc]
      exact List.perm_middle.symm

theorem Funded.step (h : Funded app s history) (hroom : Roomy app s l)
    (hstep : meteredStep app s l = some s') : ∃ history', Funded app s' history' := by
  cases l with
  | tick duration =>
    cases hstep
    exact ⟨history, h.tracks.later (Nat.le_add_right ..), h.admitted, h.granted, h.spent⟩
  | search ip params =>
    cases hstep
    refine ⟨history, h.tracks, h.admitted, h.granted, fun ip' => ?_⟩
    rw [Metered.spent, List.filterMap_append, held_searchArrives]
    exact h.spent ip'
  | api ip isVerified q =>
    cases hstep
    refine ⟨history, h.tracks, h.admitted, h.granted, fun ip' => ?_⟩
    rw [Metered.spent, List.filterMap_append, held_apiArrives]
    exact h.spent ip'
  | charge i =>
    simp only [meteredStep] at hstep
    split at hstep
    · rename_i ip query hr
      cases hstep
      exact ⟨_, h.charge hr rfl (hroom _ (by rw [hr]; rfl))⟩
    · cases hstep
  | other key limit =>
    simp only [meteredStep] at hstep
    split at hstep
    · cases hstep
    · rename_i hother
      cases hstep
      exact ⟨_, h.other (Bool.eq_false_iff.mpr hother) hroom⟩
  | lookup i =>
    simp only [meteredStep] at hstep
    split at hstep
    · rename_i ip query payment hr
      cases hstep
      exact ⟨history, h.lookup hr rfl⟩
    · cases hstep
  | answer i answer =>
    simp only [meteredStep] at hstep
    split at hstep
    · rename_i ip query hr
      cases hstep
      exact ⟨history, h.erase _ i⟩
    · cases hstep
  | drop i =>
    obtain ⟨r, hr, rfl⟩ := Option.map_eq_some_iff.mp hstep
    exact ⟨history, h.erase _ i⟩

/-! ## Calls without a charge -/

/-- A call that was not charged: its request had found an answer in the cache, which was evicted
or too old when the lookup came. -/
def Excused (g : CachingGeocoder) (c : ProviderCall) (found : Nat) (since : Instant) : Prop :=
  found ≤ c.at' ∧ since ≤ found ∧ found - since < g.ttl ∧
    (c.forgotten = true ∨ g.ttl ≤ c.at' - since)

/-- A request that was not charged has found an answer in the cache, and an answer that is there
now is not older. -/
structure FoundAnswer (g : CachingGeocoder) (s : Metered) (r : GeocodeRequest) (found : Nat)
    (since : Instant) : Prop where
  before : found ≤ s.now
  written : since ≤ found
  live : found - since < g.ttl
  newer : ∀ hit since', s.cache.hits (g.key r.query) = some (hit, since') → since ≤ since'

structure Excuses (g : CachingGeocoder) (s : Metered) : Prop where
  past : ∀ k hit since, s.cache.hits k = some (hit, since) → since ≤ s.now
  requests : ∀ r ∈ s.requests, ∀ found since, r.progress = .ready (.cached found since) →
    FoundAnswer g s r found since
  calls : ∀ c ∈ s.calls, ∀ found since, c.payment = .cached found since → Excused g c found since

variable {g : CachingGeocoder}

theorem excuses_init (g : CachingGeocoder) (now : Nat) : Excuses g (Metered.init now) where
  past _ _ _ h := by cases h
  requests _ h := by cases h
  calls _ h := by cases h

/-- A lookup that finds nothing for the text of such a request. -/
theorem FoundAnswer.excused {r : GeocodeRequest} {found : Nat} {since : Instant}
    (h : FoundAnswer g s r found since)
    (hpast : ∀ k hit since, s.cache.hits k = some (hit, since) → since ≤ s.now)
    (hpeek : g.peek s.cache r.query s.now = none) {payment : Payment} :
    Excused g ⟨r.ip, r.query, payment, s.now, (s.cache.hits (g.key r.query)).isNone⟩ found
      since := by
  refine ⟨h.before, h.written, h.live, ?_⟩
  cases hentry : s.cache.hits (g.key r.query) with
  | none => exact .inl rfl
  | some entry =>
    right
    have hold : ¬ max 0 ((s.now : Instant) - entry.2) < g.ttl := by
      intro hlive
      rw [CachingGeocoder.peek, hentry] at hpeek
      simp only [if_pos hlive] at hpeek
      cases hpeek
    have hnewer := h.newer entry.1 entry.2 hentry
    have hbefore := hpast _ entry.1 entry.2 hentry
    show g.ttl ≤ (s.now : Int) - since
    have hmax : max 0 ((s.now : Int) - entry.2) = s.now - entry.2 :=
      max_eq_right (Int.sub_nonneg_of_le hbefore)
    rw [hmax] at hold
    exact (Int.not_lt.mp hold).trans (Int.sub_le_sub_left hnewer _)

theorem found_searchArrives {ip : String} {params : SearchParams}
    (hpast : ∀ k hit since, s.cache.hits k = some (hit, since) → since ≤ s.now)
    {r : GeocodeRequest} (hr : r ∈ (searchArrives g s.cache s.now ip params).toList)
    {found : Nat} {since : Instant} (hready : r.progress = .ready (.cached found since)) :
    FoundAnswer g s r found since := by
  unfold searchArrives at hr
  split at hr
  · cases hr
  · obtain ⟨query, hquery, rfl⟩ := Option.map_eq_some_iff.mp (Option.mem_toList.mp hr)
    dsimp only at hready
    split at hready
    · cases hready
    · rename_i hfree
      cases hready
      -- The text is free because the cache has a live answer for it.
      have hlive : (g.peek s.cache query s.now).isSome = true := by
        unfold destination at hquery
        unfold geocodeIsBillable at hfree
        split at hquery
        · cases hquery
        · rename_i hplace
          rw [if_neg hplace, hquery] at hfree
          simpa [Option.isSome_iff_ne_none] using hfree
      obtain ⟨hit, hhit⟩ := Option.isSome_iff_exists.mp hlive
      obtain ⟨since, hentry, hage⟩ := CachingGeocoder.peek_eq_some hhit
      have hwritten : writtenAt g s.cache query = since := by simp [writtenAt, hentry]
      rw [hwritten]
      refine ⟨le_rfl, hpast _ _ _ hentry, hage, fun hit' since' hentry' => ?_⟩
      rw [hentry] at hentry'
      cases hentry'
      exact le_rfl

theorem ready_apiArrives {cache : Geo.Cache} {now : Nat} {ip q : String} {isVerified : Bool}
    {r : GeocodeRequest} (hr : r ∈ (apiArrives g cache now ip isVerified q).toList) :
    r.progress = .unpaid := by
  unfold apiArrives at hr
  split at hr
  · obtain ⟨query, _, hrequest⟩ := Option.bind_eq_some_iff.mp (Option.mem_toList.mp hr)
    split at hrequest
    · cases hrequest
    · cases hrequest
      rfl
  · cases hr

/-- Fewer requests, and others that are not ready. -/
theorem Excuses.of_requests (h : Excuses g s) {buckets : Buckets}
    {granted : List (String × Nat)} {requests : List GeocodeRequest}
    (hrequests : ∀ r ∈ requests, ∀ found since, r.progress = .ready (.cached found since) →
      FoundAnswer g s r found since) :
    Excuses g { s with buckets := buckets, granted := granted, requests := requests } where
  past := h.past
  requests r hr found since hready :=
    { hrequests r hr found since hready with }
  calls := h.calls

/-- An answer of the provider is newer than what a request has found. -/
theorem Excuses.receive (h : Excuses g s) (query : String) (answer : Geo.Answer) :
    Excuses g { s with cache := g.receive s.cache query answer s.now } where
  past k hit since hentry := by
    rcases CachingGeocoder.hits_receive hentry with hold | ⟨_, _, hsince⟩
    · exact h.past k hit since hold
    · exact le_of_eq hsince
  requests r hr found since hready := by
    have hfound := h.requests r hr found since hready
    refine { hfound with newer := fun hit since' hentry => ?_ }
    rcases CachingGeocoder.hits_receive hentry with hold | ⟨_, _, hsince⟩
    · exact hfound.newer hit since' hold
    · show since ≤ since'
      rw [show since' = s.now from hsince]
      exact le_trans hfound.written (Int.ofNat_le.mpr hfound.before)
  calls := h.calls

theorem Excuses.lookup (h : Excuses app.geocoder s) {i : Nat} {r : GeocodeRequest}
    {payment : Payment} (hr : s.requests[i]? = some r) (hready : r.progress = .ready payment) :
    Excuses app.geocoder (s.lookup app i r payment) := by
  have hmem : r ∈ s.requests := List.mem_of_getElem? hr
  unfold Metered.lookup
  split
  · exact h.of_requests fun r' hr' => h.requests r' (List.mem_of_mem_eraseIdx hr')
  · rename_i hpeek
    refine ⟨h.past, fun r' hr' found since hready' => ?_, fun c hc found since hpayment => ?_⟩
    · rcases List.mem_or_eq_of_mem_set hr' with hold | rfl
      · exact { h.requests r' hold found since hready' with }
      · cases hready'
    · rcases List.mem_cons.mp hc with rfl | hold
      · rw [show payment = .cached found since from hpayment] at hready
        exact (h.requests r hmem found since hready).excused h.past hpeek
      · exact h.calls c hold found since hpayment

theorem Excuses.step (h : Excuses app.geocoder s) (hstep : meteredStep app s l = some s') :
    Excuses app.geocoder s' := by
  have herase : ∀ i, Excuses app.geocoder { s with requests := s.requests.eraseIdx i } :=
    fun i => h.of_requests fun r hr => h.requests r (List.mem_of_mem_eraseIdx hr)
  cases l with
  | tick duration =>
    cases hstep
    refine ⟨fun k hit since hentry => ?_, fun r hr found since hready => ?_, h.calls⟩
    · show since ≤ ((s.now + duration : Nat) : Int)
      exact le_trans (h.past k hit since hentry) (Int.ofNat_le.mpr (Nat.le_add_right ..))
    · have hfound := h.requests r hr found since hready
      exact { hfound with before := hfound.before.trans (Nat.le_add_right ..) }
  | search ip params =>
    cases hstep
    refine h.of_requests fun r hr found since hready => ?_
    rcases List.mem_append.mp hr with hnew | hold
    · exact found_searchArrives h.past hnew hready
    · exact h.requests r hold found since hready
  | api ip isVerified q =>
    cases hstep
    refine h.of_requests fun r hr found since hready => ?_
    rcases List.mem_append.mp hr with hnew | hold
    · rw [ready_apiArrives hnew] at hready
      cases hready
    · exact h.requests r hold found since hready
  | charge i =>
    simp only [meteredStep] at hstep
    split at hstep
    · rename_i ip query hr
      cases hstep
      refine h.of_requests fun r' hr' found since hready => ?_
      split at hr'
      · rcases List.mem_or_eq_of_mem_set hr' with hold | rfl
        · exact h.requests r' hold found since hready
        · cases hready
      · exact h.requests r' (List.mem_of_mem_eraseIdx hr') found since hready
    · cases hstep
  | other key limit =>
    simp only [meteredStep] at hstep
    split at hstep
    · cases hstep
    · cases hstep
      exact h.of_requests h.requests
  | lookup i =>
    simp only [meteredStep] at hstep
    split at hstep
    · rename_i ip query payment hr
      cases hstep
      exact h.lookup hr rfl
    · cases hstep
  | answer i answer =>
    simp only [meteredStep] at hstep
    split at hstep
    · rename_i ip query hr
      cases hstep
      exact (herase i).receive query answer
    · cases hstep
  | drop i =>
    obtain ⟨r, hr, rfl⟩ := Option.map_eq_some_iff.mp hstep
    exact herase i

/-! ## The budget -/

/-- However requests overlap: the calls of a network use up different charges of those that it
was granted, and no window has more of these than the budget.  A call that was not charged is
one whose request had found an answer in the cache, evicted or expired by the time of its
lookup. -/
theorem geocode_budget {now : Nat} {ls : List MeteredLabel}
    (hrun : MeteredRun app (Metered.init now) ls s) :
    (∀ ip, (charges ip s.calls).Subperm (s.grants ip) ∧
      ∀ from', ((s.grants ip).filter fun t =>
        from' ≤ t && t < from' + app.limits.window).length ≤ app.limits.perIp) ∧
    (∀ ip from', ((charges ip s.calls).filter fun t =>
      from' ≤ t && t < from' + app.limits.window).length ≤ app.limits.perIp) ∧
    ∀ c ∈ s.calls, ∀ found since, c.payment = .cached found since →
      Excused app.geocoder c found since := by
  have hfunded : ∃ history, Funded app s history :=
    hrun.invariant (I := fun s => ∃ history, Funded app s history)
      (fun _ _ _ ⟨_, h⟩ hstep => h.step hstep.1 hstep.2) ⟨_, funded_init app now⟩
  have hexcuses : Excuses app.geocoder s :=
    hrun.invariant (fun _ _ _ h hstep => h.step hstep.2) (excuses_init _ now)
  obtain ⟨history, hfunded⟩ := hfunded
  have hspent : ∀ ip, (charges ip s.calls).Subperm (s.grants ip) := by
    intro ip
    rw [← hfunded.granted ip]
    exact (List.sublist_append_left ..).subperm.trans (hfunded.spent ip)
  have hgrants : ∀ ip from', ((s.grants ip).filter fun t =>
      from' ≤ t && t < from' + app.limits.window).length ≤ app.limits.perIp := by
    intro ip from'
    rw [← hfunded.granted ip]
    exact (hfunded.admitted ip).length_between_le from'
  refine ⟨fun ip => ⟨hspent ip, hgrants ip⟩, fun ip from' => ?_, hexcuses.calls⟩
  exact ((hspent ip).filter _).length_le.trans (hgrants ip from')

instance (app : MeteredApp) (s : Metered) (l : MeteredLabel) : Decidable (Roomy app s l) :=
  match l with
  | .charge i =>
    inferInstanceAs (Decidable (∀ r ∈ s.requests[i]?,
      Uncapped s.buckets (app.limits.check r.ip s.now)))
  | .other key limit =>
    inferInstanceAs (Decidable (Uncapped s.buckets ⟨key, limit, app.windowOf key, s.now⟩))
  | .tick _ | .search .. | .api .. | .lookup _ | .answer .. | .drop _ => .isTrue trivial

/-- One call in a hundred instants for each network, and answers that are kept for ten. -/
def oneCall : MeteredApp := ⟨.sample, ⟨1, 100⟩, fun _ => 100, fun _ => rfl⟩

def plaza : SearchParams :=
  ⟨"praca".toList, none, none, none, [], [], [], [], [], none, []⟩

/-- Two requests overlap, of which one is charged and one refused; later a request finds its
answer expired between the check and the lookup. -/
def expiring : List MeteredLabel :=
  [.search "203.0.113.7" plaza, .search "203.0.113.7" plaza, .charge 1, .charge 0, .lookup 0,
    .answer 0 (.ok (some CachingGeocoder.sampleHit)), .tick 9,
    .search "203.0.113.7" plaza, .tick 1, .lookup 0]

/-- The second call is not charged. -/
theorem geocode_budget_expiring :
    ∃ s, MeteredRun oneCall (Metered.init 0) expiring s ∧
      (charges "203.0.113.7" s.calls).Subperm (s.grants "203.0.113.7") ∧
      ((charges "203.0.113.7" s.calls).filter fun t => 0 ≤ t && t < 0 + 100).length ≤ 1 ∧
      ∃ c ∈ s.calls, c.payment = .cached 9 0 ∧ Excused .sample c 9 0 := by
  have hend : (expiring.foldlM (fun s l =>
      if decide (Roomy oneCall s l) then meteredStep oneCall s l else none)
      (Metered.init 0)).any (fun s => s.calls.any fun c => c.payment == .cached 9 0) = true := by
    decide +kernel
  obtain ⟨s, hs, hcall⟩ := (Option.any_eq_true ..).mp hend
  have hrun : MeteredRun oneCall (Metered.init 0) expiring s :=
    (Run.guarded_of_foldlM hs).mono fun _ _ _ hstep => ⟨of_decide_eq_true hstep.1, hstep.2⟩
  obtain ⟨c, hc, hpayment⟩ := List.any_eq_true.mp hcall
  have hpayment : c.payment = .cached 9 0 := eq_of_beq hpayment
  obtain ⟨hspent, hwithin, hexcused⟩ := geocode_budget hrun
  exact ⟨s, hrun, (hspent "203.0.113.7").1, hwithin "203.0.113.7" 0, c, hc, hpayment,
    hexcused c hc 9 0 hpayment⟩

end BikesNest.Web
