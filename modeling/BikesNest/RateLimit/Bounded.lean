import BikesNest.RateLimit.InMemory

/-!
# The bound on the buckets

The buckets are capped, and what a sweep or an eviction does to them is to forget.

The order in which the code lists and sorts buckets that were last seen at the same
time is left open: `Checks` is `check` with every such order.  In its runs
`Bounded` says that the map is within the cap, and `Charges` that the bucket of a key
has times of allowed checks of that key only.  `bounded_without_false_denials` follows.
-/

namespace BikesNest.RateLimit

open SlidingWindow Runs

/-! ## Evictions in any order -/

/-- The eviction, with the buckets of one age in any order. -/
def Evicts (m m' : BucketMap) : Prop :=
  ∃ ages : List (Nat × String),
    ages.Perm (m.entries.map fun e => (e.2.lastSeen, e.1)) ∧
    ages.Pairwise (fun a b => a.1 ≤ b.1) ∧
    m' = (ages.take (m.keys.length - (maxBuckets - maxBuckets / 10))).foldl
      (fun m a => m.erase a.2) m

inductive Sweeps (s : Buckets) (now : Nat) : Buckets → Prop where
  | kept (h : (live s.map now).keys.length < maxBuckets) :
      Sweeps s now { map := live s.map now, sinceSweep := 0 }
  | evicted {m : BucketMap} (h : ¬(live s.map now).keys.length < maxBuckets)
      (hevicts : Evicts (live s.map now) m) : Sweeps s now { map := m, sinceSweep := 0 }

inductive MakesRoom (s : Buckets) (c : Check String) : Buckets → Prop where
  | known (h : c.key ∈ s.map) : MakesRoom s c s
  | counted (h : c.key ∉ s.map)
      (hfew : ¬(sweepEveryNewKeys ≤ s.sinceSweep + 1 ∨ maxBuckets ≤ s.map.keys.length)) :
      MakesRoom s c { s with sinceSweep := s.sinceSweep + 1 }
  | swept {s' : Buckets} (h : c.key ∉ s.map)
      (hmany : sweepEveryNewKeys ≤ s.sinceSweep + 1 ∨ maxBuckets ≤ s.map.keys.length)
      (hsweeps : Sweeps { s with sinceSweep := s.sinceSweep + 1 } c.now s') : MakesRoom s c s'

/-- What `check` does after it has made room. -/
def record (s : Buckets) (c : Check String) : Bool × Buckets :=
  let bucket := (s.map.lookup c.key).getD { events := [], lastSeen := c.now, window := c.window }
  let events := bucket.events.dropWhile fun front => c.window ≤ c.now - front
  if c.limit ≤ events.length then
    (false, { s with map := s.map.insert c.key { events, lastSeen := c.now, window := c.window } })
  else
    (true, { s with
      map := s.map.insert c.key
        { events := events ++ [c.now], lastSeen := c.now, window := c.window } })

/-- A check with its answer. -/
def Checks (s : Buckets) (x : Check String × Bool) (s' : Buckets) : Prop :=
  ∃ t, MakesRoom s x.1 t ∧ record t x.1 = (x.2, s')

theorem evicts_evict (m : BucketMap) : Evicts m (evict m) :=
  ⟨_, List.perm_insertionSort .., List.pairwise_insertionSort .., rfl⟩

theorem sweeps_sweep (s : Buckets) (now : Nat) : Sweeps s now (sweep s now) := by
  unfold sweep
  dsimp only
  split
  · next h => exact .kept h
  · next h => exact .evicted h (evicts_evict _)

theorem makesRoom_makeRoom (s : Buckets) (c : Check String) : MakesRoom s c (makeRoom s c) := by
  unfold makeRoom
  split
  · next h => exact .known h
  · next h =>
    dsimp only
    split
    · next hmany => exact .swept h hmany (sweeps_sweep ..)
    · next hfew => exact .counted h hfew

theorem checks_check (s : Buckets) (c : Check String) : Checks s (c, (check s c).1) (check s c).2 :=
  ⟨makeRoom s c, makesRoom_makeRoom s c, rfl⟩

/-- The limiter's own run. -/
theorem run_check (s : Buckets) (calls : List (Check String)) :
    Run Checks s (calls.zip (answers check s calls)) (stateAfter check s calls) := by
  induction calls generalizing s with
  | nil => exact .nil s
  | cons c calls ih => exact .cons (checks_check s c) (ih _)

/-! ## Forgetting -/

theorem length_foldl_erase {ages : List (Nat × String)} (hnodup : (ages.map Prod.snd).Nodup)
    {m : BucketMap} (hmem : ∀ a ∈ ages, a.2 ∈ m) :
    (ages.foldl (fun m a => m.erase a.2) m).keys.length + ages.length = m.keys.length := by
  induction ages generalizing m with
  | nil => rfl
  | cons a ages ih =>
    rw [List.map_cons, List.nodup_cons] at hnodup
    have hrest : ∀ b ∈ ages, b.2 ∈ m.erase a.2 := by
      intro b hb
      refine AList.mem_erase.mpr ⟨fun heq => ?_, hmem b (List.mem_cons_of_mem _ hb)⟩
      exact hnodup.1 (heq ▸ List.mem_map_of_mem hb)
    have hone : (m.erase a.2).keys.length + 1 = m.keys.length := by
      rw [AList.keys_erase]
      exact List.length_erase_add_one (AList.mem_keys.mp (hmem a List.mem_cons_self))
    have := ih hnodup.2 hrest
    rw [List.foldl_cons, List.length_cons]
    omega

theorem lookup_foldl_erase {ages : List (Nat × String)} {m : BucketMap} {key : String}
    {b : Bucket} (h : (ages.foldl (fun m a => m.erase a.2) m).lookup key = some b) :
    m.lookup key = some b := by
  induction ages generalizing m with
  | nil => exact h
  | cons a ages ih =>
    have herased : (m.erase a.2).lookup key = some b := ih h
    by_cases heq : key = a.2
    · rw [heq, AList.lookup_erase] at herased
      cases herased
    · rwa [AList.lookup_erase_ne heq] at herased

/-- An eviction leaves nine tenths of the cap. -/
theorem Evicts.length_lt {m m' : BucketMap} (h : Evicts m m')
    (hfull : ¬m.keys.length < maxBuckets) : m'.keys.length < maxBuckets := by
  obtain ⟨ages, hperm, _, heq⟩ := h
  have hkeys : (ages.map Prod.snd).Perm m.keys := by
    have := hperm.map Prod.snd
    rwa [List.map_map] at this
  have hlen : ages.length = m.keys.length := by
    rw [← hkeys.length_eq, List.length_map]
  have hmem : ∀ a ∈ ages.take (m.keys.length - (maxBuckets - maxBuckets / 10)), a.2 ∈ m := by
    intro a ha
    exact AList.mem_keys.mpr
      (hkeys.mem_iff.mp (List.mem_map_of_mem (List.mem_of_mem_take ha)))
  have hnodup := hkeys.nodup_iff.mpr m.keys_nodup
  have hgone := length_foldl_erase
    (hnodup.sublist ((List.take_sublist _ ages).map Prod.snd)) hmem
  rw [List.length_take, hlen] at hgone
  rw [heq]
  unfold maxBuckets at *
  omega

theorem Sweeps.length_lt {s s' : Buckets} {now : Nat} (h : Sweeps s now s') :
    s'.map.keys.length < maxBuckets := by
  cases h with
  | kept h => exact h
  | evicted h hevicts => exact hevicts.length_lt h

theorem Sweeps.forgets {s s' : Buckets} {now : Nat} (h : Sweeps s now s') {key : String}
    {b : Bucket} (hb : s'.map.lookup key = some b) : s.map.lookup key = some b := by
  have hlive : (live s.map now).lookup key = some b := by
    cases h with
    | kept h => exact hb
    | evicted h hevicts =>
      obtain ⟨ages, _, _, heq⟩ := hevicts
      exact lookup_foldl_erase (heq ▸ hb)
  unfold live at hlive
  rw [lookup_retain] at hlive
  exact (Option.filter_eq_some_iff.mp hlive).1

theorem MakesRoom.forgets {s s' : Buckets} {c : Check String} (h : MakesRoom s c s')
    {key : String} {b : Bucket} (hb : s'.map.lookup key = some b) :
    s.map.lookup key = some b := by
  cases h with
  | known h => exact hb
  | counted h hfew => exact hb
  | swept h hmany hsweeps => exact hsweeps.forgets hb

/-! ## The cap -/

def Bounded (s : Buckets) : Prop := s.map.keys.length ≤ maxBuckets

/-- A key that is not in the map finds room for it. -/
theorem MakesRoom.room {s s' : Buckets} {c : Check String} (h : MakesRoom s c s')
    (hs : Bounded s) : Bounded s' ∧ (c.key ∉ s'.map → s'.map.keys.length < maxBuckets) := by
  cases h with
  | known h => exact ⟨hs, fun hnew => absurd h hnew⟩
  | counted h hfew =>
    have hlt : s.map.keys.length < maxBuckets := by omega
    exact ⟨hs, fun _ => hlt⟩
  | swept h hmany hsweeps => exact ⟨hsweeps.length_lt.le, fun _ => hsweeps.length_lt⟩

theorem length_insert {s : Buckets} {key : String} (b : Bucket) (hs : Bounded s)
    (hroom : key ∉ s.map → s.map.keys.length < maxBuckets) :
    (s.map.insert key b).keys.length ≤ maxBuckets := by
  rw [AList.keys_insert, List.length_cons]
  by_cases hmem : key ∈ s.map
  · rw [List.length_erase_add_one (AList.mem_keys.mp hmem)]
    exact hs
  · rw [List.erase_of_not_mem (fun h => hmem (AList.mem_keys.mpr h))]
    exact hroom hmem

theorem Checks.bounded {s s' : Buckets} {x : Check String × Bool} (h : Checks s x s')
    (hs : Bounded s) : Bounded s' := by
  obtain ⟨t, hroom, hrecord⟩ := h
  obtain ⟨ht, hnew⟩ := hroom.room hs
  unfold record at hrecord
  dsimp only at hrecord
  split at hrecord
  · obtain ⟨_, rfl⟩ := Prod.mk.inj hrecord
    exact length_insert _ ht hnew
  · obtain ⟨_, rfl⟩ := Prod.mk.inj hrecord
    exact length_insert _ ht hnew

/-! ## What a bucket charges -/

/-- The times of the allowed checks of a key. -/
def allowedIn (key : String) (events : List (Check String × Bool)) : List Nat :=
  (events.filter fun x => decide (x.1.key = key) && x.2).map fun x => x.1.now

/-- A bucket has times of its own key. -/
def Charges (history : String → List Nat) (s : Buckets) : Prop :=
  ∀ key b, s.map.lookup key = some b → b.events.Sublist (history key)

/-- The times that a check compares with its limit. -/
def charged (s : Buckets) (c : Check String) : List Nat :=
  let bucket := (s.map.lookup c.key).getD { events := [], lastSeen := c.now, window := c.window }
  bucket.events.dropWhile fun front => c.window ≤ c.now - front

theorem Charges.sublist {history : String → List Nat} {s : Buckets} (h : Charges history s)
    (c : Check String) : (charged s c).Sublist (history c.key) := by
  refine (List.dropWhile_sublist _).trans ?_
  cases hb : s.map.lookup c.key with
  | none => exact List.nil_sublist _
  | some b => exact h c.key b hb

/-- They are recent. -/
theorem Charges.recent_charged {history : String → List Nat} {s : Buckets}
    (h : Charges history s) (c : Check String) (hsorted : (history c.key).Pairwise (· ≤ ·)) :
    recent c.now c.window (charged s c) = charged s c := by
  unfold charged
  cases hb : s.map.lookup c.key with
  | none => rfl
  | some b =>
    rw [Option.getD_some, dropWhile_eq_recent (hsorted.sublist (h c.key b hb)),
      recent_recent le_rfl]

/-- The outcome of a check: whether its key has `limit` counted times already. -/
theorem Checks.outcome {s s' : Buckets} {c : Check String} {allowed : Bool}
    (h : Checks s (c, allowed) s') : ∃ t, MakesRoom s c t ∧
      (allowed = false ↔ c.limit ≤ (charged t c).length) ∧
      s'.map = t.map.insert c.key
        { events := charged t c ++ if allowed then [c.now] else []
          lastSeen := c.now
          window := c.window } := by
  obtain ⟨t, hroom, hrecord⟩ := h
  refine ⟨t, hroom, ?_⟩
  change (if c.limit ≤ (charged t c).length then _ else _) = _ at hrecord
  split at hrecord
  · next hfull =>
    obtain ⟨rfl, rfl⟩ := Prod.mk.inj hrecord
    exact ⟨iff_of_true rfl hfull, by rw [if_neg (by simp), List.append_nil]; rfl⟩
  · next hfree =>
    obtain ⟨rfl, rfl⟩ := Prod.mk.inj hrecord
    exact ⟨iff_of_false (by simp) hfree, rfl⟩

theorem MakesRoom.charges {history : String → List Nat} {s t : Buckets} {c : Check String}
    (h : MakesRoom s c t) (hs : Charges history s) : Charges history t := by
  intro key b hb
  exact hs key b (h.forgets hb)

theorem allowedIn_cons (key : String) (x : Check String × Bool)
    (events : List (Check String × Bool)) :
    allowedIn key (x :: events) =
      (if x.1.key = key ∧ x.2 = true then [x.1.now] else []) ++ allowedIn key events := by
  unfold allowedIn
  rw [List.filter_cons]
  simp only [Bool.and_eq_true, decide_eq_true_eq]
  split <;> rfl

/-- A check adds its time to the bucket of its own key only, when it is allowed. -/
theorem Charges.checks {history : String → List Nat} {s s' : Buckets} {x : Check String × Bool}
    (h : Checks s x s') (hs : Charges history s) :
    Charges (fun key => history key ++ allowedIn key [x]) s' := by
  obtain ⟨c, allowed⟩ := x
  obtain ⟨t, hroom, _, hmap⟩ := h.outcome
  have ht := hroom.charges hs
  intro key b hb
  rw [hmap] at hb
  show b.events.Sublist (history key ++ allowedIn key [(c, allowed)])
  rw [allowedIn_cons]
  by_cases hkey : key = c.key
  · subst hkey
    rw [AList.lookup_insert] at hb
    obtain rfl := Option.some.inj hb
    refine (ht.sublist c).append ?_
    cases allowed <;> simp [allowedIn]
  · rw [AList.lookup_insert_ne hkey] at hb
    exact (ht key b hb).trans (List.sublist_append_left ..)

/-! ## Runs -/

theorem charges_run {history : String → List Nat} {s s' : Buckets}
    {events : List (Check String × Bool)} (hrun : Run Checks s events s')
    (hs : Charges history s) : Charges (fun key => history key ++ allowedIn key events) s' := by
  induction hrun generalizing history with
  | nil s =>
    have heq : (fun key => history key ++ allowedIn key []) = history :=
      funext fun key => List.append_nil _
    rwa [heq]
  | @cons s t s' x events head tail ih =>
    have heq : (fun key => history key ++ allowedIn key (x :: events)) =
        fun key => history key ++ allowedIn key [x] ++ allowedIn key events := by
      funext key
      rw [allowedIn_cons, allowedIn_cons key x [], List.append_assoc]
      simp [allowedIn]
    rw [heq]
    exact ih (hs.checks head)

/-- A denied check has its limit of recent times, all of its own key. -/
theorem Charges.denied {history : String → List Nat} {s s' : Buckets} {c : Check String}
    (hs : Charges history s) (h : Checks s (c, false) s')
    (hsorted : (history c.key).Pairwise (· ≤ ·)) :
    c.limit ≤ (recent c.now c.window (history c.key)).length := by
  obtain ⟨t, hroom, hdenied, _⟩ := h.outcome
  have ht := hroom.charges hs
  have hlimit := hdenied.mp rfl
  rw [← ht.recent_charged c hsorted] at hlimit
  exact hlimit.trans ((ht.sublist c).filter _).length_le

theorem allowedIn_sublist (key : String) (events : List (Check String × Bool)) :
    (allowedIn key events).Sublist (events.map fun x => x.1.now) :=
  List.filter_sublist.map _

/-- In every run of checks with non-decreasing clock readings the map is within the cap
after each of them, and a denied check has at least `limit` allowed checks of its own key
less than its window ago. -/
theorem bounded_without_false_denials {events : List (Check String × Bool)} {s : Buckets}
    (hrun : Run Checks .empty events s)
    (hclock : (events.map fun x => x.1.now).Pairwise (· ≤ ·)) :
    s.map.keys.length ≤ maxBuckets ∧
      ∀ first c rest, events = first ++ (c, false) :: rest →
        c.limit ≤ (recent c.now c.window (allowedIn c.key first)).length := by
  have hstart : Bounded .empty := Nat.zero_le _
  have hnone : Charges (fun _ => []) .empty := by
    intro key b hb
    cases hb
  constructor
  · have hbounded : Bounded s := hrun.invariant (fun _ _ _ hs h => Checks.bounded h hs) hstart
    exact hbounded
  · intro first c rest hsplit
    subst hsplit
    obtain ⟨t, hfirst, hrest⟩ := hrun.exists_of_append
    cases hrest with
    | cons head tail =>
      rw [List.map_append, List.pairwise_append] at hclock
      have hsorted := hclock.1.sublist (allowedIn_sublist c.key first)
      have ht := charges_run hfirst hnone
      simp only [List.nil_append] at ht
      exact ht.denied head hsorted

theorem bounded_without_false_denials_logins :
    (stateAfter check .empty threeLogins).map.keys.length ≤ maxBuckets ∧
      ∀ first c rest,
        threeLogins.zip (answers check .empty threeLogins) = first ++ (c, false) :: rest →
        c.limit ≤ (recent c.now c.window (allowedIn c.key first)).length :=
  bounded_without_false_denials (run_check .empty threeLogins) (by decide +kernel)

end BikesNest.RateLimit
