import BikesNest.RateLimit.InMemory
import Mathlib.Algebra.Group.Int.Defs
import Mathlib.Algebra.Group.Nat.Defs
import Mathlib.Data.Int.Order.Basic

/-!
# The ValKey rate limiter

`ValKeyRateLimiter` has a sorted set for each key, of which a Lua script removes
the old members, counts the rest and adds a new one.  The store forgets the whole
set when it was not added to for the length of the window.

`Server` stands for the store: how Lua rounds a number to a `double`, which is exact
up to 2^53, and whether a set is gone that is due to expire, which is never so before
its deadline.

`rate_limiters_agree` says that this limiter and the in-memory one give the same
answers as long as the numbers of the script are exact.  `rate_limiters_differ` is a
window that the cast to 64 bits turns into zero.
-/

namespace BikesNest.RateLimit

open SlidingWindow Runs

/-! ## The store -/

/-- Numbers up to this are exact in Lua. -/
def exactBound : Nat := 2 ^ 53

structure Server where
  /-- The `double` next to a number. -/
  double : Int → Int
  /-- Is a set with this deadline gone at a time? -/
  gone : Nat → Nat → Bool
  double_exact : ∀ n : Int, -exactBound ≤ n → n ≤ exactBound → double n = n
  gone_late : ∀ now deadline, gone now deadline = true → deadline ≤ now

/-- A sorted set: members with their scores, in the order they were added. -/
structure SortedSet where
  members : List (String × Int)
  deadline : Option Nat

abbrev Store := String → Option SortedSet

/-- The set under a key at a time. -/
def Server.get (V : Server) (store : Store) (now : Nat) (key : String) : Option SortedSet :=
  (store key).filter fun z => !z.deadline.any (V.gone now)

/-- `ZREMRANGEBYSCORE key min max`; a set without members is removed. -/
def zremrangebyscore (low high : Int) (z : Option SortedSet) : Option SortedSet :=
  z.bind fun z =>
    let members := z.members.filter fun m => ¬(low ≤ m.2 ∧ m.2 ≤ high)
    if members.isEmpty then none else some { z with members }

/-- `ZCARD key`. -/
def zcard (z : Option SortedSet) : Nat := (z.map fun z => z.members.length).getD 0

/-- `ZADD key score member`. -/
def zadd (score : Int) (member : String) (z : Option SortedSet) : SortedSet :=
  let z := z.getD { members := [], deadline := none }
  if z.members.any fun m => m.1 == member then
    { z with members := z.members.map fun m => if m.1 == member then (member, score) else m }
  else { z with members := z.members ++ [(member, score)] }

/-- `PEXPIRE key ms`: none for a number that is no integer as Lua writes it, or a
deadline out of range.  A timeout that is not positive removes the set. -/
def pexpire (now : Nat) (ms : Int) (z : SortedSet) : Option (Option SortedSet) :=
  if 10 ^ 17 ≤ ms ∨ 2 ^ 63 ≤ now + ms then none
  else if ms ≤ 0 then some none
  else some (some { z with deadline := some (now + ms).toNat })

/-! ## The limiter -/

/-- A call of `check`, with the reading of the clock in milliseconds and the random
number it draws. -/
structure Call where
  key : String
  limit : UInt32
  /-- Nanoseconds. -/
  window : Nat
  nowMs : Nat
  random : Nat

/-- `{:016x}`. -/
def hex16 (n : Nat) : String :=
  let digits := Nat.toDigits 16 n
  String.ofList (List.replicate (16 - digits.length) '0' ++ digits)

/-- The member of a call. -/
def Call.member (c : Call) : String := toString c.nowMs ++ ":" ++ hex16 c.random

/-- `RATE_LIMIT_LUA` on the set of its key: the reply, if no command failed, and the
set afterwards. -/
def rateLimitLua (V : Server) (clock : Nat) (z : Option SortedSet) (argNow argWindow argLimit : Nat)
    (member : String) : Option Int × Option SortedSet :=
  let now := V.double argNow
  let window := V.double argWindow
  let limit := V.double argLimit
  let z := zremrangebyscore 0 (V.double (now - window)) z
  if limit ≤ zcard z then (some 0, z)
  else
    let z := zadd now member z
    match pexpire clock window z with
    | none => (none, some z)
    | some z => (some 1, z)

inductive RateLimitError where
  | unexpected

/-- `ValKeyRateLimiter::check`, with `Duration::as_millis` and the casts to `u64`. -/
def valKeyCheck (V : Server) (failOpen : Bool) (store : Store) (c : Call) :
    Except RateLimitError Bool × Store :=
  let nowMs := c.nowMs % 2 ^ 64
  let windowMs := c.window / 1000000 % 2 ^ 64
  let (reply, z) := rateLimitLua V c.nowMs (V.get store c.nowMs c.key) nowMs windowMs
    c.limit.toNat c.member
  let store := Function.update store c.key z
  match reply with
  | some 1 => (.ok true, store)
  | some _ => (.ok false, store)
  | none => (if failOpen then .ok true else .error .unexpected, store)

/-- The same call of the in-memory limiter, whose clock counts nanoseconds. -/
def Call.toCheck (c : Call) : Check String :=
  { key := c.key, limit := c.limit.toNat, window := c.window, now := 1000000 * c.nowMs }

/-- The same call in milliseconds. -/
def Call.inMillis (c : Call) : Check String :=
  { key := c.key, limit := c.limit.toNat, window := c.window / 1000000, now := c.nowMs }

/-! ## Scores -/

/-- The scores of a set. -/
def scores : Option SortedSet → List Int
  | none => []
  | some z => z.members.map Prod.snd

theorem zcard_eq (z : Option SortedSet) : zcard z = (scores z).length := by
  cases z with
  | none => rfl
  | some z => exact (List.length_map _).symm

theorem scores_zremrangebyscore (low high : Int) (z : Option SortedSet) :
    scores (zremrangebyscore low high z) =
      (scores z).filter fun s => ¬(low ≤ s ∧ s ≤ high) := by
  cases z with
  | none => rfl
  | some z =>
    have hleft : (z.members.map Prod.snd).filter (fun s => ¬(low ≤ s ∧ s ≤ high)) =
        (z.members.filter fun m => ¬(low ≤ m.2 ∧ m.2 ≤ high)).map Prod.snd :=
      List.filter_map ..
    show scores (if _ then _ else _) = List.filter _ (z.members.map Prod.snd)
    rw [hleft]
    split
    · next hempty => rw [List.isEmpty_iff.mp hempty]; rfl
    · rfl

/-- The set has no member of this name. -/
def Lacks (member : String) (z : Option SortedSet) : Prop :=
  ∀ s, z = some s → ∀ m ∈ s.members, m.1 ≠ member

theorem Lacks.zremrangebyscore {member : String} {z : Option SortedSet} (h : Lacks member z)
    (low high : Int) : Lacks member (zremrangebyscore low high z) := by
  intro s hs m hm
  cases z with
  | none => cases hs
  | some z =>
    change (if _ then none else some _) = some s at hs
    split at hs
    · cases hs
    · obtain rfl := Option.some.inj hs
      exact h z rfl m (List.mem_of_mem_filter hm)

theorem Lacks.get {member : String} {store : Store} {key : String} (h : Lacks member (store key))
    (V : Server) (now : Nat) : Lacks member (V.get store now key) := by
  intro s hs
  exact h s (Option.filter_eq_some_iff.mp hs).1

theorem zadd_eq {member : String} {z : Option SortedSet} (h : Lacks member z) (score : Int) :
    zadd score member z =
      { members := (z.elim [] SortedSet.members) ++ [(member, score)]
        deadline := z.bind SortedSet.deadline } := by
  unfold zadd
  cases z with
  | none => rfl
  | some z =>
    have hany : (z.members.any fun m => m.1 == member) = false := by
      rw [List.any_eq_false]
      intro m hm
      simpa using h z rfl m hm
    show (if z.members.any _ then _ else _) = _
    rw [hany]
    rfl

/-! ## The invariant -/

/-- What the set of a key says about the history of the key at a time: it has the
recent times, and it is not due before the last time is old. -/
structure SetAgrees (window now : Nat) (z : Option SortedSet) (ts : List Nat) : Prop where
  due : ∀ s d, z = some s → s.deadline = some d → ∀ t ∈ ts, t + window ≤ d
  counted : ∃ us : List Nat, scores z = us.map Int.ofNat ∧ (∀ u ∈ us, u ≤ now) ∧
    recent now window us = recent now window ts

section SetAgrees

variable {window now : Nat} {z : Option SortedSet} {ts : List Nat}

theorem SetAgrees.later (h : SetAgrees window now z ts) {now' : Nat} (hle : now ≤ now') :
    SetAgrees window now' z ts := by
  obtain ⟨us, hscores, hpast, hrecent⟩ := h.counted
  exact ⟨h.due, us, hscores, fun u hu => (hpast u hu).trans hle, recent_congr hle hrecent⟩

/-- A key without a set has an old history. -/
theorem SetAgrees.absent (h : ∀ t ∈ ts, window ≤ now - t) : SetAgrees window now none ts where
  due _ _ hs := by cases hs
  counted := ⟨[], rfl, by simp, (recent_eq_nil.mpr h).symm⟩

/-- A set that is gone had old members only. -/
theorem SetAgrees.get {V : Server} {store : Store} {key : String}
    (h : SetAgrees window now (store key) ts) : SetAgrees window now (V.get store now key) ts := by
  unfold Server.get
  cases hz : store key with
  | none => rwa [hz] at h
  | some z =>
    rw [hz] at h
    rw [Option.filter_some]
    split
    · exact h
    · next hgone =>
      simp only [Bool.not_eq_true', Bool.not_eq_false, Option.any_eq_true] at hgone
      obtain ⟨d, hd, hgone⟩ := hgone
      refine .absent fun t ht => ?_
      have hbefore := h.due z d rfl hd t ht
      have hpassed := V.gone_late now d hgone
      omega

/-- Removing the scores up to `now - window` leaves the recent times. -/
theorem SetAgrees.scores_removed (h : SetAgrees window now z ts) :
    scores (zremrangebyscore 0 ((now : Int) - window) z) =
      (recent now window ts).map Int.ofNat := by
  obtain ⟨us, hscores, hpast, hrecent⟩ := h.counted
  rw [scores_zremrangebyscore, hscores, List.filter_map, ← hrecent]
  congr 1
  refine List.filter_congr fun u hu => ?_
  have := hpast u hu
  rw [Bool.eq_iff_iff]
  simp only [Function.comp_apply, decide_eq_true_eq, Int.ofNat_eq_natCast]
  omega

/-- The removal itself changes nothing that counts. -/
theorem SetAgrees.removed (h : SetAgrees window now z ts) (hts : ∀ t ∈ ts, t ≤ now) :
    SetAgrees window now (zremrangebyscore 0 ((now : Int) - window) z) ts where
  due s d hs hd := by
    cases z with
    | none => cases hs
    | some z =>
      change (if _ then none else some _) = some s at hs
      split at hs
      · cases hs
      · obtain rfl := Option.some.inj hs
        exact h.due z d rfl hd
  counted :=
    ⟨_, h.scores_removed, fun u hu => hts u (List.mem_of_mem_filter hu), recent_recent le_rfl ..⟩

/-- A new member, and a deadline one window from now. -/
theorem SetAgrees.added {member : String}
    (hscores : scores z = (recent now window ts).map Int.ofNat) (hts : ∀ t ∈ ts, t ≤ now)
    (hfresh : Lacks member z) (hwindow : window < 10 ^ 17) (hdeadline : now + window < 2 ^ 63) :
    ∃ z', pexpire now window (zadd now member z) = some z' ∧
      SetAgrees window now z' (ts ++ [now]) := by
  have hpast : ∀ t ∈ ts ++ [now], t ≤ now := by
    intro t ht
    rcases List.mem_append.mp ht with ht | ht
    · exact hts t ht
    · rw [List.mem_singleton.mp ht]
  unfold pexpire
  rw [if_neg (by omega)]
  by_cases hzero : window = 0
  · rw [if_pos (by omega)]
    exact ⟨none, rfl, .absent fun _ _ => by omega⟩
  · rw [if_neg (by omega), zadd_eq hfresh]
    refine ⟨_, rfl, ?_, recent now window ts ++ [now], ?_, ?_, ?_⟩
    · intro s d hs hd t ht
      obtain rfl := Option.some.inj hs
      obtain rfl := Option.some.inj hd
      have := hpast t ht
      omega
    · show (_ ++ [(member, (now : Int))]).map Prod.snd = _
      rw [List.map_append, List.map_append, ← hscores]
      cases z <;> rfl
    · intro u hu
      rcases List.mem_append.mp hu with hu | hu
      · exact hts u (List.mem_of_mem_filter hu)
      · rw [List.mem_singleton.mp hu]
    · rw [recent_append, recent_append, recent_recent le_rfl]

end SetAgrees

/-- The sets agree with the history of every key. -/
structure StoreAgrees (windowOf : String → Nat) (now : Nat) (store : Store)
    (history : String → List Nat) : Prop where
  past : ∀ key, ∀ t ∈ history key, t ≤ now
  agrees : ∀ key, SetAgrees (windowOf key) now (store key) (history key)

theorem StoreAgrees.later {windowOf : String → Nat} {now now' : Nat} {store : Store}
    {history : String → List Nat} (h : StoreAgrees windowOf now store history) (hle : now ≤ now') :
    StoreAgrees windowOf now' store history where
  past key t ht := (h.past key t ht).trans hle
  agrees key := (h.agrees key).later hle

/-- The store after a call, which replaces the set of its key. -/
theorem StoreAgrees.replace {windowOf : String → Nat} {now : Nat} {store : Store}
    {history history' : String → List Nat} (h : StoreAgrees windowOf now store history)
    {key : String} {z : Option SortedSet} (hpast : ∀ t ∈ history' key, t ≤ now)
    (hkey : SetAgrees (windowOf key) now z (history' key))
    (hother : ∀ k, k ≠ key → history' k = history k) :
    StoreAgrees windowOf now (Function.update store key z) history' := by
  constructor
  · intro k
    by_cases heq : k = key
    · rw [heq]
      exact hpast
    · rw [hother k heq]
      exact h.past k
  · intro k
    by_cases heq : k = key
    · rw [heq, Function.update_self]
      exact hkey
    · rw [hother k heq, Function.update_of_ne heq]
      exact h.agrees k

/-- The numbers of the call are exact in Lua, and the window is the one of its key. -/
structure IsExact (windowOf : String → Nat) (c : Call) : Prop where
  window : c.window / 1000000 = windowOf c.key
  window_le : c.window / 1000000 ≤ exactBound
  now_le : c.nowMs ≤ exactBound

/-- The script compares the number of recent times with the limit. -/
theorem rateLimitLua_eq (V : Server) {now window : Nat} {z : Option SortedSet} {ts : List Nat}
    (h : SetAgrees window now z ts) (hts : ∀ t ∈ ts, t ≤ now) (hnow : now ≤ exactBound)
    (hwindow : window ≤ exactBound) (limit : UInt32) {member : String} (hfresh : Lacks member z) :
    ∃ z', rateLimitLua V now z now window limit.toNat member =
        (some (if limit.toNat ≤ (recent now window ts).length then 0 else 1), z') ∧
      SetAgrees window now z'
        (if limit.toNat ≤ (recent now window ts).length then ts else ts ++ [now]) := by
  have hlimit := limit.toNat_lt
  unfold exactBound at hnow hwindow
  have hexact : V.double now = now ∧ V.double window = window ∧
      V.double limit.toNat = limit.toNat ∧ V.double ((now : Int) - window) = now - window := by
    refine ⟨V.double_exact _ ?_ ?_, V.double_exact _ ?_ ?_, V.double_exact _ ?_ ?_,
      V.double_exact _ ?_ ?_⟩ <;> simp only [exactBound] <;> omega
  have hcard : zcard (zremrangebyscore 0 ((now : Int) - window) z) =
      (recent now window ts).length := by
    rw [zcard_eq, h.scores_removed, List.length_map]
  unfold rateLimitLua
  simp only [hexact.1, hexact.2.1, hexact.2.2.1, hexact.2.2.2, hcard]
  by_cases hfull : limit.toNat ≤ (recent now window ts).length
  · simp only [if_pos hfull, if_pos (Int.ofNat_le.mpr hfull)]
    exact ⟨_, rfl, h.removed hts⟩
  · simp only [if_neg hfull, if_neg (mt Int.ofNat_le.mp hfull)]
    obtain ⟨z', hz', hagrees⟩ := SetAgrees.added h.scores_removed hts
      (hfresh.zremrangebyscore 0 ((now : Int) - window)) (by omega) (by omega)
    rw [hz']
    exact ⟨z', rfl, hagrees⟩

/-- The reference limiter on a call. -/
def referenceCall (history : String → List Nat) (c : Call) :
    Except RateLimitError Bool × (String → List Nat) :=
  (.ok (reference history c.inMillis).1, (reference history c.inMillis).2)

theorem answers_referenceCall (history : String → List Nat) (calls : List Call) :
    answers referenceCall history calls =
      (answers reference history (calls.map Call.inMillis)).map .ok := by
  induction calls generalizing history with
  | nil => rfl
  | cons c calls ih =>
    show _ :: answers referenceCall (reference history c.inMillis).2 calls = _
    rw [ih]
    rfl

/-- A call answers as the reference limiter does. -/
theorem valKeyCheck_step (V : Server) (failOpen : Bool) (windowOf : String → Nat) (now : Nat)
    (store : Store) (history : String → List Nat) (c : Call)
    (h : StoreAgrees windowOf now store history) (hle : now ≤ c.nowMs)
    (hC : IsExact windowOf c ∧ Lacks c.member (store c.key)) :
    (valKeyCheck V failOpen store c).1 = (referenceCall history c).1 ∧
      StoreAgrees windowOf c.nowMs (valKeyCheck V failOpen store c).2
        (referenceCall history c).2 := by
  obtain ⟨hexact, hfresh⟩ := hC
  have hwindow := hexact.window_le
  have hnow := hexact.now_le
  have hpast : ∀ key, ∀ t ∈ history key, t ≤ c.nowMs :=
    fun key t ht => (h.past key t ht).trans hle
  have hget : SetAgrees (c.window / 1000000) c.nowMs (V.get store c.nowMs c.key)
      (history c.key) := by
    rw [hexact.window]
    exact ((h.agrees c.key).later hle).get
  obtain ⟨z, hlua, hz⟩ := rateLimitLua_eq V hget (hpast c.key) hnow hwindow c.limit
    (hfresh.get V c.nowMs)
  have hcasts : c.nowMs % 2 ^ 64 = c.nowMs ∧ c.window / 1000000 % 2 ^ 64 = c.window / 1000000 := by
    unfold exactBound at hwindow hnow
    omega
  unfold valKeyCheck referenceCall reference Call.inMillis
  simp only [hcasts.1, hcasts.2, hlua]
  rw [hexact.window] at hz ⊢
  by_cases hfull : c.limit.toNat ≤ (recent c.nowMs (windowOf c.key) (history c.key)).length
  · have hroom : ¬(recent c.nowMs (windowOf c.key) (history c.key)).length < c.limit.toNat := by
      omega
    rw [if_pos hfull] at hz
    rw [if_pos hfull, if_neg hroom]
    exact ⟨rfl, (h.later hle).replace (hpast c.key) hz fun _ _ => rfl⟩
  · have hroom : (recent c.nowMs (windowOf c.key) (history c.key)).length < c.limit.toNat := by
      omega
    rw [if_neg hfull] at hz
    rw [if_neg hfull, if_pos hroom]
    refine ⟨rfl, (h.later hle).replace ?_ ?_ fun key hne => Function.update_of_ne hne _ _⟩
    · dsimp only
      rw [Function.update_self]
      intro t ht
      rcases List.mem_append.mp ht with ht | ht
      · exact hpast c.key t ht
      · rw [List.mem_singleton.mp ht]
    · dsimp only
      rw [Function.update_self]
      exact hz

/-! ## Members -/

/-- No set has a member that a later call adds. -/
def FreshFor (store : Store) (calls : List Call) : Prop :=
  ∀ key, ∀ c ∈ calls, Lacks c.member (store key)

theorem Lacks.zadd {other member : String} {z : Option SortedSet} (h : Lacks other z)
    (hne : member ≠ other) (score : Int) : Lacks other (some (zadd score member z)) := by
  intro s hs m hm
  obtain rfl := Option.some.inj hs
  have hold : ∀ m ∈ (z.getD { members := [], deadline := none }).members, m.1 ≠ other := by
    cases z with
    | none => intro m hm; cases hm
    | some z => exact h z rfl
  unfold RateLimit.zadd at hm
  dsimp only at hm
  split at hm
  · obtain ⟨m', hm', rfl⟩ := List.mem_map.mp hm
    split
    · exact hne
    · exact hold m' hm'
  · rcases List.mem_append.mp hm with hm | hm
    · exact hold m hm
    · rw [List.mem_singleton.mp hm]
      exact hne

/-- The script adds the member that it is given, and no other. -/
theorem Lacks.rateLimitLua {other member : String} {z : Option SortedSet} (h : Lacks other z)
    (hne : member ≠ other) (V : Server) (clock argNow argWindow argLimit : Nat) :
    Lacks other (rateLimitLua V clock z argNow argWindow argLimit member).2 := by
  have hremoved := h.zremrangebyscore 0 (V.double (V.double argNow - V.double argWindow))
  unfold RateLimit.rateLimitLua
  dsimp only
  split
  · exact hremoved
  · have hadded := hremoved.zadd hne (V.double argNow)
    unfold pexpire
    split
    · exact hadded
    · next hz =>
      split at hz
      · cases hz
      · split at hz
        · obtain rfl := Option.some.inj hz
          intro s hs
          cases hs
        · obtain rfl := Option.some.inj hz
          intro s hs
          obtain rfl := Option.some.inj hs
          intro m hm
          exact hadded _ rfl m hm

/-- The store after a call. -/
theorem valKeyCheck_store (V : Server) (failOpen : Bool) (store : Store) (c : Call) :
    (valKeyCheck V failOpen store c).2 = Function.update store c.key
      (rateLimitLua V c.nowMs (V.get store c.nowMs c.key) (c.nowMs % 2 ^ 64)
        (c.window / 1000000 % 2 ^ 64) c.limit.toNat c.member).2 := by
  unfold valKeyCheck
  dsimp only
  split <;> rfl

/-- A call adds its own member only. -/
theorem FreshFor.valKeyCheck {V : Server} {failOpen : Bool} {store : Store} {c : Call}
    {calls : List Call} (h : FreshFor store calls) (hne : ∀ d ∈ calls, c.member ≠ d.member) :
    FreshFor (RateLimit.valKeyCheck V failOpen store c).2 calls := by
  intro key d hd
  rw [valKeyCheck_store]
  by_cases heq : key = c.key
  · rw [heq, Function.update_self]
    exact ((h c.key d hd).get V c.nowMs).rateLimitLua (hne d hd) _ _ _ _ _
  · rw [Function.update_of_ne heq]
    exact h key d hd

/-- With members that are all different, each is new in its turn. -/
theorem along_lacks (V : Server) (failOpen : Bool) (store : Store) {calls : List Call}
    (h : FreshFor store calls) (hunique : (calls.map Call.member).Nodup) :
    Along (fun s c => (RateLimit.valKeyCheck V failOpen s c).2)
      (fun s c => Lacks c.member (s c.key)) store calls := by
  induction calls generalizing store with
  | nil => trivial
  | cons c calls ih =>
    rw [List.map_cons, List.nodup_cons] at hunique
    refine ⟨h c.key c List.mem_cons_self, ih _ (FreshFor.valKeyCheck ?_ ?_) hunique.2⟩
    · exact fun key d hd => h key d (List.mem_cons_of_mem _ hd)
    · intro d hd heq
      exact hunique.1 (heq ▸ List.mem_map_of_mem hd)

/-! ## The two limiters -/

/-- Calls with non-decreasing readings of the clock, one window of whole milliseconds
for each key, members that are all different and no eviction. -/
structure Comparable (windowOf : String → Nat) (calls : List Call) : Prop where
  clock : (calls.map Call.nowMs).Pairwise (· ≤ ·)
  window : ∀ c ∈ calls, c.window = 1000000 * windowOf c.key
  unique : (calls.map Call.member).Nodup
  uncapped : Along after Uncapped .empty (calls.map Call.toCheck)

section Comparable

variable {windowOf : String → Nat} {calls : List Call}

/-- The in-memory limiter, in milliseconds. -/
theorem Comparable.in_memory (h : Comparable windowOf calls) :
    answers check .empty (calls.map Call.toCheck) =
      answers reference (fun _ => []) (calls.map Call.inMillis) := by
  have hscale : calls.map Call.toCheck =
      (calls.map Call.inMillis).map (Check.scale 1000000) := by
    rw [List.map_map]
    refine List.map_congr_left fun c hc => ?_
    have hwindow : c.window = 1000000 * (c.window / 1000000) := by
      have := h.window c hc
      omega
    show Call.toCheck c = Check.mk c.key c.limit.toNat (1000000 * (c.window / 1000000)) _
    rw [← hwindow]
    rfl
  have hclock : ((calls.map Call.toCheck).map Check.now).Pairwise (· ≤ ·) := by
    have hnow := h.clock
    rw [List.pairwise_map] at hnow
    rw [List.map_map, List.pairwise_map]
    refine hnow.imp fun {a b} hab => ?_
    show 1000000 * a.nowMs ≤ 1000000 * b.nowMs
    omega
  have hwindow : ∀ c ∈ calls.map Call.toCheck, c.window = 1000000 * windowOf c.key := by
    intro c hc
    obtain ⟨d, hd, rfl⟩ := List.mem_map.mp hc
    exact h.window d hd
  rw [answers_check (fun key => 1000000 * windowOf key) hclock hwindow h.uncapped, hscale]
  exact answers_scale (by omega) (fun _ : String => []) (calls.map Call.inMillis)

/-- The ValKey limiter, when the numbers of the script are exact. -/
theorem Comparable.valKey (h : Comparable windowOf calls)
    (hwindow : ∀ c ∈ calls, windowOf c.key ≤ exactBound)
    (hnow : ∀ c ∈ calls, c.nowMs ≤ exactBound) (V : Server) (failOpen : Bool) :
    answers (valKeyCheck V failOpen) (fun _ => none) calls =
      (answers reference (fun _ => []) (calls.map Call.inMillis)).map .ok := by
  have hexact : ∀ c ∈ calls, IsExact windowOf c := by
    intro c hc
    have hc' := h.window c hc
    have heq : c.window / 1000000 = windowOf c.key := by omega
    exact ⟨heq, heq ▸ hwindow c hc, hnow c hc⟩
  have hlacks := along_lacks V failOpen (fun _ => none)
    (fun _ _ _ _ hs => by cases hs) h.unique
  have hstart : StoreAgrees windowOf 0 (fun _ => none) (fun _ => []) :=
    ⟨fun _ _ ht => absurd ht List.not_mem_nil,
      fun _ => .absent fun _ ht => absurd ht List.not_mem_nil⟩
  rw [answers_eq (valKeyCheck_step V failOpen windowOf) h.clock hstart
    (fun _ _ => Nat.zero_le _) (hlacks.with_labels hexact)]
  exact answers_referenceCall ..

end Comparable

/-- The two limiters give the same answers to every sequence of calls in which
windows and clock readings are exact in Lua. -/
theorem rate_limiters_agree (V : Server) (failOpen : Bool) (windowOf : String → Nat)
    (calls : List Call) (h : Comparable windowOf calls)
    (hwindow : ∀ c ∈ calls, windowOf c.key ≤ exactBound)
    (hnow : ∀ c ∈ calls, c.nowMs ≤ exactBound) :
    answers (valKeyCheck V failOpen) (fun _ => none) calls =
      (answers check .empty (calls.map Call.toCheck)).map .ok := by
  rw [h.in_memory, h.valKey hwindow hnow]

/-! ## Concrete calls -/

/-- A store on small numbers, which removes a set when it is due. -/
def promptServer : Server where
  double n := n
  gone now deadline := deadline ≤ now
  double_exact _ _ _ := rfl
  gone_late _ _ h := of_decide_eq_true h

/-- Two geocodes from one address at one time, and a third a minute later. -/
def geocodes (windowMs : Nat) : List Call :=
  [⟨"geocode:ip:203.0.113.7", 1, 1000000 * windowMs, 1700000000000, 17⟩,
    ⟨"geocode:ip:203.0.113.7", 1, 1000000 * windowMs, 1700000000000, 18⟩,
    ⟨"geocode:ip:203.0.113.7", 1, 1000000 * windowMs, 1700000060000, 19⟩]

theorem comparable_geocodes (windowMs : Nat)
    (h : Along after Uncapped .empty ((geocodes windowMs).map Call.toCheck)) :
    Comparable (fun _ => windowMs) (geocodes windowMs) where
  clock := (by decide : [1700000000000, 1700000000000, 1700000060000].Pairwise (· ≤ ·))
  window c hc := by
    simp only [geocodes, List.mem_cons, List.not_mem_nil, or_false] at hc
    rcases hc with rfl | rfl | rfl <;> rfl
  unique := by
    show ((geocodes 0).map Call.member).Nodup
    decide +kernel
  uncapped := h

theorem rate_limiters_agree_minute :
    answers (valKeyCheck promptServer true) (fun _ => none) (geocodes 60000) =
      (answers check .empty ((geocodes 60000).map Call.toCheck)).map .ok :=
  rate_limiters_agree promptServer true (fun _ => 60000) (geocodes 60000)
    (comparable_geocodes 60000 (by decide +kernel)) (by decide) (by decide)

/-- A window of 2^64 milliseconds is cast to zero: the script allows what the
in-memory limiter denies. -/
theorem rate_limiters_differ :
    Comparable (fun _ => 2 ^ 64) (geocodes (2 ^ 64)) ∧
      answers (valKeyCheck promptServer true) (fun _ => none) (geocodes (2 ^ 64)) ≠
        (answers check .empty ((geocodes (2 ^ 64)).map Call.toCheck)).map .ok := by
  refine ⟨comparable_geocodes (2 ^ 64) (by decide +kernel), fun heq => ?_⟩
  have hstore : answers (valKeyCheck promptServer true) (fun _ => none) (geocodes (2 ^ 64)) =
      [.ok true, .ok true, .ok true] := by rfl
  have hmemory : answers check .empty ((geocodes (2 ^ 64)).map Call.toCheck) =
      [true, false, false] := by decide +kernel
  rw [hstore, hmemory] at heq
  cases heq

end BikesNest.RateLimit
