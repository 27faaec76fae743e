import BikesNest.Lib.Run
import BikesNest.Lib.Service
import Mathlib.Data.List.Basic

/-!
# Transactions under row locks

Connections of a database at READ COMMITTED.  A connection runs a script, a
`Service` whose calls are SQL statements.  A statement sees the committed rows
with the connection's own writes on top, may write rows and may lock some; it
waits while another connection holds one of them.  Outside of a transaction
every statement commits by itself.  Inside one, the writes become visible, and
the locks go, when the transaction commits.

* `Connection` is the state of a connection, `System` a database with connections
  and `System.next` its steps.  A call can also `fail`, which leaves it out and
  goes on with the script's answer to that.
* `Safe` is the logic of one script.  A `Discipline` says which lock guards a
  row, which changes a reader puts up with, and how the committed rows grow with
  every commit.  A script that locks the guard of every row it writes can take
  for unchanged what it holds, and `Safe` says of every commit of the script
  that it stays within a guarantee `G`.
* `Sound.next` is the soundness of the logic: when every script is safe, every
  step of the system is, whatever the other connections do.
-/

namespace Transactions

variable {K ι ε ε' α β : Type} {V : K → Type}

/-- The rows of a database: a value under every key. -/
abbrev Rows (V : K → Type) := (k : K) → V k

/-! ## Connections -/

/-- The state of a connection. -/
structure Connection (V : K → Type) where
  /-- What a statement sees. -/
  rows : Rows V
  /-- The keys that the transaction has written. -/
  dirty : List K := []
  /-- The keys that it has locked. -/
  held : List K := []
  /-- The keys of what it has read without a lock and relies on until it
  answers.  No statement looks at them. -/
  watched : List K := []
  isOpen : Bool := false
  /-- A number above every identity given out so far. -/
  bound : Nat
  /-- The committed rows that the first statement of the transaction to lock a
  row has found, a history variable. -/
  since : Rows V

/-- The history variable as the next statement leaves it. -/
def sinceOf (held : List K) (c since : Rows V) : Rows V :=
  match held with
  | [] => c
  | _ :: _ => since

theorem sinceOf_of_mem {held : List K} {k : K} (h : k ∈ held) (c since : Rows V) :
    sinceOf held c since = since := by
  cases held with
  | nil => cases h
  | cons => rfl

namespace Connection

/-- A connection that has done nothing yet. -/
@[simps] def idle (c : Rows V) (b : Nat) : Connection V :=
  { rows := c, bound := b, since := c }

/-- Lock rows. -/
@[simps] def lock (s : Connection V) (ks : List K) : Connection V := { s with held := ks ++ s.held }

/-- Rely on what has been read. -/
@[simps] def watch (s : Connection V) (k : K) : Connection V :=
  { s with watched := k :: s.watched }

/-- Rely on nothing any more. -/
@[simps] def release (s : Connection V) : Connection V := { s with watched := [] }

/-- `BEGIN`. -/
@[simps] def opened (s : Connection V) : Connection V := { s with isOpen := true }

/-- `COMMIT`. -/
@[simps] def closed (s : Connection V) : Connection V := { s with isOpen := false }

/-- The connection after its writes are committed. -/
@[simps] def settle (s : Connection V) : Connection V := { s with dirty := [], held := [] }

/-- The connection after the script has answered; what is not committed is rolled
back. -/
@[simps] def reset (s : Connection V) : Connection V :=
  { s with dirty := [], held := [], watched := [], isOpen := false }

variable [DecidableEq K]

/-- Write one row. -/
@[simps] def write (s : Connection V) (k : K) (v : V k) : Connection V :=
  { s with rows := Function.update s.rows k v, dirty := k :: s.dirty }

/-- The committed rows `c` with the writes of the transaction on top. -/
def overlay (s : Connection V) (c : Rows V) : Rows V :=
  fun k => if k ∈ s.dirty then s.rows k else c k

/-- The connection as the next statement finds it. -/
@[simps] def on (s : Connection V) (c : Rows V) (b : Nat) : Connection V :=
  { s with rows := s.overlay c, bound := b, since := sinceOf s.held c s.since }

variable (s : Connection V) (c c' : Rows V) (b : Nat)

theorem overlay_apply (k : K) : s.overlay c k = if k ∈ s.dirty then s.rows k else c k := rfl

@[simp] theorem overlay_lock (ks : List K) : (s.lock ks).overlay c = s.overlay c := rfl

@[simp] theorem overlay_watch (k : K) : (s.watch k).overlay c = s.overlay c := rfl

@[simp] theorem overlay_release : s.release.overlay c = s.overlay c := rfl

@[simp] theorem overlay_opened : s.opened.overlay c = s.overlay c := rfl

@[simp] theorem overlay_closed : s.closed.overlay c = s.overlay c := rfl

@[simp] theorem overlay_write (k : K) (v : V k) :
    (s.write k v).overlay c = Function.update (s.overlay c) k v := by
  funext k'
  by_cases h : k' = k
  · subst h
    simp [overlay_apply]
  · simp [overlay_apply, h]

@[simp] theorem overlay_on : (s.on c b).overlay c' = s.overlay c' := by
  funext k
  by_cases h : k ∈ s.dirty <;> simp [overlay_apply, h]

theorem overlay_of_clean (h : s.dirty = []) : s.overlay c = c := by
  funext k
  simp [overlay_apply, h]

end Connection

/-! ## Scripts -/

/-- `BEGIN`, the body and `COMMIT`; an error of the body leaves the transaction
without a commit. -/
def transaction [DecidableEq K] (unreachable : ε) (body : Service (Connection V) ε α) :
    Service (Connection V) ε α := do
  Service.execute unreachable Connection.opened
  let a ← body
  Service.execute unreachable Connection.closed
  return a

theorem strict_transaction [DecidableEq K] {unreachable : ε}
    {body : Service (Connection V) ε α} (h : body.Strict) :
    (transaction unreachable body).Strict :=
  .bind (.execute _ _) fun _ => .bind h fun _ => .bind (.execute _ _) fun _ => .pure _

/-- The script, where a commit also ends what the connection relies on. -/
def releasing : Service (Connection V) ε α → Service (Connection V) ε α
  | .done r => .done r
  | .call write next failed =>
    .call (fun s => if (write s).isOpen then write s else (write s).release)
      (fun s => releasing (next s)) (releasing failed)

/-! ## Systems -/

/-- A connection that runs the script of the operation `op`.  `serial` is a
number that no other connection has: the identity of what it inserts. -/
structure Process (V : K → Type) (ι ε α : Type) where
  op : ι
  serial : Nat
  conn : Connection V
  script : Service (Connection V) ε α

/-- What the process relies on: nothing once it has answered. -/
def Process.watched (p : Process V ι ε α) : List K :=
  match p.script with
  | .done _ => []
  | .call _ _ _ => p.conn.watched

theorem Process.watched_of_call {p : Process V ι ε α} {write : Connection V → Connection V}
    {next : Connection V → Service (Connection V) ε α} {failed : Service (Connection V) ε α}
    (h : p.script = .call write next failed) : p.watched = p.conn.watched := by
  simp [Process.watched, h]

theorem Process.mem_watched {p : Process V ι ε α} {k : K} (h : k ∈ p.watched) :
    k ∈ p.conn.watched := by
  unfold Process.watched at h
  split at h
  · cases h
  · exact h

/-- A database and its connections. -/
structure System (V : K → Type) (ι ε α : Type) where
  committed : Rows V
  serial : Nat := 1
  processes : List (Process V ι ε α) := []

/-- A step: an operation starts, a connection runs the next call of its script,
the call fails, or a connection whose script has answered lets go. -/
inductive Label (ι : Type) where
  | start (op : ι)
  | exec (i : Nat)
  | fail (i : Nat)
  | finish (i : Nat)
deriving DecidableEq

namespace System

variable [DecidableEq K]

/-- Another connection than `i` holds one of the keys. -/
def blocked (s : System V ι ε α) (i : Nat) (ks : List K) : Bool :=
  s.processes.zipIdx.any fun x => x.2 != i && x.1.conn.held.any fun k => ks.contains k

/-- A connection in place of the one at `i`. -/
def put (s : System V ι ε α) (i : Nat) (p : Process V ι ε α) : System V ι ε α :=
  { s with processes := s.processes.set i p }

/-- A call of the connection `i` that finds `found` and leaves `after`. -/
def land (s : System V ι ε α) (i : Nat) (p : Process V ι ε α) (after : Connection V)
    (rest : Service (Connection V) ε α) : System V ι ε α :=
  if after.isOpen then s.put i { p with conn := after, script := rest }
  else { s with committed := after.overlay s.committed }.put i
    { p with conn := after.settle, script := rest }

/-- The step function; none when the step is not possible. -/
def next (ops : ι → Nat → Service (Connection V) ε α) (s : System V ι ε α) :
    Label ι → Option (System V ι ε α)
  | .start op =>
    some { s with
      serial := s.serial + 1
      processes := s.processes ++
        [⟨op, s.serial, .idle s.committed s.serial, ops op s.serial⟩] }
  | .exec i =>
    match s.processes[i]? with
    | none => none
    | some p =>
      match p.script with
      | .done _ => none
      | .call write next _ =>
        let found := p.conn.on s.committed s.serial
        if s.blocked i (write found).held then none
        else some (s.land i p (write found) (next found))
  | .fail i =>
    match s.processes[i]? with
    | none => none
    | some p =>
      match p.script with
      | .done _ => none
      | .call _ _ failed => some (s.put i { p with script := failed })
  | .finish i =>
    match s.processes[i]? with
    | none => none
    | some p =>
      match p.script with
      | .done _ => some (s.put i { p with conn := p.conn.reset })
      | .call _ _ _ => none

/-- The steps as a relation. -/
def Step (ops : ι → Nat → Service (Connection V) ε α) (s : System V ι ε α) (l : Label ι)
    (s' : System V ι ε α) : Prop :=
  s.next ops l = some s'

end System

/-! ## The logic of a script -/

/-- What the scripts of a system agree on: the lock that guards a row, the
changes that leave intact what a watcher of a key relies on, what no commit
undoes, and what holds of the committed rows with any number above the
identities given out. -/
structure Discipline (V : K → Type) where
  guard : K → K
  keeps : K → Rows V → Rows V → Prop
  grows : Rows V → Rows V → Prop
  fits : Rows V → Nat → Prop
  keeps_refl : ∀ k c, keeps k c c
  keeps_trans : ∀ k c c' c'', keeps k c c' → keeps k c' c'' → keeps k c c''
  grows_refl : ∀ c, grows c c
  grows_trans : ∀ c c' c'', grows c c' → grows c' c'' → grows c c''
  fits_succ : ∀ c b, fits c b → fits c (b + 1)

/-- The discipline for the connection with the identity `n`: the number is above
`n` too. -/
def Discipline.own (D : Discipline V) (n : Nat) : Discipline V :=
  { D with
    fits := fun c b => D.fits c b ∧ n < b
    fits_succ := fun c b h => ⟨D.fits_succ c b h.1, Nat.lt_succ_of_lt h.2⟩ }

section Logic

variable [DecidableEq K] (D : Discipline V)

/-- A change of the committed rows that goes unnoticed by a connection that
holds `held` and watches `watched`. -/
structure Undisturbed (held watched : List K) (c c' : Rows V) : Prop where
  held : ∀ k, D.guard k ∈ held → c' k = c k
  watched : ∀ k ∈ watched, D.keeps k c c'
  grows : D.grows c c'

/-- A call leaves `after` on the committed rows `c`: a commit stays within `G`
and writes guarded rows only, and `P` holds afterwards. -/
def Connection.Lands (G : Rows V → Rows V → Rows V → Prop) (after : Connection V) (c : Rows V)
    (P : Rows V → Connection V → Prop) : Prop :=
  if after.isOpen then P c after
  else G after.since c (after.overlay c) ∧ (∀ k ∈ after.dirty, D.guard k ∈ after.held) ∧
    P (after.overlay c) after.settle

/-- Run from the connection `s` on committed rows that have changed unnoticed since
`c`, the script keeps to the discipline, and a value finds `Q`.  Every commit
stays within `G`, which relates the rows when the transaction took its first
lock, the rows before and after the commit, and what is left to do. -/
def Safe (G : Rows V → Rows V → Rows V → Service (Connection V) ε α → Prop)
    (Q : α → Rows V → Connection V → Prop) :
    Service (Connection V) ε α → Rows V → Connection V → Prop
  | .done (.ok a) => Q a
  | .done (.error _) => fun _ _ => True
  | .call write next failed => fun c s =>
    Safe G Q failed c s ∧ ∀ c' b, D.fits c' b → Undisturbed D s.held s.watched c c' →
      (write (s.on c' b)).Lands D (fun since c₁ c₂ => G since c₁ c₂ (next (s.on c' b))) c'
        (Safe G Q (next (s.on c' b)))

omit [DecidableEq K] in
variable {D} in
theorem Undisturbed.refl (held watched : List K) (c : Rows V) :
    Undisturbed D held watched c c :=
  ⟨fun _ _ => rfl, fun k _ => D.keeps_refl k c, D.grows_refl c⟩

omit [DecidableEq K] in
variable {D} in
theorem Undisturbed.trans {held watched : List K} {c c' c'' : Rows V}
    (h : Undisturbed D held watched c c') (h' : Undisturbed D held watched c' c'') :
    Undisturbed D held watched c c'' :=
  ⟨fun k hk => (h'.held k hk).trans (h.held k hk), fun k hk =>
    D.keeps_trans k _ _ _ (h.watched k hk) (h'.watched k hk),
    D.grows_trans _ _ _ h.grows h'.grows⟩

omit [DecidableEq K] in
variable {D} in
/-- Who holds and watches less notices less. -/
theorem Undisturbed.mono {held held' watched watched' : List K} {c c' : Rows V}
    (h : Undisturbed D held watched c c') (hheld : ∀ k ∈ held', k ∈ held)
    (hwatched : ∀ k ∈ watched', k ∈ watched) : Undisturbed D held' watched' c c' :=
  ⟨fun k hk => h.held k (hheld _ hk), fun k hk => h.watched k (hwatched k hk), h.grows⟩

variable {D} {G : Rows V → Rows V → Rows V → Service (Connection V) ε α → Prop}
  {Q : α → Rows V → Connection V → Prop} {c : Rows V} {s : Connection V}

theorem safe_pure (a : α) :
    Safe D G Q (pure a : Service (Connection V) ε α) c s ↔ Q a c s := Iff.rfl

theorem safe_throw (e : ε) : Safe D G Q (Service.throw e) c s := trivial

/-- A sequence is safe when its first part is, with the second part as what
comes after. -/
theorem safe_bind {G : Rows V → Rows V → Rows V → Service (Connection V) ε β → Prop}
    {Q : β → Rows V → Connection V → Prop} (m : Service (Connection V) ε α)
    (k : α → Service (Connection V) ε β) :
    Safe D G Q (m >>= k) =
      Safe D (fun since c c' rest => G since c c' (rest >>= k)) (fun a => Safe D G Q (k a)) m := by
  show Safe D G Q (m.bind k) = Safe D (fun since c c' rest => G since c c' (rest.bind k)) _ m
  induction m with
  | done r => cases r <;> rfl
  | call write next failed ihnext ihfailed =>
    funext c s
    simp only [Service.bind, Safe, ihnext, ihfailed]

theorem safe_mapErr {G : Rows V → Rows V → Rows V → Service (Connection V) ε' α → Prop} (g : ε → ε')
    (m : Service (Connection V) ε α) :
    Safe D G Q (m.mapErr g) = Safe D (fun since c c' rest => G since c c' (rest.mapErr g)) Q m := by
  induction m with
  | done r => cases r <;> rfl
  | call write next failed ihnext ihfailed =>
    funext c s
    simp only [Service.mapErr, Safe, ihnext, ihfailed]

/-- A larger guarantee and a weaker aim. -/
theorem Safe.mono {G G' : Rows V → Rows V → Rows V → Service (Connection V) ε α → Prop}
    {Q Q' : α → Rows V → Connection V → Prop} (hG : ∀ since c c' rest, G since c c' rest → G' since c c' rest)
    (hQ : ∀ a c s, Q a c s → Q' a c s) {m : Service (Connection V) ε α} {c : Rows V} {s : Connection V}
    (h : Safe D G Q m c s) : Safe D G' Q' m c s := by
  induction m generalizing c s with
  | done r =>
    cases r with
    | ok a => exact hQ a c s h
    | error e => trivial
  | call write next failed ihnext ihfailed =>
    refine ⟨ihfailed h.1, fun c' b hfits hsame => ?_⟩
    have hnext := h.2 c' b hfits hsame
    simp only [Connection.Lands] at hnext ⊢
    split
    · rename_i hopen
      rw [if_pos hopen] at hnext
      exact ihnext _ hnext
    · rename_i hopen
      rw [if_neg hopen] at hnext
      exact ⟨hG _ _ _ _ hnext.1, hnext.2.1, ihnext _ hnext.2.2⟩

theorem Safe.require {G : Rows V → Rows V → Rows V → Service (Connection V) ε Unit → Prop}
    {Q : Unit → Rows V → Connection V → Prop} {p : Bool} {e : ε} (h : p = true → Q () c s) :
    Safe D G Q (Service.require p e) c s := by
  cases p with
  | true => exact h rfl
  | false => trivial

/-- A script that commits with its answer may end there what it relies on. -/
theorem Safe.releasing {G : Rows V → Rows V → Rows V → Prop} {m : Service (Connection V) ε α}
    (h : Safe D (fun since c c' rest => G since c c' ∧ ∃ r, rest = .done r) Q m c s)
    (hQ : ∀ a c s, Q a c s → Q a c s.release) :
    Safe D (fun since c c' _ => G since c c') Q (releasing m) c s := by
  induction m generalizing c s with
  | done r =>
    cases r with
    | ok a => exact h
    | error e => trivial
  | call write next failed ihnext ihfailed =>
    refine ⟨ihfailed h.1, fun c' b hfits hsame => ?_⟩
    have hnext := h.2 c' b hfits hsame
    cases hopen : (write (s.on c' b)).isOpen with
    | true =>
      simp only [Connection.Lands, hopen, if_true] at hnext ⊢
      exact ihnext _ hnext
    | false =>
      simp only [Connection.Lands, hopen, Bool.false_eq_true, if_false,
        Connection.release_isOpen, Connection.overlay_release] at hnext ⊢
      obtain ⟨⟨hG, r, hr⟩, hguard, hrest⟩ := hnext
      refine ⟨hG, hguard, ?_⟩
      rw [hr] at hrest ⊢
      cases r with
      | ok a => exact hQ a _ _ hrest
      | error e => trivial

/-! ### Outside of a transaction -/

/-- The connection is outside of a transaction and relies on `relied`. -/
structure Outside (relied : List K) (s : Connection V) : Prop where
  isOpen : s.isOpen = false
  dirty : s.dirty = []
  held : s.held = []
  relied : ∀ k ∈ relied, k ∈ s.watched

omit [DecidableEq K] in
theorem Outside.idle (c : Rows V) (b : Nat) : Outside [] (Connection.idle c b) :=
  ⟨rfl, rfl, rfl, by simp⟩

omit [DecidableEq K] in
theorem Outside.release {relied : List K} (h : Outside relied s) : Outside [] s.release :=
  ⟨h.isOpen, h.dirty, h.held, by simp⟩

theorem Outside.on {relied : List K} (h : Outside relied s) (c' : Rows V) (b : Nat) :
    Outside relied (s.on c' b) :=
  ⟨h.isOpen, h.dirty, h.held, h.relied⟩

/-- A statement that locks and writes one row, which is its own guard. -/
theorem Outside.write {relied : List K} (h : Outside relied s) {k : K} (v : V k) (c : Rows V)
    (hk : D.guard k = k) :
    ((s.lock [k]).write k v).isOpen = false ∧
      ((s.lock [k]).write k v).overlay c = Function.update c k v ∧
      (∀ k' ∈ ((s.lock [k]).write k v).dirty, D.guard k' ∈ ((s.lock [k]).write k v).held) ∧
      Outside relied ((s.lock [k]).write k v).settle := by
  refine ⟨h.isOpen, ?_, ?_, h.isOpen, rfl, rfl, h.relied⟩
  · rw [Connection.overlay_write, Connection.overlay_lock, s.overlay_of_clean c h.dirty]
  · simp [h.dirty, hk]

/-- A statement outside of a transaction. -/
theorem Safe.autocommit {relied : List K} {unreachable : ε}
    {f : Connection V → Except ε (α × Connection V)} (hs : Outside relied s)
    (herror : ∀ since c' e, G since c' c' (Service.throw e))
    (h : ∀ c' s' a after, Undisturbed D [] relied c c' → D.fits c' s'.bound →
      Outside relied s' → s'.rows = c' → f s' = .ok (a, after) →
      after.isOpen = false ∧ G after.since c' (after.overlay c') (pure a) ∧
        (∀ k ∈ after.dirty, D.guard k ∈ after.held) ∧ Q a (after.overlay c') after.settle) :
    Safe D G Q (Service.request unreachable f) c s := by
  refine ⟨trivial, fun c' b hfits hsame => ?_⟩
  have hclean := s.overlay_of_clean c' hs.dirty
  cases hf : f (s.on c' b) with
  | error e =>
    simp only [hf, Connection.Lands, Connection.on_isOpen, hs.isOpen, Bool.false_eq_true,
      if_false, Connection.overlay_on, hclean, Connection.on_dirty, hs.dirty]
    exact ⟨herror _ c' e, by simp, safe_throw e⟩
  | ok x =>
    obtain ⟨hafter, hg, hguard, hq⟩ := h c' (s.on c' b) x.1 x.2
      (hsame.mono (by simp) hs.relied) hfits (hs.on c' b) hclean hf
    simp only [hf, Connection.Lands, hafter, Bool.false_eq_true, if_false]
    exact ⟨hg, hguard, hq⟩

/-- A read outside of a transaction. -/
theorem Safe.read {relied : List K} {unreachable : ε} {g : Connection V → α}
    (hs : Outside relied s) (herror : ∀ since c' e, G since c' c' (Service.throw e))
    (hG : ∀ since c' a, G since c' c' (pure a))
    (h : ∀ c' s' s'', Undisturbed D [] relied c c' → D.fits c' s'.bound → s'.rows = c' →
      Outside relied s'' → Q (g s') c' s'') :
    Safe D G Q (Service.request unreachable fun s => .ok (g s, s)) c s := by
  refine Safe.autocommit hs herror fun c' s' a after hsame hfits hs' hrows hf => ?_
  obtain ⟨rfl, rfl⟩ := Prod.mk.inj (Except.ok.inj hf)
  have hclean := s'.overlay_of_clean c' hs'.dirty
  rw [hclean]
  exact ⟨hs'.isOpen, hG _ _ _, by simp [hs'.dirty],
    h c' s' _ hsame hfits hrows ⟨hs'.isOpen, rfl, rfl, hs'.relied⟩⟩

/-! ### Inside of a transaction -/

/-- The connection is inside of a transaction that has taken its first lock on the
rows `since`, holds `locks`, still relies on `relied`, and whose writes turn the
committed rows `c` into `F c`. -/
structure Inside (D : Discipline V) (since : Rows V) (locks relied : List K)
    (F : Rows V → Rows V) (s : Connection V) : Prop where
  isOpen : s.isOpen = true
  since : s.since = since
  held : s.held = locks
  relied : ∀ k ∈ relied, k ∈ s.watched
  writes : ∀ c, s.overlay c = F c
  guarded : ∀ k ∈ s.dirty, D.guard k ∈ locks

namespace Inside

variable {since : Rows V} {locks relied : List K} {F : Rows V → Rows V}

theorem rows (h : Inside D since locks relied F s) (c' : Rows V) (b : Nat) :
    (s.on c' b).rows = F c' :=
  h.writes c'

theorem on (h : Inside D since locks relied F s) (c' : Rows V) (b : Nat) :
    Inside D (sinceOf locks c' since) locks relied F (s.on c' b) where
  isOpen := h.isOpen
  since := by
    show sinceOf s.held c' s.since = _
    rw [h.held, h.since]
  held := h.held
  relied := h.relied
  writes c := by rw [Connection.overlay_on, h.writes]
  guarded := h.guarded

theorem lock (h : Inside D since locks relied F s) (k : K) :
    Inside D since (k :: locks) relied F (s.lock [k]) where
  isOpen := h.isOpen
  since := h.since
  held := by rw [Connection.lock_held, h.held, List.singleton_append]
  relied := h.relied
  writes := h.writes
  guarded k' hk' := List.mem_cons_of_mem _ (h.guarded k' hk')

theorem watch (h : Inside D since locks relied F s) (k : K) :
    Inside D since locks (k :: relied) F (s.watch k) where
  isOpen := h.isOpen
  since := h.since
  held := h.held
  relied k' hk' := by
    rcases List.mem_cons.mp hk' with rfl | hold
    · exact List.mem_cons_self ..
    · exact List.mem_cons_of_mem _ (h.relied k' hold)
  writes := h.writes
  guarded := h.guarded

theorem write (h : Inside D since locks relied F s) {k : K} (v : V k) (hk : D.guard k ∈ locks) :
    Inside D since locks relied (fun c => Function.update (F c) k v) (s.write k v) where
  isOpen := h.isOpen
  since := h.since
  held := h.held
  relied := h.relied
  writes c := by rw [Connection.overlay_write, h.writes]
  guarded k' hk' := by
    rcases List.mem_cons.mp hk' with rfl | hold
    · exact hk
    · exact h.guarded k' hold

/-- What a statement sees of a row depends on that row only. -/
theorem congr (h : Inside D since locks relied F s) {c c' : Rows V} {k : K} (hk : c' k = c k) :
    F c' k = F c k := by
  rw [← h.writes, ← h.writes, Connection.overlay_apply, Connection.overlay_apply, hk]

theorem opened (h : Outside relied s) (c' : Rows V) (b : Nat) :
    Inside D c' [] relied (fun c => c) (s.on c' b).opened where
  isOpen := rfl
  since := by
    show sinceOf s.held c' s.since = c'
    rw [h.held]
    rfl
  held := h.held
  relied := h.relied
  writes c := by rw [Connection.overlay_opened, Connection.overlay_on, s.overlay_of_clean c h.dirty]
  guarded := by simp [h.dirty]

end Inside

/-- A statement inside of a transaction. -/
theorem Safe.statement {unreachable : ε} {f : Connection V → Except ε (α × Connection V)}
    {since : Rows V} {locks relied : List K} {F : Rows V → Rows V}
    (hs : Inside D since locks relied F s)
    (h : ∀ c' s' a after, Undisturbed D locks relied c c' → D.fits c' s'.bound →
      Inside D (sinceOf locks c' since) locks relied F s' → s'.rows = F c' →
      f s' = .ok (a, after) → after.isOpen = true ∧ Q a c' after) :
    Safe D G Q (Service.request unreachable f) c s := by
  refine ⟨trivial, fun c' b hfits hsame => ?_⟩
  cases hf : f (s.on c' b) with
  | error e =>
    simp only [hf, Connection.Lands, Connection.on_isOpen, hs.isOpen, if_true]
    exact safe_throw e
  | ok x =>
    obtain ⟨hafter, hq⟩ := h c' (s.on c' b) x.1 x.2 (hsame.mono (by simp [hs.held]) hs.relied)
      hfits (hs.on c' b) (hs.rows c' b) hf
    simp only [hf, Connection.Lands, hafter, if_true]
    exact hq

/-- What the end of a transaction finds: on whatever committed rows `COMMIT`
finds, it stays within `P`. -/
structure Commits (D : Discipline V) (P : Rows V → Rows V → Rows V → Prop) (relied : List K)
    (c : Rows V) (s : Connection V) : Prop where
  within : ∀ c', Undisturbed D s.held s.watched c c' →
    P (sinceOf s.held c' s.since) c' (s.overlay c')
  guarded : ∀ k ∈ s.dirty, D.guard k ∈ s.held
  relied : ∀ k ∈ relied, k ∈ s.watched

theorem Commits.mono {P : Rows V → Rows V → Rows V → Prop}
    {relied relied' : List K} (h : Commits D P relied c s) (hsub : ∀ k ∈ relied', k ∈ relied) :
    Commits D P relied' c s :=
  ⟨h.within, h.guarded, fun k hk => h.relied k (hsub k hk)⟩

/-- The last statement before `COMMIT` is over. -/
theorem Inside.commits {P : Rows V → Rows V → Rows V → Prop} {since : Rows V}
    {locks relied : List K} {F : Rows V → Rows V} (h : Inside D since locks relied F s)
    (hP : ∀ c', Undisturbed D locks relied c c' → P (sinceOf locks c' since) c' (F c')) :
    Commits D P relied c s where
  within c' hsame := by
    rw [h.writes, h.held, h.since]
    exact hP c' (hsame.mono (by simp [h.held]) h.relied)
  guarded := by
    rw [h.held]
    exact h.guarded
  relied := h.relied

/-- A transaction whose body commits nothing by itself. -/
theorem Safe.transaction {unreachable : ε} {body : Service (Connection V) ε α}
    {P : α → Rows V → Rows V → Rows V → Prop} {relied : List K} (hs : Outside relied s)
    (hG : ∀ a since c c', P a since c c' → G since c c' (pure a))
    (hQ : ∀ a since c c' s', P a since c c' → Outside relied s' → Q a c' s')
    (hbody : ∀ c' s', Undisturbed D [] relied c c' → Inside D c' [] relied (fun c => c) s' →
      Safe D (fun _ _ _ _ => False) (fun a => Commits D (P a) relied) body c' s') :
    Safe D G Q (Transactions.transaction unreachable body) c s := by
  rw [Transactions.transaction, safe_bind]
  refine ⟨safe_throw unreachable, fun c' b _ hsame => ?_⟩
  simp only [Connection.Lands, Connection.opened_isOpen, if_true]
  rw [safe_pure, safe_bind]
  have hbody := hbody c' _ (hsame.mono (by simp) hs.relied) (Inside.opened hs c' b)
  refine hbody.mono (fun _ _ _ _ h => h.elim) fun a c₁ s₁ h => ?_
  rw [safe_bind]
  refine ⟨safe_throw unreachable, fun c₂ b₂ _ hsame₂ => ?_⟩
  simp only [Connection.Lands, Connection.closed_isOpen, Bool.false_eq_true, if_false,
    Connection.overlay_closed, Connection.overlay_on]
  have hP := h.within c₂ hsame₂
  exact ⟨hG a _ _ _ hP, h.guarded, hQ a _ _ _ _ hP ⟨rfl, rfl, rfl, h.relied⟩⟩

/-- The guarantee of a script that commits once: only the call that answers a
value changes the committed rows, by `E`. -/
def Once (E : α → Rows V → Rows V → Rows V → Prop) (since c c' : Rows V)
    (rest : Service (Connection V) ε α) : Prop :=
  (c' = c ∧ ∀ a, rest ≠ pure a) ∨ ∃ a, rest = pure a ∧ E a since c c'

omit [DecidableEq K] in
theorem Once.effect {E : α → Rows V → Rows V → Rows V → Prop} {since c c' : Rows V}
    {rest : Service (Connection V) ε α} (h : Once E since c c' rest) :
    c' = c ∨ ∃ a, E a since c c' := by
  rcases h with ⟨heq, _⟩ | ⟨a, _, he⟩
  · exact .inl heq
  · exact .inr ⟨a, he⟩

end Logic

/-! ## Soundness -/

section Sound

variable [DecidableEq K] {D : Discipline V} {ops : ι → Nat → Service (Connection V) ε α}
  {s s' : System V ι ε α} {l : Label ι} {i j : Nat} {p q : Process V ι ε α}

/-- What a step does. -/
inductive System.Does (ops : ι → Nat → Service (Connection V) ε α) (s : System V ι ε α) :
    Label ι → System V ι ε α → Prop where
  | start (op : ι) : Does ops s (.start op) { s with
      serial := s.serial + 1
      processes := s.processes ++
        [⟨op, s.serial, .idle s.committed s.serial, ops op s.serial⟩] }
  | exec {i : Nat} {p : Process V ι ε α} {write : Connection V → Connection V}
      {next : Connection V → Service (Connection V) ε α} {failed : Service (Connection V) ε α}
      (hp : s.processes[i]? = some p) (hscript : p.script = .call write next failed)
      (hfree : s.blocked i (write (p.conn.on s.committed s.serial)).held = false) :
      Does ops s (.exec i) (s.land i p (write (p.conn.on s.committed s.serial))
        (next (p.conn.on s.committed s.serial)))
  | fail {i : Nat} {p : Process V ι ε α} {write : Connection V → Connection V}
      {next : Connection V → Service (Connection V) ε α} {failed : Service (Connection V) ε α}
      (hp : s.processes[i]? = some p) (hscript : p.script = .call write next failed) :
      Does ops s (.fail i) (s.put i { p with script := failed })
  | finish {i : Nat} {p : Process V ι ε α} {r : Except ε α}
      (hp : s.processes[i]? = some p) (hscript : p.script = .done r) :
      Does ops s (.finish i) (s.put i { p with conn := p.conn.reset })

theorem System.does_of_step (h : System.Step ops s l s') : System.Does ops s l s' := by
  cases l with
  | start op =>
    obtain rfl := Option.some.inj h
    exact .start op
  | exec i =>
    simp only [System.Step, System.next] at h
    cases hp : s.processes[i]? with
    | none => simp [hp] at h
    | some p =>
      cases hscript : p.script with
      | done r => simp [hp, hscript] at h
      | call write next failed =>
        simp only [hp, hscript] at h
        split at h
        · cases h
        · rename_i hfree
          obtain rfl := Option.some.inj h
          exact .exec hp hscript (by simpa using hfree)
  | fail i =>
    simp only [System.Step, System.next] at h
    cases hp : s.processes[i]? with
    | none => simp [hp] at h
    | some p =>
      cases hscript : p.script with
      | done r => simp [hp, hscript] at h
      | call write next failed =>
        simp only [hp, hscript] at h
        obtain rfl := Option.some.inj h
        exact .fail hp hscript
  | finish i =>
    simp only [System.Step, System.next] at h
    cases hp : s.processes[i]? with
    | none => simp [hp] at h
    | some p =>
      cases hscript : p.script with
      | call write next failed => simp [hp, hscript] at h
      | done r =>
        simp only [hp, hscript] at h
        obtain rfl := Option.some.inj h
        rw [← hscript]
        exact .finish hp hscript

theorem System.serial_le (h : System.Step ops s l s') : s.serial ≤ s'.serial := by
  cases System.does_of_step h with
  | start op => exact Nat.le_succ _
  | exec hp hscript hfree =>
    rw [System.land]
    split <;> exact Nat.le_refl _
  | fail => exact Nat.le_refl _
  | finish => exact Nat.le_refl _

/-- No key that the connection `i` now asks for is held by another one. -/
theorem System.blocked_eq_false {ks : List K} (h : s.blocked i ks = false)
    (hq : s.processes[j]? = some q) (hne : j ≠ i) : ∀ k ∈ ks, k ∉ q.conn.held := by
  intro k hk hheld
  rw [System.blocked, List.any_eq_false] at h
  refine h (q, j) (List.mk_mem_zipIdx_iff_getElem?.mpr hq) ?_
  simp only [Bool.and_eq_true, bne_iff_ne, List.any_eq_true, List.contains_eq_mem,
    decide_eq_true_eq]
  exact ⟨hne, k, hheld, hk⟩

/-- What a script leaves to its value: no transaction is open, and `Q` holds. -/
def Answers (Q : ι → Nat → α → Rows V → Prop) (op : ι) (n : Nat) (a : α) (c : Rows V)
    (s : Connection V) : Prop :=
  s.isOpen = false ∧ Q op n a c

/-- The scripts of the operations keep to the discipline, and the guarantee of
their commits to what no commit undoes. -/
structure Contract (D : Discipline V)
    (G : ι → Nat → Rows V → Rows V → Rows V → Service (Connection V) ε α → Prop)
    (Q : ι → Nat → α → Rows V → Prop) (ops : ι → Nat → Service (Connection V) ε α) : Prop where
  safe : ∀ op n c b, Safe (D.own n) (G op n) (Answers Q op n) (ops op n) c (.idle c b)
  grows : ∀ {op n since c c' rest}, G op n since c c' rest → D.grows c c'
  fits : ∀ {op n since c c' rest b}, G op n since c c' rest → n < b → D.fits c b → D.fits c' b

/-- The connections of the system hold different locks, and each is safe from
committed rows that have since changed unnoticed. -/
structure Sound (D : Discipline V)
    (G : ι → Nat → Rows V → Rows V → Rows V → Service (Connection V) ε α → Prop)
    (Q : ι → Nat → α → Rows V → Prop) (s : System V ι ε α) : Prop where
  apart : ∀ {i j : Nat} {p q : Process V ι ε α}, j ≠ i → s.processes[i]? = some p →
    s.processes[j]? = some q → ∀ k ∈ p.conn.held, k ∉ q.conn.held
  safe : ∀ {i : Nat} {p : Process V ι ε α}, s.processes[i]? = some p →
    ∃ c, Undisturbed D p.conn.held p.watched c s.committed ∧
      Safe (D.own p.serial) (G p.op p.serial) (Answers Q p.op p.serial) p.script c p.conn
  serial : ∀ {i : Nat} {p : Process V ι ε α}, s.processes[i]? = some p → p.serial < s.serial
  fits : D.fits s.committed s.serial

/-- The step changes no row in a way that a watcher among the other connections
does not put up with. -/
def Peaceful (D : Discipline V) (ops : ι → Nat → Service (Connection V) ε α)
    (s : System V ι ε α) (l : Label ι) : Prop :=
  ∀ i s', l = .exec i → System.Step ops s l s' → ∀ j q, j ≠ i → s.processes[j]? = some q →
    ∀ k ∈ q.watched, D.keeps k s.committed s'.committed

/-- The step commits nothing, or every row that another connection relies on stays as
`keeps` asks. -/
def System.isPeaceful (keeps : K → Rows V → Rows V → Bool) (s : System V ι ε α) :
    Label ι → Bool
  | .exec i =>
    (s.processes[i]?).all fun p => match p.script with
      | .done _ => true
      | .call write _ _ =>
        let after := write (p.conn.on s.committed s.serial)
        after.isOpen || s.processes.zipIdx.all fun x => x.2 == i ||
          x.1.watched.all fun k => keeps k s.committed (after.overlay s.committed)
  | _ => true

/-- Whether a step disturbs nobody can be computed. -/
theorem Peaceful.of_isPeaceful {keeps : K → Rows V → Rows V → Bool}
    (hkeeps : ∀ k c c', keeps k c c' = true → D.keeps k c c')
    (h : s.isPeaceful keeps l = true) : Peaceful D ops s l := by
  intro i s' hl hstep j q hne hq k hk
  subst hl
  cases System.does_of_step hstep with
  | @exec _ p write next failed hp hscript hfree =>
    simp only [System.isPeaceful, hp, Option.all_some, hscript, Bool.or_eq_true] at h
    rw [System.land]
    split
    · exact D.keeps_refl k _
    · rcases h with hopen | hothers
      · contradiction
      · have hother := List.all_eq_true.mp hothers (q, j) (List.mk_mem_zipIdx_iff_getElem?.mpr hq)
        simp only [Bool.or_eq_true, beq_iff_eq, hne, false_or] at hother
        exact hkeeps k _ _ (List.all_eq_true.mp hother k hk)

omit [DecidableEq K] in
theorem System.of_put {c : Rows V} {p' : Process V ι ε α}
    (h : ({ s with committed := c }.put i p').processes[j]? = some q) :
    (j = i ∧ q = p') ∨ (j ≠ i ∧ s.processes[j]? = some q) := by
  simp only [System.put, List.getElem?_set] at h
  split at h
  · rename_i hij
    split at h
    · exact .inl ⟨hij.symm, (Option.some.inj h).symm⟩
    · cases h
  · rename_i hij
    exact .inr ⟨Ne.symm hij, h⟩

variable {G : ι → Nat → Rows V → Rows V → Rows V → Service (Connection V) ε α → Prop}
  {Q : ι → Nat → α → Rows V → Prop}

omit [DecidableEq K] in
theorem getElem?_append_singleton {ps : List (Process V ι ε α)}
    (h : (ps ++ [p])[j]? = some q) : q = p ∨ ps[j]? = some q := by
  rw [List.getElem?_append] at h
  split at h
  · exact .inr h
  · exact .inl (List.mem_singleton.mp (List.mem_of_getElem? h))

/-- A system without connections. -/
theorem Sound.of_nil {c : Rows V} {n : Nat} (h : D.fits c n) :
    Sound D G Q (⟨c, n, []⟩ : System V ι ε α) :=
  ⟨by simp, by simp, by simp, h⟩

/-- One connection changes, and the committed rows change unnoticed by the
others. -/
theorem Sound.put {c : Rows V} {p' : Process V ι ε α} (h : Sound D G Q s)
    (hp : s.processes[i]? = some p) (hserial : p'.serial = p.serial)
    (hfits : D.fits c s.serial)
    (hapart : ∀ {j q}, j ≠ i → s.processes[j]? = some q →
      ∀ k ∈ p'.conn.held, k ∉ q.conn.held)
    (hothers : ∀ {j q}, j ≠ i → s.processes[j]? = some q →
      ∀ c₀, Undisturbed D q.conn.held q.watched c₀ s.committed →
        Undisturbed D q.conn.held q.watched c₀ c)
    (hsafe : ∃ c₀, Undisturbed D p'.conn.held p'.watched c₀ c ∧
      Safe (D.own p'.serial) (G p'.op p'.serial) (Answers Q p'.op p'.serial) p'.script c₀ p'.conn) :
    Sound D G Q ({ s with committed := c }.put i p') := by
  refine ⟨?_, ?_, ?_, hfits⟩
  · intro i₁ i₂ p₁ p₂ hne hp₁ hp₂
    rcases System.of_put hp₁ with ⟨rfl, rfl⟩ | ⟨hne₁, hold₁⟩
    · rcases System.of_put hp₂ with ⟨rfl, _⟩ | ⟨_, hp₂⟩
      · exact absurd rfl hne
      · exact hapart hne hp₂
    · rcases System.of_put hp₂ with ⟨rfl, rfl⟩ | ⟨_, hp₂⟩
      · exact fun k hk hk' => hapart hne₁ hold₁ k hk' hk
      · exact h.apart hne hold₁ hp₂
  · intro j q hq
    rcases System.of_put hq with ⟨rfl, rfl⟩ | ⟨hne, hq⟩
    · exact hsafe
    · obtain ⟨c₀, hsame, hrest⟩ := h.safe hq
      exact ⟨c₀, hothers hne hq c₀ hsame, hrest⟩
  · intro j q hq
    rcases System.of_put hq with ⟨rfl, rfl⟩ | ⟨_, hq⟩
    · exact hserial ▸ h.serial hp
    · exact h.serial hq

/-- What a call lands on is undisturbed for the others: they hold no guard of a
row that it commits. -/
theorem Connection.Lands.undisturbed {G : Rows V → Rows V → Rows V → Prop} {after : Connection V}
    {c₀ c : Rows V} {P : Rows V → Connection V → Prop} {held watched : List K}
    (h : after.Lands D G c P) (hclosed : ¬ after.isOpen = true)
    (hapart : ∀ k ∈ after.held, k ∉ held)
    (hkeeps : ∀ k ∈ watched, D.keeps k c (after.overlay c))
    (hgrows : D.grows c (after.overlay c))
    (hsame : Undisturbed D held watched c₀ c) :
    Undisturbed D held watched c₀ (after.overlay c) := by
  rw [Connection.Lands, if_neg hclosed] at h
  refine ⟨fun k hk => ?_, fun k hk =>
    D.keeps_trans k _ _ _ (hsame.watched k hk) (hkeeps k hk),
    D.grows_trans _ _ _ hsame.grows hgrows⟩
  rw [Connection.overlay_apply, if_neg, hsame.held k hk]
  exact fun hdirty => hapart _ (h.2.1 k hdirty) hk

/-- What the next call of a connection lands on. -/
theorem Sound.lands {write : Connection V → Connection V}
    {next : Connection V → Service (Connection V) ε α} {failed : Service (Connection V) ε α}
    (h : Sound D G Q s) (hp : s.processes[i]? = some p)
    (hscript : p.script = .call write next failed) :
    (write (p.conn.on s.committed s.serial)).Lands D
      (fun since c c' => G p.op p.serial since c c' (next (p.conn.on s.committed s.serial)))
      s.committed (Safe (D.own p.serial) (G p.op p.serial) (Answers Q p.op p.serial)
        (next (p.conn.on s.committed s.serial))) := by
  obtain ⟨c₀, hsame, hsafe⟩ := h.safe hp
  rw [Process.watched_of_call hscript] at hsame
  rw [hscript] at hsafe
  exact hsafe.2 _ s.serial ⟨h.fits, h.serial hp⟩ ⟨hsame.held, hsame.watched, hsame.grows⟩

/-- A step of a system of safe scripts. -/
theorem Sound.next (hC : Contract D G Q ops) (h : Sound D G Q s) (hpeace : Peaceful D ops s l)
    (hstep : System.Step ops s l s') : Sound D G Q s' := by
  cases System.does_of_step hstep with
  | start op =>
    refine ⟨?_, ?_, ?_, D.fits_succ _ _ h.fits⟩
    · intro i j p q hne hp hq
      rcases getElem?_append_singleton hp with rfl | hold
      · simp
      · rcases getElem?_append_singleton hq with rfl | hold'
        · simp
        · exact h.apart hne hold hold'
    · intro j q hq
      rcases getElem?_append_singleton hq with rfl | hold
      · exact ⟨s.committed, .refl _ _ _, hC.safe op s.serial _ _⟩
      · exact h.safe hold
    · intro j q hq
      rcases getElem?_append_singleton hq with rfl | hold
      · exact Nat.lt_succ_self _
      · exact Nat.lt_succ_of_lt (h.serial hold)
  | @exec i p write next failed hp hscript hfree =>
    have hlands := h.lands hp hscript
    have hkeeps := hpeace i _ rfl hstep
    have hapart : ∀ {j q}, j ≠ i → s.processes[j]? = some q →
        ∀ k ∈ (write (p.conn.on s.committed s.serial)).held, k ∉ q.conn.held :=
      fun hne hq => System.blocked_eq_false hfree hq hne
    generalize write (p.conn.on s.committed s.serial) = after at *
    rw [System.land] at hkeeps ⊢
    split
    · rename_i hopen
      rw [Connection.Lands, if_pos hopen] at hlands
      exact h.put hp rfl h.fits hapart (fun _ _ _ => id) ⟨s.committed, .refl _ _ _, hlands⟩
    · rename_i hclosed
      rw [if_neg hclosed] at hkeeps
      have hlands' := hlands
      rw [Connection.Lands, if_neg hclosed] at hlands'
      refine h.put hp rfl (hC.fits hlands'.1 (h.serial hp) h.fits) (by simp)
        (fun {j q} hne hq c₀ => hlands.undisturbed hclosed (hapart hne hq) (hkeeps j q hne hq)
          (hC.grows hlands'.1)) ⟨_, .refl _ _ _, hlands'.2.2⟩
  | @fail i p write next failed hp hscript =>
    obtain ⟨c₀, hsame, hsafe⟩ := h.safe hp
    rw [hscript] at hsafe
    have hapart : ∀ {j q}, j ≠ i → s.processes[j]? = some q →
        ∀ k ∈ p.conn.held, k ∉ q.conn.held := fun hne hq => h.apart hne hp hq
    rw [Process.watched_of_call hscript] at hsame
    exact h.put hp rfl h.fits hapart (fun _ _ _ => id)
      ⟨c₀, hsame.mono (fun _ => id) fun _ => Process.mem_watched, hsafe.1⟩
  | @finish i p r hp hscript =>
    obtain ⟨c₀, hsame, hsafe⟩ := h.safe hp
    refine h.put hp rfl h.fits (by simp) (fun _ _ _ => id)
      ⟨c₀, ⟨by simp, by simp [Process.watched, hscript], hsame.grows⟩, ?_⟩
    rw [hscript] at hsafe
    simp only [hscript]
    cases r with
    | ok a => exact ⟨rfl, hsafe.2⟩
    | error e => trivial

/-- A step of a system of safe scripts that changes the committed rows is a call
of a connection that stays within its guarantee. -/
theorem Sound.guarantee (h : Sound D G Q s) (hstep : System.Step ops s l s') :
    s'.committed = s.committed ∨ ∃ i p p', l = .exec i ∧ s.processes[i]? = some p ∧
      s'.processes[i]? = some p' ∧
      G p.op p.serial p'.conn.since s.committed s'.committed p'.script := by
  cases System.does_of_step hstep with
  | start op => exact .inl rfl
  | @exec i p write next failed hp hscript hfree =>
    have hlands := h.lands hp hscript
    have hlt : i < s.processes.length := (List.getElem?_eq_some_iff.mp hp).1
    rw [System.land]
    split
    · exact .inl rfl
    · rename_i hclosed
      rw [Connection.Lands, if_neg hclosed] at hlands
      exact .inr ⟨i, p, _, rfl, hp, List.getElem?_set_self hlt, hlands.1⟩
  | fail => exact .inl rfl
  | finish => exact .inl rfl

/-- The committed rows grow with every step. -/
theorem Sound.grows (hC : Contract D G Q ops) (h : Sound D G Q s)
    (hstep : System.Step ops s l s') : D.grows s.committed s'.committed := by
  rcases h.guarantee hstep with heq | ⟨i, p, p', _, _, _, hG⟩
  · rw [heq]
    exact D.grows_refl _
  · exact hC.grows hG

/-- What holds of the committed rows after the answer of a connection, up to what
they have grown since. -/
theorem Sound.answered (h : Sound D G Q s) {a : α} (hp : s.processes[i]? = some p)
    (hscript : p.script = pure a) : ∃ c, Q p.op p.serial a c ∧ D.grows c s.committed := by
  obtain ⟨c, hsame, hsafe⟩ := h.safe hp
  rw [hscript] at hsafe
  exact ⟨c, hsafe.2, hsame.grows⟩

/-! ### Answers -/

/-- Every script answers an error when a call fails. -/
def AllStrict (s : System V ι ε α) : Prop :=
  ∀ (i : Nat) (p : Process V ι ε α), s.processes[i]? = some p → p.script.Strict

/-- A step keeps the operations and the answers of the connections. -/
theorem System.kept (hstep : System.Step ops s l s') (hp : s.processes[i]? = some p) :
    ∃ p', s'.processes[i]? = some p' ∧ p'.op = p.op ∧ p'.serial = p.serial ∧
      ∀ r, p.script = .done r → p'.script = .done r := by
  have hput : ∀ (c : Rows V) {k : Nat} {q q' : Process V ι ε α}, s.processes[k]? = some q →
      q'.op = q.op → q'.serial = q.serial → (∀ r, q.script = .done r → q'.script = .done r) →
      ∃ p', ({ s with committed := c }.put k q').processes[i]? = some p' ∧ p'.op = p.op ∧
        p'.serial = p.serial ∧ ∀ r, p.script = .done r → p'.script = .done r := by
    intro c k q q' hq hop hserial hscript
    by_cases hik : k = i
    · subst hik
      obtain rfl : q = p := Option.some.inj (hq.symm.trans hp)
      exact ⟨q', List.getElem?_set_self (List.getElem?_eq_some_iff.mp hp).1, hop, hserial, hscript⟩
    · exact ⟨p, (List.getElem?_set_ne hik).trans hp, rfl, rfl, fun _ => id⟩
  cases System.does_of_step hstep with
  | start op =>
    exact ⟨p, by rw [List.getElem?_append_left (List.getElem?_eq_some_iff.mp hp).1, hp], rfl, rfl,
      fun _ => id⟩
  | @exec k q write next failed hq hscript hfree =>
    rw [System.land]
    split
    · exact hput s.committed hq rfl rfl fun r hr => by simp [hscript] at hr
    · exact hput _ hq rfl rfl fun r hr => by simp [hscript] at hr
  | fail hq hscript => exact hput s.committed hq rfl rfl fun r hr => by simp [hscript] at hr
  | finish hq hscript => exact hput s.committed hq rfl rfl fun _ => id

/-- A connection after a step was there before or has just started. -/
theorem System.origin (hstep : System.Step ops s l s') (hq : s'.processes[i]? = some q) :
    (∃ p, s.processes[i]? = some p ∧ q.op = p.op ∧ q.serial = p.serial ∧
      ∀ r, p.script = .done r → q.script = .done r) ∨
    (l = .start q.op ∧ q.script = ops q.op q.serial) := by
  cases hp : s.processes[i]? with
  | some p =>
    obtain ⟨q', hq', hop, hserial, hscript⟩ := System.kept hstep hp
    obtain rfl := Option.some.inj (hq'.symm.trans hq)
    exact .inl ⟨p, rfl, hop, hserial, hscript⟩
  | none =>
    have hput : ∀ (c : Rows V) (k : Nat) (q' : Process V ι ε α),
        ({ s with committed := c }.put k q').processes[i]? = none := by
      intro c k q'
      rw [List.getElem?_eq_none_iff] at hp ⊢
      simpa [System.put] using hp
    cases System.does_of_step hstep with
    | start op =>
      rcases getElem?_append_singleton hq with rfl | hold
      · exact .inr ⟨rfl, rfl⟩
      · rw [hp] at hold
        cases hold
    | exec hp' hscript hfree =>
      rw [System.land] at hq
      split at hq
      · cases (hput s.committed _ _).symm.trans hq
      · cases (hput _ _ _).symm.trans hq
    | fail => cases (hput s.committed _ _).symm.trans hq
    | finish => cases (hput s.committed _ _).symm.trans hq

/-- The identities count the connections. -/
structure System.Numbered (n : Nat) (s : System V ι ε α) : Prop where
  serial : s.serial = n + s.processes.length
  serials : ∀ {i : Nat} {p : Process V ι ε α}, s.processes[i]? = some p → p.serial = n + i

omit [DecidableEq K] in
theorem System.Numbered.put {n : Nat} {c : Rows V} {p' : Process V ι ε α} (h : s.Numbered n)
    (hp : s.processes[i]? = some p) (hserial : p'.serial = p.serial) :
    ({ s with committed := c }.put i p').Numbered n := by
  refine ⟨by simpa [System.put] using h.serial, fun hq => ?_⟩
  rcases System.of_put hq with ⟨rfl, rfl⟩ | ⟨_, hold⟩
  · rw [hserial, h.serials hp]
  · exact h.serials hold

theorem System.Numbered.next {n : Nat} (h : s.Numbered n) (hstep : System.Step ops s l s') :
    s'.Numbered n := by
  cases System.does_of_step hstep with
  | start op =>
    refine ⟨by simp [h.serial, Nat.add_assoc], fun {j q} hq => ?_⟩
    rw [List.getElem?_append] at hq
    split at hq
    · exact h.serials hq
    · rename_i hlen
      obtain ⟨hj, hq⟩ := List.getElem?_eq_some_iff.mp hq
      have hj' : j = s.processes.length := by
        simp only [List.length_singleton] at hj
        omega
      simp only [List.getElem_singleton] at hq
      rw [← hq, hj']
      exact h.serial
  | exec hp hscript hfree =>
    rw [System.land]
    split
    · exact h.put hp rfl
    · exact h.put hp rfl
  | fail hp hscript => exact h.put hp rfl
  | finish hp hscript => exact h.put hp rfl

/-- A step keeps strict scripts strict. -/
theorem AllStrict.next (hops : ∀ op n, (ops op n).Strict) (h : AllStrict s)
    (hstep : System.Step ops s l s') : AllStrict s' := by
  have hput : ∀ (c : Rows V) (k : Nat) (q' : Process V ι ε α), q'.script.Strict →
      AllStrict ({ s with committed := c }.put k q') := by
    intro c k q' hq' j q hq
    rcases System.of_put hq with ⟨rfl, rfl⟩ | ⟨_, hq⟩
    · exact hq'
    · exact h j q hq
  cases System.does_of_step hstep with
  | start op =>
    intro j q hq
    rcases getElem?_append_singleton hq with rfl | hold
    · exact hops _ _
    · exact h j q hold
  | @exec k q write next failed hq hscript hfree =>
    have hstrict := h k q hq
    rw [hscript] at hstrict
    rw [System.land]
    split <;> exact hput _ _ _ (hstrict.2 _)
  | @fail k q write next failed hq hscript =>
    have hstrict := h k q hq
    rw [hscript] at hstrict
    obtain ⟨e, rfl⟩ := hstrict.1
    exact hput s.committed _ _ trivial
  | @finish k q r hq hscript => exact hput s.committed _ _ (h k q hq)

/-- The step in which a strict script answers a value is a call that commits. -/
theorem Sound.answers (h : Sound D G Q s) (hstrict : AllStrict s)
    (hstep : System.Step ops s l s') (hp : s.processes[i]? = some p)
    (hq : s'.processes[i]? = some q) {a : α} (hbefore : p.script ≠ pure a)
    (hafter : q.script = pure a) :
    l = .exec i ∧ G p.op p.serial q.conn.since s.committed s'.committed (pure a) := by
  cases System.does_of_step hstep with
  | start op =>
    rw [List.getElem?_append_left (List.getElem?_eq_some_iff.mp hp).1, hp] at hq
    obtain rfl := Option.some.inj hq
    exact absurd hafter hbefore
  | @exec k p₀ write next failed hp₀ hscript hfree =>
    have hlands := h.lands hp₀ hscript
    rw [System.land] at hq ⊢
    split at hq
    · rename_i hopen
      rcases System.of_put hq with ⟨rfl, rfl⟩ | ⟨_, hold⟩
      · rw [Connection.Lands, if_pos hopen] at hlands
        replace hafter : next (p₀.conn.on s.committed s.serial) = pure a := hafter
        rw [hafter] at hlands
        exact absurd hlands.1 (by simp [hopen])
      · obtain rfl := Option.some.inj (hold.symm.trans hp)
        exact absurd hafter hbefore
    · rename_i hclosed
      rcases System.of_put hq with ⟨rfl, rfl⟩ | ⟨_, hold⟩
      · obtain rfl := Option.some.inj (hp₀.symm.trans hp)
        rw [Connection.Lands, if_neg hclosed] at hlands
        replace hafter : next (p₀.conn.on s.committed s.serial) = pure a := hafter
        rw [if_neg hclosed, ← hafter]
        exact ⟨rfl, hlands.1⟩
      · obtain rfl := Option.some.inj (hold.symm.trans hp)
        exact absurd hafter hbefore
  | @fail k p₀ write next failed hp₀ hscript =>
    rcases System.of_put hq with ⟨rfl, rfl⟩ | ⟨_, hold⟩
    · have hp₀' := hstrict _ _ hp₀
      rw [hscript] at hp₀'
      obtain ⟨e, rfl⟩ := hp₀'.1
      cases hafter
    · obtain rfl := Option.some.inj (hold.symm.trans hp)
      exact absurd hafter hbefore
  | @finish k p₀ r hp₀ hscript =>
    rcases System.of_put hq with ⟨rfl, rfl⟩ | ⟨_, hold⟩
    · obtain rfl := Option.some.inj (hp₀.symm.trans hp)
      exact absurd hafter hbefore
    · obtain rfl := Option.some.inj (hold.symm.trans hp)
      exact absurd hafter hbefore

end Sound

end Transactions
