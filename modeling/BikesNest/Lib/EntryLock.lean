import BikesNest.Lib.Transaction

/-!
# A lock that is taken first

A transaction may take one lock with the first statement that locks anything and
keep it until it commits: the entry of a unique index, say, under which it then
inserts.  Whoever commits in between holds another lock.

* `Enters` says of a script that it takes the lock `k` in this way.
* `Entered.next` carries `Entered` through the steps of a system of such scripts.
* `Entered.since` is what a commit may rely on: of the rows that the transaction
  has found with its first lock, only a change has come in that the holders of
  other locks make.
-/

namespace Transactions

variable {K ι ε α β : Type} {V : K → Type} [DecidableEq K]

/-- The connection as a call leaves it to the rest of the script. -/
def Connection.landed (s : Connection V) : Connection V :=
  if s.isOpen then s else s.settle

/-- Run from `s`, the script takes `k` with its first lock and keeps it until it
commits, and a value finds `Q`. -/
def Enters (k : K) (Q : α → Connection V → Prop) :
    Service (Connection V) ε α → Connection V → Prop
  | .done (.ok a) => Q a
  | .done (.error _) => fun _ => True
  | .call write next failed => fun s =>
    Enters k Q failed s ∧ ∀ c b,
      (write (s.on c b)).since = (s.on c b).since ∧
      ((write (s.on c b)).held = [] ∨ k ∈ (write (s.on c b)).held) ∧
      Enters k Q (next (s.on c b)) (write (s.on c b)).landed

section Rules

variable {k : K} {s : Connection V}

theorem Enters.mono {Q Q' : α → Connection V → Prop} (hQ : ∀ a s, Q a s → Q' a s)
    {m : Service (Connection V) ε α} {s : Connection V} (h : Enters k Q m s) :
    Enters k Q' m s := by
  induction m generalizing s with
  | done r =>
    cases r with
    | ok a => exact hQ a s h
    | error e => trivial
  | call write next failed ihnext ihfailed =>
    refine ⟨ihfailed h.1, fun c b => ?_⟩
    obtain ⟨hsince, hheld, hnext⟩ := h.2 c b
    exact ⟨hsince, hheld, ihnext _ hnext⟩

theorem enters_bind {Q : β → Connection V → Prop} (m : Service (Connection V) ε α)
    (f : α → Service (Connection V) ε β) :
    Enters k Q (m >>= f) = Enters k (fun a => Enters k Q (f a)) m := by
  show Enters k Q (m.bind f) = _
  induction m with
  | done r => cases r <;> rfl
  | call write next failed ihnext ihfailed =>
    funext s
    simp only [Service.bind, Enters, ihnext, ihfailed]

/-- A statement inside of a transaction that leaves the lock taken. -/
theorem Enters.request {Q : α → Connection V → Prop} {unreachable : ε}
    {f : Connection V → Except ε (α × Connection V)}
    (hheld : s.held = [] ∨ k ∈ s.held)
    (h : ∀ c b a after, f (s.on c b) = .ok (a, after) → after.isOpen = true ∧
      after.since = (s.on c b).since ∧ k ∈ after.held ∧ Q a after) :
    Enters k Q (Service.request unreachable f) s := by
  refine ⟨trivial, fun c b => ?_⟩
  cases hf : f (s.on c b) with
  | error e =>
    simp only [hf]
    exact ⟨trivial, hheld, trivial⟩
  | ok x =>
    obtain ⟨hafter, hsince, hk, hQ⟩ := h c b x.1 x.2 hf
    simp only [hf, Connection.landed, if_pos hafter]
    exact ⟨hsince, .inr hk, hQ⟩

/-- A transaction whose body takes the lock. -/
theorem Enters.transaction {unreachable : ε} {body : Service (Connection V) ε α}
    (hheld : s.held = [])
    (h : ∀ s', s'.isOpen = true → s'.held = [] →
      Enters k (fun _ s => s.held = [] ∨ k ∈ s.held) body s') :
    Enters k (fun _ _ => True) (Transactions.transaction unreachable body) s := by
  rw [Transactions.transaction, enters_bind]
  refine ⟨trivial, fun c b => ⟨rfl, .inl hheld, ?_⟩⟩
  show Enters k _ (body >>= _) (s.on c b).opened
  rw [enters_bind]
  refine Enters.mono (fun a s' hs' => ?_) (h _ rfl hheld)
  rw [enters_bind]
  exact ⟨trivial, fun c b => ⟨rfl, hs', trivial⟩⟩

end Rules

/-! ## Systems -/

variable {D : Discipline V} {G : ι → Nat → Rows V → Rows V → Rows V → Service (Connection V) ε α → Prop}
  {Q : ι → Nat → α → Rows V → Prop} {ops : ι → Nat → Service (Connection V) ε α}
  {s s' : System V ι ε α} {l : Label ι} {i : Nat} {p p' : Process V ι ε α}

/-- Every operation takes the lock `key` first, and what its commits make of the
rows is within `R` for every other lock. -/
structure Exclusive (key : ι → K) (R : K → Rows V → Rows V → Prop)
    (G : ι → Nat → Rows V → Rows V → Rows V → Service (Connection V) ε α → Prop)
    (ops : ι → Nat → Service (Connection V) ε α) : Prop where
  refl : ∀ k c, R k c c
  trans : ∀ {k c c' c''}, R k c c' → R k c' c'' → R k c c''
  enters : ∀ op n c b, Enters (key op) (fun _ _ => True) (ops op n) (.idle c b)
  others : ∀ {op n since c c' rest}, G op n since c c' rest → ∀ k, k ≠ key op → R k c c'

/-- Every connection holds its lock when it holds any, and has since then seen
only what `R` allows. -/
structure Entered (key : ι → K) (R : K → Rows V → Rows V → Prop) (s : System V ι ε α) : Prop where
  enters : ∀ {i : Nat} {p : Process V ι ε α}, s.processes[i]? = some p →
    Enters (key p.op) (fun _ _ => True) p.script p.conn
  first : ∀ {i : Nat} {p : Process V ι ε α}, s.processes[i]? = some p →
    p.conn.held = [] ∨ key p.op ∈ p.conn.held
  within : ∀ {i : Nat} {p : Process V ι ε α}, s.processes[i]? = some p →
    key p.op ∈ p.conn.held → R (key p.op) p.conn.since s.committed

variable {key : ι → K} {R : K → Rows V → Rows V → Prop}

omit [DecidableEq K] in
theorem Entered.of_nil [DecidableEq K] (c : Rows V) (n : Nat) :
    Entered key R (⟨c, n, []⟩ : System V ι ε α) :=
  ⟨by simp, by simp, by simp⟩

/-- The lock of another connection, which wants it too, is not taken. -/
theorem Exclusive.commits (hE : Exclusive key R G ops) {q : Process V ι ε α} {since c : Rows V}
    {after : Connection V} {rest : Service (Connection V) ε α}
    (hG : G p.op p.serial since c (after.overlay c) rest)
    (hguard : ∀ k ∈ after.dirty, D.guard k ∈ after.held)
    (hheld : after.held = [] ∨ key p.op ∈ after.held)
    (hapart : ∀ k ∈ after.held, k ∉ q.conn.held) (hq : key q.op ∈ q.conn.held) :
    R (key q.op) c (after.overlay c) := by
  by_cases hkey : key q.op = key p.op
  · have hnone : after.held = [] :=
      hheld.resolve_right fun hp => hapart _ hp (hkey ▸ hq)
    have hclean : after.dirty = [] := by
      refine List.eq_nil_iff_forall_not_mem.mpr fun k hk => ?_
      have hlocked := hguard k hk
      rw [hnone] at hlocked
      cases hlocked
    rw [after.overlay_of_clean c hclean]
    exact hE.refl _ c
  · exact hE.others hG _ hkey

/-- What a connection may rely on in its next call. -/
theorem Entered.since_on (hE : Exclusive key R G ops) (h : Entered key R s)
    (hp : s.processes[i]? = some p) :
    R (key p.op) (sinceOf p.conn.held s.committed p.conn.since) s.committed := by
  rcases h.first hp with hnone | hlocked
  · rw [hnone]
    exact hE.refl _ _
  · rw [sinceOf_of_mem hlocked]
    exact h.within hp hlocked

/-- One connection changes, and the committed rows change within what the holders
of the other locks allow. -/
theorem Entered.put (hE : Exclusive key R G ops) (h : Entered key R s) {c : Rows V}
    (henters : Enters (key p'.op) (fun _ _ => True) p'.script p'.conn)
    (hfirst : p'.conn.held = [] ∨ key p'.op ∈ p'.conn.held)
    (hwithin : key p'.op ∈ p'.conn.held → R (key p'.op) p'.conn.since c)
    (hothers : ∀ {j q}, j ≠ i → s.processes[j]? = some q → key q.op ∈ q.conn.held →
      R (key q.op) s.committed c) : Entered key R ({ s with committed := c }.put i p') := by
  refine ⟨fun hq => ?_, fun hq => ?_, fun hq hheld => ?_⟩
  · rcases System.of_put hq with ⟨_, rfl⟩ | ⟨_, hold⟩
    · exact henters
    · exact h.enters hold
  · rcases System.of_put hq with ⟨_, rfl⟩ | ⟨_, hold⟩
    · exact hfirst
    · exact h.first hold
  · rcases System.of_put hq with ⟨_, rfl⟩ | ⟨hne, hold⟩
    · exact hwithin hheld
    · exact hE.trans (h.within hold hheld) (hothers hne hold hheld)

theorem Entered.next (hE : Exclusive key R G ops) (hsound : Sound D G Q s)
    (h : Entered key R s) (hstep : System.Step ops s l s') : Entered key R s' := by
  cases System.does_of_step hstep with
  | start op =>
    refine ⟨fun hq => ?_, fun hq => ?_, fun hq hheld => ?_⟩
    · rcases getElem?_append_singleton hq with rfl | hold
      · exact hE.enters op _ _ _
      · exact h.enters hold
    · rcases getElem?_append_singleton hq with rfl | hold
      · exact .inl rfl
      · exact h.first hold
    · rcases getElem?_append_singleton hq with rfl | hold
      · cases hheld
      · exact h.within hold hheld
  | @exec i p write next failed hp hscript hfree =>
    have henters := h.enters hp
    rw [hscript] at henters
    obtain ⟨hsince, hheld, hnext⟩ := henters.2 s.committed s.serial
    have hlands := hsound.lands hp hscript
    have hrelies := h.since_on hE hp
    have hapart : ∀ {j q}, j ≠ i → s.processes[j]? = some q →
        ∀ k ∈ (write (p.conn.on s.committed s.serial)).held, k ∉ q.conn.held :=
      fun hne hq => System.blocked_eq_false hfree hq hne
    generalize write (p.conn.on s.committed s.serial) = after at *
    rw [System.land]
    split
    · rename_i hopen
      rw [Connection.landed, if_pos hopen] at hnext
      refine h.put hE hnext hheld (fun _ => ?_) fun _ _ _ => hE.refl _ _
      show R (key p.op) after.since s.committed
      rw [hsince]
      exact hrelies
    · rename_i hclosed
      rw [Connection.landed, if_neg hclosed] at hnext
      rw [Connection.Lands, if_neg hclosed] at hlands
      exact h.put hE hnext (.inl rfl) (by simp) fun hne hq =>
        hE.commits hlands.1 hlands.2.1 hheld (hapart hne hq)
  | @fail i p write next failed hp hscript =>
    have henters := h.enters hp
    rw [hscript] at henters
    exact h.put hE henters.1 (h.first (p := p) hp) (fun hheld => h.within (p := p) hp hheld)
      fun _ _ _ => hE.refl _ _
  | @finish i p r hp hscript =>
    refine h.put hE ?_ (.inl rfl) (by simp) fun _ _ _ => hE.refl _ _
    rw [hscript]
    cases r <;> trivial

/-- What a call may rely on when it commits. -/
theorem Entered.since (hE : Exclusive key R G ops) (h : Entered key R s)
    (hstep : System.Step ops s (.exec i) s') (hp : s.processes[i]? = some p)
    (hp' : s'.processes[i]? = some p') : R (key p.op) p'.conn.since s.committed := by
  cases System.does_of_step hstep with
  | @exec i p₀ write next failed hp₀ hscript hfree =>
    obtain rfl : p₀ = p := Option.some.inj (hp₀.symm.trans hp)
    have henters := h.enters hp
    rw [hscript] at henters
    have hsince := (henters.2 s.committed s.serial).1
    have hrelies := h.since_on hE hp
    rw [System.land] at hp'
    split at hp' <;> rcases System.of_put hp' with ⟨_, rfl⟩ | ⟨hne, _⟩
    · show R _ (write _).since _
      rw [hsince]
      exact hrelies
    · exact absurd rfl hne
    · show R _ (write _).since _
      rw [hsince]
      exact hrelies
    · exact absurd rfl hne

end Transactions
