import BikesNest.Lib.Transaction
import BikesNest.Store.Schema

/-!
# The tables of a location, row by row

The rows that the contribution and the moderation repositories read and write
statement by statement.  A `Key` names a row; the opening hours of a location
stand under one key, and so do its security rows, since every statement takes
all of them.  `Key.reviewOf` is the entry of the unique index of `review` and
has no row of its own.

A `Statement` is what one SQL statement does to the connection that sends it:
it reads `rows`, locks the rows that it writes or selects `FOR UPDATE`, and
writes.  A foreign key and a `CHECK` can only make a statement fail, and every
statement may fail; so none is repeated here.
-/

namespace BikesNest.Store

open Domain Community Transactions

/-- The names of the rows. -/
inductive Key where
  | location (id : Nat)
  | hours (location : Nat)
  | security (location : Nat)
  | revision (location : Nat) (version : Int)
  | proposal (id : Nat)
  | review (id : Nat)
  | reviewOf (location : Nat) (author : UserId)
  | reviewRevision (id : Nat)
  | verification (id : Nat)
  | auditEvent (id : Nat)
deriving DecidableEq

/-- What stands under a key. -/
abbrev Cell : Key → Type
  | .location _ => Option ParkingLocation
  | .hours _ => List HourRow
  | .security _ => List SecurityRow
  | .revision _ _ => Option ParkingRevision
  | .proposal _ => Option ParkingProposal
  | .review _ => Option Review
  | .reviewOf _ _ => Unit
  | .reviewRevision _ => Option ReviewRevision
  | .verification _ => Option Verification
  | .auditEvent _ => Option AuditEvent

/-- The row whose lock guards a row: that of the location for the row itself and
for its child rows. -/
def Key.guard : Key → Key
  | .hours l => .location l
  | .security l => .location l
  | .revision l _ => .location l
  | k => k

/-- The empty database. -/
def noRows : Rows Cell
  | .location _ => none
  | .hours _ => []
  | .security _ => []
  | .revision _ _ => none
  | .proposal _ => none
  | .review _ => none
  | .reviewOf _ _ => ()
  | .reviewRevision _ => none
  | .verification _ => none
  | .auditEvent _ => none

/-- What a statement does. -/
abbrev Statement (ε α : Type) := Connection Cell → Except ε (α × Connection Cell)

/-- A program of statements. -/
abbrev Script (ε α : Type) := Service (Connection Cell) ε α

variable {ε : Type}

/-! ## Statements on `parking_location` -/

/-- `INSERT INTO parking_location … RETURNING id`. -/
def insertLocation (conflict : ε) (id : Nat) (r : ParkingLocation) : Statement ε Nat := fun s =>
  match s.rows (.location id) with
  | some _ => .error conflict
  | none => .ok (id, (s.lock [.location id]).write (.location id) (some r))

/-- `SELECT … FROM parking_location WHERE id = $1 FOR UPDATE`. -/
def lockLocation (id : Nat) : Statement ε (Option ParkingLocation) := fun s =>
  match s.rows (.location id) with
  | none => .ok (none, s)
  | some r => .ok (some r, s.lock [.location id])

/-- `UPDATE parking_location SET f WHERE id = $1 AND p RETURNING …`. -/
def updateLocation (id : Nat) (p : ParkingLocation → Bool)
    (f : ParkingLocation → ParkingLocation) : Statement ε (Option ParkingLocation) := fun s =>
  match s.rows (.location id) with
  | none => .ok (none, s)
  | some r =>
    if p r then
      .ok (some (f r), (s.lock [.location id]).write (.location id) (some (f r)))
    else .ok (none, s)

/-! ## Statements on the child rows of a location -/

/-- A statement that writes the rows under one key, or fails. -/
def write (k : Key) (v : Rows Cell → Except ε (Cell k)) : Statement ε Unit := fun s =>
  (v s.rows).map fun x => ((), s.write k x)

/-- A statement that reads. -/
def select {α : Type} (g : Connection Cell → α) : Statement ε α := fun s => .ok (g s, s)

/-- `INSERT INTO parking_revision`, under the unique index on the location and
the version. -/
def insertRevision (conflict : ε) (id : Nat) (rev : ParkingRevision) : Statement ε Unit :=
  fun s =>
    match s.rows (.revision id rev.version) with
    | some _ => .error conflict
    | none =>
      .ok ((), (s.lock [.revision id rev.version]).write (.revision id rev.version) (some rev))

/-! ## Statements on `parking_proposal` -/

/-- `INSERT INTO parking_proposal … RETURNING id`. -/
def insertProposal (conflict : ε) (id : Nat) (p : ParkingProposal) : Statement ε Nat := fun s =>
  match s.rows (.proposal id) with
  | some _ => .error conflict
  | none => .ok (id, (s.lock [.proposal id]).write (.proposal id) (some p))

/-- `SELECT … FROM parking_proposal WHERE id = $1 FOR UPDATE`. -/
def lockProposal (id : Nat) : Statement ε (Option ParkingProposal) := fun s =>
  match s.rows (.proposal id) with
  | none => .ok (none, s)
  | some p => .ok (some p, s.lock [.proposal id])

/-- `UPDATE parking_proposal SET f WHERE id = $1 AND p`, with the number of rows
it affects. -/
def updateProposal (id : Nat) (p : ParkingProposal → Bool)
    (f : ParkingProposal → ParkingProposal) : Statement ε Nat := fun s =>
  match s.rows (.proposal id) with
  | none => .ok (0, s)
  | some r =>
    if p r then
      .ok (1, (s.lock [.proposal id]).write (.proposal id) (some (f r)))
    else .ok (0, s)

/-! ## What no commit undoes -/

/-- The columns of a location that are not derived from reviews and
verifications. -/
def tracked (r : ParkingLocation) : ParkingLocation :=
  { r with ratingAvg := none, ratingCount := 0, lastVerifiedAt := none }

/-- A row of `parking_location` and a later state of it: only a new version
changes its tracked columns. -/
def Succeeds (r r' : ParkingLocation) : Prop :=
  r.version ≤ r'.version ∧ (r'.version = r.version → tracked r' = tracked r)

/-- A row of `parking_proposal` and a later state of it: what it is about stays,
and once it is decided nothing of it changes. -/
def Follows (p p' : ParkingProposal) : Prop :=
  p'.locationId = p.locationId ∧ p'.baseVersion = p.baseVersion ∧ (p.status = .pending ∨ p' = p)

theorem Follows.refl (p : ParkingProposal) : Follows p p := ⟨rfl, rfl, .inr rfl⟩

theorem Follows.trans {p p' p'' : ParkingProposal} (h : Follows p p') (h' : Follows p' p'') :
    Follows p p'' := by
  obtain ⟨hl, hb, hpending | rfl⟩ := h
  · exact ⟨h'.1.trans hl, h'.2.1.trans hb, .inl hpending⟩
  · exact h'

/-- A proposal that is decided stays decided. -/
theorem Follows.decided {p p' : ParkingProposal} (h : Follows p p') (hp : p.status ≠ .pending) :
    p'.status ≠ .pending := by
  rw [h.2.2.resolve_left hp]
  exact hp

/-- The proposals stay. -/
def ProposalsFollow (c c' : Rows Cell) : Prop :=
  ∀ j p, c (.proposal j) = some p → ∃ p', c' (.proposal j) = some p' ∧ Follows p p'

/-- How the committed rows grow: locations stay, and only a new version changes
one or its child rows; revisions stay as they are, and proposals stay. -/
structure Grows (c c' : Rows Cell) : Prop where
  location : ∀ l r, c (.location l) = some r → ∃ r', c' (.location l) = some r' ∧ Succeeds r r' ∧
    (r'.version = r.version →
      c' (.hours l) = c (.hours l) ∧ c' (.security l) = c (.security l))
  revision : ∀ l v rev, c (.revision l v) = some rev → c' (.revision l v) = some rev
  proposals : ProposalsFollow c c'

theorem ProposalsFollow.refl (c : Rows Cell) : ProposalsFollow c c :=
  fun _ p hp => ⟨p, hp, .refl p⟩

theorem ProposalsFollow.trans {c c' c'' : Rows Cell} (h : ProposalsFollow c c')
    (h' : ProposalsFollow c' c'') : ProposalsFollow c c'' := by
  intro j p hp
  obtain ⟨p', hp', hfollows⟩ := h j p hp
  obtain ⟨p'', hp'', hfollows'⟩ := h' j p' hp'
  exact ⟨p'', hp'', hfollows.trans hfollows'⟩

theorem Grows.refl (c : Rows Cell) : Grows c c :=
  ⟨fun _ r hr => ⟨r, hr, ⟨le_refl _, fun _ => rfl⟩, fun _ => ⟨rfl, rfl⟩⟩, fun _ _ _ h => h,
    .refl c⟩

theorem Grows.trans {c c' c'' : Rows Cell} (h : Grows c c') (h' : Grows c' c'') : Grows c c'' := by
  refine ⟨fun l r hr => ?_, fun l v rev hrev => h'.revision l v rev (h.revision l v rev hrev),
    h.proposals.trans h'.proposals⟩
  · obtain ⟨r', hr', ⟨hle, htracked⟩, hchildren⟩ := h.location l r hr
    obtain ⟨r'', hr'', ⟨hle', htracked'⟩, hchildren'⟩ := h'.location l r' hr'
    refine ⟨r'', hr'', ⟨hle.trans hle', fun heq => ?_⟩, fun heq => ?_⟩
    · have hmid : r'.version = r.version := by omega
      exact (htracked' (heq.trans hmid.symm)).trans (htracked hmid)
    · have hmid : r'.version = r.version := by omega
      obtain ⟨hhours, hsecurity⟩ := hchildren hmid
      obtain ⟨hhours', hsecurity'⟩ := hchildren' (heq.trans hmid.symm)
      exact ⟨hhours'.trans hhours, hsecurity'.trans hsecurity⟩

/-- The rows that draw an identity stand below the number. -/
def Fits (c : Rows Cell) (b : Nat) : Prop :=
  ∀ i, b ≤ i → c (.proposal i) = none ∧ c (.review i) = none

theorem fits_noRows (b : Nat) : Fits noRows b := fun _ _ => ⟨rfl, rfl⟩

/-- The discipline of the scripts: the lock on a location guards its child rows.
`keeps` says which changes a connection puts up with that relies on a key. -/
def discipline (keeps : Key → Rows Cell → Rows Cell → Prop) (hrefl : ∀ k c, keeps k c c)
    (htrans : ∀ k c c' c'', keeps k c c' → keeps k c' c'' → keeps k c c'') :
    Discipline Cell where
  guard := Key.guard
  keeps := keeps
  grows := Grows
  fits := Fits
  keeps_refl := hrefl
  keeps_trans := htrans
  grows_refl := .refl
  grows_trans _ _ _ := Grows.trans
  fits_succ _ _ h i hi := h i (Nat.le_of_succ_le hi)

/-- The discipline is that of the scripts, as the connection with the identity `n`
sees it. -/
structure Standard (D : Discipline Cell) (n : Nat) : Prop where
  guard : D.guard = Key.guard
  grows : ∀ {c c'}, D.grows c c' → Grows c c'
  fits : ∀ {c b}, D.fits c b → Fits c b
  serial : ∀ {c b}, D.fits c b → n < b

/-! ## The rules of the statements -/

section Rules

variable {α : Type} {D : Discipline Cell} {u : ε} {since : Rows Cell} {locks relied : List Key}
  {F : Rows Cell → Rows Cell} {c : Rows Cell} {s : Connection Cell}

/-- The location and its child rows are the same. -/
def Kept (id : Nat) (c c' : Rows Cell) : Prop := ∀ k, k.guard = .location id → c' k = c k

theorem Kept.trans {id : Nat} {c c' c'' : Rows Cell} (h : Kept id c c') (h' : Kept id c' c'') :
    Kept id c c'' :=
  fun k hk => (h' k hk).trans (h k hk)

/-- Who locks a location finds it as it was. -/
theorem Kept.of {c' : Rows Cell} {id : Nat} (hD : D.guard = Key.guard)
    (hid : .location id ∈ locks) (h : Undisturbed D locks relied c c') : Kept id c c' := by
  intro k hk
  refine h.held k ?_
  rw [hD, hk]
  exact hid

/-- A statement that only reads. -/
theorem Safe.select {G : Rows Cell → Rows Cell → Rows Cell → Script ε α → Prop}
    {Q : α → Rows Cell → Connection Cell → Prop} {g : Connection Cell → α}
    (hs : Inside D since locks relied F s)
    (h : ∀ c' s', Undisturbed D locks relied c c' → D.fits c' s'.bound →
      Inside D (sinceOf locks c' since) locks relied F s' → s'.rows = F c' → Q (g s') c' s') :
    Safe D G Q (.request u (select g)) c s := by
  refine Safe.statement hs fun c' s' a after hsame hfits hs' hrows hf => ?_
  obtain ⟨rfl, rfl⟩ := Prod.mk.inj (Except.ok.inj hf)
  exact ⟨hs'.isOpen, h c' s' hsame hfits hs' hrows⟩

theorem Safe.insertLocation {G : Rows Cell → Rows Cell → Rows Cell → Script ε Nat → Prop}
    {Q : Nat → Rows Cell → Connection Cell → Prop} {conflict : ε} {id : Nat}
    {r : ParkingLocation} (hD : D.guard = Key.guard) (hs : Inside D since locks relied F s)
    (h : ∀ c' s', Undisturbed D locks relied c c' → F c' (.location id) = none →
      Inside D (sinceOf locks c' since) (.location id :: locks) relied
        (fun c => Function.update (F c) (.location id) (some r)) s' → Q id c' s') :
    Safe D G Q (.request u (insertLocation conflict id r)) c s := by
  refine Safe.statement hs fun c' s' a after hsame _ hs' hrows hf => ?_
  simp only [Store.insertLocation, hrows] at hf
  split at hf
  · cases hf
  · rename_i hnone
    obtain ⟨rfl, rfl⟩ := Prod.mk.inj (Except.ok.inj hf)
    have hin := (hs'.lock (.location id)).write (k := .location id) (some r)
      (by rw [hD]; exact List.mem_cons_self ..)
    exact ⟨hin.isOpen, h c' _ hsame hnone hin⟩

theorem Safe.lockLocation {G : Rows Cell → Rows Cell → Rows Cell → Script ε (Option ParkingLocation) → Prop}
    {Q : Option ParkingLocation → Rows Cell → Connection Cell → Prop} {id : Nat}
    (hs : Inside D since locks relied F s) (hnone : ∀ c' s', Q none c' s')
    (h : ∀ c' s' r, Undisturbed D locks relied c c' → F c' (.location id) = some r →
      Inside D (sinceOf locks c' since) (.location id :: locks) relied F s' → Q (some r) c' s') :
    Safe D G Q (.request u (lockLocation id)) c s := by
  refine Safe.statement hs fun c' s' a after hsame _ hs' hrows hf => ?_
  simp only [Store.lockLocation, hrows] at hf
  split at hf
  · obtain ⟨rfl, rfl⟩ := Prod.mk.inj (Except.ok.inj hf)
    exact ⟨hs'.isOpen, hnone c' _⟩
  · rename_i r hr
    obtain ⟨rfl, rfl⟩ := Prod.mk.inj (Except.ok.inj hf)
    exact ⟨hs'.isOpen, h c' _ r hsame hr (hs'.lock _)⟩

theorem Safe.updateLocation
    {G : Rows Cell → Rows Cell → Rows Cell → Script ε (Option ParkingLocation) → Prop}
    {Q : Option ParkingLocation → Rows Cell → Connection Cell → Prop} {id : Nat}
    {p : ParkingLocation → Bool} {f : ParkingLocation → ParkingLocation}
    (hD : D.guard = Key.guard) (hs : Inside D since locks relied F s)
    (hnone : ∀ c' s', Undisturbed D locks relied c c' →
      Inside D (sinceOf locks c' since) locks relied F s' →
      (∀ r, F c' (.location id) = some r → p r = false) → Q none c' s')
    (h : ∀ c' s' r, Undisturbed D locks relied c c' → F c' (.location id) = some r →
      p r = true → Inside D (sinceOf locks c' since) (.location id :: locks) relied
        (fun c => Function.update (F c) (.location id) (some (f r))) s' → Q (some (f r)) c' s') :
    Safe D G Q (.request u (updateLocation id p f)) c s := by
  refine Safe.statement hs fun c' s' a after hsame _ hs' hrows hf => ?_
  simp only [Store.updateLocation, hrows] at hf
  split at hf
  · rename_i hr
    obtain ⟨rfl, rfl⟩ := Prod.mk.inj (Except.ok.inj hf)
    exact ⟨hs'.isOpen, hnone c' _ hsame hs' (by simp [hr])⟩
  · rename_i r hr
    split at hf
    · rename_i hp
      obtain ⟨rfl, rfl⟩ := Prod.mk.inj (Except.ok.inj hf)
      have hin := (hs'.lock (.location id)).write (k := .location id) (some (f r))
        (by rw [hD]; exact List.mem_cons_self ..)
      exact ⟨hin.isOpen, h c' _ r hsame hr hp hin⟩
    · rename_i hp
      obtain ⟨rfl, rfl⟩ := Prod.mk.inj (Except.ok.inj hf)
      exact ⟨hs'.isOpen, hnone c' _ hsame hs' (by simpa [hr] using hp)⟩

/-- A statement that writes one row whose guard is locked. -/
theorem Safe.write {G : Rows Cell → Rows Cell → Rows Cell → Script ε Unit → Prop}
    {Q : Unit → Rows Cell → Connection Cell → Prop} {k : Key}
    {v : Rows Cell → Except ε (Cell k)} (hk : D.guard k ∈ locks)
    (hs : Inside D since locks relied F s)
    (h : ∀ c' s' x, Undisturbed D locks relied c c' → v (F c') = .ok x →
      Inside D since locks relied (fun c => Function.update (F c) k x) s' → Q () c' s') :
    Safe D G Q (.request u (write k v)) c s := by
  refine Safe.statement hs fun c' s' a after hsame _ hs' hrows hf => ?_
  rw [Store.write, hrows] at hf
  cases hv : v (F c') with
  | error e =>
    rw [hv] at hf
    cases hf
  | ok x =>
    rw [hv] at hf
    rw [sinceOf_of_mem hk] at hs'
    obtain ⟨rfl, rfl⟩ := Prod.mk.inj (Except.ok.inj hf)
    exact ⟨hs'.isOpen, h c' _ x hsame hv (hs'.write x hk)⟩

theorem Safe.insertRevision {G : Rows Cell → Rows Cell → Rows Cell → Script ε Unit → Prop}
    {Q : Unit → Rows Cell → Connection Cell → Prop} {conflict : ε} {id : Nat}
    {rev : ParkingRevision} (hD : D.guard = Key.guard) (hid : .location id ∈ locks)
    (hs : Inside D since locks relied F s)
    (h : ∀ c' s', Undisturbed D locks relied c c' → F c' (.revision id rev.version) = none →
      Inside D since (.revision id rev.version :: locks) relied
        (fun c => Function.update (F c) (.revision id rev.version) (some rev)) s' → Q () c' s') :
    Safe D G Q (.request u (insertRevision conflict id rev)) c s := by
  refine Safe.statement hs fun c' s' a after hsame _ hs' hrows hf => ?_
  rw [sinceOf_of_mem hid] at hs'
  simp only [Store.insertRevision, hrows] at hf
  split at hf
  · cases hf
  · rename_i hnone
    obtain ⟨rfl, rfl⟩ := Prod.mk.inj (Except.ok.inj hf)
    have hin := (hs'.lock (.revision id rev.version)).write (k := .revision id rev.version)
      (some rev) (by rw [hD]; exact List.mem_cons_of_mem _ hid)
    exact ⟨hin.isOpen, h c' _ hsame hnone hin⟩

theorem Safe.lockProposal {G : Rows Cell → Rows Cell → Rows Cell → Script ε (Option ParkingProposal) → Prop}
    {Q : Option ParkingProposal → Rows Cell → Connection Cell → Prop} {id : Nat}
    (hs : Inside D since locks relied F s) (hnone : ∀ c' s', Q none c' s')
    (h : ∀ c' s' p, Undisturbed D locks relied c c' → F c' (.proposal id) = some p →
      Inside D (sinceOf locks c' since) (.proposal id :: locks) relied F s' → Q (some p) c' s') :
    Safe D G Q (.request u (lockProposal id)) c s := by
  refine Safe.statement hs fun c' s' a after hsame _ hs' hrows hf => ?_
  simp only [Store.lockProposal, hrows] at hf
  split at hf
  · obtain ⟨rfl, rfl⟩ := Prod.mk.inj (Except.ok.inj hf)
    exact ⟨hs'.isOpen, hnone c' _⟩
  · rename_i p hp
    obtain ⟨rfl, rfl⟩ := Prod.mk.inj (Except.ok.inj hf)
    exact ⟨hs'.isOpen, h c' _ p hsame hp (hs'.lock _)⟩

theorem Safe.updateProposal {G : Rows Cell → Rows Cell → Rows Cell → Script ε Nat → Prop}
    {Q : Nat → Rows Cell → Connection Cell → Prop} {id : Nat} {p : ParkingProposal → Bool}
    {f : ParkingProposal → ParkingProposal} (hD : D.guard = Key.guard)
    (hs : Inside D since locks relied F s)
    (hnone : ∀ c' s', Undisturbed D locks relied c c' →
      Inside D (sinceOf locks c' since) locks relied F s' →
      (∀ r, F c' (.proposal id) = some r → p r = false) → Q 0 c' s')
    (h : ∀ c' s' r, Undisturbed D locks relied c c' → F c' (.proposal id) = some r →
      p r = true → Inside D (sinceOf locks c' since) (.proposal id :: locks) relied
        (fun c => Function.update (F c) (.proposal id) (some (f r))) s' → Q 1 c' s') :
    Safe D G Q (.request u (updateProposal id p f)) c s := by
  refine Safe.statement hs fun c' s' a after hsame _ hs' hrows hf => ?_
  simp only [Store.updateProposal, hrows] at hf
  split at hf
  · rename_i hr
    obtain ⟨rfl, rfl⟩ := Prod.mk.inj (Except.ok.inj hf)
    exact ⟨hs'.isOpen, hnone c' _ hsame hs' (by simp [hr])⟩
  · rename_i r hr
    split at hf
    · rename_i hp
      obtain ⟨rfl, rfl⟩ := Prod.mk.inj (Except.ok.inj hf)
      have hin := (hs'.lock (.proposal id)).write (k := .proposal id) (some (f r))
        (by rw [hD]; exact List.mem_cons_self ..)
      exact ⟨hin.isOpen, h c' _ r hsame hr hp hin⟩
    · rename_i hp
      obtain ⟨rfl, rfl⟩ := Prod.mk.inj (Except.ok.inj hf)
      exact ⟨hs'.isOpen, hnone c' _ hsame hs' (by simpa [hr] using hp)⟩

end Rules

end BikesNest.Store
