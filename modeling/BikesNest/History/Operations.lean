import BikesNest.Community.Contribution
import BikesNest.Moderation.Actions

/-!
# The system of the history of a location

A database whose connections run the operations that write locations, revisions
and proposals, and `details`, which reads a location without a transaction.

* `effect` says what the commit of an operation changes, and `Turn` what that
  is to a location: nothing, or a new version with its revision.
* `historyContract` is the contract of the scripts.  `HistoryRun` is a run of
  the system, and the lemmas about it carry the invariants of the modules that
  follow.
-/

namespace BikesNest.History

open Domain Community Moderation Store Transactions Runs

/-! ## The operations -/

/-- What `details` reads of a location. -/
structure Details where
  row : ParkingLocation
  hours : List HourRow
  security : List SecurityRow

/-- `ORDER BY day_of_week, opens_at`. -/
def hoursInOrder (rows : List HourRow) : List HourRow :=
  rows.insertionSort fun x y =>
    x.dayOfWeek < y.dayOfWeek ∨ (x.dayOfWeek = y.dayOfWeek ∧ x.opensAt ≤ y.opensAt)

/-- `ORDER BY feature_code`. -/
def securityInOrder (rows : List SecurityRow) : List SecurityRow :=
  rows.insertionSort fun x y => x.featureCode ≤ y.featureCode

inductive StoreError where
  | contribution (e : ContributionError)
  | moderation (e : ModerationError)
  | reader

inductive Answer where
  | done
  | id (n : Nat)
  | version (v : Int)
  | details (d : Option Details)

/-- `SqlxParkingDetailsReader::details`, up to the decoding of what it reads: three
statements, each for itself. -/
def details (id : Nat) : Script StoreError (Option Details) := do
  let row ← .request .reader (select fun s => s.rows (.location id))
  match row with
  | none => return none
  | some row =>
    let hours ← .request .reader (select fun s => hoursInOrder (s.rows (.hours id)))
    let security ← .request .reader (select fun s => securityInOrder (s.rows (.security id)))
    return some { row, hours, security }

/-- The operations with their arguments. -/
inductive Op where
  | create (new : NewParkingLocation) (creator : UserId) (now clock : Instant)
  | applyEdit (id : Nat) (expectedVersion : Int) (edit : ParkingEdit) (editor : UserId)
      (now clock : Instant)
  | setParkingState (id : Nat) (source : List ModerationState) (target : ModerationState)
      (moderator : UserId) (clock : Instant)
  | approveProposal (id : Nat) (moderator : UserId) (applied : ProposalApplication)
      (clock : Instant)
  | createProposal (p : NewProposal) (clock : Instant)
  | rejectProposal (id : Nat) (moderator : UserId) (clock : Instant)
  | details (id : Nat)

/-- The script of an operation with its errors and its answer. -/
def answer {ε α : Type} (g : ε → StoreError) (f : α → Answer) (m : Script ε α) :
    Script StoreError Answer :=
  m.mapErr g >>= fun a => pure (f a)

def Op.script : Op → Nat → Script StoreError Answer
  | .create new creator now clock, n =>
    answer .contribution .id (Community.create n new creator now clock)
  | .applyEdit id v edit editor now clock, _ =>
    answer .contribution .version (Community.applyEdit id v edit editor now clock)
  | .setParkingState id source target moderator clock, _ =>
    answer .moderation (fun _ => .done) (setParkingStateTx id source target moderator clock)
  | .approveProposal id moderator applied clock, _ =>
    answer .moderation (fun _ => .done) (Moderation.approveProposal id moderator applied clock)
  | .createProposal p clock, n =>
    answer .contribution .id (Community.createProposal n p clock)
  | .rejectProposal id moderator clock, _ =>
    answer .moderation (fun _ => .done) (Moderation.rejectProposal id moderator clock)
  | .details id, _ => answer (fun e => e) .details (History.details id)

/-- The database with its connections. -/
abbrev HistorySystem := System Cell Op StoreError Answer

/-- A connection of it. -/
abbrev HistoryProcess := Process Cell Op StoreError Answer

/-- A step of it. -/
abbrev HistoryStep : HistorySystem → Label Op → HistorySystem → Prop := System.Step Op.script

/-! ## What a commit changes -/

/-- What the commit of an operation changes. -/
def Effect (op : Op) (n : Nat) (since c c' : Rows Cell) : Prop :=
  match op with
  | .create new creator now clock => Created n new creator now clock c c'
  | .applyEdit id v edit editor now clock => Edited id v edit editor now clock c c'
  | .setParkingState id source target moderator clock =>
    ∃ r, source.contains r.moderationState = true ∧
      (∀ j, c' (.proposal j) = c (.proposal j)) ∧
      Moderated id (·.withState target) moderator "moderated" clock r c c'
  | .approveProposal id moderator applied clock =>
    ∃ p r, Approved id moderator applied clock p r since c c'
  | .createProposal p clock => Proposed n p clock c c'
  | .rejectProposal id moderator clock => Rejected id moderator clock c c'
  | .details _ => c' = c

/-- A location, its child rows and its revisions. -/
def isTracked : Key → Bool
  | .location _ => true
  | .hours _ => true
  | .security _ => true
  | .revision _ _ => true
  | _ => false

/-- The location `l` gets its next version, `row`, and the revision `rev` of it;
no other location changes. -/
structure Revised (l : Nat) (row : ParkingLocation) (rev : ParkingRevision) (c c' : Rows Cell) :
    Prop where
  next : (c (.location l) = none ∧ row.version = 1) ∨
    ∃ r, c (.location l) = some r ∧ row.version = r.version + 1
  version : rev.version = row.version
  vacant : c (.revision l row.version) = none
  location : c' (.location l) = some row
  revision : c' (.revision l row.version) = some rev
  revisions : ∀ v, v ≠ row.version → c' (.revision l v) = c (.revision l v)
  others : ∀ k, isTracked k = true → k.guard ≠ .location l → c' k = c k

/-- What a commit is to the locations. -/
inductive Turn (c c' : Rows Cell) : Prop where
  | kept (h : ∀ k, isTracked k = true → c' k = c k)
  | revised (l : Nat) (row : ParkingLocation) (rev : ParkingRevision) (h : Revised l row rev c c')

section Effect

variable {op : Op} {n b : Nat} {since c c' : Rows Cell}

theorem Revised.of_revise {l : Nat} {row : ParkingLocation} {hours : List HourRow}
    {security : List SecurityRow} {rev : ParkingRevision}
    (h : ∀ k, isTracked k = true → c' k = revise c l row hours security rev k)
    (hnext : (c (.location l) = none ∧ row.version = 1) ∨
      ∃ r, c (.location l) = some r ∧ row.version = r.version + 1)
    (hversion : rev.version = row.version) (hvacant : c (.revision l row.version) = none) :
    Revised l row rev c c' where
  next := hnext
  version := hversion
  vacant := hvacant
  location := by
    rw [h _ rfl]
    simp [revise]
  revision := by
    rw [h _ rfl, ← hversion]
    simp [revise]
  revisions v hv := by
    rw [h _ rfl]
    simp [revise, hversion, hv]
  others k hk hguard := by
    rw [h k hk]
    have hne : ∀ k', k'.guard = .location l → k ≠ k' := fun k' hk' heq => hguard (heq ▸ hk')
    rw [revise, Function.update_of_ne (hne _ rfl), Function.update_of_ne (hne _ rfl),
      Function.update_of_ne (hne _ rfl), Function.update_of_ne (hne _ rfl)]

/-- A step that leaves the child rows as they are. -/
theorem revise_children (c : Rows Cell) (l : Nat) (row : ParkingLocation)
    (rev : ParkingRevision) :
    revise c l row (c (.hours l)) (c (.security l)) rev = amend c l row rev := by
  have hhours : Function.update (Function.update c (.location l) (some row)) (.hours l)
      (c (.hours l)) = Function.update c (.location l) (some row) := by
    rw [Function.update_eq_self_iff]
    simp
  have hsecurity : Function.update (Function.update c (.location l) (some row)) (.security l)
      (c (.security l)) = Function.update c (.location l) (some row) := by
    rw [Function.update_eq_self_iff]
    simp
  rw [revise, hhours, hsecurity, amend]

/-- A moderation step is a revision that leaves the child rows as they are. -/
theorem rows_of_moderated {id : Nat} {change : ParkingLocation → ParkingLocation}
    {moderator : UserId} {summary : String} {clock : Instant} {r : ParkingLocation}
    (h : Moderated id change moderator summary clock r c c') {k : Key}
    (hk : isTracked k = true) :
    c' k = revise c id (change r) (c (.hours id)) (c (.security id))
      (moderationRevision (change r) moderator summary
        (snapshotWith (change r) (c (.hours id)) (c (.security id))) clock) k := by
  rw [revise_children]
  exact h.rows k (by rintro j rfl; cases hk)

theorem revised_of_moderated {id : Nat} {change : ParkingLocation → ParkingLocation}
    {moderator : UserId} {summary : String} {clock : Instant} {r : ParkingLocation}
    (h : Moderated id change moderator summary clock r c c')
    (hchange : (change r).version = r.version + 1) :
    Revised id (change r) (moderationRevision (change r) moderator summary
      (snapshotWith (change r) (c (.hours id)) (c (.security id))) clock) c c' :=
  Revised.of_revise (fun _ hk => rows_of_moderated h hk) (.inr ⟨r, h.row, hchange⟩) rfl h.vacant

theorem version_apply (applied : ProposalApplication) (r : ParkingLocation) :
    (applied.apply r).version = r.version + 1 := by
  cases applied <;> rfl

/-- Every commit leaves the locations as they are, or gives one of them its next
version. -/
theorem effect_turn (h : Effect op n since c c') : Turn c c' := by
  cases op with
  | create new creator now clock =>
    obtain ⟨tz, hours, _, _, hvacant, hfresh, rfl⟩ := h
    exact .revised _ _ _ (.of_revise (fun _ _ => rfl) (.inl ⟨hvacant, rfl⟩) rfl hfresh)
  | applyEdit id v edit editor now clock =>
    obtain ⟨r, hours, hr, _, _, _, hfresh, rfl⟩ := h
    exact .revised _ _ _ (.of_revise (fun _ _ => rfl) (.inr ⟨r, hr, rfl⟩) rfl hfresh)
  | setParkingState id source target moderator clock =>
    obtain ⟨r, _, _, h⟩ := h
    exact .revised _ _ _ (revised_of_moderated h rfl)
  | approveProposal id moderator applied clock =>
    obtain ⟨p, r, h⟩ := h
    exact .revised _ _ _ (revised_of_moderated h.moderated (version_apply applied r))
  | createProposal p clock =>
    obtain ⟨_, rfl⟩ := h
    exact .kept fun k hk => Function.update_of_ne (by rintro rfl; cases hk) ..
  | rejectProposal id moderator clock =>
    obtain ⟨p, _, _, rfl⟩ := h
    exact .kept fun k hk => Function.update_of_ne (by rintro rfl; cases hk) ..
  | details id =>
    obtain rfl := h
    exact .kept fun _ _ => rfl

theorem proposalsFollow_of_eq (h : ∀ j, c' (.proposal j) = c (.proposal j)) :
    ProposalsFollow c c' :=
  fun j p hp => ⟨p, (h j).trans hp, .refl p⟩

/-- A commit decides pending proposals only. -/
theorem effect_proposals (h : Effect op n since c c') : ProposalsFollow c c' := by
  cases op with
  | create new creator now clock =>
    obtain ⟨tz, hours, _, _, _, _, rfl⟩ := h
    exact proposalsFollow_of_eq fun j => by simp [revise]
  | applyEdit id v edit editor now clock =>
    obtain ⟨r, hours, _, _, _, _, _, rfl⟩ := h
    exact proposalsFollow_of_eq fun j => by simp [revise]
  | setParkingState id source target moderator clock =>
    obtain ⟨_, _, hsame, _⟩ := h
    exact proposalsFollow_of_eq hsame
  | approveProposal id moderator applied clock =>
    obtain ⟨p, r, h⟩ := h
    intro j q hq
    by_cases hj : j = id
    · subst hj
      obtain rfl := Option.some.inj (h.proposal.symm.trans hq)
      exact ⟨_, h.resolved.approved, rfl, rfl, .inl h.pending⟩
    · rcases h.resolved.siblings j hj with heq | ⟨q', hq', _, hpending, heq⟩
      · exact ⟨q, heq.trans hq, .refl q⟩
      · obtain rfl := Option.some.inj (hq'.symm.trans hq)
        exact ⟨_, heq, rfl, rfl, .inl hpending⟩
  | createProposal p clock =>
    obtain ⟨hvacant, rfl⟩ := h
    intro j q hq
    have hj : j ≠ n := by
      rintro rfl
      rw [hvacant] at hq
      cases hq
    exact ⟨q, by rw [Function.update_of_ne (by simpa using hj), hq], .refl q⟩
  | rejectProposal id moderator clock =>
    obtain ⟨p, hp, hpending, rfl⟩ := h
    intro j q hq
    by_cases hj : j = id
    · subst hj
      obtain rfl := Option.some.inj (hp.symm.trans hq)
      exact ⟨_, Function.update_self .., rfl, rfl, .inl hpending⟩
    · exact ⟨q, by rw [Function.update_of_ne (by simpa using hj), hq], .refl q⟩
  | details id =>
    obtain rfl := h
    exact .refl _

/-- The rows grow with a commit. -/
theorem grows_of_turn (hturn : Turn c c') (hproposals : ProposalsFollow c c') : Grows c c' := by
  cases hturn with
  | kept h =>
    refine ⟨fun l r hr => ⟨r, (h _ rfl).trans hr, ⟨le_refl _, fun _ => rfl⟩, fun _ =>
      ⟨h _ rfl, h _ rfl⟩⟩, fun l v rev hrev => (h _ rfl).trans hrev, hproposals⟩
  | revised l row rev h =>
    refine ⟨fun l' r hr => ?_, fun l' v rev' hrev => ?_, hproposals⟩
    · by_cases hl : l' = l
      · subst hl
        have hversion : row.version = r.version + 1 := by
          rcases h.next with ⟨hnone, _⟩ | ⟨r', hr', hversion⟩
          · rw [hnone] at hr
            cases hr
          · obtain rfl := Option.some.inj (hr'.symm.trans hr)
            exact hversion
        exact ⟨row, h.location, ⟨by omega, fun _ => by omega⟩, fun _ => by omega⟩
      · have hother : ∀ k, isTracked k = true → k.guard = .location l' → c' k = c k :=
          fun k hk hguard => h.others k hk (by simpa [hguard] using hl)
        exact ⟨r, (hother _ rfl rfl).trans hr, ⟨le_refl _, fun _ => rfl⟩, fun _ =>
          ⟨hother _ rfl rfl, hother _ rfl rfl⟩⟩
    · by_cases hl : l' = l
      · subst hl
        have hv : v ≠ row.version := by
          rintro rfl
          rw [h.vacant] at hrev
          cases hrev
        rw [h.revisions v hv, hrev]
      · rw [h.others _ rfl (by simpa [Key.guard] using hl), hrev]

/-- The identities stay below the number. -/
theorem effect_fits (h : Effect op n since c c') (hn : n < b) (hfits : Fits c b) :
    Fits c' b := by
  intro i hi
  obtain ⟨hproposal, hreview⟩ := hfits i hi
  cases op with
  | create new creator now clock =>
    obtain ⟨tz, hours, _, _, _, _, rfl⟩ := h
    simpa [revise] using ⟨hproposal, hreview⟩
  | applyEdit id v edit editor now clock =>
    obtain ⟨r, hours, _, _, _, _, _, rfl⟩ := h
    simpa [revise] using ⟨hproposal, hreview⟩
  | setParkingState id source target moderator clock =>
    obtain ⟨_, _, hsame, h⟩ := h
    rw [hsame, h.rows _ (by simp)]
    simpa [amend] using ⟨hproposal, hreview⟩
  | approveProposal id moderator applied clock =>
    obtain ⟨p, r, h⟩ := h
    refine ⟨?_, ?_⟩
    · by_cases hj : i = id
      · subst hj
        rw [h.proposal] at hproposal
        cases hproposal
      · rcases h.resolved.siblings i hj with heq | ⟨q, hq, _⟩
        · rw [heq, hproposal]
        · rw [hq] at hproposal
          cases hproposal
    · rw [h.moderated.rows _ (by simp)]
      simpa [amend] using hreview
  | createProposal p clock =>
    obtain ⟨_, rfl⟩ := h
    have hne : i ≠ n := by omega
    simpa [hne] using ⟨hproposal, hreview⟩
  | rejectProposal id moderator clock =>
    obtain ⟨p, hp, _, rfl⟩ := h
    have hne : i ≠ id := by
      rintro rfl
      rw [hp] at hproposal
      cases hproposal
    simpa [hne] using ⟨hproposal, hreview⟩
  | details id =>
    obtain rfl := h
    exact ⟨hproposal, hreview⟩

end Effect

/-! ## The contract of the scripts -/

/-- What an answer says of the rows that are committed then. -/
def Outcome (op : Op) (_ : Nat) (a : Answer) (c : Rows Cell) : Prop :=
  match op with
  | .applyEdit id v _ _ _ _ => ∃ r, c (.location id) = some r ∧ v < r.version
  | .approveProposal id _ _ _ => ∃ p r, c (.proposal id) = some p ∧
    c (.location p.locationId) = some r ∧ p.baseVersion < r.version
  | .details id => ∀ d, a = .details (some d) → ∃ c₁ c₂, Grows c₁ c₂ ∧ Grows c₂ c ∧
    c₁ (.location id) = some d.row ∧ d.hours = hoursInOrder (c₂ (.hours id)) ∧
    d.security = securityInOrder (c (.security id))
  | _ => True

/-- Nobody relies on what it has read without a lock. -/
def historyDiscipline : Discipline Cell :=
  discipline (fun _ _ _ => True) (fun _ _ => trivial) fun _ _ _ _ _ _ => trivial

/-- An operation commits once, with its answer. -/
def historyGuarantee (op : Op) (n : Nat) :
    Rows Cell → Rows Cell → Rows Cell → Script StoreError Answer → Prop :=
  Once fun _ => Effect op n

section Contract

variable {ε α : Type} {D : Discipline Cell} {op : Op} {n : Nat} {c : Rows Cell}
  {s : Connection Cell}

theorem standard_historyDiscipline (n : Nat) : Standard (historyDiscipline.own n) n :=
  ⟨rfl, fun h => h, fun h => h.1, fun h => h.2⟩

/-- The script of an operation is safe when the script of the repository is. -/
theorem answer_safe {g : ε → StoreError} {f : α → Answer} {m : Script ε α}
    (h : Safe D (fun since c c' rest => historyGuarantee op n since c c'
        (rest.mapErr g >>= fun a => pure (f a)))
      (fun a => Answers Outcome op n (f a)) m c s) :
    Safe D (historyGuarantee op n) (Answers Outcome op n) (answer g f m) c s := by
  rw [answer, safe_bind, safe_mapErr]
  exact h

/-- A statement that fails commits nothing. -/
theorem once_throw {E : Answer → Rows Cell → Rows Cell → Rows Cell → Prop} {since : Rows Cell}
    {e : StoreError} : Once E since c c (Service.throw e : Script StoreError Answer) :=
  .inl ⟨rfl, fun a h => by cases h⟩

/-- A call that changes nothing. -/
theorem guarantee_details (id n : Nat) (since c : Rows Cell) (rest : Script StoreError Answer) :
    historyGuarantee (.details id) n since c c rest := by
  by_cases h : ∃ a, rest = pure a
  · obtain ⟨a, rfl⟩ := h
    exact .inr ⟨a, rfl, rfl⟩
  · exact .inl ⟨rfl, fun a ha => h ⟨a, ha⟩⟩

/-- The three statements see rows that grow from one to the next. -/
theorem details_safe (id : Nat) (hs : Outside [] s) :
    Safe (historyDiscipline.own n)
      (fun since c c' rest => historyGuarantee (.details id) n since c c'
        (rest.mapErr (fun e => e) >>= fun a => pure (.details a)))
      (fun d => Answers Outcome (.details id) n (.details d)) (details id) c s := by
  rw [details, safe_bind]
  refine Safe.read hs (fun _ _ _ => guarantee_details ..) (fun _ _ _ => guarantee_details ..)
    fun c₁ s₁ s₁' _ _ hrows₁ hs₁ => ?_
  rw [hrows₁]
  cases hrow : c₁ (.location id) with
  | none => exact ⟨hs₁.isOpen, fun d hd => by cases hd⟩
  | some row =>
    dsimp only
    rw [safe_bind]
    refine Safe.read hs₁ (fun _ _ _ => guarantee_details ..) (fun _ _ _ => guarantee_details ..)
      fun c₂ s₂ s₂' hsame₂ _ hrows₂ hs₂ => ?_
    rw [safe_bind]
    refine Safe.read hs₂ (fun _ _ _ => guarantee_details ..) (fun _ _ _ => guarantee_details ..)
      fun c₃ s₃ s₃' hsame₃ _ hrows₃ hs₃ => ⟨hs₃.isOpen, fun d hd => ?_⟩
    obtain rfl := Option.some.inj (Answer.details.inj hd)
    exact ⟨c₁, c₂, hsame₂.grows, hsame₃.grows, hrow, by rw [hrows₂], by rw [hrows₃]⟩

theorem historyContract :
    Contract historyDiscipline historyGuarantee Outcome Op.script where
  grows h := by
    rcases h.effect with rfl | ⟨_, h⟩
    · exact Grows.refl _
    · exact grows_of_turn (effect_turn h) (effect_proposals h)
  fits h hn hfits := by
    rcases h.effect with rfl | ⟨_, h⟩
    · exact hfits
    · exact effect_fits h hn hfits
  safe op n c b := by
    have hs := Outside.idle c b
    have hD := standard_historyDiscipline n
    cases op with
    | create new creator now clock =>
      exact answer_safe (create_safe hD.guard hs n new creator now clock
        (fun a _ _ _ h => .inr ⟨.id a, rfl, h⟩) fun _ _ _ _ _ hout => ⟨hout.isOpen, trivial⟩)
    | applyEdit id v edit editor now clock =>
      refine answer_safe (applyEdit_safe hD.guard hs id v edit editor now clock
        (fun a _ _ _ h => .inr ⟨.version a, rfl, h⟩) fun a c c' s' h hout => ⟨hout.isOpen, ?_⟩)
      obtain ⟨r, hours, _, _, hv, _, _, rfl⟩ := h
      exact ⟨edit.apply now r, by simp [revise], by simp [ParkingEdit.apply, hv]⟩
    | setParkingState id source target moderator clock =>
      exact answer_safe (setParkingStateTx_safe hD.guard hs id source target moderator clock
        (P := Effect (.setParkingState id source target moderator clock) n c)
        (fun _ _ r hsource hsame h => ⟨r, hsource, hsame, h⟩)
        (fun _ _ _ _ h => .inr ⟨.done, rfl, h⟩) fun _ _ _ _ _ hout => ⟨hout.isOpen, trivial⟩)
    | approveProposal id moderator applied clock =>
      refine answer_safe (approveProposal_safe hD hs id moderator applied clock
        (P := Effect (.approveProposal id moderator applied clock) n)
        (fun _ _ _ p r h => ⟨p, r, h⟩)
        (fun _ _ _ _ h => .inr ⟨.done, rfl, h⟩) fun a since c c' s' h hout => ⟨hout.isOpen, ?_⟩)
      obtain ⟨p, r, h⟩ := h
      refine ⟨_, _, h.resolved.approved,
        (revised_of_moderated h.moderated (version_apply applied r)).location, ?_⟩
      rw [version_apply, ← h.version]
      exact Int.lt_succ _
    | createProposal p clock =>
      exact answer_safe (createProposal_safe hD.guard hs n p clock (fun _ _ _ => once_throw)
        (fun a _ _ _ _ h => .inr ⟨.id a, rfl, h⟩) fun _ _ _ _ _ hout => ⟨hout.isOpen, trivial⟩)
    | rejectProposal id moderator clock =>
      exact answer_safe (rejectProposal_safe hD.guard hs id moderator clock
        (fun _ _ _ => once_throw)
        (fun _ _ _ _ h => .inr ⟨.done, rfl, h⟩) fun _ _ _ _ _ hout => ⟨hout.isOpen, trivial⟩)
    | details id => exact answer_safe (details_safe id hs)

end Contract

theorem details_strict (id : Nat) : (details id).Strict := by
  refine .bind (.request _ _) fun row => ?_
  cases row with
  | none => trivial
  | some row => exact .bind (.request _ _) fun _ => .bind (.request _ _) fun _ => .pure _

theorem script_strict (op : Op) (n : Nat) : (op.script n).Strict := by
  have hanswer : ∀ {ε α : Type} {g : ε → StoreError} {f : α → Answer} {m : Script ε α},
      m.Strict → (answer g f m).Strict := fun h => .bind (.mapErr h) fun _ => .pure _
  cases op with
  | create => exact hanswer (create_strict ..)
  | applyEdit => exact hanswer (applyEdit_strict ..)
  | setParkingState => exact hanswer (setParkingStateTx_strict ..)
  | approveProposal => exact hanswer (approveProposal_strict ..)
  | createProposal => exact hanswer (.request _ _)
  | rejectProposal => exact hanswer (rejectProposal_strict ..)
  | details id => exact hanswer (details_strict id)

/-! ## Runs -/

/-- A run of the system from rows `c` that fit the number `n`, without connections
at first. -/
abbrev HistoryRun (c : Rows Cell) (n : Nat) (ls : List (Label Op)) (s : HistorySystem) : Prop :=
  Run HistoryStep ⟨c, n, []⟩ ls s

/-- Every connection keeps to its contract, and a failed statement is an error. -/
structure Regular (s : HistorySystem) : Prop where
  sound : Sound historyDiscipline historyGuarantee Outcome s
  strict : AllStrict s

section Runs

variable {c : Rows Cell} {n : Nat} {ls : List (Label Op)} {l : Label Op} {s s' : HistorySystem}

theorem Regular.start (h : Fits c n) : Regular ⟨c, n, []⟩ :=
  ⟨.of_nil h, fun i p hp => by simp at hp⟩

theorem Regular.next (h : Regular s) (hstep : HistoryStep s l s') : Regular s' :=
  ⟨h.sound.next historyContract (fun _ _ _ _ _ _ _ _ _ _ => trivial) hstep,
    h.strict.next script_strict hstep⟩

theorem Regular.run (h : Regular s) (hrun : Run HistoryStep s ls s') : Regular s' :=
  hrun.invariant (fun _ _ _ hs hstep => hs.next hstep) h

/-- A step leaves the committed rows as they are or is the commit of an
operation. -/
theorem Regular.effect (h : Regular s) (hstep : HistoryStep s l s') :
    s'.committed = s.committed ∨ ∃ i p p' a, l = .exec i ∧ s.processes[i]? = some p ∧
      s'.processes[i]? = some p' ∧ p'.script = pure a ∧
      Effect p.op p.serial p'.conn.since s.committed s'.committed := by
  rcases h.sound.guarantee hstep with heq | ⟨i, p, p', hl, hp, hp', hG⟩
  · exact .inl heq
  · rcases hG with ⟨heq, _⟩ | ⟨a, hscript, heffect⟩
    · exact .inl heq
    · exact .inr ⟨i, p, p', a, hl, hp, hp', hscript, heffect⟩

/-- The committed rows grow over a run. -/
theorem Regular.grows (h : Regular s) (hrun : Run HistoryStep s ls s') :
    Grows s.committed s'.committed := by
  induction hrun with
  | nil => exact .refl _
  | cons hstep _ ih => exact (h.sound.grows historyContract hstep).trans (ih (h.next hstep))

/-- What every commit keeps, every run keeps. -/
theorem Regular.invariant (h : Regular s) {I : Rows Cell → Prop}
    (hI : ∀ op n since c c', Effect op n since c c' → I c → I c')
    (hrun : Run HistoryStep s ls s') (hs : I s.committed) : I s'.committed := by
  refine (hrun.invariant (I := fun s => Regular s ∧ I s.committed)
    (fun s l s' ⟨hs, hi⟩ hstep => ⟨hs.next hstep, ?_⟩) ⟨h, hs⟩).2
  rcases hs.effect hstep with heq | ⟨_, _, _, _, _, _, _, _, heffect⟩
  · rwa [heq]
  · exact hI _ _ _ _ _ heffect hi

end Runs

/-- A list of labels that the system accepts one after the other is a run of
it. -/
theorem historyRun_of_isSome {c : Rows Cell} {n : Nat} {ls : List (Label Op)}
    (h : (ls.foldlM (System.next Op.script) (⟨c, n, []⟩ : HistorySystem)).isSome = true) :
    ∃ s, HistoryRun c n ls s := by
  obtain ⟨s, hs⟩ := Option.isSome_iff_exists.mp h
  exact ⟨s, .of_foldlM hs⟩

end BikesNest.History
