import BikesNest.History.EditForm

/-!
# The life cycle of a proposal

A proposal is decided once.  `Applied` says of the committed rows that every
approved proposal stands for the revision that it has made, and that no two
approved proposals of a location have the same base version.
-/

namespace BikesNest.History

open Domain Community Moderation Store Transactions Runs

variable {c c' : Rows Cell} {op : Op} {n : Nat} {since : Rows Cell}

/-- The revision `rev` applied the proposal `p`. -/
structure AppliedBy (p : ParkingProposal) (rev : ParkingRevision) : Prop where
  version : rev.version = p.baseVersion + 1
  changeKind : rev.changeKind = .moderation
  summary : ∃ applied, rev.summary = ProposalApplication.summary applied

/-- Every approved proposal has been applied, to a version of its own. -/
structure Applied (c : Rows Cell) : Prop where
  label : ∀ l v rev, c (.revision l v) = some rev → rev.version = v
  revision : ∀ j p, c (.proposal j) = some p → p.status = .approved →
    ∃ rev, c (.revision p.locationId (p.baseVersion + 1)) = some rev ∧ AppliedBy p rev
  passed : ∀ j p, c (.proposal j) = some p → p.status = .approved →
    ∃ r, c (.location p.locationId) = some r ∧ p.baseVersion < r.version
  single : ∀ i j p q, c (.proposal i) = some p → c (.proposal j) = some q →
    p.status = .approved → q.status = .approved → p.locationId = q.locationId →
    p.baseVersion = q.baseVersion → i = j

/-- What a commit is to a proposal that stands as `p'` after it. -/
inductive ProposalTurn (j : Nat) (p' : ParkingProposal) (since c c' : Rows Cell) : Prop where
  | kept (h : c (.proposal j) = some p')
  | new (h : c (.proposal j) = none) (hstatus : p'.status = .pending)
  | dropped (hstatus : p'.status = .rejected ∨ p'.status = .superseded)
      (h : c (.proposal j) ≠ none)
  | approved (moderator : UserId) (applied : ProposalApplication) (clock : Instant)
      (p : ParkingProposal) (r : ParkingLocation)
      (h : Approved j moderator applied clock p r since c c')
      (hp' : p' = Moderation.approved p moderator clock)

theorem effect_proposal {j : Nat} {p' : ParkingProposal} (h : Effect op n since c c')
    (hp' : c' (.proposal j) = some p') : ProposalTurn j p' since c c' := by
  cases op with
  | create new creator now clock =>
    obtain ⟨tz, hours, _, _, _, _, rfl⟩ := h
    exact .kept (by simpa [revise] using hp')
  | applyEdit id v edit editor now clock =>
    obtain ⟨r, hours, _, _, _, _, _, rfl⟩ := h
    exact .kept (by simpa [revise] using hp')
  | setParkingState id source target moderator clock =>
    obtain ⟨_, _, hsame, _⟩ := h
    exact .kept ((hsame j).symm.trans hp')
  | approveProposal id moderator applied clock =>
    obtain ⟨p, r, h⟩ := h
    by_cases hj : j = id
    · subst hj
      obtain rfl := Option.some.inj (h.resolved.approved.symm.trans hp')
      exact .approved moderator applied clock p r h rfl
    · rcases h.resolved.siblings j hj with heq | ⟨q, hq, _, _, heq⟩
      · exact .kept (heq.symm.trans hp')
      · obtain rfl := Option.some.inj (heq.symm.trans hp')
        exact .dropped (.inr rfl) (by simp [hq])
  | createProposal p clock =>
    obtain ⟨hnone, rfl⟩ := h
    by_cases hj : j = n
    · subst hj
      rw [Function.update_self] at hp'
      obtain rfl := Option.some.inj hp'
      exact .new hnone rfl
    · rw [Function.update_of_ne (by simpa using hj)] at hp'
      exact .kept hp'
  | rejectProposal id moderator clock =>
    obtain ⟨p, hp, _, rfl⟩ := h
    by_cases hj : j = id
    · subst hj
      rw [Function.update_self] at hp'
      obtain rfl := Option.some.inj hp'
      exact .dropped (.inl rfl) (by simp [hp])
    · rw [Function.update_of_ne (by simpa using hj)] at hp'
      exact .kept hp'
  | details id =>
    obtain rfl := h
    exact .kept hp'

/-- An approved proposal was approved before the commit or is approved by it. -/
theorem effect_approved {j : Nat} {p' : ParkingProposal} (h : Effect op n since c c')
    (hp' : c' (.proposal j) = some p') (hstatus : p'.status = .approved) :
    c (.proposal j) = some p' ∨ ∃ moderator applied clock p r,
      Approved j moderator applied clock p r since c c' ∧
        p' = Moderation.approved p moderator clock := by
  cases effect_proposal h hp' with
  | kept hold => exact .inl hold
  | new _ hpending => simp [hpending] at hstatus
  | dropped hdropped _ => rcases hdropped with heq | heq <;> simp [heq] at hstatus
  | approved moderator applied clock p r h' heq =>
    exact .inr ⟨moderator, applied, clock, p, r, h', heq⟩

/-- A proposal that a commit brings is pending. -/
theorem effect_new {j : Nat} {p' : ParkingProposal} (h : Effect op n since c c')
    (hnone : c (.proposal j) = none) (hp' : c' (.proposal j) = some p') :
    p'.status = .pending := by
  cases effect_proposal h hp' with
  | kept hold => simp [hnone] at hold
  | new _ hpending => exact hpending
  | dropped _ hold => exact absurd hnone hold
  | approved _ _ _ p r h' _ => exact absurd h'.proposal (by simp [hnone])

/-- The label of a revision is its version. -/
theorem label_turn (h : ∀ l v rev, c (.revision l v) = some rev → rev.version = v)
    (hturn : Turn c c') : ∀ l v rev, c' (.revision l v) = some rev → rev.version = v := by
  intro l v rev hrev
  cases hturn with
  | kept hkept => exact h l v rev ((hkept _ rfl).symm.trans hrev)
  | revised l' row rev' hrevised =>
    by_cases hl : l = l'
    · subst hl
      by_cases hv : v = row.version
      · subst hv
        obtain rfl := Option.some.inj (hrevised.revision.symm.trans hrev)
        exact hrevised.version
      · exact h l v rev ((hrevised.revisions v hv).symm.trans hrev)
    · refine h l v rev ((hrevised.others _ rfl ?_).symm.trans hrev)
      simpa [Key.guard] using hl

/-- An approval applies its proposal. -/
theorem revision_of_approved {id : Nat} {moderator : UserId} {applied : ProposalApplication}
    {clock : Instant} {p : ParkingProposal} {r : ParkingLocation}
    (h : Approved id moderator applied clock p r since c c') :
    ∃ rev, c' (.revision p.locationId (p.baseVersion + 1)) = some rev ∧
      AppliedBy (approved p moderator clock) rev := by
  have hrevised := revised_of_moderated h.moderated (version_apply applied r)
  have hversion : (applied.apply r).version = p.baseVersion + 1 := by
    rw [version_apply, h.version]
  refine ⟨_, hversion ▸ hrevised.revision, hversion, rfl, applied, rfl⟩

/-- A commit keeps the approved proposals applied. -/
theorem Applied.effect (h : Applied c) (heffect : Effect op n since c c') : Applied c' := by
  have hgrows := grows_of_turn (effect_turn heffect) (effect_proposals heffect)
  refine ⟨label_turn h.label (effect_turn heffect), fun j p hp hstatus => ?_,
    fun j p hp hstatus => ?_, fun i j p q hp hq hp' hq' hlocation hbase => ?_⟩
  · rcases effect_approved heffect hp hstatus with hold | ⟨moderator, applied, clock, p, r, h', rfl⟩
    · obtain ⟨rev, hrev, happlied⟩ := h.revision j p hold hstatus
      exact ⟨rev, hgrows.revision _ _ _ hrev, happlied⟩
    · obtain ⟨rev, hrev, happlied⟩ := revision_of_approved h'
      exact ⟨rev, hrev, happlied⟩
  · rcases effect_approved heffect hp hstatus with hold | ⟨moderator, applied, clock, p, r, h', rfl⟩
    · obtain ⟨r, hr, hlt⟩ := h.passed j p hold hstatus
      obtain ⟨r', hr', hsucceeds, _⟩ := hgrows.location _ r hr
      exact ⟨r', hr', by have := hsucceeds.1; omega⟩
    · have hrevised := revised_of_moderated h'.moderated (version_apply applied r)
      refine ⟨_, hrevised.location, ?_⟩
      have hbase := h'.version
      have hnext := version_apply applied r
      show p.baseVersion < _
      omega
  · -- an approval that commits has the version that the location is at
    have hmixed : ∀ {i : Nat} {p q : ParkingProposal} {r : ParkingLocation},
        c (.proposal i) = some p → p.status = .approved → c (.location q.locationId) = some r →
        q.baseVersion = r.version → p.locationId = q.locationId →
        p.baseVersion ≠ q.baseVersion := by
      intro i p q r hp hstatus hr hversion hlocation hbase
      obtain ⟨r', hr', hlt⟩ := h.passed i p hp hstatus
      rw [hlocation, hr] at hr'
      obtain rfl := Option.some.inj hr'
      omega
    rcases effect_approved heffect hp hp' with hold | ⟨m, a, t, p, r, h₁, rfl⟩
    · rcases effect_approved heffect hq hq' with hold' | ⟨m, a, t, q, r, h₁, rfl⟩
      · exact h.single i j p q hold hold' hp' hq' hlocation hbase
      · exact absurd hbase (hmixed hold hp' h₁.moderated.row h₁.version hlocation)
    · rcases effect_approved heffect hq hq' with hold' | ⟨m', a', t', q, r', h₂, rfl⟩
      · exact absurd hbase.symm (hmixed hold' hq' h₁.moderated.row h₁.version hlocation.symm)
      · by_contra hne
        rcases h₁.resolved.siblings j (Ne.symm hne) with heq | ⟨_, _, _, _, heq⟩
        · rw [hq, h₂.proposal] at heq
          have hsame := congrArg ParkingProposal.status (Option.some.inj heq)
          rw [h₂.pending] at hsame
          cases hsame
        · have hsame := congrArg ParkingProposal.status (Option.some.inj (hq.symm.trans heq))
          cases hsame

/-- Without proposals there is nothing to apply. -/
theorem Applied.of_none (hlabel : ∀ l v rev, c (.revision l v) = some rev → rev.version = v)
    (hnone : ∀ j, c (.proposal j) = none) : Applied c :=
  ⟨hlabel, fun j p hp => by simp [hnone] at hp, fun j p hp => by simp [hnone] at hp,
    fun i j p q hp => by simp [hnone] at hp⟩

/-- The life of a proposal on a database that starts without proposals.  It starts
pending, and once it is decided it never changes.  An approved one has made
exactly one revision of its location, the one after its base version, and no
other approved one has the same location and base version.  And when an approval
commits, no other proposal on its location is still pending that was so when the
approval locked the location. -/
theorem proposal_life_cycle (hfits : Fits c n) (hnone : ∀ j, c (.proposal j) = none)
    (hlabel : ∀ l v rev, c (.revision l v) = some rev → rev.version = v) :
    (∀ ls s l s' j p', HistoryRun c n ls s → HistoryStep s l s' →
      s.committed (.proposal j) = none → s'.committed (.proposal j) = some p' →
      p'.status = .pending) ∧
    (∀ ls s ls' s' j p, HistoryRun c n ls s → Run HistoryStep s ls' s' →
      s.committed (.proposal j) = some p → ∃ p', s'.committed (.proposal j) = some p' ∧
        p'.locationId = p.locationId ∧ p'.baseVersion = p.baseVersion ∧
        (p.status ≠ .pending → p' = p)) ∧
    (∀ ls s j p, HistoryRun c n ls s → s.committed (.proposal j) = some p →
      p.status = .approved → ∃ rev,
        s.committed (.revision p.locationId (p.baseVersion + 1)) = some rev ∧ AppliedBy p rev ∧
        ∀ v rev', s.committed (.revision p.locationId v) = some rev' →
          rev'.version = p.baseVersion + 1 → rev' = rev) ∧
    (∀ ls s i j p q, HistoryRun c n ls s → s.committed (.proposal i) = some p →
      s.committed (.proposal j) = some q → p.status = .approved → q.status = .approved →
      p.locationId = q.locationId → p.baseVersion = q.baseVersion → i = j) ∧
    ∀ ls s l s' (i : Nat) (q : HistoryProcess) id moderator applied clock,
      HistoryRun c n ls s → HistoryStep s l s' → succeeded s i = none →
      s'.processes[i]? = some q → succeeded s' i = some q.op →
      q.op = .approveProposal id moderator applied clock →
      ∃ p, s'.committed (.proposal id) = some p ∧ p.status = .approved ∧
        ∀ j p₀, j ≠ id → q.conn.since (.proposal j) = some p₀ → p₀.locationId = p.locationId →
          p₀.status = .pending →
          ∃ p', s'.committed (.proposal j) = some p' ∧ p'.status ≠ .pending := by
  have hstart := Regular.start (n := n) hfits
  have happlied : ∀ {ls s}, HistoryRun c n ls s → Applied s.committed := fun hrun =>
    hstart.invariant (I := Applied) (fun _ _ _ _ _ heffect h => h.effect heffect) hrun
      (.of_none hlabel hnone)
  refine ⟨fun ls s l s' j p' hrun hstep hp hp' => ?_, fun ls s ls' s' j p hrun hrun' hp => ?_,
    fun ls s j p hrun hp hstatus => ?_, fun ls s i j p q hrun => (happlied hrun).single i j p q,
    fun ls s l s' i q id moderator applied clock hrun hstep hbefore hq hafter hop => ?_⟩
  · rcases (hstart.run hrun).effect hstep with heq | ⟨_, _, _, _, _, _, _, _, heffect⟩
    · rw [heq, hp] at hp'
      cases hp'
    · exact effect_new heffect hp hp'
  · obtain ⟨p', hp', hlocation, hbase, hfollows⟩ :=
      ((hstart.run hrun).grows hrun').proposals j p hp
    exact ⟨p', hp', hlocation, hbase, fun hne => hfollows.resolve_left hne⟩
  · obtain ⟨rev, hrev, hby⟩ := (happlied hrun).revision j p hp hstatus
    refine ⟨rev, hrev, hby, fun v rev' hrev' hversion => ?_⟩
    rw [(happlied hrun).label _ v rev' hrev'] at hversion
    subst hversion
    exact Option.some.inj (hrev'.symm.trans hrev)
  · obtain ⟨q', a, hq', _, hscript⟩ := succeeded_eq_some.mp hafter
    obtain rfl := Option.some.inj (hq'.symm.trans hq)
    rcases (hstart.run hrun).answers hstep hq hscript with ⟨p, hp, _, _, hbefore'⟩ | ⟨_, heffect⟩
    · rw [succeeded_eq_some.mpr ⟨p, a, hp, rfl, hbefore'⟩] at hbefore
      cases hbefore
    · rw [hop] at heffect
      obtain ⟨p, r, h⟩ := heffect
      exact ⟨_, h.resolved.approved, rfl, h.resolved.settled⟩

/-- A proposal on the first version of the location. -/
def moved : NewProposal := ⟨1, 2, 1, .moveLocation, .null⟩

/-- The proposal is made and approved. -/
def rackMoved : List (Label Op) :=
  rackCreated ++ [.start (.createProposal moved 0), .exec 1,
    .start (.approveProposal 2 3 (.moveLocation ⟨1, 1, by decide, by decide⟩ "UTC") 0),
    .exec 2, .exec 2, .exec 2, .exec 2, .exec 2, .exec 2, .exec 2, .exec 2, .exec 2, .exec 2]

theorem proposal_life_cycle_moved :
    ∃ (s : HistorySystem) (p : ParkingProposal) (rev : ParkingRevision), HistoryRun noRows 1 rackMoved s ∧
      s.committed (.proposal 2) = some p ∧ p.status = .approved ∧
      s.committed (.revision 1 2) = some rev ∧ AppliedBy p rev := by
  have hcheck : (rackMoved.foldlM (System.next Op.script)
      (⟨noRows, 1, []⟩ : HistorySystem)).any (fun s => (s.committed (.proposal 2)).any fun p =>
        p.locationId == 1 && p.baseVersion == 1 && p.status == .approved) = true := by
    decide +kernel
  simp only [Option.any_eq_true, Bool.and_eq_true, beq_iff_eq] at hcheck
  obtain ⟨s, hs, p, hp, ⟨hlocation, hbase⟩, hstatus⟩ := hcheck
  have hrun : HistoryRun noRows 1 rackMoved s := .of_foldlM hs
  obtain ⟨rev, hrev, hby, _⟩ := (proposal_life_cycle (fits_noRows 1) (fun _ => rfl)
    (fun _ _ _ h => by cases h)).2.2.1 _ s 2 p hrun hp hstatus
  rw [hlocation, hbase] at hrev
  exact ⟨s, p, rev, hrun, hp, hstatus, hrev, hby⟩

end BikesNest.History
