import BikesNest.History.Chain
import BikesNest.History.Snapshot

/-!
# Revisions and the record

`create` and `apply_edit` build the snapshot of a revision from the request,
the moderation steps build it from the tables.  `plainRequest` says of an
operation that the writers leave its request as it is;
`matches_snapshotOf_iff` is one commit, and `revisions_faithful` the runs.
-/

namespace BikesNest.History

open Domain Community Moderation Store Transactions Runs

variable {c c' : Rows Cell} {op : Op} {n : Nat} {since : Rows Cell}

/-! ## One commit -/

theorem insertHours_eq {rows rows' : List HourRow} {hours : OpeningHours}
    (h : insertHours rows hours = .ok rows') : rows' = rows ++ hours.rows.map hourRow := by
  unfold insertHours at h
  dsimp only at h
  split at h
  · cases h
  split at h
  · cases h
  split at h
  · cases h
  exact (Except.ok.inj h).symm

/-- The cost columns say what the request says. -/
theorem costJson_of_parts {cost : Cost} {r : ParkingLocation}
    (h : (r.costKind, r.priceCents, r.priceCurrency, r.priceUnit) = costParts cost) :
    costJsonOf cost = costJson r := by
  cases cost with
  | free => simp_all [costParts, costJsonOf, costJson]
  | unknown => simp_all [costParts, costJsonOf, costJson]
  | paid price => cases price <;> simp_all [costParts, costJsonOf, costJson]

/-- A snapshot from the request matches a row with the same values exactly when
name and address are stored as they are and the hours and the security features
are plain. -/
theorem matches_snapshotOf_iff {name address : String} {cost : Cost} {hours : OpeningHours}
    {security : List SecurityFeature} {rows : List SecurityRow} {r : ParkingLocation}
    (hcost : (r.costKind, r.priceCents, r.priceCurrency, r.priceUnit) = costParts cost)
    (hunknown : r.hoursUnknown = hours.isUnknown)
    (hrows : ∀ x ∈ rows, x.featureCode ∈ securityFeatureCodes) :
    Matches (snapshotOf name address r.description r.parkingType cost r.point r.timezone hours
        security r.moderationState) r (hours.rows.map hourRow)
        (upsertSecurityRows rows security) ↔
      (name = r.name ∧ address = r.address) ∧ plainHours hours = true ∧
        plainSecurity security = true := by
  have hstate := fun code state => says_upsertSecurityRows security hrows code state
  constructor
  · intro h
    refine ⟨⟨h.name, h.address⟩, (hoursJsonOf_perm_iff hours).mp h.hours,
      (says_securityJsonOf_iff security).mp fun code state => ?_⟩
    exact (h.security code state).trans (hstate code state)
  · rintro ⟨⟨hname, haddress⟩, hhours, hsecurity⟩
    exact ⟨hname, haddress, rfl, rfl, costJson_of_parts hcost, rfl, rfl, hunknown.symm,
      (hoursJsonOf_perm_iff hours).mpr hhours, fun code state =>
        ((says_securityJsonOf_iff security).mpr hsecurity code state).trans
          (hstate code state).symm, rfl⟩

/-- The writers leave the request of the operation as it is. -/
def plainRequest : Op → Bool
  | .create new _ _ _ => Text.trim new.name == new.name && Text.trim new.address == new.address &&
    (plainHours new.hours && plainSecurity new.security)
  | .applyEdit _ _ edit _ _ _ => plainHours edit.hours && plainSecurity edit.security
  | _ => true

/-- The latest revision of a location matches its live rows, and its security rows
have codes of the catalogue. -/
structure Faithful (c : Rows Cell) (l : Nat) : Prop where
  latest : ∀ r, c (.location l) = some r → ∃ rev, c (.revision l r.version) = some rev ∧
    Matches rev.snapshot r (c (.hours l)) (c (.security l))
  known : ∀ x ∈ c (.security l), x.featureCode ∈ securityFeatureCodes

/-- The security rows after an upsert have codes of the catalogue. -/
theorem known_upsertSecurityRows {rows : List SecurityRow} (security : List SecurityFeature)
    (hrows : ∀ x ∈ rows, x.featureCode ∈ securityFeatureCodes) :
    ∀ x ∈ upsertSecurityRows rows security, x.featureCode ∈ securityFeatureCodes := by
  have hfold : ∀ (sent : List SecurityRow) (rows : List SecurityRow),
      (∀ x ∈ sent, x.featureCode ∈ securityFeatureCodes) →
      (∀ x ∈ rows, x.featureCode ∈ securityFeatureCodes) →
      ∀ x ∈ sent.foldl upsertSecurity rows, x.featureCode ∈ securityFeatureCodes := by
    intro sent
    induction sent with
    | nil => exact fun _ _ h => h
    | cons y sent ih =>
      intro rows hsent hrows
      refine ih _ (fun x hx => hsent x (List.mem_cons_of_mem _ hx)) fun x hx => ?_
      rcases mem_upsertSecurity.mp hx with rfl | ⟨hx, _⟩
      · exact hsent x (List.mem_cons_self ..)
      · exact hrows x hx
  exact hfold _ _ (fun x hx => (mem_securityRows.mp hx).1) hrows

/-- A location that the commit does not touch. -/
theorem Faithful.of_same {l : Nat} (h : Faithful c l)
    (hsame : ∀ k, isTracked k = true → k.guard = .location l → c' k = c k) : Faithful c' l := by
  refine ⟨fun r hr => ?_, ?_⟩
  · obtain ⟨rev, hrev, hmatches⟩ := h.latest r ((hsame _ rfl rfl).symm.trans hr)
    refine ⟨rev, (hsame _ rfl rfl).trans hrev, ?_⟩
    rwa [hsame (.hours l) rfl rfl, hsame (.security l) rfl rfl]
  · rw [hsame (.security l) rfl rfl]
    exact h.known

theorem Faithful.revise {l : Nat} {row : ParkingLocation} {hours : List HourRow}
    {security : List SecurityRow} (id : Nat) (rev : ParkingRevision) (h : Faithful c l)
    (hrows : ∀ k, isTracked k = true → c' k = Community.revise c id row hours security rev k)
    (hversion : rev.version = row.version)
    (hmatches : l = id → Matches rev.snapshot row hours security)
    (hknown : l = id → ∀ x ∈ security, x.featureCode ∈ securityFeatureCodes) :
    Faithful c' l := by
  by_cases hl : l = id
  · subst hl
    refine ⟨fun r hr => ?_, ?_⟩
    · obtain rfl : row = r := by
        rw [hrows _ rfl] at hr
        simpa [Community.revise] using hr
      refine ⟨rev, ?_, ?_⟩
      · rw [hrows _ rfl, ← hversion]
        simp [Community.revise]
      · rw [hrows (.hours l) rfl, hrows (.security l) rfl]
        simpa [Community.revise] using hmatches rfl
    · rw [hrows (.security l) rfl]
      simpa [Community.revise] using hknown rfl
  · refine h.of_same fun k hk hguard => ?_
    have hne : ∀ k', k'.guard = .location id → k ≠ k' := by
      rintro k' hk' rfl
      rw [hguard] at hk'
      exact hl (Key.location.inj hk')
    rw [hrows k hk, Community.revise, Function.update_of_ne (hne _ rfl),
      Function.update_of_ne (hne _ rfl), Function.update_of_ne (hne _ rfl),
      Function.update_of_ne (hne _ rfl)]

/-- A moderation step builds its snapshot from the tables. -/
theorem Faithful.moderated {l id : Nat} {change : ParkingLocation → ParkingLocation}
    {moderator : UserId} {summary : String} {clock : Instant} {r : ParkingLocation}
    (h : Faithful c l) (hstep : Moderated id change moderator summary clock r c c') :
    Faithful c' l := by
  refine h.revise id _ (fun _ hk => rows_of_moderated hstep hk) rfl
    (fun _ => matches_snapshotWith ..) ?_
  rintro rfl
  exact h.known

/-- The commit of an operation with a plain request keeps the revisions faithful. -/
theorem Faithful.effect {l : Nat} (h : Faithful c l) (hplain : plainRequest op = true)
    (heffect : Effect op n since c c') : Faithful c' l := by
  cases op with
  | create new creator now clock =>
    obtain ⟨tz, hours, _, hhours, _, _, rfl⟩ := heffect
    obtain rfl := insertHours_eq hhours
    simp only [plainRequest, Bool.and_eq_true, beq_iff_eq] at hplain
    obtain ⟨⟨hname, haddress⟩, hplain⟩ := hplain
    refine h.revise _ _ (fun _ _ => rfl) rfl (fun hl => ?_) fun hl => ?_
    all_goals subst hl
    · exact (matches_snapshotOf_iff (r := new.toRow tz creator now) rfl rfl h.known).mpr
        ⟨⟨hname.symm, haddress.symm⟩, hplain⟩
    · exact known_upsertSecurityRows _ h.known
  | applyEdit id v edit editor now clock =>
    obtain ⟨r, hours, _, _, _, hhours, _, rfl⟩ := heffect
    obtain rfl := insertHours_eq hhours
    simp only [plainRequest, Bool.and_eq_true] at hplain
    refine h.revise _ _ (fun _ _ => rfl) rfl (fun hl => ?_) fun hl => ?_
    all_goals subst hl
    · exact (matches_snapshotOf_iff (r := edit.apply now r) rfl rfl h.known).mpr
        ⟨⟨rfl, rfl⟩, hplain⟩
    · exact known_upsertSecurityRows _ h.known
  | setParkingState id source target moderator clock =>
    obtain ⟨r, _, _, hstep⟩ := heffect
    exact h.moderated hstep
  | approveProposal id moderator applied clock =>
    obtain ⟨p, r, hstep⟩ := heffect
    exact h.moderated hstep.moderated
  | createProposal p clock =>
    obtain ⟨_, rfl⟩ := heffect
    exact h.of_same fun k hk _ => Function.update_of_ne (by rintro rfl; cases hk) ..
  | rejectProposal id moderator clock =>
    obtain ⟨p, _, _, rfl⟩ := heffect
    exact h.of_same fun k hk _ => Function.update_of_ne (by rintro rfl; cases hk) ..
  | details id =>
    obtain rfl := heffect
    exact h

/-! ## Runs -/

/-- An operation that starts has a plain request. -/
def plainStart : Label Op → Bool
  | .start op => plainRequest op
  | _ => true

/-- A step that starts no other operation. -/
abbrev PlainStep : HistorySystem → Label Op → HistorySystem → Prop :=
  Guarded (fun _ l => plainStart l = true) HistoryStep

/-- All connections have plain requests. -/
def AllPlain (s : HistorySystem) : Prop :=
  ∀ (i : Nat) (p : HistoryProcess), s.processes[i]? = some p → plainRequest p.op = true

theorem AllPlain.next {l : Label Op} {s s' : HistorySystem} (h : AllPlain s)
    (hplain : plainStart l = true) (hstep : HistoryStep s l s') : AllPlain s' := by
  intro i q hq
  rcases System.origin hstep hq with ⟨p, hp, hop, _⟩ | ⟨hl, _⟩
  · rw [hop]
    exact h i p hp
  · rwa [hl] at hplain

/-- In a run of plain requests, the revision of every version of a location made in
the run says what the tables said when they were at that version. -/
theorem revisions_faithful {l : Nat} (hfits : Fits c n) (hnone : c (.location l) = none)
    (hsecurity : c (.security l) = []) :
    ∀ ls s ls' s' r, Run PlainStep ⟨c, n, []⟩ ls s → Run PlainStep s ls' s' →
      s.committed (.location l) = some r →
      ∃ rev, s'.committed (.revision l r.version) = some rev ∧
        Matches rev.snapshot r (s.committed (.hours l)) (s.committed (.security l)) := by
  intro ls s ls' s' r hrun hrun' hr
  have hfaithful : Faithful s.committed l := by
    refine (hrun.invariant (I := fun s => Regular s ∧ AllPlain s ∧ Faithful s.committed l)
      (fun s l' s' ⟨hs, hplain, h⟩ ⟨hstart, hstep⟩ => ⟨hs.next hstep, hplain.next hstart hstep, ?_⟩)
      ⟨.start hfits, fun i p => by simp, fun r hr => by simp [hnone] at hr,
        by simp [hsecurity]⟩).2.2
    rcases hs.effect hstep with heq | ⟨i, p, _, _, _, hp, _, _, heffect⟩
    · rwa [heq]
    · exact h.effect (hplain i p hp) heffect
  obtain ⟨rev, hrev, hmatches⟩ := hfaithful.latest r hr
  have hgrows := ((Regular.start hfits).run hrun.unguard).grows hrun'.unguard
  exact ⟨rev, hgrows.revision _ _ _ hrev, hmatches⟩

theorem revisions_faithful_editedOnce : ∃ (s : HistorySystem) (r : ParkingLocation)
    (rev : ParkingRevision), Run PlainStep ⟨noRows, 1, []⟩ editedOnce s ∧
      s.committed (.location 1) = some r ∧ r.version = 2 ∧
      s.committed (.revision 1 r.version) = some rev ∧
      Matches rev.snapshot r (s.committed (.hours 1)) (s.committed (.security 1)) := by
  have hcheck : (editedOnce.foldlM (fun s l =>
      if plainStart l then System.next Op.script s l else none)
      (⟨noRows, 1, []⟩ : HistorySystem)).any (fun s => (s.committed (.location 1)).any fun r =>
        r.version = 2) = true := by decide +kernel
  simp only [Option.any_eq_true, decide_eq_true_eq] at hcheck
  obtain ⟨s, hs, r, hr, hversion⟩ := hcheck
  have hrun : Run PlainStep ⟨noRows, 1, []⟩ editedOnce s := Run.guarded_of_foldlM hs
  obtain ⟨rev, hrev, hmatches⟩ :=
    revisions_faithful (fits_noRows 1) rfl rfl _ s [] s r hrun (.nil _) hr
  exact ⟨s, r, rev, hrun, hr, hversion, hrev, hmatches⟩

/-- A location whose name has a space in front. -/
def spaced : NewParkingLocation := { rack with name := " Rack" }

/-- It is created. -/
def spacedCreated : List (Label Op) :=
  .start (.create spaced 1 0 0) :: rackCreated.tail

theorem revisions_not_faithful :
    ¬ ∀ (c : Rows Cell) (n l : Nat) (ls : List (Label Op)) (s : HistorySystem)
      (r : ParkingLocation), HistoryRun c n ls s → Fits c n → c (.location l) = none →
      c (.security l) = [] → s.committed (.location l) = some r →
      ∃ rev, s.committed (.revision l r.version) = some rev ∧
        Matches rev.snapshot r (s.committed (.hours l)) (s.committed (.security l)) := by
  intro h
  have hcheck : (spacedCreated.foldlM (System.next Op.script)
      (⟨noRows, 1, []⟩ : HistorySystem)).any (fun s => (s.committed (.location 1)).any fun r =>
        (s.committed (.revision 1 r.version)).any fun rev => rev.snapshot.name != r.name) =
      true := by decide +kernel
  simp only [Option.any_eq_true, bne_iff_ne] at hcheck
  obtain ⟨s, hs, r, hr, rev, hrev, hname⟩ := hcheck
  obtain ⟨rev', hrev', hmatches⟩ :=
    h noRows 1 1 spacedCreated s r (.of_foldlM hs) (fits_noRows 1) rfl rfl hr
  obtain rfl := Option.some.inj (hrev.symm.trans hrev')
  exact hname hmatches.name

end BikesNest.History
