import BikesNest.History.Operations

/-!
# The versions of a location

`Chain` says of a location that its revisions carry the versions from 1 to its
own, and `version_chain` that every location made in a run keeps it, and that
an operation that answers an error has changed nothing.

`no_lost_edits` is the optimistic locking: an operation that carries a version
succeeds only while the location still stands at it, so at most one does.
-/

namespace BikesNest.History

open Domain Community Moderation Store Transactions Runs

section Runs

variable {c c' : Rows Cell} {n : Nat} {ls : List (Label Op)} {l : Label Op}
  {s s' : HistorySystem} {i : Nat} {p q : HistoryProcess}

/-! ## Failed operations -/

/-- An answer stays. -/
theorem answer_stays (hrun : Run HistoryStep s ls s') (hp : s.processes[i]? = some p)
    {r : Except StoreError Answer} (hscript : p.script = .done r) :
    ∃ q, s'.processes[i]? = some q ∧ q.op = p.op ∧ q.script = .done r := by
  induction hrun generalizing p with
  | nil => exact ⟨p, hp, rfl, hscript⟩
  | cons hstep _ ih =>
    obtain ⟨p', hp', hop, _, hkept⟩ := System.kept hstep hp
    obtain ⟨q, hq, hop', hscript'⟩ := ih hp' (hkept r hscript)
    exact ⟨q, hq, hop'.trans hop, hscript'⟩

/-- A connection that answers an error at last changes nothing on the way. -/
theorem Regular.unchanged (h : Regular s) {s₂ : HistorySystem}
    (hstep : HistoryStep s (.exec i) s₂) (hrun : Run HistoryStep s₂ ls s')
    (hq : s'.processes[i]? = some q) {e : StoreError} (herror : q.script = .done (.error e)) :
    s₂.committed = s.committed := by
  rcases h.effect hstep with heq | ⟨j, _, p', a, hl, _, hp', hscript, _⟩
  · exact heq
  · cases hl
    obtain ⟨q', hq', _, hscript'⟩ := answer_stays hrun hp' hscript
    obtain rfl := Option.some.inj (hq'.symm.trans hq)
    rw [herror] at hscript'
    cases hscript'

/-! ## The chain -/

/-- The version of a location; a missing one has none yet. -/
def versionOf (c : Rows Cell) (l : Nat) : Int :=
  ((c (.location l)).map ParkingLocation.version).getD 0

/-- The revisions of a location carry the versions from 1 to its own. -/
structure Chain (c : Rows Cell) (l : Nat) : Prop where
  positive : ∀ r, c (.location l) = some r → 1 ≤ r.version
  range : ∀ v, c (.revision l v) ≠ none ↔ 1 ≤ v ∧ v ≤ versionOf c l
  label : ∀ v rev, c (.revision l v) = some rev → rev.version = v

theorem versionOf_eq {r : ParkingLocation} {l : Nat} (h : c (.location l) = some r) :
    versionOf c l = r.version := by
  simp [versionOf, h]

/-- A new version is the next one. -/
theorem Revised.version_eq {l : Nat} {row : ParkingLocation} {rev : ParkingRevision}
    (h : Revised l row rev c c') : row.version = versionOf c l + 1 := by
  rcases h.next with ⟨hnone, hrow⟩ | ⟨r, hr, hrow⟩
  · simp [versionOf, hnone, hrow]
  · rw [versionOf_eq hr, hrow]

theorem Chain.nonneg {l : Nat} (h : Chain c l) : 0 ≤ versionOf c l := by
  cases hr : c (.location l) with
  | none => simp [versionOf, hr]
  | some r =>
    have := h.positive r hr
    rw [versionOf_eq hr]
    omega

/-- A commit keeps the chain of every location. -/
theorem Chain.turn {l : Nat} (h : Chain c l) (hturn : Turn c c') : Chain c' l := by
  cases hturn with
  | kept hkept =>
    refine ⟨fun r hr => h.positive r ((hkept _ rfl).symm.trans hr), fun v => ?_,
      fun v rev hrev => h.label v rev ((hkept _ rfl).symm.trans hrev)⟩
    rw [hkept _ rfl, versionOf, hkept (.location l) rfl]
    exact h.range v
  | revised l' row rev hrev =>
    by_cases hl : l' = l
    · subst hl
      have hrow := hrev.version_eq
      have hnonneg := h.nonneg
      refine ⟨fun r hr => ?_, fun v => ?_, fun v rev' hrev' => ?_⟩
      · obtain rfl := Option.some.inj (hrev.location.symm.trans hr)
        omega
      · rw [versionOf_eq hrev.location]
        by_cases hv : v = row.version
        · subst hv
          simp only [hrev.revision, ne_eq, reduceCtorEq, not_false_eq_true, true_iff]
          omega
        · rw [hrev.revisions v hv, h.range]
          omega
      · by_cases hv : v = row.version
        · subst hv
          obtain rfl := Option.some.inj (hrev.revision.symm.trans hrev')
          exact hrev.version
        · exact h.label v rev' ((hrev.revisions v hv).symm.trans hrev')
    · have hother : ∀ k, isTracked k = true → k.guard = .location l → c' k = c k :=
        fun k hk hguard => hrev.others k hk (by simpa [hguard] using Ne.symm hl)
      refine ⟨fun r hr => h.positive r ((hother _ rfl rfl).symm.trans hr), fun v => ?_,
        fun v rev' hrev' => h.label v rev' ((hother _ rfl rfl).symm.trans hrev')⟩
      rw [hother _ rfl rfl, versionOf, hother (.location l) rfl rfl]
      exact h.range v

/-- Every location that is made in a run has its chain, and a connection that
answers an error has changed no row at all.  A call may be lost at any statement; that a `COMMIT`
takes effect and its answer is lost is not among the failures. -/
theorem version_chain (hfits : Fits c n) :
    (∀ ls s l, HistoryRun c n ls s → c (.location l) = none →
      (∀ v, c (.revision l v) = none) → Chain s.committed l) ∧
    ∀ ls₁ ls₂ (i : Nat) s₁ s₂ s (p : HistoryProcess) e, HistoryRun c n ls₁ s₁ → HistoryStep s₁ (.exec i) s₂ →
      Run HistoryStep s₂ ls₂ s → s.processes[i]? = some p → p.script = .done (.error e) →
        s₂.committed = s₁.committed := by
  have hstart := Regular.start (n := n) hfits
  refine ⟨fun ls s l hrun hnone hvacant => ?_, fun ls₁ ls₂ i s₁ s₂ s p e hrun₁ hstep hrun₂ hp herror =>
    (hstart.run hrun₁).unchanged hstep hrun₂ hp herror⟩
  refine hstart.invariant (I := fun c => Chain c l)
    (fun _ _ _ _ _ heffect h => h.turn (effect_turn heffect)) hrun ?_
  exact ⟨by simp [hnone], fun v => by simp [hvacant, versionOf, hnone]; omega,
    fun v rev hrev => by simp [hvacant] at hrev⟩

/-- A request for a new location. -/
def rack : NewParkingLocation where
  name := "Rack"
  address := "Street 1"
  description := none
  parkingType := .rack
  cost := .free
  point := ⟨0, 0, GeoPoint.zero_lat, GeoPoint.zero_lon⟩
  timezone := some "UTC"
  hours := .weekly [(1, .wholeDay)]
  security := [⟨"cctv", .yes⟩]

/-- The location is created. -/
def rackCreated : List (Label Op) :=
  [.start (.create rack 1 0 0), .exec 0, .exec 0, .exec 0, .exec 0, .exec 0, .exec 0, .exec 0]

/-- An edit of the location. -/
def painted : ParkingEdit where
  name := "Painted rack"
  address := "Street 1"
  description := none
  parkingType := .rack
  cost := .free
  hours := .unknown
  security := []

/-- The location is created and edited, and a second edit loses its call in the middle. -/
def editedOnce : List (Label Op) :=
  rackCreated ++ [.start (.applyEdit 1 1 painted 2 0 0), .exec 1, .exec 1, .exec 1, .exec 1,
    .exec 1, .exec 1, .exec 1, .start (.applyEdit 1 2 painted 3 0 0), .exec 2, .exec 2, .exec 2,
    .fail 2]

theorem version_chain_editedOnce : ∃ (s : HistorySystem) (r : ParkingLocation),
    HistoryRun noRows 1 editedOnce s ∧ s.committed (.location 1) = some r ∧ r.version = 2 ∧
      Chain s.committed 1 := by
  have hcheck : (editedOnce.foldlM (System.next Op.script)
      (⟨noRows, 1, []⟩ : HistorySystem)).any (fun s => (s.committed (.location 1)).any fun r =>
        r.version = 2) = true := by decide +kernel
  simp only [Option.any_eq_true, decide_eq_true_eq] at hcheck
  obtain ⟨s, hs, r, hr, hversion⟩ := hcheck
  have hrun : HistoryRun noRows 1 editedOnce s := .of_foldlM hs
  exact ⟨s, r, hrun, hr, hversion,
    (version_chain (fits_noRows 1)).1 _ s 1 hrun rfl fun _ => rfl⟩

/-! ## Operations that carry a version -/

/-- The operation carries the version `v` of the location `l`: as the expected
version of an edit, or as the base version of a proposal. -/
def Carries (c : Rows Cell) (l : Nat) (v : Int) : Op → Prop
  | .applyEdit id expected _ _ _ _ => id = l ∧ expected = v
  | .approveProposal id _ _ _ =>
    ∃ p, c (.proposal id) = some p ∧ p.locationId = l ∧ p.baseVersion = v
  | _ => False

/-- The commit of such an operation finds the location at the version. -/
theorem Carries.version {op : Op} {n : Nat} {since : Rows Cell} {l : Nat} {v : Int}
    (hcarries : Carries c' l v op) (h : Effect op n since c c') :
    ∃ r, c (.location l) = some r ∧ r.version = v := by
  cases op with
  | applyEdit id expected edit editor now clock =>
    obtain ⟨rfl, rfl⟩ := hcarries
    obtain ⟨r, _, hr, _, hversion, _⟩ := h
    exact ⟨r, hr, hversion⟩
  | approveProposal id moderator applied clock =>
    obtain ⟨p', hp', rfl, rfl⟩ := hcarries
    obtain ⟨p, r, h⟩ := h
    obtain rfl := Option.some.inj (h.resolved.approved.symm.trans hp')
    exact ⟨r, h.moderated.row, h.version.symm⟩
  | _ => exact hcarries.elim

/-- What the answer of such an operation says later: the version has passed. -/
theorem Carries.passed {op : Op} {n : Nat} {a : Answer} {l : Nat} {v : Int}
    (hcarries : Carries c' l v op) (h : Outcome op n a c) (hgrows : Grows c c') :
    ∃ r, c' (.location l) = some r ∧ v < r.version := by
  cases op with
  | applyEdit id expected edit editor now clock =>
    obtain ⟨rfl, rfl⟩ := hcarries
    obtain ⟨r, hr, hlt⟩ := h
    obtain ⟨r', hr', hsucceeds, _⟩ := hgrows.location _ r hr
    exact ⟨r', hr', by have := hsucceeds.1; omega⟩
  | approveProposal id moderator applied clock =>
    obtain ⟨p', hp', rfl, rfl⟩ := hcarries
    obtain ⟨p, r, hp, hr, hlt⟩ := h
    obtain ⟨p'', hp'', hfollows⟩ := hgrows.proposals id p hp
    obtain rfl := Option.some.inj (hp''.symm.trans hp')
    obtain ⟨r', hr', hsucceeds, _⟩ := hgrows.location _ r hr
    rw [hfollows.1, hfollows.2.1]
    exact ⟨r', hr', by have := hsucceeds.1; omega⟩
  | _ => exact hcarries.elim

/-- An operation that has answered carries the same version before later steps. -/
theorem Carries.before {op : Op} {n : Nat} {a : Answer} {l : Nat} {v : Int} {c₀ : Rows Cell}
    (hcarries : Carries c' l v op) (h : Outcome op n a c₀) (hgrows₀ : Grows c₀ c)
    (hgrows : Grows c c') : Carries c l v op := by
  cases op with
  | applyEdit => exact hcarries
  | approveProposal id moderator applied clock =>
    obtain ⟨p', hp', rfl, rfl⟩ := hcarries
    obtain ⟨p₀, _, hp₀, _⟩ := h
    obtain ⟨p, hp, _⟩ := hgrows₀.proposals id p₀ hp₀
    obtain ⟨p'', hp'', hfollows⟩ := hgrows.proposals id p hp
    obtain rfl := Option.some.inj (hp''.symm.trans hp')
    exact ⟨p, hp, hfollows.1.symm, hfollows.2.1.symm⟩
  | _ => exact hcarries

/-- No script has answered a value at its start. -/
theorem script_ne_pure (op : Op) (n : Nat) (a : Answer) : op.script n ≠ pure a := by
  cases op with
  | create new creator now clock =>
    simp only [Op.script, create]
    split <;> exact fun h => by cases h
  | _ => exact fun h => by cases h

/-- A connection that answers with a step commits an operation. -/
theorem Regular.answers (h : Regular s) (hstep : HistoryStep s l s')
    (hq : s'.processes[i]? = some q) {a : Answer} (hafter : q.script = pure a) :
    (∃ p, s.processes[i]? = some p ∧ p.op = q.op ∧ p.serial = q.serial ∧ p.script = pure a) ∨
      (l = .exec i ∧ Effect q.op q.serial q.conn.since s.committed s'.committed) := by
  rcases System.origin hstep hq with ⟨p, hp, hop, hserial, hkept⟩ | ⟨_, hscript⟩
  · by_cases hbefore : p.script = pure a
    · exact .inl ⟨p, hp, hop.symm, hserial.symm, hbefore⟩
    · obtain ⟨rfl, hG⟩ := h.sound.answers h.strict hstep hp hq hbefore hafter
      rcases hG with ⟨_, hne⟩ | ⟨_, _, heffect⟩
      · exact absurd rfl (hne a)
      · rw [hop, hserial]
        exact .inr ⟨rfl, heffect⟩
  · rw [hscript] at hafter
    exact absurd hafter (script_ne_pure _ _ a)

/-- At most one operation that carries a version of a location has succeeded. -/
def AtMostOne (s : HistorySystem) : Prop :=
  ∀ (i j : Nat) (p q : HistoryProcess) a b l v, s.processes[i]? = some p → s.processes[j]? = some q →
    p.script = pure a → q.script = pure b → Carries s.committed l v p.op → Carries s.committed l v q.op → i = j

/-- A step in which a connection succeeds finds the version of nobody who has
succeeded before. -/
theorem AtMostOne.next (h : Regular s) (hone : AtMostOne s) (hstep : HistoryStep s l s') :
    AtMostOne s' := by
  have hgrows := h.sound.grows historyContract hstep
  have hold : ∀ {p : HistoryProcess} {i : Nat} {a : Answer} {l : Nat} {v : Int},
      s.processes[i]? = some p → p.script = pure a → Carries s'.committed l v p.op →
      Carries s.committed l v p.op ∧ ∃ r, s.committed (.location l) = some r ∧ v < r.version := by
    intro p i a l v hp hscript hcarries
    obtain ⟨c₀, houtcome, hgrows₀⟩ := h.sound.answered hp hscript
    have hcarries' := hcarries.before houtcome hgrows₀ hgrows
    exact ⟨hcarries', hcarries'.passed houtcome hgrows₀⟩
  have hmixed : ∀ {p q : HistoryProcess} {i : Nat} {a : Answer} {l : Nat}
      {v : Int} {n : Nat} {since : Rows Cell}, s.processes[i]? = some p → p.script = pure a →
      Carries s'.committed l v p.op → Carries s'.committed l v q.op →
      ¬ Effect q.op n since s.committed s'.committed := by
    intro p q i a l v n since hp hscript hcp hcq heffect
    obtain ⟨_, r, hr, hlt⟩ := hold hp hscript hcp
    obtain ⟨r', hr', hversion⟩ := hcq.version heffect
    obtain rfl := Option.some.inj (hr.symm.trans hr')
    omega
  intro i j p' q' a b l v hp' hq' hscriptp hscriptq hcp hcq
  rcases h.answers hstep hp' hscriptp with ⟨p, hp, hopp, _, hscriptp₀⟩ | ⟨hi, heffectp⟩
  · rcases h.answers hstep hq' hscriptq with ⟨q, hq, hopq, _, hscriptq₀⟩ | ⟨_, heffectq⟩
    · rw [← hopp] at hcp
      rw [← hopq] at hcq
      exact hone i j p q a b l v hp hq hscriptp₀ hscriptq₀ (hold hp hscriptp₀ hcp).1
        (hold hq hscriptq₀ hcq).1
    · rw [← hopp] at hcp
      exact absurd heffectq (hmixed hp hscriptp₀ hcp hcq)
  · rcases h.answers hstep hq' hscriptq with ⟨q, hq, hopq, _, hscriptq₀⟩ | ⟨hj, _⟩
    · rw [← hopq] at hcq
      exact absurd heffectp (hmixed hq hscriptq₀ hcq hcp)
    · cases hi
      cases hj
      rfl

/-- An operation that carries a version succeeds only on a location that stands at
it as it did at any earlier state of the run with that version; of several such
operations at most one succeeds; and one that fails changes nothing.  As above, no `COMMIT` takes
effect without its answer. -/
theorem no_lost_edits (hfits : Fits c n) :
    (∀ ls s₁ (i : Nat) s₂ (p q : HistoryProcess) a l v, HistoryRun c n ls s₁ → HistoryStep s₁ (.exec i) s₂ →
      s₁.processes[i]? = some p → p.script ≠ pure a → s₂.processes[i]? = some q →
      q.script = pure a → Carries s₂.committed l v q.op →
      ∃ r, s₁.committed (.location l) = some r ∧ r.version = v ∧
        ∀ ls₀ ls' s₀ r₀, HistoryRun c n ls₀ s₀ → Run HistoryStep s₀ ls' s₁ →
          s₀.committed (.location l) = some r₀ → r₀.version = v → tracked r = tracked r₀ ∧
            s₁.committed (.hours l) = s₀.committed (.hours l) ∧
            s₁.committed (.security l) = s₀.committed (.security l)) ∧
    (∀ ls s (i j : Nat) (p q : HistoryProcess) a b l v, HistoryRun c n ls s →
      s.processes[i]? = some p → s.processes[j]? = some q → p.script = pure a → q.script = pure b →
      Carries s.committed l v p.op → Carries s.committed l v q.op → i = j) ∧
    ∀ ls₁ ls₂ (i : Nat) s₁ s₂ s (p : HistoryProcess) e, HistoryRun c n ls₁ s₁ → HistoryStep s₁ (.exec i) s₂ →
      Run HistoryStep s₂ ls₂ s → s.processes[i]? = some p → p.script = .done (.error e) →
        s₂.committed = s₁.committed := by
  have hstart := Regular.start (n := n) hfits
  refine ⟨fun ls s₁ i s₂ p q a l v hrun hstep hp hbefore hq hafter hcarries => ?_,
    fun ls s i j p q a b l v hrun => ?_, fun ls₁ ls₂ i s₁ s₂ s p e hrun₁ hstep hrun₂ hp herror =>
    (hstart.run hrun₁).unchanged hstep hrun₂ hp herror⟩
  · rcases (hstart.run hrun).answers hstep hq hafter with ⟨p', hp', _, _, hscript⟩ | ⟨_, heffect⟩
    · obtain rfl := Option.some.inj (hp'.symm.trans hp)
      exact absurd hscript hbefore
    · obtain ⟨r, hr, hversion⟩ := hcarries.version heffect
      refine ⟨r, hr, hversion, fun ls₀ ls' s₀ r₀ hrun₀ hrun' hr₀ hversion₀ => ?_⟩
      obtain ⟨r', hr', hsucceeds, hchildren⟩ :=
        ((hstart.run hrun₀).grows hrun').location l r₀ hr₀
      obtain rfl := Option.some.inj (hr'.symm.trans hr)
      have hsame := hversion.trans hversion₀.symm
      exact ⟨hsucceeds.2 hsame, hchildren hsame⟩
  · refine (hrun.invariant (I := fun s => Regular s ∧ AtMostOne s)
      (fun s l s' ⟨hs, hone⟩ hstep => ⟨hs.next hstep, hone.next hs hstep⟩)
      ⟨hstart, fun i j p q => by simp⟩).2 i j p q a b l v

/-- Two users edit the first version of the location at the same time. -/
def editedTwice : List (Label Op) :=
  rackCreated ++ [.start (.applyEdit 1 1 painted 2 0 0), .start (.applyEdit 1 1 painted 3 0 0),
    .exec 1, .exec 2, .exec 1, .exec 1, .exec 1, .exec 1, .exec 1, .exec 1, .exec 2]

theorem no_lost_edits_painted : ∃ s, HistoryRun noRows 1 editedTwice s ∧ AtMostOne s := by
  have hsome : (editedTwice.foldlM (System.next Op.script)
      (⟨noRows, 1, []⟩ : HistorySystem)).isSome = true := by decide +kernel
  obtain ⟨s, hrun⟩ := historyRun_of_isSome hsome
  exact ⟨s, hrun, fun i j p q a b l v =>
    (no_lost_edits (fits_noRows 1)).2.1 _ s i j p q a b l v hrun⟩

end Runs

end BikesNest.History
