import BikesNest.History.Chain

/-!
# What an edit starts from

`details` reads a location, its hours and its security rows one after the other,
and commits of other operations may stand between.  An edit that carries the
version that it has answered only succeeds when nothing has changed in the
meantime, so what it has answered is the location at that version.
-/

namespace BikesNest.History

open Domain Community Moderation Store Transactions Runs

variable {c c' : Rows Cell} {l : Nat}

/-- What `details` answers is the location `r` with its child rows. -/
structure Shows (d : Details) (r : ParkingLocation) (c : Rows Cell) (l : Nat) : Prop where
  row : tracked d.row = tracked r
  hours : d.hours = hoursInOrder (c (.hours l))
  security : d.security = securityInOrder (c (.security l))

/-- Rows that grow, and have the same version in the end, are the same on the
way. -/
theorem same_of_grows {c₁ c₂ c₃ : Rows Cell} {r₁ r₃ : ParkingLocation} (h₁ : Grows c₁ c₂)
    (h₂ : Grows c₂ c₃) (hr₁ : c₁ (.location l) = some r₁) (hr₃ : c₃ (.location l) = some r₃)
    (hversion : r₃.version = r₁.version) :
    ∃ r₂, c₂ (.location l) = some r₂ ∧ r₂.version = r₁.version ∧ tracked r₂ = tracked r₁ ∧
      c₃ (.hours l) = c₂ (.hours l) ∧ c₃ (.security l) = c₂ (.security l) := by
  obtain ⟨r₂, hr₂, ⟨hle, htracked⟩, _⟩ := h₁.location l r₁ hr₁
  obtain ⟨r₃', hr₃', ⟨hle', _⟩, hchildren⟩ := h₂.location l r₂ hr₂
  obtain rfl := Option.some.inj (hr₃'.symm.trans hr₃)
  have hmid : r₂.version = r₁.version := by omega
  exact ⟨r₂, hr₂, hmid, htracked hmid, hchildren (by omega)⟩

/-- The location and the version that an edit expects. -/
def Op.expects : Op → Option (Nat × Int)
  | .applyEdit id v _ _ _ _ => some (id, v)
  | _ => none

/-- The operation of a connection that has answered a value. -/
def succeeded (s : HistorySystem) (i : Nat) : Option Op :=
  match s.processes[i]? with
  | some ⟨op, _, _, .done (.ok _)⟩ => some op
  | _ => none

/-- What a connection has answered to `details`, with the location it asked for. -/
def shown (s : HistorySystem) (j : Nat) : Option (Nat × Details) :=
  match s.processes[j]? with
  | some ⟨.details id, _, _, .done (.ok (.details (some d)))⟩ => some (id, d)
  | _ => none

theorem succeeded_eq_some {s : HistorySystem} {i : Nat} {op : Op} :
    succeeded s i = some op ↔ ∃ p a, s.processes[i]? = some p ∧ p.op = op ∧ p.script = pure a := by
  constructor
  · intro h
    unfold succeeded at h
    split at h
    · rename_i op' n conn a hp
      obtain rfl := Option.some.inj h
      exact ⟨_, a, hp, rfl, rfl⟩
    · cases h
  · rintro ⟨⟨op', n, conn, script⟩, a, hp, rfl, rfl⟩
    simp only [succeeded, hp]
    rfl

theorem shown_eq_some {s : HistorySystem} {j : Nat} {d : Details} (h : shown s j = some (l, d)) :
    ∃ q, s.processes[j]? = some q ∧ q.op = .details l ∧ q.script = pure (.details (some d)) := by
  unfold shown at h
  split at h
  · rename_i id n conn d' hq
    obtain ⟨rfl, rfl⟩ := Prod.mk.inj (Option.some.inj h)
    exact ⟨_, hq, rfl, rfl⟩
  · cases h

theorem Op.expects_eq_some {op : Op} {v : Int} (h : op.expects = some (l, v)) :
    ∃ edit editor now clock, op = .applyEdit l v edit editor now clock := by
  cases op with
  | applyEdit id v' edit editor now clock =>
    obtain ⟨rfl, rfl⟩ := Prod.mk.inj (Option.some.inj h)
    exact ⟨edit, editor, now, clock, rfl⟩
  | _ => cases h

/-- An edit with the version of a `details` call succeeds only when the call has
answered the location as it stands at that version, and stood whenever it had
it. -/
theorem edit_form_consistent {n : Nat} (hfits : Fits c n) :
    ∀ ls₁ s₁ (j : Nat) (d : Details) ls₂ s₂ (i : Nat) s₃, HistoryRun c n ls₁ s₁ →
      shown s₁ j = some (l, d) → Run HistoryStep s₁ ls₂ s₂ → HistoryStep s₂ (.exec i) s₃ →
      succeeded s₂ i = none → (succeeded s₃ i).bind Op.expects = some (l, d.row.version) →
      ∃ r, s₂.committed (.location l) = some r ∧ r.version = d.row.version ∧
        ∀ ls₀ ls' s₀ r₀, HistoryRun c n ls₀ s₀ → Run HistoryStep s₀ ls' s₂ →
          s₀.committed (.location l) = some r₀ → r₀.version = d.row.version →
          Shows d r₀ s₀.committed l := by
  intro ls₁ s₁ j d ls₂ s₂ i s₃ hrun₁ hshown hrun₂ hstep hbefore hafter
  obtain ⟨q, hq, hop, hscript⟩ := shown_eq_some hshown
  obtain ⟨op, hsucceeded, hexpects⟩ := Option.bind_eq_some_iff.mp hafter
  obtain ⟨p', a, hp', rfl, hafter⟩ := succeeded_eq_some.mp hsucceeded
  obtain ⟨edit, editor, now, clock, hop'⟩ := Op.expects_eq_some hexpects
  have hstart := Regular.start (n := n) hfits
  have hs₁ := hstart.run hrun₁
  have hs₂ := hs₁.run hrun₂
  obtain ⟨r, hr, hversion⟩ : ∃ r, s₂.committed (.location l) = some r ∧
      r.version = d.row.version := by
    rcases hs₂.answers hstep hp' hafter with ⟨p, hp, _, _, hscript⟩ | ⟨_, heffect⟩
    · rw [succeeded_eq_some.mpr ⟨p, a, hp, rfl, hscript⟩] at hbefore
      cases hbefore
    · rw [hop'] at heffect
      obtain ⟨r, _, hr, _, hversion, _⟩ := heffect
      exact ⟨r, hr, hversion⟩
  refine ⟨r, hr, hversion, fun ls₀ ls' s₀ r₀ hrun₀ hrun' hr₀ hversion₀ => ?_⟩
  -- the three reads of the call, then its answer, then the edit
  obtain ⟨c₃, houtcome, hgrows₃⟩ := hs₁.sound.answered hq hscript
  rw [hop] at houtcome
  obtain ⟨c₁, c₂, hgrows₁, hgrows₂, hrow, hhours, hsecurity⟩ := houtcome d rfl
  have hlast : Grows c₃ s₂.committed := Grows.trans hgrows₃ (hs₁.grows hrun₂)
  have hgrows₀ := (hstart.run hrun₀).grows hrun'
  have hsame₀ := hversion.trans hversion₀.symm
  obtain ⟨_, hr', _, htracked, _⟩ :=
    same_of_grows (hgrows₁.trans (hgrows₂.trans hlast)) (.refl _) hrow hr hversion
  obtain ⟨_, _, _, _, hhours₂, _⟩ := same_of_grows hgrows₁ (hgrows₂.trans hlast) hrow hr hversion
  obtain ⟨_, _, _, _, _, hsecurity₃⟩ :=
    same_of_grows (hgrows₁.trans hgrows₂) hlast hrow hr hversion
  obtain ⟨_, hr'', _, htracked₀, _⟩ := same_of_grows hgrows₀ (.refl _) hr₀ hr hsame₀
  obtain ⟨_, _, _, _, hhours₀, hsecurity₀⟩ := same_of_grows (.refl _) hgrows₀ hr₀ hr hsame₀
  obtain rfl := Option.some.inj (hr'.symm.trans hr)
  obtain rfl := Option.some.inj (hr''.symm.trans hr)
  constructor
  · rw [← htracked, htracked₀]
  · rw [hhours, ← hhours₂, hhours₀]
  · rw [hsecurity, ← hsecurity₃, hsecurity₀]

/-- A form is opened on the location while nobody changes it. -/
def formOpened : List (Label Op) :=
  rackCreated ++ [.start (.details 1), .exec 1, .exec 1, .exec 1]

/-- And its edit runs up to its `COMMIT`. -/
def formSent : List (Label Op) :=
  [.start (.applyEdit 1 1 painted 2 0 0), .exec 2, .exec 2, .exec 2, .exec 2, .exec 2, .exec 2]

theorem edit_form_consistent_painted : ∃ (d : Details) (s₂ : HistorySystem) (r : ParkingLocation),
    HistoryRun noRows 1 (formOpened ++ formSent) s₂ ∧ s₂.committed (.location 1) = some r ∧
      r.version = d.row.version ∧ Shows d r s₂.committed 1 := by
  have hcheck : (formOpened.foldlM (System.next Op.script)
      (⟨noRows, 1, []⟩ : HistorySystem)).any (fun s₁ => (shown s₁ 1).any fun x => x.1 == 1 &&
        (formSent.foldlM (System.next Op.script) s₁).any fun s₂ => (succeeded s₂ 2).isNone &&
          (s₂.next Op.script (.exec 2)).any fun s₃ =>
            (succeeded s₃ 2).bind Op.expects == some (x.1, x.2.row.version)) = true := by
    decide +kernel
  simp only [Option.any_eq_true, Bool.and_eq_true, beq_iff_eq, Option.isNone_iff_eq_none]
    at hcheck
  obtain ⟨s₁, hs₁, ⟨l, d⟩, hshown, rfl, s₂, hs₂, hbefore, s₃, hs₃, hafter⟩ := hcheck
  have hrun := (Run.of_foldlM hs₁).append (Run.of_foldlM hs₂)
  obtain ⟨r, hr, hversion, hshows⟩ := edit_form_consistent (fits_noRows 1) _ s₁ 1 d _ s₂ 2 s₃
    (.of_foldlM hs₁) hshown (.of_foldlM hs₂) hs₃ hbefore hafter
  exact ⟨d, s₂, r, hrun, hr, hversion, hshows _ _ s₂ r hrun (.nil _) hr hversion⟩

end BikesNest.History
