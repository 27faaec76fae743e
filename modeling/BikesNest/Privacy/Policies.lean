import BikesNest.Lib.Run
import BikesNest.Privacy.Anonymize

/-!
# Versions of the legal pages

`seed_policy` publishes a version of a legal page in a locale.  It looks for the version,
supersedes what is current and older, and inserts the new row, each in a statement of its
own; `SqlxPolicyReader::current` reads the page.

* `SoleCurrent` is what a reader expects: one current row, the latest.
* `Succession` is the invariant: a superseded row has a later one with the date at which it
  was superseded, and no current row is older than a later one.
* `published` is what a list of calls publishes, and `Succession.sole_iff` says for which lists
  one row is current.
-/

namespace BikesNest.Privacy

open Relational Runs

/-! ## The table -/

inductive PolicyKind where
  | privacy | terms | cookies
deriving DecidableEq

/-- A row of `policy_version`. -/
structure PolicyVersion where
  kind : PolicyKind
  locale : String
  version : String
  effectiveAt : Instant
  /-- None while the version is current. -/
  supersededAt : Option Instant := none
  content : String

/-- The arguments of a call of `seed_policy`. -/
structure PolicySeed where
  kind : PolicyKind
  locale : String
  version : String
  effectiveAt : Instant
  content : String

abbrev Policies := Table PolicyVersion

/-- `POLICY_LOCALES`, and the `CHECK` on `policy_version.locale`. -/
def policyLocales : List String := ["pt-BR", "en"]

/-- The page and the locale of a row. -/
def PolicyVersion.isOf (kind : PolicyKind) (locale : String) (r : PolicyVersion) : Bool :=
  r.kind == kind && r.locale == locale

def PolicyVersion.isCurrent (kind : PolicyKind) (locale : String) (r : PolicyVersion) : Bool :=
  r.isOf kind locale && r.supersededAt.isNone

/-! ## Publishing -/

/-- The `WHERE` clause of the first statement: the row has this `(kind, locale, version)`. -/
def PolicySeed.isSame (c : PolicySeed) (r : PolicyVersion) : Bool :=
  r.isOf c.kind c.locale && r.version == c.version

/-- The `WHERE` clause of the second: current, and older than the new version. -/
def PolicySeed.dethrones (c : PolicySeed) (r : PolicyVersion) : Bool :=
  r.isCurrent c.kind c.locale && r.effectiveAt < c.effectiveAt

def PolicySeed.row (c : PolicySeed) : PolicyVersion where
  kind := c.kind
  locale := c.locale
  version := c.version
  effectiveAt := c.effectiveAt
  content := c.content

/-- The table after the second statement. -/
def superseded (t : Policies) (c : PolicySeed) : Policies :=
  t.update (fun _ r => c.dethrones r) fun r => { r with supersededAt := some c.effectiveAt }

/-- The third statement, with the constraints of the table. -/
def publish (t : Policies) (c : PolicySeed) : Except PrivacyError (Unit × Policies) :=
  if policyLocales.contains c.locale then
    if t.any fun _ r => c.isSame r then .error .conflict else .ok ((), t.insert c.row)
  else .error (.invalidField "policy_version_locale_check")

/-- `seed_policy`. -/
def seedPolicy (c : PolicySeed) : Service Policies PrivacyError Unit := do
  let present ← Service.query .unavailable fun t => t.any fun _ r => c.isSame r
  if present then return ()
  else
    Service.execute .unavailable fun t => superseded t c
    Service.request .unavailable fun t => publish t c

/-! ## Reading -/

/-- `PolicyDocument`. -/
structure PolicyDocument where
  id : Nat
  kind : PolicyKind
  locale : String
  version : String
  effectiveAt : Instant
  supersededAt : Option Instant
  content : String
deriving DecidableEq

/-- `PolicyRow::into_document`. -/
def intoDocument (id : Nat) (r : PolicyVersion) : PolicyDocument where
  id := id
  kind := r.kind
  locale := r.locale
  version := r.version
  effectiveAt := r.effectiveAt
  supersededAt := r.supersededAt
  content := r.content

/-- `SqlxPolicyReader::current`.  Rows of one date come in any order, which `arrange`
stands for. -/
def currentPolicy (arrange : List (Nat × PolicyVersion) → List (Nat × PolicyVersion))
    (t : Policies) (kind : PolicyKind) (locale : String) : Option PolicyDocument :=
  let rows := arrange (t.select fun _ r => r.isCurrent kind locale)
  (rows.mergeSort fun x y => y.2.effectiveAt ≤ x.2.effectiveAt).head?.map fun x =>
    intoDocument x.1 x.2

/-! ## What a call does -/

section Call

variable {t t' : Policies} {c : PolicySeed} {kind : PolicyKind} {locale : String}

/-- A call finds the version, or supersedes and inserts. -/
theorem seedPolicy_ok :
    (seedPolicy c).run t = (.ok (), t') ↔
      (t.any (fun _ r => c.isSame r) = true ∧ t' = t) ∨
        (t.any (fun _ r => c.isSame r) = false ∧ publish (superseded t c) c = .ok ((), t')) := by
  unfold seedPolicy
  rw [Service.run_of_query]
  cases hpresent : t.any fun _ r => c.isSame r with
  | true => simp [eq_comm]
  | false =>
    simp only [Bool.false_eq_true, if_false, Service.run_bind, Service.run_execute, false_and,
      true_and, false_or]
    exact Service.run_request_ok

theorem publish_ok (h : publish t c = .ok ((), t')) : t' = t.insert c.row := by
  unfold publish at h
  split at h
  · split at h
    · cases h
    · cases h
      rfl
  · cases h

end Call

/-! ## The invariant -/

/-- A superseded row has a later row with the date at which it was superseded, and no current
row is older than a later row. -/
structure Succession (t : Policies) : Prop where
  succeeded : ∀ {i r d}, t.row i = some r → r.supersededAt = some d → ∃ j r', i < j ∧
    t.row j = some r' ∧ r'.isOf r.kind r.locale = true ∧ r.effectiveAt < r'.effectiveAt
  standing : ∀ {i j r r'}, t.row i = some r → t.row j = some r' → i < j →
    r'.isOf r.kind r.locale = true → r.supersededAt = none → r'.effectiveAt ≤ r.effectiveAt

theorem succession_empty : Succession (Table.empty : Policies) where
  succeeded h := by cases h
  standing h := by cases h

variable {t t' : Policies} {c : PolicySeed} {kind : PolicyKind} {locale : String}

theorem isOf_iff {r : PolicyVersion} :
    r.isOf kind locale = true ↔ r.kind = kind ∧ r.locale = locale := by
  simp [PolicyVersion.isOf]

/-- A row after the first two statements and the new one. -/
theorem row_published {i : Nat} {x : PolicyVersion} :
    ((superseded t c).insert c.row).row i = some x ↔
      (i = t.next ∧ x = c.row) ∨ ∃ r, t.row i = some r ∧
        x = if c.dethrones r then { r with supersededAt := some c.effectiveAt } else r := by
  rw [Table.row_insert_eq_some]
  exact or_congr Iff.rfl Table.row_update_eq_some

theorem Succession.publish (h : Succession t) : Succession ((superseded t c).insert c.row) := by
  refine ⟨fun {i x d} hx hd => ?_, fun {i j x y} hx hy hlt hof hnone => ?_⟩
  · rcases row_published.mp hx with ⟨_, rfl⟩ | ⟨r, hr, rfl⟩
    · cases hd
    cases hp : c.dethrones r with
    | true =>
      simp only [PolicySeed.dethrones, PolicyVersion.isCurrent, Bool.and_eq_true, isOf_iff,
        decide_eq_true_eq] at hp
      obtain ⟨⟨⟨hkind, hlocale⟩, _⟩, hdate⟩ := hp
      have hlater : i < t.next := Table.lt_next hr
      refine ⟨t.next, c.row, hlater, row_published.mpr (.inl ⟨rfl, rfl⟩), ?_, ?_⟩
      · rw [if_pos rfl]
        exact isOf_iff.mpr ⟨hkind.symm, hlocale.symm⟩
      · rw [if_pos rfl]
        exact hdate
    | false =>
      rw [hp, if_neg Bool.false_ne_true] at hd
      rw [if_neg Bool.false_ne_true]
      obtain ⟨j, r', hlt, hr', hof, hdate⟩ := h.succeeded hr hd
      refine ⟨j, _, hlt, row_published.mpr (.inr ⟨r', hr', rfl⟩), ?_, ?_⟩
      · split <;> exact hof
      · split <;> exact hdate
  · rcases row_published.mp hx with ⟨rfl, rfl⟩ | ⟨r, hr, rfl⟩
    · -- the new row is the last
      rcases row_published.mp hy with ⟨rfl, _⟩ | ⟨r', hr', _⟩
      · omega
      · have hbefore := Table.lt_next hr'
        omega
    cases hp : c.dethrones r with
    | true =>
      rw [hp, if_pos rfl] at hnone
      cases hnone
    | false =>
      rw [hp, if_neg Bool.false_ne_true] at hnone hof
      rw [if_neg Bool.false_ne_true]
      rcases row_published.mp hy with ⟨_, rfl⟩ | ⟨r', hr', rfl⟩
      · obtain ⟨hkind, hlocale⟩ := isOf_iff.mp hof
        simp only [PolicySeed.dethrones, PolicyVersion.isCurrent, Bool.and_eq_false_iff] at hp
        have hof' : r.isOf c.kind c.locale = true := isOf_iff.mpr ⟨hkind.symm, hlocale.symm⟩
        rcases hp with (hother | hsuperseded) | holder
        · rw [hof'] at hother
          cases hother
        · rw [hnone] at hsuperseded
          cases hsuperseded
        · have hle : c.effectiveAt ≤ r.effectiveAt := by simpa using holder
          exact hle
      · have hof' : r'.isOf r.kind r.locale = true := by split at hof <;> exact hof
        have hle := h.standing hr hr' hlt hof' hnone
        split <;> exact hle

/-- The calls one after the other, each completed. -/
abbrev Seeded : Policies → List PolicySeed → Policies → Prop :=
  Run fun t c t' => (seedPolicy c).run t = (.ok (), t')

theorem Succession.seeded {cs : List PolicySeed} (hrun : Seeded t cs t') (h : Succession t) : Succession t' := by
  refine hrun.invariant (fun t c t' ht hstep => ?_) h
  rcases seedPolicy_ok.mp hstep with ⟨_, rfl⟩ | ⟨_, hpublish⟩
  · exact ht
  · rw [publish_ok hpublish]
    exact ht.publish

/-! ## One current row -/

/-- The row is the only current one and the latest, of equal dates the last that was
published, and the reader answers it. -/
structure SoleCurrent (kind : PolicyKind) (locale : String) (t : Policies) (i : Nat)
    (r : PolicyVersion) : Prop where
  row : t.row i = some r
  current : r.isCurrent kind locale = true
  only : ∀ {j r'}, t.row j = some r' → r'.isCurrent kind locale = true → j = i
  latest : ∀ {j r'}, t.row j = some r' → r'.isOf kind locale = true →
    r'.effectiveAt ≤ r.effectiveAt ∧ (r'.effectiveAt = r.effectiveAt → j ≤ i)
  read : ∀ arrange : List (Nat × PolicyVersion) → List (Nat × PolicyVersion),
    (∀ rows, (arrange rows).Perm rows) →
      currentPolicy arrange t kind locale = some (intoDocument i r)

/-- One current row is what the reader answers, whatever the order of the rows. -/
theorem currentPolicy_of_only {i : Nat} {r : PolicyVersion} (hr : t.row i = some r)
    (hcurrent : r.isCurrent kind locale = true)
    (honly : ∀ {j r'}, t.row j = some r' → r'.isCurrent kind locale = true → j = i)
    {arrange : List (Nat × PolicyVersion) → List (Nat × PolicyVersion)}
    (harrange : ∀ rows, (arrange rows).Perm rows) :
    currentPolicy arrange t kind locale = some (intoDocument i r) := by
  unfold currentPolicy
  dsimp only
  generalize hsorted : (arrange (t.select fun _ r => r.isCurrent kind locale)).mergeSort
    (fun x y => y.2.effectiveAt ≤ x.2.effectiveAt) = sorted
  have hperm : sorted.Perm (t.select fun _ r => r.isCurrent kind locale) := by
    rw [← hsorted]
    exact (List.mergeSort_perm ..).trans (harrange _)
  have hmem : (i, r) ∈ sorted := hperm.mem_iff.mpr (Table.mem_select.mpr ⟨hr, hcurrent⟩)
  cases sorted with
  | nil => cases hmem
  | cons x rest =>
    obtain ⟨j, r'⟩ := x
    obtain ⟨hr', hcurrent'⟩ := Table.mem_select.mp (hperm.mem_iff.mp List.mem_cons_self)
    obtain rfl := honly hr' hcurrent'
    rw [hr] at hr'
    rw [Option.some.inj hr']
    rfl

/-- The last row of a page in a locale is current. -/
theorem Succession.last_current (h : Succession t) {older : List (Nat × PolicyVersion)} {k : Nat}
    {last : PolicyVersion} (hlast : (t.select fun _ r => r.isOf kind locale) = older ++ [(k, last)])
    (horder : ∀ y ∈ older, y.1 < k) :
    t.row k = some last ∧ last.isCurrent kind locale = true := by
  have hmem : (k, last) ∈ t.select fun _ r => r.isOf kind locale := by
    rw [hlast]
    exact List.mem_append_right _ List.mem_cons_self
  obtain ⟨hrow, hof⟩ := Table.mem_select.mp hmem
  refine ⟨hrow, ?_⟩
  rw [PolicyVersion.isCurrent, hof, Bool.true_and]
  cases hd : last.supersededAt with
  | none => rfl
  | some d =>
    obtain ⟨j, r', hlt, hr', hof', _⟩ := h.succeeded hrow hd
    obtain ⟨hkind, hlocale⟩ := isOf_iff.mp hof
    rw [hkind, hlocale] at hof'
    have hmem' : (j, r') ∈ t.select fun _ r => r.isOf kind locale :=
      Table.mem_select.mpr ⟨hr', hof'⟩
    rw [hlast, List.mem_append, List.mem_singleton] at hmem'
    rcases hmem' with hbefore | hsame
    · have hbound := horder _ hbefore
      dsimp only at hbound
      omega
    · cases hsame
      omega

/-- A sole current row is the last, and later than all before it. -/
theorem Succession.later_of_sole (h : Succession t) {i : Nat} {r : PolicyVersion}
    (hsole : SoleCurrent kind locale t i r) :
    ∃ older, (t.select fun _ r => r.isOf kind locale) = older ++ [(i, r)] ∧
      ∀ x ∈ older, x.2.effectiveAt < r.effectiveAt := by
  have hof : r.isOf kind locale = true := by
    have hcurrent := hsole.current
    rw [PolicyVersion.isCurrent, Bool.and_eq_true] at hcurrent
    exact hcurrent.1
  obtain ⟨older, k, last, hlast, horder⟩ :=
    Table.select_eq_append (p := fun _ r => PolicyVersion.isOf kind locale r) hsole.row hof
  obtain ⟨hrow, hcurrent⟩ := h.last_current hlast horder
  obtain rfl := hsole.only hrow hcurrent
  obtain rfl := Option.some.inj (hsole.row.symm.trans hrow)
  refine ⟨older, hlast, fun x hx => ?_⟩
  have hbefore := horder x hx
  have hmem : x ∈ t.select fun _ r => r.isOf kind locale := by
    rw [hlast]
    exact List.mem_append_left _ hx
  obtain ⟨hxrow, hxof⟩ := Table.mem_select.mp hmem
  refine lt_of_le_of_ne (hsole.latest hxrow hxof).1 fun heq => ?_
  -- a row of the same date would be current too
  cases hd : x.2.supersededAt with
  | none =>
    have hxcurrent : x.2.isCurrent kind locale = true := by
      rw [PolicyVersion.isCurrent, hxof, hd]
      rfl
    have hsame := hsole.only hxrow hxcurrent
    omega
  | some d =>
    obtain ⟨j, r', _, hr', hof', hlater⟩ := h.succeeded hxrow hd
    obtain ⟨hkind, hlocale⟩ := isOf_iff.mp hxof
    rw [hkind, hlocale] at hof'
    have hle := (hsole.latest hr' hof').1
    rw [heq] at hlater
    exact absurd hlater (not_lt.mpr hle)

/-- A last row that is later than all before it is the sole current one. -/
theorem Succession.sole_of_later (h : Succession t) {older : List (Nat × PolicyVersion)} {i : Nat}
    {r : PolicyVersion} (hlast : (t.select fun _ r => r.isOf kind locale) = older ++ [(i, r)])
    (hlater : ∀ x ∈ older, x.2.effectiveAt < r.effectiveAt) : SoleCurrent kind locale t i r := by
  have horder : ∀ y ∈ older, y.1 < i := by
    have hpairs := t.pairwise_select fun _ r => r.isOf kind locale
    rw [hlast, List.pairwise_append] at hpairs
    exact fun y hy => hpairs.2.2 y hy (i, r) List.mem_cons_self
  obtain ⟨hrow, hcurrent⟩ := h.last_current hlast horder
  have hcases : ∀ {j r'}, t.row j = some r' → r'.isOf kind locale = true →
      j = i ∨ j < i ∧ r'.effectiveAt < r.effectiveAt := by
    intro j r' hr' hof'
    have hmem : (j, r') ∈ t.select fun _ r => r.isOf kind locale :=
      Table.mem_select.mpr ⟨hr', hof'⟩
    rw [hlast, List.mem_append, List.mem_singleton] at hmem
    rcases hmem with hold | hsame
    · exact .inr ⟨horder _ hold, hlater _ hold⟩
    · exact .inl (congrArg Prod.fst hsame)
  have honly : ∀ {j r'}, t.row j = some r' → r'.isCurrent kind locale = true → j = i := by
    intro j r' hr' hcurrent'
    simp only [PolicyVersion.isCurrent, Bool.and_eq_true, Option.isNone_iff_eq_none] at hcurrent'
    rcases hcases hr' hcurrent'.1 with hsame | ⟨hlt, hdate⟩
    · exact hsame
    · obtain ⟨hkind, hlocale⟩ := isOf_iff.mp hcurrent'.1
      simp only [PolicyVersion.isCurrent, Bool.and_eq_true] at hcurrent
      have hle := h.standing hr' hrow hlt (by rw [hkind, hlocale]; exact hcurrent.1) hcurrent'.2
      exact absurd hdate (not_lt.mpr hle)
  refine ⟨hrow, hcurrent, honly, fun {j r'} hr' hof' => ?_, fun arrange harrange =>
    currentPolicy_of_only hrow hcurrent honly harrange⟩
  rcases hcases hr' hof' with rfl | ⟨hlt, hdate⟩
  · rw [hrow] at hr'
    rw [Option.some.inj hr']
    exact ⟨le_rfl, fun _ => le_rfl⟩
  · exact ⟨hdate.le, fun _ => hlt.le⟩

/-! ## What the calls publish -/

/-- The arguments of the call that inserted the row. -/
def PolicyVersion.seed (r : PolicyVersion) : PolicySeed where
  kind := r.kind
  locale := r.locale
  version := r.version
  effectiveAt := r.effectiveAt
  content := r.content

/-- A call publishes unless its `(kind, locale, version)` is there. -/
def shelve (done : List PolicySeed) (c : PolicySeed) : List PolicySeed :=
  if done.any fun d => c.isSame d.row then done else done ++ [c]

/-- The calls that publish, the first for each `(kind, locale, version)`. -/
def published (cs : List PolicySeed) : List PolicySeed := cs.foldl shelve []

/-- The rows are what was published, in that order. -/
def Shelved (t : Policies) (done : List PolicySeed) : Prop :=
  t.rows.map (fun x => x.2.seed) = done

theorem Shelved.any_isSame {done : List PolicySeed} (h : Shelved t done) :
    (t.any fun _ r => c.isSame r) = done.any fun d => c.isSame d.row := by
  rw [← h, Table.any, List.any_map]
  rfl

theorem shelved_seeded {cs done : List PolicySeed} (hrun : Seeded t cs t') (h : Shelved t done) :
    Shelved t' (cs.foldl shelve done) := by
  induction hrun generalizing done with
  | nil => exact h
  | @cons t t₁ t' c cs head tail ih =>
    apply ih
    unfold shelve
    rw [← h.any_isSame]
    rcases seedPolicy_ok.mp head with ⟨hpresent, rfl⟩ | ⟨hnew, hpublish⟩
    · rw [if_pos hpresent]
      exact h
    · rw [hnew, if_neg Bool.false_ne_true, publish_ok hpublish]
      unfold Shelved superseded
      rw [Table.rows_insert, Table.rows_update, List.map_append, List.map_map, ← h]
      congr 1
      apply List.map_congr_left
      intro x _
      dsimp only [Function.comp_apply]
      split <;> rfl

/-- A list of calls leaves one current row exactly when the last version it published is
later than all before it. -/
theorem Succession.sole_iff (h : Succession t) {done : List PolicySeed} (hshelved : Shelved t done) :
    (∃ i r, SoleCurrent kind locale t i r) ↔
      ∃ older last, (done.filter fun d => d.row.isOf kind locale) = older ++ [last] ∧
        ∀ d ∈ older, d.effectiveAt < last.effectiveAt := by
  have hfilter : (done.filter fun d => d.row.isOf kind locale) =
      (t.select fun _ r => r.isOf kind locale).map fun x => x.2.seed := by
    rw [← hshelved, Table.select, List.filter_map]
    rfl
  constructor
  · rintro ⟨i, r, hsole⟩
    obtain ⟨older, hlast, hlater⟩ := h.later_of_sole hsole
    refine ⟨older.map fun x => x.2.seed, r.seed, ?_, fun d hd => ?_⟩
    · rw [hfilter, hlast, List.map_append]
      rfl
    · obtain ⟨x, hx, rfl⟩ := List.mem_map.mp hd
      exact hlater x hx
  · rintro ⟨older, last, hlast, hlater⟩
    rw [hfilter] at hlast
    obtain ⟨rows, tail, hrows, rfl, htail⟩ := List.map_eq_append_iff.mp hlast
    obtain ⟨⟨i, r⟩, hsingle, rfl⟩ : ∃ x, tail = [x] ∧ x.2.seed = last := by
      cases tail with
      | nil => cases htail
      | cons x rest =>
        obtain ⟨hx, hnil⟩ := List.cons.inj htail
        exact ⟨x, by rw [List.map_eq_nil_iff.mp hnil], hx⟩
    rw [hsingle] at hrows
    exact ⟨i, r, h.sole_of_later hrows fun x hx => hlater _ (List.mem_map_of_mem hx)⟩

/-! ## An interrupted call -/

/-- The page has a current version in the locale. -/
def hasCurrent (kind : PolicyKind) (locale : String) (t : Policies) : Bool :=
  t.any fun _ r => r.isCurrent kind locale

/-- The second statement leaves the current rows that are not older. -/
theorem hasCurrent_superseded :
    hasCurrent c.kind c.locale (superseded t c) = true ↔
      ∃ i r, t.row i = some r ∧ r.isCurrent c.kind c.locale = true ∧
        c.effectiveAt ≤ r.effectiveAt := by
  rw [hasCurrent, Table.any_iff]
  constructor
  · rintro ⟨i, x, hx, hcurrent⟩
    obtain ⟨r, hr, rfl⟩ := Table.row_update_eq_some.mp hx
    cases hp : c.dethrones r with
    | true =>
      rw [hp, if_pos rfl] at hcurrent
      simp [PolicyVersion.isCurrent] at hcurrent
    | false =>
      rw [hp, if_neg Bool.false_ne_true] at hcurrent
      refine ⟨i, r, hr, hcurrent, ?_⟩
      rw [PolicySeed.dethrones, hcurrent, Bool.true_and] at hp
      simpa using hp
  · rintro ⟨i, r, hr, hcurrent, hdate⟩
    have hp : c.dethrones r = false := by
      simp [PolicySeed.dethrones, hdate]
    refine ⟨i, r, ?_, hcurrent⟩
    rw [superseded, Table.row_update_of_some _ _ hr, hp, if_neg Bool.false_ne_true]

theorem hasCurrent_publish {t₁ : Policies} (h : publish t c = .ok ((), t₁))
    (hcurrent : hasCurrent kind locale t = true) : hasCurrent kind locale t₁ = true := by
  obtain ⟨i, r, hr, hcurrent⟩ := Table.any_iff.mp hcurrent
  rw [publish_ok h]
  exact Table.any_iff.mpr ⟨i, r, Table.row_insert_of_some _ hr, hcurrent⟩

/-- What an interruption leaves: the table as it was, as the second statement left it, or with
the new row. -/
theorem seedPolicy_interrupted (t : Policies) (c : PolicySeed) (n : Nat) :
    ((seedPolicy c).runLosing (some n) t).2 =
      if t.any (fun _ r => c.isSame r) ∨ n ≤ 1 then t
      else if n = 2 then superseded t c
      else match publish (superseded t c) c with
        | .ok (_, t') => t'
        | .error _ => superseded t c := by
  unfold seedPolicy
  rw [Service.runLosing_query]
  match n with
  | 0 => simp
  | 1 =>
    cases hpresent : t.any fun _ r => c.isSame r with
    | true => rfl
    | false => rfl
  | 2 =>
    cases hpresent : t.any fun _ r => c.isSame r with
    | true => rfl
    | false => rfl
  | n + 3 =>
    cases hpresent : t.any fun _ r => c.isSame r with
    | true => rfl
    | false =>
      have hlate : ¬ (false = true ∨ n + 3 ≤ 1) := by simp
      rw [if_neg (by simp), if_neg Bool.false_ne_true, Service.runLosing_execute, if_neg (by simp),
        if_neg hlate, if_neg (by omega)]
      show ((Service.request .unavailable fun t => publish t c).runFailing (n + 1)
        (superseded t c)).2 = _
      simp only [Service.request, Service.runFailing]
      cases publish (superseded t c) c <;> rfl

/-- Every interruption of a call leaves a current version exactly when the call has nothing to
publish, or a current row is not older than the new version. -/
theorem current_after_interruption (hcurrent : hasCurrent c.kind c.locale t = true) :
    (∀ n, hasCurrent c.kind c.locale ((seedPolicy c).runLosing (some n) t).2 = true) ↔
      t.any (fun _ r => c.isSame r) = true ∨
        ∃ i r, t.row i = some r ∧ r.isCurrent c.kind c.locale = true ∧
          c.effectiveAt ≤ r.effectiveAt := by
  rw [← hasCurrent_superseded]
  constructor
  · intro h
    have hsecond := h 2
    rw [seedPolicy_interrupted] at hsecond
    cases hpresent : t.any fun _ r => c.isSame r with
    | true => exact .inl rfl
    | false =>
      rw [hpresent, if_neg (by simp), if_pos rfl] at hsecond
      exact .inr hsecond
  · intro h n
    rw [seedPolicy_interrupted]
    split
    · exact hcurrent
    · rename_i hstarted
      have hstays := h.resolve_left fun hpresent => hstarted (.inl hpresent)
      split
      · exact hstays
      · split
        · rename_i hpublish
          exact hasCurrent_publish hpublish hstays
        · exact hstays

/-! ## The law -/

/-- After any list of completed calls, whatever their versions and dates: one row of a page in a
locale is current, the latest and the one that the reader answers, exactly when the last
version that was published is later than all before it.  And every interruption of a further
call leaves a current version where there was one exactly when the call has nothing to
publish, or a current row is not older than the new version. -/
theorem seeded_policies_current {cs : List PolicySeed} {t : Policies}
    (hrun : Seeded Table.empty cs t) :
    (∀ kind locale, (∃ i r, SoleCurrent kind locale t i r) ↔
      ∃ older last, ((published cs).filter fun d => d.row.isOf kind locale) = older ++ [last] ∧
        ∀ d ∈ older, d.effectiveAt < last.effectiveAt) ∧
    ∀ c : PolicySeed, hasCurrent c.kind c.locale t = true →
      ((∀ n, hasCurrent c.kind c.locale ((seedPolicy c).runLosing (some n) t).2 = true) ↔
        t.any (fun _ r => c.isSame r) = true ∨
          ∃ i r, t.row i = some r ∧ r.isCurrent c.kind c.locale = true ∧
            c.effectiveAt ≤ r.effectiveAt) :=
  ⟨fun _ _ => (succession_empty.seeded hrun).sole_iff (shelved_seeded hrun rfl),
    fun _ => current_after_interruption⟩

/-- A completed call, as a step that can be computed. -/
def seedNext (t : Policies) (c : PolicySeed) : Option Policies :=
  match (seedPolicy c).run t with
  | (.ok (), t') => some t'
  | (.error _, _) => none

theorem seeded_of_foldlM {cs : List PolicySeed} (h : cs.foldlM seedNext t = some t') :
    Seeded t cs t' := by
  refine (Run.of_foldlM h).mono fun t c t' hnext => ?_
  unfold seedNext at hnext
  split at hnext
  · rename_i hrun
    rw [hrun, Option.some.inj hnext]
  · cases hnext

/-- The privacy policy of January. -/
def january : PolicySeed where
  kind := .privacy
  locale := "pt-BR"
  version := "2026-01-01.1"
  effectiveAt := 1767225600 * second
  content := "# Privacidade"

/-- The privacy policy of February. -/
def february : PolicySeed :=
  { january with version := "2026-02-01.1", effectiveAt := 1769904000 * second }

theorem seeded_policies_current_in_order :
    ∃ t, Seeded Table.empty [january, february] t ∧
      ∃ i r, SoleCurrent .privacy "pt-BR" t i r := by
  have hend : ([january, february].foldlM seedNext Table.empty).isSome = true := by
    decide +kernel
  obtain ⟨t, ht⟩ := Option.isSome_iff_exists.mp hend
  have hrun := seeded_of_foldlM ht
  have hlist : ((published [january, february]).filter fun d => d.row.isOf .privacy "pt-BR") =
      [january] ++ [february] := by rfl
  exact ⟨t, hrun, ((seeded_policies_current hrun).1 .privacy "pt-BR").mpr
    ⟨[january], february, hlist, by decide⟩⟩

/-- The older version is published after the newer one, and both are current.  A publication
that stops before its third statement leaves none. -/
theorem not_sole_current :
    (∃ t, Seeded Table.empty [february, january] t ∧
      ¬ ∃ i r, SoleCurrent .privacy "pt-BR" t i r) ∧
    ∃ t, Seeded Table.empty [january] t ∧ hasCurrent .privacy "pt-BR" t = true ∧
      hasCurrent .privacy "pt-BR" ((seedPolicy february).runLosing (some 2) t).2 = false := by
  constructor
  · have hboth : ([february, january].foldlM seedNext Table.empty).any (fun t =>
        (t.row 1).any (PolicyVersion.isCurrent .privacy "pt-BR") &&
          (t.row 2).any (PolicyVersion.isCurrent .privacy "pt-BR")) = true := by decide +kernel
    obtain ⟨t, ht, hboth⟩ := (Option.any_eq_true ..).mp hboth
    simp only [Bool.and_eq_true, Option.any_eq_true] at hboth
    obtain ⟨⟨r, hr, hcurrent⟩, r', hr', hcurrent'⟩ := hboth
    refine ⟨t, seeded_of_foldlM ht, fun h => ?_⟩
    obtain ⟨i, _, hsole⟩ := h
    have hfirst : 1 = i := hsole.only hr hcurrent
    have hsecond : 2 = i := hsole.only hr' hcurrent'
    omega
  · have hgone : ([january].foldlM seedNext Table.empty).any (fun t =>
        hasCurrent .privacy "pt-BR" t &&
          !hasCurrent .privacy "pt-BR" ((seedPolicy february).runLosing (some 2) t).2) = true := by
      decide +kernel
    obtain ⟨t, ht, hgone⟩ := (Option.any_eq_true ..).mp hgone
    simp only [Bool.and_eq_true, Bool.not_eq_true'] at hgone
    exact ⟨t, seeded_of_foldlM ht, hgone.1, hgone.2⟩

end BikesNest.Privacy
