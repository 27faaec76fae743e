import BikesNest.Community.Location

/-!
# What a snapshot says of the tables

`Matches` compares a snapshot with the rows of a location: the columns one by
one, the opening hours as a multiset, and the security features by what they
say of every code.

`snapshotWith` reads the rows, so it always matches them.  `snapshotOf` takes
the values of the request, which the writers normalise on the way into the
tables.  `plainHours` and `plainSecurity` say of a request that the writers
leave it as it is, and with that decide whether the snapshot matches.
-/

namespace BikesNest.History

open Domain Community

/-! ## Reading a snapshot -/

/-- The rows say `state` of the feature `code`; of a missing code they say that
it is unknown. -/
def Says (rows : List SecurityRow) (code : String) (state : Nat) : Prop :=
  ⟨code, state⟩ ∈ rows ∨ (state = 0 ∧ ∀ r ∈ rows, r.featureCode ≠ code)

/-- The snapshot is that of the row and its child rows. -/
structure Matches (snapshot : Snapshot) (row : ParkingLocation) (hours : List HourRow)
    (security : List SecurityRow) : Prop where
  name : snapshot.name = row.name
  address : snapshot.address = row.address
  description : snapshot.description = row.description
  parkingType : snapshot.parkingType = row.parkingType
  cost : snapshot.cost = costJson row
  point : snapshot.point = row.point
  timezone : snapshot.timezone = row.timezone
  hoursUnknown : snapshot.hoursUnknown = row.hoursUnknown
  hours : snapshot.hours.Perm (hoursJson hours)
  security : ∀ code state, Says snapshot.security code state ↔ Says security code state
  moderationState : snapshot.moderationState = row.moderationState

/-- A snapshot that is read from the tables matches them. -/
theorem matches_snapshotWith (row : ParkingLocation) (hours : List HourRow)
    (security : List SecurityRow) :
    Matches (snapshotWith row hours security) row hours security :=
  ⟨rfl, rfl, rfl, rfl, rfl, rfl, rfl, rfl, .refl _, fun _ _ => .rfl, rfl⟩

/-! ## Opening hours -/

/-- A row of opening hours as it comes back from the table. -/
def stored (h : HourJson) : HourJson where
  day := h.day
  opensAt := if h.allDay then .midnight else .ofMicros h.opensAt.micros
  closesAt := if h.allDay then .lastSecond else .ofMicros h.closesAt.micros
  allDay := h.allDay

/-- The range comes back as it went in: a whole day from 00:00 to 23:59:59, or
two times of day that the table can hold. -/
def plainRange (range : TimeRange) : Bool :=
  if range.allDay then range.opensAt == .midnight && range.closesAt == .lastSecond
  else range.opensAt.isStorable && range.closesAt.isStorable

def plainHours (hours : OpeningHours) : Bool := hours.rows.all fun x => plainRange x.2

theorem ofMicros_micros_ofMicros (us : Nat) :
    TimeOfDay.ofMicros (TimeOfDay.ofMicros us).micros = .ofMicros us := by
  rw [TimeOfDay.ofMicros_micros_iff, TimeOfDay.isStorable, Bool.and_eq_true, decide_eq_true_eq,
    beq_iff_eq]
  show us % 1000000 * 1000 < 1000000000 ∧ us % 1000000 * 1000 % 1000 = 0
  omega

/-- A row that came back from the table comes back as it is. -/
theorem stored_stored (h : HourJson) : stored (stored h) = stored h := by
  cases hday : h.allDay <;> simp [stored, hday, ofMicros_micros_ofMicros]

/-- The rows of a request as they come back, in some order. -/
theorem hoursJson_perm (hours : OpeningHours) :
    (hoursJson (hours.rows.map hourRow)).Perm ((hoursJsonOf hours).map stored) := by
  refine (List.Perm.map _ (List.perm_insertionSort _ _)).trans ?_
  rw [hoursJsonOf, List.map_map, List.map_map]
  refine List.Perm.of_eq (List.map_congr_left fun x _ => ?_)
  have hmidnight : TimeOfDay.ofMicros TimeOfDay.midnight.micros = .midnight := rfl
  have hlast : TimeOfDay.ofMicros TimeOfDay.lastSecond.micros = .lastSecond := rfl
  cases hday : x.2.allDay <;> simp [stored, hourRow, hday, hmidnight, hlast]

theorem stored_eq_iff (x : Nat × TimeRange) :
    stored ⟨x.1, x.2.opensAt, x.2.closesAt, x.2.allDay⟩ =
      ⟨x.1, x.2.opensAt, x.2.closesAt, x.2.allDay⟩ ↔ plainRange x.2 = true := by
  cases hday : x.2.allDay with
  | true =>
    simp only [stored, plainRange, hday, if_true, HourJson.mk.injEq, Bool.and_eq_true,
      beq_iff_eq, and_true, true_and]
    exact and_congr eq_comm eq_comm
  | false => simp [stored, plainRange, hday, TimeOfDay.ofMicros_micros_iff]

/-- A function that changes nothing the second time leaves a list as it is, up
to the order, exactly when it leaves every member as it is. -/
theorem perm_map_iff {α : Type} {f : α → α} (hf : ∀ x, f (f x) = f x) (xs : List α) :
    xs.Perm (xs.map f) ↔ ∀ x ∈ xs, f x = x := by
  constructor
  · intro hperm x hx
    obtain ⟨y, _, rfl⟩ := List.mem_map.mp (hperm.mem_iff.mp hx)
    exact hf y
  · intro hfix
    rw [List.map_congr_left hfix, List.map_id']

/-- The hours of a request are the hours of the table exactly when they are
plain. -/
theorem hoursJsonOf_perm_iff (hours : OpeningHours) :
    (hoursJsonOf hours).Perm (hoursJson (hours.rows.map hourRow)) ↔ plainHours hours = true := by
  have hperm := hoursJson_perm hours
  have hswap : (hoursJsonOf hours).Perm (hoursJson (hours.rows.map hourRow)) ↔
      (hoursJsonOf hours).Perm ((hoursJsonOf hours).map stored) :=
    ⟨fun h => h.trans hperm, fun h => h.trans hperm.symm⟩
  rw [hswap, perm_map_iff stored_stored, plainHours, List.all_eq_true, hoursJsonOf,
    List.forall_mem_map]
  exact forall₂_congr fun x _ => stored_eq_iff x

/-! ## Security features -/

/-- The state that `write_security` stores for a code: that of the first feature
with the code.  A code that is not in the catalogue is not stored. -/
def requested (security : List SecurityFeature) (code : String) : SecurityState :=
  if code ∈ securityFeatureCodes then
    ((security.find? fun f => f.code == code).map SecurityFeature.state).getD .unknown
  else .unknown

/-- Every feature has the state that is stored for its code. -/
def plainSecurity (security : List SecurityFeature) : Bool :=
  security.all fun f => f.state == requested security f.code

theorem mem_upsertSecurity {rows : List SecurityRow} {r x : SecurityRow} :
    x ∈ upsertSecurity rows r ↔ x = r ∨ (x ∈ rows ∧ x.featureCode ≠ r.featureCode) := by
  unfold upsertSecurity
  split
  · rename_i hany
    obtain ⟨y, hy, hcode⟩ := List.any_eq_true.mp hany
    rw [beq_iff_eq] at hcode
    rw [List.mem_map]
    constructor
    · rintro ⟨z, hz, rfl⟩
      by_cases hz' : z.featureCode = r.featureCode
      · exact .inl (by simp [hz'])
      · exact .inr (by simp [hz', hz])
    · rintro (rfl | ⟨hx, hne⟩)
      · exact ⟨y, hy, by simp [hcode]⟩
      · exact ⟨x, hx, by simp [hne]⟩
  · rename_i hany
    have hne : ∀ y ∈ rows, y.featureCode ≠ r.featureCode := by simpa using hany
    rw [List.mem_append, List.mem_singleton, or_comm]
    exact or_congr_right ⟨fun hx => ⟨hx, hne x hx⟩, And.left⟩

theorem says_upsertSecurity (rows : List SecurityRow) (r : SecurityRow) (code : String)
    (state : Nat) :
    Says (upsertSecurity rows r) code state ↔
      if code = r.featureCode then state = r.state else Says rows code state := by
  obtain ⟨code', state'⟩ := r
  simp only [Says, mem_upsertSecurity, SecurityRow.mk.injEq]
  split
  · rename_i hcode
    subst hcode
    simp
  · rename_i hcode
    have hother : ∀ x : SecurityRow, (x = ⟨code', state'⟩ ∨ x ∈ rows ∧ x.featureCode ≠ code' →
        x.featureCode ≠ code) ↔ (x ∈ rows → x.featureCode ≠ code) := by
      intro x
      constructor
      · rintro h hx rfl
        exact h (.inr ⟨hx, hcode⟩) rfl
      · rintro h (rfl | ⟨hx, _⟩)
        · exact fun heq => hcode heq.symm
        · exact h hx
    simp [hcode, hother]

/-- One upsert for each of some different codes. -/
theorem says_foldl_upsertSecurity (code : String) (state : Nat) :
    ∀ (rs : List SecurityRow) (rows : List SecurityRow),
      (rs.map SecurityRow.featureCode).Nodup →
      (Says (rs.foldl upsertSecurity rows) code state ↔
        (∃ r ∈ rs, r.featureCode = code ∧ state = r.state) ∨
        ((∀ r ∈ rs, r.featureCode ≠ code) ∧ Says rows code state))
  | [], rows, _ => by simp
  | r :: rs, rows, hnodup => by
    obtain ⟨hnew, hnodup⟩ := List.nodup_cons.mp hnodup
    rw [List.foldl_cons, says_foldl_upsertSecurity code state rs _ hnodup, says_upsertSecurity]
    by_cases hcode : code = r.featureCode
    · have hrest : ∀ x ∈ rs, x.featureCode ≠ code := fun x hx hx' =>
        hnew (List.mem_map.mpr ⟨x, hx, hx'.trans hcode⟩)
      rw [if_pos hcode]
      constructor
      · rintro (⟨x, hx, hx', _⟩ | ⟨_, hstate⟩)
        · exact absurd hx' (hrest x hx)
        · exact .inl ⟨r, List.mem_cons_self .., hcode.symm, hstate⟩
      · rintro (⟨x, hx, hx', hstate⟩ | ⟨hno, _⟩)
        · rcases List.mem_cons.mp hx with rfl | hx
          · exact .inr ⟨hrest, hstate⟩
          · exact absurd hx' (hrest x hx)
        · exact absurd hcode.symm (hno r (List.mem_cons_self ..))
    · have hne : r.featureCode ≠ code := Ne.symm hcode
      simp [hcode, hne]

theorem mem_securityRows {security : List SecurityFeature} {r : SecurityRow} :
    r ∈ securityRows security ↔
      r.featureCode ∈ securityFeatureCodes ∧
        r.state = (requested security r.featureCode).smallint := by
  rw [securityRows, List.mem_map]
  constructor
  · rintro ⟨code, hcode, rfl⟩
    exact ⟨hcode, by rw [requested, if_pos hcode]⟩
  · rintro ⟨hcode, hstate⟩
    rw [requested, if_pos hcode] at hstate
    exact ⟨r.featureCode, hcode, by rw [← hstate]⟩

/-- What the table says after `write_security`. -/
theorem says_upsertSecurityRows {rows : List SecurityRow} (security : List SecurityFeature)
    (hrows : ∀ r ∈ rows, r.featureCode ∈ securityFeatureCodes) (code : String) (state : Nat) :
    Says (upsertSecurityRows rows security) code state ↔
      state = (requested security code).smallint := by
  have hnodup : ((securityRows security).map SecurityRow.featureCode).Nodup := by
    simp only [securityRows, List.map_map, Function.comp_def, List.map_id']
    decide
  rw [upsertSecurityRows, says_foldl_upsertSecurity code state _ _ hnodup]
  constructor
  · rintro (⟨r, hr, rfl, rfl⟩ | ⟨hno, hstate⟩)
    · exact (mem_securityRows.mp hr).2
    · have hcode : code ∉ securityFeatureCodes := fun hcode =>
        hno ⟨code, (requested security code).smallint⟩ (mem_securityRows.mpr ⟨hcode, rfl⟩) rfl
      rw [requested, if_neg hcode]
      rcases hstate with hmem | ⟨hzero, _⟩
      · exact absurd (hrows _ hmem) hcode
      · exact hzero
  · rintro rfl
    by_cases hcode : code ∈ securityFeatureCodes
    · exact .inl ⟨⟨code, _⟩, mem_securityRows.mpr ⟨hcode, rfl⟩, rfl, rfl⟩
    · rw [requested, if_neg hcode]
      refine .inr ⟨?_, .inr ⟨rfl, ?_⟩⟩
      · rintro r hr rfl
        exact hcode (mem_securityRows.mp hr).1
      · rintro r hr rfl
        exact hcode (hrows r hr)

/-- A code that no feature of the request has is stored as unknown. -/
theorem requested_of_missing {security : List SecurityFeature} {code : String}
    (h : ∀ f ∈ security, f.code ≠ code) : requested security code = .unknown := by
  have hfind : security.find? (fun f => f.code == code) = none := by simpa using h
  simp [requested, hfind]

/-- The request says what is stored exactly when its features are plain. -/
theorem says_securityJsonOf_iff (security : List SecurityFeature) :
    (∀ code state, Says (securityJsonOf security) code state ↔
      state = (requested security code).smallint) ↔ plainSecurity security = true := by
  simp only [plainSecurity, List.all_eq_true, beq_iff_eq]
  constructor
  · intro h f hf
    have hstate : Says (securityJsonOf security) f.code f.state.smallint :=
      .inl (List.mem_map.mpr ⟨f, hf, rfl⟩)
    exact SecurityState.smallint_injective ((h _ _).mp hstate)
  · intro h code state
    constructor
    · rintro (hmem | ⟨rfl, hno⟩)
      · obtain ⟨f, hf, hrow⟩ := List.mem_map.mp hmem
        obtain ⟨rfl, rfl⟩ := SecurityRow.mk.inj hrow
        rw [h f hf]
      · rw [requested_of_missing fun f hf => hno ⟨f.code, _⟩ (List.mem_map.mpr ⟨f, hf, rfl⟩)]
        rfl
    · rintro rfl
      by_cases hhas : ∃ f ∈ security, f.code = code
      · obtain ⟨f, hf, rfl⟩ := hhas
        rw [← h f hf]
        exact .inl (List.mem_map.mpr ⟨f, hf, rfl⟩)
      · have hmissing : ∀ f ∈ security, f.code ≠ code := fun f hf heq => hhas ⟨f, hf, heq⟩
        rw [requested_of_missing hmissing]
        refine .inr ⟨rfl, fun r hr => ?_⟩
        obtain ⟨f, hf, rfl⟩ := List.mem_map.mp hr
        exact hmissing f hf

end BikesNest.History
