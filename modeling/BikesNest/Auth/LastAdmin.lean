import BikesNest.Domain.Account
import BikesNest.Lib.RowLocks

/-!
# Racing for the last ADMIN row

Two transactions remove rows of `user_roles`: the revocation of a role, and the
anonymization of an account.  Each first locks the ADMIN rows and counts them.
`removals_keep_admin` says that however they interleave, an ADMIN row stays, and
that a refused transaction was for a user who had one.

Of the statements of `anonymize`, the ones on `user_roles` are here.  Those on other
tables neither read nor write a role; one that fails is a failed transaction.
-/

namespace BikesNest.Auth

open Domain RowLocks Runs

/-- A row of `user_roles`, whose key is the account and the role. -/
structure RoleGrant where
  grantedBy : Option UserId
deriving DecidableEq

abbrev RoleKey := UserId × Role

abbrev RoleTable := AList fun _ : RoleKey => RoleGrant

/-- What a transaction answers. -/
inductive RemovalAnswer where
  | revoked (any : Bool)
  | refuseAdminSelfRevoke
  | anonymized (roles rolesGrantedByAnonymized : Nat)
  | lastAdmin
deriving DecidableEq

abbrev RoleScript := Script RoleKey RoleGrant RemovalAnswer

/-! ## The two transactions -/

/-- The `WHERE` clause of the locking statement. -/
def isAdminRow (k : RoleKey) : Bool := k.2 == .admin

/-- `revoke_role_guarded`, after it has locked the ADMIN rows. -/
def revokeLocked (id : UserId) (role : Role) (rows : List RoleKey) : RoleScript :=
  let admins := rows.map Prod.fst
  if role = .admin ∧ admins.length ≤ 1 ∧ admins.contains id then .rollback .refuseAdminSelfRevoke
  else
    .statement (fun k _ => k.1 == id && k.2 == role) .delete fun deleted =>
      .commit (.revoked (0 < deleted.length))

/-- `anonymize`, after `last_admin_locked` has locked the ADMIN rows. -/
def anonymizeLocked (id : UserId) (rows : List RoleKey) : RoleScript :=
  let admins := rows.map Prod.fst
  if admins.contains id && admins.length == 1 then .rollback .lastAdmin
  else
    .statement (fun k _ => k.1 == id) .delete fun roles =>
      .statement (fun _ r => r.grantedBy == some id) (.set fun r => { r with grantedBy := none })
        fun granted => .commit (.anonymized roles.length granted.length)

inductive Removal where
  | revokeRoleGuarded (id : UserId) (role : Role)
  | anonymize (id : UserId)

/-- The account that the transaction is for. -/
def Removal.user : Removal → UserId
  | .revokeRoleGuarded id _ => id
  | .anonymize id => id

/-- What the transaction does with the ADMIN rows. -/
def Removal.body : Removal → List RoleKey → RoleScript
  | .revokeRoleGuarded id role => revokeLocked id role
  | .anonymize id => anonymizeLocked id

/-- Both begin with `SELECT user_id FROM user_roles WHERE role = 'ADMIN' FOR UPDATE`. -/
def Removal.script (removal : Removal) : RoleScript :=
  .statement (fun k _ => isAdminRow k) .lock removal.body

/-! ## The guards -/

/-- Rows without repetition that are not only that of `id` have one of another user. -/
theorem exists_other_user {id : UserId} {rows : List RoleKey} (hne : rows ≠ [])
    (hnodup : rows.Nodup) (hadmin : ∀ k ∈ rows, isAdminRow k = true)
    (hguard : ¬((rows.map Prod.fst).length ≤ 1 ∧ (rows.map Prod.fst).contains id = true)) :
    ∃ k ∈ rows, k.1 ≠ id := by
  by_contra hall
  push Not at hall
  have hsame : ∀ k ∈ rows, k = (id, .admin) := by
    intro k hk
    have hrole : k.2 = .admin := by simpa [isAdminRow] using hadmin k hk
    exact Prod.ext (hall k hk) hrole
  apply hguard
  match rows, hne with
  | [k], _ =>
    have hk := hsame k List.mem_cons_self
    exact ⟨Nat.le_refl 1, by simp [hk]⟩
  | k :: k' :: rest, _ =>
    have hk := hsame k List.mem_cons_self
    have hk' := hsame k' (List.mem_cons_of_mem _ List.mem_cons_self)
    rw [hk, hk'] at hnodup
    simp at hnodup

/-- With the guard passed, the row of another user is not deleted. -/
theorem revokeLocked_careful (id : UserId) (role : Role) :
    Careful isAdminRow (revokeLocked id role) := by
  intro rows hne hnodup hadmin
  unfold revokeLocked
  by_cases hguard : role = .admin ∧ (rows.map Prod.fst).length ≤ 1 ∧
      (rows.map Prod.fst).contains id = true
  · exact .inl ⟨_, if_pos hguard⟩
  · rw [if_neg hguard]
    by_cases hrole : role = .admin
    · obtain ⟨k, hk, hother⟩ := exists_other_user hne hnodup hadmin
        fun h => hguard ⟨hrole, h⟩
      exact .inr ⟨k, hk, fun _ _ => by simp [hother], fun _ => trivial⟩
    · obtain ⟨k, hk⟩ := List.exists_mem_of_ne_nil rows hne
      have hadmin' : k.2 = .admin := by simpa [isAdminRow] using hadmin k hk
      exact .inr ⟨k, hk, fun _ _ => by simp [hadmin', Ne.symm hrole], fun _ => trivial⟩

theorem anonymizeLocked_careful (id : UserId) :
    Careful isAdminRow (anonymizeLocked id) := by
  intro rows hne hnodup hadmin
  unfold anonymizeLocked
  by_cases hguard : ((rows.map Prod.fst).contains id && (rows.map Prod.fst).length == 1) = true
  · exact .inl ⟨_, if_pos hguard⟩
  · rw [if_neg hguard]
    have hlast : ¬((rows.map Prod.fst).length ≤ 1 ∧ (rows.map Prod.fst).contains id = true) := by
      intro h
      have hpos : 0 < rows.length := List.length_pos_iff.mpr hne
      have hone : (rows.map Prod.fst).length = 1 := by
        rw [List.length_map] at h ⊢
        omega
      exact hguard (by rw [h.2, hone]; rfl)
    obtain ⟨k, hk, hother⟩ := exists_other_user hne hnodup hadmin hlast
    exact .inr ⟨k, hk, fun _ _ => by simp [hother],
      fun _ => ⟨fun _ hset => by simp [Action.write] at hset, fun _ => trivial⟩⟩

theorem Removal.careful : ∀ removal : Removal, Careful isAdminRow removal.body
  | .revokeRoleGuarded id role => revokeLocked_careful id role
  | .anonymize id => anonymizeLocked_careful id

/-- A refused transaction has locked the ADMIN row of its user. -/
theorem Removal.refused {removal : Removal} {rows : List RoleKey} {answer : RemovalAnswer}
    (hadmin : ∀ k ∈ rows, isAdminRow k = true) (hbody : removal.body rows = .rollback answer) :
    (removal.user, Role.admin) ∈ rows := by
  have hmem : removal.user ∈ rows.map Prod.fst := by
    cases removal with
    | revokeRoleGuarded id role =>
      change revokeLocked id role rows = _ at hbody
      simp only [revokeLocked] at hbody
      split at hbody
      · next hguard => exact List.contains_iff_mem.mp hguard.2.2
      · cases hbody
    | anonymize id =>
      change anonymizeLocked id rows = _ at hbody
      simp only [anonymizeLocked] at hbody
      split at hbody
      · next hguard =>
        rw [Bool.and_eq_true] at hguard
        exact List.contains_iff_mem.mp hguard.1
      · cases hbody
  obtain ⟨k, hk, huser⟩ := List.mem_map.mp hmem
  have hrole : k.2 = .admin := by simpa [isAdminRow] using hadmin k hk
  have heq : k = (removal.user, .admin) := Prod.ext huser hrole
  exact heq ▸ hk

/-! ## Any number of removals -/

section Runs

variable {ι : Type} [DecidableEq ι]

/-- The table at the start, and a transaction for each `i`. -/
def removalSystem (roles : RoleTable) (removals : ι → Removal) :
    System ι RoleKey RoleGrant RemovalAnswer :=
  System.begin roles fun i => (removals i).script

/-- Every state of a run has an ADMIN row. -/
theorem removalSystem_kept {roles : RoleTable} {removals : ι → Removal}
    {ls : List (Label ι RoleKey)} {s : System ι RoleKey RoleGrant RemovalAnswer}
    (hadmin : ∃ id, (id, Role.admin) ∈ roles)
    (hrun : Run Step (removalSystem roles removals) ls s) :
    Kept isAdminRow (fun i => (removals i).body) s := by
  obtain ⟨id, hid⟩ := hadmin
  have hstart : Kept isAdminRow (fun i => (removals i).body) (removalSystem roles removals) :=
    Kept.begin (fun _ => rfl) ⟨(id, .admin), hid, rfl⟩
  exact hrun.invariant (fun _ _ _ h hstep => h.step (fun i => (removals i).careful) hstep) hstart

/-- However revocations and anonymizations interleave, an ADMIN row stays.  The guard
refuses a transaction only when its user has an ADMIN row, then and from the start. -/
theorem removals_keep_admin {roles : RoleTable} {removals : ι → Removal}
    {ls : List (Label ι RoleKey)} {s : System ι RoleKey RoleGrant RemovalAnswer}
    (hadmin : ∃ id, (id, Role.admin) ∈ roles)
    (hrun : Run Step (removalSystem roles removals) ls s) :
    (∃ id, (s.rows (id, .admin)).isSome = true) ∧
      ∀ l s' i answer, Step s l s' → (s.txs i).phase ≠ .ended (.rolledBack answer) →
        (s'.txs i).phase = .ended (.rolledBack answer) →
        (s.rows ((removals i).user, .admin)).isSome = true ∧
          ((removals i).user, Role.admin) ∈ roles := by
  have hkept := removalSystem_kept hadmin hrun
  constructor
  · obtain ⟨⟨id, role⟩, hq, hk⟩ := hkept.some_row
    have hrole : role = .admin := by simpa [isAdminRow] using hq
    exact ⟨id, hrole ▸ hk⟩
  · intro l s' i answer hstep hnow hended
    obtain ⟨got, hbody, scan⟩ := hkept.rolledBack hstep hnow hended
    have hmem := Removal.refused (fun k hk => (scan.there k hk).1) hbody
    have hthere := (scan.there _ hmem).2
    exact ⟨hthere, rows_of_begin hrun hthere⟩

end Runs

/-! ## A race -/

/-- Two administrators. -/
def twoAdmins : RoleTable :=
  AList.insert (1, .admin) ⟨none⟩ (AList.insert (2, .admin) ⟨some 1⟩ ∅)

/-- The role of one is revoked while the other deletes the account. -/
def raceForLast : Bool → Removal
  | true => .revokeRoleGuarded 1 .admin
  | false => .anonymize 2

/-- Both see two rows; the deletion waits for the second, and finds one. -/
def raceSchedule : List (Label Bool RoleKey) :=
  [.start true, .start false, .row true (1, .admin), .row true (2, .admin), .proceed true,
    .start true, .row true (1, .admin), .proceed true, .finish true, .row false (2, .admin),
    .row false (1, .admin), .proceed false]

/-- Before the deletion ends. -/
def raced : System Bool RoleKey RoleGrant RemovalAnswer :=
  (raceSchedule.foldlM next (removalSystem twoAdmins raceForLast)).get (by decide +kernel)

theorem raced_run : Run Step (removalSystem twoAdmins raceForLast) raceSchedule raced :=
  (Run.of_foldlM (Option.some_get _).symm).mono fun _ _ _ => step_of_next

theorem removals_keep_admin_race :
    (∃ id, (raced.rows (id, .admin)).isSome = true) ∧
      (raced.txs true).phase = .ended (.committed (.revoked true)) ∧
      (raced.rows (2, .admin)).isSome = true ∧
      ∃ s', Step raced (.finish false) s' ∧
        (s'.txs false).phase = .ended (.rolledBack .lastAdmin) := by
  have hadmin : ∃ id, (id, Role.admin) ∈ twoAdmins := ⟨1, by decide +kernel⟩
  have h := removals_keep_admin hadmin raced_run
  have hphase : (raced.txs false).phase = .ready (.rollback .lastAdmin) := by rfl
  have hstep : Step raced (.finish false) _ := .rollback hphase
  have hended := System.close_phase raced false raced.rows (.rolledBack .lastAdmin)
  refine ⟨h.1, by rfl, (h.2 _ _ false .lastAdmin hstep ?_ hended).1, _, hstep, hended⟩
  rw [hphase]
  intro hnow
  cases hnow

end BikesNest.Auth
