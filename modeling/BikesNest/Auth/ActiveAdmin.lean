import BikesNest.Auth.Lifecycle
import BikesNest.Moderation.Reports

/-!
# An administrator who can act

An account can administer when its state is `ACTIVE` and it has the role ADMIN.  The
guards of `revoke_role` and of a deletion count the ADMIN rows and do not look at the
states of the accounts; `suspend_user` has no guard.

`AdminOp.ousted` is the account that a step takes the access from, and
`activeAdmin_throughout_iff` the result.
-/

namespace BikesNest.Auth

open Domain Store Relational Privacy Runs
open Moderation (principal erases)

/-! ## The operations -/

/-- What an account asks for. -/
inductive AdminRequest where
  | grantRole (target : UserId) (role : Role)
  | revokeRole (target : UserId) (role : Role)
  | suspendUser (target : UserId)
  | restoreUser (target : UserId)
  | deleteAccount (password : Option String) (confirmEmail : String)

/-- The account `caller` makes a request. -/
structure AdminOp where
  caller : UserId
  request : AdminRequest

/-- What a run fixes. -/
structure AdminEnv where
  deps : Deps
  hasher : PasswordHasher

/-- One request, as it runs alone. -/
def AdminRequest.run (env : AdminEnv) (db : Db) (user : AuthenticatedUser) : AdminRequest → Db
  | .grantRole target role => ((grantRoleAs user target role).run db).2
  | .revokeRole target role => ((revokeRoleAs user target role).run db).2
  | .suspendUser target => ((Auth.suspendUser env.deps user target).run db).2
  | .restoreUser target => ((Auth.restoreUser user target).run db).2
  | .deleteAccount password confirmEmail =>
    ((requestDeletion env.deps.cases env.hasher user password confirmEmail).run db).2

/-- One step of a run. -/
def AdminOp.exec (env : AdminEnv) (db : Db) (op : AdminOp) : Db :=
  match principal env.deps.cases db op.caller with
  | some user => op.request.run env db user
  | none => db

/-- `ACTIVE`, with the role ADMIN. -/
def isActiveAdmin (db : Db) (u : UserId) : Bool := stateOf db u == some .active && isAdmin db u

/-- Somebody can administer. -/
def SomeActiveAdmin (db : Db) : Prop := ∃ u, isActiveAdmin db u = true

/-! ## The condition on a step -/

/-- The account that the request takes the access to administration from, if it had
it: it is suspended, loses its ADMIN row or is erased. -/
def AdminRequest.ousted (env : AdminEnv) (db : Db) (user : AuthenticatedUser) :
    AdminRequest → Option UserId
  | .revokeRole target .admin =>
    if user.hasRole .admin && (revokeRoleGuarded db target .admin).isOk then some target else none
  | .suspendUser target => if user.hasRole .admin then some target else none
  | .deleteAccount password confirmEmail =>
    if erases ⟨env.deps.cases, env.hasher, {}⟩ db user password confirmEmail then some user.id
    else none
  | _ => none

def AdminOp.ousted (env : AdminEnv) (db : Db) (op : AdminOp) : Option UserId :=
  (principal env.deps.cases db op.caller).bind (op.request.ousted env db)

/-- Whoever loses the access, another account has it. -/
def leavesActiveAdmin (env : AdminEnv) (db : Db) (op : AdminOp) : Prop :=
  ∀ u, op.ousted env db = some u → ∃ v, v ≠ u ∧ isActiveAdmin db v = true

/-! ## What a call does to the active admins -/

/-- Nobody loses the access. -/
def KeepsAdmins (db db' : Db) : Prop := ∀ v, isActiveAdmin db v = true → isActiveAdmin db' v = true

/-- Exactly `u` loses the access. -/
def Ousts (u : UserId) (db db' : Db) : Prop :=
  ∀ v, isActiveAdmin db' v = true ↔ v ≠ u ∧ isActiveAdmin db v = true

/-- Exactly the ousted account loses the access, if there is one. -/
def TakesAccess (ousted : Option UserId) (db db' : Db) : Prop :=
  match ousted with
  | some u => Ousts u db db'
  | none => KeepsAdmins db db'

instance : IsPreorder Db KeepsAdmins where
  refl _ _ h := h
  trans _ _ _ h h' v hv := h' v (h v hv)

variable {env : AdminEnv} {db db' : Db} {user : AuthenticatedUser} {u target : UserId}

theorem isActiveAdmin_congr (husers : db'.users = db.users) (hroles : db'.userRoles = db.userRoles)
    (v : UserId) : isActiveAdmin db' v = isActiveAdmin db v := by
  unfold isActiveAdmin stateOf isAdmin
  rw [husers, hroles]

theorem KeepsAdmins.of_eq (husers : db'.users = db.users) (hroles : db'.userRoles = db.userRoles) :
    KeepsAdmins db db' := by
  intro v hv
  rw [isActiveAdmin_congr husers hroles]
  exact hv

/-- A later call that writes neither accounts nor roles. -/
theorem Ousts.congr {db'' : Db} (h : Ousts u db db') (husers : db''.users = db'.users)
    (hroles : db''.userRoles = db'.userRoles) : Ousts u db db'' := by
  intro v
  rw [isActiveAdmin_congr husers hroles]
  exact h v

/-- The accounts and the roles. -/
def access (db : Db) : Table User × Table UserRole := (db.users, db.userRoles)

theorem audit_access {ε : Type} (internal : ε) (event : NewAuditEvent) :
    Service.Within (Service.Frame access) (audit internal event) :=
  audit_within (fun _ _ => rfl) internal event

theorem KeepsAdmins.of_access (h : access db' = access db) : KeepsAdmins db db' :=
  .of_eq (Prod.mk.inj h).1 (Prod.mk.inj h).2

theorem audit_keepsAdmins {ε : Type} (internal : ε) (event : NewAuditEvent) :
    Service.Within KeepsAdmins (audit internal event) :=
  fun db => .of_access (audit_access internal event db)

theorem isAdmin_iff : isAdmin db u = true ↔
    ∃ i r, db.userRoles.row i = some r ∧ r.userId = u ∧ r.role = .admin := by
  unfold isAdmin
  rw [Table.any_iff]
  simp

theorem isActiveAdmin_iff :
    isActiveAdmin db u = true ↔ stateOf db u = some .active ∧ isAdmin db u = true := by
  unfold isActiveAdmin
  rw [Bool.and_eq_true, beq_iff_eq]

/-! ### Roles -/

theorem grantRoleAs_keepsAdmins (role : Role) :
    Service.Within KeepsAdmins (grantRoleAs user target role) := by
  refine .bind (.require _ _) fun _ => .bind (.require _ _) fun _ =>
    .bind (.request fun db _ db' h => ?_) fun _ => audit_keepsAdmins _ _
  unfold grantRole at h
  split at h
  · cases h
    exact refl_of KeepsAdmins db
  split at h
  · cases h
  cases h
  intro v hv
  rw [isActiveAdmin_iff] at hv ⊢
  refine ⟨hv.1, ?_⟩
  obtain ⟨i, r, hr, huser, hrole⟩ := isAdmin_iff.mp hv.2
  exact isAdmin_iff.mpr ⟨i, r, Table.row_insert_of_some _ hr, huser, hrole⟩

/-- The rows that a revocation deletes. -/
def withoutRole (db : Db) (target : UserId) (role : Role) : Db :=
  { db with userRoles := db.userRoles.delete fun _ r => r.userId == target && r.role == role }

theorem revokeRoleGuarded_ok {role : Role} {removed : Bool}
    (h : revokeRoleGuarded db target role = .ok (removed, db')) :
    db' = withoutRole db target role := by
  unfold revokeRoleGuarded at h
  simp only at h
  split at h
  · cases h
  · cases h
    rfl

theorem isAdmin_withoutRole (role : Role) (v : UserId) :
    isAdmin (withoutRole db target role) v = true ↔
      isAdmin db v = true ∧ ¬(role = .admin ∧ v = target) := by
  constructor
  · intro h
    obtain ⟨i, r, hr, huser, hrole⟩ := isAdmin_iff.mp h
    obtain ⟨hold, hkept⟩ := Option.filter_eq_some_iff.mp hr
    refine ⟨isAdmin_iff.mpr ⟨i, r, hold, huser, hrole⟩, ?_⟩
    rintro ⟨rfl, rfl⟩
    simp [huser, hrole] at hkept
  · rintro ⟨h, hother⟩
    obtain ⟨i, r, hr, huser, hrole⟩ := isAdmin_iff.mp h
    refine isAdmin_iff.mpr ⟨i, r, Option.filter_eq_some_iff.mpr ⟨hr, ?_⟩, huser, hrole⟩
    by_contra hdeleted
    have hboth : r.userId = target ∧ r.role = role := by simpa using hdeleted
    exact hother ⟨hboth.2.symm.trans hrole, huser.symm.trans hboth.1⟩

/-- A revocation of ADMIN that passes the guard. -/
theorem withoutRole_ousts : Ousts target db (withoutRole db target .admin) := by
  intro v
  rw [isActiveAdmin_iff, isActiveAdmin_iff, isAdmin_withoutRole]
  show stateOf db v = _ ∧ _ ↔ _
  constructor
  · rintro ⟨hstate, hadmin, hother⟩
    exact ⟨fun heq => hother ⟨rfl, heq⟩, hstate, hadmin⟩
  · rintro ⟨hne, hstate, hadmin⟩
    exact ⟨hstate, hadmin, fun h => hne h.2⟩

theorem withoutRole_keepsAdmins {role : Role} (hrole : role ≠ .admin) :
    KeepsAdmins db (withoutRole db target role) := by
  intro v hv
  rw [isActiveAdmin_iff] at hv ⊢
  exact ⟨hv.1, (isAdmin_withoutRole role v).mpr ⟨hv.2, fun h => hrole h.1⟩⟩

/-- The audit event of a revocation leaves the access. -/
theorem access_revokeRoleAs {role : Role} {removed : Bool} {db₁ : Db}
    (hadmin : user.hasRole .admin = true) (hrole : (role != .user) = true)
    (h : revokeRoleGuarded db target role = .ok (removed, db₁)) :
    access ((revokeRoleAs user target role).run db).2 = access db₁ := by
  unfold revokeRoleAs requireAdmin repo
  rw [Service.run_of_require hadmin, Service.run_of_require hrole, Service.run_of_request h]
  cases removed with
  | true => exact audit_access _ _ db₁
  | false => rfl

/-- A revocation either takes ADMIN from `target`, or nobody loses the access. -/
theorem revokeRoleAs_cases (env : AdminEnv) (role : Role) :
    TakesAccess ((AdminRequest.revokeRole target role).ousted env db user) db
      ((revokeRoleAs user target role).run db).2 := by
  by_cases hadmin : user.hasRole .admin = true
  · by_cases hrole : (role != .user) = true
    · cases hguard : revokeRoleGuarded db target role with
      | error e =>
        have hrun : ((revokeRoleAs user target role).run db).2 = db := by
          unfold revokeRoleAs requireAdmin repo
          rw [Service.run_of_require hadmin, Service.run_of_require hrole, Service.run_bind,
            Service.run_request, hguard]
        rw [hrun]
        cases role with
        | admin =>
          simp only [AdminRequest.ousted, hguard, Except.isOk, Except.toBool, Bool.and_false,
            Bool.false_eq_true, if_false]
          exact refl_of KeepsAdmins db
        | moderator => exact refl_of KeepsAdmins db
        | user => exact refl_of KeepsAdmins db
      | ok result =>
        obtain ⟨removed, db₁⟩ := result
        have haccess := access_revokeRoleAs hadmin hrole hguard
        rw [revokeRoleGuarded_ok hguard] at haccess
        cases role with
        | admin =>
          simp only [AdminRequest.ousted, hadmin, hguard, Except.isOk, Except.toBool,
            Bool.and_self, if_true]
          exact withoutRole_ousts.congr (Prod.mk.inj haccess).1 (Prod.mk.inj haccess).2
        | moderator =>
          exact trans_of KeepsAdmins (withoutRole_keepsAdmins (by decide)) (.of_access haccess)
        | user => cases hrole
    · have huser : role = .user := by simpa using hrole
      subst huser
      have hrun : ((revokeRoleAs user target .user).run db).2 = db := by
        unfold revokeRoleAs requireAdmin
        rw [Service.run_of_require hadmin]
        rfl
      rw [hrun]
      exact refl_of KeepsAdmins db
  · have hrun : ((revokeRoleAs user target role).run db).2 = db := by
      unfold revokeRoleAs requireAdmin
      rw [Service.run_bind, Service.run_require, if_neg hadmin]
    rw [hrun]
    cases role with
    | admin =>
      simp only [AdminRequest.ousted, hadmin, Bool.false_and, Bool.false_eq_true, if_false]
      exact refl_of KeepsAdmins db
    | moderator => exact refl_of KeepsAdmins db
    | user => exact refl_of KeepsAdmins db

/-! ### States -/

theorem stateOf_setState (state : AccountState) (v : UserId) :
    stateOf (setState db target state) v =
      if v = target then (stateOf db v).map fun _ => state else stateOf db v := by
  unfold stateOf setState
  rw [Table.row_update]
  cases db.users.row v with
  | none => simp
  | some r =>
    by_cases heq : v = target
    · simp [heq]
    · simp [heq]

theorem setState_suspended_ousts : Ousts target db (setState db target .suspended) := by
  intro v
  rw [isActiveAdmin_iff, isActiveAdmin_iff, stateOf_setState]
  show (if v = target then _ else _) = _ ∧ isAdmin db v = true ↔ _
  by_cases heq : v = target
  · rw [if_pos heq]
    constructor
    · rintro ⟨hstate, _⟩
      obtain ⟨_, _, hactive⟩ := Option.map_eq_some_iff.mp hstate
      cases hactive
    · rintro ⟨hne, _⟩
      exact absurd heq hne
  · rw [if_neg heq]
    exact ⟨fun h => ⟨heq, h⟩, fun h => h.2⟩

theorem setState_active_keepsAdmins : KeepsAdmins db (setState db target .active) := by
  intro v hv
  rw [isActiveAdmin_iff] at hv ⊢
  rw [stateOf_setState]
  refine ⟨?_, hv.2⟩
  split
  · rw [hv.1]
    rfl
  · exact hv.1

theorem suspendUser_cases (env : AdminEnv) :
    TakesAccess ((AdminRequest.suspendUser target).ousted env db user) db
      ((suspendUser env.deps user target).run db).2 := by
  by_cases hadmin : user.hasRole .admin = true
  · have haccess : access ((suspendUser env.deps user target).run db).2 =
        access (setState db target .suspended) := by
      unfold suspendUser requireAdmin
      rw [Service.run_of_require hadmin]
      exact audit_access AuthError.internal (succeeded user.id "user.suspended" target)
        (revokeAllForUserExcept env.deps (setState db target .suspended) target noSession)
    simp only [AdminRequest.ousted, hadmin, if_true]
    exact setState_suspended_ousts.congr (Prod.mk.inj haccess).1 (Prod.mk.inj haccess).2
  · have hrun : ((suspendUser env.deps user target).run db).2 = db := by
      unfold suspendUser requireAdmin
      rw [Service.run_bind, Service.run_require, if_neg hadmin]
    rw [hrun]
    simp only [AdminRequest.ousted, hadmin, Bool.false_eq_true, if_false]
    exact refl_of KeepsAdmins db

theorem restoreUser_keepsAdmins : Service.Within KeepsAdmins (restoreUser user target) :=
  .bind (.require _ _) fun _ =>
    .bind (fun _ => setState_active_keepsAdmins) fun _ => audit_keepsAdmins _ _

/-! ### Deletions -/

theorem isAdmin_scrubbed_iff {now : Instant} (v : UserId) :
    isAdmin (scrubbed db u now) v = true ↔ isAdmin db v = true ∧ v ≠ u := by
  constructor
  · intro h
    obtain ⟨i, r, hr, huser, hrole⟩ := isAdmin_iff.mp h
    obtain ⟨r₀, hr₀, rfl⟩ := Table.row_update_eq_some.mp hr
    obtain ⟨hold, hkept⟩ := Option.filter_eq_some_iff.mp hr₀
    have hne : r₀.userId ≠ u := by simpa using hkept
    have hsame : r₀.userId = v ∧ r₀.role = .admin := by
      split at huser
      · next hgranted =>
        rw [if_pos hgranted] at hrole
        exact ⟨huser, hrole⟩
      · next hgranted =>
        rw [if_neg hgranted] at hrole
        exact ⟨huser, hrole⟩
    exact ⟨isAdmin_iff.mpr ⟨i, r₀, hold, hsame⟩, fun heq => hne (hsame.1.trans heq)⟩
  · rintro ⟨h, hne⟩
    obtain ⟨i, r, hr, huser, hrole⟩ := isAdmin_iff.mp h
    have hkept : (db.userRoles.delete fun _ r => r.userId == u).row i = some r := by
      refine Option.filter_eq_some_iff.mpr ⟨hr, ?_⟩
      simpa [huser] using hne
    refine isAdmin_iff.mpr ⟨i, _, Table.row_update_eq_some.mpr ⟨r, hkept, rfl⟩, ?_⟩
    split
    · exact ⟨huser, hrole⟩
    · exact ⟨huser, hrole⟩

theorem access_deleted : access (deleted db u) = access (scrubbed db u db.now) := rfl

theorem stateOf_scrubbed_of_ne {now : Instant} {v : UserId} (hne : v ≠ u) :
    stateOf (scrubbed db u now) v = stateOf db v := by
  unfold stateOf scrubbed
  rw [Table.row_update]
  cases db.users.row v with
  | none => rfl
  | some r => simp [hne]

theorem deleted_ousts : Ousts u db (deleted db u) := by
  intro v
  rw [isActiveAdmin_congr (Prod.mk.inj access_deleted).1 (Prod.mk.inj access_deleted).2,
    isActiveAdmin_iff, isActiveAdmin_iff, isAdmin_scrubbed_iff]
  constructor
  · rintro ⟨hstate, hadmin, hne⟩
    rw [stateOf_scrubbed_of_ne hne] at hstate
    exact ⟨hne, hstate, hadmin⟩
  · rintro ⟨hne, hstate, hadmin⟩
    rw [stateOf_scrubbed_of_ne hne]
    exact ⟨hstate, hadmin, hne⟩

theorem requestDeletion_access (env : AdminEnv) (password : Option String) (confirmEmail : String)
    (hrow : (db.users.row user.id).isSome = true) :
    TakesAccess ((AdminRequest.deleteAccount password confirmEmail).ousted env db user) db
      ((requestDeletion env.deps.cases env.hasher user password confirmEmail).run db).2 := by
  simp only [AdminRequest.ousted]
  cases herases : erases ⟨env.deps.cases, env.hasher, {}⟩ db user password confirmEmail with
  | true =>
    have hdeleted := requestDeletion_database hrow herases
    rw [hdeleted]
    exact deleted_ousts
  | false =>
    rcases requestDeletion_database hrow herases with hsame | hrequested
    · rw [hsame]
      exact refl_of KeepsAdmins db
    · rw [hrequested]
      exact KeepsAdmins.of_eq rfl rfl

/-! ## Runs -/

/-- A step takes the access from the account that it ousts, and from nobody else. -/
theorem AdminOp.exec_cases (env : AdminEnv) (db : Db) (op : AdminOp) :
    TakesAccess (op.ousted env db) db
      (op.exec env db) := by
  unfold AdminOp.ousted AdminOp.exec
  cases hprincipal : principal env.deps.cases db op.caller with
  | none => exact refl_of KeepsAdmins db
  | some user =>
    cases hrequest : op.request with
    | grantRole target role => exact grantRoleAs_keepsAdmins role db
    | revokeRole target role => exact revokeRoleAs_cases env role
    | suspendUser target => exact suspendUser_cases env
    | restoreUser target => exact restoreUser_keepsAdmins db
    | deleteAccount password confirmEmail =>
      obtain ⟨huser, hrow, _⟩ := Moderation.principal_eq_some hprincipal
      rw [← huser] at hrow
      exact requestDeletion_access env password confirmEmail hrow

/-- When somebody can administer, then after a step somebody can exactly if the step
leaves another administrator. -/
theorem someActiveAdmin_exec_iff (env : AdminEnv) (op : AdminOp) (h : SomeActiveAdmin db) :
    SomeActiveAdmin (op.exec env db) ↔ leavesActiveAdmin env db op := by
  have hcases := op.exec_cases env db
  unfold leavesActiveAdmin
  cases housted : op.ousted env db with
  | none =>
    rw [housted] at hcases
    obtain ⟨v, hv⟩ := h
    exact ⟨fun _ u hu => (Option.some_ne_none u hu.symm).elim, fun _ => ⟨v, hcases v hv⟩⟩
  | some u =>
    rw [housted] at hcases
    constructor
    · rintro ⟨v, hv⟩ u' hu'
      obtain rfl := Option.some.inj hu'
      exact ⟨v, (hcases v).mp hv⟩
    · intro hleaves
      obtain ⟨v, hv⟩ := hleaves u rfl
      exact ⟨v, (hcases v).mpr hv⟩

/-- From a state in which somebody can administer, somebody can throughout a run
exactly if every step that takes the access from an account leaves another one. -/
theorem activeAdmin_throughout_iff (env : AdminEnv) (ops : List AdminOp)
    (h : SomeActiveAdmin db) :
    Throughout (fun db op => AdminOp.exec env db op) SomeActiveAdmin db ops ↔
      Along (fun db op => AdminOp.exec env db op) (leavesActiveAdmin env) db ops :=
  throughout_iff_along (J := fun _ => True) (fun _ _ _ => trivial)
    (fun _ op _ hs => someActiveAdmin_exec_iff env op hs) trivial h

/-! ## Two administrators -/

/-- The deployment of the samples, without passwords. -/
def sampleEnv : AdminEnv where
  deps := sampleDeps
  hasher := noHasher

/-- The administrator of `adminOnly` and a rider. -/
def adminAndRider : Db :=
  { adminOnly with
    users := adminOnly.users.insert
      { email := "rider@example.com", displayName := none, accountState := .active
        emailVerifiedAt := some 0, locale := .en, createdAt := 0 } }

/-- The rider becomes an administrator too, and suspends the first one. -/
theorem activeAdmin_throughout_iff_handOver :
    Throughout (fun db op => AdminOp.exec sampleEnv db op) SomeActiveAdmin adminAndRider
      [⟨1, .grantRole 2 .admin⟩, ⟨2, .suspendUser 1⟩] := by
  have hadmin : SomeActiveAdmin adminAndRider := ⟨1, by decide +kernel⟩
  refine (activeAdmin_throughout_iff sampleEnv _ hadmin).mpr ⟨fun u hu => ?_, fun u hu => ?_, trivial⟩
  · have hnone : AdminOp.ousted sampleEnv adminAndRider ⟨1, .grantRole 2 .admin⟩ = none := by
      decide +kernel
    rw [hnone] at hu
    cases hu
  · have hfirst : AdminOp.ousted sampleEnv
        (AdminOp.exec sampleEnv adminAndRider ⟨1, .grantRole 2 .admin⟩) ⟨2, .suspendUser 1⟩ =
        some 1 := by decide +kernel
    rw [hfirst] at hu
    obtain rfl := Option.some.inj hu
    exact ⟨2, by decide, by decide +kernel⟩

/-- The only administrator suspends the own account. -/
theorem not_activeAdmin_throughout :
    SomeActiveAdmin adminOnly ∧
      ¬ Throughout (fun db op => AdminOp.exec sampleEnv db op) SomeActiveAdmin adminOnly
        [⟨1, .suspendUser 1⟩] := by
  refine ⟨⟨1, by decide +kernel⟩, ?_⟩
  rintro ⟨_, v, hv⟩
  have honly : ((AdminOp.exec sampleEnv adminOnly ⟨1, .suspendUser 1⟩).userRoles.any
      fun _ r => r.userId != 1) = false := by decide +kernel
  obtain ⟨i, r, hr, huser, _⟩ := isAdmin_iff.mp (isActiveAdmin_iff.mp hv).2
  have hone := Table.any_eq_false_iff.mp honly i r hr
  have hv1 : v = 1 := by simpa [huser] using hone
  have hsuspended : isActiveAdmin (AdminOp.exec sampleEnv adminOnly ⟨1, .suspendUser 1⟩) 1 =
      false := by decide +kernel
  rw [hv1, hsuspended] at hv
  cases hv

end BikesNest.Auth
