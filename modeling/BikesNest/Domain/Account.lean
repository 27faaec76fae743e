import BikesNest.Domain.Text

/-!
# Accounts in the domain

Account states, roles and login methods, the normalised e-mail address, and the
address that an erased account gets.
-/

namespace BikesNest.Domain

/-- Database identifier of a user. -/
abbrev UserId := Nat

inductive AccountState where
  | pendingEmailVerification | active | suspended | deleted
deriving DecidableEq

/-- May this account authenticate? -/
def AccountState.canLogIn : AccountState → Bool
  | .pendingEmailVerification => true
  | .active => true
  | .suspended => false
  | .deleted => false

/-- May this account use the pages behind a session? -/
def AccountState.canAccessAccount : AccountState → Bool
  | .pendingEmailVerification => true
  | .active => true
  | .suspended => false
  | .deleted => false

inductive Role where
  | user | moderator | admin
deriving DecidableEq

/-- The kind of login method behind one identity. -/
inductive AuthenticationProvider where
  | password | google
deriving DecidableEq

/-- The language a user reads. -/
inductive LocaleCode where
  | ptBr | en
deriving DecidableEq

/-- The canonical code, as `users.locale` holds it. -/
def LocaleCode.asStr : LocaleCode → String
  | .ptBr => "pt-BR"
  | .en => "en"

/-- `LocaleCode::parse`. -/
def LocaleCode.parse (raw : List Char) : Option LocaleCode :=
  let code := (Text.trimChars raw).map Char.toLower
  if code = "pt-br".toList ∨ code = "pt".toList then some .ptBr
  else if code = "en".toList then some .en
  else none

inductive DomainError where
  | emptyEmail
  | invalidEmail (raw : String)
  | invalid (message : String)
  | weakPassword
deriving DecidableEq

/-- The text of an error. -/
def DomainError.message : DomainError → String
  | .emptyEmail => "email must not be empty"
  | .invalidEmail raw => "email is not valid: " ++ raw
  | .invalid message => message
  | .weakPassword => "password does not meet the policy"

/-- A normalised address. -/
abbrev UserEmail := String

/-- `str::split_once` at a character: the parts before and after its first
occurrence. -/
def splitOnce (c : Char) (s : String) : Option (String × String) :=
  match s.toList.dropWhile (· != c) with
  | [] => none
  | _ :: rest => some (String.ofList (s.toList.takeWhile (· != c)), String.ofList rest)

/-- `UserEmail::parse`: trimmed, lower-cased, and of the shape
`local@domain.tld`. -/
def UserEmail.parse (cases : Text.CaseMap) (raw : String) : Except DomainError UserEmail :=
  let normalized := cases.toLowercase (Text.trim raw)
  if normalized = "" then .error .emptyEmail
  else
    match splitOnce '@' normalized with
    | none => .error (.invalidEmail raw)
    | some (localPart, domain) =>
      if localPart = "" ∨ domain = "" ∨ ¬ domain.toList.contains '.' then
        .error (.invalidEmail raw)
      else .ok normalized

/-- A parsed address is the normal form of the text it came from. -/
theorem UserEmail.parse_eq_ok {cases : Text.CaseMap} {raw e : String}
    (h : UserEmail.parse cases raw = .ok e) : e = cases.toLowercase (Text.trim raw) := by
  unfold UserEmail.parse at h
  simp only at h
  split at h
  · cases h
  · split at h
    · cases h
    · split at h
      · cases h
      · exact (Except.ok.inj h).symm

/-- A parsed address parses to itself. -/
theorem UserEmail.parse_parse {cases : Text.CaseMap} {raw e : String}
    (h : UserEmail.parse cases raw = .ok e) : UserEmail.parse cases e = .ok e := by
  have he := UserEmail.parse_eq_ok h
  have hnormal : cases.toLowercase (Text.trim e) = e := by
    rw [he, cases.trim_toLowercase, Text.trim_trim, cases.toLowercase_idem]
  unfold UserEmail.parse at h ⊢
  simp only [← he] at h
  simp only [hnormal]
  split at h
  · cases h
  · rename_i hne
    rw [if_neg hne]
    split at h
    · cases h
    · split at h
      · cases h
      · rename_i hshape
        simp only [hshape, if_false]

/-- An authenticated principal derived from a session. -/
structure AuthenticatedUser where
  id : UserId
  email : UserEmail
  accountState : AccountState
  isVerified : Bool
  roles : List Role

/-- The single authorization check that the services use. -/
def AuthenticatedUser.hasRole (u : AuthenticatedUser) (role : Role) : Bool :=
  u.roles.contains role

/-- The replacement address of an erased account. -/
def anonymizedEmail (userId : UserId) : String :=
  "deleted+" ++ toString userId ++ "@bikesnest.invalid"

theorem toList_anonymizedEmail (u : UserId) :
    (anonymizedEmail u).toList =
      "deleted+".toList ++ Nat.toDigits 10 u ++ "@bikesnest.invalid".toList := by
  rw [anonymizedEmail, String.toList_append, String.toList_append, Nat.toString_eq_repr,
    Nat.toList_repr]

/-- Two accounts get two addresses. -/
theorem anonymizedEmail_injective {u v : UserId} (h : anonymizedEmail u = anonymizedEmail v) :
    u = v := by
  have hchars := congrArg String.toList h
  rw [toList_anonymizedEmail, toList_anonymizedEmail, List.append_cancel_right_eq,
    List.append_cancel_left_eq] at hchars
  rw [← Nat.ofDigitChars_ten_toDigits (n := u), hchars, Nat.ofDigitChars_ten_toDigits]

/-- The database stores the replacement address in its normal form. -/
theorem lower_anonymizedEmail (cases : Text.CaseMap) (u : UserId) :
    cases.lower (anonymizedEmail u) = anonymizedEmail u := by
  apply cases.lower_plain
  intro c hc
  rw [toList_anonymizedEmail, List.mem_append, List.mem_append] at hc
  rcases hc with (hhead | hdigit) | htail
  · exact List.all_eq_true.mp (by decide) c hhead
  · have hdigit := Nat.isDigit_of_mem_toDigits (by decide) (by decide) hdigit
    simp only [Char.isDigit, UInt32.le_iff_toNat_le, Bool.and_eq_true, decide_eq_true_eq,
      ge_iff_le] at hdigit
    change 48 ≤ c.toNat ∧ c.toNat ≤ 57 at hdigit
    simp only [Text.isPlain, Bool.and_eq_true, Bool.not_eq_true', Bool.and_eq_false_iff,
      decide_eq_true_eq, decide_eq_false_iff_not]
    omega
  · exact List.all_eq_true.mp (by decide) c htail

end BikesNest.Domain
