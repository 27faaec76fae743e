import BikesNest.Domain.Account
import BikesNest.Domain.Json

/-!
# Mail

A transactional message as a use case describes it: the recipient, the language of the
account and the kind with its single-use link.  It is the payload of an `email.send` job, and
a worker reads it from there as it was handed over.
-/

namespace BikesNest.Domain

/-- Which message it is, with its single-use link. -/
inductive EmailKind where
  | verifyEmail (link : String)
  | resetPassword (link : String)
  | confirmEmailChange (link : String)
deriving DecidableEq

/-- `EmailKind::code`. -/
def EmailKind.code : EmailKind → String
  | .verifyEmail _ => "verify"
  | .resetPassword _ => "reset"
  | .confirmEmailChange _ => "change"

/-- `EmailKind::link`. -/
def EmailKind.link : EmailKind → String
  | .verifyEmail link | .resetPassword link | .confirmEmailChange link => link

/-- The name of the variant in JSON. -/
def EmailKind.tag : EmailKind → String
  | .verifyEmail _ => "verify_email"
  | .resetPassword _ => "reset_password"
  | .confirmEmailChange _ => "confirm_email_change"

structure EmailMessage where
  /-- `to`. -/
  recipient : String
  locale : LocaleCode
  kind : EmailKind
deriving DecidableEq

/-- `EmailMessage::recipient_domain`: what stands behind the last `@`. -/
def EmailMessage.recipientDomain (msg : EmailMessage) : String :=
  if '@' ∈ msg.recipient.toList then
    String.ofList (msg.recipient.toList.reverse.takeWhile (· ≠ '@')).reverse
  else "unknown"

inductive EmailError where
  | unavailable
  | unexpected (message : String)
deriving DecidableEq

def EmailError.display : EmailError → String
  | .unavailable => "mail provider unavailable"
  | .unexpected message => "mail provider error: " ++ message

/-! ## The payload -/

/-- `to_value`, with the members in the order of their keys. -/
def EmailMessage.toValue (msg : EmailMessage) : Json :=
  .obj [("kind", .str msg.kind.tag), ("link", .str msg.kind.link),
    ("locale", .str msg.locale.asStr), ("to", .str msg.recipient)]

/-- The variant that a tag names.  A number names it too, by its position. -/
def variantOf (tag : Json) : Option (String → EmailKind) :=
  match tag with
  | .str "verify_email" => some .verifyEmail
  | .str "reset_password" => some .resetPassword
  | .str "confirm_email_change" => some .confirmEmailChange
  | .int 0 => some .verifyEmail
  | .int 1 => some .resetPassword
  | .int 2 => some .confirmEmailChange
  | _ => none

/-- `from_value`.  Other members are ignored. -/
def EmailMessage.fromValue (v : Json) : Option EmailMessage := do
  let recipient ← (v.get "to").bind Json.asStr
  let locale ← (v.get "locale").bind Json.asStr
  let locale ← LocaleCode.parse locale.toList
  let variant ← (v.get "kind").bind variantOf
  let link ← (v.get "link").bind Json.asStr
  return { recipient, locale, kind := variant link }

/-- A message is read from its row as it was handed over. -/
@[simp] theorem EmailMessage.fromValue_toValue (msg : EmailMessage) :
    fromValue msg.toValue = some msg := by
  obtain ⟨recipient, locale, kind⟩ := msg
  have hlocale : LocaleCode.parse locale.asStr.toList = some locale := by
    cases locale <;> decide +kernel
  cases kind <;> simp [fromValue, toValue, Json.get, Json.asStr, hlocale, EmailKind.tag,
    EmailKind.link, variantOf]

end BikesNest.Domain
