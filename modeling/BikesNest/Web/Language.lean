import BikesNest.Auth.QueuedMail
import BikesNest.Web.Cookies

/-!
# The language of a visitor

A page is written in the language of the `lang` cookie, else in the first one of
`Accept-Language` that the site has, else in Portuguese.  A mail is written in the
language of the account's row.  `/lang/{code}` is what sets both: the cookie for
the browser, and the row for whoever is signed in.

`language_after` says what a run of such requests leaves behind, also where the
database did not answer some of them: the pages follow the last of them for a
year, and the mails about an account the last one that reached its row.
-/

namespace BikesNest.Web

open BikesNest.Auth Domain Store

/-! ## Languages of a request -/

/-- `Locale::html_lang`. -/
def Locale.htmlLang : Locale → List Char
  | .en => "en".toList
  | .ptBr => "pt-BR".toList

/-- `Locale::from_code`. -/
def Locale.fromCode (code : List Char) : Option Locale :=
  let code := code.map Char.toLower
  if code = "en".toList then some .en
  else if code = "pt-br".toList ∨ code = "pt".toList then some .ptBr
  else none

/-- `cookie_lang`. -/
def cookieLang (cookieHeader : List Char) : Option Locale :=
  (((cookieHeader.splitOn ';').filterMap (splitAtFirst '=')).find? fun kv =>
    Text.trimChars kv.1 = langCookie).bind fun kv => Locale.fromCode (Text.trimChars kv.2)

/-- The language of one part of `Accept-Language`. -/
def languageOfPart (part : List Char) : Option Locale :=
  let tag := (Text.trimChars (part.takeWhile (· ≠ ';'))).map Char.toLower
  if "pt".toList.isPrefixOf tag then some .ptBr
  else if "en".toList.isPrefixOf tag then some .en
  else none

/-- `accept_language`. -/
def acceptLanguage (header : List Char) : Option Locale :=
  (header.splitOn ',').findSome? languageOfPart

/-- `Locale::from_headers`. -/
def Locale.fromHeaders (headers : HeaderMap) : Locale :=
  match (headerText headers "cookie".toList).bind cookieLang with
  | some l => l
  | none =>
    match (headerText headers "accept-language".toList).bind acceptLanguage with
    | some l => l
    | none => .ptBr

/-- What a request without a cookie gets. -/
def acceptedLanguage (headers : HeaderMap) : Locale :=
  ((headerText headers "accept-language".toList).bind acceptLanguage).getD .ptBr

theorem Locale.fromHeaders_eq (headers : HeaderMap) :
    Locale.fromHeaders headers =
      ((cookieValue headers langCookie).bind Locale.fromCode).getD (acceptedLanguage headers) := by
  have hcookie : (headerText headers "cookie".toList).bind cookieLang =
      (cookieValue headers langCookie).bind Locale.fromCode := by
    cases hline : headerText headers "cookie".toList with
    | none => rw [cookieValue, hline]; rfl
    | some line =>
      simp only [cookieValue, hline, Option.bind_some, cookieLang, Option.bind_map,
        Function.comp_def]
  rw [fromHeaders, acceptedLanguage, hcookie]
  cases (cookieValue headers langCookie).bind Locale.fromCode with
  | some l => rfl
  | none =>
    cases (headerText headers "accept-language".toList).bind acceptLanguage with
    | some l => rfl
    | none => rfl

/-- A code is read as it is written. -/
theorem Locale.fromCode_code (l : Locale) : Locale.fromCode l.code = some l := by
  cases l with
  | en => decide +kernel
  | ptBr => decide +kernel

/-! ## Languages of an account -/

/-- `locale_code`. -/
def localeCode (locale : Locale) : LocaleCode := (LocaleCode.parse locale.htmlLang).getD .ptBr

/-- The language in which `render` of `templates.rs` writes a mail. -/
def mailLanguage (locale : LocaleCode) : Locale :=
  (Locale.fromCode locale.asStr.toList).getD .ptBr

/-- A mail is written in the language that was chosen on the site. -/
theorem mailLanguage_localeCode (l : Locale) : mailLanguage (localeCode l) = l := by
  cases l with
  | en => decide +kernel
  | ptBr => decide +kernel

/-- The database with another language in the row of an account. -/
def withLocale (id : UserId) (locale : LocaleCode) (db : Db) : Db :=
  { db with
    users := db.users.update (fun i _ => i == id) fun r =>
      { r with locale, updatedAt := db.now } }

/-- The row of an account after the last language that reached it, and when. -/
def User.choosing (user : User) : Option (Instant × Locale) → User
  | none => user
  | some (at', locale) => { user with locale := localeCode locale, updatedAt := at' }

theorem row_withLocale (id : UserId) (l : Locale) {db : Db} {i : UserId} {user : User}
    (h : db.users.row i = some user) :
    (withLocale id (localeCode l) db).users.row i =
      some (User.choosing user (if id = i then some (db.now, l) else none)) := by
  have hrow := Relational.Table.row_update_of_some (fun j _ => j == id)
    (fun r : User => { r with locale := localeCode l, updatedAt := db.now }) h
  refine hrow.trans ?_
  by_cases hid : i = id
  · simp [hid, User.choosing]
  · have hne : ¬ id = i := fun heq => hid heq.symm
    simp [hid, hne, User.choosing]

/-- `set_locale` of the account repository. -/
def setLocale (id : UserId) (locale : LocaleCode) : Service Db AuthError Unit :=
  .execute .unavailable (withLocale id locale)

/-! ## Mails -/

structure RenderedEmail where
  subject : String
  text : String

/-- `keys`: the texts of the catalog for a kind. -/
def mailKeys : EmailKind → String × String
  | .verifyEmail _ => ("email.verify.subject", "email.verify.body")
  | .resetPassword _ => ("email.reset.subject", "email.reset.body")
  | .confirmEmailChange _ => ("email.change.subject", "email.change.body")

/-- `fill`. -/
def fill (template link : String) : String :=
  (template.replace "{app}" "BikesNest").replace "{link}" link

/-- A message in a language, with the texts of the catalog. -/
def renderIn (catalog : Locale → String → String) (l : Locale) (kind : EmailKind) :
    RenderedEmail where
  subject := fill (catalog l (mailKeys kind).1) kind.link
  text := fill (catalog l (mailKeys kind).2) kind.link

/-- `render`. -/
def render (catalog : Locale → String → String) (msg : EmailMessage) : RenderedEmail :=
  renderIn catalog (mailLanguage msg.locale) msg.kind

/-! ## Choosing a language -/

/-- A request for `/lang/{code}`, with the account that is signed in. -/
structure LangRequest where
  code : List Char
  next : List Char
  headers : HeaderMap
  user : Option UserId

/-- A redirect, with a cookie where one is set. -/
structure LangAnswer where
  location : List Char
  cookie : Option SiteCookie

/-- Where the visitor was: `next`, else the page of the headers, else the home page. -/
def LangRequest.target (req : LangRequest) : List Char :=
  ((safeLocalPath req.next).or
    (localPartOf req.headers [hxCurrentUrl, "referer".toList])).getD "/".toList

/-- `set_lang`.  A write that fails is logged and nothing more. -/
def setLang (req : LangRequest) : Service Db Empty LangAnswer :=
  match Locale.fromCode req.code with
  | none => pure ⟨req.target, none⟩
  | some locale =>
    match req.user with
    | none => pure ⟨req.target, some (.lang locale)⟩
    | some id => do
      let _ ← (setLocale id (localeCode locale)).attempt
      return ⟨req.target, some (.lang locale)⟩

/-- The language that a request writes to an account, if its call is not lost. -/
def LangRequest.writes (req : LangRequest) (lost : Option Nat) (id : UserId) : Option Locale :=
  if req.user = some id ∧ lost ≠ some 0 then Locale.fromCode req.code else none

/-- The redirect leads back, and the cookie has a known language. -/
theorem setLang_answer (req : LangRequest) (lost : Option Nat) (db : Db) :
    ((setLang req).runLosing lost db).1 =
      .ok ⟨req.target, (Locale.fromCode req.code).map .lang⟩ := by
  unfold setLang
  cases Locale.fromCode req.code with
  | none => cases lost <;> rfl
  | some locale =>
    cases req.user with
    | none => cases lost <;> rfl
    | some id =>
      match lost with
      | none => rfl
      | some 0 => rfl
      | some (n + 1) => rfl

theorem setLang_db (req : LangRequest) (lost : Option Nat) (db : Db) :
    ((setLang req).runLosing lost db).2 =
      match req.user, Locale.fromCode req.code with
      | some id, some l => if lost = some 0 then db else withLocale id (localeCode l) db
      | _, _ => db := by
  unfold setLang
  cases Locale.fromCode req.code with
  | none =>
    cases req.user <;> cases lost <;> rfl
  | some locale =>
    cases req.user with
    | none => cases lost <;> rfl
    | some id =>
      match lost with
      | none => rfl
      | some 0 => rfl
      | some (n + 1) => rfl

/-- No row but that of the account that is signed in changes, and there the language and the time
of the change. -/
theorem setLang_row (req : LangRequest) (lost : Option Nat) {db : Db} {id : UserId} {user : User}
    (h : db.users.row id = some user) :
    ((setLang req).runLosing lost db).2.users.row id =
      some (User.choosing user ((req.writes lost id).map fun l => (db.now, l))) := by
  rw [setLang_db]
  unfold LangRequest.writes
  cases huser : req.user with
  | none => exact h
  | some other =>
    cases hcode : Locale.fromCode req.code with
    | none =>
      rw [ite_self]
      exact h
    | some l =>
      by_cases hlost : lost = some 0
      · simpa [hlost, User.choosing] using h
      · have hrow := row_withLocale other l h
        by_cases hid : other = id
        · simpa [hlost, hid] using hrow
        · simpa [hlost, hid, User.choosing] using hrow

/-! ## Runs -/

/-- What a browser is answered: `/lang/{code}`, of which the database may lose a call, or
another page that sets a cookie. -/
inductive LangEvent where
  | chooses (now : Instant) (lost : Option Nat) (req : LangRequest)
  | sets (now : Instant) (cookie : SiteCookie) (other : cookie.name ≠ langCookie)

/-- The database, and the cookies that a browser was sent. -/
structure LangState where
  db : Db
  responses : List (Instant × SiteCookie)

def LangState.step (s : LangState) : LangEvent → LangState
  | .chooses now lost req =>
    match (setLang req).runLosing lost { s.db with now } with
    | (.ok answer, db) => ⟨db, s.responses ++ (answer.cookie.map fun c => (now, c)).toList⟩
    | (.error e, _) => nomatch e
  | .sets now cookie _ => { s with responses := s.responses ++ [(now, cookie)] }

/-- After a run that a new browser begins. -/
def LangState.after (db : Db) (run : List LangEvent) : LangState :=
  run.foldl LangState.step ⟨db, []⟩

/-- The language that an event asks for, and when. -/
def LangEvent.choice : LangEvent → Option (Instant × Locale)
  | .chooses now _ req => (Locale.fromCode req.code).map fun l => (now, l)
  | .sets _ _ _ => none

/-- The language that an event writes to an account, and when. -/
def LangEvent.writes (id : UserId) : LangEvent → Option (Instant × Locale)
  | .chooses now lost req => (req.writes lost id).map fun l => (now, l)
  | .sets _ _ _ => none

/-- What `read` says of the last event it says something of. -/
def lastOf {α : Type} (read : LangEvent → Option α) (run : List LangEvent) : Option α :=
  run.reverse.findSome? read

theorem lastOf_concat {α : Type} (read : LangEvent → Option α) (run : List LangEvent)
    (e : LangEvent) : lastOf read (run ++ [e]) = (read e).or (lastOf read run) := by
  simp only [lastOf, List.reverse_append, List.reverse_cons, List.reverse_nil, List.nil_append,
    List.cons_append, List.findSome?_cons]
  cases read e <;> rfl

theorem LangState.step_chooses (s : LangState) (now : Instant) (lost : Option Nat)
    (req : LangRequest) :
    s.step (.chooses now lost req) =
      ⟨((setLang req).runLosing lost { s.db with now }).2,
        s.responses ++
          ((Locale.fromCode req.code).map fun l => (now, SiteCookie.lang l)).toList⟩ := by
  have hanswer := setLang_answer req lost { s.db with now }
  unfold LangState.step
  dsimp only
  generalize (setLang req).runLosing lost { s.db with now } = result at hanswer ⊢
  obtain ⟨answer, db⟩ := result
  have hanswer : answer = _ := hanswer
  rw [hanswer]
  dsimp only
  rw [Option.map_map]
  rfl

theorem LangState.after_concat (db : Db) (run : List LangEvent) (e : LangEvent) :
    LangState.after db (run ++ [e]) = (LangState.after db run).step e := by
  rw [LangState.after, List.foldl_append]
  rfl

/-- One event keeps to the cookie of its language. -/
theorem LangState.step_responses (s : LangState) (e : LangEvent) :
    lastSet langCookie (s.step e).responses =
      (e.choice.map fun c => (c.1, SiteCookie.lang c.2)).or (lastSet langCookie s.responses) := by
  cases e with
  | chooses now lost req =>
    rw [step_chooses, LangEvent.choice]
    cases Locale.fromCode req.code with
    | none => simp
    | some l => simp [lastSet, SiteCookie.name]
  | sets now cookie other =>
    show lastSet langCookie (s.responses ++ [(now, cookie)]) = _
    simp [lastSet, other, LangEvent.choice]

/-- One event keeps to the rows that it writes. -/
theorem LangState.step_row (s : LangState) (e : LangEvent) {id : UserId} {user : User}
    (h : s.db.users.row id = some user) :
    (s.step e).db.users.row id = some (User.choosing user (e.writes id)) := by
  cases e with
  | chooses now lost req =>
    have hrow : ({ s.db with now } : Db).users.row id = some user := h
    rw [step_chooses]
    exact setLang_row req lost hrow
  | sets now cookie other => exact h

theorem lastSet_after (db : Db) (run : List LangEvent) :
    lastSet langCookie (LangState.after db run).responses =
      (lastOf LangEvent.choice run).map fun c => (c.1, SiteCookie.lang c.2) := by
  induction run using List.reverseRecOn with
  | nil => rfl
  | append_singleton run e ih =>
    rw [LangState.after_concat, LangState.step_responses, ih, lastOf_concat]
    cases e.choice <;> rfl

theorem choosing_or (user : User) (first second : Option (Instant × Locale)) :
    User.choosing (User.choosing user first) second = User.choosing user (second.or first) := by
  cases second with
  | none => rfl
  | some choice => cases first <;> rfl

theorem row_after {db : Db} {id : UserId} {user : User} (h : db.users.row id = some user)
    (run : List LangEvent) :
    (LangState.after db run).db.users.row id =
      some (User.choosing user (lastOf (LangEvent.writes id) run)) := by
  induction run using List.reverseRecOn with
  | nil => exact h
  | append_singleton run e ih =>
    rw [LangState.after_concat, LangState.step_row _ e ih, lastOf_concat, choosing_or]

/-- The language of the mails about an account: the last one that reached its row, or else the one
that it had. -/
def mailed (user : User) (written : Option (Instant × Locale)) : Locale :=
  (written.map Prod.snd).getD (mailLanguage user.locale)

theorem mailLanguage_choosing (user : User) (written : Option (Instant × Locale)) :
    mailLanguage (User.choosing user written).locale = mailed user written := by
  cases written with
  | none => rfl
  | some choice => exact mailLanguage_localeCode choice.2

/-- The time for which a choice lives. -/
def choiceLife : Int := 365 * day

/-- The last choice, unless it is a year old. -/
def chosen (run : List LangEvent) (now : Instant) : Option Locale :=
  ((lastOf LangEvent.choice run).filter fun c => now < c.1 + choiceLife).map Prod.snd

/-- Pages follow the last choice of the browser for a year, whatever page they are and
whatever else was set.  Of the row of an account, the choices that reach it change the language
and the time of the last change, and nothing else.  The mails that a request about the account
hands to the queue are written in that language. -/
theorem language_after (db : Db) (run : List LangEvent) (now : Instant) (rest : List Char)
    (headers : HeaderMap)
    (h : headers.get "cookie".toList =
      cookieHeader now ('/' :: rest) (jarAfter (LangState.after db run).responses)) :
    Locale.fromHeaders headers = (chosen run now).getD (acceptedLanguage headers) ∧
      ∀ id user, db.users.row id = some user →
        let after := (LangState.after db run).db
        let written := lastOf (LangEvent.writes id) run
        after.users.row id = some (User.choosing user written) ∧
          ∀ (deps : Deps) (ports : Ports) (request : MailRequest) (lost : Option Nat),
            request.account deps after = some id →
            ∃ queued, ((request.run deps ports).runLosing lost after).2.outbox =
                after.outbox ++ queued ∧
              ∀ msg ∈ queued, ∀ catalog,
                render catalog msg = renderIn catalog (mailed user written) msg.kind := by
  constructor
  · have hvalue := cookieValue_register _ now ('/' :: rest) headers h langCookie
    rw [Locale.fromHeaders_eq, hvalue, lastSet_after, chosen]
    congr 1
    cases lastOf LangEvent.choice run with
    | none => rfl
    | some c =>
      have hlife : (31536000 : Int) * second = choiceLife := by decide
      have hpath : pathOf (SiteCookie.lang c.2).name = "/".toList := rfl
      have hage : ((SiteCookie.lang c.2).maxAge : Int) = 31536000 := rfl
      have hpresents : Presents now ('/' :: rest) (c.1, SiteCookie.lang c.2) =
          decide (now < c.1 + choiceLife) := by
        simp only [Presents, hpath, pathMatches_root, Bool.and_true, hage, hlife]
      have hread : Locale.fromCode (SiteCookie.lang c.2).value = some c.2 :=
        Locale.fromCode_code c.2
      by_cases halive : now < c.1 + choiceLife
      · simp [Option.filter, hpresents, halive, hread]
      · simp [Option.filter, hpresents, halive]
  · intro id user huser after written
    have hrow : after.users.row id = some (User.choosing user written) := row_after huser run
    refine ⟨hrow, fun deps ports request lost haccount => ?_⟩
    obtain ⟨queued, houtbox, hlocale⟩ := queued_locale haccount hrow ports lost
    refine ⟨queued, houtbox, fun msg hmsg catalog => ?_⟩
    rw [render, hlocale msg hmsg, mailLanguage_choosing]

/-- English and then Portuguese, of which the database loses the second write. -/
def twoChoices : List LangEvent :=
  [.chooses 0 none ⟨"en".toList, [], [], some 1⟩,
    .chooses second (some 0) ⟨"PT".toList, [], [], some 1⟩]

/-- An account of a reader of Portuguese. -/
def oneReader : User where
  email := "a@example.com"
  displayName := none
  accountState := .active
  locale := .ptBr
  createdAt := 0

/-- A database with that account. -/
def oneReaderDb : Db := { Db.empty 0 with users := Relational.Table.empty.insert oneReader }

/-- The account asks for another link to verify its address. -/
def askAgain : MailRequest := .resendVerification "203.0.113.7" "a@example.com"

/-- Pages are in Portuguese and mails in English. -/
theorem language_after_lost :
    let after := (LangState.after oneReaderDb twoChoices).db
    let asked := ((askAgain.run sampleDeps (samplePorts zeroToken)).runLosing none after).2
    Locale.fromHeaders (cookieHeaders day "/about".toList
        (jarAfter (LangState.after oneReaderDb twoChoices).responses)) = .ptBr ∧
      after.users.row 1 = some { oneReader with locale := .en, updatedAt := 0 } ∧
      asked.outbox.length = 1 ∧
      ∀ msg ∈ asked.outbox, ∀ catalog, render catalog msg = renderIn catalog .en msg.kind := by
  intro after asked
  have hafter := language_after oneReaderDb twoChoices day "about".toList
    (cookieHeaders day "/about".toList
      (jarAfter (LangState.after oneReaderDb twoChoices).responses))
    (get_cookieHeaders _ _ _)
  have hchosen : chosen twoChoices day = some .ptBr := by decide +kernel
  have hwritten : lastOf (LangEvent.writes 1) twoChoices = some (0, .en) := by decide +kernel
  have haccount : askAgain.account sampleDeps after = some 1 := by decide +kernel
  rw [hchosen] at hafter
  obtain ⟨hrow, hmails⟩ := hafter.2 1 oneReader rfl
  obtain ⟨queued, houtbox, hrendered⟩ :=
    hmails sampleDeps (samplePorts zeroToken) askAgain none haccount
  rw [hwritten] at hrow hrendered
  refine ⟨hafter.1, hrow, by decide +kernel, ?_⟩
  intro msg hmsg
  have hmsg : msg ∈ after.outbox ++ queued := houtbox ▸ hmsg
  exact hrendered msg hmsg

end BikesNest.Web
