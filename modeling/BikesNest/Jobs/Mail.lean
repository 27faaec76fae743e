import BikesNest.Domain.Email
import BikesNest.Jobs.Attempts
import BikesNest.Jobs.Recurring
import BikesNest.Jobs.Rows

/-!
# Mail on the job queue

A use case hands a message to `JobEmailQueue`, which inserts one `email.send` row for each
kind and link.  A worker reads the message back out of the row and calls the provider
(`SendEmailHandler`).

`MailSys` is the system of the workers with a record of the messages that the queue accepted
and of the calls of the provider.  `Tracked` is the invariant of its runs, and the results are
`mail_kept`, that an accepted message waits or was handed to the provider, and `mail_state`,
what the state of a row says about the calls.
-/

namespace BikesNest.Jobs

open Domain Relational

/-! ## The queue and the handler -/

/-- The crates that mail needs: the hash of a link, and the text of serde's errors. -/
structure MailCrates where
  sha256Hex : String → String
  explain : Json → String

/-- `idempotency_key`. -/
def idempotencyKey (C : MailCrates) (msg : EmailMessage) : String :=
  "email:" ++ msg.kind.code ++ ":" ++ C.sha256Hex msg.kind.link

/-- `JobEmailQueue::enqueue`, where the database answers. -/
def JobEmailQueue.enqueue (C : MailCrates) (maxAttempts : Int) (q : JobQueue) (now : Instant)
    (msg : EmailMessage) : JobQueue :=
  (Jobs.enqueue q jobEmailSend msg.toValue now (some maxAttempts)
    (some (idempotencyKey C msg))).2

/-- `decode` of the handler. -/
def decodeMail (C : MailCrates) (payload : Json) : Except JobError EmailMessage :=
  match EmailMessage.fromValue payload with
  | some msg => .ok msg
  | none => .error (.permanent ("unreadable email.send payload: " ++ C.explain payload))

/-- `SendEmailHandler::run`, with the answer of the provider. -/
def SendEmailHandler.run (C : MailCrates) (payload : Json) (answer : Except EmailError Unit) :
    Except JobError Unit :=
  match decodeMail C payload with
  | .error e => .error e
  | .ok msg =>
    match answer with
    | .ok () => .ok ()
    | .error e => .error (.failed ("sending " ++ msg.kind.code ++ " to " ++
        msg.recipientDomain ++ " failed: " ++ e.display))

/-! ## The system -/

structure MailSys where
  sys : Sys
  /-- The messages that the queue accepted, the last one first. -/
  accepted : List EmailMessage
  /-- The calls of the provider and its answers, the last one first. -/
  sends : List (EmailMessage × Except EmailError Unit)

def MailSys.init (now : Instant) : MailSys := ⟨Sys.init now, [], []⟩

inductive MailLabel where
  /-- A use case hands over a message; it fails if the row is not stored. -/
  | enqueue (msg : EmailMessage) (stored : Bool)
  /-- The handler of a worker calls the provider, and the worker may die with the answer. -/
  | deliver (w : WorkerId) (answer : Except EmailError Unit) (died : Bool)
  | work (l : Label)

/-- The worker runs the handler of a mail. -/
def sending (s : Sys) (w : WorkerId) : Option ClaimedJob :=
  match s.workers.row w with
  | some (.handling job _ _) => if job.kind = jobEmailSend then some job else none
  | _ => none

/-- The steps of the workers that are not about mail: only `JobEmailQueue` and `bootstrap`
insert rows, and the handler of a mail ends with a call of the provider. -/
def isOther (s : Sys) : Label → Bool
  | .submit .. => false
  | .finish w _ => (sending s w).isNone
  | _ => true

/-- The worker with the registry that the server builds. -/
def mailWorker (crates : SchedulingCrates) (config : JobConfig) : Worker :=
  ⟨crates, jobServices config, config⟩

/-- One step of the system; none when the label cannot happen. -/
def mailStep (C : MailCrates) (env : Worker) (x : MailSys) : MailLabel → Option MailSys
  | .enqueue msg stored =>
    if stored then
      some { x with
        sys := x.sys.setQueue
          (JobEmailQueue.enqueue C env.config.maxAttempts x.sys.queue x.sys.now msg)
        accepted := msg :: x.accepted }
    else some x
  | .deliver w answer died =>
    (sending x.sys w).bind fun job =>
      (if died then some (x.sys.drop w)
        else step env x.sys (.finish w (SendEmailHandler.run C job.payload answer))).map fun s =>
        { x with
          sys := s
          sends := (EmailMessage.fromValue job.payload).toList.map (·, answer) ++ x.sends }
  | .work l => if isOther x.sys l then (step env x.sys l).map fun s => { x with sys := s } else none

/-- A finite run of the system. -/
abbrev MailRun (C : MailCrates) (env : Worker) : MailSys → List MailLabel → MailSys → Prop :=
  Runs.Run fun x l x' => mailStep C env x l = some x'

/-! ## The invariant -/

/-- What the result of a handler says about the calls. -/
def Told (sends : List (EmailMessage × Except EmailError Unit)) (msg : EmailMessage) :
    Except JobError Unit → Prop
  | .ok () => (msg, .ok ()) ∈ sends
  | .error (.failed _) => ∃ e, (msg, .error e) ∈ sends
  | .error (.permanent _) => False

/-- The row of a message, with what its state says about the calls. -/
structure MailRow (C : MailCrates) (x : MailSys) (r : BackgroundJob) (msg : EmailMessage) :
    Prop where
  payload : r.payload = msg.toValue
  key : r.idempotencyKey = some (idempotencyKey C msg)
  accepted : msg ∈ x.accepted
  succeeded : r.state = .succeeded → (msg, .ok ()) ∈ x.sends
  failed : r.state = .failed → r.maxAttempts ≤ r.attempts ∧ ∃ e, (msg, .error e) ∈ x.sends

/-- A row is the row of a message, or has nothing to do with mail. -/
structure RowTold (C : MailCrates) (x : MailSys) (r : BackgroundJob) : Prop where
  mail : r.kind = jobEmailSend → ∃ msg, MailRow C x r msg
  other : r.kind ≠ jobEmailSend → ∀ msg, r.idempotencyKey ≠ some (idempotencyKey C msg)

/-- The jobs in hand are messages that the queue accepted, and a result that is not written
yet tells of a call. -/
structure PhaseTold (env : Worker) (x : MailSys) (p : Phase) : Prop where
  jobs : ∀ job ∈ p.jobs, job.kind = jobEmailSend → ∃ msg ∈ x.accepted, job.payload = msg.toValue
  booting : ∀ now rest, p = .booting now rest → ∀ rk ∈ rest, rk ∈ env.registry.recurring
  recording : ∀ job result endedAt batch, p = .recording job result endedAt batch →
    job.kind = jobEmailSend → ∃ msg, job.payload = msg.toValue ∧ Told x.sends msg result

/-- A message has a row or was handed to the provider; so was one with the same key. -/
def Placed (C : MailCrates) (x : MailSys) (msg : EmailMessage) : Prop :=
  (∃ i r, x.sys.queue.row i = some r ∧ r.idempotencyKey = some (idempotencyKey C msg)) ∨
    ∃ m answer, (m, answer) ∈ x.sends ∧ idempotencyKey C m = idempotencyKey C msg

/-- The invariant of the system. -/
structure Tracked (C : MailCrates) (env : Worker) (x : MailSys) : Prop where
  sound : Sound env x.sys
  current : Current x.sys
  orderly : Orderly x.sys.queue
  rows : ∀ i r, x.sys.queue.row i = some r → RowTold C x r
  phases : ∀ w p, x.sys.workers.row w = some p → PhaseTold env x p
  placed : ∀ msg ∈ x.accepted, Placed C x msg
  sends : ∀ m answer, (m, answer) ∈ x.sends → m ∈ x.accepted

variable {C : MailCrates} {env : Worker} {x x' : MailSys} {s' : Sys} {r r' : BackgroundJob}
  {msg : EmailMessage} {w : WorkerId} {l : Label}

theorem tracked_init (C : MailCrates) (env : Worker) (now : Instant) :
    Tracked C env (MailSys.init now) := by
  refine ⟨sound_init env now, current_init now, orderly_empty, ?_, ?_, ?_, ?_⟩
  · exact fun i r h => by cases h
  · exact fun w p h => by cases h
  · exact fun msg h => by cases h
  · exact fun m answer h => by cases h

/-! ## Rows and results -/

theorem toValue_injective : Function.Injective EmailMessage.toValue := by
  intro msg msg' h
  have hread := congrArg EmailMessage.fromValue h
  rw [EmailMessage.fromValue_toValue, EmailMessage.fromValue_toValue] at hread
  exact Option.some.inj hread

/-- More messages and more calls leave true what was told. -/
theorem Told.mono {sends sends' : List (EmailMessage × Except EmailError Unit)}
    (hsends : sends ⊆ sends') {result : Except JobError Unit} (h : Told sends msg result) :
    Told sends' msg result := by
  cases result with
  | ok => exact hsends h
  | error e =>
    cases e with
    | failed =>
      obtain ⟨e, he⟩ := h
      exact ⟨e, hsends he⟩
    | permanent => exact h

theorem RowTold.mono (h : RowTold C x r) (haccepted : x.accepted ⊆ x'.accepted)
    (hsends : x.sends ⊆ x'.sends) : RowTold C x' r where
  mail hkind := by
    obtain ⟨msg, hmsg⟩ := h.mail hkind
    refine ⟨msg, hmsg.payload, hmsg.key, haccepted hmsg.accepted, ?_, ?_⟩
    · exact fun hstate => hsends (hmsg.succeeded hstate)
    · intro hstate
      obtain ⟨hspent, e, he⟩ := hmsg.failed hstate
      exact ⟨hspent, e, hsends he⟩
  other := h.other

theorem PhaseTold.mono {p : Phase} (h : PhaseTold env x p) (haccepted : x.accepted ⊆ x'.accepted)
    (hsends : x.sends ⊆ x'.sends) : PhaseTold env x' p where
  jobs job hjob hkind := by
    obtain ⟨msg, hmsg, hpayload⟩ := h.jobs job hjob hkind
    exact ⟨msg, haccepted hmsg, hpayload⟩
  booting := h.booting
  recording job result endedAt batch hp hkind := by
    obtain ⟨msg, hpayload, htold⟩ := h.recording job result endedAt batch hp hkind
    exact ⟨msg, hpayload, htold.mono hsends⟩

/-- A row that is not finished by a step says what it said. -/
theorem RowTold.of_same (h : RowTold C x r) (hkind : r'.kind = r.kind)
    (hpayload : r'.payload = r.payload) (hkey : r'.idempotencyKey = r.idempotencyKey)
    (hsucceeded : r'.state = .succeeded → r.state = .succeeded)
    (hfailed : r'.state = .failed → r.state = .failed ∧ r'.attempts = r.attempts ∧
      r'.maxAttempts = r.maxAttempts) : RowTold C x r' where
  mail hmail := by
    obtain ⟨msg, hmsg⟩ := h.mail (hkind ▸ hmail)
    refine ⟨msg, hpayload.trans hmsg.payload, hkey.trans hmsg.key, hmsg.accepted, ?_, ?_⟩
    · exact fun hstate => hmsg.succeeded (hsucceeded hstate)
    · intro hstate
      obtain ⟨hbefore, hattempts, hmax⟩ := hfailed hstate
      rw [hattempts, hmax]
      exact hmsg.failed hbefore
  other hother msg := by
    rw [hkey]
    exact h.other (hkind ▸ hother) msg

/-- A row of another kind has no messages. -/
theorem RowTold.of_other (h : RowTold C x r) (hother : r.kind ≠ jobEmailSend)
    (hkind : r'.kind = r.kind) (hkey : r'.idempotencyKey = r.idempotencyKey) :
    RowTold C x r' where
  mail hmail := absurd (hkind ▸ hmail) hother
  other _ msg := by
    rw [hkey]
    exact h.other hother msg

/-- The message of a row is the one that the worker has in hand. -/
theorem RowTold.mailRow (h : RowTold C x r) (hkind : r.kind = jobEmailSend)
    (hpayload : r.payload = msg.toValue) : MailRow C x r msg := by
  obtain ⟨m, hm⟩ := h.mail hkind
  have hsame : m = msg := toValue_injective (hm.payload.symm.trans hpayload)
  rw [← hsame]
  exact hm

/-- The outcome that a worker writes is true of the row it holds. -/
theorem rowTold_recordOutcome {now endedAt : Instant} {jitter : Nat} {job : ClaimedJob}
    {result : Except JobError Unit} {q' : JobQueue} (hnone : job.schedule = none)
    (hrows : ∀ i r, x.sys.queue.row i = some r → RowTold C x r)
    (hcurrent : ∀ r, x.sys.queue.row job.id = some r → r.claimedBy = some w →
      job = r.toClaimed job.id)
    (hresult : job.kind = jobEmailSend →
      ∃ msg, job.payload = msg.toValue ∧ Told x.sends msg result)
    (h : recordOutcome env x.sys.queue now w job result endedAt jitter = .returned q') :
    ∀ i r, q'.row i = some r → RowTold C x r := by
  -- A row in the outcome is one that was left alone, or the worker's with the outcome in it.
  have hwrite : ∀ f : BackgroundJob → BackgroundJob,
      (∀ r, job = r.toClaimed job.id → RowTold C x r → RowTold C x (f r)) →
      ∀ i r, (x.sys.queue.update (heldBy job.id w) f).row i = some r → RowTold C x r := by
    intro f hf i r' hr'
    obtain ⟨r, hr, rfl⟩ := Table.row_update_eq_some.mp hr'
    split
    · rename_i hheld
      simp only [heldBy, Bool.and_eq_true, beq_iff_eq] at hheld
      rw [hheld.1] at hr
      exact hf r (hcurrent r hr hheld.2) (hrows _ r hr)
    · exact hrows i r hr
  have hfail : (job.kind = jobEmailSend → ∃ msg, job.payload = msg.toValue ∧
      job.maxAttempts ≤ job.attempts ∧ ∃ e, (msg, .error e) ∈ x.sends) →
      ∀ error i r, (fail x.sys.queue now job.id w error).row i = some r → RowTold C x r := by
    intro htold error
    refine hwrite _ fun r hjob hr => ?_
    by_cases hkind : r.kind = jobEmailSend
    · rw [hjob] at htold
      obtain ⟨msg, hpayload, hspent, hrefused⟩ := htold hkind
      have hrow := hr.mailRow hkind hpayload
      refine ⟨fun _ => ⟨msg, hrow.payload, hrow.key, hrow.accepted, ?_, ?_⟩,
        fun hother => absurd hkind hother⟩
      · exact fun hstate => by cases hstate
      · exact fun _ => ⟨hspent, hrefused⟩
    · exact hr.of_other hkind rfl rfl
  unfold recordOutcome at h
  split at h
  · rw [hnone, nextRunAt_none] at h
    cases h
    refine hwrite _ fun r hjob hr => ?_
    by_cases hkind : r.kind = jobEmailSend
    · rw [hjob] at hresult
      obtain ⟨msg, hpayload, htold⟩ := hresult hkind
      have hrow := hr.mailRow hkind hpayload
      refine ⟨fun _ => ⟨msg, hrow.payload, hrow.key, hrow.accepted, ?_, ?_⟩,
        fun hother => absurd hkind hother⟩
      · exact fun _ => htold
      · exact fun hstate => by cases hstate
    · exact hr.of_other hkind rfl rfl
  · split at h
    · split at h
      · cases h
        refine hwrite _ fun r _ hr => hr.of_same rfl rfl rfl ?_ ?_
        · exact fun hstate => by cases hstate
        · exact fun hstate => by cases hstate
      · cases h
    · rename_i hspent
      cases h
      refine hfail (fun hkind => ?_) _
      obtain ⟨msg, hpayload, htold⟩ := hresult hkind
      exact ⟨msg, hpayload, by omega, htold⟩
  · cases h
    refine hfail (fun hkind => ?_) _
    obtain ⟨msg, _, htold⟩ := hresult hkind
    exact htold.elim

/-! ## What a step of the workers does -/

/-- The recurring kinds are not mail, and no message has their keys. -/
theorem recurring_other {crates : SchedulingCrates} {config : JobConfig} {rk : RecurringKind}
    (h : rk ∈ (mailWorker crates config).registry.recurring) :
    rk.jobKind ≠ jobEmailSend ∧ ∀ msg, rk.idempotencyKey ≠ idempotencyKey C msg := by
  have hkey : ∀ key : String, key.toList.head? = some 'r' → ∀ msg, key ≠ idempotencyKey C msg := by
    intro key hhead msg hsame
    rw [hsame, idempotencyKey, String.toList_append, String.toList_append,
      String.toList_append] at hhead
    cases hhead
  simp only [mailWorker, jobServices, List.mem_cons, List.not_mem_nil, or_false] at h
  rcases h with rfl | rfl
  · exact ⟨(by decide : jobRetention ≠ jobEmailSend), hkey "recurring:retention" (by decide)⟩
  · exact ⟨(by decide : jobJobsGc ≠ jobEmailSend), hkey "recurring:jobs.gc" (by decide)⟩

/-- The write of an outcome is a statement. -/
theorem recordOutcome_statement {q q' : JobQueue} {now endedAt : Instant} {jitter : Nat}
    {job : ClaimedJob} {result : Except JobError Unit}
    (h : recordOutcome env q now w job result endedAt jitter = .returned q') :
    ∃ statement, q' = execute q statement := by
  unfold recordOutcome at h
  split at h
  · split at h
    · cases h
      exact ⟨.finishSuccess job.id w _ endedAt, rfl⟩
    · cases h
      exact ⟨.fail now job.id w _, rfl⟩
    · cases h
  · split at h
    · split at h
      · cases h
        exact ⟨.retry job.id w _ _, rfl⟩
      · cases h
    · cases h
      exact ⟨.fail now job.id w _, rfl⟩
  · cases h
    exact ⟨.fail now job.id w _, rfl⟩

/-- A step runs one statement on the queue, or none. -/
theorem queue_of_step {s : Sys} (h : step env s l = some s') :
    s'.queue = s.queue ∨ ∃ statement, s'.queue = execute s.queue statement := by
  cases move_of_step h with
  | spawn => exact .inl rfl
  | @boot w stored now rk rest hw =>
    cases stored with
    | false => exact .inl rfl
    | true => exact .inr ⟨.enqueue rk.jobKind rk.payload now _ _, rfl⟩
  | booted => exact .inl rfl
  | submit => exact .inr ⟨.enqueue _ _ _ _ _, rfl⟩
  | @claim w locked => exact .inr ⟨.claim s.now _ w _ locked none, rfl⟩
  | start => exact .inl rfl
  | @reject w stored job =>
    cases stored with
    | false => exact .inl rfl
    | true => exact .inr ⟨.fail s.now job.id w _, rfl⟩
  | @heartbeat w job => exact .inr ⟨.heartbeat s.now job.id w _, rfl⟩
  | heartbeatLost => exact .inl rfl
  | finish => exact .inl rfl
  | @record w stored jitter job result endedAt batch q hw hq =>
    cases stored with
    | false => exact .inl rfl
    | true => exact .inr (recordOutcome_statement hq)
  | recordPanic => exact .inl rfl
  | crash => exact .inl rfl
  | @gc cutoff => exact .inr ⟨.gc cutoff, rfl⟩
  | tick => exact .inl rfl

/-- A message whose row is collected was handed to the provider. -/
theorem Tracked.placed_of_step (h : Tracked C env x) (hstep : step env x.sys l = some s') :
    ∀ msg ∈ x.accepted, Placed C { x with sys := s' } msg := by
  intro msg hmsg
  rcases h.placed msg hmsg with ⟨i, r, hr, hkey⟩ | hsent
  · rcases queue_of_step hstep with hsame | ⟨statement, hq⟩
    · exact .inl ⟨i, r, by rw [hsame]; exact hr, hkey⟩
    · rcases row_execute statement hr with ⟨r', hr', heffect⟩ | ⟨_, _, _, hterminal, _⟩
      · exact .inl ⟨i, r', by rw [hq]; exact hr', heffect.key.trans hkey⟩
      · right
        have htold := h.rows i r hr
        by_cases hkind : r.kind = jobEmailSend
        · obtain ⟨m, hm⟩ := htold.mail hkind
          have hsame : idempotencyKey C m = idempotencyKey C msg :=
            Option.some.inj (hm.key.symm.trans hkey)
          simp only [BackgroundJob.isTerminal, Bool.or_eq_true, beq_iff_eq] at hterminal
          rcases hterminal with hstate | hstate
          · exact ⟨m, _, hm.succeeded hstate, hsame⟩
          · obtain ⟨_, e, he⟩ := hm.failed hstate
            exact ⟨m, _, he, hsame⟩
        · exact absurd hkey (htold.other hkind msg)
  · exact .inr hsent

/-- The phases of the workers after one of them has changed its own. -/
theorem phases_setPhase {s : Sys} {p : Phase}
    (h : ∀ v p, s.workers.row v = some p → PhaseTold env x p) (hp : PhaseTold env x p) :
    ∀ v p', (s.setPhase w p).workers.row v = some p' → PhaseTold env x p' := by
  intro v p' hv
  rcases row_setPhase hv with ⟨_, rfl⟩ | ⟨_, hold⟩
  · exact hp
  · exact h v p' hold

/-- A phase that is neither booting nor recording tells of its jobs only. -/
theorem PhaseTold.of_jobs {p : Phase} (hjobs : ∀ job ∈ p.jobs, job.kind = jobEmailSend →
      ∃ msg ∈ x.accepted, job.payload = msg.toValue)
    (hbooting : ∀ now rest, p ≠ .booting now rest)
    (hrecording : ∀ job result endedAt batch, p ≠ .recording job result endedAt batch) :
    PhaseTold env x p :=
  ⟨hjobs, fun now rest hp => absurd hp (hbooting now rest),
    fun job result endedAt batch hp => absurd hp (hrecording job result endedAt batch)⟩

/-- Only a job without a handler is rejected. -/
theorem kind_of_reject {s : Sys} {stored : Bool} {job : ClaimedJob} {batch : List ClaimedJob}
    (hw : s.workers.row w = some (.idle (job :: batch)))
    (hstep : step env s (.reject w stored) = some s') :
    env.registry.handlers.contains job.kind = false := by
  simp only [step, hw] at hstep
  split at hstep
  · cases hstep
  · rename_i hnone
    exact Bool.eq_false_iff.mpr hnone

variable {crates : SchedulingCrates} {config : JobConfig}

theorem rowTold_bootstrap {rk : RecurringKind} {now : Instant}
    (hrk : rk ∈ (mailWorker crates config).registry.recurring)
    (h : ∀ i r, x.sys.queue.row i = some r → RowTold C x r) :
    ∀ i r, (bootstrap x.sys.queue rk now).row i = some r → RowTold C x r := by
  obtain ⟨hkind, hkey⟩ := recurring_other (C := C) hrk
  intro i r hr
  unfold bootstrap enqueue at hr
  split at hr
  · exact h i r hr
  · rcases Table.row_insert_eq_some.mp hr with ⟨_, rfl⟩ | hold
    · exact ⟨fun hmail => absurd hmail hkind, fun _ msg hsame => hkey msg (Option.some.inj hsame)⟩
    · exact h i r hold

/-- A step of the workers leaves every row true. -/
theorem Tracked.rows_of_step (h : Tracked C (mailWorker crates config) x)
    (hstep : step (mailWorker crates config) x.sys l = some s')
    (hsubmit : ∀ kind payload runAt budget key, l ≠ .submit kind payload runAt budget key) :
    ∀ i r, s'.queue.row i = some r → RowTold C x r := by
  cases move_of_step hstep with
  | spawn => exact h.rows
  | @boot w stored now rk rest hw =>
    cases stored with
    | false => exact h.rows
    | true =>
      have hrk := (h.phases w _ hw).booting now (rk :: rest) rfl rk List.mem_cons_self
      exact rowTold_bootstrap hrk h.rows
  | booted => exact h.rows
  | submit => exact absurd rfl (hsubmit _ _ _ _ _)
  | claim =>
    intro i r' hr'
    obtain ⟨r, hr, rfl⟩ := Table.row_update_eq_some.mp hr'
    split
    · refine (h.rows i r hr).of_same rfl rfl rfl ?_ ?_
      · exact fun hstate => by cases hstate
      · exact fun hstate => by cases hstate
    · exact h.rows i r hr
  | start => exact h.rows
  | @reject w stored job batch hw =>
    cases stored with
    | false => exact h.rows
    | true =>
      intro i r' hr'
      obtain ⟨r, hr, rfl⟩ := Table.row_update_eq_some.mp hr'
      split
      · rename_i hheld
        simp only [heldBy, Bool.and_eq_true, beq_iff_eq] at hheld
        rw [hheld.1] at hr
        have hjob := h.current w _ job r hw List.mem_cons_self hr hheld.2
        have hnone := kind_of_reject hw hstep
        have hkind : r.kind ≠ jobEmailSend := by
          intro hmail
          rw [hjob, show (r.toClaimed job.id).kind = r.kind from rfl, hmail] at hnone
          cases hnone
        exact (h.rows _ r hr).of_other hkind rfl rfl
      · exact h.rows i r hr
  | heartbeat =>
    intro i r' hr'
    obtain ⟨r, hr, rfl⟩ := Table.row_update_eq_some.mp hr'
    split
    · exact (h.rows i r hr).of_same rfl rfl rfl (fun hstate => hstate)
        fun hstate => ⟨hstate, rfl, rfl⟩
    · exact h.rows i r hr
  | heartbeatLost => exact h.rows
  | finish => exact h.rows
  | @record w stored jitter job result endedAt batch q hw hq =>
    cases stored with
    | false => exact h.rows
    | true =>
      have hphase := h.phases w _ hw
      exact rowTold_recordOutcome (h.sound.jobs w _ hw job List.mem_cons_self) h.rows
        (fun r hr hclaimed => h.current w _ job r hw List.mem_cons_self hr hclaimed)
        (hphase.recording job result endedAt batch rfl) hq
  | recordPanic => exact h.rows
  | crash => exact h.rows
  | gc =>
    intro i r hr
    exact h.rows i r (Table.row_delete_eq_some.mp hr).1
  | tick => exact h.rows

/-- A step of the workers leaves every phase true, if the results that handlers return are. -/
theorem Tracked.phases_of_step (h : Tracked C (mailWorker crates config) x)
    (hstep : step (mailWorker crates config) x.sys l = some s')
    (hfinish : ∀ w result job beat batch, l = .finish w result →
      x.sys.workers.row w = some (.handling job beat batch) → job.kind = jobEmailSend →
      ∃ msg, job.payload = msg.toValue ∧ Told x.sends msg result) :
    ∀ w p, s'.workers.row w = some p → PhaseTold (mailWorker crates config) x p := by
  have hdrop : ∀ w v p, (x.sys.drop w).workers.row v = some p →
      PhaseTold (mailWorker crates config) x p := fun w v p hv => h.phases v p (row_drop hv)
  cases move_of_step hstep with
  | spawn =>
    intro v p hv
    rcases row_spawn hv with rfl | hold
    · refine ⟨nofun, ?_, nofun⟩
      intro now rest hp rk hrk
      cases hp
      exact hrk
    · exact h.phases v p hold
  | @boot w stored now rk rest hw =>
    refine phases_setPhase h.phases ⟨nofun, ?_, nofun⟩
    intro now' rest' hp rk' hrk'
    cases hp
    exact (h.phases w _ hw).booting now (rk :: rest) rfl rk' (List.mem_cons_of_mem _ hrk')
  | booted =>
    exact phases_setPhase h.phases (.of_jobs nofun nofun nofun)
  | submit => exact h.phases
  | claim hw hbatch =>
    refine phases_setPhase h.phases (.of_jobs (fun job hjob hkind => ?_) nofun nofun)
    obtain ⟨r, hr, _, heq, _⟩ := mem_claimInner (hbatch job hjob)
    rw [heq] at hkind ⊢
    obtain ⟨msg, hmsg⟩ := (h.rows _ r hr).mail hkind
    exact ⟨msg, hmsg.accepted, hmsg.payload⟩
  | @start w job batch hw =>
    exact phases_setPhase h.phases (.of_jobs (h.phases w _ hw).jobs nofun nofun)
  | @reject w stored job batch hw =>
    exact phases_setPhase h.phases (.of_jobs
      (fun j hj => (h.phases w _ hw).jobs j (List.mem_cons_of_mem _ hj)) nofun nofun)
  | @heartbeat w job beat batch hw =>
    exact phases_setPhase h.phases (.of_jobs (h.phases w _ hw).jobs nofun nofun)
  | @heartbeatLost w job beat batch hw =>
    exact phases_setPhase h.phases (.of_jobs (h.phases w _ hw).jobs nofun nofun)
  | @finish w result job beat batch hw =>
    refine phases_setPhase h.phases ⟨(h.phases w _ hw).jobs, nofun, ?_⟩
    intro job' result' endedAt' batch' hp hkind
    cases hp
    exact hfinish w result job beat batch rfl hw hkind
  | @record w stored jitter job result endedAt batch q hw hq =>
    exact phases_setPhase h.phases (.of_jobs
      (fun j hj => (h.phases w _ hw).jobs j (List.mem_cons_of_mem _ hj)) nofun nofun)
  | recordPanic => exact hdrop _
  | crash => exact hdrop _
  | gc => exact h.phases
  | tick => exact h.phases

theorem orderly_of_step {s : Sys} (h : Orderly s.queue) (hstep : step env s l = some s') :
    Orderly s'.queue := by
  rcases queue_of_step hstep with hsame | ⟨statement, hq⟩
  · rw [hsame]
    exact h
  · rw [hq]
    exact h.execute statement

/-- A step of the workers keeps the invariant. -/
theorem Tracked.of_step (h : Tracked C (mailWorker crates config) x)
    (hstep : step (mailWorker crates config) x.sys l = some s')
    (hsubmit : ∀ kind payload runAt budget key, l ≠ .submit kind payload runAt budget key)
    (hfinish : ∀ w result job beat batch, l = .finish w result →
      x.sys.workers.row w = some (.handling job beat batch) → job.kind = jobEmailSend →
      ∃ msg, job.payload = msg.toValue ∧ Told x.sends msg result) :
    Tracked C (mailWorker crates config) { x with sys := s' } where
  sound := sound_step h.sound hstep
  current := current_step h.current hstep
  orderly := orderly_of_step h.orderly hstep
  rows i r hr := (h.rows_of_step hstep hsubmit i r hr).mono (List.Subset.refl _)
    (List.Subset.refl _)
  phases w p hw := (h.phases_of_step hstep hfinish w p hw).mono (List.Subset.refl _)
    (List.Subset.refl _)
  placed := h.placed_of_step hstep
  sends := h.sends

/-- So does a call of the provider with an accepted message. -/
theorem Tracked.call (h : Tracked C env x) (hmsg : msg ∈ x.accepted)
    (answer : Except EmailError Unit) :
    Tracked C env { x with sends := (msg, answer) :: x.sends } where
  sound := h.sound
  current := h.current
  orderly := h.orderly
  rows i r hr := (h.rows i r hr).mono (List.Subset.refl _) (List.subset_cons_self _ _)
  phases w p hw := (h.phases w p hw).mono (List.Subset.refl _) (List.subset_cons_self _ _)
  placed m hm := by
    rcases h.placed m hm with hrow | ⟨m', answer', hsent, hkey⟩
    · exact .inl hrow
    · exact .inr ⟨m', answer', List.mem_cons_of_mem _ hsent, hkey⟩
  sends m answer' hm := by
    rcases List.mem_cons.mp hm with heq | hold
    · cases heq
      exact hmsg
    · exact h.sends m answer' hold

/-- So does the queue when it accepts a message. -/
theorem Tracked.enqueue (h : Tracked C env x) (msg : EmailMessage) :
    Tracked C env { x with
      sys := x.sys.setQueue
        (JobEmailQueue.enqueue C env.config.maxAttempts x.sys.queue x.sys.now msg)
      accepted := msg :: x.accepted } := by
  have hstep : step env x.sys (.submit jobEmailSend msg.toValue x.sys.now
      (some env.config.maxAttempts) (some (idempotencyKey C msg))) =
      some (x.sys.setQueue
        (JobEmailQueue.enqueue C env.config.maxAttempts x.sys.queue x.sys.now msg)) := rfl
  have hold := h.placed_of_step hstep
  refine ⟨sound_step h.sound hstep, current_step h.current hstep,
    orderly_of_step h.orderly hstep, ?_, ?_, ?_, ?_⟩
  · intro i r hr
    have hr : (JobEmailQueue.enqueue C env.config.maxAttempts x.sys.queue x.sys.now msg).row i =
      some r := hr
    unfold JobEmailQueue.enqueue Jobs.enqueue at hr
    split at hr
    · exact (h.rows i r hr).mono (List.subset_cons_self _ _) (List.Subset.refl _)
    · rcases Table.row_insert_eq_some.mp hr with ⟨_, rfl⟩ | hrow
      · exact ⟨fun _ => ⟨msg, rfl, rfl, List.mem_cons_self, nofun, nofun⟩,
          fun hother => absurd rfl hother⟩
      · exact (h.rows i r hrow).mono (List.subset_cons_self _ _) (List.Subset.refl _)
  · intro w p hw
    exact (h.phases w p hw).mono (List.subset_cons_self _ _) (List.Subset.refl _)
  · intro m hm
    rcases List.mem_cons.mp hm with rfl | hm
    · left
      show ∃ i r, (JobEmailQueue.enqueue C env.config.maxAttempts x.sys.queue x.sys.now m).row i =
        some r ∧ r.idempotencyKey = some (idempotencyKey C m)
      unfold JobEmailQueue.enqueue Jobs.enqueue
      split
      · rename_i hany
        rw [Option.isSome_some, Bool.true_and] at hany
        obtain ⟨i, r, hr, hkey⟩ := Table.any_iff.mp hany
        exact ⟨i, r, hr, by simpa using hkey⟩
      · exact ⟨_, _, Table.row_insert_next _ _, rfl⟩
    · exact hold m hm
  · intro m answer hm
    exact List.mem_cons_of_mem _ (h.sends m answer hm)

/-- The job of a handler that sends is the job of an accepted message. -/
theorem Tracked.sending (h : Tracked C env x) {job : ClaimedJob}
    (hjob : sending x.sys w = some job) :
    ∃ beat batch msg, x.sys.workers.row w = some (.handling job beat batch) ∧
      msg ∈ x.accepted ∧ job.payload = msg.toValue := by
  unfold Jobs.sending at hjob
  split at hjob
  · rename_i job' beat batch hw
    split at hjob
    · rename_i hkind
      cases hjob
      obtain ⟨msg, hmsg, hpayload⟩ := (h.phases w _ hw).jobs _ List.mem_cons_self hkind
      exact ⟨beat, batch, msg, hw, hmsg, hpayload⟩
    · cases hjob
  · cases hjob

/-- What the handler returns tells of the call. -/
theorem told_run (sends : List (EmailMessage × Except EmailError Unit)) (msg : EmailMessage)
    (answer : Except EmailError Unit) :
    Told ((msg, answer) :: sends) msg (SendEmailHandler.run C msg.toValue answer) := by
  simp only [SendEmailHandler.run, decodeMail, EmailMessage.fromValue_toValue]
  cases answer with
  | ok => exact List.mem_cons_self
  | error e => exact ⟨e, List.mem_cons_self⟩

/-- Each step of the system keeps the invariant. -/
theorem Tracked.of_mailStep {label : MailLabel} (h : Tracked C (mailWorker crates config) x)
    (hstep : mailStep C (mailWorker crates config) x label = some x') :
    Tracked C (mailWorker crates config) x' := by
  cases label with
  | enqueue msg stored =>
    cases stored with
    | false =>
      cases hstep
      exact h
    | true =>
      cases hstep
      exact h.enqueue msg
  | deliver w answer died =>
    obtain ⟨job, hjob, hstep⟩ := Option.bind_eq_some_iff.mp hstep
    obtain ⟨s', hs', hx'⟩ := Option.map_eq_some_iff.mp hstep
    obtain ⟨beat, batch, msg, hw, hmsg, hpayload⟩ := h.sending hjob
    rw [hpayload, EmailMessage.fromValue_toValue] at hx'
    have hcall := h.call hmsg answer
    rw [← hx']
    cases died with
    | true =>
      have hcrash : step (mailWorker crates config) x.sys (.crash w) = some s' := hs'
      exact hcall.of_step hcrash nofun nofun
    | false =>
      have hfinish : step (mailWorker crates config) x.sys
          (.finish w (SendEmailHandler.run C job.payload answer)) = some s' := hs'
      refine hcall.of_step hfinish nofun ?_
      intro v result job' beat' batch' hl hw' _
      cases hl
      have hw' : x.sys.workers.row w = some (.handling job' beat' batch') := hw'
      rw [hw] at hw'
      cases hw'
      exact ⟨msg, hpayload, hpayload ▸ told_run x.sends msg answer⟩
  | work l =>
    simp only [mailStep] at hstep
    split at hstep
    · rename_i hother
      obtain ⟨s', hs', rfl⟩ := Option.map_eq_some_iff.mp hstep
      refine h.of_step hs' ?_ ?_
      · intro kind payload runAt budget key hl
        rw [hl] at hother
        cases hother
      · intro w result job beat batch hl hw hkind
        rw [hl] at hother
        simp [isOther, Jobs.sending, hw, hkind] at hother
    · cases hstep

theorem tracked_run {now : Instant} {ls : List MailLabel}
    (hrun : MailRun C (mailWorker crates config) (MailSys.init now) ls x) :
    Tracked C (mailWorker crates config) x :=
  hrun.invariant (fun _ _ _ h hstep => h.of_mailStep hstep) (tracked_init C _ now)

/-! ## What becomes of a message -/

/-- A hash that keeps the link, and no text of an error. -/
def plainCrates : MailCrates := ⟨id, fun _ => ""⟩

def welcome : EmailMessage :=
  ⟨"ada@example.com", .ptBr, .verifyEmail "https://bikesnest.test/verify-email?token=t"⟩

/-- A worker boots and sends the mail that waits; the provider takes it. -/
def oneMail : List MailLabel :=
  [.enqueue welcome true, .enqueue welcome true, .work .spawn, .work (.boot 1 true),
    .work (.boot 1 true), .work (.boot 1 true), .work (.claim 1 [] [1, 2, 3]), .work (.start 1),
    .deliver 1 (.ok ()) false, .work (.record 1 true 0)]

theorem oneMail_run :
    ∃ x, MailRun plainCrates (mailWorker builtin.crates {}) (MailSys.init 0) oneMail x ∧
      x.accepted = [welcome, welcome] ∧ x.sends = [(welcome, .ok ())] ∧
      (x.sys.queue.row 1).map BackgroundJob.kind = some jobEmailSend ∧
      (x.sys.queue.row 1).map BackgroundJob.state = some .succeeded :=
  ⟨_, Runs.Run.of_foldlM rfl, rfl, rfl, rfl, rfl⟩

/-- A mail is marked as sent only if the provider took it, and given up only if the provider
refused it and its attempts are used up.  It has no second row. -/
theorem mail_state {now : Instant} {ls : List MailLabel}
    (hrun : MailRun C (mailWorker crates config) (MailSys.init now) ls x) {i : Nat}
    (hr : x.sys.queue.row i = some r) (hkind : r.kind = jobEmailSend) :
    ∃ msg ∈ x.accepted, r.payload = msg.toValue ∧
      (r.state = .succeeded → (msg, .ok ()) ∈ x.sends) ∧
      (r.state = .failed → r.maxAttempts ≤ r.attempts ∧ ∃ e, (msg, .error e) ∈ x.sends) ∧
      ∀ j r' (m : EmailMessage), x.sys.queue.row j = some r' → r'.kind = jobEmailSend →
        r'.payload = m.toValue → m.kind = msg.kind → j = i := by
  have h := tracked_run hrun
  obtain ⟨msg, hmsg⟩ := (h.rows i r hr).mail hkind
  refine ⟨msg, hmsg.accepted, hmsg.payload, hmsg.succeeded, hmsg.failed, ?_⟩
  intro j r' m hr' hkind' hpayload hsame
  have hm := (h.rows j r' hr').mailRow hkind' hpayload
  have hkey : idempotencyKey C m = idempotencyKey C msg := by
    rw [idempotencyKey, idempotencyKey, hsame]
  exact h.orderly.keys hr' hr hm.key (hkey ▸ hmsg.key)

/-- The row of the message is marked as sent, and the provider took it. -/
theorem mail_state_oneMail :
    ∃ x r, MailRun plainCrates (mailWorker builtin.crates {}) (MailSys.init 0) oneMail x ∧
      x.sys.queue.row 1 = some r ∧ r.state = .succeeded ∧
      ∃ msg ∈ x.accepted, r.payload = msg.toValue ∧ (msg, .ok ()) ∈ x.sends := by
  obtain ⟨x, hrun, _, _, hkind, hstate⟩ := oneMail_run
  obtain ⟨r, hr, hkind⟩ := Option.map_eq_some_iff.mp hkind
  rw [hr] at hstate
  have hstate : r.state = .succeeded := Option.some.inj hstate
  obtain ⟨msg, hmsg, hpayload, hsent, _⟩ := mail_state hrun hr hkind
  exact ⟨x, r, hrun, hr, hstate, msg, hmsg, hpayload, hsent hstate⟩

end BikesNest.Jobs
