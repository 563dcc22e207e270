import OrderRun.Models.Database

/-!
# The notification worker

`app/services/notification_worker.py`: a run selects a batch of notifications, hands
them to FCM one after the other, and commits all the results at once.  Runs are started
by the background task of every request (`flush_pending`) and by the retry job
(`retry_failed`), and nothing keeps them apart.

* `selectBatch` — the rows a run selects.
* `sendOne` — one turn of the loop: what becomes of the object, and the message FCM has
  accepted for it.
* `Outbox`, `WorkerEvent`, `workerStep` — the committed rows, the unfinished runs and the
  accepted messages, and the interleaving of the steps of any number of runs with the
  transactions that write notifications outside the worker.
-/

namespace OrderRun

open Store

/-! ## Statuses and types -/

/-- The stored value of a notification type. -/
def NotificationType.value : NotificationType → String
  | .proposalNew => "proposal_new"
  | .proposalMatched => "proposal_matched"
  | .proposalCancelled => "proposal_cancelled"
  | .offerNew => "offer_new"
  | .offerAccepted => "offer_accepted"
  | .offerRejected => "offer_rejected"
  | .executionStarted => "execution_started"
  | .executionCompleted => "execution_completed"
  | .paymentCompleted => "payment_completed"
  | .paymentFailed => "payment_failed"
  | .systemAnnouncement => "system_announcement"
  | .custom => "custom"
  | .offerSubmitted => "offer_submitted"
  | .meetingConfirmed => "meeting_confirmed"
  | .disputeRaised => "dispute_raised"

/-- The row after a flush of `dirty`, which was loaded as `loaded`: the columns the worker
assigns. -/
def Notification.flush (loaded dirty row : Notification) : Notification :=
  { row with
    status := col loaded.status dirty.status row.status
    retryCount := col loaded.retryCount dirty.retryCount row.retryCount
    errorMessage := col loaded.errorMessage dirty.errorMessage row.errorMessage
    sentAt := col loaded.sentAt dirty.sentAt row.sentAt
    fcmMessageId := col loaded.fcmMessageId dirty.fcmMessageId row.fcmMessageId }

/-! ## Selecting a batch -/

def MAX_RETRY : ℕ := 3

/-- The two ways to start a run. -/
inductive WorkerJob where
  | flushPending
  | retryFailed
  deriving DecidableEq, Repr

/-- The `WHERE` clause of a job. -/
def WorkerJob.selects (job : WorkerJob) (n : Notification) : Bool :=
  match job with
  | .flushPending => n.status = .pending
  | .retryFailed => n.status = .failed ∧ n.retryCount < MAX_RETRY

/-- `ORDER BY created_at`; rows created at the same instant come in whatever order `rank`
the database returns them. -/
def createdBefore (rank : ℕ → ℕ) (n m : Notification) : Prop :=
  n.createdAt < m.createdAt ∨ n.createdAt = m.createdAt ∧ rank n.id ≤ rank m.id

instance (rank : ℕ → ℕ) : DecidableRel (createdBefore rank) := fun _ _ =>
  inferInstanceAs (Decidable (_ ∨ _))

/-- The rows a run selects. -/
def selectBatch (rows : AutoTable Notification) (job : WorkerJob) (rank : ℕ → ℕ) :
    List Notification :=
  ((rows.rows.filter job.selects).insertionSort (createdBefore rank)).take 100

theorem mem_selectBatch {rows : AutoTable Notification} {job : WorkerJob} {rank : ℕ → ℕ}
    {n : Notification} (h : n ∈ selectBatch rows job rank) : n ∈ rows ∧ job.selects n = true :=
  List.mem_filter.1 ((List.mem_insertionSort _).1 (List.mem_of_mem_take h))

/-- No row is selected twice in one batch. -/
theorem nodup_selectBatch (rows : AutoTable Notification) (job : WorkerJob) (rank : ℕ → ℕ) :
    ((selectBatch rows job rank).map Notification.id).Nodup := by
  have hrows : (rows.rows.map Notification.id).Nodup := rows.nodup
  have hfilter : ((rows.rows.filter job.selects).map Notification.id).Nodup :=
    hrows.sublist (List.filter_sublist.map _)
  have hsorted : (((rows.rows.filter job.selects).insertionSort (createdBefore rank)).map
      Notification.id).Nodup :=
    ((List.perm_insertionSort _ _).map _).nodup_iff.2 hfilter
  exact hsorted.sublist ((List.take_sublist _ _).map _)

/-! ## Sending one notification -/

/-- What `send_notification` does. -/
inductive FCMSendResult where
  | success (messageId : String)
  | failure (errorMessage : String)
  /-- An exception escapes. -/
  | raised
  deriving DecidableEq, Repr

/-- A message FCM is given. -/
structure FCMMessage where
  token : String
  title : String
  body : String
  data : List (String × String)
  deriving DecidableEq, Repr

/-- The data of a message.  `loads` is `json.loads` with the items of its result as
strings; nothing comes back if it raises. -/
def messageData (loads : String → Option (List (String × String))) (n : Notification) :
    Option (List (String × String)) := do
  let extra ← match n.data with
    | none | some "" => pure []
    | some data => loads data
  let relatedType := match n.relatedEntityType with
    | none | some "" => []
    | some entityType => [("related_entity_type", entityType)]
  let relatedId := match n.relatedEntityId with
    | none | some 0 => []
    | some entityId => [("related_entity_id", toString entityId)]
  return [("notification_id", toString n.id), ("notification_type", n.notificationType.value)]
    ++ relatedType ++ relatedId ++ extra.map fun kv => ("extra_" ++ kv.1, kv.2)

/-- The object after a failed attempt. -/
def Notification.markFailed (n : Notification) (errorMessage : String) : Notification :=
  { n with status := .failed, retryCount := n.retryCount + 1, errorMessage := some errorMessage }

/-- The object after a successful attempt. -/
def Notification.markSent (n : Notification) (messageId : String) (utcnow : DateTime) :
    Notification :=
  { n with status := .sent, sentAt := some utcnow, fcmMessageId := some messageId }

/-- One turn of the loop: the changed object, with the message FCM has accepted, if it has.
Nothing comes back if an exception escapes.  `token` is what `_get_token` finds. -/
def sendOne (loads : String → Option (List (String × String))) (n : Notification)
    (token : Option String) (result : FCMSendResult) (utcnow : DateTime) :
    Option (Notification × Option FCMMessage) :=
  match messageData loads n with
  | none => none
  | some data =>
    match token with
    | none | some "" => some (n.markFailed "No FCM token", none)
    | some token =>
      match result with
      | .raised => none
      | .failure errorMessage => some (n.markFailed errorMessage, none)
      | .success messageId =>
          some (n.markSent messageId utcnow, some ⟨token, n.title, n.body, data⟩)

/-- **What one turn does**: a failed attempt, or a message that FCM has accepted. -/
theorem sendOne_cases {loads : String → Option (List (String × String))} {n n' : Notification}
    {token : Option String} {result : FCMSendResult} {utcnow : DateTime}
    {message : Option FCMMessage} (h : sendOne loads n token result utcnow = some (n', message)) :
    (message = none ∧ ∃ errorMessage, n' = n.markFailed errorMessage) ∨
      (∃ m, message = some m) ∧ ∃ messageId, n' = n.markSent messageId utcnow := by
  unfold sendOne at h
  split at h
  · exact absurd h (by simp)
  · split at h
    · simp only [Option.some.injEq, Prod.mk.injEq] at h
      exact Or.inl ⟨h.2.symm, _, h.1.symm⟩
    · simp only [Option.some.injEq, Prod.mk.injEq] at h
      exact Or.inl ⟨h.2.symm, _, h.1.symm⟩
    · split at h
      · exact absurd h (by simp)
      · simp only [Option.some.injEq, Prod.mk.injEq] at h
        exact Or.inl ⟨h.2.symm, _, h.1.symm⟩
      · simp only [Option.some.injEq, Prod.mk.injEq] at h
        exact Or.inr ⟨⟨_, h.2.symm⟩, _, h.1.symm⟩

/-- One turn marks the object as sent exactly if FCM has accepted a message. -/
theorem sendOne_eq_some {loads : String → Option (List (String × String))} {n n' : Notification}
    {token : Option String} {result : FCMSendResult} {utcnow : DateTime}
    {message : Option FCMMessage} (h : sendOne loads n token result utcnow = some (n', message)) :
    n'.id = n.id ∧ (message = none ∧ n'.status = .failed ∨
      (∃ m, message = some m) ∧ n'.status = .sent) := by
  rcases sendOne_cases h with ⟨hmessage, errorMessage, rfl⟩ | ⟨hmessage, messageId, rfl⟩
  · exact ⟨rfl, Or.inl ⟨hmessage, rfl⟩⟩
  · exact ⟨rfl, Or.inr ⟨hmessage, rfl⟩⟩

/-! ## Reading notifications -/

/-- What `mark_notifications_read` makes of a row. -/
def Notification.markRead (userId : UserId) (ids : List ℕ) (utcnow : DateTime)
    (n : Notification) : Notification :=
  if n.id ∈ ids ∧ n.userId = userId ∧ n.readAt = none then
    { n with readAt := some utcnow, status := .read }
  else n

theorem Notification.markRead_cases (userId : UserId) (ids : List ℕ) (utcnow : DateTime)
    (n : Notification) : n.markRead userId ids utcnow = n ∨
      (n.markRead userId ids utcnow).status = .read := by
  unfold markRead
  split
  · exact Or.inr rfl
  · exact Or.inl rfl

@[simp] theorem Notification.markRead_id (userId : UserId) (ids : List ℕ) (utcnow : DateTime)
    (n : Notification) : (n.markRead userId ids utcnow).id = n.id := by
  unfold markRead
  split <;> rfl

/-! ## Runs of the worker -/

/-- An unfinished run: the objects it has been through, and the ones it has not. -/
structure Batch where
  done : List (Change Notification)
  rest : List Notification

/-- The committed notifications, the unfinished runs, and the messages FCM has accepted,
each with the notification it was sent for, latest first. -/
structure Outbox where
  rows : AutoTable Notification
  runs : ℕ → Option Batch
  accepted : List (ℕ × FCMMessage)

/-- What can happen next. -/
inductive WorkerEvent where
  /-- A business transaction commits a new notification. -/
  | enqueue (n : Notification)
  /-- A user marks notifications as read. -/
  | markRead (userId : UserId) (ids : List ℕ) (utcnow : DateTime)
  /-- A run starts. -/
  | select (run : ℕ) (job : WorkerJob) (rank : ℕ → ℕ)
  /-- A run comes to its next notification. -/
  | send (run : ℕ) (token : Option String) (result : FCMSendResult) (utcnow : DateTime)
  /-- A run is through and commits, which may fail. -/
  | commit (run : ℕ) (goesThrough : Bool)

namespace Outbox

/-- No run is under way, and nothing has been sent. -/
def quiet (rows : AutoTable Notification) : Outbox := ⟨rows, fun _ => none, []⟩

/-- Start, advance or end a run. -/
def setRun (s : Outbox) (run : ℕ) (b : Option Batch) : Outbox :=
  { s with runs := fun k => if k = run then b else s.runs k }

@[simp] theorem runs_setRun_self (s : Outbox) (run : ℕ) (b : Option Batch) :
    (s.setRun run b).runs run = b := if_pos rfl

theorem runs_setRun_of_ne (s : Outbox) {run k : ℕ} (b : Option Batch) (h : k ≠ run) :
    (s.setRun run b).runs k = s.runs k := if_neg h

/-- How many messages FCM has accepted for a notification. -/
def successes (s : Outbox) (id : ℕ) : ℕ := s.accepted.countP fun sent => sent.1 = id

theorem runs_setRun_cases {s : Outbox} {run k : ℕ} {b : Option Batch} {b' : Batch}
    (h : (s.setRun run b).runs k = some b') :
    (k = run ∧ b = some b') ∨ (k ≠ run ∧ s.runs k = some b') := by
  by_cases hk : k = run
  · rw [hk, runs_setRun_self] at h
    exact Or.inl ⟨hk, h⟩
  · rw [runs_setRun_of_ne _ _ hk] at h
    exact Or.inr ⟨hk, h⟩

theorem notification_writeBack_id (changes : List (Change Notification)) (n : Notification) :
    (writeBack Notification.flush changes n).id = n.id :=
  writeBack_induction (P := fun r : Notification => r.id = n.id) rfl fun _ _ _ => rfl

/-- A new row. -/
def enqueue (s : Outbox) (n : Notification) : Outbox :=
  { s with rows := s.rows.insert fun k => { n with id := k } }

/-- `mark_notifications_read`. -/
def markRead (s : Outbox) (userId : UserId) (ids : List ℕ) (utcnow : DateTime) : Outbox :=
  { s with
    rows := s.rows.map (Notification.markRead userId ids utcnow)
      (Notification.markRead_id userId ids utcnow) }

/-- A run goes on to its next notification. -/
def advance (s : Outbox) (run : ℕ) (done : List (Change Notification)) (n n' : Notification)
    (rest : List Notification) (message : Option FCMMessage) : Outbox :=
  { s.setRun run (some ⟨done ++ [⟨n, n'⟩], rest⟩) with
    accepted := message.toList.map (fun m => (n.id, m)) ++ s.accepted }

/-- A run commits the objects it has changed. -/
def record (s : Outbox) (run : ℕ) (done : List (Change Notification)) : Outbox :=
  { s.setRun run none with
    rows := s.rows.map (writeBack Notification.flush done) (notification_writeBack_id done) }

end Outbox

/-- One step of one run; an event that cannot happen leaves everything as it is. -/
def workerStep (loads : String → Option (List (String × String))) (s : Outbox) :
    WorkerEvent → Outbox
  | .enqueue n => s.enqueue n
  | .markRead userId ids utcnow => s.markRead userId ids utcnow
  | .select run job rank =>
    match s.runs run with
    | some _ => s
    | none =>
      match selectBatch s.rows job rank with
      | [] => s
      | n :: ns => s.setRun run (some ⟨[], n :: ns⟩)
  | .send run token result utcnow =>
    match s.runs run with
    | none | some ⟨_, []⟩ => s
    | some ⟨done, n :: rest⟩ =>
      match sendOne loads n token result utcnow with
      | none => s.setRun run none
      | some (n', message) => s.advance run done n n' rest message
  | .commit run goesThrough =>
    match s.runs run with
    | some ⟨done, []⟩ => if goesThrough then s.record run done else s.setRun run none
    | _ => s

/-! ## What one step does -/

/-- What starting a run does. -/
theorem select_cases (loads : String → Option (List (String × String))) (s : Outbox) (run : ℕ)
    (job : WorkerJob) (rank : ℕ → ℕ) :
    workerStep loads s (.select run job rank) = s ∨ s.runs run = none ∧
      workerStep loads s (.select run job rank) =
        s.setRun run (some ⟨[], selectBatch s.rows job rank⟩) := by
  simp only [workerStep]
  cases hrun : s.runs run with
  | some b => exact Or.inl rfl
  | none =>
      cases hsel : selectBatch s.rows job rank with
      | nil => exact Or.inl rfl
      | cons n ns => exact Or.inr ⟨rfl, rfl⟩

/-- What one turn of a run does. -/
theorem send_cases (loads : String → Option (List (String × String))) (s : Outbox) (run : ℕ)
    (token : Option String) (result : FCMSendResult) (utcnow : DateTime) :
    workerStep loads s (.send run token result utcnow) = s ∨
      ∃ done n rest, s.runs run = some ⟨done, n :: rest⟩ ∧
        ((sendOne loads n token result utcnow = none ∧
            workerStep loads s (.send run token result utcnow) = s.setRun run none) ∨
          ∃ n' message, sendOne loads n token result utcnow = some (n', message) ∧
            workerStep loads s (.send run token result utcnow) =
              s.advance run done n n' rest message) := by
  cases hrun : s.runs run with
  | none => exact Or.inl (by simp only [workerStep, hrun])
  | some b =>
      obtain ⟨done, rest⟩ := b
      cases rest with
      | nil => exact Or.inl (by simp only [workerStep, hrun])
      | cons n rest =>
          refine Or.inr ⟨done, n, rest, rfl, ?_⟩
          cases hsend : sendOne loads n token result utcnow with
          | none => exact Or.inl ⟨rfl, by simp only [workerStep, hrun, hsend]⟩
          | some r =>
              obtain ⟨n', message⟩ := r
              exact Or.inr ⟨n', message, rfl, by simp only [workerStep, hrun, hsend]⟩

/-- What the commit of a run does. -/
theorem commit_cases (loads : String → Option (List (String × String))) (s : Outbox) (run : ℕ)
    (goesThrough : Bool) :
    workerStep loads s (.commit run goesThrough) = s ∨
      ∃ done, s.runs run = some ⟨done, []⟩ ∧
        ((goesThrough = true ∧
            workerStep loads s (.commit run goesThrough) = s.record run done) ∨
          goesThrough = false ∧
            workerStep loads s (.commit run goesThrough) = s.setRun run none) := by
  cases hrun : s.runs run with
  | none => exact Or.inl (by simp only [workerStep, hrun])
  | some b =>
      obtain ⟨done, rest⟩ := b
      cases rest with
      | cons n rest => exact Or.inl (by simp only [workerStep, hrun])
      | nil =>
          refine Or.inr ⟨done, rfl, ?_⟩
          cases goesThrough with
          | true => exact Or.inl ⟨rfl, by simp only [workerStep, hrun, if_pos]⟩
          | false => exact Or.inr ⟨rfl, by simp [workerStep, hrun]⟩

end OrderRun
