import OrderRun.Models.Database

/-!
# Domain events and the notification listener

`app/events` and `app/listeners/notification_listener.py`: a service publishes
an event before it commits, and every handler registered for the event's type
adds `PENDING` notifications to the same transaction.

* `DomainEvent`, `EventBus` — the events, and the handlers registered for each
  type of event.
* `Handler.run` — the notifications a handler writes; a recipient who has turned
  alarms off gets none (`Handler.mem_run`).
* `registerAll_idem` — registering the listener again changes nothing, because
  `register` skips a handler that is already there.
* `notifications_publish` — publishing adds notifications.
-/

namespace OrderRun

open Store

/-- The type of an event, by which handlers are registered. -/
inductive EventType where
  | offerCreated
  | offerAccepted
  | meetingConfirmedByRunner
  | meetingConfirmedByOrderer
  | disputeRaisedByOrderer
  | disputeRaisedByRunner
  deriving DecidableEq, Repr

/-- What every event says about the deal it concerns. -/
structure DealEvent where
  offerId : ℕ
  proposalId : ℕ
  runnerId : UserId
  ordererId : UserId
  proposalTitle : String
  deriving DecidableEq, Repr

/-- The event about a proposal and an offer of it. -/
def DealEvent.about (p : Proposal) (o : Offer) : DealEvent :=
  ⟨o.id, p.id, o.runnerId, p.ordererId, p.title⟩

/-- The events the services publish. -/
inductive DomainEvent where
  | offerCreated (event : DealEvent)
  /-- `runnerId` is the accepted runner. -/
  | offerAccepted (event : DealEvent) (rejectedRunnerIds : List UserId)
  /-- The runner has confirmed; the orderer is to know. -/
  | meetingConfirmedByRunner (event : DealEvent)
  /-- The orderer has confirmed; the runner is to know. -/
  | meetingConfirmedByOrderer (event : DealEvent)
  | disputeRaisedByOrderer (event : DealEvent)
  | disputeRaisedByRunner (event : DealEvent)
  deriving DecidableEq, Repr

def DomainEvent.type : DomainEvent → EventType
  | .offerCreated _ => .offerCreated
  | .offerAccepted _ _ => .offerAccepted
  | .meetingConfirmedByRunner _ => .meetingConfirmedByRunner
  | .meetingConfirmedByOrderer _ => .meetingConfirmedByOrderer
  | .disputeRaisedByOrderer _ => .disputeRaisedByOrderer
  | .disputeRaisedByRunner _ => .disputeRaisedByRunner

/-- The deal an event concerns. -/
def DomainEvent.deal : DomainEvent → DealEvent
  | .offerCreated event | .offerAccepted event _ | .meetingConfirmedByRunner event
  | .meetingConfirmedByOrderer event | .disputeRaisedByOrderer event
  | .disputeRaisedByRunner event => event

/-! ## Handlers -/

/-- The handlers of the notification listener. -/
inductive Handler where
  | onOfferCreated
  | onOfferAccepted
  | onMeetingConfirmedByRunner
  | onMeetingConfirmedByOrderer
  | onDisputeRaisedByOrderer
  | onDisputeRaisedByRunner
  deriving DecidableEq, Repr

/-- Whether a user wants notifications. -/
def alarmEnabled (users : Table User) (userId : UserId) : Bool :=
  match users.find? userId with
  | none => false
  | some user => user.alarmEnabled = some true

theorem alarmEnabled_iff {users : Table User} {userId : UserId} :
    alarmEnabled users userId = true ↔
      ∃ user ∈ users, user.id = userId ∧ user.alarmEnabled = some true := by
  unfold alarmEnabled
  cases hfind : users.find? userId with
  | none =>
      refine iff_of_false Bool.false_ne_true ?_
      rintro ⟨user, huser, hid, -⟩
      rw [Table.find?_eq_some_iff.2 ⟨huser, hid⟩] at hfind
      exact absurd hfind nofun
  | some user =>
      obtain ⟨huser, hid⟩ := Table.find?_eq_some_iff.1 hfind
      constructor
      · exact fun halarm => ⟨user, huser, hid, of_decide_eq_true halarm⟩
      · rintro ⟨user', huser', hid', halarm⟩
        rw [Table.eq_of_key_eq huser huser' (hid.trans hid'.symm)]
        exact decide_eq_true halarm

/-- `json.dumps({"offer_id": ..., "proposal_id": ...})`. -/
def dealData (event : DealEvent) : String :=
  "\x7b\"offer_id\": " ++ toString event.offerId ++ ", \"proposal_id\": "
    ++ toString event.proposalId ++ "\x7d"

/-- The data name the offer and its errand, and nothing else. -/
theorem dealData_congr {e e' : DealEvent} (hoffer : e.offerId = e'.offerId)
    (hproposal : e.proposalId = e'.proposalId) : dealData e = dealData e' := by
  unfold dealData
  rw [hoffer, hproposal]

/-- A new `PENDING` notification about an offer; its key and creation time are
filled in when it is inserted. -/
def pending (userId : UserId) (notificationType : NotificationType) (title body : String)
    (event : DealEvent) : Notification where
  id := 0
  userId := userId
  notificationType := notificationType
  title := title
  body := body
  data := some (dealData event)
  relatedEntityType := some "offer"
  relatedEntityId := some event.offerId
  status := .pending
  fcmMessageId := none
  errorMessage := none
  createdAt := 0
  sentAt := none
  deliveredAt := none
  readAt := none
  retryCount := 0

/-- `if _alarm_enabled(db, user_id): db.add(...)`. -/
def notify (users : Table User) (userId : UserId) (notificationType : NotificationType)
    (title body : String) (event : DealEvent) : List Notification :=
  if alarmEnabled users userId then [pending userId notificationType title body event] else []

theorem mem_notify {users : Table User} {userId : UserId} {notificationType : NotificationType}
    {title body : String} {event : DealEvent} {n : Notification} :
    n ∈ notify users userId notificationType title body event ↔
      alarmEnabled users userId = true ∧ n = pending userId notificationType title body event := by
  unfold notify
  split <;> simp_all

def onOfferCreated (users : Table User) (event : DealEvent) : List Notification :=
  notify users event.ordererId .offerNew "누군가 지원했어요! 👀"
    "회원님의 요청에 새로운 지원자가 생겼어요. 확인해보세요!" event
  ++ notify users event.runnerId .offerSubmitted "지원 완료! ✅"
    "지원이 정상적으로 접수됐어요. 요청자의 선택을 기다려주세요." event

def onOfferAccepted (users : Table User) (event : DealEvent) (rejectedRunnerIds : List UserId) :
    List Notification :=
  notify users event.runnerId .offerAccepted "선택받으셨어요! 🙌" "요청자가 회원님을 선택했어요." event
  ++ rejectedRunnerIds.flatMap fun runnerId =>
    notify users runnerId .offerRejected "이번엔 아쉽게 됐어요 😢"
      "이번엔 선택받지 못했지만 다음 기회가 분명 있을 거예요." event

def onMeetingConfirmedByRunner (users : Table User) (event : DealEvent) : List Notification :=
  notify users event.ordererId .meetingConfirmed "지원자가 만남을 확인했어요! 🤝"
    "지원자가 만남을 확인했어요. 회원님도 확인해주시면 정산이 바로 진행돼요." event

def onMeetingConfirmedByOrderer (users : Table User) (event : DealEvent) : List Notification :=
  notify users event.runnerId .meetingConfirmed "요청자가 만남을 확인했어요! 🤝"
    "요청자가 만남을 확인했어요. 회원님도 앱에서 만남을 확인해주시면 정산이 진행돼요!" event
  ++ [event.ordererId, event.runnerId].flatMap fun userId =>
    notify users userId .executionCompleted "완료! 수고하셨어요 🎊"
      "양측 만남이 모두 확인됐어요. 성공적으로 완료됐습니다!" event

def onDisputeRaisedByOrderer (users : Table User) (event : DealEvent) : List Notification :=
  notify users event.runnerId .disputeRaised "분쟁이 접수되었어요"
    "요청자가 분쟁을 접수했어요. 앱에서 내용을 확인해주세요." event

def onDisputeRaisedByRunner (users : Table User) (event : DealEvent) : List Notification :=
  notify users event.ordererId .disputeRaised "분쟁이 접수되었어요"
    "지원자가 분쟁을 접수했어요. 앱에서 내용을 확인해주세요." event

/-- What a handler adds to the session.  A handler called with an event of
another type raises, and `publish` swallows that. -/
def Handler.run (users : Table User) : Handler → DomainEvent → List Notification
  | .onOfferCreated, .offerCreated e => OrderRun.onOfferCreated users e
  | .onOfferAccepted, .offerAccepted e rejected => OrderRun.onOfferAccepted users e rejected
  | .onMeetingConfirmedByRunner, .meetingConfirmedByRunner e =>
      OrderRun.onMeetingConfirmedByRunner users e
  | .onMeetingConfirmedByOrderer, .meetingConfirmedByOrderer e =>
      OrderRun.onMeetingConfirmedByOrderer users e
  | .onDisputeRaisedByOrderer, .disputeRaisedByOrderer e =>
      OrderRun.onDisputeRaisedByOrderer users e
  | .onDisputeRaisedByRunner, .disputeRaisedByRunner e =>
      OrderRun.onDisputeRaisedByRunner users e
  | _, _ => []

/-- The runners an event turns down. -/
def DomainEvent.rejectedRunnerIds : DomainEvent → List UserId
  | .offerAccepted _ rejectedRunnerIds => rejectedRunnerIds
  | _ => []

/-- **What a handler adds** is a pending notification about the deal of its event, for one of
the two parties or a runner who is turned down, if she wants notifications. -/
theorem Handler.mem_run {users : Table User} {handler : Handler} {event : DomainEvent}
    {n : Notification} (h : n ∈ handler.run users event) :
    alarmEnabled users n.userId = true ∧
      (n.userId = event.deal.runnerId ∨ n.userId = event.deal.ordererId ∨
        n.userId ∈ event.rejectedRunnerIds) ∧
      ∃ notificationType title body,
        n = pending n.userId notificationType title body event.deal ∧
          notificationType ≠ .custom := by
  have hone : ∀ {userId : UserId} {notificationType : NotificationType} {title body : String},
      n ∈ notify users userId notificationType title body event.deal →
      (userId = event.deal.runnerId ∨ userId = event.deal.ordererId ∨
        userId ∈ event.rejectedRunnerIds) → notificationType ≠ .custom →
      alarmEnabled users n.userId = true ∧
        (n.userId = event.deal.runnerId ∨ n.userId = event.deal.ordererId ∨
          n.userId ∈ event.rejectedRunnerIds) ∧
        ∃ notificationType title body,
          n = pending n.userId notificationType title body event.deal ∧
            notificationType ≠ .custom := by
    intro userId notificationType title body hn hrecipient htype
    obtain ⟨halarm, rfl⟩ := mem_notify.1 hn
    exact ⟨halarm, hrecipient, notificationType, title, body, rfl, htype⟩
  cases handler <;> cases event <;> first | exact absurd h List.not_mem_nil | skip
  · rcases List.mem_append.1 h with h | h
    · exact hone h (Or.inr (Or.inl rfl)) (by decide)
    · exact hone h (Or.inl rfl) (by decide)
  · rcases List.mem_append.1 h with h | h
    · exact hone h (Or.inl rfl) (by decide)
    · obtain ⟨runnerId, hrejected, h⟩ := List.mem_flatMap.1 h
      exact hone h (Or.inr (Or.inr hrejected)) (by decide)
  · exact hone h (Or.inr (Or.inl rfl)) (by decide)
  · rcases List.mem_append.1 h with h | h
    · exact hone h (Or.inl rfl) (by decide)
    · obtain ⟨userId, hparty, h⟩ := List.mem_flatMap.1 h
      refine hone h ?_ (by decide)
      rcases List.mem_pair.1 hparty with rfl | rfl
      · exact Or.inr (Or.inl rfl)
      · exact Or.inl rfl
  · exact hone h (Or.inl rfl) (by decide)
  · exact hone h (Or.inr (Or.inl rfl)) (by decide)

/-! ## The bus -/

/-- The handlers registered for each type of event, in registration order. -/
structure EventBus where
  handlers : EventType → List Handler

namespace EventBus

/-- The bus before the application has started. -/
def empty : EventBus := ⟨fun _ => []⟩

/-- Append a handler, unless it is registered already. -/
def register (bus : EventBus) (eventType : EventType) (handler : Handler) : EventBus where
  handlers t :=
    if t = eventType then
      if handler ∈ bus.handlers t then bus.handlers t else bus.handlers t ++ [handler]
    else bus.handlers t

/-- What the application registers when it starts. -/
def registerAll (bus : EventBus) : EventBus :=
  bus
  |>.register .offerCreated .onOfferCreated
  |>.register .offerAccepted .onOfferAccepted
  |>.register .meetingConfirmedByRunner .onMeetingConfirmedByRunner
  |>.register .meetingConfirmedByOrderer .onMeetingConfirmedByOrderer
  |>.register .disputeRaisedByOrderer .onDisputeRaisedByOrderer
  |>.register .disputeRaisedByRunner .onDisputeRaisedByRunner

/-- The handler the listener provides for a type of event. -/
def listener : EventType → Handler
  | .offerCreated => .onOfferCreated
  | .offerAccepted => .onOfferAccepted
  | .meetingConfirmedByRunner => .onMeetingConfirmedByRunner
  | .meetingConfirmedByOrderer => .onMeetingConfirmedByOrderer
  | .disputeRaisedByOrderer => .onDisputeRaisedByOrderer
  | .disputeRaisedByRunner => .onDisputeRaisedByRunner

/-- Every type of event gets its own handler, once. -/
theorem handlers_registerAll (bus : EventBus) (t : EventType) :
    bus.registerAll.handlers t =
      if listener t ∈ bus.handlers t then bus.handlers t else bus.handlers t ++ [listener t] := by
  by_cases h : listener t ∈ bus.handlers t
  · rw [if_pos h]
    cases t <;> simpa [registerAll, register, listener] using h
  · rw [if_neg h]
    cases t <;> simpa [registerAll, register, listener] using h

/-- **Registering again changes nothing.** -/
theorem registerAll_idem (bus : EventBus) : bus.registerAll.registerAll = bus.registerAll := by
  have h : bus.registerAll.registerAll.handlers = bus.registerAll.handlers := by
    funext t
    have hmem : listener t ∈ bus.registerAll.handlers t := by
      rw [handlers_registerAll]
      split
      · assumption
      · simp
    rw [handlers_registerAll bus.registerAll, if_pos hmem]
  exact congrArg EventBus.mk h

/-- The notifications the handlers of an event add to the session. -/
def drafts (bus : EventBus) (event : DomainEvent) (users : Table User) : List Notification :=
  (bus.handlers event.type).flatMap fun handler => handler.run users event

/-- `EventBus.publish`, and the insert of what the handlers added. -/
def publish (bus : EventBus) (event : DomainEvent) (utcnow : DateTime) (db : Db) : Db :=
  { db with
    notifications := (bus.drafts event db.users).foldl
      (fun t draft => t.insert fun k => { draft with id := k, createdAt := utcnow })
      db.notifications }

section Publish

variable (bus : EventBus) (event : DomainEvent) (utcnow : DateTime) (db : Db)

/-- The notifications after an event: those before it, and what the handlers added. -/
theorem notifications_publish : (bus.publish event utcnow db).notifications.rows =
      db.notifications.rows ++ (bus.drafts event db.users).mapIdx (fun i draft =>
        { draft with id := db.notifications.next + i, createdAt := utcnow }) ∧
    (bus.publish event utcnow db).notifications.next =
      db.notifications.next + (bus.drafts event db.users).length :=
  AutoTable.foldl_insert db.notifications (bus.drafts event db.users)
    (fun k draft => { draft with id := k, createdAt := utcnow }) fun _ _ => rfl

end Publish

/-- What the handlers add is for users who want notifications. -/
theorem alarm_of_mem_drafts {bus : EventBus} {event : DomainEvent} {users : Table User}
    {n : Notification} (h : n ∈ bus.drafts event users) : alarmEnabled users n.userId = true := by
  obtain ⟨handler, -, hn⟩ := List.mem_flatMap.1 h
  exact (Handler.mem_run hn).1

/-- What the handlers add is about the deal of the event, for those it concerns. -/
theorem recipient_of_mem_drafts {bus : EventBus} {event : DomainEvent} {users : Table User}
    {n : Notification} (h : n ∈ bus.drafts event users) :
    (n.userId = event.deal.runnerId ∨ n.userId = event.deal.ordererId ∨
        n.userId ∈ event.rejectedRunnerIds) ∧
      ∃ notificationType title body,
        n = pending n.userId notificationType title body event.deal ∧
          notificationType ≠ .custom := by
  obtain ⟨handler, -, hn⟩ := List.mem_flatMap.1 h
  exact (Handler.mem_run hn).2

/-- On a started application every event is handled exactly once. -/
theorem drafts_started (event : DomainEvent) (users : Table User) :
    empty.registerAll.drafts event users = (listener event.type).run users event := by
  simp [drafts, handlers_registerAll, empty]

end EventBus
end OrderRun
