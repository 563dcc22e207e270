import OrderRun.Notification.SendToUser

/-!
# The notification dispatcher

`app/services/notification/notification_dispatcher.py`: methods that send a notification at once,
without the outbox.  Each names its recipients and what they are told; `notifyEach` is what they
have in common.

* `Push` — a call of FCM, with the recipient's setting at that moment.
* `grouped` — a number with thousands separators.
* `NotificationDispatcher.notifyEach` — one recipient after the other, those who want
  notifications.
* `NotificationDispatcher.notifyProposalMatched`, … — the methods; `DispatcherCall` collects
  them.
* `notifyEach_induction`, `alarm_of_mem_notifyEach` — what the sends of a method keep, and whom
  they go to.
-/

namespace OrderRun

open Store

/-! ## Pushes -/

/-- A call of `send_notification`. -/
structure Push where
  notificationId : ℕ
  userId : UserId
  token : String
  /-- `alarm_enabled` of the recipient at the moment of the call. -/
  alarm : Bool
  deriving DecidableEq, Repr

/-- The call of FCM in `send_to_user`, whatever comes of it. -/
def FCMService.push (db : Db) (userId : UserId) : Option Push :=
  (NotificationWorker.getToken db userId).map fun token =>
    ⟨db.notifications.next, userId, token, alarmEnabled db.users userId⟩

section SendToUser

variable {V : Type} {enc : Encoders V} {db : Db} {userId : UserId} {request : SendRequest V}
  {result : FCMSendResult} {createdAt sentAt : DateTime} {attempt : Attempt}

/-- `send_to_user` calls FCM exactly if there is a push. -/
theorem sendToUser_token
    (h : FCMService.sendToUser enc db userId request result createdAt sentAt = some attempt) :
    attempt.call.map FCMMessage.token = (FCMService.push db userId).map Push.token := by
  unfold FCMService.sendToUser at h
  unfold FCMService.push
  cases htoken : NotificationWorker.getToken db userId with
  | none =>
      rw [htoken] at h
      obtain rfl := Option.some.inj h
      rfl
  | some token =>
      rw [htoken] at h
      cases result with
      | raised => exact absurd h nofun
      | failure errorMessage =>
          obtain rfl := Option.some.inj h
          rfl
      | success messageId =>
          obtain rfl := Option.some.inj h
          rfl

/-- **What `send_to_user` writes**: one new notification of the user, sent or failed. -/
theorem sendToUser_db
    (h : FCMService.sendToUser enc db userId request result createdAt sentAt = some attempt) :
    ∃ n : Notification, n.userId = userId ∧
      attempt.db = { db with
        notifications := db.notifications.insert (fun k => { n with id := k })
          (NotificationService.key_stamped n) } := by
  unfold FCMService.sendToUser at h
  cases htoken : NotificationWorker.getToken db userId with
  | none =>
      rw [htoken] at h
      obtain rfl := Option.some.inj h
      exact ⟨_, rfl, rfl⟩
  | some token =>
      rw [htoken] at h
      cases result with
      | raised => exact absurd h nofun
      | failure errorMessage =>
          obtain rfl := Option.some.inj h
          exact ⟨_, rfl, rfl⟩
      | success messageId =>
          obtain rfl := Option.some.inj h
          exact ⟨_, rfl, rfl⟩

end SendToUser

/-! ## Texts -/

/-- Digits, the last one first, with a comma after each third one. -/
def groupDigits : List Char → List Char
  | a :: b :: c :: d :: rest => a :: b :: c :: ',' :: groupDigits (d :: rest)
  | digits => digits

/-- The format `,` of a number. -/
def grouped (n : ℤ) : String :=
  (if n < 0 then "-" else "") ++
    String.ofList (groupDigits (Nat.toDigits 10 n.natAbs).reverse).reverse

example : grouped 1234567 = "1,234,567" := by decide +kernel

/-- A title in quotation marks. -/
def quoted (title : String) : String := "'" ++ title ++ "'"

/-- A value in the data of a notification: the dispatcher puts in numbers and texts, its callers
whatever they like. -/
inductive DataValue (V : Type) where
  | number (n : ℤ)
  | text (s : String)
  | other (value : V)

/-! ## The dispatcher -/

/-- What comes of a send, and when. -/
structure FCMAnswer where
  result : FCMSendResult
  createdAt : DateTime
  sentAt : DateTime

namespace NotificationDispatcher

variable {V : Type}

/-- `_should_send_notification`. -/
def shouldSendNotification (db : Db) (userId : UserId) : Bool :=
  match db.users.find? userId with
  | none => false
  | some user => user.alarmEnabled = some true

section Methods

variable (enc : Encoders (DataValue V)) (answer : ℕ → FCMAnswer)

/-- The guarded sends of a method, one after the other; an exception ends them.  `answer` says
what comes of the send of each notification. -/
def notifyEach : List (UserId × SendRequest (DataValue V)) → Db → Db × List Push
  | [], db => (db, [])
  | (userId, request) :: rest, db =>
    if shouldSendNotification db userId then
      let reply := answer db.notifications.next
      match FCMService.sendToUser enc db userId request reply.result reply.createdAt
        reply.sentAt with
      | none => (db, (FCMService.push db userId).toList)
      | some attempt =>
          let later := notifyEach rest attempt.db
          (later.1, (FCMService.push db userId).toList ++ later.2)
    else notifyEach rest db

variable (db : Db)

/-- Only logged. -/
def notifyProposalCreated (_proposalId : ℤ) (_creatorId : UserId) (_proposalTitle : String) :
    Db × List Push :=
  (db, [])

/-- A request about a proposal. -/
def aboutProposal (notificationType : NotificationType) (title body : String) (proposalId : ℤ)
    (extra : List (String × DataValue V)) : SendRequest (DataValue V) where
  notificationType
  title
  body
  data := some (("proposal_id", .number proposalId) :: extra)
  relatedEntityType := some "proposal"
  relatedEntityId := some proposalId

/-- A request about an offer. -/
def aboutOffer (notificationType : NotificationType) (title body : String)
    (offerId proposalId : ℤ) (extra : List (String × DataValue V)) :
    SendRequest (DataValue V) where
  notificationType
  title
  body
  data := some (("offer_id", .number offerId) :: ("proposal_id", .number proposalId) :: extra)
  relatedEntityType := some "offer"
  relatedEntityId := some offerId

/-- A request about a payment. -/
def aboutPayment (notificationType : NotificationType) (title body : String)
    (paymentId amount : ℤ) (extra : List (String × DataValue V)) :
    SendRequest (DataValue V) where
  notificationType
  title
  body
  data := some (("payment_id", .number paymentId) :: ("amount", .text (toString amount)) :: extra)
  relatedEntityType := some "payment"
  relatedEntityId := some paymentId

/-- A body with the reason, if one is given. -/
def withReason (body : String) (reason : Option String) : String :=
  match reason with
  | none | some "" => body
  | some reason => body ++ " 사유: " ++ reason

def notifyProposalMatched (proposalId : ℤ) (customerId runnerId : UserId)
    (proposalTitle : String) : Db × List Push :=
  notifyEach enc answer [
    (customerId, aboutProposal .proposalMatched "의뢰가 매칭되었습니다!"
      (quoted proposalTitle ++ " 의뢰에 러너가 배정되었습니다.") proposalId
      [("runner_id", .text runnerId)]),
    (runnerId, aboutProposal .proposalMatched "새로운 미션이 배정되었습니다!"
      (quoted proposalTitle ++ " 미션을 시작하세요.") proposalId
      [("customer_id", .text customerId)])] db

def notifyProposalCancelled (proposalId : ℤ) (affectedUserIds : List UserId)
    (proposalTitle : String) (reason : Option String) : Db × List Push :=
  notifyEach enc answer (affectedUserIds.map fun userId =>
    (userId, aboutProposal .proposalCancelled "의뢰가 취소되었습니다"
      (withReason (quoted proposalTitle ++ " 의뢰가 취소되었습니다.") reason) proposalId
      [("reason", .text (reason.getD ""))])) db

def notifyOfferReceived (offerId proposalId : ℤ) (customerId runnerId : UserId)
    (proposalTitle : String) (offerAmount : ℤ) : Db × List Push :=
  notifyEach enc answer [
    (customerId, aboutOffer .offerNew "새로운 제안이 도착했습니다!"
      (quoted proposalTitle ++ " 의뢰에 " ++ grouped offerAmount ++ "원의 제안이 왔습니다.")
      offerId proposalId
      [("runner_id", .text runnerId), ("amount", .text (toString offerAmount))])] db

def notifyOfferAccepted (offerId proposalId : ℤ) (runnerId : UserId) (proposalTitle : String) :
    Db × List Push :=
  notifyEach enc answer [
    (runnerId, aboutOffer .offerAccepted "제안이 수락되었습니다!"
      (quoted proposalTitle ++ " 제안이 수락되었습니다. 미션을 시작하세요!") offerId proposalId [])] db

def notifyOfferRejected (offerId proposalId : ℤ) (runnerId : UserId) (proposalTitle : String) :
    Db × List Push :=
  notifyEach enc answer [
    (runnerId, aboutOffer .offerRejected "제안이 거절되었습니다"
      (quoted proposalTitle ++ " 제안이 거절되었습니다.") offerId proposalId [])] db

def notifyExecutionStarted (offerId proposalId : ℤ) (customerId runnerId : UserId)
    (proposalTitle : String) : Db × List Push :=
  notifyEach enc answer [
    (customerId, aboutOffer .executionStarted "수행이 시작되었습니다"
      (quoted proposalTitle ++ " 요청이 진행 중입니다.") offerId proposalId
      [("runner_id", .text runnerId)]),
    (runnerId, aboutOffer .executionStarted "수행을 시작하세요"
      (quoted proposalTitle ++ " 요청이 시작되었습니다.") offerId proposalId
      [("customer_id", .text customerId)])] db

def notifyExecutionCompleted (offerId proposalId : ℤ) (customerId runnerId : UserId)
    (proposalTitle : String) : Db × List Push :=
  notifyEach enc answer [
    (customerId, aboutOffer .executionCompleted "수행이 완료되었습니다!"
      (quoted proposalTitle ++ " 요청이 성공적으로 완료되었습니다.") offerId proposalId
      [("runner_id", .text runnerId)]),
    (runnerId, aboutOffer .executionCompleted "수행 완료!"
      (quoted proposalTitle ++ " 요청을 완료했습니다. 수고하셨습니다!") offerId proposalId
      [("customer_id", .text customerId)])] db

def notifyPaymentCompleted (paymentId : ℤ) (userId : UserId) (amount : ℤ)
    (proposalTitle : String) : Db × List Push :=
  notifyEach enc answer [
    (userId, aboutPayment .paymentCompleted "결제가 완료되었습니다"
      (quoted proposalTitle ++ " 요청 결제 " ++ grouped amount ++ "원이 완료되었습니다.")
      paymentId amount [])] db

def notifyPaymentFailed (paymentId : ℤ) (userId : UserId) (amount : ℤ) (proposalTitle : String)
    (reason : Option String) : Db × List Push :=
  notifyEach enc answer [
    (userId, aboutPayment .paymentFailed "결제가 실패했습니다"
      (withReason (quoted proposalTitle ++ " 요청 결제 " ++ grouped amount ++ "원이 실패했습니다.")
        reason)
      paymentId amount [("reason", .text (reason.getD ""))])] db

def notifySystemAnnouncement (userIds : List UserId) (title body : String)
    (data : Option (List (String × V))) : Db × List Push :=
  notifyEach enc answer (userIds.map fun userId =>
    (userId, {
      notificationType := .systemAnnouncement
      title
      body
      data := data.map (List.map fun kv => (kv.1, .other kv.2))
      relatedEntityType := none
      relatedEntityId := none })) db

/-- The setting of the recipient is not asked for. -/
def sendCustomNotification (userId : UserId) (title body : String)
    (data : Option (List (String × V))) (relatedEntityType : Option String)
    (relatedEntityId : Option ℤ) : Db × List Push :=
  let reply := answer db.notifications.next
  let request : SendRequest (DataValue V) := {
    notificationType := .custom
    title
    body
    data := data.map (List.map fun kv => (kv.1, .other kv.2))
    relatedEntityType
    relatedEntityId }
  (match FCMService.sendToUser enc db userId request reply.result reply.createdAt reply.sentAt with
    | none => db
    | some attempt => attempt.db,
    (FCMService.push db userId).toList)

end Methods

/-! ## What the sends keep -/

section Sends

variable {enc : Encoders (DataValue V)} {answer : ℕ → FCMAnswer}

/-- **The invariant rule of the dispatcher**: what every send to a user who wants notifications
keeps, a method keeps. -/
theorem notifyEach_induction {I : Db → Prop}
    (hsend : ∀ db userId (n : Notification), I db → alarmEnabled db.users userId = true →
      n.userId = userId →
      I { db with
        notifications := db.notifications.insert (fun k => { n with id := k })
          (NotificationService.key_stamped n) })
    (requests : List (UserId × SendRequest (DataValue V))) {db : Db} (h : I db) :
    I (notifyEach enc answer requests db).1 := by
  induction requests generalizing db with
  | nil => exact h
  | cons request rest ih =>
      obtain ⟨userId, request⟩ := request
      unfold notifyEach
      by_cases halarm : shouldSendNotification db userId = true
      · rw [if_pos halarm]
        dsimp only
        split
        · exact h
        · next attempt hattempt =>
            obtain ⟨n, huser, hdb⟩ := sendToUser_db hattempt
            refine ih ?_
            rw [hdb]
            exact hsend db userId n h halarm huser
      · rw [if_neg halarm]
        exact ih h

theorem alarm_of_mem_push {db : Db} {userId : UserId} {push : Push}
    (h : push ∈ (FCMService.push db userId).toList) :
    push.alarm = alarmEnabled db.users userId := by
  obtain ⟨token, -, rfl⟩ := Option.map_eq_some_iff.1 (Option.mem_toList.1 h)
  rfl

/-- **A method only sends to users who want notifications.** -/
theorem alarm_of_mem_notifyEach {requests : List (UserId × SendRequest (DataValue V))} {db : Db}
    {push : Push} (h : push ∈ (notifyEach enc answer requests db).2) : push.alarm = true := by
  induction requests generalizing db with
  | nil => exact absurd h List.not_mem_nil
  | cons request rest ih =>
      obtain ⟨userId, request⟩ := request
      unfold notifyEach at h
      by_cases halarm : shouldSendNotification db userId = true
      · rw [if_pos halarm] at h
        dsimp only at h
        split at h
        · exact (alarm_of_mem_push h).trans halarm
        · rcases List.mem_append.1 h with h | h
          · exact (alarm_of_mem_push h).trans halarm
          · exact ih h
      · rw [if_neg halarm] at h
        exact ih h

end Sends

end NotificationDispatcher

/-! ## Calls of the dispatcher -/

/-- The methods with their arguments. -/
inductive DispatcherCall (V : Type) where
  | notifyProposalCreated (proposalId : ℤ) (creatorId : UserId) (proposalTitle : String)
  | notifyProposalMatched (proposalId : ℤ) (customerId runnerId : UserId) (proposalTitle : String)
  | notifyProposalCancelled (proposalId : ℤ) (affectedUserIds : List UserId)
      (proposalTitle : String) (reason : Option String)
  | notifyOfferReceived (offerId proposalId : ℤ) (customerId runnerId : UserId)
      (proposalTitle : String) (offerAmount : ℤ)
  | notifyOfferAccepted (offerId proposalId : ℤ) (runnerId : UserId) (proposalTitle : String)
  | notifyOfferRejected (offerId proposalId : ℤ) (runnerId : UserId) (proposalTitle : String)
  | notifyExecutionStarted (offerId proposalId : ℤ) (customerId runnerId : UserId)
      (proposalTitle : String)
  | notifyExecutionCompleted (offerId proposalId : ℤ) (customerId runnerId : UserId)
      (proposalTitle : String)
  | notifyPaymentCompleted (paymentId : ℤ) (userId : UserId) (amount : ℤ) (proposalTitle : String)
  | notifyPaymentFailed (paymentId : ℤ) (userId : UserId) (amount : ℤ) (proposalTitle : String)
      (reason : Option String)
  | notifySystemAnnouncement (userIds : List UserId) (title body : String)
      (data : Option (List (String × V)))
  | sendCustomNotification (userId : UserId) (title body : String)
      (data : Option (List (String × V))) (relatedEntityType : Option String)
      (relatedEntityId : Option ℤ)

/-- The committed database after a call, and the pushes. -/
def DispatcherCall.run {V : Type} (enc : Encoders (DataValue V)) (answer : ℕ → FCMAnswer)
    (db : Db) : DispatcherCall V → Db × List Push
  | .notifyProposalCreated pid creatorId title =>
      NotificationDispatcher.notifyProposalCreated db pid creatorId title
  | .notifyProposalMatched pid customerId runnerId title =>
      NotificationDispatcher.notifyProposalMatched enc answer db pid customerId runnerId title
  | .notifyProposalCancelled pid userIds title reason =>
      NotificationDispatcher.notifyProposalCancelled enc answer db pid userIds title reason
  | .notifyOfferReceived oid pid customerId runnerId title amount =>
      NotificationDispatcher.notifyOfferReceived enc answer db oid pid customerId runnerId title
        amount
  | .notifyOfferAccepted oid pid runnerId title =>
      NotificationDispatcher.notifyOfferAccepted enc answer db oid pid runnerId title
  | .notifyOfferRejected oid pid runnerId title =>
      NotificationDispatcher.notifyOfferRejected enc answer db oid pid runnerId title
  | .notifyExecutionStarted oid pid customerId runnerId title =>
      NotificationDispatcher.notifyExecutionStarted enc answer db oid pid customerId runnerId title
  | .notifyExecutionCompleted oid pid customerId runnerId title =>
      NotificationDispatcher.notifyExecutionCompleted enc answer db oid pid customerId runnerId
        title
  | .notifyPaymentCompleted paymentId userId amount title =>
      NotificationDispatcher.notifyPaymentCompleted enc answer db paymentId userId amount title
  | .notifyPaymentFailed paymentId userId amount title reason =>
      NotificationDispatcher.notifyPaymentFailed enc answer db paymentId userId amount title reason
  | .notifySystemAnnouncement userIds title body data =>
      NotificationDispatcher.notifySystemAnnouncement enc answer db userIds title body data
  | .sendCustomNotification userId title body data entityType entityId =>
      NotificationDispatcher.sendCustomNotification enc answer db userId title body data entityType
        entityId

section Calls

variable {V : Type} {enc : Encoders (DataValue V)} {answer : ℕ → FCMAnswer} {db : Db}

/-- **Every call is a custom notification, or a series of guarded sends.** -/
theorem dispatcher_cases (enc : Encoders (DataValue V)) (answer : ℕ → FCMAnswer) (db : Db)
    (call : DispatcherCall V) :
    (∃ userId title body data entityType entityId,
        call = .sendCustomNotification userId title body data entityType entityId) ∨
      ∃ requests, call.run enc answer db =
        NotificationDispatcher.notifyEach enc answer requests db := by
  cases call with
  | notifyProposalCreated pid creatorId title => exact Or.inr ⟨[], rfl⟩
  | sendCustomNotification userId title body data entityType entityId =>
      exact Or.inl ⟨userId, title, body, data, entityType, entityId, rfl⟩
  | _ => exact Or.inr ⟨_, rfl⟩

/-- A custom notification is one send to its user. -/
theorem sendCustomNotification_cases (userId : UserId) (title body : String)
    (data : Option (List (String × V))) (entityType : Option String) (entityId : Option ℤ) :
    (NotificationDispatcher.sendCustomNotification enc answer db userId title body data entityType
        entityId).1 = db ∨
      ∃ n : Notification, n.userId = userId ∧
        (NotificationDispatcher.sendCustomNotification enc answer db userId title body data
          entityType entityId).1 = { db with
            notifications := db.notifications.insert (fun k => { n with id := k })
              (NotificationService.key_stamped n) } := by
  unfold NotificationDispatcher.sendCustomNotification
  dsimp only
  split
  · exact Or.inl rfl
  · next attempt hattempt => exact Or.inr (sendToUser_db hattempt)

end Calls
end OrderRun
