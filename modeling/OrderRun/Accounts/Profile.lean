import OrderRun.Core.Phone
import OrderRun.Notification.Worker
import OrderRun.Services.Proposal

/-!
# Profiles, accounts and notifications of a user

The commands a user gives about her own account: `user_profile_service.py`,
`settlement_service.py`, `notification_service.py` with the custom notification of
`fcm_service.py`.  Each looks at the committed rows and commits at once; the routers have
authenticated the user before.

* `currentUser` — `get_current_user`, once the token has been verified.
* `mem_…` — the rows each command leaves behind.
-/

namespace OrderRun

open Store

/-- `get_current_user`, once the token has been verified. -/
def currentUser (db : Db) (userId : UserId) : Except Failure User :=
  ProposalService.getExistingUser db userId

/-- `UPDATE` of one user. -/
def Db.updateUser (db : Db) (userId : UserId) (f : User → User) (hf : ∀ u, (f u).id = u.id) : Db :=
  { db with
    users := db.users.map (fun u => if u.id = userId then f u else u) (by
      intro u
      split
      · exact hf u
      · rfl) }

theorem Db.mem_updateUser {db : Db} {userId : UserId} {f : User → User}
    {hf : ∀ u, (f u).id = u.id} {v : User} : v ∈ (db.updateUser userId f hf).users ↔
      ∃ u ∈ db.users, (if u.id = userId then f u else u) = v :=
  List.mem_map

theorem Db.updateUser_id (db : Db) (userId : UserId) :
    db.updateUser userId id (fun _ => rfl) = db := by
  obtain ⟨⟨rows, nodup⟩, _, _, _, _, _, _, _, _, _, _⟩ := db
  simp [Db.updateUser, Table.map]

/-! ## Profiles -/

namespace UserProfileService

def updateAlarm (db : Db) (userId : UserId) (alarmEnabled : Bool) : Except Failure Db := do
  let freshUser ← ProposalService.getExistingUser db userId
  return db.updateUser freshUser.id (fun u => { u with alarmEnabled := some alarmEnabled })
    fun _ => rfl

def updateName (db : Db) (userId : UserId) (name : String) : Except Failure Db := do
  let freshUser ← ProposalService.getExistingUser db userId
  return db.updateUser freshUser.id (fun u => { u with name := some (strip name) }) fun _ => rfl

/-- One token for each user. -/
def upsertFcmToken (t : AutoTable UserFCMToken) (userId : UserId) (fcmToken : String) :
    AutoTable UserFCMToken :=
  match t.rows.find? (fun token => token.userId = userId) with
  | none => t.insert fun k => ⟨k, userId, fcmToken⟩
  | some token =>
      t.map (fun r => if r.id = token.id then { r with fcmToken := fcmToken } else r) (by
        intro r
        split <;> rfl)

def updateFcmToken (db : Db) (userId : UserId) (fcmToken : String) : Except Failure Db := do
  let freshUser ← ProposalService.getExistingUser db userId
  return { db with fcmTokens := upsertFcmToken db.fcmTokens freshUser.id (strip fcmToken) }

/-- A token of the table afterwards belongs to the user, or to somebody who had one. -/
theorem userId_of_mem_upsert {t : AutoTable UserFCMToken} {userId : UserId} {fcmToken : String}
    {r : UserFCMToken} (h : r ∈ upsertFcmToken t userId fcmToken) :
    r.userId = userId ∨ ∃ r' ∈ t, r'.userId = r.userId := by
  unfold upsertFcmToken at h
  split at h
  · rcases AutoTable.mem_insert.1 h with h | rfl
    · exact Or.inr ⟨r, h, rfl⟩
    · exact Or.inl rfl
  · next token _ =>
      obtain ⟨r', hr', rfl⟩ := AutoTable.mem_map.1 h
      refine Or.inr ⟨r', hr', ?_⟩
      by_cases hid : r'.id = token.id
      · rw [if_pos hid]
      · rw [if_neg hid]

end UserProfileService

/-! ## Settlement accounts -/

namespace SettlementService

/-- One account for each user; the bank details are columns nothing reads. -/
def saveAccount (db : Db) (userId : UserId) : Db :=
  match db.settlementAccounts.rows.find? (fun account => account.userId = userId) with
  | none => { db with settlementAccounts := db.settlementAccounts.insert fun k => ⟨k, userId⟩ }
  | some _ => db

theorem saveAccount_cases (db : Db) (userId : UserId) : saveAccount db userId = db ∨
    saveAccount db userId =
      { db with settlementAccounts := db.settlementAccounts.insert fun k => ⟨k, userId⟩ } := by
  unfold saveAccount
  split
  · exact Or.inr rfl
  · exact Or.inl rfl

end SettlementService

/-! ## Notifications -/

/-- The body of a custom notification; `data` is what `json.dumps` has made of it. -/
structure NotificationSendRequest where
  title : String
  body : String
  data : Option String
  relatedEntityType : Option String
  relatedEntityId : Option ℤ
  deriving DecidableEq, Repr

namespace NotificationService

def markNotificationsRead (db : Db) (userId : UserId) (ids : List ℕ) (utcnow : DateTime) : Db :=
  { db with
    notifications := db.notifications.map (Notification.markRead userId ids utcnow)
      (Notification.markRead_id userId ids utcnow) }

/-- A notification carries the key it is inserted under. -/
theorem key_stamped (n : Notification) (k : ℕ) :
    Keyed.key (show Notification from { n with id := k }) = k := rfl

/-- `FCMService.send_to_user` with `CUSTOM` as the type: the row is written with the
result of the one attempt, in one transaction.  Nothing is committed if an exception
escapes. -/
def sendCustomNotification (db : Db) (userId : UserId) (request : NotificationSendRequest)
    (result : FCMSendResult) (createdAt sentAt : DateTime) : Option Db :=
  let draft : Notification := {
    id := 0
    userId := userId
    notificationType := .custom
    title := request.title
    body := request.body
    data := request.data
    relatedEntityType := request.relatedEntityType
    relatedEntityId := request.relatedEntityId
    status := .pending
    fcmMessageId := none
    errorMessage := none
    createdAt := createdAt
    sentAt := none
    deliveredAt := none
    readAt := none
    retryCount := 0 }
  let insert (n : Notification) : Db :=
    { db with
      notifications := db.notifications.insert (fun k => { n with id := k }) (key_stamped n) }
  match db.fcmTokens.rows.find? (fun token => token.userId = userId) with
  | none =>
      some (insert { draft with
        status := .failed, errorMessage := some "No FCM token registered" })
  | some _ =>
    match result with
    | .raised => none
    | .failure errorMessage =>
        some (insert { draft with status := .failed, errorMessage := some errorMessage })
    | .success messageId =>
        some (insert { draft with
          status := .sent, sentAt := some sentAt, fcmMessageId := some messageId })

/-- A custom notification is written for its sender, with its attempt made. -/
theorem sendCustomNotification_eq_some {db db' : Db} {userId : UserId}
    {request : NotificationSendRequest} {result : FCMSendResult} {createdAt sentAt : DateTime}
    (h : sendCustomNotification db userId request result createdAt sentAt = some db') :
    ∃ n : Notification, n.userId = userId ∧ n.notificationType = .custom ∧
      (n.status = .sent ∨ n.status = .failed) ∧
      db' = { db with notifications := db.notifications.insert fun k => { n with id := k } } := by
  unfold sendCustomNotification at h
  split at h
  · obtain rfl := Option.some.inj h
    exact ⟨_, rfl, rfl, Or.inr rfl, rfl⟩
  · split at h
    · exact absurd h (by simp)
    · obtain rfl := Option.some.inj h
      exact ⟨_, rfl, rfl, Or.inr rfl, rfl⟩
    · obtain rfl := Option.some.inj h
      exact ⟨_, rfl, rfl, Or.inl rfl, rfl⟩

end NotificationService

/-! ## The worker, one run at a time -/

namespace NotificationWorker

/-- `_get_token`. -/
def getToken (db : Db) (userId : UserId) : Option String :=
  (db.fcmTokens.rows.find? fun token => token.userId = userId).map UserFCMToken.fcmToken

/-- What the outside world does during a run: the answers of FCM and the readings of the
clock, by notification, and the order in which rows of one instant come. -/
structure Surroundings where
  loads : String → Option (List (String × String))
  result : ℕ → FCMSendResult
  utcnow : ℕ → DateTime
  rank : ℕ → ℕ

/-- One turn of the loop of `_send_batch`, with the changed object. -/
def turn (db : Db) (env : Surroundings) (n : Notification) : Option (Change Notification) :=
  (sendOne env.loads n (getToken db n.userId) (env.result n.id) (env.utcnow n.id)).map
    fun r => ⟨n, r.1⟩

/-- `_send_batch`: nothing is committed if an exception escapes. -/
def sendBatch (db : Db) (job : WorkerJob) (env : Surroundings) : Option Db := do
  let changes ← (selectBatch db.notifications job env.rank).mapM (turn db env)
  return { db with
    notifications := db.notifications.map (writeBack Notification.flush changes)
      (Outbox.notification_writeBack_id changes) }

/-- The database after a run, whether it went through or not. -/
def run (db : Db) (job : WorkerJob) (env : Surroundings) : Db := (sendBatch db job env).getD db

end NotificationWorker
end OrderRun
