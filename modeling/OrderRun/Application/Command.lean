import OrderRun.Accounts.Auth
import OrderRun.Services.Call

/-!
# The application

Everything that can happen to the committed database, one command at a time: the calls of
the four services, the commands a user gives about her own account, signing up and logging
in, the runs of the notification worker, and the chat links that an operator enters by
hand.

* `AccountCommand.run` — the committed database and the answer of a command that is not a
  call of the four services.
* `AccountStep` — what such a command can do, whatever it is; `accountStep_run`.
* `writeBack_batch` — what a run of the worker makes of a row.
* `App.step`, `App.after` — the runs of the whole application.
* `App.among` — the calls in two steps, among the commands.
-/

namespace OrderRun

open Store

/-- What a command about accounts or notifications comes back with. -/
inductive Reply where
  | done
  | sent (response : AuthVerificationSendResponse) (sms : SmsMessage)
  | tokens (response : AuthTokenResponse)
  | accessToken (response : AuthAccessTokenResponse)
  deriving DecidableEq, Repr

/-- The commands outside the four services. -/
inductive AccountCommand where
  | signupSend (payload : AuthSignupSendRequest) (smsSender : Bool) (draw : ℕ) (now : Readings)
  | loginSend (payload : AuthLoginSendRequest) (smsSender : Bool) (draw : ℕ) (now : Readings)
  /-- `userId` is the UUID drawn for the new user. -/
  | signupConfirm (payload : AuthPhoneConfirmRequest) (userId : UserId) (now : Readings)
  | loginConfirm (payload : AuthLoginConfirmRequest) (now : Readings)
  | refreshToken (payload : AuthRefreshRequest)
  | updateAlarm (userId : UserId) (alarmEnabled : Bool)
  | updateName (userId : UserId) (name : String)
  | updateFcmToken (userId : UserId) (fcmToken : String)
  | saveAccount (userId : UserId)
  | markRead (userId : UserId) (ids : List ℕ) (utcnow : DateTime)
  | sendNotification (userId : UserId) (request : NotificationSendRequest)
      (result : FCMSendResult) (createdAt sentAt : DateTime)
  /-- A background task or the retry job. -/
  | work (job : WorkerJob) (env : NotificationWorker.Surroundings)
  /-- No method assigns `open_chat_url`: it is entered in the database. -/
  | setOpenChatUrl (offerId : ℕ) (url : Option String)

/-- The chat link of one offer. -/
def Db.setOpenChatUrl (db : Db) (offerId : ℕ) (url : Option String) : Db :=
  { db with
    offers := db.offers.map (fun o => if o.id = offerId then { o with openChatUrl := url } else o)
      (by
        intro o
        split <;> rfl) }

/-- What an operation that commits at its end leaves behind. -/
def committed (db : Db) : Except Failure Db → Db × Except Failure Reply
  | .error failure => (db, .error failure)
  | .ok db' => (db', .ok .done)

/-- An operation of the user a router has authenticated. -/
def asUser (db : Db) (userId : UserId) (operation : User → Db × Except Failure Reply) :
    Db × Except Failure Reply :=
  match currentUser db userId with
  | .error failure => (db, .error failure)
  | .ok user => operation user

/-- What `send` leaves behind. -/
def afterSend (db : Db) : Except Failure Sent → Db × Except Failure Reply
  | .error failure => (db, .error failure)
  | .ok s => ({ db with verifications := s.records }, .ok (.sent s.response s.sms))

namespace AccountCommand

variable (settings : Settings) (db : Db)

/-- A command executed at one stroke: the committed database, and the answer. -/
def run : AccountCommand → Db × Except Failure Reply
  | .signupSend payload smsSender draw now =>
      afterSend db (UserAuthService.sendSignupVerification settings db payload smsSender draw now)
  | .loginSend payload smsSender draw now =>
      afterSend db (UserAuthService.sendLoginVerification settings db payload smsSender draw now)
  | .signupConfirm payload userId now =>
      (UserAuthService.confirmSignup settings db payload userId now).map id (.tokens <$> ·)
  | .loginConfirm payload now =>
      (UserAuthService.confirmLogin settings db payload now).map id (.tokens <$> ·)
  | .refreshToken payload =>
      (db, .accessToken <$> UserAuthService.refreshAccessToken settings db payload)
  | .updateAlarm userId alarmEnabled =>
      asUser db userId fun user =>
        committed db (UserProfileService.updateAlarm db user.id alarmEnabled)
  | .updateName userId name =>
      asUser db userId fun user => committed db (UserProfileService.updateName db user.id name)
  | .updateFcmToken userId fcmToken =>
      asUser db userId fun user =>
        committed db (UserProfileService.updateFcmToken db user.id fcmToken)
  | .saveAccount userId =>
      asUser db userId fun user => committed db (.ok (SettlementService.saveAccount db user.id))
  | .markRead userId ids utcnow =>
      asUser db userId fun user =>
        committed db (.ok (NotificationService.markNotificationsRead db user.id ids utcnow))
  | .sendNotification userId request result createdAt sentAt =>
      asUser db userId fun user => committed db (.ok
        ((NotificationService.sendCustomNotification db user.id request result createdAt
          sentAt).getD db))
  | .work job env => (NotificationWorker.run db job env, .ok .done)
  | .setOpenChatUrl offerId url => (db.setOpenChatUrl offerId url, .ok .done)

end AccountCommand

/-! ## What a command can do -/

/-- A change of a user's own row that leaves the identity of the account alone. -/
structure SameAccount (u u' : User) : Prop where
  id : u'.id = u.id
  phone : u'.phone = u.phone
  level : u'.level = u.level
  deleted : u'.deleted = u.deleted
  deletedAt : u'.deletedAt = u.deletedAt

/-- A change of a notification that leaves its recipient and its message alone; its status
only changes because it has been sent, or read. -/
structure SameMessage (n n' : Notification) : Prop where
  id : n'.id = n.id
  userId : n'.userId = n.userId
  notificationType : n'.notificationType = n.notificationType
  data : n'.data = n.data
  relatedEntityType : n'.relatedEntityType = n.relatedEntityType
  relatedEntityId : n'.relatedEntityId = n.relatedEntityId
  status : n'.status = n.status ∨ n'.status ∈ [.sent, .failed, .read]

/-- **What a command outside the four services can do.** -/
inductive AccountStep (db : Db) : Db → Prop where
  | nothing : AccountStep db db
  | records (verifications : AutoTable AuthPhoneVerification) :
      AccountStep db { db with verifications := verifications }
  /-- An active user changes her row or her token. -/
  | profile (user : User) (huser : user ∈ db.users) (hactive : user.deleted = false)
      (f : User → User) (hf : ∀ u, SameAccount u (f u))
      (verifications : AutoTable AuthPhoneVerification) (fcmTokens : AutoTable UserFCMToken)
      (htokens : ∀ r ∈ fcmTokens, r.userId = user.id ∨ ∃ r' ∈ db.fcmTokens, r'.userId = r.userId) :
      AccountStep db { db.updateUser user.id f fun u => (hf u).id with
        verifications := verifications, fcmTokens := fcmTokens }
  | signup (user : User) (hactive : user.deleted = false)
      (hid : user.id ∉ db.users.rows.map User.id) (users : Table User)
      (husers : users.rows = db.users.rows ++ [user])
      (verifications : AutoTable AuthPhoneVerification) :
      AccountStep db { db with users := users, verifications := verifications }
  /-- An active user gets an account. -/
  | account (user : User) (huser : user ∈ db.users) (hactive : user.deleted = false) :
      AccountStep db
        { db with settlementAccounts := db.settlementAccounts.insert fun k => ⟨k, user.id⟩ }
  | messages (f : Notification → Notification) (hf : ∀ n, SameMessage n (f n)) :
      AccountStep db { db with notifications := db.notifications.map f fun n => (hf n).id }
  /-- An active user is sent a message. -/
  | custom (user : User) (huser : user ∈ db.users) (hactive : user.deleted = false)
      (n : Notification) (huserId : n.userId = user.id) (htype : n.notificationType = .custom)
      (hstatus : n.status = .sent ∨ n.status = .failed) :
      AccountStep db
        { db with notifications := db.notifications.insert fun k => { n with id := k } }
  | chat (offerId : ℕ) (url : Option String) : AccountStep db (db.setOpenChatUrl offerId url)

section Steps

variable {db : Db}

theorem currentUser_eq_ok {userId : UserId} {user : User} (h : currentUser db userId = .ok user) :
    user ∈ db.users ∧ user.id = userId ∧ user.deleted = false :=
  ProposalService.getExistingUser_eq_ok.1 h

/-- What the operation of an active user keeps. -/
theorem asUser_induction {I : Db → Prop} {userId : UserId}
    {operation : User → Db × Except Failure Reply} (h : I db)
    (hop : ∀ user, currentUser db userId = .ok user → I (operation user).1) :
    I (asUser db userId operation).1 := by
  unfold asUser
  cases hcurrent : currentUser db userId with
  | error failure => exact h
  | ok user => exact hop user hcurrent

/-- What a commit keeps, if there is one. -/
theorem committed_induction {I : Db → Prop} {x : Except Failure Db} (h : I db)
    (hop : ∀ db', x = .ok db' → I db') : I (committed db x).1 := by
  cases x with
  | error failure => exact h
  | ok db' => exact hop db' rfl

/-- A step of an authenticated user is a step if it is one whenever the user is active. -/
theorem accountStep_asUser {userId : UserId} {operation : User → Db × Except Failure Reply}
    (h : ∀ user ∈ db.users, user.deleted = false → AccountStep db (operation user).1) :
    AccountStep db (asUser db userId operation).1 := by
  refine asUser_induction (I := AccountStep db) .nothing fun user hcurrent => ?_
  obtain ⟨huser, -, hactive⟩ := currentUser_eq_ok hcurrent
  exact h user huser hactive

theorem accountStep_committed {x : Except Failure Db}
    (h : ∀ db', x = .ok db' → AccountStep db db') :
    AccountStep db (committed db x).1 :=
  committed_induction (I := AccountStep db) .nothing h

theorem accountStep_afterSend (x : Except Failure Sent) : AccountStep db (afterSend db x).1 := by
  cases x with
  | error failure => exact .nothing
  | ok s => exact .records s.records

/-- A change of the row of an active user. -/
theorem accountStep_updateUser {userId : UserId} {f : User → User}
    (hf : ∀ u, SameAccount u (f u)) {db' : Db}
    (h : (do let freshUser ← ProposalService.getExistingUser db userId
             return db.updateUser freshUser.id f fun u => (hf u).id) = Except.ok db') :
    AccountStep db db' := by
  simp only [bind_eq_ok, ProposalService.getExistingUser_eq_ok, pure_eq_ok] at h
  obtain ⟨user, ⟨huser, -, hactive⟩, rfl⟩ := h
  exact .profile user huser hactive f hf db.verifications db.fcmTokens
    fun r hr => Or.inr ⟨r, hr, rfl⟩

theorem accountStep_login {settings : Settings} {user : User} (huser : user ∈ db.users)
    (hactive : user.deleted = false) (t : AutoTable AuthPhoneVerification)
    (fcmToken : Option String) (now : DateTime) : AccountStep db
      (UserAuthService.login settings { db with verifications := t } user fcmToken now).1 := by
  refine .profile user huser hactive (fun u => { u with lastLoginAt := some now })
    (fun u => ⟨rfl, rfl, rfl, rfl, rfl⟩) t _ ?_
  intro r hr
  cases fcmToken with
  | none => exact Or.inr ⟨r, hr, rfl⟩
  | some token => exact UserProfileService.userId_of_mem_upsert hr

theorem sameMessage_markRead (userId : UserId) (ids : List ℕ) (utcnow : DateTime)
    (n : Notification) : SameMessage n (n.markRead userId ids utcnow) := by
  unfold Notification.markRead
  split
  · exact ⟨rfl, rfl, rfl, rfl, rfl, rfl, Or.inr (by simp)⟩
  · exact ⟨rfl, rfl, rfl, rfl, rfl, rfl, Or.inl rfl⟩

/-- A turn of the worker leaves no notification pending. -/
theorem status_of_turn {env : NotificationWorker.Surroundings} {n : Notification}
    {c : Change Notification} (h : NotificationWorker.turn db env n = some c) :
    c.loaded = n ∧ c.dirty.id = n.id ∧ (c.dirty.status = .sent ∨ c.dirty.status = .failed) := by
  obtain ⟨r, hr, rfl⟩ := Option.map_eq_some_iff.1 h
  obtain ⟨hid, ⟨-, hfailed⟩ | ⟨-, hsent⟩⟩ := sendOne_eq_some hr
  · exact ⟨rfl, hid, Or.inr hfailed⟩
  · exact ⟨rfl, hid, Or.inl hsent⟩

/-- A loop without exceptions has made something of each item, and nothing else. -/
theorem forall_of_mapM {α β : Type*} {f : α → Option β} {as : List α} {bs : List β}
    (h : as.mapM f = some bs) :
    (∀ a ∈ as, ∃ b ∈ bs, f a = some b) ∧ ∀ b ∈ bs, ∃ a ∈ as, f a = some b := by
  induction as generalizing bs with
  | nil =>
      obtain rfl : [] = bs := by simpa using h
      simp
  | cons a as ih =>
      simp only [List.mapM_cons, Option.bind_eq_bind, Option.bind_eq_some_iff, Option.pure_def,
        Option.some.injEq] at h
      obtain ⟨b, hb, bs', hbs', rfl⟩ := h
      obtain ⟨hall, hback⟩ := ih hbs'
      constructor
      · intro a' ha'
        rcases List.mem_cons.1 ha' with rfl | ha'
        · exact ⟨b, List.mem_cons_self, hb⟩
        · obtain ⟨b', hb', he⟩ := hall a' ha'
          exact ⟨b', List.mem_cons_of_mem b hb', he⟩
      · intro b' hb'
        rcases List.mem_cons.1 hb' with rfl | hb'
        · exact ⟨a, List.mem_cons_self, hb⟩
        · obtain ⟨a', ha', he⟩ := hback b' hb'
          exact ⟨a', List.mem_cons_of_mem a ha', he⟩

/-- The changes of a batch. -/
theorem mapM_turn {env : NotificationWorker.Surroundings} {ns : List Notification}
    {cs : List (Change Notification)} (h : ns.mapM (NotificationWorker.turn db env) = some cs) :
    ∀ c ∈ cs, c.dirty.status = .sent ∨ c.dirty.status = .failed := by
  intro c hc
  obtain ⟨n, -, hturn⟩ := (forall_of_mapM h).2 c hc
  exact (status_of_turn hturn).2.2

/-- **What a batch makes of a row**: one that has been selected is written as its turn has left
the object, and every other stays as it is. -/
theorem writeBack_batch {job : WorkerJob} {env : NotificationWorker.Surroundings}
    {cs : List (Change Notification)}
    (h : (selectBatch db.notifications job env.rank).mapM (NotificationWorker.turn db env) =
      some cs) {n : Notification} (hn : n ∈ db.notifications) :
    (n ∉ selectBatch db.notifications job env.rank ∧ writeBack Notification.flush cs n = n) ∨
      n ∈ selectBatch db.notifications job env.rank ∧ ∃ c,
        NotificationWorker.turn db env n = some c ∧
          writeBack Notification.flush cs n = Notification.flush c.loaded c.dirty n := by
  obtain ⟨hall, hback⟩ := forall_of_mapM h
  rcases writeBack_cases Notification.flush cs n with ⟨hno, he⟩ | ⟨c, hc, hid, he⟩
  · refine Or.inl ⟨fun hmem => ?_, he⟩
    obtain ⟨c, hc, hturn⟩ := hall n hmem
    exact hno c hc (congrArg Notification.id (status_of_turn hturn).1)
  · -- the change is that of the row itself, since no two rows share a key
    obtain ⟨m, hm, hturn⟩ := hback c hc
    have hloaded := (status_of_turn hturn).1
    obtain rfl : m = n := AutoTable.eq_of_key_eq (mem_selectBatch hm).1 hn
      ((congrArg Notification.id hloaded).symm.trans hid)
    exact Or.inr ⟨hm, c, hturn, he⟩

/-- What the flush of a batch makes of a row. -/
theorem sameMessage_writeBack {cs : List (Change Notification)}
    (h : ∀ c ∈ cs, c.dirty.status = .sent ∨ c.dirty.status = .failed) (n : Notification) :
    SameMessage n (writeBack Notification.flush cs n) := by
  rcases writeBack_cases Notification.flush cs n with ⟨-, he⟩ | ⟨c, hc, -, he⟩
  · rw [he]
    exact ⟨rfl, rfl, rfl, rfl, rfl, rfl, Or.inl rfl⟩
  · rw [he]
    refine ⟨rfl, rfl, rfl, rfl, rfl, rfl, ?_⟩
    show col c.loaded.status c.dirty.status n.status = n.status ∨
      col c.loaded.status c.dirty.status n.status ∈ [.sent, .failed, .read]
    rcases eq_or_ne c.dirty.status c.loaded.status with hsame | hchanged
    · rw [hsame, col_unchanged]
      exact Or.inl rfl
    · rw [col_of_ne hchanged]
      rcases h c hc with hs | hs <;> rw [hs] <;> exact Or.inr (by decide)

theorem accountStep_work (job : WorkerJob) (env : NotificationWorker.Surroundings) :
    AccountStep db (NotificationWorker.run db job env) := by
  unfold NotificationWorker.run NotificationWorker.sendBatch
  cases hbatch : (selectBatch db.notifications job env.rank).mapM
    (NotificationWorker.turn db env) with
  | none => exact .nothing
  | some cs => exact .messages _ (sameMessage_writeBack (mapM_turn hbatch))

/-- **Every command does one of these things.** -/
theorem accountStep_run (settings : Settings) (db : Db) (c : AccountCommand) :
    AccountStep db (c.run settings db).1 := by
  cases c with
  | signupSend payload smsSender draw now => exact accountStep_afterSend _
  | loginSend payload smsSender draw now => exact accountStep_afterSend _
  | signupConfirm payload userId now =>
      show AccountStep db (UserAuthService.confirmSignup settings db payload userId now).1
      rcases UserAuthService.confirmSignup_cases settings db payload userId now with
        ⟨failure, he⟩ | ⟨v, -, ⟨failure, -, he⟩ | ⟨-, -, hid, -, users, husers, he⟩⟩
      · rw [he]; exact .nothing
      · rw [he]; exact .records _
      · rw [he]; exact .signup _ rfl hid users husers _
  | loginConfirm payload now =>
      show AccountStep db (UserAuthService.confirmLogin settings db payload now).1
      rcases UserAuthService.confirmLogin_cases settings db payload now with
        ⟨failure, he⟩ | ⟨user, huser, ⟨-, he⟩ | ⟨v, -, ⟨failure, -, he⟩ | ⟨-, he⟩⟩⟩
      · rw [he]; exact .nothing
      · obtain ⟨hmem, -, hactive⟩ := UserAuthService.findUserByPhone_eq_some huser
        rw [he]; exact accountStep_login hmem hactive db.verifications _ _
      · rw [he]; exact .records _
      · obtain ⟨hmem, -, hactive⟩ := UserAuthService.findUserByPhone_eq_some huser
        rw [he]; exact accountStep_login hmem hactive _ _ _
  | refreshToken payload => exact .nothing
  | updateAlarm userId alarmEnabled =>
      refine accountStep_asUser fun user _ _ => accountStep_committed fun db' h => ?_
      exact accountStep_updateUser (f := fun u => { u with alarmEnabled := some alarmEnabled })
        (fun u => ⟨rfl, rfl, rfl, rfl, rfl⟩) h
  | updateName userId name =>
      refine accountStep_asUser fun user _ _ => accountStep_committed fun db' h => ?_
      exact accountStep_updateUser (f := fun u => { u with name := some (strip name) })
        (fun u => ⟨rfl, rfl, rfl, rfl, rfl⟩) h
  | updateFcmToken userId fcmToken =>
      refine accountStep_asUser fun user _ _ => accountStep_committed fun db' h => ?_
      simp only [UserProfileService.updateFcmToken, bind_eq_ok,
        ProposalService.getExistingUser_eq_ok, pure_eq_ok] at h
      obtain ⟨fresh, ⟨hfresh, -, hactive⟩, rfl⟩ := h
      have hstep := AccountStep.profile fresh hfresh hactive id
        (fun u => ⟨rfl, rfl, rfl, rfl, rfl⟩) db.verifications
        (UserProfileService.upsertFcmToken db.fcmTokens fresh.id (strip fcmToken))
        fun r hr => UserProfileService.userId_of_mem_upsert hr
      rwa [Db.updateUser_id] at hstep
  | saveAccount userId =>
      refine accountStep_asUser fun user huser hactive => ?_
      rcases SettlementService.saveAccount_cases db user.id with he | he
      · show AccountStep db (SettlementService.saveAccount db user.id)
        rw [he]; exact .nothing
      · show AccountStep db (SettlementService.saveAccount db user.id)
        rw [he]; exact .account user huser hactive
  | markRead userId ids utcnow =>
      exact accountStep_asUser fun user _ _ =>
        .messages _ (sameMessage_markRead user.id ids utcnow)
  | sendNotification userId request result createdAt sentAt =>
      refine accountStep_asUser fun user huser hactive => ?_
      show AccountStep db ((NotificationService.sendCustomNotification db user.id request result
        createdAt sentAt).getD db)
      cases hsend : NotificationService.sendCustomNotification db user.id request result createdAt
        sentAt with
      | none => exact .nothing
      | some db' =>
          obtain ⟨n, huserId, htype, hstatus, rfl⟩ :=
            NotificationService.sendCustomNotification_eq_some hsend
          exact .custom user huser hactive n huserId htype hstatus
  | work job env => exact accountStep_work job env
  | setOpenChatUrl offerId url => exact .chat offerId url

end Steps

/-! ## Runs of the application -/

/-- What can happen. -/
inductive Command where
  /-- A call of the four services. -/
  | deal (r : Request)
  | account (c : AccountCommand)

namespace App

variable (settings : Settings) (bus : EventBus)

/-- One command executed at one stroke. -/
def step (w : World) : Command → World
  | .deal r => (service bus).call w r
  | .account c => { w with db := (c.run settings w.db).1 }

/-- The world after commands executed one at a time. -/
def after (m : MasterData) (cs : List Command) : World :=
  Runs.run (step settings bus) (World.initial m) cs

/-- One of the two steps of a call, or a command at one stroke. -/
def among : Split.State World Request UnitOfWork → Split.Among Request AccountCommand →
    Split.State World Request UnitOfWork :=
  (service bus).among fun w c => { w with db := (c.run settings w.db).1 }

end App
end OrderRun
