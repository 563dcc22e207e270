import OrderRun.Application.Background
import OrderRun.Application.Withdrawal
import OrderRun.Notification.Dispatcher

/-!
# Pushes and alarms

A user who has turned alarms off is not to be pushed anything.  Her setting is read when a row is
created, or by a method of the dispatcher, and not when the worker sends.

* `NotificationWorker.pushes`, `AccountCommand.pushes` — the calls of FCM in a command.
* `PushCommand`, `PushApp.step` — the application together with the dispatcher.
* `Db.Wanted` — whoever has an undelivered row wants notifications.
* `Considerate` — nobody turns alarms off before her rows are delivered, and nobody is sent a
  custom notification without wanting one.
* `wanted_account`, `wanted_call`, `wanted_dispatch` — every considerate step keeps that.
* `exists_push_of_sent`, `alarm_of_pushed` — what a step pushes, and to whom.
* `PushApp.alarm_of_considerate` — over whole runs.
-/

namespace OrderRun

open Store

/-! ## The calls of FCM -/

/-- Some job of the worker takes the row. -/
def Notification.Undelivered (n : Notification) : Prop := ∃ job : WorkerJob, job.selects n = true

/-- The calls of FCM in a batch; an exception ends it. -/
def NotificationWorker.pushes (db : Db) (env : NotificationWorker.Surroundings) :
    List Notification → List Push
  | [] => []
  | n :: rest =>
    (NotificationWorker.call env.loads n (NotificationWorker.getToken db n.userId)).toList.map
      (fun message => ⟨n.id, n.userId, message.token, alarmEnabled db.users n.userId⟩) ++
    if (NotificationWorker.turn db env n).isSome then NotificationWorker.pushes db env rest else []

/-- The calls of FCM in a command. -/
def AccountCommand.pushes (db : Db) : AccountCommand → List Push
  | .sendNotification userId _ _ _ _ =>
    match currentUser db userId with
    | .error _ => []
    | .ok user => (FCMService.push db user.id).toList
  | .work job env => NotificationWorker.pushes db env (selectBatch db.notifications job env.rank)
  | _ => []

/-- What can happen, calls of the dispatcher included. -/
inductive PushCommand (V : Type) where
  | app (c : Command)
  | dispatch (call : DispatcherCall V) (answer : ℕ → FCMAnswer)

namespace PushApp

variable {V : Type} (settings : Settings) (bus : EventBus) (enc : Encoders (DataValue V))

/-- One command executed at one stroke. -/
def step (w : World) : PushCommand V → World
  | .app c => App.step settings bus w c
  | .dispatch call answer => { w with db := (call.run enc answer w.db).1 }

/-- The calls of FCM in a command. -/
def pushes (w : World) : PushCommand V → List Push
  | .app (.deal _) => []
  | .app (.account c) => c.pushes w.db
  | .dispatch call answer => (call.run enc answer w.db).2

end PushApp

/-! ## Undelivered rows -/

/-- Whoever has an undelivered row wants notifications. -/
def Db.Wanted (db : Db) : Prop :=
  ∀ n ∈ db.notifications, n.Undelivered → alarmEnabled db.users n.userId = true

/-- Nobody turns alarms off before her rows are delivered, and nobody is sent a custom
notification without wanting one. -/
def Considerate {V : Type} (w : World) : PushCommand V → Prop
  | .app (.account (.updateAlarm userId false)) =>
      ∀ n ∈ w.db.notifications, n.userId = userId → ¬ n.Undelivered
  | .app (.account (.sendNotification userId _ _ _ _)) =>
      ∀ user, currentUser w.db userId = .ok user → alarmEnabled w.db.users user.id = true
  | .dispatch (.sendCustomNotification userId _ _ _ _ _) _ => alarmEnabled w.db.users userId = true
  | _ => True

section Rows

variable {db db' : Db}

/-- Rows that were undelivered before, and rows for users who want them. -/
theorem Db.Wanted.of_rows (h : db.Wanted) (husers : db'.users = db.users)
    (hrows : ∀ n' ∈ db'.notifications, n'.Undelivered →
      alarmEnabled db.users n'.userId = true ∨
        ∃ n ∈ db.notifications, n.Undelivered ∧ n.userId = n'.userId) : db'.Wanted := by
  intro n' hn' hopen
  rw [husers]
  rcases hrows n' hn' hopen with halarm | ⟨n, hn, hopen', huser⟩
  · exact halarm
  · rw [← huser]
    exact h n hn hopen'

/-- Users who keep wanting notifications. -/
theorem Db.Wanted.of_users (h : db.Wanted) (hrows : db'.notifications = db.notifications)
    (husers : ∀ n ∈ db.notifications, n.Undelivered →
      alarmEnabled db.users n.userId = true → alarmEnabled db'.users n.userId = true) :
    db'.Wanted := by
  intro n hn hopen
  rw [hrows] at hn
  exact husers n hn hopen (h n hn hopen)

/-- A change of a user that leaves her setting on. -/
theorem alarmEnabled_updateUser {userId uid : UserId} {f : User → User}
    {hf : ∀ u, (f u).id = u.id} (halarm : alarmEnabled db.users uid = true)
    (hon : ∀ user, uid = userId → user.alarmEnabled = some true →
      (f user).alarmEnabled = some true) :
    alarmEnabled (db.updateUser userId f hf).users uid = true := by
  obtain ⟨user, huser, rfl, hset⟩ := alarmEnabled_iff.1 halarm
  refine alarmEnabled_iff.2 ⟨_, Db.mem_updateUser.2 ⟨user, huser, rfl⟩, ?_⟩
  split
  · next hid => exact ⟨hf user, hon user hid hset⟩
  · exact ⟨rfl, hset⟩

/-- A change of a user that leaves her setting on, or that she makes with nothing undelivered. -/
theorem Db.Wanted.updateUser (h : db.Wanted) {userId : UserId} {f : User → User}
    {hf : ∀ u, (f u).id = u.id}
    (hon : ∀ n ∈ db.notifications, n.Undelivered → n.userId = userId → ∀ user,
      user.alarmEnabled = some true → (f user).alarmEnabled = some true) :
    (db.updateUser userId f hf).Wanted :=
  h.of_users rfl fun n hn hopen halarm => alarmEnabled_updateUser halarm
    fun user hid => hon n hn hopen hid user

/-- A new row for a user who wants it. -/
theorem Db.Wanted.insert (h : db.Wanted) {n : Notification}
    (halarm : alarmEnabled db.users n.userId = true) : Db.Wanted { db with
      notifications := db.notifications.insert (fun k => { n with id := k })
        (NotificationService.key_stamped n) } := by
  refine h.of_rows rfl fun n' hn' hopen => ?_
  rcases AutoTable.mem_insert.1 hn' with hold | rfl
  · exact Or.inr ⟨n', hold, hopen, rfl⟩
  · exact Or.inl halarm

end Rows

/-! ## What steps keep -/

section Account

variable {settings : Settings} {db : Db}

/-- What has been read is delivered. -/
theorem not_undelivered_of_read {n : Notification} (h : n.status = .read) : ¬ n.Undelivered := by
  rintro ⟨job, hjob⟩
  cases job <;> simp [WorkerJob.selects, h] at hjob

/-- A row a run of the worker leaves undelivered was undelivered before. -/
theorem undelivered_run {job : WorkerJob} {env : NotificationWorker.Surroundings}
    {n' : Notification} (hn' : n' ∈ (NotificationWorker.run db job env).notifications)
    (hopen : n'.Undelivered) : ∃ n ∈ db.notifications, n.Undelivered ∧ n.userId = n'.userId := by
  unfold NotificationWorker.run NotificationWorker.sendBatch at hn'
  cases hbatch : (selectBatch db.notifications job env.rank).mapM
    (NotificationWorker.turn db env) with
  | none =>
      rw [hbatch] at hn'
      exact ⟨n', hn', hopen, rfl⟩
  | some cs =>
      rw [hbatch] at hn'
      obtain ⟨n, hn, rfl⟩ := AutoTable.mem_map.1 hn'
      rcases writeBack_batch hbatch hn with ⟨-, he⟩ | ⟨hin, c, -, he⟩
      · rw [he] at hopen ⊢
        exact ⟨n, hn, hopen, rfl⟩
      · -- a job has selected it
        rw [he]
        exact ⟨n, hn, ⟨job, (mem_selectBatch hin).2⟩, rfl⟩

/-- Signing up adds a user. -/
theorem Db.Wanted.confirmSignup (h : db.Wanted) (payload : AuthPhoneConfirmRequest)
    (userId : UserId) (now : Readings) :
    (UserAuthService.confirmSignup settings db payload userId now).1.Wanted := by
  rcases UserAuthService.confirmSignup_cases settings db payload userId now with
    ⟨failure, he⟩ | ⟨v, -, ⟨failure, -, he⟩ | ⟨-, -, -, -, users, husers, he⟩⟩
  · rw [he]; exact h
  · rw [he]; exact h
  · rw [he]
    refine h.of_users rfl fun n _ _ halarm => ?_
    obtain ⟨user, huser, hset⟩ := alarmEnabled_iff.1 halarm
    refine alarmEnabled_iff.2 ⟨user, ?_, hset⟩
    rw [Table.mem_iff, husers]
    exact List.mem_append_left _ huser

/-- Logging in leaves the setting alone. -/
theorem Db.Wanted.confirmLogin (h : db.Wanted) (payload : AuthLoginConfirmRequest)
    (now : Readings) : (UserAuthService.confirmLogin settings db payload now).1.Wanted := by
  have hlogin : ∀ (user : User) (t : AutoTable AuthPhoneVerification), (UserAuthService.login
      settings { db with verifications := t } user payload.fcmToken now.second).1.Wanted := by
    intro user t
    have hsame : (db.updateUser user.id (fun u => { u with lastLoginAt := some now.second })
        fun _ => rfl).Wanted := h.updateUser fun _ _ _ _ _ hset => hset
    exact hsame
  rcases UserAuthService.confirmLogin_cases settings db payload now with
    ⟨failure, he⟩ | ⟨user, -, ⟨-, he⟩ | ⟨v, -, ⟨failure, -, he⟩ | ⟨-, he⟩⟩⟩
  · rw [he]; exact h
  · rw [he]; exact hlogin user db.verifications
  · rw [he]; exact h
  · rw [he]; exact hlogin user _

/-- A run of the worker tries rows, and adds none. -/
theorem Db.Wanted.work (h : db.Wanted) (job : WorkerJob)
    (env : NotificationWorker.Surroundings) : (NotificationWorker.run db job env).Wanted := by
  refine h.of_rows ?_ fun n' hn' hopen => Or.inr (undelivered_run hn' hopen)
  unfold NotificationWorker.run NotificationWorker.sendBatch
  cases (selectBatch db.notifications job env.rank).mapM (NotificationWorker.turn db env) <;> rfl

/-- **Commands about accounts and notifications.** -/
theorem wanted_account {V : Type} {w : World} {c : AccountCommand} (h : w.db.Wanted)
    (hc : Considerate (V := V) w (.app (.account c))) : (c.run settings w.db).1.Wanted := by
  cases c with
  | signupSend payload smsSender draw now =>
      show (afterSend w.db _).1.Wanted
      cases UserAuthService.sendSignupVerification settings w.db payload smsSender draw now with
      | error failure => exact h
      | ok sent => exact h
  | loginSend payload smsSender draw now =>
      show (afterSend w.db _).1.Wanted
      cases UserAuthService.sendLoginVerification settings w.db payload smsSender draw now with
      | error failure => exact h
      | ok sent => exact h
  | signupConfirm payload userId now => exact h.confirmSignup payload userId now
  | loginConfirm payload now => exact h.confirmLogin payload now
  | refreshToken payload => exact h
  | updateAlarm userId flag =>
      refine asUser_induction h fun user hcurrent => committed_induction h fun db' hdb => ?_
      obtain ⟨-, hid, -⟩ := currentUser_eq_ok hcurrent
      simp only [UserProfileService.updateAlarm, bind_eq_ok, pure_eq_ok,
        ProposalService.getExistingUser_eq_ok] at hdb
      obtain ⟨fresh, ⟨-, hfresh, -⟩, rfl⟩ := hdb
      refine h.updateUser fun n hn hopen huser user' hset => ?_
      cases flag with
      | true => rfl
      | false => exact absurd hopen (hc n hn (huser.trans (hfresh.trans hid)))
  | updateName userId name =>
      refine asUser_induction h fun user _ => committed_induction h fun db' hdb => ?_
      simp only [UserProfileService.updateName, bind_eq_ok, pure_eq_ok] at hdb
      obtain ⟨fresh, -, rfl⟩ := hdb
      exact h.updateUser fun _ _ _ _ _ hset => hset
  | updateFcmToken userId fcmToken =>
      refine asUser_induction h fun user _ => committed_induction h fun db' hdb => ?_
      simp only [UserProfileService.updateFcmToken, bind_eq_ok, pure_eq_ok] at hdb
      obtain ⟨fresh, -, rfl⟩ := hdb
      exact h
  | saveAccount userId =>
      refine asUser_induction h fun user _ => ?_
      show (SettlementService.saveAccount w.db user.id).Wanted
      rcases SettlementService.saveAccount_cases w.db user.id with he | he
      · rw [he]; exact h
      · rw [he]; exact h
  | markRead userId ids utcnow =>
      refine asUser_induction h fun user _ => h.of_rows rfl fun n' hn' hopen => Or.inr ?_
      obtain ⟨n, hn, rfl⟩ := AutoTable.mem_map.1 hn'
      rcases n.markRead_cases user.id ids utcnow with he | hread
      · rw [he] at hopen ⊢
        exact ⟨n, hn, hopen, rfl⟩
      · exact absurd hopen (not_undelivered_of_read hread)
  | sendNotification userId request result createdAt sentAt =>
      refine asUser_induction h fun user hcurrent => ?_
      show ((NotificationService.sendCustomNotification w.db user.id request result createdAt
        sentAt).getD w.db).Wanted
      cases hsend : NotificationService.sendCustomNotification w.db user.id request result createdAt
        sentAt with
      | none => exact h
      | some db' =>
          obtain ⟨n, huser, -, -, rfl⟩ := NotificationService.sendCustomNotification_eq_some hsend
          exact h.insert (huser ▸ hc user hcurrent)
  | work job env => exact h.work job env
  | setOpenChatUrl offerId url => exact h

end Account

section Calls

variable {bus : EventBus} {w : World}

/-- **Calls of the services**: handlers write to users who want it, and who leaves has no rows
left. -/
theorem wanted_call (h : w.db.Wanted) (r : Request) : ((service bus).call w r).db.Wanted := by
  rcases call_cases bus w r with he | ⟨u, db, -, hbody, hcommit, he⟩
  · rw [he]
    exact h
  · rw [he]
    intro n hn hopen
    rcases UnitOfWork.mem_notifications_commit hcommit hn with hold | halarm
    · obtain ⟨hmem, hkept⟩ := UnitOfWork.mem_keep.1 hold
      refine (alarmEnabled_commit_of_ne hcommit fun c hc => ?_).trans (h n hmem hopen)
      rcases body_leaves hbody with ⟨hnone, -⟩ | ⟨user, -, -, hone, hpurge⟩
      · rw [hnone] at hc
        exact absurd hc List.not_mem_nil
      · rw [hone] at hc
        obtain rfl := List.mem_singleton.1 hc
        exact fun hid => of_decide_eq_false (hkept _ hpurge) hid.symm
    · exact halarm

end Calls

section Dispatch

variable {V : Type} {enc : Encoders (DataValue V)} {answer : ℕ → FCMAnswer} {w : World}
  {call : DispatcherCall V}

/-- **Calls of the dispatcher.** -/
theorem wanted_dispatch (h : w.db.Wanted) (hc : Considerate w (.dispatch call answer)) :
    (call.run enc answer w.db).1.Wanted := by
  rcases dispatcher_cases enc answer w.db call with
    ⟨userId, title, body, data, entityType, entityId, rfl⟩ | ⟨requests, he⟩
  · show (NotificationDispatcher.sendCustomNotification enc answer w.db userId title body data
      entityType entityId).1.Wanted
    rcases sendCustomNotification_cases userId title body data entityType entityId with
      he | ⟨n, huser, he⟩
    · rw [he]
      exact h
    · rw [he]
      exact h.insert (huser ▸ hc)
  · rw [he]
    refine NotificationDispatcher.notifyEach_induction (I := Db.Wanted) ?_ requests h
    intro db userId n h halarm huser
    exact h.insert (huser ▸ halarm)

end Dispatch

/-! ## What is pushed -/

section Pushed

variable {db : Db} {env : NotificationWorker.Surroundings}

/-- A turn that marks a row as sent has called FCM. -/
theorem exists_call_of_turn {n : Notification} {c : Change Notification}
    (h : NotificationWorker.turn db env n = some c) (hsent : c.dirty.status = .sent) :
    ∃ message, NotificationWorker.call env.loads n (NotificationWorker.getToken db n.userId) =
      some message := by
  obtain ⟨⟨n', message⟩, hr, rfl⟩ := Option.map_eq_some_iff.1 h
  rcases (sendOne_eq_some hr).2 with ⟨-, hfailed⟩ | ⟨⟨m, rfl⟩, -⟩
  · exact absurd (hfailed.symm.trans hsent) nofun
  · exact ⟨m, sendOne_call hr⟩

/-- **What a run of the worker delivers has been pushed.** -/
theorem exists_push_of_sent {ns : List Notification} {cs : List (Change Notification)}
    (h : ns.mapM (NotificationWorker.turn db env) = some cs) :
    ∀ c ∈ cs, c.dirty.status = .sent →
      ∃ push ∈ NotificationWorker.pushes db env ns, push.notificationId = c.loaded.id := by
  induction ns generalizing cs with
  | nil =>
      obtain rfl : [] = cs := by simpa using h
      simp
  | cons n ns ih =>
      simp only [List.mapM_cons, Option.bind_eq_bind, Option.bind_eq_some_iff, Option.pure_def,
        Option.some.injEq] at h
      obtain ⟨c, hturn, cs', hcs', rfl⟩ := h
      intro c' hc' hsent
      unfold NotificationWorker.pushes
      rcases List.mem_cons.1 hc' with rfl | hc'
      · obtain ⟨message, hcall⟩ := exists_call_of_turn hturn hsent
        refine ⟨_, List.mem_append_left _ (List.mem_map.2 ⟨message, ?_, rfl⟩), ?_⟩
        · exact Option.mem_toList.2 hcall
        · rw [(status_of_turn hturn).1]
      · obtain ⟨push, hpush, hid⟩ := ih hcs' c' hc' hsent
        refine ⟨push, List.mem_append_right _ ?_, hid⟩
        rw [if_pos (by rw [hturn]; rfl)]
        exact hpush

/-- The worker pushes to the recipients of its batch. -/
theorem alarm_of_mem_pushes {ns : List Notification}
    (h : ∀ n ∈ ns, alarmEnabled db.users n.userId = true) {push : Push}
    (hpush : push ∈ NotificationWorker.pushes db env ns) : push.alarm = true := by
  induction ns with
  | nil => exact absurd hpush List.not_mem_nil
  | cons n ns ih =>
      unfold NotificationWorker.pushes at hpush
      rcases List.mem_append.1 hpush with hfirst | hlater
      · obtain ⟨message, -, rfl⟩ := List.mem_map.1 hfirst
        exact h n List.mem_cons_self
      · split at hlater
        · exact ih (fun m hm => h m (List.mem_cons_of_mem n hm)) hlater
        · exact absurd hlater List.not_mem_nil

/-- **One step.**  Where every undelivered row is wanted, a considerate command only pushes what
is wanted. -/
theorem alarm_of_pushed {V : Type} {enc : Encoders (DataValue V)} {w : World} {c : PushCommand V}
    (h : w.db.Wanted) (hc : Considerate w c) : ∀ push ∈ PushApp.pushes enc w c,
      push.alarm = true := by
  intro push hpush
  match c with
  | .app (.deal r) => exact absurd hpush List.not_mem_nil
  | .app (.account c) =>
      cases c with
      | sendNotification userId request result createdAt sentAt =>
          change push ∈ (match currentUser w.db userId with
            | .error _ => []
            | .ok user => (FCMService.push w.db user.id).toList) at hpush
          cases hcurrent : currentUser w.db userId with
          | error failure =>
              rw [hcurrent] at hpush
              exact absurd hpush List.not_mem_nil
          | ok user =>
              rw [hcurrent] at hpush
              exact (NotificationDispatcher.alarm_of_mem_push hpush).trans (hc user hcurrent)
      | work job env =>
          refine alarm_of_mem_pushes (fun n hn => ?_) hpush
          obtain ⟨hmem, hselects⟩ := mem_selectBatch hn
          exact h n hmem ⟨job, hselects⟩
      | _ => exact absurd hpush List.not_mem_nil
  | .dispatch call answer =>
      rcases dispatcher_cases enc answer w.db call with
        ⟨userId, title, body, data, entityType, entityId, rfl⟩ | ⟨requests, he⟩
      · exact (NotificationDispatcher.alarm_of_mem_push hpush).trans hc
      · change push ∈ (call.run enc answer w.db).2 at hpush
        rw [he] at hpush
        exact NotificationDispatcher.alarm_of_mem_notifyEach hpush

end Pushed

/-! ## Whole runs -/

namespace PushApp

variable {V : Type}

/-- A considerate step leaves every undelivered row wanted. -/
theorem wanted_step {settings : Settings} {bus : EventBus} {enc : Encoders (DataValue V)}
    (w : World) (c : PushCommand V) (h : w.db.Wanted) (hc : Considerate w c) :
    (step settings bus enc w c).db.Wanted := by
  match c with
  | .app (.deal r) => exact wanted_call h r
  | .app (.account c) => exact wanted_account h hc
  | .dispatch call answer => exact wanted_dispatch h hc

/-- **No push to a user who has turned alarms off**, in every run of the application and the
dispatcher in which nobody turns them off with rows undelivered, and nobody without them is sent
a custom notification. -/
theorem alarm_of_considerate (settings : Settings) (bus : EventBus)
    (enc : Encoders (DataValue V)) (m : MasterData) (cs : List (PushCommand V))
    (h : Runs.Along (step settings bus enc) Considerate (World.initial m) cs) :
    Runs.Along (step settings bus enc)
      (fun w c => ∀ push ∈ pushes enc w c, push.alarm = true) (World.initial m) cs :=
  Runs.along_of_along (I := fun w => w.db.Wanted) wanted_step
    (fun _ _ hw hc => alarm_of_pushed hw hc) (fun _ hn => absurd hn List.not_mem_nil) h

end PushApp

namespace Sample

/-- The texts of the dispatcher as they are; nothing else is encoded. -/
def dispatcherEncoders : Encoders (DataValue String) where
  dumps data := textEncoders.dumps (data.map fun kv => (kv.1, match kv.2 with
    | .number n => toString n
    | .text s | .other s => s))
  str value := match value with
    | .number n => toString n
    | .text s | .other s => s

/-- The orderer has a token when the runner applies for her errand. -/
def runnerApplies : List (PushCommand String) :=
  .app (.account (.updateFcmToken "orderer" "token")) ::
    (offered.take 3).map fun r => .app (.deal r)

/-- The outbox is flushed. -/
def flush : PushCommand String := .app (.account (.work .flushPending surroundings))

/-- The orderer turns alarms off. -/
def silence : PushCommand String := .app (.account (.updateAlarm "orderer" false))

end Sample

/-- The orderer is told about the runner's offer before she turns alarms off. -/
theorem PushApp.alarm_of_considerate_flushed :
    (∃ push, PushApp.pushes Sample.dispatcherEncoders (Runs.run
        (PushApp.step .sample Sample.bus Sample.dispatcherEncoders) (World.initial Sample.master)
        Sample.runnerApplies) Sample.flush = [push]) ∧
    Runs.Along (PushApp.step .sample Sample.bus Sample.dispatcherEncoders)
      (fun w c => ∀ push ∈ PushApp.pushes Sample.dispatcherEncoders w c, push.alarm = true)
      (World.initial Sample.master) (Sample.runnerApplies ++ [Sample.flush, Sample.silence]) := by
  refine ⟨⟨_, rfl⟩, PushApp.alarm_of_considerate .sample Sample.bus Sample.dispatcherEncoders
    Sample.master (Sample.runnerApplies ++ [Sample.flush, Sample.silence])
    ⟨trivial, trivial, trivial, trivial, trivial, ?_, trivial⟩⟩
  -- nothing is left to deliver to her
  have hsettled : ∀ n ∈ (Runs.run (PushApp.step .sample Sample.bus Sample.dispatcherEncoders)
      (World.initial Sample.master) (Sample.runnerApplies ++ [Sample.flush])).db.notifications.rows,
      n.userId = "orderer" → n.status ≠ .pending ∧ n.status ≠ .failed := by
    decide +kernel
  rintro n hn huser ⟨job, hselects⟩
  exact not_settled_of_selects hselects (hsettled n hn huser)

/-- The row outlives the setting it was created under. -/
theorem PushApp.not_alarm_silenced :
    ¬ Runs.Along (PushApp.step .sample Sample.bus Sample.dispatcherEncoders)
      (fun w c => ∀ push ∈ PushApp.pushes Sample.dispatcherEncoders w c, push.alarm = true)
      (World.initial Sample.master) (Sample.runnerApplies ++ [Sample.silence, Sample.flush]) := by
  intro h
  have hflush := Runs.along_iff.1 h (Sample.runnerApplies ++ [Sample.silence]) Sample.flush [] rfl
  have hpushed : ∃ push ∈ PushApp.pushes Sample.dispatcherEncoders (Runs.run
      (PushApp.step .sample Sample.bus Sample.dispatcherEncoders) (World.initial Sample.master)
      (Sample.runnerApplies ++ [Sample.silence])) Sample.flush, push.alarm = false := by
    decide +kernel
  obtain ⟨push, hpush, halarm⟩ := hpushed
  exact absurd ((hflush push hpush).symm.trans halarm) nofun

end OrderRun
