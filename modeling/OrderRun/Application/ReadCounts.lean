import OrderRun.Application.Effects
import OrderRun.Application.References
import OrderRun.Application.Retries
import OrderRun.Queries.Inbox

/-!
# What has been read

`mark_notifications_read` answers with the number of notifications it has marked, and
`get_notification_stats` with the number of those that are read.  This file proves that the
two keep the same books: whatever calls overlap with each other and with whatever commands (which
are carried out at one stroke), the notifications of a user that are read are the ones she has
been told were marked, and they do not change any more.

* `markedCount`, `answered`, `marked` — what the answers of `mark_notifications_read` say.
* `Db.Dated` — a notification is read exactly if it has a time of reading.
* `Reads`, `reads_step` — what one step does to the notifications a user has read.
* `reads_accounted` — the books agree, in every run.
* `read_shown` — what has been read is shown the same way for ever after.
-/

namespace OrderRun

open Store Split

/-! ## The books -/

/-- The rows that the `UPDATE` of `mark_notifications_read` changes. -/
def NotificationService.markedCount (db : Db) (userId : UserId) (ids : List ℕ) : ℕ :=
  db.notifications.rows.countP fun n => n.id ∈ ids ∧ n.userId = userId ∧ n.readAt = none

/-- How many of her notifications a command tells a user it has marked. -/
def AccountCommand.marks (db : Db) (userId : UserId) : AccountCommand → ℕ
  | .markRead reader ids _ =>
    match currentUser db reader with
    | .error _ => 0
    | .ok user =>
      if user.id = userId then NotificationService.markedCount db userId ids else 0
  | _ => 0

/-- A step of a call tells her nothing of the kind. -/
def answered (db : Db) (userId : UserId) : Among Request AccountCommand → ℕ
  | .event _ => 0
  | .change c => c.marks db userId

/-- How many she has been told over a run. -/
def marked (settings : Settings) (bus : EventBus) (userId : UserId)
    (s : State World Request UnitOfWork) (es : List (Among Request AccountCommand)) : ℕ :=
  ((Runs.trail (App.among settings bus) s es).map fun x => answered x.1.now.db userId x.2).sum

/-- A user has read a notification. -/
def Notification.ReadBy (userId : UserId) (n : Notification) : Prop :=
  n.userId = userId ∧ n.readAt ≠ none

instance (userId : UserId) (n : Notification) : Decidable (n.ReadBy userId) :=
  inferInstanceAs (Decidable (_ ∧ _))

/-- A notification is read exactly if it has a time of reading. -/
def Db.Dated (db : Db) : Prop :=
  ∀ n ∈ db.notifications, n.status = .read ↔ n.readAt ≠ none

/-- What has been read stays as it is, and so many more have been read. -/
structure Reads (userId : UserId) (db db' : Db) (more : ℕ) : Prop where
  kept : ∀ n ∈ db.notifications, n.ReadBy userId → n ∈ db'.notifications
  count : db'.notifications.rows.countP (·.ReadBy userId) =
    db.notifications.rows.countP (·.ReadBy userId) + more
  dated : db'.Dated

/-! ## What the statistics say -/

section Stats

variable {db : Db} {uid : UserId}

/-- A notification is unread, or its user has read it. -/
theorem length_query (db : Db) (uid : UserId) :
    (NotificationService.query db uid false).length =
      (NotificationService.query db uid true).length +
        db.notifications.rows.countP (·.ReadBy uid) := by
  rw [List.length_eq_countP_add_countP (fun n : Notification => n.readAt = none)
    (l := NotificationService.query db uid false)]
  unfold NotificationService.query
  rw [← List.countP_eq_length_filter, List.countP_filter, List.countP_filter]
  congr 1
  · exact List.countP_congr fun n _ => by simp [and_comm]
  · refine List.countP_congr fun n _ => ?_
    simp only [Bool.and_eq_true, decide_eq_true_eq]
    constructor
    · rintro ⟨hread, huser, -⟩
      exact ⟨huser, hread⟩
    · rintro ⟨huser, hread⟩
      exact ⟨hread, huser, nofun⟩

/-- What is marked as failed has not been read. -/
theorem failed_le_unread (h : db.Dated) :
    (db.notifications.rows.countP fun n => n.userId = uid ∧ n.status = .failed) ≤
      (NotificationService.query db uid true).length := by
  unfold NotificationService.query
  rw [← List.countP_eq_length_filter]
  refine List.countP_mono_left fun n hn hfailed => ?_
  obtain ⟨huser, hstatus⟩ := of_decide_eq_true hfailed
  have hunread : n.readAt = none := by
    by_contra hread
    rw [(h n hn).2 hread] at hstatus
    exact absurd hstatus (by decide)
  exact decide_eq_true ⟨huser, fun _ => hunread⟩

/-- A notification is found by its own user. -/
theorem getNotification_eq_ok {id : ℕ} {response : NotificationResponse} :
    NotificationService.getNotification db uid id = .ok response ↔
      ∃ n ∈ db.notifications, n.id = id ∧ n.userId = uid ∧
        NotificationResponse.modelValidate n = response := by
  simp only [NotificationService.getNotification, bind_eq_ok, orRaise_eq_ok, pure_eq_ok]
  constructor
  · rintro ⟨n, hfind, rfl⟩
    have hfound := List.find?_some hfind
    obtain ⟨hid, huser⟩ := of_decide_eq_true hfound
    exact ⟨n, List.mem_of_find?_eq_some hfind, hid, huser, rfl⟩
  · rintro ⟨n, hn, hid, huser, rfl⟩
    cases hfind : db.notifications.rows.find? fun n => n.id = id ∧ n.userId = uid with
    | none => exact absurd (decide_eq_true ⟨hid, huser⟩) (List.find?_eq_none.1 hfind n hn)
    | some m =>
        have hfound := List.find?_some hfind
        obtain ⟨hid', -⟩ := of_decide_eq_true hfound
        obtain rfl : m = n := AutoTable.eq_of_key_eq (List.mem_of_find?_eq_some hfind) hn
          (hid'.trans hid.symm)
        exact ⟨m, rfl, rfl⟩

end Stats

/-! ## Statements -/

section Statements

variable {db db' : Db} {uid : UserId}

/-- A command that does not touch the notifications. -/
theorem reads_same (h : db.Dated) (hrows : db'.notifications = db.notifications) :
    Reads uid db db' 0 where
  kept := fun n hn _ => hrows ▸ hn
  count := by rw [hrows, Nat.add_zero]
  dated := by
    intro n hn
    rw [hrows] at hn
    exact h n hn

/-- Some notifications are gone, and nobody has read the new ones. -/
theorem dated_append {keep : Notification → Bool} {new : List Notification} (h : db.Dated)
    (hrows : db'.notifications.rows = db.notifications.rows.filter keep ++ new)
    (hnew : ∀ n ∈ new, n.status ≠ .read ∧ n.readAt = none) : db'.Dated := by
  intro n hn
  rw [AutoTable.mem_iff, hrows] at hn
  rcases List.mem_append.1 hn with hn | hn
  · exact h n (List.mem_filter.1 hn).1
  · obtain ⟨hstatus, hreadAt⟩ := hnew n hn
    exact iff_of_false hstatus (not_not.2 hreadAt)

/-- None of a user's notifications is gone, and nobody has read the new ones. -/
theorem reads_append {keep : Notification → Bool} {new : List Notification} (h : db.Dated)
    (hrows : db'.notifications.rows = db.notifications.rows.filter keep ++ new)
    (hkeep : ∀ n ∈ db.notifications, n.userId = uid → keep n = true)
    (hnew : ∀ n ∈ new, n.status ≠ .read ∧ n.readAt = none) : Reads uid db db' 0 where
  kept := by
    intro n hn hread
    rw [AutoTable.mem_iff, hrows]
    exact List.mem_append_left _ (List.mem_filter.2 ⟨hn, hkeep n hn hread.1⟩)
  count := by
    have hzero : new.countP (·.ReadBy uid) = 0 :=
      List.countP_eq_zero.2 fun n hn hread => (of_decide_eq_true hread).2 (hnew n hn).2
    rw [hrows, List.countP_append, hzero, List.countP_filter]
    refine congrArg (· + 0) (List.countP_congr fun n hn => ?_)
    simp only [Bool.and_eq_true, decide_eq_true_eq]
    exact ⟨And.left, fun hread => ⟨hread, hkeep n hn hread.1⟩⟩
  dated := dated_append h hrows hnew

/-- Notifications are written, and those that have been read are left alone. -/
theorem reads_map {f : Notification → Notification} (h : db.Dated)
    (hrows : db'.notifications.rows = db.notifications.rows.map f)
    (hread : ∀ n ∈ db.notifications, n.readAt ≠ none → f n = n)
    (hunread : ∀ n ∈ db.notifications, n.readAt = none →
      (f n).status ≠ .read ∧ (f n).readAt = none) : Reads uid db db' 0 where
  kept := by
    intro n hn hby
    rw [AutoTable.mem_iff, hrows]
    exact List.mem_map.2 ⟨n, hn, hread n hn hby.2⟩
  count := by
    rw [hrows, List.countP_map, Nat.add_zero]
    refine List.countP_congr fun n hn => ?_
    simp only [Function.comp_apply, decide_eq_true_eq]
    rcases eq_or_ne n.readAt none with hnone | hsome
    · exact iff_of_false (fun hby => hby.2 (hunread n hn hnone).2) fun hby => hby.2 hnone
    · rw [hread n hn hsome]
  dated := by
    intro n' hn'
    rw [AutoTable.mem_iff, hrows] at hn'
    obtain ⟨n, hn, rfl⟩ := List.mem_map.1 hn'
    rcases eq_or_ne n.readAt none with hnone | hsome
    · obtain ⟨hstatus, hreadAt⟩ := hunread n hn hnone
      exact iff_of_false hstatus (not_not.2 hreadAt)
    · rw [hread n hn hsome]
      exact h n hn

end Statements

/-! ## Commands -/

section Commands

variable {settings : Settings} {db : Db} {uid : UserId}

/-- The rows that are marked have not been read before, and have been read afterwards. -/
theorem countP_markRead (reader : UserId) (ids : List ℕ) (utcnow : DateTime)
    (ns : List Notification) : (ns.map (Notification.markRead reader ids utcnow)).countP
        (·.ReadBy reader) =
      ns.countP (·.ReadBy reader) +
        ns.countP fun n => n.id ∈ ids ∧ n.userId = reader ∧ n.readAt = none := by
  induction ns with
  | nil => rfl
  | cons n ns ih =>
      have hone : (if decide ((n.markRead reader ids utcnow).ReadBy reader) = true then 1 else 0) =
          (if decide (n.ReadBy reader) = true then 1 else 0) +
            if decide (n.id ∈ ids ∧ n.userId = reader ∧ n.readAt = none) = true
              then 1 else 0 := by
        unfold Notification.markRead Notification.ReadBy
        by_cases hmark : n.id ∈ ids ∧ n.userId = reader ∧ n.readAt = none
        · simp [hmark]
        · rw [if_neg hmark]
          simp [hmark]
      rw [List.map_cons, List.countP_cons, List.countP_cons, List.countP_cons, ih, hone]
      omega

/-- **The answer of `mark_notifications_read` is right**: so many more have been read by the
user who asked, and by nobody else. -/
theorem reads_markRead (h : db.Dated) (reader : UserId) (ids : List ℕ) (utcnow : DateTime) :
    Reads uid db (NotificationService.markNotificationsRead db reader ids utcnow)
      (if reader = uid then NotificationService.markedCount db uid ids else 0) where
  kept := by
    intro n hn hby
    refine AutoTable.mem_map.2 ⟨n, hn, ?_⟩
    unfold Notification.markRead
    exact if_neg fun hmark => hby.2 hmark.2.2
  count := by
    show (db.notifications.rows.map (Notification.markRead reader ids utcnow)).countP _ = _
    by_cases hreader : reader = uid
    · rw [if_pos hreader, ← hreader]
      exact countP_markRead reader ids utcnow _
    · rw [if_neg hreader, Nat.add_zero, List.countP_map]
      refine List.countP_congr fun n _ => ?_
      simp only [Function.comp_apply, decide_eq_true_eq]
      unfold Notification.markRead
      by_cases hmark : n.id ∈ ids ∧ n.userId = reader ∧ n.readAt = none
      · -- the notification is the reader's
        rw [if_pos hmark]
        have hother : n.userId ≠ uid := hmark.2.1 ▸ hreader
        exact iff_of_false (fun hby => hother hby.1) fun hby => hother hby.1
      · rw [if_neg hmark]
  dated := by
    intro n' hn'
    obtain ⟨n, hn, rfl⟩ := AutoTable.mem_map.1 hn'
    unfold Notification.markRead
    split
    · exact iff_of_true rfl (by simp)
    · exact h n hn

/-- A run of the worker does not select what has been read. -/
theorem reads_work (h : db.Dated) (job : WorkerJob) (env : NotificationWorker.Surroundings) :
    Reads uid db (NotificationWorker.run db job env) 0 := by
  unfold NotificationWorker.run NotificationWorker.sendBatch
  cases hbatch : (selectBatch db.notifications job env.rank).mapM
    (NotificationWorker.turn db env) with
  | none => exact reads_same h rfl
  | some cs =>
      have hreadAt : ∀ n : Notification,
          (writeBack Notification.flush cs n).readAt = n.readAt := fun n =>
        writeBack_induction (P := fun r : Notification => r.readAt = n.readAt) rfl
          fun _ _ _ => rfl
      refine reads_map h (f := writeBack Notification.flush cs) rfl ?_ ?_
      · intro n hn hread
        rcases writeBack_batch hbatch hn with ⟨-, he⟩ | ⟨hmem, -⟩
        · exact he
        · have hselects := (mem_selectBatch hmem).2
          rw [NotificationWorker.selects_eq_false (Or.inr ((h n hn).2 hread))] at hselects
          exact absurd hselects (by decide)
      · intro n hn hunread
        refine ⟨?_, (hreadAt n).trans hunread⟩
        rcases writeBack_batch hbatch hn with ⟨-, he⟩ | ⟨hmem, c, hturn, he⟩
        · rw [he]
          exact fun hread => (h n hn).1 hread hunread
        · obtain ⟨rfl, -, hs⟩ := status_of_turn hturn
          have hstatus : (writeBack Notification.flush cs c.loaded).status = c.dirty.status := by
            rw [he]
            exact col_untouched _ _
          rw [hstatus]
          rcases hs with hs | hs <;> rw [hs] <;> decide

/-- A custom notification has not been read. -/
theorem reads_custom (h : db.Dated) {reader : UserId} {request : NotificationSendRequest}
    {result : FCMSendResult} {createdAt sentAt : DateTime} {db' : Db}
    (hsend : NotificationService.sendCustomNotification db reader request result createdAt sentAt =
      some db') : Reads uid db db' 0 := by
  have hinsert : ∀ n : Notification, n.status ≠ .read → n.readAt = none →
      Reads uid db { db with notifications := db.notifications.insert fun k => { n with id := k } }
        0 := by
    intro n hstatus hreadAt
    have hrows : (db.notifications.insert fun k => { n with id := k }).rows =
        db.notifications.rows.filter (fun _ => true) ++
          [{ n with id := db.notifications.next }] := by
      rw [AutoTable.rows_insert, List.filter_true]
    refine reads_append h hrows (fun _ _ _ => rfl) fun m hm => ?_
    obtain rfl := List.mem_singleton.1 hm
    exact ⟨hstatus, hreadAt⟩
  unfold NotificationService.sendCustomNotification at hsend
  split at hsend
  · obtain rfl := Option.some.inj hsend
    exact hinsert _ (by simp) rfl
  · split at hsend
    · exact absurd hsend (by simp)
    · obtain rfl := Option.some.inj hsend
      exact hinsert _ (by simp) rfl
    · obtain rfl := Option.some.inj hsend
      exact hinsert _ (by simp) rfl

/-- **What a command outside the four services does to what has been read.** -/
theorem reads_run (h : db.Dated) (c : AccountCommand) :
    Reads uid db (c.run settings db).1 (c.marks db uid) := by
  have hsame : ∀ {x : Except Failure Db}, (∀ db', x = .ok db' →
      db'.notifications = db.notifications) → Reads uid db (committed db x).1 0 := fun hx =>
    committed_induction (I := fun db' => Reads uid db db' 0) (reads_same h rfl)
      fun db' hdb => reads_same h (hx db' hdb)
  have huser : ∀ {reader : UserId} {operation : User → Db × Except Failure Reply},
      (∀ user, Reads uid db (operation user).1 0) →
        Reads uid db (asUser db reader operation).1 0 := fun hop =>
    asUser_induction (I := fun db' => Reads uid db db' 0) (reads_same h rfl)
      fun user _ => hop user
  cases c with
  | signupSend payload smsSender draw now =>
      show Reads uid db (afterSend db _).1 0
      unfold afterSend
      split <;> exact reads_same h rfl
  | loginSend payload smsSender draw now =>
      show Reads uid db (afterSend db _).1 0
      unfold afterSend
      split <;> exact reads_same h rfl
  | signupConfirm payload userId now =>
      show Reads uid db (UserAuthService.confirmSignup settings db payload userId now).1 0
      rcases UserAuthService.confirmSignup_cases settings db payload userId now with
        ⟨failure, he⟩ | ⟨v, -, ⟨failure, -, he⟩ | ⟨-, -, -, -, users, -, he⟩⟩ <;>
        rw [he] <;> exact reads_same h rfl
  | loginConfirm payload now =>
      show Reads uid db (UserAuthService.confirmLogin settings db payload now).1 0
      rcases UserAuthService.confirmLogin_cases settings db payload now with
        ⟨failure, he⟩ | ⟨user, -, ⟨-, he⟩ | ⟨v, -, ⟨failure, -, he⟩ | ⟨-, he⟩⟩⟩ <;>
        rw [he] <;> exact reads_same h rfl
  | refreshToken payload => exact reads_same h rfl
  | updateAlarm userId alarmEnabled =>
      refine huser fun user => hsame fun db' hdb => ?_
      simp only [UserProfileService.updateAlarm, bind_eq_ok, pure_eq_ok] at hdb
      obtain ⟨fresh, -, rfl⟩ := hdb
      rfl
  | updateName userId name =>
      refine huser fun user => hsame fun db' hdb => ?_
      simp only [UserProfileService.updateName, bind_eq_ok, pure_eq_ok] at hdb
      obtain ⟨fresh, -, rfl⟩ := hdb
      rfl
  | updateFcmToken userId fcmToken =>
      refine huser fun user => hsame fun db' hdb => ?_
      simp only [UserProfileService.updateFcmToken, bind_eq_ok, pure_eq_ok] at hdb
      obtain ⟨fresh, -, rfl⟩ := hdb
      rfl
  | saveAccount userId =>
      refine huser fun user => hsame fun db' hdb => ?_
      obtain rfl := Except.ok.inj hdb
      rcases SettlementService.saveAccount_cases db user.id with he | he <;> rw [he]
  | markRead userId ids utcnow =>
      show Reads uid db (asUser db userId _).1 (AccountCommand.marks db uid _)
      unfold asUser
      rw [AccountCommand.marks]
      cases currentUser db userId with
      | error failure => exact reads_same h rfl
      | ok user => exact reads_markRead h user.id ids utcnow
  | sendNotification userId request result createdAt sentAt =>
      refine huser fun user => ?_
      show Reads uid db ((NotificationService.sendCustomNotification db user.id request result
        createdAt sentAt).getD db) 0
      cases hsend : NotificationService.sendCustomNotification db user.id request result createdAt
        sentAt with
      | none => exact reads_same h rfl
      | some db' => exact reads_custom h hsend
  | work job env => exact reads_work h job env
  | setOpenChatUrl offerId url => exact reads_same h rfl

end Commands

/-! ## Calls of the four services -/

section Calls

variable {bus : EventBus} {w₀ w w' : World} {r : Request} {u : UnitOfWork} {db : Db}
  {uid : UserId}

/-- Nobody has read what the handlers add. -/
theorem unread_of_mem_drafts {k : ℕ} {users : Table User} {n : Notification}
    (h : n ∈ u.drafts bus k users) : n.status ≠ .read ∧ n.readAt = none := by
  unfold UnitOfWork.drafts at h
  split at h
  · exact absurd h List.not_mem_nil
  · obtain ⟨-, _, _, _, he, -⟩ := EventBus.recipient_of_mem_drafts h
    rw [he]
    exact ⟨by simp [pending], rfl⟩

/-- A commit marks a user as deleted if she leaves, however old its read is, and unmarks
nobody. -/
theorem deleted_userRow (hbody : r.call.body w₀.db r.now = .ok u) (user : User) :
    (u.userRow user).deleted = true ↔
      user.deleted = true ∨ ∃ c ∈ u.users, c.loaded.id = user.id := by
  have hlevel : (u.levelRow user).deleted = user.deleted := by
    unfold UnitOfWork.levelRow
    split <;> rfl
  by_cases hleaves : ∃ c ∈ u.users, c.loaded.id = user.id
  · refine iff_of_true ?_ (Or.inr hleaves)
    obtain ⟨c, hc, hid⟩ := hleaves
    rcases body_leaves hbody with ⟨hnone, -⟩ | ⟨leaver, -, hactive, hone, -⟩
    · rw [hnone] at hc
      exact absurd hc List.not_mem_nil
    · rw [hone] at hc
      obtain rfl := List.mem_singleton.1 hc
      have hrow : u.userRow user =
          User.flush leaver (leaver.withdraw r.now.first) (u.levelRow user) := by
        rw [UnitOfWork.userRow, hone]
        exact (writeBack_singleton _).trans (if_pos (hid.trans (u.levelRow_id user).symm))
      rw [hrow]
      show col leaver.deleted true (u.levelRow user).deleted = true
      exact col_of_ne (by rw [hactive]; decide) _
  · rw [UnitOfWork.userRow_of_ne fun c hc hid => hleaves ⟨c, hc, hid⟩, hlevel]
    exact (or_iff_left hleaves).symm

theorem left_commit (hbody : r.call.body w₀.db r.now = .ok u)
    (hcommit : u.commit r.now.flush w.db bus = .ok db) {user : User} (huser : user ∈ w.db.users)
    (hleft : user.deleted = true ∨ ∃ c ∈ u.users, c.loaded.id = user.id) :
    (Effect.left user.id).Done db := by
  refine ⟨u.userRow user, ?_, u.userRow_id user, (deleted_userRow hbody user).2 hleft⟩
  rw [(UnitOfWork.commit_eq_ok hcommit).2.2.1]
  exact UnitOfWork.mem_users_write.2 ⟨user, huser, rfl⟩

/-- A purge takes the notifications of the user who leaves. -/
theorem exists_kept (hbody : r.call.body w₀.db r.now = .ok u) (hgrow : w₀.db.Onward w.db)
    (hcommit : u.commit r.now.flush w.db bus = .ok db) : ∃ keep : Notification → Bool,
      (∀ uid, ¬ (Effect.left uid).Done db → ∀ n, n.userId = uid → keep n = true) ∧
        db.notifications.rows = w.db.notifications.rows.filter keep ++
          (u.drafts bus w.db.offers.next db.users).mapIdx fun i draft =>
            { draft with id := w.db.notifications.next + i, createdAt := r.now.flush } := by
  rw [(UnitOfWork.notifications_commit hcommit).1]
  rcases body_leaves hbody with ⟨-, hnone⟩ | ⟨leaver, hleaver, -, hone, hpurge⟩
  · refine ⟨fun _ => true, fun _ _ _ _ => rfl, congrArg (· ++ _) ?_⟩
    show (u.keep w.db.notifications _).rows = _
    rw [UnitOfWork.keep, hnone, List.filter_true]
  · refine ⟨fun n => ! decide (n.userId = leaver.id), fun uid hstays n hn => ?_,
      congrArg (· ++ _) ?_⟩
    · obtain ⟨user, huser, hid⟩ := hgrow.users leaver.id ⟨leaver, hleaver, rfl⟩
      have hleft : (Effect.left user.id).Done db := by
        refine left_commit hbody hcommit huser
          (Or.inr ⟨⟨leaver, leaver.withdraw r.now.first⟩, ?_, hid.symm⟩)
        rw [hone]
        exact List.mem_cons_self
      have hother : n.userId ≠ leaver.id := by
        intro hsame
        rw [hid, ← hsame, hn] at hleft
        exact hstays hleft
      simpa using hother
    · show (u.keep w.db.notifications _).rows = _
      rw [UnitOfWork.keep, hpurge]
      rfl

/-- **A commit takes nothing away from what a user has read**, unless she leaves. -/
theorem reads_commit (h : w.db.Dated) (hbody : r.call.body w₀.db r.now = .ok u)
    (hgrow : w₀.db.Onward w.db) (hcommit : u.commit r.now.flush w.db bus = .ok db) :
    db.Dated ∧ (¬ (Effect.left uid).Done db → Reads uid w.db db 0) := by
  obtain ⟨keep, hkeep, hrows⟩ := exists_kept hbody hgrow hcommit
  have hnew : ∀ n ∈ (u.drafts bus w.db.offers.next db.users).mapIdx fun i draft =>
      { draft with id := w.db.notifications.next + i, createdAt := r.now.flush },
      n.status ≠ .read ∧ n.readAt = none := by
    intro n hn
    obtain ⟨i, hi, rfl⟩ := List.mem_mapIdx.1 hn
    obtain ⟨hstatus, hreadAt⟩ := unread_of_mem_drafts (List.getElem_mem hi)
    exact ⟨hstatus, hreadAt⟩
  exact ⟨dated_append h hrows hnew,
    fun hstays => reads_append h hrows (fun n _ => hkeep uid hstays n) hnew⟩

theorem sound_dated (bus : EventBus) : (service bus).Sound (fun w => w.db.Dated)
    (fun w w' => w.db.Onward w'.db) fun _ => True where
  refl := fun w => Db.Onward.refl w.db
  trans := fun _ _ _ => Db.Onward.trans
  commit := by
    intro w₀ w w' r u _ _ hread hgrow h hcommit
    obtain ⟨db, hdb, rfl⟩ := service_commit_eq_ok.1 hcommit
    have hreads : db.Dated ∧ (¬ (Effect.left "").Done db → Reads "" w.db db 0) :=
      reads_commit h (service_read_eq_ok.1 hread).2 hgrow hdb
    exact ⟨hreads.1, onward_commit hdb⟩

end Calls

/-! ## Runs -/

section Runs

variable (settings : Settings) (bus : EventBus) (uid : UserId)
  {s : State World Request UnitOfWork}

/-- What is known on the way: the units of work that wait were read from databases whose users
are still there. -/
def Underway (s : State World Request UnitOfWork) : Prop :=
  s.now.db.Dated ∧ (service bus).Origin (fun w => w.db.Dated)
    (fun w w' => w.db.Onward w'.db) (fun _ => True) s

theorem underway_step (h : Underway bus s) (e : Among Request AccountCommand) :
    Underway bus (App.among settings bus s e) := by
  refine (sound_dated bus).among_step (B := fun _ => True) (fun w c _ hw => ?_) s e h ?_
  · have hreads : Reads "" w.db (c.run settings w.db).1 _ := reads_run hw c
    exact ⟨hreads.dated, (accountStep_run settings w.db c).onward⟩
  · cases e with
    | event e => exact e.calls_true
    | change c => trivial

/-- **What one step does to what a user has read**, if she stays. -/
theorem reads_step (h : Underway bus s) (e : Among Request AccountCommand)
    (hstays : ¬ (Effect.left uid).Done (App.among settings bus s e).now.db) :
    Reads uid s.now.db (App.among settings bus s e).now.db (answered s.now.db uid e) := by
  obtain ⟨hdated, horigin⟩ := h
  cases e with
  | change c => exact reads_run hdated c
  | event e =>
    change ¬ (Effect.left uid).Done ((service bus).step s e).now.db at hstays
    show Reads uid s.now.db ((service bus).step s e).now.db 0
    cases e with
    | read tid r =>
        rw [Service.now_step_read]
        exact reads_same hdated rfl
    | commit tid =>
        rcases Service.now_step_commit (S := service bus) s tid with he | ⟨r, u, hpool, hcommit⟩
        · rw [he]
          exact reads_same hdated rfl
        · obtain ⟨-, w₀, -, hread, hgrow⟩ := horigin tid r u hpool
          obtain ⟨db, hdb, he⟩ := service_commit_eq_ok.1 hcommit
          rw [he] at hstays ⊢
          exact (reads_commit hdated (service_read_eq_ok.1 hread).2 hgrow hdb).2 hstays

/-- A user who has left stays away. -/
theorem left_step (h : Underway bus s) (e : Among Request AccountCommand)
    (hleft : (Effect.left uid).Done s.now.db) :
    (Effect.left uid).Done (App.among settings bus s e).now.db := by
  cases e with
  | change c => exact hleft.command (accountStep_run settings s.now.db c)
  | event e =>
    show (Effect.left uid).Done ((service bus).step s e).now.db
    cases e with
    | read tid r =>
        rw [Service.now_step_read]
        exact hleft
    | commit tid =>
        rcases Service.now_step_commit (S := service bus) s tid with he | ⟨r, u, hpool, hcommit⟩
        · rw [he]
          exact hleft
        · obtain ⟨-, w₀, -, hread, -⟩ := h.2 tid r u hpool
          obtain ⟨db, hdb, he⟩ := service_commit_eq_ok.1 hcommit
          obtain ⟨user, huser, rfl, hdeleted⟩ := hleft
          rw [he]
          exact left_commit (service_read_eq_ok.1 hread).2 hdb huser (Or.inl hdeleted)

/-- **What a run does to what a user has read**, if she stays. -/
theorem reads_run_among (h : Underway bus s) (es : List (Among Request AccountCommand)) :
    Underway bus (Runs.run (App.among settings bus) s es) ∧
      (¬ (Effect.left uid).Done (Runs.run (App.among settings bus) s es).now.db →
        Reads uid s.now.db (Runs.run (App.among settings bus) s es).now.db
          (marked settings bus uid s es)) := by
  induction es using List.reverseRecOn with
  | nil => exact ⟨h, fun _ => reads_same h.1 rfl⟩
  | append_singleton es e ih =>
      obtain ⟨hunderway, hreads⟩ := ih
      rw [Runs.run_concat]
      refine ⟨underway_step settings bus hunderway e, fun hstays => ?_⟩
      have hbefore := hreads fun hleft => hstays (left_step settings bus uid hunderway e hleft)
      have hafter := reads_step settings bus uid hunderway e hstays
      exact {
        kept := fun n hn hby => hafter.kept n (hbefore.kept n hn hby) hby
        count := by
          rw [hafter.count, hbefore.count, marked, marked, Runs.trail_concat, List.map_append,
            List.sum_append, List.map_singleton, List.sum_singleton, Nat.add_assoc]
        dated := hafter.dated }

theorem underway_initial (m : MasterData) : Underway bus (State.quiet (World.initial m)) :=
  ⟨fun _ hn => absurd hn List.not_mem_nil, Service.origin_quiet _⟩

end Runs

/-- **The books agree.**  In every run, whatever calls overlap, the statistics of a user add up,
no more are counted as failed than as unread, and as long as she stays she has read as many
notifications as she has been told were marked: nothing else is counted as read, and nothing that
was comes undone. -/
theorem reads_accounted (settings : Settings) (bus : EventBus) (m : MasterData)
    (es : List (Among Request AccountCommand)) (uid : UserId) :
    let db := (Runs.run (App.among settings bus) (State.quiet (World.initial m)) es).now.db
    let stats := NotificationService.getNotificationStats db uid
    stats.totalNotifications = stats.unreadCount + stats.readCount ∧
      stats.failedCount ≤ stats.unreadCount ∧
      (¬ (Effect.left uid).Done db →
        stats.readCount = marked settings bus uid (State.quiet (World.initial m)) es) := by
  intro db stats
  obtain ⟨⟨hdated, -⟩, hreads⟩ := reads_run_among settings bus uid (underway_initial bus m) es
  have htotal : stats.totalNotifications =
      stats.unreadCount + db.notifications.rows.countP (·.ReadBy uid) := length_query db uid
  have hread : stats.readCount = db.notifications.rows.countP (·.ReadBy uid) := by
    show stats.totalNotifications - stats.unreadCount = _
    rw [htotal, Nat.add_sub_cancel_left]
  refine ⟨by rw [hread, htotal], failed_le_unread hdated, fun hstays => ?_⟩
  rw [hread]
  exact (hreads hstays).count.trans (Nat.zero_add _)

/-- **What has been read is shown the same way for ever after**, whatever is sent or tried again
meanwhile, as long as the user stays. -/
theorem read_shown (settings : Settings) (bus : EventBus) (m : MasterData)
    (es es' : List (Among Request AccountCommand)) (uid : UserId) (id : ℕ)
    (response : NotificationResponse)
    (hshown : NotificationService.getNotification
      (Runs.run (App.among settings bus) (State.quiet (World.initial m)) es).now.db uid id =
        .ok response) (hread : response.status = .read)
    (hstays : ¬ (Effect.left uid).Done
      (Runs.run (App.among settings bus) (State.quiet (World.initial m)) (es ++ es')).now.db) :
    NotificationService.getNotification
      (Runs.run (App.among settings bus) (State.quiet (World.initial m)) (es ++ es')).now.db
        uid id = .ok response := by
  obtain ⟨n, hn, hid, huser, rfl⟩ := getNotification_eq_ok.1 hshown
  have hunderway := (reads_run_among settings bus uid (underway_initial bus m) es).1
  have hlater := (reads_run_among settings bus uid hunderway es').2
  rw [Runs.run_append] at hstays ⊢
  have hreadAt : n.readAt ≠ none := (hunderway.1 n hn).1 hread
  exact getNotification_eq_ok.2 ⟨n, (hlater hstays).kept n hn ⟨huser, hreadAt⟩, hid, huser, rfl⟩

namespace Sample

/-- The orderer is told that the runner has applied, and reads it while an acceptance is under
way. -/
def toldAndRead : List (Among Request AccountCommand) :=
  (offered.flatMap fun r => [.event (.read 0 r), .event (.commit 0)]) ++
    [.event (.read 0 (request 5 (.offerAccept 1 "orderer"))),
      .change (.markRead "orderer" [1] 60)]

/-- The acceptance is committed, the outbox is flushed, and the orderer reads everything. -/
def afterwards : List (Among Request AccountCommand) := [
  .event (.commit 0),
  .change (.work .flushPending surroundings),
  .change (.markRead "orderer" [1, 2, 3, 4] 70)]

/-- What she has been told. -/
def firstMessage : NotificationResponse :=
  NotificationResponse.modelValidate { OrderRun.pending "orderer" .offerNew "누군가 지원했어요! 👀"
      "회원님의 요청에 새로운 지원자가 생겼어요. 확인해보세요!" ⟨1, 1, "runner", "orderer", "errand"⟩ with
    id := 1, createdAt := 33, status := .read, readAt := some 60 }

end Sample

/-- The orderer has read the message about the runner before the outbox is flushed. -/
theorem read_shown_afterwards : Sample.firstMessage.status = .read ∧
    NotificationService.getNotification
        (Runs.run (App.among .sample Sample.bus) (State.quiet (World.initial Sample.master))
          (Sample.toldAndRead ++ Sample.afterwards)).now.db "orderer" 1 =
      .ok Sample.firstMessage := by
  refine ⟨rfl, read_shown .sample Sample.bus Sample.master Sample.toldAndRead Sample.afterwards
    "orderer" 1 Sample.firstMessage ?_ rfl ?_⟩
  · decide +kernel
  · have hactive : ∀ user ∈ (Runs.run (App.among .sample Sample.bus)
        (State.quiet (World.initial Sample.master))
          (Sample.toldAndRead ++ Sample.afterwards)).now.db.users.rows, user.deleted = false := by
      decide +kernel
    rintro ⟨user, huser, -, hdeleted⟩
    exact absurd (hactive user huser) (by rw [hdeleted]; decide)

end OrderRun
