import OrderRun.Application.Announcements

/-!
# Background tasks

The routers of the calls that publish an event let the worker flush the outbox after the
response, all but one: after `confirm_received` nothing is scheduled.  And one flush sends
a hundred notifications at most.

* `attempted_flush_iff` — what one flush of the outbox leaves behind.
* `Call.schedulesFlush`, `Operation`, `Api.step` — a call with the background tasks of its
  router.
* `Stranded` — when notifications are left behind, for one call.
* `Api.drained_iff` — over whole runs.
-/

namespace OrderRun

open Store

/-! ## One flush -/

/-- Somebody has tried to send the notification. -/
def Notification.Attempted (n : Notification) : Prop := n.status ∈ [.sent, .failed, .read]

/-- FCM always answers, and `json.loads` reads what `json.dumps` has written. -/
structure NotificationWorker.Surroundings.Reliable (env : NotificationWorker.Surroundings) :
    Prop where
  fcm : ∀ id, env.result id ≠ .raised
  json : ∀ event, ∃ items, env.loads (dealData event) = some items

section Flush

variable {db : Db} {env : NotificationWorker.Surroundings} {n : Notification}

/-- A loop without exceptions goes through. -/
theorem mapM_some {α β : Type*} {f : α → Option β} {as : List α}
    (h : ∀ a ∈ as, ∃ b, f a = some b) : ∃ bs, as.mapM f = some bs := by
  induction as with
  | nil => exact ⟨[], rfl⟩
  | cons a as ih =>
      obtain ⟨b, hb⟩ := h a List.mem_cons_self
      obtain ⟨bs, hbs⟩ := ih fun a' ha' => h a' (List.mem_cons_of_mem a ha')
      exact ⟨b :: bs, by simp [hb, hbs]⟩

/-- The data of a message can be put together if what is stored can be read back. -/
theorem messageData_of_loads {loads : String → Option (List (String × String))} {data : String}
    {items : List (String × String)} (hdata : n.data = some data)
    (hitems : loads data = some items) : ∃ data, messageData loads n = some data := by
  unfold messageData
  simp only [hdata]
  by_cases hempty : data = ""
  · subst hempty
    exact ⟨_, rfl⟩
  · simp only [hitems]
    exact ⟨_, rfl⟩

/-- One turn of the loop goes through. -/
theorem turn_of_message {data : List (String × String)}
    (hmessage : messageData env.loads n = some data) (hfcm : env.result n.id ≠ .raised) :
    ∃ c, NotificationWorker.turn db env n = some c := by
  have hsent : ∃ r, sendOne env.loads n (NotificationWorker.getToken db n.userId)
      (env.result n.id) (env.utcnow n.id) = some r := by
    unfold sendOne
    simp only [hmessage]
    split
    · exact ⟨_, rfl⟩
    · exact ⟨_, rfl⟩
    · split
      · next hraised => exact absurd hraised hfcm
      · exact ⟨_, rfl⟩
      · exact ⟨_, rfl⟩
  obtain ⟨r, hr⟩ := hsent
  refine ⟨⟨n, r.1⟩, ?_⟩
  rw [NotificationWorker.turn, hr]
  rfl

theorem turn_of_deal (henv : env.Reliable) {event : DealEvent}
    (hdata : n.data = some (dealData event)) :
    ∃ c, NotificationWorker.turn db env n = some c := by
  obtain ⟨items, hitems⟩ := henv.json event
  obtain ⟨data, hmessage⟩ := messageData_of_loads hdata hitems
  exact turn_of_message hmessage (henv.fcm n.id)

/-- A flush takes every pending row exactly if there are at most a hundred. -/
theorem selectBatch_all_iff (rows : AutoTable Notification) (rank : ℕ → ℕ) :
    (∀ n ∈ rows, n.status = .pending → n ∈ selectBatch rows .flushPending rank) ↔
      rows.rows.countP (fun n => n.status = .pending) ≤ 100 := by
  have hperm := List.perm_insertionSort (createdBefore rank)
    (rows.rows.filter (WorkerJob.selects .flushPending))
  have hlength : ((rows.rows.filter (WorkerJob.selects .flushPending)).insertionSort
      (createdBefore rank)).length = rows.rows.countP (fun n => n.status = .pending) := by
    rw [hperm.length_eq, List.countP_eq_length_filter]
    rfl
  unfold selectBatch
  constructor
  · intro h
    by_contra hmore
    rw [not_le, ← hlength] at hmore
    -- the row with index 100 is left out
    have hmem := (hperm.mem_iff).1 (List.getElem_mem hmore)
    have hselected := List.mem_filter.1 hmem
    have htaken := h _ hselected.1 (of_decide_eq_true hselected.2)
    obtain ⟨i, hi, he⟩ := List.getElem_of_mem htaken
    rw [List.length_take] at hi
    rw [List.getElem_take] at he
    have hnodup : ((rows.rows.filter (WorkerJob.selects .flushPending)).insertionSort
        (createdBefore rank)).Nodup :=
      hperm.nodup_iff.2 (rows.toTable.rows_nodup.filter _)
    have hindex := hnodup.getElem_inj_iff.1 he
    omega
  · intro hle n hn hpending
    rw [List.take_of_length_le (hlength.trans_le hle)]
    exact hperm.mem_iff.2 (List.mem_filter.2 ⟨hn, decide_eq_true hpending⟩)

/-- **One flush of the outbox** leaves nothing behind exactly if there are at most a hundred
notifications to send. -/
theorem attempted_flush_iff (henv : env.Reliable) (hrows : ∀ n ∈ db.notifications,
      n.Attempted ∨ n.status = .pending ∧ ∃ event, n.data = some (dealData event)) :
    (∀ n ∈ (NotificationWorker.run db .flushPending env).notifications, n.Attempted) ↔
      db.notifications.rows.countP (fun n => n.status = .pending) ≤ 100 := by
  have hpending : ∀ n ∈ selectBatch db.notifications .flushPending env.rank,
      n ∈ db.notifications ∧ n.status = .pending := by
    intro n hn
    obtain ⟨hmem, hselected⟩ := mem_selectBatch hn
    exact ⟨hmem, of_decide_eq_true hselected⟩
  have hnot : ∀ n : Notification, n.status = .pending → ¬ n.Attempted := by
    intro n hn
    unfold Notification.Attempted
    rw [hn]
    decide
  obtain ⟨cs, hcs⟩ : ∃ cs, (selectBatch db.notifications .flushPending env.rank).mapM
      (NotificationWorker.turn db env) = some cs := by
    refine mapM_some fun n hn => ?_
    obtain ⟨hmem, hs⟩ := hpending n hn
    rcases hrows n hmem with hdone | ⟨-, event, hdata⟩
    · exact absurd hdone (hnot n hs)
    · exact turn_of_deal henv hdata
  have hrun : (NotificationWorker.run db .flushPending env).notifications.rows =
      db.notifications.rows.map (writeBack Notification.flush cs) := by
    unfold NotificationWorker.run NotificationWorker.sendBatch
    rw [hcs]
    rfl
  have hstatus : ∀ n ∈ db.notifications, ((writeBack Notification.flush cs n).Attempted ↔
      (n.status = .pending → n ∈ selectBatch db.notifications .flushPending env.rank)) := by
    intro n hn
    rcases writeBack_batch hcs hn with ⟨hout, he⟩ | ⟨hin, c, hturn, he⟩
    · rw [he]
      constructor
      · exact fun hdone hs => absurd hdone (hnot n hs)
      · exact fun htaken => (hrows n hn).resolve_right fun hwaits => hout (htaken hwaits.1)
    · obtain ⟨hl, -, hdone⟩ := status_of_turn hturn
      have hs : (writeBack Notification.flush cs n).status = c.dirty.status := by
        rw [he, hl]
        exact col_untouched _ _
      refine iff_of_true ?_ fun _ => hin
      unfold Notification.Attempted
      rw [hs]
      rcases hdone with hdone | hdone <;> rw [hdone] <;> decide
  rw [← selectBatch_all_iff db.notifications env.rank]
  constructor
  · intro h n hn
    refine (hstatus n hn).1 (h _ ?_)
    rw [AutoTable.mem_iff, hrun]
    exact List.mem_map_of_mem hn
  · intro h n' hn'
    rw [AutoTable.mem_iff, hrun] at hn'
    obtain ⟨n, hn, rfl⟩ := List.mem_map.1 hn'
    exact (hstatus n hn).2 (h n hn)

end Flush

/-! ## What the handlers leave to be sent -/

section Drafts

variable {users : Table User} {event : DomainEvent}

/-- A draft waits to be sent. -/
theorem EventBus.pending_of_mem_drafts {bus : EventBus} {n : Notification}
    (h : n ∈ bus.drafts event users) :
    n.status = .pending ∧ n.data = some (dealData event.deal) := by
  obtain ⟨handler, -, hn⟩ := List.mem_flatMap.1 h
  obtain ⟨-, -, _, _, _, he, -⟩ := Handler.mem_run hn
  rw [he]
  exact ⟨rfl, rfl⟩

/-- One user gets one message at most. -/
theorem length_notify (userId : UserId) (notificationType : NotificationType)
    (title body : String) (e : DealEvent) :
    (notify users userId notificationType title body e).length =
      if alarmEnabled users userId = true then 1 else 0 := by
  unfold notify
  split <;> rfl

theorem length_notify_le (userId : UserId) (notificationType : NotificationType)
    (title body : String) (e : DealEvent) :
    (notify users userId notificationType title body e).length ≤ 1 := by
  rw [length_notify]
  split <;> omega

/-- Of several users, those who want notifications get one. -/
theorem length_notify_all (userIds : List UserId) (notificationType : NotificationType)
    (title body : String) (e : DealEvent) :
    (userIds.flatMap fun userId => notify users userId notificationType title body e).length =
      userIds.countP (alarmEnabled users) := by
  induction userIds with
  | nil => rfl
  | cons userId userIds ih =>
      rw [List.flatMap_cons, List.length_append, ih, length_notify, List.countP_cons, Nat.add_comm]

/-- The orderer's confirmation leaves nothing to be sent if neither party wants to know. -/
theorem drafts_receipt_eq_nil (e : DealEvent) :
    EventBus.empty.registerAll.drafts (.meetingConfirmedByOrderer e) users = [] ↔
      ¬ (alarmEnabled users e.ordererId = true ∨ alarmEnabled users e.runnerId = true) := by
  rw [EventBus.drafts_started]
  show onMeetingConfirmedByOrderer users e = [] ↔ _
  unfold onMeetingConfirmedByOrderer notify
  cases ho : alarmEnabled users e.ordererId <;> cases hr : alarmEnabled users e.runnerId <;>
    simp [ho, hr]

/-- An acceptance is told to every runner concerned. -/
theorem length_drafts_accepted (e : DealEvent) (rejected : List UserId) :
    (EventBus.empty.registerAll.drafts (.offerAccepted e rejected) users).length =
      (e.runnerId :: rejected).countP (alarmEnabled users) := by
  rw [EventBus.drafts_started]
  show (onOfferAccepted users e rejected).length = _
  unfold onOfferAccepted
  rw [List.length_append, length_notify, length_notify_all, List.countP_cons, Nat.add_comm]

/-- Every other event is told to two users at most. -/
theorem length_drafts_le (haccepted : event.type ≠ .offerAccepted)
    (hreceipt : event.type ≠ .meetingConfirmedByOrderer) :
    (EventBus.empty.registerAll.drafts event users).length ≤ 2 := by
  rw [EventBus.drafts_started]
  cases event with
  | offerCreated e =>
      show (onOfferCreated users e).length ≤ 2
      unfold onOfferCreated
      rw [List.length_append]
      exact Nat.add_le_add (length_notify_le _ _ _ _ _) (length_notify_le _ _ _ _ _)
  | offerAccepted e rejected => exact absurd rfl haccepted
  | meetingConfirmedByRunner e => exact (length_notify_le _ _ _ _ _).trans (by omega)
  | meetingConfirmedByOrderer e => exact absurd rfl hreceipt
  | disputeRaisedByOrderer e => exact (length_notify_le _ _ _ _ _).trans (by omega)
  | disputeRaisedByRunner e => exact (length_notify_le _ _ _ _ _).trans (by omega)

end Drafts

/-- The waiting offers of a proposal whose runners want notifications. -/
def Db.audience (db : Db) (proposalId : ℕ) : ℕ :=
  (db.offersOf proposalId).countP fun o => o.status = .waiting ∧
    alarmEnabled db.users o.runnerId = true

/-- They are the runners an acceptance is told to. -/
theorem audience_eq {db : Db} {p : Proposal} {o : Offer} (hpair : db.Pair p o)
    (hos : o.status = .waiting) : db.audience p.id =
      (o.runnerId :: ((db.offersOf p.id).filter fun x => x.id ≠ o.id ∧ x.status = .waiting).map
        (·.runnerId)).countP (alarmEnabled db.users) := by
  have hmem : o ∈ db.offersOf p.id := Db.mem_offersOf.2 ⟨hpair.offer, hpair.proposalId⟩
  have hnodup : (db.offersOf p.id).Nodup := db.offers.toTable.rows_nodup.filter _
  have hothers : (db.offersOf p.id).erase o = (db.offersOf p.id).filter fun x => x.id ≠ o.id := by
    rw [hnodup.erase_eq_filter]
    refine List.filter_congr fun x hx => ?_
    by_cases hsame : x = o
    · simp [hsame]
    · have hid : x.id ≠ o.id := fun hid =>
        hsame (AutoTable.eq_of_key_eq (Db.mem_offersOf.1 hx).1 hpair.offer hid)
      simp [hsame, hid]
  unfold Db.audience
  rw [(List.perm_cons_erase hmem).countP_eq, hothers, List.countP_cons, List.countP_cons,
    List.countP_map, List.countP_filter, List.countP_filter]
  congr 1
  · refine List.countP_congr fun x _ => ?_
    simp [and_comm, and_left_comm, and_assoc]
  · simp [hos]

/-! ## Requests with their background tasks -/

/-- The calls whose router lets the worker flush the outbox. -/
def Call.schedulesFlush : Call → Bool
  | .offerCreate _ _ | .offerAccept _ _ | .completeDelivery _ _ | .offerDispute _ _ _ _
  | .proposalDispute _ _ _ _ => true
  | .proposalCreate _ _ | .proposalUpdate _ _ _ | .proposalCancel _ _ | .confirmPayment _
  | .confirmReceived _ _ | .offerCancel _ _ | .resolve _ | .reportCreate _ _ _
  | .reportAccept _ | .reportReject _ | .withdrawUser _ => false

/-- A request to the API, and what the outside world does while its background tasks run. -/
inductive Operation where
  | deal (r : Request) (env : NotificationWorker.Surroundings)
  | account (c : AccountCommand)

/-- The worker finds a reliable world. -/
def Operation.Served : Operation → Prop
  | .deal _ env => env.Reliable
  | .account _ => True

namespace Api

/-- The background tasks of a call. -/
def tasks (call : Call) (env : NotificationWorker.Surroundings) (db : Db) : Db :=
  if call.schedulesFlush then NotificationWorker.run db .flushPending env else db

/-- The endpoint of a call: the tasks run after the response, if there is one. -/
def endpoint (bus : EventBus) (w : World) (r : Request)
    (env : NotificationWorker.Surroundings) : World :=
  match (service bus).read w r with
  | .error _ => w
  | .ok u =>
    match (service bus).commit w r u with
    | .error _ => w
    | .ok w' => { w' with db := tasks r.call env w'.db }

/-- One operation, followed by its background tasks. -/
def step (settings : Settings) (bus : EventBus) (w : World) : Operation → World
  | .deal r env => endpoint bus w r env
  | .account c => { w with db := (c.run settings w.db).1 }

section Endpoint

variable {bus : EventBus} {w : World} {r : Request} {env : NotificationWorker.Surroundings}

theorem endpoint_eq {u : UnitOfWork} {db : Db} (hauth : r.call.authenticate w.db = .ok ())
    (hbody : r.call.body w.db r.now = .ok u) (hcommit : u.commit r.now.flush w.db bus = .ok db) :
    endpoint bus w r env = ⟨tasks r.call env db, ⟨r, u, db⟩ :: w.log⟩ := by
  have hread : (service bus).read w r = .ok u := service_read_eq_ok.2 ⟨hauth, hbody⟩
  have hwrite : (service bus).commit w r u = .ok ⟨db, ⟨r, u, db⟩ :: w.log⟩ :=
    service_commit_eq_ok.2 ⟨db, hcommit, rfl⟩
  simp only [endpoint, hread, hwrite]

/-- A request fails, or is a call that goes through and is followed by its tasks. -/
theorem endpoint_cases (bus : EventBus) (w : World) (r : Request)
    (env : NotificationWorker.Surroundings) : endpoint bus w r env = w ∨
      ∃ u db, r.call.authenticate w.db = .ok () ∧ r.call.body w.db r.now = .ok u ∧
        u.commit r.now.flush w.db bus = .ok db ∧
        endpoint bus w r env = ⟨tasks r.call env db, ⟨r, u, db⟩ :: w.log⟩ := by
  cases hread : (service bus).read w r with
  | error failure => exact Or.inl (by simp only [endpoint, hread])
  | ok u =>
      cases hwrite : (service bus).commit w r u with
      | error failure => exact Or.inl (by simp only [endpoint, hread, hwrite])
      | ok w' =>
          obtain ⟨hauth, hbody⟩ := service_read_eq_ok.1 hread
          obtain ⟨db, hcommit, -⟩ := service_commit_eq_ok.1 hwrite
          exact Or.inr ⟨u, db, hauth, hbody, hcommit, endpoint_eq hauth hbody hcommit⟩

end Endpoint

end Api

/-! ## One request -/

/-- Nothing waits to be sent. -/
def Db.Drained (db : Db) : Prop := ∀ n ∈ db.notifications, n.Attempted

section Commit

variable {w : World} {u : UnitOfWork} {t : DateTime} {db : Db} {bus : EventBus}

theorem pending_of_mem_drafts {k : ℕ} {users : Table User} {n : Notification}
    (h : n ∈ u.drafts bus k users) :
    n.status = .pending ∧ ∃ event, n.data = some (dealData event) := by
  unfold UnitOfWork.drafts at h
  cases he : u.event with
  | none =>
      rw [he] at h
      exact absurd h List.not_mem_nil
  | some event =>
      rw [he] at h
      obtain ⟨hs, hdata⟩ := EventBus.pending_of_mem_drafts h
      exact ⟨hs, _, hdata⟩

/-- The notifications after a commit, if nothing was waiting before it. -/
theorem attempted_or_pending (h : w.db.Drained) (hcommit : u.commit t w.db bus = .ok db) :
    ∀ n ∈ db.notifications,
      n.Attempted ∨ n.status = .pending ∧ ∃ event, n.data = some (dealData event) := by
  intro n hn
  rw [AutoTable.mem_iff, (UnitOfWork.notifications_commit hcommit).1] at hn
  rcases List.mem_append.1 hn with hn | hn
  · exact Or.inl (h n (UnitOfWork.mem_keep.1 hn).1)
  · obtain ⟨i, hi, rfl⟩ := List.mem_mapIdx.1 hn
    have hdraft := pending_of_mem_drafts (List.getElem_mem hi)
    exact Or.inr hdraft

/-- What the handlers have added is what waits to be sent. -/
theorem countP_pending_commit (h : w.db.Drained) (hcommit : u.commit t w.db bus = .ok db) :
    db.notifications.rows.countP (fun n => n.status = .pending) =
      (u.drafts bus w.db.offers.next db.users).length := by
  have hold : (u.write t w.db).notifications.rows.countP (fun n => n.status = .pending) = 0 := by
    refine List.countP_eq_zero.2 fun n hn hpending => ?_
    have hdone := h n (UnitOfWork.mem_keep.1 hn).1
    unfold Notification.Attempted at hdone
    rw [of_decide_eq_true hpending] at hdone
    exact absurd hdone (by decide)
  rw [(UnitOfWork.notifications_commit hcommit).1, List.countP_append, hold, Nat.zero_add]
  refine (List.countP_eq_length.2 fun n hn => ?_).trans List.length_mapIdx
  obtain ⟨i, hi, rfl⟩ := List.mem_mapIdx.1 hn
  have hdraft := pending_of_mem_drafts (List.getElem_mem hi)
  exact decide_eq_true hdraft.1

/-- **What the tasks of a call have to cope with**: with a flush a hundred notifications,
without one none. -/
theorem drained_tasks_iff (h : w.db.Drained) (hcommit : u.commit t w.db bus = .ok db)
    {env : NotificationWorker.Surroundings} (henv : env.Reliable) (call : Call) :
    (Api.tasks call env db).Drained ↔ (u.drafts bus w.db.offers.next db.users).length ≤
      if call.schedulesFlush then 100 else 0 := by
  have hrows := attempted_or_pending h hcommit
  have hcount := countP_pending_commit h hcommit
  unfold Api.tasks
  cases call.schedulesFlush with
  | true =>
      rw [if_pos rfl, if_pos rfl, ← hcount]
      exact attempted_flush_iff henv hrows
  | false =>
      rw [if_neg (by decide), if_neg (by decide), ← hcount, Nat.le_zero, List.countP_eq_zero]
      constructor
      · intro hdone n hn hpending
        have hattempted := hdone n hn
        unfold Notification.Attempted at hattempted
        rw [of_decide_eq_true hpending] at hattempted
        exact absurd hattempted (by decide)
      · intro hnone n hn
        exact (hrows n hn).resolve_right fun hwaits => hnone n hn (decide_eq_true hwaits.1)

end Commit

/-- The call leaves notifications behind: the orderer confirms, and one of the two parties
wants to know; or an acceptance concerns more runners than one flush can serve. -/
def Stranded (w : World) (r : Request) : Prop :=
  r.call.authenticate w.db = .ok () ∧ ∃ p o, w.db.Pair p o ∧
    (r.call = .confirmReceived p.id p.ordererId ∧ p.status = .matched ∧
        o.status ∈ [.accepted, .runnerCompleted] ∧
        (alarmEnabled w.db.users p.ordererId = true ∨ alarmEnabled w.db.users o.runnerId = true) ∨
      r.call = .offerAccept o.id p.ordererId ∧ p.status = .offered ∧ o.status = .waiting ∧
        100 < w.db.audience p.id)

/-- What a call publishes: nothing, or an event for two users at most whose router lets the
worker flush; or it is one of the two other calls. -/
theorem body_events {call : Call} {db : Db} {now : Readings} {u : UnitOfWork}
    (h : call.body db now = .ok u) : (∃ pid uid, call = .confirmReceived pid uid) ∨
      (∃ oid uid, call = .offerAccept oid uid) ∨ u.event = none ∨
      ∃ event, u.event = some event ∧ call.schedulesFlush = true ∧
        ∀ k, (event k).type ≠ .offerAccepted ∧ (event k).type ≠ .meetingConfirmedByOrderer := by
  cases body_publishes h with
  | nothing event => exact Or.inr (Or.inr (Or.inl event))
  | offerCreated hp runner inserted event =>
      exact Or.inr (Or.inr (Or.inr ⟨_, event, rfl, fun _ => ⟨nofun, nofun⟩⟩))
  | offerAccepted hpair work => exact Or.inr (Or.inl ⟨_, _, rfl⟩)
  | runnerConfirmed hpair uid event =>
      exact Or.inr (Or.inr (Or.inr ⟨_, event, rfl, fun _ => ⟨nofun, nofun⟩⟩))
  | ordererConfirmed hpair uid event => exact Or.inl ⟨_, uid, rfl⟩
  | ordererDisputed hpair uid qid reason event =>
      exact Or.inr (Or.inr (Or.inr ⟨_, event, rfl, fun _ => ⟨nofun, nofun⟩⟩))
  | runnerDisputed hpair uid qid reason event =>
      exact Or.inr (Or.inr (Or.inr ⟨_, event, rfl, fun _ => ⟨nofun, nofun⟩⟩))

section Request

variable {w : World} {u : UnitOfWork} {t : DateTime} {db : Db} {p : Proposal} {o : Offer}

/-- What the orderer's confirmation leaves to be sent. -/
theorem drafts_of_receipt (hu : u.users = [])
    (hevent : u.event = some fun _ => .meetingConfirmedByOrderer (.about p o))
    (hcommit : u.commit t w.db EventBus.empty.registerAll = .ok db) (k : ℕ) :
    u.drafts EventBus.empty.registerAll k db.users = [] ↔
      ¬ (alarmEnabled w.db.users p.ordererId = true ∨
        alarmEnabled w.db.users o.runnerId = true) := by
  unfold UnitOfWork.drafts
  rw [hevent]
  show EventBus.drafts _ _ _ = [] ↔ _
  rw [drafts_receipt_eq_nil, alarmEnabled_commit hu hcommit, alarmEnabled_commit hu hcommit]
  rfl

/-- And what an acceptance leaves. -/
theorem drafts_of_acceptance (hu : u.users = []) (hpair : w.db.Pair p o)
    (hos : o.status = .waiting)
    (hevent : u.event = some fun _ => .offerAccepted (.about p o)
      (((w.db.offersOf p.id).filter fun x => x.id ≠ o.id ∧ x.status = .waiting).map (·.runnerId)))
    (hcommit : u.commit t w.db EventBus.empty.registerAll = .ok db) (k : ℕ) :
    (u.drafts EventBus.empty.registerAll k db.users).length = w.db.audience p.id := by
  have halarm : alarmEnabled db.users = alarmEnabled w.db.users :=
    funext fun uid => alarmEnabled_commit hu hcommit uid
  unfold UnitOfWork.drafts
  rw [hevent]
  show (EventBus.drafts _ _ _).length = _
  rw [length_drafts_accepted, halarm, audience_eq hpair hos]
  rfl

variable {r : Request} {env : NotificationWorker.Surroundings}

/-- A request that gets past its guards is followed by its tasks. -/
theorem endpoint_of_body (hauth : r.call.authenticate w.db = .ok ())
    (hbody : r.call.body w.db r.now = .ok u) (ho : u.newOffer = none) (hr : u.newReport = none)
    (env : NotificationWorker.Surroundings) :
    ∃ db, u.commit r.now.flush w.db EventBus.empty.registerAll = .ok db ∧
      (Api.endpoint EventBus.empty.registerAll w r env).db = Api.tasks r.call env db := by
  obtain ⟨db, hcommit, -⟩ := call_of_body EventBus.empty.registerAll hauth hbody ho hr
  exact ⟨db, hcommit, congrArg World.db (Api.endpoint_eq hauth hbody hcommit)⟩

/-- Nobody sends what the orderer's confirmation leaves behind. -/
theorem not_drained_receipt (ht : w.Traced) (h : w.db.Drained) (henv : env.Reliable)
    {now : Readings} (hauth : (Call.confirmReceived p.id p.ordererId).authenticate w.db = .ok ())
    (hpair : w.db.Pair p o) (hps : p.status = .matched)
    (hos : o.status ∈ [.accepted, .runnerCompleted])
    (halarm : alarmEnabled w.db.users p.ordererId = true ∨
      alarmEnabled w.db.users o.runnerId = true) :
    ¬ (Api.endpoint EventBus.empty.registerAll w ⟨.confirmReceived p.id p.ordererId, now⟩
      env).db.Drained := by
  have hexecuted : ∀ s : OfferStatus, s ∈ [.accepted, .runnerCompleted] → Executed s := by
    intro s
    cases s <;> decide
  have hstatuses : ∀ s : OfferStatus, s ∈ [.accepted, .runnerCompleted] →
      s ∈ ProposalService.EXECUTION_OFFER_STATUSES := by
    intro s
    cases s <;> decide
  have hexec := getExecutionOffer_eq ht hpair (hstatuses _ hos)
  obtain ⟨u, hbody⟩ := ProposalService.confirmReceived_of_matched now hpair.proposal hps hexec hos
  have hpublishes := @ProposalService.event_of_confirmReceived _ _ _ _ _ hbody
  obtain ⟨q, x, hpair', hid, -, -, hcases⟩ := ProposalService.confirmReceived_eq_ok hbody
  obtain rfl : q = p := AutoTable.eq_of_key_eq hpair'.proposal hpair.proposal hid
  obtain rfl : x = o := by
    refine ht.executed_eq hpair hpair' (hexecuted _ hos) ?_
    rcases hcases with ⟨hxs, -⟩ | ⟨hxs, -⟩ <;> rw [hxs] <;> decide
  obtain ⟨hu, ho, hr, hevent⟩ : u.users = [] ∧ u.newOffer = none ∧ u.newReport = none ∧
      u.event = some fun _ => .meetingConfirmedByOrderer (.about q x) := by
    rcases hcases with ⟨-, event, rfl⟩ | ⟨-, event, rfl⟩ <;>
    exact ⟨rfl, rfl, rfl, hpublishes rfl rfl⟩
  obtain ⟨db, hcommit, he⟩ := endpoint_of_body (r := ⟨_, now⟩) hauth hbody ho hr env
  rw [he, drained_tasks_iff h hcommit henv]
  intro hlength
  have hnil := List.eq_nil_of_length_eq_zero (Nat.le_zero.1 hlength)
  exact (drafts_of_receipt hu hevent hcommit _).1 hnil halarm

/-- And one flush does not reach everybody an acceptance concerns. -/
theorem not_drained_acceptance (ht : w.Traced) (h : w.db.Drained) (henv : env.Reliable)
    {now : Readings} (hauth : (Call.offerAccept o.id p.ordererId).authenticate w.db = .ok ())
    (hpair : w.db.Pair p o) (hps : p.status = .offered) (hos : o.status = .waiting)
    (hmany : 100 < w.db.audience p.id) :
    ¬ (Api.endpoint EventBus.empty.registerAll w ⟨.offerAccept o.id p.ordererId, now⟩
      env).db.Drained := by
  have hbody := OfferService.accept_eq now hpair hos hps (ht.unmatched hpair.proposal hps)
  obtain ⟨db, hcommit, he⟩ := endpoint_of_body (r := ⟨_, now⟩) hauth hbody rfl rfl env
  rw [he, drained_tasks_iff h hcommit henv,
    drafts_of_acceptance rfl hpair hos rfl hcommit]
  exact not_le.2 hmany

/-- Otherwise the tasks cope with what a call has left to be sent. -/
theorem length_drafts_of_body (hauth : r.call.authenticate w.db = .ok ())
    (hbody : r.call.body w.db r.now = .ok u)
    (hcommit : u.commit r.now.flush w.db EventBus.empty.registerAll = .ok db)
    (hok : ¬ Stranded w r) :
    (u.drafts EventBus.empty.registerAll w.db.offers.next db.users).length ≤
      if r.call.schedulesFlush then 100 else 0 := by
  obtain ⟨call, now⟩ := r
  rcases body_events hbody with ⟨pid, uid, rfl⟩ | ⟨oid, uid, rfl⟩ | hnone | hsome
  · have hpublishes := @ProposalService.event_of_confirmReceived _ _ _ _ _ hbody
    obtain ⟨q, x, hpair, rfl, rfl, hps, hcases⟩ := ProposalService.confirmReceived_eq_ok hbody
    obtain ⟨hu, hxs, hevent⟩ : u.users = [] ∧ x.status ∈ [.accepted, .runnerCompleted] ∧
        u.event = some fun _ => .meetingConfirmedByOrderer (.about q x) := by
      rcases hcases with ⟨hxs, event, rfl⟩ | ⟨hxs, event, rfl⟩ <;>
      exact ⟨rfl, by simp [hxs], hpublishes rfl rfl⟩
    have hnil := (drafts_of_receipt hu hevent hcommit w.db.offers.next).2 fun halarm =>
      hok ⟨hauth, q, x, hpair, Or.inl ⟨rfl, hps, hxs, halarm⟩⟩
    rw [hnil]
    exact Nat.zero_le _
  · obtain ⟨p, o, hpair, hoid, hevent⟩ := OfferService.event_of_accept hbody
    obtain ⟨q, x, hpair', rfl, rfl, hxs, hqs, -, _, hu⟩ := OfferService.accept_eq_ok hbody
    obtain rfl : o = x := AutoTable.eq_of_key_eq hpair.offer hpair'.offer hoid
    obtain rfl : p = q := AutoTable.eq_of_key_eq hpair.proposal hpair'.proposal
      (hpair.proposalId.symm.trans hpair'.proposalId)
    rw [drafts_of_acceptance (by rw [hu]) hpair hxs hevent hcommit]
    by_contra hmany
    exact hok ⟨hauth, p, o, hpair, Or.inr ⟨rfl, hqs, hxs, not_le.1 hmany⟩⟩
  · have hnil : u.drafts EventBus.empty.registerAll w.db.offers.next db.users = [] := by
      unfold UnitOfWork.drafts
      rw [hnone]
    rw [hnil]
    exact Nat.zero_le _
  · obtain ⟨event, hevent, hflush, htype⟩ := hsome
    obtain ⟨haccepted, hreceipt⟩ := htype w.db.offers.next
    rw [if_pos hflush]
    unfold UnitOfWork.drafts
    rw [hevent]
    exact (length_drafts_le haccepted hreceipt).trans (by omega)

/-- **When the tasks of one request send everything.** -/
theorem drained_endpoint_iff (ht : w.Traced) (h : w.db.Drained) (henv : env.Reliable) :
    (Api.endpoint EventBus.empty.registerAll w r env).db.Drained ↔ ¬ Stranded w r := by
  constructor
  · rintro hdrained ⟨hauth, p, o, hpair, ⟨hcall, hps, hos, halarm⟩ | ⟨hcall, hps, hos, hmany⟩⟩
    · obtain ⟨call, now⟩ := r
      obtain rfl : call = _ := hcall
      exact not_drained_receipt ht h henv hauth hpair hps hos halarm hdrained
    · obtain ⟨call, now⟩ := r
      obtain rfl : call = _ := hcall
      exact not_drained_acceptance ht h henv hauth hpair hps hos hmany hdrained
  · intro hok
    rcases Api.endpoint_cases EventBus.empty.registerAll w r env with
      he | ⟨u, db, hauth, hbody, hcommit, he⟩
    · rw [he]
      exact h
    · rw [he]
      exact (drained_tasks_iff h hcommit henv r.call).2
        (length_drafts_of_body hauth hbody hcommit hok)

end Request

/-! ## Whole runs -/

/-- No command outside the four services leaves a notification to be sent. -/
theorem AccountStep.drained {db db' : Db} (hstep : AccountStep db db') (h : db.Drained) :
    db'.Drained := by
  cases hstep with
  | messages f hf =>
      intro n' hn'
      obtain ⟨n, hn, rfl⟩ := AutoTable.mem_map.1 hn'
      rcases (hf n).status with hs | hs
      · show (f n).status ∈ _
        rw [hs]
        exact h n hn
      · exact hs
  | custom user huser hactive n huserId htype hstatus =>
      intro n' hn'
      rcases AutoTable.mem_insert.1 hn' with hn' | rfl
      · exact h n' hn'
      · show n.status ∈ _
        rcases hstatus with hs | hs <;> rw [hs] <;> decide
  | _ => exact h

/-- The background tasks are a run of the worker, if there are any. -/
theorem accountStep_tasks (call : Call) (env : NotificationWorker.Surroundings) (db : Db) :
    AccountStep db (Api.tasks call env db) := by
  unfold Api.tasks
  split
  · exact accountStep_work .flushPending env
  · exact .nothing

theorem traced_endpoint {bus : EventBus} {w : World} (ht : w.Traced) (r : Request)
    (env : NotificationWorker.Surroundings) : (Api.endpoint bus w r env).Traced := by
  rcases Api.endpoint_cases bus w r env with he | ⟨u, db, hauth, hbody, hcommit, he⟩
  · rw [he]
    exact ht
  · have hcall : (service bus).call w r = ⟨db, ⟨r, u, db⟩ :: w.log⟩ :=
      Split.Service.call_eq (service_read_eq_ok.2 ⟨hauth, hbody⟩)
        (service_commit_eq_ok.2 ⟨db, hcommit, rfl⟩)
    have htraced := traced_call bus ht r
    rw [hcall] at htraced
    rw [he]
    exact htraced.command (accountStep_tasks r.call env db).sameDeals

/-- The tasks of an operation can send everything. -/
def Operation.Covered (w : World) : Operation → Prop
  | .deal r _ => ¬ Stranded w r
  | .account _ => True

/-- **When the outbox is always drained.**  In a run of requests, each followed by its
background tasks, no notification is ever left pending precisely if no orderer's confirmation
concerns a user who wants notifications, and no acceptance more than a hundred of them. -/
theorem Api.drained_iff (settings : Settings) (n : ℕ) (m : MasterData) (ops : List Operation)
    (henv : ∀ op ∈ ops, op.Served) :
    Runs.Always (Api.step settings (EventBus.registerAll^[n + 1] .empty)) (fun w => w.db.Drained)
        (World.initial m) ops ↔
      Runs.Along (Api.step settings (EventBus.registerAll^[n + 1] .empty)) Operation.Covered
        (World.initial m) ops := by
  rw [EventBus.registerAll_iterate]
  refine Runs.always_iff_along (I := World.Traced) (A := Operation.Served) ?_ ?_
    (traced_initial m) ?_ henv
  · intro w op ht _
    cases op with
    | deal r env => exact traced_endpoint ht r env
    | account c => exact ht.command (accountStep_run settings w.db c).sameDeals
  · intro w op ht hserved h
    cases op with
    | deal r env => exact drained_endpoint_iff ht h hserved
    | account c => exact iff_of_true ((accountStep_run settings w.db c).drained h) trivial
  · exact fun _ hn => absurd hn List.not_mem_nil

namespace Sample

/-- `json.loads` for the data of a deal: an object of numbers. -/
def loadsNumbers (data : String) : Option (List (String × String)) :=
  let kept := data.toList.filter fun c => c.isAlphanum ∨ c ∈ ['_', ':', ',']
  some (((String.ofList kept).splitOn ",").map fun item =>
    ((item.splitOn ":").headD "", (item.splitOn ":").getLastD ""))

/-- Everything the worker sends arrives. -/
def surroundings : NotificationWorker.Surroundings where
  rank := id
  result := fun _ => .success "message"
  utcnow := fun _ => 90
  loads := loadsNumbers

theorem reliable_surroundings : surroundings.Reliable where
  fcm := fun _ => nofun
  json := fun _ => ⟨_, rfl⟩

/-- Requests with their background tasks. -/
def operations (rs : List Request) : List Operation := rs.map (.deal · surroundings)

theorem served_operations (rs : List Request) : ∀ op ∈ operations rs, op.Served := by
  intro op hop
  obtain ⟨r, -, rfl⟩ := List.mem_map.1 hop
  exact reliable_surroundings

end Sample

theorem Api.drained_iff_offered :
    Runs.Always (Api.step .sample (EventBus.registerAll^[0 + 1] .empty)) (fun w => w.db.Drained)
        (World.initial Sample.master) (Sample.operations Sample.offered) ↔
      Runs.Along (Api.step .sample (EventBus.registerAll^[0 + 1] .empty)) Operation.Covered
        (World.initial Sample.master) (Sample.operations Sample.offered) :=
  Api.drained_iff .sample 0 Sample.master (Sample.operations Sample.offered)
    (Sample.served_operations Sample.offered)

/-- Nobody sends what the orderer's confirmation leaves in the outbox. -/
theorem Api.not_drained_received :
    (∀ op ∈ Sample.operations Sample.received, op.Served) ∧
    ¬ Runs.Always (Api.step .sample (EventBus.registerAll^[0 + 1] .empty))
      (fun w => w.db.Drained) (World.initial Sample.master)
      (Sample.operations Sample.received) := by
  refine ⟨Sample.served_operations _, fun h => ?_⟩
  have hdrained := Runs.always_iff.1 h (Sample.operations (Sample.received.take 6))
    (Sample.operations (Sample.received.drop 6)) rfl
  have hpending : ∃ n ∈ (Runs.run (Api.step .sample (EventBus.registerAll^[0 + 1] .empty))
      (World.initial Sample.master)
      (Sample.operations (Sample.received.take 6))).db.notifications.rows,
      n.status = .pending := by
    decide +kernel
  obtain ⟨n, hn, hs⟩ := hpending
  have hattempted := hdrained n hn
  unfold Notification.Attempted at hattempted
  rw [hs] at hattempted
  exact absurd hattempted (by decide)

end OrderRun
