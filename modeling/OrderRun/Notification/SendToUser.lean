import OrderRun.Accounts.Profile
import OrderRun.Notification.Reading
import OrderRun.Services.Call

/-!
# The first attempt and the later ones

`FCMService.send_to_user` writes a notification and sends it at once; when that fails, the worker
sends it again from what the row says.

* `sendToUser` — the first attempt, with the call it makes.
* `NotificationWorker.call` — the call of a later attempt; `sendOne_call`.
* `Outbox.Keeps`, `keeps_step` — nothing that happens in between changes the message.
* `retry_agrees_iff` — both calls say the same exactly if there are no extra data, since either
  encoder has a prefix of its own.
-/

namespace OrderRun

open Store

/-! ## The first attempt -/

/-- What `send_to_user` is given besides the user; `data` are the items of a dictionary. -/
structure SendRequest (V : Type) where
  notificationType : NotificationType
  title : String
  body : String
  data : Option (List (String × V))
  relatedEntityType : Option String
  relatedEntityId : Option ℤ

/-- How the values of a dictionary become text: `json.dumps`, and `str`. -/
structure Encoders (V : Type) where
  dumps : List (String × V) → String
  str : V → String

/-- What an attempt leaves: the committed database, the notification, and the call of
`send_notification` if one was made. -/
structure Attempt where
  db : Db
  notification : Notification
  call : Option FCMMessage

/-- What a call says about the entity of a notification. -/
def entityData (relatedEntityType : Option String) (relatedEntityId : Option ℤ) :
    List (String × String) :=
  (match relatedEntityType with
    | none | some "" => []
    | some entityType => [("related_entity_type", entityType)]) ++
  match relatedEntityId with
    | none | some 0 => []
    | some entityId => [("related_entity_id", toString entityId)]

namespace FCMService

variable {V : Type}

/-- `json.dumps(data) if data else None`. -/
def storedData (enc : Encoders V) : Option (List (String × V)) → Option String
  | none | some [] => none
  | some data => some (enc.dumps data)

def fcmData (enc : Encoders V) (request : SendRequest V) (id : ℕ) : List (String × String) :=
  [("notification_id", toString id), ("notification_type", request.notificationType.value)] ++
    entityData request.relatedEntityType request.relatedEntityId ++
    (request.data.getD []).map fun kv => ("data_" ++ kv.1, enc.str kv.2)

/-- The new notification. -/
def draft (enc : Encoders V) (userId : UserId) (request : SendRequest V) (id : ℕ)
    (createdAt : DateTime) : Notification where
  id := id
  userId := userId
  notificationType := request.notificationType
  title := request.title
  body := request.body
  data := storedData enc request.data
  relatedEntityType := request.relatedEntityType
  relatedEntityId := request.relatedEntityId
  status := .pending
  fcmMessageId := none
  errorMessage := none
  createdAt := createdAt
  sentAt := none
  deliveredAt := none
  readAt := none
  retryCount := 0

/-- The row is written with the result of the attempt; nothing is committed if an exception
escapes. -/
def sendToUser (enc : Encoders V) (db : Db) (userId : UserId) (request : SendRequest V)
    (result : FCMSendResult) (createdAt sentAt : DateTime) : Option Attempt :=
  let notification := draft enc userId request db.notifications.next createdAt
  let commit (n : Notification) (call : Option FCMMessage) : Attempt :=
    { db := { db with
        notifications := db.notifications.insert (fun k => { n with id := k })
          (NotificationService.key_stamped n) }
      notification := n
      call }
  match NotificationWorker.getToken db userId with
  | none => some (commit { notification with
      status := .failed, errorMessage := some "No FCM token registered" } none)
  | some token =>
    let call : FCMMessage :=
      ⟨token, request.title, request.body, fcmData enc request notification.id⟩
    match result with
    | .raised => none
    | .failure errorMessage => some (commit { notification with
        status := .failed, errorMessage := some errorMessage } (some call))
    | .success messageId => some (commit { notification with
        status := .sent, sentAt := some sentAt, fcmMessageId := some messageId } (some call))

/-- An attempt that fails. -/
theorem sendToUser_failure (enc : Encoders V) {db : Db} {userId : UserId} {token : String}
    (htoken : NotificationWorker.getToken db userId = some token) (request : SendRequest V)
    (errorMessage : String) (createdAt sentAt : DateTime) :
    ∃ n : Notification, n.id = db.notifications.next ∧
      n = { draft enc userId request db.notifications.next createdAt with
        status := .failed, errorMessage := some errorMessage } ∧
      sendToUser enc db userId request (.failure errorMessage) createdAt sentAt = some {
        db := { db with
          notifications := db.notifications.insert (fun k => { n with id := k })
            (NotificationService.key_stamped n) }
        notification := n
        call := some ⟨token, request.title, request.body,
          fcmData enc request db.notifications.next⟩ } := by
  refine ⟨_, rfl, rfl, ?_⟩
  unfold sendToUser
  rw [htoken]
  rfl

end FCMService

/-- A custom notification is sent like any other. -/
theorem sendCustomNotification_eq {V : Type} (enc : Encoders V) (db : Db) (userId : UserId)
    (request : SendRequest V) (htype : request.notificationType = .custom)
    (result : FCMSendResult) (createdAt sentAt : DateTime) :
    NotificationService.sendCustomNotification db userId
        { title := request.title
          body := request.body
          data := FCMService.storedData enc request.data
          relatedEntityType := request.relatedEntityType
          relatedEntityId := request.relatedEntityId } result createdAt sentAt =
      (FCMService.sendToUser enc db userId request result createdAt sentAt).map Attempt.db := by
  unfold NotificationService.sendCustomNotification FCMService.sendToUser
    NotificationWorker.getToken FCMService.draft
  rw [htype]
  cases db.fcmTokens.rows.find? (fun token => token.userId = userId) with
  | none => rfl
  | some token => cases result <;> rfl

/-! ## The later attempts -/

/-- The call of `send_notification` in a turn of the worker, if it comes to one. -/
def NotificationWorker.call (loads : String → Option (List (String × String))) (n : Notification)
    (token : Option String) : Option FCMMessage :=
  match token with
  | none | some "" => none
  | some token => (messageData loads n).map (⟨token, n.title, n.body, ·⟩)

theorem call_of_token {loads : String → Option (List (String × String))} {n : Notification}
    {token : String} (hne : token ≠ "") : NotificationWorker.call loads n (some token) =
      (messageData loads n).map (⟨token, n.title, n.body, ·⟩) := by
  unfold NotificationWorker.call
  split
  · next h => exact absurd h (by simp)
  · next h => exact absurd (Option.some.inj h) hne
  · next h => rw [Option.some.inj h]

/-- What FCM has accepted in a turn is the call of the turn. -/
theorem sendOne_call {loads : String → Option (List (String × String))} {n n' : Notification}
    {token : Option String} {result : FCMSendResult} {utcnow : DateTime} {m : FCMMessage}
    (h : sendOne loads n token result utcnow = some (n', some m)) :
    NotificationWorker.call loads n token = some m := by
  unfold sendOne at h
  cases hdata : messageData loads n with
  | none => simp [hdata] at h
  | some data =>
      rw [hdata] at h
      split at h
      · simp at h
      · next data' heq =>
          obtain rfl := Option.some.inj heq
          split at h
          · simp at h
          · simp at h
          · next hne =>
              split at h
              · simp at h
              · simp at h
              · simp only [Option.some.injEq, Prod.mk.injEq] at h
                rw [call_of_token hne, hdata]
                exact congrArg some h.2

/-- The columns that make up the message. -/
def Notification.message (n : Notification) : Notification :=
  { n with
    status := .pending
    fcmMessageId := none
    errorMessage := none
    sentAt := none
    deliveredAt := none
    readAt := none
    retryCount := 0 }

/-- Every copy of a notification has the message it was created with. -/
structure Outbox.Keeps (s : Outbox) (c : Notification) : Prop where
  known : c.id < s.rows.next
  rows : ∀ n ∈ s.rows, n.id = c.id → n.message = c.message
  loaded : ∀ run b, s.runs run = some b → ∀ n ∈ b.rest, n.id = c.id → n.message = c.message

section Step

variable {s : Outbox} {c : Notification}

theorem message_markRead (userId : UserId) (ids : List ℕ) (utcnow : DateTime) (n : Notification) :
    (n.markRead userId ids utcnow).message = n.message := by
  unfold Notification.markRead
  split <;> rfl

theorem message_writeBack (changes : List (Change Notification)) (n : Notification) :
    (writeBack Notification.flush changes n).message = n.message :=
  writeBack_induction (P := fun r : Notification => r.message = n.message) rfl fun _ _ _ => rfl

/-- A new notification. -/
theorem keeps_enqueue (h : s.Sound) (n : Notification) :
    (s.enqueue n).Keeps { n with id := s.rows.next } where
  known := Nat.lt_succ_self _
  rows := by
    intro m hm hid
    rcases AutoTable.mem_insert.1 hm with hm | rfl
    · exact absurd hid (AutoTable.lt_next hm).ne
    · rfl
  loaded := by
    intro run b hrun m hm hid
    exact absurd hid ((h run b hrun).known m.id (Batch.mem_ids_of_rest hm)).ne

/-- A change of the rows that leaves the messages alone. -/
theorem Outbox.Keeps.map (h : s.Keeps c) {f : Notification → Notification}
    {hf : ∀ n, (f n).id = n.id} (hmessage : ∀ n, (f n).message = n.message) :
    ({ s with rows := s.rows.map f hf } : Outbox).Keeps c where
  known := h.known
  rows := by
    intro m hm hid
    obtain ⟨n, hn, rfl⟩ := AutoTable.mem_map.1 hm
    rw [hmessage]
    exact h.rows n hn ((hf n).symm.trans hid)
  loaded := h.loaded

/-- A run starts, goes on or ends. -/
theorem Outbox.Keeps.setRun (h : s.Keeps c) {run : ℕ} {b : Option Batch}
    (hb : ∀ b', b = some b' → ∀ n ∈ b'.rest, n.id = c.id → n.message = c.message) :
    (s.setRun run b).Keeps c where
  known := h.known
  rows := h.rows
  loaded := by
    intro k b' hk
    rcases Outbox.runs_setRun_cases hk with ⟨-, hb'⟩ | ⟨-, hk⟩
    · exact hb b' hb'
    · exact h.loaded k b' hk

/-- **No step changes a message.** -/
theorem keeps_step (loads : String → Option (List (String × String))) (h : s.Keeps c)
    (e : WorkerEvent) : (workerStep loads s e).Keeps c := by
  cases e with
  | enqueue n =>
      refine ⟨h.known.trans (Nat.lt_succ_self _), fun m hm hid => ?_, h.loaded⟩
      rcases AutoTable.mem_insert.1 hm with hm | rfl
      · exact h.rows m hm hid
      · exact absurd hid h.known.ne'
  | markRead userId ids utcnow => exact h.map (message_markRead userId ids utcnow)
  | select run job rank =>
      rcases select_cases loads s run job rank with he | ⟨-, he⟩
      · rw [he]
        exact h
      · rw [he]
        refine h.setRun fun b hb n hn => h.rows n ?_
        obtain rfl := Option.some.inj hb
        exact (mem_selectBatch hn).1
  | send run token result utcnow =>
      rcases send_cases loads s run token result utcnow with
        he | ⟨done, n, rest, hrun, ⟨-, he⟩ | ⟨n', message, -, he⟩⟩
      · rw [he]
        exact h
      · rw [he]
        exact h.setRun fun b hb => absurd hb (by simp)
      · rw [he]
        have hnext : (s.setRun run (some ⟨done ++ [⟨n, n'⟩], rest⟩)).Keeps c := by
          refine h.setRun fun b hb m hm => h.loaded run _ hrun m (List.mem_cons_of_mem n ?_)
          obtain rfl := Option.some.inj hb
          exact hm
        exact ⟨hnext.known, hnext.rows, hnext.loaded⟩
  | commit run goesThrough =>
      rcases commit_cases loads s run goesThrough with he | ⟨done, -, ⟨-, he⟩ | ⟨-, he⟩⟩
      · rw [he]
        exact h
      · rw [he]
        exact (h.setRun fun b hb => absurd hb (by simp)).map (message_writeBack done)
      · rw [he]
        exact h.setRun fun b hb => absurd hb (by simp)

end Step

/-! ## Two encoders -/

/-- The same call, its data read as a dictionary. -/
structure FCMMessage.Agrees (m m' : FCMMessage) : Prop where
  token : m'.token = m.token
  title : m'.title = m.title
  body : m'.body = m.body
  data : ∀ key, m'.data.lookup key = m.data.lookup key

section Encoders

variable {V : Type} {enc : Encoders V} {loads : String → Option (List (String × String))}
  {request : SendRequest V}

/-- The items that a later attempt reads from the row. -/
def extraItems (loads : String → Option (List (String × String))) (n : Notification) :
    Option (List (String × String)) :=
  match n.data with
  | none | some "" => some []
  | some data => loads data

/-- What both attempts say. -/
def commonData (n : Notification) : List (String × String) :=
  [("notification_id", toString n.id), ("notification_type", n.notificationType.value)] ++
    entityData n.relatedEntityType n.relatedEntityId

theorem extraItems_of_data {n : Notification} {data : String} (h : n.data = some data)
    (hne : data ≠ "") : extraItems loads n = loads data := by
  unfold extraItems
  rw [h]
  split
  · next heq => exact absurd heq (by simp)
  · next heq => exact absurd (Option.some.inj heq) hne
  · next heq => rw [Option.some.inj heq]

theorem messageData_eq (loads : String → Option (List (String × String))) (n : Notification) :
    messageData loads n = (extraItems loads n).map fun extra =>
      commonData n ++ extra.map fun kv => ("extra_" ++ kv.1, kv.2) := by
  unfold messageData commonData entityData
  simp only [← List.append_assoc]
  split
  · next hdata =>
      rw [extraItems, hdata]
      rfl
  · next hdata =>
      rw [extraItems, hdata]
      rfl
  · next data hne hdata =>
      rw [extraItems_of_data hdata hne, Option.map_eq_bind]
      rfl

theorem mem_common {n : Notification} {kv : String × String} (h : kv ∈ commonData n) :
    kv.1 ∈ ["notification_id", "notification_type", "related_entity_type",
      "related_entity_id"] := by
  have hentity : kv ∈ entityData n.relatedEntityType n.relatedEntityId →
      kv.1 = "related_entity_type" ∨ kv.1 = "related_entity_id" := by
    intro hkv
    rcases List.mem_append.1 hkv with hkv | hkv
    · split at hkv
      · exact absurd hkv List.not_mem_nil
      · exact absurd hkv List.not_mem_nil
      · exact Or.inl (congrArg Prod.fst (List.mem_singleton.1 hkv))
    · split at hkv
      · exact absurd hkv List.not_mem_nil
      · exact absurd hkv List.not_mem_nil
      · exact Or.inr (congrArg Prod.fst (List.mem_singleton.1 hkv))
  rcases List.mem_append.1 h with h | h
  · rcases List.mem_cons.1 h with rfl | h
    · simp
    · obtain rfl := List.mem_singleton.1 h
      simp
  · rcases hentity h with hkey | hkey <;> rw [hkey] <;> simp

theorem ne_of_head {a b : String} (h : a.toList.head? ≠ b.toList.head?) : a ≠ b :=
  fun hab => h (by rw [hab])

/-- A key of the first attempt is no key of the later ones. -/
theorem lookup_data {n : Notification} {data : List (String × String)}
    (h : messageData loads n = some data) (key : String) : data.lookup ("data_" ++ key) = none := by
  have hhead : ("data_" ++ key).toList.head? = some 'd' := by
    rw [String.toList_append]
    rfl
  rw [messageData_eq] at h
  obtain ⟨extra, -, rfl⟩ := Option.map_eq_some_iff.1 h
  rw [List.lookup_eq_none_iff]
  intro kv hkv
  rw [bne_iff_ne]
  refine ne_of_head ?_
  rw [hhead]
  rcases List.mem_append.1 hkv with hkv | hkv
  · have hkeys : ∀ k ∈ ["notification_id", "notification_type", "related_entity_type",
        "related_entity_id"], some 'd' ≠ k.toList.head? := by decide
    exact hkeys kv.1 (mem_common hkv)
  · obtain ⟨item, -, rfl⟩ := List.mem_map.1 hkv
    rw [String.toList_append]
    simp

/-- **When both attempts give FCM the same data.** -/
theorem sameData_iff {n : Notification} {data : List (String × String)}
    (hdata : messageData loads n = some data) (id : ℕ) (hid : n.id = id)
    (htype : n.notificationType = request.notificationType)
    (hstored : n.data = FCMService.storedData enc request.data)
    (hentity : n.relatedEntityType = request.relatedEntityType)
    (hentityId : n.relatedEntityId = request.relatedEntityId) :
    (∀ key, data.lookup key = (FCMService.fcmData enc request id).lookup key) ↔
      request.data = none ∨ request.data = some [] := by
  have hcommon : FCMService.fcmData enc request id = commonData n ++
      (request.data.getD []).map fun kv => ("data_" ++ kv.1, enc.str kv.2) := by
    unfold FCMService.fcmData commonData
    rw [hid, htype, hentity, hentityId]
  constructor
  · intro hsame
    cases hitems : request.data with
    | none => exact Or.inl rfl
    | some items =>
        cases items with
        | nil => exact Or.inr rfl
        | cons kv items =>
            have hfirst := hsame ("data_" ++ kv.1)
            rw [lookup_data hdata, hcommon, hitems] at hfirst
            have hother := List.lookup_eq_none_iff.1 hfirst.symm ("data_" ++ kv.1, enc.str kv.2)
              (List.mem_append_right _ List.mem_cons_self)
            exact absurd rfl (bne_iff_ne.1 hother)
  · intro hempty key
    have hnone : n.data = none := by
      rw [hstored]
      rcases hempty with h | h <;> rw [h] <;> rfl
    have hitems : request.data.getD [] = [] := by
      rcases hempty with h | h <;> rw [h] <;> rfl
    rw [messageData_eq, extraItems, hnone] at hdata
    rw [hcommon, hitems, ← Option.some.inj hdata]
    rfl

/-- What has been stored can be read again. -/
theorem exists_messageData {n : Notification}
    (hstored : n.data = FCMService.storedData enc request.data)
    (hloads : ∀ data, request.data = some data →
      loads (enc.dumps data) = some (data.map fun kv => (kv.1, enc.str kv.2))) :
    ∃ data, messageData loads n = some data := by
  have hextra : ∃ extra, extraItems loads n = some extra := by
    cases hdata : n.data with
    | none => exact ⟨[], by rw [extraItems, hdata]⟩
    | some text =>
        by_cases hempty : text = ""
        · subst hempty
          exact ⟨[], by rw [extraItems, hdata]; rfl⟩
        · rw [extraItems_of_data hdata hempty]
          rw [hdata] at hstored
          unfold FCMService.storedData at hstored
          split at hstored
          · exact absurd hstored (by simp)
          · exact absurd hstored (by simp)
          · next data _ hitems =>
              rw [Option.some.inj hstored]
              exact ⟨_, hloads data hitems⟩
  obtain ⟨extra, hextra⟩ := hextra
  rw [messageData_eq, hextra]
  exact ⟨_, rfl⟩

end Encoders

/-- **When a later attempt sends the same message.**  An attempt fails after any interleaving of
runs; whatever happens then, the call that a run makes for the notification agrees with the first
one exactly if there were no data, or empty ones. -/
theorem retry_agrees_iff {V : Type} (enc : Encoders V)
    (loads : String → Option (List (String × String))) (rows : AutoTable Notification)
    (before : List WorkerEvent) {db : Db}
    (hdb : db.notifications =
      (Runs.run (workerStep loads) (Outbox.quiet rows) before).rows)
    {userId : UserId} {token : String} (htoken : NotificationWorker.getToken db userId = some token)
    (hne : token ≠ "") (request : SendRequest V)
    (hloads : ∀ data, request.data = some data →
      loads (enc.dumps data) = some (data.map fun kv => (kv.1, enc.str kv.2)))
    (errorMessage : String) (createdAt sentAt : DateTime) :
    ∃ a m, FCMService.sendToUser enc db userId request (.failure errorMessage) createdAt sentAt =
        some a ∧ a.call = some m ∧
      a.db.notifications = ((Runs.run (workerStep loads) (Outbox.quiet rows) before).enqueue
        a.notification).rows ∧
      ∀ after run done n rest,
        (Runs.run (workerStep loads) ((Runs.run (workerStep loads) (Outbox.quiet rows)
          before).enqueue a.notification) after).runs run = some ⟨done, n :: rest⟩ →
        n.id = a.notification.id →
          ((∃ m', NotificationWorker.call loads n (some token) = some m' ∧ m.Agrees m') ↔
            request.data = none ∨ request.data = some []) := by
  have hsound : (Runs.run (workerStep loads) (Outbox.quiet rows) before).Sound :=
    Runs.inv_run (I := Outbox.Sound) (fun _ e h => sound_step loads h e) (sound_quiet rows) before
  generalize Runs.run (workerStep loads) (Outbox.quiet rows) before = s at hdb hsound ⊢
  obtain ⟨c, hcid, hc, hsend⟩ :=
    FCMService.sendToUser_failure enc htoken request errorMessage createdAt sentAt
  refine ⟨_, _, hsend, rfl, ?_, ?_⟩
  · exact congrArg (fun t : AutoTable Notification => t.insert (fun k => { c with id := k })
      (NotificationService.key_stamped c)) hdb
  intro after run done n rest hrun hid
  have hkeeps : (Runs.run (workerStep loads) (s.enqueue c) after).Keeps
      { c with id := s.rows.next } :=
    Runs.inv_run (I := fun t : Outbox => t.Keeps _) (fun _ e h => keeps_step loads h e)
      (keeps_enqueue hsound c) after
  have hnext : n.id = db.notifications.next := hid.trans hcid
  have hcopy := hkeeps.loaded run _ hrun n List.mem_cons_self (hnext.trans (by rw [hdb]))
  have hmessage : n.message = { c.message with id := s.rows.next } := hcopy
  rw [hc] at hmessage
  have hstored : n.data = FCMService.storedData enc request.data :=
    congrArg Notification.data hmessage
  obtain ⟨data, hdata⟩ := exists_messageData hstored hloads
  rw [call_of_token hne, hdata, Option.map_some]
  have hsame := sameData_iff hdata db.notifications.next hnext
    (congrArg Notification.notificationType hmessage) hstored
    (congrArg Notification.relatedEntityType hmessage)
    (congrArg Notification.relatedEntityId hmessage)
  rw [← hsame]
  constructor
  · rintro ⟨m', hm', hagrees⟩
    obtain rfl := Option.some.inj hm'
    exact hagrees.data
  · intro hdata
    exact ⟨_, rfl, rfl, congrArg Notification.title hmessage, congrArg Notification.body hmessage,
      hdata⟩

namespace Sample

/-- `json.dumps` for texts without special characters, and `str`. -/
def textEncoders : Encoders String where
  dumps data := "\x7b" ++ ", ".intercalate
    (data.map fun kv => "\"" ++ kv.1 ++ "\": \"" ++ kv.2 ++ "\"") ++ "\x7d"
  str := id

/-- What `json.loads` makes of the only text there is. -/
def loadsText (_ : String) : Option (List (String × String)) := some [("place", "gate")]

/-- The runner has a token. -/
def withToken : Db :=
  { (World.initial master).db with
    fcmTokens := AutoTable.empty.insert fun k => ⟨k, "runner", "token"⟩ }

def custom : SendRequest String where
  notificationType := .custom
  title := "hello"
  body := "see you there"
  data := some [("place", "gate")]
  relatedEntityType := none
  relatedEntityId := none

end Sample

/-- FCM is first told `data_place`, and later `extra_place`. -/
theorem retry_disagrees : ∃ a m n m',
    FCMService.sendToUser Sample.textEncoders Sample.withToken "runner" Sample.custom
      (.failure "unavailable") 10 11 = some a ∧ a.call = some m ∧
    (Runs.run (workerStep Sample.loadsText) ((Outbox.quiet AutoTable.empty).enqueue
      a.notification) [.select 0 .retryFailed id]).runs 0 = some ⟨[], [n]⟩ ∧
    n.id = a.notification.id ∧
    NotificationWorker.call Sample.loadsText n (some "token") = some m' ∧ ¬ m.Agrees m' := by
  refine ⟨_, _, _, _, rfl, rfl, rfl, rfl, rfl, fun h => ?_⟩
  refine absurd (h.data "extra_place") ?_
  decide +kernel

theorem retry_agrees_iff_custom : ∃ a m,
    FCMService.sendToUser Sample.textEncoders Sample.withToken "runner" Sample.custom
      (.failure "unavailable") 10 11 = some a ∧ a.call = some m ∧
    a.db.notifications = ((Runs.run (workerStep Sample.loadsText) (Outbox.quiet AutoTable.empty)
      []).enqueue a.notification).rows ∧
    ∀ after run done n rest, (Runs.run (workerStep Sample.loadsText)
        ((Runs.run (workerStep Sample.loadsText) (Outbox.quiet AutoTable.empty) []).enqueue
          a.notification) after).runs run = some ⟨done, n :: rest⟩ →
      n.id = a.notification.id →
        ((∃ m', NotificationWorker.call Sample.loadsText n (some "token") = some m' ∧
            m.Agrees m') ↔ Sample.custom.data = none ∨ Sample.custom.data = some []) :=
  retry_agrees_iff Sample.textEncoders Sample.loadsText AutoTable.empty [] rfl (by decide +kernel)
    (by decide) Sample.custom (fun _ h => by rw [← Option.some.inj h]; rfl) "unavailable" 10 11

end OrderRun
