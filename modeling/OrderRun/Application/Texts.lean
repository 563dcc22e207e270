import OrderRun.Application.Requests
import OrderRun.Application.Tokens
import OrderRun.Concurrent.Payment

/-!
# Texts fit their columns

A text that has got through its schema is stripped, normalised, copied from a verification
record to a user, or merged with what another call has written, before it is in a column.
MySQL refuses a row with a text that is too long, and the client gets a 500.  This file proves
that no such row is ever written.

* `Db.Fits` — all texts fit, and what must not be blank is not.
* `fits_run` — every command outside the four services keeps this.
* `fits_commit` — and so does every commit, whatever has been written since its read.
* `texts_fit` — it holds in every state, whatever calls and commands overlap.
-/

namespace OrderRun

open Store Split PhoneVerificationService UserAuthService

/-! ## The columns -/

structure ProposalRequest.Fits (terms : ProposalRequest) : Prop where
  title : IsText 50 terms.title
  content : IsText 500 terms.content

structure Proposal.Fits (p : Proposal) : Prop where
  terms : p.terms.Fits
  errandFee : 1000 ≤ p.errandFee

/-- An active user has a name. -/
structure User.Fits (u : User) : Prop where
  name : ∀ name ∈ u.name, IsText 100 name
  phone : ∀ phone ∈ u.phone, phone.length ≤ 20
  named : u.deleted = false → u.name ≠ none

/-- A record for a signup has the name of the new user. -/
structure AuthPhoneVerification.Fits (v : AuthPhoneVerification) : Prop where
  phone : v.phone.length ≤ 20
  name : ∀ name ∈ v.name, IsText 100 name
  carrier : ∀ carrier ∈ v.carrier, IsText 50 carrier
  named : v.purpose = .signup → v.name ≠ none

structure Notification.Fits (n : Notification) : Prop where
  title : n.title.length ≤ 255
  relatedEntityType : ∀ t ∈ n.relatedEntityType, t.length ≤ 50

/-- All texts that come from requests fit their columns. -/
structure Db.Fits (db : Db) : Prop where
  users : ∀ u ∈ db.users, u.Fits
  proposals : ∀ p ∈ db.proposals, p.Fits
  reports : ∀ r ∈ db.reports, ∀ reason ∈ r.detailReason, IsText 500 reason
  notifications : ∀ n ∈ db.notifications, n.Fits
  verifications : ∀ v ∈ db.verifications, v.Fits
  fcmTokens : ∀ t ∈ db.fcmTokens, IsText 4096 t.fcmToken

section Payloads

theorem ProposalRequest.fits_ofBody {title content : String} {deadline : Stamp} {errandFee : ℤ}
    {request : ProposalRequest} (h : ofBody title content deadline errandFee = .ok request) :
    request.Fits := by
  simp only [ofBody, bind_eq_ok, pure_eq_ok] at h
  obtain ⟨title', htitle, content', hcontent, deadline', -, rfl⟩ := h
  exact ⟨isText_of_validateNotBlank htitle, isText_of_validateNotBlank hcontent⟩

theorem ProposalReportCreateRequest.isText_ofBody {reasonQuestionId : ℕ}
    {detailReason : Option String} {request : ProposalReportCreateRequest}
    (h : ofBody reasonQuestionId detailReason = .ok request) :
    ∀ reason ∈ request.detailReason, IsText 500 reason := by
  simp only [ofBody, bind_eq_ok, pure_eq_ok] at h
  obtain ⟨-, -, detailReason', hreason, rfl⟩ := h
  intro reason hmem
  obtain ⟨value, hvalue⟩ := optionalField_eq_ok hreason hmem
  exact isText_of_validateNotBlank hvalue

/-- The country code goes, and a zero comes. -/
theorem length_normalizePhone_le (phone : String) :
    (normalizePhone phone).length ≤ phone.length := by
  rw [← String.length_toList, toList_normalizePhone]
  calc (domestic (digits phone)).length
      ≤ (digits phone).length := length_domestic_le _
    _ ≤ (strip phone).toList.length := List.length_filter_le _ _
    _ = (strip phone).length := String.length_toList
    _ ≤ phone.length := length_strip_le phone

theorem length_phoneField {value phone : String} (h : phoneField value = .ok phone) :
    (normalizePhone phone).length ≤ 20 :=
  (length_normalizePhone_le phone).trans (isText_of_stripText h).1.length_le

theorem fits_newRecord {settings : Settings} {purpose : PhoneVerificationPurpose}
    {phone code : String} {name carrier : Option String} {now : DateTime}
    (hphone : phone.length ≤ 20) (hname : ∀ n ∈ name, IsText 100 n)
    (hcarrier : ∀ c ∈ carrier, IsText 50 c) (hnamed : purpose = .signup → name ≠ none) :
    (newRecord settings purpose phone code name carrier now).Fits :=
  ⟨hphone, hname, hcarrier, hnamed⟩

/-- The record of a signup that has been sent. -/
theorem AuthSignupSendRequest.fits_record {name phone carrier : String}
    {payload : AuthSignupSendRequest} (h : ofBody name phone carrier = .ok payload)
    (settings : Settings) (code : String) (now : DateTime) :
    (newRecord settings .signup (normalizePhone payload.phone) code (some (strip payload.name))
      (some (strip payload.carrier)) now).Fits := by
  simp only [ofBody, bind_eq_ok, pure_eq_ok] at h
  obtain ⟨name', hname, phone', hphone, carrier', hcarrier, rfl⟩ := h
  obtain ⟨hname, hstripped⟩ := isText_of_stripText hname
  obtain ⟨hcarrier, hstripped'⟩ := isText_of_stripText hcarrier
  have hlength := length_phoneField hphone
  dsimp only
  rw [hstripped, hstripped']
  exact fits_newRecord hlength (by simpa using hname) (by simpa using hcarrier) (by simp)

/-- The record of a login that has been sent. -/
theorem AuthLoginSendRequest.fits_record {phone : String} {payload : AuthLoginSendRequest}
    (h : ofBody phone = .ok payload) (settings : Settings) (code : String) (now : DateTime) :
    (newRecord settings .login (normalizePhone payload.phone) code none none now).Fits := by
  simp only [ofBody, bind_eq_ok, pure_eq_ok] at h
  obtain ⟨phone', hphone, rfl⟩ := h
  have hlength := length_phoneField hphone
  dsimp only
  exact fits_newRecord hlength (by simp) (by simp) (by simp)

theorem NotificationSendRequest.fits_ofBody {title body : String}
    {data relatedEntityType : Option String} {relatedEntityId : Option ℤ}
    {request : NotificationSendRequest}
    (h : ofBody title body data relatedEntityType relatedEntityId = .ok request) :
    request.title.length ≤ 255 ∧ ∀ t ∈ request.relatedEntityType, t.length ≤ 50 := by
  simp only [ofBody, bind_eq_ok, pure_eq_ok] at h
  obtain ⟨title', htitle, -, -, relatedEntityType', htype, rfl⟩ := h
  refine ⟨length_of_textField htitle, fun t ht => ?_⟩
  obtain ⟨value, hvalue⟩ := optionalField_eq_ok htype ht
  exact length_of_textField hvalue

end Payloads

/-! ## Commands outside the four services -/

section Commands

variable {settings : Settings} {db db' : Db}

/-- Examining a record writes none of its texts. -/
theorem fits_write (c : Change AuthPhoneVerification) {v : AuthPhoneVerification} (h : v.Fits) :
    (AuthPhoneVerification.write c v).Fits :=
  writeBack_induction (P := AuthPhoneVerification.Fits) h
    fun _ _ _ => ⟨h.phone, h.name, h.carrier, h.named⟩

theorem fits_noted (h : db.Fits) (x : Examined) : (noted db x).Fits :=
  { h with
    verifications := by
      intro v' hv'
      obtain ⟨v, hv, rfl⟩ := AutoTable.mem_map.1 hv'
      exact fits_write x.change (h.verifications v hv) }

theorem fits_updateUser (h : db.Fits) {userId : UserId} {f : User → User}
    {hf : ∀ u, (f u).id = u.id} (hfits : ∀ u, u.Fits → (f u).Fits) :
    (db.updateUser userId f hf).Fits :=
  { h with
    users := by
      intro u' hu'
      obtain ⟨u, hu, rfl⟩ := Db.mem_updateUser.1 hu'
      split
      · exact hfits u (h.users u hu)
      · exact h.users u hu }

/-- A token of the table afterwards is the new one, or was there before. -/
theorem fcmToken_of_mem_upsert {t : AutoTable UserFCMToken} {userId : UserId} {fcmToken : String}
    {r : UserFCMToken} (h : r ∈ UserProfileService.upsertFcmToken t userId fcmToken) :
    r.fcmToken = fcmToken ∨ r ∈ t := by
  unfold UserProfileService.upsertFcmToken at h
  split at h
  · rcases AutoTable.mem_insert.1 h with h | rfl
    · exact Or.inr h
    · exact Or.inl rfl
  · next token _ =>
      obtain ⟨r', hr', rfl⟩ := AutoTable.mem_map.1 h
      split
      · exact Or.inl rfl
      · exact Or.inr hr'

theorem fits_upsert (h : db.Fits) (userId : UserId) {fcmToken : String}
    (htoken : IsText 4096 fcmToken) :
    Db.Fits { db with
      fcmTokens := UserProfileService.upsertFcmToken db.fcmTokens userId fcmToken } :=
  { h with
    fcmTokens := by
      intro r hr
      rcases fcmToken_of_mem_upsert hr with he | hold
      · rw [he]
        exact htoken
      · exact h.fcmTokens r hold }

theorem isText_fcmTokenField {value fcmToken : String} (h : fcmTokenField value = .ok fcmToken) :
    IsText 4096 (strip fcmToken) := by
  obtain ⟨htext, hstripped⟩ := isText_of_stripText h
  rwa [hstripped]

/-- A login marks the user, and stores her token. -/
theorem fits_login (h : db.Fits) (user : User) {fcmToken : Option String} (now : DateTime)
    (htoken : ∀ token ∈ fcmToken, IsText 4096 (strip token)) :
    (login settings db user fcmToken now).1.Fits := by
  have hmarked : (db.updateUser user.id (fun u => { u with lastLoginAt := some now })
      fun _ => rfl).Fits := fits_updateUser h fun u hu => ⟨hu.name, hu.phone, hu.named⟩
  cases fcmToken with
  | none => exact hmarked
  | some token => exact fits_upsert hmarked user.id (htoken token rfl)

/-- The user of a verified record has its name. -/
theorem fits_newUser {v : AuthPhoneVerification} (h : v.Fits) (hpurpose : v.purpose = .signup)
    (code : String) (t : DateTime) (uid : UserId) {phone : String} (hphone : phone.length ≤ 20)
    (now : DateTime) : (newUser uid (examine settings v code t).change.dirty phone now).Fits := by
  have hname : (examine settings v code t).change.dirty.name = v.name := by
    rcases examine_cases settings v code t with ⟨-, he⟩ | ⟨-, -, he⟩ | ⟨-, -, he⟩ <;> rw [he]
  obtain ⟨name, hv⟩ := Option.ne_none_iff_exists'.1 (h.named hpurpose)
  refine ⟨?_, ?_, fun _ => Option.some_ne_none _⟩
  · intro stored hmem
    obtain rfl := Option.mem_some_iff.1 hmem
    rw [hname, hv]
    exact h.name name hv
  · intro stored hmem
    obtain rfl := Option.mem_some_iff.1 hmem
    exact hphone

theorem fits_confirmSignup (h : db.Fits) (payload : AuthPhoneConfirmRequest) (uid : UserId)
    (now : Readings) : (confirmSignup settings db payload uid now).1.Fits := by
  rcases confirmSignup_cases settings db payload uid now with
    ⟨failure, he⟩ | ⟨v, hlatest, ⟨failure, -, he⟩ | ⟨-, -, -, -, users, husers, he⟩⟩
  · rw [he]
    exact h
  · rw [he]
    exact fits_noted h _
  · rw [he]
    obtain ⟨hv, ⟨hpurpose, hphone, -⟩, -⟩ := latestPending_eq_some_iff.1 hlatest
    have hfits := h.verifications v hv
    exact { fits_noted h _ with
      users := by
        intro u hu
        rw [Table.mem_iff, husers] at hu
        rcases List.mem_append.1 hu with hold | hnew
        · exact h.users u hold
        · rw [List.mem_singleton.1 hnew]
          exact fits_newUser hfits hpurpose _ _ _ (hphone ▸ hfits.phone) _ }

theorem fits_confirmLogin (h : db.Fits) {payload : AuthLoginConfirmRequest} (now : Readings)
    (htoken : ∀ token ∈ payload.fcmToken, IsText 4096 (strip token)) :
    (confirmLogin settings db payload now).1.Fits := by
  rcases confirmLogin_cases settings db payload now with
    ⟨failure, he⟩ | ⟨user, -, ⟨-, he⟩ | ⟨v, -, ⟨failure, -, he⟩ | ⟨-, he⟩⟩⟩ <;> rw [he]
  · exact h
  · exact fits_login h user _ htoken
  · exact fits_noted h _
  · exact fits_login (fits_noted h _) user _ htoken

/-- A record that has been sent. -/
theorem fits_afterSend (h : db.Fits) {purpose : PhoneVerificationPurpose} {phone : String}
    {draw : ℕ} {smsSender : Bool} {name carrier : Option String} {now : Readings}
    {x : Except Failure Sent}
    (hsend : ∀ sent, x = .ok sent →
      send settings db.verifications purpose phone smsSender draw name carrier now = .ok sent)
    (hrecord : (newRecord settings purpose phone (generateVerificationCode draw) name carrier
      now.second).Fits) : (afterSend db x).1.Fits := by
  cases x with
  | error failure => exact h
  | ok sent =>
      obtain ⟨-, -, rfl⟩ := send_eq_ok.1 (hsend sent rfl)
      exact { h with
        verifications := by
          intro v hv
          rcases AutoTable.mem_insert.1 hv with hold | rfl
          · exact h.verifications v hold
          · exact ⟨hrecord.phone, hrecord.name, hrecord.carrier, hrecord.named⟩ }

/-- What users read and what the worker sends is not written anew. -/
theorem fits_notifications (h : db.Fits) {f : Notification → Notification}
    {hf : ∀ n, (f n).id = n.id} (hfits : ∀ n, n.Fits → (f n).Fits) :
    Db.Fits { db with notifications := db.notifications.map f hf } :=
  { h with
    notifications := by
      intro n' hn'
      obtain ⟨n, hn, rfl⟩ := AutoTable.mem_map.1 hn'
      exact hfits n (h.notifications n hn) }

theorem fits_markRead {n : Notification} (h : n.Fits) (userId : UserId) (ids : List ℕ)
    (utcnow : DateTime) : (n.markRead userId ids utcnow).Fits := by
  unfold Notification.markRead
  split
  · exact ⟨h.title, h.relatedEntityType⟩
  · exact h

theorem fits_batch {n : Notification} (h : n.Fits) (cs : List (Change Notification)) :
    (writeBack Notification.flush cs n).Fits :=
  writeBack_induction (P := Notification.Fits) h fun _ _ _ => ⟨h.title, h.relatedEntityType⟩

/-- A custom notification carries the texts of its request. -/
theorem fits_custom (h : db.Fits) {userId : UserId} {request : NotificationSendRequest}
    {result : FCMSendResult} {createdAt sentAt : DateTime}
    (htitle : request.title.length ≤ 255) (htype : ∀ t ∈ request.relatedEntityType, t.length ≤ 50)
    (hsend : NotificationService.sendCustomNotification db userId request result createdAt sentAt =
      some db') : db'.Fits := by
  have hinsert : ∀ (n : Notification), n.title = request.title →
      n.relatedEntityType = request.relatedEntityType →
      Db.Fits { db with notifications := db.notifications.insert fun k => { n with id := k } } := by
    intro n hntitle hntype
    exact { h with
      notifications := by
        intro n' hn'
        rcases AutoTable.mem_insert.1 hn' with hold | rfl
        · exact h.notifications n' hold
        · exact ⟨hntitle ▸ htitle, hntype ▸ htype⟩ }
  unfold NotificationService.sendCustomNotification at hsend
  split at hsend
  · obtain rfl := Option.some.inj hsend
    exact hinsert _ rfl rfl
  · split at hsend
    · exact absurd hsend (by simp)
    · obtain rfl := Option.some.inj hsend
      exact hinsert _ rfl rfl
    · obtain rfl := Option.some.inj hsend
      exact hinsert _ rfl rfl

/-- **Every command keeps the texts in their columns.** -/
theorem fits_run (h : db.Fits) {c : AccountCommand} (hc : c.Accepted) :
    (c.run settings db).1.Fits := by
  cases c with
  | signupSend payload smsSender draw now =>
      obtain ⟨name, phone, carrier, hbody⟩ := hc
      exact fits_afterSend h (fun sent hsend => (sendSignupVerification_eq_ok hsend).2)
        (AuthSignupSendRequest.fits_record hbody settings _ _)
  | loginSend payload smsSender draw now =>
      obtain ⟨phone, hbody⟩ := hc
      exact fits_afterSend h (fun sent hsend => (sendLoginVerification_eq_ok hsend).2)
        (AuthLoginSendRequest.fits_record hbody settings _ _)
  | signupConfirm payload uid now => exact fits_confirmSignup h payload uid now
  | loginConfirm payload now =>
      obtain ⟨phone, code, fcmToken, hbody⟩ := hc
      simp only [AuthLoginConfirmRequest.ofBody, bind_eq_ok, pure_eq_ok] at hbody
      obtain ⟨-, -, -, -, fcmToken', hfield, rfl⟩ := hbody
      refine fits_confirmLogin h now fun token hmem => ?_
      obtain ⟨value, hvalue⟩ := optionalField_eq_ok hfield hmem
      exact isText_fcmTokenField hvalue
  | refreshToken payload => exact h
  | updateAlarm userId alarmEnabled =>
      refine asUser_induction (I := Db.Fits) h fun user _ => committed_induction h fun db' hdb => ?_
      simp only [UserProfileService.updateAlarm, bind_eq_ok, pure_eq_ok] at hdb
      obtain ⟨fresh, -, rfl⟩ := hdb
      exact fits_updateUser h fun u hu => ⟨hu.name, hu.phone, hu.named⟩
  | updateName userId name =>
      refine asUser_induction (I := Db.Fits) h fun user _ => committed_induction h fun db' hdb => ?_
      obtain ⟨value, hvalue⟩ := hc
      obtain ⟨htext, hstripped⟩ := isText_of_stripText hvalue
      simp only [UserProfileService.updateName, bind_eq_ok, pure_eq_ok] at hdb
      obtain ⟨fresh, -, rfl⟩ := hdb
      refine fits_updateUser h fun u hu => ⟨?_, hu.phone, fun _ => Option.some_ne_none _⟩
      intro stored hmem
      obtain rfl := Option.mem_some_iff.1 hmem
      rwa [hstripped]
  | updateFcmToken userId fcmToken =>
      refine asUser_induction (I := Db.Fits) h fun user _ => committed_induction h fun db' hdb => ?_
      obtain ⟨value, hvalue⟩ := hc
      simp only [UserProfileService.updateFcmToken, bind_eq_ok, pure_eq_ok] at hdb
      obtain ⟨fresh, -, rfl⟩ := hdb
      exact fits_upsert h fresh.id (isText_fcmTokenField hvalue)
  | saveAccount userId =>
      refine asUser_induction (I := Db.Fits) h fun user _ => ?_
      rcases SettlementService.saveAccount_cases db user.id with he | he
      · exact (congrArg Db.Fits he).mpr h
      · exact (congrArg Db.Fits he).mpr { h with }
  | markRead userId ids utcnow =>
      exact asUser_induction (I := Db.Fits) h fun user _ =>
        fits_notifications h fun n hn => fits_markRead hn user.id ids utcnow
  | sendNotification userId request result createdAt sentAt =>
      refine asUser_induction (I := Db.Fits) h fun user _ => ?_
      obtain ⟨title, body, data, relatedEntityType, relatedEntityId, hbody⟩ := hc
      obtain ⟨htitle, htype⟩ := NotificationSendRequest.fits_ofBody hbody
      show ((NotificationService.sendCustomNotification db user.id request result createdAt
        sentAt).getD db).Fits
      cases hsend : NotificationService.sendCustomNotification db user.id request result createdAt
        sentAt with
      | none => exact h
      | some db' => exact fits_custom h htitle htype hsend
  | work job env =>
      show (NotificationWorker.run db job env).Fits
      unfold NotificationWorker.run NotificationWorker.sendBatch
      cases (selectBatch db.notifications job env.rank).mapM (NotificationWorker.turn db env) with
      | none => exact h
      | some cs => exact fits_notifications h fun n hn => fits_batch hn cs
  | setOpenChatUrl offerId url => exact { h with }

end Commands

/-! ## Calls of the four services -/

section Calls

variable {bus : EventBus} {w₀ w w' : World} {r : Request} {u : UnitOfWork} {db db' : Db}

/-- The terms of a new proposal are those of the request. -/
theorem fits_create {request : ProposalRequest} {uid : UserId} {now : Readings}
    (hrequest : request.Fits) (h : ProposalService.create db request uid now = .ok u) :
    ∀ p ∈ u.newProposal, p.Fits := by
  simp only [ProposalService.create, Proposal.createProposal, Proposal.validateErrandFee,
    bind_eq_ok, raiseIf_eq_ok, pure_eq_ok, not_lt] at h
  obtain ⟨-, -, p, ⟨deadline, -, -, hfee, rfl⟩, rfl⟩ := h
  intro p hp
  obtain rfl := Option.mem_some_iff.1 hp
  exact ⟨⟨hrequest.title, hrequest.content⟩, hfee⟩

/-- And so are those of an edited one. -/
theorem fits_update {pid : ℕ} {request : ProposalRequest} {uid : UserId} {now : Readings}
    (hrequest : request.Fits) (h : ProposalService.update db pid request uid now = .ok u) :
    ∀ c ∈ u.proposals, c.dirty.Fits := by
  simp only [ProposalService.update, bind_eq_ok, Proposal.updateProposal_eq_ok, pure_eq_ok] at h
  obtain ⟨p, -, -, -, -, -, p', ⟨-, hfee, rfl⟩, rfl⟩ := h
  intro c hc
  obtain rfl := List.mem_singleton.1 hc
  exact ⟨⟨hrequest.title, hrequest.content⟩, hfee⟩

/-- A new report carries the reason of the request. -/
theorem isText_newReport {pid : ℕ} {uid : UserId} {request : ProposalReportCreateRequest}
    (hrequest : ∀ reason ∈ request.detailReason, IsText 500 reason)
    (h : ProposalReportService.create db pid uid request = .ok u) :
    ∀ x ∈ u.newReport, ∀ reason ∈ x.detailReason, IsText 500 reason := by
  simp only [ProposalReportService.create, bind_eq_ok, pure_eq_ok] at h
  obtain ⟨p, -, -, -, -, -, question, -, rfl⟩ := h
  intro x hx
  obtain rfl := Option.mem_some_iff.1 hx
  exact hrequest

theorem Proposal.Fits.of_terms {p q : Proposal} (h : p.Fits) (hterms : q.terms = p.terms) :
    q.Fits where
  terms := hterms ▸ h.terms
  errandFee := by
    rw [show q.errandFee = p.errandFee from congrArg ProposalRequest.errandFee hterms]
    exact h.errandFee

/-- **What a call makes of a proposal fits**, if what it has loaded does. -/
theorem fits_dirty {call : Call} {now : Readings} (h : db.Fits) (hcall : call.Accepted)
    (hbody : call.body db now = .ok u) : ∀ c ∈ u.proposals, c.dirty.Fits := by
  intro c hc
  have hloaded := h.proposals c.loaded ((body_prepared hbody).proposals c hc).1
  rcases body_terms hbody hc with ⟨-, -, hterms⟩ | ⟨request, uid, he, -⟩ | hkeeps
  · exact hloaded.of_terms hterms
  · subst he
    obtain ⟨title, content, deadline, errandFee, hrequest⟩ := hcall
    exact fits_update (ProposalRequest.fits_ofBody hrequest) hbody c hc
  · exact hloaded.of_terms hkeeps.terms

/-- A row that takes some columns from one proposal and some from another. -/
theorem fits_flush {assigned : Bool} {loaded dirty row : Proposal} {t : DateTime}
    (hdirty : dirty.Fits) (hrow : row.Fits) :
    (Proposal.flush assigned loaded dirty t row).Fits := by
  refine ⟨⟨?_, ?_⟩, ?_⟩
  · show IsText 50 (Proposal.flush assigned loaded dirty t row).title
    rw [Proposal.flush_title]
    rcases col_cases loaded.title dirty.title row.title with he | he <;> rw [he]
    · exact hrow.terms.title
    · exact hdirty.terms.title
  · show IsText 500 (Proposal.flush assigned loaded dirty t row).content
    rw [Proposal.flush_content]
    rcases col_cases loaded.content dirty.content row.content with he | he <;> rw [he]
    · exact hrow.terms.content
    · exact hdirty.terms.content
  · rw [Proposal.flush_errandFee]
    rcases col_cases loaded.errandFee dirty.errandFee row.errandFee with he | he <;> rw [he]
    · exact hrow.errandFee
    · exact hdirty.errandFee

theorem fits_proposalRow {t : DateTime} (hdirty : ∀ c ∈ u.proposals, c.dirty.Fits) {p : Proposal}
    (hp : p.Fits) : (u.proposalRow t p).Fits := by
  rcases writeBack_cases
    (fun loaded dirty row => Proposal.flush u.deadlineAssigned loaded dirty t row) u.proposals p
    with ⟨-, he⟩ | ⟨c, hc, -, he⟩
  · rw [UnitOfWork.proposalRow, he]
    exact hp
  · rw [UnitOfWork.proposalRow, he]
    exact fits_flush (hdirty c hc) hp

/-- Whoever leaves loses her name, and all others keep theirs. -/
theorem fits_userRow {call : Call} {now : Readings} (hbody : call.body db now = .ok u)
    {user : User} (h : user.Fits) : (u.userRow user).Fits := by
  have hlevel : (u.levelRow user).Fits := by
    unfold UnitOfWork.levelRow
    split
    · exact ⟨h.name, h.phone, h.named⟩
    · exact h
  rcases writeBack_cases User.flush u.users (u.levelRow user) with ⟨-, he⟩ | ⟨c, hc, -, he⟩
  · rw [UnitOfWork.userRow, he]
    exact hlevel
  · rw [UnitOfWork.userRow, he]
    obtain ⟨gone, hgone, hactive, rfl⟩ : ∃ gone ∈ db.users, gone.deleted = false ∧
        c = ⟨gone, gone.withdraw now.first⟩ := by
      rcases body_leaves hbody with ⟨hnone, -⟩ | ⟨gone, hgone, hactive, hone, -⟩
      · rw [hnone] at hc
        exact absurd hc List.not_mem_nil
      · rw [hone] at hc
        exact ⟨gone, hgone, hactive, List.mem_singleton.1 hc⟩
    refine ⟨?_, ?_, ?_⟩
    · intro name hname
      rcases col_cases gone.name none (u.levelRow user).name with hcol | hcol
      · exact hlevel.name name (hcol ▸ hname)
      · exact absurd (hcol ▸ hname) (Option.not_mem_none name)
    · intro phone hphone
      rcases col_cases gone.phone none (u.levelRow user).phone with hcol | hcol
      · exact hlevel.phone phone (hcol ▸ hphone)
      · exact absurd (hcol ▸ hphone) (Option.not_mem_none phone)
    · -- the mark of deletion is written, because the user was active when she was loaded
      intro hdeleted
      have hmark : col gone.deleted true (u.levelRow user).deleted = false := hdeleted
      rw [hactive, col_of_ne (by simp)] at hmark
      exact absurd hmark (by simp)

/-- The texts of a notification of the bus are those of its handler. -/
theorem fits_drafts {event : DomainEvent} {users : Table User} {n : Notification}
    (h : n ∈ bus.drafts event users) : n.Fits := by
  obtain ⟨handler, -, hn⟩ := List.mem_flatMap.1 h
  have hone : ∀ {userId : UserId} {notificationType : NotificationType} {title body : String}
      {deal : DealEvent}, title.length ≤ 255 → n ∈ notify users userId notificationType title body
        deal → n.Fits := by
    intro userId notificationType title body deal htitle hmem
    obtain ⟨-, rfl⟩ := mem_notify.1 hmem
    refine ⟨htitle, fun t ht => ?_⟩
    obtain rfl := Option.mem_some_iff.1 ht
    decide
  cases handler <;> cases event <;> first | exact absurd hn List.not_mem_nil | skip
  · rcases List.mem_append.1 hn with hn | hn <;> exact hone (by decide +kernel) hn
  · rcases List.mem_append.1 hn with hn | hn
    · exact hone (by decide +kernel) hn
    · obtain ⟨runnerId, -, hn⟩ := List.mem_flatMap.1 hn
      exact hone (by decide +kernel) hn
  · exact hone (by decide +kernel) hn
  · rcases List.mem_append.1 hn with hn | hn
    · exact hone (by decide +kernel) hn
    · obtain ⟨userId, -, hn⟩ := List.mem_flatMap.1 hn
      exact hone (by decide +kernel) hn
  · exact hone (by decide +kernel) hn
  · exact hone (by decide +kernel) hn

theorem fits_unitDrafts {k : ℕ} {users : Table User} {n : Notification}
    (h : n ∈ u.drafts bus k users) : n.Fits := by
  unfold UnitOfWork.drafts at h
  split at h
  · exact absurd h List.not_mem_nil
  · exact fits_drafts h

/-- The notifications after a commit. -/
theorem fits_notifications_commit (h : w.db.Fits)
    (hcommit : u.commit r.now.flush w.db bus = .ok db') : ∀ n ∈ db'.notifications, n.Fits := by
  intro n hn
  rw [AutoTable.mem_iff, (UnitOfWork.notifications_commit hcommit).1] at hn
  rcases List.mem_append.1 hn with hn | hn
  · exact h.notifications n (UnitOfWork.mem_keep.1 hn).1
  · obtain ⟨i, hi, rfl⟩ := List.mem_mapIdx.1 hn
    have hdraft := fits_unitDrafts (List.getElem_mem hi)
    exact ⟨hdraft.title, hdraft.relatedEntityType⟩

/-- **Every commit keeps the texts in their columns**, whatever has been written since its
read. -/
theorem fits_commit (h₀ : w₀.db.Fits) (h : w.db.Fits) (hcall : r.call.Accepted)
    (hbody : r.call.body w₀.db r.now = .ok u)
    (hcommit : (service bus).commit w r u = .ok w') : w'.db.Fits := by
  obtain ⟨db, hdb, rfl⟩ := service_commit_eq_ok.1 hcommit
  have hnotifications := fits_notifications_commit h hdb
  obtain ⟨-, -, husers, hprops, -⟩ := UnitOfWork.commit_eq_ok hdb
  obtain ⟨notifications, hsame⟩ := UnitOfWork.commit_same hdb
  have hfills := body_fills hbody
  constructor
  · intro user' huser'
    rw [husers] at huser'
    obtain ⟨user, huser, rfl⟩ := UnitOfWork.mem_users_write.1 huser'
    exact fits_userRow hbody (h.users user huser)
  · intro p' hp'
    rw [hprops] at hp'
    rcases UnitOfWork.mem_proposals_write.1 hp' with ⟨p, hp, rfl⟩ | ⟨p, hnew, rfl⟩
    · exact fits_proposalRow (fits_dirty h₀ hcall hbody) (h.proposals p hp)
    · rcases hfills.newProposal with hnone | ⟨request, uid, he⟩
      · rw [hnone] at hnew
        exact absurd hnew (by simp)
      · rw [he] at hbody hcall
        obtain ⟨title, content, deadline, errandFee, hrequest⟩ := hcall
        exact (fits_create (ProposalRequest.fits_ofBody hrequest) hbody p hnew).of_terms rfl
  · intro x' hx'
    have hreports : db.reports = (u.write r.now.flush w.db).reports := by rw [hsame]
    rw [hreports] at hx'
    rcases UnitOfWork.mem_reports_write.1 hx' with ⟨x, hx, rfl⟩ | ⟨x, hnew, rfl⟩
    · have hfixed : (u.reportRow x).detailReason = x.detailReason :=
        writeBack_induction (P := fun s : ProposalReport => s.detailReason = x.detailReason) rfl
          fun _ _ _ => rfl
      rw [hfixed]
      exact h.reports x hx
    · rcases hfills.newReport with hnone | ⟨pid, uid, request, he⟩
      · rw [hnone] at hnew
        exact absurd hnew (by simp)
      · rw [he] at hbody hcall
        obtain ⟨reasonQuestionId, detailReason, hrequest⟩ := hcall
        exact isText_newReport (ProposalReportCreateRequest.isText_ofBody hrequest) hbody x hnew
  · exact hnotifications
  · intro v hv
    rw [hsame] at hv
    exact h.verifications v (UnitOfWork.mem_keep.1 hv).1
  · intro t ht
    rw [hsame] at ht
    exact h.fcmTokens t (UnitOfWork.mem_keep.1 ht).1

theorem sound_fits (bus : EventBus) : (service bus).Sound (fun w => w.db.Fits) (fun _ _ => True)
    fun r => r.call.Accepted where
  refl := fun _ => trivial
  trans := fun _ _ _ _ _ => trivial
  commit := fun hcall h₀ hread _ h hcommit =>
    ⟨fits_commit h₀ h hcall (service_read_eq_ok.1 hread).2 hcommit, trivial⟩

end Calls

/-! ## Runs -/

/-- **Texts fit their columns.**  If all requests have got through their schemas, then in every
state, whatever calls overlap with each other and with whatever commands, each text is short
enough for its column, active users have a name, and no errand is without a title, a content
and a fee. -/
theorem texts_fit (settings : Settings) (bus : EventBus) (m : MasterData)
    (husers : ∀ u ∈ m.users, u.Fits) (hrecords : ∀ v ∈ m.verifications, v.Fits)
    (htokens : ∀ t ∈ m.fcmTokens, IsText 4096 t.fcmToken)
    (es : List (Among Request AccountCommand))
    (hes : ∀ e ∈ es, e.Calls (fun r => r.call.Accepted) AccountCommand.Accepted) :
    Runs.Always (App.among settings bus) (fun s => s.now.db.Fits)
      (State.quiet (World.initial m)) es := by
  have hinit : (World.initial m).db.Fits :=
    { users := husers
      verifications := hrecords
      fcmTokens := htokens
      proposals := fun _ hp => absurd hp List.not_mem_nil
      reports := fun _ hr => absurd hr List.not_mem_nil
      notifications := fun _ hn => absurd hn List.not_mem_nil }
  have hrun : Runs.Always (App.among settings bus) _ _ es :=
    (sound_fits bus).among_run (fun w c hc h => ⟨fits_run h hc, trivial⟩) hinit hes
  exact Runs.always_iff.2 fun pre suf he => (Runs.always_iff.1 hrun pre suf he).1

namespace Sample

/-- A newcomer signs up and posts an errand while the one of the orderer waits for its commit. -/
def twoPosted : List (Among Request AccountCommand) := [
  .event (.read 1 (request 1 (.proposalCreate errand "orderer"))),
  .change (.signupSend ⟨"newcomer", "010-1234-5678", "carrier"⟩ true 7 ⟨1, 2, 3, 4⟩),
  .change (.signupConfirm ⟨"010-1234-5678", "000007"⟩ "newcomer" ⟨5, 6, 7, 8⟩),
  .event (.read 2 (request 2 (.proposalCreate errand "newcomer"))),
  .event (.commit 2),
  .event (.commit 1)]

theorem errand_accepted :
    ProposalRequest.ofBody "errand" "bring coffee" (.aware 100000) 5000 = .ok errand := by
  decide +kernel

theorem fits_user {id : UserId} (h : IsText 100 id) : (user id).Fits := by
  refine ⟨?_, ?_, fun _ => Option.some_ne_none id⟩
  · intro name hname
    obtain rfl := Option.mem_some_iff.1 hname
    exact h
  · exact fun phone hphone => absurd hphone (Option.not_mem_none phone)

theorem master_fits : ∀ u ∈ master.users, u.Fits := by
  intro u hu
  have hu : u ∈ [user "orderer", user "runner", user "rival"] := hu
  simp only [List.mem_cons, List.not_mem_nil, or_false] at hu
  rcases hu with rfl | rfl | rfl <;> exact fits_user ⟨by decide +kernel, by decide +kernel⟩

end Sample

/-- The new errands fit, and so does the newcomer. -/
theorem texts_fit_twoPosted : Runs.Always (App.among .sample Sample.bus)
    (fun s => s.now.db.Fits) (State.quiet (World.initial Sample.master)) Sample.twoPosted := by
  refine texts_fit .sample Sample.bus Sample.master Sample.master_fits
    (fun _ hv => absurd hv List.not_mem_nil) (fun _ ht => absurd ht List.not_mem_nil)
    Sample.twoPosted ?_
  have haccepted : ∀ uid, (Call.proposalCreate Sample.errand uid).Accepted := fun _ =>
    ⟨_, _, _, _, Sample.errand_accepted⟩
  intro e he
  simp only [Sample.twoPosted, List.mem_cons, List.not_mem_nil, or_false] at he
  rcases he with rfl | rfl | rfl | rfl | rfl | rfl
  · exact haccepted "orderer"
  · exact ⟨" newcomer", "010-1234-5678", "carrier ", by decide +kernel⟩
  · exact ⟨"010-1234-5678", "000007", by decide +kernel⟩
  · exact haccepted "newcomer"
  · trivial
  · trivial

end OrderRun
