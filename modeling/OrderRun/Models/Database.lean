import OrderRun.Models.Offer

/-!
# The database

The rows of the remaining tables and the database as a whole.  Columns that
nothing reads (`updated_at` of users and reports, the bank details of a
settlement account, display orders) are left out.
-/

namespace OrderRun

open Store

/-! ## Users -/

/-- A row of `users`. -/
structure User where
  id : UserId
  passwordHash : Option String
  name : Option String
  phone : Option String
  phoneVerifiedAt : Option DateTime
  lastLoginAt : Option DateTime
  alarmEnabled : Option Bool
  level : ℕ
  deleted : Bool
  deletedAt : Option DateTime
  deriving DecidableEq, Repr

instance : Keyed User UserId := ⟨User.id⟩

namespace User

/-- Withdrawal: mark the row deleted and erase what identifies the person. -/
def withdraw (u : User) (withdrawnAt : DateTime) : User :=
  { u with
    deleted := true
    deletedAt := some withdrawnAt
    passwordHash := none
    name := none
    phone := none
    phoneVerifiedAt := none
    lastLoginAt := none
    alarmEnabled := none }

/-- The row after a flush of `dirty`, which was loaded as `loaded`.  The level is
never assigned through the object: it only moves by an SQL increment. -/
def flush (loaded dirty row : User) : User :=
  { row with
    passwordHash := col loaded.passwordHash dirty.passwordHash row.passwordHash
    name := col loaded.name dirty.name row.name
    phone := col loaded.phone dirty.phone row.phone
    phoneVerifiedAt := col loaded.phoneVerifiedAt dirty.phoneVerifiedAt row.phoneVerifiedAt
    lastLoginAt := col loaded.lastLoginAt dirty.lastLoginAt row.lastLoginAt
    alarmEnabled := col loaded.alarmEnabled dirty.alarmEnabled row.alarmEnabled
    deleted := col loaded.deleted dirty.deleted row.deleted
    deletedAt := col loaded.deletedAt dirty.deletedAt row.deletedAt }

end User

/-! ## Phone verification, tokens and accounts -/

/-- What a verification code is for. -/
inductive PhoneVerificationPurpose where
  | signup
  | login
  deriving DecidableEq, Repr

/-- The state of a verification record. -/
inductive PhoneVerificationStatus where
  | pending
  | verified
  | expired
  deriving DecidableEq, Repr

/-- A row of `auth_phone_verifications`. -/
structure AuthPhoneVerification where
  id : ℕ
  purpose : PhoneVerificationPurpose
  phone : String
  name : Option String
  carrier : Option String
  codeHash : String
  status : PhoneVerificationStatus
  expiresAt : DateTime
  sentAt : DateTime
  verifiedAt : Option DateTime
  attemptCount : ℕ
  deriving DecidableEq, Repr

instance : Keyed AuthPhoneVerification ℕ := ⟨AuthPhoneVerification.id⟩

/-- A row of `user_fcm_tokens`. -/
structure UserFCMToken where
  id : ℕ
  userId : UserId
  fcmToken : String
  deriving DecidableEq, Repr

instance : Keyed UserFCMToken ℕ := ⟨UserFCMToken.id⟩

/-- A row of `settlement_accounts`. -/
structure SettlementAccount where
  id : ℕ
  userId : UserId
  deriving DecidableEq, Repr

instance : Keyed SettlementAccount ℕ := ⟨SettlementAccount.id⟩

/-! ## Disputes -/

/-- Who a survey question is put to. -/
inductive DisputeSurveyTargetType where
  | order
  | runner
  deriving DecidableEq, Repr

/-- A row of `dispute_survey_questions`. -/
structure DisputeSurveyQuestion where
  id : ℕ
  targetType : DisputeSurveyTargetType
  isActive : Bool
  deriving DecidableEq, Repr

instance : Keyed DisputeSurveyQuestion ℕ := ⟨DisputeSurveyQuestion.id⟩

/-- A row of `dispute_evidences`. -/
structure DisputeEvidence where
  id : ℕ
  proposalId : ℕ
  offerId : ℕ
  actorId : UserId
  reason : String
  surveyQuestionId : ℕ
  createdAt : DateTime
  deriving DecidableEq, Repr

instance : Keyed DisputeEvidence ℕ := ⟨DisputeEvidence.id⟩

/-! ## Reports -/

/-- The moderation state of a report. -/
inductive ProposalReportStatus where
  | pending
  | accepted
  | rejected
  deriving DecidableEq, Repr

/-- The stored value of a report status. -/
def ProposalReportStatus.value : ProposalReportStatus → String
  | .pending => "PENDING"
  | .accepted => "ACCEPTED"
  | .rejected => "REJECTED"

/-- A row of `proposal_report_reason_questions`. -/
structure ProposalReportReasonQuestion where
  id : ℕ
  questionText : String
  isActive : Bool
  deriving DecidableEq, Repr

instance : Keyed ProposalReportReasonQuestion ℕ := ⟨ProposalReportReasonQuestion.id⟩

/-- A row of `proposal_reports`. -/
structure ProposalReport where
  id : ℕ
  proposalId : ℕ
  reporterId : UserId
  reasonQuestionId : ℕ
  detailReason : Option String
  status : ProposalReportStatus
  createdAt : DateTime
  reviewedAt : Option DateTime
  deriving DecidableEq, Repr

instance : Keyed ProposalReport ℕ := ⟨ProposalReport.id⟩

/-- The body of a report request. -/
structure ProposalReportCreateRequest where
  reasonQuestionId : ℕ
  detailReason : Option String
  deriving DecidableEq, Repr

/-- The row after a flush of `dirty`, which was loaded as `loaded`. -/
def ProposalReport.flush (loaded dirty row : ProposalReport) : ProposalReport :=
  { row with
    status := col loaded.status dirty.status row.status
    reviewedAt := col loaded.reviewedAt dirty.reviewedAt row.reviewedAt }

/-! ## Notifications -/

/-- The kinds of notification. -/
inductive NotificationType where
  | proposalNew
  | proposalMatched
  | proposalCancelled
  | offerNew
  | offerAccepted
  | offerRejected
  | executionStarted
  | executionCompleted
  | paymentCompleted
  | paymentFailed
  | systemAnnouncement
  | custom
  | offerSubmitted
  | meetingConfirmed
  | disputeRaised
  deriving DecidableEq, Repr

/-- The delivery state of a notification. -/
inductive NotificationStatus where
  | pending
  | sent
  | delivered
  | failed
  | read
  deriving DecidableEq, Repr

/-- A row of `notifications`. -/
structure Notification where
  id : ℕ
  userId : UserId
  notificationType : NotificationType
  title : String
  body : String
  data : Option String
  relatedEntityType : Option String
  relatedEntityId : Option ℤ
  status : NotificationStatus
  fcmMessageId : Option String
  errorMessage : Option String
  createdAt : DateTime
  sentAt : Option DateTime
  deliveredAt : Option DateTime
  readAt : Option DateTime
  retryCount : ℕ
  deriving DecidableEq, Repr

instance : Keyed Notification ℕ := ⟨Notification.id⟩

/-! ## All tables -/

/-- The committed contents of every table the services touch. -/
structure Db where
  users : Table User
  proposals : AutoTable Proposal
  offers : AutoTable Offer
  reports : AutoTable ProposalReport
  reasonQuestions : AutoTable ProposalReportReasonQuestion
  evidences : AutoTable DisputeEvidence
  surveyQuestions : AutoTable DisputeSurveyQuestion
  notifications : AutoTable Notification
  verifications : AutoTable AuthPhoneVerification
  fcmTokens : AutoTable UserFCMToken
  settlementAccounts : AutoTable SettlementAccount

namespace Db

/-- The offers of a proposal, in insertion order. -/
def offersOf (db : Db) (proposalId : ℕ) : List Offer :=
  db.offers.rows.filter (fun o => o.proposalId = proposalId)

theorem mem_offersOf {db : Db} {pid : ℕ} {o : Offer} :
    o ∈ db.offersOf pid ↔ o ∈ db.offers ∧ o.proposalId = pid := by
  simp [offersOf, AutoTable.mem_iff]

/-- An offer in the database, with its proposal. -/
structure Pair (db : Db) (p : Proposal) (o : Offer) : Prop where
  proposal : p ∈ db.proposals
  offer : o ∈ db.offers
  proposalId : o.proposalId = p.id

theorem proposals_find? {db : Db} {pid : ℕ} {p : Proposal} :
    db.proposals.find? pid = some p ↔ p ∈ db.proposals ∧ p.id = pid :=
  AutoTable.find?_eq_some_iff

theorem offers_find? {db : Db} {oid : ℕ} {o : Offer} :
    db.offers.find? oid = some o ↔ o ∈ db.offers ∧ o.id = oid :=
  AutoTable.find?_eq_some_iff

/-! ## Later databases -/

/-- No row of `db` is missing in `db'`, and none has changed its owner. -/
structure Extends (db db' : Db) : Prop where
  proposals : ∀ p ∈ db.proposals, ∃ p' ∈ db'.proposals, p'.id = p.id ∧ p'.ordererId = p.ordererId
  offers : ∀ o ∈ db.offers, ∃ o' ∈ db'.offers, o'.id = o.id ∧ o'.proposalId = o.proposalId ∧
    o'.runnerId = o.runnerId

theorem Extends.refl (db : Db) : db.Extends db :=
  ⟨fun p hp => ⟨p, hp, rfl, rfl⟩, fun o ho => ⟨o, ho, rfl, rfl, rfl⟩⟩

theorem Extends.trans {db₁ db₂ db₃ : Db} (h : db₁.Extends db₂) (h' : db₂.Extends db₃) :
    db₁.Extends db₃ := by
  constructor
  · intro p hp
    obtain ⟨p', hp', hid, hown⟩ := h.proposals p hp
    obtain ⟨p'', hp'', hid', hown'⟩ := h'.proposals p' hp'
    exact ⟨p'', hp'', hid'.trans hid, hown'.trans hown⟩
  · intro o ho
    obtain ⟨o', ho', hid, hpid, hrun⟩ := h.offers o ho
    obtain ⟨o'', ho'', hid', hpid', hrun'⟩ := h'.offers o' ho'
    exact ⟨o'', ho'', hid'.trans hid, hpid'.trans hpid, hrun'.trans hrun⟩

/-- A row of the earlier database and the row with its key in the later one. -/
theorem Extends.offer_eq {db db' : Db} (h : db.Extends db') {o o' : Offer}
    (ho : o ∈ db.offers) (ho' : o' ∈ db'.offers) (hid : o'.id = o.id) :
    o'.proposalId = o.proposalId ∧ o'.runnerId = o.runnerId := by
  obtain ⟨x, hx, hxid, hrest⟩ := h.offers o ho
  obtain rfl : o' = x := AutoTable.eq_of_key_eq ho' hx (hid.trans hxid.symm)
  exact hrest

end Db
end OrderRun
