import OrderRun.Transactions.Statements
import OrderRun.Accounts.Auth
import OrderRun.Queries.Detail

/-!
# The methods in a session

Every mutating method of the services as the program it is: what it reads before it has
written anything, the statements behind its unit of work, what it catches, and what it still
reads and computes after the commit.  Rows that are read back after a commit were written in
this very transaction, or before it.

* `ProposalService.createTx`, … — the methods of the four services; `Call.tx` collects them.
* `PhoneVerificationService.verifyTx` — the method that commits before it raises.
* `UserAuthService.confirmSignupTx`, `confirmLoginTx` — the methods that issue tokens.
-/

namespace OrderRun

open Store Script Tx

/-- `query(...).one()`. -/
def Tx.one {α : Type} (find : Db → Option α) : Tx α := ask fun db =>
  match find db with
  | none => .error (.database "No row was found when one was required")
  | some row => .ok row

/-! ## Proposals -/

namespace ProposalService

variable (bus : EventBus)

def createTx (request : ProposalRequest) (ordererId : UserId) (now : Readings) : Tx Proposal :=
  transaction bus now.flush (fun db => create db request ordererId now) fun stored =>
    refresh fun db => db.proposals.find? stored.keys.proposal

def updateTx (proposalId : ℕ) (request : ProposalRequest) (ordererId : UserId) (now : Readings) :
    Tx Proposal :=
  transaction bus now.flush (fun db => update db proposalId request ordererId now) fun _ =>
    refresh fun db => db.proposals.find? proposalId

def cancelTx (proposalId : ℕ) (ordererId : UserId) (now : Readings) : Tx Proposal :=
  transaction bus now.flush (fun db => cancel db proposalId ordererId) fun _ =>
    refresh fun db => db.proposals.find? proposalId

def confirmPaymentTx (proposalId : ℕ) (now : Readings) : Tx Proposal :=
  transaction bus now.flush (fun db => confirmPayment db proposalId) fun _ =>
    refresh fun db => db.proposals.find? proposalId

/-- The page of a proposal, once it has been read back. -/
def detailTx (proposalId : ℕ) (viewerId : UserId) : Tx ProposalDetailResponse := do
  let proposal ← refresh fun db => db.proposals.find? proposalId
  answer fun db => getProposalDetail db proposal.id viewerId

def confirmReceivedTx (proposalId : ℕ) (ordererId : UserId) (now : Readings) :
    Tx ProposalDetailResponse :=
  transaction bus now.flush (fun db => confirmReceived db proposalId ordererId now) fun _ =>
    detailTx proposalId ordererId

def raiseDisputeTx (proposalId : ℕ) (ordererId : UserId) (surveyQuestionId : ℕ)
    (disputeReason : String) (now : Readings) : Tx ProposalDetailResponse :=
  transaction bus now.flush
    (fun db => raiseDispute db proposalId ordererId surveyQuestionId disputeReason now) fun _ =>
    detailTx proposalId ordererId

end ProposalService

/-! ## Offers -/

structure OfferAcceptResponse where
  proposalId : ℕ
  offerId : ℕ
  proposalStatus : ProposalStatus
  acceptedOfferStatus : OfferStatus
  rejectedOfferCount : ℕ
  ordererId : UserId
  ordererName : String
  ordererLevel : ℕ
  runnerId : UserId
  runnerName : String
  runnerLevel : ℕ
  acceptedAt : DateTime
  deriving DecidableEq, Repr

namespace OfferService

/-- The response insists on the time of acceptance. -/
def acceptResponse (db : Db) (offer : Offer) (proposal : Proposal) (rejectedOfferCount : ℕ) :
    Except Failure OfferAcceptResponse := do
  let (ordererName, ordererLevel) := userProfile db proposal.ordererId
  let (runnerName, runnerLevel) := userProfile db offer.runnerId
  let acceptedAt ← orRaise offer.acceptedAt (.valueError "accepted_at")
  return {
    proposalId := proposal.id
    offerId := offer.id
    proposalStatus := proposal.status
    acceptedOfferStatus := offer.status
    rejectedOfferCount
    ordererId := proposal.ordererId
    ordererName
    ordererLevel
    runnerId := offer.runnerId
    runnerName
    runnerLevel
    acceptedAt }

variable (bus : EventBus)

/-- The response about an offer, once it has been read back. -/
def responseTx (offerId : ℕ) : Tx OfferResponse := do
  let offer ← refresh fun db => db.offers.find? offerId
  answer fun db => responseFields db offer

def createTx (proposalId : ℕ) (runnerId : UserId) (now : Readings) : Tx OfferResponse :=
  guarded bus now.flush (fun db => create db proposalId runnerId)
    (fun stored => refresh fun db => db.offers.find? stored.keys.offer)
    (exceptIntegrityError fun constraint =>
      (Call.offerCreate proposalId runnerId).reply (.integrityError constraint))
    fun offer => answer fun db => responseFields db offer

def cancelTx (offerId : ℕ) (runnerId : UserId) (now : Readings) : Tx Unit :=
  transaction bus now.flush (fun db => cancel db offerId runnerId) fun _ => return ()

def acceptTx (offerId : ℕ) (ordererId : UserId) (now : Readings) : Tx OfferAcceptResponse :=
  transaction bus now.flush (fun db => accept db offerId ordererId now) fun stored => do
    let offer ← refresh fun db => db.offers.find? offerId
    let proposal ← refresh fun db => db.proposals.find? offer.proposalId
    answer fun db => acceptResponse db offer proposal stored.rejectedOfferCount

def completeDeliveryTx (offerId : ℕ) (runnerId : UserId) (now : Readings) : Tx OfferResponse :=
  transaction bus now.flush (fun db => completeDelivery db offerId runnerId now) fun _ =>
    responseTx offerId

def raiseDisputeTx (offerId : ℕ) (runnerId : UserId) (surveyQuestionId : ℕ)
    (disputeReason : String) (now : Readings) : Tx OfferResponse :=
  transaction bus now.flush
    (fun db => raiseDispute db offerId runnerId surveyQuestionId disputeReason now) fun _ =>
    responseTx offerId

def resolveTx (offerId : ℕ) (now : Readings) : Tx OfferResponse :=
  transaction bus now.flush (fun db => resolve db offerId now) fun _ => responseTx offerId

end OfferService

/-! ## Reports -/

namespace ProposalReportService

variable (bus : EventBus)

/-- The commit has expired the question, so its text is loaded again. -/
def createTx (proposalId : ℕ) (reporterId : UserId) (request : ProposalReportCreateRequest)
    (now : Readings) : Tx ProposalReportResponse :=
  guarded bus now.flush (fun db => create db proposalId reporterId request) pure
    (exceptIntegrityError fun constraint =>
      (Call.reportCreate proposalId reporterId request).reply (.integrityError constraint))
    fun stored => do
      let report ← refresh fun db => db.reports.find? stored.keys.report
      let question ← refresh fun db => db.reasonQuestions.find? request.reasonQuestionId
      return toResponse report question.questionText

/-- The response about a report that has been reviewed. -/
def reviewedTx (reportId : ℕ) : Tx ProposalReportResponse := do
  let report ← refresh fun db => db.reports.find? reportId
  let question ← one fun db => db.reasonQuestions.find? report.reasonQuestionId
  return toResponse report question.questionText

def acceptTx (reportId : ℕ) (now : Readings) : Tx ProposalReportResponse :=
  transaction bus now.flush (fun db => accept db reportId now) fun _ => reviewedTx reportId

def rejectTx (reportId : ℕ) (now : Readings) : Tx ProposalReportResponse :=
  transaction bus now.flush (fun db => reject db reportId now) fun _ => reviewedTx reportId

end ProposalReportService

/-! ## Withdrawal -/

namespace UserWithdrawalService

/-- The user and the blocking errands are looked up before the `try`. -/
def ensureFree (db : Db) (userId : UserId) : Except Failure User := do
  let freshUser ← ProposalService.getExistingUser db userId
  raiseIf (hasBlockingActivity db freshUser.id) (apiError .userWithdrawalBlocked)
  return freshUser

/-- What is written when the user leaves. -/
def withdrawal (freshUser : User) (cancelled : List (Change Proposal) × List (Change Offer))
    (now : Readings) : UnitOfWork where
  purge := some ⟨freshUser.id, freshUser.phone⟩
  proposals := cancelled.1
  offers := cancelled.2
  users := [⟨freshUser, freshUser.withdraw now.first⟩]

/-- The part of `withdraw_user` inside its `try`. -/
def leaveTx (bus : EventBus) (freshUser : User) (now : Readings) : Tx Unit := do
  let cancelled ← read fun db => autoCancelPreMatchActivity db freshUser.id
  let _ ← store bus now.flush (withdrawal freshUser cancelled now)
  return ()

def withdrawUserTx (bus : EventBus) (userId : UserId) (now : Readings) : Tx Unit := do
  let freshUser ← read fun db => ensureFree db userId
  handle (leaveTx bus freshUser now) fun e => do
    rollback
    raise e

end UserWithdrawalService

/-! ## Calls -/

/-- The result of a method that nobody looks at. -/
def Tx.ignore {α : Type} (m : Tx α) : Tx Unit := do
  let _ ← m
  return ()

/-- The method behind a call, in a session. -/
def Call.tx (bus : EventBus) (now : Readings) : Call → Tx Unit
  | .proposalCreate request uid => ignore (ProposalService.createTx bus request uid now)
  | .proposalUpdate pid request uid => ignore (ProposalService.updateTx bus pid request uid now)
  | .proposalCancel pid uid => ignore (ProposalService.cancelTx bus pid uid now)
  | .confirmPayment pid => ignore (ProposalService.confirmPaymentTx bus pid now)
  | .confirmReceived pid uid => ignore (ProposalService.confirmReceivedTx bus pid uid now)
  | .proposalDispute pid uid qid reason =>
      ignore (ProposalService.raiseDisputeTx bus pid uid qid reason now)
  | .offerCreate pid uid => ignore (OfferService.createTx bus pid uid now)
  | .offerCancel oid uid => OfferService.cancelTx bus oid uid now
  | .offerAccept oid uid => ignore (OfferService.acceptTx bus oid uid now)
  | .completeDelivery oid uid => ignore (OfferService.completeDeliveryTx bus oid uid now)
  | .offerDispute oid uid qid reason =>
      ignore (OfferService.raiseDisputeTx bus oid uid qid reason now)
  | .resolve oid => ignore (OfferService.resolveTx bus oid now)
  | .reportCreate pid uid request =>
      ignore (ProposalReportService.createTx bus pid uid request now)
  | .reportAccept rid => ignore (ProposalReportService.acceptTx bus rid now)
  | .reportReject rid => ignore (ProposalReportService.rejectTx bus rid now)
  | .withdrawUser uid => UserWithdrawalService.withdrawUserTx bus uid now

/-! ## Signing up and logging in -/

open PhoneVerificationService

/-- A record that is answered with an error is committed before the error is raised; a verified
one is left to the caller. -/
def PhoneVerificationService.verifyTx (settings : Settings) (purpose : PhoneVerificationPurpose)
    (phone code : String) (now : DateTime) : Tx Examined := do
  let x ← read fun db => verify settings db.verifications purpose phone code now
  match x.verdict.failure with
  | none => return x
  | some failure => do
      execute fun db => .ok (UserAuthService.noted db x)
      commit
      raise (.failure failure)

namespace UserAuthService

variable (settings : Settings)

/-- The flush of a signup: the verified record, and the new user under the unique constraint
of the phone. -/
def signedUp (phone : String) (userId : UserId) (now : DateTime) (x : Examined) (db : Db) :
    Except Raised Db :=
  match insertUser (noted db x) (newUser userId x.change.dirty phone now) with
  | none => .error (.failure (.integrityError "phone"))
  | some db' => .ok db'

/-- What `confirm_signup` does with a verified record. -/
def signupTx (phone : String) (userId : UserId) (now : DateTime) (x : Examined) :
    Tx AuthTokenResponse := do
  let known ← read fun db => .ok (findUserByPhone db phone)
  if known ≠ none then
    rollback
    raise (.failure (apiError .phoneAlreadyExists))
  else
    handle (do
        execute (signedUp phone userId now x)
        commit)
      fun _ => do
        rollback
        raise (.failure (apiError .phoneAlreadyExists))
    let user ← refresh fun db => db.users.find? userId
    return buildTokens settings user.id

def confirmSignupTx (payload : AuthPhoneConfirmRequest) (userId : UserId) (now : Readings) :
    Tx AuthTokenResponse := do
  let phone := normalizePhone payload.phone
  let x ← verifyTx settings .signup phone payload.code now.first
  signupTx settings phone userId now.second x

/-- The flush of a login: the verified record, if there is one, the user and the token. -/
def loggedIn (user : User) (fcmToken : Option String) (now : DateTime) (x : Option Examined)
    (db : Db) : Db :=
  (login settings (match x with | none => db | some x => noted db x) user fcmToken now).1

/-- The token that `upsert_fcm_token` looks for. -/
def lookUpFcmToken (user : User) (fcmToken : Option String) : Tx (Option UserFCMToken) :=
  match fcmToken with
  | none => return none
  | some _ => read fun db => .ok (db.fcmTokens.rows.find? fun token => token.userId = user.id)

/-- What `confirm_login` does once the code is accepted. -/
def loginTx (user : User) (fcmToken : Option String) (now : DateTime) (x : Option Examined) :
    Tx AuthTokenResponse := do
  let _ ← lookUpFcmToken user fcmToken
  handle (do
      execute fun db => .ok (loggedIn settings user fcmToken now x db)
      commit)
    fun e => do
      rollback
      raise e
  let user ← refresh fun db => db.users.find? user.id
  return buildTokens settings user.id

def confirmLoginTx (payload : AuthLoginConfirmRequest) (now : Readings) :
    Tx AuthTokenResponse := do
  let phone := normalizePhone payload.phone
  let user ← read fun db => orRaise (findUserByPhone db phone) (apiError .userNotFound)
  if isLoginTestCodeAllowed settings payload.code then
    loginTx settings user payload.fcmToken now.second none
  else
    let x ← verifyTx settings .login phone payload.code now.first
    loginTx settings user payload.fcmToken now.second (some x)

end UserAuthService
end OrderRun
