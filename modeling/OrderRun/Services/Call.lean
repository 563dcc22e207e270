import OrderRun.Lib.Split
import OrderRun.Services.UserWithdrawal

/-!
# Calls

The service as its clients see it: every command of the four services is a
`Call`, authenticated as its router does it, and a `Request` is a call together
with what the clock shows while it runs.

* `Call.body` — the unit of work a call prepares.
* `World` — the committed database, and a log of the transactions that made it.
* `service` — the read step and the commit step of a request; `reply` turns a
  violated constraint into the error the service reports.
* `World.initial` — an empty database: master data and registered users, no
  proposals, no offers, no reports, nothing in the log.
* `call_cases` — a request executed at one stroke changes nothing, or prepares a
  unit of work and commits it.
* `body_fills` — which call inserts what, and which one changes users.
-/

namespace OrderRun

open Store Split

/-- The commands of the application. -/
inductive Call where
  | proposalCreate (request : ProposalRequest) (ordererId : UserId)
  | proposalUpdate (proposalId : ℕ) (request : ProposalRequest) (ordererId : UserId)
  | proposalCancel (proposalId : ℕ) (ordererId : UserId)
  | confirmPayment (proposalId : ℕ)
  | confirmReceived (proposalId : ℕ) (ordererId : UserId)
  | proposalDispute (proposalId : ℕ) (ordererId : UserId) (surveyQuestionId : ℕ)
      (disputeReason : String)
  | offerCreate (proposalId : ℕ) (runnerId : UserId)
  | offerCancel (offerId : ℕ) (runnerId : UserId)
  | offerAccept (offerId : ℕ) (ordererId : UserId)
  | completeDelivery (offerId : ℕ) (runnerId : UserId)
  | offerDispute (offerId : ℕ) (runnerId : UserId) (surveyQuestionId : ℕ)
      (disputeReason : String)
  | resolve (offerId : ℕ)
  | reportCreate (proposalId : ℕ) (reporterId : UserId) (request : ProposalReportCreateRequest)
  | reportAccept (reportId : ℕ)
  | reportReject (reportId : ℕ)
  | withdrawUser (userId : UserId)
  deriving DecidableEq

namespace Call

/-- The user a router authenticates; the administrator's routes have none. -/
def actor : Call → Option UserId
  | .proposalCreate _ uid | .proposalUpdate _ _ uid | .proposalCancel _ uid
  | .confirmReceived _ uid | .proposalDispute _ uid _ _ | .offerCreate _ uid
  | .offerCancel _ uid | .offerAccept _ uid | .completeDelivery _ uid
  | .offerDispute _ uid _ _ | .reportCreate _ uid _ | .withdrawUser uid => some uid
  | .confirmPayment _ | .resolve _ | .reportAccept _ | .reportReject _ => none

/-- `get_current_user`, once the token has been verified. -/
def authenticate (db : Db) (call : Call) : Except Failure Unit :=
  match call.actor with
  | none => return ()
  | some uid => do
      let _ ← orRaise ((db.users.find? uid).filter fun user => ! user.deleted)
        (apiError .userNotFound)
      return ()

/-- The service method behind a call. -/
def body (db : Db) (now : Readings) : Call → Except Failure UnitOfWork
  | .proposalCreate request uid => ProposalService.create db request uid now
  | .proposalUpdate pid request uid => ProposalService.update db pid request uid now
  | .proposalCancel pid uid => ProposalService.cancel db pid uid
  | .confirmPayment pid => ProposalService.confirmPayment db pid
  | .confirmReceived pid uid => ProposalService.confirmReceived db pid uid now
  | .proposalDispute pid uid qid reason => ProposalService.raiseDispute db pid uid qid reason now
  | .offerCreate pid uid => OfferService.create db pid uid
  | .offerCancel oid uid => OfferService.cancel db oid uid
  | .offerAccept oid uid => OfferService.accept db oid uid now
  | .completeDelivery oid uid => OfferService.completeDelivery db oid uid now
  | .offerDispute oid uid qid reason => OfferService.raiseDispute db oid uid qid reason now
  | .resolve oid => OfferService.resolve db oid now
  | .reportCreate pid uid request => ProposalReportService.create db pid uid request
  | .reportAccept rid => ProposalReportService.accept db rid now
  | .reportReject rid => ProposalReportService.reject db rid now
  | .withdrawUser uid => UserWithdrawalService.withdrawUser db uid now

/-- The `except IntegrityError` clauses: an offer is a duplicate if the named
constraint is violated, a report if any is. -/
def reply : Call → Failure → Failure
  | .offerCreate _ _, .integrityError constraint =>
      if constraint = "uk_proposal_runner" ∨ constraint = "uq_proposal_runner" then
        apiError .duplicateOffer
      else .integrityError constraint
  | .reportCreate _ _ _, .integrityError _ => apiError .duplicateProposalReport
  | _, failure => failure

end Call

/-- A call, and what the clock shows while it runs. -/
structure Request where
  call : Call
  now : Readings

/-- A committed transaction: the request, what it wrote, and the database it left
behind. -/
structure Entry where
  request : Request
  work : UnitOfWork
  committed : Db

/-- The committed database, and the transactions that made it, latest first. -/
structure World where
  db : Db
  log : List Entry

/-- The read step and the commit step of a request. -/
def service (bus : EventBus) : Service World Request UnitOfWork Failure where
  read w r := do
    r.call.authenticate w.db
    r.call.body w.db r.now
  commit w r u :=
    match u.commit r.now.flush w.db bus with
    | .error failure => .error (r.call.reply failure)
    | .ok db => .ok ⟨db, ⟨r, u, db⟩ :: w.log⟩

/-! ## The empty database -/

/-- What an empty database holds: the registered users with what belongs to
them, and the questions. -/
structure MasterData where
  users : Table User
  reasonQuestions : AutoTable ProposalReportReasonQuestion
  surveyQuestions : AutoTable DisputeSurveyQuestion
  verifications : AutoTable AuthPhoneVerification
  fcmTokens : AutoTable UserFCMToken
  settlementAccounts : AutoTable SettlementAccount

/-- The world before the first call. -/
def World.initial (m : MasterData) : World where
  db := {
    users := m.users
    proposals := AutoTable.empty
    offers := AutoTable.empty
    reports := AutoTable.empty
    reasonQuestions := m.reasonQuestions
    evidences := AutoTable.empty
    surveyQuestions := m.surveyQuestions
    notifications := AutoTable.empty
    verifications := m.verifications
    fcmTokens := m.fcmTokens
    settlementAccounts := m.settlementAccounts }
  log := []

/-- The world after requests executed one at a time. -/
def World.after (bus : EventBus) (m : MasterData) (rs : List Request) : World :=
  Runs.run (service bus).call (World.initial m) rs

/-! ## A small town -/

namespace Sample

/-- A registered user without a finished errand. -/
def user (id : UserId) : User where
  id := id
  passwordHash := some id
  name := some id
  phone := none
  phoneVerifiedAt := some 0
  lastLoginAt := some 0
  alarmEnabled := some true
  level := 0
  deleted := false
  deletedAt := none

/-- An orderer and two runners. -/
def master : MasterData where
  users := ⟨[user "orderer", user "runner", user "rival"], by decide⟩
  reasonQuestions := AutoTable.empty.insert fun k => ⟨k, "spam", true⟩
  surveyQuestions := AutoTable.empty.insert fun k => ⟨k, .runner, true⟩
  verifications := AutoTable.empty
  fcmTokens := AutoTable.empty
  settlementAccounts := AutoTable.empty

def bus : EventBus := EventBus.empty.registerAll

def errand : ProposalRequest := ⟨"errand", "bring coffee", 100000, 5000⟩

/-- The call that runs as the `t`-th one, under a clock that never stands still. -/
def request (t : ℕ) (call : Call) : Request :=
  ⟨call, ⟨10 * t, 10 * t + 1, 10 * t + 2, 10 * t + 3⟩⟩

/-- An errand is posted, and both runners apply for it. -/
def offered : List Request := [
  request 1 (.proposalCreate errand "orderer"),
  request 2 (.confirmPayment 1),
  request 3 (.offerCreate 1 "runner"),
  request 4 (.offerCreate 1 "rival")]

/-- The first runner is chosen. -/
def matched : List Request := offered ++ [request 5 (.offerAccept 1 "orderer")]

/-- The runner confirms, then the orderer. -/
def delivered : List Request := matched ++ [
  request 6 (.completeDelivery 1 "runner"),
  request 7 (.confirmReceived 1 "orderer")]

/-- The orderer confirms, then the runner. -/
def received : List Request := matched ++ [
  request 6 (.confirmReceived 1 "orderer"),
  request 7 (.completeDelivery 1 "runner")]

end Sample

/-! ## What the two steps do -/

section Spec

variable {bus : EventBus} {w w' : World} {r : Request} {u : UnitOfWork}

theorem authenticate_eq_ok {db : Db} {call : Call} {x : Unit} :
    call.authenticate db = .ok x ↔
      ∀ uid, call.actor = some uid → ∃ user ∈ db.users, user.id = uid ∧ user.deleted = false := by
  unfold Call.authenticate
  cases call.actor with
  | none => simp
  | some uid =>
      simp only [bind_eq_ok, orRaise_eq_ok, Option.filter_eq_some_iff, pure_eq_ok, and_true,
        Table.find?_eq_some_iff, Option.some.injEq, forall_eq']
      constructor
      · rintro ⟨user, ⟨huser, hid⟩, hdel⟩
        exact ⟨user, huser, hid, by simpa using hdel⟩
      · rintro ⟨user, huser, hid, hdel⟩
        exact ⟨user, ⟨huser, hid⟩, by simpa using hdel⟩

theorem service_read_eq_ok : (service bus).read w r = .ok u ↔
    r.call.authenticate w.db = .ok () ∧ r.call.body w.db r.now = .ok u := by
  simp only [service, bind_eq_ok]
  constructor
  · rintro ⟨⟨⟩, h⟩
    exact h
  · intro h
    exact ⟨(), h⟩

theorem service_commit_eq_ok : (service bus).commit w r u = .ok w' ↔
    ∃ db, u.commit r.now.flush w.db bus = .ok db ∧ w' = ⟨db, ⟨r, u, db⟩ :: w.log⟩ := by
  cases h : u.commit r.now.flush w.db bus with
  | error failure => simp [service, h]
  | ok db => simp [service, h, eq_comm]

/-- **A request executed at one stroke** changes nothing, or commits the unit of
work it has prepared on the same database. -/
theorem call_cases (bus : EventBus) (w : World) (r : Request) :
    (service bus).call w r = w ∨ ∃ u db, r.call.authenticate w.db = .ok () ∧
      r.call.body w.db r.now = .ok u ∧ u.commit r.now.flush w.db bus = .ok db ∧
        (service bus).call w r = ⟨db, ⟨r, u, db⟩ :: w.log⟩ := by
  rcases Service.call_cases (S := service bus) w r with h | ⟨u, hr, hc⟩
  · exact Or.inl h
  · obtain ⟨db, hdb, hw⟩ := service_commit_eq_ok.1 hc
    obtain ⟨hauth, hbody⟩ := service_read_eq_ok.1 hr
    exact Or.inr ⟨u, db, hauth, hbody, hdb, hw⟩

/-- A request that gets past its guards and inserts neither an offer nor a report
goes through. -/
theorem call_of_body (bus : EventBus) (hauth : r.call.authenticate w.db = .ok ())
    (hbody : r.call.body w.db r.now = .ok u) (ho : u.newOffer = none) (hr : u.newReport = none) :
    ∃ db, u.commit r.now.flush w.db bus = .ok db ∧
      (service bus).call w r = ⟨db, ⟨r, u, db⟩ :: w.log⟩ := by
  obtain ⟨db, hdb⟩ := UnitOfWork.commit_of_none ho hr r.now.flush w.db bus
  exact ⟨db, hdb, Service.call_eq (service_read_eq_ok.2 ⟨hauth, hbody⟩)
    (service_commit_eq_ok.2 ⟨db, hdb, rfl⟩)⟩

end Spec

/-- The parts of a unit of work that only one kind of call fills. -/
structure Call.Fills (call : Call) (u : UnitOfWork) : Prop where
  newProposal : u.newProposal = none ∨ ∃ request uid, call = .proposalCreate request uid
  newOffer : u.newOffer = none ∨ ∃ pid uid, call = .offerCreate pid uid
  newReport : u.newReport = none ∨ ∃ pid uid request, call = .reportCreate pid uid request
  users : (u.users = [] ∧ u.purge = none) ∨ ∃ uid, call = .withdrawUser uid

/-- Most calls fill none of them. -/
theorem Call.fills_nothing {call : Call} {u : UnitOfWork} (hproposal : u.newProposal = none)
    (hoffer : u.newOffer = none) (hreport : u.newReport = none) (husers : u.users = [])
    (hpurge : u.purge = none) : call.Fills u :=
  ⟨Or.inl hproposal, Or.inl hoffer, Or.inl hreport, Or.inl ⟨husers, hpurge⟩⟩

theorem body_fills {call : Call} {db : Db} {now : Readings} {u : UnitOfWork}
    (h : call.body db now = .ok u) : call.Fills u := by
  cases call with
  | proposalCreate request uid =>
      obtain ⟨p, -, -, -, -, -, -, -, rfl⟩ := ProposalService.create_eq_ok h
      exact ⟨Or.inr ⟨request, uid, rfl⟩, Or.inl rfl, Or.inl rfl, Or.inl ⟨rfl, rfl⟩⟩
  | proposalUpdate pid request uid =>
      obtain ⟨p, -, -, -, -, rfl⟩ := ProposalService.update_eq_ok h
      exact Call.fills_nothing rfl rfl rfl rfl rfl
  | proposalCancel pid uid =>
      obtain ⟨p, -, -, -, -, rfl⟩ := ProposalService.cancel_eq_ok h
      exact Call.fills_nothing rfl rfl rfl rfl rfl
  | confirmPayment pid =>
      obtain ⟨p, -, -, -, rfl⟩ := ProposalService.confirmPayment_eq_ok h
      exact Call.fills_nothing rfl rfl rfl rfl rfl
  | confirmReceived pid uid =>
      obtain ⟨p, o, -, -, -, -, ⟨-, _, rfl⟩ | ⟨-, _, rfl⟩⟩ :=
        ProposalService.confirmReceived_eq_ok h <;>
      exact Call.fills_nothing rfl rfl rfl rfl rfl
  | proposalDispute pid uid qid reason =>
      obtain ⟨p, o, -, -, -, -, -, _, rfl⟩ := ProposalService.raiseDispute_eq_ok h
      exact Call.fills_nothing rfl rfl rfl rfl rfl
  | offerCreate pid uid =>
      obtain ⟨p, -, -, -, -, -, _, rfl⟩ := OfferService.create_eq_ok h
      exact ⟨Or.inl rfl, Or.inr ⟨pid, uid, rfl⟩, Or.inl rfl, Or.inl ⟨rfl, rfl⟩⟩
  | offerCancel oid uid =>
      obtain ⟨o, -, -, -, -, rfl⟩ := OfferService.cancel_eq_ok h
      exact Call.fills_nothing rfl rfl rfl rfl rfl
  | offerAccept oid uid =>
      obtain ⟨p, o, -, -, -, -, -, -, _, rfl⟩ := OfferService.accept_eq_ok h
      exact Call.fills_nothing rfl rfl rfl rfl rfl
  | completeDelivery oid uid =>
      obtain ⟨p, o, -, -, -, -, ⟨-, _, rfl⟩ | ⟨-, _, rfl⟩⟩ :=
        OfferService.completeDelivery_eq_ok h <;>
      exact Call.fills_nothing rfl rfl rfl rfl rfl
  | offerDispute oid uid qid reason =>
      obtain ⟨p, o, -, -, -, -, -, _, rfl⟩ := OfferService.raiseDispute_eq_ok h
      exact Call.fills_nothing rfl rfl rfl rfl rfl
  | resolve oid =>
      obtain ⟨p, o, -, -, -, -, rfl⟩ := OfferService.resolve_eq_ok h
      exact Call.fills_nothing rfl rfl rfl rfl rfl
  | reportCreate pid uid request =>
      obtain ⟨p, -, -, -, -, _, -, -, -, -, rfl⟩ := ProposalReportService.create_eq_ok h
      exact ⟨Or.inl rfl, Or.inl rfl, Or.inr ⟨pid, uid, request, rfl⟩, Or.inl ⟨rfl, rfl⟩⟩
  | reportAccept rid =>
      obtain ⟨p, -, _, -, -, -, -, ⟨-, rfl⟩ | ⟨-, rfl⟩⟩ := ProposalReportService.accept_eq_ok h <;>
      exact Call.fills_nothing rfl rfl rfl rfl rfl
  | reportReject rid =>
      obtain ⟨_, -, -, -, rfl⟩ := ProposalReportService.reject_eq_ok h
      exact Call.fills_nothing rfl rfl rfl rfl rfl
  | withdrawUser uid =>
      obtain ⟨_, -, -, -, -, rfl⟩ := UserWithdrawalService.withdrawUser_eq_ok h
      exact ⟨Or.inl rfl, Or.inl rfl, Or.inl rfl, Or.inr ⟨uid, rfl⟩⟩

end OrderRun
