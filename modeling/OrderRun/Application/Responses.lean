import OrderRun.Lib.Raises
import OrderRun.Application.Moderation
import OrderRun.Concurrent.Commits

/-!
# What a client is told

Each route lists the errors it may answer with (`error_responses` in `app/core/openapi.py`);
every other error is one the client has not been told about, and a `ValueError` or an
`IntegrityError` that escapes is a 500.  This file proves that nothing of the kind escapes
from the four services: the checks before a transition cover what the transition checks
again, the database has every row that another row refers to, and a constraint that is
violated by an overlapping call is translated.

* `errorResponses`, `Call.documented` — what the routes list.
* `getCurrentUser`, `serve` — a request with its credentials.
* `body_raises`, `serve_raises` — what a call can raise on a database with all its
  references.
* `Db.Referred` — these references, kept by every commit of every interleaving.
* `responses_documented` — the list of a route is complete, but for the users who have left.
-/

namespace OrderRun

open Store Split

/-! ## The documented errors -/

/-- The errors of a route, with all about tokens if there is one. -/
def expandedErrors (errors : List AppError) : List AppError :=
  if .invalidToken ∈ errors then
    errors ++ [.missingCredentials, .invalidTokenCredentials, .invalidTokenType,
      .invalidAuthenticationCredentials].filter (· ∉ errors)
  else errors

/-- The examples shown for each status of the response. -/
def errorResponses (errors : List AppError) (httpStatus : ℕ) : List AppError :=
  (expandedErrors errors).filter fun error => (ERRORS error).httpStatus = httpStatus

/-- The status and the body are those of an example, details aside. -/
def Failure.Shown (responses : ℕ → List AppError) : Failure → Prop
  | .http statusCode detail =>
      ∃ error ∈ responses statusCode, ∃ details, detail = errorDetail error details
  | .valueError _ => False
  | .integrityError _ => False

/-- The errors the route of a call lists. -/
def Call.documented : Call → List AppError
  | .proposalCreate _ _ =>
      [.invalidToken, .validationError, .userNotFound, .invalidDateTimeFormat,
        .proposalDeadlineInvalid, .proposalErrandFeeInvalid]
  | .proposalUpdate _ _ _ =>
      [.invalidToken, .validationError, .proposalNotFound, .forbidden, .proposalNotEditable,
        .invalidDateTimeFormat, .proposalDeadlineInvalid, .proposalErrandFeeInvalid]
  | .proposalCancel _ _ =>
      [.invalidToken, .proposalNotFound, .forbidden, .proposalNotCancellable]
  | .confirmPayment _ => [.validationError, .proposalNotFound, .invalidStatus]
  | .confirmReceived _ _ =>
      [.invalidToken, .proposalNotFound, .offerNotFound, .forbidden, .proposalNotUpdatable]
  | .proposalDispute _ _ _ _ =>
      [.invalidToken, .validationError, .proposalNotFound, .offerNotFound, .forbidden,
        .proposalNotUpdatable]
  | .offerCreate _ _ =>
      [.invalidToken, .validationError, .offerProposalNotFound, .selfOfferNotAllowed,
        .proposalNotOpen, .duplicateOffer]
  | .offerCancel _ _ => [.invalidToken, .offerNotFound, .forbidden, .offerNotCancellable]
  | .offerAccept _ _ =>
      [.invalidToken, .validationError, .offerNotFound, .forbidden, .offerNotAcceptable,
        .proposalNotMatchable]
  | .completeDelivery _ _ =>
      [.invalidToken, .validationError, .offerNotFound, .forbidden, .offerNotUpdatable]
  | .offerDispute _ _ _ _ =>
      [.invalidToken, .validationError, .offerNotFound, .forbidden, .offerNotUpdatable]
  | .resolve _ => [.offerNotFound, .offerNotUpdatable]
  | .reportCreate _ _ _ =>
      [.invalidToken, .validationError, .proposalNotFound, .proposalNotReportable,
        .proposalSelfReportNotAllowed, .duplicateProposalReport]
  | .reportAccept _ =>
      [.proposalReportNotFound, .proposalReportNotReviewable, .proposalNotReportable]
  | .reportReject _ => [.proposalReportNotFound, .proposalReportNotReviewable]
  | .withdrawUser _ => [.invalidToken, .userNotFound, .userWithdrawalBlocked]

section Shown

variable {errors : List AppError} {e : AppError}

theorem mem_expandedErrors (h : e ∈ errors) : e ∈ expandedErrors errors := by
  unfold expandedErrors
  split
  · exact List.mem_append_left _ h
  · exact h

/-- A route that lists `INVALID_TOKEN` shows every error about a token. -/
theorem mem_expandedErrors_of_token (htoken : .invalidToken ∈ errors)
    (h : e ∈ [.missingCredentials, .invalidTokenCredentials, .invalidTokenType,
      .invalidAuthenticationCredentials]) : e ∈ expandedErrors errors := by
  rw [expandedErrors, if_pos htoken]
  by_cases hmem : e ∈ errors
  · exact List.mem_append_left _ hmem
  · exact List.mem_append_right _ (List.mem_filter.2 ⟨h, by simpa using hmem⟩)

theorem shown_of_expanded (h : e ∈ expandedErrors errors) (details : Option String) :
    (apiError e details).Shown (errorResponses errors) :=
  ⟨e, List.mem_filter.2 ⟨h, by simp⟩, details, rfl⟩

end Shown

section Guards

variable {E : Failure → Prop} {failure : Failure}

theorem raises_guard {bad : Prop} [Decidable bad] (h : bad → E failure) :
    Raises E (raiseIf bad failure) := by
  unfold raiseIf
  exact .ite (fun hbad => .error (h hbad)) fun _ => .ok ()

theorem raises_lookup {α : Type} {found : Option α} (h : found = none → E failure) :
    Raises E (orRaise found failure) := by
  cases found with
  | none => exact .error (h rfl)
  | some a => exact .ok a

end Guards

/-- The failures that the route of a call shows. -/
def Call.Told (call : Call) (failure : Failure) : Prop :=
  failure.Shown (errorResponses call.documented)

section Told

variable {call : Call} {e : AppError}

/-- An error that is listed is shown. -/
theorem Call.told (h : e ∈ call.documented) (details : Option String) :
    call.Told (apiError e details) :=
  shown_of_expanded (mem_expandedErrors h) details

/-- A guard with a listed error. -/
theorem raises_raiseIf {bad : Prop} [Decidable bad] {details : Option String}
    (h : e ∈ call.documented) : Raises call.Told (raiseIf bad (apiError e details)) :=
  raises_guard fun _ => Call.told h details

/-- A lookup with a listed error. -/
theorem raises_orRaise {α : Type} {found : Option α} {details : Option String}
    (h : e ∈ call.documented) : Raises call.Told (orRaise found (apiError e details)) :=
  raises_lookup fun _ => Call.told h details

end Told

/-! ## What the services raise -/

/-- Offers and reports refer to proposals that are there, an offer to somebody else's. -/
structure Db.Referred (db : Db) : Prop where
  offers : ∀ o ∈ db.offers, ∃ p ∈ db.proposals, p.id = o.proposalId ∧ p.ordererId ≠ o.runnerId
  reports : ∀ r ∈ db.reports, ∃ p ∈ db.proposals, p.id = r.proposalId

theorem Db.Referred.owned {db : Db} (h : db.Referred) : db.Owned := by
  intro o ho
  obtain ⟨p, hp, hid, -⟩ := h.offers o ho
  exact ⟨p, hp, hid⟩

theorem Db.Referred.noSelfOffer {db : Db} (h : db.Referred) : db.NoSelfOffer := by
  intro p o hpair
  obtain ⟨q, hq, hid, hne⟩ := h.offers o hpair.offer
  obtain rfl : q = p := AutoTable.eq_of_key_eq hq hpair.proposal (hid.trans hpair.proposalId)
  exact hne.symm

section Bodies

variable {db : Db} {now : Readings}

/-- The proposal of an offer is there, so looking it up raises nothing. -/
theorem getProposal_of_owned (howned : db.Owned) {o : Offer} (ho : o ∈ db.offers)
    (E : Failure → Prop) : Raises E (OfferService.getProposal db o.proposalId) := by
  obtain ⟨p, hp, hid⟩ := howned o ho
  exact .of_ok ⟨p, OfferService.getProposal_eq_ok.2 ⟨hp, hid⟩⟩

theorem create_raises (request : ProposalRequest) (uid : UserId) :
    Raises (Call.proposalCreate request uid).Told (ProposalService.create db request uid now) := by
  refine .bind (raises_orRaise (by simp [Call.documented])) fun _ _ => ?_
  refine .bind (.bind (.bind (raises_raiseIf (by simp [Call.documented])) fun _ _ => .pure _)
    fun _ _ => ?_) fun p _ => .pure _
  exact .bind (raises_raiseIf (by simp [Call.documented])) fun _ _ => .pure _

theorem update_raises (pid : ℕ) (request : ProposalRequest) (uid : UserId) :
    Raises (Call.proposalUpdate pid request uid).Told
      (ProposalService.update db pid request uid now) := by
  refine .bind (raises_orRaise (by simp [Call.documented])) fun p _ => ?_
  refine .bind (raises_raiseIf (by simp [Call.documented])) fun _ _ => ?_
  refine .bind (raises_raiseIf (by simp [Call.documented])) fun _ _ => ?_
  refine .bind (.bind (.bind (raises_raiseIf (by simp [Call.documented])) fun _ _ => .pure _)
    fun _ _ => ?_) fun _ _ => .pure _
  exact .bind (raises_raiseIf (by simp [Call.documented])) fun _ _ => .pure _

theorem cancel_raises (pid : ℕ) (uid : UserId) :
    Raises (Call.proposalCancel pid uid).Told (ProposalService.cancel db pid uid) := by
  refine .bind (raises_orRaise (by simp [Call.documented])) fun p _ => ?_
  refine .bind (raises_raiseIf (by simp [Call.documented])) fun _ _ => ?_
  exact .bind (raises_raiseIf (by simp [Call.documented])) fun _ _ => .pure _

theorem confirmPayment_raises (pid : ℕ) :
    Raises (Call.confirmPayment pid).Told (ProposalService.confirmPayment db pid) := by
  refine .bind (raises_orRaise (by simp [Call.documented])) fun p _ => ?_
  exact .bind (raises_raiseIf (by simp [Call.documented])) fun _ _ => .pure _

/-- The last step of a receipt finds the pair in a state it can complete, or leaves it. -/
theorem syncReceipt_raises (p : Proposal) (o : Offer) (E : Failure → Prop) :
    Raises E (ProposalService.syncAllCompleted p o) := by
  unfold ProposalService.syncAllCompleted
  refine .ite (fun hboth => ?_) fun _ => .pure _
  refine .bind (.of_ok ⟨_, Proposal.markAllCompleted_eq_ok.2 ⟨?_, rfl⟩⟩) fun p' _ => ?_
  · exact List.mem_pair.2 (Or.inl hboth.1)
  · refine .bind (.of_ok ⟨_, Offer.markAllCompleted_eq_ok.2 ⟨?_, rfl⟩⟩) fun o' _ => .pure _
    exact List.mem_pair.2 (Or.inl hboth.2)

theorem syncDelivery_raises (p : Proposal) (o : Offer) (E : Failure → Prop) :
    Raises E (OfferService.syncAllCompleted o p) := by
  unfold OfferService.syncAllCompleted
  refine .ite (fun hboth => ?_) fun _ => .pure _
  refine .bind (.of_ok ⟨_, Offer.markAllCompleted_eq_ok.2 ⟨?_, rfl⟩⟩) fun o' _ => ?_
  · exact List.mem_pair.2 (Or.inl hboth.1)
  · refine .bind (.of_ok ⟨_, Proposal.markAllCompleted_eq_ok.2 ⟨?_, rfl⟩⟩) fun p' _ => .pure _
    exact List.mem_pair.2 (Or.inl hboth.2)

theorem confirmReceived_raises (pid : ℕ) (uid : UserId) :
    Raises (Call.confirmReceived pid uid).Told
      (ProposalService.confirmReceived db pid uid now) := by
  refine .bind (raises_orRaise (by simp [Call.documented])) fun p _ => ?_
  refine .bind (raises_raiseIf (by simp [Call.documented])) fun _ _ => ?_
  refine .bind (raises_orRaise (by simp [Call.documented])) fun o _ => ?_
  refine .bind (raises_raiseIf (by simp [Call.documented])) fun _ hguard => ?_
  -- the guard is what the two transitions check again
  obtain ⟨hp, ho⟩ : p.canConfirmOrdererCompletion = true ∧
      o.canConfirmOrdererCompletion = true := by
    simpa using hguard
  refine .bind (.of_ok ⟨_, Proposal.confirmOrdererCompletion_eq_ok.2
    ⟨of_decide_eq_true hp, rfl⟩⟩) fun p₁ _ => ?_
  refine .bind (.of_ok ⟨_, Offer.confirmOrdererCompletion_eq_ok.2
    ⟨of_decide_eq_true ho, rfl⟩⟩) fun o₁ _ => ?_
  exact .bind (syncReceipt_raises p₁ o₁ _) fun _ _ => .pure _

theorem proposalDispute_raises (pid : ℕ) (uid : UserId) (qid : ℕ) (reason : String) :
    Raises (Call.proposalDispute pid uid qid reason).Told
      (ProposalService.raiseDispute db pid uid qid reason now) := by
  refine .bind (raises_orRaise (by simp [Call.documented])) fun p _ => ?_
  refine .bind (raises_raiseIf (by simp [Call.documented])) fun _ _ => ?_
  refine .bind (raises_orRaise (by simp [Call.documented])) fun o _ => ?_
  refine .bind (raises_raiseIf (by simp [Call.documented])) fun _ hguard => ?_
  obtain ⟨hp, ho⟩ : p.canRaiseDispute = true ∧ o.canRaiseDispute = true := by simpa using hguard
  refine .bind (raises_orRaise (by simp [Call.documented])) fun _ _ => ?_
  refine .bind (.of_ok ⟨_, Proposal.raiseDispute_eq_ok.2 ⟨of_decide_eq_true hp, rfl⟩⟩)
    fun p' _ => ?_
  exact .bind (.of_ok ⟨_, Offer.raiseDispute_eq_ok.2 ⟨of_decide_eq_true ho, rfl⟩⟩)
    fun o' _ => .pure _

theorem offerCreate_raises (pid : ℕ) (uid : UserId) :
    Raises (Call.offerCreate pid uid).Told (OfferService.create db pid uid) := by
  refine .bind (raises_orRaise (by simp [Call.documented])) fun p _ => ?_
  refine .bind (raises_raiseIf (by simp [Call.documented])) fun _ _ => ?_
  refine .bind (raises_raiseIf (by simp [Call.documented])) fun _ _ => ?_
  exact .bind (raises_raiseIf (by simp [Call.documented])) fun _ _ => .pure _

theorem offerCancel_raises (oid : ℕ) (uid : UserId) :
    Raises (Call.offerCancel oid uid).Told (OfferService.cancel db oid uid) := by
  refine .bind (raises_orRaise (by simp [Call.documented])) fun o _ => ?_
  refine .bind (raises_raiseIf (by simp [Call.documented])) fun _ _ => ?_
  refine .bind (raises_raiseIf (by simp [Call.documented])) fun _ hguard => ?_
  have hwaiting : o.status = .waiting := not_not.1 (raiseIf_eq_ok.1 hguard)
  exact .bind (.of_ok ⟨_, Offer.cancel_eq_ok.2 ⟨hwaiting, rfl⟩⟩) fun o' _ => .pure _

theorem offerAccept_raises (howned : db.Owned) (oid : ℕ) (uid : UserId) :
    Raises (Call.offerAccept oid uid).Told (OfferService.accept db oid uid now) := by
  refine .bind (raises_orRaise (by simp [Call.documented])) fun o ho => ?_
  refine .bind (getProposal_of_owned howned (OfferService.getOffer_eq_ok.1 ho).1 _) fun p _ => ?_
  refine .bind (raises_raiseIf (by simp [Call.documented])) fun _ _ => ?_
  refine .bind (raises_raiseIf (by simp [Call.documented])) fun _ hguard => ?_
  have hwaiting : o.status = .waiting := not_not.1 (raiseIf_eq_ok.1 hguard)
  refine .bind (raises_raiseIf (by simp [Call.documented])) fun _ _ => ?_
  refine .bind (raises_raiseIf (by simp [Call.documented])) fun _ _ => ?_
  exact .bind (.of_ok ⟨_, Offer.accept_eq_ok.2 ⟨hwaiting, rfl⟩⟩) fun o' _ => .pure _

theorem completeDelivery_raises (howned : db.Owned) (oid : ℕ) (uid : UserId) :
    Raises (Call.completeDelivery oid uid).Told
      (OfferService.completeDelivery db oid uid now) := by
  refine .bind (raises_orRaise (by simp [Call.documented])) fun o ho => ?_
  refine .bind (raises_raiseIf (by simp [Call.documented])) fun _ _ => ?_
  refine .bind (getProposal_of_owned howned (OfferService.getOffer_eq_ok.1 ho).1 _) fun p _ => ?_
  refine .bind (raises_raiseIf (by simp [Call.documented])) fun _ hguard => ?_
  obtain ⟨hcan, hps⟩ : o.canConfirmRunnerCompletion = true ∧
      p.status ∈ [.matched, .orderCompleted] := by
    have h := raiseIf_eq_ok.1 hguard
    tauto
  refine .bind (.of_ok ⟨_, Offer.confirmRunnerCompletion_eq_ok.2
    ⟨of_decide_eq_true hcan, rfl⟩⟩) fun o₁ ho₁ => ?_
  refine .bind (.ite (fun _ => .of_ok ⟨_, Proposal.confirmRunnerCompletion_eq_ok.2 ⟨hps, rfl⟩⟩)
    fun _ => .pure _) fun p₁ _ => ?_
  -- the offer is `RUNNER_COMPLETED` now, so the orderer's side can be stamped
  have hrunner : o₁.status ∈ [.accepted, .runnerCompleted] := by
    rw [← (Offer.confirmRunnerCompletion_eq_ok.1 ho₁).2]
    exact List.mem_pair.2 (Or.inr rfl)
  refine .bind (.ite (fun _ => .of_ok ⟨_, Offer.confirmOrdererCompletion_eq_ok.2
    ⟨hrunner, rfl⟩⟩) fun _ => .pure _) fun o₂ _ => ?_
  exact .bind (syncDelivery_raises p₁ o₂ _) fun _ _ => .pure _

theorem offerDispute_raises (howned : db.Owned) (oid : ℕ) (uid : UserId) (qid : ℕ)
    (reason : String) : Raises (Call.offerDispute oid uid qid reason).Told
      (OfferService.raiseDispute db oid uid qid reason now) := by
  refine .bind (raises_orRaise (by simp [Call.documented])) fun o ho => ?_
  refine .bind (raises_raiseIf (by simp [Call.documented])) fun _ _ => ?_
  refine .bind (getProposal_of_owned howned (OfferService.getOffer_eq_ok.1 ho).1 _) fun p _ => ?_
  refine .bind (raises_raiseIf (by simp [Call.documented])) fun _ hguard => ?_
  obtain ⟨ho', hp'⟩ : o.canRaiseDispute = true ∧ p.canRaiseDispute = true := by simpa using hguard
  refine .bind (raises_orRaise (by simp [Call.documented])) fun _ _ => ?_
  refine .bind (.of_ok ⟨_, Offer.raiseDispute_eq_ok.2 ⟨of_decide_eq_true ho', rfl⟩⟩)
    fun _ _ => ?_
  exact .bind (.of_ok ⟨_, Proposal.raiseDispute_eq_ok.2 ⟨of_decide_eq_true hp', rfl⟩⟩)
    fun _ _ => .pure _

theorem resolve_raises (howned : db.Owned) (oid : ℕ) :
    Raises (Call.resolve oid).Told (OfferService.resolve db oid now) := by
  refine .bind (raises_orRaise (by simp [Call.documented])) fun o ho => ?_
  refine .bind (getProposal_of_owned howned (OfferService.getOffer_eq_ok.1 ho).1 _) fun p _ => ?_
  refine .bind (raises_raiseIf (by simp [Call.documented])) fun _ hguard => ?_
  obtain ⟨ho', hp'⟩ : o.canResolve = true ∧ p.canResolve = true := by simpa using hguard
  refine .bind (.of_ok ⟨_, Offer.resolve_eq_ok.2 ⟨of_decide_eq_true ho', rfl⟩⟩) fun _ _ => ?_
  exact .bind (.of_ok ⟨_, Proposal.resolve_eq_ok.2 ⟨of_decide_eq_true hp', rfl⟩⟩)
    fun _ _ => .pure _

theorem reportCreate_raises (pid : ℕ) (uid : UserId) (request : ProposalReportCreateRequest) :
    Raises (Call.reportCreate pid uid request).Told
      (ProposalReportService.create db pid uid request) := by
  refine .bind (raises_orRaise (by simp [Call.documented])) fun p _ => ?_
  refine .bind (raises_raiseIf (by simp [Call.documented])) fun _ _ => ?_
  refine .bind (raises_raiseIf (by simp [Call.documented])) fun _ _ => ?_
  exact .bind (raises_orRaise (by simp [Call.documented])) fun _ _ => .pure _

theorem reportAccept_raises (h : db.Referred) (rid : ℕ) :
    Raises (Call.reportAccept rid).Told (ProposalReportService.accept db rid now) := by
  refine .bind (raises_orRaise (by simp [Call.documented])) fun report hreport => ?_
  refine .bind (raises_raiseIf (by simp [Call.documented])) fun _ _ => ?_
  obtain ⟨p, hp, hid⟩ :=
    h.reports report (AutoTable.find?_eq_some_iff.1 (orRaise_eq_ok.1 hreport)).1
  refine .bind (.of_ok ⟨p, ProposalReportService.getProposal_eq_ok.2 ⟨hp, hid⟩⟩) fun _ _ => ?_
  exact .bind (raises_raiseIf (by simp [Call.documented])) fun _ _ => .pure _

theorem reportReject_raises (rid : ℕ) :
    Raises (Call.reportReject rid).Told (ProposalReportService.reject db rid now) := by
  refine .bind (raises_orRaise (by simp [Call.documented])) fun report _ => ?_
  exact .bind (raises_raiseIf (by simp [Call.documented])) fun _ _ => .pure _

/-- The third loop of a withdrawal meets no object that the first has cancelled, as nobody
runs her own errand. -/
theorem withdrawUser_raises (hself : db.NoSelfOffer) (uid : UserId) :
    Raises (Call.withdrawUser uid).Told (UserWithdrawalService.withdrawUser db uid now) := by
  refine .bind (raises_orRaise (by simp [Call.documented])) fun user huser => ?_
  refine .bind (raises_raiseIf (by simp [Call.documented])) fun _ hguard => ?_
  obtain ⟨hmem, hid, hactive⟩ := ProposalService.getExistingUser_eq_ok.1 huser
  have hfree : ¬ UserWithdrawalService.Busy db user.id := fun hbusy =>
    raiseIf_eq_ok.1 hguard (UserWithdrawalService.hasBlockingActivity_iff.2 hbusy)
  obtain ⟨u, hu⟩ := UserWithdrawalService.withdrawUser_of_free hmem hactive hfree hself now
  simp only [UserWithdrawalService.withdrawUser, bind_eq_ok] at hu
  obtain ⟨user', huser', -, -, x, hx, -⟩ := hu
  obtain ⟨hmem', hid', -⟩ := ProposalService.getExistingUser_eq_ok.1 huser'
  obtain rfl : user' = user := Table.eq_of_key_eq hmem' hmem hid'
  exact .bind (.of_ok ⟨x, hx⟩) fun _ _ => .pure _

/-- **What a call can raise**: what its route lists. -/
theorem body_raises (h : db.Referred) (call : Call) : Raises call.Told (call.body db now) := by
  have howned := h.owned
  cases call with
  | proposalCreate request uid => exact create_raises request uid
  | proposalUpdate pid request uid => exact update_raises pid request uid
  | proposalCancel pid uid => exact cancel_raises pid uid
  | confirmPayment pid => exact confirmPayment_raises pid
  | confirmReceived pid uid => exact confirmReceived_raises pid uid
  | proposalDispute pid uid qid reason => exact proposalDispute_raises pid uid qid reason
  | offerCreate pid uid => exact offerCreate_raises pid uid
  | offerCancel oid uid => exact offerCancel_raises oid uid
  | offerAccept oid uid => exact offerAccept_raises howned oid uid
  | completeDelivery oid uid => exact completeDelivery_raises howned oid uid
  | offerDispute oid uid qid reason => exact offerDispute_raises howned oid uid qid reason
  | resolve oid => exact resolve_raises howned oid
  | reportCreate pid uid request => exact reportCreate_raises pid uid request
  | reportAccept rid => exact reportAccept_raises h rid
  | reportReject rid => exact reportReject_raises rid
  | withdrawUser uid => exact withdrawUser_raises h.noSelfOffer uid

end Bodies

/-! ## A request with its credentials -/

/-- The call as its route makes it for the user the token names. -/
def Call.as (uid : UserId) : Call → Call
  | .proposalCreate request _ => .proposalCreate request uid
  | .proposalUpdate pid request _ => .proposalUpdate pid request uid
  | .proposalCancel pid _ => .proposalCancel pid uid
  | .confirmReceived pid _ => .confirmReceived pid uid
  | .proposalDispute pid _ qid reason => .proposalDispute pid uid qid reason
  | .offerCreate pid _ => .offerCreate pid uid
  | .offerCancel oid _ => .offerCancel oid uid
  | .offerAccept oid _ => .offerAccept oid uid
  | .completeDelivery oid _ => .completeDelivery oid uid
  | .offerDispute oid _ qid reason => .offerDispute oid uid qid reason
  | .reportCreate pid _ request => .reportCreate pid uid request
  | .withdrawUser _ => .withdrawUser uid
  | call => call

def getCurrentUser (settings : Settings) (db : Db) (credentials : Option String) :
    Except Failure User := do
  let token ← orRaise credentials (apiError .missingCredentials)
  let payload ← settings.verifyToken token "access"
  let userId ← orRaise (payload.sub.filter (· ≠ "")) (apiError .invalidAuthenticationCredentials)
  currentUser db userId

/-- What a route does before anything is committed.  The administrator's routes take no
token. -/
def serve (settings : Settings) (db : Db) (credentials : Option String) (r : Request) :
    Except Failure (Call × UnitOfWork) :=
  match r.call.actor with
  | none => do
      let u ← r.call.body db r.now
      return (r.call, u)
  | some _ => do
      let user ← getCurrentUser settings db credentials
      let u ← (r.call.as user.id).body db r.now
      return (r.call.as user.id, u)

/-- The token is good, but the account it was issued for is not active. -/
def Departed (settings : Settings) (db : Db) (credentials : Option String) : Prop :=
  ∃ token claims uid, credentials = some token ∧ settings.verifyToken token "access" = .ok claims ∧
    claims.sub = some uid ∧ ∀ user ∈ db.users, user.id = uid → user.deleted = true

section Handle

variable {settings : Settings} {db : Db} {credentials : Option String} {r : Request}

theorem Call.documented_as (call : Call) (uid : UserId) :
    (call.as uid).documented = call.documented := by
  cases call <;> rfl

theorem Call.actor_as {call : Call} {uid uid' : UserId} (h : call.actor = some uid') :
    (call.as uid).actor = some uid := by
  cases call <;> first | rfl | exact absurd h (by simp [Call.actor])

/-- Every route with a token lists `INVALID_TOKEN`. -/
theorem Call.lists_token {call : Call} {uid : UserId} (h : call.actor = some uid) :
    .invalidToken ∈ call.documented := by
  cases call <;> simp [Call.actor] at h <;> simp [Call.documented]

theorem getCurrentUser_eq_ok {user : User} (h : getCurrentUser settings db credentials = .ok user) :
    user ∈ db.users ∧ user.deleted = false := by
  simp only [getCurrentUser, bind_eq_ok] at h
  obtain ⟨-, -, -, -, uid, -, huser⟩ := h
  obtain ⟨hmem, -, hactive⟩ := currentUser_eq_ok huser
  exact ⟨hmem, hactive⟩

/-- **What the service is asked to do** is the read step of the call, made by the user the
token names. -/
theorem read_of_handle {bus : EventBus} {w : World} {call : Call} {u : UnitOfWork}
    (h : serve settings w.db credentials r = .ok (call, u)) :
    (service bus).read w ⟨call, r.now⟩ = .ok u := by
  unfold serve at h
  cases hactor : r.call.actor with
  | none =>
      simp only [hactor, bind_eq_ok, pure_eq_ok, Prod.mk.injEq] at h
      obtain ⟨u', hbody, rfl, rfl⟩ := h
      exact service_read_eq_ok.2 ⟨authenticate_eq_ok.2 (by simp [hactor]), hbody⟩
  | some uid =>
      simp only [hactor, bind_eq_ok, pure_eq_ok, Prod.mk.injEq] at h
      obtain ⟨user, huser, u', hbody, rfl, rfl⟩ := h
      obtain ⟨hmem, hactive⟩ := getCurrentUser_eq_ok huser
      refine service_read_eq_ok.2 ⟨authenticate_eq_ok.2 ?_, hbody⟩
      intro uid' hactor'
      rw [Call.actor_as hactor, Option.some.injEq] at hactor'
      exact ⟨user, hmem, hactor', hactive⟩

/-- The error is about the token, or about the account it was issued for. -/
def BadCredentials (settings : Settings) (db : Db) (credentials : Option String)
    (failure : Failure) : Prop :=
  (∃ e ∈ [.missingCredentials, .invalidTokenCredentials, .invalidTokenType,
      .invalidAuthenticationCredentials], failure = apiError e) ∨
    failure = apiError .userNotFound ∧ Departed settings db credentials

theorem getCurrentUser_raises :
    Raises (BadCredentials settings db credentials) (getCurrentUser settings db credentials) := by
  refine .bind (raises_lookup fun _ => Or.inl ⟨_, by simp, rfl⟩) fun token htoken => ?_
  rw [orRaise_eq_ok] at htoken
  refine .bind ?_ fun claims hclaims => ?_
  · refine .bind (raises_lookup fun _ => Or.inl ⟨_, by simp, rfl⟩) fun payload _ => ?_
    exact .bind (raises_guard fun _ => Or.inl ⟨_, by simp, rfl⟩) fun _ _ => .pure payload
  · refine .bind (raises_lookup fun _ => Or.inl ⟨_, by simp, rfl⟩) fun uid huid => ?_
    obtain ⟨hsub, -⟩ := Option.filter_eq_some_iff.1 (orRaise_eq_ok.1 huid)
    refine raises_lookup fun hnone => Or.inr ⟨rfl, token, claims, uid, htoken, hclaims, hsub, ?_⟩
    intro user huser hid
    rw [Option.filter_eq_none_iff] at hnone
    simpa using hnone user (Table.find?_eq_some_iff.2 ⟨huser, hid⟩)

/-- **What a request can be answered with**: an error its route lists, or `USER_NOT_FOUND`
for an account that is not active. -/
theorem serve_raises (h : db.Referred) : Raises (fun failure => r.call.Told failure ∨
      failure = apiError .userNotFound ∧ Departed settings db credentials)
    (serve settings db credentials r) := by
  unfold serve
  cases hactor : r.call.actor with
  | none =>
      refine .bind ((body_raises h r.call).mono fun _ => Or.inl) fun u _ => .pure _
  | some uid =>
      refine .bind (getCurrentUser_raises.mono ?_) fun user _ => ?_
      · rintro failure (⟨e, he, rfl⟩ | hdeparted)
        · exact Or.inl (shown_of_expanded
            (mem_expandedErrors_of_token (Call.lists_token hactor) he) none)
        · exact Or.inr hdeparted
      · refine .bind ((body_raises h (r.call.as user.id)).mono fun failure htold => Or.inl ?_)
          fun u _ => .pure _
        rwa [Call.Told, Call.documented_as] at htold

end Handle
/-! ## Commits -/

section Commits

variable {bus : EventBus} {w₀ w w' : World} {r : Request} {u : UnitOfWork}

/-- **What a commit can raise**: a constraint that an overlapping call has made it violate,
in the words of the route. -/
theorem commit_raises (hfills : r.call.Fills u) :
    Raises r.call.Told ((service bus).commit w r u) := by
  intro failure h
  cases hcommit : u.commit r.now.flush w.db bus with
  | ok db => simp [service, hcommit] at h
  | error raised =>
      obtain rfl : r.call.reply raised = failure := by simpa [service, hcommit] using h
      have hraised : u.OfferTaken w.db ∧ raised = .integrityError "uk_proposal_runner" ∨
          u.ReportTaken w.db ∧
            raised = .integrityError "uk_proposal_reports_proposal_reporter" := by
        have hraises : Raises (fun e =>
            u.OfferTaken w.db ∧ e = .integrityError "uk_proposal_runner" ∨ u.ReportTaken w.db ∧
              e = .integrityError "uk_proposal_reports_proposal_reporter")
            (u.commit r.now.flush w.db bus) := by
          refine .bind (raises_guard fun ho => Or.inl ⟨ho, rfl⟩) fun _ _ => ?_
          exact .bind (raises_guard fun hr => Or.inr ⟨hr, rfl⟩) fun _ _ => .pure _
        exact hraises raised hcommit
      rcases hraised with ⟨⟨new, hnew, -⟩, rfl⟩ | ⟨⟨new, hnew, -⟩, rfl⟩
      · rcases hfills.newOffer with hnone | ⟨pid, uid, hcall⟩
        · rw [hnone] at hnew
          exact absurd hnew (by simp)
        · rw [hcall]
          exact Call.told (e := .duplicateOffer) (by simp [Call.documented]) none
      · rcases hfills.newReport with hnone | ⟨pid, uid, request, hcall⟩
        · rw [hnone] at hnew
          exact absurd hnew (by simp)
        · rw [hcall]
          exact Call.told (e := .duplicateProposalReport) (by simp [Call.documented]) none

/-- A proposal of somebody else stays one. -/
theorem Db.Extends.foreign {db db' : Db} (h : db.Extends db') {k : ℕ} {uid : UserId}
    (hp : ∃ p ∈ db.proposals, p.id = k ∧ p.ordererId ≠ uid) :
    ∃ p ∈ db'.proposals, p.id = k ∧ p.ordererId ≠ uid := by
  obtain ⟨p, hp, rfl, hne⟩ := hp
  obtain ⟨p', hp', hid, howner⟩ := h.proposals p hp
  exact ⟨p', hp', hid, howner ▸ hne⟩

theorem Db.Extends.present {db db' : Db} (h : db.Extends db') {k : ℕ}
    (hp : ∃ p ∈ db.proposals, p.id = k) : ∃ p ∈ db'.proposals, p.id = k := by
  obtain ⟨p, hp, rfl⟩ := hp
  obtain ⟨p', hp', hid, -⟩ := h.proposals p hp
  exact ⟨p', hp', hid⟩

/-- **Every commit keeps the references**, whatever has happened since its read. -/
theorem referred_commit (hbody : r.call.body w₀.db r.now = .ok u) (hR : w₀.db.Extends w.db)
    (h : w.db.Referred) (hcommit : (service bus).commit w r u = .ok w') : w'.db.Referred := by
  have hextends := extends_service hcommit
  obtain ⟨db, hdb, rfl⟩ := service_commit_eq_ok.1 hcommit
  obtain ⟨-, -, -, -, hoffers⟩ := UnitOfWork.commit_eq_ok hdb
  obtain ⟨notifications, hdb'⟩ := UnitOfWork.commit_same hdb
  constructor
  · show ∀ o ∈ db.offers, _
    rw [hoffers]
    intro o' ho'
    rcases UnitOfWork.mem_offers_write.1 ho' with ⟨o, ho, rfl⟩ | ⟨new, hnew, rfl⟩
    · rw [u.offerRow_proposalId, u.offerRow_runnerId]
      exact hextends.foreign (h.offers o ho)
    · -- the new offer was made to somebody else's proposal, which is still there
      rcases (body_fills hbody).newOffer with hnone | ⟨pid, uid, hcall⟩
      · rw [hnone] at hnew
        exact absurd hnew (by simp)
      · rw [hcall] at hbody
        obtain ⟨p, hp, hid, hne, -, -, _, rfl⟩ := OfferService.create_eq_ok hbody
        obtain rfl := Option.some.inj hnew
        exact (hR.trans hextends).foreign ⟨p, hp, hid, hne⟩
  · show ∀ x ∈ db.reports, _
    have hreports : db.reports = (u.write r.now.flush w.db).reports := by rw [hdb']
    rw [hreports]
    intro x' hx'
    rcases UnitOfWork.mem_reports_write.1 hx' with ⟨x, hx, rfl⟩ | ⟨new, hnew, rfl⟩
    · rw [(reportRow_fixed u x).1]
      exact hextends.present (h.reports x hx)
    · obtain ⟨-, -, p, hp, hid, -⟩ := (body_reviews hbody).newReport new hnew
      exact (hR.trans hextends).present ⟨p, hp, hid⟩

theorem sound_referred (bus : EventBus) : (service bus).Sound (fun w => w.db.Referred)
    (fun w w' => w.db.Extends w'.db) fun _ => True where
  refl := fun w => Db.Extends.refl w.db
  trans := fun _ _ _ => Db.Extends.trans
  commit := by
    intro w₀ w w' r u _ _ hread hR h hcommit
    exact ⟨referred_commit (service_read_eq_ok.1 hread).2 hR h hcommit, extends_service hcommit⟩

/-- A command outside the four services keeps them too. -/
theorem SameDeals.referred {db db' : Db} (hs : SameDeals db db') (h : db.Referred) :
    db'.Referred where
  offers := by
    intro o' ho'
    obtain ⟨o, ho, url, rfl⟩ := hs.offer ho'
    rw [hs.proposals]
    exact h.offers o ho
  reports := by
    rw [hs.reports, hs.proposals]
    exact h.reports

theorem referred_initial (m : MasterData) : (World.initial m).db.Referred where
  offers := fun _ ho => absurd ho List.not_mem_nil
  reports := fun _ hr => absurd hr List.not_mem_nil

/-- **The list of every route is complete.**  However the calls overlap with each other and
with whatever commands: a request is refused with an error its route lists, or with
`USER_NOT_FOUND` if its token is of an account that is not active, and a commit is refused
with an error its route lists. -/
theorem responses_documented (settings : Settings) (bus : EventBus) (m : MasterData)
    (es : List (Among Request AccountCommand)) :
    let s := Runs.run (App.among settings bus) (State.quiet (World.initial m)) es
    (∀ credentials r failure, serve settings s.now.db credentials r = .error failure →
      failure.Shown (errorResponses r.call.documented) ∨
        failure = apiError .userNotFound ∧ Departed settings s.now.db credentials) ∧
      ∀ tid r u failure, s.pool tid = some (r, u) →
        (service bus).commit s.now r u = .error failure →
          failure.Shown (errorResponses r.call.documented) := by
  intro s
  have hrun : Runs.Always (App.among settings bus) _ _ es :=
    App.among_run (sound_referred bus)
      (fun w db h hstep => ⟨hstep.sameDeals.referred h, hstep.sameDeals.kept⟩)
      (referred_initial m) es
  obtain ⟨hreferred, horigin⟩ := Runs.always_iff.1 hrun es [] (List.append_nil es).symm
  constructor
  · intro credentials r failure h
    exact serve_raises hreferred failure h
  · intro tid r u failure hpool hcommit
    obtain ⟨-, w₀, -, hread, -⟩ := horigin tid r u hpool
    exact commit_raises (body_fills (service_read_eq_ok.1 hread).2) failure hcommit

end Commits
end OrderRun
