import OrderRun.Services.UnitOfWork

/-!
# Offer service

The commands of `app/services/offer/offer_service.py`.  Each method runs its
guards on the committed rows and ends with the unit of work it is going to
commit; `db` is the database as the method reads it, `now` what the clock shows
while it runs.

The theorems after each method say what it has checked and what it will write
whenever it gets that far.
-/

namespace OrderRun

open Store

/-- `DisputeSurveyService.ensure_active_question`. -/
def DisputeSurveyService.ensureActiveQuestion (db : Db) (questionId : ℕ)
    (targetType : DisputeSurveyTargetType) : Except Failure DisputeSurveyQuestion :=
  orRaise
    ((db.surveyQuestions.find? questionId).filter fun question =>
      question.targetType = targetType ∧ question.isActive)
    (apiError .validationError (some "surveyQuestionId"))

theorem DisputeSurveyService.ensureActiveQuestion_eq_ok {db : Db} {questionId : ℕ}
    {targetType : DisputeSurveyTargetType} {question : DisputeSurveyQuestion} :
    ensureActiveQuestion db questionId targetType = .ok question ↔
      question ∈ db.surveyQuestions ∧ question.id = questionId ∧
        question.targetType = targetType ∧ question.isActive = true := by
  rw [ensureActiveQuestion, orRaise_eq_ok, Option.filter_eq_some_iff, AutoTable.find?_eq_some_iff]
  simp [Keyed.key, and_assoc]

namespace OfferService

def OPEN_PROPOSAL_STATUSES : List ProposalStatus := [.posted, .offered]

def ACTIVE_OFFER_STATUSES : List OfferStatus :=
  [.accepted, .runnerCompleted, .allCompleted, .disputed]

def getProposal (db : Db) (proposalId : ℕ) : Except Failure Proposal :=
  orRaise (db.proposals.find? proposalId) (apiError .offerProposalNotFound)

def getOffer (db : Db) (offerId : ℕ) : Except Failure Offer :=
  orRaise (db.offers.find? offerId) (apiError .offerNotFound)

/-- The `details` of an error about an offer in the wrong status. -/
def statusDetail (offer : Offer) : String := "status: " ++ offer.status.value

@[simp] theorem getProposal_eq_ok {db : Db} {pid : ℕ} {p : Proposal} :
    getProposal db pid = .ok p ↔ p ∈ db.proposals ∧ p.id = pid := by
  rw [getProposal, orRaise_eq_ok, Db.proposals_find?]

@[simp] theorem getOffer_eq_ok {db : Db} {oid : ℕ} {o : Offer} :
    getOffer db oid = .ok o ↔ o ∈ db.offers ∧ o.id = oid := by
  rw [getOffer, orRaise_eq_ok, Db.offers_find?]

/-! ## Before matching -/

def create (db : Db) (proposalId : ℕ) (runnerId : UserId) : Except Failure UnitOfWork := do
  let proposal ← getProposal db proposalId
  raiseIf (proposal.ordererId = runnerId) (apiError .selfOfferNotAllowed)
  raiseIf (proposal.status ∉ OPEN_PROPOSAL_STATUSES) (apiError .proposalNotOpen)
  raiseIf (∃ o ∈ db.offers.rows, o.proposalId = proposalId ∧ o.runnerId = runnerId)
    (apiError .duplicateOffer)
  let offered := if proposal.status = .posted then proposal.markAsOffered else proposal
  return {
    newOffer := some (Offer.create proposalId runnerId)
    proposals := [⟨proposal, offered⟩]
    event := some fun offerId =>
      .offerCreated ⟨offerId, proposal.id, runnerId, proposal.ordererId, proposal.title⟩ }

theorem create_eq_ok {db : Db} {pid : ℕ} {runner : UserId} {u : UnitOfWork}
    (h : create db pid runner = .ok u) :
    ∃ p ∈ db.proposals, p.id = pid ∧ p.ordererId ≠ runner ∧
      (p.status = .posted ∨ p.status = .offered) ∧
      (∀ o ∈ db.offers, ¬ (o.proposalId = pid ∧ o.runnerId = runner)) ∧
      ∃ event, u = {
        newOffer := some (Offer.create pid runner)
        proposals := [⟨p, { p with status := .offered }⟩]
        event := event } := by
  simp only [create, bind_eq_ok, getProposal_eq_ok, raiseIf_eq_ok, pure_eq_ok] at h
  obtain ⟨p, ⟨hp, rfl⟩, -, hself, -, hopen, -, hdup, rfl⟩ := h
  have hstatus : p.status = .posted ∨ p.status = .offered := by
    simpa [OPEN_PROPOSAL_STATUSES] using not_not.1 hopen
  -- a proposal loaded as OFFERED is left as it is
  have hoffered : (if p.status = .posted then p.markAsOffered else p)
      = { p with status := .offered } := by
    rcases hstatus with hs | hs
    · rw [if_pos hs, Proposal.markAsOffered, if_pos hs]
    · rw [if_neg (by rw [hs]; decide), ← hs]
  rw [hoffered]
  exact ⟨p, hp, rfl, hself, hstatus, fun o ho hc => hdup ⟨o, ho, hc⟩, _, rfl⟩

/-- The orderer is told that there is a new offer, and the runner that it has arrived. -/
theorem event_of_create {db : Db} {pid : ℕ} {runner : UserId} {u : UnitOfWork}
    (h : create db pid runner = .ok u) : ∃ p ∈ db.proposals, p.id = pid ∧
      u.event = some fun k => .offerCreated ⟨k, p.id, runner, p.ordererId, p.title⟩ := by
  simp only [create, bind_eq_ok, getProposal_eq_ok, pure_eq_ok] at h
  obtain ⟨p, ⟨hp, rfl⟩, -, -, -, -, -, -, rfl⟩ := h
  exact ⟨p, hp, rfl, rfl⟩

def cancel (db : Db) (offerId : ℕ) (runnerId : UserId) : Except Failure UnitOfWork := do
  let offer ← getOffer db offerId
  raiseIf (offer.runnerId ≠ runnerId) (apiError .forbidden)
  raiseIf (offer.status ≠ .waiting) (apiError .offerNotCancellable)
  let cancelled ← offer.cancel
  return { offers := [⟨offer, cancelled⟩] }

theorem cancel_eq_ok {db : Db} {oid : ℕ} {runner : UserId} {u : UnitOfWork}
    (h : cancel db oid runner = .ok u) :
    ∃ o ∈ db.offers, o.id = oid ∧ o.runnerId = runner ∧ o.status = .waiting ∧
      u = { offers := [⟨o, { o with status := .cancelled }⟩] } := by
  simp only [cancel, bind_eq_ok, getOffer_eq_ok, raiseIf_eq_ok, Offer.cancel_eq_ok, pure_eq_ok,
    not_not] at h
  obtain ⟨o, ⟨ho, rfl⟩, -, hrunner, -, hstatus, -, ⟨-, rfl⟩, rfl⟩ := h
  exact ⟨o, ho, rfl, hrunner, hstatus, rfl⟩

/-! ## Matching -/

def accept (db : Db) (offerId : ℕ) (ordererId : UserId) (now : Readings) :
    Except Failure UnitOfWork := do
  let offer ← getOffer db offerId
  let proposal ← getProposal db offer.proposalId
  raiseIf (proposal.ordererId ≠ ordererId) (apiError .forbidden)
  raiseIf (offer.status ≠ .waiting) (apiError .offerNotAcceptable)
  raiseIf (∃ o ∈ db.offers.rows, o.proposalId = proposal.id ∧ o.id ≠ offer.id ∧
      o.status ∈ ACTIVE_OFFER_STATUSES) (apiError .proposalNotMatchable)
  raiseIf (proposal.status ≠ .offered) (apiError .proposalNotMatchable)
  let rejected := (db.offersOf proposal.id).filter fun o => o.id ≠ offer.id ∧ o.status = .waiting
  let accepted ← offer.accept now.first
  return {
    rejectWaiting := some ⟨proposal.id, some offer.id⟩
    proposals := [⟨proposal, { proposal with
      status := .matched, matchedAt := accepted.acceptedAt }⟩]
    offers := [⟨offer, accepted⟩]
    event := some fun _ => .offerAccepted
      ⟨offer.id, proposal.id, offer.runnerId, proposal.ordererId, proposal.title⟩
      (rejected.map (·.runnerId)) }

theorem accept_eq_ok {db : Db} {oid : ℕ} {orderer : UserId} {now : Readings} {u : UnitOfWork}
    (h : accept db oid orderer now = .ok u) :
    ∃ p o, db.Pair p o ∧ o.id = oid ∧ p.ordererId = orderer ∧ o.status = .waiting ∧
      p.status = .offered ∧
      (∀ x ∈ db.offers, x.proposalId = p.id → x.id ≠ o.id → x.status ∉ ACTIVE_OFFER_STATUSES) ∧
      ∃ event, u = {
        rejectWaiting := some ⟨p.id, some o.id⟩
        proposals := [⟨p, { p with status := .matched, matchedAt := some now.first }⟩]
        offers := [⟨o, { o with status := .accepted, acceptedAt := some now.first }⟩]
        event := event } := by
  simp only [accept, bind_eq_ok, getOffer_eq_ok, getProposal_eq_ok, raiseIf_eq_ok,
    Offer.accept_eq_ok, pure_eq_ok, not_not] at h
  obtain ⟨o, ⟨ho, rfl⟩, p, ⟨hp, hpid⟩, -, horderer, -, hstatus, -, hactive, -, hp', o',
    ⟨-, rfl⟩, rfl⟩ := h
  refine ⟨p, o, ⟨hp, ho, hpid.symm⟩, rfl, horderer, hstatus, hp', ?_, _, rfl⟩
  intro x hx hxp hxo hxs
  exact hactive ⟨x, hx, hxp, hxo, hxs⟩

/-- What the acceptance of an open offer writes. -/
def acceptance (db : Db) (p : Proposal) (o : Offer) (now : Readings) : UnitOfWork where
  rejectWaiting := some ⟨p.id, some o.id⟩
  proposals := [⟨p, { p with status := .matched, matchedAt := some now.first }⟩]
  offers := [⟨o, { o with status := .accepted, acceptedAt := some now.first }⟩]
  event := some fun _ => .offerAccepted (.about p o)
    (((db.offersOf p.id).filter fun x => x.id ≠ o.id ∧ x.status = .waiting).map (·.runnerId))

/-- An open offer on an errand that nobody runs yet can be accepted. -/
theorem accept_eq {db : Db} {p : Proposal} {o : Offer} (now : Readings)
    (hpair : db.Pair p o) (hos : o.status = .waiting) (hps : p.status = .offered)
    (hfree : ∀ x ∈ db.offers, x.proposalId = p.id → x.status ∉ ACTIVE_OFFER_STATUSES) :
    accept db o.id p.ordererId now = .ok (acceptance db p o now) := by
  have hoffer : getOffer db o.id = .ok o := getOffer_eq_ok.2 ⟨hpair.offer, rfl⟩
  have hproposal : getProposal db o.proposalId = .ok p :=
    getProposal_eq_ok.2 ⟨hpair.proposal, hpair.proposalId.symm⟩
  have hnone : ¬ ∃ x ∈ db.offers.rows, x.proposalId = p.id ∧ x.id ≠ o.id ∧
      x.status ∈ ACTIVE_OFFER_STATUSES := by
    rintro ⟨x, hx, hxp, -, hxs⟩
    exact hfree x hx hxp hxs
  have haccepted : o.accept now.first =
      .ok { o with status := .accepted, acceptedAt := some now.first } :=
    Offer.accept_eq_ok.2 ⟨hos, rfl⟩
  simp only [accept, bind_eq_ok, raiseIf_eq_ok]
  exact ⟨o, hoffer, p, hproposal, (), by simp, (), by simp [hos], (), hnone, (),
    by simp [hps], _, haccepted, rfl⟩

/-- Whatever is accepted was open, on an errand that nobody runs yet. -/
theorem accept_eq_acceptance {db : Db} {oid : ℕ} {orderer : UserId} {now : Readings}
    {u : UnitOfWork} (h : accept db oid orderer now = .ok u) :
    ∃ p o, db.Pair p o ∧ o.id = oid ∧ p.ordererId = orderer ∧ o.status = .waiting ∧
      p.status = .offered ∧ u = acceptance db p o now := by
  simp only [accept, bind_eq_ok, getOffer_eq_ok, getProposal_eq_ok, raiseIf_eq_ok,
    Offer.accept_eq_ok, pure_eq_ok, not_not] at h
  obtain ⟨o, ⟨ho, rfl⟩, p, ⟨hp, hpid⟩, -, horderer, -, hstatus, -, -, -, hp', o', ⟨-, rfl⟩, rfl⟩ :=
    h
  exact ⟨p, o, ⟨hp, ho, hpid.symm⟩, rfl, horderer, hstatus, hp', rfl⟩

/-- The chosen runner is told, and so are the runners whose offers are turned down. -/
theorem event_of_accept {db : Db} {oid : ℕ} {orderer : UserId} {now : Readings} {u : UnitOfWork}
    (h : accept db oid orderer now = .ok u) : ∃ p o, db.Pair p o ∧ o.id = oid ∧
      u.event = some fun _ => .offerAccepted (.about p o)
        (((db.offersOf p.id).filter fun x => x.id ≠ o.id ∧ x.status = .waiting).map
          (·.runnerId)) := by
  simp only [accept, bind_eq_ok, getOffer_eq_ok, getProposal_eq_ok, pure_eq_ok] at h
  obtain ⟨o, ⟨ho, rfl⟩, p, ⟨hp, hpid⟩, -, -, -, -, -, -, -, -, o', -, rfl⟩ := h
  exact ⟨p, o, ⟨hp, ho, hpid.symm⟩, rfl, rfl⟩

/-! ## Completion -/

/-- Both sides have confirmed: complete the deal and raise the runner's level. -/
def syncAllCompleted (offer : Offer) (proposal : Proposal) :
    Except Failure (Offer × Proposal × Option UserId) := do
  if offer.status = .runnerCompleted ∧ proposal.status = .orderCompleted then
    let offer' ← offer.markAllCompleted
    let proposal' ← proposal.markAllCompleted
    return (offer', proposal', some offer.runnerId)
  else
    return (offer, proposal, none)

theorem syncAllCompleted_eq_ok {o : Offer} {p : Proposal} {r : Offer × Proposal × Option UserId}
    (h : syncAllCompleted o p = .ok r) :
    (o.status = .runnerCompleted ∧ p.status = .orderCompleted ∧
        r = ({ o with status := .allCompleted }, { p with status := .allCompleted },
          some o.runnerId)) ∨
      (¬ (o.status = .runnerCompleted ∧ p.status = .orderCompleted) ∧ r = (o, p, none)) := by
  unfold syncAllCompleted at h
  split at h
  · next hboth =>
      simp only [bind_eq_ok, Offer.markAllCompleted_eq_ok, Proposal.markAllCompleted_eq_ok,
        pure_eq_ok] at h
      obtain ⟨o', ⟨-, rfl⟩, p', ⟨-, rfl⟩, rfl⟩ := h
      exact Or.inl ⟨hboth.1, hboth.2, rfl⟩
  · next hnot => exact Or.inr ⟨hnot, (pure_eq_ok.1 h).symm⟩

def completeDelivery (db : Db) (offerId : ℕ) (runnerId : UserId) (now : Readings) :
    Except Failure UnitOfWork := do
  let offer ← getOffer db offerId
  raiseIf (offer.runnerId ≠ runnerId) (apiError .forbidden)
  let proposal ← getProposal db offer.proposalId
  raiseIf (¬ offer.canConfirmRunnerCompletion ∨ proposal.status ∉ [.matched, .orderCompleted])
    (apiError .offerNotUpdatable (some (statusDetail offer)))
  let offer₁ ← offer.confirmRunnerCompletion now.first
  let proposal₁ ← (if proposal.status ∈ [.matched, .orderCompleted] then
    proposal.confirmRunnerCompletion now.second else pure proposal)
  let offer₂ ← (if proposal₁.status = .orderCompleted then
    offer₁.confirmOrdererCompletion now.third else pure offer₁)
  let (offer₃, proposal₃, levelUp) ← syncAllCompleted offer₂ proposal₁
  return {
    levelUp := levelUp
    proposals := [⟨proposal, proposal₃⟩]
    offers := [⟨offer, offer₃⟩]
    event := some fun _ => .meetingConfirmedByRunner
      ⟨offer.id, proposal.id, offer.runnerId, proposal.ordererId, proposal.title⟩ }

/-- On a `MATCHED` proposal the delivery waits for the orderer; on an
`ORDER_COMPLETED` one it completes the deal, and stamps the offer's
`orderer_confirmed_at` a second time. -/
theorem completeDelivery_eq_ok {db : Db} {oid : ℕ} {runner : UserId} {now : Readings}
    {u : UnitOfWork} (h : completeDelivery db oid runner now = .ok u) :
    ∃ p o, db.Pair p o ∧ o.id = oid ∧ o.runnerId = runner ∧ o.status = .accepted ∧
      ((p.status = .matched ∧ ∃ event, u = {
          proposals := [⟨p, { p with runnerConfirmedAt := some now.second }⟩]
          offers := [⟨o, { o with
            status := .runnerCompleted, runnerConfirmedAt := some now.first }⟩]
          event := event }) ∨
        (p.status = .orderCompleted ∧ ∃ event, u = {
          levelUp := some o.runnerId
          proposals := [⟨p, { p with
            status := .allCompleted, runnerConfirmedAt := some now.second }⟩]
          offers := [⟨o, { o with
            status := .allCompleted, runnerConfirmedAt := some now.first
            ordererConfirmedAt := some now.third }⟩]
          event := event })) := by
  simp only [completeDelivery, bind_eq_ok, getOffer_eq_ok, getProposal_eq_ok, raiseIf_eq_ok,
    Offer.confirmRunnerCompletion_eq_ok, pure_eq_ok, not_not] at h
  obtain ⟨o, ⟨ho, rfl⟩, -, hrunner, p, ⟨hp, hpid⟩, -, hguard, o₁, ⟨hstatus, rfl⟩, p₁, hp₁, o₂, ho₂,
    r, hsync, rfl⟩ := h
  have hmem : p.status ∈ [.matched, .orderCompleted] := by tauto
  rw [if_pos hmem, Proposal.confirmRunnerCompletion_eq_ok] at hp₁
  obtain ⟨-, rfl⟩ := hp₁
  refine ⟨p, o, ⟨hp, ho, hpid.symm⟩, rfl, hrunner, hstatus, ?_⟩
  rcases List.mem_pair.1 hmem with hm | hm
  · rw [if_neg (by simp [hm]), pure_eq_ok] at ho₂
    subst ho₂
    rcases syncAllCompleted_eq_ok hsync with ⟨-, hp', -⟩ | ⟨-, rfl⟩
    · exact absurd hp' (by simp [hm])
    · exact Or.inl ⟨hm, _, rfl⟩
  · rw [if_pos hm, Offer.confirmOrdererCompletion_eq_ok] at ho₂
    obtain ⟨-, rfl⟩ := ho₂
    rcases syncAllCompleted_eq_ok hsync with ⟨-, -, rfl⟩ | ⟨hnot, -⟩
    · exact Or.inr ⟨hm, _, rfl⟩
    · exact absurd ⟨rfl, hm⟩ hnot

/-- The orderer is told that the runner has confirmed. -/
theorem event_of_completeDelivery {db : Db} {oid : ℕ} {runner : UserId} {now : Readings}
    {u : UnitOfWork} (h : completeDelivery db oid runner now = .ok u) :
    ∃ p o, db.Pair p o ∧ o.id = oid ∧
      u.event = some fun _ => .meetingConfirmedByRunner (.about p o) := by
  simp only [completeDelivery, bind_eq_ok, getOffer_eq_ok, getProposal_eq_ok, pure_eq_ok] at h
  obtain ⟨o, ⟨ho, rfl⟩, -, -, p, ⟨hp, hpid⟩, -, -, o₁, -, p₁, -, o₂, -, r, -, rfl⟩ := h
  exact ⟨p, o, ⟨hp, ho, hpid.symm⟩, rfl, rfl⟩

/-- After the orderer has confirmed, the runner's delivery gets through. -/
theorem completeDelivery_of_orderCompleted {db : Db} {p : Proposal} {o : Offer} (now : Readings)
    (hpair : db.Pair p o) (ho : o.status = .accepted) (hp : p.status = .orderCompleted) :
    ∃ u, completeDelivery db o.id o.runnerId now = .ok u := by
  have hoffer : getOffer db o.id = .ok o := getOffer_eq_ok.2 ⟨hpair.offer, rfl⟩
  have hproposal : getProposal db o.proposalId = .ok p :=
    getProposal_eq_ok.2 ⟨hpair.proposal, hpair.proposalId.symm⟩
  let offer₁ : Offer := { o with status := .runnerCompleted, runnerConfirmedAt := some now.first }
  let proposal₁ : Proposal := { p with runnerConfirmedAt := some now.second }
  let offer₂ : Offer := { offer₁ with ordererConfirmedAt := some now.third }
  have hoffer₁ : o.confirmRunnerCompletion now.first = .ok offer₁ :=
    Offer.confirmRunnerCompletion_eq_ok.2 ⟨ho, rfl⟩
  have hproposal₁ : (if p.status ∈ [.matched, .orderCompleted] then
      p.confirmRunnerCompletion now.second else pure p) = .ok proposal₁ := by
    rw [if_pos (by simp [hp])]
    exact Proposal.confirmRunnerCompletion_eq_ok.2 ⟨by simp [hp], rfl⟩
  have hoffer₂ : (if proposal₁.status = .orderCompleted then
      offer₁.confirmOrdererCompletion now.third else pure offer₁) = .ok offer₂ := by
    rw [if_pos hp]
    exact Offer.confirmOrdererCompletion_eq_ok.2 ⟨by simp [offer₁], rfl⟩
  have hsync : syncAllCompleted offer₂ proposal₁ = .ok ({ offer₂ with status := .allCompleted },
      { proposal₁ with status := .allCompleted }, some o.runnerId) := by
    rw [syncAllCompleted, if_pos ⟨rfl, hp⟩]
    simp only [bind_eq_ok]
    exact ⟨_, Offer.markAllCompleted_eq_ok.2 ⟨by simp [offer₂, offer₁], rfl⟩, _,
      Proposal.markAllCompleted_eq_ok.2 ⟨by simp [proposal₁, hp], rfl⟩, rfl⟩
  simp only [completeDelivery, bind_eq_ok, raiseIf_eq_ok]
  exact ⟨_, o, hoffer, (), by simp, p, hproposal, (),
    by simp [Offer.canConfirmRunnerCompletion, ho, hp], offer₁, hoffer₁, proposal₁, hproposal₁,
    offer₂, hoffer₂, _, hsync, rfl⟩

/-! ## Disputes -/

def raiseDispute (db : Db) (offerId : ℕ) (runnerId : UserId) (surveyQuestionId : ℕ)
    (disputeReason : String) (now : Readings) : Except Failure UnitOfWork := do
  let offer ← getOffer db offerId
  raiseIf (offer.runnerId ≠ runnerId) (apiError .forbidden)
  let proposal ← getProposal db offer.proposalId
  raiseIf (¬ offer.canRaiseDispute ∨ ¬ proposal.canRaiseDispute)
    (apiError .offerNotUpdatable (some (statusDetail offer)))
  let _ ← DisputeSurveyService.ensureActiveQuestion db surveyQuestionId .runner
  let offer' ← offer.raiseDispute now.first
  let proposal' ← proposal.raiseDispute now.second
  return {
    newEvidence := some ⟨0, proposal.id, offer.id, runnerId, disputeReason, surveyQuestionId, 0⟩
    proposals := [⟨proposal, proposal'⟩]
    offers := [⟨offer, offer'⟩]
    event := some fun _ => .disputeRaisedByRunner
      ⟨offer.id, proposal.id, offer.runnerId, proposal.ordererId, proposal.title⟩ }

theorem raiseDispute_eq_ok {db : Db} {oid : ℕ} {runner : UserId} {qid : ℕ} {reason : String}
    {now : Readings} {u : UnitOfWork} (h : raiseDispute db oid runner qid reason now = .ok u) :
    ∃ p o, db.Pair p o ∧ o.id = oid ∧ o.runnerId = runner ∧
      o.status ∈ [.accepted, .runnerCompleted] ∧ p.status ∈ [.matched, .orderCompleted] ∧
      ∃ event, u = {
        newEvidence := some ⟨0, p.id, o.id, runner, reason, qid, 0⟩
        proposals := [⟨p, { p with status := .disputed, disputedAt := some now.second }⟩]
        offers := [⟨o, { o with status := .disputed, disputedAt := some now.first }⟩]
        event := event } := by
  simp only [raiseDispute, bind_eq_ok, getOffer_eq_ok, getProposal_eq_ok, raiseIf_eq_ok,
    Offer.raiseDispute_eq_ok, Proposal.raiseDispute_eq_ok, pure_eq_ok, not_not] at h
  obtain ⟨o, ⟨ho, rfl⟩, -, hrunner, p, ⟨hp, hpid⟩, -, -, -, -, o', ⟨hos, rfl⟩, p', ⟨hps, rfl⟩,
    rfl⟩ := h
  exact ⟨p, o, ⟨hp, ho, hpid.symm⟩, rfl, hrunner, hos, hps, _, rfl⟩

/-- The runner's question is put to runners. -/
theorem question_of_raiseDispute {db : Db} {oid : ℕ} {runner : UserId} {qid : ℕ} {reason : String}
    {now : Readings} {u : UnitOfWork} (h : raiseDispute db oid runner qid reason now = .ok u) :
    ∃ q ∈ db.surveyQuestions, q.id = qid ∧ q.targetType = .runner := by
  simp only [raiseDispute, bind_eq_ok, DisputeSurveyService.ensureActiveQuestion_eq_ok] at h
  obtain ⟨-, -, -, -, -, -, -, -, q, ⟨hq, hid, htype, -⟩, -⟩ := h
  exact ⟨q, hq, hid, htype⟩

/-- The orderer is told that the runner has raised a dispute. -/
theorem event_of_raiseDispute {db : Db} {oid : ℕ} {runner : UserId} {qid : ℕ} {reason : String}
    {now : Readings} {u : UnitOfWork} (h : raiseDispute db oid runner qid reason now = .ok u) :
    ∃ p o, db.Pair p o ∧ o.id = oid ∧
      u.event = some fun _ => .disputeRaisedByRunner (.about p o) := by
  simp only [raiseDispute, bind_eq_ok, getOffer_eq_ok, getProposal_eq_ok, pure_eq_ok] at h
  obtain ⟨o, ⟨ho, rfl⟩, -, -, p, ⟨hp, hpid⟩, -, -, -, -, o', -, p', -, rfl⟩ := h
  exact ⟨p, o, ⟨hp, ho, hpid.symm⟩, rfl, rfl⟩

def resolve (db : Db) (offerId : ℕ) (now : Readings) : Except Failure UnitOfWork := do
  let offer ← getOffer db offerId
  let proposal ← getProposal db offer.proposalId
  raiseIf (¬ offer.canResolve ∨ ¬ proposal.canResolve)
    (apiError .offerNotUpdatable (some (statusDetail offer)))
  let offer' ← offer.resolve now.first
  let proposal' ← proposal.resolve now.second
  return { proposals := [⟨proposal, proposal'⟩], offers := [⟨offer, offer'⟩] }

theorem resolve_eq_ok {db : Db} {oid : ℕ} {now : Readings} {u : UnitOfWork}
    (h : resolve db oid now = .ok u) :
    ∃ p o, db.Pair p o ∧ o.id = oid ∧ o.status = .disputed ∧ p.status = .disputed ∧
      u = {
        proposals := [⟨p, { p with status := .resolved, resolvedAt := some now.second }⟩]
        offers := [⟨o, { o with status := .resolved, resolvedAt := some now.first }⟩] } := by
  simp only [resolve, bind_eq_ok, getOffer_eq_ok, getProposal_eq_ok, raiseIf_eq_ok,
    Offer.resolve_eq_ok, Proposal.resolve_eq_ok, pure_eq_ok] at h
  obtain ⟨o, ⟨ho, rfl⟩, p, ⟨hp, hpid⟩, -, -, o', ⟨hos, rfl⟩, p', ⟨hps, rfl⟩, rfl⟩ := h
  exact ⟨p, o, ⟨hp, ho, hpid.symm⟩, rfl, hos, hps, rfl⟩

end OfferService
end OrderRun
