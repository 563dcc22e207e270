import OrderRun.Services.Offer

/-!
# Proposal service

The commands of `app/services/proposal/proposal_service.py`, as units of work.
The orderer's side of an errand never names the offer it is executed by: the
service looks it up (`getExecutionOffer`).
-/

namespace OrderRun

open Store

namespace ProposalService

def EDITABLE_STATUSES : List ProposalStatus := [.holding, .posted]

def CANCELLABLE_STATUSES : List ProposalStatus := [.holding, .posted, .offered]

def EXECUTION_OFFER_STATUSES : List OfferStatus :=
  [.accepted, .runnerCompleted, .allCompleted, .disputed]

def getExistingUser (db : Db) (userId : UserId) : Except Failure User :=
  orRaise ((db.users.find? userId).filter fun user => ! user.deleted) (apiError .userNotFound)

def getProposal (db : Db) (proposalId : ℕ) : Except Failure Proposal :=
  orRaise (db.proposals.find? proposalId)
    (apiError .proposalNotFound (some ("id: " ++ toString proposalId)))

def ensureOwner (proposal : Proposal) (userId : UserId) : Except Failure Unit :=
  raiseIf (proposal.ordererId ≠ userId) (apiError .forbidden)

/-- `ORDER BY accepted_at DESC, id DESC`; a missing `accepted_at` comes last. -/
def latestAccepted (o x : Offer) : Bool :=
  match o.acceptedAt, x.acceptedAt with
  | some t, some t' => t' < t ∨ (t' = t ∧ x.id ≤ o.id)
  | some _, none => true
  | none, some _ => false
  | none, none => x.id ≤ o.id

/-- The offer a proposal is executed by. -/
def getExecutionOffer (db : Db) (proposalId : ℕ) : Except Failure Offer :=
  orRaise
    (db.offers.firstBy
      (fun o => o.proposalId = proposalId ∧ o.status ∈ EXECUTION_OFFER_STATUSES) latestAccepted)
    (apiError .offerNotFound)

/-- The `details` of an error about a proposal in the wrong status. -/
def statusDetail (proposal : Proposal) : String := "status: " ++ proposal.status.value

@[simp] theorem getExistingUser_eq_ok {db : Db} {uid : UserId} {user : User} :
    getExistingUser db uid = .ok user ↔ user ∈ db.users ∧ user.id = uid ∧ user.deleted = false := by
  rw [getExistingUser, orRaise_eq_ok, Option.filter_eq_some_iff, Table.find?_eq_some_iff]
  simp [Keyed.key, and_assoc]

@[simp] theorem getProposal_eq_ok {db : Db} {pid : ℕ} {p : Proposal} :
    getProposal db pid = .ok p ↔ p ∈ db.proposals ∧ p.id = pid := by
  rw [getProposal, orRaise_eq_ok, Db.proposals_find?]

@[simp] theorem ensureOwner_eq_ok {p : Proposal} {uid : UserId} {x : Unit} :
    ensureOwner p uid = .ok x ↔ p.ordererId = uid := by
  simp [ensureOwner]

theorem getExecutionOffer_eq_ok {db : Db} {pid : ℕ} {o : Offer}
    (h : getExecutionOffer db pid = .ok o) :
    o ∈ db.offers ∧ o.proposalId = pid ∧ o.status ∈ EXECUTION_OFFER_STATUSES := by
  rw [getExecutionOffer, orRaise_eq_ok] at h
  obtain ⟨ho, hp⟩ := Table.firstBy_mem h
  exact ⟨ho, by simpa using hp⟩

/-! ## Creation and editing -/

def create (db : Db) (request : ProposalRequest) (ordererId : UserId) (now : Readings) :
    Except Failure UnitOfWork := do
  let _ ← getExistingUser db ordererId
  let proposal ← Proposal.createProposal ordererId request now.first
  return { newProposal := some proposal }

theorem create_eq_ok {db : Db} {request : ProposalRequest} {orderer : UserId} {now : Readings}
    {u : UnitOfWork} (h : create db request orderer now = .ok u) :
    ∃ p, p.ordererId = orderer ∧ p.status = .holding ∧ p.matchedAt = none ∧
      p.runnerConfirmedAt = none ∧ p.ordererConfirmedAt = none ∧ p.disputedAt = none ∧
      p.resolvedAt = none ∧ u = { newProposal := some p } := by
  simp only [create, Proposal.createProposal, bind_eq_ok, pure_eq_ok] at h
  obtain ⟨-, -, p, ⟨-, -, -, -, rfl⟩, rfl⟩ := h
  exact ⟨_, rfl, rfl, rfl, rfl, rfl, rfl, rfl, rfl⟩

def update (db : Db) (proposalId : ℕ) (request : ProposalRequest) (ordererId : UserId)
    (now : Readings) : Except Failure UnitOfWork := do
  let proposal ← getProposal db proposalId
  ensureOwner proposal ordererId
  raiseIf (proposal.status ∉ EDITABLE_STATUSES)
    (apiError .proposalNotEditable (some (statusDetail proposal)))
  let updated ← proposal.updateProposal request now.first
  return { proposals := [⟨proposal, updated⟩], deadlineAssigned := true }

theorem update_eq_ok {db : Db} {pid : ℕ} {request : ProposalRequest} {orderer : UserId}
    {now : Readings} {u : UnitOfWork} (h : update db pid request orderer now = .ok u) :
    ∃ p ∈ db.proposals, p.id = pid ∧ p.ordererId = orderer ∧
      (p.status = .holding ∨ p.status = .posted) ∧
      u = {
        proposals := [⟨p, { p with
          title := request.title, content := request.content, deadline := request.deadline
          errandFee := request.errandFee, status := .holding }⟩]
        deadlineAssigned := true } := by
  simp only [update, bind_eq_ok, getProposal_eq_ok, ensureOwner_eq_ok, raiseIf_eq_ok,
    Proposal.updateProposal_eq_ok, pure_eq_ok, not_not] at h
  obtain ⟨p, ⟨hp, rfl⟩, -, horderer, -, hstatus, p', ⟨-, -, rfl⟩, rfl⟩ := h
  exact ⟨p, hp, rfl, horderer, by simpa [EDITABLE_STATUSES] using hstatus, rfl⟩

def cancel (db : Db) (proposalId : ℕ) (ordererId : UserId) : Except Failure UnitOfWork := do
  let proposal ← getProposal db proposalId
  ensureOwner proposal ordererId
  raiseIf (proposal.status ∉ CANCELLABLE_STATUSES)
    (apiError .proposalNotCancellable (some (statusDetail proposal)))
  return {
    rejectWaiting := if proposal.status = .offered then some ⟨proposal.id, none⟩ else none
    proposals := [⟨proposal, { proposal with status := .cancelled }⟩] }

theorem cancel_eq_ok {db : Db} {pid : ℕ} {orderer : UserId} {u : UnitOfWork}
    (h : cancel db pid orderer = .ok u) :
    ∃ p ∈ db.proposals, p.id = pid ∧ p.ordererId = orderer ∧
      p.status ∈ CANCELLABLE_STATUSES ∧
      u = {
        rejectWaiting := if p.status = .offered then some ⟨p.id, none⟩ else none
        proposals := [⟨p, { p with status := .cancelled }⟩] } := by
  simp only [cancel, bind_eq_ok, getProposal_eq_ok, ensureOwner_eq_ok, raiseIf_eq_ok, pure_eq_ok,
    not_not] at h
  obtain ⟨p, ⟨hp, rfl⟩, -, horderer, -, hstatus, rfl⟩ := h
  exact ⟨p, hp, rfl, horderer, hstatus, rfl⟩

def confirmPayment (db : Db) (proposalId : ℕ) : Except Failure UnitOfWork := do
  let proposal ← getProposal db proposalId
  raiseIf (proposal.status ≠ .holding)
    (apiError .invalidStatus (some ("current status: " ++ proposal.status.value)))
  return { proposals := [⟨proposal, { proposal with status := .posted }⟩] }

theorem confirmPayment_eq_ok {db : Db} {pid : ℕ} {u : UnitOfWork}
    (h : confirmPayment db pid = .ok u) :
    ∃ p ∈ db.proposals, p.id = pid ∧ p.status = .holding ∧
      u = { proposals := [⟨p, { p with status := .posted }⟩] } := by
  simp only [confirmPayment, bind_eq_ok, getProposal_eq_ok, raiseIf_eq_ok, pure_eq_ok,
    not_not] at h
  obtain ⟨p, ⟨hp, rfl⟩, -, hstatus, rfl⟩ := h
  exact ⟨p, hp, rfl, hstatus, rfl⟩

/-! ## Completion -/

/-- Both sides have confirmed: complete the deal and raise the runner's level. -/
def syncAllCompleted (proposal : Proposal) (offer : Offer) :
    Except Failure (Proposal × Offer × Option UserId) := do
  if proposal.status = .orderCompleted ∧ offer.status = .runnerCompleted then
    let proposal' ← proposal.markAllCompleted
    let offer' ← offer.markAllCompleted
    return (proposal', offer', some offer.runnerId)
  else
    return (proposal, offer, none)

theorem syncAllCompleted_eq_ok {p : Proposal} {o : Offer} {r : Proposal × Offer × Option UserId}
    (h : syncAllCompleted p o = .ok r) :
    (p.status = .orderCompleted ∧ o.status = .runnerCompleted ∧
        r = ({ p with status := .allCompleted }, { o with status := .allCompleted },
          some o.runnerId)) ∨
      (¬ (p.status = .orderCompleted ∧ o.status = .runnerCompleted) ∧ r = (p, o, none)) := by
  unfold syncAllCompleted at h
  split at h
  · next hboth =>
      simp only [bind_eq_ok, Offer.markAllCompleted_eq_ok, Proposal.markAllCompleted_eq_ok,
        pure_eq_ok] at h
      obtain ⟨p', ⟨-, rfl⟩, o', ⟨-, rfl⟩, rfl⟩ := h
      exact Or.inl ⟨hboth.1, hboth.2, rfl⟩
  · next hnot => exact Or.inr ⟨hnot, (pure_eq_ok.1 h).symm⟩

def confirmReceived (db : Db) (proposalId : ℕ) (ordererId : UserId) (now : Readings) :
    Except Failure UnitOfWork := do
  let proposal ← getProposal db proposalId
  ensureOwner proposal ordererId
  let offer ← getExecutionOffer db proposal.id
  raiseIf (¬ proposal.canConfirmOrdererCompletion ∨ ¬ offer.canConfirmOrdererCompletion)
    (apiError .proposalNotUpdatable (some (statusDetail proposal)))
  let proposal₁ ← proposal.confirmOrdererCompletion now.first
  let offer₁ ← offer.confirmOrdererCompletion now.second
  let (proposal₂, offer₂, levelUp) ← syncAllCompleted proposal₁ offer₁
  return {
    levelUp := levelUp
    proposals := [⟨proposal, proposal₂⟩]
    offers := [⟨offer, offer₂⟩]
    event := some fun _ => .meetingConfirmedByOrderer
      ⟨offer.id, proposal.id, offer.runnerId, proposal.ordererId, proposal.title⟩ }

/-- With an `ACCEPTED` offer the receipt waits for the runner; with a
`RUNNER_COMPLETED` one it completes the deal. -/
theorem confirmReceived_eq_ok {db : Db} {pid : ℕ} {orderer : UserId} {now : Readings}
    {u : UnitOfWork} (h : confirmReceived db pid orderer now = .ok u) :
    ∃ p o, db.Pair p o ∧ p.id = pid ∧ p.ordererId = orderer ∧ p.status = .matched ∧
      ((o.status = .accepted ∧ ∃ event, u = {
          proposals := [⟨p, { p with
            status := .orderCompleted, ordererConfirmedAt := some now.first }⟩]
          offers := [⟨o, { o with ordererConfirmedAt := some now.second }⟩]
          event := event }) ∨
        (o.status = .runnerCompleted ∧ ∃ event, u = {
          levelUp := some o.runnerId
          proposals := [⟨p, { p with
            status := .allCompleted, ordererConfirmedAt := some now.first }⟩]
          offers := [⟨o, { o with
            status := .allCompleted, ordererConfirmedAt := some now.second }⟩]
          event := event })) := by
  simp only [confirmReceived, bind_eq_ok, getProposal_eq_ok, ensureOwner_eq_ok, raiseIf_eq_ok,
    Proposal.confirmOrdererCompletion_eq_ok, Offer.confirmOrdererCompletion_eq_ok,
    pure_eq_ok] at h
  obtain ⟨p, ⟨hp, rfl⟩, -, horderer, o, hexec, -, -, p₁, ⟨hps, rfl⟩, o₁, ⟨hos, rfl⟩, r, hsync,
    rfl⟩ := h
  obtain ⟨ho, hop, -⟩ := getExecutionOffer_eq_ok hexec
  refine ⟨p, o, ⟨hp, ho, hop⟩, rfl, horderer, hps, ?_⟩
  rcases List.mem_pair.1 hos with hs | hs
  · rcases syncAllCompleted_eq_ok hsync with ⟨-, hrun, -⟩ | ⟨-, rfl⟩
    · exact absurd hrun (by simp [hs])
    · exact Or.inl ⟨hs, _, rfl⟩
  · rcases syncAllCompleted_eq_ok hsync with ⟨-, -, rfl⟩ | ⟨hnot, -⟩
    · exact Or.inr ⟨hs, _, rfl⟩
    · exact absurd ⟨rfl, hs⟩ hnot

/-- The event says that the orderer has confirmed, not whether the deal is complete. -/
theorem event_of_confirmReceived {db : Db} {pid : ℕ} {orderer : UserId} {now : Readings}
    {u : UnitOfWork} (h : confirmReceived db pid orderer now = .ok u) {p p' : Proposal}
    {o o' : Offer} (hp : u.proposals = [⟨p, p'⟩]) (ho : u.offers = [⟨o, o'⟩]) :
    u.event = some fun _ => .meetingConfirmedByOrderer (.about p o) := by
  simp only [confirmReceived, bind_eq_ok, pure_eq_ok] at h
  obtain ⟨q, -, -, -, x, -, -, -, q₁, -, x₁, -, r, -, rfl⟩ := h
  obtain rfl : q = p := congrArg Change.loaded (List.cons.inj hp).1
  obtain rfl : x = o := congrArg Change.loaded (List.cons.inj ho).1
  rfl

/-- The orderer of a matched errand can confirm that she has received it. -/
theorem confirmReceived_of_matched {db : Db} {p : Proposal} {o : Offer} (now : Readings)
    (hp : p ∈ db.proposals) (hps : p.status = .matched)
    (hexec : getExecutionOffer db p.id = .ok o) (hos : o.status ∈ [.accepted, .runnerCompleted]) :
    ∃ u, confirmReceived db p.id p.ordererId now = .ok u := by
  have hproposal : getProposal db p.id = .ok p := getProposal_eq_ok.2 ⟨hp, rfl⟩
  let proposal₁ : Proposal :=
    { p with status := .orderCompleted, ordererConfirmedAt := some now.first }
  let offer₁ : Offer := { o with ordererConfirmedAt := some now.second }
  have hproposal₁ : p.confirmOrdererCompletion now.first = .ok proposal₁ :=
    Proposal.confirmOrdererCompletion_eq_ok.2 ⟨hps, rfl⟩
  have hoffer₁ : o.confirmOrdererCompletion now.second = .ok offer₁ :=
    Offer.confirmOrdererCompletion_eq_ok.2 ⟨hos, rfl⟩
  have hsync : ∃ r, syncAllCompleted proposal₁ offer₁ = .ok r := by
    unfold syncAllCompleted
    split
    · next hboth =>
        simp only [bind_eq_ok]
        exact ⟨_, _, Proposal.markAllCompleted_eq_ok.2 ⟨by simp [proposal₁], rfl⟩, _,
          Offer.markAllCompleted_eq_ok.2 ⟨List.mem_pair.2 (Or.inl hboth.2), rfl⟩, rfl⟩
    · exact ⟨_, rfl⟩
  obtain ⟨r, hsync⟩ := hsync
  simp only [confirmReceived, bind_eq_ok, raiseIf_eq_ok]
  refine ⟨_, p, hproposal, (), by simp, o, hexec, (), ?_, proposal₁, hproposal₁, offer₁, hoffer₁, r,
    hsync, rfl⟩
  rcases List.mem_pair.1 hos with hs | hs <;>
    simp [Proposal.canConfirmOrdererCompletion, Offer.canConfirmOrdererCompletion, hps, hs]

/-! ## Disputes -/

def raiseDispute (db : Db) (proposalId : ℕ) (ordererId : UserId) (surveyQuestionId : ℕ)
    (disputeReason : String) (now : Readings) : Except Failure UnitOfWork := do
  let proposal ← getProposal db proposalId
  ensureOwner proposal ordererId
  let offer ← getExecutionOffer db proposal.id
  raiseIf (¬ proposal.canRaiseDispute ∨ ¬ offer.canRaiseDispute)
    (apiError .proposalNotUpdatable (some (statusDetail proposal)))
  let _ ← DisputeSurveyService.ensureActiveQuestion db surveyQuestionId .order
  let proposal' ← proposal.raiseDispute now.first
  let offer' ← offer.raiseDispute now.second
  return {
    newEvidence := some ⟨0, proposal.id, offer.id, ordererId, disputeReason, surveyQuestionId, 0⟩
    proposals := [⟨proposal, proposal'⟩]
    offers := [⟨offer, offer'⟩]
    event := some fun _ => .disputeRaisedByOrderer
      ⟨offer.id, proposal.id, offer.runnerId, proposal.ordererId, proposal.title⟩ }

theorem raiseDispute_eq_ok {db : Db} {pid : ℕ} {orderer : UserId} {qid : ℕ} {reason : String}
    {now : Readings} {u : UnitOfWork} (h : raiseDispute db pid orderer qid reason now = .ok u) :
    ∃ p o, db.Pair p o ∧ p.id = pid ∧ p.ordererId = orderer ∧
      p.status ∈ [.matched, .orderCompleted] ∧ o.status ∈ [.accepted, .runnerCompleted] ∧
      ∃ event, u = {
        newEvidence := some ⟨0, p.id, o.id, orderer, reason, qid, 0⟩
        proposals := [⟨p, { p with status := .disputed, disputedAt := some now.first }⟩]
        offers := [⟨o, { o with status := .disputed, disputedAt := some now.second }⟩]
        event := event } := by
  simp only [raiseDispute, bind_eq_ok, getProposal_eq_ok, ensureOwner_eq_ok, raiseIf_eq_ok,
    Proposal.raiseDispute_eq_ok, Offer.raiseDispute_eq_ok, pure_eq_ok] at h
  obtain ⟨p, ⟨hp, rfl⟩, -, horderer, o, hexec, -, -, -, -, p', ⟨hps, rfl⟩, o', ⟨hos, rfl⟩,
    rfl⟩ := h
  obtain ⟨ho, hop, -⟩ := getExecutionOffer_eq_ok hexec
  exact ⟨p, o, ⟨hp, ho, hop⟩, rfl, horderer, hps, hos, _, rfl⟩

/-- The orderer's question is put to orderers. -/
theorem question_of_raiseDispute {db : Db} {pid : ℕ} {orderer : UserId} {qid : ℕ}
    {reason : String} {now : Readings} {u : UnitOfWork}
    (h : raiseDispute db pid orderer qid reason now = .ok u) :
    ∃ q ∈ db.surveyQuestions, q.id = qid ∧ q.targetType = .order := by
  simp only [raiseDispute, bind_eq_ok, DisputeSurveyService.ensureActiveQuestion_eq_ok] at h
  obtain ⟨-, -, -, -, -, -, -, -, q, ⟨hq, hid, htype, -⟩, -⟩ := h
  exact ⟨q, hq, hid, htype⟩

/-- The runner is told that the orderer has raised a dispute. -/
theorem event_of_raiseDispute {db : Db} {pid : ℕ} {orderer : UserId} {qid : ℕ}
    {reason : String} {now : Readings} {u : UnitOfWork}
    (h : raiseDispute db pid orderer qid reason now = .ok u) :
    ∃ p o, db.Pair p o ∧ p.id = pid ∧
      u.event = some fun _ => .disputeRaisedByOrderer (.about p o) := by
  simp only [raiseDispute, bind_eq_ok, getProposal_eq_ok, pure_eq_ok] at h
  obtain ⟨p, ⟨hp, rfl⟩, -, -, o, hexec, -, -, -, -, p', -, o', -, rfl⟩ := h
  obtain ⟨ho, hop, -⟩ := getExecutionOffer_eq_ok hexec
  exact ⟨p, o, ⟨hp, ho, hop⟩, rfl, rfl⟩

end ProposalService
end OrderRun
