import OrderRun.Services.Offer

/-!
# Dispute evidence

`app/services/dispute/dispute_evidence_service.py`: the evidence of a dispute, looked up by
the proposal or by the offer, for the two parties of the deal.

* `getByProposalId`, `getByOfferId` — the two queries.
* `lookUp_sole`, `lookUp_none` — what they answer if a single row, or no row, is selected.
-/

namespace OrderRun

open Store

namespace DisputeEvidenceService

/-- `SELECT orderer_id, runner_id FROM proposals JOIN offers ON offers.id = ... WHERE
proposals.id = ...`. -/
def participants (db : Db) (evidence : DisputeEvidence) : Option (UserId × UserId) := do
  let proposal ← db.proposals.find? evidence.proposalId
  let offer ← db.offers.find? evidence.offerId
  return (proposal.ordererId, offer.runnerId)

def ensureParticipant (db : Db) (evidence : DisputeEvidence) (viewerId : UserId) :
    Except Failure Unit := do
  let (ordererId, runnerId) ← orRaise (participants db evidence) (apiError .disputeEvidenceNotFound)
  raiseIf (viewerId ∉ [ordererId, runnerId]) (apiError .forbidden)

/-- The latest evidence that is selected, for a viewer.  The response has the columns of
the row. -/
def lookUp (db : Db) (selected : DisputeEvidence → Bool) (details : String) (viewerId : UserId) :
    Except Failure DisputeEvidence := do
  let evidence ← orRaise (db.evidences.firstBy selected (latestFirst DisputeEvidence.createdAt))
    (apiError .disputeEvidenceNotFound (some details))
  ensureParticipant db evidence viewerId
  return evidence

def getByProposalId (db : Db) (proposalId : ℕ) (viewerId : UserId) :
    Except Failure DisputeEvidence :=
  lookUp db (fun e => e.proposalId = proposalId) ("proposalId: " ++ toString proposalId) viewerId

def getByOfferId (db : Db) (offerId : ℕ) (viewerId : UserId) : Except Failure DisputeEvidence :=
  lookUp db (fun e => e.offerId = offerId) ("offerId: " ++ toString offerId) viewerId

section Spec

variable {db : Db} {selected : DisputeEvidence → Bool} {details : String} {viewerId : UserId}

/-- Nothing is found. -/
theorem lookUp_none (h : ∀ e ∈ db.evidences, selected e = false) :
    lookUp db selected details viewerId =
      .error (apiError .disputeEvidenceNotFound (some details)) := by
  unfold lookUp
  rw [show db.evidences.firstBy selected (latestFirst DisputeEvidence.createdAt) = none from
    Table.firstBy_eq_none_iff.2 h]
  rfl

/-- The parties are the orderer and the runner of the pair the evidence is about. -/
theorem ensureParticipant_eq {e : DisputeEvidence} {p : Proposal} {o : Offer}
    (hpair : db.Pair p o) (hpid : e.proposalId = p.id) (hoid : e.offerId = o.id) :
    ensureParticipant db e viewerId =
      if viewerId ∈ [p.ordererId, o.runnerId] then .ok () else .error (apiError .forbidden) := by
  have hparties : participants db e = some (p.ordererId, o.runnerId) := by
    unfold participants
    rw [Db.proposals_find?.2 ⟨hpair.proposal, hpid.symm⟩,
      Db.offers_find?.2 ⟨hpair.offer, hoid.symm⟩]
    rfl
  unfold ensureParticipant
  rw [hparties]
  show raiseIf (viewerId ∉ [p.ordererId, o.runnerId]) (apiError .forbidden) = _
  unfold raiseIf
  exact ite_not _ _ _

/-- **A single row is found**: the parties of the deal see it, and nobody else does. -/
theorem lookUp_sole {e : DisputeEvidence} (he : e ∈ db.evidences) (hsel : selected e = true)
    (hsole : ∀ x ∈ db.evidences, selected x = true → x = e) {p : Proposal} {o : Offer}
    (hpair : db.Pair p o) (hpid : e.proposalId = p.id) (hoid : e.offerId = o.id) :
    lookUp db selected details viewerId =
      if viewerId ∈ [p.ordererId, o.runnerId] then .ok e else .error (apiError .forbidden) := by
  have hfirst : db.evidences.firstBy selected (latestFirst DisputeEvidence.createdAt) = some e := by
    refine firstBy_latest_iff.2 ⟨he, hsel, fun x hx hxsel => Or.inr ?_⟩
    rw [hsole x hx hxsel]
    exact ⟨rfl, le_rfl⟩
  unfold lookUp
  rw [hfirst]
  show (do ensureParticipant db e viewerId; return e) = _
  rw [ensureParticipant_eq hpair hpid hoid]
  split <;> rfl

end Spec

end DisputeEvidenceService
end OrderRun
