import OrderRun.Models.Proposal

/-!
# Offers

`app/models/offer.py`: a runner's application to a proposal.  The pair
(proposal, runner) is unique by the constraint `uk_proposal_runner`, which the
insert of a new offer checks.
-/

namespace OrderRun

open Store

/-- The lifecycle of an offer. -/
inductive OfferStatus where
  | waiting
  | accepted
  | runnerCompleted
  | allCompleted
  | disputed
  | resolved
  | rejected
  | cancelled
  deriving DecidableEq, Repr

/-- The stored value of a status. -/
def OfferStatus.value : OfferStatus → String
  | .waiting => "WAITING"
  | .accepted => "ACCEPTED"
  | .runnerCompleted => "RUNNER_COMPLETED"
  | .allCompleted => "ALL_COMPLETED"
  | .disputed => "DISPUTED"
  | .resolved => "RESOLVED"
  | .rejected => "REJECTED"
  | .cancelled => "CANCELLED"

/-- A row of `offers`. -/
structure Offer where
  id : ℕ
  proposalId : ℕ
  runnerId : UserId
  status : OfferStatus
  openChatUrl : Option String
  createdAt : DateTime
  acceptedAt : Option DateTime
  runnerConfirmedAt : Option DateTime
  ordererConfirmedAt : Option DateTime
  disputedAt : Option DateTime
  resolvedAt : Option DateTime
  updatedAt : DateTime
  deriving DecidableEq, Repr

instance : Keyed Offer ℕ := ⟨Offer.id⟩

namespace Offer

/-- A new application; its key and timestamps are filled in when it is inserted. -/
def create (proposalId : ℕ) (runnerId : UserId) : Offer where
  id := 0
  proposalId := proposalId
  runnerId := runnerId
  status := .waiting
  openChatUrl := none
  createdAt := 0
  acceptedAt := none
  runnerConfirmedAt := none
  ordererConfirmedAt := none
  disputedAt := none
  resolvedAt := none
  updatedAt := 0

/-! ## Transition methods -/

def canAccept (o : Offer) : Bool := o.status = .waiting

def canCancel (o : Offer) : Bool := o.status = .waiting

def accept (o : Offer) (utcnow : DateTime) : Except Failure Offer := do
  raiseIf (¬ o.canAccept) (.valueError "Cannot accept offer that is not in WAITING status")
  return { o with status := .accepted, acceptedAt := some utcnow }

def canConfirmRunnerCompletion (o : Offer) : Bool := o.status = .accepted

def confirmRunnerCompletion (o : Offer) (utcnow : DateTime) : Except Failure Offer := do
  raiseIf (¬ o.canConfirmRunnerCompletion)
    (.valueError "Cannot confirm runner completion for offer not in ACCEPTED status")
  return { o with status := .runnerCompleted, runnerConfirmedAt := some utcnow }

def canConfirmOrdererCompletion (o : Offer) : Bool := o.status ∈ [.accepted, .runnerCompleted]

def confirmOrdererCompletion (o : Offer) (utcnow : DateTime) : Except Failure Offer := do
  raiseIf (¬ o.canConfirmOrdererCompletion)
    (.valueError "Cannot confirm orderer completion for offer not in active execution status")
  return { o with ordererConfirmedAt := some utcnow }

def markAllCompleted (o : Offer) : Except Failure Offer := do
  raiseIf (o.status ∉ [.runnerCompleted, .accepted])
    (.valueError "Cannot mark all completed for offer at this stage")
  return { o with status := .allCompleted }

def canRaiseDispute (o : Offer) : Bool := o.status ∈ [.accepted, .runnerCompleted]

def raiseDispute (o : Offer) (utcnow : DateTime) : Except Failure Offer := do
  raiseIf (¬ o.canRaiseDispute) (.valueError "Cannot raise dispute for offer at this stage")
  return { o with status := .disputed, disputedAt := some utcnow }

def canResolve (o : Offer) : Bool := o.status = .disputed

def resolve (o : Offer) (utcnow : DateTime) : Except Failure Offer := do
  raiseIf (¬ o.canResolve) (.valueError "Cannot resolve offer not in DISPUTED status")
  return { o with status := .resolved, resolvedAt := some utcnow }

def cancel (o : Offer) : Except Failure Offer := do
  raiseIf (¬ o.canCancel) (.valueError "Cannot cancel offer that is not in WAITING status")
  return { o with status := .cancelled }

/-! ## What the methods do -/

section Spec

variable {o o' : Offer} {t : DateTime}

theorem accept_eq_ok : o.accept t = .ok o' ↔
    o.status = .waiting ∧ { o with status := .accepted, acceptedAt := some t } = o' := by
  simp [accept, canAccept]

theorem confirmRunnerCompletion_eq_ok : o.confirmRunnerCompletion t = .ok o' ↔
    o.status = .accepted ∧
      { o with status := .runnerCompleted, runnerConfirmedAt := some t } = o' := by
  simp [confirmRunnerCompletion, canConfirmRunnerCompletion]

theorem confirmOrdererCompletion_eq_ok : o.confirmOrdererCompletion t = .ok o' ↔
    o.status ∈ [.accepted, .runnerCompleted] ∧ { o with ordererConfirmedAt := some t } = o' := by
  simp [confirmOrdererCompletion, canConfirmOrdererCompletion]
  tauto

theorem markAllCompleted_eq_ok : o.markAllCompleted = .ok o' ↔
    o.status ∈ [.runnerCompleted, .accepted] ∧ { o with status := .allCompleted } = o' := by
  simp [markAllCompleted]
  tauto

theorem raiseDispute_eq_ok : o.raiseDispute t = .ok o' ↔
    o.status ∈ [.accepted, .runnerCompleted] ∧
      { o with status := .disputed, disputedAt := some t } = o' := by
  simp [raiseDispute, canRaiseDispute]
  tauto

theorem resolve_eq_ok : o.resolve t = .ok o' ↔
    o.status = .disputed ∧ { o with status := .resolved, resolvedAt := some t } = o' := by
  simp [resolve, canResolve]

theorem cancel_eq_ok : o.cancel = .ok o' ↔
    o.status = .waiting ∧ { o with status := .cancelled } = o' := by
  simp [cancel, canCancel]

end Spec

/-! ## Writing back -/

/-- The row after a flush of `dirty`, which was loaded as `loaded`.  No method
assigns the key, the proposal, the runner, the chat link or `created_at`. -/
def flush (loaded dirty : Offer) (utcnow : DateTime) (row : Offer) : Offer :=
  if dirty = loaded then row else
    { row with
      status := col loaded.status dirty.status row.status
      acceptedAt := col loaded.acceptedAt dirty.acceptedAt row.acceptedAt
      runnerConfirmedAt := col loaded.runnerConfirmedAt dirty.runnerConfirmedAt
        row.runnerConfirmedAt
      ordererConfirmedAt := col loaded.ordererConfirmedAt dirty.ordererConfirmedAt
        row.ordererConfirmedAt
      disputedAt := col loaded.disputedAt dirty.disputedAt row.disputedAt
      resolvedAt := col loaded.resolvedAt dirty.resolvedAt row.resolvedAt
      updatedAt := utcnow }

/-! Each column is written by itself. -/

section Columns

variable (loaded dirty row : Offer) (utcnow : DateTime)

@[simp] theorem flush_status : (flush loaded dirty utcnow row).status =
    col loaded.status dirty.status row.status := by
  unfold flush; split
  · next h => rw [h, col_unchanged]
  · rfl

@[simp] theorem flush_acceptedAt : (flush loaded dirty utcnow row).acceptedAt =
    col loaded.acceptedAt dirty.acceptedAt row.acceptedAt := by
  unfold flush; split
  · next h => rw [h, col_unchanged]
  · rfl

@[simp] theorem flush_runnerConfirmedAt : (flush loaded dirty utcnow row).runnerConfirmedAt =
    col loaded.runnerConfirmedAt dirty.runnerConfirmedAt row.runnerConfirmedAt := by
  unfold flush; split
  · next h => rw [h, col_unchanged]
  · rfl

@[simp] theorem flush_ordererConfirmedAt : (flush loaded dirty utcnow row).ordererConfirmedAt =
    col loaded.ordererConfirmedAt dirty.ordererConfirmedAt row.ordererConfirmedAt := by
  unfold flush; split
  · next h => rw [h, col_unchanged]
  · rfl

@[simp] theorem flush_disputedAt : (flush loaded dirty utcnow row).disputedAt =
    col loaded.disputedAt dirty.disputedAt row.disputedAt := by
  unfold flush; split
  · next h => rw [h, col_unchanged]
  · rfl

@[simp] theorem flush_resolvedAt : (flush loaded dirty utcnow row).resolvedAt =
    col loaded.resolvedAt dirty.resolvedAt row.resolvedAt := by
  unfold flush; split
  · next h => rw [h, col_unchanged]
  · rfl

@[simp] theorem flush_id : (flush loaded dirty utcnow row).id = row.id := by
  unfold flush; split <;> rfl

@[simp] theorem flush_runnerId : (flush loaded dirty utcnow row).runnerId = row.runnerId := by
  unfold flush; split <;> rfl

end Columns

end Offer
end OrderRun
