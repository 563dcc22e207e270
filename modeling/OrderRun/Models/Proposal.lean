import OrderRun.Lib.Table
import OrderRun.Core.Errors

/-!
# Proposals

`app/models/proposal.py`: an errand an orderer has posted, its lifecycle status,
and the methods that move it along.  A method that refuses raises a
`ValueError`; one that succeeds returns the object with its new columns.

`meeting_at`, `item_price` and `deposit` are columns nothing reads, and are left
out.  A `DateTime` is an instant as the database stores it.
-/

namespace OrderRun

open Store

/-- An instant, as the database stores it. -/
abbrev DateTime := ℕ

/-- A user id: the text of a UUID. -/
abbrev UserId := String

/-- The lifecycle of a proposal. -/
inductive ProposalStatus where
  | holding
  | posted
  | offered
  | matched
  | orderCompleted
  | allCompleted
  | disputed
  | resolved
  | reported
  | cancelled
  deriving DecidableEq, Repr

/-- The stored value of a status. -/
def ProposalStatus.value : ProposalStatus → String
  | .holding => "HOLDING"
  | .posted => "POSTED"
  | .offered => "OFFERED"
  | .matched => "MATCHED"
  | .orderCompleted => "ORDER_COMPLETED"
  | .allCompleted => "ALL_COMPLETED"
  | .disputed => "DISPUTED"
  | .resolved => "RESOLVED"
  | .reported => "REPORTED"
  | .cancelled => "CANCELLED"

/-- A row of `proposals`. -/
structure Proposal where
  id : ℕ
  ordererId : UserId
  title : String
  content : String
  deadline : DateTime
  errandFee : ℤ
  status : ProposalStatus
  createdAt : DateTime
  matchedAt : Option DateTime
  runnerConfirmedAt : Option DateTime
  ordererConfirmedAt : Option DateTime
  disputedAt : Option DateTime
  resolvedAt : Option DateTime
  updatedAt : DateTime
  deriving DecidableEq, Repr

instance : Keyed Proposal ℕ := ⟨Proposal.id⟩

/-- The body of a create or update request. -/
structure ProposalRequest where
  title : String
  content : String
  deadline : DateTime
  errandFee : ℤ
  deriving DecidableEq, Repr

namespace Proposal

/-! ## Transition methods -/

def markAsOffered (p : Proposal) : Proposal :=
  if p.status = .posted then { p with status := .offered } else p

def canConfirmRunnerCompletion (p : Proposal) : Bool := p.status ∈ [.matched, .orderCompleted]

def confirmRunnerCompletion (p : Proposal) (utcnow : DateTime) : Except Failure Proposal := do
  raiseIf (¬ p.canConfirmRunnerCompletion)
    (.valueError "Cannot confirm runner completion for proposal not in active execution status")
  return { p with runnerConfirmedAt := some utcnow }

def canConfirmOrdererCompletion (p : Proposal) : Bool := p.status = .matched

def confirmOrdererCompletion (p : Proposal) (utcnow : DateTime) : Except Failure Proposal := do
  raiseIf (¬ p.canConfirmOrdererCompletion)
    (.valueError "Cannot confirm orderer completion for proposal not in MATCHED status")
  return { p with status := .orderCompleted, ordererConfirmedAt := some utcnow }

def markAllCompleted (p : Proposal) : Except Failure Proposal := do
  raiseIf (p.status ∉ [.orderCompleted, .matched])
    (.valueError "Cannot mark all completed for proposal at this stage")
  return { p with status := .allCompleted }

def canRaiseDispute (p : Proposal) : Bool := p.status ∈ [.matched, .orderCompleted]

def raiseDispute (p : Proposal) (utcnow : DateTime) : Except Failure Proposal := do
  raiseIf (¬ p.canRaiseDispute) (.valueError "Cannot raise dispute for proposal at this stage")
  return { p with status := .disputed, disputedAt := some utcnow }

def canResolve (p : Proposal) : Bool := p.status = .disputed

def resolve (p : Proposal) (utcnow : DateTime) : Except Failure Proposal := do
  raiseIf (¬ p.canResolve) (.valueError "Cannot resolve proposal not in DISPUTED status")
  return { p with status := .resolved, resolvedAt := some utcnow }

def cancel (p : Proposal) : Except Failure Proposal := do
  raiseIf (p.status ∉ [.holding, .posted, .offered])
    (.valueError "Cannot cancel proposal after matching")
  return { p with status := .cancelled }

/-! ## Creation and editing -/

def validateDeadline (deadline now : DateTime) : Except Failure DateTime := do
  raiseIf (deadline ≤ now) (apiError .proposalDeadlineInvalid)
  return deadline

def validateErrandFee (errandFee : ℤ) : Except Failure Unit :=
  raiseIf (errandFee < 1000)
    (apiError .proposalErrandFeeInvalid (some "errandFee must be greater than or equal to 1000"))

/-- A new proposal; its key and timestamps are filled in when it is inserted. -/
def createProposal (ordererId : UserId) (req : ProposalRequest) (utcnow : DateTime) :
    Except Failure Proposal := do
  let validated ← validateDeadline req.deadline utcnow
  validateErrandFee req.errandFee
  return {
    id := 0
    ordererId
    title := req.title
    content := req.content
    deadline := validated
    errandFee := req.errandFee
    status := .holding
    createdAt := 0
    matchedAt := none
    runnerConfirmedAt := none
    ordererConfirmedAt := none
    disputedAt := none
    resolvedAt := none
    updatedAt := 0 }

/-- Editing sends the proposal back to payment confirmation. -/
def updateProposal (p : Proposal) (req : ProposalRequest) (utcnow : DateTime) :
    Except Failure Proposal := do
  let validated ← validateDeadline req.deadline utcnow
  validateErrandFee req.errandFee
  return { p with
    title := req.title
    content := req.content
    deadline := validated
    errandFee := req.errandFee
    status := .holding }

/-! ## What the methods do -/

section Spec

variable {p p' : Proposal} {t : DateTime}

theorem confirmRunnerCompletion_eq_ok : p.confirmRunnerCompletion t = .ok p' ↔
    p.status ∈ [.matched, .orderCompleted] ∧ { p with runnerConfirmedAt := some t } = p' := by
  simp [confirmRunnerCompletion, canConfirmRunnerCompletion]
  tauto

theorem confirmOrdererCompletion_eq_ok : p.confirmOrdererCompletion t = .ok p' ↔
    p.status = .matched ∧
      { p with status := .orderCompleted, ordererConfirmedAt := some t } = p' := by
  simp [confirmOrdererCompletion, canConfirmOrdererCompletion]

theorem markAllCompleted_eq_ok : p.markAllCompleted = .ok p' ↔
    p.status ∈ [.orderCompleted, .matched] ∧ { p with status := .allCompleted } = p' := by
  simp [markAllCompleted]
  tauto

theorem raiseDispute_eq_ok : p.raiseDispute t = .ok p' ↔
    p.status ∈ [.matched, .orderCompleted] ∧
      { p with status := .disputed, disputedAt := some t } = p' := by
  simp [raiseDispute, canRaiseDispute]
  tauto

theorem resolve_eq_ok : p.resolve t = .ok p' ↔
    p.status = .disputed ∧ { p with status := .resolved, resolvedAt := some t } = p' := by
  simp [resolve, canResolve]

theorem cancel_eq_ok : p.cancel = .ok p' ↔
    p.status ∈ [.holding, .posted, .offered] ∧ { p with status := .cancelled } = p' := by
  simp [cancel]
  tauto

theorem updateProposal_eq_ok {req : ProposalRequest} : p.updateProposal req t = .ok p' ↔
    t < req.deadline ∧ 1000 ≤ req.errandFee ∧
      { p with
        title := req.title, content := req.content, deadline := req.deadline,
        errandFee := req.errandFee, status := .holding } = p' := by
  simp [updateProposal, validateDeadline, validateErrandFee]

end Spec

/-! ## Writing back -/

/-- The row after a flush of `dirty`, which was loaded as `loaded`.  No method
assigns the key, the orderer or `created_at`; an object without changes is not
written at all.  A deadline that has been assigned carries an offset, the loaded one
does not, and the two are never equal: the column is then written whatever it shows. -/
def flush (deadlineAssigned : Bool) (loaded dirty : Proposal) (utcnow : DateTime)
    (row : Proposal) : Proposal :=
  if dirty = loaded ∧ deadlineAssigned = false then row else
    { row with
      title := col loaded.title dirty.title row.title
      content := col loaded.content dirty.content row.content
      deadline :=
        if deadlineAssigned then dirty.deadline
        else col loaded.deadline dirty.deadline row.deadline
      errandFee := col loaded.errandFee dirty.errandFee row.errandFee
      status := col loaded.status dirty.status row.status
      matchedAt := col loaded.matchedAt dirty.matchedAt row.matchedAt
      runnerConfirmedAt := col loaded.runnerConfirmedAt dirty.runnerConfirmedAt
        row.runnerConfirmedAt
      ordererConfirmedAt := col loaded.ordererConfirmedAt dirty.ordererConfirmedAt
        row.ordererConfirmedAt
      disputedAt := col loaded.disputedAt dirty.disputedAt row.disputedAt
      resolvedAt := col loaded.resolvedAt dirty.resolvedAt row.resolvedAt
      updatedAt := utcnow }

/-- An object that no method has touched is not written. -/
@[simp] theorem flush_unchanged (p row : Proposal) (utcnow : DateTime) :
    flush false p p utcnow row = row :=
  if_pos ⟨rfl, rfl⟩

/-! Each column is written by itself. -/

section Columns

variable (assigned : Bool) (loaded dirty row : Proposal) (utcnow : DateTime)

@[simp] theorem flush_title : (flush assigned loaded dirty utcnow row).title =
    col loaded.title dirty.title row.title := by
  unfold flush; split
  · next h => rw [h.1, col_unchanged]
  · rfl

@[simp] theorem flush_content : (flush assigned loaded dirty utcnow row).content =
    col loaded.content dirty.content row.content := by
  unfold flush; split
  · next h => rw [h.1, col_unchanged]
  · rfl

@[simp] theorem flush_deadline : (flush assigned loaded dirty utcnow row).deadline =
    if assigned then dirty.deadline else col loaded.deadline dirty.deadline row.deadline := by
  unfold flush; split
  · next h => rw [h.2, if_neg Bool.false_ne_true, h.1, col_unchanged]
  · rfl

@[simp] theorem flush_errandFee : (flush assigned loaded dirty utcnow row).errandFee =
    col loaded.errandFee dirty.errandFee row.errandFee := by
  unfold flush; split
  · next h => rw [h.1, col_unchanged]
  · rfl

@[simp] theorem flush_status : (flush assigned loaded dirty utcnow row).status =
    col loaded.status dirty.status row.status := by
  unfold flush; split
  · next h => rw [h.1, col_unchanged]
  · rfl

@[simp] theorem flush_matchedAt : (flush assigned loaded dirty utcnow row).matchedAt =
    col loaded.matchedAt dirty.matchedAt row.matchedAt := by
  unfold flush; split
  · next h => rw [h.1, col_unchanged]
  · rfl

@[simp] theorem flush_runnerConfirmedAt :
    (flush assigned loaded dirty utcnow row).runnerConfirmedAt =
      col loaded.runnerConfirmedAt dirty.runnerConfirmedAt row.runnerConfirmedAt := by
  unfold flush; split
  · next h => rw [h.1, col_unchanged]
  · rfl

@[simp] theorem flush_ordererConfirmedAt :
    (flush assigned loaded dirty utcnow row).ordererConfirmedAt =
      col loaded.ordererConfirmedAt dirty.ordererConfirmedAt row.ordererConfirmedAt := by
  unfold flush; split
  · next h => rw [h.1, col_unchanged]
  · rfl

@[simp] theorem flush_disputedAt : (flush assigned loaded dirty utcnow row).disputedAt =
    col loaded.disputedAt dirty.disputedAt row.disputedAt := by
  unfold flush; split
  · next h => rw [h.1, col_unchanged]
  · rfl

@[simp] theorem flush_resolvedAt : (flush assigned loaded dirty utcnow row).resolvedAt =
    col loaded.resolvedAt dirty.resolvedAt row.resolvedAt := by
  unfold flush; split
  · next h => rw [h.1, col_unchanged]
  · rfl

@[simp] theorem flush_id : (flush assigned loaded dirty utcnow row).id = row.id := by
  unfold flush; split <;> rfl

end Columns

end Proposal
end OrderRun
