import OrderRun.Services.Proposal

/-!
# Proposal reports

The commands of `app/services/proposal/proposal_report_service.py`: a user
reports a proposal, an administrator accepts or rejects the report.  Accepting
one takes the proposal down and rejects the offers still waiting.
-/

namespace OrderRun

open Store

structure ProposalReportResponse where
  id : ℕ
  proposalId : ℕ
  reporterId : UserId
  reasonQuestionId : ℕ
  reasonQuestionText : String
  detailReason : Option String
  status : ProposalReportStatus
  createdAt : DateTime
  reviewedAt : Option DateTime
  deriving DecidableEq, Repr

namespace ProposalReportService

def REPORTABLE_PROPOSAL_STATUSES : List ProposalStatus := [.posted, .offered]

def getProposal (db : Db) (proposalId : ℕ) : Except Failure Proposal :=
  orRaise (db.proposals.find? proposalId)
    (apiError .proposalNotFound (some ("id: " ++ toString proposalId)))

def getActiveReasonQuestion (db : Db) (questionId : ℕ) :
    Except Failure ProposalReportReasonQuestion :=
  orRaise ((db.reasonQuestions.find? questionId).filter fun question => question.isActive)
    (apiError .validationError (some "reasonQuestionId"))

def getReport (db : Db) (reportId : ℕ) : Except Failure ProposalReport :=
  orRaise (db.reports.find? reportId)
    (apiError .proposalReportNotFound (some ("id: " ++ toString reportId)))

def ensurePending (report : ProposalReport) : Except Failure Unit :=
  raiseIf (report.status ≠ .pending)
    (apiError .proposalReportNotReviewable (some ("status: " ++ report.status.value)))

@[simp] theorem getProposal_eq_ok {db : Db} {pid : ℕ} {p : Proposal} :
    getProposal db pid = .ok p ↔ p ∈ db.proposals ∧ p.id = pid := by
  rw [getProposal, orRaise_eq_ok, Db.proposals_find?]

@[simp] theorem ensurePending_eq_ok {r : ProposalReport} {x : Unit} :
    ensurePending r = .ok x ↔ r.status = .pending := by
  simp [ensurePending]

def create (db : Db) (proposalId : ℕ) (reporterId : UserId)
    (request : ProposalReportCreateRequest) : Except Failure UnitOfWork := do
  let proposal ← getProposal db proposalId
  raiseIf (proposal.ordererId = reporterId) (apiError .proposalSelfReportNotAllowed)
  raiseIf (proposal.status ∉ REPORTABLE_PROPOSAL_STATUSES)
    (apiError .proposalNotReportable (some (ProposalService.statusDetail proposal)))
  let question ← getActiveReasonQuestion db request.reasonQuestionId
  return {
    newReport := some {
      id := 0
      proposalId := proposal.id
      reporterId := reporterId
      reasonQuestionId := question.id
      detailReason := request.detailReason
      status := .pending
      createdAt := 0
      reviewedAt := none } }

theorem create_eq_ok {db : Db} {pid : ℕ} {reporter : UserId}
    {request : ProposalReportCreateRequest} {u : UnitOfWork}
    (h : create db pid reporter request = .ok u) :
    ∃ p ∈ db.proposals, p.id = pid ∧ p.ordererId ≠ reporter ∧
      p.status ∈ REPORTABLE_PROPOSAL_STATUSES ∧
      ∃ report, report.proposalId = pid ∧ report.reporterId = reporter ∧
        report.status = .pending ∧ report.reviewedAt = none ∧
        u = { newReport := some report } := by
  simp only [create, bind_eq_ok, getProposal_eq_ok, raiseIf_eq_ok, pure_eq_ok, not_not] at h
  obtain ⟨p, ⟨hp, rfl⟩, -, hself, -, hstatus, -, -, rfl⟩ := h
  exact ⟨p, hp, rfl, hself, hstatus, _, rfl, rfl, rfl, rfl, rfl⟩

/-- The reason of a new report is one of the questions. -/
theorem question_of_create {db : Db} {pid : ℕ} {reporter : UserId}
    {request : ProposalReportCreateRequest} {u : UnitOfWork}
    (h : create db pid reporter request = .ok u) :
    ∃ q ∈ db.reasonQuestions, q.id = request.reasonQuestionId ∧
      ∃ report, report.reasonQuestionId = q.id ∧ u = { newReport := some report } := by
  simp only [create, getActiveReasonQuestion, bind_eq_ok, orRaise_eq_ok,
    Option.filter_eq_some_iff, AutoTable.find?_eq_some_iff, pure_eq_ok] at h
  obtain ⟨p, -, -, -, -, -, q, ⟨⟨hq, hid⟩, -⟩, rfl⟩ := h
  exact ⟨q, hq, hid, _, rfl, rfl⟩

def accept (db : Db) (reportId : ℕ) (now : Readings) : Except Failure UnitOfWork := do
  let report ← getReport db reportId
  ensurePending report
  let proposal ← getProposal db report.proposalId
  raiseIf (proposal.status ∉ REPORTABLE_PROPOSAL_STATUSES ++ [.reported])
    (apiError .proposalNotReportable (some (ProposalService.statusDetail proposal)))
  let reportable : Bool := proposal.status ∈ REPORTABLE_PROPOSAL_STATUSES
  return {
    rejectWaiting := if reportable then some ⟨proposal.id, none⟩ else none
    proposals := [⟨proposal, if reportable then { proposal with status := .reported }
      else proposal⟩]
    reports := [⟨report, { report with status := .accepted, reviewedAt := some now.first }⟩] }

/-- A proposal that is already `REPORTED` is left as it is. -/
theorem accept_eq_ok {db : Db} {rid : ℕ} {now : Readings} {u : UnitOfWork}
    (h : accept db rid now = .ok u) :
    ∃ p ∈ db.proposals, ∃ report ∈ db.reports, report.id = rid ∧ report.proposalId = p.id ∧
      report.status = .pending ∧
      ((p.status ∈ REPORTABLE_PROPOSAL_STATUSES ∧ u = {
          rejectWaiting := some ⟨p.id, none⟩
          proposals := [⟨p, { p with status := .reported }⟩]
          reports := [⟨report, { report with
            status := .accepted, reviewedAt := some now.first }⟩] }) ∨
        (p.status = .reported ∧ u = {
          proposals := [⟨p, p⟩]
          reports := [⟨report, { report with
            status := .accepted, reviewedAt := some now.first }⟩] })) := by
  simp only [accept, getReport, bind_eq_ok, getProposal_eq_ok, orRaise_eq_ok,
    AutoTable.find?_eq_some_iff, ensurePending_eq_ok, raiseIf_eq_ok, pure_eq_ok, not_not] at h
  obtain ⟨report, ⟨hreport, rfl⟩, -, hpending, p, ⟨hp, hpid⟩, -, hstatus, rfl⟩ := h
  refine ⟨p, hp, report, hreport, rfl, hpid.symm, hpending, ?_⟩
  by_cases hs : p.status ∈ REPORTABLE_PROPOSAL_STATUSES
  · refine Or.inl ⟨hs, ?_⟩
    simp only [decide_eq_true_eq, if_pos hs]
  · have hreported : p.status = .reported := by
      rcases List.mem_append.1 hstatus with h | h
      · exact absurd h hs
      · exact List.mem_singleton.1 h
    refine Or.inr ⟨hreported, ?_⟩
    simp only [decide_eq_true_eq, if_neg hs]

def reject (db : Db) (reportId : ℕ) (now : Readings) : Except Failure UnitOfWork := do
  let report ← getReport db reportId
  ensurePending report
  return {
    reports := [⟨report, { report with status := .rejected, reviewedAt := some now.first }⟩] }

theorem reject_eq_ok {db : Db} {rid : ℕ} {now : Readings} {u : UnitOfWork}
    (h : reject db rid now = .ok u) :
    ∃ report ∈ db.reports, report.id = rid ∧ report.status = .pending ∧
      u = { reports := [⟨report, { report with
        status := .rejected, reviewedAt := some now.first }⟩] } := by
  simp only [reject, getReport, bind_eq_ok, orRaise_eq_ok, AutoTable.find?_eq_some_iff,
    ensurePending_eq_ok, pure_eq_ok] at h
  obtain ⟨report, ⟨hreport, rfl⟩, -, hpending, rfl⟩ := h
  exact ⟨report, hreport, rfl, hpending, rfl⟩

def toResponse (report : ProposalReport) (questionText : String) : ProposalReportResponse where
  id := report.id
  proposalId := report.proposalId
  reporterId := report.reporterId
  reasonQuestionId := report.reasonQuestionId
  reasonQuestionText := questionText
  detailReason := report.detailReason
  status := report.status
  createdAt := report.createdAt
  reviewedAt := report.reviewedAt

end ProposalReportService
end OrderRun
