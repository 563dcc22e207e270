import OrderRun.Application.Deals
import OrderRun.Queries.Search
import OrderRun.Sequential.Level

/-!
# Moderation

Reports, and the proposals they take down.

* `UnitOfWork.Reviews`, `body_reviews` — what a call does to reports: it accepts a report
  on a proposal exactly if it leaves the proposal `REPORTED`.
* `Db.Moderated` — the reports agree with the proposals.
* `World.Moderated` — what that means for searches and for further calls.
* `World.Final` — reviewed reports are final, and so are proposals that have been taken
  down.
* `App.moderation` — all this holds in every run of the application.
-/

namespace OrderRun

open Store

/-! ## What a call does to reports -/

/-- What a unit of work does to reports and to proposals that are taken down, if it was
prepared on `db`. -/
structure UnitOfWork.Reviews (u : UnitOfWork) (db : Db) : Prop where
  reports : ∀ c ∈ u.reports, c.loaded ∈ db.reports ∧ c.loaded.status = .pending ∧
    c.dirty.status ≠ .pending ∧ ∃ t, c.dirty.reviewedAt = some t
  objects : OneObject u.reports
  newReport : ∀ r, u.newReport = some r → r.status = .pending ∧ r.reviewedAt = none ∧
    ∃ p ∈ db.proposals, p.id = r.proposalId ∧ p.ordererId ≠ r.reporterId
  /-- A report is accepted exactly if its proposal is left `REPORTED`. -/
  accepts : ∀ pid, (∃ c ∈ u.reports, c.loaded.proposalId = pid ∧ c.dirty.status = .accepted) ↔
    ∃ c ∈ u.proposals, c.loaded.id = pid ∧ c.dirty.status = .reported
  /-- A proposal that has been taken down is not changed again. -/
  frozen : ∀ c ∈ u.proposals, c.loaded.status = .reported →
    c.dirty = c.loaded ∧ u.deadlineAssigned = false

section Bodies

variable {u : UnitOfWork} {db : Db} {call : Call} {now : Readings}

/-- A call that has nothing to do with reports. -/
theorem reviews_nothing (hr : u.reports = []) (hn : u.newReport = none)
    (hp : ∀ c ∈ u.proposals, c.loaded.status ≠ .reported ∧ c.dirty.status ≠ .reported) :
    u.Reviews db where
  reports := by simp [hr]
  objects := by rw [hr]; exact oneObject_nil
  newReport := by simp [hn]
  accepts := by
    intro pid
    rw [hr]
    refine iff_of_false (by simp) ?_
    rintro ⟨c, hc, -, hs⟩
    exact (hp c hc).2 hs
  frozen := fun c hc hs => absurd hs (hp c hc).1

/-- A call that changes one proposal, and does not take it down. -/
theorem reviews_proposal {p p' : Proposal} (hu : u.proposals = [⟨p, p'⟩]) (hr : u.reports = [])
    (hn : u.newReport = none) (hs : p.status ≠ .reported) (hs' : p'.status ≠ .reported) :
    u.Reviews db := by
  refine reviews_nothing hr hn ?_
  intro c hc
  rw [hu, List.mem_singleton] at hc
  rw [hc]
  exact ⟨hs, hs'⟩

/-- An administrator accepts a report. -/
theorem reviews_accept {p p' : Proposal} {report : ProposalReport} {t : DateTime}
    (hreport : report ∈ db.reports) (hpid : report.proposalId = p.id)
    (hpending : report.status = .pending) (hu : u.proposals = [⟨p, p'⟩])
    (hr : u.reports = [⟨report, { report with status := .accepted, reviewedAt := some t }⟩])
    (hn : u.newReport = none) (hs' : p'.status = .reported)
    (ha : u.deadlineAssigned = false) (hagain : p.status = .reported → p' = p) :
    u.Reviews db where
  reports := by
    intro c hc
    rw [hr, List.mem_singleton] at hc
    rw [hc]
    exact ⟨hreport, hpending, by simp, t, rfl⟩
  objects := by rw [hr]; exact oneObject_singleton _
  newReport := by simp [hn]
  accepts := by simp [hr, hu, hpid, hs']
  frozen := by simpa [hu, ha] using hagain

/-- **What a call does to reports.** -/
theorem body_reviews (h : call.body db now = .ok u) : u.Reviews db := by
  cases call with
  | proposalCreate request uid =>
      obtain ⟨p, -, -, -, -, -, -, -, rfl⟩ := ProposalService.create_eq_ok h
      exact reviews_nothing rfl rfl (by simp)
  | proposalUpdate pid request uid =>
      obtain ⟨p, -, -, -, hs, rfl⟩ := ProposalService.update_eq_ok h
      refine reviews_proposal rfl rfl rfl ?_ (by simp)
      rcases hs with hs | hs <;> simp [hs]
  | proposalCancel pid uid =>
      obtain ⟨p, -, -, -, hs, rfl⟩ := ProposalService.cancel_eq_ok h
      refine reviews_proposal rfl rfl rfl ?_ (by simp)
      rintro he
      rw [he] at hs
      exact absurd hs (by decide)
  | confirmPayment pid =>
      obtain ⟨p, -, -, hs, rfl⟩ := ProposalService.confirmPayment_eq_ok h
      exact reviews_proposal rfl rfl rfl (by simp [hs]) (by simp)
  | confirmReceived pid uid =>
      obtain ⟨p, o, -, -, -, hs, ⟨-, _, rfl⟩ | ⟨-, _, rfl⟩⟩ :=
        ProposalService.confirmReceived_eq_ok h <;>
      exact reviews_proposal rfl rfl rfl (by simp [hs]) (by simp)
  | proposalDispute pid uid qid reason =>
      obtain ⟨p, o, -, -, -, hs, -, _, rfl⟩ := ProposalService.raiseDispute_eq_ok h
      refine reviews_proposal rfl rfl rfl ?_ (by simp)
      rcases List.mem_pair.1 hs with hs | hs <;> simp [hs]
  | offerCreate pid uid =>
      obtain ⟨p, -, -, -, hs, -, _, rfl⟩ := OfferService.create_eq_ok h
      refine reviews_proposal rfl rfl rfl ?_ (by simp)
      rcases hs with hs | hs <;> simp [hs]
  | offerCancel oid uid =>
      obtain ⟨o, -, -, -, -, rfl⟩ := OfferService.cancel_eq_ok h
      exact reviews_nothing rfl rfl (by simp)
  | offerAccept oid uid =>
      obtain ⟨p, o, -, -, -, -, hs, -, _, rfl⟩ := OfferService.accept_eq_ok h
      exact reviews_proposal rfl rfl rfl (by simp [hs]) (by simp)
  | completeDelivery oid uid =>
      obtain ⟨p, o, -, -, -, -, ⟨hs, _, rfl⟩ | ⟨hs, _, rfl⟩⟩ :=
        OfferService.completeDelivery_eq_ok h <;>
      exact reviews_proposal rfl rfl rfl (by simp [hs]) (by simp [hs])
  | offerDispute oid uid qid reason =>
      obtain ⟨p, o, -, -, -, -, hs, _, rfl⟩ := OfferService.raiseDispute_eq_ok h
      refine reviews_proposal rfl rfl rfl ?_ (by simp)
      rcases List.mem_pair.1 hs with hs | hs <;> simp [hs]
  | resolve oid =>
      obtain ⟨p, o, -, -, -, hs, rfl⟩ := OfferService.resolve_eq_ok h
      exact reviews_proposal rfl rfl rfl (by simp [hs]) (by simp)
  | reportCreate pid uid request =>
      obtain ⟨p, hp, rfl, hself, -, report, hpid, rfl, hs, hrev, rfl⟩ :=
        ProposalReportService.create_eq_ok h
      exact {
        reports := by simp
        objects := oneObject_nil
        newReport := by
          rintro r hr
          rw [← Option.some.inj hr]
          exact ⟨hs, hrev, p, hp, hpid.symm, hself⟩
        accepts := by simp
        frozen := by simp }
  | reportAccept rid =>
      obtain ⟨p, -, report, hreport, rfl, hpid, hpending, ⟨hs, rfl⟩ | ⟨hs, rfl⟩⟩ :=
        ProposalReportService.accept_eq_ok h
      · refine reviews_accept hreport hpid hpending rfl rfl rfl rfl rfl ?_
        rintro he
        rw [he] at hs
        exact absurd hs (by decide)
      · exact reviews_accept hreport hpid hpending rfl rfl rfl hs rfl fun _ => rfl
  | reportReject rid =>
      obtain ⟨report, hreport, rfl, hpending, rfl⟩ := ProposalReportService.reject_eq_ok h
      exact {
        reports := by simpa using ⟨hreport, hpending⟩
        objects := oneObject_singleton _
        newReport := by simp
        accepts := by simp
        frozen := by simp }
  | withdrawUser uid =>
      obtain ⟨user, -, -, -, -, rfl⟩ := UserWithdrawalService.withdrawUser_eq_ok h
      refine reviews_nothing rfl rfl ?_
      intro c hc
      obtain ⟨p, hp, rfl⟩ := List.mem_map.1 hc
      have hs := UserWithdrawalService.status_of_mem_openProposals hp
      refine ⟨?_, by simp [UserWithdrawalService.cancelledProposal]⟩
      rintro he
      rw [show p.status = .reported from he] at hs
      exact absurd hs (by decide)

end Bodies

/-! ## Rows after a call -/

section Rows

variable {u : UnitOfWork} {db : Db} {t : DateTime}

/-- A proposal is `REPORTED` after one request if it was before, or if the call has taken
it down. -/
theorem reported_proposalRow (hu : u.Prepared db) (hr : u.Reviews db) {p : Proposal}
    (hp : p ∈ db.proposals) : (u.proposalRow t p).status = .reported ↔
      p.status = .reported ∨
        ∃ c ∈ u.proposals, c.loaded.id = p.id ∧ c.dirty.status = .reported := by
  rcases proposalRow_cases (t := t) hu hp with ⟨c, hc, rfl, he⟩ | ⟨hno, he⟩
  · rw [he, Proposal.flush_status, col_untouched]
    constructor
    · intro hs
      exact Or.inr ⟨c, hc, rfl, hs⟩
    · rintro (hs | ⟨c', hc', hid, hs⟩)
      · rw [(hr.frozen c hc hs).1, hs]
      · rwa [hu.proposalObjects c hc c' hc' hid.symm]
  · rw [he]
    refine (or_iff_left ?_).symm
    rintro ⟨c, hc, hid, -⟩
    exact hno c hc (AutoTable.eq_of_key_eq (hu.proposals c hc).1 hp hid)

/-- A proposal that has been taken down is not written again. -/
theorem proposalRow_of_reported (hu : u.Prepared db) (hr : u.Reviews db) {p : Proposal}
    (hp : p ∈ db.proposals) (hs : p.status = .reported) : u.proposalRow t p = p := by
  rcases proposalRow_cases (t := t) hu hp with ⟨c, hc, rfl, he⟩ | ⟨-, he⟩
  · obtain ⟨hdirty, hassigned⟩ := hr.frozen c hc hs
    rw [he, hdirty, hassigned, Proposal.flush_unchanged]
  · exact he

/-- The columns of a report that no commit writes. -/
theorem reportRow_fixed (u : UnitOfWork) (r : ProposalReport) :
    (u.reportRow r).proposalId = r.proposalId ∧ (u.reportRow r).reporterId = r.reporterId :=
  writeBack_induction (P := fun s : ProposalReport => s.proposalId = r.proposalId ∧
    s.reporterId = r.reporterId) ⟨rfl, rfl⟩ fun _ _ _ => ⟨rfl, rfl⟩

/-- A report after one request is the one before, or has been reviewed by the call. -/
theorem reportRow_cases (hr : u.Reviews db) {r : ProposalReport} (hmem : r ∈ db.reports) :
    (∃ c ∈ u.reports, c.loaded = r ∧ (u.reportRow r).status = c.dirty.status ∧
        (u.reportRow r).reviewedAt = c.dirty.reviewedAt) ∨
      (∀ c ∈ u.reports, c.loaded ≠ r) ∧ u.reportRow r = r := by
  rcases writeBack_cases ProposalReport.flush u.reports r with ⟨hno, he⟩ | ⟨c, hc, hid, he⟩
  · exact Or.inr ⟨fun c hc hl => hno c hc (by rw [hl]), he⟩
  · obtain rfl : c.loaded = r := AutoTable.eq_of_key_eq (hr.reports c hc).1 hmem hid
    refine Or.inl ⟨c, hc, rfl, ?_⟩
    rw [UnitOfWork.reportRow, he]
    exact ⟨col_untouched _ _, col_untouched _ _⟩

/-- A reviewed report is not written again. -/
theorem reportRow_of_reviewed (hr : u.Reviews db) {r : ProposalReport} (hmem : r ∈ db.reports)
    (hs : r.status ≠ .pending) : u.reportRow r = r := by
  rcases reportRow_cases hr hmem with ⟨c, hc, rfl, -⟩ | ⟨-, he⟩
  · exact absurd (hr.reports c hc).2.1 hs
  · exact he

/-- A report on the proposal has been accepted. -/
def Db.TakenDown (db : Db) (pid : ℕ) : Prop :=
  ∃ r ∈ db.reports, r.proposalId = pid ∧ r.status = .accepted

/-- A report on a proposal has been accepted if one was before, or if the call accepts
one. -/
theorem takenDown_write (hr : u.Reviews db) {pid : ℕ} : (u.write t db).TakenDown pid ↔
    db.TakenDown pid ∨
      ∃ c ∈ u.reports, c.loaded.proposalId = pid ∧ c.dirty.status = .accepted := by
  constructor
  · rintro ⟨r', hr', hpid, hs⟩
    rcases UnitOfWork.mem_reports_write.1 hr' with ⟨r, hmem, rfl⟩ | ⟨r, hnew, rfl⟩
    · rw [(reportRow_fixed u r).1] at hpid
      rcases reportRow_cases hr hmem with ⟨c, hc, rfl, hst, -⟩ | ⟨-, he⟩
      · exact Or.inr ⟨c, hc, hpid, hst ▸ hs⟩
      · exact Or.inl ⟨r, hmem, hpid, he ▸ hs⟩
    · have hpending := (hr.newReport r hnew).1
      rw [show r.status = .accepted from hs] at hpending
      exact absurd hpending (by decide)
  · rintro (⟨r, hmem, hpid, hs⟩ | ⟨c, hc, hpid, hs⟩)
    · refine ⟨r, UnitOfWork.mem_reports_write.2 (Or.inl ⟨r, hmem, ?_⟩), hpid, hs⟩
      exact reportRow_of_reviewed hr hmem (by rw [hs]; decide)
    · have hmem := (hr.reports c hc).1
      refine ⟨u.reportRow c.loaded, UnitOfWork.mem_reports_write.2 (Or.inl ⟨_, hmem, rfl⟩), ?_, ?_⟩
      · rw [(reportRow_fixed u c.loaded).1, hpid]
      · rcases reportRow_cases hr hmem with ⟨c', hc', hl, hst, -⟩ | ⟨hno, -⟩
        · rw [hst, hr.objects c' hc' c hc (by rw [hl]), hs]
        · exact absurd rfl (hno c hc)

end Rows

/-! ## Reports and proposals agree -/

/-- The reports agree with the proposals, and with each other. -/
structure Db.Moderated (db : Db) : Prop where
  reported : ∀ p ∈ db.proposals, p.status = .reported ↔ db.TakenDown p.id
  reviewed : ∀ r ∈ db.reports, r.reviewedAt ≠ none ↔ r.status ≠ .pending
  unique : ∀ r ∈ db.reports, ∀ r' ∈ db.reports, r.proposalId = r'.proposalId →
    r.reporterId = r'.reporterId → r = r'
  foreign : ∀ r ∈ db.reports, ∃ p ∈ db.proposals, p.id = r.proposalId ∧ p.ordererId ≠ r.reporterId

theorem moderated_initial (m : MasterData) : (World.initial m).db.Moderated where
  reported := fun _ hp => absurd hp List.not_mem_nil
  reviewed := fun _ hr => absurd hr List.not_mem_nil
  unique := fun _ hr => absurd hr List.not_mem_nil
  foreign := fun _ hr => absurd hr List.not_mem_nil

theorem SameDeals.moderated {db db' : Db} (hs : SameDeals db db') (h : db.Moderated) :
    db'.Moderated := by
  constructor
  · unfold Db.TakenDown
    rw [hs.proposals, hs.reports]
    exact h.reported
  · rw [hs.reports]
    exact h.reviewed
  · rw [hs.reports]
    exact h.unique
  · rw [hs.reports, hs.proposals]
    exact h.foreign

section Commit

variable {bus : EventBus} {w : World} {r : Request} {u : UnitOfWork} {db : Db}

/-- A proposal is `REPORTED` exactly if a report on it has been accepted. -/
theorem reported_write {t : DateTime} (h : w.db.Moderated) (hbody : r.call.body w.db r.now = .ok u)
    {p' : Proposal} (hp' : p' ∈ (u.write t w.db).proposals) :
    p'.status = .reported ↔ (u.write t w.db).TakenDown p'.id := by
  have hprep := body_prepared hbody
  have hrev := body_reviews hbody
  rw [takenDown_write hrev, hrev.accepts]
  rcases UnitOfWork.mem_proposals_write.1 hp' with ⟨p, hp, rfl⟩ | ⟨p, hnew, rfl⟩
  · rw [reported_proposalRow hprep hrev hp, UnitOfWork.proposalRow_id, h.reported p hp]
  · -- a new proposal has no reports
    refine iff_of_false ?_ ?_
    · rcases (body_inserts hbody).1 with hnone | ⟨-, -, q, -, hsome, hst, -⟩
      · rw [hnone] at hnew
        exact absurd hnew (by simp)
      · rw [hsome, Option.some.injEq] at hnew
        subst hnew
        show ¬ q.status = .reported
        rw [hst]
        decide
    · rintro (⟨x, hx, hpid, -⟩ | ⟨c, hc, hid, -⟩)
      · obtain ⟨p, hp, hid, -⟩ := h.foreign x hx
        exact (AutoTable.lt_next hp).ne (hid.trans hpid)
      · exact (AutoTable.lt_next (hprep.proposals c hc).1).ne hid

/-- A report has a time of review exactly if it is not pending any more. -/
theorem reviewed_write {t : DateTime} (h : w.db.Moderated) (hrev : u.Reviews w.db)
    {x' : ProposalReport} (hx' : x' ∈ (u.write t w.db).reports) :
    x'.reviewedAt ≠ none ↔ x'.status ≠ .pending := by
  rcases UnitOfWork.mem_reports_write.1 hx' with ⟨x, hx, rfl⟩ | ⟨x, hnew, rfl⟩
  · rcases reportRow_cases hrev hx with ⟨c, hc, rfl, hst, hat⟩ | ⟨-, he⟩
    · obtain ⟨-, -, hne, at', hsome⟩ := hrev.reports c hc
      rw [hst, hat, hsome]
      exact iff_of_true (by simp) hne
    · rw [he]
      exact h.reviewed x hx
  · obtain ⟨hst, hat, -⟩ := hrev.newReport x hnew
    exact iff_of_false (by simp [hat]) (by simp [hst])

/-- Nobody reports a proposal twice. -/
theorem unique_write {t : DateTime} (h : w.db.Moderated) (hfresh : ¬ u.ReportTaken w.db)
    {x' y' : ProposalReport} (hx' : x' ∈ (u.write t w.db).reports)
    (hy' : y' ∈ (u.write t w.db).reports) (hpid : x'.proposalId = y'.proposalId)
    (hrep : x'.reporterId = y'.reporterId) : x' = y' := by
  rcases UnitOfWork.mem_reports_write.1 hx' with ⟨x, hx, rfl⟩ | ⟨x, hnew, rfl⟩ <;>
    rcases UnitOfWork.mem_reports_write.1 hy' with ⟨y, hy, rfl⟩ | ⟨y, hnew', rfl⟩
  · rw [(reportRow_fixed u x).1, (reportRow_fixed u y).1] at hpid
    rw [(reportRow_fixed u x).2, (reportRow_fixed u y).2] at hrep
    rw [h.unique x hx y hy hpid hrep]
  · rw [(reportRow_fixed u x).1] at hpid
    rw [(reportRow_fixed u x).2] at hrep
    exact absurd ⟨y, hnew', x, hx, hpid, hrep⟩ hfresh
  · rw [(reportRow_fixed u y).1] at hpid
    rw [(reportRow_fixed u y).2] at hrep
    exact absurd ⟨x, hnew, y, hy, hpid.symm, hrep.symm⟩ hfresh
  · rw [hnew, Option.some.injEq] at hnew'
    rw [hnew']

/-- Nobody reports a proposal of her own. -/
theorem foreign_write {t : DateTime} (h : w.db.Moderated) (hrev : u.Reviews w.db)
    {x' : ProposalReport} (hx' : x' ∈ (u.write t w.db).reports) :
    ∃ p ∈ (u.write t w.db).proposals, p.id = x'.proposalId ∧ p.ordererId ≠ x'.reporterId := by
  have hstay : ∀ p ∈ w.db.proposals, ∀ uid, p.ordererId ≠ uid →
      ∃ p' ∈ (u.write t w.db).proposals, p'.id = p.id ∧ p'.ordererId ≠ uid := by
    intro p hp uid hne
    refine ⟨_, UnitOfWork.mem_proposals_write.2 (Or.inl ⟨p, hp, rfl⟩), u.proposalRow_id t p, ?_⟩
    rw [UnitOfWork.proposalRow_ordererId]
    exact hne
  rcases UnitOfWork.mem_reports_write.1 hx' with ⟨x, hx, rfl⟩ | ⟨x, hnew, rfl⟩
  · obtain ⟨p, hp, hid, hne⟩ := h.foreign x hx
    rw [(reportRow_fixed u x).1, (reportRow_fixed u x).2, ← hid]
    exact hstay p hp _ hne
  · obtain ⟨-, -, p, hp, hid, hne⟩ := hrev.newReport x hnew
    obtain ⟨p', hp', hid', hne'⟩ := hstay p hp _ hne
    exact ⟨p', hp', hid'.trans hid, hne'⟩

/-- **A call keeps reports and proposals in agreement.** -/
theorem moderated_commit (h : w.db.Moderated) (hbody : r.call.body w.db r.now = .ok u)
    (hcommit : u.commit r.now.flush w.db bus = .ok db) : db.Moderated := by
  have hrev := body_reviews hbody
  obtain ⟨-, hfresh, -⟩ := UnitOfWork.commit_eq_ok hcommit
  obtain ⟨notifications, rfl⟩ := UnitOfWork.commit_same hcommit
  exact {
    reported := fun _ hp => reported_write h hbody hp
    reviewed := fun _ hx => reviewed_write h hrev hx
    unique := fun _ hx _ hy hpid hrep => unique_write h hfresh hx hy hpid hrep
    foreign := fun _ hx => foreign_write h hrev hx }

/-- A call keeps a proposal that has been taken down, and the offers on it. -/
theorem takenDown_commit (ht : w.Traced) (hbody : r.call.body w.db r.now = .ok u)
    (hcommit : u.commit r.now.flush w.db bus = .ok db) {p : Proposal} (hp : p ∈ w.db.proposals)
    (hs : p.status = .reported) : p ∈ db.proposals ∧ db.deal p = w.db.deal p := by
  have hrow : u.proposalRow r.now.flush p = p :=
    proposalRow_of_reported (body_prepared hbody) (body_reviews hbody) hp hs
  have hdeal := deal_over_commit ht hbody hcommit hp (by simp [hs])
  obtain ⟨-, -, -, hprops, -⟩ := UnitOfWork.commit_eq_ok hcommit
  rw [hrow] at hdeal
  exact ⟨hprops ▸ UnitOfWork.mem_proposals_write.2 (Or.inl ⟨p, hp, hrow⟩), hdeal⟩

/-- A call keeps a reviewed report. -/
theorem reviewed_commit (hbody : r.call.body w.db r.now = .ok u)
    (hcommit : u.commit r.now.flush w.db bus = .ok db) {x : ProposalReport}
    (hx : x ∈ w.db.reports) (hs : x.status ≠ .pending) : x ∈ db.reports := by
  obtain ⟨notifications, rfl⟩ := UnitOfWork.commit_same hcommit
  exact UnitOfWork.mem_reports_write.2
    (Or.inl ⟨x, hx, reportRow_of_reviewed (body_reviews hbody) hx hs⟩)

end Commit

/-! ## What a proposal that has been taken down is spared -/

/-- The calls that apply for a proposal, edit it, cancel it or match it. -/
def Call.Alters (db : Db) (pid : ℕ) : Call → Prop
  | .offerCreate pid' _ | .proposalUpdate pid' _ _ | .proposalCancel pid' _ => pid' = pid
  | .offerAccept oid _ => ∃ o ∈ db.offers, o.id = oid ∧ o.proposalId = pid
  | _ => False

/-- Such a call only gets through while the proposal is open. -/
theorem open_of_alters {call : Call} {db : Db} {now : Readings} {u : UnitOfWork} {p : Proposal}
    (hp : p ∈ db.proposals) (halters : call.Alters db p.id) (h : call.body db now = .ok u) :
    p.status ∈ [.holding, .posted, .offered] := by
  have hsame : ∀ q ∈ db.proposals, q.id = p.id → q = p :=
    fun q hq hid => AutoTable.eq_of_key_eq hq hp hid
  cases call with
  | offerCreate pid uid =>
      obtain ⟨q, hq, hid, -, hs, -⟩ := OfferService.create_eq_ok h
      rw [← hsame q hq (hid.trans halters)]
      rcases hs with hs | hs <;> simp [hs]
  | proposalUpdate pid request uid =>
      obtain ⟨q, hq, hid, -, hs, -⟩ := ProposalService.update_eq_ok h
      rw [← hsame q hq (hid.trans halters)]
      rcases hs with hs | hs <;> simp [hs]
  | proposalCancel pid uid =>
      obtain ⟨q, hq, hid, -, hs, -⟩ := ProposalService.cancel_eq_ok h
      rw [← hsame q hq (hid.trans halters)]
      exact hs
  | offerAccept oid uid =>
      obtain ⟨q, o, hpair, hid, -, -, hs, -⟩ := OfferService.accept_eq_ok h
      obtain ⟨x, hx, hxid, hxp⟩ := halters
      obtain rfl : x = o := AutoTable.eq_of_key_eq hx hpair.offer (hxid.trans hid.symm)
      rw [← hsame q hpair.proposal (hpair.proposalId.symm.trans hxp), hs]
      decide
  | _ => exact absurd halters id

/-- Rejecting a report changes neither a proposal nor an offer. -/
theorem reject_keeps (bus : EventBus) (w : World) (reportId : ℕ) (now : Readings) :
    ((service bus).call w ⟨.reportReject reportId, now⟩).db.proposals = w.db.proposals ∧
      ((service bus).call w ⟨.reportReject reportId, now⟩).db.offers = w.db.offers := by
  rcases call_cases bus w ⟨.reportReject reportId, now⟩ with he | ⟨u, db, -, hbody, hcommit, he⟩
  · rw [he]
    exact ⟨rfl, rfl⟩
  · obtain ⟨report, -, -, -, rfl⟩ := ProposalReportService.reject_eq_ok hbody
    obtain ⟨-, -, -, hprops, hoffers⟩ := UnitOfWork.commit_eq_ok hcommit
    rw [he]
    exact ⟨hprops.trans (AutoTable.map_eq_self fun _ _ => rfl),
      hoffers.trans (AutoTable.map_eq_self fun o _ => offerRow_of_nil rfl rfl o)⟩

/-- Moderation, in one state. -/
structure World.Moderated (bus : EventBus) (w : World) : Prop where
  reports : w.db.Moderated
  /-- A proposal that has been taken down has no waiting offer, … -/
  waiting : ∀ p ∈ w.db.proposals, p.status = .reported →
    ∀ o ∈ w.db.offersOf p.id, o.status ≠ .waiting
  /-- … is not found by any search, … -/
  hidden : ∀ p ∈ w.db.proposals, p.status = .reported → ∀ proposalStatuses page size,
    ∀ q ∈ (ProposalService.searchProposals w.db proposalStatuses page size).content, q.id ≠ p.id
  /-- … and can be neither applied for nor edited, cancelled or matched. -/
  closed : ∀ p ∈ w.db.proposals, p.status = .reported → ∀ call now, call.Alters w.db p.id →
    ∃ failure, (service bus).read w ⟨call, now⟩ = .error failure
  reject : ∀ reportId now,
    ((service bus).call w ⟨.reportReject reportId, now⟩).db.proposals = w.db.proposals ∧
      ((service bus).call w ⟨.reportReject reportId, now⟩).db.offers = w.db.offers

theorem World.Traced.moderated {w : World} (ht : w.Traced) (h : w.db.Moderated) (bus : EventBus) :
    w.Moderated bus where
  reports := h
  waiting := by
    intro p hp hs o ho
    exact (ht.shape hp).not_waiting (ht.history p hp).distinct
      (show p.status ∈ _ by simp [hs]) (List.mem_map_of_mem ho)
  hidden := by
    intro p hp hs statuses page size q hq hid
    obtain ⟨hmem, hpublic⟩ := ProposalService.public_of_mem_search hq
    obtain rfl : q = p := AutoTable.eq_of_key_eq hmem hp hid
    rw [hs] at hpublic
    exact absurd hpublic (by simp)
  closed := by
    intro p hp hs call now halters
    cases hread : (service bus).read w ⟨call, now⟩ with
    | error failure => exact ⟨failure, rfl⟩
    | ok u =>
        have hopen := open_of_alters hp halters (service_read_eq_ok.1 hread).2
        rw [hs] at hopen
        exact absurd hopen (by decide)
  reject := reject_keeps bus w

/-! ## What is final -/

/-- Reviewed reports stay as they are, and so do proposals that have been taken down and
the offers on them. -/
structure World.Final (w w' : World) : Prop where
  reviewed : ∀ r ∈ w.db.reports, r.status ≠ .pending → r ∈ w'.db.reports
  takenDown : ∀ p ∈ w.db.proposals, p.status = .reported →
    p ∈ w'.db.proposals ∧ w'.db.deal p = w.db.deal p

/-- What has become final stays so while the application runs on. -/
theorem App.final {settings : Settings} {bus : EventBus} {w : World} (ht : w.Traced)
    (cs : List Command) : w.Final (Runs.run (App.step settings bus) w cs) := by
  have h : (Runs.run (App.step settings bus) w cs).Traced ∧
      w.Final (Runs.run (App.step settings bus) w cs) := by
    refine App.inv_run (I := fun w' => w'.Traced ∧ w.Final w') ?_ ?_ ?_ cs
    · exact ⟨ht, fun r hr _ => hr, fun p hp _ => ⟨hp, rfl⟩⟩
    · rintro w' r ⟨ht', hfinal⟩
      refine ⟨traced_call bus ht' r, ?_⟩
      rcases call_cases bus w' r with he | ⟨u, db, -, hbody, hcommit, he⟩
      · rw [he]; exact hfinal
      · rw [he]
        constructor
        · intro x hx hs
          exact reviewed_commit hbody hcommit (hfinal.reviewed x hx hs) hs
        · intro p hp hs
          obtain ⟨hp', hdeal⟩ := hfinal.takenDown p hp hs
          obtain ⟨hp'', hdeal'⟩ := takenDown_commit ht' hbody hcommit hp' hs
          exact ⟨hp'', hdeal'.trans hdeal⟩
    · rintro w' db ⟨ht', hfinal⟩ hstep
      have hsame := hstep.sameDeals
      refine ⟨ht'.command hsame, ?_, ?_⟩
      · intro x hx hs
        exact hsame.reports ▸ hfinal.reviewed x hx hs
      · intro p hp hs
        obtain ⟨hp', hdeal⟩ := hfinal.takenDown p hp hs
        exact ⟨hsame.proposals ▸ hp', (hsame.deal p).trans hdeal⟩
  exact h.2

/-- **Moderation.**  In every run of the application, in every state it passes through:
the reports agree with the proposals, a proposal that has been taken down is out of the
market, rejecting a report changes nothing else, and what has become final stays so. -/
theorem App.moderation (settings : Settings) (bus : EventBus) (m : MasterData)
    (cs : List Command) : (App.after settings bus m cs).Moderated bus ∧
      ∀ pre suf, cs = pre ++ suf →
        (App.after settings bus m pre).Final (App.after settings bus m cs) := by
  have h : (App.after settings bus m cs).Traced ∧ (App.after settings bus m cs).db.Moderated := by
    refine App.inv_after (I := fun w => w.Traced ∧ w.db.Moderated) ?_ ?_ ?_ cs
    · exact ⟨traced_initial m, moderated_initial m⟩
    · rintro w r ⟨ht, hmod⟩
      refine ⟨traced_call bus ht r, ?_⟩
      rcases call_cases bus w r with he | ⟨u, db, -, hbody, hcommit, he⟩
      · rw [he]; exact hmod
      · rw [he]; exact moderated_commit hmod hbody hcommit
    · rintro w db ⟨ht, hmod⟩ hstep
      exact ⟨ht.command hstep.sameDeals, hstep.sameDeals.moderated hmod⟩
  refine ⟨h.1.moderated h.2 bus, ?_⟩
  rintro pre suf rfl
  rw [App.after_append]
  exact App.final (App.traced_after m pre) suf

end OrderRun
