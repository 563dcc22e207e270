import OrderRun.Application.Moderation
import OrderRun.Application.Withdrawal

/-!
# Effects are had once

A client whose answer got lost sends its request again.  No call carries a key that would tell
a repetition from a new request, so what makes it safe to try again is the state the first
attempt has left behind: an errand that has been received cannot be received again, an offer
that has been taken back is not waiting any more.  This file proves that these marks are never
wiped out, by calls or by any other command, so a repetition is refused for ever after.

* `Effect`, `Call.effect` — what a call brings about, for the calls that only do so once; a
  new errand, an edit and a confirmed payment can be repeated.
* `Effect.Done` — its mark in the database.
* `not_done_of_commit`, `done_of_commit` — a call that goes through does not find the mark,
  and leaves it.
* `Effect.Done.commit`, `Effect.Done.command` — the mark stays.
* `App.effects_once` — no effect is had twice in a run of the application.
-/

namespace OrderRun

open Store Split

/-! ## Effects -/

/-- What can be brought about once. -/
inductive Effect where
  | cancelled (proposalId : ℕ)
  | received (proposalId : ℕ)
  | disputedByOrderer (proposalId : ℕ)
  | applied (proposalId : ℕ) (runnerId : UserId)
  | takenBack (offerId : ℕ)
  | accepted (offerId : ℕ)
  | delivered (offerId : ℕ)
  | disputedByRunner (offerId : ℕ)
  | resolved (offerId : ℕ)
  | reported (proposalId : ℕ) (reporterId : UserId)
  /-- A report is accepted or rejected. -/
  | reviewed (reportId : ℕ)
  | left (userId : UserId)
  deriving DecidableEq

/-- The effect of a call, whoever makes it and whatever reason she gives. -/
def Call.effect : Call → Option Effect
  | .proposalCreate _ _ | .proposalUpdate _ _ _ | .confirmPayment _ => none
  | .proposalCancel pid _ => some (.cancelled pid)
  | .confirmReceived pid _ => some (.received pid)
  | .proposalDispute pid _ _ _ => some (.disputedByOrderer pid)
  | .offerCreate pid uid => some (.applied pid uid)
  | .offerCancel oid _ => some (.takenBack oid)
  | .offerAccept oid _ => some (.accepted oid)
  | .completeDelivery oid _ => some (.delivered oid)
  | .offerDispute oid _ _ _ => some (.disputedByRunner oid)
  | .resolve oid => some (.resolved oid)
  | .reportCreate pid uid _ => some (.reported pid uid)
  | .reportAccept rid | .reportReject rid => some (.reviewed rid)
  | .withdrawUser uid => some (.left uid)

/-- The effects of committed calls. -/
def effects (log : List Entry) : List Effect := log.filterMap fun e => e.request.call.effect

/-! ## Marks -/

/-- The status of a proposal is one of these. -/
def Db.ProposalIn (db : Db) (pid : ℕ) (S : List ProposalStatus) : Prop :=
  ∃ p ∈ db.proposals, p.id = pid ∧ p.status ∈ S

/-- The status of an offer is one of these. -/
def Db.OfferIn (db : Db) (oid : ℕ) (S : List OfferStatus) : Prop :=
  ∃ o ∈ db.offers, o.id = oid ∧ o.status ∈ S

/-- The statuses of a proposal that mark an effect. -/
def Effect.proposalStatuses : Effect → List ProposalStatus
  | .cancelled _ => [.cancelled]
  | .received _ => [.orderCompleted, .allCompleted, .disputed, .resolved]
  | .disputedByOrderer _ => [.disputed, .resolved]
  | _ => []

/-- The statuses of an offer that mark an effect. -/
def Effect.offerStatuses : Effect → List OfferStatus
  | .takenBack _ => [.cancelled]
  | .accepted _ => [.accepted, .runnerCompleted, .allCompleted, .disputed, .resolved]
  | .delivered _ => [.runnerCompleted, .allCompleted, .disputed, .resolved]
  | .disputedByRunner _ => [.disputed, .resolved]
  | .resolved _ => [.resolved]
  | _ => []

/-- The mark of an effect. -/
def Effect.Done (db : Db) (effect : Effect) : Prop :=
  match effect with
  | .cancelled pid | .received pid | .disputedByOrderer pid =>
      db.ProposalIn pid effect.proposalStatuses
  | .applied pid uid => ∃ o ∈ db.offers, o.proposalId = pid ∧ o.runnerId = uid
  | .takenBack oid | .accepted oid | .delivered oid | .disputedByRunner oid | .resolved oid =>
      db.OfferIn oid effect.offerStatuses
  | .reported pid uid => ∃ r ∈ db.reports, r.proposalId = pid ∧ r.reporterId = uid
  | .reviewed rid => ∃ r ∈ db.reports, r.id = rid ∧ r.status ≠ .pending
  | .left uid => ∃ user ∈ db.users, user.id = uid ∧ user.deleted = true

/-- No call leaves the statuses that mark an effect. -/
theorem Effect.proposalStatuses_closed (effect : Effect) (s s' : ProposalStatus)
    (hs : s ∈ effect.proposalStatuses) (hstep : s.Step s') : s' ∈ effect.proposalStatuses := by
  cases effect with
  | cancelled pid =>
      obtain rfl := List.mem_singleton.1 hs
      rw [hstep.eq_of_terminal (by decide)]
      exact hs
  | received pid =>
      change s ∈ [.orderCompleted, .allCompleted, .disputed, .resolved] at hs
      change s' ∈ [.orderCompleted, .allCompleted, .disputed, .resolved]
      revert hs hstep
      cases s <;> cases s' <;> decide
  | disputedByOrderer pid =>
      change s ∈ [.disputed, .resolved] at hs
      change s' ∈ [.disputed, .resolved]
      revert hs hstep
      cases s <;> cases s' <;> decide
  | _ => exact absurd hs List.not_mem_nil

/-- The statuses of an offer whose runner has been chosen are left for later ones only. -/
theorem Effect.offerStatuses_closed (effect : Effect) (s s' : OfferStatus)
    (hs : s ∈ effect.offerStatuses) (hstep : s.Step s') : s' ∈ effect.offerStatuses := by
  cases effect with
  | takenBack oid =>
      obtain rfl := List.mem_singleton.1 hs
      exact absurd (by decide) hstep.not_terminal
  | accepted oid =>
      change s ∈ [.accepted, .runnerCompleted, .allCompleted, .disputed, .resolved] at hs
      change s' ∈ [.accepted, .runnerCompleted, .allCompleted, .disputed, .resolved]
      revert hs hstep
      cases s <;> cases s' <;> decide
  | delivered oid =>
      change s ∈ [.runnerCompleted, .allCompleted, .disputed, .resolved] at hs
      change s' ∈ [.runnerCompleted, .allCompleted, .disputed, .resolved]
      revert hs hstep
      cases s <;> cases s' <;> decide
  | disputedByRunner oid =>
      change s ∈ [.disputed, .resolved] at hs
      change s' ∈ [.disputed, .resolved]
      revert hs hstep
      cases s <;> cases s' <;> decide
  | resolved oid =>
      obtain rfl := List.mem_singleton.1 hs
      exact absurd (by decide) hstep.not_terminal
  | _ => exact absurd hs List.not_mem_nil

theorem Effect.waiting_notMem (effect : Effect) : .waiting ∉ effect.offerStatuses := by
  cases effect <;> simp [offerStatuses]

/-! ## A call that goes through -/

section Calls

variable {bus : EventBus} {w : World} {r : Request} {u : UnitOfWork} {db : Db} {effect : Effect}

theorem not_proposalIn {p : Proposal} {S : List ProposalStatus} (hp : p ∈ w.db.proposals)
    (hs : p.status ∉ S) : ¬ w.db.ProposalIn p.id S := by
  rintro ⟨q, hq, hid, hqs⟩
  obtain rfl : q = p := AutoTable.eq_of_key_eq hq hp hid
  exact hs hqs

theorem not_offerIn {o : Offer} {S : List OfferStatus} (ho : o ∈ w.db.offers)
    (hs : o.status ∉ S) : ¬ w.db.OfferIn o.id S := by
  rintro ⟨x, hx, hid, hxs⟩
  obtain rfl : x = o := AutoTable.eq_of_key_eq hx ho hid
  exact hs hxs

theorem not_reviewed {report : ProposalReport} (hr : report ∈ w.db.reports)
    (hs : report.status = .pending) : ¬ (Effect.reviewed report.id).Done w.db := by
  rintro ⟨x, hx, hid, hxs⟩
  obtain rfl : x = report := AutoTable.eq_of_key_eq hx hr hid
  exact hxs hs

/-- **A call that goes through has not been made before.** -/
theorem not_done_of_commit (hbody : r.call.body w.db r.now = .ok u)
    (hcommit : u.commit r.now.flush w.db bus = .ok db) (he : r.call.effect = some effect) :
    ¬ effect.Done w.db := by
  obtain ⟨-, htaken, -⟩ := UnitOfWork.commit_eq_ok hcommit
  generalize r.call = call at *
  cases call with
  | proposalCreate request uid => exact absurd he (by simp [Call.effect])
  | proposalUpdate pid request uid => exact absurd he (by simp [Call.effect])
  | confirmPayment pid => exact absurd he (by simp [Call.effect])
  | proposalCancel pid uid =>
      obtain rfl := Option.some.inj he
      obtain ⟨p, hp, rfl, -, hs, -⟩ := ProposalService.cancel_eq_ok hbody
      refine not_proposalIn hp fun hdone => ?_
      rw [List.mem_singleton.1 hdone] at hs
      exact absurd hs (by decide)
  | confirmReceived pid uid =>
      obtain rfl := Option.some.inj he
      obtain ⟨p, o, hpair, rfl, -, hs, -⟩ := ProposalService.confirmReceived_eq_ok hbody
      exact not_proposalIn hpair.proposal (by simp [hs, Effect.proposalStatuses])
  | proposalDispute pid uid qid reason =>
      obtain rfl := Option.some.inj he
      obtain ⟨p, o, hpair, rfl, -, hs, -⟩ := ProposalService.raiseDispute_eq_ok hbody
      refine not_proposalIn hpair.proposal ?_
      rcases List.mem_pair.1 hs with hs | hs <;> simp [hs, Effect.proposalStatuses]
  | offerCreate pid uid =>
      obtain rfl := Option.some.inj he
      obtain ⟨p, -, -, -, -, hnone, -⟩ := OfferService.create_eq_ok hbody
      rintro ⟨o, ho, hpid, hrunner⟩
      exact hnone o ho ⟨hpid, hrunner⟩
  | offerCancel oid uid =>
      obtain rfl := Option.some.inj he
      obtain ⟨o, ho, rfl, -, hs, -⟩ := OfferService.cancel_eq_ok hbody
      exact not_offerIn ho (by simp [hs, Effect.offerStatuses])
  | offerAccept oid uid =>
      obtain rfl := Option.some.inj he
      obtain ⟨p, o, hpair, rfl, -, hs, -⟩ := OfferService.accept_eq_ok hbody
      exact not_offerIn hpair.offer (by simp [hs, Effect.offerStatuses])
  | completeDelivery oid uid =>
      obtain rfl := Option.some.inj he
      obtain ⟨p, o, hpair, rfl, -, hs, -⟩ := OfferService.completeDelivery_eq_ok hbody
      exact not_offerIn hpair.offer (by simp [hs, Effect.offerStatuses])
  | offerDispute oid uid qid reason =>
      obtain rfl := Option.some.inj he
      obtain ⟨p, o, hpair, rfl, -, hs, -⟩ := OfferService.raiseDispute_eq_ok hbody
      refine not_offerIn hpair.offer ?_
      rcases List.mem_pair.1 hs with hs | hs <;> simp [hs, Effect.offerStatuses]
  | resolve oid =>
      obtain rfl := Option.some.inj he
      obtain ⟨p, o, hpair, rfl, hs, -⟩ := OfferService.resolve_eq_ok hbody
      exact not_offerIn hpair.offer (by simp [hs, Effect.offerStatuses])
  | reportCreate pid uid request =>
      obtain rfl := Option.some.inj he
      obtain ⟨p, -, -, -, -, report, hpid, hreporter, -, -, rfl⟩ :=
        ProposalReportService.create_eq_ok hbody
      -- the service leaves this to the constraint
      rintro ⟨x, hx, hxpid, hxreporter⟩
      exact htaken ⟨report, rfl, x, hx, hxpid.trans hpid.symm, hxreporter.trans hreporter.symm⟩
  | reportAccept rid =>
      obtain rfl := Option.some.inj he
      obtain ⟨p, -, report, hreport, rfl, -, hs, -⟩ := ProposalReportService.accept_eq_ok hbody
      exact not_reviewed hreport hs
  | reportReject rid =>
      obtain rfl := Option.some.inj he
      obtain ⟨report, hreport, rfl, hs, -⟩ := ProposalReportService.reject_eq_ok hbody
      exact not_reviewed hreport hs
  | withdrawUser uid =>
      obtain rfl := Option.some.inj he
      obtain ⟨user, huser, rfl, hactive, -⟩ := UserWithdrawalService.withdrawUser_eq_ok hbody
      rintro ⟨gone, hgone, hid, hdeleted⟩
      obtain rfl : gone = user := Table.eq_of_key_eq hgone huser hid
      rw [hactive] at hdeleted
      exact absurd hdeleted (by decide)

/-- What a call has made of a proposal. -/
theorem proposalIn_commit (hu : u.Prepared w.db)
    (hcommit : u.commit r.now.flush w.db bus = .ok db) {c : Change Proposal}
    (hc : c ∈ u.proposals) {S : List ProposalStatus} (hs : c.dirty.status ∈ S) :
    db.ProposalIn c.loaded.id S := by
  obtain ⟨-, -, -, hprops, -⟩ := UnitOfWork.commit_eq_ok hcommit
  have hp := (hu.proposals c hc).1
  refine ⟨u.proposalRow r.now.flush c.loaded, ?_, u.proposalRow_id _ _, ?_⟩
  · rw [hprops]
    exact UnitOfWork.mem_proposals_write.2 (Or.inl ⟨c.loaded, hp, rfl⟩)
  · rcases proposalRow_cases (t := r.now.flush) hu hp with ⟨c', hc', hl, he⟩ | ⟨hno, -⟩
    · rw [he, Proposal.flush_status, col_untouched,
        hu.proposalObjects c' hc' c hc (congrArg Proposal.id hl)]
      exact hs
    · exact absurd rfl (hno c hc)

/-- What a call has made of an offer. -/
theorem offerIn_commit (hu : u.Prepared w.db)
    (hcommit : u.commit r.now.flush w.db bus = .ok db) {c : Change Offer}
    (hc : c ∈ u.offers) {S : List OfferStatus} (hs : c.dirty.status ∈ S) :
    db.OfferIn c.loaded.id S := by
  obtain ⟨-, -, -, -, hoffers⟩ := UnitOfWork.commit_eq_ok hcommit
  have ho := (hu.offers c hc).1
  refine ⟨u.offerRow r.now.flush c.loaded, ?_, u.offerRow_id _ _, ?_⟩
  · rw [hoffers]
    exact UnitOfWork.mem_offers_write.2 (Or.inl ⟨c.loaded, ho, rfl⟩)
  · rcases status_offerRow (t := r.now.flush) hu ho with ⟨c', hc', hl, he⟩ | ⟨hno, -⟩
    · rw [he, hu.offerObjects c' hc' c hc (congrArg Offer.id hl)]
      exact hs
    · exact absurd rfl (hno c hc)

/-- What a call has made of a report. -/
theorem done_of_review (hcommit : u.commit r.now.flush w.db bus = .ok db)
    {report : ProposalReport} (hmem : report ∈ w.db.reports) {status : ProposalReportStatus}
    {t : Option DateTime} (hne : status ≠ .pending)
    (hu : u.reports = [⟨report, { report with status := status, reviewedAt := t }⟩]) :
    (Effect.reviewed report.id).Done db := by
  obtain ⟨notifications, rfl⟩ := UnitOfWork.commit_same hcommit
  refine ⟨u.reportRow report, UnitOfWork.mem_reports_write.2 (Or.inl ⟨report, hmem, rfl⟩),
    u.reportRow_id report, ?_⟩
  rw [UnitOfWork.reportRow, hu, writeBack_singleton, if_pos rfl, ProposalReport.flush,
    col_untouched]
  exact hne

/-- **A call that goes through leaves its mark.** -/
theorem done_of_commit (hbody : r.call.body w.db r.now = .ok u)
    (hcommit : u.commit r.now.flush w.db bus = .ok db) (he : r.call.effect = some effect) :
    effect.Done db := by
  have hu := body_prepared hbody
  obtain ⟨-, -, husers, -, hoffers⟩ := UnitOfWork.commit_eq_ok hcommit
  have hsame := UnitOfWork.commit_same hcommit
  generalize hcall : r.call = call at hbody he
  cases call with
  | proposalCreate request uid => exact absurd he (by simp [Call.effect])
  | proposalUpdate pid request uid => exact absurd he (by simp [Call.effect])
  | confirmPayment pid => exact absurd he (by simp [Call.effect])
  | proposalCancel pid uid =>
      obtain rfl := Option.some.inj he
      obtain ⟨p, hp, rfl, -, -, rfl⟩ := ProposalService.cancel_eq_ok hbody
      exact proposalIn_commit hu hcommit List.mem_cons_self List.mem_cons_self
  | confirmReceived pid uid =>
      obtain rfl := Option.some.inj he
      obtain ⟨p, o, hpair, rfl, -, -, ⟨-, _, rfl⟩ | ⟨-, _, rfl⟩⟩ :=
        ProposalService.confirmReceived_eq_ok hbody <;>
      exact proposalIn_commit hu hcommit List.mem_cons_self (by simp [Effect.proposalStatuses])
  | proposalDispute pid uid qid reason =>
      obtain rfl := Option.some.inj he
      obtain ⟨p, o, hpair, rfl, -, -, -, _, rfl⟩ := ProposalService.raiseDispute_eq_ok hbody
      exact proposalIn_commit hu hcommit List.mem_cons_self List.mem_cons_self
  | offerCreate pid uid =>
      obtain rfl := Option.some.inj he
      obtain ⟨p, -, -, -, -, -, _, rfl⟩ := OfferService.create_eq_ok hbody
      refine ⟨{ Offer.create pid uid with
        id := w.db.offers.next, createdAt := r.now.flush, updatedAt := r.now.flush }, ?_, rfl, rfl⟩
      rw [hoffers]
      exact UnitOfWork.mem_offers_write.2 (Or.inr ⟨_, rfl, rfl⟩)
  | offerCancel oid uid =>
      obtain rfl := Option.some.inj he
      obtain ⟨o, ho, rfl, -, -, rfl⟩ := OfferService.cancel_eq_ok hbody
      exact offerIn_commit hu hcommit List.mem_cons_self List.mem_cons_self
  | offerAccept oid uid =>
      obtain rfl := Option.some.inj he
      obtain ⟨p, o, hpair, rfl, -, -, -, -, _, rfl⟩ := OfferService.accept_eq_ok hbody
      exact offerIn_commit hu hcommit List.mem_cons_self List.mem_cons_self
  | completeDelivery oid uid =>
      obtain rfl := Option.some.inj he
      obtain ⟨p, o, hpair, rfl, -, -, ⟨-, _, rfl⟩ | ⟨-, _, rfl⟩⟩ :=
        OfferService.completeDelivery_eq_ok hbody <;>
      exact offerIn_commit hu hcommit List.mem_cons_self (by simp [Effect.offerStatuses])
  | offerDispute oid uid qid reason =>
      obtain rfl := Option.some.inj he
      obtain ⟨p, o, hpair, rfl, -, -, -, _, rfl⟩ := OfferService.raiseDispute_eq_ok hbody
      exact offerIn_commit hu hcommit List.mem_cons_self List.mem_cons_self
  | resolve oid =>
      obtain rfl := Option.some.inj he
      obtain ⟨p, o, hpair, rfl, -, -, rfl⟩ := OfferService.resolve_eq_ok hbody
      exact offerIn_commit hu hcommit List.mem_cons_self List.mem_cons_self
  | reportCreate pid uid request =>
      obtain rfl := Option.some.inj he
      obtain ⟨p, -, -, -, -, report, rfl, rfl, -, -, rfl⟩ :=
        ProposalReportService.create_eq_ok hbody
      obtain ⟨notifications, rfl⟩ := hsame
      exact ⟨_, UnitOfWork.mem_reports_write.2 (Or.inr ⟨report, rfl, rfl⟩), rfl, rfl⟩
  | reportAccept rid =>
      obtain rfl := Option.some.inj he
      obtain ⟨p, -, report, hreport, rfl, -, -, ⟨-, rfl⟩ | ⟨-, rfl⟩⟩ :=
        ProposalReportService.accept_eq_ok hbody <;>
      exact done_of_review hcommit hreport (by simp) rfl
  | reportReject rid =>
      obtain rfl := Option.some.inj he
      obtain ⟨report, hreport, rfl, -, rfl⟩ := ProposalReportService.reject_eq_ok hbody
      exact done_of_review hcommit hreport (by simp) rfl
  | withdrawUser uid =>
      obtain rfl := Option.some.inj he
      obtain ⟨user, -, rfl, -⟩ := UserWithdrawalService.withdrawUser_eq_ok hbody
      obtain ⟨v, hv, hid, hblank⟩ := blank_withdraw hbody hcommit
      exact ⟨v, hv, hid, hblank.deleted⟩

/-! ## The marks stay -/

/-- The status of a proposal only moves on. -/
theorem Db.ProposalIn.commit {S : List ProposalStatus} {pid : ℕ} (h : w.db.ProposalIn pid S)
    (hS : ∀ s s', s ∈ S → s.Step s' → s' ∈ S) (hu : u.Prepared w.db)
    (hcommit : u.commit r.now.flush w.db bus = .ok db) : db.ProposalIn pid S := by
  obtain ⟨-, -, -, hprops, -⟩ := UnitOfWork.commit_eq_ok hcommit
  obtain ⟨p, hp, rfl, hs⟩ := h
  refine ⟨u.proposalRow r.now.flush p, ?_, u.proposalRow_id _ _, ?_⟩
  · rw [hprops]
    exact UnitOfWork.mem_proposals_write.2 (Or.inl ⟨p, hp, rfl⟩)
  · rcases proposalRow_cases (t := r.now.flush) hu hp with ⟨c, hc, rfl, he⟩ | ⟨-, he⟩
    · rw [he, Proposal.flush_status, col_untouched]
      exact hS _ _ hs (hu.proposals c hc).2
    · rw [he]
      exact hs

theorem Db.OfferIn.commit {S : List OfferStatus} {oid : ℕ} (h : w.db.OfferIn oid S)
    (hS : ∀ s s', s ∈ S → s.Step s' → s' ∈ S) (hwaiting : .waiting ∉ S) (hu : u.Prepared w.db)
    (hcommit : u.commit r.now.flush w.db bus = .ok db) : db.OfferIn oid S := by
  obtain ⟨-, -, -, -, hoffers⟩ := UnitOfWork.commit_eq_ok hcommit
  obtain ⟨o, ho, rfl, hs⟩ := h
  refine ⟨u.offerRow r.now.flush o, ?_, u.offerRow_id _ _, ?_⟩
  · rw [hoffers]
    exact UnitOfWork.mem_offers_write.2 (Or.inl ⟨o, ho, rfl⟩)
  · rcases status_offerRow (t := r.now.flush) hu ho with ⟨c, hc, rfl, he⟩ | ⟨-, he | ⟨hw, -⟩⟩
    · rw [he]
      exact hS _ _ hs (hu.offers c hc).2
    · rw [he]
      exact hs
    · rw [hw] at hs
      exact absurd hs hwaiting

/-- A user who has left stays away: only active users are written through their objects. -/
theorem deleted_commit (hbody : r.call.body w.db r.now = .ok u)
    (hcommit : u.commit r.now.flush w.db bus = .ok db) {user : User} (huser : user ∈ w.db.users)
    (hdeleted : user.deleted = true) : (Effect.left user.id).Done db := by
  obtain ⟨-, -, husers, -⟩ := UnitOfWork.commit_eq_ok hcommit
  have hrow : u.userRow user = u.levelRow user := by
    refine UnitOfWork.userRow_of_ne fun c hc hid => ?_
    obtain ⟨hmem, hactive⟩ := body_users hbody c hc
    obtain rfl : c.loaded = user := Table.eq_of_key_eq hmem huser hid
    rw [hactive] at hdeleted
    exact absurd hdeleted (by decide)
  refine ⟨u.userRow user, ?_, u.userRow_id user, ?_⟩
  · rw [husers]
    exact UnitOfWork.mem_users_write.2 ⟨user, huser, rfl⟩
  · rw [hrow]
    unfold UnitOfWork.levelRow
    split <;> exact hdeleted

/-- **No call wipes out a mark.** -/
theorem Effect.Done.commit (h : effect.Done w.db) (hbody : r.call.body w.db r.now = .ok u)
    (hcommit : u.commit r.now.flush w.db bus = .ok db) : effect.Done db := by
  have hu := body_prepared hbody
  have hextends := UnitOfWork.extends_commit hcommit
  obtain ⟨notifications, hsame⟩ := UnitOfWork.commit_same hcommit
  have hproposals := effect.proposalStatuses_closed
  have hoffers := effect.offerStatuses_closed
  have hwaiting := effect.waiting_notMem
  cases effect with
  | cancelled pid => exact Db.ProposalIn.commit h hproposals hu hcommit
  | received pid => exact Db.ProposalIn.commit h hproposals hu hcommit
  | disputedByOrderer pid => exact Db.ProposalIn.commit h hproposals hu hcommit
  | applied pid uid =>
      obtain ⟨o, ho, hpid, hrunner⟩ := h
      obtain ⟨o', ho', -, hpid', hrunner'⟩ := hextends.offers o ho
      exact ⟨o', ho', hpid'.trans hpid, hrunner'.trans hrunner⟩
  | takenBack oid => exact Db.OfferIn.commit h hoffers hwaiting hu hcommit
  | accepted oid => exact Db.OfferIn.commit h hoffers hwaiting hu hcommit
  | delivered oid => exact Db.OfferIn.commit h hoffers hwaiting hu hcommit
  | disputedByRunner oid => exact Db.OfferIn.commit h hoffers hwaiting hu hcommit
  | resolved oid => exact Db.OfferIn.commit h hoffers hwaiting hu hcommit
  | reported pid uid =>
      obtain ⟨x, hx, hpid, hreporter⟩ := h
      obtain ⟨hpid', hreporter'⟩ := reportRow_fixed u x
      refine ⟨u.reportRow x, ?_, hpid'.trans hpid, hreporter'.trans hreporter⟩
      rw [hsame]
      exact UnitOfWork.mem_reports_write.2 (Or.inl ⟨x, hx, rfl⟩)
  | reviewed rid =>
      obtain ⟨x, hx, hid, hs⟩ := h
      refine ⟨x, ?_, hid, hs⟩
      rw [hsame]
      exact UnitOfWork.mem_reports_write.2
        (Or.inl ⟨x, hx, reportRow_of_reviewed (body_reviews hbody) hx hs⟩)
  | left uid =>
      obtain ⟨user, huser, rfl, hdeleted⟩ := h
      exact deleted_commit hbody hcommit huser hdeleted

/-- Nor does any other command. -/
theorem Effect.Done.command {db db' : Db} (h : effect.Done db) (hstep : AccountStep db db') :
    effect.Done db' := by
  have hsame := hstep.sameDeals
  have hofferIn : ∀ {oid S}, db.OfferIn oid S → db'.OfferIn oid S := by
    rintro oid S ⟨o, ho, hid, hs⟩
    obtain ⟨url, ho'⟩ := hsame.offer_of ho
    exact ⟨_, ho', hid, hs⟩
  have hproposalIn : ∀ {pid S}, db.ProposalIn pid S → db'.ProposalIn pid S := by
    rintro pid S ⟨p, hp, hid, hs⟩
    exact ⟨p, hsame.proposals ▸ hp, hid, hs⟩
  cases effect with
  | cancelled pid => exact hproposalIn h
  | received pid => exact hproposalIn h
  | disputedByOrderer pid => exact hproposalIn h
  | applied pid uid =>
      obtain ⟨o, ho, hpid, hrunner⟩ := h
      obtain ⟨url, ho'⟩ := hsame.offer_of ho
      exact ⟨_, ho', hpid, hrunner⟩
  | takenBack oid => exact hofferIn h
  | accepted oid => exact hofferIn h
  | delivered oid => exact hofferIn h
  | disputedByRunner oid => exact hofferIn h
  | resolved oid => exact hofferIn h
  | reported pid uid =>
      obtain ⟨x, hx, hx'⟩ := h
      exact ⟨x, hsame.reports ▸ hx, hx'⟩
  | reviewed rid =>
      obtain ⟨x, hx, hx'⟩ := h
      exact ⟨x, hsame.reports ▸ hx, hx'⟩
  | left uid =>
      obtain ⟨user, huser, hid, hdeleted⟩ := h
      cases hstep with
      | profile v hv hactive f hf verifications fcmTokens htokens =>
          have hrow : (if user.id = v.id then f user else user) ∈
              (db.updateUser v.id f fun u => (hf u).id).users :=
            Db.mem_updateUser.2 ⟨user, huser, rfl⟩
          refine ⟨_, hrow, ?_⟩
          split
          · exact ⟨(hf user).id.trans hid, (hf user).deleted.trans hdeleted⟩
          · exact ⟨hid, hdeleted⟩
      | signup v hactive hnew users husers verifications =>
          refine ⟨user, ?_, hid, hdeleted⟩
          rw [Table.mem_iff, husers]
          exact List.mem_append_left _ huser
      | _ => exact ⟨user, huser, hid, hdeleted⟩

/-- A repetition is refused. -/
theorem call_of_done (bus : EventBus) (h : effect.Done w.db) (he : r.call.effect = some effect) :
    (service bus).call w r = w := by
  rcases call_cases bus w r with hsame | ⟨u, db, -, hbody, hcommit, -⟩
  · exact hsame
  · exact absurd h (not_done_of_commit hbody hcommit he)

end Calls

/-! ## Runs -/

/-- No effect has been had twice, and all have left their marks. -/
def World.Marked (w : World) : Prop :=
  (effects w.log).Nodup ∧ ∀ effect ∈ effects w.log, effect.Done w.db

theorem marked_call (bus : EventBus) {w : World} (h : w.Marked) (r : Request) :
    ((service bus).call w r).Marked := by
  rcases call_cases bus w r with he | ⟨u, db, -, hbody, hcommit, he⟩
  · rw [he]
    exact h
  · rw [he]
    obtain ⟨hnodup, hdone⟩ := h
    have hkept : ∀ effect ∈ effects w.log, effect.Done db :=
      fun effect hmem => (hdone effect hmem).commit hbody hcommit
    cases heffect : r.call.effect with
    | none =>
        have hsame : effects (⟨r, u, db⟩ :: w.log) = effects w.log :=
          List.filterMap_cons_none heffect
        exact ⟨hsame ▸ hnodup, hsame ▸ hkept⟩
    | some effect =>
        have hcons : effects (⟨r, u, db⟩ :: w.log) = effect :: effects w.log :=
          List.filterMap_cons_some heffect
        unfold World.Marked
        rw [hcons]
        refine ⟨List.nodup_cons.2 ⟨fun hmem => ?_, hnodup⟩, List.forall_mem_cons.2 ⟨?_, hkept⟩⟩
        · exact not_done_of_commit hbody hcommit heffect (hdone effect hmem)
        · exact done_of_commit hbody hcommit heffect

/-- **Effects are had once.**  In every run of the application no effect is had twice, and
whoever repeats a call that has gone through, at whatever time, changes nothing. -/
theorem App.effects_once (settings : Settings) (bus : EventBus) (m : MasterData)
    (cs : List Command) :
    (effects (App.after settings bus m cs).log).Nodup ∧
      ∀ r effect, r.call.effect = some effect →
        effect ∈ effects (App.after settings bus m cs).log →
          (service bus).call (App.after settings bus m cs) r = App.after settings bus m cs := by
  obtain ⟨hnodup, hdone⟩ : (App.after settings bus m cs).Marked := by
    refine App.inv_after (I := World.Marked)
      ⟨List.nodup_nil, fun _ hmem => absurd hmem List.not_mem_nil⟩
      (fun _ r h => marked_call bus h r) ?_ cs
    rintro w db ⟨hnodup, hdone⟩ hstep
    exact ⟨hnodup, fun effect hmem => (hdone effect hmem).command hstep⟩
  exact ⟨hnodup, fun r effect he hmem => call_of_done bus (hdone effect hmem) he⟩

end OrderRun
