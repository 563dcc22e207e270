import OrderRun.Transactions.Methods

/-!
# The methods of the services are atomic

An exception before the `COMMIT` leaves nothing behind.  It remains to show that none comes
after it: whatever a method reads back then is in the database, and its response can be put
together.

* `returns_detail`, `returns_response`, `returns_reviewed` — the responses of the methods.
* `Db.Questioned` — what the response about a report relies on.
* `withdrawUser_atomic` — the method that cancels inside its `try`.
* `call_atomic` — every method of the four services is `Tx.Atomic`.
-/

namespace OrderRun

open Store Session Script Tx

/-! ## Reading back -/

section Reading

variable {α : Type} {x : Db} {a : α}

theorem returns_refresh {find : Db → Option α} (h : find x = some a) :
    Returns x (refresh find) a :=
  .ask (by rw [h])

theorem returns_one {find : Db → Option α} (h : find x = some a) : Returns x (one find) a :=
  .ask (by rw [h])

theorem returns_answer {g : Db → Except Failure α} (h : g x = .ok a) : Returns x (answer g) a :=
  .ask (by rw [h]; rfl)

end Reading

namespace UnitOfWork

variable {u : UnitOfWork} {utcnow : DateTime} {d : Db} {notifications : AutoTable Notification}

theorem reportRow_reasonQuestionId (u : UnitOfWork) (r : ProposalReport) :
    (u.reportRow r).reasonQuestionId = r.reasonQuestionId :=
  writeBack_induction (P := fun s : ProposalReport => s.reasonQuestionId = r.reasonQuestionId) rfl
    fun _ _ _ => rfl

theorem mem_proposals_written {p : Proposal} (h : p ∈ d.proposals) :
    u.proposalRow utcnow p ∈ (u.written utcnow d notifications).proposals :=
  mem_proposals_write.2 (Or.inl ⟨p, h, rfl⟩)

theorem find_proposal {p : Proposal} (h : p ∈ d.proposals) :
    (u.written utcnow d notifications).proposals.find? p.id = some (u.proposalRow utcnow p) :=
  Db.proposals_find?.2 ⟨mem_proposals_written h, u.proposalRow_id utcnow p⟩

theorem find_offer {o : Offer} (h : o ∈ d.offers) :
    (u.written utcnow d notifications).offers.find? o.id = some (u.offerRow utcnow o) :=
  Db.offers_find?.2 ⟨mem_offers_write.2 (Or.inl ⟨o, h, rfl⟩), u.offerRow_id utcnow o⟩

theorem find_report {r : ProposalReport} (h : r ∈ d.reports) :
    (u.written utcnow d notifications).reports.find? r.id = some (u.reportRow r) :=
  AutoTable.find?_eq_some_iff.2 ⟨mem_reports_write.2 (Or.inl ⟨r, h, rfl⟩), u.reportRow_id r⟩

theorem find_newProposal {p : Proposal} (h : u.newProposal = some p) :
    ∃ p', (u.written utcnow d notifications).proposals.find? d.proposals.next = some p' :=
  ⟨_, Db.proposals_find?.2 ⟨mem_proposals_write.2 (Or.inr ⟨p, h, rfl⟩), rfl⟩⟩

theorem find_newOffer {o : Offer} (h : u.newOffer = some o) :
    ∃ o', (u.written utcnow d notifications).offers.find? d.offers.next = some o' ∧
      o'.proposalId = o.proposalId :=
  ⟨_, Db.offers_find?.2 ⟨mem_offers_write.2 (Or.inr ⟨o, h, rfl⟩), rfl⟩, rfl⟩

theorem find_newReport {r : ProposalReport} (h : u.newReport = some r) :
    ∃ r', (u.written utcnow d notifications).reports.find? d.reports.next = some r' :=
  ⟨_, AutoTable.find?_eq_some_iff.2 ⟨mem_reports_write.2 (Or.inr ⟨r, h, rfl⟩), rfl⟩⟩

end UnitOfWork

/-! ## Responses -/

section Responses

variable {u : UnitOfWork} {utcnow : DateTime} {d : Db} {notifications : AutoTable Notification}
  {p : Proposal} {o : Offer}

theorem returns_detail (h : p ∈ d.proposals) (viewerId : UserId) : ∃ response,
    Returns (u.written utcnow d notifications) (ProposalService.detailTx p.id viewerId)
      response := by
  have hmem : u.proposalRow utcnow p ∈ (u.written utcnow d notifications).proposals :=
    UnitOfWork.mem_proposals_written h
  exact ⟨_, .bind (returns_refresh (UnitOfWork.find_proposal h))
    (returns_answer (getProposalDetail_eq hmem viewerId))⟩

/-- An offer whose proposal is in the database can be shown. -/
theorem responseFields_ok {x : Db} (h : x.proposals.find? o.proposalId = some p) :
    ∃ response, OfferService.responseFields x o = .ok response := by
  have hproposal : OfferService.getProposal x o.proposalId = .ok p := orRaise_eq_ok.2 h
  unfold OfferService.responseFields
  rw [hproposal]
  exact ⟨_, rfl⟩

theorem returns_response (h : d.Pair p o) : ∃ response,
    Returns (u.written utcnow d notifications) (OfferService.responseTx o.id) response := by
  have hproposal : (u.written utcnow d notifications).proposals.find?
      (u.offerRow utcnow o).proposalId = some (u.proposalRow utcnow p) := by
    rw [u.offerRow_proposalId, h.proposalId]
    exact UnitOfWork.find_proposal h.proposal
  obtain ⟨response, hresponse⟩ := responseFields_ok hproposal
  exact ⟨response, .bind (returns_refresh (UnitOfWork.find_offer h.offer))
    (returns_answer hresponse)⟩

/-- Every report names one of the questions. -/
def Db.Questioned (d : Db) : Prop :=
  ∀ r ∈ d.reports, ∃ q ∈ d.reasonQuestions, q.id = r.reasonQuestionId

theorem returns_reviewed (hd : d.Questioned) {r : ProposalReport} (h : r ∈ d.reports) :
    ∃ response, Returns (u.written utcnow d notifications)
      (ProposalReportService.reviewedTx r.id) response := by
  obtain ⟨q, hq, hid⟩ := hd r h
  have hquestion : (u.written utcnow d notifications).reasonQuestions.find?
      (u.reportRow r).reasonQuestionId = some q :=
    AutoTable.find?_eq_some_iff.2 ⟨hq, hid.trans (u.reportRow_reasonQuestionId r).symm⟩
  exact ⟨_, .bind (returns_refresh (UnitOfWork.find_report h))
    (.bind (returns_one hquestion) (.ret _))⟩

end Responses

/-! ## The methods -/

section Methods

variable {bus : EventBus} {now : Readings} {d : Db}

/-! ### Proposals -/

theorem proposalCreate_atomic (request : ProposalRequest) (uid : UserId) :
    Atomic bus now.flush (fun db => ProposalService.create db request uid now) d
      (ProposalService.createTx bus request uid now) := by
  refine transaction_atomic fun n u notifications hu => ?_
  obtain ⟨p, -, -, -, -, -, -, -, rfl⟩ := ProposalService.create_eq_ok hu
  obtain ⟨p', hp'⟩ := UnitOfWork.find_newProposal (d := d) (u := { newProposal := some p }) rfl
  exact ⟨p', returns_refresh hp'⟩

theorem proposalUpdate_atomic (pid : ℕ) (request : ProposalRequest) (uid : UserId) :
    Atomic bus now.flush (fun db => ProposalService.update db pid request uid now) d
      (ProposalService.updateTx bus pid request uid now) := by
  refine transaction_atomic fun n u notifications hu => ?_
  obtain ⟨p, hp, rfl, -⟩ := ProposalService.update_eq_ok hu
  exact ⟨_, returns_refresh (UnitOfWork.find_proposal hp)⟩

theorem proposalCancel_atomic (pid : ℕ) (uid : UserId) :
    Atomic bus now.flush (fun db => ProposalService.cancel db pid uid) d
      (ProposalService.cancelTx bus pid uid now) := by
  refine transaction_atomic fun n u notifications hu => ?_
  obtain ⟨p, hp, rfl, -⟩ := ProposalService.cancel_eq_ok hu
  exact ⟨_, returns_refresh (UnitOfWork.find_proposal hp)⟩

theorem confirmPayment_atomic (pid : ℕ) :
    Atomic bus now.flush (fun db => ProposalService.confirmPayment db pid) d
      (ProposalService.confirmPaymentTx bus pid now) := by
  refine transaction_atomic fun n u notifications hu => ?_
  obtain ⟨p, hp, rfl, -⟩ := ProposalService.confirmPayment_eq_ok hu
  exact ⟨_, returns_refresh (UnitOfWork.find_proposal hp)⟩

theorem confirmReceived_atomic (pid : ℕ) (uid : UserId) :
    Atomic bus now.flush (fun db => ProposalService.confirmReceived db pid uid now) d
      (ProposalService.confirmReceivedTx bus pid uid now) := by
  refine transaction_atomic fun n u notifications hu => ?_
  obtain ⟨p, o, hpair, rfl, -⟩ := ProposalService.confirmReceived_eq_ok hu
  exact returns_detail hpair.proposal uid

theorem proposalDispute_atomic (pid : ℕ) (uid : UserId) (qid : ℕ) (reason : String) :
    Atomic bus now.flush (fun db => ProposalService.raiseDispute db pid uid qid reason now) d
      (ProposalService.raiseDisputeTx bus pid uid qid reason now) := by
  refine transaction_atomic fun n u notifications hu => ?_
  obtain ⟨p, o, hpair, rfl, -⟩ := ProposalService.raiseDispute_eq_ok hu
  exact returns_detail hpair.proposal uid

/-! ### Offers -/

theorem offerCreate_atomic (pid : ℕ) (uid : UserId) :
    Atomic bus now.flush (fun db => OfferService.create db pid uid) d
      (OfferService.createTx bus pid uid now) := by
  refine guarded_atomic (reraises_exceptIntegrityError _) fun n u notifications hu => ?_
  obtain ⟨p, hp, rfl, -, -, -, event, hwork⟩ := OfferService.create_eq_ok hu
  have hnew : u.newOffer = some (Offer.create p.id uid) := by rw [hwork]
  obtain ⟨o', ho', hpid⟩ := UnitOfWork.find_newOffer (d := d) hnew
  have hproposal : (u.written now.flush d notifications).proposals.find? o'.proposalId =
      some (u.proposalRow now.flush p) := by
    rw [hpid]
    exact UnitOfWork.find_proposal hp
  obtain ⟨response, hresponse⟩ := responseFields_ok hproposal
  exact ⟨o', response, returns_refresh ho', returns_answer hresponse⟩

theorem offerCancel_atomic (oid : ℕ) (uid : UserId) :
    Atomic bus now.flush (fun db => OfferService.cancel db oid uid) d
      (OfferService.cancelTx bus oid uid now) :=
  transaction_atomic fun _ _ _ _ => ⟨(), .ret ()⟩

theorem offerAccept_atomic (oid : ℕ) (uid : UserId) :
    Atomic bus now.flush (fun db => OfferService.accept db oid uid now) d
      (OfferService.acceptTx bus oid uid now) := by
  refine transaction_atomic fun n u notifications hu => ?_
  obtain ⟨p, o, hpair, rfl, -, -, -, -, event, hwork⟩ := OfferService.accept_eq_ok hu
  have haccepted : (u.offerRow now.flush o).acceptedAt = some now.first := by
    have hsame : (u.rejectRow now.flush o).acceptedAt = o.acceptedAt := by
      rcases u.rejectRow_cases now.flush o with h | ⟨-, h⟩ <;> rw [h]
    rw [offerRow_of_single (by rw [hwork]), if_pos rfl, Offer.flush_acceptedAt, hsame]
    exact col_untouched _ _
  have hproposal : (u.written now.flush d notifications).proposals.find?
      (u.offerRow now.flush o).proposalId = some (u.proposalRow now.flush p) := by
    rw [u.offerRow_proposalId, hpair.proposalId]
    exact UnitOfWork.find_proposal hpair.proposal
  have hresponse : ∃ response, OfferService.acceptResponse (u.written now.flush d notifications)
      (u.offerRow now.flush o) (u.proposalRow now.flush p) n = .ok response := by
    unfold OfferService.acceptResponse
    rw [haccepted]
    exact ⟨_, rfl⟩
  obtain ⟨response, hresponse⟩ := hresponse
  exact ⟨response, .bind (returns_refresh (UnitOfWork.find_offer hpair.offer))
    (.bind (returns_refresh hproposal) (returns_answer hresponse))⟩

theorem completeDelivery_atomic (oid : ℕ) (uid : UserId) :
    Atomic bus now.flush (fun db => OfferService.completeDelivery db oid uid now) d
      (OfferService.completeDeliveryTx bus oid uid now) := by
  refine transaction_atomic fun n u notifications hu => ?_
  obtain ⟨p, o, hpair, rfl, -⟩ := OfferService.completeDelivery_eq_ok hu
  exact returns_response hpair

theorem offerDispute_atomic (oid : ℕ) (uid : UserId) (qid : ℕ) (reason : String) :
    Atomic bus now.flush (fun db => OfferService.raiseDispute db oid uid qid reason now) d
      (OfferService.raiseDisputeTx bus oid uid qid reason now) := by
  refine transaction_atomic fun n u notifications hu => ?_
  obtain ⟨p, o, hpair, rfl, -⟩ := OfferService.raiseDispute_eq_ok hu
  exact returns_response hpair

theorem resolve_atomic (oid : ℕ) :
    Atomic bus now.flush (fun db => OfferService.resolve db oid now) d
      (OfferService.resolveTx bus oid now) := by
  refine transaction_atomic fun n u notifications hu => ?_
  obtain ⟨p, o, hpair, rfl, -⟩ := OfferService.resolve_eq_ok hu
  exact returns_response hpair

/-! ### Reports -/

theorem reportCreate_atomic (pid : ℕ) (uid : UserId) (request : ProposalReportCreateRequest) :
    Atomic bus now.flush (fun db => ProposalReportService.create db pid uid request) d
      (ProposalReportService.createTx bus pid uid request now) := by
  refine guarded_atomic (reraises_exceptIntegrityError _) fun n u notifications hu => ?_
  obtain ⟨q, hq, hid, report, -, hwork⟩ := ProposalReportService.question_of_create hu
  have hnew : u.newReport = some report := by rw [hwork]
  obtain ⟨report', hreport'⟩ := UnitOfWork.find_newReport (d := d) hnew
  have hquestion : (u.written now.flush d notifications).reasonQuestions.find?
      request.reasonQuestionId = some q :=
    AutoTable.find?_eq_some_iff.2 ⟨hq, hid⟩
  exact ⟨_, _, .ret _, .bind (returns_refresh hreport')
    (.bind (returns_refresh hquestion) (.ret _))⟩

theorem reportAccept_atomic (hd : d.Questioned) (rid : ℕ) :
    Atomic bus now.flush (fun db => ProposalReportService.accept db rid now) d
      (ProposalReportService.acceptTx bus rid now) := by
  refine transaction_atomic fun n u notifications hu => ?_
  obtain ⟨p, -, report, hreport, rfl, -⟩ := ProposalReportService.accept_eq_ok hu
  exact returns_reviewed hd hreport

theorem reportReject_atomic (hd : d.Questioned) (rid : ℕ) :
    Atomic bus now.flush (fun db => ProposalReportService.reject db rid now) d
      (ProposalReportService.rejectTx bus rid now) := by
  refine transaction_atomic fun n u notifications hu => ?_
  obtain ⟨report, hreport, rfl, -⟩ := ProposalReportService.reject_eq_ok hu
  exact returns_reviewed hd hreport

/-! ### Withdrawal -/

open UserWithdrawalService in
theorem withdrawUser_eq (db : Db) (uid : UserId) (now : Readings) : withdrawUser db uid now = do
    let freshUser ← ensureFree db uid
    let cancelled ← autoCancelPreMatchActivity db freshUser.id
    return withdrawal freshUser cancelled now := by
  simp only [withdrawUser, ensureFree, bind_assoc, pure_bind]
  rfl

section Withdrawal

open UserWithdrawalService

variable {uid : UserId} {freshUser : User}
  {cancelled : List (Change Proposal) × List (Change Offer)}

theorem withdrawUser_of_cancelled (hfresh : ensureFree d uid = .ok freshUser)
    (hcancelled : autoCancelPreMatchActivity d freshUser.id = .ok cancelled) :
    withdrawUser d uid now = .ok (withdrawal freshUser cancelled now) := by
  simp only [withdrawUser_eq, bind_eq_ok, pure_eq_ok]
  exact ⟨freshUser, hfresh, cancelled, hcancelled, rfl⟩

theorem leave_atomic (hfresh : ensureFree d uid = .ok freshUser) {N : Raised → Db → Prop} :
    Triple (Open d d) (leaveTx bus freshUser now)
      (fun _ s => ∃ u notifications, withdrawUser d uid now = .ok u ∧
        s.committed = u.written now.flush d notifications) (Leaves d N) := by
  refine read_bind fun cancelled hcancelled => store_atomic.bind fun stored => ?_
  refine .assuming fun _ => .exists_pre fun notifications => .ret fun s hs => ?_
  exact ⟨_, notifications, withdrawUser_of_cancelled hfresh hcancelled, hs.1⟩

theorem leave_quiet (bus : EventBus) (now : Readings)
    (hfresh : ensureFree d uid = .ok freshUser) :
    (∃ e s, leaveTx bus freshUser now ⟨d, d, []⟩ = (.error e, s) ∧
      s.committed = executed bus now.flush (fun db => withdrawUser db uid now) d) ∨
    ∃ s, leaveTx bus freshUser now ⟨d, d, []⟩ = (.ok (), s) ∧
      s.committed = executed bus now.flush (fun db => withdrawUser db uid now) d := by
  unfold leaveTx
  cases hcancelled : autoCancelPreMatchActivity d freshUser.id with
  | error failure =>
      have hbody : withdrawUser d uid now = .error failure := by
        rw [withdrawUser_eq, hfresh]
        show (autoCancelPreMatchActivity d freshUser.id >>= _) = _
        rw [hcancelled]
        rfl
      rw [bind_error (read_error hcancelled), executed_of_error hbody]
      exact Or.inl ⟨_, _, rfl, rfl⟩
  | ok cancelled =>
      rw [bind_ok (read_ok hcancelled),
        executed_of_ok (withdrawUser_of_cancelled hfresh hcancelled)]
      cases hcommit : (withdrawal freshUser cancelled now).commit now.flush d bus with
      | error failure =>
          obtain ⟨s, hstore, hs⟩ := store_quiet_error (d := d) hcommit
          exact Or.inl ⟨_, s, bind_error hstore, hs⟩
      | ok d' =>
          obtain ⟨n, hstore⟩ := store_quiet (d := d) hcommit
          exact Or.inr ⟨_, bind_ok hstore, rfl⟩

/-- The guards come before the `try`, the cancellations are inside it. -/
theorem withdrawUser_atomic (uid : UserId) :
    Atomic bus now.flush (fun db => withdrawUser db uid now) d (withdrawUserTx bus uid now) where
  triple := read_bind fun freshUser hfresh =>
    .handle_reraises (leave_atomic hfresh) (reraises_rollback id)
  quiet := by
    unfold withdrawUserTx Session.start
    cases hfresh : ensureFree d uid with
    | error failure =>
        have hbody : withdrawUser d uid now = .error failure := by
          rw [withdrawUser_eq, hfresh]
          rfl
        rw [bind_error (read_error hfresh), executed_of_error hbody]
    | ok freshUser =>
        rw [bind_ok (read_ok hfresh)]
        rcases leave_quiet bus now hfresh with ⟨e, s, hrun, he⟩ | ⟨s, hrun, he⟩
        · rw [handle_error hrun]
          exact he
        · rw [handle_ok hrun]
          exact he

end Withdrawal

/-! ### All of them -/

theorem ignore_committed {α : Type} (m : Tx α) (s : Session Db Raised) :
    (ignore m s).2.committed = (m s).2.committed := by
  unfold ignore
  rcases hm : m s with ⟨e | a, s'⟩
  · rw [bind_error hm]
  · rw [bind_ok hm]
    rfl

theorem Tx.Atomic.ignore {α : Type} {m : Tx α} {utcnow : DateTime}
    {body : Db → Except Failure UnitOfWork} (h : Atomic bus utcnow body d m) :
    Atomic bus utcnow body d (Tx.ignore m) where
  triple := h.triple.bind fun _ => .ret fun _ hs => hs
  quiet := by
    rw [← h.quiet]
    exact ignore_committed m _

/-- **Every method is atomic.** -/
theorem call_atomic (bus : EventBus) (now : Readings) (hd : d.Questioned) (call : Call) :
    Atomic bus now.flush (fun db => call.body db now) d (call.tx bus now) := by
  cases call with
  | proposalCreate request uid => exact (proposalCreate_atomic request uid).ignore
  | proposalUpdate pid request uid => exact (proposalUpdate_atomic pid request uid).ignore
  | proposalCancel pid uid => exact (proposalCancel_atomic pid uid).ignore
  | confirmPayment pid => exact (confirmPayment_atomic pid).ignore
  | confirmReceived pid uid => exact (confirmReceived_atomic pid uid).ignore
  | proposalDispute pid uid qid reason => exact (proposalDispute_atomic pid uid qid reason).ignore
  | offerCreate pid uid => exact (offerCreate_atomic pid uid).ignore
  | offerCancel oid uid => exact offerCancel_atomic oid uid
  | offerAccept oid uid => exact (offerAccept_atomic oid uid).ignore
  | completeDelivery oid uid => exact (completeDelivery_atomic oid uid).ignore
  | offerDispute oid uid qid reason => exact (offerDispute_atomic oid uid qid reason).ignore
  | resolve oid => exact (resolve_atomic oid).ignore
  | reportCreate pid uid request => exact (reportCreate_atomic pid uid request).ignore
  | reportAccept rid => exact (reportAccept_atomic hd rid).ignore
  | reportReject rid => exact (reportReject_atomic hd rid).ignore
  | withdrawUser uid => exact withdrawUser_atomic uid

end Methods
end OrderRun
