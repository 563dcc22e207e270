import OrderRun.Application.Deals
import OrderRun.Queries.Evidence
import OrderRun.Sequential.Level

/-!
# The evidence of a dispute

Either party of a deal can raise a dispute, through a service of its own; the evidence is
read through the proposal or through the offer.

* `UnitOfWork.Disputes`, `body_disputes` — a call records evidence exactly if it takes an
  offer into dispute.
* `Db.Evidenced` — the evidence agrees with the offers.
* `Db.EvidenceShown`, `App.evidence` — in every run of the application, a disputed offer has
  one record, which the two parties of the deal see by either way, and nobody else.
-/

namespace OrderRun

open Store

/-- The statuses of an offer on which a dispute has been raised. -/
def Disputed (s : OfferStatus) : Prop := s ∈ [.disputed, .resolved]

instance : DecidablePred Disputed := fun _ => inferInstanceAs (Decidable (_ ∈ _))

theorem Disputed.executed {s : OfferStatus} (h : Disputed s) : Executed s := by
  revert h
  cases s <;> decide

/-- The evidence is about this pair: one of the parties recorded it, in answer to a
question that is put to this party. -/
structure DisputeEvidence.About (e : DisputeEvidence) (db : Db) (p : Proposal) (o : Offer) :
    Prop where
  proposalId : e.proposalId = p.id
  offerId : e.offerId = o.id
  question : ∃ q ∈ db.surveyQuestions, q.id = e.surveyQuestionId ∧
    (e.actorId = p.ordererId ∧ q.targetType = .order ∨
      e.actorId = o.runnerId ∧ q.targetType = .runner)

/-! ## What a call does to the evidence -/

/-- What a unit of work does to the evidence and to disputed offers, if it was prepared on
`db`. -/
structure UnitOfWork.Disputes (u : UnitOfWork) (db : Db) : Prop where
  newEvidence : ∀ e, u.newEvidence = some e →
    ∃ p o, db.Pair p o ∧ e.About db p o ∧ ¬ Disputed o.status
  /-- An offer is taken into dispute exactly if evidence is recorded. -/
  offers : ∀ c ∈ u.offers, Disputed c.dirty.status ↔
    Disputed c.loaded.status ∨ ∃ e, u.newEvidence = some e ∧ e.offerId = c.loaded.id
  changed : ∀ e, u.newEvidence = some e → ∃ c ∈ u.offers, c.loaded.id = e.offerId

section Bodies

variable {u : UnitOfWork} {db : Db} {call : Call} {now : Readings}

/-- A call that records no evidence. -/
theorem disputes_nothing (hn : u.newEvidence = none)
    (ho : ∀ c ∈ u.offers, Disputed c.dirty.status ↔ Disputed c.loaded.status) :
    u.Disputes db where
  newEvidence := by simp [hn]
  offers := by simpa [hn] using ho
  changed := by simp [hn]

/-- A call that changes one offer, and records no evidence. -/
theorem disputes_offer {o o' : Offer} (hn : u.newEvidence = none) (hu : u.offers = [⟨o, o'⟩])
    (h : Disputed o'.status ↔ Disputed o.status) : u.Disputes db := by
  refine disputes_nothing hn ?_
  intro c hc
  rw [hu, List.mem_singleton] at hc
  rw [hc]
  exact h

/-- A party of a running deal raises a dispute. -/
theorem disputes_raise {p : Proposal} {o o' : Offer} {e : DisputeEvidence}
    (hn : u.newEvidence = some e) (hu : u.offers = [⟨o, o'⟩]) (hpair : db.Pair p o)
    (habout : e.About db p o) (ho : o.status ∈ [.accepted, .runnerCompleted])
    (ho' : o'.status = .disputed) : u.Disputes db where
  newEvidence := by
    rintro x hx
    obtain rfl : e = x := Option.some.inj (hn.symm.trans hx)
    refine ⟨p, o, hpair, habout, ?_⟩
    rcases List.mem_pair.1 ho with hs | hs <;> rw [hs] <;> decide
  offers := by
    intro c hc
    rw [hu, List.mem_singleton] at hc
    rw [hc]
    refine iff_of_true ?_ (Or.inr ⟨e, hn, habout.offerId⟩)
    rw [ho']
    decide
  changed := by
    rintro x hx
    obtain rfl : e = x := Option.some.inj (hn.symm.trans hx)
    exact ⟨⟨o, o'⟩, by simp [hu], habout.offerId.symm⟩

/-- **What a call does to the evidence.** -/
theorem body_disputes (h : call.body db now = .ok u) : u.Disputes db := by
  cases call with
  | proposalCreate request uid =>
      obtain ⟨p, -, -, -, -, -, -, -, rfl⟩ := ProposalService.create_eq_ok h
      exact disputes_nothing rfl (by simp)
  | proposalUpdate pid request uid =>
      obtain ⟨p, -, -, -, -, rfl⟩ := ProposalService.update_eq_ok h
      exact disputes_nothing rfl (by simp)
  | proposalCancel pid uid =>
      obtain ⟨p, -, -, -, -, rfl⟩ := ProposalService.cancel_eq_ok h
      exact disputes_nothing rfl (by simp)
  | confirmPayment pid =>
      obtain ⟨p, -, -, -, rfl⟩ := ProposalService.confirmPayment_eq_ok h
      exact disputes_nothing rfl (by simp)
  | confirmReceived pid uid =>
      obtain ⟨p, o, -, -, -, -, ⟨hs, _, rfl⟩ | ⟨hs, _, rfl⟩⟩ :=
        ProposalService.confirmReceived_eq_ok h <;>
      exact disputes_offer rfl rfl (by simp [hs, Disputed])
  | proposalDispute pid uid qid reason =>
      obtain ⟨p, o, hpair, -, horderer, -, hos, _, hu⟩ := ProposalService.raiseDispute_eq_ok h
      obtain ⟨q, hq, hqid, htype⟩ := ProposalService.question_of_raiseDispute h
      subst hu
      exact disputes_raise rfl rfl hpair
        ⟨rfl, rfl, q, hq, hqid, Or.inl ⟨horderer.symm, htype⟩⟩ hos rfl
  | offerCreate pid uid =>
      obtain ⟨p, -, -, -, -, -, _, rfl⟩ := OfferService.create_eq_ok h
      exact disputes_nothing rfl (by simp)
  | offerCancel oid uid =>
      obtain ⟨o, -, -, -, hs, rfl⟩ := OfferService.cancel_eq_ok h
      exact disputes_offer rfl rfl (by simp [hs, Disputed])
  | offerAccept oid uid =>
      obtain ⟨p, o, -, -, -, hs, -, -, _, rfl⟩ := OfferService.accept_eq_ok h
      exact disputes_offer rfl rfl (by simp [hs, Disputed])
  | completeDelivery oid uid =>
      obtain ⟨p, o, -, -, -, hs, ⟨-, _, rfl⟩ | ⟨-, _, rfl⟩⟩ :=
        OfferService.completeDelivery_eq_ok h <;>
      exact disputes_offer rfl rfl (by simp [hs, Disputed])
  | offerDispute oid uid qid reason =>
      obtain ⟨p, o, hpair, -, hrunner, hos, -, _, hu⟩ := OfferService.raiseDispute_eq_ok h
      obtain ⟨q, hq, hqid, htype⟩ := OfferService.question_of_raiseDispute h
      subst hu
      exact disputes_raise rfl rfl hpair
        ⟨rfl, rfl, q, hq, hqid, Or.inr ⟨hrunner.symm, htype⟩⟩ hos rfl
  | resolve oid =>
      obtain ⟨p, o, -, -, hs, -, rfl⟩ := OfferService.resolve_eq_ok h
      exact disputes_offer rfl rfl (by simp [hs, Disputed])
  | reportCreate pid uid request =>
      obtain ⟨p, -, -, -, -, _, -, -, -, -, rfl⟩ := ProposalReportService.create_eq_ok h
      exact disputes_nothing rfl (by simp)
  | reportAccept rid =>
      obtain ⟨p, -, _, -, -, -, -, ⟨-, rfl⟩ | ⟨-, rfl⟩⟩ := ProposalReportService.accept_eq_ok h <;>
      exact disputes_nothing rfl (by simp)
  | reportReject rid =>
      obtain ⟨_, -, -, -, rfl⟩ := ProposalReportService.reject_eq_ok h
      exact disputes_nothing rfl (by simp)
  | withdrawUser uid =>
      obtain ⟨user, -, -, -, -, rfl⟩ := UserWithdrawalService.withdrawUser_eq_ok h
      refine disputes_nothing rfl ?_
      intro c hc
      obtain ⟨o, ho, rfl⟩ := List.mem_map.1 hc
      have hw := (UserWithdrawalService.waiting_of_mem_withdrawn ho).2
      simp [UserWithdrawalService.cancelledOffer, hw, Disputed]

end Bodies

/-- An offer is disputed after one request if it was before, or if the call has recorded
evidence about it. -/
theorem disputed_offerRow {u : UnitOfWork} {db : Db} {t : DateTime} (hu : u.Prepared db)
    (hd : u.Disputes db) {o : Offer} (ho : o ∈ db.offers) :
    Disputed (u.offerRow t o).status ↔
      Disputed o.status ∨ ∃ e, u.newEvidence = some e ∧ e.offerId = o.id := by
  rcases status_offerRow (t := t) hu ho with ⟨c, hc, rfl, hs⟩ | ⟨hno, hs⟩
  · rw [hs]
    exact hd.offers c hc
  · have hnone : ¬ ∃ e, u.newEvidence = some e ∧ e.offerId = o.id := by
      rintro ⟨e, he, hid⟩
      obtain ⟨c, hc, hcid⟩ := hd.changed e he
      exact hno c hc (AutoTable.eq_of_key_eq (hu.offers c hc).1 ho (hcid.trans hid))
    rw [or_iff_left hnone]
    rcases hs with hs | ⟨hw, hs⟩
    · rw [hs]
    · rw [hs, hw]
      exact iff_of_false (by decide) (by decide)

/-! ## Evidence and offers agree -/

/-- The evidence agrees with the offers. -/
structure Db.Evidenced (db : Db) : Prop where
  about : ∀ e ∈ db.evidences, ∃ p o, db.Pair p o ∧ e.About db p o ∧ Disputed o.status
  complete : ∀ o ∈ db.offers, Disputed o.status → ∃ e ∈ db.evidences, e.offerId = o.id
  unique : ∀ e ∈ db.evidences, ∀ e' ∈ db.evidences, e.offerId = e'.offerId → e = e'

theorem evidenced_initial (m : MasterData) : (World.initial m).db.Evidenced where
  about := fun _ he => absurd he List.not_mem_nil
  complete := fun _ ho => absurd ho List.not_mem_nil
  unique := fun _ he => absurd he List.not_mem_nil

theorem SameDeals.evidenced {db db' : Db} (hs : SameDeals db db') (h : db.Evidenced) :
    db'.Evidenced := by
  constructor
  · intro e he
    rw [hs.evidences] at he
    obtain ⟨p, o, hpair, habout, hst⟩ := h.about e he
    obtain ⟨url, ho'⟩ := hs.offer_of hpair.offer
    refine ⟨p, _, ⟨hs.proposals ▸ hpair.proposal, ho', hpair.proposalId⟩, ?_, hst⟩
    exact ⟨habout.proposalId, habout.offerId, hs.surveyQuestions ▸ habout.question⟩
  · intro o' ho' hst
    obtain ⟨o, ho, url, rfl⟩ := hs.offer ho'
    rw [hs.evidences]
    exact h.complete o ho hst
  · rw [hs.evidences]
    exact h.unique

section Commit

variable {bus : EventBus} {w : World} {r : Request} {u : UnitOfWork} {db : Db}

/-- **A call keeps evidence and offers in agreement.** -/
theorem evidenced_commit (h : w.db.Evidenced) (hbody : r.call.body w.db r.now = .ok u)
    (hcommit : u.commit r.now.flush w.db bus = .ok db) : db.Evidenced := by
  have hprep := body_prepared hbody
  have hdis := body_disputes hbody
  have hstay : ∀ p o (e : DisputeEvidence), w.db.Pair p o → e.About w.db p o →
      db.Pair (u.proposalRow r.now.flush p) (u.offerRow r.now.flush o) ∧
        ∀ k t, DisputeEvidence.About { e with id := k, createdAt := t } db
          (u.proposalRow r.now.flush p) (u.offerRow r.now.flush o) := by
    intro p o e hpair habout
    refine ⟨hpair.commit hcommit, fun k t => ⟨?_, ?_, ?_⟩⟩
    · rw [UnitOfWork.proposalRow_id]
      exact habout.proposalId
    · rw [UnitOfWork.offerRow_id]
      exact habout.offerId
    · obtain ⟨notifications, rfl⟩ := UnitOfWork.commit_same hcommit
      rw [UnitOfWork.proposalRow_ordererId, UnitOfWork.offerRow_runnerId]
      exact habout.question
  have hnew : ∀ e, u.newEvidence = some e → ∀ x ∈ w.db.evidences, x.offerId ≠ e.offerId := by
    intro e he x hx hid
    obtain ⟨p, o, hpair, habout, hnot⟩ := hdis.newEvidence e he
    obtain ⟨p', o', hpair', habout', hst⟩ := h.about x hx
    have hoid : o'.id = o.id := by rw [← habout'.offerId, hid, habout.offerId]
    rw [AutoTable.eq_of_key_eq hpair'.offer hpair.offer hoid] at hst
    exact hnot hst
  have hrows : ∀ e', e' ∈ db.evidences ↔ e' ∈ w.db.evidences ∨ ∃ e, u.newEvidence = some e ∧
      e' = { e with id := w.db.evidences.next, createdAt := r.now.flush } := by
    obtain ⟨notifications, rfl⟩ := UnitOfWork.commit_same hcommit
    exact fun e' => UnitOfWork.mem_evidences_write
  obtain ⟨-, -, -, -, hoffers⟩ := UnitOfWork.commit_eq_ok hcommit
  constructor
  · intro e' he'
    rcases (hrows e').1 he' with hold | ⟨e, he, rfl⟩
    · obtain ⟨p, o, hpair, habout, hst⟩ := h.about e' hold
      obtain ⟨hpair', habout'⟩ := hstay p o e' hpair habout
      exact ⟨_, _, hpair', habout' e'.id e'.createdAt,
        (disputed_offerRow hprep hdis hpair.offer).2 (Or.inl hst)⟩
    · obtain ⟨p, o, hpair, habout, -⟩ := hdis.newEvidence e he
      obtain ⟨hpair', habout'⟩ := hstay p o e hpair habout
      exact ⟨_, _, hpair', habout' _ _,
        (disputed_offerRow hprep hdis hpair.offer).2 (Or.inr ⟨e, he, habout.offerId⟩)⟩
  · intro o' ho' hst
    rw [hoffers] at ho'
    rcases UnitOfWork.mem_offers_write.1 ho' with ⟨o, ho, rfl⟩ | ⟨o, hoffer, rfl⟩
    · rw [UnitOfWork.offerRow_id]
      rcases (disputed_offerRow hprep hdis ho).1 hst with hst | ⟨e, he, hid⟩
      · obtain ⟨e, he, hid⟩ := h.complete o ho hst
        exact ⟨e, (hrows e).2 (Or.inl he), hid⟩
      · exact ⟨_, (hrows _).2 (Or.inr ⟨e, he, rfl⟩), hid⟩
    · rw [show o.status = .waiting from hprep.newOffer o hoffer] at hst
      exact absurd hst (by decide)
  · intro x' hx' y' hy' hid
    rcases (hrows x').1 hx' with hx | ⟨x, hx, rfl⟩ <;>
      rcases (hrows y').1 hy' with hy | ⟨y, hy, rfl⟩
    · exact h.unique x' hx y' hy hid
    · exact absurd hid (hnew y hy x' hx)
    · exact absurd hid.symm (hnew x hx y' hy)
    · rw [hx, Option.some.injEq] at hy
      rw [hy]

end Commit

/-! ## Who sees what -/

/-- The evidence of every offer, and who sees it. -/
structure Db.EvidenceShown (db : Db) : Prop where
  one : ∀ o ∈ db.offers, Disputed o.status → ∃! e, e ∈ db.evidences ∧ e.offerId = o.id
  none : ∀ o ∈ db.offers, ¬ Disputed o.status → ∀ e ∈ db.evidences, e.offerId ≠ o.id
  /-- The row belongs to the deal, and one of the parties has recorded it. -/
  row : ∀ e ∈ db.evidences, ∃ p o, db.Pair p o ∧ e.offerId = o.id ∧ e.proposalId = o.proposalId ∧
    (e.actorId = p.ordererId ∨ e.actorId = o.runnerId) ∧
    ∃ q ∈ db.surveyQuestions, q.id = e.surveyQuestionId ∧
      (q.targetType = .order ↔ e.actorId = p.ordererId)
  /-- Both queries show it to the parties, and to nobody else. -/
  shown : ∀ p o, db.Pair p o → Executed o.status → Disputed o.status →
    ∃ e ∈ db.evidences, e.offerId = o.id ∧ ∀ viewerId,
      DisputeEvidenceService.getByProposalId db p.id viewerId =
        (if viewerId ∈ [p.ordererId, o.runnerId] then .ok e else .error (apiError .forbidden)) ∧
      DisputeEvidenceService.getByOfferId db o.id viewerId =
        (if viewerId ∈ [p.ordererId, o.runnerId] then .ok e else .error (apiError .forbidden))
  missing : ∀ p o, db.Pair p o → Executed o.status → ¬ Disputed o.status → ∀ viewerId,
    DisputeEvidenceService.getByProposalId db p.id viewerId =
      .error (apiError .disputeEvidenceNotFound (some ("proposalId: " ++ toString p.id))) ∧
    DisputeEvidenceService.getByOfferId db o.id viewerId =
      .error (apiError .disputeEvidenceNotFound (some ("offerId: " ++ toString o.id)))

section Shown

variable {db : Db}

/-- Evidence about a proposal is about its executed offer. -/
theorem Db.Evidenced.executed (h : db.Evidenced) {p : Proposal} {o : Offer}
    (hshape : (db.deal p).Shape) (hdist : (db.deal p).Distinct) (hpair : db.Pair p o)
    (hex : Executed o.status) {e : DisputeEvidence} (he : e ∈ db.evidences)
    (hpid : e.proposalId = p.id) : e.offerId = o.id ∧ Disputed o.status := by
  obtain ⟨p', o', hpair', habout, hst⟩ := h.about e he
  obtain rfl : p' = p :=
    AutoTable.eq_of_key_eq hpair'.proposal hpair.proposal (habout.proposalId.symm.trans hpid)
  have hbid : o'.bid = o.bid :=
    hshape.executed_unique hdist hpair'.mem_bids hpair.mem_bids hst.executed hex
  have hid : o'.id = o.id := congrArg Bid.id hbid
  exact ⟨habout.offerId.trans hid, AutoTable.eq_of_key_eq hpair'.offer hpair.offer hid ▸ hst⟩

/-- The evidence of a disputed offer is the only one on the offer. -/
theorem Db.Evidenced.one (h : db.Evidenced) {o : Offer} (ho : o ∈ db.offers)
    (hst : Disputed o.status) : ∃! e, e ∈ db.evidences ∧ e.offerId = o.id := by
  obtain ⟨e, he, hid⟩ := h.complete o ho hst
  exact ⟨e, ⟨he, hid⟩, fun x hx => h.unique x hx.1 e he (hx.2.trans hid.symm)⟩

theorem Db.Evidenced.none (h : db.Evidenced) {o : Offer} (ho : o ∈ db.offers)
    (hst : ¬ Disputed o.status) : ∀ e ∈ db.evidences, e.offerId ≠ o.id := by
  intro e he hid
  obtain ⟨p', o', hpair', habout, hst'⟩ := h.about e he
  rw [AutoTable.eq_of_key_eq hpair'.offer ho (habout.offerId.symm.trans hid)] at hst'
  exact hst hst'

theorem Db.Evidenced.shown (h : db.Evidenced) (hself : db.NoSelfOffer)
    (hshape : ∀ p ∈ db.proposals, (db.deal p).Shape ∧ (db.deal p).Distinct) :
    db.EvidenceShown where
  one := fun _ => h.one
  none := fun _ => h.none
  row := by
    intro e he
    obtain ⟨p, o, hpair, habout, -⟩ := h.about e he
    obtain ⟨q, hq, hqid, hactor⟩ := habout.question
    refine ⟨p, o, hpair, habout.offerId, habout.proposalId.trans hpair.proposalId.symm, ?_, q, hq,
      hqid, ?_⟩
    · exact hactor.imp And.left And.left
    · rcases hactor with ⟨ha, ht⟩ | ⟨ha, ht⟩
      · exact iff_of_true ht ha
      · refine iff_of_false (by rw [ht]; decide) ?_
        rw [ha]
        exact hself p o hpair
  shown := by
    intro p o hpair hex hst
    obtain ⟨hsh, hdist⟩ := hshape p hpair.proposal
    obtain ⟨e, ⟨he, hid⟩, hsole⟩ := h.one hpair.offer hst
    obtain ⟨p', o', hpair', habout, -⟩ := h.about e he
    obtain rfl : o' = o :=
      AutoTable.eq_of_key_eq hpair'.offer hpair.offer (habout.offerId.symm.trans hid)
    have hpid : e.proposalId = p.id :=
      habout.proposalId.trans (hpair'.proposalId.symm.trans hpair.proposalId)
    refine ⟨e, he, hid, fun viewerId => ⟨?_, ?_⟩⟩
    · refine DisputeEvidenceService.lookUp_sole he (decide_eq_true hpid) ?_ hpair hpid hid
      intro x hx hxpid
      exact hsole x ⟨hx, (h.executed hsh hdist hpair hex hx (of_decide_eq_true hxpid)).1⟩
    · refine DisputeEvidenceService.lookUp_sole he (decide_eq_true hid) ?_ hpair hpid hid
      exact fun x hx hxid => hsole x ⟨hx, of_decide_eq_true hxid⟩
  missing := by
    intro p o hpair hex hst viewerId
    obtain ⟨hsh, hdist⟩ := hshape p hpair.proposal
    constructor
    · refine DisputeEvidenceService.lookUp_none fun e he => decide_eq_false fun hpid => ?_
      exact hst (h.executed hsh hdist hpair hex he hpid).2
    · exact DisputeEvidenceService.lookUp_none fun e he =>
        decide_eq_false (h.none hpair.offer hst e he)

end Shown

/-- **The evidence of a dispute** is complete, unique and visible to the parties only, in
every run of the application. -/
theorem App.evidence (settings : Settings) (bus : EventBus) (m : MasterData) (cs : List Command) :
    (App.after settings bus m cs).db.EvidenceShown := by
  have ht : (App.after settings bus m cs).Traced := App.traced_after m cs
  have h : (App.after settings bus m cs).db.Evidenced := by
    refine App.inv_after (I := fun w => w.db.Evidenced) (evidenced_initial m) ?_ ?_ cs
    · intro w r hev
      rcases call_cases bus w r with he | ⟨u, db, -, hbody, hcommit, he⟩
      · rw [he]; exact hev
      · rw [he]; exact evidenced_commit hev hbody hcommit
    · exact fun w db hev hstep => hstep.sameDeals.evidenced hev
  exact h.shown (App.noSelfOffer_after m cs)
    fun p hp => ⟨ht.shape hp, (ht.history p hp).distinct⟩

end OrderRun
