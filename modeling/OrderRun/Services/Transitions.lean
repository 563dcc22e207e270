import OrderRun.Services.Call

/-!
# Status transitions

The transition table of the domain, and what a unit of work may change when it is
prepared.

* `ProposalStatus.Step`, `OfferStatus.Step` — the status changes a call makes on
  a row it has loaded; `Step.eq_of_terminal`: none of them leaves a terminal status.
* `UnitOfWork.Prepared`, `body_prepared` — every call changes rows of the database
  it has read, by steps of the table, inserts only waiting offers, and raises a level
  exactly when it completes an offer.
* `Call.Publishes`, `body_publishes` — what each call publishes, and about which deal.
* `proposalRow_cases` — a proposal after a call is what the call has made of it.
-/

namespace OrderRun

open Store

/-! ## The table -/

/-- A status change a call makes on a proposal. -/
def ProposalStatus.Step (s s' : ProposalStatus) : Prop :=
  (s, s') ∈ [
    (.holding, .holding), (.posted, .holding), (.holding, .posted),
    (.posted, .offered), (.offered, .offered), (.offered, .matched),
    (.matched, .matched), (.matched, .orderCompleted), (.matched, .allCompleted),
    (.orderCompleted, .allCompleted),
    (.matched, .disputed), (.orderCompleted, .disputed), (.disputed, .resolved),
    (.holding, .cancelled), (.posted, .cancelled), (.offered, .cancelled),
    (.posted, .reported), (.offered, .reported), (.reported, .reported)]

/-- A status change a call makes on an offer. -/
def OfferStatus.Step (s s' : OfferStatus) : Prop :=
  (s, s') ∈ [
    (.waiting, .cancelled), (.waiting, .accepted),
    (.accepted, .accepted), (.accepted, .runnerCompleted), (.accepted, .allCompleted),
    (.runnerCompleted, .allCompleted),
    (.accepted, .disputed), (.runnerCompleted, .disputed), (.disputed, .resolved)]

/-- The statuses no proposal is meant to leave. -/
def ProposalStatus.Terminal (s : ProposalStatus) : Prop :=
  s ∈ [.allCompleted, .resolved, .reported, .cancelled]

/-- The statuses no offer is meant to leave. -/
def OfferStatus.Terminal (s : OfferStatus) : Prop :=
  s ∈ [.allCompleted, .resolved, .rejected, .cancelled]

instance : DecidablePred ProposalStatus.Terminal := fun _ => inferInstanceAs (Decidable (_ ∈ _))

instance : DecidablePred OfferStatus.Terminal := fun _ => inferInstanceAs (Decidable (_ ∈ _))

instance (s s' : ProposalStatus) : Decidable (s.Step s') := inferInstanceAs (Decidable (_ ∈ _))

instance (s s' : OfferStatus) : Decidable (s.Step s') := inferInstanceAs (Decidable (_ ∈ _))

theorem ProposalStatus.Step.eq_of_terminal {s s' : ProposalStatus} (h : s.Step s')
    (hs : s.Terminal) : s' = s := by
  revert h hs
  cases s <;> cases s' <;> decide

theorem OfferStatus.Step.not_terminal {s s' : OfferStatus} (h : s.Step s') : ¬ s.Terminal := by
  revert h
  cases s <;> cases s' <;> decide

/-- Only a waiting offer can be chosen or taken back. -/
theorem OfferStatus.Step.ne_waiting {s s' : OfferStatus} (h : s.Step s') : s' ≠ .waiting := by
  revert h
  cases s <;> cases s' <;> decide

/-! ## What a call prepares -/

/-- What a unit of work changes if it was prepared on `db`. -/
structure UnitOfWork.Prepared (u : UnitOfWork) (db : Db) : Prop where
  proposals : ∀ c ∈ u.proposals, c.loaded ∈ db.proposals ∧ c.loaded.status.Step c.dirty.status
  offers : ∀ c ∈ u.offers, c.loaded ∈ db.offers ∧ c.loaded.status.Step c.dirty.status
  proposalObjects : OneObject u.proposals
  offerObjects : OneObject u.offers
  newOffer : ∀ o, u.newOffer = some o → o.status = .waiting
  level : (u.levelUp = none ∧ ∀ c ∈ u.offers, c.dirty.status ≠ .allCompleted) ∨
    ∃ c, u.offers = [c] ∧ u.levelUp = some c.loaded.runnerId ∧ c.dirty.status = .allCompleted

section Cases

variable {u : UnitOfWork} {db : Db} {p p' : Proposal} {o o' : Offer}

/-- A unit of work that changes nothing but one proposal. -/
theorem prepared_proposal (hu : u.proposals = [⟨p, p'⟩]) (hp : p ∈ db.proposals)
    (hs : p.status.Step p'.status) (ho : u.offers = []) (hl : u.levelUp = none)
    (hn : ∀ o, u.newOffer = some o → o.status = .waiting) : u.Prepared db where
  proposals := by rw [hu]; simpa using ⟨hp, hs⟩
  offers := by simp [ho]
  proposalObjects := by rw [hu]; exact oneObject_singleton _
  offerObjects := by rw [ho]; exact oneObject_nil
  newOffer := hn
  level := Or.inl ⟨hl, by simp [ho]⟩

/-- A unit of work that changes one proposal and one of its offers. -/
theorem prepared_pair (hu : u.proposals = [⟨p, p'⟩]) (ho : u.offers = [⟨o, o'⟩])
    (hpair : db.Pair p o) (hs : p.status.Step p'.status) (hos : o.status.Step o'.status)
    (hn : u.newOffer = none)
    (hl : u.levelUp = none ∧ o'.status ≠ .allCompleted ∨
      u.levelUp = some o.runnerId ∧ o'.status = .allCompleted) : u.Prepared db where
  proposals := by rw [hu]; simpa using ⟨hpair.proposal, hs⟩
  offers := by rw [ho]; simpa using ⟨hpair.offer, hos⟩
  proposalObjects := by rw [hu]; exact oneObject_singleton _
  offerObjects := by rw [ho]; exact oneObject_singleton _
  newOffer := by simp [hn]
  level := by
    rcases hl with ⟨hl, hne⟩ | ⟨hl, hall⟩
    · exact Or.inl ⟨hl, by simpa [ho] using hne⟩
    · exact Or.inr ⟨⟨o, o'⟩, ho, hl, hall⟩

end Cases

/-- A call that only inserts, or only touches reports. -/
theorem prepared_nothing {u : UnitOfWork} {db : Db} (hp : u.proposals = []) (ho : u.offers = [])
    (hn : u.newOffer = none) (hl : u.levelUp = none) : u.Prepared db where
  proposals := by simp [hp]
  offers := by simp [ho]
  proposalObjects := by rw [hp]; exact oneObject_nil
  offerObjects := by rw [ho]; exact oneObject_nil
  newOffer := by simp [hn]
  level := Or.inl ⟨hl, by simp [ho]⟩

open UserWithdrawalService in
theorem prepared_withdraw {u : UnitOfWork} {db : Db} {uid : UserId} {purge : Option Purge}
    {users : List (Change User)}
    (hu : u = {
      purge := purge
      proposals := (openProposals db uid).map cancelledProposal
      offers := (waitingOffers db ((openProposals db uid).map (·.id)) ++
        runnerOffers db uid).map cancelledOffer
      users := users }) : u.Prepared db where
  proposals := by
    intro c hc
    rw [hu] at hc
    obtain ⟨p, hp, rfl⟩ := List.mem_map.1 hc
    refine ⟨(List.mem_filter.1 hp).1, ?_⟩
    have hs := status_of_mem_openProposals hp
    show p.status.Step .cancelled
    revert hs
    cases p.status <;> decide
  offers := by
    intro c hc
    rw [hu] at hc
    obtain ⟨o, ho, rfl⟩ := List.mem_map.1 hc
    obtain ⟨hmem, hw⟩ := waiting_of_mem_withdrawn ho
    refine ⟨hmem, ?_⟩
    show o.status.Step .cancelled
    rw [hw]
    decide
  proposalObjects := by
    rw [hu]
    rintro c hc c' hc' hid
    obtain ⟨p, hp, rfl⟩ := List.mem_map.1 hc
    obtain ⟨p', hp', rfl⟩ := List.mem_map.1 hc'
    have hmem : p ∈ db.proposals := (List.mem_filter.1 hp).1
    rw [AutoTable.eq_of_key_eq hmem (List.mem_filter.1 hp').1 hid]
  offerObjects := by
    rw [hu]
    rintro c hc c' hc' hid
    obtain ⟨o, ho, rfl⟩ := List.mem_map.1 hc
    obtain ⟨o', ho', rfl⟩ := List.mem_map.1 hc'
    rw [AutoTable.eq_of_key_eq (waiting_of_mem_withdrawn ho).1 (waiting_of_mem_withdrawn ho').1 hid]
  newOffer := by simp [hu]
  level := by
    refine Or.inl ⟨by rw [hu], ?_⟩
    intro c hc
    rw [hu] at hc
    obtain ⟨o, -, rfl⟩ := List.mem_map.1 hc
    simp [cancelledOffer]

/-- **What a call prepares** respects the transition table. -/
theorem body_prepared {call : Call} {db : Db} {now : Readings} {u : UnitOfWork}
    (h : call.body db now = .ok u) : u.Prepared db := by
  cases call with
  | proposalCreate request uid =>
      obtain ⟨p, -, -, -, -, -, -, -, rfl⟩ := ProposalService.create_eq_ok h
      exact prepared_nothing rfl rfl rfl rfl
  | proposalUpdate pid request uid =>
      obtain ⟨p, hp, rfl, -, hs, rfl⟩ := ProposalService.update_eq_ok h
      refine prepared_proposal rfl hp ?_ rfl rfl (by simp)
      rcases hs with hs | hs <;> simp [ProposalStatus.Step, hs]
  | proposalCancel pid uid =>
      obtain ⟨p, hp, rfl, -, hs, rfl⟩ := ProposalService.cancel_eq_ok h
      refine prepared_proposal rfl hp ?_ rfl rfl (by simp)
      revert hs
      show p.status ∈ _ → p.status.Step .cancelled
      cases p.status <;> decide
  | confirmPayment pid =>
      obtain ⟨p, hp, rfl, hs, rfl⟩ := ProposalService.confirmPayment_eq_ok h
      exact prepared_proposal rfl hp (by simp [ProposalStatus.Step, hs]) rfl rfl (by simp)
  | confirmReceived pid uid =>
      obtain ⟨p, o, hpair, rfl, -, hps, hcases⟩ := ProposalService.confirmReceived_eq_ok h
      rcases hcases with ⟨hos, event, rfl⟩ | ⟨hos, event, rfl⟩
      · exact prepared_pair rfl rfl hpair (by simp [ProposalStatus.Step, hps])
          (by simp [OfferStatus.Step, hos]) rfl (Or.inl ⟨rfl, by simp [hos]⟩)
      · exact prepared_pair rfl rfl hpair (by simp [ProposalStatus.Step, hps])
          (by simp [OfferStatus.Step, hos]) rfl (Or.inr ⟨rfl, rfl⟩)
  | proposalDispute pid uid qid reason =>
      obtain ⟨p, o, hpair, rfl, -, hps, hos, event, rfl⟩ := ProposalService.raiseDispute_eq_ok h
      refine prepared_pair rfl rfl hpair ?_ ?_ rfl (Or.inl ⟨rfl, by simp⟩)
      · rcases List.mem_pair.1 hps with hs | hs <;> simp [ProposalStatus.Step, hs]
      · rcases List.mem_pair.1 hos with hs | hs <;> simp [OfferStatus.Step, hs]
  | offerCreate pid uid =>
      obtain ⟨p, hp, rfl, -, hs, -, event, rfl⟩ := OfferService.create_eq_ok h
      refine prepared_proposal rfl hp ?_ rfl rfl ?_
      · rcases hs with hs | hs <;> simp [ProposalStatus.Step, hs]
      · intro o ho
        rw [← Option.some.inj ho]
        rfl
  | offerCancel oid uid =>
      obtain ⟨o, ho, rfl, -, hs, rfl⟩ := OfferService.cancel_eq_ok h
      exact {
        proposals := by simp
        offers := by simpa [OfferStatus.Step, hs] using ho
        proposalObjects := oneObject_nil
        offerObjects := oneObject_singleton _
        newOffer := by simp
        level := Or.inl ⟨rfl, by simp⟩ }
  | offerAccept oid uid =>
      obtain ⟨p, o, hpair, rfl, -, hos, hps, -, event, rfl⟩ := OfferService.accept_eq_ok h
      exact prepared_pair rfl rfl hpair (by simp [ProposalStatus.Step, hps])
        (by simp [OfferStatus.Step, hos]) rfl (Or.inl ⟨rfl, by simp⟩)
  | completeDelivery oid uid =>
      obtain ⟨p, o, hpair, rfl, -, hos, hcases⟩ := OfferService.completeDelivery_eq_ok h
      rcases hcases with ⟨hps, event, rfl⟩ | ⟨hps, event, rfl⟩
      · exact prepared_pair rfl rfl hpair (by simp [ProposalStatus.Step, hps])
          (by simp [OfferStatus.Step, hos]) rfl (Or.inl ⟨rfl, by simp⟩)
      · exact prepared_pair rfl rfl hpair (by simp [ProposalStatus.Step, hps])
          (by simp [OfferStatus.Step, hos]) rfl (Or.inr ⟨rfl, rfl⟩)
  | offerDispute oid uid qid reason =>
      obtain ⟨p, o, hpair, rfl, -, hos, hps, event, rfl⟩ := OfferService.raiseDispute_eq_ok h
      refine prepared_pair rfl rfl hpair ?_ ?_ rfl (Or.inl ⟨rfl, by simp⟩)
      · rcases List.mem_pair.1 hps with hs | hs <;> simp [ProposalStatus.Step, hs]
      · rcases List.mem_pair.1 hos with hs | hs <;> simp [OfferStatus.Step, hs]
  | resolve oid =>
      obtain ⟨p, o, hpair, rfl, hos, hps, rfl⟩ := OfferService.resolve_eq_ok h
      exact prepared_pair rfl rfl hpair (by simp [ProposalStatus.Step, hps])
        (by simp [OfferStatus.Step, hos]) rfl (Or.inl ⟨rfl, by simp⟩)
  | reportCreate pid uid request =>
      obtain ⟨p, -, -, -, -, report, -, -, -, -, rfl⟩ := ProposalReportService.create_eq_ok h
      exact prepared_nothing rfl rfl rfl rfl
  | reportAccept rid =>
      obtain ⟨p, hp, report, -, rfl, -, -, hcases⟩ := ProposalReportService.accept_eq_ok h
      rcases hcases with ⟨hs, rfl⟩ | ⟨hs, rfl⟩
      · refine prepared_proposal rfl hp ?_ rfl rfl (by simp)
        revert hs
        show p.status ∈ _ → p.status.Step .reported
        cases p.status <;> decide
      · exact prepared_proposal rfl hp (by simp [ProposalStatus.Step, hs]) rfl rfl (by simp)
  | reportReject rid =>
      obtain ⟨report, -, -, -, rfl⟩ := ProposalReportService.reject_eq_ok h
      exact prepared_nothing rfl rfl rfl rfl
  | withdrawUser uid =>
      obtain ⟨user, -, -, -, -, hu⟩ := UserWithdrawalService.withdrawUser_eq_ok h
      exact prepared_withdraw hu

/-! ## What a call publishes -/

/-- **The event of a call**, and the deal it is about. -/
inductive Call.Publishes (db : Db) (now : Readings) (u : UnitOfWork) : Call → Prop where
  | nothing {call : Call} (event : u.event = none) : Publishes db now u call
  | offerCreated {p : Proposal} (proposal : p ∈ db.proposals) (runnerId : UserId)
      (inserted : u.newOffer = some (Offer.create p.id runnerId))
      (event : u.event =
        some fun k => .offerCreated ⟨k, p.id, runnerId, p.ordererId, p.title⟩) :
      Publishes db now u (.offerCreate p.id runnerId)
  | offerAccepted {p : Proposal} {o : Offer} (pair : db.Pair p o) (waiting : o.status = .waiting)
      (offered : p.status = .offered) (work : u = OfferService.acceptance db p o now) :
      Publishes db now u (.offerAccept o.id p.ordererId)
  | runnerConfirmed {p : Proposal} {o : Offer} (pair : db.Pair p o) (runnerId : UserId)
      (event : u.event = some fun _ => .meetingConfirmedByRunner (.about p o)) :
      Publishes db now u (.completeDelivery o.id runnerId)
  | ordererConfirmed {p : Proposal} {o : Offer} (pair : db.Pair p o) (ordererId : UserId)
      (event : u.event = some fun _ => .meetingConfirmedByOrderer (.about p o)) :
      Publishes db now u (.confirmReceived p.id ordererId)
  | ordererDisputed {p : Proposal} {o : Offer} (pair : db.Pair p o) (ordererId : UserId)
      (surveyQuestionId : ℕ) (disputeReason : String)
      (event : u.event = some fun _ => .disputeRaisedByOrderer (.about p o)) :
      Publishes db now u (.proposalDispute p.id ordererId surveyQuestionId disputeReason)
  | runnerDisputed {p : Proposal} {o : Offer} (pair : db.Pair p o) (runnerId : UserId)
      (surveyQuestionId : ℕ) (disputeReason : String)
      (event : u.event = some fun _ => .disputeRaisedByRunner (.about p o)) :
      Publishes db now u (.offerDispute o.id runnerId surveyQuestionId disputeReason)

theorem body_publishes {call : Call} {db : Db} {now : Readings} {u : UnitOfWork}
    (h : call.body db now = .ok u) : call.Publishes db now u := by
  cases call with
  | proposalCreate request uid =>
      obtain ⟨p, -, -, -, -, -, -, -, rfl⟩ := ProposalService.create_eq_ok h
      exact .nothing rfl
  | proposalUpdate pid request uid =>
      obtain ⟨p, -, -, -, -, rfl⟩ := ProposalService.update_eq_ok h
      exact .nothing rfl
  | proposalCancel pid uid =>
      obtain ⟨p, -, -, -, -, rfl⟩ := ProposalService.cancel_eq_ok h
      exact .nothing rfl
  | confirmPayment pid =>
      obtain ⟨p, -, -, -, rfl⟩ := ProposalService.confirmPayment_eq_ok h
      exact .nothing rfl
  | confirmReceived pid uid =>
      have hevent := @ProposalService.event_of_confirmReceived _ _ _ _ _ h
      obtain ⟨p, o, hpair, rfl, -, -, ⟨-, _, rfl⟩ | ⟨-, _, rfl⟩⟩ :=
        ProposalService.confirmReceived_eq_ok h <;>
      exact .ordererConfirmed hpair uid (hevent rfl rfl)
  | proposalDispute pid uid qid reason =>
      obtain ⟨p, o, hpair, rfl, hevent⟩ := ProposalService.event_of_raiseDispute h
      exact .ordererDisputed hpair uid qid reason hevent
  | offerCreate pid uid =>
      obtain ⟨p, hp, rfl, hevent⟩ := OfferService.event_of_create h
      obtain ⟨_, -, -, -, -, -, _, hwork⟩ := OfferService.create_eq_ok h
      exact .offerCreated hp uid (by rw [hwork]) hevent
  | offerCancel oid uid =>
      obtain ⟨o, -, -, -, -, rfl⟩ := OfferService.cancel_eq_ok h
      exact .nothing rfl
  | offerAccept oid uid =>
      obtain ⟨p, o, hpair, rfl, rfl, hos, hps, hwork⟩ := OfferService.accept_eq_acceptance h
      exact .offerAccepted hpair hos hps hwork
  | completeDelivery oid uid =>
      obtain ⟨p, o, hpair, rfl, hevent⟩ := OfferService.event_of_completeDelivery h
      exact .runnerConfirmed hpair uid hevent
  | offerDispute oid uid qid reason =>
      obtain ⟨p, o, hpair, rfl, hevent⟩ := OfferService.event_of_raiseDispute h
      exact .runnerDisputed hpair uid qid reason hevent
  | resolve oid =>
      obtain ⟨p, o, -, -, -, -, rfl⟩ := OfferService.resolve_eq_ok h
      exact .nothing rfl
  | reportCreate pid uid request =>
      obtain ⟨p, -, -, -, -, _, -, -, -, -, rfl⟩ := ProposalReportService.create_eq_ok h
      exact .nothing rfl
  | reportAccept rid =>
      obtain ⟨p, -, _, -, -, -, -, ⟨-, rfl⟩ | ⟨-, rfl⟩⟩ := ProposalReportService.accept_eq_ok h <;>
      exact .nothing rfl
  | reportReject rid =>
      obtain ⟨_, -, -, -, rfl⟩ := ProposalReportService.reject_eq_ok h
      exact .nothing rfl
  | withdrawUser uid =>
      obtain ⟨_, -, -, -, -, rfl⟩ := UserWithdrawalService.withdrawUser_eq_ok h
      exact .nothing rfl

/-! ## What becomes of a row -/

section Rows

variable {u : UnitOfWork} {db : Db} {t : DateTime}

/-- A proposal after one request is what the call has made of it. -/
theorem proposalRow_cases (hu : u.Prepared db) {p : Proposal} (hp : p ∈ db.proposals) :
    (∃ c ∈ u.proposals, c.loaded = p ∧
        u.proposalRow t p = Proposal.flush u.deadlineAssigned c.loaded c.dirty t c.loaded) ∨
      (∀ c ∈ u.proposals, c.loaded ≠ p) ∧ u.proposalRow t p = p := by
  rcases writeBack_cases
      (fun loaded dirty row => Proposal.flush u.deadlineAssigned loaded dirty t row) u.proposals p
    with ⟨hno, he⟩ | ⟨c, hc, hid, he⟩
  · exact Or.inr ⟨fun c hc hl => hno c hc (by rw [hl]), he⟩
  · obtain rfl : c.loaded = p := AutoTable.eq_of_key_eq (hu.proposals c hc).1 hp hid
    exact Or.inl ⟨c, hc, rfl, he⟩

/-- A proposal whose status is terminal keeps it. -/
theorem status_proposalRow_of_terminal (hu : u.Prepared db) {p : Proposal}
    (hp : p ∈ db.proposals) (hs : p.status.Terminal) :
    (u.proposalRow t p).status = p.status := by
  rcases proposalRow_cases (t := t) hu hp with ⟨c, hc, rfl, he⟩ | ⟨-, he⟩
  · rw [he, Proposal.flush_status, col_untouched]
    exact (hu.proposals c hc).2.eq_of_terminal hs
  · rw [he]

end Rows

end OrderRun
