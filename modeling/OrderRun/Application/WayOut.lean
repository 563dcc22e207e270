import OrderRun.Application.Withdrawal
import OrderRun.Concurrent.Pair

/-!
# The way out

A user in the middle of an errand cannot leave, and the other party may never confirm.  She
is not trapped: she can raise a dispute about each of her running errands, and once the
administrator has resolved them nothing blocks her withdrawal any more.

* `Db.Engaged`, `busy_iff` — the offers that keep a user, as their runner or as the orderer.
* `settle`, `wayOut` — the calls that settle one errand, and the plan for all of them.
* `Db.Rewrites`, `rewrites_call` — a call that changes one deal and nothing else.
* `settle_settles`, `settled` — one errand is settled, then all of them.
* `wayOut_leaves` — the plan works in every reachable state, whatever the clock shows.
-/

namespace OrderRun

open Store Split UserWithdrawalService

/-! ## What keeps a user -/

/-- An offer in execution of which the user is the runner, or the orderer of its errand. -/
def Db.Engaged (db : Db) (uid : UserId) (o : Offer) : Prop :=
  o.status ∈ [.accepted, .runnerCompleted, .disputed] ∧
    (o.runnerId = uid ∨ ∃ p ∈ db.proposals.rows, p.id = o.proposalId ∧ p.ordererId = uid)

instance (db : Db) (uid : UserId) : DecidablePred (db.Engaged uid) :=
  fun o => inferInstanceAs (Decidable (_ ∧ (o.runnerId = uid ∨ ∃ p ∈ db.proposals.rows, _)))

theorem OneIn.status_mem {statuses : List OfferStatus} {offers : List Offer} {o : Offer}
    (h : OneIn statuses offers) (ho : o ∈ offers) :
    o.status ∈ statuses ++ [.rejected, .cancelled] := by
  by_cases hs : o.status ∈ statuses
  · exact List.mem_append_left _ hs
  · exact List.mem_append_right _ (by simpa using h.others o ho hs)

/-- A running errand has an offer in execution. -/
theorem exists_running {db : Db} (hjoint : db.Joint) {p : Proposal} (hp : p ∈ db.proposals)
    (hs : p.status ∈ [.matched, .orderCompleted, .disputed]) :
    ∃ o, db.Pair p o ∧ o.status ∈ [.accepted, .runnerCompleted, .disputed] := by
  have hone : ∃ statuses, OneIn statuses (db.offersOf p.id) ∧
      ∀ s ∈ statuses, s ∈ [OfferStatus.accepted, .runnerCompleted, .disputed] := by
    have h := hjoint p hp
    cases hst : p.status <;> rw [hst] at h hs
    case matched => exact ⟨_, h, by simp⟩
    case orderCompleted => exact ⟨_, h, by simp⟩
    case disputed => exact ⟨_, h, by simp⟩
    all_goals simp at hs
  obtain ⟨statuses, hone, hsub⟩ := hone
  obtain ⟨o, ⟨ho, hos⟩, -⟩ := hone.one
  obtain ⟨hmem, hpid⟩ := Db.mem_offersOf.1 ho
  exact ⟨o, ⟨hp, hmem, hpid⟩, hsub _ hos⟩

/-- The errand of an offer in execution is running. -/
theorem running_of_pair {db : Db} (hjoint : db.Joint) {p : Proposal} {o : Offer}
    (hpair : db.Pair p o) (hs : o.status ∈ [.accepted, .runnerCompleted, .disputed]) :
    (o.status ≠ .disputed ∧ p.status ∈ [.matched, .orderCompleted]) ∨
      (o.status = .disputed ∧ p.status = .disputed) := by
  have h := hjoint p hpair.proposal
  have ho : o ∈ db.offersOf p.id := Db.mem_offersOf.2 ⟨hpair.offer, hpair.proposalId⟩
  cases hst : p.status <;> rw [hst] at h
  case holding => exact absurd ho (by simp [show db.offersOf p.id = [] from h])
  case posted => exact absurd ho (by simp [show db.offersOf p.id = [] from h])
  case offered => rcases h.2 o ho with hw | hw <;> simp [hw] at hs
  case cancelled => rcases h o ho with hw | hw <;> simp [hw] at hs
  case reported => rcases h o ho with hw | hw <;> simp [hw] at hs
  all_goals
    have hone := OneIn.status_mem h ho
    revert hs hone
    cases o.status <;> decide

/-- **A user is busy if an offer in execution is hers, or is on an errand of hers.** -/
theorem busy_iff {db : Db} (hjoint : db.Joint) {uid : UserId} :
    Busy db uid ↔ ∃ o ∈ db.offers, db.Engaged uid o := by
  constructor
  · rintro (⟨p, hp, horderer, hs⟩ | ⟨o, ho, hrunner, hs⟩)
    · obtain ⟨o, hpair, hos⟩ := exists_running hjoint hp hs
      exact ⟨o, hpair.offer, hos, Or.inr ⟨p, hp, hpair.proposalId.symm, horderer⟩⟩
    · exact ⟨o, ho, hs, Or.inl hrunner⟩
  · rintro ⟨o, ho, hos, hrunner | ⟨p, hp, hpid, horderer⟩⟩
    · exact Or.inr ⟨o, ho, hrunner, hos⟩
    · refine Or.inl ⟨p, hp, horderer, ?_⟩
      rcases running_of_pair hjoint ⟨hp, ho, hpid.symm⟩ hos with ⟨-, hps⟩ | ⟨-, hps⟩
      · revert hps
        cases p.status <;> decide
      · simp [hps]

/-! ## The plan -/

/-- The calls that settle the errand of an offer in execution: unless there is one already,
the user raises a dispute, as the runner or as the orderer; the administrator resolves it. -/
def settle (uid : UserId) (orderQuestion runnerQuestion : ℕ) (reason : String) (o : Offer) :
    List Call :=
  if o.status = .disputed then [.resolve o.id]
  else if o.runnerId = uid then [.offerDispute o.id uid runnerQuestion reason, .resolve o.id]
  else [.proposalDispute o.proposalId uid orderQuestion reason, .resolve o.id]

/-- The plan of a user who wants to leave: settle what keeps her, and leave. -/
def wayOut (db : Db) (uid : UserId) (orderQuestion runnerQuestion : ℕ) (reason : String) :
    List Call :=
  (db.offers.rows.filter fun o => db.Engaged uid o).flatMap
    (settle uid orderQuestion runnerQuestion reason) ++ [.withdrawUser uid]

/-- The user is there, and both parties of an errand have a question to answer. -/
structure Db.CanDispute (db : Db) (user : User) (orderQuestion runnerQuestion : ℕ) : Prop where
  registered : user ∈ db.users
  active : user.deleted = false
  orderQuestion : ∃ q ∈ db.surveyQuestions,
    q.id = orderQuestion ∧ q.targetType = .order ∧ q.isActive = true
  runnerQuestion : ∃ q ∈ db.surveyQuestions,
    q.id = runnerQuestion ∧ q.targetType = .runner ∧ q.isActive = true

/-! ## A call that changes one deal -/

/-- `db'` is `db` with one offer and its proposal rewritten. -/
structure Db.Rewrites (db db' : Db) (p p' : Proposal) (o o' : Offer) : Prop where
  users : ∀ user ∈ db.users, user ∈ db'.users
  surveyQuestions : db'.surveyQuestions = db.surveyQuestions
  proposals : ∀ x, x ∈ db'.proposals ↔ x = p' ∨ x ∈ db.proposals ∧ x.id ≠ p.id
  offers : ∀ x, x ∈ db'.offers ↔ x = o' ∨ x ∈ db.offers ∧ x.id ≠ o.id
  proposalId : p'.id = p.id
  ordererId : p'.ordererId = p.ordererId
  offerId : o'.id = o.id
  runnerId : o'.runnerId = o.runnerId
  offerProposalId : o'.proposalId = o.proposalId

section Rewrites

variable {db db₁ db₂ : Db} {p p₁ p₂ : Proposal} {o o₁ o₂ : Offer}

/-- The same deal, rewritten twice. -/
theorem Db.Rewrites.trans (h : db.Rewrites db₁ p p₁ o o₁) (h' : db₁.Rewrites db₂ p₁ p₂ o₁ o₂) :
    db.Rewrites db₂ p p₂ o o₂ where
  users := fun user huser => h'.users user (h.users user huser)
  surveyQuestions := h'.surveyQuestions.trans h.surveyQuestions
  proposals := by
    intro x
    rw [h'.proposals, h.proposals, h.proposalId]
    constructor
    · rintro (hx | ⟨rfl | hx, hne⟩)
      · exact Or.inl hx
      · exact absurd h.proposalId hne
      · exact Or.inr hx
    · rintro (hx | hx)
      · exact Or.inl hx
      · exact Or.inr ⟨Or.inr hx, hx.2⟩
  offers := by
    intro x
    rw [h'.offers, h.offers, h.offerId]
    constructor
    · rintro (hx | ⟨rfl | hx, hne⟩)
      · exact Or.inl hx
      · exact absurd h.offerId hne
      · exact Or.inr hx
    · rintro (hx | hx)
      · exact Or.inl hx
      · exact Or.inr ⟨Or.inr hx, hx.2⟩
  proposalId := h'.proposalId.trans h.proposalId
  ordererId := h'.ordererId.trans h.ordererId
  offerId := h'.offerId.trans h.offerId
  runnerId := h'.runnerId.trans h.runnerId
  offerProposalId := h'.offerProposalId.trans h.offerProposalId

/-- The rewritten rows belong to each other. -/
theorem Db.Rewrites.pair (h : db.Rewrites db₁ p p₁ o o₁) (hpair : db.Pair p o) :
    db₁.Pair p₁ o₁ where
  proposal := (h.proposals p₁).2 (Or.inl rfl)
  offer := (h.offers o₁).2 (Or.inl rfl)
  proposalId := h.offerProposalId.trans (hpair.proposalId.trans h.proposalId.symm)

theorem Db.Rewrites.canDispute (h : db.Rewrites db₁ p p₁ o o₁) {user : User} {qo qr : ℕ}
    (hcan : db.CanDispute user qo qr) : db₁.CanDispute user qo qr where
  registered := h.users user hcan.registered
  active := hcan.active
  orderQuestion := h.surveyQuestions ▸ hcan.orderQuestion
  runnerQuestion := h.surveyQuestions ▸ hcan.runnerQuestion

/-- The user is a party of the same errands as before. -/
theorem Db.Rewrites.party_iff (h : db.Rewrites db₁ p p₁ o o₁) (hp : p ∈ db.proposals)
    {uid : UserId} {x : Offer} :
    (∃ q ∈ db₁.proposals.rows, q.id = x.proposalId ∧ q.ordererId = uid) ↔
      ∃ q ∈ db.proposals.rows, q.id = x.proposalId ∧ q.ordererId = uid := by
  constructor
  · rintro ⟨q, hq, hid, horderer⟩
    rcases (h.proposals q).1 hq with rfl | ⟨hq, -⟩
    · exact ⟨p, hp, h.proposalId.symm.trans hid, h.ordererId.symm.trans horderer⟩
    · exact ⟨q, hq, hid, horderer⟩
  · rintro ⟨q, hq, hid, horderer⟩
    by_cases hqp : q.id = p.id
    · obtain rfl : q = p := AutoTable.eq_of_key_eq hq hp hqp
      exact ⟨p₁, (h.proposals p₁).2 (Or.inl rfl), h.proposalId.trans hid,
        h.ordererId.trans horderer⟩
    · exact ⟨q, (h.proposals q).2 (Or.inr ⟨hq, hqp⟩), hid, horderer⟩

end Rewrites

section Calls

variable (bus : EventBus) {w : World} {r : Request} {u : UnitOfWork} {p p' : Proposal}
  {o o' : Offer}

/-- A unit of work that changes one offer and its proposal, and nothing else. -/
structure UnitOfWork.Deals (u : UnitOfWork) (p p' : Proposal) (o o' : Offer) : Prop
    extends u.Pairs p p' o o' where
  newReport : u.newReport = none
  users : u.users = []
  levelUp : u.levelUp = none

/-- **A call that prepares one offer and its proposal rewrites them.** -/
theorem rewrites_call (hauth : r.call.authenticate w.db = .ok ())
    (hbody : r.call.body w.db r.now = .ok u) (hu : u.Deals p p' o o') (hpair : w.db.Pair p o) :
    w.db.Rewrites ((service bus).call w r).db p
      (Proposal.flush u.deadlineAssigned p p' r.now.flush p) o
      (Offer.flush o o' r.now.flush o) := by
  obtain ⟨db, hcommit, hcall⟩ := call_of_body bus hauth hbody hu.newOffer hu.newReport
  obtain ⟨notifications, hdb⟩ := UnitOfWork.commit_same hcommit
  obtain ⟨-, -, husers', hproposals, hoffers⟩ := UnitOfWork.commit_eq_ok hcommit
  have horow : u.offerRow r.now.flush o = Offer.flush o o' r.now.flush o := by
    rw [hu.offerRow, if_pos rfl]
  have hprow : u.proposalRow r.now.flush p = Proposal.flush u.deadlineAssigned p p' r.now.flush p :=
    hu.proposalRow rfl
  rw [hcall]
  refine ⟨?_, ?_, ?_, ?_, Proposal.flush_id _ _ _ _ _, ?_, Offer.flush_id _ _ _ _,
    Offer.flush_runnerId _ _ _ _, ?_⟩
  · intro user huser
    show user ∈ db.users
    rw [husers', UnitOfWork.mem_users_write]
    refine ⟨user, huser, ?_⟩
    rw [UnitOfWork.userRow_of_ne (by simp [hu.users])]
    simp [UnitOfWork.levelRow, hu.levelUp]
  · show db.surveyQuestions = _
    rw [hdb]
    rfl
  · intro x
    show x ∈ db.proposals ↔ _
    rw [hproposals, UnitOfWork.mem_proposals_write]
    constructor
    · rintro (⟨q, hq, rfl⟩ | ⟨q, hq, -⟩)
      · by_cases hqp : q.id = p.id
        · obtain rfl : q = p := AutoTable.eq_of_key_eq hq hpair.proposal hqp
          exact Or.inl hprow
        · refine Or.inr ⟨?_, by simpa using hqp⟩
          rwa [proposalRow_of_single hu.proposals, if_neg fun h => hqp h.symm]
      · rw [hu.newProposal] at hq
        exact absurd hq (by simp)
    · rintro (rfl | ⟨hx, hne⟩)
      · exact Or.inl ⟨p, hpair.proposal, hprow⟩
      · refine Or.inl ⟨x, hx, ?_⟩
        rw [proposalRow_of_single hu.proposals, if_neg fun h => hne h.symm]
  · intro x
    show x ∈ db.offers ↔ _
    rw [hoffers, UnitOfWork.mem_offers_write]
    constructor
    · rintro (⟨y, hy, rfl⟩ | ⟨y, hy, -⟩)
      · by_cases hyo : y.id = o.id
        · obtain rfl : y = o := AutoTable.eq_of_key_eq hy hpair.offer hyo
          exact Or.inl horow
        · refine Or.inr ⟨?_, by simpa using hyo⟩
          rwa [hu.offerRow, if_neg fun h => hyo h.symm]
      · rw [hu.newOffer] at hy
        exact absurd hy (by simp)
    · rintro (rfl | ⟨hx, hne⟩)
      · exact Or.inl ⟨o, hpair.offer, horow⟩
      · refine Or.inl ⟨x, hx, ?_⟩
        rw [hu.offerRow, if_neg fun h => hne h.symm]
  · rw [← hprow, UnitOfWork.proposalRow_ordererId]
  · rw [← horow, UnitOfWork.offerRow_proposalId]

/-- The new statuses are the ones the call has prepared. -/
theorem settles_call {ps : ProposalStatus} {os : OfferStatus}
    (hauth : r.call.authenticate w.db = .ok ()) (hbody : r.call.body w.db r.now = .ok u)
    (hu : u.Deals p p' o o') (hpair : w.db.Pair p o) (hps : p'.status = ps) (hos : o'.status = os) :
    ∃ p'' o'', w.db.Rewrites ((service bus).call w r).db p p'' o o'' ∧ p''.status = ps ∧
      o''.status = os := by
  refine ⟨_, _, rewrites_call bus hauth hbody hu hpair, ?_, ?_⟩
  · rw [Proposal.flush_status, col_untouched, hps]
  · rw [Offer.flush_status, col_untouched, hos]

variable {user : User} {orderQuestion runnerQuestion : ℕ} {reason : String}

theorem canRaiseDispute_pair (hps : p.status ∈ [.matched, .orderCompleted])
    (hos : o.status ∈ [.accepted, .runnerCompleted]) :
    p.canRaiseDispute = true ∧ o.canRaiseDispute = true := by
  simp only [Proposal.canRaiseDispute, Offer.canRaiseDispute]
  revert hps hos
  cases p.status <;> cases o.status <;> decide

/-- The orderer of a running errand can raise a dispute. -/
theorem proposalDispute_call (ht : w.Traced)
    (hcan : w.db.CanDispute user orderQuestion runnerQuestion) (hpair : w.db.Pair p o)
    (horderer : p.ordererId = user.id) (hps : p.status ∈ [.matched, .orderCompleted])
    (hos : o.status ∈ [.accepted, .runnerCompleted])
    (hcall : r.call = .proposalDispute p.id user.id orderQuestion reason) :
    ∃ p' o', w.db.Rewrites ((service bus).call w r).db p p' o o' ∧
      p'.status = .disputed ∧ o'.status = .disputed := by
  have hauth : r.call.authenticate w.db = .ok () := by
    rw [hcall]
    refine authenticate_eq_ok.2 ?_
    rintro _ ⟨⟩
    exact ⟨user, hcan.registered, rfl, hcan.active⟩
  have hproposal : ProposalService.getProposal w.db p.id = .ok p :=
    ProposalService.getProposal_eq_ok.2 ⟨hpair.proposal, rfl⟩
  have hexec : ProposalService.getExecutionOffer w.db p.id = .ok o := by
    refine getExecutionOffer_eq ht hpair ?_
    revert hos
    cases o.status <;> decide
  obtain ⟨q, hq⟩ := hcan.orderQuestion
  have hquestion := DisputeSurveyService.ensureActiveQuestion_eq_ok.2 hq
  obtain ⟨hp, ho⟩ := canRaiseDispute_pair hps hos
  have hbody : ∃ u p' o', r.call.body w.db r.now = .ok u ∧ u.Deals p p' o o' ∧
      p'.status = .disputed ∧ o'.status = .disputed := by
    rw [hcall]
    simp only [Call.body, ProposalService.raiseDispute, bind_eq_ok, raiseIf_eq_ok, pure_eq_ok]
    exact ⟨_, _, _, ⟨p, hproposal, (), by simp [horderer], o, hexec, (), by simp [hp, ho], q,
      hquestion, _, Proposal.raiseDispute_eq_ok.2 ⟨hps, rfl⟩, _,
      Offer.raiseDispute_eq_ok.2 ⟨hos, rfl⟩, rfl⟩, ⟨⟨rfl, rfl, rfl, rfl, rfl⟩, rfl, rfl, rfl⟩,
      rfl, rfl⟩
  obtain ⟨u, p', o', hbody, hu, hps', hos'⟩ := hbody
  exact settles_call bus hauth hbody hu hpair hps' hos'

/-- So can its runner. -/
theorem offerDispute_call (hcan : w.db.CanDispute user orderQuestion runnerQuestion)
    (hpair : w.db.Pair p o) (hrunner : o.runnerId = user.id)
    (hps : p.status ∈ [.matched, .orderCompleted]) (hos : o.status ∈ [.accepted, .runnerCompleted])
    (hcall : r.call = .offerDispute o.id user.id runnerQuestion reason) :
    ∃ p' o', w.db.Rewrites ((service bus).call w r).db p p' o o' ∧
      p'.status = .disputed ∧ o'.status = .disputed := by
  have hauth : r.call.authenticate w.db = .ok () := by
    rw [hcall]
    refine authenticate_eq_ok.2 ?_
    rintro _ ⟨⟩
    exact ⟨user, hcan.registered, rfl, hcan.active⟩
  have hoffer : OfferService.getOffer w.db o.id = .ok o :=
    OfferService.getOffer_eq_ok.2 ⟨hpair.offer, rfl⟩
  have hproposal : OfferService.getProposal w.db o.proposalId = .ok p :=
    OfferService.getProposal_eq_ok.2 ⟨hpair.proposal, hpair.proposalId.symm⟩
  obtain ⟨q, hq⟩ := hcan.runnerQuestion
  have hquestion := DisputeSurveyService.ensureActiveQuestion_eq_ok.2 hq
  obtain ⟨hp, ho⟩ := canRaiseDispute_pair hps hos
  have hbody : ∃ u p' o', r.call.body w.db r.now = .ok u ∧ u.Deals p p' o o' ∧
      p'.status = .disputed ∧ o'.status = .disputed := by
    rw [hcall]
    simp only [Call.body, OfferService.raiseDispute, bind_eq_ok, raiseIf_eq_ok, pure_eq_ok]
    exact ⟨_, _, _, ⟨o, hoffer, (), by simp [hrunner], p, hproposal, (), by simp [hp, ho], q,
      hquestion, _, Offer.raiseDispute_eq_ok.2 ⟨hos, rfl⟩, _,
      Proposal.raiseDispute_eq_ok.2 ⟨hps, rfl⟩, rfl⟩, ⟨⟨rfl, rfl, rfl, rfl, rfl⟩, rfl, rfl, rfl⟩,
      rfl, rfl⟩
  obtain ⟨u, p', o', hbody, hu, hps', hos'⟩ := hbody
  exact settles_call bus hauth hbody hu hpair hps' hos'

/-- The administrator can resolve what is disputed. -/
theorem resolve_call (hpair : w.db.Pair p o) (hps : p.status = .disputed)
    (hos : o.status = .disputed) (hcall : r.call = .resolve o.id) :
    ∃ p' o', w.db.Rewrites ((service bus).call w r).db p p' o o' ∧
      p'.status = .resolved ∧ o'.status = .resolved := by
  have hauth : r.call.authenticate w.db = .ok () := by
    rw [hcall]
    rfl
  have hoffer : OfferService.getOffer w.db o.id = .ok o :=
    OfferService.getOffer_eq_ok.2 ⟨hpair.offer, rfl⟩
  have hproposal : OfferService.getProposal w.db o.proposalId = .ok p :=
    OfferService.getProposal_eq_ok.2 ⟨hpair.proposal, hpair.proposalId.symm⟩
  have hbody : ∃ u p' o', r.call.body w.db r.now = .ok u ∧ u.Deals p p' o o' ∧
      p'.status = .resolved ∧ o'.status = .resolved := by
    rw [hcall]
    simp only [Call.body, OfferService.resolve, bind_eq_ok, raiseIf_eq_ok, pure_eq_ok]
    exact ⟨_, _, _, ⟨o, hoffer, p, hproposal, (), by
      simp [Offer.canResolve, Proposal.canResolve, hps, hos], _,
      Offer.resolve_eq_ok.2 ⟨hos, rfl⟩, _, Proposal.resolve_eq_ok.2 ⟨hps, rfl⟩, rfl⟩,
      ⟨⟨rfl, rfl, rfl, rfl, rfl⟩, rfl, rfl, rfl⟩, rfl, rfl⟩
  obtain ⟨u, p', o', hbody, hu, hps', hos'⟩ := hbody
  exact settles_call bus hauth hbody hu hpair hps' hos'

end Calls

/-! ## The plan works -/

section Plan

variable (bus : EventBus) {w : World} {user : User} {orderQuestion runnerQuestion : ℕ}
  {reason : String}

theorem joint_of_traced (ht : w.Traced) : w.db.Joint := fun _ hp => joint_of_shape (ht.shape hp)

/-- The first call of the plan for an errand that nobody disputes yet. -/
theorem dispute_call (ht : w.Traced) (hcan : w.db.CanDispute user orderQuestion runnerQuestion)
    {p : Proposal} {o : Offer} (hpair : w.db.Pair p o) (hengaged : w.db.Engaged user.id o)
    (hps : p.status ∈ [.matched, .orderCompleted]) (hos : o.status ≠ .disputed) {r : Request}
    (hcall : r.call = if o.runnerId = user.id then
        .offerDispute o.id user.id runnerQuestion reason
      else .proposalDispute o.proposalId user.id orderQuestion reason) :
    ∃ p' o', w.db.Rewrites ((service bus).call w r).db p p' o o' ∧
      p'.status = .disputed ∧ o'.status = .disputed := by
  obtain ⟨hstatus, hparty⟩ := hengaged
  have hactive : o.status ∈ [.accepted, .runnerCompleted] := by
    revert hstatus hos
    cases o.status <;> decide
  by_cases hrunner : o.runnerId = user.id
  · rw [if_pos hrunner] at hcall
    exact offerDispute_call bus hcan hpair hrunner hps hactive hcall
  · rw [if_neg hrunner] at hcall
    rcases hparty with hrunner' | ⟨q, hq, hid, horderer⟩
    · exact absurd hrunner' hrunner
    · obtain rfl : q = p :=
        AutoTable.eq_of_key_eq hq hpair.proposal (hid.trans hpair.proposalId)
      rw [hpair.proposalId] at hcall
      exact proposalDispute_call bus ht hcan hpair horderer hps hactive hcall

/-- **One errand is settled** by the calls of the plan. -/
theorem settle_settles (ht : w.Traced) (hcan : w.db.CanDispute user orderQuestion runnerQuestion)
    {o : Offer} (ho : o ∈ w.db.offers) (hengaged : w.db.Engaged user.id o) {rs : List Request}
    (hrs : rs.map Request.call = settle user.id orderQuestion runnerQuestion reason o) :
    ∃ p p' o', w.db.Pair p o ∧ w.db.Rewrites (Runs.run (service bus).call w rs).db p p' o o' ∧
      o'.status = .resolved := by
  obtain ⟨p, hpair⟩ := ht.owned.pair ho
  have hrunning := running_of_pair (joint_of_traced ht) hpair hengaged.1
  unfold settle at hrs
  rcases hrunning with ⟨hos, hps⟩ | ⟨hos, hps⟩
  · rw [if_neg hos] at hrs
    have hboth : ∃ r₁ r₂, rs = [r₁, r₂] ∧ r₂.call = .resolve o.id ∧
        r₁.call = if o.runnerId = user.id then
            .offerDispute o.id user.id runnerQuestion reason
          else .proposalDispute o.proposalId user.id orderQuestion reason := by
      split at hrs
      all_goals
        obtain ⟨r₁, rs₁, rfl, h₁, hrs⟩ := List.map_eq_cons_iff.1 hrs
        obtain ⟨r₂, rs₂, rfl, h₂, hrs⟩ := List.map_eq_cons_iff.1 hrs
        obtain rfl := List.map_eq_nil_iff.1 hrs
        refine ⟨r₁, r₂, rfl, h₂, ?_⟩
        simp_all
    obtain ⟨r₁, r₂, rfl, h₂, h₁⟩ := hboth
    obtain ⟨p₁, o₁, hrew₁, hps₁, hos₁⟩ := dispute_call bus ht hcan hpair hengaged hps hos h₁
    obtain ⟨p₂, o₂, hrew₂, -, hos₂⟩ := resolve_call bus (r := r₂) (hrew₁.pair hpair) hps₁
      hos₁ (by rw [h₂, hrew₁.offerId])
    exact ⟨p, p₂, o₂, hpair, hrew₁.trans hrew₂, hos₂⟩
  · rw [if_pos hos] at hrs
    obtain ⟨r, rs', rfl, hr, hrs⟩ := List.map_eq_cons_iff.1 hrs
    obtain rfl := List.map_eq_nil_iff.1 hrs
    obtain ⟨p₁, o₁, hrew, -, hos₁⟩ := resolve_call bus hpair hps hos hr
    exact ⟨p, p₁, o₁, hpair, hrew, hos₁⟩

/-- Settling one errand leaves the user's other errands as they are. -/
theorem engaged_rewrites {db db' : Db} {uid : UserId} {p p' : Proposal} {o o' x : Offer}
    (h : db.Rewrites db' p p' o o') (hp : p ∈ db.proposals) (hres : o'.status = .resolved) :
    x ∈ db'.offers ∧ db'.Engaged uid x ↔ x ∈ db.offers ∧ db.Engaged uid x ∧ x.id ≠ o.id := by
  have hparty : ∀ y, db'.Engaged uid y ↔ db.Engaged uid y := fun y =>
    and_congr_right fun _ => or_congr_right (h.party_iff hp)
  rw [hparty, h.offers]
  constructor
  · rintro ⟨rfl | ⟨hx, hne⟩, hx'⟩
    · have hs := hx'.1
      rw [hres] at hs
      exact absurd hs (by decide)
    · exact ⟨hx, hx', hne⟩
  · rintro ⟨hx, hx', hne⟩
    exact ⟨Or.inr ⟨hx, hne⟩, hx'⟩

/-- **All errands are settled**, one after the other. -/
theorem settled (os : List Offer) (hos : os.Pairwise fun x y => x.id ≠ y.id) {w : World}
    (ht : w.Traced) (hcan : w.db.CanDispute user orderQuestion runnerQuestion)
    (hengaged : ∀ x, x ∈ os ↔ x ∈ w.db.offers ∧ w.db.Engaged user.id x) {rs : List Request}
    (hrs : rs.map Request.call =
      os.flatMap (settle user.id orderQuestion runnerQuestion reason)) :
    user ∈ (Runs.run (service bus).call w rs).db.users ∧
      ¬ Busy (Runs.run (service bus).call w rs).db user.id := by
  induction os generalizing w rs with
  | nil =>
      obtain rfl := List.map_eq_nil_iff.1 hrs
      refine ⟨hcan.registered, fun hbusy => ?_⟩
      obtain ⟨x, hx, hx'⟩ := (busy_iff (joint_of_traced ht)).1 hbusy
      exact absurd ((hengaged x).2 ⟨hx, hx'⟩) List.not_mem_nil
  | cons o os ih =>
      rw [List.flatMap_cons] at hrs
      obtain ⟨rs₁, rs₂, rfl, h₁, h₂⟩ := List.map_eq_append_iff.1 hrs
      obtain ⟨ho, hoe⟩ := (hengaged o).1 List.mem_cons_self
      obtain ⟨p, p', o', hpair, hrew, hres⟩ := settle_settles bus ht hcan ho hoe h₁
      have ht' : (Runs.run (service bus).call w rs₁).Traced :=
        Runs.inv_run (I := World.Traced) (fun _ r h => traced_call bus h r) ht rs₁
      obtain ⟨hne, hos⟩ := List.pairwise_cons.1 hos
      rw [Runs.run_append]
      refine ih hos ht' (hrew.canDispute hcan) (fun x => ?_) h₂
      rw [engaged_rewrites hrew hpair.proposal hres, ← and_assoc, ← hengaged, List.mem_cons]
      constructor
      · intro hx
        exact ⟨Or.inr hx, fun hid => hne x hx hid.symm⟩
      · rintro ⟨rfl | hx, hid⟩
        · exact absurd rfl hid
        · exact hx

end Plan

/-- **Nobody is trapped.**  From every state the application can reach, an active user who
carries out the plan — disputes about her running errands, which the administrator resolves,
and then the withdrawal — leaves, whatever the clock shows meanwhile. -/
theorem wayOut_leaves (settings : Settings) (bus : EventBus) (m : MasterData)
    (cs : List Command) (orderQuestion runnerQuestion : ℕ) (reason : String) {user : User}
    (hcan : (App.after settings bus m cs).db.CanDispute user orderQuestion runnerQuestion)
    {rs : List Request} (hrs : rs.map Request.call =
      wayOut (App.after settings bus m cs).db user.id orderQuestion runnerQuestion reason) :
    (Runs.run (service bus).call (App.after settings bus m cs) rs).db.NothingLeft user.id := by
  have ht : (App.after settings bus m cs).Traced := App.traced_after m cs
  have hself : (App.after settings bus m cs).db.NoSelfOffer := App.noSelfOffer_after m cs
  obtain ⟨rs₁, rs₂, rfl, h₁, h₂⟩ := List.map_eq_append_iff.1 hrs
  obtain ⟨r, rs', rfl, hr, hnil⟩ := List.map_eq_cons_iff.1 h₂
  obtain rfl := List.map_eq_nil_iff.1 hnil
  have hpairwise : ((App.after settings bus m cs).db.offers.rows.filter fun o =>
      (App.after settings bus m cs).db.Engaged user.id o).Pairwise fun x y => x.id ≠ y.id :=
    (List.pairwise_map.1 (App.after settings bus m cs).db.offers.nodup).filter _
  obtain ⟨huser, hfree⟩ := settled bus _ hpairwise ht hcan
    (fun x => by simp [AutoTable.mem_iff]) h₁
  obtain ⟨ht', hself'⟩ : (Runs.run (service bus).call (App.after settings bus m cs) rs₁).Traced ∧
      (Runs.run (service bus).call (App.after settings bus m cs) rs₁).db.NoSelfOffer :=
    Runs.inv_run (I := fun w : World => w.Traced ∧ w.db.NoSelfOffer)
      (fun _ r h => ⟨traced_call bus h.1 r, noSelfOffer_call bus h.1.owned h.2 r⟩) ⟨ht, hself⟩ rs₁
  rw [Runs.run_append]
  set w := Runs.run (service bus).call (App.after settings bus m cs) rs₁
  have hauth : r.call.authenticate w.db = .ok () := by
    rw [hr]
    refine authenticate_eq_ok.2 ?_
    rintro _ ⟨⟩
    exact ⟨user, huser, rfl, hcan.active⟩
  obtain ⟨u, hbody⟩ := withdrawUser_of_free huser hcan.active hfree hself' r.now
  obtain ⟨v, -, -, -, -, hu⟩ := withdrawUser_eq_ok hbody
  obtain ⟨db, hcommit, hcall⟩ := call_of_body bus hauth (by rw [hr]; exact hbody)
    (by rw [hu]) (by rw [hu])
  have hgone := gone_withdraw hfree hbody hcommit
  have ht'' := traced_call bus ht' r
  show ((service bus).call w r).db.NothingLeft user.id
  rw [hcall] at ht'' ⊢
  exact ht''.nothingLeft hgone

namespace Sample

/-- The town, with a question for each party. -/
def courthouse : MasterData where
  users := master.users
  reasonQuestions := master.reasonQuestions
  surveyQuestions := master.surveyQuestions.insert fun k => ⟨k, .order, true⟩
  verifications := master.verifications
  fcmTokens := master.fcmTokens
  settlementAccounts := master.settlementAccounts

/-- The orderer is waiting for a runner who never comes. -/
def stranded : World := App.after .sample bus courthouse (matched.map .deal)

/-- Her plan, one call after the other. -/
def escape : List Request := (wayOut stranded.db "orderer" 2 1 "no show").mapIdx fun k c =>
  request (k + 6) c

theorem canDispute_stranded : stranded.db.CanDispute (user "orderer") 2 1 where
  registered := by
    have h : user "orderer" ∈ stranded.db.users.rows := by decide +kernel
    exact h
  active := rfl
  orderQuestion := by
    have h : (⟨2, .order, true⟩ : DisputeSurveyQuestion) ∈ stranded.db.surveyQuestions.rows := by
      decide +kernel
    exact ⟨_, h, rfl, rfl, rfl⟩
  runnerQuestion := by
    have h : (⟨1, .runner, true⟩ : DisputeSurveyQuestion) ∈ stranded.db.surveyQuestions.rows := by
      decide +kernel
    exact ⟨_, h, rfl, rfl, rfl⟩

theorem call_escape : escape.map Request.call = wayOut stranded.db "orderer" 2 1 "no show" := by
  have h : escape.map Request.call = (wayOut stranded.db "orderer" 2 1 "no show").map id :=
    map_mapIdx fun _ _ => rfl
  rw [h, List.map_id]

end Sample

theorem wayOut_leaves_stranded : Sample.stranded.db.CanDispute (Sample.user "orderer") 2 1 ∧
    Sample.escape.map Request.call = wayOut Sample.stranded.db "orderer" 2 1 "no show" ∧
    (Runs.run (service Sample.bus).call Sample.stranded Sample.escape).db.NothingLeft "orderer" :=
  ⟨Sample.canDispute_stranded, Sample.call_escape,
    wayOut_leaves .sample Sample.bus Sample.courthouse (Sample.matched.map .deal) 2 1 "no show"
      Sample.canDispute_stranded Sample.call_escape⟩

end OrderRun
