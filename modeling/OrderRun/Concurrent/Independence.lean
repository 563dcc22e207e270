import OrderRun.Lib.Serial
import OrderRun.Concurrent.Matching
import OrderRun.Sequential.Joint
import OrderRun.Sequential.Level

/-!
# Calls about different errands

The services take no row lock, and overlapping calls get in each other's way.  Calls about
different errands do not: what a call reads and what it writes belongs to the errands it is
about, except that a withdrawal also ends the other calls of its user.

* `Call.errands`, `Call.Conflicts` — what a call is about, and which calls must not overlap.
* `UnitOfWork.Within`, `body_within` — a call changes nothing outside its errands.
* `Db.SameTo`, `body_of_same` — what a call reads: two databases that agree on its errands
  are the same to it.
* `framed_service` — a call leaves alone what the calls it does not conflict with have read.
* `interleaving_serial` — an interleaving in which only calls about different errands overlap
  does what its calls do one at a time, in the order of their commits.
* `joint_interleaved` — so the statuses of proposals and offers stay in step, and levels
  count completed offers.
-/

namespace OrderRun

open Store Split

/-! ## What a call is about -/

namespace Call

/-- The errands a call is about. -/
def errands (db : Db) : Call → List ℕ
  | .proposalCreate _ _ => []
  | .proposalUpdate pid _ _ | .proposalCancel pid _ | .confirmPayment pid
  | .confirmReceived pid _ | .proposalDispute pid _ _ _ | .offerCreate pid _
  | .reportCreate pid _ _ => [pid]
  | .offerCancel oid _ | .offerAccept oid _ | .completeDelivery oid _ | .offerDispute oid _ _ _
  | .resolve oid => (db.offers.find? oid).toList.map Offer.proposalId
  | .reportAccept rid | .reportReject rid =>
      (db.reports.find? rid).toList.map ProposalReport.proposalId
  | .withdrawUser uid =>
      (db.proposals.rows.filter fun p => p.ordererId = uid).map Proposal.id ++
        (db.offers.rows.filter fun o => o.runnerId = uid).map Offer.proposalId

/-- Two calls that must not overlap: they are about the same errand, or one of them is the
withdrawal of the user who makes the other. -/
def Conflicts (db : Db) (c c' : Call) : Prop :=
  (∃ pid ∈ c.errands db, pid ∈ c'.errands db) ∨
    ∃ uid, (c = .withdrawUser uid ∧ c'.actor = some uid) ∨
      c' = .withdrawUser uid ∧ c.actor = some uid

/-- A call that names an offer is about its errand. -/
theorem errands_offer {db : Db} {o : Offer} (ho : o ∈ db.offers) :
    (db.offers.find? o.id).toList.map Offer.proposalId = [o.proposalId] := by
  rw [Db.offers_find?.2 ⟨ho, rfl⟩]
  rfl

theorem mem_errands_of_offer {db : Db} {o : Offer} (ho : o ∈ db.offers) :
    o.proposalId ∈ (db.offers.find? o.id).toList.map Offer.proposalId := by
  rw [errands_offer ho]
  exact List.mem_singleton_self _

theorem mem_errands_of_pair {db : Db} {p : Proposal} {o : Offer} (h : db.Pair p o) :
    p.id ∈ (db.offers.find? o.id).toList.map Offer.proposalId :=
  h.proposalId ▸ mem_errands_of_offer h.offer

theorem mem_errands_of_report {db : Db} {r : ProposalReport} (hr : r ∈ db.reports) :
    r.proposalId ∈ (db.reports.find? r.id).toList.map ProposalReport.proposalId := by
  rw [(AutoTable.find?_eq_some_iff (k := r.id)).2 ⟨hr, rfl⟩]
  exact List.mem_singleton_self _

theorem mem_errands_withdrawUser {db : Db} {uid : UserId} {pid : ℕ} :
    pid ∈ errands db (.withdrawUser uid) ↔
      (∃ p ∈ db.proposals, p.ordererId = uid ∧ p.id = pid) ∨
        ∃ o ∈ db.offers, o.runnerId = uid ∧ o.proposalId = pid := by
  simp [errands, AutoTable.mem_iff, and_assoc]

end Call

/-! ## What a call changes -/

/-- Everything a unit of work changes belongs to the errands of its call; what it inserts
belongs to them, or to the user who makes the call. -/
structure UnitOfWork.Within (u : UnitOfWork) (db : Db) (c : Call) : Prop where
  proposals : ∀ x ∈ u.proposals, x.loaded.id ∈ c.errands db
  offers : ∀ x ∈ u.offers, x.loaded ∈ db.offers ∧ x.loaded.proposalId ∈ c.errands db
  reports : ∀ x ∈ u.reports, x.loaded ∈ db.reports ∧ x.loaded.proposalId ∈ c.errands db
  rejectWaiting : ∀ stmt, u.rejectWaiting = some stmt → stmt.proposalId ∈ c.errands db
  newProposal : ∀ p, u.newProposal = some p → c.actor = some p.ordererId
  newOffer : ∀ o, u.newOffer = some o →
    o.proposalId ∈ c.errands db ∧ c.actor = some o.runnerId
  newReport : ∀ r, u.newReport = some r → r.proposalId ∈ c.errands db
  users : ∀ x ∈ u.users, c = .withdrawUser x.loaded.id
  levelUp : ∀ uid, u.levelUp = some uid →
    ∃ o ∈ db.offers, o.runnerId = uid ∧ o.proposalId ∈ c.errands db

section Within

variable {u : UnitOfWork} {db : Db} {c : Call} {p p' : Proposal} {o o' : Offer}

/-- A unit that inserts nothing a call could look for, and changes no user. -/
structure UnitOfWork.Edits (u : UnitOfWork) : Prop where
  newProposal : u.newProposal = none
  newOffer : u.newOffer = none
  newReport : u.newReport = none
  reports : u.reports = []
  users : u.users = []

/-- Such a unit, if it changes one proposal and nothing else. -/
theorem within_proposal (hu : u.Edits) (hp : u.proposals = [⟨p, p'⟩]) (ho : u.offers = [])
    (hl : u.levelUp = none) (hpid : p.id ∈ c.errands db)
    (hreject : ∀ stmt, u.rejectWaiting = some stmt → stmt.proposalId = p.id) : u.Within db c where
  proposals := by simpa [hp] using hpid
  offers := by simp [ho]
  reports := by simp [hu.reports]
  rejectWaiting := fun stmt h => hreject stmt h ▸ hpid
  newProposal := by simp [hu.newProposal]
  newOffer := by simp [hu.newOffer]
  newReport := by simp [hu.newReport]
  users := by simp [hu.users]
  levelUp := by simp [hl]

/-- Such a unit, if it changes one proposal and one of its offers. -/
theorem within_pair (hu : u.Edits) (hp : u.proposals = [⟨p, p'⟩]) (ho : u.offers = [⟨o, o'⟩])
    (hpair : db.Pair p o) (hpid : p.id ∈ c.errands db)
    (hreject : ∀ stmt, u.rejectWaiting = some stmt → stmt.proposalId = p.id)
    (hlevel : ∀ uid, u.levelUp = some uid → o.runnerId = uid) : u.Within db c where
  proposals := by simpa [hp] using hpid
  offers := by simpa [ho, hpair.proposalId] using ⟨hpair.offer, hpid⟩
  reports := by simp [hu.reports]
  rejectWaiting := fun stmt h => hreject stmt h ▸ hpid
  newProposal := by simp [hu.newProposal]
  newOffer := by simp [hu.newOffer]
  newReport := by simp [hu.newReport]
  users := by simp [hu.users]
  levelUp := fun uid h => ⟨o, hpair.offer, hlevel uid h, hpair.proposalId ▸ hpid⟩

/-- A review of a report changes it, and possibly its proposal. -/
theorem within_report {r r' : ProposalReport} (hu : u = { u with
      levelUp := none
      newProposal := none
      newOffer := none
      newReport := none
      offers := []
      reports := [⟨r, r'⟩]
      users := [] })
    (hp : ∀ x ∈ u.proposals, x.loaded.id = r.proposalId) (hr : r ∈ db.reports)
    (hpid : r.proposalId ∈ c.errands db)
    (hreject : ∀ stmt, u.rejectWaiting = some stmt → stmt.proposalId = r.proposalId) :
    u.Within db c where
  proposals := fun x hx => hp x hx ▸ hpid
  offers := by rw [hu]; simp
  reports := by rw [hu]; simpa using ⟨hr, hpid⟩
  rejectWaiting := fun stmt h => hreject stmt h ▸ hpid
  newProposal := by rw [hu]; simp
  newOffer := by rw [hu]; simp
  newReport := by rw [hu]; simp
  users := by rw [hu]; simp
  levelUp := by rw [hu]; simp

open UserWithdrawalService in
theorem within_withdraw {uid : UserId} {user : User} {purge : Option Purge} {user' : User}
    (hid : user.id = uid)
    (hu : u = {
      purge := purge
      proposals := (openProposals db uid).map cancelledProposal
      offers := (waitingOffers db ((openProposals db uid).map (·.id)) ++
        runnerOffers db uid).map cancelledOffer
      users := [⟨user, user'⟩] }) : u.Within db (.withdrawUser uid) where
  proposals := by
    intro x hx
    rw [hu] at hx
    obtain ⟨p, hp, rfl⟩ := List.mem_map.1 hx
    obtain ⟨hmem, hselected⟩ := List.mem_filter.1 hp
    exact Call.mem_errands_withdrawUser.2 (Or.inl ⟨p, hmem, (of_decide_eq_true hselected).1, rfl⟩)
  offers := by
    intro x hx
    rw [hu] at hx
    obtain ⟨o, ho, rfl⟩ := List.mem_map.1 hx
    refine ⟨(waiting_of_mem_withdrawn ho).1, ?_⟩
    rcases List.mem_append.1 ho with ho | ho
    · -- an offer on one of the user's errands
      obtain ⟨p, hp, hpid⟩ := List.mem_map.1 (of_decide_eq_true (List.mem_filter.1 ho).2).1
      obtain ⟨hmem, hselected⟩ := List.mem_filter.1 hp
      exact Call.mem_errands_withdrawUser.2
        (Or.inl ⟨p, hmem, (of_decide_eq_true hselected).1, hpid⟩)
    · obtain ⟨hmem, hselected⟩ := List.mem_filter.1 ho
      exact Call.mem_errands_withdrawUser.2
        (Or.inr ⟨o, hmem, (of_decide_eq_true hselected).1, rfl⟩)
  reports := by rw [hu]; simp
  rejectWaiting := by rw [hu]; simp
  newProposal := by rw [hu]; simp
  newOffer := by rw [hu]; simp
  newReport := by rw [hu]; simp
  users := by rw [hu]; simp [hid]
  levelUp := by rw [hu]; simp

/-- **A call changes nothing outside its errands.** -/
theorem body_within {now : Readings} (h : c.body db now = .ok u) : u.Within db c := by
  cases c with
  | proposalCreate request uid =>
      obtain ⟨p, hown, -, -, -, -, -, -, rfl⟩ := ProposalService.create_eq_ok h
      exact {
        proposals := by simp
        offers := by simp
        reports := by simp
        rejectWaiting := by simp
        newProposal := by simp [Call.actor, hown]
        newOffer := by simp
        newReport := by simp
        users := by simp
        levelUp := by simp }
  | proposalUpdate pid request uid =>
      obtain ⟨p, -, rfl, -, -, rfl⟩ := ProposalService.update_eq_ok h
      exact within_proposal ⟨rfl, rfl, rfl, rfl, rfl⟩ rfl rfl rfl List.mem_cons_self (by simp)
  | proposalCancel pid uid =>
      obtain ⟨p, -, rfl, -, -, rfl⟩ := ProposalService.cancel_eq_ok h
      refine within_proposal ⟨rfl, rfl, rfl, rfl, rfl⟩ rfl rfl rfl List.mem_cons_self ?_
      intro stmt hstmt
      by_cases hs : p.status = .offered
      · obtain rfl := Option.some.inj ((if_pos hs).symm.trans hstmt)
        rfl
      · exact absurd ((if_neg hs).symm.trans hstmt) (by simp)
  | confirmPayment pid =>
      obtain ⟨p, -, rfl, -, rfl⟩ := ProposalService.confirmPayment_eq_ok h
      exact within_proposal ⟨rfl, rfl, rfl, rfl, rfl⟩ rfl rfl rfl List.mem_cons_self (by simp)
  | confirmReceived pid uid =>
      obtain ⟨p, o, hpair, rfl, -, -, ⟨-, _, rfl⟩ | ⟨-, _, rfl⟩⟩ :=
        ProposalService.confirmReceived_eq_ok h
      · exact within_pair ⟨rfl, rfl, rfl, rfl, rfl⟩ rfl rfl hpair List.mem_cons_self (by simp)
          (by simp)
      · exact within_pair ⟨rfl, rfl, rfl, rfl, rfl⟩ rfl rfl hpair List.mem_cons_self (by simp)
          (by simp)
  | proposalDispute pid uid qid reason =>
      obtain ⟨p, o, hpair, rfl, -, -, -, _, rfl⟩ := ProposalService.raiseDispute_eq_ok h
      exact within_pair ⟨rfl, rfl, rfl, rfl, rfl⟩ rfl rfl hpair List.mem_cons_self (by simp)
        (by simp)
  | offerCreate pid uid =>
      obtain ⟨p, -, rfl, -, -, -, _, rfl⟩ := OfferService.create_eq_ok h
      exact {
        proposals := by simp [Call.errands]
        offers := by simp
        reports := by simp
        rejectWaiting := by simp
        newProposal := by simp
        newOffer := by simp [Call.errands, Call.actor, Offer.create]
        newReport := by simp
        users := by simp
        levelUp := by simp }
  | offerCancel oid uid =>
      obtain ⟨o, ho, rfl, -, -, rfl⟩ := OfferService.cancel_eq_ok h
      have herrands := Call.errands_offer ho
      exact {
        proposals := by simp
        offers := by simpa [Call.errands, herrands] using ho
        reports := by simp
        rejectWaiting := by simp
        newProposal := by simp
        newOffer := by simp
        newReport := by simp
        users := by simp
        levelUp := by simp }
  | offerAccept oid uid =>
      obtain ⟨p, o, hpair, rfl, -, -, -, -, _, rfl⟩ := OfferService.accept_eq_ok h
      exact within_pair ⟨rfl, rfl, rfl, rfl, rfl⟩ rfl rfl hpair (Call.mem_errands_of_pair hpair)
        (by simp) (by simp)
  | completeDelivery oid uid =>
      obtain ⟨p, o, hpair, rfl, -, -, ⟨-, _, rfl⟩ | ⟨-, _, rfl⟩⟩ :=
        OfferService.completeDelivery_eq_ok h
      · exact within_pair ⟨rfl, rfl, rfl, rfl, rfl⟩ rfl rfl hpair (Call.mem_errands_of_pair hpair)
          (by simp) (by simp)
      · exact within_pair ⟨rfl, rfl, rfl, rfl, rfl⟩ rfl rfl hpair (Call.mem_errands_of_pair hpair)
          (by simp) (by simp)
  | offerDispute oid uid qid reason =>
      obtain ⟨p, o, hpair, rfl, -, -, -, _, rfl⟩ := OfferService.raiseDispute_eq_ok h
      exact within_pair ⟨rfl, rfl, rfl, rfl, rfl⟩ rfl rfl hpair (Call.mem_errands_of_pair hpair)
        (by simp) (by simp)
  | resolve oid =>
      obtain ⟨p, o, hpair, rfl, -, -, rfl⟩ := OfferService.resolve_eq_ok h
      exact within_pair ⟨rfl, rfl, rfl, rfl, rfl⟩ rfl rfl hpair (Call.mem_errands_of_pair hpair)
        (by simp) (by simp)
  | reportCreate pid uid request =>
      obtain ⟨p, -, -, -, -, r, hpid, -, -, -, rfl⟩ := ProposalReportService.create_eq_ok h
      exact {
        proposals := by simp
        offers := by simp
        reports := by simp
        rejectWaiting := by simp
        newProposal := by simp
        newOffer := by simp
        newReport := by simp [Call.errands, hpid]
        users := by simp
        levelUp := by simp }
  | reportAccept rid =>
      obtain ⟨p, -, r, hr, rfl, hpid, -, ⟨-, rfl⟩ | ⟨-, rfl⟩⟩ :=
        ProposalReportService.accept_eq_ok h
      · exact within_report rfl (by simp [hpid]) hr (Call.mem_errands_of_report hr)
          (by simp [hpid])
      · exact within_report rfl (by simp [hpid]) hr (Call.mem_errands_of_report hr) (by simp)
  | reportReject rid =>
      obtain ⟨r, hr, rfl, -, rfl⟩ := ProposalReportService.reject_eq_ok h
      exact within_report rfl (by simp) hr (Call.mem_errands_of_report hr) (by simp)
  | withdrawUser uid =>
      obtain ⟨user, -, hid, -, -, hu⟩ := UserWithdrawalService.withdrawUser_eq_ok h
      exact within_withdraw hid hu

end Within

/-! ## What a call reads -/

/-- Two databases that are the same to a call: to its errands, to the questions, and to the
user who makes it. -/
structure Db.SameTo (db db' : Db) (c : Call) : Prop where
  proposals : ∀ p ∈ db.proposals, p.id ∈ c.errands db → p ∈ db'.proposals
  offers : db'.offers.rows.filter (fun o => o.proposalId ∈ c.errands db) =
    db.offers.rows.filter fun o => o.proposalId ∈ c.errands db
  reports : ∀ r ∈ db.reports, r.proposalId ∈ c.errands db → r ∈ db'.reports
  reasonQuestions : db'.reasonQuestions = db.reasonQuestions
  surveyQuestions : db'.surveyQuestions = db.surveyQuestions
  actor : ∀ user ∈ db.users, c.actor = some user.id → user.deleted = false →
    ∃ user' ∈ db'.users, user'.id = user.id ∧ user'.deleted = false
  /-- A withdrawal reads everything that is the user's. -/
  own : ∀ uid, c = .withdrawUser uid → (∀ user ∈ db.users, user.id = uid → user ∈ db'.users) ∧
    db'.proposals.rows.filter (fun p => p.ordererId = uid) =
      db.proposals.rows.filter (fun p => p.ordererId = uid) ∧
    db'.offers.rows.filter (fun o => o.runnerId = uid) =
      db.offers.rows.filter fun o => o.runnerId = uid

/-- A query that asks for less. -/
theorem filter_narrow {α : Type*} {l l' : List α} {P Q : α → Bool} (h : l'.filter P = l.filter P)
    (hQ : ∀ a, Q a = true → P a = true) : l'.filter Q = l.filter Q := by
  have hboth : ∀ as : List α, as.filter Q = (as.filter P).filter Q := by
    intro as
    rw [List.filter_filter]
    refine List.filter_congr fun a _ => ?_
    cases hq : Q a with
    | false => rfl
    | true => rw [hQ a hq]; rfl
  rw [hboth l', hboth l, h]

namespace Db.SameTo

variable {db db' : Db} {c : Call}

theorem mem_offers_iff (h : db.SameTo db' c) {o : Offer} (hpid : o.proposalId ∈ c.errands db) :
    o ∈ db'.offers ↔ o ∈ db.offers := by
  have hmem : ∀ os : List Offer,
      o ∈ os ↔ o ∈ os.filter fun o => o.proposalId ∈ c.errands db := by
    intro os
    rw [List.mem_filter, and_iff_left (decide_eq_true hpid)]
  rw [AutoTable.mem_iff, AutoTable.mem_iff, hmem, h.offers, ← hmem]

theorem exists_offer_iff (h : db.SameTo db' c) {pid : ℕ} (hpid : pid ∈ c.errands db)
    {P : Offer → Prop} : (∃ o ∈ db'.offers.rows, o.proposalId = pid ∧ P o) ↔
      ∃ o ∈ db.offers.rows, o.proposalId = pid ∧ P o := by
  refine exists_congr fun o => and_congr_left fun ho => ?_
  exact h.mem_offers_iff (ho.1 ▸ hpid)

theorem offersOf (h : db.SameTo db' c) (pid : ℕ) (hpid : pid ∈ c.errands db) :
    db'.offersOf pid = db.offersOf pid := by
  refine filter_narrow h.offers fun o ho => ?_
  rw [of_decide_eq_true ho]
  exact decide_eq_true hpid

theorem getExecutionOffer (h : db.SameTo db' c) (pid : ℕ) (hpid : pid ∈ c.errands db) :
    ProposalService.getExecutionOffer db' pid = ProposalService.getExecutionOffer db pid := by
  unfold ProposalService.getExecutionOffer Table.firstBy
  congr 2
  refine congrArg _ (filter_narrow h.offers fun o ho => ?_)
  rw [(of_decide_eq_true ho).1]
  exact decide_eq_true hpid

end Db.SameTo

section Reads

variable {db db' : Db} {c : Call} {now : Readings} {u : UnitOfWork}

theorem authenticate_of_same (h : db.SameTo db' c) (hauth : c.authenticate db = .ok ()) :
    c.authenticate db' = .ok () := by
  rw [authenticate_eq_ok] at hauth ⊢
  intro uid hactor
  obtain ⟨user, huser, rfl, hactive⟩ := hauth uid hactor
  obtain ⟨user', huser', hid, hactive'⟩ := h.actor user huser hactor hactive
  exact ⟨user', huser', hid, hactive'⟩

/-- What an offer names is there in both databases. -/
theorem Db.SameTo.pair (h : db.SameTo db' c) {p : Proposal} {o : Offer} (ho : o ∈ db.offers)
    (hp : p ∈ db.proposals) (hpid : p.id = o.proposalId) (herrand : o.proposalId ∈ c.errands db) :
    o ∈ db'.offers ∧ p ∈ db'.proposals :=
  ⟨(h.mem_offers_iff herrand).2 ho, h.proposals p hp (hpid ▸ herrand)⟩

open UserWithdrawalService in
theorem withdrawUser_of_same {uid : UserId} (h : db.SameTo db' (.withdrawUser uid))
    (hbody : withdrawUser db uid now = .ok u) : withdrawUser db' uid now = .ok u := by
  obtain ⟨husers, hproposals, hoffers⟩ := h.own uid rfl
  have hopen : openProposals db' uid = openProposals db uid :=
    filter_narrow hproposals fun p hp => decide_eq_true (of_decide_eq_true hp).1
  have hrunner : runnerOffers db' uid = runnerOffers db uid :=
    filter_narrow hoffers fun o ho => decide_eq_true (of_decide_eq_true ho).1
  have hwaiting : waitingOffers db' ((openProposals db uid).map (·.id)) =
      waitingOffers db ((openProposals db uid).map (·.id)) := by
    refine filter_narrow h.offers fun o ho => decide_eq_true ?_
    obtain ⟨p, hp, hpid⟩ := List.mem_map.1 (of_decide_eq_true ho).1
    obtain ⟨hmem, hselected⟩ := List.mem_filter.1 hp
    exact Call.mem_errands_withdrawUser.2 (Or.inl ⟨p, hmem, (of_decide_eq_true hselected).1, hpid⟩)
  have hblocking : hasBlockingActivity db' uid = hasBlockingActivity db uid := by
    have hp : (∃ p ∈ db'.proposals.rows, p.ordererId = uid ∧
          p.status ∈ WITHDRAWAL_BLOCKING_PROPOSAL_STATUSES) ↔
        ∃ p ∈ db.proposals.rows, p.ordererId = uid ∧
          p.status ∈ WITHDRAWAL_BLOCKING_PROPOSAL_STATUSES := by
      simpa [and_assoc] using congrArg (fun ps : List Proposal =>
        ∃ p ∈ ps, p.status ∈ WITHDRAWAL_BLOCKING_PROPOSAL_STATUSES) hproposals
    have ho : (∃ o ∈ db'.offers.rows, o.runnerId = uid ∧
          o.status ∈ WITHDRAWAL_BLOCKING_OFFER_STATUSES) ↔
        ∃ o ∈ db.offers.rows, o.runnerId = uid ∧
          o.status ∈ WITHDRAWAL_BLOCKING_OFFER_STATUSES := by
      simpa [and_assoc] using congrArg (fun os : List Offer =>
        ∃ o ∈ os, o.status ∈ WITHDRAWAL_BLOCKING_OFFER_STATUSES) hoffers
    exact decide_eq_decide.2 (or_congr hp ho)
  unfold withdrawUser autoCancelPreMatchActivity at hbody ⊢
  simp only [bind_eq_ok, ProposalService.getExistingUser_eq_ok] at hbody ⊢
  obtain ⟨user, ⟨huser, rfl, hactive⟩, rest⟩ := hbody
  refine ⟨user, ⟨husers user huser rfl, rfl, hactive⟩, ?_⟩
  rw [hblocking, hopen, hrunner, hwaiting]
  exact rest

/-- **What a call reads**: databases that are the same to it prepare the same unit of work. -/
theorem body_of_same (h : db.SameTo db' c) (hbody : c.body db now = .ok u) :
    c.body db' now = .ok u := by
  cases c with
  | proposalCreate request uid =>
      simp only [Call.body, ProposalService.create, bind_eq_ok,
        ProposalService.getExistingUser_eq_ok] at hbody ⊢
      obtain ⟨user, ⟨huser, rfl, hactive⟩, rest⟩ := hbody
      obtain ⟨user', huser', hid, hactive'⟩ := h.actor user huser rfl hactive
      exact ⟨user', ⟨huser', hid, hactive'⟩, rest⟩
  | proposalUpdate pid request uid =>
      simp only [Call.body, ProposalService.update, bind_eq_ok,
        ProposalService.getProposal_eq_ok] at hbody ⊢
      obtain ⟨p, ⟨hp, rfl⟩, rest⟩ := hbody
      exact ⟨p, ⟨h.proposals p hp List.mem_cons_self, rfl⟩, rest⟩
  | proposalCancel pid uid =>
      simp only [Call.body, ProposalService.cancel, bind_eq_ok,
        ProposalService.getProposal_eq_ok] at hbody ⊢
      obtain ⟨p, ⟨hp, rfl⟩, rest⟩ := hbody
      exact ⟨p, ⟨h.proposals p hp List.mem_cons_self, rfl⟩, rest⟩
  | confirmPayment pid =>
      simp only [Call.body, ProposalService.confirmPayment, bind_eq_ok,
        ProposalService.getProposal_eq_ok] at hbody ⊢
      obtain ⟨p, ⟨hp, rfl⟩, rest⟩ := hbody
      exact ⟨p, ⟨h.proposals p hp List.mem_cons_self, rfl⟩, rest⟩
  | confirmReceived pid uid =>
      simp only [Call.body, ProposalService.confirmReceived, bind_eq_ok,
        ProposalService.getProposal_eq_ok] at hbody ⊢
      obtain ⟨p, ⟨hp, rfl⟩, rest⟩ := hbody
      have hexec := h.getExecutionOffer p.id List.mem_cons_self
      refine ⟨p, ⟨h.proposals p hp List.mem_cons_self, rfl⟩, ?_⟩
      rw [hexec]
      exact rest
  | proposalDispute pid uid qid reason =>
      simp only [Call.body, ProposalService.raiseDispute, bind_eq_ok,
        ProposalService.getProposal_eq_ok] at hbody ⊢
      obtain ⟨p, ⟨hp, rfl⟩, rest⟩ := hbody
      have hexec := h.getExecutionOffer p.id List.mem_cons_self
      refine ⟨p, ⟨h.proposals p hp List.mem_cons_self, rfl⟩, ?_⟩
      rw [hexec]
      simp only [DisputeSurveyService.ensureActiveQuestion, h.surveyQuestions]
      exact rest
  | offerCreate pid uid =>
      simp only [Call.body, OfferService.create, bind_eq_ok, OfferService.getProposal_eq_ok,
        raiseIf_eq_ok] at hbody ⊢
      obtain ⟨p, ⟨hp, rfl⟩, x, hself, y, hopen, z, hdup, rest⟩ := hbody
      have hdup' := hdup
      rw [← h.exists_offer_iff List.mem_cons_self] at hdup'
      exact ⟨p, ⟨h.proposals p hp List.mem_cons_self, rfl⟩, x, hself, y, hopen, z, hdup', rest⟩
  | offerCancel oid uid =>
      simp only [Call.body, OfferService.cancel, bind_eq_ok, OfferService.getOffer_eq_ok]
        at hbody ⊢
      obtain ⟨o, ⟨ho, rfl⟩, rest⟩ := hbody
      exact ⟨o, ⟨(h.mem_offers_iff (Call.mem_errands_of_offer ho)).2 ho, rfl⟩, rest⟩
  | offerAccept oid uid =>
      simp only [Call.body, OfferService.accept, bind_eq_ok, OfferService.getOffer_eq_ok,
        OfferService.getProposal_eq_ok, raiseIf_eq_ok] at hbody ⊢
      obtain ⟨o, ⟨ho, rfl⟩, p, ⟨hp, hpid⟩, x, horderer, y, hwaiting, z, hactive, rest⟩ := hbody
      have herrand := Call.mem_errands_of_offer ho
      obtain ⟨ho', hp'⟩ := h.pair ho hp hpid herrand
      have hactive' := hactive
      rw [← h.exists_offer_iff (hpid ▸ herrand)] at hactive'
      refine ⟨o, ⟨ho', rfl⟩, p, ⟨hp', hpid⟩, x, horderer, y, hwaiting, z, hactive', ?_⟩
      rw [h.offersOf p.id (hpid ▸ herrand)]
      exact rest
  | completeDelivery oid uid =>
      simp only [Call.body, OfferService.completeDelivery, bind_eq_ok,
        OfferService.getOffer_eq_ok, OfferService.getProposal_eq_ok] at hbody ⊢
      obtain ⟨o, ⟨ho, rfl⟩, x, hrunner, p, ⟨hp, hpid⟩, rest⟩ := hbody
      obtain ⟨ho', hp'⟩ := h.pair ho hp hpid (Call.mem_errands_of_offer ho)
      exact ⟨o, ⟨ho', rfl⟩, x, hrunner, p, ⟨hp', hpid⟩, rest⟩
  | offerDispute oid uid qid reason =>
      simp only [Call.body, OfferService.raiseDispute, bind_eq_ok,
        OfferService.getOffer_eq_ok, OfferService.getProposal_eq_ok] at hbody ⊢
      obtain ⟨o, ⟨ho, rfl⟩, x, hrunner, p, ⟨hp, hpid⟩, rest⟩ := hbody
      obtain ⟨ho', hp'⟩ := h.pair ho hp hpid (Call.mem_errands_of_offer ho)
      refine ⟨o, ⟨ho', rfl⟩, x, hrunner, p, ⟨hp', hpid⟩, ?_⟩
      simp only [DisputeSurveyService.ensureActiveQuestion, h.surveyQuestions]
      exact rest
  | resolve oid =>
      simp only [Call.body, OfferService.resolve, bind_eq_ok,
        OfferService.getOffer_eq_ok, OfferService.getProposal_eq_ok] at hbody ⊢
      obtain ⟨o, ⟨ho, rfl⟩, p, ⟨hp, hpid⟩, rest⟩ := hbody
      obtain ⟨ho', hp'⟩ := h.pair ho hp hpid (Call.mem_errands_of_offer ho)
      exact ⟨o, ⟨ho', rfl⟩, p, ⟨hp', hpid⟩, rest⟩
  | reportCreate pid uid request =>
      simp only [Call.body, ProposalReportService.create, bind_eq_ok,
        ProposalReportService.getProposal_eq_ok] at hbody ⊢
      obtain ⟨p, ⟨hp, rfl⟩, rest⟩ := hbody
      refine ⟨p, ⟨h.proposals p hp List.mem_cons_self, rfl⟩, ?_⟩
      simp only [ProposalReportService.getActiveReasonQuestion, h.reasonQuestions]
      exact rest
  | reportAccept rid =>
      simp only [Call.body, ProposalReportService.accept, ProposalReportService.getReport,
        bind_eq_ok, orRaise_eq_ok, AutoTable.find?_eq_some_iff,
        ProposalReportService.getProposal_eq_ok] at hbody ⊢
      obtain ⟨r, ⟨hr, rfl⟩, x, hpending, p, ⟨hp, hpid⟩, rest⟩ := hbody
      have herrand := Call.mem_errands_of_report hr
      exact ⟨r, ⟨h.reports r hr herrand, rfl⟩, x, hpending, p,
        ⟨h.proposals p hp (hpid ▸ herrand), hpid⟩, rest⟩
  | reportReject rid =>
      simp only [Call.body, ProposalReportService.reject, ProposalReportService.getReport,
        bind_eq_ok, orRaise_eq_ok, AutoTable.find?_eq_some_iff] at hbody ⊢
      obtain ⟨r, ⟨hr, rfl⟩, rest⟩ := hbody
      exact ⟨r, ⟨h.reports r hr (Call.mem_errands_of_report hr), rfl⟩, rest⟩
  | withdrawUser uid => exact withdrawUser_of_same h hbody

end Reads

/-! ## Calls that do not conflict -/

section Frame

variable {bus : EventBus} {db db' : Db} {c c' : Call} {u : UnitOfWork} {t : DateTime}

/-- Rewriting and inserting rows that a query does not select. -/
theorem filter_written {α : Type*} {l new : List α} {f : α → α} {P : α → Bool}
    (hP : ∀ a ∈ l, P (f a) = P a) (hf : ∀ a ∈ l, P a = true → f a = a)
    (hnew : ∀ a ∈ new, P a = false) : (l.map f ++ new).filter P = l.filter P := by
  have hnone : new.filter P = [] := List.filter_eq_nil_iff.2 fun a ha => by simp [hnew a ha]
  have hold : (l.map f).filter P = (l.filter P).map f := by
    rw [List.filter_map]
    exact congrArg _ (List.filter_congr hP)
  rw [List.filter_append, hnone, List.append_nil, hold]
  refine (List.map_congr_left fun a ha => ?_).trans (List.map_id _)
  exact hf a (List.mem_filter.1 ha).1 (List.mem_filter.1 ha).2

/-- An errand that a call is not about keeps its row. -/
theorem proposalRow_of_foreign (hu : u.Within db c) {p : Proposal} (hp : p.id ∉ c.errands db) :
    u.proposalRow t p = p :=
  writeBack_of_notMem fun x hx (hid : x.loaded.id = p.id) => hp (hid ▸ hu.proposals x hx)

theorem reportRow_of_foreign (hu : u.Within db c) {r : ProposalReport} (hr : r ∈ db.reports)
    (hpid : r.proposalId ∉ c.errands db) : u.reportRow r = r := by
  refine writeBack_of_notMem fun x hx hid => hpid ?_
  obtain ⟨hmem, herrand⟩ := hu.reports x hx
  obtain rfl : x.loaded = r := AutoTable.eq_of_key_eq hmem hr hid
  exact herrand

/-- So do its offers. -/
theorem offerRow_of_foreign (hu : u.Within db c) {o : Offer} (ho : o ∈ db.offers)
    (hpid : o.proposalId ∉ c.errands db) : u.offerRow t o = o := by
  have hreject : u.rejectRow t o = o := by
    unfold UnitOfWork.rejectRow
    split
    · rfl
    · next stmt hstmt =>
        unfold RejectWaiting.row
        rw [if_neg]
        rintro ⟨hselected, -⟩
        exact hpid (hselected ▸ hu.rejectWaiting stmt hstmt)
  unfold UnitOfWork.offerRow
  rw [hreject]
  refine writeBack_of_notMem fun x hx hid => hpid ?_
  obtain ⟨hmem, herrand⟩ := hu.offers x hx
  obtain rfl : x.loaded = o := AutoTable.eq_of_key_eq hmem ho hid
  exact herrand

/-- A call that does not conflict with another one leaves it what it has read. -/
theorem sameTo_commit (hu : u.Within db c) (hcommit : u.commit t db bus = .ok db')
    (hc : ¬ c.Conflicts db c') : db.SameTo db' c' := by
  obtain ⟨notifications, rfl⟩ := UnitOfWork.commit_same hcommit
  have herrand : ∀ pid ∈ c'.errands db, pid ∉ c.errands db :=
    fun pid h' h => hc (Or.inl ⟨pid, h, h'⟩)
  have hleaves : ∀ x ∈ u.users, c'.actor ≠ some x.loaded.id :=
    fun x hx h => hc (Or.inr ⟨_, Or.inl ⟨hu.users x hx, h⟩⟩)
  have hoffers : (u.write t db).offers.rows =
      db.offers.rows.map (u.offerRow t) ++ (u.newOffer.toList.map fun o =>
        { o with id := db.offers.next, createdAt := t, updatedAt := t }) := by
    unfold UnitOfWork.write
    cases u.newOffer <;> simp [AutoTable.add]
  have hproposals : (u.write t db).proposals.rows =
      db.proposals.rows.map (u.proposalRow t) ++ (u.newProposal.toList.map fun p =>
        { p with id := db.proposals.next, createdAt := t, updatedAt := t }) := by
    unfold UnitOfWork.write
    cases u.newProposal <;> simp [AutoTable.add]
  refine ⟨?_, ?_, ?_, rfl, rfl, ?_, ?_⟩
  · intro p hp hpid
    exact UnitOfWork.mem_proposals_write.2
      (Or.inl ⟨p, hp, proposalRow_of_foreign hu (herrand _ hpid)⟩)
  · rw [hoffers]
    refine filter_written (fun o _ => by simp) ?_ ?_
    · intro o ho hpid
      exact offerRow_of_foreign hu ho (herrand _ (of_decide_eq_true hpid))
    · intro o ho
      obtain ⟨new, hnew, rfl⟩ := List.mem_map.1 ho
      have herr := (hu.newOffer new (Option.mem_toList.1 hnew)).1
      exact decide_eq_false fun h => herrand _ h herr
  · intro r hr hpid
    exact UnitOfWork.mem_reports_write.2
      (Or.inl ⟨r, hr, reportRow_of_foreign hu hr (herrand _ hpid)⟩)
  · intro user huser hactor hactive
    have hrow : u.userRow user = u.levelRow user := by
      refine UnitOfWork.userRow_of_ne fun x hx hid => hleaves x hx ?_
      rw [hid, hactor]
    refine ⟨u.userRow user, List.mem_map_of_mem huser, u.userRow_id user, ?_⟩
    rw [hrow]
    unfold UnitOfWork.levelRow
    split <;> exact hactive
  · rintro uid rfl
    have hactor : c.actor ≠ some uid := fun h => hc (Or.inr ⟨uid, Or.inr ⟨rfl, h⟩⟩)
    refine ⟨?_, ?_, ?_⟩
    · rintro user huser rfl
      refine List.mem_map.2 ⟨user, huser, ?_⟩
      rw [UnitOfWork.userRow_of_ne fun x hx hid => hleaves x hx (by rw [hid]; rfl)]
      unfold UnitOfWork.levelRow
      rw [if_neg]
      intro hlevel
      obtain ⟨o, ho, hrunner, herr⟩ := hu.levelUp user.id hlevel
      exact herrand _ (Call.mem_errands_withdrawUser.2 (Or.inr ⟨o, ho, hrunner, rfl⟩)) herr
    · show List.filter _ (u.write t db).proposals.rows = _
      rw [hproposals]
      refine filter_written (fun p _ => by simp) ?_ ?_
      · intro p hp hown
        refine proposalRow_of_foreign hu (herrand _ ?_)
        exact Call.mem_errands_withdrawUser.2 (Or.inl ⟨p, hp, of_decide_eq_true hown, rfl⟩)
      · intro p hp
        obtain ⟨new, hnew, rfl⟩ := List.mem_map.1 hp
        have hmaker := hu.newProposal new (Option.mem_toList.1 hnew)
        exact decide_eq_false fun h => hactor (h ▸ hmaker)
    · show List.filter _ (u.write t db).offers.rows = _
      rw [hoffers]
      refine filter_written (fun o _ => by simp) ?_ ?_
      · intro o ho hrunner
        refine offerRow_of_foreign hu ho (herrand _ ?_)
        exact Call.mem_errands_withdrawUser.2 (Or.inr ⟨o, ho, of_decide_eq_true hrunner, rfl⟩)
      · intro o ho
        obtain ⟨new, hnew, rfl⟩ := List.mem_map.1 ho
        have hmaker := (hu.newOffer new (Option.mem_toList.1 hnew)).2
        exact decide_eq_false fun h => hactor (h ▸ hmaker)

end Frame

/-! ## Interleavings -/

/-- Requests conflict if their calls do. -/
def Request.Conflicts (w : World) (r r' : Request) : Prop := r.call.Conflicts w.db r'.call

/-- **A request leaves alone what the requests it does not conflict with have read.** -/
theorem framed_service (bus : EventBus) : (service bus).Framed Request.Conflicts := by
  intro w w' r r' u u' hr hcommit hconflict hr'
  obtain ⟨-, hbody⟩ := service_read_eq_ok.1 hr
  obtain ⟨hauth', hbody'⟩ := service_read_eq_ok.1 hr'
  obtain ⟨db, hdb, rfl⟩ := service_commit_eq_ok.1 hcommit
  have hsame := sameTo_commit (body_within hbody) hdb hconflict
  exact service_read_eq_ok.2 ⟨authenticate_of_same hsame hauth', body_of_same hsame hbody'⟩

/-- **Calls about different errands are independent.**  In an interleaving in which no call
commits while a call that conflicts with it is pending, the committed state is the one that
the committed calls leave one at a time, in the order of their commits. -/
theorem interleaving_serial (bus : EventBus) (m : MasterData) {es : List (Event Request)}
    (h : Runs.Along (service bus).step (Service.Alone Request.Conflicts)
      (State.quiet (World.initial m)) es) :
    (Runs.run (service bus).step (State.quiet (World.initial m)) es).now =
      World.after bus m ((service bus).committing (State.quiet (World.initial m)) es) :=
  Service.run_serial (framed_service bus) (Service.fresh_quiet _) h

namespace Sample

/-- Two errands are posted, paid for and applied for at the same time. -/
def twoErrands : List (Event Request) := [
  .read 1 (request 1 (.proposalCreate errand "orderer")),
  .read 2 (request 2 (.proposalCreate errand "rival")),
  .commit 1, .commit 2,
  .read 2 (request 3 (.confirmPayment 2)),
  .read 1 (request 4 (.confirmPayment 1)),
  .commit 1, .commit 2,
  .read 1 (request 5 (.offerCreate 1 "runner")),
  .read 2 (request 6 (.offerCreate 2 "runner")),
  .commit 2, .commit 1]

/-- The calls of the two transactions. -/
def ownErrand (tid : ℕ) (r : Request) : Prop :=
  (∃ uid, r.call = .proposalCreate errand uid) ∨ r.call = .confirmPayment tid ∨
    ∃ uid, r.call = .offerCreate tid uid

theorem apart_ownErrand : Service.Apart Request.Conflicts ownErrand := by
  rintro tid tid' r r' w hne h h'
  have herrands : ∀ {k : ℕ} {x : Request}, ownErrand k x →
      ∀ pid ∈ x.call.errands w.db, pid = k := by
    rintro k x (⟨uid, hx⟩ | hx | ⟨uid, hx⟩) pid hpid <;> simp_all [Call.errands]
  have hstays : ∀ {k : ℕ} {x : Request}, ownErrand k x → ∀ uid, x.call ≠ .withdrawUser uid := by
    rintro k x (⟨uid, hx⟩ | hx | ⟨uid, hx⟩) uid' <;> simp [hx]
  rintro (⟨pid, hpid, hpid'⟩ | ⟨uid, ⟨hx, -⟩ | ⟨hx, -⟩⟩)
  · exact hne ((herrands h pid hpid).symm.trans (herrands h' pid hpid'))
  · exact hstays h uid hx
  · exact hstays h' uid hx

theorem alone_twoErrands : Runs.Along (service bus).step (Service.Alone Request.Conflicts)
    (State.quiet (World.initial master)) twoErrands := by
  refine Service.along_alone apart_ownErrand (fun tid r u hp => absurd hp (by simp)) ?_
  intro tid r hr
  simp only [twoErrands, List.mem_cons, Event.read.injEq, List.not_mem_nil, reduceCtorEq,
    false_or, or_false] at hr
  rcases hr with ⟨rfl, rfl⟩ | ⟨rfl, rfl⟩ | ⟨rfl, rfl⟩ | ⟨rfl, rfl⟩ | ⟨rfl, rfl⟩ | ⟨rfl, rfl⟩ <;>
    simp [ownErrand, request]

end Sample

theorem interleaving_serial_twoErrands :
    (Runs.run (service Sample.bus).step (State.quiet (World.initial Sample.master))
        Sample.twoErrands).now =
      World.after Sample.bus Sample.master ((service Sample.bus).committing
        (State.quiet (World.initial Sample.master)) Sample.twoErrands) :=
  interleaving_serial Sample.bus Sample.master Sample.alone_twoErrands

/-- **What overlapping cannot break**: statuses stay in step, no errand has two offers in
execution, and levels count completed offers, as long as only calls about different errands
overlap. -/
theorem joint_interleaved (bus : EventBus) (m : MasterData)
    (hlevel : ∀ user ∈ m.users, user.level = 0) {es : List (Event Request)}
    (h : Runs.Along (service bus).step (Service.Alone Request.Conflicts)
      (State.quiet (World.initial m)) es) :
    Runs.Always (service bus).step
      (fun s => s.now.db.Joint ∧ s.now.db.SingleExecution ∧ s.now.db.LevelsCount)
      (State.quiet (World.initial m)) es := by
  refine Service.always_of_serial (framed_service bus) (P := fun w =>
    w.db.Joint ∧ w.db.SingleExecution ∧ w.db.LevelsCount) (fun rs => ?_) h
  have ht := traced_after bus m rs
  refine ⟨fun p hp => joint_of_shape (ht.shape hp), ?_, ?_⟩
  · exact singleExecution_after bus m rs
  · refine Runs.inv_run (I := fun w : World => w.db.LevelsCount)
      (fun _ r h => level_call bus h r) ?_ rs
    intro user huser
    exact hlevel user huser

theorem joint_interleaved_twoErrands : (∀ user ∈ Sample.master.users, user.level = 0) ∧
    Runs.Always (service Sample.bus).step
      (fun s => s.now.db.Joint ∧ s.now.db.SingleExecution ∧ s.now.db.LevelsCount)
      (State.quiet (World.initial Sample.master)) Sample.twoErrands :=
  have hlevel : ∀ user ∈ Sample.master.users.rows, user.level = 0 := by decide
  ⟨hlevel, joint_interleaved Sample.bus Sample.master hlevel Sample.alone_twoErrands⟩

end OrderRun
