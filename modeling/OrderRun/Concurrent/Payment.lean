import OrderRun.Concurrent.Commits
import OrderRun.Deal.Refinement

/-!
# What was paid for

An errand is published when its payment is confirmed, and an edit sends it back to
`HOLDING` to be paid for anew.  This file asks when, if calls run concurrently, the
terms of every published errand are the ones of its last confirmed payment.

* `Proposal.terms`, `Proposal.Published` — what is paid for, and since when it counts.
* `World.PaidTerms` — every published proposal has the terms it had in the state its
  last successful `confirm_payment` committed.
* `World.Edited`, `Call.movesOn` — a proposal has been edited since it was paid for; from
  where a call moves a published proposal on.
* `body_terms` — which calls change terms, and which publish.
* `World.Accounted` — what payments and edits leave on record, in every interleaving.
* `paidTerms_of_covered` — the terms are the paid ones if edits and moves commit while
  what they have read of the proposal still allows them.
-/

namespace OrderRun

open Store Split

/-! ## Terms and payments -/

/-- What the orderer pays for. -/
def Proposal.terms (p : Proposal) : ProposalRequest :=
  ⟨p.title, p.content, p.deadline, p.errandFee⟩

/-- Neither waiting for its payment nor cancelled. -/
def Proposal.Published (p : Proposal) : Prop := p.status ∉ [.holding, .cancelled]

/-- The most recent successful `confirm_payment` of a proposal. -/
def World.lastPayment (w : World) (pid : ℕ) : Option Entry :=
  w.log.find? fun e => e.request.call = .confirmPayment pid

/-- The last payment has left the proposal with these terms. -/
def World.PaidFor (w : World) (pid : ℕ) (terms : ProposalRequest) : Prop :=
  ∃ e, w.lastPayment pid = some e ∧ ∃ p ∈ e.committed.proposals, p.id = pid ∧ p.terms = terms

/-- Every published proposal has the terms of its last payment. -/
def World.PaidTerms (w : World) : Prop :=
  ∀ p ∈ w.db.proposals, p.Published → w.PaidFor p.id p.terms

/-- The proposal a call edits, and the terms it asks for. -/
def Call.edit : Call → Option (ℕ × ProposalRequest)
  | .proposalUpdate pid request _ => some (pid, request)
  | _ => none

def Call.Edits (pid : ℕ) (call : Call) : Prop := ∃ x ∈ call.edit, x.1 = pid

instance (pid : ℕ) (call : Call) : Decidable (call.Edits pid) :=
  inferInstanceAs (Decidable (∃ x ∈ call.edit, x.1 = pid))

/-- The proposal has been edited since its last payment. -/
def World.Edited (w : World) (pid : ℕ) : Prop :=
  ∃ e ∈ w.log.takeWhile (fun e => e.request.call ≠ .confirmPayment pid), e.request.call.Edits pid

instance (w : World) (pid : ℕ) : Decidable (w.Edited pid) :=
  inferInstanceAs (Decidable (∃ e ∈ w.log.takeWhile _, e.request.call.Edits pid))

/-- The statuses a call moves a published proposal on from. -/
def Call.movesOn : Call → List ProposalStatus
  | .offerCreate _ _ => [.posted]
  | .offerAccept _ _ => [.offered]
  | .confirmReceived _ _ => [.matched]
  | .completeDelivery _ _ => [.orderCompleted]
  | .proposalDispute _ _ _ _ | .offerDispute _ _ _ _ => [.matched, .orderCompleted]
  | .resolve _ => [.disputed]
  | .reportAccept _ => [.posted, .offered]
  | _ => []

section Flush

variable {assigned : Bool} {loaded dirty row : Proposal} {t : DateTime}

/-- Writing back the terms that are there changes none. -/
theorem terms_flush_of_same (h : dirty.terms = row.terms) :
    (Proposal.flush assigned loaded dirty t row).terms = row.terms := by
  simp only [Proposal.terms, ProposalRequest.mk.injEq] at h
  obtain ⟨htitle, hcontent, hdeadline, hfee⟩ := h
  simp only [Proposal.terms, Proposal.flush_title, Proposal.flush_content, Proposal.flush_deadline,
    Proposal.flush_errandFee, ProposalRequest.mk.injEq]
  refine ⟨col_eq_iff.2 (Or.inr htitle), col_eq_iff.2 (Or.inr hcontent), ?_,
    col_eq_iff.2 (Or.inr hfee)⟩
  split
  · exact hdeadline
  · exact col_eq_iff.2 (Or.inr hdeadline)

/-- Neither does an object whose terms no method has assigned. -/
theorem terms_flush_of_unchanged (hassigned : assigned = false) (h : dirty.terms = loaded.terms) :
    (Proposal.flush assigned loaded dirty t row).terms = row.terms := by
  simp only [Proposal.terms, ProposalRequest.mk.injEq] at h
  obtain ⟨htitle, hcontent, hdeadline, hfee⟩ := h
  simp only [Proposal.terms, Proposal.flush_title, Proposal.flush_content, Proposal.flush_deadline,
    Proposal.flush_errandFee, ProposalRequest.mk.injEq, hassigned, if_neg Bool.false_ne_true]
  exact ⟨col_eq_iff.2 (Or.inl htitle), col_eq_iff.2 (Or.inl hcontent),
    col_eq_iff.2 (Or.inl hdeadline), col_eq_iff.2 (Or.inl hfee)⟩

end Flush

/-! ## What a call does to the terms -/

@[simp] theorem Call.edits_iff {pid : ℕ} {call : Call} :
    call.Edits pid ↔ ∃ request uid, call = .proposalUpdate pid request uid := by
  cases call <;> simp [Call.Edits, Call.edit]

/-- A call that is neither an edit nor a payment keeps the terms, and publishes nothing but
what it has read published. -/
structure KeepsTerms (call : Call) (u : UnitOfWork) (c : Change Proposal) : Prop where
  deadline : u.deadlineAssigned = false
  terms : c.dirty.terms = c.loaded.terms
  published : c.dirty.status ≠ c.loaded.status → c.dirty.Published →
    c.loaded.status ∈ call.movesOn

/-- Nothing is moved on that is not published. -/
theorem published_of_movesOn {call : Call} {p : Proposal} (h : p.status ∈ call.movesOn) :
    p.Published := by
  have hall : ∀ s ∈ call.movesOn, s ∉ [ProposalStatus.holding, .cancelled] := by
    cases call <;> simp [Call.movesOn]
  exact hall p.status h

/-- **What a call does to the terms of a proposal.** -/
theorem body_terms {call : Call} {db : Db} {now : Readings} {u : UnitOfWork}
    (h : call.body db now = .ok u) {c : Change Proposal} (hc : c ∈ u.proposals) :
    (call = .confirmPayment c.loaded.id ∧ u.deadlineAssigned = false ∧
        c.dirty.terms = c.loaded.terms) ∨
      (∃ request uid, call = .proposalUpdate c.loaded.id request uid ∧
        c.dirty.status = .holding ∧ c.dirty.terms = request) ∨ KeepsTerms call u c := by
  -- every other call moves a published proposal on, or cancels one
  have hkeep : ∀ {p p' : Proposal}, u.proposals = [⟨p, p'⟩] → u.deadlineAssigned = false →
      p'.terms = p.terms →
      (p'.status ≠ p.status → p'.Published → p.status ∈ call.movesOn) → KeepsTerms call u c := by
    intro p p' hu hassigned hterms hpub
    rw [hu, List.mem_singleton] at hc
    rw [hc]
    exact ⟨hassigned, hterms, hpub⟩
  cases call with
  | proposalCreate request uid =>
      obtain ⟨p, -, -, -, -, -, -, -, rfl⟩ := ProposalService.create_eq_ok h
      exact absurd hc List.not_mem_nil
  | proposalUpdate pid request uid =>
      obtain ⟨p, hp, rfl, -, hs, rfl⟩ := ProposalService.update_eq_ok h
      rw [List.mem_singleton] at hc
      rw [hc]
      exact Or.inr (Or.inl ⟨request, uid, rfl, rfl, rfl⟩)
  | proposalCancel pid uid =>
      obtain ⟨p, hp, rfl, -, hs, rfl⟩ := ProposalService.cancel_eq_ok h
      exact Or.inr (Or.inr (hkeep rfl rfl rfl (by simp [Proposal.Published])))
  | confirmPayment pid =>
      obtain ⟨p, hp, rfl, hs, rfl⟩ := ProposalService.confirmPayment_eq_ok h
      rw [List.mem_singleton] at hc
      rw [hc]
      exact Or.inl ⟨rfl, rfl, rfl⟩
  | confirmReceived pid uid =>
      obtain ⟨p, o, hpair, rfl, -, hps, hcases⟩ := ProposalService.confirmReceived_eq_ok h
      rcases hcases with ⟨hos, event, rfl⟩ | ⟨hos, event, rfl⟩ <;>
        exact Or.inr (Or.inr (hkeep rfl rfl rfl fun _ _ => by simp [Call.movesOn, hps]))
  | proposalDispute pid uid qid reason =>
      obtain ⟨p, o, hpair, rfl, -, hps, hos, event, rfl⟩ := ProposalService.raiseDispute_eq_ok h
      exact Or.inr (Or.inr (hkeep rfl rfl rfl fun _ _ => by simpa [Call.movesOn] using hps))
  | offerCreate pid uid =>
      obtain ⟨p, hp, rfl, -, hs, -, event, rfl⟩ := OfferService.create_eq_ok h
      refine Or.inr (Or.inr (hkeep rfl rfl rfl fun hne _ => ?_))
      exact List.mem_singleton.2 (hs.resolve_right fun hoffered => hne hoffered.symm)
  | offerCancel oid uid =>
      obtain ⟨o, ho, rfl, -, hs, rfl⟩ := OfferService.cancel_eq_ok h
      exact absurd hc List.not_mem_nil
  | offerAccept oid uid =>
      obtain ⟨p, o, hpair, rfl, -, hos, hps, -, event, rfl⟩ := OfferService.accept_eq_ok h
      exact Or.inr (Or.inr (hkeep rfl rfl rfl fun _ _ => by simp [Call.movesOn, hps]))
  | completeDelivery oid uid =>
      obtain ⟨p, o, hpair, rfl, -, hos, hcases⟩ := OfferService.completeDelivery_eq_ok h
      rcases hcases with ⟨hps, event, rfl⟩ | ⟨hps, event, rfl⟩
      · exact Or.inr (Or.inr (hkeep rfl rfl rfl fun hne => absurd rfl hne))
      · exact Or.inr (Or.inr (hkeep rfl rfl rfl fun _ _ => by simp [Call.movesOn, hps]))
  | offerDispute oid uid qid reason =>
      obtain ⟨p, o, hpair, rfl, -, hos, hps, event, rfl⟩ := OfferService.raiseDispute_eq_ok h
      exact Or.inr (Or.inr (hkeep rfl rfl rfl fun _ _ => by simpa [Call.movesOn] using hps))
  | resolve oid =>
      obtain ⟨p, o, hpair, rfl, hos, hps, rfl⟩ := OfferService.resolve_eq_ok h
      exact Or.inr (Or.inr (hkeep rfl rfl rfl fun _ _ => by simp [Call.movesOn, hps]))
  | reportCreate pid uid request =>
      obtain ⟨p, -, -, -, -, report, -, -, -, -, rfl⟩ := ProposalReportService.create_eq_ok h
      exact absurd hc List.not_mem_nil
  | reportAccept rid =>
      obtain ⟨p, hp, report, -, rfl, -, -, hcases⟩ := ProposalReportService.accept_eq_ok h
      rcases hcases with ⟨hs, rfl⟩ | ⟨hs, rfl⟩
      · exact Or.inr (Or.inr (hkeep rfl rfl rfl fun _ _ => hs))
      · exact Or.inr (Or.inr (hkeep rfl rfl rfl fun hne => absurd rfl hne))
  | reportReject rid =>
      obtain ⟨report, -, -, -, rfl⟩ := ProposalReportService.reject_eq_ok h
      exact absurd hc List.not_mem_nil
  | withdrawUser uid =>
      obtain ⟨user, -, -, -, -, rfl⟩ := UserWithdrawalService.withdrawUser_eq_ok h
      obtain ⟨p, -, rfl⟩ := List.mem_map.1 hc
      refine Or.inr (Or.inr ⟨rfl, rfl, fun _ hpub => absurd ?_ hpub⟩)
      simp [UserWithdrawalService.cancelledProposal]

/-! ## What is on record -/

/-- What payments and edits leave on record. -/
structure World.Accounted (w : World) : Prop where
  /-- Nothing that was committed has been removed. -/
  extends_db : ∀ e ∈ w.log, e.committed.Extends w.db
  /-- Whatever is published has been paid for once. -/
  paid : ∀ p ∈ w.db.proposals, p.Published → ∃ terms, w.PaidFor p.id terms
  /-- What has not been edited since has the terms of its last payment. -/
  unedited : ∀ p ∈ w.db.proposals, ¬ w.Edited p.id → ∀ terms, w.PaidFor p.id terms →
    terms = p.terms

/-- No proposal disappears, and no payment. -/
structure World.Accrues (w w' : World) : Prop where
  extends_db : w.db.Extends w'.db
  paid : ∀ pid terms, w.PaidFor pid terms → ∃ terms', w'.PaidFor pid terms'

/-- What a commit must find of each proposal it has loaded.  An edit that has read `HOLDING`
finds the proposal unpublished, or asks for the terms it has; a call that moves a published
proposal on finds it published, or not edited since its last payment. -/
def Covered (w : World) (r : Request) (u : UnitOfWork) : Prop :=
  ∀ c ∈ u.proposals, ∀ p ∈ w.db.proposals, p.id = c.loaded.id →
    (∀ x ∈ r.call.edit, c.loaded.status = .holding → p.Published → x.2 = p.terms) ∧
      (c.loaded.status ∈ r.call.movesOn → p.Published ∨ ¬ w.Edited p.id)

instance (p : Proposal) : Decidable p.Published := inferInstanceAs (Decidable (_ ∉ _))

instance (w : World) (r : Request) (u : UnitOfWork) : Decidable (Covered w r u) :=
  inferInstanceAs (Decidable (∀ c ∈ u.proposals, ∀ p ∈ w.db.proposals.rows, p.id = c.loaded.id →
    (∀ x ∈ r.call.edit, c.loaded.status = .holding → p.Published → x.2 = p.terms) ∧
      (c.loaded.status ∈ r.call.movesOn → p.Published ∨ ¬ w.Edited p.id)))

section Commit

variable {bus : EventBus} {w₀ w w' : World} {r : Request} {u : UnitOfWork}

theorem lastPayment_commit (hc : (service bus).commit w r u = .ok w') (pid : ℕ) :
    w'.lastPayment pid =
      if r.call = .confirmPayment pid then some ⟨r, u, w'.db⟩ else w.lastPayment pid := by
  obtain ⟨-, -, -, hlog⟩ := commit_tables hc
  rw [World.lastPayment, hlog, List.find?_cons]
  split
  · next h => rw [if_pos (of_decide_eq_true h)]
  · next h => rw [if_neg (of_decide_eq_false h), World.lastPayment]

theorem paidFor_commit (hc : (service bus).commit w r u = .ok w') {pid : ℕ}
    (hne : r.call ≠ .confirmPayment pid) {terms : ProposalRequest} :
    w'.PaidFor pid terms ↔ w.PaidFor pid terms := by
  rw [World.PaidFor, lastPayment_commit hc, if_neg hne, World.PaidFor]

/-- A payment puts on record the terms it commits. -/
theorem paidFor_payment (hc : (service bus).commit w r u = .ok w') {p' : Proposal}
    (hp' : p' ∈ w'.db.proposals) (hcall : r.call = .confirmPayment p'.id)
    {terms : ProposalRequest} : w'.PaidFor p'.id terms ↔ terms = p'.terms := by
  rw [World.PaidFor, lastPayment_commit hc, if_pos hcall]
  constructor
  · rintro ⟨e, he, q, hq, hid, rfl⟩
    obtain rfl := Option.some.inj he
    rw [AutoTable.eq_of_key_eq hq hp' hid]
  · rintro rfl
    exact ⟨_, rfl, p', hp', rfl, rfl⟩

theorem edited_commit (hc : (service bus).commit w r u = .ok w') {pid : ℕ} :
    w'.Edited pid ↔ r.call ≠ .confirmPayment pid ∧ (r.call.Edits pid ∨ w.Edited pid) := by
  obtain ⟨-, -, -, hlog⟩ := commit_tables hc
  rw [World.Edited, hlog, List.takeWhile_cons, World.Edited]
  by_cases hcall : r.call = .confirmPayment pid <;> simp [hcall]

/-- New proposals are not published. -/
theorem not_published_new (hbody : r.call.body w₀.db r.now = .ok u) {q p : Proposal}
    (hq : u.newProposal = some q) (hst : p.status = q.status) : ¬ p.Published := by
  rcases (body_inserts hbody).1 with hnone | ⟨request, uid, q', -, hq', hholding, -⟩
  · rw [hnone] at hq
    exact absurd hq (by simp)
  · rw [hq, Option.some.injEq] at hq'
    rw [Proposal.Published, hst, hq', hholding]
    simp

/-- Only edits write terms. -/
theorem terms_proposalRow (hbody : r.call.body w₀.db r.now = .ok u) {p : Proposal}
    (hedit : ¬ r.call.Edits p.id) (t : DateTime) : (u.proposalRow t p).terms = p.terms := by
  rcases writeBack_cases
    (fun loaded dirty row => Proposal.flush u.deadlineAssigned loaded dirty t row) u.proposals p
    with ⟨-, he⟩ | ⟨c, hcu, hid, he⟩
  · rw [UnitOfWork.proposalRow, he]
  · rw [UnitOfWork.proposalRow, he]
    have hcid : c.loaded.id = p.id := hid
    rcases body_terms hbody hcu with ⟨-, hassigned, hterms⟩ | ⟨request, uid, hcall, -⟩ | hkeep
    · exact terms_flush_of_unchanged hassigned hterms
    · exact absurd (Call.edits_iff.2 ⟨request, uid, by rw [hcall, hcid]⟩) hedit
    · exact terms_flush_of_unchanged hkeep.deadline hkeep.terms

/-- **How a proposal comes to be published**: it was before, it is paid for, or a call moves it
on that has read it published. -/
theorem published_proposalRow (hbody : r.call.body w₀.db r.now = .ok u) {p : Proposal}
    {t : DateTime} (h : (u.proposalRow t p).Published) :
    p.Published ∨ r.call = .confirmPayment p.id ∨
      ∃ c ∈ u.proposals, c.loaded.id = p.id ∧ c.loaded.status ∈ r.call.movesOn := by
  rcases writeBack_cases
    (fun loaded dirty row => Proposal.flush u.deadlineAssigned loaded dirty t row) u.proposals p
    with ⟨-, he⟩ | ⟨c, hcu, hid, he⟩
  · rw [UnitOfWork.proposalRow, he] at h
    exact Or.inl h
  · have hcid : c.loaded.id = p.id := hid
    rw [UnitOfWork.proposalRow, he, Proposal.Published, Proposal.flush_status] at h
    by_cases hst : c.dirty.status = c.loaded.status
    · -- the status is not written
      rw [hst, col_unchanged] at h
      exact Or.inl h
    · rw [col_of_ne hst] at h
      rcases body_terms hbody hcu with ⟨hcall, -⟩ | ⟨request, uid, -, hholding, -⟩ | hkeep
      · exact Or.inr (Or.inl (by rw [hcall, hcid]))
      · exact absurd (by simp [hholding]) h
      · exact Or.inr (Or.inr ⟨c, hcu, hcid, hkeep.published hst h⟩)

/-- **An edit that leaves a proposal published** has read it as `HOLDING`, and finds it
published. -/
theorem edit_proposalRow {p : Proposal} {request : ProposalRequest} {uid : UserId} {t : DateTime}
    (hcall : r.call = .proposalUpdate p.id request uid) (hbody : r.call.body w₀.db r.now = .ok u)
    (h : (u.proposalRow t p).Published) : p.Published ∧ ∃ c ∈ u.proposals, c.loaded.id = p.id ∧
      c.loaded.status = .holding ∧ (request = p.terms → (u.proposalRow t p).terms = p.terms) := by
  rw [hcall] at hbody
  obtain ⟨q, -, hid, -, -, hu⟩ := ProposalService.update_eq_ok hbody
  have hprops := congrArg UnitOfWork.proposals hu
  rw [proposalRow_of_single hprops, if_pos hid] at h ⊢
  rw [Proposal.Published, Proposal.flush_status] at h
  have hholding : q.status = .holding := by
    by_contra hne
    rw [col_of_ne fun he => hne he.symm] at h
    exact absurd h (by simp)
  rw [hholding, col_unchanged] at h
  refine ⟨h, _, by rw [hprops]; exact List.mem_singleton_self _, hid, hholding, fun hrequest => ?_⟩
  exact terms_flush_of_same hrequest

/-- Payments stay on record. -/
theorem paid_commit (hbody : r.call.body w₀.db r.now = .ok u) (hR : w₀.db.Extends w.db)
    (hc : (service bus).commit w r u = .ok w') {pid : ℕ} {terms : ProposalRequest}
    (h : w.PaidFor pid terms) : ∃ terms', w'.PaidFor pid terms' := by
  by_cases hcall : r.call = .confirmPayment pid
  · rw [hcall] at hbody
    obtain ⟨p₀, hp₀, rfl, -⟩ := ProposalService.confirmPayment_eq_ok hbody
    obtain ⟨p', hp', hid, -⟩ := (hR.trans (extends_service hc)).proposals p₀ hp₀
    rw [← hid] at hcall ⊢
    exact ⟨p'.terms, (paidFor_payment hc hp' hcall).2 rfl⟩
  · exact ⟨terms, (paidFor_commit hc hcall).2 h⟩

/-- **One commit** keeps what is on record. -/
theorem accounted_commit (h₀ : w₀.Accounted) (hbody : r.call.body w₀.db r.now = .ok u)
    (hR : w₀.Accrues w) (h : w.Accounted) (hc : (service bus).commit w r u = .ok w') :
    w'.Accounted := by
  obtain ⟨-, -, -, hlog⟩ := commit_tables hc
  have hextends : ∀ e ∈ w'.log, e.committed.Extends w'.db := by
    rw [hlog]
    intro e he
    rcases List.mem_cons.1 he with rfl | he
    · exact Db.Extends.refl _
    · exact (h.extends_db e he).trans (extends_service hc)
  refine ⟨hextends, ?_, ?_⟩
  · intro p' hp' hpub
    rcases of_mem_proposals_commit hc hp' with ⟨p, hp, rfl⟩ | ⟨q, hq, hst, -⟩
    · rw [u.proposalRow_id]
      rcases published_proposalRow hbody hpub with hpp | hcall | ⟨c, hcu, hid, hmoves⟩
      · obtain ⟨terms, hpaid⟩ := h.paid p hp hpp
        exact paid_commit hbody hR.extends_db hc hpaid
      · rw [← u.proposalRow_id r.now.flush p] at hcall ⊢
        exact ⟨_, (paidFor_payment hc hp' hcall).2 rfl⟩
      · -- it was published when the call read it, and is paid for since then
        obtain ⟨terms, hpaid⟩ := h₀.paid c.loaded ((body_prepared hbody).proposals c hcu).1
          (published_of_movesOn hmoves)
        rw [hid] at hpaid
        obtain ⟨terms', hpaid'⟩ := hR.paid p.id terms hpaid
        exact paid_commit hbody hR.extends_db hc hpaid'
    · exact absurd hpub (not_published_new hbody hq hst)
  · intro p' hp' hedited terms hpaid
    rcases of_mem_proposals_commit hc hp' with ⟨p, hp, rfl⟩ | ⟨q, hq, -, hid⟩
    · by_cases hcall : r.call = .confirmPayment p.id
      · rw [← u.proposalRow_id r.now.flush p] at hcall
        exact (paidFor_payment hc hp' hcall).1 hpaid
      · rw [u.proposalRow_id, edited_commit hc, not_and, not_or] at hedited
        obtain ⟨hedit, hedited⟩ := hedited hcall
        rw [u.proposalRow_id, paidFor_commit hc hcall] at hpaid
        rw [terms_proposalRow hbody hedit, h.unedited p hp hedited terms hpaid]
    · -- no payment on record is of a proposal that was not there yet
      by_cases hcall : r.call = .confirmPayment p'.id
      · exact (paidFor_payment hc hp' hcall).1 hpaid
      · obtain ⟨e, he, q', hq', hqid, -⟩ := (paidFor_commit hc hcall).1 hpaid
        obtain ⟨q'', hq'', hid', -⟩ :=
          (h.extends_db e (List.mem_of_find?_eq_some he)).proposals q' hq'
        have hlt : q''.id < w.db.proposals.next := AutoTable.lt_next hq''
        omega

theorem sound_accounted (bus : EventBus) : (service bus).Sound World.Accounted World.Accrues
    fun _ => True where
  refl := fun w => ⟨Db.Extends.refl w.db, fun _ terms h => ⟨terms, h⟩⟩
  trans := by
    rintro w₁ w₂ w₃ h h'
    refine ⟨h.extends_db.trans h'.extends_db, fun pid terms hpaid => ?_⟩
    obtain ⟨terms', hpaid'⟩ := h.paid pid terms hpaid
    exact h'.paid pid terms' hpaid'
  commit := by
    rintro w₀ w w' r u - h₀ hread hR h hc
    have hbody := (service_read_eq_ok.1 hread).2
    exact ⟨accounted_commit h₀ hbody hR h hc, extends_service hc,
      fun _ _ hpaid => paid_commit hbody hR.extends_db hc hpaid⟩

/-- **One commit** keeps the terms paid for if it is covered. -/
theorem paidTerms_commit (hbody : r.call.body w₀.db r.now = .ok u) (h : w.Accounted)
    (h' : w'.Accounted) (hP : w.PaidTerms) (hcov : Covered w r u)
    (hc : (service bus).commit w r u = .ok w') : w'.PaidTerms := by
  intro p' hp' hpub
  rcases of_mem_proposals_commit hc hp' with ⟨p, hp, rfl⟩ | ⟨q, hq, hst, -⟩
  · by_cases hcall : r.call = .confirmPayment p.id
    · rw [← u.proposalRow_id r.now.flush p] at hcall
      exact (paidFor_payment hc hp' hcall).2 rfl
    · obtain ⟨terms', hpaid'⟩ := h'.paid _ hp' hpub
      rw [u.proposalRow_id, paidFor_commit hc hcall] at hpaid' ⊢
      by_cases hedit : r.call.Edits p.id
      · obtain ⟨request, uid, hupdate⟩ := Call.edits_iff.1 hedit
        obtain ⟨hpp, c, hcu, hid, hholding, hterms⟩ := edit_proposalRow hupdate hbody hpub
        have hasked : (p.id, request) ∈ r.call.edit := by rw [hupdate]; rfl
        rw [hterms ((hcov c hcu p hp hid.symm).1 _ hasked hholding hpp)]
        exact hP p hp hpp
      · rw [terms_proposalRow hbody hedit]
        rcases published_proposalRow hbody hpub with hpp | hpay | ⟨c, hcu, hid, hmoves⟩
        · exact hP p hp hpp
        · exact absurd hpay hcall
        · rcases (hcov c hcu p hp hid.symm).2 hmoves with hpp | hedited
          · exact hP p hp hpp
          · rwa [← h.unedited p hp hedited terms' hpaid']
  · exact absurd hpub (not_published_new hbody hq hst)

end Commit

/-! ## Whole interleavings -/

/-- A commit on the state its read has seen is covered. -/
theorem covered_call {bus : EventBus} {w : World} {r : Request} {u : UnitOfWork}
    (hread : (service bus).read w r = .ok u) : Covered w r u := by
  have hbody := (service_read_eq_ok.1 hread).2
  intro c hcu p hp hid
  -- the row is still the one that was loaded
  obtain rfl : p = c.loaded :=
    AutoTable.eq_of_key_eq hp ((body_prepared hbody).proposals c hcu).1 hid
  refine ⟨fun _ _ hholding hpp => ?_, fun hmoves => Or.inl (published_of_movesOn hmoves)⟩
  exact absurd hpp (by simp [Proposal.Published, hholding])

/-- Before the first call nothing is on record. -/
theorem accounted_initial (m : MasterData) : (World.initial m).Accounted where
  extends_db := fun _ he => absurd he List.not_mem_nil
  paid := fun _ hp => absurd hp List.not_mem_nil
  unedited := fun _ hp => absurd hp List.not_mem_nil

/-- Covered commits keep the terms paid for, from any state in which they are. -/
theorem paidTerms_run (bus : EventBus) {w : World} (hw : w.Accounted) (hP : w.PaidTerms)
    {es : List (Event Request)}
    (hes : Runs.Along (service bus).step ((service bus).Commits Covered) (State.quiet w) es) :
    Runs.Always (service bus).step (fun x => x.now.PaidTerms) (State.quiet w) es :=
  Service.always_of_commits (sound_accounted bus)
    (fun _ h₀ hread hR h hP hc hcov => paidTerms_commit (service_read_eq_ok.1 hread).2 h
      ((sound_accounted bus).commit trivial h₀ hread hR h hc).1 hP hcov hc)
    hw hP (fun e _ => e.calls_true) hes

/-- Executed one at a time, calls keep the terms paid for. -/
theorem paidTerms_after (bus : EventBus) (m : MasterData) (rs : List Request) :
    (World.after bus m rs).Accounted ∧ (World.after bus m rs).PaidTerms := by
  have hcalls : ∀ e ∈ rs.flatMap fun r => [Event.read 0 r, .commit 0], e.Calls fun _ => True :=
    fun e _ => e.calls_true
  have hinv := (sound_accounted bus).inv_run (s := World.initial m) (accounted_initial m) hcalls
  have hterms := paidTerms_run bus (accounted_initial m) (fun _ hp => absurd hp List.not_mem_nil)
    (Service.along_commits_calls (fun hread _ => covered_call hread) (World.initial m) rs)
  have hlast := (Runs.always_last hinv).1
  have hlast' := Runs.always_last hterms
  rw [after_interleaved] at hlast hlast'
  exact ⟨hlast, hlast'⟩

/-- **What recruits is what was paid for.**  Start from any reachable database and interleave
the read and commit steps of any calls: in every committed state every published proposal has
the terms of its last confirmed payment, if every edit that has read it `HOLDING` commits while
it is unpublished or asks for the terms it has, and every call that moves it on commits while
it is published or has not been edited since its last payment. -/
theorem paidTerms_of_covered (bus : EventBus) (m : MasterData) (rs : List Request)
    {es : List (Event Request)} (hes : Runs.Along (service bus).step
      ((service bus).Commits Covered) (State.quiet (World.after bus m rs)) es) :
    Runs.Always (service bus).step (fun x => x.now.PaidTerms)
      (State.quiet (World.after bus m rs)) es :=
  paidTerms_run bus (paidTerms_after bus m rs).1 (paidTerms_after bus m rs).2 hes

/-- A runner applies while the orderer edits the errand, which is paid for anew. -/
def Sample.earlyEdit : List (Event Request) := [
  .read 0 (request 3 (.proposalUpdate 1 ⟨"errand", "bring a piano", 100000, 9000⟩ "orderer")),
  .read 1 (request 4 (.offerCreate 1 "runner")),
  .commit 1,
  .commit 0,
  .read 2 (request 5 (.confirmPayment 1)),
  .commit 2]

theorem paidTerms_of_covered_earlyEdit :
    Runs.Always (service Sample.bus).step (fun x => x.now.PaidTerms)
      (State.quiet (World.after Sample.bus Sample.master (Sample.offered.take 2)))
      Sample.earlyEdit :=
  paidTerms_of_covered Sample.bus Sample.master (Sample.offered.take 2) (by decide +kernel)

/-- The orderer edits the errand while its payment is being confirmed. -/
def Sample.lateEdit : List (Event Request) := [
  .read 0 (request 2 (.proposalUpdate 1 ⟨"errand", "bring a piano", 100000, 5000⟩ "orderer")),
  .read 1 (request 3 (.confirmPayment 1)),
  .commit 1,
  .commit 0]

/-- The edited errand is `POSTED`, and its payment was confirmed for another one. -/
theorem not_paidTerms_lateEdit :
    ¬ Runs.Always (service Sample.bus).step (fun x => x.now.PaidTerms)
      (State.quiet (World.after Sample.bus Sample.master (Sample.offered.take 1)))
      Sample.lateEdit := by
  intro h
  have hlast := Runs.always_last h
  revert hlast
  generalize hx : Runs.run (service Sample.bus).step
    (State.quiet (World.after Sample.bus Sample.master (Sample.offered.take 1)))
    Sample.lateEdit = x
  have hnow : ∃ p ∈ x.now.db.proposals.rows, p.id = 1 ∧ p.status = .posted ∧
      p.content = "bring a piano" := by
    rw [← hx]
    decide +kernel
  have hpaid : ∀ e ∈ x.now.lastPayment 1, ∀ p ∈ e.committed.proposals.rows,
      p.content = "bring coffee" := by
    rw [← hx]
    decide +kernel
  intro hP
  obtain ⟨p, hp, hid, hst, hcontent⟩ := hnow
  obtain ⟨e, he, q, hq, -, hterms⟩ := hP p hp (by simp [Proposal.Published, hst])
  rw [hid] at he
  have hsame : q.content = p.content := congrArg ProposalRequest.content hterms
  rw [hpaid e he q hq, hcontent] at hsame
  exact absurd hsame (by decide)

end OrderRun
