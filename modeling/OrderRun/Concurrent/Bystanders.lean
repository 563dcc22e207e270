import OrderRun.Concurrent.Pair

/-!
# What bystanders can do to an errand

The services ask whose row it is each time a call names one, and they ask it of what the call
has read, not of what it writes to.  This file proves that the answer cannot change in
between: however the calls overlap, users with no part in an errand leave its terms, its
marks, its offers and its evidence as they are.  All they can do is apply for it.

* `Db.Bystander`, `Request.Uninvolved` — a user with no part in the errand, and a call of hers.
* `UnitOfWork.Spares`, `body_spares` — what such a call writes.
* `proposalRow_of_spares`, `offerRow_of_spares` — what that makes of the rows of the errand,
  on a database that has moved on.
* `bystanders_confined` — every commit of a bystander, in any interleaving of any calls.
* `Db.Spared`, `bystanders_spare` — the errand in a run of nothing but bystanders.
-/

namespace OrderRun

open Store Split

/-! ## Bystanders -/

/-- Neither the orderer of the errand nor the runner of an offer on it. -/
def Db.Bystander (db : Db) (p : Proposal) (uid : UserId) : Prop :=
  uid ≠ p.ordererId ∧ ∀ o ∈ db.offers, o.proposalId = p.id → o.runnerId ≠ uid

/-- A call by a bystander; the administrator's routes have no user. -/
def Request.Uninvolved (db : Db) (p : Proposal) (r : Request) : Prop :=
  ∃ uid, r.call.actor = some uid ∧ db.Bystander p uid

/-! ## What a call of a bystander writes -/

/-- The unit of work leaves the errand alone, but for an application or its withdrawal. -/
structure UnitOfWork.Spares (u : UnitOfWork) (db : Db) (p : Proposal) : Prop where
  proposals : ∀ c ∈ u.proposals, c.loaded.id = p.id → u.deadlineAssigned = false ∧
    c.loaded.status ∈ [.posted, .offered] ∧ c.dirty = { c.loaded with status := .offered }
  rejects : ∀ stmt, u.rejectWaiting = some stmt → stmt.proposalId ≠ p.id
  offers : ∀ c ∈ u.offers, c.loaded.proposalId = p.id →
    db.Bystander p c.loaded.runnerId ∧ c.dirty = { c.loaded with status := .cancelled }
  newOffer : ∀ o, u.newOffer = some o → o.proposalId = p.id →
    db.Bystander p o.runnerId ∧ o.status = .waiting
  newEvidence : ∀ e, u.newEvidence = some e → e.proposalId ≠ p.id

section Bodies

variable {u : UnitOfWork} {db db' : Db} {p : Proposal} {call : Call} {now : Readings}
  {uid : UserId}

/-- A unit of work about nothing but another errand. -/
theorem spares_other {k : ℕ} (hk : k ≠ p.id) (hp : ∀ c ∈ u.proposals, c.loaded.id = k)
    (hr : ∀ stmt, u.rejectWaiting = some stmt → stmt.proposalId = k)
    (ho : ∀ c ∈ u.offers, c.loaded.proposalId = k) (hn : u.newOffer = none)
    (he : ∀ e, u.newEvidence = some e → e.proposalId = k) : u.Spares db p where
  proposals := fun c hc hid => absurd ((hp c hc).symm.trans hid) hk
  rejects := fun stmt hstmt hid => hk ((hr stmt hstmt).symm.trans hid)
  offers := fun c hc hid => absurd ((ho c hc).symm.trans hid) hk
  newOffer := fun o hnew => absurd (hn.symm.trans hnew) (by simp)
  newEvidence := fun e hnew hid => hk ((he e hnew).symm.trans hid)

/-- A unit of work about no errand at all. -/
theorem spares_nothing (hp : u.proposals = []) (hr : u.rejectWaiting = none)
    (ho : u.offers = []) (hn : u.newOffer = none) (he : u.newEvidence = none) :
    u.Spares db p where
  proposals := by simp [hp]
  rejects := by simp [hr]
  offers := by simp [ho]
  newOffer := by simp [hn]
  newEvidence := by simp [he]

/-- A bystander applies, here or elsewhere. -/
theorem spares_offerCreate (hout : db.Bystander p uid) {pid : ℕ}
    (h : OfferService.create db' pid uid = .ok u) : u.Spares db p := by
  obtain ⟨q, -, rfl, -, hs, -, _, rfl⟩ := OfferService.create_eq_ok h
  exact {
    proposals := by simpa using fun _ => hs
    rejects := by simp
    offers := by simp
    newOffer := by
      rintro o ho -
      rw [← Option.some.inj ho]
      exact ⟨hout, rfl⟩
    newEvidence := by simp }

/-- A bystander takes back an application. -/
theorem spares_offerCancel (hout : db.Bystander p uid) {oid : ℕ}
    (h : OfferService.cancel db' oid uid = .ok u) : u.Spares db p := by
  obtain ⟨o, -, -, hrunner, -, rfl⟩ := OfferService.cancel_eq_ok h
  exact {
    proposals := by simp
    rejects := by simp
    offers := by simpa [hrunner] using fun _ => hout
    newOffer := by simp
    newEvidence := by simp }

/-- A bystander leaves: her own errands are others, and so are the offers on them. -/
theorem spares_withdrawUser (hown : ∀ q ∈ db'.proposals, q.ordererId = uid → q.id ≠ p.id)
    (hout : db.Bystander p uid)
    (h : UserWithdrawalService.withdrawUser db' uid now = .ok u) : u.Spares db p := by
  obtain ⟨user, -, -, -, -, rfl⟩ := UserWithdrawalService.withdrawUser_eq_ok h
  have hopen : ∀ q ∈ UserWithdrawalService.openProposals db' uid, q.id ≠ p.id := by
    intro q hq
    obtain ⟨hmem, hselected⟩ := List.mem_filter.1 hq
    exact hown q hmem (of_decide_eq_true hselected).1
  exact {
    proposals := by
      intro c hc hid
      obtain ⟨q, hq, rfl⟩ := List.mem_map.1 hc
      exact absurd hid (hopen q hq)
    rejects := by simp
    offers := by
      intro c hc hid
      obtain ⟨o, ho, rfl⟩ := List.mem_map.1 hc
      refine ⟨?_, rfl⟩
      rcases List.mem_append.1 ho with ho | ho
      · obtain ⟨q, hq, hqid⟩ := List.mem_map.1 (of_decide_eq_true (List.mem_filter.1 ho).2).1
        exact absurd (hqid.trans hid) (hopen q hq)
      · rw [show (UserWithdrawalService.cancelledOffer o).loaded.runnerId = uid from
          (of_decide_eq_true (List.mem_filter.1 ho).2).1]
        exact hout
    newOffer := by simp
    newEvidence := by simp }

/-- **What a call of a bystander writes**, if the errand is not hers in the database the call
has read, and she has not been chosen for it there. -/
theorem body_spares (hown : ∀ q ∈ db'.proposals, q.ordererId = uid → q.id ≠ p.id)
    (hidle : ∀ o ∈ db'.offers, o.proposalId = p.id → o.runnerId = uid →
      o.status ∈ [.waiting, .cancelled])
    (hactor : call.actor = some uid) (hout : db.Bystander p uid)
    (h : call.body db' now = .ok u) : u.Spares db p := by
  -- an errand that she executes is another one, too
  have hruns : ∀ q o, db'.Pair q o → o.runnerId = uid → o.status ∉ [.waiting, .cancelled] →
      q.id ≠ p.id := fun q o hpair hrunner hs hid =>
    hs (hidle o hpair.offer (hpair.proposalId.trans hid) hrunner)
  cases call with
  | confirmPayment pid => exact absurd hactor (by simp [Call.actor])
  | resolve oid => exact absurd hactor (by simp [Call.actor])
  | reportAccept rid => exact absurd hactor (by simp [Call.actor])
  | reportReject rid => exact absurd hactor (by simp [Call.actor])
  | proposalCreate request uid' =>
      obtain ⟨q, -, -, -, -, -, -, -, rfl⟩ := ProposalService.create_eq_ok h
      exact spares_nothing rfl rfl rfl rfl rfl
  | proposalUpdate pid request uid' =>
      obtain rfl := Option.some.inj hactor
      obtain ⟨q, hq, -, howner, -, rfl⟩ := ProposalService.update_eq_ok h
      exact spares_other (hown q hq howner) (by simp) (by simp) (by simp) rfl (by simp)
  | proposalCancel pid uid' =>
      obtain rfl := Option.some.inj hactor
      obtain ⟨q, hq, -, howner, -, rfl⟩ := ProposalService.cancel_eq_ok h
      refine spares_other (hown q hq howner) (by simp) ?_ (by simp) rfl (by simp)
      intro stmt hstmt
      by_cases hs : q.status = .offered
      · rw [if_pos hs] at hstmt
        rw [← Option.some.inj hstmt]
      · rw [if_neg hs] at hstmt
        exact absurd hstmt (by simp)
  | confirmReceived pid uid' =>
      obtain rfl := Option.some.inj hactor
      obtain ⟨q, o, hpair, -, howner, -, ⟨-, _, rfl⟩ | ⟨-, _, rfl⟩⟩ :=
        ProposalService.confirmReceived_eq_ok h <;>
      exact spares_other (hown q hpair.proposal howner) (by simp) (by simp)
        (by simpa using hpair.proposalId) rfl (by simp)
  | proposalDispute pid uid' qid reason =>
      obtain rfl := Option.some.inj hactor
      obtain ⟨q, o, hpair, -, howner, -, -, _, rfl⟩ := ProposalService.raiseDispute_eq_ok h
      exact spares_other (hown q hpair.proposal howner) (by simp) (by simp)
        (by simpa using hpair.proposalId) rfl (by simp)
  | offerCreate pid uid' =>
      obtain rfl := Option.some.inj hactor
      exact spares_offerCreate hout h
  | offerCancel oid uid' =>
      obtain rfl := Option.some.inj hactor
      exact spares_offerCancel hout h
  | offerAccept oid uid' =>
      obtain rfl := Option.some.inj hactor
      obtain ⟨q, o, hpair, -, howner, -, -, -, _, rfl⟩ := OfferService.accept_eq_ok h
      exact spares_other (hown q hpair.proposal howner) (by simp) (by simp)
        (by simpa using hpair.proposalId) rfl (by simp)
  | completeDelivery oid uid' =>
      obtain rfl := Option.some.inj hactor
      obtain ⟨q, o, hpair, -, hrunner, hs, ⟨-, _, rfl⟩ | ⟨-, _, rfl⟩⟩ :=
        OfferService.completeDelivery_eq_ok h <;>
      exact spares_other (hruns q o hpair hrunner (by simp [hs])) (by simp) (by simp)
        (by simpa using hpair.proposalId) rfl (by simp)
  | offerDispute oid uid' qid reason =>
      obtain rfl := Option.some.inj hactor
      obtain ⟨q, o, hpair, -, hrunner, hs, -, _, rfl⟩ := OfferService.raiseDispute_eq_ok h
      have hchosen : o.status ∉ [.waiting, .cancelled] := by
        rcases List.mem_pair.1 hs with hs | hs <;> simp [hs]
      exact spares_other (hruns q o hpair hrunner hchosen) (by simp) (by simp)
        (by simpa using hpair.proposalId) rfl (by simp)
  | reportCreate pid uid' request =>
      obtain ⟨q, -, -, -, -, _, -, -, -, -, rfl⟩ := ProposalReportService.create_eq_ok h
      exact spares_nothing rfl rfl rfl rfl rfl
  | withdrawUser uid' =>
      obtain rfl := Option.some.inj hactor
      exact spares_withdrawUser hown hout h

end Bodies

/-! ## The rows of the errand -/

section Rows

variable {db : Db} {p : Proposal} {w₀ w : World} {u : UnitOfWork}

/-- The errand after a commit: it is left as it is, or marked as offered if it was posted
when the call read it. -/
theorem proposalRow_of_spares (hu : u.Spares db p) {q : Proposal} (hq : q.id = p.id)
    (t : DateTime) : u.proposalRow t q = q ∨
      (∃ c ∈ u.proposals, c.loaded.id = p.id ∧ c.loaded.status = .posted) ∧
        u.proposalRow t q = { q with status := .offered, updatedAt := t } := by
  rcases writeBack_cases
    (fun loaded dirty row => Proposal.flush u.deadlineAssigned loaded dirty t row)
    u.proposals q with ⟨-, he⟩ | ⟨c, hc, hid, he⟩
  · exact Or.inl he
  · have hcid : c.loaded.id = p.id := Eq.trans hid hq
    obtain ⟨hassigned, hs, hdirty⟩ := hu.proposals c hc hcid
    rcases List.mem_pair.1 hs with hposted | hoffered
    · have hne : c.dirty ≠ c.loaded := by
        rw [hdirty]
        intro hsame
        have hstatus := congrArg Proposal.status hsame
        rw [hposted] at hstatus
        exact absurd hstatus (by simp)
      refine Or.inr ⟨⟨c, hc, hcid, hposted⟩, ?_⟩
      rw [UnitOfWork.proposalRow, he, hassigned, Proposal.flush, if_neg fun h => hne h.1, hdirty]
      simp [hposted, col]
    · -- it was offered before: nothing is written
      have hsame : c.dirty = c.loaded := by
        rw [hdirty, ← hoffered]
      rw [UnitOfWork.proposalRow, he, hsame, hassigned, Proposal.flush_unchanged]
      exact Or.inl rfl

/-- The statement of a bystander's call does not select offers on the errand. -/
theorem rejectRow_of_spares (hu : u.Spares db p) {o : Offer} (hpid : o.proposalId = p.id)
    (t : DateTime) : u.rejectRow t o = o := by
  unfold UnitOfWork.rejectRow
  cases hstmt : u.rejectWaiting with
  | none => rfl
  | some stmt =>
      show stmt.row t o = o
      rw [RejectWaiting.row, if_neg]
      rintro ⟨hselected, -⟩
      exact hu.rejects stmt hstmt (hselected.symm.trans hpid)

/-- An offer on the errand after a commit: it is left as it is, or it is a bystander's, who
takes it back. -/
theorem offerRow_of_spares (hu : u.Spares db p) (hprep : u.Prepared w₀.db)
    (hR : w₀.db.Extends w.db) {o : Offer} (ho : o ∈ w.db.offers) (hpid : o.proposalId = p.id)
    (t : DateTime) : u.offerRow t o = o ∨ db.Bystander p o.runnerId ∧
      ((u.offerRow t o).status = o.status ∨ (u.offerRow t o).status = .cancelled) := by
  rw [UnitOfWork.offerRow, rejectRow_of_spares hu hpid]
  rcases writeBack_cases (fun loaded dirty row => Offer.flush loaded dirty t row) u.offers o
    with ⟨-, he⟩ | ⟨c, hc, hid, he⟩
  · exact Or.inl he
  · obtain ⟨hcpid, hrunner⟩ := hR.offer_eq (hprep.offers c hc).1 ho hid.symm
    obtain ⟨hout, hdirty⟩ := hu.offers c hc (hcpid.symm.trans hpid)
    rw [he, Offer.flush_status, hdirty, hrunner]
    refine Or.inr ⟨hout, ?_⟩
    show col c.loaded.status .cancelled o.status = _ ∨ col c.loaded.status .cancelled o.status = _
    unfold col
    split
    · exact Or.inl rfl
    · exact Or.inr rfl

/-- No evidence on the errand comes or goes. -/
theorem evidences_of_spares {bus : EventBus} {w' : World} {r : Request} (hu : u.Spares db p)
    (hcommit : (service bus).commit w r u = .ok w') {e : DisputeEvidence}
    (hpid : e.proposalId = p.id) : e ∈ w'.db.evidences ↔ e ∈ w.db.evidences := by
  obtain ⟨db', hdb, rfl⟩ := service_commit_eq_ok.1 hcommit
  obtain ⟨notifications, rfl⟩ := UnitOfWork.commit_same hdb
  refine UnitOfWork.mem_evidences_write.trans (or_iff_left ?_)
  rintro ⟨new, hnew, rfl⟩
  exact hu.newEvidence new hnew hpid

/-- The offers of insiders are not written. -/
theorem offerRow_of_insider (hu : u.Spares db p) (hprep : u.Prepared w₀.db)
    (hR : w₀.db.Extends w.db) {o : Offer} (hold : o ∈ db.offers) (ho : o ∈ w.db.offers)
    (hpid : o.proposalId = p.id) (t : DateTime) : u.offerRow t o = o := by
  rcases offerRow_of_spares hu hprep hR ho hpid t with he | ⟨hout, -⟩
  · exact he
  · exact absurd rfl (hout.2 o hold hpid)

end Rows

/-! ## Among any other calls -/

/-- The terms, the marks, the offers and the evidence of the errand are as they were.  Its
status is, too, or it is `OFFERED` now. -/
structure Db.Confined (db : Db) (p : Proposal) (db' : Db) : Prop where
  proposal : p ∈ db'.proposals ∨ ∃ t, { p with status := .offered, updatedAt := t } ∈ db'.proposals
  offers : ∀ o ∈ db.offers, o.proposalId = p.id → o ∈ db'.offers
  evidences : ∀ e, e.proposalId = p.id → (e ∈ db'.evidences ↔ e ∈ db.evidences)

section Confined

variable {bus : EventBus} {p : Proposal} {w₀ w w' : World} {r : Request} {u : UnitOfWork}

/-- Whoever has no part in an errand now had none when her call read it. -/
theorem body_spares_of_uninvolved (hp : p ∈ w.db.proposals) (hout : r.Uninvolved w.db p)
    (hbody : r.call.body w₀.db r.now = .ok u) (hR : w₀.db.Extends w.db) : u.Spares w.db p := by
  obtain ⟨uid, hactor, hout⟩ := hout
  refine body_spares ?_ ?_ hactor hout hbody
  · rintro q hq howner hid
    obtain ⟨q', hq', hid', howner'⟩ := hR.proposals q hq
    obtain rfl : q' = p := AutoTable.eq_of_key_eq hq' hp (hid'.trans hid)
    exact hout.1 (howner.symm.trans howner'.symm)
  · rintro o ho hpid hrunner
    obtain ⟨o', ho', -, hpid', hrunner'⟩ := hR.offers o ho
    exact absurd (hrunner'.trans hrunner) (hout.2 o' ho' (hpid'.trans hpid))

theorem confined_commit (hp : p ∈ w.db.proposals) (hout : r.Uninvolved w.db p)
    (hbody : r.call.body w₀.db r.now = .ok u) (hR : w₀.db.Extends w.db)
    (hcommit : (service bus).commit w r u = .ok w') : w.db.Confined p w'.db := by
  have hu := body_spares_of_uninvolved hp hout hbody hR
  constructor
  · have hrow := proposal_commit hcommit hp
    rcases proposalRow_of_spares hu rfl r.now.flush with he | ⟨-, he⟩ <;> rw [he] at hrow
    · exact Or.inl hrow
    · exact Or.inr ⟨r.now.flush, hrow⟩
  · intro o ho hpid
    have hrow := offer_commit hcommit ho
    rwa [offerRow_of_insider hu (body_prepared hbody) hR ho ho hpid] at hrow
  · exact fun e hpid => evidences_of_spares hu hcommit hpid

/-- **Nobody changes a deal she has no part in.**  Whatever calls overlap with hers, the commit
of a bystander leaves the terms and the marks of the errand, its offers and its evidence as it
finds them; if she has applied for it, it is marked as offered. -/
theorem bystanders_confined (bus : EventBus) (w : World) (es : List (Event Request)) :
    Runs.Along (service bus).step (fun s e => ∀ tid r u, e = .commit tid →
      s.pool tid = some (r, u) → ∀ p ∈ s.now.db.proposals, r.Uninvolved s.now.db p →
        s.now.db.Confined p ((service bus).step s e).now.db) (State.quiet w) es := by
  have hcalls : ∀ e ∈ es, e.Calls fun _ => True := fun e _ => e.calls_true
  have hrun := (sound_service bus fun _ => True).inv_run (s := w) trivial hcalls
  refine Runs.along_iff.2 ?_
  rintro pre e suf rfl tid r u rfl hpool p hp hout
  obtain ⟨-, horigin⟩ := Runs.always_iff.1 hrun pre _ rfl
  obtain ⟨-, w₀, -, hread, hR⟩ := horigin tid r u hpool
  rcases Service.now_step_commit (S := service bus) (Runs.run _ (State.quiet w) pre) tid with
    he | ⟨r', u', hpool', hcommit⟩
  · rw [he]
    exact ⟨Or.inl hp, fun _ ho _ => ho, fun _ _ => Iff.rfl⟩
  · rw [hpool, Option.some.injEq, Prod.mk.injEq] at hpool'
    obtain ⟨rfl, rfl⟩ := hpool'
    exact confined_commit hp hout (service_read_eq_ok.1 hread).2 hR hcommit

end Confined

/-! ## Among bystanders -/

/-- A posted errand may have become an offered one, and nothing else. -/
def Proposal.Spared (p p' : Proposal) : Prop :=
  p' = p ∨ p.status = .posted ∧ ∃ t, p' = { p with status := .offered, updatedAt := t }

/-- **What is left of an errand.**  The offers that have come in are from bystanders, who still
wait or have changed their minds. -/
structure Db.Spared (db : Db) (p : Proposal) (db' : Db) : Prop where
  proposal : ∃ p' ∈ db'.proposals, p.Spared p'
  offers : ∀ o ∈ db.offers, o.proposalId = p.id → o ∈ db'.offers
  newOffers : ∀ o ∈ db'.offers, o.proposalId = p.id →
    o ∈ db.offers ∨ db.Bystander p o.runnerId ∧ o.status ∈ [.waiting, .cancelled]
  evidences : ∀ e, e.proposalId = p.id → (e ∈ db'.evidences ↔ e ∈ db.evidences)

section Spared

variable {db db' : Db} {p p' : Proposal} {uid : UserId}

theorem Proposal.Spared.id (h : p.Spared p') : p'.id = p.id := by
  rcases h with rfl | ⟨-, t, rfl⟩ <;> rfl

theorem Proposal.Spared.ordererId (h : p.Spared p') : p'.ordererId = p.ordererId := by
  rcases h with rfl | ⟨-, t, rfl⟩ <;> rfl

theorem Db.Spared.refl (hp : p ∈ db.proposals) : db.Spared p db where
  proposal := ⟨p, hp, Or.inl rfl⟩
  offers := fun _ ho _ => ho
  newOffers := fun _ ho _ => Or.inl ho
  evidences := fun _ _ => Iff.rfl

/-- The row of the errand. -/
theorem Db.Spared.row (h : db.Spared p db') (hp' : p' ∈ db'.proposals) (hid : p'.id = p.id) :
    p.Spared p' := by
  obtain ⟨q, hq, hspared⟩ := h.proposal
  obtain rfl : p' = q := AutoTable.eq_of_key_eq hp' hq (hid.trans hspared.id.symm)
  exact hspared

/-- A proposal of a bystander is another one. -/
theorem Db.Spared.id_ne (h : db.Spared p db') (hout : db.Bystander p uid)
    (hp' : p' ∈ db'.proposals) (howner : p'.ordererId = uid) : p'.id ≠ p.id := by
  intro hid
  exact hout.1 (howner.symm.trans (h.row hp' hid).ordererId)

/-- An offer of a bystander has not been chosen. -/
theorem Db.Spared.idle (h : db.Spared p db') (hout : db.Bystander p uid) {o : Offer}
    (ho : o ∈ db'.offers) (hpid : o.proposalId = p.id) (hrunner : o.runnerId = uid) :
    o.status ∈ [.waiting, .cancelled] := by
  rcases h.newOffers o ho hpid with hold | ⟨-, hs⟩
  · exact absurd hrunner (hout.2 o hold hpid)
  · exact hs

end Spared

/-- What the commit of a bystander's call leaves of the errand, whatever other bystanders have
done since its read. -/
theorem spared_commit {bus : EventBus} {db : Db} {p : Proposal} {w₀ w w' : World} {r : Request}
    {u : UnitOfWork} (hu : u.Spares db p) (hprep : u.Prepared w₀.db) (h₀ : db.Spared p w₀.db)
    (hR : w₀.db.Extends w.db) (h : db.Spared p w.db)
    (hcommit : (service bus).commit w r u = .ok w') : db.Spared p w'.db := by
  constructor
  · obtain ⟨q, hq, hspared⟩ := h.proposal
    refine ⟨_, proposal_commit hcommit hq, ?_⟩
    rcases proposalRow_of_spares hu hspared.id r.now.flush with he | ⟨⟨c, hc, hcid, hs⟩, he⟩
    · rw [he]
      exact hspared
    · -- the call has read a posted errand, so it was posted from the start
      have hposted : p.status = .posted := by
        rcases h₀.row (hprep.proposals c hc).1 hcid with hloaded | ⟨hs', -⟩
        · rwa [hloaded] at hs
        · exact hs'
      rw [he]
      refine Or.inr ⟨hposted, r.now.flush, ?_⟩
      rcases hspared with rfl | ⟨-, t, rfl⟩ <;> rfl
  · intro o ho hpid
    have hrow := offer_commit hcommit (h.offers o ho hpid)
    rwa [offerRow_of_insider hu hprep hR ho (h.offers o ho hpid) hpid] at hrow
  · intro o' ho' hpid'
    rw [(commit_tables hcommit).2.2.1] at ho'
    rcases UnitOfWork.mem_offers_write.1 ho' with ⟨o, ho, rfl⟩ | ⟨new, hnew, rfl⟩
    · have hpid : o.proposalId = p.id := by
        rwa [u.offerRow_proposalId] at hpid'
      rcases h.newOffers o ho hpid with hold | ⟨hout, hs⟩
      · rw [offerRow_of_insider hu hprep hR hold ho hpid]
        exact Or.inl hold
      · rw [u.offerRow_runnerId]
        refine Or.inr ⟨hout, ?_⟩
        rcases offerRow_of_spares hu hprep hR ho hpid r.now.flush with he | ⟨-, he | he⟩ <;>
          rw [he]
        · exact hs
        · exact hs
        · simp
    · obtain ⟨hout, hs⟩ := hu.newOffer new hnew hpid'
      exact Or.inr ⟨hout, by simp [hs]⟩
  · exact fun e hpid => (evidences_of_spares hu hcommit hpid).trans (h.evidences e hpid)

theorem sound_spared (bus : EventBus) (db : Db) (p : Proposal) :
    (service bus).Sound (fun w => db.Spared p w.db) (fun w w' => w.db.Extends w'.db)
      (Request.Uninvolved db p) where
  refl := fun w => Db.Extends.refl w.db
  trans := fun _ _ _ => Db.Extends.trans
  commit := by
    rintro w₀ w w' r u ⟨uid, hactor, hout⟩ h₀ hread hR h hcommit
    have hbody := (service_read_eq_ok.1 hread).2
    have hu := body_spares (fun q hq => h₀.id_ne hout hq) (fun o ho => h₀.idle hout ho)
      hactor hout hbody
    exact ⟨spared_commit hu (body_prepared hbody) h₀ hR h hcommit, extends_service hcommit⟩

/-- **Bystanders leave an errand alone.**  From any state, however their calls overlap: its
terms, its marks, the offers that were there and its evidence stay as they are.  A posted
errand may get offers, which wait until an insider does something about them. -/
theorem bystanders_spare (bus : EventBus) {w : World} {p : Proposal} (hp : p ∈ w.db.proposals)
    {es : List (Event Request)} (hes : ∀ e ∈ es, e.Calls (Request.Uninvolved w.db p)) :
    Runs.Always (service bus).step (fun s => w.db.Spared p s.now.db) (State.quiet w) es := by
  have hrun := (sound_spared bus w.db p).inv_run (Db.Spared.refl hp) hes
  exact Runs.always_iff.2 fun pre suf h => (Runs.always_iff.1 hrun pre suf h).1

namespace Sample

/-- The errand is open, and nobody has applied yet. -/
def advertised : World := World.after bus master (offered.take 2)

/-- The errand as it is then. -/
def advertisement : Proposal :=
  { paired with status := .posted, matchedAt := none, updatedAt := 23 }

/-- Two bystanders apply at the same time, and one of them thinks better of it. -/
def applicants : List (Event Request) := [
  .read 0 (request 3 (.offerCreate 1 "runner")),
  .read 1 (request 4 (.offerCreate 1 "rival")),
  .commit 0,
  .commit 1,
  .read 2 (request 5 (.offerCancel 1 "runner")),
  .commit 2]

theorem uninvolved_applicants :
    ∀ e ∈ applicants, e.Calls (Request.Uninvolved advertised.db advertisement) := by
  have hnone : advertised.db.offers.rows = [] := by decide +kernel
  have hout : ∀ uid, uid ≠ "orderer" → advertised.db.Bystander advertisement uid := by
    intro uid hne
    refine ⟨hne, fun o ho => ?_⟩
    rw [AutoTable.mem_iff, hnone] at ho
    exact absurd ho List.not_mem_nil
  simp only [applicants, List.forall_mem_cons, Event.Calls, and_true, true_and, List.not_mem_nil,
    false_implies, implies_true]
  exact ⟨⟨"runner", rfl, hout _ (by decide)⟩, ⟨"rival", rfl, hout _ (by decide)⟩,
    ⟨"runner", rfl, hout _ (by decide)⟩⟩

end Sample

theorem bystanders_spare_applicants :
    Runs.Always (service Sample.bus).step
      (fun s => Sample.advertised.db.Spared Sample.advertisement s.now.db)
      (State.quiet Sample.advertised) Sample.applicants :=
  have hp : Sample.advertisement ∈ Sample.advertised.db.proposals.rows := by decide +kernel
  bystanders_spare Sample.bus hp Sample.uninvolved_applicants

end OrderRun
