import OrderRun.Concurrent.Commits
import OrderRun.Sequential.Joint

/-!
# Double matching

Whether a proposal can be matched twice when acceptances, cancellations and new
offers run concurrently.  The guard of an acceptance is checked when it is read, not
when it is committed.

* `Db.SingleExecution` — at most one executed offer on every proposal, and exactly
  one on a `MATCHED` one.
* `Undisturbed` — what a commit must find for this to stay true.
* `singleExecution_commit` — a commit keeps it precisely if it is undisturbed.
* `singleExecution_iff` — so does a whole interleaving, from every reachable database.
-/

namespace OrderRun

open Store Split

/-- At most one offer of every proposal is executed, and one is if the proposal is
`MATCHED`. -/
structure Db.SingleExecution (db : Db) : Prop where
  atMostOne : ∀ p ∈ db.proposals, ∀ x ∈ db.offersOf p.id, ∀ y ∈ db.offersOf p.id,
    Executed x.status → Executed y.status → x = y
  matched : ∀ p ∈ db.proposals, p.status = .matched → ∃ x ∈ db.offersOf p.id, Executed x.status

/-- The calls that match a proposal, or compete with that. -/
def Request.Matching (r : Request) : Prop :=
  match r.call with
  | .offerAccept _ _ | .offerCancel _ _ | .offerCreate _ _ | .proposalCancel _ _ => True
  | _ => False

/-- An acceptance commits while no other offer of the proposal is executed, and a
runner's cancellation while the offer is not the executed one of a `MATCHED`
proposal. -/
def Undisturbed (w : World) (r : Request) (_ : UnitOfWork) : Prop :=
  match r.call with
  | .offerAccept oid _ => ∀ o ∈ w.db.offers, o.id = oid →
      ∀ x ∈ w.db.offersOf o.proposalId, x.id ≠ oid → ¬ Executed x.status
  | .offerCancel oid _ => ∀ p o, w.db.Pair p o → o.id = oid →
      ¬ (p.status = .matched ∧ Executed o.status)
  | _ => True

/-! ## One commit -/

section Commit

variable {bus : EventBus} {w w' : World} {r : Request} {u : UnitOfWork}

/-- The bulk statement neither makes nor ends an execution. -/
theorem executed_rejectRow {t : DateTime} (o : Offer) :
    Executed (u.rejectRow t o).status ↔ Executed o.status := by
  rcases u.rejectRow_cases t o with h | ⟨hw, h⟩
  · rw [h]
  · rw [h, hw]
    show Executed .rejected ↔ Executed .waiting
    decide

/-- Which offers are executed after a commit that changes a waiting offer. -/
theorem executed_offerRow {t : DateTime} {o₀ o' : Offer} (hu : u.offers = [⟨o₀, o'⟩])
    (hne : o'.status ≠ o₀.status) (o : Offer) :
    Executed (u.offerRow t o).status ↔
      if o₀.id = o.id then Executed o'.status else Executed o.status := by
  rw [offerRow_of_single hu]
  split
  · rw [Offer.flush_status, col_of_ne hne]
  · exact executed_rejectRow o

/-- A commit that starts no execution, and ends none on a proposal it leaves
`MATCHED`. -/
theorem singleExecution_of_stable (h : (service bus).commit w r u = .ok w')
    (hP : w.db.SingleExecution) (hnp : u.newProposal = none)
    (hno : ∀ o, u.newOffer = some o → ¬ Executed o.status)
    (hgain : ∀ o ∈ w.db.offers, Executed (u.offerRow r.now.flush o).status → Executed o.status)
    (hmatch : ∀ p ∈ w.db.proposals, (u.proposalRow r.now.flush p).status = .matched →
      p.status = .matched ∧ ∀ o ∈ w.db.offersOf p.id, Executed o.status →
        Executed (u.offerRow r.now.flush o).status) : w'.db.SingleExecution := by
  have hexec : ∀ pid, ∀ x' ∈ w'.db.offersOf pid, Executed x'.status →
      ∃ x ∈ w.db.offersOf pid, x' = u.offerRow r.now.flush x ∧ Executed x.status := by
    intro pid x' hx' hex
    rcases of_mem_offersOf_commit h hx' with ⟨x, hx, rfl⟩ | ⟨x, hx, hst⟩
    · exact ⟨x, hx, rfl, hgain x (Db.mem_offersOf.1 hx).1 hex⟩
    · rw [hst] at hex
      exact absurd hex (hno x hx)
  constructor
  · intro p' hp' x' hx' y' hy' hex hey
    obtain ⟨p, hp, rfl⟩ := of_mem_proposals_commit_of_none h hnp hp'
    rw [u.proposalRow_id] at hx' hy'
    obtain ⟨x, hx, rfl, hxe⟩ := hexec p.id x' hx' hex
    obtain ⟨y, hy, rfl, hye⟩ := hexec p.id y' hy' hey
    rw [hP.atMostOne p hp x hx y hy hxe hye]
  · intro p' hp' hst
    obtain ⟨p, hp, rfl⟩ := of_mem_proposals_commit_of_none h hnp hp'
    obtain ⟨hpst, hstay⟩ := hmatch p hp hst
    obtain ⟨x, hx, hex⟩ := hP.matched p hp hpst
    rw [u.proposalRow_id]
    exact ⟨_, mem_offersOf_commit h hx, hstay x hx hex⟩

/-- A proposal that a call sends to another status than `MATCHED`. -/
theorem matched_of_proposalRow {p₀ p' p : Proposal} (hu : u.proposals = [⟨p₀, p'⟩])
    (hne : p'.status ≠ .matched) {t : DateTime} (h : (u.proposalRow t p).status = .matched) :
    p.status = .matched := by
  rw [proposalRow_of_single hu] at h
  split at h
  · rw [Proposal.flush_status] at h
    unfold col at h
    split at h
    · exact h
    · exact absurd h hne
  · exact h

section Acceptance

variable {w₀ : World} {p₀ : Proposal} {o₀ : Offer} {t : DateTime}
  {event : Option (ℕ → DomainEvent)}

/-- An acceptance that leaves a single execution has found no other. -/
theorem not_executed_of_accept (hexec : ∀ o, Executed (u.offerRow r.now.flush o).status ↔
      if o₀.id = o.id then Executed .accepted else Executed o.status)
    {p : Proposal} {o : Offer} (hp : p ∈ w.db.proposals) (ho : o ∈ w.db.offersOf p.id)
    (hoid : o.id = o₀.id) (h : (service bus).commit w r u = .ok w')
    (h' : w'.db.SingleExecution) {x : Offer} (hx : x ∈ w.db.offersOf p.id) (hxid : x.id ≠ o₀.id) :
    ¬ Executed x.status := by
  intro hex
  have hoex : Executed (u.offerRow r.now.flush o).status := by
    rw [hexec, if_pos hoid.symm]
    decide
  -- the other executed offer stays executed, so it would be the accepted one
  have hxex : Executed (u.offerRow r.now.flush x).status := by
    rw [hexec, if_neg fun he => hxid he.symm]
    exact hex
  have hpid := u.proposalRow_id r.now.flush p
  have heq := h'.atMostOne _ (proposal_commit h hp) (u.offerRow r.now.flush x)
    (by rw [hpid]; exact mem_offersOf_commit h hx) (u.offerRow r.now.flush o)
    (by rw [hpid]; exact mem_offersOf_commit h ho) hxex hoex
  have hids := congrArg Offer.id heq
  rw [u.offerRow_id, u.offerRow_id, hoid] at hids
  exact hxid hids

/-- An acceptance that finds no other execution leaves a single one. -/
theorem singleExecution_of_accept (hexec : ∀ o, Executed (u.offerRow r.now.flush o).status ↔
      if o₀.id = o.id then Executed .accepted else Executed o.status)
    {p : Proposal} {o : Offer} (ho : o ∈ w.db.offersOf p.id) (hoid : o.id = o₀.id)
    (hnp : u.newProposal = none) (hno : u.newOffer = none)
    (hmatch : ∀ q ∈ w.db.proposals, q.id ≠ p.id →
      (u.proposalRow r.now.flush q).status = q.status)
    (h : (service bus).commit w r u = .ok w') (hP : w.db.SingleExecution)
    (hother : ∀ x ∈ w.db.offersOf p.id, x.id ≠ o₀.id → ¬ Executed x.status) :
    w'.db.SingleExecution := by
  have hold : ∀ pid, ∀ x' ∈ w'.db.offersOf pid,
      ∃ x ∈ w.db.offersOf pid, x' = u.offerRow r.now.flush x := by
    intro pid x' hx'
    rcases of_mem_offersOf_commit h hx' with hx | ⟨x, hx, -⟩
    · exact hx
    · rw [hno] at hx
      exact absurd hx (by simp)
  -- the offers of another proposal are as they were
  have hsame : ∀ q ∈ w.db.proposals, q.id ≠ p.id → ∀ z ∈ w.db.offersOf q.id,
      (Executed (u.offerRow r.now.flush z).status ↔ Executed z.status) := by
    intro q _ hq z hz
    rw [hexec, if_neg]
    intro hid
    obtain ⟨hzmem, hzq⟩ := Db.mem_offersOf.1 hz
    obtain ⟨homem, hop⟩ := Db.mem_offersOf.1 ho
    rw [AutoTable.eq_of_key_eq hzmem homem (hid.symm.trans hoid.symm), hop] at hzq
    exact hq hzq.symm
  constructor
  · intro q' hq' x' hx' y' hy' hex hey
    obtain ⟨q, hqmem, rfl⟩ := of_mem_proposals_commit_of_none h hnp hq'
    rw [u.proposalRow_id] at hx' hy'
    obtain ⟨x, hx, rfl⟩ := hold _ x' hx'
    obtain ⟨y, hy, rfl⟩ := hold _ y' hy'
    by_cases hq : q.id = p.id
    · rw [hq] at hx hy
      have honly : ∀ z ∈ w.db.offersOf p.id,
          Executed (u.offerRow r.now.flush z).status → z.id = o₀.id := by
        intro z hz hez
        rw [hexec] at hez
        by_contra hne
        rw [if_neg fun he => hne he.symm] at hez
        exact hother z hz hne hez
      rw [AutoTable.eq_of_key_eq (Db.mem_offersOf.1 hx).1 (Db.mem_offersOf.1 hy).1
        ((honly x hx hex).trans (honly y hy hey).symm)]
    · rw [hP.atMostOne q hqmem x hx y hy ((hsame q hqmem hq x hx).1 hex)
        ((hsame q hqmem hq y hy).1 hey)]
  · intro q' hq' hst'
    obtain ⟨q, hqmem, rfl⟩ := of_mem_proposals_commit_of_none h hnp hq'
    rw [u.proposalRow_id]
    by_cases hq : q.id = p.id
    · refine ⟨_, mem_offersOf_commit h (by rw [hq]; exact ho), ?_⟩
      rw [hexec, if_pos hoid.symm]
      decide
    · rw [hmatch q hqmem hq] at hst'
      obtain ⟨x, hx, hex⟩ := hP.matched q hqmem hst'
      exact ⟨_, mem_offersOf_commit h hx, (hsame q hqmem hq x hx).2 hex⟩

/-- **An acceptance** leaves a single execution precisely if no other offer of the
proposal is executed by then. -/
theorem singleExecution_accept (hpair : w₀.db.Pair p₀ o₀) (hst : o₀.status = .waiting)
    (hu : u = {
      rejectWaiting := some ⟨p₀.id, some o₀.id⟩
      proposals := [⟨p₀, { p₀ with status := .matched, matchedAt := some t }⟩]
      offers := [⟨o₀, { o₀ with status := .accepted, acceptedAt := some t }⟩]
      event := event })
    (hR : w₀.db.Extends w.db) (hP : w.db.SingleExecution)
    (h : (service bus).commit w r u = .ok w') :
    w'.db.SingleExecution ↔ ∀ o ∈ w.db.offers, o.id = o₀.id →
      ∀ x ∈ w.db.offersOf o.proposalId, x.id ≠ o₀.id → ¬ Executed x.status := by
  have hexec : ∀ o, Executed (u.offerRow r.now.flush o).status ↔
      if o₀.id = o.id then Executed .accepted else Executed o.status :=
    executed_offerRow (congrArg UnitOfWork.offers hu) (by simp [hst])
  obtain ⟨p, hp, hpid, -⟩ := hR.proposals p₀ hpair.proposal
  have hown : ∀ o ∈ w.db.offers, o.id = o₀.id → o.proposalId = p.id := by
    intro o ho hid
    rw [(hR.offer_eq hpair.offer ho hid).1, hpair.proposalId, hpid]
  obtain ⟨o, homem, hoid, -⟩ := hR.offers o₀ hpair.offer
  have ho : o ∈ w.db.offersOf p.id := Db.mem_offersOf.2 ⟨homem, hown o homem hoid⟩
  constructor
  · intro h' o₁ ho₁ hid₁ x hx hxid
    rw [hown o₁ ho₁ hid₁] at hx
    exact not_executed_of_accept hexec hp ho hoid h h' hx hxid
  · intro hC
    have hother := hC o homem hoid
    rw [hown o homem hoid] at hother
    refine singleExecution_of_accept hexec ho hoid (congrArg UnitOfWork.newProposal hu)
      (congrArg UnitOfWork.newOffer hu) ?_ h hP hother
    intro q _ hq
    rw [proposalRow_of_single (congrArg UnitOfWork.proposals hu), if_neg]
    rw [← hpid]
    exact fun he => hq he.symm

end Acceptance

/-- **A runner's cancellation** leaves a single execution precisely if the offer is not
the executed one of a `MATCHED` proposal by then. -/
theorem singleExecution_cancel {o₀ : Offer}
    (hst : o₀.status = .waiting) (hu : u = { offers := [⟨o₀, { o₀ with status := .cancelled }⟩] })
    (hP : w.db.SingleExecution)
    (h : (service bus).commit w r u = .ok w') :
    w'.db.SingleExecution ↔ ∀ p o, w.db.Pair p o → o.id = o₀.id →
      ¬ (p.status = .matched ∧ Executed o.status) := by
  have hexec : ∀ o, Executed (u.offerRow r.now.flush o).status ↔
      if o₀.id = o.id then Executed .cancelled else Executed o.status :=
    executed_offerRow (congrArg UnitOfWork.offers hu) (by simp [hst])
  have hcancelled : ¬ Executed .cancelled := by decide
  have hrow : ∀ p, u.proposalRow r.now.flush p = p :=
    proposalRow_of_nil (congrArg UnitOfWork.proposals hu)
  constructor
  · rintro h' p o hpair hid ⟨hpst, hex⟩
    have hpmem := proposal_commit h hpair.proposal
    rw [hrow] at hpmem
    obtain ⟨x', hx', hex'⟩ := h'.matched p hpmem hpst
    rcases of_mem_offersOf_commit h hx' with ⟨x, hx, rfl⟩ | ⟨x, hx, -⟩
    · rw [hexec] at hex'
      split at hex'
      · exact hcancelled hex'
      · next hne =>
          -- the remaining executed offer would have been there besides the cancelled one
          have heq := hP.atMostOne p hpair.proposal x hx o
            (Db.mem_offersOf.2 ⟨hpair.offer, hpair.proposalId⟩) hex' hex
          rw [heq, hid] at hne
          exact hne rfl
    · rw [hu] at hx
      exact absurd hx (by simp)
  · intro hC
    refine singleExecution_of_stable h hP (by rw [hu]) (by simp [hu]) ?_ ?_
    · intro o _ hex
      rw [hexec] at hex
      split at hex
      · exact absurd hex hcancelled
      · exact hex
    · intro p hp hpst
      rw [hrow] at hpst
      refine ⟨hpst, fun o ho hex => ?_⟩
      obtain ⟨hmem, hop⟩ := Db.mem_offersOf.1 ho
      rw [hexec, if_neg]
      · exact hex
      · intro hid
        exact hC p o ⟨hp, hmem, hop⟩ hid.symm ⟨hpst, hex⟩

/-- **One commit** keeps a single execution precisely if it is undisturbed. -/
theorem singleExecution_commit {w₀ : World} (hA : r.Matching)
    (hread : (service bus).read w₀ r = .ok u) (hR : w₀.db.Extends w.db)
    (hP : w.db.SingleExecution) (h : (service bus).commit w r u = .ok w') :
    w'.db.SingleExecution ↔ Undisturbed w r u := by
  have hbody := (service_read_eq_ok.1 hread).2
  obtain ⟨call, now⟩ := r
  cases call with
  | offerAccept oid uid =>
      obtain ⟨p₀, o₀, hpair, rfl, -, hst, -, -, event, hu⟩ := OfferService.accept_eq_ok hbody
      exact singleExecution_accept hpair hst hu hR hP h
  | offerCancel oid uid =>
      obtain ⟨o₀, -, rfl, -, hst, hu⟩ := OfferService.cancel_eq_ok hbody
      exact singleExecution_cancel hst hu hP h
  | offerCreate pid uid =>
      obtain ⟨p₀, -, rfl, -, -, -, event, hu⟩ := OfferService.create_eq_ok hbody
      refine iff_of_true ?_ trivial
      have hrow : ∀ o, u.offerRow now.flush o = o := by
        intro o
        rw [offerRow_of_no_change (by rw [hu]), rejectRow_of_none (by rw [hu])]
      refine singleExecution_of_stable h hP (by rw [hu]) ?_ ?_ ?_
      · intro o ho
        rw [hu, Option.some.injEq] at ho
        rw [← ho]
        show ¬ Executed .waiting
        decide
      · intro o _ hex
        rw [hrow] at hex
        exact hex
      · intro p hp hpst
        refine ⟨matched_of_proposalRow (congrArg UnitOfWork.proposals hu) (by simp) hpst, ?_⟩
        intro o _ hex
        rw [hrow]
        exact hex
  | proposalCancel pid uid =>
      obtain ⟨p₀, -, rfl, -, -, hu⟩ := ProposalService.cancel_eq_ok hbody
      refine iff_of_true ?_ trivial
      have hrow : ∀ o, Executed (u.offerRow now.flush o).status ↔ Executed o.status := by
        intro o
        rw [offerRow_of_no_change (by rw [hu])]
        exact executed_rejectRow o
      refine singleExecution_of_stable h hP (by rw [hu]) (by simp [hu]) ?_ ?_
      · intro o _ hex
        exact (hrow o).1 hex
      · intro p hp hpst
        refine ⟨matched_of_proposalRow (congrArg UnitOfWork.proposals hu) (by simp) hpst, ?_⟩
        intro o _ hex
        exact (hrow o).2 hex
  | _ => exact absurd hA id

end Commit

/-! ## Whole interleavings -/

/-- Every reachable database has single executions. -/
theorem singleExecution_after (bus : EventBus) (m : MasterData) (rs : List Request) :
    (World.after bus m rs).db.SingleExecution := by
  have ht := traced_after bus m rs
  constructor
  · intro p hp x hx y hy hex hey
    obtain ⟨hxmem, hxp⟩ := Db.mem_offersOf.1 hx
    obtain ⟨hymem, hyp⟩ := Db.mem_offersOf.1 hy
    have hhist := ht.history p hp
    have heq := hhist.shape.executed_unique hhist.distinct
      (Db.Pair.mem_bids ⟨hp, hxmem, hxp⟩) (Db.Pair.mem_bids ⟨hp, hymem, hyp⟩) hex hey
    exact AutoTable.eq_of_key_eq hxmem hymem (congrArg Bid.id heq)
  · intro p hp hst
    have hjoint := joint_of_shape (ht.shape hp)
    rw [hst] at hjoint
    obtain ⟨x, ⟨hx, hxs⟩, -⟩ := hjoint.one
    refine ⟨x, hx, ?_⟩
    rcases List.mem_pair.1 hxs with hs | hs <;> rw [hs] <;> decide

/-- **When proposals are matched once.**  Start from any reachable database and
interleave the read and commit steps of any acceptances, cancellations and new offers:
every committed state has single executions precisely if every acceptance commits
while no other offer of its proposal is executed, and every runner's cancellation
while the offer is not the executed one of a `MATCHED` proposal. -/
theorem singleExecution_iff (bus : EventBus) (m : MasterData) (rs : List Request)
    (es : List (Event Request)) (hes : ∀ e ∈ es, e.Calls Request.Matching) :
    Runs.Always (service bus).step (fun x => x.now.db.SingleExecution)
        (State.quiet (World.after bus m rs)) es ↔
      Runs.Along (service bus).step ((service bus).Commits Undisturbed)
        (State.quiet (World.after bus m rs)) es :=
  Service.always_iff_commits (sound_service bus Request.Matching)
    (P := fun w => w.db.SingleExecution)
    (fun hA _ hread hR _ hP hc => singleExecution_commit hA hread hR hP hc)
    trivial (singleExecution_after bus m rs) hes

/-- The orderer accepts both offers at once: both guards pass before either commits. -/
def Sample.twoAcceptances : List (Event Request) := [
  .read 0 (request 5 (.offerAccept 1 "orderer")),
  .read 1 (request 6 (.offerAccept 2 "orderer")),
  .commit 0,
  .commit 1]

theorem matching_twoAcceptances : ∀ e ∈ Sample.twoAcceptances, e.Calls Request.Matching := by
  simp [Sample.twoAcceptances, Sample.request, Event.Calls, Request.Matching]

/-- Both offers end up executed. -/
theorem not_singleExecution_twoAcceptances :
    (∀ e ∈ Sample.twoAcceptances, e.Calls Request.Matching) ∧
      ¬ Runs.Always (service Sample.bus).step (fun x => x.now.db.SingleExecution)
        (State.quiet (World.after Sample.bus Sample.master Sample.offered))
        Sample.twoAcceptances := by
  refine ⟨matching_twoAcceptances, fun h => ?_⟩
  have hlast := Runs.always_last h
  revert hlast
  generalize hx : Runs.run (service Sample.bus).step
    (State.quiet (World.after Sample.bus Sample.master Sample.offered)) Sample.twoAcceptances = x
  have htwo : ∃ p ∈ x.now.db.proposals.rows, ∃ a ∈ x.now.db.offers.rows,
      ∃ b ∈ x.now.db.offers.rows, a.proposalId = p.id ∧ b.proposalId = p.id ∧
        Executed a.status ∧ Executed b.status ∧ a.id ≠ b.id := by
    rw [← hx]
    decide +kernel
  intro hsingle
  obtain ⟨p, hp, a, ha, b, hb, hap, hbp, hae, hbe, hne⟩ := htwo
  have heq := hsingle.atMostOne p hp a (Db.mem_offersOf.2 ⟨ha, hap⟩) b
    (Db.mem_offersOf.2 ⟨hb, hbp⟩) hae hbe
  exact hne (congrArg Offer.id heq)

/-- The condition for the two acceptances. -/
theorem singleExecution_iff_twoAcceptances :
    (∀ e ∈ Sample.twoAcceptances, e.Calls Request.Matching) ∧
      (Runs.Always (service Sample.bus).step (fun x => x.now.db.SingleExecution)
          (State.quiet (World.after Sample.bus Sample.master Sample.offered))
          Sample.twoAcceptances ↔
        Runs.Along (service Sample.bus).step ((service Sample.bus).Commits Undisturbed)
          (State.quiet (World.after Sample.bus Sample.master Sample.offered))
          Sample.twoAcceptances) :=
  ⟨matching_twoAcceptances, singleExecution_iff Sample.bus Sample.master Sample.offered
    Sample.twoAcceptances matching_twoAcceptances⟩

end OrderRun
