import OrderRun.Concurrent.Commits
import OrderRun.Sequential.Joint

/-!
# The two confirmations of a pair

What `complete_delivery` and `confirm_received` prepare when they find a proposal
and its executed offer in a database, and what their commits make of whatever the
two rows have become in the meantime.

* `World.Stands` — the two rows, the executed offer being the only one, and the
  level of the runner.
* `Stands.deliver`, `Stands.receive` — the unit of work each call prepares.
* `Stands.commit` — the pair after such a unit has been committed.
* `stands_after` — a `MATCHED` pair of a reachable database stands.
-/

namespace OrderRun

open Store Split

/-- The pair stands as the rows `p` and `o`, no other offer of `p` is executed, and
the runner has reached the level. -/
structure World.Stands (w : World) (p : Proposal) (o : Offer) (level : ℕ) : Prop where
  pair : w.db.Pair p o
  only : ∀ x ∈ w.db.offersOf p.id, Executed x.status → x.id = o.id
  runner : ∃ user ∈ w.db.users, user.id = o.runnerId ∧ user.level = level

/-- The unit of work makes `p'` of the proposal `p` and `o'` of its offer `o`, and
touches no other row of the two tables. -/
structure UnitOfWork.Pairs (u : UnitOfWork) (p p' : Proposal) (o o' : Offer) : Prop where
  proposals : u.proposals = [⟨p, p'⟩]
  offers : u.offers = [⟨o, o'⟩]
  rejectWaiting : u.rejectWaiting = none
  newProposal : u.newProposal = none
  newOffer : u.newOffer = none

section Read

variable {w : World} {p : Proposal} {o : Offer} {n : ℕ} {r : Request} {u : UnitOfWork}

/-- The rows a call has loaded by the ids of the pair are the pair. -/
theorem World.Stands.eq (h : w.Stands p o n) {p₀ : Proposal} {o₀ : Offer}
    (hpair : w.db.Pair p₀ o₀) (hid : o₀.id = o.id) : p₀ = p ∧ o₀ = o := by
  obtain rfl := AutoTable.eq_of_key_eq hpair.offer h.pair.offer hid
  refine ⟨AutoTable.eq_of_key_eq hpair.proposal h.pair.proposal ?_, rfl⟩
  show p₀.id = p.id
  rw [← hpair.proposalId, h.pair.proposalId]

/-- **What a delivery prepares**: on a `MATCHED` proposal the offer waits for the
orderer, on an `ORDER_COMPLETED` one the deal is completed. -/
theorem World.Stands.deliver (h : w.Stands p o n) {uid : UserId}
    (hcall : r.call = .completeDelivery o.id uid) (hbody : r.call.body w.db r.now = .ok u) :
    o.status = .accepted ∧ ∃ p' o', u.Pairs p p' o o' ∧
      ((p.status = .matched ∧ u.levelUp = none ∧ p'.status = .matched ∧
          o'.status = .runnerCompleted) ∨
        (p.status = .orderCompleted ∧ u.levelUp = some o.runnerId ∧
          p'.status = .allCompleted ∧ o'.status = .allCompleted)) := by
  rw [hcall] at hbody
  obtain ⟨p₀, o₀, hpair, hid, -, hos, hcases⟩ := OfferService.completeDelivery_eq_ok hbody
  obtain ⟨rfl, rfl⟩ := h.eq hpair hid
  refine ⟨hos, ?_⟩
  rcases hcases with ⟨hps, event, rfl⟩ | ⟨hps, event, rfl⟩
  · exact ⟨_, _, ⟨rfl, rfl, rfl, rfl, rfl⟩, Or.inl ⟨hps, rfl, hps, rfl⟩⟩
  · exact ⟨_, _, ⟨rfl, rfl, rfl, rfl, rfl⟩, Or.inr ⟨hps, rfl, rfl, rfl⟩⟩

/-- **What a receipt prepares**: with an `ACCEPTED` offer the proposal waits for the
runner, with a `RUNNER_COMPLETED` one the deal is completed. -/
theorem World.Stands.receive (h : w.Stands p o n) {uid : UserId}
    (hcall : r.call = .confirmReceived p.id uid) (hbody : r.call.body w.db r.now = .ok u) :
    p.status = .matched ∧ ∃ p' o', u.Pairs p p' o o' ∧
      ((o.status = .accepted ∧ u.levelUp = none ∧ p'.status = .orderCompleted ∧
          o'.status = .accepted) ∨
        (o.status = .runnerCompleted ∧ u.levelUp = some o.runnerId ∧
          p'.status = .allCompleted ∧ o'.status = .allCompleted)) := by
  rw [hcall] at hbody
  obtain ⟨p₀, o₀, hpair, hid, -, hps, hcases⟩ := ProposalService.confirmReceived_eq_ok hbody
  have hex : Executed o₀.status := by
    rcases hcases with ⟨hs, -⟩ | ⟨hs, -⟩ <;> rw [hs] <;> decide
  have hof : o₀ ∈ w.db.offersOf p.id :=
    Db.mem_offersOf.2 ⟨hpair.offer, by rw [hpair.proposalId, hid]⟩
  obtain ⟨rfl, rfl⟩ := h.eq hpair (h.only o₀ hof hex)
  refine ⟨hps, ?_⟩
  rcases hcases with ⟨hos, event, rfl⟩ | ⟨hos, event, rfl⟩
  · exact ⟨_, _, ⟨rfl, rfl, rfl, rfl, rfl⟩, Or.inl ⟨hos, rfl, rfl, hos⟩⟩
  · exact ⟨_, _, ⟨rfl, rfl, rfl, rfl, rfl⟩, Or.inr ⟨hos, rfl, rfl, rfl⟩⟩

end Read

section Commit

variable {bus : EventBus} {w w' : World} {r : Request} {u : UnitOfWork} {p p' p₁ : Proposal}
  {o o' o₁ : Offer} {n : ℕ}

theorem UnitOfWork.Pairs.proposalRow (hu : u.Pairs p p' o o') {t : DateTime} (hid : p.id = p₁.id) :
    u.proposalRow t p₁ = Proposal.flush u.deadlineAssigned p p' t p₁ := by
  rw [proposalRow_of_single hu.proposals, if_pos hid]

theorem UnitOfWork.Pairs.offerRow (hu : u.Pairs p p' o o') {t : DateTime} (x : Offer) :
    u.offerRow t x = if o.id = x.id then Offer.flush o o' t x else x := by
  rw [offerRow_of_single hu.offers, rejectRow_of_none hu.rejectWaiting]

/-- **The pair after a confirmation** that was prepared on the rows `p` and `o` and is
committed when they have become `p₁` and `o₁`. -/
theorem World.Stands.commit (h : w.Stands p₁ o₁ n) (hu : u.Pairs p p' o o') (hp : p.id = p₁.id)
    (ho : o.id = o₁.id) (hc : (service bus).commit w r u = .ok w') :
    w'.Stands (Proposal.flush u.deadlineAssigned p p' r.now.flush p₁)
      (Offer.flush o o' r.now.flush o₁)
      (n + if u.levelUp = some o₁.runnerId then 1 else 0) := by
  have hprow := hu.proposalRow (t := r.now.flush) hp
  have horow : u.offerRow r.now.flush o₁ = Offer.flush o o' r.now.flush o₁ := by
    rw [hu.offerRow, if_pos ho]
  have hrunner : (Offer.flush o o' r.now.flush o₁).runnerId = o₁.runnerId := by
    rw [← horow, u.offerRow_runnerId]
  refine ⟨⟨?_, ?_, ?_⟩, ?_, ?_⟩
  · rw [← hprow]
    exact proposal_commit hc h.pair.proposal
  · rw [← horow]
    exact offer_commit hc h.pair.offer
  · rw [← horow, ← hprow, u.offerRow_proposalId, u.proposalRow_id]
    exact h.pair.proposalId
  · intro x' hx' hex
    rw [Proposal.flush_id] at hx'
    rw [← horow, u.offerRow_id]
    obtain ⟨hmem, hpid⟩ := Db.mem_offersOf.1 hx'
    rcases of_mem_offers_commit hc hmem with ⟨x, hx, rfl⟩ | ⟨x, hx, -⟩
    · rw [u.offerRow_proposalId] at hpid
      rw [u.offerRow_id]
      rw [hu.offerRow] at hex
      split at hex
      · next hid => exact hid.symm.trans ho
      · exact h.only x (Db.mem_offersOf.2 ⟨hx, hpid⟩) hex
    · rw [hu.newOffer] at hx
      exact absurd hx (by simp)
  · obtain ⟨user, huser, hid, hlevel⟩ := h.runner
    obtain ⟨user', huser', hid', hlevel'⟩ := user_commit hc huser
    refine ⟨user', huser', by rw [hid', hid, hrunner], ?_⟩
    rw [hlevel', hlevel, hid]

end Commit

/-! ## Matched pairs -/

/-- **A matched pair of a reachable database stands.** -/
theorem stands_after (bus : EventBus) (m : MasterData) (rs : List Request) {p : Proposal}
    {o : Offer} (hpair : (World.after bus m rs).db.Pair p o) (hex : Executed o.status) {user : User}
    (huser : user ∈ (World.after bus m rs).db.users) (hid : user.id = o.runnerId) :
    (World.after bus m rs).Stands p o user.level where
  pair := hpair
  only := by
    intro x hx hxex
    have hhist := (traced_after bus m rs).history p hpair.proposal
    obtain ⟨hmem, hpid⟩ := Db.mem_offersOf.1 hx
    exact congrArg Bid.id (hhist.shape.executed_unique hhist.distinct
      (Db.Pair.mem_bids ⟨hpair.proposal, hmem, hpid⟩) hpair.mem_bids hxex hex)
  runner := ⟨user, huser, hid, rfl⟩

namespace Sample

/-- The errand once the first runner has been chosen. -/
def paired : Proposal where
  id := 1
  ordererId := "orderer"
  title := "errand"
  content := "bring coffee"
  deadline := 100000
  errandFee := 5000
  status := .matched
  createdAt := 13
  matchedAt := some 50
  runnerConfirmedAt := none
  ordererConfirmedAt := none
  disputedAt := none
  resolvedAt := none
  updatedAt := 53

/-- The chosen offer. -/
def chosen : Offer where
  id := 1
  proposalId := 1
  runnerId := "runner"
  status := .accepted
  openChatUrl := none
  createdAt := 33
  acceptedAt := some 50
  runnerConfirmedAt := none
  ordererConfirmedAt := none
  disputedAt := none
  resolvedAt := none
  updatedAt := 53

theorem pair_matched : (World.after bus master matched).db.Pair paired chosen := by
  have hp : paired ∈ (World.after bus master matched).db.proposals.rows := by decide +kernel
  have ho : chosen ∈ (World.after bus master matched).db.offers.rows := by decide +kernel
  exact ⟨hp, ho, rfl⟩

theorem runner_matched : user "runner" ∈ (World.after bus master matched).db.users := by
  have h : user "runner" ∈ (World.after bus master matched).db.users.rows := by decide +kernel
  exact h

/-- The runner's delivery and the orderer's receipt. -/
def delivery : Request := request 6 (.completeDelivery 1 "runner")

def receipt : Request := request 7 (.confirmReceived 1 "orderer")

end Sample

end OrderRun
