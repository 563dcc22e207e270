import OrderRun.Services.Transitions

/-!
# Commits on a database that has moved on

When calls run concurrently, a unit of work is committed to a database that may
differ from the one it was prepared on.  This file says what such a commit makes of
each row.

* `sound_service` — rows are never removed and never change owner, so everything
  pending was prepared on a database that the present one extends.
* `proposalRow_of_single`, `offerRow_of_single` — the row a call has changed alone.
* `commit_tables`, `proposal_commit`, `offer_commit` — the tables after a commit, row
  by row.
* `after_interleaved` — requests executed one at a time are a special interleaving.
-/

namespace OrderRun

open Store Split

/-! ## One row -/

section Rows

variable {u : UnitOfWork} {t : DateTime}

/-- A proposal that a call has changed alone. -/
theorem proposalRow_of_single {p₀ p' : Proposal} (hu : u.proposals = [⟨p₀, p'⟩]) (p : Proposal) :
    u.proposalRow t p =
      if p₀.id = p.id then Proposal.flush u.deadlineAssigned p₀ p' t p else p := by
  rw [UnitOfWork.proposalRow, hu]
  exact writeBack_singleton _

theorem proposalRow_of_nil (hu : u.proposals = []) (p : Proposal) : u.proposalRow t p = p := by
  rw [UnitOfWork.proposalRow, hu, writeBack_nil]

@[simp] theorem rejectRow_id (o : Offer) : (u.rejectRow t o).id = o.id := by
  rcases u.rejectRow_cases t o with h | ⟨-, h⟩ <;> rw [h]

/-- An offer that a call has changed alone; the bulk statement comes first. -/
theorem offerRow_of_single {o₀ o' : Offer} (hu : u.offers = [⟨o₀, o'⟩]) (o : Offer) :
    u.offerRow t o =
      if o₀.id = o.id then Offer.flush o₀ o' t (u.rejectRow t o) else u.rejectRow t o := by
  rw [UnitOfWork.offerRow, hu, writeBack_singleton]
  exact if_congr (by rw [show Keyed.key (u.rejectRow t o) = o.id from rejectRow_id o]; rfl) rfl rfl

theorem offerRow_of_no_change (hu : u.offers = []) (o : Offer) :
    u.offerRow t o = u.rejectRow t o := by
  rw [UnitOfWork.offerRow, hu, writeBack_nil]

theorem rejectRow_of_none (hu : u.rejectWaiting = none) (o : Offer) : u.rejectRow t o = o := by
  rw [UnitOfWork.rejectRow, hu]

/-- The bulk statement only writes waiting offers. -/
theorem rejectRow_of_ne_waiting {o : Offer} (h : o.status ≠ .waiting) : u.rejectRow t o = o := by
  rcases u.rejectRow_cases t o with h' | ⟨hw, -⟩
  · exact h'
  · exact absurd hw h

end Rows

/-! ## The tables after a commit -/

section Tables

variable {bus : EventBus} {w w' : World} {r : Request} {u : UnitOfWork}

theorem commit_tables (h : (service bus).commit w r u = .ok w') :
    w'.db.users = (u.write r.now.flush w.db).users ∧
      w'.db.proposals = (u.write r.now.flush w.db).proposals ∧
      w'.db.offers = (u.write r.now.flush w.db).offers ∧
      w'.log = ⟨r, u, w'.db⟩ :: w.log := by
  obtain ⟨db, hdb, rfl⟩ := service_commit_eq_ok.1 h
  obtain ⟨-, -, husers, hprops, hoffers⟩ := UnitOfWork.commit_eq_ok hdb
  exact ⟨husers, hprops, hoffers, rfl⟩

theorem extends_service (h : (service bus).commit w r u = .ok w') : w.db.Extends w'.db := by
  obtain ⟨db, hdb, rfl⟩ := service_commit_eq_ok.1 h
  exact UnitOfWork.extends_commit hdb

theorem proposal_commit (h : (service bus).commit w r u = .ok w') {p : Proposal}
    (hp : p ∈ w.db.proposals) : u.proposalRow r.now.flush p ∈ w'.db.proposals := by
  rw [(commit_tables h).2.1]
  exact UnitOfWork.mem_proposals_write.2 (Or.inl ⟨p, hp, rfl⟩)

theorem offer_commit (h : (service bus).commit w r u = .ok w') {o : Offer}
    (ho : o ∈ w.db.offers) : u.offerRow r.now.flush o ∈ w'.db.offers := by
  rw [(commit_tables h).2.2.1]
  exact UnitOfWork.mem_offers_write.2 (Or.inl ⟨o, ho, rfl⟩)

/-- The row with the key of an old proposal. -/
theorem proposal_commit_eq (h : (service bus).commit w r u = .ok w') {p p' : Proposal}
    (hp : p ∈ w.db.proposals) (hp' : p' ∈ w'.db.proposals) (hid : p'.id = p.id) :
    p' = u.proposalRow r.now.flush p :=
  AutoTable.eq_of_key_eq hp' (proposal_commit h hp) (hid.trans (u.proposalRow_id _ p).symm)

theorem offer_commit_eq (h : (service bus).commit w r u = .ok w') {o o' : Offer}
    (ho : o ∈ w.db.offers) (ho' : o' ∈ w'.db.offers) (hid : o'.id = o.id) :
    o' = u.offerRow r.now.flush o :=
  AutoTable.eq_of_key_eq ho' (offer_commit h ho) (hid.trans (u.offerRow_id _ o).symm)

/-- Every proposal after the commit was there before, or is the inserted one. -/
theorem of_mem_proposals_commit (h : (service bus).commit w r u = .ok w') {p' : Proposal}
    (hp' : p' ∈ w'.db.proposals) : (∃ p ∈ w.db.proposals, p' = u.proposalRow r.now.flush p) ∨
      ∃ p, u.newProposal = some p ∧ p'.status = p.status ∧ p'.id = w.db.proposals.next := by
  rw [(commit_tables h).2.1] at hp'
  rcases UnitOfWork.mem_proposals_write.1 hp' with ⟨p, hp, rfl⟩ | ⟨p, hp, rfl⟩
  · exact Or.inl ⟨p, hp, rfl⟩
  · exact Or.inr ⟨p, hp, rfl, rfl⟩

/-- Every offer after the commit was there before, or is the inserted one. -/
theorem of_mem_offers_commit (h : (service bus).commit w r u = .ok w') {o' : Offer}
    (ho' : o' ∈ w'.db.offers) : (∃ o ∈ w.db.offers, o' = u.offerRow r.now.flush o) ∨
      ∃ o, u.newOffer = some o ∧ o'.proposalId = o.proposalId ∧ o'.status = o.status ∧
        o'.id = w.db.offers.next := by
  rw [(commit_tables h).2.2.1] at ho'
  rcases UnitOfWork.mem_offers_write.1 ho' with ⟨o, ho, rfl⟩ | ⟨o, ho, rfl⟩
  · exact Or.inl ⟨o, ho, rfl⟩
  · exact Or.inr ⟨o, ho, rfl, rfl, rfl⟩

theorem of_mem_proposals_commit_of_none (h : (service bus).commit w r u = .ok w')
    (hn : u.newProposal = none) {p' : Proposal} (hp' : p' ∈ w'.db.proposals) :
    ∃ p ∈ w.db.proposals, p' = u.proposalRow r.now.flush p := by
  rcases of_mem_proposals_commit h hp' with hp | ⟨p, hp, -⟩
  · exact hp
  · rw [hn] at hp
    exact absurd hp (by simp)

/-- The offers of a proposal stay offers of it. -/
theorem mem_offersOf_commit (h : (service bus).commit w r u = .ok w') {pid : ℕ} {o : Offer}
    (ho : o ∈ w.db.offersOf pid) : u.offerRow r.now.flush o ∈ w'.db.offersOf pid := by
  obtain ⟨hmem, hpid⟩ := Db.mem_offersOf.1 ho
  exact Db.mem_offersOf.2 ⟨offer_commit h hmem, by rw [u.offerRow_proposalId, hpid]⟩

theorem of_mem_offersOf_commit (h : (service bus).commit w r u = .ok w') {pid : ℕ} {o' : Offer}
    (ho' : o' ∈ w'.db.offersOf pid) :
    (∃ o ∈ w.db.offersOf pid, o' = u.offerRow r.now.flush o) ∨
      ∃ o, u.newOffer = some o ∧ o'.status = o.status := by
  obtain ⟨hmem, hpid⟩ := Db.mem_offersOf.1 ho'
  rcases of_mem_offers_commit h hmem with ⟨o, ho, rfl⟩ | ⟨o, ho, -, hst, -⟩
  · exact Or.inl ⟨o, Db.mem_offersOf.2 ⟨ho, by rw [← hpid, u.offerRow_proposalId]⟩, rfl⟩
  · exact Or.inr ⟨o, ho, hst⟩

/-- The user rows after a commit. -/
theorem user_commit (h : (service bus).commit w r u = .ok w') {v : User} (hv : v ∈ w.db.users) :
    ∃ v' ∈ w'.db.users, v'.id = v.id ∧
      v'.level = v.level + if u.levelUp = some v.id then 1 else 0 := by
  rw [(commit_tables h).1]
  exact ⟨u.userRow v, UnitOfWork.mem_users_write.2 ⟨v, hv, rfl⟩, u.userRow_id v, u.userRow_level v⟩

/-- **Rows stay.**  Whatever is pending was prepared on a database that the present one
extends. -/
theorem sound_service (bus : EventBus) (A : Request → Prop) :
    (service bus).Sound (fun _ => True) (fun w w' => w.db.Extends w'.db) A where
  refl := fun w => Db.Extends.refl w.db
  trans := fun _ _ _ => Db.Extends.trans
  commit := fun _ _ _ _ _ h => ⟨trivial, extends_service h⟩

/-- **Executing requests one at a time is one of the interleavings**, in which every
commit follows its own read. -/
theorem after_interleaved (bus : EventBus) (m : MasterData) (rs : List Request) :
    Runs.run (service bus).step (State.quiet (World.initial m))
        (rs.flatMap fun r => [.read 0 r, .commit 0]) = State.quiet (World.after bus m rs) :=
  Service.run_calls (World.initial m) rs

end Tables
end OrderRun
