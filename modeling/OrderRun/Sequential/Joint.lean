import OrderRun.Deal.Refinement

/-!
# Proposals and their offers

The relation between the status of a proposal and the statuses of its offers, read
off the shape of the deal they stand for.

* `Joint` — what the offers of a proposal are, status by status.
* `joint_after` — it holds for every proposal after any requests executed one at a
  time from an empty database.
-/

namespace OrderRun

open Store

/-- Exactly one of these offers is in one of these statuses; the others have lost. -/
structure OneIn (statuses : List OfferStatus) (offers : List Offer) : Prop where
  one : ∃! o, o ∈ offers ∧ o.status ∈ statuses
  others : ∀ o ∈ offers, o.status ∉ statuses → o.status = .rejected ∨ o.status = .cancelled

/-- What the offers of a proposal are, status by status. -/
def Joint (offers : List Offer) : ProposalStatus → Prop
  | .holding | .posted => offers = []
  | .offered => offers ≠ [] ∧ ∀ o ∈ offers, o.status = .waiting ∨ o.status = .cancelled
  | .matched => OneIn [.accepted, .runnerCompleted] offers
  | .orderCompleted => OneIn [.accepted] offers
  | .allCompleted => OneIn [.allCompleted] offers
  | .disputed => OneIn [.disputed] offers
  | .resolved => OneIn [.resolved] offers
  | .cancelled | .reported => ∀ o ∈ offers, o.status = .rejected ∨ o.status = .cancelled

/-- Every proposal is in step with its offers. -/
def Db.Joint (db : Db) : Prop := ∀ p ∈ db.proposals, OrderRun.Joint (db.offersOf p.id) p.status

theorem lost_iff {s : OfferStatus} : Lost s ↔ s = .rejected ∨ s = .cancelled := by
  simp [Lost]

theorem oneIn_of_lost {statuses : List OfferStatus} {offers : List Offer} {o : Offer}
    (hex : ∀ s ∈ statuses, Executed s) (ho : o ∈ offers) (hst : o.status ∈ statuses)
    (hlost : ∀ x ∈ offers, x ≠ o → Lost x.status) : OneIn statuses offers where
  one := by
    refine ⟨o, ⟨ho, hst⟩, ?_⟩
    rintro x ⟨hx, hxs⟩
    by_contra hne
    exact (hex _ hxs).not_lost (hlost x hx hne)
  others := by
    intro x hx hxs
    refine lost_iff.1 (hlost x hx ?_)
    rintro rfl
    exact hxs hst

/-- The shape of a deal says what the offers are. -/
theorem joint_of_shape {db : Db} {p : Proposal} (h : (db.deal p).Shape) :
    Joint (db.offersOf p.id) p.status := by
  have hstatus : (db.deal p).status = p.status := rfl
  have hbids : (db.deal p).bids = (db.offersOf p.id).map Offer.bid := rfl
  cases h with
  | fresh hst hb =>
      have hnil : db.offersOf p.id = [] := List.map_eq_nil_iff.1 hb
      rcases List.mem_pair.1 hst with hs | hs <;> rw [← hstatus, hs] <;> exact hnil
  | «open» hst hb hw =>
      rw [← hstatus, hst]
      refine ⟨fun hnil => hb (by rw [hbids, hnil, List.map_nil]), ?_⟩
      intro o ho
      have := hw o.bid (List.mem_map_of_mem ho)
      simpa [Offer.bid] using this
  | running x hx ht hl =>
      obtain ⟨o, ho, rfl⟩ := List.mem_map.1 hx
      have hlost : ∀ y ∈ db.offersOf p.id, y ≠ o → Lost y.status := by
        intro y hy hne
        refine hl y.bid (List.mem_map_of_mem hy) fun hid => hne ?_
        exact AutoTable.eq_of_key_eq (Db.mem_offersOf.1 hy).1 (Db.mem_offersOf.1 ho).1 hid
      have hone : ∀ ss : List OfferStatus, (∀ s ∈ ss, Executed s) → o.status ∈ ss →
          OneIn ss (db.offersOf p.id) := fun ss hex hos => oneIn_of_lost hex ho hos hlost
      have ht : Together p.status o.status := ht
      revert ht
      generalize hps : p.status = s
      generalize hos : o.status = b
      -- one goal for each pair of statuses a running deal can have
      cases s <;> cases b <;> intro ht <;>
        first
        | exact absurd ht (by decide)
        | exact hone _ (by decide) (by simp [hos])
  | closed hst hl =>
      have hall : ∀ o ∈ db.offersOf p.id, o.status = .rejected ∨ o.status = .cancelled :=
        fun o ho => lost_iff.1 (hl o.bid (List.mem_map_of_mem ho))
      rcases List.mem_pair.1 hst with hs | hs <;> rw [← hstatus, hs] <;> exact hall

/-- **Proposals and offers stay in step.**  After any requests by any users,
executed one at a time from an empty database, the offers of every proposal are what
its status says. -/
theorem joint_after (bus : EventBus) (m : MasterData) (rs : List Request) :
    (World.after bus m rs).db.Joint := by
  intro p hp
  exact joint_of_shape ((traced_after bus m rs).shape hp)

end OrderRun
