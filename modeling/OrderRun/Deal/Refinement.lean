import OrderRun.Deal.Chronicle
import OrderRun.Services.Call

/-!
# The tables refine the lifecycle

What the two tables hold about a proposal is a deal, and what the service does to
it, one request at a time, is what the lifecycle allows.

* `Db.deal` — the deal a proposal and its offers stand for.
* `Entry.move` — the move a committed transaction made on a deal.
* `follows_commit` — one request: the deal of every proposal makes the move of the
  transaction, legally, or is left alone.
* `World.Traced`, `traced_after` — a whole run: the deal of every proposal is the
  result of the moves that the log holds for it.
-/

namespace OrderRun

open Store

/-! ## Deals in the database -/

/-- The recorded instants of a proposal. -/
def Proposal.marks (p : Proposal) : Marks DateTime :=
  ⟨p.matchedAt, p.runnerConfirmedAt, p.ordererConfirmedAt, p.disputedAt, p.resolvedAt⟩

/-- The recorded instants of an offer. -/
def Offer.marks (o : Offer) : Marks DateTime :=
  ⟨o.acceptedAt, o.runnerConfirmedAt, o.ordererConfirmedAt, o.disputedAt, o.resolvedAt⟩

/-- An offer as a bid. -/
def Offer.bid (o : Offer) : Bid ℕ DateTime := ⟨o.id, o.status, o.marks⟩

@[simp] theorem Offer.bid_id (o : Offer) : o.bid.id = o.id := rfl

/-- A proposal and its offers as a deal. -/
def Db.deal (db : Db) (p : Proposal) : Deal ℕ DateTime :=
  ⟨p.status, p.marks, (db.offersOf p.id).map Offer.bid⟩

theorem Db.mem_deal_bids {db : Db} {p : Proposal} {x : Bid ℕ DateTime} :
    x ∈ (db.deal p).bids ↔ ∃ o ∈ db.offers, o.proposalId = p.id ∧ o.bid = x := by
  simp [Db.deal, Db.mem_offersOf, and_assoc]

theorem Db.Pair.mem_bids {db : Db} {p : Proposal} {o : Offer} (h : db.Pair p o) :
    o.bid ∈ (db.deal p).bids :=
  Db.mem_deal_bids.2 ⟨o, h.offer, h.proposalId, rfl⟩

/-! ## The moves of a transaction -/

/-- The proposal and the offer a transaction has changed, if it is one of each. -/
def UnitOfWork.pair (u : UnitOfWork) : Option (Proposal × Offer) :=
  match u.proposals, u.offers with
  | [p], [o] => some (p.loaded, o.loaded)
  | _, _ => none

/-- The move a transaction has made on the deal of its own proposal. -/
def Entry.ownMove (e : Entry) (pid : ℕ) (move : Proposal → Offer → Move ℕ DateTime) :
    Option (Move ℕ DateTime) :=
  match e.work.pair with
  | some (p, o) => if p.id = pid then some (move p o) else none
  | none => none

/-- The move a transaction has made on the deal of proposal `pid`. -/
def Entry.move (pid : ℕ) (e : Entry) : Option (Move ℕ DateTime) :=
  let now := e.request.now
  if e.committed.proposals.next ≤ pid then none else
  match e.request.call with
  | .proposalCreate _ _ | .reportCreate _ _ _ | .reportReject _ => none
  | .proposalUpdate pid' _ _ => if pid' = pid then some .edit else none
  | .proposalCancel pid' _ => if pid' = pid then some .drop else none
  | .confirmPayment pid' => if pid' = pid then some .pay else none
  | .offerCreate pid' _ =>
      if pid' = pid then some (.bid (e.committed.offers.next - 1)) else none
  | .offerCancel _ _ =>
      match e.work.offers with
      | [c] => if c.loaded.proposalId = pid then some (.retract (· = c.loaded.id)) else none
      | _ => none
  | .offerAccept _ _ => e.ownMove pid fun _ o => .choose o.id now.first
  | .completeDelivery _ _ => e.ownMove pid fun p o =>
      .advance (if p.status = .orderCompleted then .deliverLast else .deliver)
        o.id now.second now.first now.third
  | .confirmReceived _ _ => e.ownMove pid fun _ o =>
      .advance (if o.status = .runnerCompleted then .receiveLast else .receive)
        o.id now.first now.second now.second
  | .proposalDispute _ _ _ _ => e.ownMove pid fun _ o =>
      .advance .dispute o.id now.first now.second now.second
  | .offerDispute _ _ _ _ => e.ownMove pid fun _ o =>
      .advance .dispute o.id now.second now.first now.first
  | .resolve _ => e.ownMove pid fun _ o => .advance .resolve o.id now.second now.first now.first
  | .reportAccept _ =>
      match e.work.proposals with
      | [c] => if c.loaded.id = pid ∧ c.loaded.status ≠ .reported then some .report else none
      | _ => none
  | .withdrawUser _ =>
      if pid ∈ e.work.proposals.map (·.loaded.id) then some .leave
      else some (.retract fun b => b ∈ e.work.offers.map (·.loaded.id))

/-- The deal has made the move, legally; without a move it is left alone. -/
def Follows (d d' : Deal ℕ DateTime) : Option (Move ℕ DateTime) → Prop
  | none => d' = d
  | some m => d.Legal m ∧ d' = d.play m

theorem follows_own {d d' : Deal ℕ DateTime} {r : Request} {u : UnitOfWork} {db : Db} {p : Proposal}
    {o : Offer} {pid : ℕ} {move : Proposal → Offer → Move ℕ DateTime} (h : u.pair = some (p, o))
    (hf : Follows d d' (if p.id = pid then some (move p o) else none)) :
    Follows d d' (Entry.ownMove ⟨r, u, db⟩ pid move) := by
  rw [Entry.ownMove, h]
  exact hf

/-! ## Rows and bids -/

section Rows

variable {u : UnitOfWork} {utcnow : DateTime} {db : Db}

theorem Offer.bid_of_flush_self {o o' : Offer} (t : DateTime) (hid : o'.id = o.id) :
    (Offer.flush o o' t o).bid = o'.bid := by
  simp [Offer.bid, Offer.marks, hid]

/-- The deal of a proposal after a commit, bid by bid. -/
theorem deal_write {p : Proposal} {f : Bid ℕ DateTime → Bid ℕ DateTime}
    (hf : ∀ o ∈ db.offersOf p.id, (u.offerRow utcnow o).bid = f o.bid) :
    (u.write utcnow db).deal (u.proposalRow utcnow p) =
      ⟨(u.proposalRow utcnow p).status, (u.proposalRow utcnow p).marks,
        (db.deal p).bids.map f ++ match u.newOffer with
          | none => []
          | some o =>
            if o.proposalId = p.id then [⟨db.offers.next, o.status, o.marks⟩] else []⟩ := by
  have hold : ((db.offers.rows.map (u.offerRow utcnow)).filter
        fun o => o.proposalId = p.id).map Offer.bid = (db.deal p).bids.map f := by
    rw [List.filter_map, List.map_map, Db.deal, List.map_map]
    have hpred : ((fun o : Offer => decide (o.proposalId = p.id)) ∘ u.offerRow utcnow)
        = fun o => decide (o.proposalId = p.id) := by
      funext o
      simp
    rw [hpred]
    exact List.map_congr_left hf
  unfold Db.deal Db.offersOf UnitOfWork.write
  rw [UnitOfWork.proposalRow_id]
  cases u.newOffer with
  | none =>
      simp only [AutoTable.add_none, AutoTable.rows_map, List.append_nil]
      rw [hold]
      rfl
  | some o =>
      simp only [AutoTable.add, AutoTable.rows_insert, AutoTable.rows_map, List.filter_append,
        List.map_append]
      rw [hold]
      by_cases h : o.proposalId = p.id
      · simp [h, Offer.bid, Db.deal, Offer.marks, Db.offersOf]
      · simp [h, Db.deal, Db.offersOf]

/-- A deal no row of which is written is left alone. -/
theorem deal_untouched {p : Proposal} (hp : ∀ c ∈ u.proposals, c.loaded.id ≠ p.id)
    (ho : ∀ o ∈ db.offersOf p.id, (u.offerRow utcnow o).bid = o.bid)
    (hnew : ∀ o, u.newOffer = some o → o.proposalId ≠ p.id) :
    (u.write utcnow db).deal (u.proposalRow utcnow p) = db.deal p := by
  have hrow : u.proposalRow utcnow p = p := writeBack_of_notMem hp
  rw [deal_write (f := id) ho, hrow, List.map_id]
  cases hn : u.newOffer with
  | none => simp [Db.deal]
  | some o => simp [Db.deal, hnew o hn]

theorem offerRow_of_nil (hu : u.offers = []) (hr : u.rejectWaiting = none) (o : Offer) :
    u.offerRow utcnow o = o := by
  simp [UnitOfWork.offerRow, UnitOfWork.rejectRow, hu, hr]

/-- An offer that is changed alone, without a bulk statement. -/
theorem offerRow_bid_single {o₀ o' : Offer} (hu : u.offers = [⟨o₀, o'⟩])
    (hr : u.rejectWaiting = none) (hid : o'.id = o₀.id) (ho₀ : o₀ ∈ db.offers) {o : Offer}
    (ho : o ∈ db.offers) :
    (u.offerRow utcnow o).bid = if o.bid.id = o₀.id then o'.bid else o.bid := by
  simp only [UnitOfWork.offerRow, UnitOfWork.rejectRow, hu, hr, writeBack_singleton]
  by_cases h : o.bid.id = o₀.id
  · rw [if_pos h]
    obtain rfl : o = o₀ := AutoTable.eq_of_key_eq ho ho₀ h
    rw [if_pos rfl]
    exact Offer.bid_of_flush_self utcnow hid
  · rw [if_neg h, if_neg fun he => h he.symm]

/-- A proposal that is changed alone. -/
theorem proposalRow_single {p₀ p' : Proposal} (utcnow : DateTime) (hu : u.proposals = [⟨p₀, p'⟩]) :
    (u.proposalRow utcnow p₀).status = p'.status ∧ (u.proposalRow utcnow p₀).marks = p'.marks := by
  simp [UnitOfWork.proposalRow, hu, Proposal.marks]

theorem ne_of_single {p₀ p' p : Proposal} (hu : u.proposals = [⟨p₀, p'⟩]) (h : p₀.id ≠ p.id) :
    ∀ c ∈ u.proposals, c.loaded.id ≠ p.id := by
  intro c hc
  rw [hu, List.mem_singleton] at hc
  rw [hc]
  exact h

end Rows

/-! ## One request -/

section Steps

variable {u : UnitOfWork} {n : DateTime} {db : Db}

/-- A change of the proposal alone. -/
theorem follows_proposal {p₀ p' p : Proposal} {assigned : Bool}
    (hu : u = { proposals := [⟨p₀, p'⟩], deadlineAssigned := assigned })
    {m : Move ℕ DateTime} (hm : m = .edit ∨ m = .pay) (hmarks : p'.marks = p₀.marks)
    (hstatus : p'.status = m.dealStatus p₀.status) (legal : (db.deal p₀).Legal m)
    (hp₀ : p₀ ∈ db.proposals) (hp : p ∈ db.proposals) :
    Follows (db.deal p) ((u.write n db).deal (u.proposalRow n p))
      (if p₀.id = p.id then some m else none) := by
  have hprop : u.proposals = [⟨p₀, p'⟩] := congrArg UnitOfWork.proposals hu
  have hrow : ∀ o ∈ db.offersOf p.id, (u.offerRow n o).bid = id o.bid := by
    intro o _
    rw [hu, offerRow_of_nil rfl rfl]
    rfl
  by_cases h : p₀.id = p.id
  · obtain rfl : p₀ = p := AutoTable.eq_of_key_eq hp₀ hp h
    obtain ⟨hs, hk⟩ := proposalRow_single n hprop
    rw [if_pos rfl]
    refine ⟨legal, ?_⟩
    rw [deal_write hrow, hs, hk, hu, hstatus, hmarks]
    rcases hm with rfl | rfl <;>
      simp [Deal.play, Db.deal, Move.newBids, Move.mark, Move.onBid]
  · rw [if_neg h]
    exact deal_untouched (ne_of_single hprop h) hrow (by simp [hu])

/-- A change of one proposal and of one of its offers: a stage of the execution. -/
theorem follows_pair {p₀ p' p : Proposal} {o₀ o' : Offer} {up : Option UserId}
    {evidence : Option DisputeEvidence} {event : Option (ℕ → DomainEvent)}
    (hu : u = { levelUp := up, newEvidence := evidence, proposals := [⟨p₀, p'⟩]
                offers := [⟨o₀, o'⟩], event := event })
    (stage : Stage) {t tb tc : DateTime} (hst : stage.Starts p₀.status o₀.status)
    (hstatus : p'.status = stage.dealStatus) (hmarks : p'.marks = stage.mark p₀.marks t)
    (hbid : o'.bid = ⟨o₀.id, stage.bidStatus, stage.markBid o₀.marks tb tc⟩)
    (hpair : db.Pair p₀ o₀) (hp : p ∈ db.proposals) :
    Follows (db.deal p) ((u.write n db).deal (u.proposalRow n p))
      (if p₀.id = p.id then some (.advance stage o₀.id t tb tc) else none) := by
  have hprop : u.proposals = [⟨p₀, p'⟩] := congrArg UnitOfWork.proposals hu
  have hid : o'.id = o₀.id := congrArg Bid.id hbid
  have hrow : ∀ o ∈ db.offersOf p.id, (u.offerRow n o).bid =
      if o.bid.id = o₀.id then o'.bid else o.bid :=
    fun o h => offerRow_bid_single (congrArg UnitOfWork.offers hu)
      (congrArg UnitOfWork.rejectWaiting hu) hid hpair.offer (Db.mem_offersOf.1 h).1
  by_cases h : p₀.id = p.id
  · obtain rfl : p₀ = p := AutoTable.eq_of_key_eq hpair.proposal hp h
    obtain ⟨hs, hk⟩ := proposalRow_single n hprop
    rw [if_pos rfl]
    refine ⟨⟨o₀.bid, hpair.mem_bids, rfl, hst⟩, ?_⟩
    rw [deal_write (f := fun x => if x.id = o₀.id then o'.bid else x) hrow, hs, hk, hu, hstatus,
      hmarks]
    have hmap : (db.deal p₀).bids.map (fun x => if x.id = o₀.id then o'.bid else x)
        = (db.deal p₀).bids.map (Move.onBid (.advance stage o₀.id t tb tc)) := by
      refine List.map_congr_left fun x hx => ?_
      rw [Move.onBid_advance]
      split
      · next hxid =>
          obtain ⟨o, ho', -, rfl⟩ := Db.mem_deal_bids.1 hx
          obtain rfl : o = o₀ := AutoTable.eq_of_key_eq ho' hpair.offer hxid
          rw [hbid]
          rfl
      · rfl
    rw [hmap]
    rfl
  · rw [if_neg h]
    refine deal_untouched (ne_of_single hprop h) ?_ (by simp [hu])
    intro o hmem
    rw [hrow o hmem]
    refine if_neg fun he => h ?_
    obtain rfl : o = o₀ := AutoTable.eq_of_key_eq (Db.mem_offersOf.1 hmem).1 hpair.offer he
    rw [← hpair.proposalId]
    exact (Db.mem_offersOf.1 hmem).2

/-- The bulk rejection on a bid. -/
theorem rejectWaiting_bid (stmt : RejectWaiting) (o : Offer) : (stmt.row n o).bid =
    if o.proposalId = stmt.proposalId ∧ stmt.except ≠ some o.id then o.bid.reject else o.bid := by
  unfold RejectWaiting.row
  by_cases h : o.proposalId = stmt.proposalId ∧ stmt.except ≠ some o.id
  · rw [if_pos h]
    by_cases hw : o.status = .waiting
    · rw [if_pos (show stmt.Selects o from ⟨h.1, h.2, hw⟩)]
      exact (if_pos hw).symm
    · rw [if_neg fun hc : stmt.Selects o => hw hc.2.2]
      exact (Bid.reject_of_not_waiting hw).symm
  · rw [if_neg h, if_neg fun hc : stmt.Selects o => h ⟨hc.1, hc.2.1⟩]

/-- A proposal is given up or taken down, and the bids waiting on it are rejected. -/
theorem follows_reject {p₀ p' p : Proposal} {stmt : Option RejectWaiting}
    {reports : List (Change ProposalReport)}
    (hu : u = { rejectWaiting := stmt, proposals := [⟨p₀, p'⟩], reports := reports })
    (hr : ∀ o ∈ db.offers, (u.rejectRow n o).bid =
      if o.proposalId = p₀.id then o.bid.reject else o.bid)
    {m : Move ℕ DateTime} (hm : m = .drop ∨ m = .report) (hmarks : p'.marks = p₀.marks)
    (hstatus : p'.status = m.dealStatus p₀.status) (legal : (db.deal p₀).Legal m)
    (hp₀ : p₀ ∈ db.proposals) (hp : p ∈ db.proposals) :
    Follows (db.deal p) ((u.write n db).deal (u.proposalRow n p))
      (if p₀.id = p.id then some m else none) := by
  have hprop : u.proposals = [⟨p₀, p'⟩] := congrArg UnitOfWork.proposals hu
  have hrow : ∀ o ∈ db.offers, (u.offerRow n o).bid =
      if o.proposalId = p₀.id then o.bid.reject else o.bid := by
    intro o hmem
    rw [← hr o hmem, UnitOfWork.offerRow, congrArg UnitOfWork.offers hu, writeBack_nil]
  by_cases h : p₀.id = p.id
  · obtain rfl : p₀ = p := AutoTable.eq_of_key_eq hp₀ hp h
    obtain ⟨hs, hk⟩ := proposalRow_single n hprop
    rw [if_pos rfl]
    refine ⟨legal, ?_⟩
    rw [deal_write (f := Bid.reject), hs, hk, congrArg UnitOfWork.newOffer hu, hstatus, hmarks]
    · rcases hm with rfl | rfl <;> rfl
    · intro o hmem
      rw [hrow o (Db.mem_offersOf.1 hmem).1, if_pos (Db.mem_offersOf.1 hmem).2]
  · rw [if_neg h]
    refine deal_untouched (ne_of_single hprop h) ?_ (by simp [hu])
    intro o hmem
    rw [hrow o (Db.mem_offersOf.1 hmem).1, if_neg]
    rw [(Db.mem_offersOf.1 hmem).2]
    exact fun he => h he.symm

/-- A new offer. -/
theorem follows_bid {p₀ p : Proposal} {runner : UserId} {event : Option (ℕ → DomainEvent)}
    (hu : u = { newOffer := some (Offer.create p₀.id runner)
                proposals := [⟨p₀, { p₀ with status := .offered }⟩], event := event })
    (hstatus : p₀.status = .posted ∨ p₀.status = .offered)
    (hp₀ : p₀ ∈ db.proposals) (hp : p ∈ db.proposals) :
    Follows (db.deal p) ((u.write n db).deal (u.proposalRow n p))
      (if p₀.id = p.id then some (.bid db.offers.next) else none) := by
  have hprop : u.proposals = [⟨p₀, { p₀ with status := .offered }⟩] := by rw [hu]
  have hrow : ∀ o ∈ db.offersOf p.id, (u.offerRow n o).bid = id o.bid := by
    intro o _
    rw [offerRow_of_nil (by rw [hu]) (by rw [hu])]
    rfl
  by_cases h : p₀.id = p.id
  · obtain rfl : p₀ = p := AutoTable.eq_of_key_eq hp₀ hp h
    obtain ⟨hs, hk⟩ := proposalRow_single n hprop
    rw [if_pos rfl]
    refine ⟨⟨by simpa [Db.deal] using hstatus, ?_⟩, ?_⟩
    · intro x hx
      obtain ⟨o, ho, -, rfl⟩ := Db.mem_deal_bids.1 hx
      exact (AutoTable.lt_next ho).ne
    · rw [deal_write hrow, hs, hk, hu]
      simp [Deal.play, Db.deal, Move.newBids, Move.mark, Move.onBid, Move.dealStatus,
        Offer.create, Proposal.marks, Offer.marks]
  · rw [if_neg h]
    refine deal_untouched (ne_of_single hprop h) hrow ?_
    intro o ho
    rw [hu, Option.some.injEq] at ho
    rw [← ho]
    exact h

/-- A runner takes an offer back. -/
theorem follows_retract {o₀ : Offer} {p : Proposal}
    (hu : u = { offers := [⟨o₀, { o₀ with status := .cancelled }⟩] })
    (hw : o₀.status = .waiting) (ho₀ : o₀ ∈ db.offers) :
    Follows (db.deal p) ((u.write n db).deal (u.proposalRow n p))
      (if o₀.proposalId = p.id then some (.retract (· = o₀.id)) else none) := by
  have hprop : u.proposalRow n p = p := by rw [hu]; rfl
  have hcancel : ({ o₀ with status := .cancelled } : Offer).bid = o₀.bid.cancel :=
    (if_pos hw).symm
  have hrow : ∀ o ∈ db.offersOf p.id, (u.offerRow n o).bid =
      if o.bid.id = o₀.id then o₀.bid.cancel else o.bid := by
    intro o hmem
    rw [← hcancel]
    exact offerRow_bid_single (congrArg UnitOfWork.offers hu)
      (congrArg UnitOfWork.rejectWaiting hu) rfl ho₀ (Db.mem_offersOf.1 hmem).1
  by_cases h : o₀.proposalId = p.id
  · rw [if_pos h]
    refine ⟨trivial, ?_⟩
    rw [deal_write (f := fun x => if x.id = o₀.id then o₀.bid.cancel else x) hrow, hprop, hu]
    have hmap : (db.deal p).bids.map (fun x => if x.id = o₀.id then o₀.bid.cancel else x)
        = (db.deal p).bids.map (Move.onBid (.retract (· = o₀.id))) := by
      refine List.map_congr_left fun x hx => ?_
      obtain ⟨o, ho, -, rfl⟩ := Db.mem_deal_bids.1 hx
      rw [Move.onBid_retract]
      by_cases hid : o.bid.id = o₀.id
      · obtain rfl : o = o₀ := AutoTable.eq_of_key_eq ho ho₀ hid
        simp
      · simp only [if_neg hid, decide_eq_true_eq]
    rw [hmap]
    rfl
  · rw [if_neg h]
    refine deal_untouched (by simp [hu]) ?_ (by simp [hu])
    intro o hmem
    rw [hrow o hmem]
    refine if_neg fun he => h ?_
    obtain rfl : o = o₀ := AutoTable.eq_of_key_eq (Db.mem_offersOf.1 hmem).1 ho₀ he
    exact (Db.mem_offersOf.1 hmem).2

/-- An orderer accepts an offer. -/
theorem follows_choose {p₀ p : Proposal} {o₀ : Offer} {t : DateTime}
    {event : Option (ℕ → DomainEvent)}
    (hu : u = {
      rejectWaiting := some ⟨p₀.id, some o₀.id⟩
      proposals := [⟨p₀, { p₀ with status := .matched, matchedAt := some t }⟩]
      offers := [⟨o₀, { o₀ with status := .accepted, acceptedAt := some t }⟩]
      event := event })
    (hw : o₀.status = .waiting) (hstatus : p₀.status = .offered) (hpair : db.Pair p₀ o₀)
    (hp : p ∈ db.proposals) :
    Follows (db.deal p) ((u.write n db).deal (u.proposalRow n p))
      (if p₀.id = p.id then some (.choose o₀.id t) else none) := by
  have hprop : u.proposals = [⟨p₀, { p₀ with status := .matched, matchedAt := some t }⟩] := by
    rw [hu]
  have hreject : ∀ o, (u.rejectRow n o).bid =
      if o.proposalId = p₀.id ∧ o.id ≠ o₀.id then o.bid.reject else o.bid := by
    intro o
    rw [hu]
    refine (rejectWaiting_bid _ o).trans (if_congr ?_ rfl rfl)
    simp [eq_comm]
  have hrow : ∀ o ∈ db.offers, (u.offerRow n o).bid =
      if o.bid.id = o₀.id then ⟨o.id, .accepted, { o.marks with matched := some t }⟩
      else if o.proposalId = p₀.id then o.bid.reject else o.bid := by
    intro o ho
    have hkey : (u.rejectRow n o).id = o.id := by
      rcases u.rejectRow_cases n o with he | ⟨-, he⟩ <;> rw [he]
    have hoffers : u.offers = [⟨o₀, { o₀ with status := .accepted, acceptedAt := some t }⟩] := by
      rw [hu]
    simp only [UnitOfWork.offerRow, hoffers, writeBack_singleton]
    by_cases h : o.bid.id = o₀.id
    · obtain rfl : o = o₀ := AutoTable.eq_of_key_eq ho hpair.offer h
      -- the bulk statement leaves the accepted offer out
      have hself : u.rejectRow n o = o := by
        rw [hu]
        exact if_neg fun hc => hc.2.1 rfl
      rw [if_pos h, hself, if_pos rfl]
      exact Offer.bid_of_flush_self n rfl
    · have hne : o.id ≠ o₀.id := h
      rw [if_neg h, if_neg, hreject o]
      · exact if_congr (and_iff_left hne) rfl rfl
      · intro he
        exact hne (hkey.symm.trans he.symm)
  by_cases h : p₀.id = p.id
  · obtain rfl : p₀ = p := AutoTable.eq_of_key_eq hpair.proposal hp h
    obtain ⟨hs, hk⟩ := proposalRow_single n hprop
    rw [if_pos rfl]
    refine ⟨⟨hstatus, o₀.bid, hpair.mem_bids, rfl, hw⟩, ?_⟩
    rw [deal_write (f := Move.onBid (.choose o₀.id t)), hs, hk, hu]
    · rfl
    · intro o hmem
      obtain ⟨ho, hop⟩ := Db.mem_offersOf.1 hmem
      rw [hrow o ho, Move.onBid_choose, if_pos hop]
      rfl
  · rw [if_neg h]
    refine deal_untouched (ne_of_single hprop h) ?_ (by simp [hu])
    intro o hmem
    obtain ⟨ho, hop⟩ := Db.mem_offersOf.1 hmem
    have hne : o.proposalId ≠ p₀.id := fun he => h (he.symm.trans hop)
    rw [hrow o ho, if_neg, if_neg hne]
    intro he
    obtain rfl : o = o₀ := AutoTable.eq_of_key_eq ho hpair.offer he
    exact hne hpair.proposalId

section Withdrawal

open UserWithdrawalService

/-- The offers a withdrawal takes back, as bids. -/
theorem withdrawn_bid {os : List Offer} (hos : ∀ o ∈ os, o ∈ db.offers ∧ o.status = .waiting)
    (hu : u.offers = os.map cancelledOffer) (hr : u.rejectWaiting = none) {o : Offer}
    (ho : o ∈ db.offers) : (u.offerRow n o).bid =
      if o.id ∈ u.offers.map (·.loaded.id) then o.bid.cancel else o.bid := by
  have hreject : u.rejectRow n o = o := by rw [UnitOfWork.rejectRow, hr]
  rw [UnitOfWork.offerRow, hreject]
  rcases writeBack_cases (fun loaded dirty row => Offer.flush loaded dirty n row)
    u.offers o with ⟨hno, he⟩ | ⟨c, hc, hid, he⟩
  · rw [he, if_neg]
    intro hmem
    obtain ⟨c, hc, hid⟩ := List.mem_map.1 hmem
    exact hno c hc hid
  · have hmem : o.id ∈ u.offers.map (·.loaded.id) := List.mem_map.2 ⟨c, hc, hid⟩
    rw [hu] at hc
    obtain ⟨x, hx, rfl⟩ := List.mem_map.1 hc
    obtain rfl : x = o := AutoTable.eq_of_key_eq (hos x hx).1 ho hid
    rw [he, if_pos hmem]
    have hbid := Offer.bid_of_flush_self n
      (show ({ x with status := .cancelled } : Offer).id = x.id from rfl)
    exact hbid.trans (if_pos (hos x hx).2).symm

/-- An open errand of the user who leaves. -/
theorem withdrawn_proposalRow {uid : UserId} {p : Proposal}
    (hu : u.proposals = (openProposals db uid).map cancelledProposal)
    (hopen : p ∈ openProposals db uid) :
    (u.proposalRow n p).status = .cancelled ∧ (u.proposalRow n p).marks = p.marks := by
  rcases writeBack_cases
    (fun loaded dirty row => Proposal.flush u.deadlineAssigned loaded dirty n row)
    u.proposals p with ⟨hno, -⟩ | ⟨c, hc, hid, he⟩
  · refine absurd rfl (hno (cancelledProposal p) ?_)
    rw [hu]
    exact List.mem_map_of_mem hopen
  · rw [hu] at hc
    obtain ⟨q, hq, rfl⟩ := List.mem_map.1 hc
    obtain rfl : q = p :=
      AutoTable.eq_of_key_eq (List.mem_filter.1 hq).1 (List.mem_filter.1 hopen).1 hid
    rw [UnitOfWork.proposalRow, he]
    simp [cancelledProposal, Proposal.marks]

/-- A user leaves: the user's own open errands are given up, and the user's waiting
offers are taken back. -/
theorem follows_withdraw {p : Proposal} {uid : UserId} {purge : Option Purge}
    {users : List (Change User)}
    (hu : u = {
      purge := purge
      proposals := (openProposals db uid).map cancelledProposal
      offers := (waitingOffers db ((openProposals db uid).map (·.id)) ++
        runnerOffers db uid).map cancelledOffer
      users := users })
    (hp : p ∈ db.proposals) :
    Follows (db.deal p) ((u.write n db).deal (u.proposalRow n p))
      (if p.id ∈ u.proposals.map (·.loaded.id) then some .leave
        else some (.retract fun b => b ∈ u.offers.map (·.loaded.id))) := by
  have hprops := congrArg UnitOfWork.proposals hu
  have hoffers := congrArg UnitOfWork.offers hu
  have hrow : ∀ o ∈ db.offers, (u.offerRow n o).bid =
      if o.id ∈ u.offers.map (·.loaded.id) then o.bid.cancel else o.bid := fun o ho =>
    withdrawn_bid (fun _ h => waiting_of_mem_withdrawn h) hoffers
      (congrArg UnitOfWork.rejectWaiting hu) ho
  by_cases hopen : p ∈ openProposals db uid
  · -- one of the user's own errands
    have hmem : p.id ∈ u.proposals.map (·.loaded.id) := by
      rw [hprops]
      exact List.mem_map.2 ⟨cancelledProposal p, List.mem_map_of_mem hopen, rfl⟩
    obtain ⟨hstatus, hmarks⟩ := withdrawn_proposalRow (n := n) hprops hopen
    rw [if_pos hmem]
    refine ⟨status_of_mem_openProposals hopen, ?_⟩
    rw [deal_write (f := Bid.cancel), hstatus, hmarks, hu]
    · rfl
    · intro o ho
      obtain ⟨homem, hop⟩ := Db.mem_offersOf.1 ho
      rw [hrow o homem]
      split
      · rfl
      · next hnot =>
          refine (Bid.cancel_of_not_waiting fun hw => hnot ?_).symm
          have hsel : o ∈ waitingOffers db ((openProposals db uid).map (·.id)) := by
            refine List.mem_filter.2 ⟨homem, decide_eq_true ⟨?_, ?_⟩⟩
            · rw [hop]
              exact List.mem_map_of_mem hopen
            · exact List.mem_singleton.2 hw
          rw [hoffers]
          exact List.mem_map.2
            ⟨cancelledOffer o, List.mem_map_of_mem (List.mem_append_left _ hsel), rfl⟩
  · -- an errand of somebody else
    have hno : ∀ c ∈ u.proposals, c.loaded.id ≠ p.id := by
      intro c hc hid
      rw [hprops] at hc
      obtain ⟨q, hq, rfl⟩ := List.mem_map.1 hc
      obtain rfl : q = p := AutoTable.eq_of_key_eq (List.mem_filter.1 hq).1 hp hid
      exact hopen hq
    have hprop : u.proposalRow n p = p := writeBack_of_notMem hno
    rw [if_neg]
    · refine ⟨trivial, ?_⟩
      rw [deal_write (f := Move.onBid (.retract fun b => b ∈ u.offers.map (·.loaded.id))), hprop]
      · rw [hu]
        rfl
      · intro o ho
        rw [hrow o (Db.mem_offersOf.1 ho).1, Move.onBid_retract]
        by_cases hmem : o.id ∈ u.offers.map (·.loaded.id)
        · rw [if_pos hmem]
          exact (if_pos (decide_eq_true hmem)).symm
        · rw [if_neg hmem]
          exact (if_neg (by simpa using hmem)).symm
    · intro hmem
      obtain ⟨c, hc, hid⟩ := List.mem_map.1 hmem
      exact hno c hc hid

end Withdrawal

/-- A commit that touches neither proposals nor offers. -/
theorem follows_nothing {p : Proposal} (hu : u.proposals = []) (ho : u.offers = [])
    (hr : u.rejectWaiting = none) (hn : u.newOffer = none) :
    Follows (db.deal p) ((u.write n db).deal (u.proposalRow n p)) none := by
  refine deal_untouched (by simp [hu]) ?_ (by simp [hn])
  intro o _
  rw [offerRow_of_nil ho hr]

end Steps

/-! ## One request -/

section Commit

variable {bus : EventBus} {w : World} {r : Request} {u : UnitOfWork} {db : Db}

theorem Db.deal_congr {db db' : Db} (h : db.offers = db'.offers) (p : Proposal) :
    db.deal p = db'.deal p := by
  unfold Db.deal Db.offersOf
  rw [h]

/-- The key counter of the offers moves by one for a new offer. -/
theorem next_offers_write {t : DateTime} (o : Offer) (hn : u.newOffer = some o) :
    (u.write t w.db).offers.next - 1 = w.db.offers.next := by
  simp [UnitOfWork.write, hn, AutoTable.add, AutoTable.insert]

/-- Giving up an errand rejects the bids waiting on it, although the bulk statement is
only executed if the errand is `OFFERED`: otherwise nobody has bid on it. -/
theorem bid_of_cancel {q q' : Proposal} {t : DateTime}
    (hu : u = {
      rejectWaiting := if q.status = .offered then some ⟨q.id, none⟩ else none
      proposals := [⟨q, q'⟩] })
    (hst : q.status ∈ ProposalService.CANCELLABLE_STATUSES) (hshape : (w.db.deal q).Shape)
    {o : Offer} (ho : o ∈ w.db.offers) :
    (u.rejectRow t o).bid = if o.proposalId = q.id then o.bid.reject else o.bid := by
  by_cases hoffered : q.status = .offered
  · rw [hu, UnitOfWork.rejectRow]
    simp only [if_pos hoffered]
    exact (rejectWaiting_bid _ o).trans (if_congr (by simp) rfl rfl)
  · rw [hu, UnitOfWork.rejectRow]
    simp only [if_neg hoffered]
    split
    · next hop =>
        have hnone : (w.db.deal q).bids = [] := by
          refine hshape.bids_eq_nil ?_
          simp only [ProposalService.CANCELLABLE_STATUSES, Db.deal, List.mem_cons,
            List.not_mem_nil, or_false] at hst ⊢
          tauto
        have hbid : o.bid ∈ (w.db.deal q).bids := Db.mem_deal_bids.2 ⟨o, ho, hop, rfl⟩
        rw [hnone] at hbid
        exact absurd hbid List.not_mem_nil
    · rfl

/-- A further report on a proposal that has been taken down writes nothing to it. -/
theorem deal_reported_again {q p : Proposal} {reports : List (Change ProposalReport)}
    {t : DateTime} (hu : u = { proposals := [⟨q, q⟩], reports := reports }) :
    (u.write t w.db).deal (u.proposalRow t p) = w.db.deal p := by
  have hrow : u.proposalRow t p = p := by
    rw [hu, UnitOfWork.proposalRow, writeBack_singleton]
    split
    · exact Proposal.flush_unchanged _ _ _
    · rfl
  rw [deal_write (f := id), hrow, hu]
  · simp [Db.deal]
  · intro o _
    rw [hu, offerRow_of_nil rfl rfl]
    rfl

/-- **One request, executed at one stroke, is a move of the lifecycle** on the deal
of every proposal, or none. -/
theorem follows_commit (hbody : r.call.body w.db r.now = .ok u)
    (hcommit : u.commit r.now.flush w.db bus = .ok db) {p : Proposal} (hp : p ∈ w.db.proposals)
    (hshape : ∀ q ∈ w.db.proposals, (w.db.deal q).Shape) :
    Follows (w.db.deal p) (db.deal (u.proposalRow r.now.flush p)) (Entry.move p.id ⟨r, u, db⟩) := by
  obtain ⟨-, -, -, hprops, hoffers⟩ := UnitOfWork.commit_eq_ok hcommit
  have hknown : ¬ db.proposals.next ≤ p.id := by
    have hmem : u.proposalRow r.now.flush p ∈ db.proposals := by
      rw [hprops]
      exact UnitOfWork.mem_proposals_write.2 (Or.inl ⟨p, hp, rfl⟩)
    have hlt := AutoTable.lt_next hmem
    rw [show Keyed.key (u.proposalRow r.now.flush p) = p.id from u.proposalRow_id _ p] at hlt
    exact not_le.2 hlt
  rw [Db.deal_congr hoffers, Entry.move, if_neg hknown]
  obtain ⟨call, now⟩ := r
  cases call with
  | proposalCreate request uid =>
      obtain ⟨q, -, -, -, -, -, -, -, rfl⟩ := ProposalService.create_eq_ok hbody
      exact follows_nothing rfl rfl rfl rfl
  | proposalUpdate pid request uid =>
      obtain ⟨q, hq, rfl, -, hst, hu⟩ := ProposalService.update_eq_ok hbody
      exact follows_proposal hu (Or.inl rfl) rfl rfl (by simpa [Deal.Legal, Db.deal] using hst)
        hq hp
  | proposalCancel pid uid =>
      obtain ⟨q, hq, rfl, -, hst, hu⟩ := ProposalService.cancel_eq_ok hbody
      exact follows_reject hu (fun o ho => bid_of_cancel hu hst (hshape q hq) ho) (Or.inl rfl)
        rfl rfl hst hq hp
  | confirmPayment pid =>
      obtain ⟨q, hq, rfl, hst, hu⟩ := ProposalService.confirmPayment_eq_ok hbody
      exact follows_proposal hu (Or.inr rfl) rfl rfl hst hq hp
  | confirmReceived pid uid =>
      obtain ⟨q, o, hpair, rfl, -, hps, hcases⟩ := ProposalService.confirmReceived_eq_ok hbody
      rcases hcases with ⟨hos, event, hu⟩ | ⟨hos, event, hu⟩
      · refine follows_own (show u.pair = some (q, o) by rw [hu]; rfl) ?_
        rw [if_neg (show ¬ o.status = .runnerCompleted by rw [hos]; decide)]
        have hbid : ({ o with ordererConfirmedAt := some now.second } : Offer).bid =
            ⟨o.id, Stage.receive.bidStatus,
              Stage.markBid o.marks now.second now.second .receive⟩ := by
          simp [Offer.bid, Offer.marks, Stage.bidStatus, Stage.markBid, Stage.mark, hos]
        exact follows_pair hu .receive ⟨hps, hos⟩ rfl rfl hbid hpair hp
      · refine follows_own (show u.pair = some (q, o) by rw [hu]; rfl) ?_
        rw [if_pos hos]
        exact follows_pair hu .receiveLast ⟨hps, hos⟩ rfl rfl rfl hpair hp
  | proposalDispute pid uid qid reason =>
      obtain ⟨q, o, hpair, rfl, -, hps, hos, event, hu⟩ := ProposalService.raiseDispute_eq_ok hbody
      refine follows_own (show u.pair = some (q, o) by rw [hu]; rfl) ?_
      exact follows_pair hu .dispute ⟨hps, hos⟩ rfl rfl rfl hpair hp
  | offerCreate pid uid =>
      obtain ⟨q, hq, rfl, -, hst, -, event, hu⟩ := OfferService.create_eq_ok hbody
      simp only [hoffers, next_offers_write _ (congrArg UnitOfWork.newOffer hu)]
      exact follows_bid hu hst hq hp
  | offerCancel oid uid =>
      obtain ⟨o, ho, rfl, -, hw, hu⟩ := OfferService.cancel_eq_ok hbody
      have h := follows_retract (n := now.flush) (p := p) hu hw ho
      rw [hu] at h ⊢
      exact h
  | offerAccept oid uid =>
      obtain ⟨q, o, hpair, rfl, -, hw, hst, -, event, hu⟩ := OfferService.accept_eq_ok hbody
      refine follows_own (show u.pair = some (q, o) by rw [hu]; rfl) ?_
      exact follows_choose hu hw hst hpair hp
  | completeDelivery oid uid =>
      obtain ⟨q, o, hpair, rfl, -, hos, hcases⟩ := OfferService.completeDelivery_eq_ok hbody
      rcases hcases with ⟨hps, event, hu⟩ | ⟨hps, event, hu⟩
      · refine follows_own (show u.pair = some (q, o) by rw [hu]; rfl) ?_
        rw [if_neg (show ¬ q.status = .orderCompleted by rw [hps]; decide)]
        exact follows_pair hu .deliver ⟨hps, hos⟩ hps rfl rfl hpair hp
      · refine follows_own (show u.pair = some (q, o) by rw [hu]; rfl) ?_
        rw [if_pos hps]
        exact follows_pair hu .deliverLast ⟨hps, hos⟩ rfl rfl rfl hpair hp
  | offerDispute oid uid qid reason =>
      obtain ⟨q, o, hpair, rfl, -, hos, hps, event, hu⟩ := OfferService.raiseDispute_eq_ok hbody
      refine follows_own (show u.pair = some (q, o) by rw [hu]; rfl) ?_
      exact follows_pair hu .dispute ⟨hps, hos⟩ rfl rfl rfl hpair hp
  | resolve oid =>
      obtain ⟨q, o, hpair, rfl, hos, hps, hu⟩ := OfferService.resolve_eq_ok hbody
      refine follows_own (show u.pair = some (q, o) by rw [hu]; rfl) ?_
      exact follows_pair hu .resolve ⟨hps, hos⟩ rfl rfl rfl hpair hp
  | reportCreate pid uid request =>
      obtain ⟨q, -, -, -, -, report, -, -, -, -, rfl⟩ := ProposalReportService.create_eq_ok hbody
      exact follows_nothing rfl rfl rfl rfl
  | reportAccept rid =>
      obtain ⟨q, hq, report, -, rfl, -, -, hcases⟩ := ProposalReportService.accept_eq_ok hbody
      rcases hcases with ⟨hst, hu⟩ | ⟨hst, hu⟩
      · have hne : q.status ≠ .reported := by
          intro he
          rw [he] at hst
          exact absurd hst (by decide)
        have h := follows_reject (n := now.flush) hu ?_ (Or.inr rfl) rfl rfl hst hq hp
        · rw [hu] at h ⊢
          simpa [hne] using h
        · intro o ho
          rw [hu]
          exact (rejectWaiting_bid _ o).trans (if_congr (by simp) rfl rfl)
      · have hsame := deal_reported_again (w := w) (p := p) (t := now.flush) hu
        rw [hu] at hsame ⊢
        simp only [hst, ne_eq, not_true_eq_false, and_false, if_false]
        exact hsame
  | reportReject rid =>
      obtain ⟨report, -, -, -, rfl⟩ := ProposalReportService.reject_eq_ok hbody
      exact follows_nothing rfl rfl rfl rfl
  | withdrawUser uid =>
      obtain ⟨user, -, -, -, -, hu⟩ := UserWithdrawalService.withdrawUser_eq_ok hbody
      exact follows_withdraw hu hp

/-- What a request inserts: a new proposal has no marks, and a new offer belongs to
a proposal that is there. -/
theorem body_inserts {call : Call} {now : Readings} {db : Db} (hbody : call.body db now = .ok u) :
    (u.newProposal = none ∨ ∃ request uid q, call = .proposalCreate request uid ∧
        u.newProposal = some q ∧ q.status = .holding ∧ q.marks = {} ∧ u.newOffer = none) ∧
      (u.newOffer = none ∨ ∃ pid uid, call = .offerCreate pid uid ∧
        u.newOffer = some (Offer.create pid uid) ∧ ∃ q ∈ db.proposals, q.id = pid) := by
  have hfills := body_fills hbody
  constructor
  · rcases hfills.newProposal with hnone | ⟨request, uid, rfl⟩
    · exact Or.inl hnone
    · obtain ⟨q, -, hst, h₁, h₂, h₃, h₄, h₅, rfl⟩ := ProposalService.create_eq_ok hbody
      exact Or.inr ⟨request, uid, q, rfl, rfl, hst,
        by simp [Proposal.marks, h₁, h₂, h₃, h₄, h₅], rfl⟩
  · rcases hfills.newOffer with hnone | ⟨pid, uid, rfl⟩
    · exact Or.inl hnone
    · obtain ⟨q, hq, rfl, -, -, -, _, rfl⟩ := OfferService.create_eq_ok hbody
      exact Or.inr ⟨q.id, uid, rfl, rfl, q, hq, rfl⟩

/-- Every offer belongs to a proposal. -/
def Db.Owned (db : Db) : Prop := ∀ o ∈ db.offers, ∃ p ∈ db.proposals, p.id = o.proposalId

theorem Db.Owned.pair {db : Db} (h : db.Owned) {o : Offer} (ho : o ∈ db.offers) :
    ∃ p, db.Pair p o := by
  obtain ⟨p, hp, hid⟩ := h o ho
  exact ⟨p, hp, ho, hid.symm⟩

theorem next_proposals_write (t : DateTime) :
    w.db.proposals.next ≤ (u.write t w.db).proposals.next := by
  unfold UnitOfWork.write AutoTable.add
  cases u.newProposal with
  | none => exact le_rfl
  | some q => exact Nat.le_succ _

theorem owned_commit (h : w.db.Owned) (hbody : r.call.body w.db r.now = .ok u)
    (hcommit : u.commit r.now.flush w.db bus = .ok db) : db.Owned := by
  obtain ⟨-, -, -, hprops, hoffers⟩ := UnitOfWork.commit_eq_ok hcommit
  have hstay : ∀ p ∈ w.db.proposals, ∃ p' ∈ db.proposals, p'.id = p.id := by
    intro p hp
    rw [hprops]
    exact ⟨u.proposalRow r.now.flush p, UnitOfWork.mem_proposals_write.2 (Or.inl ⟨p, hp, rfl⟩),
      u.proposalRow_id _ p⟩
  intro o ho
  rw [hoffers, UnitOfWork.mem_offers_write] at ho
  rcases ho with ⟨o, ho, rfl⟩ | ⟨o', hnew, rfl⟩
  · obtain ⟨p, hp, hid⟩ := h o ho
    rw [UnitOfWork.offerRow_proposalId, ← hid]
    exact hstay p hp
  · rcases (body_inserts hbody).2 with hnone | ⟨pid, uid, -, hsome, q, hq, rfl⟩
    · rw [hnone] at hnew
      exact absurd hnew (by simp)
    · rw [hsome, Option.some.injEq] at hnew
      subst hnew
      exact hstay q hq

/-- The deal of a new proposal. -/
theorem deal_new (howned : w.db.Owned) (hbody : r.call.body w.db r.now = .ok u)
    (hcommit : u.commit r.now.flush w.db bus = .ok db) {p : Proposal} (hp : p ∈ db.proposals)
    (hnew : ∀ q ∈ w.db.proposals, u.proposalRow r.now.flush q ≠ p) :
    p.id = w.db.proposals.next ∧ db.deal p = Deal.opened ∧ Entry.move p.id ⟨r, u, db⟩ = none := by
  obtain ⟨-, -, -, hprops, hoffers⟩ := UnitOfWork.commit_eq_ok hcommit
  rw [hprops, UnitOfWork.mem_proposals_write] at hp
  rcases hp with ⟨q, hq, he⟩ | ⟨q, hsome, rfl⟩
  · exact absurd he (hnew q hq)
  · rcases (body_inserts hbody).1 with hnone | ⟨request, uid, q', hcall, hsome', hst, hmarks, hno⟩
    · rw [hnone] at hsome
      exact absurd hsome (by simp)
    · rw [hsome', Option.some.injEq] at hsome
      subst hsome
      refine ⟨rfl, ?_, ?_⟩
      · have hbids : db.offersOf w.db.proposals.next = [] := by
          refine List.filter_eq_nil_iff.2 fun o ho => ?_
          replace ho : o ∈ (u.write r.now.flush w.db).offers := by rw [← hoffers]; exact ho
          rcases UnitOfWork.mem_offers_write.1 ho with ⟨x, hx, rfl⟩ | ⟨x, hoo, -⟩
          · obtain ⟨q, hq, hid⟩ := howned x hx
            have hlt := AutoTable.lt_next hq
            simp only [UnitOfWork.offerRow_proposalId, decide_eq_true_eq]
            rw [← hid]
            exact hlt.ne
          · rw [hno] at hoo
            exact absurd hoo (by simp)
        show Deal.mk _ _ _ = _
        rw [hbids]
        simp only [List.map_nil, Deal.opened]
        rw [hst]
        exact congrArg (fun m => Deal.mk ProposalStatus.holding m []) hmarks
      · obtain ⟨call, now⟩ := r
        obtain rfl : call = .proposalCreate request uid := hcall
        rw [Entry.move]
        split <;> rfl

end Commit

/-! ## A whole run -/

/-- The deal of every proposal is the result of the moves the log holds for it. -/
structure World.Traced (w : World) : Prop where
  history : ∀ p ∈ w.db.proposals, History (w.log.filterMap (Entry.move p.id)) (w.db.deal p)
  /-- Keys are handed out in order. -/
  next_le : ∀ e ∈ w.log, e.committed.proposals.next ≤ w.db.proposals.next
  owned : w.db.Owned

theorem World.Traced.shape {w : World} (h : w.Traced) {p : Proposal} (hp : p ∈ w.db.proposals) :
    (w.db.deal p).Shape :=
  (h.history p hp).shape

theorem traced_initial (m : MasterData) : (World.initial m).Traced where
  history := fun _ hp => absurd hp List.not_mem_nil
  next_le := fun _ he => absurd he List.not_mem_nil
  owned := fun _ ho => absurd ho List.not_mem_nil

/-- A transaction that came before a proposal made no move on its deal. -/
theorem move_of_next_le {e : Entry} {pid : ℕ} (h : e.committed.proposals.next ≤ pid) :
    e.move pid = none :=
  if_pos h

/-- **One request keeps the tables and the log together.** -/
theorem traced_call (bus : EventBus) {w : World} (h : w.Traced) (r : Request) :
    ((service bus).call w r).Traced := by
  rcases call_cases bus w r with he | ⟨u, db, -, hbody, hcommit, he⟩
  · rw [he]; exact h
  · rw [he]
    obtain ⟨-, -, -, hprops, -⟩ := UnitOfWork.commit_eq_ok hcommit
    refine ⟨?_, ?_, owned_commit h.owned hbody hcommit⟩
    · intro p hp
      by_cases hq : ∃ q ∈ w.db.proposals, u.proposalRow r.now.flush q = p
      · obtain ⟨q, hq, rfl⟩ := hq
        have hf := follows_commit hbody hcommit hq fun q hq => h.shape hq
        have hh := h.history q hq
        rw [UnitOfWork.proposalRow_id, List.filterMap_cons]
        cases hm : Entry.move q.id ⟨r, u, db⟩ with
        | none =>
            rw [hm] at hf
            rw [show db.deal (u.proposalRow r.now.flush q) = w.db.deal q from hf]
            exact hh
        | some m =>
            rw [hm] at hf
            rw [hf.2]
            exact hh.play hf.1
      · obtain ⟨hid, hdeal, hmove⟩ :=
          deal_new h.owned hbody hcommit hp fun q hq' he => hq ⟨q, hq', he⟩
        have hnil : w.log.filterMap (Entry.move p.id) = [] := by
          refine List.filterMap_eq_nil_iff.2 fun e he => move_of_next_le ?_
          rw [hid]
          exact h.next_le e he
        rw [List.filterMap_cons, hmove, hdeal, hnil]
        exact .opened
    · have hnext : w.db.proposals.next ≤ db.proposals.next := by
        rw [hprops]
        exact next_proposals_write _
      intro e he
      rcases List.mem_cons.1 he with rfl | he
      · exact le_rfl
      · exact (h.next_le e he).trans hnext

/-- **The tables refine the lifecycle.**  After any requests, executed one at a time
from an empty database, the deal of every proposal came about by the legal moves
that the log holds for it. -/
theorem traced_after (bus : EventBus) (m : MasterData) (rs : List Request) :
    (World.after bus m rs).Traced :=
  Runs.inv_run (I := World.Traced) (fun _ r h => traced_call bus h r) (traced_initial m) rs

end OrderRun
