import OrderRun.Models.Offer

/-!
# The lifecycle of a deal

What the two tables are for: a deal is an errand with the bids on it.  It is
posted, collects bids, one bid is chosen, both sides confirm, and the deal is
completed — or it is dropped, reported or disputed on the way.  Bids are named
by an arbitrary type and instants are an arbitrary type, so nothing here depends
on how rows are stored.

* `Move`, `Deal.Legal`, `Deal.play` — what can happen to a deal, when, and what
  it does.
* `Deal.Shape` — the four shapes a deal can have: fresh, open, running with one
  executed bid, or closed.
* `Deal.shape_play` — every legal move takes a deal of one of these shapes to
  another.
* `Deal.play_of_over` — a deal that is over stays as it is.
-/

namespace OrderRun

variable {β T : Type*}

/-- The recorded instants of a deal, or of a bid. -/
structure Marks (T : Type*) where
  matched : Option T := none
  runner : Option T := none
  orderer : Option T := none
  disputed : Option T := none
  resolved : Option T := none

/-- A bid: somebody offers to run the errand. -/
structure Bid (β T : Type*) where
  id : β
  status : OfferStatus
  marks : Marks T

/-- An errand, with the bids on it. -/
structure Deal (β T : Type*) where
  status : ProposalStatus
  marks : Marks T
  bids : List (Bid β T)

/-- A step of the execution of a chosen bid. -/
inductive Stage where
  /-- The runner confirms first. -/
  | deliver
  /-- The runner confirms last. -/
  | deliverLast
  /-- The orderer confirms first. -/
  | receive
  /-- The orderer confirms last. -/
  | receiveLast
  | dispute
  | resolve
  deriving DecidableEq

/-- What can happen to a deal. -/
inductive Move (β T : Type*) where
  | edit
  | pay
  /-- The orderer gives the errand up. -/
  | drop
  /-- A moderator takes the errand down. -/
  | report
  /-- The orderer leaves the platform. -/
  | leave
  | bid (b : β)
  /-- Runners take these bids back. -/
  | retract (gone : β → Bool)
  | choose (b : β) (t : T)
  /-- The execution moves on: at `t` for the deal, at `tb` for the bid; `tc` is when
  the bid records the orderer's side if the runner confirms last. -/
  | advance (stage : Stage) (b : β) (t tb tc : T)

/-! ## Stages -/

namespace Stage

/-- When a stage can begin. -/
def Starts : Stage → ProposalStatus → OfferStatus → Prop
  | .deliver, s, b => s = .matched ∧ b = .accepted
  | .deliverLast, s, b => s = .orderCompleted ∧ b = .accepted
  | .receive, s, b => s = .matched ∧ b = .accepted
  | .receiveLast, s, b => s = .matched ∧ b = .runnerCompleted
  | .dispute, s, b => s ∈ [.matched, .orderCompleted] ∧ b ∈ [.accepted, .runnerCompleted]
  | .resolve, s, b => s = .disputed ∧ b = .disputed

/-- The status of the deal after the stage. -/
def dealStatus : Stage → ProposalStatus
  | .deliver => .matched
  | .deliverLast | .receiveLast => .allCompleted
  | .receive => .orderCompleted
  | .dispute => .disputed
  | .resolve => .resolved

/-- The status of the bid after the stage. -/
def bidStatus : Stage → OfferStatus
  | .deliver => .runnerCompleted
  | .deliverLast | .receiveLast => .allCompleted
  | .receive => .accepted
  | .dispute => .disputed
  | .resolve => .resolved

/-- The instant a stage records. -/
def mark (m : Marks T) (t : T) : Stage → Marks T
  | .deliver | .deliverLast => { m with runner := some t }
  | .receive | .receiveLast => { m with orderer := some t }
  | .dispute => { m with disputed := some t }
  | .resolve => { m with resolved := some t }

/-- What a stage records on the bid: a delivery that comes last also records the
orderer's side. -/
def markBid (m : Marks T) (t tc : T) : Stage → Marks T
  | .deliverLast => { m with runner := some t, orderer := some tc }
  | stage => stage.mark m t

end Stage

/-! ## Moves -/

/-- A bid that was not chosen. -/
def Bid.reject (x : Bid β T) : Bid β T :=
  if x.status = .waiting then { x with status := .rejected } else x

/-- A bid that was taken back. -/
def Bid.cancel (x : Bid β T) : Bid β T :=
  if x.status = .waiting then { x with status := .cancelled } else x

section Play

variable [DecidableEq β]

/-- What a move does to each bid. -/
def Move.onBid : Move β T → Bid β T → Bid β T
  | .edit, x | .pay, x | .bid _, x => x
  | .drop, x | .report, x => x.reject
  | .leave, x => x.cancel
  | .retract gone, x => if gone x.id then x.cancel else x
  | .choose b t, x =>
      if x.id = b then ⟨x.id, .accepted, { x.marks with matched := some t }⟩ else x.reject
  | .advance stage b _ tb tc, x =>
      if x.id = b then ⟨x.id, stage.bidStatus, stage.markBid x.marks tb tc⟩ else x

theorem Move.onBid_retract (gone : β → Bool) (x : Bid β T) :
    Move.onBid (.retract gone) x = if gone x.id then x.cancel else x := rfl

theorem Move.onBid_choose (b : β) (t : T) (x : Bid β T) : Move.onBid (.choose b t) x =
    if x.id = b then ⟨x.id, .accepted, { x.marks with matched := some t }⟩ else x.reject := rfl

theorem Move.onBid_advance (stage : Stage) (b : β) (t tb tc : T) (x : Bid β T) :
    Move.onBid (.advance stage b t tb tc) x =
      if x.id = b then ⟨x.id, stage.bidStatus, stage.markBid x.marks tb tc⟩ else x := rfl

/-- The bids a move adds. -/
def Move.newBids : Move β T → List (Bid β T)
  | .bid b => [⟨b, .waiting, {}⟩]
  | _ => []

/-- The status a move leaves the deal in. -/
def Move.dealStatus (s : ProposalStatus) : Move β T → ProposalStatus
  | .edit => .holding
  | .pay => .posted
  | .drop | .leave => .cancelled
  | .report => .reported
  | .bid _ => .offered
  | .retract _ => s
  | .choose _ _ => .matched
  | .advance stage _ _ _ _ => stage.dealStatus

/-- What a move records on the deal. -/
def Move.mark (m : Marks T) : Move β T → Marks T
  | .choose _ t => { m with matched := some t }
  | .advance stage _ t _ _ => stage.mark m t
  | _ => m

namespace Deal

/-- A new deal. -/
def opened : Deal β T := ⟨.holding, {}, []⟩

/-- What a move does. -/
def play (d : Deal β T) (m : Move β T) : Deal β T :=
  ⟨m.dealStatus d.status, m.mark d.marks, d.bids.map m.onBid ++ m.newBids⟩

/-- When a move is possible. -/
def Legal (d : Deal β T) : Move β T → Prop
  | .edit => d.status ∈ [.holding, .posted]
  | .pay => d.status = .holding
  | .drop | .leave => d.status ∈ [.holding, .posted, .offered]
  | .report => d.status ∈ [.posted, .offered]
  | .bid b => d.status ∈ [.posted, .offered] ∧ ∀ x ∈ d.bids, x.id ≠ b
  | .retract _ => True
  | .choose b _ => d.status = .offered ∧ ∃ x ∈ d.bids, x.id = b ∧ x.status = .waiting
  | .advance stage b _ _ _ => ∃ x ∈ d.bids, x.id = b ∧ stage.Starts d.status x.status

end Deal
end Play

@[simp] theorem Bid.reject_id (x : Bid β T) : x.reject.id = x.id := by
  unfold Bid.reject; split <;> rfl

@[simp] theorem Bid.cancel_id (x : Bid β T) : x.cancel.id = x.id := by
  unfold Bid.cancel; split <;> rfl

@[simp] theorem Bid.reject_marks (x : Bid β T) : x.reject.marks = x.marks := by
  unfold Bid.reject; split <;> rfl

@[simp] theorem Bid.cancel_marks (x : Bid β T) : x.cancel.marks = x.marks := by
  unfold Bid.cancel; split <;> rfl

@[simp] theorem Move.onBid_id [DecidableEq β] (m : Move β T) (x : Bid β T) :
    (m.onBid x).id = x.id := by
  cases m <;> simp only [Move.onBid, Bid.reject_id, Bid.cancel_id] <;> split <;> simp

/-! ## Shapes -/

/-- The statuses of a bid that was not, or is no longer, in the running. -/
def Lost (s : OfferStatus) : Prop := s ∈ [.rejected, .cancelled]

/-- The statuses of a bid that has been chosen. -/
def Executed (s : OfferStatus) : Prop :=
  s ∈ [.accepted, .runnerCompleted, .allCompleted, .disputed, .resolved]

instance : DecidablePred Lost := fun _ => inferInstanceAs (Decidable (_ ∈ _))

instance : DecidablePred Executed := fun _ => inferInstanceAs (Decidable (_ ∈ _))

/-- The status of a running deal, with the status of its executed bid. -/
def Together (s : ProposalStatus) (b : OfferStatus) : Prop :=
  (s, b) ∈ [(.matched, .accepted), (.matched, .runnerCompleted), (.orderCompleted, .accepted),
    (.allCompleted, .allCompleted), (.disputed, .disputed), (.resolved, .resolved)]

instance (s : ProposalStatus) (b : OfferStatus) : Decidable (Together s b) :=
  inferInstanceAs (Decidable (_ ∈ _))

theorem Together.executed {s : ProposalStatus} {b : OfferStatus} (h : Together s b) :
    Executed b := by
  revert h
  cases s <;> cases b <;> decide

theorem Executed.not_lost {s : OfferStatus} (h : Executed s) : ¬ Lost s := by
  revert h
  cases s <;> decide

theorem Executed.not_open {s : OfferStatus} (h : Executed s) : s ∉ [.waiting, .cancelled] := by
  revert h
  cases s <;> decide

theorem Stage.Starts.executed {stage : Stage} {s : ProposalStatus} {b : OfferStatus}
    (h : stage.Starts s b) : Executed b := by
  revert h
  cases stage <;> cases b <;> simp [Stage.Starts, Executed]

theorem Stage.together_after (stage : Stage) : Together stage.dealStatus stage.bidStatus := by
  cases stage <;> decide

theorem Bid.reject_of_not_waiting {x : Bid β T} (h : x.status ≠ .waiting) : x.reject = x :=
  if_neg h

theorem Bid.cancel_of_not_waiting {x : Bid β T} (h : x.status ≠ .waiting) : x.cancel = x :=
  if_neg h

theorem Bid.reject_lost {x : Bid β T} (h : x.status ∈ [.waiting, .rejected, .cancelled]) :
    Lost x.reject.status := by
  unfold Bid.reject
  split
  · show Lost .rejected
    decide
  · next hw => simp [Lost]; simp [hw] at h; exact h

theorem Bid.cancel_lost {x : Bid β T} (h : x.status ∈ [.waiting, .rejected, .cancelled]) :
    Lost x.cancel.status := by
  unfold Bid.cancel
  split
  · show Lost .cancelled
    decide
  · next hw => simp [Lost]; simp [hw] at h; exact h

theorem Executed.ne_waiting {s : OfferStatus} (h : Executed s) : s ≠ .waiting := by
  rintro rfl; revert h; decide

theorem Lost.ne_waiting {s : OfferStatus} (h : Lost s) : s ≠ .waiting := by
  rintro rfl; revert h; decide

namespace Deal

/-- **The shapes of a deal.** -/
inductive Shape (d : Deal β T) : Prop where
  /-- Nobody has bid yet. -/
  | fresh (status : d.status ∈ [.holding, .posted]) (bids : d.bids = [])
  /-- Bids are waiting, or were taken back. -/
  | open (status : d.status = .offered) (bids : d.bids ≠ [])
      (waiting : ∀ x ∈ d.bids, x.status ∈ [.waiting, .cancelled])
  /-- One bid is executed, in step with the deal; the others have lost. -/
  | running (x : Bid β T) (mem : x ∈ d.bids) (together : Together d.status x.status)
      (lost : ∀ y ∈ d.bids, y.id ≠ x.id → Lost y.status)
  /-- The deal was given up or taken down. -/
  | closed (status : d.status ∈ [.cancelled, .reported]) (lost : ∀ x ∈ d.bids, Lost x.status)

variable {d : Deal β T}

/-- Every bid has its own name. -/
def Distinct (d : Deal β T) : Prop := (d.bids.map Bid.id).Nodup

theorem Distinct.eq (h : d.Distinct) {x y : Bid β T} (hx : x ∈ d.bids) (hy : y ∈ d.bids)
    (hid : x.id = y.id) : x = y :=
  List.inj_on_of_nodup_map h hx hy hid

theorem distinct_opened : (opened : Deal β T).Distinct := List.nodup_nil

theorem shape_opened : (opened : Deal β T).Shape := .fresh (by simp [opened]) rfl

/-- The executed bid of a deal is the only one. -/
theorem Shape.executed_unique (h : d.Shape) (hd : d.Distinct) {x y : Bid β T} (hx : x ∈ d.bids)
    (hy : y ∈ d.bids) (hex : Executed x.status) (hey : Executed y.status) : x = y := by
  cases h with
  | fresh _ hb => rw [hb] at hx; exact absurd hx List.not_mem_nil
  | «open» _ _ hw => exact absurd (hw x hx) hex.not_open
  | running z hz _ hl =>
      have eq_z : ∀ v ∈ d.bids, Executed v.status → v = z := by
        intro v hv hev
        by_contra hne
        exact hev.not_lost (hl v hv fun hid => hne (hd.eq hv hz hid))
      rw [eq_z x hx hex, eq_z y hy hey]
  | closed _ hl => exact absurd (hl x hx) hex.not_lost

/-- The executed bid of a deal is in step with it. -/
theorem Shape.together (h : d.Shape) (hd : d.Distinct) {x : Bid β T} (hx : x ∈ d.bids)
    (hex : Executed x.status) : Together d.status x.status := by
  cases h with
  | fresh _ hb => rw [hb] at hx; exact absurd hx List.not_mem_nil
  | «open» _ _ hw => exact absurd (hw x hx) hex.not_open
  | running z hz ht hl =>
      by_cases hid : x.id = z.id
      · rw [hd.eq hx hz hid]
        exact ht
      · exact absurd (hl x hx hid) hex.not_lost
  | closed _ hl => exact absurd (hl x hx) hex.not_lost

/-- The bids of an errand that is offered wait, or were taken back. -/
theorem Shape.waiting_of_offered (hs : d.Shape) (h : d.status = .offered) :
    ∀ x ∈ d.bids, x.status ∈ [.waiting, .cancelled] := by
  cases hs with
  | fresh hf _ => rw [h] at hf; exact absurd hf (by decide)
  | «open» _ _ hw => exact hw
  | running z _ ht _ => exfalso; revert h ht; cases d.status <;> cases z.status <;> decide
  | closed hc _ => rw [h] at hc; exact absurd hc (by decide)

/-- Before matching, an errand without an open bid has no bids at all. -/
theorem Shape.bids_eq_nil (hs : d.Shape) (h : d.status ∈ [.holding, .posted]) : d.bids = [] := by
  cases hs with
  | fresh _ hb => exact hb
  | «open» ho _ _ => rw [ho] at h; exact absurd h (by decide)
  | running z _ ht _ => exfalso; revert h ht; cases d.status <;> cases z.status <;> decide
  | closed hc _ => exfalso; revert h hc; cases d.status <;> decide

section Play

variable [DecidableEq β] {m : Move β T}

theorem distinct_play (hd : d.Distinct) (hm : d.Legal m) : (d.play m).Distinct := by
  have hold : (d.bids.map m.onBid).map Bid.id = d.bids.map Bid.id := by
    rw [List.map_map]
    exact List.map_congr_left fun x _ => m.onBid_id x
  unfold Distinct play
  rw [List.map_append, hold]
  cases m with
  | bid b =>
      refine List.nodup_append.2 ⟨hd, List.nodup_singleton _, ?_⟩
      intro k hk k' hk' he
      obtain ⟨x, hx, rfl⟩ := List.mem_map.1 hk
      exact hm.2 x hx (he.trans (List.mem_singleton.1 hk'))
  | _ => simpa [Move.newBids, Distinct] using hd

/-- The bids of a deal after a move that adds none. -/
theorem mem_play {y : Bid β T} (hnew : m.newBids = []) :
    y ∈ (d.play m).bids ↔ ∃ x ∈ d.bids, m.onBid x = y := by
  simp [play, hnew]

/-- A bid that is waiting or has lost stays out of the running when the others are
rejected or cancelled. -/
theorem shape_close (hs : d.Shape) (hst : d.status ∈ [.holding, .posted, .offered])
    (hnew : m.newBids = []) (hto : m.dealStatus d.status ∈ [.cancelled, .reported])
    (hbid : ∀ x : Bid β T, x.status ∈ [.waiting, .rejected, .cancelled] →
      Lost (m.onBid x).status) : (d.play m).Shape := by
  refine .closed hto ?_
  intro y hy
  obtain ⟨x, hx, rfl⟩ := (mem_play hnew).1 hy
  apply hbid
  cases hs with
  | fresh _ hb => rw [hb] at hx; exact absurd hx List.not_mem_nil
  | «open» _ _ hw => have h := hw x hx; simp at h ⊢; tauto
  | running z _ ht _ => exfalso; revert hst ht; cases d.status <;> cases z.status <;> decide
  | closed hc _ => exfalso; revert hst hc; cases d.status <;> decide

theorem shape_bid (hs : d.Shape) {b : β} (hm : d.Legal (.bid b : Move β T)) :
    (d.play (.bid b : Move β T)).Shape := by
  refine .open rfl (by simp [play, Move.newBids]) ?_
  intro y hy
  have hy : y ∈ d.bids ∨ y = ⟨b, .waiting, {}⟩ := by
    simpa [play, Move.onBid, Move.newBids] using hy
  rcases hy with hy | rfl
  · have hst := hm.1
    cases hs with
    | fresh _ hb => rw [hb] at hy; exact absurd hy List.not_mem_nil
    | «open» _ _ hw => exact hw y hy
    | running z _ ht _ => exfalso; revert hst ht; cases d.status <;> cases z.status <;> decide
    | closed hc _ => exfalso; revert hst hc; cases d.status <;> decide
  · exact List.mem_cons_self

theorem shape_retract (hs : d.Shape) (gone : β → Bool) :
    (d.play (.retract gone : Move β T)).Shape := by
  have hmem : ∀ y, y ∈ (d.play (.retract gone : Move β T)).bids →
      ∃ x ∈ d.bids, y = x ∨ y = x.cancel := by
    intro y hy
    obtain ⟨x, hx, rfl⟩ := (mem_play rfl).1 hy
    refine ⟨x, hx, ?_⟩
    rw [Move.onBid_retract]
    split
    · exact Or.inr rfl
    · exact Or.inl rfl
  have hlost : ∀ x : Bid β T, Lost x.status → Lost x.cancel.status := by
    intro x hx
    rw [Bid.cancel_of_not_waiting hx.ne_waiting]
    exact hx
  cases hs with
  | fresh hst hb => exact .fresh hst (by simp [play, Move.newBids, hb])
  | «open» hst hb hw =>
      refine .open hst (by simpa [play, Move.newBids] using hb) ?_
      intro y hy
      obtain ⟨x, hx, rfl | rfl⟩ := hmem y hy
      · exact hw y hx
      · unfold Bid.cancel
        split
        · simp
        · exact hw x hx
  | running x hx ht hl =>
      have hkeep : Move.onBid (.retract gone : Move β T) x = x := by
        rw [Move.onBid_retract]
        split
        · exact Bid.cancel_of_not_waiting ht.executed.ne_waiting
        · rfl
      refine .running x ((mem_play rfl).2 ⟨x, hx, hkeep⟩) ht ?_
      intro y hy hne
      obtain ⟨z, hz, rfl | rfl⟩ := hmem y hy
      · exact hl y hz hne
      · exact hlost z (hl z hz (by simpa using hne))
  | closed hst hl =>
      refine .closed hst ?_
      intro y hy
      obtain ⟨x, hx, rfl | rfl⟩ := hmem y hy
      · exact hl y hx
      · exact hlost x (hl x hx)

theorem shape_choose (hs : d.Shape) {b : β} {t : T} (hm : d.Legal (.choose b t)) :
    (d.play (.choose b t)).Shape := by
  obtain ⟨hst, x, hx, rfl, -⟩ := hm
  cases hs with
  | fresh _ hb => rw [hb] at hx; exact absurd hx List.not_mem_nil
  | «open» _ _ hw =>
      refine .running ⟨x.id, .accepted, { x.marks with matched := some t }⟩
        ((mem_play rfl).2 ⟨x, hx, if_pos rfl⟩) (show Together .matched .accepted by decide) ?_
      intro y hy hne
      obtain ⟨z, hz, rfl⟩ := (mem_play rfl).1 hy
      have hzx : z.id ≠ x.id := by simpa using hne
      have honBid : Move.onBid (.choose x.id t) z = z.reject := if_neg hzx
      rw [honBid]
      apply Bid.reject_lost
      have h := hw z hz
      simp at h ⊢
      tauto
  | running z _ ht _ => exfalso; rw [hst] at ht; revert ht; cases z.status <;> decide
  | closed hc _ => rw [hst] at hc; exact absurd hc (by decide)

theorem shape_advance (hs : d.Shape) (hd : d.Distinct) {stage : Stage} {b : β} {t tb tc : T}
    (hm : d.Legal (.advance stage b t tb tc)) : (d.play (.advance stage b t tb tc)).Shape := by
  obtain ⟨x, hx, rfl, hst⟩ := hm
  have hex := hst.executed
  cases hs with
  | fresh _ hb => rw [hb] at hx; exact absurd hx List.not_mem_nil
  | «open» _ _ hw => exact absurd (hw x hx) hex.not_open
  | running z hz _ hl =>
      have hxz : x = z := by
        by_contra hne
        exact hex.not_lost (hl x hx fun hid => hne (hd.eq hx hz hid))
      subst hxz
      refine .running ⟨x.id, stage.bidStatus, stage.markBid x.marks tb tc⟩
        ((mem_play rfl).2 ⟨x, hx, if_pos rfl⟩) stage.together_after ?_
      intro y hy hne
      obtain ⟨v, hv, rfl⟩ := (mem_play rfl).1 hy
      have hvx : v.id ≠ x.id := by simpa using hne
      have honBid : Move.onBid (.advance stage x.id t tb tc) v = v := if_neg hvx
      rw [honBid]
      exact hl v hv hvx
  | closed _ hl => exact absurd (hl x hx) hex.not_lost

/-- **A legal move leads from one of the four shapes to another.** -/
theorem shape_play (hs : d.Shape) (hd : d.Distinct) (hm : d.Legal m) : (d.play m).Shape := by
  cases m with
  | edit =>
      exact .fresh (by simp [play, Move.dealStatus])
        (by simp [play, Move.newBids, hs.bids_eq_nil hm])
  | pay =>
      have hb : d.bids = [] := hs.bids_eq_nil (by simp [show d.status = .holding from hm])
      exact .fresh (by simp [play, Move.dealStatus]) (by simp [play, Move.newBids, hb])
  | drop => exact shape_close hs hm rfl (by simp [Move.dealStatus]) fun _ => Bid.reject_lost
  | report =>
      have hst : d.status ∈ [.holding, .posted, .offered] := List.mem_cons_of_mem _ hm
      exact shape_close hs hst rfl (by simp [Move.dealStatus]) fun _ => Bid.reject_lost
  | leave => exact shape_close hs hm rfl (by simp [Move.dealStatus]) fun _ => Bid.cancel_lost
  | bid b => exact shape_bid hs hm
  | retract gone => exact shape_retract hs gone
  | choose b t => exact shape_choose hs hm
  | advance stage b t tb tc => exact shape_advance hs hd hm

/-! ## Deals that are over -/

/-- Nobody waits for a deal that is over. -/
theorem Shape.not_waiting (hs : d.Shape) (hd : d.Distinct)
    (hover : d.status ∈ [.allCompleted, .resolved, .reported, .cancelled]) {x : Bid β T}
    (hx : x ∈ d.bids) : x.status ≠ .waiting := by
  cases hs with
  | fresh hst _ => exfalso; revert hover hst; cases d.status <;> decide
  | «open» hst _ _ => rw [hst] at hover; exact absurd hover (by decide)
  | running z hz ht hl =>
      by_cases hid : x.id = z.id
      · rw [hd.eq hx hz hid]
        exact ht.executed.ne_waiting
      · exact (hl x hx hid).ne_waiting
  | closed _ hl => exact (hl x hx).ne_waiting

/-- **A deal that is over stays as it is.** -/
theorem play_of_over (hs : d.Shape) (hd : d.Distinct)
    (hover : d.status ∈ [.allCompleted, .resolved, .reported, .cancelled]) (hm : d.Legal m) :
    d.play m = d := by
  cases m with
  | retract gone =>
      -- the only legal move, and there is nothing to take back
      have hbids : d.bids.map (Move.onBid (.retract gone)) = d.bids := by
        refine (List.map_congr_left fun x hx => ?_).trans (List.map_id _)
        rw [Move.onBid_retract, Bid.cancel_of_not_waiting (hs.not_waiting hd hover hx), ite_self]
        rfl
      simp [play, Move.dealStatus, Move.mark, Move.newBids, hbids]
  | edit | drop | report | leave =>
      exfalso
      have hst : d.status ∈ _ := hm
      revert hover hst
      cases d.status <;> decide
  | pay | choose b t =>
      exfalso
      simp only [Legal] at hm
      revert hover hm
      cases d.status <;> simp
  | bid b =>
      exfalso
      have hst : d.status ∈ _ := hm.1
      revert hover hst
      cases d.status <;> decide
  | advance stage b t tb tc =>
      obtain ⟨x, -, -, hst⟩ := hm
      exfalso
      revert hover hst
      cases stage <;> cases d.status <;> simp [Stage.Starts]

end Play
end Deal
end OrderRun
