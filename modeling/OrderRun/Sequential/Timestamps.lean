import OrderRun.Sequential.Log

/-!
# Lifecycle timestamps

What the ten lifecycle timestamps of a proposal and its executed offer say about the
requests that went through, and when one of them is overwritten.

* `World.Timestamps`, `timestamps_after` — under a clock that never goes back, the
  timestamps mirror the history on both rows and come in the order of the lifecycle.
* `World.Keeps`, `World.OrdererStamped` — a timestamp is written once, and the
  orderer's confirmation is stamped by the orderer's call.
* `writtenOnce_iff` — under a clock that never stands still, both hold over a run
  exactly if no delivery comes after the orderer has confirmed.
-/

namespace OrderRun

open Store

/-! ## Clocks -/

/-- The clock does not go back from one request to a later one. -/
def NonDecreasing (rs : List Request) : Prop :=
  rs.Pairwise fun r r' => ∀ t ∈ r.now.all, ∀ t' ∈ r'.now.all, t ≤ t'

/-- Every reading of the clock is later than the ones before it. -/
structure Increasing (rs : List Request) : Prop where
  within : ∀ r ∈ rs, r.now.all.Pairwise (· < ·)
  across : rs.Pairwise fun r r' => ∀ t ∈ r.now.all, ∀ t' ∈ r'.now.all, t < t'

/-- The moves of a deal were made in the order of their instants. -/
theorem chronological_after (bus : EventBus) (m : MasterData) {rs : List Request}
    (h : NonDecreasing rs) (pid : ℕ) :
    Chronological ((World.after bus m rs).log.filterMap (Entry.move pid)) := by
  refine List.pairwise_filterMap.2 ((log_pairwise bus m h).imp ?_)
  intro later earlier hle m hm m' hm' t ht t' ht'
  exact hle t (times_move hm' ht) t' (times_move hm ht')

/-! ## Timestamps mirror the history -/

/-- What the timestamps of a matched proposal and its executed offer say. -/
structure Mirrored (w : World) (p : Proposal) (o : Offer) : Prop where
  matched : p.matchedAt = o.acceptedAt ∧ p.matchedAt.isSome
  runner : (p.runnerConfirmedAt.isSome ↔ w.Succeeded (Call.Delivers o.id)) ∧
    (o.runnerConfirmedAt.isSome ↔ w.Succeeded (Call.Delivers o.id))
  orderer : (p.ordererConfirmedAt.isSome ↔ w.Succeeded (Call.Receives p.id)) ∧
    (o.ordererConfirmedAt.isSome ↔ w.Succeeded (Call.Receives p.id))
  disputed : (p.disputedAt.isSome ↔ w.Succeeded (Call.Disputes p.id o.id)) ∧
    (o.disputedAt.isSome ↔ w.Succeeded (Call.Disputes p.id o.id))
  resolved : (p.resolvedAt.isSome ↔ w.Succeeded (Call.Resolves o.id)) ∧
    (o.resolvedAt.isSome ↔ w.Succeeded (Call.Resolves o.id))
  /-- Nothing before the matching, and no resolution before the dispute, on either row. -/
  order : ∀ a ∈ [p.marks, o.marks], ∀ b ∈ [p.marks, o.marks], a.Precede b

/-- What the timestamps say about the requests that went through. -/
structure World.Timestamps (w : World) : Prop where
  /-- An offer that was never accepted has no lifecycle timestamp. -/
  idle : ∀ o ∈ w.db.offers, ¬ w.Succeeded (Call.Accepts o.id) → o.marks = {}
  /-- Nor has a proposal that was never matched. -/
  blank : ∀ p ∈ w.db.proposals,
    (∀ o ∈ w.db.offersOf p.id, ¬ w.Succeeded (Call.Accepts o.id)) → p.marks = {}
  /-- The accepted offers are the executed ones. -/
  executed : ∀ o ∈ w.db.offers, Executed o.status ↔ w.Succeeded (Call.Accepts o.id)
  mirrored : ∀ p o, w.db.Pair p o → Executed o.status → Mirrored w p o

section Mirror

variable {w : World} {p : Proposal} {o : Offer}

theorem executed_iff_accepted (hl : w.Logged) (ht : w.Traced) (hpair : w.db.Pair p o) :
    Executed o.status ↔ w.Succeeded (Call.Accepts o.id) := by
  rw [← chose_iff hl hpair.offer, hpair.proposalId]
  exact (ht.history p hpair.proposal).executed_iff_chose hpair.mem_bids

theorem mirrored_of_executed (hl : w.Logged) (ht : w.Traced) (hpair : w.db.Pair p o)
    (hex : Executed o.status)
    (hc : Chronological (w.log.filterMap (Entry.move p.id))) : Mirrored w p o := by
  have hhist := ht.history p hpair.proposal
  have hr := hhist.chronicle.executed o.bid hpair.mem_bids hex
  have hmir := hr.mirrors
  have hrun := hr.runner.trans (delivered_iff hl ht hpair hex)
  have hord := hr.orderer.trans (received_iff hl ht hpair hex)
  have hdis := hr.disputed.trans (disputed_iff hl ht hpair hex)
  have hres := hr.resolved.trans (resolved_iff hl ht hpair hex)
  refine ⟨⟨hmir.matched, hr.matched⟩, ⟨hrun, ?_⟩, ⟨hord, ?_⟩, ⟨hdis, ?_⟩, ⟨hres, ?_⟩, ?_⟩
  · rw [← hrun, hmir.runner]; rfl
  · rw [← hord, hmir.orderer]; rfl
  · rw [← hdis, hmir.disputed]; rfl
  · rw [← hres, hmir.resolved]; rfl
  · have hmem : ∀ a ∈ [p.marks, o.marks], a ∈ (w.db.deal p).allMarks := by
      intro a ha
      rcases List.mem_pair.1 ha with rfl | rfl
      · exact List.mem_cons_self
      · exact List.mem_cons_of_mem _ (List.mem_map_of_mem hpair.mem_bids)
    intro a ha b hb
    exact hhist.ordered hc a (hmem a ha) b (hmem b hb)

end Mirror

/-- **Timestamps mirror the history on both rows**, after any requests executed one at
a time from an empty database under a clock that never goes back. -/
theorem timestamps_after (bus : EventBus) (m : MasterData) (rs : List Request)
    (hclock : NonDecreasing rs) : (World.after bus m rs).Timestamps := by
  have hl := logged_after bus m rs
  have ht := traced_after bus m rs
  constructor
  · intro o ho hno
    obtain ⟨p, hpair⟩ := ht.owned.pair ho
    refine (ht.history p hpair.proposal).idle_of_not_chose hpair.mem_bids ?_
    rw [← hpair.proposalId]
    exact fun hchose => hno ((chose_iff hl ho).1 hchose)
  · intro p hp hno
    refine (ht.history p hp).blank_of_not_chose ?_
    rintro b ⟨t, hmove⟩
    -- whatever was chosen is one of the offers
    obtain ⟨x, hx, rfl, -⟩ := (ht.history p hp).chronicle.subject _ hmove b rfl
    obtain ⟨o, ho, hpid, rfl⟩ := Db.mem_deal_bids.1 hx
    refine hno o (Db.mem_offersOf.2 ⟨ho, hpid⟩) ((chose_iff hl ho).1 ⟨t, ?_⟩)
    rw [hpid]
    exact hmove
  · intro o ho
    obtain ⟨p, hpair⟩ := ht.owned.pair ho
    exact executed_iff_accepted hl ht hpair
  · intro p o hpair hex
    exact mirrored_of_executed hl ht hpair hex (chronological_after bus m hclock p.id)

/-- A full run: two runners apply, one delivers, and the orderer confirms. -/
theorem timestamps_after_delivery : NonDecreasing Sample.delivered ∧
    (World.after Sample.bus Sample.master Sample.delivered).Timestamps :=
  have hclock : NonDecreasing Sample.delivered := by
    unfold NonDecreasing
    decide
  ⟨hclock, timestamps_after Sample.bus Sample.master Sample.delivered hclock⟩

/-! ## Timestamps are written once -/

/-- Every row is still there, and no timestamp it had is missing or different. -/
structure World.Keeps (w w' : World) : Prop where
  rows : w.db.Extends w'.db
  proposals : ∀ p ∈ w.db.proposals, ∀ p' ∈ w'.db.proposals, p'.id = p.id → p.marks.Le p'.marks
  offers : ∀ o ∈ w.db.offers, ∀ o' ∈ w'.db.offers, o'.id = o.id → o.marks.Le o'.marks

/-- An offer's `orderer_confirmed_at` is a reading of the clock during a
`confirm_received` call on its proposal. -/
def World.OrdererStamped (w : World) : Prop :=
  ∀ o ∈ w.db.offers, ∀ t, o.ordererConfirmedAt = some t →
    ∃ e ∈ w.log, Call.Receives o.proposalId e.request.call ∧ t ∈ e.request.now.all

/-- Over the whole run, timestamps are written once, and the orderer's confirmation
is stamped by the orderer's call. -/
structure WrittenOnce (bus : EventBus) (m : MasterData) (rs : List Request) : Prop where
  keeps : ∀ pre mid suf, rs = pre ++ mid ++ suf →
    (World.after bus m pre).Keeps (World.after bus m (pre ++ mid))
  stamped : ∀ pre suf, rs = pre ++ suf → (World.after bus m pre).OrdererStamped

/-- The runner of an `ACCEPTED` offer confirms the delivery after the orderer has
confirmed the receipt. -/
def LateDelivery (w : World) (r : Request) : Prop :=
  r.call.authenticate w.db = .ok () ∧ ∃ p o, w.db.Pair p o ∧
    r.call = .completeDelivery o.id o.runnerId ∧ o.status = .accepted ∧
    p.status = .orderCompleted

theorem World.Keeps.refl (w : World) : w.Keeps w := by
  refine ⟨Db.Extends.refl _, ?_, ?_⟩
  · intro p hp p' hp' hid
    obtain rfl : p' = p := AutoTable.eq_of_key_eq hp' hp hid
    exact Marks.Le.refl _
  · intro o ho o' ho' hid
    obtain rfl : o' = o := AutoTable.eq_of_key_eq ho' ho hid
    exact Marks.Le.refl _

theorem World.Keeps.trans {w₁ w₂ w₃ : World} (h : w₁.Keeps w₂) (h' : w₂.Keeps w₃) :
    w₁.Keeps w₃ := by
  refine ⟨h.rows.trans h'.rows, ?_, ?_⟩
  · intro p hp p'' hp'' hid
    obtain ⟨p', hp', hid', -⟩ := h.rows.proposals p hp
    exact (h.proposals p hp p' hp' hid').trans (h'.proposals p' hp' p'' hp'' (hid.trans hid'.symm))
  · intro o ho o'' ho'' hid
    obtain ⟨o', ho', hid', -⟩ := h.rows.offers o ho
    exact (h.offers o ho o' ho' hid').trans (h'.offers o' ho' o'' ho'' (hid.trans hid'.symm))

section Late

variable {w : World} {r : Request} {u : UnitOfWork} {db : Db} {bus : EventBus}

/-- The move of a late delivery comes from a late delivery. -/
theorem late_of_move (hauth : r.call.authenticate w.db = .ok ())
    (hbody : r.call.body w.db r.now = .ok u) {pid b : ℕ} {t tb tc : DateTime}
    (hm : Entry.move pid ⟨r, u, db⟩ = some (.advance .deliverLast b t tb tc)) :
    LateDelivery w r := by
  have hstage := (move_advance hm).1
  obtain ⟨call, now⟩ := r
  cases call with
  | completeDelivery oid uid =>
      obtain ⟨p, o, hpair, rfl, rfl, hos, hcases⟩ := OfferService.completeDelivery_eq_ok hbody
      refine ⟨hauth, p, o, hpair, rfl, hos, ?_⟩
      rcases hcases with ⟨hps, event, rfl⟩ | ⟨hps, -⟩
      · -- on a `MATCHED` proposal the delivery comes first
        rw [Entry.move] at hm
        simp only [ite_eq_iff, reduceCtorEq, and_false, false_or, ownMove_eq_some] at hm
        obtain ⟨-, q, x, hqx, -, he⟩ := hm
        obtain ⟨rfl, rfl⟩ : p = q ∧ o = x := by simpa [UnitOfWork.pair] using hqx
        exact absurd he (by simp [hps])
      · exact hps
  | _ => exact absurd hstage (by simp [Call.stages])

/-- The bid of an offer after a commit. -/
theorem bid_mem_commit {u : UnitOfWork} {db : Db} {p : Proposal} {o : Offer}
    (hcommit : u.commit r.now.flush w.db bus = .ok db) (hpair : w.db.Pair p o) :
    (u.offerRow r.now.flush o).bid ∈ (db.deal (u.proposalRow r.now.flush p)).bids := by
  obtain ⟨-, -, -, -, hoffers⟩ := UnitOfWork.commit_eq_ok hcommit
  refine Db.mem_deal_bids.2 ⟨u.offerRow r.now.flush o, ?_, ?_, rfl⟩
  · rw [hoffers]
    exact UnitOfWork.mem_offers_write.2 (Or.inl ⟨o, hpair.offer, rfl⟩)
  · rw [UnitOfWork.offerRow_proposalId, UnitOfWork.proposalRow_id, hpair.proposalId]

/-- A request that is no late delivery keeps the timestamps of every deal. -/
theorem marks_le_commit {u : UnitOfWork} {db : Db} (ht : w.Traced) (hlate : ¬ LateDelivery w r)
    (hauth : r.call.authenticate w.db = .ok ()) (hbody : r.call.body w.db r.now = .ok u)
    (hcommit : u.commit r.now.flush w.db bus = .ok db) {p : Proposal} (hp : p ∈ w.db.proposals) :
    p.marks.Le (u.proposalRow r.now.flush p).marks ∧
      ∀ o, w.db.Pair p o → o.marks.Le (u.offerRow r.now.flush o).marks := by
  have hf := follows_commit hbody hcommit hp fun q hq => ht.shape hq
  have hhist := ht.history p hp
  cases hm : Entry.move p.id ⟨r, u, db⟩ with
  | none =>
      rw [hm] at hf
      have hsame : db.deal (u.proposalRow r.now.flush p) = w.db.deal p := hf
      refine ⟨?_, fun o hpair => ?_⟩
      · rw [show (u.proposalRow r.now.flush p).marks = p.marks from congrArg Deal.marks hsame]
        exact Marks.Le.refl _
      · have hmem := bid_mem_commit hcommit hpair
        rw [hsame] at hmem
        have hbid := hhist.distinct.eq hmem hpair.mem_bids (u.offerRow_id _ o)
        rw [show (u.offerRow r.now.flush o).marks = o.marks from congrArg Bid.marks hbid]
        exact Marks.Le.refl _
  | some m =>
      rw [hm] at hf
      obtain ⟨legal, hplay⟩ := hf
      have hne : ∀ b t tb tc, m ≠ .advance .deliverLast b t tb tc := by
        rintro b t tb tc rfl
        exact hlate (late_of_move hauth hbody hm)
      obtain ⟨hkeep, hkeeps⟩ := hhist.marks_keep legal hne
      refine ⟨?_, fun o hpair => ?_⟩
      · rw [show (u.proposalRow r.now.flush p).marks = ((w.db.deal p).play m).marks from
          congrArg Deal.marks hplay]
        exact hkeep
      · have hmem := bid_mem_commit hcommit hpair
        rw [hplay] at hmem
        have hnew : m.onBid o.bid ∈ ((w.db.deal p).play m).bids :=
          List.mem_append_left _ (List.mem_map_of_mem hpair.mem_bids)
        have hid : (u.offerRow r.now.flush o).bid.id = (m.onBid o.bid).id := by
          rw [m.onBid_id, Offer.bid_id, u.offerRow_id, Offer.bid_id]
        have hbid := (Deal.distinct_play hhist.distinct legal).eq hmem hnew hid
        rw [show (u.offerRow r.now.flush o).marks = (m.onBid o.bid).marks from
          congrArg Bid.marks hbid]
        exact hkeeps o.bid hpair.mem_bids

/-- **A request that is no late delivery keeps all timestamps.** -/
theorem keeps_call (ht : w.Traced) (hlate : ¬ LateDelivery w r) :
    w.Keeps ((service bus).call w r) := by
  rcases call_cases bus w r with he | ⟨u, db, hauth, hbody, hcommit, he⟩
  · rw [he]; exact World.Keeps.refl w
  · rw [he]
    obtain ⟨-, -, -, hprops, hoffers⟩ := UnitOfWork.commit_eq_ok hcommit
    have hdeal := fun p hp => marks_le_commit ht hlate hauth hbody hcommit (p := p) hp
    refine ⟨UnitOfWork.extends_commit hcommit, ?_, ?_⟩
    · intro p hp p' hp' hid
      have hmem : u.proposalRow r.now.flush p ∈ db.proposals := by
        rw [hprops]
        exact UnitOfWork.mem_proposals_write.2 (Or.inl ⟨p, hp, rfl⟩)
      obtain rfl : p' = u.proposalRow r.now.flush p :=
        AutoTable.eq_of_key_eq hp' hmem (hid.trans (u.proposalRow_id _ p).symm)
      exact (hdeal p hp).1
    · intro o ho o' ho' hid
      obtain ⟨p, hpair⟩ := ht.owned.pair ho
      have hmem : u.offerRow r.now.flush o ∈ db.offers := by
        rw [hoffers]
        exact UnitOfWork.mem_offers_write.2 (Or.inl ⟨o, ho, rfl⟩)
      obtain rfl : o' = u.offerRow r.now.flush o :=
        AutoTable.eq_of_key_eq ho' hmem (hid.trans (u.offerRow_id _ o).symm)
      exact (hdeal p hpair.proposal).2 o hpair

/-- A late delivery goes through and stamps the orderer's confirmation again, with a
reading of its own. -/
theorem late_overwrites (bus : EventBus) (ht : w.Traced) (hlate : LateDelivery w r) :
    ∃ o ∈ w.db.offers, ∃ o' ∈ ((service bus).call w r).db.offers, o'.id = o.id ∧
      (∃ t₀, o.ordererConfirmedAt = some t₀ ∧ ∃ e ∈ w.log, t₀ ∈ e.request.now.all) ∧
      o'.ordererConfirmedAt = some (r.now.third) := by
  obtain ⟨hauth, p, o, hpair, hcall, hos, hps⟩ := hlate
  obtain ⟨call, now⟩ := r
  obtain rfl : call = .completeDelivery o.id o.runnerId := hcall
  obtain ⟨u, hbody⟩ := OfferService.completeDelivery_of_orderCompleted now hpair hos hps
  obtain ⟨q, x, hpair', hid, -, -, hcases⟩ := OfferService.completeDelivery_eq_ok hbody
  obtain rfl : x = o := AutoTable.eq_of_key_eq hpair'.offer hpair.offer hid
  obtain rfl : q = p := AutoTable.eq_of_key_eq hpair'.proposal hpair.proposal
    (hpair'.proposalId.symm.trans hpair.proposalId)
  rcases hcases with ⟨hmatched, -⟩ | ⟨-, event, hu⟩
  · rw [hps] at hmatched
    exact absurd hmatched (by simp)
  · obtain ⟨db, hcommit, he⟩ := call_of_body bus hauth hbody (by rw [hu]) (by rw [hu])
    obtain ⟨-, -, -, -, hoffers⟩ := UnitOfWork.commit_eq_ok hcommit
    have hhist := ht.history q hpair.proposal
    have hlegal : (w.db.deal q).Legal (.advance .deliverLast x.id now.second now.first now.third) :=
      ⟨x.bid, hpair.mem_bids, rfl, hps, hos⟩
    -- the orderer's confirmation is on record
    obtain ⟨y, hy, hyid, ⟨t₀, h₀, m, hm, htm⟩, -⟩ := hhist.deliverLast_overwrites hlegal
    obtain rfl : y = x.bid := hhist.distinct.eq hy hpair.mem_bids hyid
    obtain ⟨e, hmem, hmove⟩ := List.mem_filterMap.1 hm
    refine ⟨x, hpair.offer, u.offerRow now.flush x, ?_, u.offerRow_id _ x,
      ⟨t₀, h₀, e, hmem, times_move hmove htm⟩, ?_⟩
    · rw [he]
      show _ ∈ db.offers
      rw [hoffers]
      exact UnitOfWork.mem_offers_write.2 (Or.inl ⟨x, hpair.offer, rfl⟩)
    · rw [hu]
      simp only [UnitOfWork.offerRow, UnitOfWork.rejectRow, writeBack_singleton, if_true,
        Offer.flush_ordererConfirmedAt]
      exact col_untouched _ _

end Late

/-- No delivery in the log came after the orderer had confirmed. -/
def World.Punctual (w : World) : Prop :=
  ∀ e ∈ w.log, ∀ pid b t tb tc, e.move pid ≠ some (.advance .deliverLast b t tb tc)

theorem punctual_call (bus : EventBus) {w : World} {r : Request} (h : w.Punctual)
    (hlate : ¬ LateDelivery w r) : ((service bus).call w r).Punctual := by
  rcases call_cases bus w r with he | ⟨u, db, hauth, hbody, -, he⟩
  · rw [he]; exact h
  · rw [he]
    intro e hmem
    rcases List.mem_cons.1 hmem with rfl | hmem
    · intro pid b t tb tc hm
      exact hlate (late_of_move hauth hbody hm)
    · exact h e hmem

/-- Without late deliveries the orderer's confirmation is stamped by the orderer. -/
theorem stamped_of_punctual {w : World} (hl : w.Logged) (ht : w.Traced) (h : w.Punctual) :
    w.OrdererStamped := by
  intro o ho t hstamp
  obtain ⟨p, hpair⟩ := ht.owned.pair ho
  have hne : ∀ b t tb tc,
      Move.advance .deliverLast b t tb tc ∉ w.log.filterMap (Entry.move p.id) := by
    intro b t tb tc hmem
    obtain ⟨e, he, hm⟩ := List.mem_filterMap.1 hmem
    exact h e he p.id b t tb tc hm
  obtain ⟨stage, hstage, t', tc, hmove⟩ :=
    (ht.history p hpair.proposal).orderer_received hne hpair.mem_bids hstamp
  obtain ⟨e, he, hm⟩ := List.mem_filterMap.1 hmove
  obtain ⟨hcall, q, x, hpo, hq, -⟩ := move_advance hm
  refine ⟨e, he, ?_, times_move hm (by simp [Move.times])⟩
  have hstages := stages_eq (by simp) hstage hcall
  cases hc : e.request.call with
  | confirmReceived pid uid =>
      obtain ⟨q', x', hpo', hnames, -⟩ := hl.pair he (by rw [hc]; trivial)
      rw [hpo, Option.some.injEq, Prod.mk.injEq] at hpo'
      obtain ⟨rfl, rfl⟩ := hpo'
      rw [hc] at hnames
      obtain rfl : q.id = pid := hnames
      exact ⟨uid, by rw [hpair.proposalId, hq]⟩
  | _ => exact absurd hstages (by simp [hc, Call.stages])

theorem after_concat (bus : EventBus) (m : MasterData) (pre : List Request) (r : Request) :
    World.after bus m (pre ++ [r]) = (service bus).call (World.after bus m pre) r :=
  Runs.run_concat _ _ _

/-- **Timestamps are written once, except for late deliveries.**  Under a clock that
never stands still, all timestamps of a run are written once and the orderer's
confirmation is stamped by the orderer's call, exactly if no runner confirms a
delivery after the orderer has confirmed the receipt. -/
theorem writtenOnce_iff (bus : EventBus) (m : MasterData) (rs : List Request)
    (hclock : Increasing rs) : WrittenOnce bus m rs ↔
      ∀ pre r suf, rs = pre ++ r :: suf → ¬ LateDelivery (World.after bus m pre) r := by
  constructor
  · intro h pre r suf hrs hlate
    have hkeeps := h.keeps pre [r] suf (by rw [hrs]; simp)
    rw [after_concat] at hkeeps
    obtain ⟨o, ho, o', ho', hid, ⟨t₀, h₀, e, he, hread⟩, h'⟩ :=
      late_overwrites bus (traced_after bus m pre) hlate
    -- the old stamp is older than the new one, so it has not been kept
    have hsame : some t₀ = some (r.now.third) := by
      have hle : o'.ordererConfirmedAt = some t₀ := (hkeeps.offers o ho o' ho' hid).orderer t₀ h₀
      rw [← hle, h']
    have hlt : t₀ < r.now.third := by
      have hacross := hclock.across
      rw [hrs] at hacross
      exact (List.pairwise_append.1 hacross).2.2 e.request (request_mem he) r List.mem_cons_self
        t₀ hread r.now.third (by simp [Readings.all])
    rw [Option.some.inj hsame] at hlt
    exact lt_irrefl _ hlt
  · intro h
    have hinv : ∀ pre suf, rs = pre ++ suf → (World.after bus m pre).Punctual := by
      intro pre
      induction pre using List.reverseRecOn with
      | nil => exact fun _ _ e he => absurd he List.not_mem_nil
      | append_singleton pre r ih =>
          intro suf hrs
          rw [after_concat]
          exact punctual_call bus (ih (r :: suf) (by rw [hrs]; simp))
            (h pre r suf (by rw [hrs]; simp))
    refine ⟨?_, ?_⟩
    · refine (Runs.along_between (K := World.Keeps) World.Keeps.refl
        fun _ _ _ => World.Keeps.trans).1 ?_
      refine Runs.along_iff.2 fun pre r suf hrs => ?_
      exact keeps_call (traced_after bus m pre) (h pre r suf hrs)
    · intro pre suf hrs
      exact stamped_of_punctual (logged_after bus m pre) (traced_after bus m pre)
        (hinv pre suf hrs)

theorem increasing_received : Increasing Sample.received := by
  constructor <;> decide

/-- The orderer confirms, then the runner: the runner's delivery stamps the orderer's
confirmation again, from the sixth request's clock to the seventh's. -/
theorem not_writtenOnce_received : Increasing Sample.received ∧
    ¬ WrittenOnce Sample.bus Sample.master Sample.received := by
  refine ⟨increasing_received, fun h => ?_⟩
  have hkeeps := h.keeps (Sample.received.take 6) (Sample.received.drop 6) []
    (by rw [List.take_append_drop, List.append_nil])
  have hstamps : ∃ o ∈ (World.after Sample.bus Sample.master
        (Sample.received.take 6)).db.offers.rows,
      ∃ o' ∈ (World.after Sample.bus Sample.master
        (Sample.received.take 6 ++ Sample.received.drop 6)).db.offers.rows,
      o'.id = o.id ∧ o.ordererConfirmedAt = some 61 ∧ o'.ordererConfirmedAt = some 72 := by
    decide +kernel
  obtain ⟨o, ho, o', ho', hid, h₁, h₂⟩ := hstamps
  have hle : o'.ordererConfirmedAt = some 61 := (hkeeps.offers o ho o' ho' hid).orderer 61 h₁
  rw [h₂] at hle
  exact absurd hle (by decide)

/-- The condition for the run in which the orderer confirms first. -/
theorem writtenOnce_iff_received : Increasing Sample.received ∧
    (WrittenOnce Sample.bus Sample.master Sample.received ↔
      ∀ pre r suf, Sample.received = pre ++ r :: suf →
        ¬ LateDelivery (World.after Sample.bus Sample.master pre) r) :=
  ⟨increasing_received,
    writtenOnce_iff Sample.bus Sample.master Sample.received increasing_received⟩

end OrderRun
