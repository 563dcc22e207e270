import OrderRun.Deal.Refinement

/-!
# What the log says about a deal

The moves a deal has made are read off the log; this file relates them to the calls
that went through, by the ids the clients have named.

* `World.Logged`, `logged_after` — every logged unit of work was prepared by its
  call on an earlier database.
* `log_sublist` — the log lists requests of the run, latest first.
* `chose_iff`, `delivered_iff`, `received_iff`, `disputed_iff`, `resolved_iff` — a
  bid was chosen, or a stage taken with it, exactly if the call named after it
  succeeded.
-/

namespace OrderRun

open Store

/-! ## Calls that went through -/

/-- A request with such a call has been committed. -/
def World.Succeeded (w : World) (A : Call → Prop) : Prop := ∃ e ∈ w.log, A e.request.call

namespace Call

def Accepts (offerId : ℕ) (call : Call) : Prop := ∃ uid, call = .offerAccept offerId uid

def Delivers (offerId : ℕ) (call : Call) : Prop := ∃ uid, call = .completeDelivery offerId uid

def Receives (proposalId : ℕ) (call : Call) : Prop := ∃ uid, call = .confirmReceived proposalId uid

/-- Either party raises a dispute. -/
def Disputes (proposalId offerId : ℕ) (call : Call) : Prop :=
  (∃ uid qid reason, call = .proposalDispute proposalId uid qid reason) ∨
    ∃ uid qid reason, call = .offerDispute offerId uid qid reason

def Resolves (offerId : ℕ) (call : Call) : Prop := call = .resolve offerId

/-- The pair of rows a call is about, for the calls that change one of each. -/
def Names (p : Proposal) (o : Offer) : Call → Prop
  | .offerAccept oid _ | .completeDelivery oid _ | .offerDispute oid _ _ _ | .resolve oid =>
      o.id = oid
  | .confirmReceived pid _ | .proposalDispute pid _ _ _ => p.id = pid
  | _ => True

/-- The stages a call can take. -/
def stages : Call → List Stage
  | .completeDelivery _ _ => [.deliver, .deliverLast]
  | .confirmReceived _ _ => [.receive, .receiveLast]
  | .proposalDispute _ _ _ _ | .offerDispute _ _ _ _ => [.dispute]
  | .resolve _ => [.resolve]
  | _ => []

/-- The calls that change one proposal and one of its offers. -/
def OnPair : Call → Prop
  | .offerAccept _ _ | .completeDelivery _ _ | .offerDispute _ _ _ _ | .resolve _
  | .confirmReceived _ _ | .proposalDispute _ _ _ _ => True
  | _ => False

end Call

theorem body_pair {call : Call} {db : Db} {now : Readings} {u : UnitOfWork}
    (h : call.body db now = .ok u) (hcall : call.OnPair) :
    ∃ p o, db.Pair p o ∧ u.pair = some (p, o) ∧ call.Names p o := by
  cases call with
  | offerAccept oid uid =>
      obtain ⟨p, o, hpair, hid, -, -, -, -, event, rfl⟩ := OfferService.accept_eq_ok h
      exact ⟨p, o, hpair, rfl, hid⟩
  | completeDelivery oid uid =>
      obtain ⟨p, o, hpair, hid, -, -, ⟨-, event, rfl⟩ | ⟨-, event, rfl⟩⟩ :=
        OfferService.completeDelivery_eq_ok h <;> exact ⟨p, o, hpair, rfl, hid⟩
  | offerDispute oid uid qid reason =>
      obtain ⟨p, o, hpair, hid, -, -, -, event, rfl⟩ := OfferService.raiseDispute_eq_ok h
      exact ⟨p, o, hpair, rfl, hid⟩
  | resolve oid =>
      obtain ⟨p, o, hpair, hid, -, -, rfl⟩ := OfferService.resolve_eq_ok h
      exact ⟨p, o, hpair, rfl, hid⟩
  | confirmReceived pid uid =>
      obtain ⟨p, o, hpair, hid, -, -, ⟨-, event, rfl⟩ | ⟨-, event, rfl⟩⟩ :=
        ProposalService.confirmReceived_eq_ok h <;> exact ⟨p, o, hpair, rfl, hid⟩
  | proposalDispute pid uid qid reason =>
      obtain ⟨p, o, hpair, hid, -, -, -, event, rfl⟩ := ProposalService.raiseDispute_eq_ok h
      exact ⟨p, o, hpair, rfl, hid⟩
  | _ => exact absurd hcall id

/-! ## The log -/

/-- Every logged unit of work was prepared by its call on an earlier database. -/
def World.Logged (w : World) : Prop :=
  ∀ e ∈ w.log, ∃ db, e.request.call.body db e.request.now = .ok e.work ∧ db.Extends w.db ∧
    db.proposals.next ≤ e.committed.proposals.next

theorem logged_call (bus : EventBus) {w : World} (h : w.Logged) (r : Request) :
    ((service bus).call w r).Logged := by
  rcases call_cases bus w r with he | ⟨u, db, -, hbody, hcommit, he⟩
  · rw [he]; exact h
  · rw [he]
    have hext := UnitOfWork.extends_commit hcommit
    obtain ⟨-, -, -, hprops, -⟩ := UnitOfWork.commit_eq_ok hcommit
    intro e hmem
    rcases List.mem_cons.1 hmem with rfl | hmem
    · refine ⟨w.db, hbody, hext, ?_⟩
      show _ ≤ db.proposals.next
      rw [hprops]
      exact next_proposals_write _
    · obtain ⟨db₀, hb, he₀, hn⟩ := h e hmem
      exact ⟨db₀, hb, he₀.trans hext, hn⟩

theorem logged_after (bus : EventBus) (m : MasterData) (rs : List Request) :
    (World.after bus m rs).Logged :=
  Runs.inv_run (I := World.Logged) (fun _ r h => logged_call bus h r)
    (fun _ he => absurd he List.not_mem_nil) rs

/-- The log lists requests of the run, latest first. -/
theorem log_sublist (bus : EventBus) (m : MasterData) (rs : List Request) :
    ((World.after bus m rs).log.map Entry.request).Sublist rs.reverse := by
  induction rs using List.reverseRecOn with
  | nil => exact List.Sublist.refl _
  | append_singleton rs r ih =>
      have hstep : World.after bus m (rs ++ [r]) =
          (service bus).call (World.after bus m rs) r := Runs.run_concat _ _ _
      rw [hstep, List.reverse_append, List.reverse_singleton, List.singleton_append]
      rcases call_cases bus (World.after bus m rs) r with he | ⟨u, db, -, -, -, he⟩
      · rw [he]
        exact ih.cons r
      · rw [he]
        exact ih.cons_cons r

/-- An order of the requests of a run is an order of the log, read backwards. -/
theorem log_pairwise {R : Request → Request → Prop} (bus : EventBus) (m : MasterData)
    {rs : List Request} (h : rs.Pairwise R) :
    (World.after bus m rs).log.Pairwise fun later earlier => R earlier.request later.request := by
  have hrev : rs.reverse.Pairwise fun later earlier => R earlier later := List.pairwise_reverse.2 h
  exact List.pairwise_map.1 (hrev.sublist (log_sublist bus m rs))

theorem request_mem {bus : EventBus} {m : MasterData} {rs : List Request} {e : Entry}
    (he : e ∈ (World.after bus m rs).log) : e.request ∈ rs :=
  List.mem_reverse.1 ((log_sublist bus m rs).mem (List.mem_map_of_mem he))

/-! ## Moves and calls -/

section Moves

variable {e : Entry} {pid : ℕ}

theorem ownMove_eq_some {f : Proposal → Offer → Move ℕ DateTime} {m : Move ℕ DateTime} :
    e.ownMove pid f = some m ↔ ∃ p o, e.work.pair = some (p, o) ∧ p.id = pid ∧ f p o = m := by
  unfold Entry.ownMove
  cases h : e.work.pair with
  | none => simp
  | some po =>
      obtain ⟨p, o⟩ := po
      by_cases hid : p.id = pid
      · simp [hid]
      · simp [hid]

/-- A bid is only chosen by an acceptance. -/
theorem move_choose {b : ℕ} {t : DateTime} (h : e.move pid = some (.choose b t)) :
    (∃ oid uid, e.request.call = .offerAccept oid uid) ∧
      ∃ p o, e.work.pair = some (p, o) ∧ p.id = pid ∧ o.id = b := by
  obtain ⟨⟨call, now⟩, u, db⟩ := e
  unfold Entry.move at h
  cases call with
  | offerAccept oid uid =>
      simp only [ite_eq_iff, reduceCtorEq, and_false, false_or, ownMove_eq_some] at h
      obtain ⟨-, p, o, hpo, hp, hm⟩ := h
      exact ⟨⟨oid, uid, rfl⟩, p, o, hpo, hp, by injection hm⟩
  | _ => simp [ite_eq_iff, ownMove_eq_some] at h <;> grind

/-- A stage is only taken by a call of its own. -/
theorem move_advance {stage : Stage} {b : ℕ} {t tb tc : DateTime}
    (h : e.move pid = some (.advance stage b t tb tc)) :
    stage ∈ e.request.call.stages ∧
      ∃ p o, e.work.pair = some (p, o) ∧ p.id = pid ∧ o.id = b := by
  obtain ⟨⟨call, now⟩, u, db⟩ := e
  have own : ∀ {f : Proposal → Offer → Move ℕ DateTime},
      Entry.ownMove ⟨⟨call, now⟩, u, db⟩ pid f = some (.advance stage b t tb tc) →
      (∀ p o, f p o = .advance stage b t tb tc → stage ∈ call.stages ∧ o.id = b) →
      stage ∈ call.stages ∧ ∃ p o, u.pair = some (p, o) ∧ p.id = pid ∧ o.id = b := by
    intro f h hf
    obtain ⟨p, o, hpo, hp, hm⟩ := ownMove_eq_some.1 h
    exact ⟨(hf p o hm).1, p, o, hpo, hp, (hf p o hm).2⟩
  unfold Entry.move at h
  simp only [ite_eq_iff, reduceCtorEq, and_false, false_or] at h
  cases call with
  | completeDelivery oid uid =>
      refine own h.2 fun p o hm => ?_
      injection hm with hs hb
      refine ⟨?_, hb⟩
      rw [← hs]
      split <;> simp [Call.stages]
  | confirmReceived pid' uid =>
      refine own h.2 fun p o hm => ?_
      injection hm with hs hb
      refine ⟨?_, hb⟩
      rw [← hs]
      split <;> simp [Call.stages]
  | proposalDispute pid' uid qid reason =>
      refine own h.2 fun p o hm => ?_
      injection hm with hs hb
      exact ⟨by simp [Call.stages, ← hs], hb⟩
  | offerDispute oid uid qid reason =>
      refine own h.2 fun p o hm => ?_
      injection hm with hs hb
      exact ⟨by simp [Call.stages, ← hs], hb⟩
  | resolve oid =>
      refine own h.2 fun p o hm => ?_
      injection hm with hs hb
      exact ⟨by simp [Call.stages, ← hs], hb⟩
  | _ => simp [ite_eq_iff, ownMove_eq_some] at h <;> grind

/-- An acceptance chooses the bid it has changed. -/
theorem move_of_accept {p : Proposal} {o : Offer} (hpo : e.work.pair = some (p, o))
    (hnext : p.id < e.committed.proposals.next) {oid : ℕ} {uid : UserId}
    (hcall : e.request.call = .offerAccept oid uid) :
    e.move p.id = some (.choose o.id (e.request.now.first)) := by
  obtain ⟨⟨call, now⟩, u, db⟩ := e
  obtain rfl : call = _ := hcall
  rw [Entry.move, if_neg (not_le.2 hnext)]
  exact ownMove_eq_some.2 ⟨p, o, hpo, rfl, rfl⟩

/-- A call of the execution takes one of its stages with the bid it has changed. -/
theorem move_of_stages {p : Proposal} {o : Offer} (hpo : e.work.pair = some (p, o))
    (hnext : p.id < e.committed.proposals.next) (hcall : e.request.call.stages ≠ []) :
    ∃ stage ∈ e.request.call.stages, ∃ t tb tc,
      e.move p.id = some (.advance stage o.id t tb tc) := by
  obtain ⟨⟨call, now⟩, u, db⟩ := e
  have own : ∀ f : Proposal → Offer → Move ℕ DateTime,
      Entry.ownMove ⟨⟨call, now⟩, u, db⟩ p.id f = some (f p o) :=
    fun f => ownMove_eq_some.2 ⟨p, o, hpo, rfl, rfl⟩
  simp only [Entry.move, if_neg (not_le.2 hnext), own]
  cases call with
  | completeDelivery oid uid =>
      by_cases hst : p.status = .orderCompleted
      · exact ⟨.deliverLast, by simp [Call.stages], now.second, now.first, now.third, by simp [hst]⟩
      · exact ⟨.deliver, by simp [Call.stages], now.second, now.first, now.third, by simp [hst]⟩
  | confirmReceived pid uid =>
      by_cases hst : o.status = .runnerCompleted
      · exact ⟨.receiveLast, by simp [Call.stages], now.first, now.second, now.second,
          by simp [hst]⟩
      · exact ⟨.receive, by simp [Call.stages], now.first, now.second, now.second, by simp [hst]⟩
  | proposalDispute pid uid qid reason =>
      exact ⟨.dispute, by simp [Call.stages], now.first, now.second, now.second, rfl⟩
  | offerDispute oid uid qid reason =>
      exact ⟨.dispute, by simp [Call.stages], now.second, now.first, now.first, rfl⟩
  | resolve oid => exact ⟨.resolve, by simp [Call.stages], now.second, now.first, now.first, rfl⟩
  | _ => exact absurd rfl hcall

/-- The instants of a move are readings of the clock during its request. -/
theorem times_move {m : Move ℕ DateTime} (h : e.move pid = some m) {t : DateTime}
    (ht : t ∈ m.times) : t ∈ e.request.now.all := by
  obtain ⟨⟨call, now⟩, u, db⟩ := e
  have own : ∀ {f : Proposal → Offer → Move ℕ DateTime},
      Entry.ownMove ⟨⟨call, now⟩, u, db⟩ pid f = some m →
      (∀ p o, (f p o).times ⊆ now.all) → t ∈ now.all := by
    intro f h hf
    obtain ⟨p, o, -, -, rfl⟩ := ownMove_eq_some.1 h
    exact hf p o ht
  unfold Entry.move at h
  simp only [ite_eq_iff, reduceCtorEq, and_false, false_or] at h
  cases call with
  | offerAccept oid uid => exact own h.2 fun p o => by simp [Move.times, Readings.all]
  | completeDelivery oid uid => exact own h.2 fun p o => by simp [Move.times, Readings.all]
  | confirmReceived pid' uid => exact own h.2 fun p o => by simp [Move.times, Readings.all]
  | proposalDispute pid' uid qid reason =>
      exact own h.2 fun p o => by simp [Move.times, Readings.all]
  | offerDispute oid uid qid reason => exact own h.2 fun p o => by simp [Move.times, Readings.all]
  | resolve oid => exact own h.2 fun p o => by simp [Move.times, Readings.all]
  | _ =>
      -- the other moves record nothing
      have hnil : m.times = [] := by
        simp [ite_eq_iff] at h <;> grind [Move.times]
      rw [hnil] at ht
      exact absurd ht List.not_mem_nil

end Moves

/-! ## What has happened to a pair -/

section Pairs

variable {w : World}

/-- Two calls that can take the same stage can take the same stages. -/
theorem stages_eq {call : Call} {stage : Stage} {S : List Stage}
    (hS : S ∈ [[Stage.deliver, .deliverLast], [.receive, .receiveLast], [.dispute], [.resolve]])
    (h : stage ∈ S) (h' : stage ∈ call.stages) : call.stages = S := by
  have hcall : call.stages ∈
      [[Stage.deliver, .deliverLast], [.receive, .receiveLast], [.dispute], [.resolve]] := by
    cases call <;> simp [Call.stages] at h' ⊢
  generalize call.stages = S' at h' hcall ⊢
  simp only [List.mem_cons, List.not_mem_nil, or_false] at hS hcall
  rcases hS with rfl | rfl | rfl | rfl <;> rcases hcall with rfl | rfl | rfl | rfl <;>
    revert h h' <;> cases stage <;> decide

/-- A stage was taken with a bid exactly if a call of that kind has changed it. -/
theorem did_iff (h : w.Logged) {pid b : ℕ} {S : List Stage}
    (hS : S ∈ [[Stage.deliver, .deliverLast], [.receive, .receiveLast], [.dispute], [.resolve]]) :
    Did (w.log.filterMap (Entry.move pid)) S b ↔ ∃ e ∈ w.log, e.request.call.stages = S ∧
      ∃ p o, e.work.pair = some (p, o) ∧ p.id = pid ∧ o.id = b := by
  constructor
  · rintro ⟨stage, hstage, t, tb, tc, hm⟩
    obtain ⟨e, he, hmove⟩ := List.mem_filterMap.1 hm
    obtain ⟨hcalls, hpair⟩ := move_advance hmove
    exact ⟨e, he, stages_eq hS hstage hcalls, hpair⟩
  · rintro ⟨e, he, rfl, p, o, hpo, rfl, rfl⟩
    have hne : e.request.call.stages ≠ [] := by
      intro hnil
      rw [hnil] at hS
      exact absurd hS (by decide)
    obtain ⟨db, hbody, -, hnext⟩ := h e he
    have hon : e.request.call.OnPair := by
      revert hne
      cases e.request.call <;> simp [Call.stages, Call.OnPair]
    obtain ⟨p', o', hpair, hpo', -⟩ := body_pair hbody hon
    rw [hpo, Option.some.injEq, Prod.mk.injEq] at hpo'
    obtain ⟨rfl, rfl⟩ := hpo'
    have hlt : p.id < e.committed.proposals.next :=
      (AutoTable.lt_next hpair.proposal).trans_le hnext
    obtain ⟨stage, hstage, t, tb, tc, hm⟩ := move_of_stages hpo hlt hne
    exact ⟨stage, hstage, t, tb, tc, List.mem_filterMap.2 ⟨e, he, hm⟩⟩

/-- The pair a logged call has changed is the one it names. -/
theorem World.Logged.pair (h : w.Logged) {e : Entry} (he : e ∈ w.log)
    (hon : e.request.call.OnPair) :
    ∃ p o, e.work.pair = some (p, o) ∧ e.request.call.Names p o ∧
      p.id < e.committed.proposals.next ∧
      ∀ o' ∈ w.db.offers, o'.id = o.id → o'.proposalId = p.id := by
  obtain ⟨db, hbody, hext, hnext⟩ := h e he
  obtain ⟨p, o, hpair, hpo, hnames⟩ := body_pair hbody hon
  refine ⟨p, o, hpo, hnames, (AutoTable.lt_next hpair.proposal).trans_le hnext, ?_⟩
  intro o' ho' hid
  rw [(hext.offer_eq hpair.offer ho' hid).1, hpair.proposalId]

variable {p : Proposal} {o : Offer}

theorem chose_iff (h : w.Logged) (ho : o ∈ w.db.offers) :
    Chose (w.log.filterMap (Entry.move o.proposalId)) o.id ↔ w.Succeeded (Call.Accepts o.id) := by
  constructor
  · rintro ⟨t, hm⟩
    obtain ⟨e, he, hmove⟩ := List.mem_filterMap.1 hm
    obtain ⟨⟨oid, uid, hcall⟩, q, x, hpo, -, hid⟩ := move_choose hmove
    obtain ⟨q', x', hpo', hnames, -⟩ := h.pair he (by rw [hcall]; trivial)
    rw [hpo, Option.some.injEq, Prod.mk.injEq] at hpo'
    obtain ⟨rfl, rfl⟩ := hpo'
    rw [hcall] at hnames
    obtain rfl : x.id = oid := hnames
    exact ⟨e, he, uid, by rw [hcall, hid]⟩
  · rintro ⟨e, he, uid, hcall⟩
    obtain ⟨q, x, hpo, hnames, hlt, hpid⟩ := h.pair he (by rw [hcall]; trivial)
    rw [hcall] at hnames
    have hid : x.id = o.id := hnames
    have hmove := move_of_accept hpo hlt hcall
    rw [hpid o ho hid.symm]
    exact ⟨_, List.mem_filterMap.2 ⟨e, he, by rw [hmove, hid]⟩⟩

/-- **What has happened to an executed offer** can be told from the calls that name it
or its proposal. -/
theorem did_iff_succeeded (h : w.Logged) (ht : w.Traced) (hpair : w.db.Pair p o)
    (hex : Executed o.status) {S : List Stage} {A : Call → Prop}
    (hS : S ∈ [[Stage.deliver, .deliverLast], [.receive, .receiveLast], [.dispute], [.resolve]])
    (hA : ∀ call, A call → call.stages = S ∧ ∀ q x, call.Names q x → q.id = p.id ∨ x.id = o.id)
    (hA' : ∀ call q x, call.stages = S → call.Names q x → q.id = p.id → x.id = o.id → A call) :
    Did (w.log.filterMap (Entry.move p.id)) S o.id ↔ w.Succeeded A := by
  have hon : ∀ call : Call, call.stages = S → call.OnPair := by
    rintro call rfl
    revert hS
    cases call <;> simp [Call.stages, Call.OnPair]
  have hhist := ht.history p hpair.proposal
  -- whatever was done on the deal was done with its executed bid
  have honly : ∀ b, Did (w.log.filterMap (Entry.move p.id)) S b → b = o.id := by
    rintro b ⟨stage, -, t, tb, tc, hm⟩
    obtain ⟨x, hx, rfl, hxe⟩ := hhist.chronicle.subject _ hm b rfl
    rw [hhist.shape.executed_unique hhist.distinct hx hpair.mem_bids hxe hex]
    rfl
  constructor
  · intro hdid
    obtain ⟨e, he, hst, q, x, hpo, hq, hx⟩ := (did_iff h hS).1 hdid
    obtain ⟨q', x', hpo', hnames, -⟩ := h.pair he (hon _ hst)
    rw [hpo, Option.some.injEq, Prod.mk.injEq] at hpo'
    obtain ⟨rfl, rfl⟩ := hpo'
    exact ⟨e, he, hA' _ q x hst hnames hq hx⟩
  · rintro ⟨e, he, ha⟩
    obtain ⟨hst, hid⟩ := hA _ ha
    obtain ⟨q, x, hpo, hnames, -, hpid⟩ := h.pair he (hon _ hst)
    have hq : q.id = p.id := by
      rcases hid q x hnames with hq | hx
      · exact hq
      · rw [← hpid o hpair.offer hx.symm, hpair.proposalId]
    have hdid : Did (w.log.filterMap (Entry.move p.id)) S x.id :=
      (did_iff h hS).2 ⟨e, he, hst, q, x, hpo, hq, rfl⟩
    rwa [honly x.id hdid] at hdid

theorem delivered_iff (h : w.Logged) (ht : w.Traced) (hpair : w.db.Pair p o)
    (hex : Executed o.status) :
    Did (w.log.filterMap (Entry.move p.id)) [.deliver, .deliverLast] o.id ↔
      w.Succeeded (Call.Delivers o.id) := by
  refine did_iff_succeeded h ht hpair hex (by simp) ?_ ?_
  · rintro call ⟨uid, rfl⟩
    exact ⟨rfl, fun q x hx => Or.inr hx⟩
  · intro call q x hst hnames hq hx
    cases call with
    | completeDelivery oid uid =>
        obtain rfl : x.id = oid := hnames
        exact ⟨uid, by rw [hx]⟩
    | _ => exact absurd hst (by simp [Call.stages])

theorem received_iff (h : w.Logged) (ht : w.Traced) (hpair : w.db.Pair p o)
    (hex : Executed o.status) :
    Did (w.log.filterMap (Entry.move p.id)) [.receive, .receiveLast] o.id ↔
      w.Succeeded (Call.Receives p.id) := by
  refine did_iff_succeeded h ht hpair hex (by simp) ?_ ?_
  · rintro call ⟨uid, rfl⟩
    exact ⟨rfl, fun q x hq => Or.inl hq⟩
  · intro call q x hst hnames hq hx
    cases call with
    | confirmReceived pid uid =>
        obtain rfl : q.id = pid := hnames
        exact ⟨uid, by rw [hq]⟩
    | _ => exact absurd hst (by simp [Call.stages])

theorem disputed_iff (h : w.Logged) (ht : w.Traced) (hpair : w.db.Pair p o)
    (hex : Executed o.status) :
    Did (w.log.filterMap (Entry.move p.id)) [.dispute] o.id ↔
      w.Succeeded (Call.Disputes p.id o.id) := by
  refine did_iff_succeeded h ht hpair hex (by simp) ?_ ?_
  · rintro call (⟨uid, qid, reason, rfl⟩ | ⟨uid, qid, reason, rfl⟩)
    · exact ⟨rfl, fun q x hq => Or.inl hq⟩
    · exact ⟨rfl, fun q x hx => Or.inr hx⟩
  · intro call q x hst hnames hq hx
    cases call with
    | proposalDispute pid uid qid reason =>
        obtain rfl : q.id = pid := hnames
        exact Or.inl ⟨uid, qid, reason, by rw [hq]⟩
    | offerDispute oid uid qid reason =>
        obtain rfl : x.id = oid := hnames
        exact Or.inr ⟨uid, qid, reason, by rw [hx]⟩
    | _ => exact absurd hst (by simp [Call.stages])

theorem resolved_iff (h : w.Logged) (ht : w.Traced) (hpair : w.db.Pair p o)
    (hex : Executed o.status) :
    Did (w.log.filterMap (Entry.move p.id)) [.resolve] o.id ↔
      w.Succeeded (Call.Resolves o.id) := by
  refine did_iff_succeeded h ht hpair hex (by simp) ?_ ?_
  · rintro call rfl
    exact ⟨rfl, fun q x hx => Or.inr hx⟩
  · intro call q x hst hnames hq hx
    cases call with
    | resolve oid =>
        obtain rfl : x.id = oid := hnames
        rw [hx]
        rfl
    | _ => exact absurd hst (by simp [Call.stages])

end Pairs
end OrderRun
