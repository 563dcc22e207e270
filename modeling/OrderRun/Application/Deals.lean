import OrderRun.Application.Command
import OrderRun.Sequential.Joint

/-!
# Deals in the application

The commands outside the four services leave the lifecycle tables alone, but for the chat
links of offers.  So the deals are the same whether or not these commands are interleaved
with the calls, and what holds after any calls holds in every run of the application.

* `SameDeals`, `AccountStep.sameDeals` — what such a command leaves alone.
* `App.inv_run`, `App.inv_after` — an invariant of the application: initially, a call, a
  command.  `App.among_run` — when the two steps of calls overlap with others and with commands.
* `App.traced_after`, `App.inStep_after` — the tables refine the lifecycle, and proposals
  and offers stay in step.
* `pair_commit` — a proposal and an offer of it, after a call.
* `deal_over_commit` — a deal that is over stays as it is.
* `Db.NoSelfOffer` — nobody runs her own errand.
-/

namespace OrderRun

open Store Split

/-! ## What the other commands leave alone -/

/-- An offer with another chat link. -/
def Offer.relink (link : Offer → Option String) (o : Offer) : Offer :=
  { o with openChatUrl := link o }

/-- The two databases hold the same deals, and the same about them; only the chat links
of offers may differ. -/
structure SameDeals (db db' : Db) : Prop where
  proposals : db'.proposals = db.proposals
  offers : ∃ link, db'.offers.rows = db.offers.rows.map (Offer.relink link) ∧
    db'.offers.next = db.offers.next
  reports : db'.reports = db.reports
  reasonQuestions : db'.reasonQuestions = db.reasonQuestions
  evidences : db'.evidences = db.evidences
  surveyQuestions : db'.surveyQuestions = db.surveyQuestions

theorem sameDeals_of_offers {db db' : Db} (hp : db'.proposals = db.proposals)
    (ho : db'.offers = db.offers) (hr : db'.reports = db.reports)
    (hq : db'.reasonQuestions = db.reasonQuestions) (he : db'.evidences = db.evidences)
    (hs : db'.surveyQuestions = db.surveyQuestions) : SameDeals db db' where
  proposals := hp
  offers := ⟨Offer.openChatUrl, by rw [ho]; exact (List.map_id _).symm, by rw [ho]⟩
  reports := hr
  reasonQuestions := hq
  evidences := he
  surveyQuestions := hs

/-- **A command outside the four services leaves the deals alone.** -/
theorem AccountStep.sameDeals {db db' : Db} (h : AccountStep db db') : SameDeals db db' := by
  cases h with
  | chat offerId url =>
      refine ⟨rfl, ⟨fun o => if o.id = offerId then url else o.openChatUrl, ?_, rfl⟩,
        rfl, rfl, rfl, rfl⟩
      refine List.map_congr_left fun o _ => ?_
      by_cases hid : o.id = offerId <;> simp [Offer.relink, hid]
  | _ => exact sameDeals_of_offers rfl rfl rfl rfl rfl rfl

namespace SameDeals

variable {db db' : Db} (h : SameDeals db db')

include h

/-- The offer of the other database. -/
theorem offer {o' : Offer} (ho' : o' ∈ db'.offers) :
    ∃ o ∈ db.offers, ∃ url, { o with openChatUrl := url } = o' := by
  obtain ⟨link, hrows, -⟩ := h.offers
  rw [AutoTable.mem_iff, hrows] at ho'
  obtain ⟨o, ho, rfl⟩ := List.mem_map.1 ho'
  exact ⟨o, ho, link o, rfl⟩

theorem offer_of {o : Offer} (ho : o ∈ db.offers) :
    ∃ url, { o with openChatUrl := url } ∈ db'.offers := by
  obtain ⟨link, hrows, -⟩ := h.offers
  refine ⟨link o, ?_⟩
  rw [AutoTable.mem_iff, hrows]
  exact List.mem_map_of_mem ho

/-- A proposal and an offer of it, in the other database. -/
theorem pair {p : Proposal} {o' : Offer} (hpair : db'.Pair p o') :
    ∃ o, db.Pair p o ∧ ∃ url, { o with openChatUrl := url } = o' := by
  obtain ⟨o, ho, url, rfl⟩ := h.offer hpair.offer
  exact ⟨o, ⟨h.proposals ▸ hpair.proposal, ho, hpair.proposalId⟩, url, rfl⟩

theorem deal (p : Proposal) : db'.deal p = db.deal p := by
  obtain ⟨link, hrows, -⟩ := h.offers
  have hbids : (db'.offersOf p.id).map Offer.bid = (db.offersOf p.id).map Offer.bid := by
    unfold Db.offersOf
    rw [hrows, List.filter_map, List.map_map]
    rfl
  unfold Db.deal
  rw [hbids]

theorem owned (howned : db.Owned) : db'.Owned := by
  intro o' ho'
  obtain ⟨o, ho, url, rfl⟩ := h.offer ho'
  obtain ⟨p, hp, hid⟩ := howned o ho
  exact ⟨p, h.proposals ▸ hp, hid⟩

theorem kept : db.Extends db' where
  proposals := fun p hp => ⟨p, h.proposals ▸ hp, rfl, rfl⟩
  offers := by
    intro o ho
    obtain ⟨url, ho'⟩ := h.offer_of ho
    exact ⟨_, ho', rfl, rfl, rfl⟩

end SameDeals

/-! ## Invariants of the application -/

section Invariants

variable {settings : Settings} {bus : EventBus}

/-- What calls and commands keep, runs of the application keep. -/
theorem App.inv_run {I : World → Prop} {w : World} (hw : I w)
    (hcall : ∀ w r, I w → I ((service bus).call w r))
    (hcommand : ∀ w db, I w → AccountStep w.db db → I { w with db := db })
    (cs : List Command) : I (Runs.run (App.step settings bus) w cs) := by
  refine Runs.inv_run (I := I) ?_ hw cs
  intro w c hw
  cases c with
  | deal r => exact hcall w r hw
  | account c => exact hcommand w _ hw (accountStep_run settings w.db c)

/-- **An invariant of the application** holds initially, and is kept by calls and by
commands. -/
theorem App.inv_after {I : World → Prop} {m : MasterData} (hinit : I (World.initial m))
    (hcall : ∀ w r, I w → I ((service bus).call w r))
    (hcommand : ∀ w db, I w → AccountStep w.db db → I { w with db := db })
    (cs : List Command) : I (App.after settings bus m cs) :=
  App.inv_run hinit hcall hcommand cs

/-- What commits and commands keep, every state in which they overlap has. -/
theorem App.among_run {I : World → Prop} {R : World → World → Prop}
    (h : (service bus).Sound I R fun _ => True)
    (hcommand : ∀ w db, I w → AccountStep w.db db → I { w with db := db } ∧ R w { w with db := db })
    {w : World} (hw : I w) (es : List (Among Request AccountCommand)) :
    Runs.Always (App.among settings bus)
      (fun s => I s.now ∧ (service bus).Origin I R (fun _ => True) s) (State.quiet w) es := by
  unfold App.among
  refine h.among_run (B := fun _ => True) (fun w c _ hi => ?_) hw fun e _ => ?_
  · exact hcommand w _ hi (accountStep_run settings w.db c)
  · cases e with
    | event e => exact e.calls_true
    | change c => trivial

/-- A later state of a run is a state of the run that goes on from the earlier one. -/
theorem App.after_append (m : MasterData) (cs cs' : List Command) :
    App.after settings bus m (cs ++ cs') =
      Runs.run (App.step settings bus) (App.after settings bus m cs) cs' :=
  Runs.run_append _ cs cs'

/-- A command keeps the tables and the log together. -/
theorem World.Traced.command {w : World} (h : w.Traced) {db : Db} (hs : SameDeals w.db db) :
    World.Traced { w with db := db } where
  history := by
    intro p hp
    rw [hs.deal p]
    exact h.history p (hs.proposals ▸ hp)
  next_le := by
    intro e he
    show _ ≤ db.proposals.next
    rw [hs.proposals]
    exact h.next_le e he
  owned := hs.owned h.owned

/-- **The tables refine the lifecycle**, in every run of the application. -/
theorem App.traced_after (m : MasterData) (cs : List Command) :
    (App.after settings bus m cs).Traced :=
  App.inv_after (traced_initial m) (fun _ r h => traced_call bus h r)
    (fun _ _ h hstep => h.command hstep.sameDeals) cs

/-- **Proposals and offers stay in step**, in every run of the application. -/
theorem App.inStep_after (m : MasterData) (cs : List Command) :
    (App.after settings bus m cs).db.Joint :=
  fun _ hp => joint_of_shape ((App.traced_after m cs).shape hp)

end Invariants

/-! ## A proposal and an offer of it -/

section Pairs

variable {bus : EventBus} {w : World} {r : Request} {u : UnitOfWork} {db : Db}

/-- **A proposal and an offer of it, after a call**: both were there before, or the offer
is new on a proposal that was there. -/
theorem pair_commit (howned : w.db.Owned) (hbody : r.call.body w.db r.now = .ok u)
    (hcommit : u.commit r.now.flush w.db bus = .ok db) {p' : Proposal} {o' : Offer}
    (hpair : db.Pair p' o') :
    ∃ p ∈ w.db.proposals, u.proposalRow r.now.flush p = p' ∧
      ((∃ o, w.db.Pair p o ∧ u.offerRow r.now.flush o = o') ∨
        ∃ uid, r.call = .offerCreate p.id uid ∧ o' = { Offer.create p.id uid with
          id := w.db.offers.next, createdAt := r.now.flush, updatedAt := r.now.flush }) := by
  obtain ⟨-, -, -, hprops, hoffers⟩ := UnitOfWork.commit_eq_ok hcommit
  have hp' := hprops ▸ hpair.proposal
  have ho' := hoffers ▸ hpair.offer
  rcases UnitOfWork.mem_proposals_write.1 hp' with ⟨p, hp, rfl⟩ | ⟨p, hnew, rfl⟩
  · refine ⟨p, hp, rfl, ?_⟩
    have hpid : o'.proposalId = p.id := by simpa using hpair.proposalId
    rcases UnitOfWork.mem_offers_write.1 ho' with ⟨o, ho, rfl⟩ | ⟨o, hnew, rfl⟩
    · exact Or.inl ⟨o, ⟨hp, ho, by simpa using hpid⟩, rfl⟩
    · rcases (body_inserts hbody).2 with hnone | ⟨pid, uid, hcall, hsome, -⟩
      · rw [hnone] at hnew
        exact absurd hnew (by simp)
      · rw [hsome, Option.some.injEq] at hnew
        subst hnew
        obtain rfl : pid = p.id := hpid
        exact Or.inr ⟨uid, hcall, rfl⟩
  · -- a new proposal has no offers yet
    exfalso
    have hpid : o'.proposalId = w.db.proposals.next := hpair.proposalId
    rcases (body_inserts hbody).1 with hnone | ⟨-, -, q, -, hsome, -, -, hno⟩
    · rw [hnone] at hnew
      exact absurd hnew (by simp)
    · rcases UnitOfWork.mem_offers_write.1 ho' with ⟨o, ho, rfl⟩ | ⟨o, hoffer, -⟩
      · obtain ⟨q, hq, hid⟩ := howned o ho
        rw [UnitOfWork.offerRow_proposalId, ← hid] at hpid
        exact (AutoTable.lt_next hq).ne hpid
      · rw [hno] at hoffer
        exact absurd hoffer (by simp)

/-- The rows of a pair stay a pair. -/
theorem Db.Pair.commit {t : DateTime} (hcommit : u.commit t w.db bus = .ok db) {p : Proposal}
    {o : Offer} (hpair : w.db.Pair p o) :
    db.Pair (u.proposalRow t p) (u.offerRow t o) where
  proposal := by
    rw [(UnitOfWork.commit_eq_ok hcommit).2.2.2.1]
    exact UnitOfWork.mem_proposals_write.2 (Or.inl ⟨p, hpair.proposal, rfl⟩)
  offer := by
    rw [(UnitOfWork.commit_eq_ok hcommit).2.2.2.2]
    exact UnitOfWork.mem_offers_write.2 (Or.inl ⟨o, hpair.offer, rfl⟩)
  proposalId := by simpa using hpair.proposalId

/-- An errand is executed by one offer only. -/
theorem World.Traced.executed_eq (ht : w.Traced) {p : Proposal} {o x : Offer}
    (ho : w.db.Pair p o) (hx : w.db.Pair p x) (hos : Executed o.status)
    (hxs : Executed x.status) : x = o := by
  have hbid : x.bid = o.bid := (ht.shape ho.proposal).executed_unique
    (ht.history p ho.proposal).distinct hx.mem_bids ho.mem_bids hxs hos
  exact AutoTable.eq_of_key_eq hx.offer ho.offer (congrArg Bid.id hbid)

/-- Nobody runs an errand that is still offered. -/
theorem World.Traced.unmatched (ht : w.Traced) {p : Proposal} (hp : p ∈ w.db.proposals)
    (hps : p.status = .offered) : ∀ x ∈ w.db.offers, x.proposalId = p.id →
      x.status ∉ OfferService.ACTIVE_OFFER_STATUSES := by
  intro x hx hxp
  have hbid := (⟨hp, hx, hxp⟩ : w.db.Pair p x).mem_bids
  have hopen := (ht.shape hp).waiting_of_offered hps _ hbid
  revert hopen
  show x.status ∈ _ → _
  cases x.status <;> decide

/-- The offer a running errand is executed by is found. -/
theorem getExecutionOffer_eq (ht : w.Traced) {p : Proposal} {o : Offer} (hpair : w.db.Pair p o)
    (hos : o.status ∈ ProposalService.EXECUTION_OFFER_STATUSES) :
    ProposalService.getExecutionOffer w.db p.id = .ok o := by
  have hexecuted : ∀ s : OfferStatus, s ∈ ProposalService.EXECUTION_OFFER_STATUSES →
      Executed s := by
    intro s
    cases s <;> decide
  rw [ProposalService.getExecutionOffer, orRaise_eq_ok]
  cases hfirst : w.db.offers.firstBy (fun x => x.proposalId = p.id ∧
      x.status ∈ ProposalService.EXECUTION_OFFER_STATUSES) ProposalService.latestAccepted with
  | none =>
      have hno := Table.firstBy_eq_none_iff.1 hfirst o hpair.offer
      simp only [decide_eq_false_iff_not] at hno
      exact absurd ⟨hpair.proposalId, hos⟩ hno
  | some x =>
      obtain ⟨hx, hselected⟩ := Table.firstBy_mem hfirst
      obtain ⟨hxp, hxs⟩ := of_decide_eq_true hselected
      rw [ht.executed_eq hpair ⟨hpair.proposal, hx, hxp⟩ (hexecuted _ hos) (hexecuted _ hxs)]

/-- **A deal that is over stays as it is.** -/
theorem deal_over_commit (ht : w.Traced) (hbody : r.call.body w.db r.now = .ok u)
    (hcommit : u.commit r.now.flush w.db bus = .ok db) {p : Proposal} (hp : p ∈ w.db.proposals)
    (hover : p.status ∈ [.allCompleted, .resolved, .reported, .cancelled]) :
    db.deal (u.proposalRow r.now.flush p) = w.db.deal p := by
  have hf := follows_commit hbody hcommit hp fun q hq => ht.shape hq
  cases hm : Entry.move p.id ⟨r, u, db⟩ with
  | none => rw [hm] at hf; exact hf
  | some m =>
      rw [hm] at hf
      exact hf.2.trans (Deal.play_of_over (ht.shape hp) (ht.history p hp).distinct hover hf.1)

/-- The setting of a user whom a call does not load is not touched. -/
theorem alarmEnabled_commit_of_ne {t : DateTime} (hcommit : u.commit t w.db bus = .ok db)
    {uid : UserId} (hne : ∀ c ∈ u.users, c.loaded.id ≠ uid) :
    alarmEnabled db.users uid = alarmEnabled w.db.users uid := by
  have hrow : ∀ user : User, user.id = uid → (u.userRow user).alarmEnabled = user.alarmEnabled := by
    intro user hid
    rw [UnitOfWork.userRow_of_ne (hid ▸ hne)]
    unfold UnitOfWork.levelRow
    split <;> rfl
  have hfind : db.users.find? uid = (w.db.users.find? uid).map u.userRow := by
    rw [(UnitOfWork.commit_eq_ok hcommit).2.2.1]
    exact Table.find?_map u.userRow_id
  unfold alarmEnabled
  rw [hfind]
  cases hfound : w.db.users.find? uid with
  | none => rfl
  | some user =>
      obtain ⟨-, hid⟩ := Table.find?_eq_some_iff.1 hfound
      exact congrArg (fun alarm => decide (alarm = some true)) (hrow user hid)

theorem alarmEnabled_commit {t : DateTime} (hu : u.users = [])
    (hcommit : u.commit t w.db bus = .ok db) (uid : UserId) :
    alarmEnabled db.users uid = alarmEnabled w.db.users uid :=
  alarmEnabled_commit_of_ne hcommit fun c hc => absurd hc (by simp [hu])

/-- Nobody runs her own errand. -/
def Db.NoSelfOffer (db : Db) : Prop := ∀ p o, db.Pair p o → o.runnerId ≠ p.ordererId

theorem noSelfOffer_call (bus : EventBus) {w : World} (howned : w.db.Owned)
    (h : w.db.NoSelfOffer) (r : Request) : ((service bus).call w r).db.NoSelfOffer := by
  rcases call_cases bus w r with he | ⟨u, db, -, hbody, hcommit, he⟩
  · rw [he]; exact h
  · rw [he]
    intro p' o' hpair
    obtain ⟨p, hp, rfl, ⟨o, hold, rfl⟩ | ⟨uid, hcall, rfl⟩⟩ :=
      pair_commit howned hbody hcommit hpair
    · simpa using h p o hold
    · rw [hcall] at hbody
      obtain ⟨q, hq, hid, hself, -⟩ := OfferService.create_eq_ok hbody
      obtain rfl : q = p := AutoTable.eq_of_key_eq hq hp hid
      simpa [Offer.create] using hself.symm

theorem SameDeals.noSelfOffer {db db' : Db} (hs : SameDeals db db') (h : db.NoSelfOffer) :
    db'.NoSelfOffer := by
  intro p o' hpair
  obtain ⟨o, hold, url, rfl⟩ := hs.pair hpair
  exact h p o hold

/-- Nobody applies twice for an errand. -/
def Db.OneEach (db : Db) : Prop := ∀ o ∈ db.offers, ∀ x ∈ db.offers,
  x.proposalId = o.proposalId → x.runnerId = o.runnerId → x.id = o.id

theorem oneEach_call (bus : EventBus) {w : World} (h : w.db.OneEach) (r : Request) :
    ((service bus).call w r).db.OneEach := by
  rcases call_cases bus w r with he | ⟨u, db, -, -, hcommit, he⟩
  · rw [he]; exact h
  · rw [he]
    obtain ⟨hfree, -, -, -, hoffers⟩ := UnitOfWork.commit_eq_ok hcommit
    -- the constraint refuses a second offer
    have hnew : ∀ o ∈ w.db.offers, ∀ new, u.newOffer = some new →
        ¬ (o.proposalId = new.proposalId ∧ o.runnerId = new.runnerId) :=
      fun o ho new hn hc => hfree ⟨new, hn, o, ho, hc⟩
    show ∀ o' ∈ db.offers, ∀ x' ∈ db.offers, _
    rw [hoffers]
    intro o' ho' x' hx' hpid hrunner
    rcases UnitOfWork.mem_offers_write.1 ho' with ⟨o, ho, rfl⟩ | ⟨o, ho, rfl⟩ <;>
      rcases UnitOfWork.mem_offers_write.1 hx' with ⟨x, hx, rfl⟩ | ⟨x, hx, rfl⟩
    · simpa using h o ho x hx (by simpa using hpid) (by simpa using hrunner)
    · exact absurd ⟨by simpa using hpid.symm, by simpa using hrunner.symm⟩ (hnew o ho x hx)
    · exact absurd ⟨by simpa using hpid, by simpa using hrunner⟩ (hnew x hx o ho)
    · rfl

theorem SameDeals.oneEach {db db' : Db} (hs : SameDeals db db') (h : db.OneEach) :
    db'.OneEach := by
  intro o' ho' x' hx' hpid hrunner
  obtain ⟨o, ho, url, rfl⟩ := hs.offer ho'
  obtain ⟨x, hx, url', rfl⟩ := hs.offer hx'
  exact h o ho x hx hpid hrunner

/-- Nobody ever runs her own errand. -/
theorem App.noSelfOffer_after {settings : Settings} (m : MasterData) (cs : List Command) :
    (App.after settings bus m cs).db.NoSelfOffer := by
  have h : (App.after settings bus m cs).Traced ∧ (App.after settings bus m cs).db.NoSelfOffer := by
    refine App.inv_after (I := fun w => w.Traced ∧ w.db.NoSelfOffer) ?_ ?_ ?_ cs
    · exact ⟨traced_initial m, fun _ _ hpair => absurd hpair.proposal List.not_mem_nil⟩
    · rintro w r ⟨ht, hn⟩
      exact ⟨traced_call bus ht r, noSelfOffer_call bus ht.owned hn r⟩
    · rintro w db ⟨ht, hn⟩ hstep
      exact ⟨ht.command hstep.sameDeals, hstep.sameDeals.noSelfOffer hn⟩
  exact h.2

end Pairs

end OrderRun
