import OrderRun.Application.Acceptance

/-!
# Who an event notification is about

A notification of the listener names an offer.  It should be the recipient's own: an offer she
has made, or an offer on her errand.

* `Db.Concerns`, `Db.OwnDeals` — a notification, and all of them, are about the recipient's deal.
* `Misdirected` — an acceptance that a rejected runner is told about.
* `ownDeals_call_iff` — when one call keeps the notifications in order.
* `App.ownDeals_iff` — over whole runs.
-/

namespace OrderRun

open Store

/-- The notification is about an offer of the recipient, or on an errand of hers, and its data
name that offer and its errand. -/
def Db.Concerns (db : Db) (n : Notification) : Prop :=
  ∃ p o, db.Pair p o ∧ n.relatedEntityId = some (o.id : ℤ) ∧
    (n.userId = o.runnerId ∨ n.userId = p.ordererId) ∧ n.data = some (dealData (.about p o))

/-- Every notification of the listener about an offer concerns its recipient.  What users are
sent by other means is of type `CUSTOM`. -/
def Db.OwnDeals (db : Db) : Prop :=
  ∀ n ∈ db.notifications, n.notificationType ≠ .custom → n.relatedEntityType = some "offer" →
    db.Concerns n

/-- An acceptance turns down a runner who wants notifications. -/
def Misdirected (w : World) (r : Request) : Prop :=
  r.call.authenticate w.db = .ok () ∧ ∃ p o, w.db.Pair p o ∧
    r.call = .offerAccept o.id p.ordererId ∧ p.status = .offered ∧ o.status = .waiting ∧
      ∃ x ∈ w.db.turnedDown p o, alarmEnabled w.db.users x.runnerId = true

/-! ## Commands outside the four services -/

section Commands

variable {db db' : Db}

/-- The same deals concern the same people. -/
theorem SameDeals.concerns (hs : SameDeals db db') {n n' : Notification} (h : db.Concerns n)
    (hid : n'.relatedEntityId = n.relatedEntityId) (huser : n'.userId = n.userId)
    (hdata : n'.data = n.data) : db'.Concerns n' := by
  obtain ⟨p, o, hpair, hrelated, hparty, hn⟩ := h
  obtain ⟨url, ho'⟩ := hs.offer_of hpair.offer
  refine ⟨p, { o with openChatUrl := url }, ⟨hs.proposals ▸ hpair.proposal, ho',
    hpair.proposalId⟩, hid.trans hrelated, ?_, hdata.trans hn⟩
  rw [huser]
  exact hparty

theorem AccountStep.ownDeals (hstep : AccountStep db db') (h : db.OwnDeals) : db'.OwnDeals := by
  have hsame := hstep.sameDeals
  have hkept : ∀ n ∈ db.notifications, n.notificationType ≠ .custom →
      n.relatedEntityType = some "offer" → db'.Concerns n :=
    fun n hn htype hentity => hsame.concerns (h n hn htype hentity) rfl rfl rfl
  intro n' hn' htype' hentity'
  cases hstep with
  | messages f hf =>
      obtain ⟨n, hn, rfl⟩ := AutoTable.mem_map.1 hn'
      have hn := h n hn ((hf n).notificationType ▸ htype') ((hf n).relatedEntityType ▸ hentity')
      exact hsame.concerns hn (hf n).relatedEntityId (hf n).userId (hf n).data
  | custom user huser hactive n huserId htype hstatus =>
      rcases AutoTable.mem_insert.1 hn' with hmem | rfl
      · exact hkept n' hmem htype' hentity'
      · exact absurd htype htype'
  | _ => exact hkept n' hn' htype' hentity'

end Commands

/-! ## Calls -/

section Calls

variable {w : World} {r : Request} {u : UnitOfWork} {db : Db} {t : DateTime}

/-- A deal stays the same people's. -/
theorem concerns_commit {bus : EventBus} (hcommit : u.commit t w.db bus = .ok db)
    {n : Notification} (h : w.db.Concerns n) : db.Concerns n := by
  obtain ⟨p, o, hpair, hid, hparty, hdata⟩ := h
  refine ⟨u.proposalRow t p, u.offerRow t o, hpair.commit hcommit, ?_, ?_, ?_⟩
  · simpa using hid
  · simpa using hparty
  · have hsame : dealData (.about p o) = dealData (.about (u.proposalRow t p) (u.offerRow t o)) :=
      dealData_congr (u.offerRow_id t o).symm (u.proposalRow_id t p).symm
    exact hdata.trans (congrArg some hsame)

/-- The drafts of an event that turns nobody down who wants to know. -/
theorem concerns_draft {p : Proposal} {o : Offer} (hpair : db.Pair p o) {bus : EventBus}
    {event : DomainEvent} (hoffer : event.deal.offerId = o.id)
    (hproposal : event.deal.proposalId = p.id) (hrunner : event.deal.runnerId = o.runnerId)
    (horderer : event.deal.ordererId = p.ordererId) {users : Table User}
    (hrejected : ∀ uid ∈ event.rejectedRunnerIds, alarmEnabled users uid = false)
    {n : Notification} (hn : n ∈ bus.drafts event users) (k : ℕ) :
    db.Concerns { n with id := k, createdAt := t } := by
  have halarm := EventBus.alarm_of_mem_drafts hn
  obtain ⟨hrecipient, _, _, _, he, -⟩ := EventBus.recipient_of_mem_drafts hn
  refine ⟨p, o, hpair, ?_, ?_, ?_⟩
  · rw [he, ← hoffer]
    rfl
  · show n.userId = o.runnerId ∨ n.userId = p.ordererId
    rw [← hrunner, ← horderer]
    rcases hrecipient with h | h | h
    · exact Or.inl h
    · exact Or.inr h
    · exact absurd ((hrejected _ h).symm.trans halarm) Bool.false_ne_true
  · rw [he]
    exact congrArg some (dealData_congr hoffer hproposal)

/-- What a call adds to the notifications concerns its recipients. -/
theorem concerns_of_mem_drafts (hauth : r.call.authenticate w.db = .ok ())
    (hbody : r.call.body w.db r.now = .ok u)
    (hcommit : u.commit r.now.flush w.db EventBus.empty.registerAll = .ok db)
    (hok : ¬ Misdirected w r) {n : Notification}
    (hn : n ∈ u.drafts EventBus.empty.registerAll w.db.offers.next db.users) (k : ℕ) :
    db.Concerns { n with id := k, createdAt := r.now.flush } := by
  obtain ⟨call, now⟩ := r
  -- an event that tells the two parties only
  have htold : ∀ {p : Proposal} {o : Offer} {event : DomainEvent}, w.db.Pair p o →
      u.event = some (fun _ => event) → event.deal = .about p o → event.rejectedRunnerIds = [] →
      db.Concerns { n with id := k, createdAt := now.flush } := by
    intro p o event hpair hevent hdeal hnone
    rw [UnitOfWork.drafts_of_event hevent] at hn
    change n ∈ EventBus.drafts _ event _ at hn
    refine concerns_draft (hpair.commit hcommit) ?_ ?_ ?_ ?_ ?_ hn k
    · simp [hdeal, DealEvent.about]
    · simp [hdeal, DealEvent.about]
    · simp [hdeal, DealEvent.about]
    · simp [hdeal, DealEvent.about]
    · simp [hnone]
  cases body_publishes hbody with
  | nothing event =>
      rw [UnitOfWork.drafts_of_none event] at hn
      exact absurd hn List.not_mem_nil
  | @offerCreated p hp runnerId inserted event =>
      rw [UnitOfWork.drafts_of_event event] at hn
      obtain ⟨-, -, -, hprops, hoffers⟩ := UnitOfWork.commit_eq_ok hcommit
      refine concerns_draft (p := u.proposalRow now.flush p) (o := { Offer.create p.id runnerId with
        id := w.db.offers.next, createdAt := now.flush, updatedAt := now.flush }) ⟨?_, ?_, ?_⟩
        rfl ?_ rfl ?_ (fun uid h => absurd h List.not_mem_nil) hn k
      · rw [hprops]
        exact UnitOfWork.mem_proposals_write.2 (Or.inl ⟨p, hp, rfl⟩)
      · rw [hoffers]
        exact UnitOfWork.mem_offers_write.2 (Or.inr ⟨_, inserted, rfl⟩)
      · exact (u.proposalRow_id now.flush p).symm
      · exact (u.proposalRow_id now.flush p).symm
      · exact (u.proposalRow_ordererId now.flush p).symm
  | @offerAccepted p o hpair hos hps work =>
      subst work
      refine concerns_draft (hpair.commit hcommit) ?_ ?_ ?_ ?_ ?_ hn k
      · simp [DomainEvent.deal, DealEvent.about]
      · simp [DomainEvent.deal, DealEvent.about]
      · simp [DomainEvent.deal, DealEvent.about]
      · simp [DomainEvent.deal, DealEvent.about]
      · intro uid hmem
        rw [alarmEnabled_commit rfl hcommit]
        simp only [DomainEvent.rejectedRunnerIds, rejected_eq] at hmem
        obtain ⟨x, hx, rfl⟩ := List.mem_map.1 hmem
        refine Bool.eq_false_iff.2 fun halarm => hok ?_
        exact ⟨hauth, p, o, hpair, rfl, hps, hos, x, hx, halarm⟩
  | runnerConfirmed hpair runnerId event => exact htold hpair event rfl rfl
  | ordererConfirmed hpair ordererId event => exact htold hpair event rfl rfl
  | ordererDisputed hpair ordererId qid reason event => exact htold hpair event rfl rfl
  | runnerDisputed hpair runnerId qid reason event => exact htold hpair event rfl rfl

/-- The notifications after a call. -/
theorem ownDeals_commit (h : w.db.OwnDeals) (hauth : r.call.authenticate w.db = .ok ())
    (hbody : r.call.body w.db r.now = .ok u)
    (hcommit : u.commit r.now.flush w.db EventBus.empty.registerAll = .ok db)
    (hok : ¬ Misdirected w r) : db.OwnDeals := by
  intro n hn htype hentity
  rw [AutoTable.mem_iff, (UnitOfWork.notifications_commit hcommit).1] at hn
  rcases List.mem_append.1 hn with hn | hn
  · have hmem : n ∈ w.db.notifications := (UnitOfWork.mem_keep.1 hn).1
    exact concerns_commit hcommit (h n hmem htype hentity)
  · obtain ⟨i, hi, rfl⟩ := List.mem_mapIdx.1 hn
    exact concerns_of_mem_drafts hauth hbody hcommit hok (List.getElem_mem hi) _

/-- A rejected runner is told about the accepted offer. -/
theorem not_ownDeals_of_misdirected (ht : w.Traced) (hself : w.db.NoSelfOffer)
    (hone : w.db.OneEach) (hmis : Misdirected w r) :
    ¬ ((service EventBus.empty.registerAll).call w r).db.OwnDeals := by
  obtain ⟨call, now⟩ := r
  obtain ⟨hauth, p, o, hpair, rfl, hps, hos, x, hx, halarm⟩ := hmis
  have hbody := OfferService.accept_eq now hpair hos hps (ht.unmatched hpair.proposal hps)
  obtain ⟨db, hcommit, he⟩ := call_of_body (r := ⟨_, now⟩) EventBus.empty.registerAll hauth hbody
    rfl rfl
  rw [he]
  intro h
  -- the notification of the rejected runner
  have halarm' : alarmEnabled db.users x.runnerId = true := by
    rw [alarmEnabled_commit rfl hcommit]
    exact halarm
  have hdraft : pending x.runnerId .offerRejected "이번엔 아쉽게 됐어요 😢"
      "이번엔 선택받지 못했지만 다음 기회가 분명 있을 거예요." (.about p o) ∈
      (OfferService.acceptance w.db p o now).drafts EventBus.empty.registerAll w.db.offers.next
        db.users := by
    rw [UnitOfWork.drafts_of_event rfl, EventBus.drafts_started, rejected_eq]
    refine List.mem_append_right _ (List.mem_flatMap.2 ⟨x.runnerId, ?_, ?_⟩)
    · exact List.mem_map_of_mem hx
    · exact mem_notify.2 ⟨halarm', rfl⟩
  obtain ⟨k, hn⟩ := UnitOfWork.mem_of_mem_drafts hcommit hdraft
  obtain ⟨p', o', hpair', hid, hparty, -⟩ := h _ hn nofun rfl
  -- it names the accepted offer
  have hid' : o'.id = o.id := (Int.ofNat_inj.1 (Option.some.inj hid)).symm
  obtain rfl := AutoTable.eq_of_key_eq hpair'.offer (hpair.commit hcommit).offer
    (hid'.trans (UnitOfWork.offerRow_id _ now.flush o).symm)
  obtain rfl := AutoTable.eq_of_key_eq hpair'.proposal (hpair.commit hcommit).proposal
    (hpair'.proposalId.symm.trans (hpair.commit hcommit).proposalId)
  rw [UnitOfWork.offerRow_runnerId, UnitOfWork.proposalRow_ordererId] at hparty
  obtain ⟨hxmem, hxp, hne, -⟩ := mem_turnedDown.1 hx
  rcases hparty with hrunner | horderer
  · exact hne (hone o hpair.offer x hxmem (hxp.trans hpair.proposalId.symm) hrunner)
  · exact hself p x ⟨hpair.proposal, hxmem, hxp⟩ horderer

/-- **When one call keeps the notifications in order.** -/
theorem ownDeals_call_iff (ht : w.Traced) (hself : w.db.NoSelfOffer) (hone : w.db.OneEach)
    (h : w.db.OwnDeals) (r : Request) :
    ((service EventBus.empty.registerAll).call w r).db.OwnDeals ↔ ¬ Misdirected w r := by
  constructor
  · exact fun hnext hmis => not_ownDeals_of_misdirected ht hself hone hmis hnext
  · intro hok
    rcases call_cases EventBus.empty.registerAll w r with he | ⟨u, db, hauth, hbody, hcommit, he⟩
    · rw [he]
      exact h
    · rw [he]
      exact ownDeals_commit h hauth hbody hcommit hok

end Calls

/-! ## Whole runs -/

/-- A command does not turn down a runner who wants notifications. -/
def Directed (w : World) : Command → Prop
  | .deal r => ¬ Misdirected w r
  | .account _ => True

/-- **When every event notification concerns its recipient.**  In a run of the application, with
the listener registered once or more often, this always holds precisely if no acceptance turns
down a runner who wants notifications. -/
theorem App.ownDeals_iff (settings : Settings) (n : ℕ) (m : MasterData) (cs : List Command) :
    Runs.Always (App.step settings (EventBus.registerAll^[n + 1] .empty))
        (fun w => w.db.OwnDeals) (World.initial m) cs ↔
      Runs.Along (App.step settings (EventBus.registerAll^[n + 1] .empty)) Directed
        (World.initial m) cs := by
  rw [EventBus.registerAll_iterate]
  refine Runs.always_iff_along (A := fun _ => True)
    (I := fun w => w.Traced ∧ w.db.NoSelfOffer ∧ w.db.OneEach) ?_ ?_ ?_ ?_ fun _ _ => trivial
  · rintro w c ⟨ht, hself, hone⟩ -
    cases c with
    | deal r =>
        have hself' := noSelfOffer_call EventBus.empty.registerAll ht.owned hself r
        exact ⟨traced_call _ ht r, hself', oneEach_call _ hone r⟩
    | account c =>
        have hsame := (accountStep_run settings w.db c).sameDeals
        exact ⟨ht.command hsame, hsame.noSelfOffer hself, hsame.oneEach hone⟩
  · rintro w c ⟨ht, hself, hone⟩ - h
    cases c with
    | deal r => exact ownDeals_call_iff ht hself hone h r
    | account c => exact iff_of_true ((accountStep_run settings w.db c).ownDeals h) trivial
  · exact ⟨traced_initial m, fun _ _ hpair => absurd hpair.proposal List.not_mem_nil,
      fun _ ho => absurd ho List.not_mem_nil⟩
  · exact fun _ hn => absurd hn List.not_mem_nil

/-- The rival is told about the runner's offer. -/
theorem App.not_ownDeals_matched :
    ¬ Runs.Always (App.step .sample (EventBus.registerAll^[0 + 1] .empty))
      (fun w => w.db.OwnDeals) (World.initial Sample.master) (Sample.matched.map .deal) := by
  intro h
  have hlast := Runs.always_last h
  have hrows : ∃ n ∈ (Runs.run (App.step .sample (EventBus.registerAll^[0 + 1] .empty))
      (World.initial Sample.master) (Sample.matched.map .deal)).db.notifications.rows,
      n.notificationType ≠ .custom ∧ n.relatedEntityType = some "offer" ∧
        n.relatedEntityId = some 1 ∧ n.userId = "rival" := by
    decide +kernel
  have hoffers : ∀ o ∈ (Runs.run (App.step .sample (EventBus.registerAll^[0 + 1] .empty))
      (World.initial Sample.master) (Sample.matched.map .deal)).db.offers.rows,
      (o.id : ℤ) = 1 → o.runnerId ≠ "rival" := by
    decide +kernel
  have hproposals : ∀ p ∈ (Runs.run (App.step .sample (EventBus.registerAll^[0 + 1] .empty))
      (World.initial Sample.master) (Sample.matched.map .deal)).db.proposals.rows,
      p.ordererId ≠ "rival" := by
    decide +kernel
  obtain ⟨n, hn, htype, hentity, hid, huser⟩ := hrows
  obtain ⟨p, o, hpair, hrelated, hparty, -⟩ := hlast n hn htype hentity
  have hone : (o.id : ℤ) = 1 := Option.some.inj (hrelated.symm.trans hid)
  rcases hparty with hrunner | horderer
  · exact hoffers o hpair.offer hone (hrunner.symm.trans huser)
  · exact hproposals p hpair.proposal (horderer.symm.trans huser)

end OrderRun
