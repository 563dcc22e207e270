import OrderRun.Application.Announcements
import OrderRun.Transactions.Atomicity

/-!
# The effect of an acceptance

An orderer accepts one of the offers on her errand.  The service counts the competitors three
times: it selects their runners, it rejects them in one statement, and it tells them.

* `Db.turnedDown` — the competitors.
* `Accepted` — all that happens to the offers, the proposals and the notifications, and the
  count in the response.
* `recipients_accepted` — who is told.
* `App.accept_offered` — in every state of the application, an open offer on an
  offered errand can be accepted, with this effect.
* `App.accept_touches_rejected` — a rejected offer has a new `updated_at`.
-/

namespace OrderRun

open Store Session Script Tx

/-- The open offers on an errand, but for the chosen one. -/
def Db.turnedDown (db : Db) (p : Proposal) (o : Offer) : List Offer :=
  db.offers.rows.filter fun x => x.proposalId = p.id ∧ x.id ≠ o.id ∧ x.status = .waiting

/-- **What accepting an offer does.** -/
structure Accepted (db : Db) (p : Proposal) (o : Offer) (now : Readings)
    (response : OfferAcceptResponse) (db' : Db) : Prop where
  /-- The offer is accepted, the competitors are rejected, nothing else is written. -/
  offers : db'.offers.rows = db.offers.rows.map fun x =>
    if x.id = o.id then
      { x with status := .accepted, acceptedAt := some now.first, updatedAt := now.flush }
    else if x ∈ db.turnedDown p o then
      { x with status := .rejected, updatedAt := now.flush }
    else x
  /-- The errand is matched at the time of the acceptance. -/
  proposals : db'.proposals.rows = db.proposals.rows.map fun q =>
    if q.id = p.id then
      { q with status := .matched, matchedAt := some now.first, updatedAt := now.flush }
    else q
  count : response.rejectedOfferCount = (db.turnedDown p o).length
  /-- The chosen runner is told, and the others, each of them if she wants to know. -/
  notifications : ∃ added, db'.notifications.rows = db.notifications.rows ++ added ∧
    added.map (fun n => (n.notificationType, n.userId)) =
      ((.offerAccepted, o.runnerId) ::
        (db.turnedDown p o).map fun x => (.offerRejected, x.runnerId)).filter
        fun recipient => alarmEnabled db.users recipient.2

/-! ## The rows -/

section Rows

variable {db : Db} {p : Proposal} {o : Offer} {now : Readings}

theorem mem_turnedDown {x : Offer} : x ∈ db.turnedDown p o ↔
    x ∈ db.offers ∧ x.proposalId = p.id ∧ x.id ≠ o.id ∧ x.status = .waiting := by
  simp [Db.turnedDown, AutoTable.mem_iff]

/-- What the service selects is what the statement rejects. -/
theorem selects_iff {x : Offer} (hx : x ∈ db.offers) :
    (⟨p.id, some o.id⟩ : RejectWaiting).Selects x ↔ x ∈ db.turnedDown p o := by
  rw [mem_turnedDown]
  constructor
  · rintro ⟨hpid, hne, hs⟩
    exact ⟨hx, hpid, fun hid => hne (congrArg some hid.symm), hs⟩
  · rintro ⟨-, hpid, hne, hs⟩
    exact ⟨hpid, fun hid => hne (Option.some.inj hid).symm, hs⟩

theorem countP_selects : (db.offers.rows.countP fun x =>
    (⟨p.id, some o.id⟩ : RejectWaiting).Selects x) = (db.turnedDown p o).length := by
  rw [Db.turnedDown, ← List.countP_eq_length_filter]
  refine List.countP_congr fun x hx => ?_
  rw [decide_eq_true_iff, selects_iff hx, mem_turnedDown, decide_eq_true_iff]
  exact and_iff_right hx

/-- The runners the event names. -/
theorem rejected_eq : (db.offersOf p.id).filter (fun x => x.id ≠ o.id ∧ x.status = .waiting) =
    db.turnedDown p o := by
  unfold Db.offersOf Db.turnedDown
  rw [List.filter_filter]
  refine List.filter_congr fun x _ => ?_
  rw [Bool.eq_iff_iff]
  simp only [Bool.and_eq_true, decide_eq_true_iff]
  tauto

theorem flush_accepted (hos : o.status = .waiting) (t utcnow : DateTime) :
    Offer.flush o { o with status := .accepted, acceptedAt := some t } utcnow o =
      { o with status := .accepted, acceptedAt := some t, updatedAt := utcnow } := by
  have hchanged : { o with status := .accepted, acceptedAt := some t } ≠ o := fun h =>
    OfferStatus.noConfusion ((congrArg Offer.status h).trans hos)
  unfold Offer.flush
  rw [if_neg hchanged]
  simp

theorem flush_matched (hps : p.status = .offered) (t utcnow : DateTime) :
    Proposal.flush false p { p with status := .matched, matchedAt := some t } utcnow p =
      { p with status := .matched, matchedAt := some t, updatedAt := utcnow } := by
  have hchanged : { p with status := .matched, matchedAt := some t } ≠ p := fun h =>
    ProposalStatus.noConfusion ((congrArg Proposal.status h).trans hps)
  unfold Proposal.flush
  rw [if_neg fun h => hchanged h.1]
  simp

theorem acceptance_offerRow (hpair : db.Pair p o) (hos : o.status = .waiting) {x : Offer}
    (hx : x ∈ db.offers) : (OfferService.acceptance db p o now).offerRow now.flush x =
      if x.id = o.id then
        { x with status := .accepted, acceptedAt := some now.first, updatedAt := now.flush }
      else if x ∈ db.turnedDown p o then
        { x with status := .rejected, updatedAt := now.flush }
      else x := by
  have hreject : (OfferService.acceptance db p o now).rejectRow now.flush x =
      if x ∈ db.turnedDown p o then { x with status := .rejected, updatedAt := now.flush }
      else x :=
    if_congr (selects_iff hx) rfl rfl
  rw [offerRow_of_single rfl, hreject]
  by_cases hid : x.id = o.id
  · obtain rfl : x = o := AutoTable.eq_of_key_eq hx hpair.offer hid
    have hnot : x ∉ db.turnedDown p x := fun h => (mem_turnedDown.1 h).2.2.1 rfl
    rw [if_pos rfl, if_pos rfl, if_neg hnot]
    exact flush_accepted hos now.first now.flush
  · rw [if_neg (Ne.symm hid), if_neg hid]

theorem acceptance_proposalRow (hpair : db.Pair p o) (hps : p.status = .offered) {q : Proposal}
    (hq : q ∈ db.proposals) : (OfferService.acceptance db p o now).proposalRow now.flush q =
      if q.id = p.id then
        { q with status := .matched, matchedAt := some now.first, updatedAt := now.flush }
      else q := by
  rw [proposalRow_of_single rfl]
  by_cases hid : q.id = p.id
  · obtain rfl : q = p := AutoTable.eq_of_key_eq hq hpair.proposal hid
    rw [if_pos rfl, if_pos rfl]
    exact flush_matched hps now.first now.flush
  · rw [if_neg (Ne.symm hid), if_neg hid]

end Rows

/-! ## The recipients -/

section Recipients

variable {users : Table User}

theorem recipients_notify (userId : UserId) (notificationType : NotificationType)
    (title body : String) (event : DealEvent) :
    (notify users userId notificationType title body event).map
        (fun n => (n.notificationType, n.userId)) =
      [(notificationType, userId)].filter fun recipient => alarmEnabled users recipient.2 := by
  unfold notify
  by_cases halarm : alarmEnabled users userId = true
  · simp [halarm, pending]
  · simp [halarm]

/-- An acceptance is told to the chosen runner and to the rejected ones. -/
theorem recipients_accepted (event : DealEvent) (rejectedRunnerIds : List UserId) :
    (onOfferAccepted users event rejectedRunnerIds).map
        (fun n => (n.notificationType, n.userId)) =
      ((.offerAccepted, event.runnerId) ::
        rejectedRunnerIds.map fun runnerId => (.offerRejected, runnerId)).filter
        fun recipient => alarmEnabled users recipient.2 := by
  have hrejected : ∀ runnerIds : List UserId, (runnerIds.flatMap fun runnerId =>
      notify users runnerId .offerRejected "이번엔 아쉽게 됐어요 😢"
        "이번엔 선택받지 못했지만 다음 기회가 분명 있을 거예요." event).map
        (fun n => (n.notificationType, n.userId)) =
      (runnerIds.map fun runnerId => (.offerRejected, runnerId)).filter
        fun recipient => alarmEnabled users recipient.2 := by
    intro runnerIds
    induction runnerIds with
    | nil => rfl
    | cons runnerId rest ih =>
        rw [List.flatMap_cons, List.map_append, recipients_notify, ih]
        exact (List.filter_append ..).symm
  unfold onOfferAccepted
  rw [List.map_append, recipients_notify, hrejected]
  exact (List.filter_append ..).symm

end Recipients

/-! ## The method -/

namespace OfferService

section Accept

variable {bus : EventBus} {db db' : Db} {p : Proposal} {o : Offer} {now : Readings}

/-- The rows an acceptance is answered from. -/
theorem acceptResponse_eq (db' : Db) (now : Readings) (hpair : db.Pair p o)
    (hos : o.status = .waiting) (hps : p.status = .offered) (n : ℕ) : ∃ response,
    acceptResponse db' ((acceptance db p o now).offerRow now.flush o)
        ((acceptance db p o now).proposalRow now.flush p) n = .ok response ∧
      response.rejectedOfferCount = n := by
  rw [acceptance_offerRow hpair hos hpair.offer, acceptance_proposalRow hpair hps hpair.proposal,
    if_pos rfl, if_pos rfl]
  exact ⟨_, rfl, rfl⟩

/-- Nothing goes wrong on the way. -/
theorem acceptTx_eq (hpair : db.Pair p o) (hos : o.status = .waiting) (hps : p.status = .offered)
    (hfree : ∀ x ∈ db.offers, x.proposalId = p.id → x.status ∉ ACTIVE_OFFER_STATUSES)
    (hcommit : (acceptance db p o now).commit now.flush db bus = .ok db') : ∃ response,
    acceptTx bus o.id p.ordererId now (.start db []) = (.ok response, ⟨db', db', []⟩) ∧
      response.rejectedOfferCount = (db.turnedDown p o).length := by
  have hbulk : bulk now.flush (acceptance db p o now) ⟨db, db, []⟩ =
      (.ok (db.turnedDown p o).length, ⟨db, (acceptance db p o now).bulk now.flush db, []⟩) := by
    rw [bulk_rejectWaiting rfl rfl rfl, countP_selects]
  have hstored := store_of_bulk hbulk hcommit
  obtain ⟨notifications, hdb⟩ := UnitOfWork.commit_same hcommit
  obtain ⟨response, hresponse, hcount⟩ := acceptResponse_eq
    ((acceptance db p o now).written now.flush db notifications) now hpair hos hps
    (db.turnedDown p o).length
  have hoffer : Returns ((acceptance db p o now).written now.flush db notifications)
      (refresh fun db => db.offers.find? o.id) ((acceptance db p o now).offerRow now.flush o) :=
    returns_refresh (UnitOfWork.find_offer hpair.offer)
  have hproposal : Returns ((acceptance db p o now).written now.flush db notifications)
      (refresh fun db' => db'.proposals.find?
        ((acceptance db p o now).offerRow now.flush o).proposalId)
      ((acceptance db p o now).proposalRow now.flush p) := by
    rw [UnitOfWork.offerRow_proposalId, hpair.proposalId]
    exact returns_refresh (UnitOfWork.find_proposal hpair.proposal)
  refine ⟨response, ?_, hcount⟩
  unfold acceptTx transaction guarded Session.start
  rw [bind_ok (read_ok (accept_eq now hpair hos hps hfree))]
  have hhandled : handle (store bus now.flush (acceptance db p o now) >>= pure) raise
      ⟨db, db, []⟩ =
      (.ok ⟨(db.turnedDown p o).length, db.nextKeys⟩, ⟨db', db', []⟩) :=
    handle_ok (bind_ok hstored)
  refine (bind_ok hhandled).trans ?_
  exact (hoffer.bind (hproposal.bind (returns_answer hresponse))) _ hdb

/-- What the commit leaves behind. -/
theorem accepted_of_commit (hpair : db.Pair p o) (hos : o.status = .waiting)
    (hps : p.status = .offered)
    (hcommit : (acceptance db p o now).commit now.flush db EventBus.empty.registerAll = .ok db')
    {response : OfferAcceptResponse}
    (hcount : response.rejectedOfferCount = (db.turnedDown p o).length) :
    Accepted db p o now response db' where
  offers := by
    rw [(UnitOfWork.commit_eq_ok hcommit).2.2.2.2]
    exact List.map_congr_left fun x hx => acceptance_offerRow hpair hos hx
  proposals := by
    rw [(UnitOfWork.commit_eq_ok hcommit).2.2.2.1]
    exact List.map_congr_left fun q hq => acceptance_proposalRow hpair hps hq
  count := hcount
  notifications := by
    have husers : alarmEnabled db'.users = alarmEnabled db.users :=
      funext fun uid => alarmEnabled_commit (w := ⟨db, []⟩) rfl hcommit uid
    have hdrafts : (acceptance db p o now).drafts EventBus.empty.registerAll db.offers.next
        db'.users = onOfferAccepted db'.users (.about p o)
          ((db.turnedDown p o).map (·.runnerId)) := by
      unfold UnitOfWork.drafts acceptance
      simp only [rejected_eq]
      exact EventBus.drafts_started _ _
    refine ⟨_, (UnitOfWork.notifications_commit hcommit).1, ?_⟩
    rw [hdrafts, map_mapIdx (k := fun n => (n.notificationType, n.userId)) fun _ _ => rfl,
      recipients_accepted, husers, List.map_map]
    rfl

end Accept

end OfferService

/-! ## Every acceptance -/

/-- **An open offer on an offered errand can be accepted**, in every state of the application
with the listener registered once or more often, and this is what it does.  The router comes to
the same, if the orderer is still registered. -/
theorem App.accept_offered (settings : Settings) (n : ℕ) (m : MasterData) (cs : List Command)
    {p : Proposal} {o : Offer} (now : Readings)
    (hpair : (App.after settings (EventBus.registerAll^[n + 1] .empty) m cs).db.Pair p o)
    (hps : p.status = .offered) (hos : o.status = .waiting) : ∃ response db',
    OfferService.acceptTx (EventBus.registerAll^[n + 1] .empty) o.id p.ordererId now
        (.start (App.after settings (EventBus.registerAll^[n + 1] .empty) m cs).db []) =
      (.ok response, ⟨db', db', []⟩) ∧
    Accepted (App.after settings (EventBus.registerAll^[n + 1] .empty) m cs).db p o now response
      db' ∧
    ((Call.offerAccept o.id p.ordererId).authenticate
        (App.after settings (EventBus.registerAll^[n + 1] .empty) m cs).db = .ok () →
      (App.after settings (EventBus.registerAll^[n + 1] .empty) m
        (cs ++ [.deal ⟨.offerAccept o.id p.ordererId, now⟩])).db = db') := by
  rw [EventBus.registerAll_iterate] at hpair ⊢
  have ht : (App.after settings EventBus.empty.registerAll m cs).Traced := App.traced_after m cs
  have hfree := ht.unmatched hpair.proposal hps
  have hbody := OfferService.accept_eq now hpair hos hps hfree
  obtain ⟨db', hcommit⟩ := UnitOfWork.commit_of_none (u := OfferService.acceptance _ p o now) rfl
    rfl now.flush _ EventBus.empty.registerAll
  obtain ⟨response, hresponse, hcount⟩ := OfferService.acceptTx_eq hpair hos hps hfree hcommit
  have haccepted := OfferService.accepted_of_commit hpair hos hps hcommit hcount
  refine ⟨response, db', hresponse, haccepted, ?_⟩
  intro hauth
  obtain ⟨db₁, hdb₁, hcall⟩ := call_of_body (r := ⟨_, now⟩) EventBus.empty.registerAll hauth hbody
    rfl rfl
  obtain rfl := Except.ok.inj (hdb₁.symm.trans hcommit)
  rw [App.after_append]
  exact congrArg World.db hcall

namespace Sample

/-- The database when both runners have applied. -/
def offeredDb : Db :=
  (App.after .sample (EventBus.registerAll^[0 + 1] .empty) master (offered.map .deal)).db

/-- The clock while the orderer makes her choice. -/
def choosing : Readings := (request 5 (.offerAccept 1 "orderer")).now

/-- The database after the choice. -/
def matchedDb : Db :=
  (OfferService.acceptTx (EventBus.registerAll^[0 + 1] .empty) 1 "orderer" choosing
    (.start offeredDb [])).2.committed

end Sample

/-- Two runners have applied, and one of them is chosen. -/
theorem App.accept_offered_two : ∃ p o response db',
    OfferService.acceptTx (EventBus.registerAll^[0 + 1] .empty) o.id p.ordererId Sample.choosing
        (.start Sample.offeredDb []) = (.ok response, ⟨db', db', []⟩) ∧
      Accepted Sample.offeredDb p o Sample.choosing response db' := by
  have hrows : ∃ p ∈ Sample.offeredDb.proposals.rows, ∃ o ∈ Sample.offeredDb.offers.rows,
      o.proposalId = p.id ∧ p.status = .offered ∧ o.status = .waiting := by decide +kernel
  obtain ⟨p, hp, o, ho, hpid, hps, hos⟩ := hrows
  obtain ⟨response, db', htx, haccepted, -⟩ := App.accept_offered .sample 0 Sample.master
    (Sample.offered.map .deal) Sample.choosing ⟨hp, ho, hpid⟩ hps hos
  exact ⟨p, o, response, db', htx, haccepted⟩

/-- The rejection also writes `updated_at`. -/
theorem App.accept_touches_rejected :
    ¬ ∀ x ∈ Sample.offeredDb.offers.rows, ∀ x' ∈ Sample.matchedDb.offers.rows,
      x'.id = x.id → x.id ≠ 1 → x' = { x with status := x'.status } := by
  decide +kernel

end OrderRun
