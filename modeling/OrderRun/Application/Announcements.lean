import OrderRun.Application.Deals
import OrderRun.Sequential.Level

/-!
# Announcements

The listener announces the completion of a deal whenever the orderer confirms the receipt,
and at no other time.  So the announcement comes too early if the orderer is the first to
confirm, and is missing if the runner is the last.

* `EventBus.type_of_executionCompleted`, `EventBus.completions_of_receipt` — what the
  listener writes.
* `World.announced`, `World.Completes` — the announcements a step adds, and the deals it
  completes.
* `World.Announces` — the announcements match the completions.
* `Misannounced`, `announces_call_iff` — when they do not, for one call.
* `App.announces_iff` — over whole runs.
-/

namespace OrderRun

open Store

/-! ## What the listener writes -/

namespace EventBus

/-- Registering the listener again comes to the same. -/
theorem registerAll_iterate (n : ℕ) : registerAll^[n + 1] empty = empty.registerAll := by
  induction n with
  | zero => rfl
  | succ n ih => rw [Function.iterate_succ_apply', ih, registerAll_idem]

variable {users : Table User}

/-- The listener announces a completion only when the orderer confirms. -/
theorem type_of_executionCompleted {event : DomainEvent} {n : Notification}
    (h : n ∈ empty.registerAll.drafts event users)
    (htype : n.notificationType = .executionCompleted) :
    event.type = .meetingConfirmedByOrderer := by
  have hother : ∀ {userId : UserId} {notificationType : NotificationType} {title body : String}
      {e : DealEvent}, notificationType ≠ .executionCompleted →
      n ∉ notify users userId notificationType title body e := by
    intro userId notificationType title body e hne hn
    obtain ⟨-, rfl⟩ := mem_notify.1 hn
    exact hne htype
  rw [drafts_started] at h
  cases event with
  | offerCreated e =>
      rcases List.mem_append.1 h with h | h <;> exact absurd h (hother (by decide))
  | offerAccepted e rejected =>
      rcases List.mem_append.1 h with h | h
      · exact absurd h (hother (by decide))
      · obtain ⟨runnerId, -, h⟩ := List.mem_flatMap.1 h
        exact absurd h (hother (by decide))
  | meetingConfirmedByRunner e => exact absurd h (hother (by decide))
  | meetingConfirmedByOrderer e => rfl
  | disputeRaisedByOrderer e => exact absurd h (hother (by decide))
  | disputeRaisedByRunner e => exact absurd h (hother (by decide))

/-- When the orderer confirms, it announces the completion to both parties, complete or
not. -/
theorem completions_of_receipt (e : DealEvent) (offerId : ℕ) :
    ((empty.registerAll.drafts (.meetingConfirmedByOrderer e) users).filter fun n =>
        n.notificationType = .executionCompleted ∧ n.relatedEntityId = some (offerId : ℤ)).map
      Notification.userId =
      if e.offerId = offerId then [e.ordererId, e.runnerId].filter (alarmEnabled users)
      else [] := by
  rw [drafts_started]
  show ((onMeetingConfirmedByOrderer users e).filter _).map _ = _
  have hcast : (e.offerId : ℤ) = offerId ↔ e.offerId = offerId := Int.ofNat_inj
  by_cases hid : e.offerId = offerId <;> cases ho : alarmEnabled users e.ordererId <;>
    cases hr : alarmEnabled users e.runnerId <;>
    simp [onMeetingConfirmedByOrderer, notify, pending, hcast, ho, hr, hid]

end EventBus

/-! ## Announcements and completions -/

namespace World

/-- The announcements of the completion of an offer that a step has added. -/
def announced (w w' : World) (offerId : ℕ) : List Notification :=
  w'.db.notifications.rows.filter fun n => w.db.notifications.next ≤ n.id ∧
    n.notificationType = .executionCompleted ∧ n.relatedEntityId = some (offerId : ℤ)

/-- A step has moved an offer and its proposal to `ALL_COMPLETED`. -/
def Completes (w w' : World) (p : Proposal) (o : Offer) : Prop :=
  w.db.Pair p o ∧ p.status ≠ .allCompleted ∧ o.status ≠ .allCompleted ∧
    ∃ p' o', w'.db.Pair p' o' ∧ p'.id = p.id ∧ o'.id = o.id ∧
      p'.status = .allCompleted ∧ o'.status = .allCompleted

/-- The announcements of a step match the deals it completes. -/
structure Announces (w w' : World) : Prop where
  /-- Nothing but a completion is announced. -/
  only : ∀ offerId, w.announced w' offerId ≠ [] → ∃ p o, o.id = offerId ∧ w.Completes w' p o
  /-- A completion is announced once to each of the two parties who wants notifications. -/
  once : ∀ p o, w.Completes w' p o → ∀ uid,
    ((w.announced w' o.id).map Notification.userId).count uid =
      if (uid = p.ordererId ∨ uid = o.runnerId) ∧ alarmEnabled w.db.users uid = true then 1 else 0

end World

section Step

variable {w : World} {u : UnitOfWork} {t : DateTime} {db : Db} {bus : EventBus}

/-- The announcements of a commit are those among the drafts of the handlers. -/
theorem announced_commit (hcommit : u.commit t w.db bus = .ok db) (log : List Entry)
    (offerId : ℕ) : (w.announced ⟨db, log⟩ offerId).map Notification.userId =
      ((u.drafts bus w.db.offers.next db.users).filter fun n =>
        n.notificationType = .executionCompleted ∧ n.relatedEntityId = some (offerId : ℤ)).map
      Notification.userId := by
  have hold : (u.write t w.db).notifications.rows.filter (fun n =>
      w.db.notifications.next ≤ n.id ∧ n.notificationType = .executionCompleted ∧
        n.relatedEntityId = some (offerId : ℤ)) = [] := by
    refine List.filter_eq_nil_iff.2 fun n hn => ?_
    have hlt : n.id < w.db.notifications.next :=
      AutoTable.lt_next (UnitOfWork.mem_keep.1 hn).1
    simp [not_le.2 hlt]
  unfold World.announced
  rw [(UnitOfWork.notifications_commit hcommit).1, List.filter_append, hold, List.nil_append]
  exact filter_map_mapIdx (fun i draft => by simp) fun _ _ => rfl

/-- A deal is only completed by a call that changes its offer to `ALL_COMPLETED`. -/
theorem change_of_completes (hu : u.Prepared w.db)
    (hcommit : u.commit t w.db bus = .ok db) {log : List Entry} {p : Proposal}
    {o : Offer} (h : w.Completes ⟨db, log⟩ p o) :
    ∃ c ∈ u.offers, c.loaded = o ∧ c.dirty.status = .allCompleted := by
  obtain ⟨hpair, -, hos, p', o', hpair', -, hid, -, hcompleted⟩ := h
  have hmem : u.offerRow t o ∈ db.offers := (hpair.commit hcommit).offer
  obtain rfl : o' = u.offerRow t o :=
    AutoTable.eq_of_key_eq hpair'.offer hmem (hid.trans (u.offerRow_id _ o).symm)
  exact ((allCompleted_offerRow hu hpair.offer).1 hcompleted).resolve_left hos

/-- A call that changes both rows to `ALL_COMPLETED` completes the deal. -/
theorem completes_of_change (hu : u.Prepared w.db)
    (hcommit : u.commit t w.db bus = .ok db) (log : List Entry) {p p' : Proposal}
    {o o' : Offer} (hpair : w.db.Pair p o) (hproposals : u.proposals = [⟨p, p'⟩])
    (hoffers : u.offers = [⟨o, o'⟩]) (hps : p.status ≠ .allCompleted)
    (hos : o.status ≠ .allCompleted) (hps' : p'.status = .allCompleted)
    (hos' : o'.status = .allCompleted) : w.Completes ⟨db, log⟩ p o := by
  refine ⟨hpair, hps, hos, _, _, hpair.commit hcommit, u.proposalRow_id _ p, u.offerRow_id _ o,
    ?_, ?_⟩
  · rcases proposalRow_cases (t := t) hu hpair.proposal with ⟨c, hc, -, he⟩ | ⟨hno, -⟩
    · rw [hproposals, List.mem_singleton] at hc
      rw [he, Proposal.flush_status, col_untouched, hc]
      exact hps'
    · exact absurd rfl (hno ⟨p, p'⟩ (by rw [hproposals]; exact List.mem_cons_self))
  · exact (allCompleted_offerRow hu hpair.offer).2
      (Or.inr ⟨⟨o, o'⟩, by rw [hoffers]; exact List.mem_cons_self, rfl, hos'⟩)

end Step

/-! ## One step -/

/-- The orderer confirms before the runner, or the runner after the orderer, and one of
the two wants notifications. -/
def Misannounced (w : World) (r : Request) : Prop :=
  r.call.authenticate w.db = .ok () ∧ ∃ p o, w.db.Pair p o ∧ o.status = .accepted ∧
    (r.call = .confirmReceived p.id p.ordererId ∧ p.status = .matched ∨
      r.call = .completeDelivery o.id o.runnerId ∧ p.status = .orderCompleted) ∧
    (alarmEnabled w.db.users p.ordererId = true ∨ alarmEnabled w.db.users o.runnerId = true)

/-- The unit of work neither completes a deal nor makes the listener say so. -/
structure UnitOfWork.Silent (u : UnitOfWork) : Prop where
  event : ∀ event, u.event = some event → ∀ k, (event k).type ≠ .meetingConfirmedByOrderer
  offers : ∀ c ∈ u.offers, c.dirty.status ≠ .allCompleted

theorem silent_of_none {u : UnitOfWork} (he : u.event = none)
    (ho : ∀ c ∈ u.offers, c.dirty.status ≠ .allCompleted) : u.Silent := by
  refine ⟨fun event hevent => ?_, ho⟩
  rw [he] at hevent
  exact absurd hevent (by simp)

theorem silent_of_event {u : UnitOfWork} {event : ℕ → DomainEvent} (he : u.event = some event)
    (htype : ∀ k, (event k).type ≠ .meetingConfirmedByOrderer)
    (ho : ∀ c ∈ u.offers, c.dirty.status ≠ .allCompleted) : u.Silent := by
  refine ⟨fun event' hevent => ?_, ho⟩
  rw [he, Option.some.injEq] at hevent
  rw [← hevent]
  exact htype

/-- Every call but the two confirmations is silent. -/
theorem body_silent {call : Call} {db : Db} {now : Readings} {u : UnitOfWork}
    (h : call.body db now = .ok u) : (∃ pid uid, call = .confirmReceived pid uid) ∨
      (∃ oid uid, call = .completeDelivery oid uid) ∨ u.Silent := by
  cases call with
  | proposalCreate request uid =>
      obtain ⟨p, -, -, -, -, -, -, -, rfl⟩ := ProposalService.create_eq_ok h
      exact Or.inr (Or.inr (silent_of_none rfl (by simp)))
  | proposalUpdate pid request uid =>
      obtain ⟨p, -, -, -, -, rfl⟩ := ProposalService.update_eq_ok h
      exact Or.inr (Or.inr (silent_of_none rfl (by simp)))
  | proposalCancel pid uid =>
      obtain ⟨p, -, -, -, -, rfl⟩ := ProposalService.cancel_eq_ok h
      exact Or.inr (Or.inr (silent_of_none rfl (by simp)))
  | confirmPayment pid =>
      obtain ⟨p, -, -, -, rfl⟩ := ProposalService.confirmPayment_eq_ok h
      exact Or.inr (Or.inr (silent_of_none rfl (by simp)))
  | confirmReceived pid uid => exact Or.inl ⟨pid, uid, rfl⟩
  | proposalDispute pid uid qid reason =>
      obtain ⟨q, x, -, -, hevent⟩ := ProposalService.event_of_raiseDispute h
      obtain ⟨p, o, -, -, -, -, -, _, rfl⟩ := ProposalService.raiseDispute_eq_ok h
      exact Or.inr (Or.inr (silent_of_event hevent (fun _ => nofun) (by simp)))
  | offerCreate pid uid =>
      obtain ⟨q, -, -, hevent⟩ := OfferService.event_of_create h
      obtain ⟨p, -, -, -, -, -, _, rfl⟩ := OfferService.create_eq_ok h
      exact Or.inr (Or.inr (silent_of_event hevent (fun _ => nofun) (by simp)))
  | offerCancel oid uid =>
      obtain ⟨o, -, -, -, -, rfl⟩ := OfferService.cancel_eq_ok h
      exact Or.inr (Or.inr (silent_of_none rfl (by simp)))
  | offerAccept oid uid =>
      obtain ⟨q, x, -, -, hevent⟩ := OfferService.event_of_accept h
      obtain ⟨p, o, -, -, -, -, -, -, _, rfl⟩ := OfferService.accept_eq_ok h
      exact Or.inr (Or.inr (silent_of_event hevent (fun _ => nofun) (by simp)))
  | completeDelivery oid uid => exact Or.inr (Or.inl ⟨oid, uid, rfl⟩)
  | offerDispute oid uid qid reason =>
      obtain ⟨q, x, -, -, hevent⟩ := OfferService.event_of_raiseDispute h
      obtain ⟨p, o, -, -, -, -, -, _, rfl⟩ := OfferService.raiseDispute_eq_ok h
      exact Or.inr (Or.inr (silent_of_event hevent (fun _ => nofun) (by simp)))
  | resolve oid =>
      obtain ⟨p, o, -, -, -, -, rfl⟩ := OfferService.resolve_eq_ok h
      exact Or.inr (Or.inr (silent_of_none rfl (by simp)))
  | reportCreate pid uid request =>
      obtain ⟨p, -, -, -, -, _, -, -, -, -, rfl⟩ := ProposalReportService.create_eq_ok h
      exact Or.inr (Or.inr (silent_of_none rfl (by simp)))
  | reportAccept rid =>
      obtain ⟨p, -, _, -, -, -, -, ⟨-, rfl⟩ | ⟨-, rfl⟩⟩ := ProposalReportService.accept_eq_ok h <;>
      exact Or.inr (Or.inr (silent_of_none rfl (by simp)))
  | reportReject rid =>
      obtain ⟨_, -, -, -, rfl⟩ := ProposalReportService.reject_eq_ok h
      exact Or.inr (Or.inr (silent_of_none rfl (by simp)))
  | withdrawUser uid =>
      obtain ⟨user, -, -, -, -, rfl⟩ := UserWithdrawalService.withdrawUser_eq_ok h
      refine Or.inr (Or.inr (silent_of_none rfl ?_))
      intro c hc
      obtain ⟨o, -, rfl⟩ := List.mem_map.1 hc
      exact nofun

section Started

variable {w : World} {u : UnitOfWork} {t : DateTime} {db : Db}

/-- A step without announcements is fine if it completes no deal of users who want
notifications. -/
theorem announces_of_nil {w' : World} (hnone : ∀ offerId, w.announced w' offerId = [])
    (hquiet : ∀ p o, w.Completes w' p o → alarmEnabled w.db.users p.ordererId = false ∧
      alarmEnabled w.db.users o.runnerId = false) : w.Announces w' where
  only := fun offerId h => absurd (hnone offerId) h
  once := by
    intro p o h uid
    obtain ⟨horderer, hrunner⟩ := hquiet p o h
    rw [hnone, if_neg]
    · rfl
    · rintro ⟨rfl | rfl, halarm⟩
      · rw [horderer] at halarm
        exact absurd halarm (by decide)
      · rw [hrunner] at halarm
        exact absurd halarm (by decide)

/-- Nothing is announced unless the orderer confirms. -/
theorem announced_of_event (hcommit : u.commit t w.db EventBus.empty.registerAll = .ok db)
    (hevent : ∀ event, u.event = some event → ∀ k, (event k).type ≠ .meetingConfirmedByOrderer)
    (log : List Entry) (offerId : ℕ) : w.announced ⟨db, log⟩ offerId = [] := by
  rw [← List.map_eq_nil_iff (f := Notification.userId), announced_commit hcommit,
    List.map_eq_nil_iff, List.filter_eq_nil_iff]
  intro n hn htype
  unfold UnitOfWork.drafts at hn
  cases he : u.event with
  | none =>
      rw [he] at hn
      exact absurd hn List.not_mem_nil
  | some event =>
      rw [he] at hn
      exact hevent event he _
        (EventBus.type_of_executionCompleted hn (of_decide_eq_true htype).1)

/-- A step that changes nothing. -/
theorem World.Announces.refl (w : World) : w.Announces w := by
  refine announces_of_nil ?_ ?_
  · intro offerId
    refine List.filter_eq_nil_iff.2 fun n hn => ?_
    have hlt : n.id < w.db.notifications.next := AutoTable.lt_next hn
    simp [not_le.2 hlt]
  · rintro p o ⟨hpair, -, hos, p', o', hpair', -, hid, -, hcompleted⟩
    obtain rfl : o' = o := AutoTable.eq_of_key_eq hpair'.offer hpair.offer hid
    exact absurd hcompleted hos

theorem announces_of_silent (hu : u.Prepared w.db) (hs : u.Silent)
    (hcommit : u.commit t w.db EventBus.empty.registerAll = .ok db)
    (log : List Entry) : w.Announces ⟨db, log⟩ := by
  refine announces_of_nil (announced_of_event hcommit hs.event log) ?_
  intro p o h
  obtain ⟨c, hc, -, hcompleted⟩ := change_of_completes hu hcommit h
  exact absurd hcompleted (hs.offers c hc)

/-- One message for each of two users who wants it. -/
theorem count_parties {a b : UserId} (hne : a ≠ b) (alarm : UserId → Bool) (uid : UserId) :
    ([a, b].filter alarm).count uid =
      if (uid = a ∨ uid = b) ∧ alarm uid = true then 1 else 0 := by
  have hcount : [a, b].count uid = if uid = a ∨ uid = b then 1 else 0 := by
    by_cases ha : uid = a
    · subst ha
      simp [hne.symm]
    · by_cases hb : uid = b
      · subst hb
        simp [Ne.symm ha]
      · simp [ha, hb, Ne.symm ha, Ne.symm hb]
  cases halarm : alarm uid with
  | true => rw [List.count_filter halarm, hcount]; simp
  | false =>
      rw [if_neg (by simp)]
      refine List.count_eq_zero.2 fun hmem => ?_
      rw [(List.mem_filter.1 hmem).2] at halarm
      exact absurd halarm (by decide)

/-- What the orderer's confirmation announces. -/
theorem announced_receipt {p : Proposal} {o : Offer} (hu : u.users = [])
    (hevent : u.event = some fun _ => .meetingConfirmedByOrderer (.about p o))
    (hcommit : u.commit t w.db EventBus.empty.registerAll = .ok db)
    (log : List Entry) (offerId : ℕ) :
    (w.announced ⟨db, log⟩ offerId).map Notification.userId =
      if o.id = offerId then [p.ordererId, o.runnerId].filter (alarmEnabled w.db.users)
      else [] := by
  have halarm : alarmEnabled db.users = alarmEnabled w.db.users :=
    funext fun uid => alarmEnabled_commit hu hcommit uid
  have hdrafts : u.drafts EventBus.empty.registerAll w.db.offers.next db.users =
      EventBus.empty.registerAll.drafts (.meetingConfirmedByOrderer (.about p o)) db.users := by
    unfold UnitOfWork.drafts
    rw [hevent]
  rw [announced_commit hcommit, hdrafts, EventBus.completions_of_receipt, halarm]
  rfl

/-- **The orderer confirms the receipt.** -/
theorem announces_receipt (hself : w.db.NoSelfOffer) {pid : ℕ} {uid : UserId} {now : Readings}
    (hauth : (Call.confirmReceived pid uid).authenticate w.db = .ok ())
    (hbody : (Call.confirmReceived pid uid).body w.db now = .ok u)
    (hcommit : u.commit now.flush w.db EventBus.empty.registerAll = .ok db)
    (hok : ¬ Misannounced w ⟨.confirmReceived pid uid, now⟩) (log : List Entry) :
    w.Announces ⟨db, log⟩ := by
  have hu := body_prepared hbody
  have hpublishes := @ProposalService.event_of_confirmReceived _ _ _ _ _ hbody
  obtain ⟨q, o, hpair, rfl, rfl, hps, hcases⟩ := ProposalService.confirmReceived_eq_ok hbody
  rcases hcases with ⟨hos, event, rfl⟩ | ⟨hos, event, rfl⟩
  · -- the runner has not confirmed yet, so nobody may be told
    have hevent := hpublishes rfl rfl
    have halarm : alarmEnabled w.db.users q.ordererId = false ∧
        alarmEnabled w.db.users o.runnerId = false := by
      refine ⟨Bool.eq_false_iff.2 fun h => hok ?_, Bool.eq_false_iff.2 fun h => hok ?_⟩
      · exact ⟨hauth, q, o, hpair, hos, Or.inl ⟨rfl, hps⟩, Or.inl h⟩
      · exact ⟨hauth, q, o, hpair, hos, Or.inl ⟨rfl, hps⟩, Or.inr h⟩
    refine announces_of_nil (fun offerId => ?_) fun p' o' h => ?_
    · rw [← List.map_eq_nil_iff (f := Notification.userId),
        announced_receipt rfl hevent hcommit]
      simp [halarm.1, halarm.2]
    · obtain ⟨c, hc, -, hcompleted⟩ := change_of_completes hu hcommit h
      rw [List.mem_singleton.1 hc] at hcompleted
      exact absurd (hos.symm.trans hcompleted) (by decide)
  · have hevent := hpublishes rfl rfl
    have hcompletes : w.Completes ⟨db, log⟩ q o :=
      completes_of_change hu hcommit log hpair rfl rfl (by simp [hps])
        (by simp [hos]) rfl rfl
    constructor
    · intro offerId h
      by_cases hid : o.id = offerId
      · exact ⟨q, o, hid, hcompletes⟩
      · rw [Ne, ← List.map_eq_nil_iff (f := Notification.userId),
          announced_receipt rfl hevent hcommit, if_neg hid] at h
        exact absurd rfl h
    · intro p' o' h uid
      obtain ⟨c, hc, hl, -⟩ := change_of_completes hu hcommit h
      rw [List.mem_singleton.1 hc] at hl
      obtain rfl : o = o' := hl
      obtain rfl : p' = q := AutoTable.eq_of_key_eq h.1.proposal hpair.proposal
        (h.1.proposalId.symm.trans hpair.proposalId)
      rw [announced_receipt rfl hevent hcommit, if_pos rfl,
        count_parties (hself p' o hpair).symm]

/-- **The runner confirms the delivery.** -/
theorem announces_delivery {oid : ℕ} {uid : UserId} {now : Readings}
    (hauth : (Call.completeDelivery oid uid).authenticate w.db = .ok ())
    (hbody : (Call.completeDelivery oid uid).body w.db now = .ok u)
    (hcommit : u.commit now.flush w.db EventBus.empty.registerAll = .ok db)
    (hok : ¬ Misannounced w ⟨.completeDelivery oid uid, now⟩) (log : List Entry) :
    w.Announces ⟨db, log⟩ := by
  have hu := body_prepared hbody
  obtain ⟨q, x, -, -, hevent⟩ := OfferService.event_of_completeDelivery hbody
  obtain ⟨p, o, hpair, rfl, rfl, hos, hcases⟩ := OfferService.completeDelivery_eq_ok hbody
  refine announces_of_nil (announced_of_event hcommit ?_ log) fun p' o' h => ?_
  · intro event he k
    rw [hevent, Option.some.injEq] at he
    rw [← he]
    exact nofun
  · obtain ⟨c, hc, hl, hcompleted⟩ := change_of_completes hu hcommit h
    rcases hcases with ⟨hps, event, rfl⟩ | ⟨hps, event, rfl⟩
    · rw [List.mem_singleton.1 hc] at hcompleted
      exact absurd hcompleted (by simp)
    · rw [List.mem_singleton.1 hc] at hl
      obtain rfl : o = o' := hl
      obtain rfl : p' = p := AutoTable.eq_of_key_eq h.1.proposal hpair.proposal
        (h.1.proposalId.symm.trans hpair.proposalId)
      refine ⟨Bool.eq_false_iff.2 fun halarm => hok ?_, Bool.eq_false_iff.2 fun halarm => hok ?_⟩
      · exact ⟨hauth, p', o, hpair, hos, Or.inr ⟨rfl, hps⟩, Or.inl halarm⟩
      · exact ⟨hauth, p', o, hpair, hos, Or.inr ⟨rfl, hps⟩, Or.inr halarm⟩

/-- An early receipt is announced as a completion. -/
theorem not_announces_receipt (ht : w.Traced) {p : Proposal} {o : Offer} {now : Readings}
    (hauth : (Call.confirmReceived p.id p.ordererId).authenticate w.db = .ok ())
    (hpair : w.db.Pair p o) (hos : o.status = .accepted) (hps : p.status = .matched)
    (halarm : alarmEnabled w.db.users p.ordererId = true ∨
      alarmEnabled w.db.users o.runnerId = true) :
    ¬ w.Announces ((service EventBus.empty.registerAll).call w
      ⟨.confirmReceived p.id p.ordererId, now⟩) := by
  intro h
  have hexec := getExecutionOffer_eq ht hpair (by rw [hos]; decide)
  obtain ⟨u, hbody⟩ := ProposalService.confirmReceived_of_matched now hpair.proposal hps hexec
    (by rw [hos]; decide)
  have hbody' : (Call.confirmReceived p.id p.ordererId).body w.db now = .ok u := hbody
  have hpublishes := @ProposalService.event_of_confirmReceived _ _ _ _ _ hbody
  obtain ⟨q, x, hpair', hid, -, -, hcases⟩ := ProposalService.confirmReceived_eq_ok hbody
  obtain rfl : q = p := AutoTable.eq_of_key_eq hpair'.proposal hpair.proposal hid
  have hexecuted : Executed x.status := by
    rcases hcases with ⟨hxs, -⟩ | ⟨hxs, -⟩ <;> rw [hxs] <;> decide
  obtain rfl : x = o := ht.executed_eq hpair hpair' (by rw [hos]; decide) hexecuted
  rcases hcases with ⟨-, event, rfl⟩ | ⟨hxs, -⟩
  · obtain ⟨db, hcommit, he⟩ := call_of_body (r := ⟨_, now⟩) EventBus.empty.registerAll hauth hbody'
      rfl rfl
    -- somebody is told, but the deal is not complete
    have hno : ∀ log, ¬ w.Announces ⟨db, log⟩ := by
      intro log h
      have hannounced : w.announced ⟨db, log⟩ x.id ≠ [] := by
        rw [Ne, ← List.map_eq_nil_iff (f := Notification.userId),
          announced_receipt rfl (hpublishes rfl rfl) hcommit, if_pos rfl, List.filter_eq_nil_iff]
        intro hsilent
        rcases halarm with halarm | halarm
        · exact hsilent _ List.mem_cons_self halarm
        · exact hsilent _ (List.mem_cons_of_mem _ List.mem_cons_self) halarm
      obtain ⟨p', o', -, hcompletes⟩ := h.only x.id hannounced
      obtain ⟨c, hc, -, hcompleted⟩ :=
        change_of_completes (body_prepared hbody') hcommit hcompletes
      rw [List.mem_singleton.1 hc] at hcompleted
      exact absurd (hos.symm.trans hcompleted) (by decide)
    rw [he] at h
    exact hno _ h
  · rw [hos] at hxs
    exact absurd hxs (by decide)

/-- A late delivery is not announced, although it completes the deal. -/
theorem not_announces_delivery {p : Proposal} {o : Offer} {now : Readings}
    (hauth : (Call.completeDelivery o.id o.runnerId).authenticate w.db = .ok ())
    (hpair : w.db.Pair p o) (hos : o.status = .accepted) (hps : p.status = .orderCompleted)
    (halarm : alarmEnabled w.db.users p.ordererId = true ∨
      alarmEnabled w.db.users o.runnerId = true) :
    ¬ w.Announces ((service EventBus.empty.registerAll).call w
      ⟨.completeDelivery o.id o.runnerId, now⟩) := by
  intro h
  obtain ⟨u, hbody⟩ := OfferService.completeDelivery_of_orderCompleted now hpair hos hps
  have hbody' : (Call.completeDelivery o.id o.runnerId).body w.db now = .ok u := hbody
  obtain ⟨y, z, -, -, hevent⟩ := OfferService.event_of_completeDelivery hbody
  obtain ⟨q, x, hpair', hid, -, -, hcases⟩ := OfferService.completeDelivery_eq_ok hbody
  obtain rfl : x = o := AutoTable.eq_of_key_eq hpair'.offer hpair.offer hid
  obtain rfl : q = p := AutoTable.eq_of_key_eq hpair'.proposal hpair.proposal
    (hpair'.proposalId.symm.trans hpair.proposalId)
  rcases hcases with ⟨hmatched, -⟩ | ⟨-, event, rfl⟩
  · rw [hps] at hmatched
    exact absurd hmatched (by decide)
  · obtain ⟨db, hcommit, he⟩ := call_of_body (r := ⟨_, now⟩) EventBus.empty.registerAll hauth hbody'
      rfl rfl
    -- the deal is complete, but nobody is told
    have hno : ∀ log, ¬ w.Announces ⟨db, log⟩ := by
      intro log h
      have hnone : w.announced ⟨db, log⟩ x.id = [] := by
        refine announced_of_event hcommit ?_ log x.id
        intro event' he' k
        rw [hevent, Option.some.injEq] at he'
        rw [← he']
        exact nofun
      have honce := h.once q x (completes_of_change (body_prepared hbody') hcommit log hpair rfl
        rfl (by simp [hps]) (by simp [hos]) rfl rfl)
      rw [hnone] at honce
      rcases halarm with halarm | halarm
      · have hone := honce q.ordererId
        rw [if_pos ⟨Or.inl rfl, halarm⟩] at hone
        exact absurd hone (by simp)
      · have hone := honce x.runnerId
        rw [if_pos ⟨Or.inr rfl, halarm⟩] at hone
        exact absurd hone (by simp)
    rw [he] at h
    exact hno _ h

/-- **When a call announces what it completes, and nothing else**: unless the orderer is
the first to confirm, or the runner the last. -/
theorem announces_call_iff (ht : w.Traced) (hself : w.db.NoSelfOffer) (r : Request) :
    w.Announces ((service EventBus.empty.registerAll).call w r) ↔ ¬ Misannounced w r := by
  constructor
  · rintro h ⟨hauth, p, o, hpair, hos, hcall, halarm⟩
    obtain ⟨call, now⟩ := r
    rcases hcall with ⟨rfl, hps⟩ | ⟨rfl, hps⟩
    · exact not_announces_receipt ht hauth hpair hos hps halarm h
    · exact not_announces_delivery hauth hpair hos hps halarm h
  · intro hok
    rcases call_cases EventBus.empty.registerAll w r with he | ⟨u, db, hauth, hbody, hcommit, he⟩
    · rw [he]
      exact World.Announces.refl w
    · rw [he]
      obtain ⟨call, now⟩ := r
      rcases body_silent hbody with ⟨pid, uid, rfl⟩ | ⟨oid, uid, rfl⟩ | hsilent
      · exact announces_receipt hself hauth hbody hcommit hok _
      · exact announces_delivery hauth hbody hcommit hok _
      · exact announces_of_silent (body_prepared hbody) hsilent hcommit _

/-- A command outside the four services announces nothing, and completes nothing. -/
theorem announces_command {db' : Db} (hstep : AccountStep w.db db') :
    w.Announces { w with db := db' } := by
  have hrows : ∀ n' ∈ db'.notifications, w.db.notifications.next ≤ n'.id →
      n'.notificationType ≠ .executionCompleted := by
    intro n' hn' hnew
    have hold : n' ∉ w.db.notifications := fun hmem =>
      absurd (AutoTable.lt_next hmem) (not_lt.2 hnew)
    cases hstep with
    | messages f hf =>
        obtain ⟨n, hn, rfl⟩ := AutoTable.mem_map.1 hn'
        rw [(hf n).id] at hnew
        exact absurd (AutoTable.lt_next hn) (not_lt.2 hnew)
    | custom user huser hactive n huserId htype hstatus =>
        rcases AutoTable.mem_insert.1 hn' with hmem | rfl
        · exact absurd hmem hold
        · show n.notificationType ≠ _
          rw [htype]
          decide
    | _ => exact absurd hn' hold
  refine announces_of_nil ?_ ?_
  · intro offerId
    refine List.filter_eq_nil_iff.2 fun n' hn' hselected => ?_
    obtain ⟨hnew, htype, -⟩ := of_decide_eq_true hselected
    exact hrows n' hn' hnew htype
  · rintro p o ⟨hpair, -, hos, p', o', hpair', -, hid, -, hcompleted⟩
    obtain ⟨x, hx, url, rfl⟩ := hstep.sameDeals.offer hpair'.offer
    obtain rfl : x = o := AutoTable.eq_of_key_eq hx hpair.offer hid
    exact absurd hcompleted hos

end Started

/-! ## Whole runs -/

/-- A confirmation is not misannounced. -/
def WellTimed (w : World) : Command → Prop
  | .deal r => ¬ Misannounced w r
  | .account _ => True

/-- **When completion is announced exactly when it happens.**  In a run of the application,
with the listener registered once or more often, every step announces what it completes and
nothing else precisely if no orderer confirms before the runner and no runner after the
orderer, unless neither of the two wants notifications. -/
theorem App.announces_iff (settings : Settings) (n : ℕ) (m : MasterData) (cs : List Command) :
    Runs.Along (App.step settings (EventBus.registerAll^[n + 1] .empty))
        (fun w c => w.Announces (App.step settings (EventBus.registerAll^[n + 1] .empty) w c))
        (World.initial m) cs ↔
      Runs.Along (App.step settings (EventBus.registerAll^[n + 1] .empty)) WellTimed
        (World.initial m) cs := by
  rw [EventBus.registerAll_iterate]
  refine Runs.along_iff_along (I := fun w => w.Traced ∧ w.db.NoSelfOffer) (A := fun _ => True)
    ?_ ?_ ⟨traced_initial m, fun _ _ hpair => absurd hpair.proposal List.not_mem_nil⟩
    fun _ _ => trivial
  · rintro w c ⟨ht, hself⟩ -
    cases c with
    | deal r => exact ⟨traced_call _ ht r, noSelfOffer_call _ ht.owned hself r⟩
    | account c =>
        have hsame := (accountStep_run settings w.db c).sameDeals
        exact ⟨ht.command hsame, hsame.noSelfOffer hself⟩
  · rintro w c ⟨ht, hself⟩ -
    cases c with
    | deal r => exact announces_call_iff ht hself r
    | account c => exact iff_of_true (announces_command (accountStep_run settings w.db c)) trivial

/-- The orderer confirms, then the runner: both are told that the deal is complete after the
first of the two calls. -/
theorem App.not_announces_received :
    ¬ Runs.Along (App.step .sample (EventBus.registerAll^[0 + 1] .empty))
      (fun w c => w.Announces (App.step .sample (EventBus.registerAll^[0 + 1] .empty) w c))
      (World.initial Sample.master) (Sample.received.map .deal) := by
  intro h
  have hstep := Runs.along_iff.1 h ((Sample.received.take 5).map .deal)
    (.deal (Sample.request 6 (.confirmReceived 1 "orderer")))
    ((Sample.received.drop 6).map .deal) rfl
  have hannounced : (World.announced
      (Runs.run (App.step .sample (EventBus.registerAll^[0 + 1] .empty))
        (World.initial Sample.master) ((Sample.received.take 5).map .deal))
      (Runs.run (App.step .sample (EventBus.registerAll^[0 + 1] .empty))
        (World.initial Sample.master) ((Sample.received.take 6).map .deal)) 1).map
      Notification.userId = ["orderer", "runner"] := by
    decide +kernel
  have hrunning : ∀ p ∈ (Runs.run (App.step .sample (EventBus.registerAll^[0 + 1] .empty))
      (World.initial Sample.master) ((Sample.received.take 6).map .deal)).db.proposals.rows,
      p.status ≠ .allCompleted := by
    decide +kernel
  obtain ⟨p, o, -, -, -, -, p', o', hpair, -, -, hcompleted, -⟩ := hstep.only 1 (by
    intro hnil
    have hmap := congrArg (List.map Notification.userId) hnil
    exact absurd (hannounced.symm.trans hmap) (by decide))
  exact hrunning p' hpair.proposal hcompleted

end OrderRun
