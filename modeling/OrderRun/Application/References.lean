import OrderRun.Application.Evidence

/-!
# References

The tables refer to each other by number, and the models declare one foreign key only,
`notifications.user_id`: MySQL accepts an offer for a proposal that does not exist.  What keeps
the references intact is the code, which looks a row up before it writes its number — in
another transaction than the one that commits, or so it may be by then.

* `Db.Onward` — users, questions, proposals and offers stay, and keep their owners.
* `Db.Linked` — every reference leads to a row, and evidence to a party of the deal.
* `linked_commit`, `AccountStep.linked` — commits and commands keep this.
* `references_kept` — it holds in every state, whatever calls and commands overlap.
-/

namespace OrderRun

open Store Split

/-! ## What references rely on -/

def Db.HasUser (db : Db) (userId : UserId) : Prop := ∃ user ∈ db.users, user.id = userId

/-- What may be referred to is still there. -/
structure Db.Onward (db db' : Db) : Prop where
  deals : db.Extends db'
  users : ∀ userId, db.HasUser userId → db'.HasUser userId
  reasonQuestions : db'.reasonQuestions = db.reasonQuestions
  surveyQuestions : db'.surveyQuestions = db.surveyQuestions

namespace Db.Onward

variable {db db' db'' : Db}

theorem refl (db : Db) : db.Onward db := ⟨Db.Extends.refl db, fun _ h => h, rfl, rfl⟩

theorem trans (h : db.Onward db') (h' : db'.Onward db'') : db.Onward db'' where
  deals := h.deals.trans h'.deals
  users := fun userId hu => h'.users userId (h.users userId hu)
  reasonQuestions := h'.reasonQuestions.trans h.reasonQuestions
  surveyQuestions := h'.surveyQuestions.trans h.surveyQuestions

/-- A proposal and an offer of it are still the same people's. -/
theorem pair (h : db.Onward db') {p : Proposal} {o : Offer} (hpair : db.Pair p o) :
    ∃ p' o', db'.Pair p' o' ∧ p'.id = p.id ∧ p'.ordererId = p.ordererId ∧ o'.id = o.id ∧
      o'.runnerId = o.runnerId := by
  obtain ⟨p', hp', hpid, howner⟩ := h.deals.proposals p hpair.proposal
  obtain ⟨o', ho', hoid, hof, hrunner⟩ := h.deals.offers o hpair.offer
  exact ⟨p', o', ⟨hp', ho', hof.trans (hpair.proposalId.trans hpid.symm)⟩, hpid, howner, hoid,
    hrunner⟩

end Db.Onward

/-! ## References -/

/-- The evidence is about a deal of the database. -/
def DisputeEvidence.Grounded (e : DisputeEvidence) (db : Db) : Prop :=
  ∃ p o, db.Pair p o ∧ e.About db p o

/-- The notification is about a deal of the database. -/
def Notification.Grounded (n : Notification) (db : Db) : Prop :=
  ∃ p o, db.Pair p o ∧ n.relatedEntityType = some "offer" ∧
    n.relatedEntityId = some (o.id : ℤ) ∧ n.data = some (dealData (.about p o))

/-- No reference of the database dangles.  Whoever offers, or reports, has somebody else's
proposal before her. -/
structure Db.Linked (db : Db) : Prop where
  proposals : ∀ p ∈ db.proposals, db.HasUser p.ordererId
  offers : ∀ o ∈ db.offers, db.HasUser o.runnerId ∧
    ∃ p ∈ db.proposals, p.id = o.proposalId ∧ p.ordererId ≠ o.runnerId
  reports : ∀ r ∈ db.reports, db.HasUser r.reporterId ∧
    (∃ p ∈ db.proposals, p.id = r.proposalId ∧ p.ordererId ≠ r.reporterId) ∧
      ∃ q ∈ db.reasonQuestions, q.id = r.reasonQuestionId
  evidences : ∀ e ∈ db.evidences, e.Grounded db
  notifications : ∀ n ∈ db.notifications, db.HasUser n.userId ∧
    (n.notificationType ≠ .custom → n.Grounded db)
  fcmTokens : ∀ t ∈ db.fcmTokens, db.HasUser t.userId
  settlementAccounts : ∀ a ∈ db.settlementAccounts, db.HasUser a.userId

section Onward

variable {db db' : Db}

theorem DisputeEvidence.Grounded.onward {e : DisputeEvidence} (h : e.Grounded db)
    (hgrow : db.Onward db') : e.Grounded db' := by
  obtain ⟨p, o, hpair, habout⟩ := h
  obtain ⟨p', o', hpair', hpid, howner, hoid, hrunner⟩ := hgrow.pair hpair
  refine ⟨p', o', hpair', habout.proposalId.trans hpid.symm, habout.offerId.trans hoid.symm, ?_⟩
  rw [hgrow.surveyQuestions, howner, hrunner]
  exact habout.question

theorem Notification.Grounded.onward {n : Notification} (h : n.Grounded db)
    (hgrow : db.Onward db') : n.Grounded db' := by
  obtain ⟨p, o, hpair, htype, hid, hdata⟩ := h
  obtain ⟨p', o', hpair', hpid, -, hoid, -⟩ := hgrow.pair hpair
  have hdeal : dealData (.about p o) = dealData (.about p' o') := dealData_congr hoid.symm hpid.symm
  exact ⟨p', o', hpair', htype, by rw [hid, hoid], by rw [hdata, hdeal]⟩

/-- A row that says the same about the same deal. -/
theorem Notification.Grounded.same {n n' : Notification} (h : n.Grounded db)
    (hsame : SameMessage n n') : n'.Grounded db := by
  obtain ⟨p, o, hpair, htype, hid, hdata⟩ := h
  exact ⟨p, o, hpair, hsame.relatedEntityType.trans htype, hsame.relatedEntityId.trans hid,
    hsame.data.trans hdata⟩

end Onward

/-! ## Commits -/

section Commits

variable {bus : EventBus} {w₀ w w' : World} {r : Request} {u : UnitOfWork} {db : Db} {t : DateTime}

theorem onward_commit (hcommit : u.commit t w.db bus = .ok db) : w.db.Onward db := by
  obtain ⟨-, -, husers, -, -⟩ := UnitOfWork.commit_eq_ok hcommit
  obtain ⟨notifications, hsame⟩ := UnitOfWork.commit_same hcommit
  refine ⟨UnitOfWork.extends_commit hcommit, ?_, by rw [hsame]; rfl, by rw [hsame]; rfl⟩
  rintro userId ⟨user, huser, rfl⟩
  refine ⟨u.userRow user, ?_, u.userRow_id user⟩
  rw [husers]
  exact UnitOfWork.mem_users_write.2 ⟨user, huser, rfl⟩

/-- A draft for the deal of its event. -/
theorem grounded_draft {p : Proposal} {o : Offer} (hpair : db.Pair p o) {event : DomainEvent}
    (hoffer : event.deal.offerId = o.id) (hproposal : event.deal.proposalId = p.id)
    {users : Table User} {n : Notification} (hn : n ∈ bus.drafts event users) : n.Grounded db := by
  obtain ⟨-, _, _, _, he, -⟩ := EventBus.recipient_of_mem_drafts hn
  rw [he]
  refine ⟨p, o, hpair, rfl, ?_, congrArg some (dealData_congr hoffer hproposal)⟩
  rw [← hoffer]
  rfl

/-- **What a commit announces is there when it is through**, and an offer that it announces
is the one it has inserted. -/
theorem grounded_of_mem_drafts (hbody : r.call.body w₀.db r.now = .ok u)
    (hgrow : w₀.db.Onward w.db) (hcommit : u.commit r.now.flush w.db bus = .ok db)
    {n : Notification} (hn : n ∈ u.drafts bus w.db.offers.next db.users) : n.Grounded db := by
  have hlater := hgrow.trans (onward_commit hcommit)
  have hold : ∀ {p o event}, w₀.db.Pair p o → u.event = some (fun _ => event) →
      event.deal.offerId = o.id → event.deal.proposalId = p.id → n.Grounded db := by
    intro p o event hpair hevent hoffer hproposal
    obtain ⟨p', o', hpair', hpid, -, hoid, -⟩ := hlater.pair hpair
    rw [UnitOfWork.drafts_of_event hevent] at hn
    exact grounded_draft hpair' (hoffer.trans hoid.symm) (hproposal.trans hpid.symm) hn
  obtain ⟨call, now⟩ := r
  cases body_publishes hbody with
  | nothing hevent =>
      rw [UnitOfWork.drafts_of_none hevent] at hn
      exact absurd hn List.not_mem_nil
  | @offerCreated p hp runnerId hinserted hevent =>
      obtain ⟨p', hp', hpid, -⟩ := hlater.deals.proposals p hp
      obtain ⟨-, -, -, -, hoffers⟩ := UnitOfWork.commit_eq_ok hcommit
      rw [UnitOfWork.drafts_of_event hevent] at hn
      have hnew : { Offer.create p.id runnerId with
          id := w.db.offers.next, createdAt := now.flush, updatedAt := now.flush } ∈
          db.offers := by
        rw [hoffers]
        exact UnitOfWork.mem_offers_write.2 (Or.inr ⟨_, hinserted, rfl⟩)
      refine grounded_draft ⟨hp', hnew, hpid.symm⟩ ?_ ?_ hn
      · rfl
      · exact hpid.symm
  | offerAccepted hpair hwaiting hoffered hwork =>
      exact hold hpair (by rw [hwork]; rfl) rfl rfl
  | runnerConfirmed hpair runnerId hevent => exact hold hpair hevent rfl rfl
  | ordererConfirmed hpair ordererId hevent => exact hold hpair hevent rfl rfl
  | ordererDisputed hpair ordererId qid reason hevent => exact hold hpair hevent rfl rfl
  | runnerDisputed hpair runnerId qid reason hevent => exact hold hpair hevent rfl rfl

/-- Whoever calls has an account. -/
theorem hasUser_actor (hauth : r.call.authenticate w₀.db = .ok ()) {uid : UserId}
    (hactor : r.call.actor = some uid) : w₀.db.HasUser uid := by
  obtain ⟨user, huser, hid, -⟩ := authenticate_eq_ok.1 hauth uid hactor
  exact ⟨user, huser, hid⟩

theorem hasUser_of_alarm {users : Table User} {uid : UserId} (hdb : db.users = users)
    (h : alarmEnabled users uid = true) : db.HasUser uid := by
  obtain ⟨user, huser, hid, -⟩ := alarmEnabled_iff.1 h
  exact ⟨user, hdb ▸ huser, hid⟩

section Tables

variable (hbody : r.call.body w₀.db r.now = .ok u) (hgrow : w₀.db.Onward w.db)
  (h : w.db.Linked) (hcommit : u.commit r.now.flush w.db bus = .ok db)
include hbody hgrow h hcommit

theorem grounded_evidences {e' : DisputeEvidence} (he' : e' ∈ db.evidences) : e'.Grounded db := by
  have hstep := onward_commit hcommit
  obtain ⟨notifications, hsame⟩ := UnitOfWork.commit_same hcommit
  have hevidences : db.evidences = (u.write r.now.flush w.db).evidences := by rw [hsame]
  rw [hevidences] at he'
  rcases UnitOfWork.mem_evidences_write.1 he' with he' | ⟨new, hnew, rfl⟩
  · exact (h.evidences e' he').onward hstep
  · obtain ⟨p, o, hpair, habout, -⟩ := (body_disputes hbody).newEvidence new hnew
    exact DisputeEvidence.Grounded.onward
      ⟨p, o, hpair, habout.proposalId, habout.offerId, habout.question⟩ (hgrow.trans hstep)

theorem linked_notifications {n : Notification} (hn : n ∈ db.notifications) :
    db.HasUser n.userId ∧ (n.notificationType ≠ .custom → n.Grounded db) := by
  have hstep := onward_commit hcommit
  rw [AutoTable.mem_iff, (UnitOfWork.notifications_commit hcommit).1] at hn
  rcases List.mem_append.1 hn with hn | hn
  · obtain ⟨huser, hdeal⟩ := h.notifications n (UnitOfWork.mem_keep.1 hn).1
    exact ⟨hstep.users _ huser, fun htype => (hdeal htype).onward hstep⟩
  · obtain ⟨i, hi, rfl⟩ := List.mem_mapIdx.1 hn
    have hdraft := List.getElem_mem hi
    have huser := hasUser_of_alarm rfl (UnitOfWork.alarm_of_mem_drafts hdraft)
    have hdeal := grounded_of_mem_drafts hbody hgrow hcommit hdraft
    exact ⟨huser, fun _ => hdeal⟩

variable (hauth : r.call.authenticate w₀.db = .ok ())
include hauth

theorem linked_proposals {p' : Proposal} (hp' : p' ∈ db.proposals) : db.HasUser p'.ordererId := by
  have hstep := onward_commit hcommit
  rw [(UnitOfWork.commit_eq_ok hcommit).2.2.2.1] at hp'
  rcases UnitOfWork.mem_proposals_write.1 hp' with ⟨p, hp, rfl⟩ | ⟨p, hnew, rfl⟩
  · rw [u.proposalRow_ordererId]
    exact hstep.users _ (h.proposals p hp)
  · rcases (body_fills hbody).newProposal with hnone | ⟨request, uid, he⟩
    · rw [hnone] at hnew
      exact absurd hnew (by simp)
    · have hactor : w₀.db.HasUser uid := hasUser_actor hauth (by rw [he]; rfl)
      rw [he] at hbody
      obtain ⟨_, hof, -, -, -, -, -, -, rfl⟩ := ProposalService.create_eq_ok hbody
      obtain rfl := Option.some.inj hnew
      exact hof ▸ (hgrow.trans hstep).users uid hactor

/-- The proposal of a new offer was there when the runner applied, so it is still there. -/
theorem linked_offers {o' : Offer} (ho' : o' ∈ db.offers) : db.HasUser o'.runnerId ∧
    ∃ p ∈ db.proposals, p.id = o'.proposalId ∧ p.ordererId ≠ o'.runnerId := by
  have hstep := onward_commit hcommit
  have hlater := hgrow.trans hstep
  rw [(UnitOfWork.commit_eq_ok hcommit).2.2.2.2] at ho'
  rcases UnitOfWork.mem_offers_write.1 ho' with ⟨o, ho, rfl⟩ | ⟨new, hnew, rfl⟩
  · rw [u.offerRow_proposalId, u.offerRow_runnerId]
    obtain ⟨huser, p, hp, hid, hne⟩ := h.offers o ho
    obtain ⟨p', hp', hid', howner⟩ := hstep.deals.proposals p hp
    exact ⟨hstep.users _ huser, p', hp', hid'.trans hid, howner ▸ hne⟩
  · rcases (body_fills hbody).newOffer with hnone | ⟨pid, uid, he⟩
    · rw [hnone] at hnew
      exact absurd hnew (by simp)
    · have hactor : w₀.db.HasUser uid := hasUser_actor hauth (by rw [he]; rfl)
      rw [he] at hbody
      obtain ⟨p, hp, hid, hne, -, -, _, rfl⟩ := OfferService.create_eq_ok hbody
      obtain rfl := Option.some.inj hnew
      obtain ⟨p', hp', hid', howner⟩ := hlater.deals.proposals p hp
      exact ⟨hlater.users uid hactor, p', hp', hid'.trans hid, howner ▸ hne⟩

theorem linked_reports {x' : ProposalReport} (hx' : x' ∈ db.reports) : db.HasUser x'.reporterId ∧
    (∃ p ∈ db.proposals, p.id = x'.proposalId ∧ p.ordererId ≠ x'.reporterId) ∧
      ∃ q ∈ db.reasonQuestions, q.id = x'.reasonQuestionId := by
  have hstep := onward_commit hcommit
  have hlater := hgrow.trans hstep
  obtain ⟨notifications, hsame⟩ := UnitOfWork.commit_same hcommit
  have hreports : db.reports = (u.write r.now.flush w.db).reports := by rw [hsame]
  rw [hreports] at hx'
  rcases UnitOfWork.mem_reports_write.1 hx' with ⟨x, hx, rfl⟩ | ⟨new, hnew, rfl⟩
  · -- a review writes none of the three references
    obtain ⟨hpid, hreporter, hquestion⟩ : (u.reportRow x).proposalId = x.proposalId ∧
        (u.reportRow x).reporterId = x.reporterId ∧
          (u.reportRow x).reasonQuestionId = x.reasonQuestionId :=
      writeBack_induction (P := fun s : ProposalReport => s.proposalId = x.proposalId ∧
        s.reporterId = x.reporterId ∧ s.reasonQuestionId = x.reasonQuestionId) ⟨rfl, rfl, rfl⟩
        fun _ _ _ => ⟨rfl, rfl, rfl⟩
    rw [hpid, hreporter, hquestion, hstep.reasonQuestions]
    obtain ⟨huser, ⟨p, hp, hid, hne⟩, hq⟩ := h.reports x hx
    obtain ⟨p', hp', hid', howner⟩ := hstep.deals.proposals p hp
    exact ⟨hstep.users _ huser, ⟨p', hp', hid'.trans hid, howner ▸ hne⟩, hq⟩
  · rcases (body_fills hbody).newReport with hnone | ⟨pid, uid, request, he⟩
    · rw [hnone] at hnew
      exact absurd hnew (by simp)
    · have hactor : w₀.db.HasUser uid := hasUser_actor hauth (by rw [he]; rfl)
      rw [he] at hbody
      obtain ⟨p, hp, hid, hne, -, _, hpid, rfl, -, -, hwork⟩ :=
        ProposalReportService.create_eq_ok hbody
      obtain ⟨q, hq, -, _, hquestion, rfl⟩ := ProposalReportService.question_of_create hbody
      obtain rfl := Option.some.inj (congrArg UnitOfWork.newReport hwork)
      obtain rfl := Option.some.inj hnew
      obtain ⟨p', hp', hid', howner⟩ := hlater.deals.proposals p hp
      refine ⟨hlater.users _ hactor, ⟨p', hp', ?_, howner ▸ hne⟩, q, ?_, hquestion.symm⟩
      · exact hid'.trans (hid.trans hpid.symm)
      · rwa [hlater.reasonQuestions]

end Tables

/-- **Every commit keeps the references**, whatever has happened since its read. -/
theorem linked_commit (hauth : r.call.authenticate w₀.db = .ok ())
    (hbody : r.call.body w₀.db r.now = .ok u) (hgrow : w₀.db.Onward w.db) (h : w.db.Linked)
    (hcommit : (service bus).commit w r u = .ok w') : w.db.Onward w'.db ∧ w'.db.Linked := by
  obtain ⟨db, hdb, rfl⟩ := service_commit_eq_ok.1 hcommit
  have hstep := onward_commit hdb
  obtain ⟨notifications, hsame⟩ := UnitOfWork.commit_same hdb
  refine ⟨hstep, {
    proposals := fun p hp => linked_proposals hbody hgrow h hdb hauth hp
    offers := fun o ho => linked_offers hbody hgrow h hdb hauth ho
    reports := fun x hx => linked_reports hbody hgrow h hdb hauth hx
    evidences := fun e he => grounded_evidences hbody hgrow h hdb he
    notifications := fun n hn => linked_notifications hbody hgrow h hdb hn
    fcmTokens := ?_
    settlementAccounts := ?_ }⟩
  · intro t ht
    change t ∈ db.fcmTokens at ht
    rw [hsame] at ht
    exact hstep.users _ (h.fcmTokens t (UnitOfWork.mem_keep.1 ht).1)
  · intro a ha
    change a ∈ db.settlementAccounts at ha
    rw [hsame] at ha
    exact hstep.users _ (h.settlementAccounts a (UnitOfWork.mem_keep.1 ha).1)

end Commits

/-! ## Commands -/

section Commands

variable {db db' : Db}

/-- A command deletes nobody. -/
theorem AccountStep.onward (hstep : AccountStep db db') : db.Onward db' := by
  have hsame := hstep.sameDeals
  refine ⟨hsame.kept, ?_, hsame.reasonQuestions, hsame.surveyQuestions⟩
  rintro userId ⟨user, huser, rfl⟩
  cases hstep with
  | profile owner howner hactive f hf verifications fcmTokens htokens =>
      have hmem : (if user.id = owner.id then f user else user) ∈
          (db.updateUser owner.id f fun u => (hf u).id).users :=
        Db.mem_updateUser.2 ⟨user, huser, rfl⟩
      refine ⟨_, hmem, ?_⟩
      split
      · exact (hf user).id
      · rfl
  | signup new hactive hid users husers verifications =>
      refine ⟨user, ?_, rfl⟩
      show user ∈ users
      rw [Table.mem_iff, husers]
      exact List.mem_append_left _ huser
  | _ => exact ⟨user, huser, rfl⟩

/-- The rows that a command leaves as they are keep their references; of the others something
is to be shown. -/
theorem SameDeals.linked (hs : SameDeals db db') (hgrow : db.Onward db') (h : db.Linked)
    (hnotifications : ∀ n' ∈ db'.notifications, (∃ n ∈ db.notifications, SameMessage n n') ∨
      db'.HasUser n'.userId ∧ n'.notificationType = .custom)
    (htokens : ∀ t ∈ db'.fcmTokens, db'.HasUser t.userId)
    (haccounts : ∀ a ∈ db'.settlementAccounts, db'.HasUser a.userId) : db'.Linked where
  proposals := by
    rw [hs.proposals]
    exact fun p hp => hgrow.users _ (h.proposals p hp)
  offers := by
    intro o' ho'
    obtain ⟨o, ho, url, rfl⟩ := hs.offer ho'
    obtain ⟨huser, hproposal⟩ := h.offers o ho
    rw [hs.proposals]
    exact ⟨hgrow.users _ huser, hproposal⟩
  reports := by
    rw [hs.reports, hs.proposals, hs.reasonQuestions]
    exact fun x hx => ⟨hgrow.users _ (h.reports x hx).1, (h.reports x hx).2⟩
  evidences := by
    rw [hs.evidences]
    exact fun e he => (h.evidences e he).onward hgrow
  notifications := by
    intro n' hn'
    rcases hnotifications n' hn' with ⟨n, hn, hmessage⟩ | ⟨huser, hcustom⟩
    · obtain ⟨huser, hdeal⟩ := h.notifications n hn
      refine ⟨hmessage.userId ▸ hgrow.users _ huser, fun htype => ?_⟩
      exact ((hdeal (hmessage.notificationType ▸ htype)).same hmessage).onward hgrow
    · exact ⟨huser, fun htype => absurd hcustom htype⟩
  fcmTokens := htokens
  settlementAccounts := haccounts

theorem SameMessage.refl (n : Notification) : SameMessage n n :=
  ⟨rfl, rfl, rfl, rfl, rfl, rfl, Or.inl rfl⟩

/-- **Every command keeps the references.** -/
theorem AccountStep.linked (hstep : AccountStep db db') (h : db.Linked) : db'.Linked := by
  have hsame := hstep.sameDeals
  have hgrow := hstep.onward
  have hnotifications : ∀ n ∈ db.notifications, (∃ n₀ ∈ db.notifications, SameMessage n₀ n) ∨
      db'.HasUser n.userId ∧ n.notificationType = .custom :=
    fun n hn => Or.inl ⟨n, hn, .refl n⟩
  have htokens : ∀ t ∈ db.fcmTokens, db'.HasUser t.userId :=
    fun t ht => hgrow.users _ (h.fcmTokens t ht)
  have haccounts : ∀ a ∈ db.settlementAccounts, db'.HasUser a.userId :=
    fun a ha => hgrow.users _ (h.settlementAccounts a ha)
  cases hstep with
  | profile user huser hactive f hf verifications fcmTokens hown =>
      refine hsame.linked hgrow h hnotifications (fun t ht => ?_) haccounts
      rcases hown t ht with he | ⟨t', ht', he⟩
      · exact hgrow.users _ ⟨user, huser, he.symm⟩
      · exact he ▸ htokens t' ht'
  | account user huser hactive =>
      refine hsame.linked hgrow h hnotifications htokens fun a ha => ?_
      rcases AutoTable.mem_insert.1 ha with ha | rfl
      · exact haccounts a ha
      · exact ⟨user, huser, rfl⟩
  | messages f hf =>
      refine hsame.linked hgrow h (fun n' hn' => ?_) htokens haccounts
      obtain ⟨n, hn, rfl⟩ := AutoTable.mem_map.1 hn'
      exact Or.inl ⟨n, hn, hf n⟩
  | custom user huser hactive n huserId htype hstatus =>
      refine hsame.linked hgrow h (fun n' hn' => ?_) htokens haccounts
      rcases AutoTable.mem_insert.1 hn' with hn' | rfl
      · exact hnotifications n' hn'
      · exact Or.inr ⟨⟨user, huser, huserId.symm⟩, htype⟩
  | _ => exact hsame.linked hgrow h hnotifications htokens haccounts

end Commands

/-! ## Runs -/

theorem linked_initial (m : MasterData)
    (htokens : ∀ t ∈ m.fcmTokens, ∃ user ∈ m.users, user.id = t.userId)
    (haccounts : ∀ a ∈ m.settlementAccounts, ∃ user ∈ m.users, user.id = a.userId) :
    (World.initial m).db.Linked where
  proposals := fun _ hp => absurd hp List.not_mem_nil
  offers := fun _ ho => absurd ho List.not_mem_nil
  reports := fun _ hx => absurd hx List.not_mem_nil
  evidences := fun _ he => absurd he List.not_mem_nil
  notifications := fun _ hn => absurd hn List.not_mem_nil
  fcmTokens := htokens
  settlementAccounts := haccounts

theorem sound_linked (bus : EventBus) : (service bus).Sound (fun w => w.db.Linked)
    (fun w w' => w.db.Onward w'.db) fun _ => True where
  refl := fun w => Db.Onward.refl w.db
  trans := fun _ _ _ => Db.Onward.trans
  commit := by
    intro w₀ w w' r u _ _ hread hgrow h hcommit
    obtain ⟨hauth, hbody⟩ := service_read_eq_ok.1 hread
    exact (linked_commit hauth hbody hgrow h hcommit).symm

/-- **No reference dangles.**  If the tokens and the accounts belong to users at the start,
then in every state, whatever calls overlap with each other and with whatever commands: the
owners and the runners have accounts, offers, reports and evidence are about proposals and
offers that are there, by the people that may make them, the questions that they answer are
there, and so is whatever a notification of the listener is about. -/
theorem references_kept (settings : Settings) (bus : EventBus) (m : MasterData)
    (htokens : ∀ t ∈ m.fcmTokens, ∃ user ∈ m.users, user.id = t.userId)
    (haccounts : ∀ a ∈ m.settlementAccounts, ∃ user ∈ m.users, user.id = a.userId)
    (es : List (Among Request AccountCommand)) :
    Runs.Always (App.among settings bus) (fun s => s.now.db.Linked)
      (State.quiet (World.initial m)) es := by
  have hrun : Runs.Always (App.among settings bus) _ _ es := App.among_run (sound_linked bus)
    (fun w db h hstep => ⟨hstep.linked h, hstep.onward⟩) (linked_initial m htokens haccounts)
    es
  exact Runs.always_iff.2 fun pre suf he => (Runs.always_iff.1 hrun pre suf he).1

namespace Sample

/-- The runner has a device, and the orderer an account. -/
def equipped : MasterData :=
  { master with
    fcmTokens := AutoTable.empty.insert fun k => ⟨k, "runner", "device"⟩
    settlementAccounts := AutoTable.empty.insert fun k => ⟨k, "orderer"⟩ }

/-- The runner leaves while her offer waits for its commit. -/
def departure : List (Among Request AccountCommand) := [
  .event (.read 1 (request 1 (.proposalCreate errand "orderer"))),
  .change (.updateFcmToken "orderer" "phone"),
  .event (.commit 1),
  .event (.read 2 (request 2 (.confirmPayment 1))),
  .event (.commit 2),
  .event (.read 3 (request 3 (.offerCreate 1 "runner"))),
  .event (.read 4 (request 4 (.withdrawUser "runner"))),
  .event (.commit 4),
  .event (.commit 3)]

end Sample

/-- The offer of a runner who has left still leads to her row. -/
theorem references_kept_departure : Runs.Always (App.among .sample Sample.bus)
    (fun s => s.now.db.Linked) (State.quiet (World.initial Sample.equipped)) Sample.departure := by
  refine references_kept .sample Sample.bus Sample.equipped ?_ ?_ Sample.departure
  · intro t ht
    rcases AutoTable.mem_insert.1 ht with ht | rfl
    · exact absurd ht List.not_mem_nil
    · exact ⟨Sample.user "runner", List.mem_cons_of_mem _ List.mem_cons_self, rfl⟩
  · intro a ha
    rcases AutoTable.mem_insert.1 ha with ha | rfl
    · exact absurd ha List.not_mem_nil
    · exact ⟨Sample.user "orderer", List.mem_cons_self, rfl⟩

end OrderRun
