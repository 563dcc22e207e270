import OrderRun.Application.Deals
import OrderRun.Sequential.Level

/-!
# Withdrawals

A user who is in the middle of an errand cannot leave; everybody else can, and nothing of
her is left behind, whatever the others do afterwards.

* `body_leaves`, `body_users`, `newProposal_actor`, `newOffer_actor` — only active users do
  anything.
* `Db.Gone`, `gone_call`, `AccountStep.gone` — what is left of a user who has left, and
  that it stays so.
* `gone_withdraw` — the withdrawal itself.
* `Db.Spares` — what a withdrawal leaves alone.
* `App.withdrawal` — all this in every run of the application.
-/

namespace OrderRun

open Store

/-! ## Only active users do anything -/

section Actors

variable {u : UnitOfWork} {db : Db} {call : Call} {now : Readings}

/-- Only a withdrawal changes users through their objects, and purges tables. -/
theorem body_leaves (h : call.body db now = .ok u) : (u.users = [] ∧ u.purge = none) ∨
    ∃ user ∈ db.users, user.deleted = false ∧
      u.users = [⟨user, user.withdraw now.first⟩] ∧ u.purge = some ⟨user.id, user.phone⟩ := by
  rcases (body_fills h).users with hnone | ⟨uid, rfl⟩
  · exact Or.inl hnone
  · obtain ⟨user, huser, rfl, hactive, -, rfl⟩ := UserWithdrawalService.withdrawUser_eq_ok h
    exact Or.inr ⟨user, huser, hactive, rfl, rfl⟩

/-- The users changed so are active. -/
theorem body_users (h : call.body db now = .ok u) :
    ∀ c ∈ u.users, c.loaded ∈ db.users ∧ c.loaded.deleted = false := by
  intro c hc
  rcases body_leaves h with ⟨hnone, -⟩ | ⟨user, huser, hactive, hone, -⟩
  · rw [hnone] at hc
    exact absurd hc List.not_mem_nil
  · rw [hone] at hc
    rw [List.mem_singleton.1 hc]
    exact ⟨huser, hactive⟩

/-- A new proposal belongs to the user who has made the call. -/
theorem newProposal_actor (h : call.body db now = .ok u) {p : Proposal}
    (hnew : u.newProposal = some p) : call.actor = some p.ordererId := by
  rcases (body_inserts h).1 with hnone | ⟨request, uid, q, rfl, -⟩
  · rw [hnone] at hnew
    exact absurd hnew (by simp)
  · obtain ⟨q, rfl, -, -, -, -, -, -, rfl⟩ := ProposalService.create_eq_ok h
    rw [← Option.some.inj hnew]
    rfl

/-- And so does a new offer. -/
theorem newOffer_actor (h : call.body db now = .ok u) {o : Offer}
    (hnew : u.newOffer = some o) : call.actor = some o.runnerId := by
  rcases (body_inserts h).2 with hnone | ⟨pid, uid, rfl, hsome, -⟩
  · rw [hnone] at hnew
    exact absurd hnew (by simp)
  · rw [hsome, Option.some.injEq] at hnew
    rw [← hnew]
    rfl

end Actors

/-! ## What is left of a user -/

/-- The row of a user who has left. -/
structure User.Blank (user : User) : Prop where
  deleted : user.deleted = true
  name : user.name = none
  phone : user.phone = none
  phoneVerifiedAt : user.phoneVerifiedAt = none
  lastLoginAt : user.lastLoginAt = none
  passwordHash : user.passwordHash = none
  alarmEnabled : user.alarmEnabled = none

/-- A user has left: her row is blank, nothing that is only hers is there any more, and
none of her errands is open. -/
structure Db.Gone (db : Db) (userId : UserId) : Prop where
  user : ∃ user ∈ db.users, user.id = userId ∧ user.Blank
  fcmTokens : ∀ r ∈ db.fcmTokens, r.userId ≠ userId
  settlementAccounts : ∀ r ∈ db.settlementAccounts, r.userId ≠ userId
  notifications : ∀ n ∈ db.notifications, n.userId ≠ userId
  proposals : ∀ p ∈ db.proposals, p.ordererId = userId → p.status.Terminal
  offers : ∀ o ∈ db.offers, o.runnerId = userId → o.status.Terminal

namespace Db.Gone

variable {db : Db} {uid : UserId}

/-- An active user has not left. -/
theorem ne_of_active (h : db.Gone uid) {user : User} (huser : user ∈ db.users)
    (hactive : user.deleted = false) : user.id ≠ uid := by
  rintro rfl
  obtain ⟨gone, hgone, hid, hblank⟩ := h.user
  obtain rfl : gone = user := Table.eq_of_key_eq hgone huser hid
  rw [hblank.deleted] at hactive
  exact absurd hactive (by decide)

/-- Nor is a user who has left the actor of a call. -/
theorem ne_of_authenticate (h : db.Gone uid) {call : Call} (hauth : call.authenticate db = .ok ())
    {actor : UserId} (hactor : call.actor = some actor) : actor ≠ uid := by
  obtain ⟨user, huser, rfl, hactive⟩ := authenticate_eq_ok.1 hauth actor hactor
  exact h.ne_of_active huser hactive

end Db.Gone

/-- A blank row does not want notifications. -/
theorem alarmEnabled_of_blank {users : Table User} {user : User} (huser : user ∈ users)
    (hblank : user.Blank) : alarmEnabled users user.id = false := by
  have hfind : users.find? user.id = some user := Table.find?_eq_some_iff.2 ⟨huser, rfl⟩
  unfold alarmEnabled
  rw [hfind]
  simp [hblank.alarmEnabled]

/-! ## It stays so -/

section Stays

variable {bus : EventBus} {w : World} {r : Request} {u : UnitOfWork} {db : Db} {uid : UserId}

/-- Nobody writes to the row of a user who has left, except for her level. -/
theorem blank_commit (h : w.db.Gone uid) (hbody : r.call.body w.db r.now = .ok u)
    (hcommit : u.commit r.now.flush w.db bus = .ok db) :
    ∃ user ∈ db.users, user.id = uid ∧ user.Blank := by
  obtain ⟨user, huser, hid, hblank⟩ := h.user
  have hrow : u.userRow user = u.levelRow user := by
    refine UnitOfWork.userRow_of_ne fun c hc hkey => ?_
    obtain ⟨hmem, hactive⟩ := body_users hbody c hc
    exact h.ne_of_active hmem hactive (hkey.trans hid)
  refine ⟨u.userRow user, ?_, (u.userRow_id user).trans hid, ?_⟩
  · rw [(UnitOfWork.commit_eq_ok hcommit).2.2.1]
    exact UnitOfWork.mem_users_write.2 ⟨user, huser, rfl⟩
  · rw [hrow]
    unfold UnitOfWork.levelRow
    split
    · exact ⟨hblank.deleted, hblank.name, hblank.phone, hblank.phoneVerifiedAt,
        hblank.lastLoginAt, hblank.passwordHash, hblank.alarmEnabled⟩
    · exact hblank

/-- **A call of somebody else brings nothing back**: handlers write to users who want
notifications, transitions do not leave a terminal status, and new rows belong to active
users. -/
theorem gone_commit (h : w.db.Gone uid) (hauth : r.call.authenticate w.db = .ok ())
    (hbody : r.call.body w.db r.now = .ok u)
    (hcommit : u.commit r.now.flush w.db bus = .ok db) : db.Gone uid := by
  have hblank := blank_commit h hbody hcommit
  obtain ⟨-, -, -, hprops, hoffers⟩ := UnitOfWork.commit_eq_ok hcommit
  have hu := body_prepared hbody
  refine ⟨hblank, ?_, ?_, ?_, ?_, ?_⟩
  · obtain ⟨_, rfl⟩ := UnitOfWork.commit_same hcommit
    exact fun t ht => h.fcmTokens t (UnitOfWork.mem_keep.1 ht).1
  · obtain ⟨_, rfl⟩ := UnitOfWork.commit_same hcommit
    exact fun a ha => h.settlementAccounts a (UnitOfWork.mem_keep.1 ha).1
  · intro n hn hid
    rcases UnitOfWork.mem_notifications_commit hcommit hn with hold | halarm
    · exact h.notifications n (UnitOfWork.mem_keep.1 hold).1 hid
    · obtain ⟨user, huser, rfl, hrow⟩ := hblank
      rw [hid, alarmEnabled_of_blank huser hrow] at halarm
      exact absurd halarm (by decide)
  · intro p' hp' horderer
    rw [hprops, UnitOfWork.mem_proposals_write] at hp'
    rcases hp' with ⟨p, hp, rfl⟩ | ⟨p, hnew, rfl⟩
    · have hover := h.proposals p hp (by simpa using horderer)
      rw [status_proposalRow_of_terminal hu hp hover]
      exact hover
    · have hactor := newProposal_actor hbody hnew
      exact absurd horderer (h.ne_of_authenticate hauth hactor)
  · intro o' ho' hrunner
    rw [hoffers, UnitOfWork.mem_offers_write] at ho'
    rcases ho' with ⟨o, ho, rfl⟩ | ⟨o, hnew, rfl⟩
    · have hover := h.offers o ho (by simpa using hrunner)
      rcases status_offerRow (t := r.now.flush) hu ho with ⟨c, hc, rfl, -⟩ | ⟨-, hs | ⟨hw, -⟩⟩
      · exact absurd hover (hu.offers c hc).2.not_terminal
      · rw [hs]
        exact hover
      · rw [hw] at hover
        exact absurd hover (by decide)
    · have hactor := newOffer_actor hbody hnew
      exact absurd hrunner (h.ne_of_authenticate hauth hactor)

theorem gone_call (bus : EventBus) {w : World} (h : w.db.Gone uid) (r : Request) :
    ((service bus).call w r).db.Gone uid := by
  rcases call_cases bus w r with he | ⟨u, db, hauth, hbody, hcommit, he⟩
  · rw [he]
    exact h
  · rw [he]
    exact gone_commit h hauth hbody hcommit

/-- **Nor does any other command.** -/
theorem AccountStep.gone {db db' : Db} (hstep : AccountStep db db') (h : db.Gone uid) :
    db'.Gone uid := by
  cases hstep with
  | nothing => exact h
  | records verifications => exact { h with }
  | profile user huser hactive f hf verifications fcmTokens htokens =>
      have hne := h.ne_of_active huser hactive
      refine { h with user := ?_, fcmTokens := ?_ }
      · obtain ⟨gone, hgone, rfl, hblank⟩ := h.user
        refine ⟨gone, List.mem_map.2 ⟨gone, hgone, if_neg hne.symm⟩, rfl, hblank⟩
      · intro t ht
        rcases htokens t ht with hid | ⟨t', ht', hid⟩
        · rw [hid]
          exact hne
        · rw [← hid]
          exact h.fcmTokens t' ht'
  | signup user hactive hid users husers verifications =>
      obtain ⟨gone, hgone, hgid, hblank⟩ := h.user
      refine { h with user := ⟨gone, ?_, hgid, hblank⟩ }
      rw [Table.mem_iff, husers]
      exact List.mem_append_left _ hgone
  | account user huser hactive =>
      refine { h with settlementAccounts := ?_ }
      intro a ha
      rcases AutoTable.mem_insert.1 ha with ha | rfl
      · exact h.settlementAccounts a ha
      · exact h.ne_of_active huser hactive
  | messages f hf =>
      refine { h with notifications := ?_ }
      intro n' hn'
      obtain ⟨n, hn, rfl⟩ := AutoTable.mem_map.1 hn'
      rw [(hf n).userId]
      exact h.notifications n hn
  | custom user huser hactive n huserId htype hstatus =>
      refine { h with notifications := ?_ }
      intro n' hn'
      rcases AutoTable.mem_insert.1 hn' with hn' | rfl
      · exact h.notifications n' hn'
      · show n.userId ≠ uid
        rw [huserId]
        exact h.ne_of_active huser hactive
  | chat offerId url =>
      refine { h with offers := ?_ }
      intro o' ho'
      obtain ⟨o, ho, rfl⟩ := AutoTable.mem_map.1 ho'
      split
      · exact h.offers o ho
      · exact h.offers o ho

end Stays

/-! ## The withdrawal -/

/-- What a withdrawal leaves alone: the rows of others, except for waiting offers between
them and the user, and everything about disputes and reports. -/
structure Db.Spares (db db' : Db) (user : User) : Prop where
  users : ∃ f, db'.users.rows = db.users.rows.map f ∧ ∀ v ∈ db.users, v.id ≠ user.id → f v = v
  proposals : ∃ f, db'.proposals.rows = db.proposals.rows.map f ∧ ∀ p ∈ db.proposals, f p ≠ p →
    p.ordererId = user.id ∧ p.status ∈ [.holding, .posted, .offered]
  offers : ∃ f, db'.offers.rows = db.offers.rows.map f ∧ ∀ o ∈ db.offers, f o ≠ o →
    o.status = .waiting ∧ (o.runnerId = user.id ∨ ∃ p, db.Pair p o ∧ p.ordererId = user.id ∧
      p.status ∈ [.holding, .posted, .offered])
  reports : db'.reports = db.reports
  reasonQuestions : db'.reasonQuestions = db.reasonQuestions
  evidences : db'.evidences = db.evidences
  surveyQuestions : db'.surveyQuestions = db.surveyQuestions
  notifications : db'.notifications.rows =
    db.notifications.rows.filter fun n => ! decide (n.userId = user.id)
  verifications : db'.verifications.rows =
    db.verifications.rows.filter fun v => ! decide (some v.phone = user.phone)
  fcmTokens : db'.fcmTokens.rows = db.fcmTokens.rows.filter fun t => ! decide (t.userId = user.id)
  settlementAccounts : db'.settlementAccounts.rows =
    db.settlementAccounts.rows.filter fun a => ! decide (a.userId = user.id)

section Withdraw

open UserWithdrawalService

variable {bus : EventBus} {db db' : Db} {user : User} {now : Readings} {u : UnitOfWork}

/-- An errand of a user who may leave is over, or not matched yet. -/
theorem terminal_or_open (hfree : ¬ Busy db user.id) {p : Proposal} (hp : p ∈ db.proposals)
    (horderer : p.ordererId = user.id) : p.status.Terminal ∨ p ∈ openProposals db user.id := by
  by_cases hopen : p.status ∈ WITHDRAWAL_AUTO_CANCEL_PROPOSAL_STATUSES
  · exact Or.inr (List.mem_filter.2 ⟨hp, decide_eq_true ⟨horderer, hopen⟩⟩)
  · have hnot : p.status ∉ [.matched, .orderCompleted, .disputed] :=
      fun hs => hfree (Or.inl ⟨p, hp, horderer, hs⟩)
    left
    revert hopen hnot
    cases p.status <;> decide

/-- An offer by a user who may leave is over, or waiting. -/
theorem terminal_or_waiting (hfree : ¬ Busy db user.id) {o : Offer} (ho : o ∈ db.offers)
    (hrunner : o.runnerId = user.id) : o.status.Terminal ∨ o ∈ runnerOffers db user.id := by
  by_cases hopen : o.status ∈ WITHDRAWAL_AUTO_CANCEL_OFFER_STATUSES
  · exact Or.inr (List.mem_filter.2 ⟨ho, decide_eq_true ⟨hrunner, hopen⟩⟩)
  · have hnot : o.status ∉ [.accepted, .runnerCompleted, .disputed] :=
      fun hs => hfree (Or.inr ⟨o, ho, hrunner, hs⟩)
    left
    revert hopen hnot
    cases o.status <;> decide

/-- The withdrawn row is blank. -/
theorem blank_withdraw (hbody : (Call.withdrawUser user.id).body db now = .ok u)
    (hcommit : u.commit now.flush db bus = .ok db') :
    ∃ v ∈ db'.users, v.id = user.id ∧ v.Blank := by
  obtain ⟨v, hv, hid, -, -, hu⟩ := withdrawUser_eq_ok hbody
  have hrow : u.userRow v = User.flush v (v.withdraw now.first) v := by
    rw [hu]
    exact (writeBack_singleton _).trans (if_pos rfl)
  refine ⟨u.userRow v, ?_, (u.userRow_id v).trans hid, ?_⟩
  · rw [(UnitOfWork.commit_eq_ok hcommit).2.2.1]
    exact UnitOfWork.mem_users_write.2 ⟨v, hv, rfl⟩
  · rw [hrow]
    constructor <;> exact col_untouched _ _

/-- None of her errands is open any more. -/
theorem proposals_withdraw (hfree : ¬ Busy db user.id)
    (hbody : (Call.withdrawUser user.id).body db now = .ok u)
    (hcommit : u.commit now.flush db bus = .ok db') :
    ∀ p ∈ db'.proposals, p.ordererId = user.id → p.status.Terminal := by
  have hprepared := body_prepared hbody
  obtain ⟨v, -, -, -, -, hu⟩ := withdrawUser_eq_ok hbody
  intro p' hp' horderer
  rw [(UnitOfWork.commit_eq_ok hcommit).2.2.2.1, UnitOfWork.mem_proposals_write] at hp'
  rcases hp' with ⟨p, hp, rfl⟩ | ⟨p, hnew, -⟩
  · rcases terminal_or_open hfree hp (by simpa using horderer) with hover | hopen
    · rw [status_proposalRow_of_terminal hprepared hp hover]
      exact hover
    · have hchange : cancelledProposal p ∈ u.proposals := by
        rw [hu]
        exact List.mem_map_of_mem hopen
      rcases proposalRow_cases (t := now.flush) hprepared hp with ⟨c, hc, hl, he⟩ | ⟨hno, -⟩
      · obtain rfl : c = cancelledProposal p :=
          hprepared.proposalObjects c hc _ hchange (congrArg Proposal.id hl)
        rw [he, Proposal.flush_status, col_untouched]
        show ProposalStatus.Terminal .cancelled
        decide
      · exact absurd rfl (hno _ hchange)
  · rw [hu] at hnew
    exact absurd hnew (by simp)

/-- Nor is any of her offers. -/
theorem offers_withdraw (hfree : ¬ Busy db user.id)
    (hbody : (Call.withdrawUser user.id).body db now = .ok u)
    (hcommit : u.commit now.flush db bus = .ok db') :
    ∀ o ∈ db'.offers, o.runnerId = user.id → o.status.Terminal := by
  have hprepared := body_prepared hbody
  obtain ⟨v, -, -, -, -, hu⟩ := withdrawUser_eq_ok hbody
  intro o' ho' hrunner
  rw [(UnitOfWork.commit_eq_ok hcommit).2.2.2.2, UnitOfWork.mem_offers_write] at ho'
  rcases ho' with ⟨o, ho, rfl⟩ | ⟨o, hnew, -⟩
  · rcases terminal_or_waiting hfree ho (by simpa using hrunner) with hover | hopen
    · rcases status_offerRow (t := now.flush) hprepared ho with
        ⟨c, hc, rfl, -⟩ | ⟨-, hs | ⟨hw, -⟩⟩
      · exact absurd hover (hprepared.offers c hc).2.not_terminal
      · rw [hs]
        exact hover
      · rw [hw] at hover
        exact absurd hover (by decide)
    · have hchange : cancelledOffer o ∈ u.offers := by
        rw [hu]
        exact List.mem_map_of_mem (List.mem_append_right _ hopen)
      rcases status_offerRow (t := now.flush) hprepared ho with ⟨c, hc, hl, hs⟩ | ⟨hno, -⟩
      · obtain rfl : c = cancelledOffer o :=
          hprepared.offerObjects c hc _ hchange (congrArg Offer.id hl)
        rw [hs]
        show OfferStatus.Terminal .cancelled
        decide
      · exact absurd rfl (hno _ hchange)
  · rw [hu] at hnew
    exact absurd hnew (by simp)

/-- **After the withdrawal the user has left.** -/
theorem gone_withdraw (hfree : ¬ Busy db user.id)
    (hbody : (Call.withdrawUser user.id).body db now = .ok u)
    (hcommit : u.commit now.flush db bus = .ok db') : db'.Gone user.id := by
  obtain ⟨notifications, hdb⟩ := UnitOfWork.commit_same hcommit
  obtain ⟨v, -, -, -, -, hu⟩ := withdrawUser_eq_ok hbody
  have hpurge : u.purge = some ⟨user.id, v.phone⟩ := by rw [hu]
  have hblank := blank_withdraw hbody hcommit
  refine ⟨hblank, ?_, ?_, ?_, proposals_withdraw hfree hbody hcommit,
    offers_withdraw hfree hbody hcommit⟩
  · intro t ht
    rw [hdb] at ht
    simpa using (UnitOfWork.mem_keep.1 ht).2 _ hpurge
  · intro a ha
    rw [hdb] at ha
    simpa using (UnitOfWork.mem_keep.1 ha).2 _ hpurge
  · intro n hn hnid
    rcases UnitOfWork.mem_notifications_commit hcommit hn with hold | halarm
    · exact absurd hnid (by simpa using (UnitOfWork.mem_keep.1 hold).2 _ hpurge)
    · obtain ⟨row, hrow, hid, hrowBlank⟩ := hblank
      rw [hnid, ← hid, alarmEnabled_of_blank hrow hrowBlank] at halarm
      exact absurd halarm (by decide)

/-- **Nobody else loses anything.** -/
theorem spares_withdraw (huser : user ∈ db.users)
    (hbody : (Call.withdrawUser user.id).body db now = .ok u)
    (hcommit : u.commit now.flush db bus = .ok db') : db.Spares db' user := by
  have hprepared := body_prepared hbody
  obtain ⟨notifications, hdb⟩ := UnitOfWork.commit_same hcommit
  obtain ⟨v, hv, hid, -, -, hu⟩ := withdrawUser_eq_ok hbody
  obtain rfl : v = user := Table.eq_of_key_eq hv huser hid
  have hsent : db'.notifications.rows = (u.write now.flush db).notifications.rows := by
    have hdrafts : u.drafts bus db.offers.next db'.users = [] := by
      rw [hu]
      rfl
    rw [(UnitOfWork.notifications_commit hcommit).1, hdrafts]
    exact List.append_nil _
  constructor
  · refine ⟨u.userRow, by rw [hdb]; rfl, fun x _ hne => ?_⟩
    rw [hu]
    exact (writeBack_singleton _).trans (if_neg hne.symm)
  · refine ⟨u.proposalRow now.flush, by rw [hdb, hu]; rfl, fun p hp hne => ?_⟩
    rcases proposalRow_cases (t := now.flush) hprepared hp with ⟨c, hc, rfl, -⟩ | ⟨-, he⟩
    · rw [hu] at hc
      obtain ⟨q, hq, rfl⟩ := List.mem_map.1 hc
      obtain ⟨horderer, -⟩ := of_decide_eq_true (List.mem_filter.1 hq).2
      exact ⟨horderer, status_of_mem_openProposals hq⟩
    · exact absurd he hne
  · refine ⟨u.offerRow now.flush, by rw [hdb, hu]; rfl, fun o ho hne => ?_⟩
    have hreject : u.rejectRow now.flush o = o := by rw [hu]; rfl
    rcases writeBack_cases (fun loaded dirty row => Offer.flush loaded dirty now.flush row)
      u.offers o with ⟨-, he⟩ | ⟨c, hc, hkey, -⟩
    · exact absurd ((congrArg (writeBack _ u.offers) hreject).trans he) hne
    · obtain rfl : c.loaded = o :=
        AutoTable.eq_of_key_eq (hprepared.offers c hc).1 ho hkey
      rw [hu] at hc
      obtain ⟨x, hx, rfl⟩ := List.mem_map.1 hc
      refine ⟨(waiting_of_mem_withdrawn hx).2, ?_⟩
      rcases List.mem_append.1 hx with hx | hx
      · obtain ⟨hproposal, -⟩ := of_decide_eq_true (List.mem_filter.1 hx).2
        obtain ⟨p, hp, hpid⟩ := List.mem_map.1 hproposal
        obtain ⟨hmem, hselected⟩ := List.mem_filter.1 hp
        exact Or.inr ⟨p, ⟨hmem, ho, hpid.symm⟩, (of_decide_eq_true hselected).1,
          status_of_mem_openProposals hp⟩
      · exact Or.inl (of_decide_eq_true (List.mem_filter.1 hx).2).1
  · rw [hdb, hu]
    exact AutoTable.map_eq_self fun _ _ => rfl
  · rw [hdb]; rfl
  · rw [hdb, hu]; rfl
  · rw [hdb]; rfl
  · rw [hsent, hu]; rfl
  · rw [hdb, hu]; rfl
  · rw [hdb, hu]; rfl
  · rw [hdb, hu]; rfl

end Withdraw

/-! ## Withdrawals in a run -/

/-- Nothing is left of a user, and nobody waits for her. -/
structure Db.NothingLeft (db : Db) (userId : UserId) : Prop extends db.Gone userId where
  waiting : ∀ p o, db.Pair p o → p.ordererId = userId → o.status ≠ .waiting

theorem World.Traced.nothingLeft {w : World} (ht : w.Traced) {uid : UserId}
    (h : w.db.Gone uid) : w.db.NothingLeft uid where
  toGone := h
  waiting := by
    intro p o hpair horderer
    exact (ht.shape hpair.proposal).not_waiting (ht.history p hpair.proposal).distinct
      (h.proposals p hpair.proposal horderer) hpair.mem_bids

/-- What `withdraw_user` does to the active users of one state. -/
structure World.Withdrawals (settings : Settings) (bus : EventBus) (w : World) : Prop where
  /-- A user in the middle of an errand is refused, and nothing changes. -/
  blocked : ∀ user ∈ w.db.users, user.deleted = false →
    UserWithdrawalService.Busy w.db user.id → ∀ now,
      (service bus).read w ⟨.withdrawUser user.id, now⟩ =
        .error (apiError .userWithdrawalBlocked) ∧
      (service bus).call w ⟨.withdrawUser user.id, now⟩ = w
  /-- Everybody else can leave; others are spared, and nothing is left of her, now or later. -/
  leaves : ∀ user ∈ w.db.users, user.deleted = false →
    ¬ UserWithdrawalService.Busy w.db user.id → ∀ now, ∃ u w',
      (service bus).read w ⟨.withdrawUser user.id, now⟩ = .ok u ∧
      (service bus).commit w ⟨.withdrawUser user.id, now⟩ u = .ok w' ∧
      (service bus).call w ⟨.withdrawUser user.id, now⟩ = w' ∧ w.db.Spares w'.db user ∧
      ∀ cs, (Runs.run (App.step settings bus) w' cs).db.NothingLeft user.id

section Run

variable {settings : Settings} {bus : EventBus}

/-- A user who has left stays away. -/
theorem App.nothingLeft_run {w : World} (ht : w.Traced) {uid : UserId} (h : w.db.Gone uid)
    (cs : List Command) : (Runs.run (App.step settings bus) w cs).db.NothingLeft uid := by
  have hkept : (Runs.run (App.step settings bus) w cs).Traced ∧
      (Runs.run (App.step settings bus) w cs).db.Gone uid := by
    refine App.inv_run (I := fun w => w.Traced ∧ w.db.Gone uid) ⟨ht, h⟩ ?_ ?_ cs
    · rintro w r ⟨ht, h⟩
      exact ⟨traced_call bus ht r, gone_call bus h r⟩
    · rintro w db ⟨ht, h⟩ hstep
      exact ⟨ht.command hstep.sameDeals, hstep.gone h⟩
  exact hkept.1.nothingLeft hkept.2

/-- **A withdrawn user leaves nothing behind**, in every run of the application. -/
theorem App.withdrawal (settings : Settings) (bus : EventBus) (m : MasterData)
    (cs : List Command) : (App.after settings bus m cs).Withdrawals settings bus := by
  have ht : (App.after settings bus m cs).Traced := App.traced_after m cs
  have hself : (App.after settings bus m cs).db.NoSelfOffer := App.noSelfOffer_after m cs
  have hauth : ∀ user ∈ (App.after settings bus m cs).db.users, user.deleted = false →
      (Call.withdrawUser user.id).authenticate (App.after settings bus m cs).db = .ok () := by
    intro user huser hactive
    refine authenticate_eq_ok.2 ?_
    rintro _ ⟨⟩
    exact ⟨user, huser, rfl, hactive⟩
  constructor
  · intro user huser hactive hbusy now
    have hread : (service bus).read (App.after settings bus m cs) ⟨.withdrawUser user.id, now⟩ =
        .error (apiError .userWithdrawalBlocked) := by
      show (Call.authenticate _ _ >>= fun _ => _) = _
      rw [hauth user huser hactive]
      exact UserWithdrawalService.withdrawUser_of_busy huser hactive hbusy now
    exact ⟨hread, by rw [Split.Service.call, hread]⟩
  · intro user huser hactive hfree now
    obtain ⟨u, hbody⟩ :=
      UserWithdrawalService.withdrawUser_of_free huser hactive hfree hself now
    obtain ⟨v, -, -, -, -, hu⟩ := UserWithdrawalService.withdrawUser_eq_ok hbody
    obtain ⟨db, hcommit, hcall⟩ := call_of_body (r := ⟨.withdrawUser user.id, now⟩) bus
      (hauth user huser hactive) hbody (by rw [hu]) (by rw [hu])
    refine ⟨u, _, service_read_eq_ok.2 ⟨hauth user huser hactive, hbody⟩,
      service_commit_eq_ok.2 ⟨db, hcommit, rfl⟩, hcall, spares_withdraw huser hbody hcommit, ?_⟩
    intro cs'
    refine App.nothingLeft_run ?_ (gone_withdraw hfree hbody hcommit) cs'
    rw [← hcall]
    exact traced_call bus ht _

end Run

end OrderRun
