import OrderRun.Events.Bus

/-!
# Units of work

What a service method has decided to write when its guards have passed, and what
the database makes of it.  The session has `autoflush=False` and takes no row
locks: bulk statements are evaluated on the rows as they are at the commit, and a
changed object writes back the columns that differ from the row it was loaded
from.

* `UnitOfWork` — bulk statements, new rows, changed objects, and the event to
  publish.
* `proposalRow`, `offerRow`, `userRow` — what a commit makes of one row.
* `UnitOfWork.commit` — the bulk statements, the flush, the handlers of the
  event, and the unique constraints that can still refuse the whole unit.
* `mem_proposals_write`, `mem_offers_write` — the rows after a commit are the old
  ones, rewritten, and the inserted one.
-/

namespace OrderRun

open Store

/-- What the clock shows during one call: `utcnow_naive()` is read up to three
times in the body of a method, and once more when the session flushes. -/
structure Readings where
  first : DateTime
  second : DateTime
  third : DateTime
  flush : DateTime

/-- The readings, in the order they are taken. -/
def Readings.all (now : Readings) : List DateTime := [now.first, now.second, now.third, now.flush]

/-- `UPDATE offers SET status = REJECTED WHERE proposal_id = ... AND status =
WAITING`, with the offer that is left out, if any. -/
structure RejectWaiting where
  proposalId : ℕ
  except : Option ℕ := none
  deriving DecidableEq, Repr

namespace RejectWaiting

/-- The `WHERE` clause. -/
def Selects (stmt : RejectWaiting) (o : Offer) : Prop :=
  o.proposalId = stmt.proposalId ∧ stmt.except ≠ some o.id ∧ o.status = .waiting

instance (stmt : RejectWaiting) (o : Offer) : Decidable (stmt.Selects o) :=
  inferInstanceAs (Decidable (_ ∧ _ ∧ _))

/-- The statement on one row. -/
def row (stmt : RejectWaiting) (utcnow : DateTime) (o : Offer) : Offer :=
  if stmt.Selects o then { o with status := .rejected, updatedAt := utcnow } else o

end RejectWaiting

/-- The `DELETE`s of a withdrawal. -/
structure Purge where
  userId : UserId
  phone : Option String
  deriving DecidableEq, Repr

/-- What a call will write. -/
structure UnitOfWork where
  rejectWaiting : Option RejectWaiting := none
  /-- `UPDATE users SET level = level + 1 WHERE id = ...`. -/
  levelUp : Option UserId := none
  purge : Option Purge := none
  newProposal : Option Proposal := none
  newOffer : Option Offer := none
  newEvidence : Option DisputeEvidence := none
  newReport : Option ProposalReport := none
  proposals : List (Change Proposal) := []
  /-- `update_proposal` has assigned the deadline. -/
  deadlineAssigned : Bool := false
  offers : List (Change Offer) := []
  reports : List (Change ProposalReport) := []
  users : List (Change User) := []
  /-- The event published after the flush, which has given a new offer its key. -/
  event : Option (ℕ → DomainEvent) := none

namespace UnitOfWork

/-! ## One row -/

section Rows

variable (u : UnitOfWork) (utcnow : DateTime)

/-- The bulk rejection on one offer. -/
def rejectRow (o : Offer) : Offer :=
  match u.rejectWaiting with
  | none => o
  | some stmt => stmt.row utcnow o

/-- An offer after the commit: the bulk statement runs before the flush. -/
def offerRow (o : Offer) : Offer :=
  writeBack (fun loaded dirty row => Offer.flush loaded dirty utcnow row) u.offers
    (u.rejectRow utcnow o)

/-- A proposal after the commit. -/
def proposalRow (p : Proposal) : Proposal :=
  writeBack (fun loaded dirty row => Proposal.flush u.deadlineAssigned loaded dirty utcnow row)
    u.proposals p

/-- The level increment on one user. -/
def levelRow (user : User) : User :=
  if u.levelUp = some user.id then { user with level := user.level + 1 } else user

/-- A user after the commit. -/
def userRow (user : User) : User := writeBack User.flush u.users (u.levelRow user)

/-- A report after the commit. -/
def reportRow (r : ProposalReport) : ProposalReport := writeBack ProposalReport.flush u.reports r

theorem rejectRow_cases (o : Offer) : u.rejectRow utcnow o = o ∨
    o.status = .waiting ∧
      u.rejectRow utcnow o = { o with status := .rejected, updatedAt := utcnow } := by
  unfold rejectRow
  split
  · exact Or.inl rfl
  · next stmt _ =>
      unfold RejectWaiting.row
      by_cases h : stmt.Selects o
      · rw [if_pos h]; exact Or.inr ⟨h.2.2, rfl⟩
      · rw [if_neg h]; exact Or.inl rfl

/-- The columns of an offer that no commit writes. -/
theorem offerRow_fixed (o : Offer) :
    (u.offerRow utcnow o).id = o.id ∧ (u.offerRow utcnow o).proposalId = o.proposalId ∧
      (u.offerRow utcnow o).runnerId = o.runnerId := by
  refine writeBack_induction (P := fun r : Offer => r.id = o.id ∧ r.proposalId = o.proposalId ∧
    r.runnerId = o.runnerId) ?_ ?_
  · rcases u.rejectRow_cases utcnow o with h | ⟨-, h⟩ <;> rw [h] <;> exact ⟨rfl, rfl, rfl⟩
  · intro c _ _
    have hrow : (u.rejectRow utcnow o).id = o.id ∧ (u.rejectRow utcnow o).proposalId = o.proposalId
        ∧ (u.rejectRow utcnow o).runnerId = o.runnerId := by
      rcases u.rejectRow_cases utcnow o with h | ⟨-, h⟩ <;> rw [h] <;> exact ⟨rfl, rfl, rfl⟩
    unfold Offer.flush
    split <;> exact hrow

@[simp] theorem offerRow_id (o : Offer) : (u.offerRow utcnow o).id = o.id :=
  (u.offerRow_fixed utcnow o).1

@[simp] theorem offerRow_proposalId (o : Offer) :
    (u.offerRow utcnow o).proposalId = o.proposalId :=
  (u.offerRow_fixed utcnow o).2.1

@[simp] theorem offerRow_runnerId (o : Offer) : (u.offerRow utcnow o).runnerId = o.runnerId :=
  (u.offerRow_fixed utcnow o).2.2

/-- The columns of a proposal that no commit writes. -/
theorem proposalRow_fixed (p : Proposal) :
    (u.proposalRow utcnow p).id = p.id ∧ (u.proposalRow utcnow p).ordererId = p.ordererId := by
  refine writeBack_induction (P := fun r : Proposal => r.id = p.id ∧ r.ordererId = p.ordererId)
    ⟨rfl, rfl⟩ ?_
  intro c _ _
  unfold Proposal.flush
  split <;> exact ⟨rfl, rfl⟩

@[simp] theorem proposalRow_id (p : Proposal) : (u.proposalRow utcnow p).id = p.id :=
  (u.proposalRow_fixed utcnow p).1

@[simp] theorem proposalRow_ordererId (p : Proposal) :
    (u.proposalRow utcnow p).ordererId = p.ordererId :=
  (u.proposalRow_fixed utcnow p).2

@[simp] theorem levelRow_id (user : User) : (u.levelRow user).id = user.id := by
  unfold levelRow
  split <;> rfl

@[simp] theorem userRow_id (user : User) : (u.userRow user).id = user.id :=
  writeBack_induction (P := fun r : User => r.id = user.id) (u.levelRow_id user)
    fun _ _ _ => u.levelRow_id user

/-- Only a bulk statement writes to a user who has not been loaded. -/
theorem userRow_of_ne {u : UnitOfWork} {user : User} (hne : ∀ c ∈ u.users, c.loaded.id ≠ user.id) :
    u.userRow user = u.levelRow user :=
  writeBack_of_notMem fun c hc hkey => hne c hc (hkey.trans (u.levelRow_id user))

@[simp] theorem reportRow_id (r : ProposalReport) : (u.reportRow r).id = r.id :=
  writeBack_induction (P := fun s : ProposalReport => s.id = r.id) rfl fun _ _ _ => rfl

/-- The level only moves by the increment. -/
theorem userRow_level (user : User) : (u.userRow user).level =
    user.level + if u.levelUp = some user.id then 1 else 0 := by
  refine writeBack_induction (P := fun r : User => r.level = user.level +
    if u.levelUp = some user.id then 1 else 0) ?_ ?_
  · unfold levelRow; split <;> rfl
  · intro _ _ _
    change (u.levelRow user).level = _
    unfold levelRow; split <;> rfl

end Rows

/-! ## The commit -/

section Write

variable (u : UnitOfWork) (utcnow : DateTime) (db : Db)

/-- The rows of a purged table that stay. -/
def keep {α : Type} [Keyed α ℕ] (t : AutoTable α) (gone : Purge → α → Bool) : AutoTable α :=
  match u.purge with
  | none => t
  | some purge => t.filter fun r => ! gone purge r

/-- The bulk statements and the flush. -/
def write : Db where
  users := db.users.map u.userRow u.userRow_id
  proposals := (db.proposals.map (u.proposalRow utcnow) (u.proposalRow_id utcnow)).add
    u.newProposal fun k p => { p with id := k, createdAt := utcnow, updatedAt := utcnow }
  offers := (db.offers.map (u.offerRow utcnow) (u.offerRow_id utcnow)).add
    u.newOffer fun k o => { o with id := k, createdAt := utcnow, updatedAt := utcnow }
  reports := (db.reports.map u.reportRow u.reportRow_id).add
    u.newReport fun k r => { r with id := k, createdAt := utcnow }
  reasonQuestions := db.reasonQuestions
  evidences := db.evidences.add u.newEvidence fun k e => { e with id := k, createdAt := utcnow }
  surveyQuestions := db.surveyQuestions
  notifications := u.keep db.notifications fun purge n => n.userId = purge.userId
  verifications := u.keep db.verifications fun purge v => some v.phone = purge.phone
  fcmTokens := u.keep db.fcmTokens fun purge t => t.userId = purge.userId
  settlementAccounts := u.keep db.settlementAccounts fun purge a => a.userId = purge.userId

/-- `uk_proposal_runner`: another offer of the same runner on the same proposal. -/
def OfferTaken : Prop :=
  ∃ new ∈ u.newOffer, ∃ o ∈ db.offers.rows, o.proposalId = new.proposalId ∧
    o.runnerId = new.runnerId

/-- `uk_proposal_reports_proposal_reporter`: another report by the same reporter
on the same proposal. -/
def ReportTaken : Prop :=
  ∃ new ∈ u.newReport, ∃ r ∈ db.reports.rows, r.proposalId = new.proposalId ∧
    r.reporterId = new.reporterId

instance : Decidable (u.OfferTaken db) := by
  unfold OfferTaken
  cases u.newOffer with
  | none => exact isFalse (by simp)
  | some new =>
      exact decidable_of_iff (∃ o ∈ db.offers.rows, o.proposalId = new.proposalId ∧
        o.runnerId = new.runnerId) (by simp)

instance : Decidable (u.ReportTaken db) := by
  unfold ReportTaken
  cases u.newReport with
  | none => exact isFalse (by simp)
  | some new =>
      exact decidable_of_iff (∃ r ∈ db.reports.rows, r.proposalId = new.proposalId ∧
        r.reporterId = new.reporterId) (by simp)

/-- The handlers of the event, if the unit publishes one. -/
def publish (bus : EventBus) (newOfferId : ℕ) (db : Db) : Db :=
  match u.event with
  | none => db
  | some event => bus.publish (event newOfferId) utcnow db

/-- What the handlers of the event add. -/
def drafts (bus : EventBus) (newOfferId : ℕ) (users : Table User) : List Notification :=
  match u.event with
  | none => []
  | some event => bus.drafts (event newOfferId) users

/-- The whole transaction: bulk statements, flush, handlers, commit. -/
def commit (bus : EventBus) : Except Failure Db := do
  raiseIf (u.OfferTaken db) (.integrityError "uk_proposal_runner")
  raiseIf (u.ReportTaken db) (.integrityError "uk_proposal_reports_proposal_reporter")
  return u.publish utcnow bus db.offers.next (u.write utcnow db)

end Write

section Spec

variable {u : UnitOfWork} {utcnow : DateTime} {db db' : Db} {bus : EventBus}

theorem mem_proposals_write {p' : Proposal} : p' ∈ (u.write utcnow db).proposals ↔
    (∃ p ∈ db.proposals, u.proposalRow utcnow p = p') ∨
      ∃ p, u.newProposal = some p ∧
        p' = { p with id := db.proposals.next, createdAt := utcnow, updatedAt := utcnow } := by
  unfold write
  rw [AutoTable.mem_add, AutoTable.mem_map]
  rfl

theorem mem_offers_write {o' : Offer} : o' ∈ (u.write utcnow db).offers ↔
    (∃ o ∈ db.offers, u.offerRow utcnow o = o') ∨
      ∃ o, u.newOffer = some o ∧
        o' = { o with id := db.offers.next, createdAt := utcnow, updatedAt := utcnow } := by
  unfold write
  rw [AutoTable.mem_add, AutoTable.mem_map]
  rfl

theorem mem_reports_write {r' : ProposalReport} : r' ∈ (u.write utcnow db).reports ↔
    (∃ r ∈ db.reports, u.reportRow r = r') ∨
      ∃ r, u.newReport = some r ∧ r' = { r with id := db.reports.next, createdAt := utcnow } := by
  unfold write
  rw [AutoTable.mem_add, AutoTable.mem_map]
  rfl

theorem mem_evidences_write {e' : DisputeEvidence} : e' ∈ (u.write utcnow db).evidences ↔
    e' ∈ db.evidences ∨
      ∃ e, u.newEvidence = some e ∧
        e' = { e with id := db.evidences.next, createdAt := utcnow } := by
  unfold write
  rw [AutoTable.mem_add]

theorem mem_users_write {v : User} : v ∈ (u.write utcnow db).users ↔
    ∃ user ∈ db.users, u.userRow user = v :=
  List.mem_map

/-- **What a commit leaves behind.**  The lifecycle tables are those of `write`;
publishing the event does not touch them. -/
theorem commit_eq_ok (h : u.commit utcnow db bus = .ok db') :
    ¬ u.OfferTaken db ∧ ¬ u.ReportTaken db ∧
      db'.users = (u.write utcnow db).users ∧
      db'.proposals = (u.write utcnow db).proposals ∧
      db'.offers = (u.write utcnow db).offers := by
  simp only [commit, bind_eq_ok, raiseIf_eq_ok, pure_eq_ok] at h
  obtain ⟨-, ho, -, hr, rfl⟩ := h
  refine ⟨ho, hr, ?_⟩
  unfold publish
  cases u.event with
  | none => exact ⟨rfl, rfl, rfl⟩
  | some event => exact ⟨rfl, rfl, rfl⟩

/-- A unit that inserts neither an offer nor a report goes through. -/
theorem commit_of_none (ho : u.newOffer = none) (hr : u.newReport = none) (utcnow : DateTime)
    (db : Db) (bus : EventBus) : ∃ db', u.commit utcnow db bus = .ok db' := by
  have hoffer : ¬ u.OfferTaken db := by simp [OfferTaken, ho]
  have hreport : ¬ u.ReportTaken db := by simp [ReportTaken, hr]
  simp [commit, hoffer, hreport]

/-- Publishing the event adds notifications, and nothing else. -/
theorem commit_same (h : u.commit utcnow db bus = .ok db') :
    ∃ notifications, db' = { u.write utcnow db with notifications := notifications } := by
  simp only [commit, bind_eq_ok, raiseIf_eq_ok, pure_eq_ok] at h
  obtain ⟨-, -, -, -, rfl⟩ := h
  unfold publish
  cases u.event with
  | none => exact ⟨_, rfl⟩
  | some event => exact ⟨_, rfl⟩

/-- A row that is kept was there, and is not purged. -/
theorem mem_keep {α : Type} [Keyed α ℕ] {t : AutoTable α} {gone : Purge → α → Bool} {r : α} :
    r ∈ u.keep t gone ↔ r ∈ t ∧ ∀ purge, u.purge = some purge → gone purge r = false := by
  unfold keep
  cases u.purge with
  | none => simp
  | some purge => simp

/-- **The notifications after a commit**: those that are kept, and what the handlers have
added. -/
theorem notifications_commit (h : u.commit utcnow db bus = .ok db') :
    db'.notifications.rows = (u.write utcnow db).notifications.rows ++
        (u.drafts bus db.offers.next db'.users).mapIdx (fun i draft =>
          { draft with id := db.notifications.next + i, createdAt := utcnow }) ∧
      db'.notifications.next =
        db.notifications.next + (u.drafts bus db.offers.next db'.users).length := by
  have hnext : (u.write utcnow db).notifications.next = db.notifications.next := by
    unfold write keep
    cases u.purge <;> rfl
  simp only [commit, bind_eq_ok, raiseIf_eq_ok, pure_eq_ok] at h
  obtain ⟨-, -, -, -, rfl⟩ := h
  unfold publish drafts
  cases u.event with
  | none => simp [hnext]
  | some event =>
      rw [← hnext]
      exact bus.notifications_publish (event db.offers.next) utcnow (u.write utcnow db)

theorem drafts_of_event {event : ℕ → DomainEvent} (h : u.event = some event) (k : ℕ)
    (users : Table User) : u.drafts bus k users = bus.drafts (event k) users := by
  unfold drafts
  rw [h]

theorem drafts_of_none (h : u.event = none) (k : ℕ) (users : Table User) :
    u.drafts bus k users = [] := by
  unfold drafts
  rw [h]

/-- What the handlers add is committed. -/
theorem mem_of_mem_drafts (h : u.commit utcnow db bus = .ok db') {draft : Notification}
    (hdraft : draft ∈ u.drafts bus db.offers.next db'.users) :
    ∃ k, { draft with id := k, createdAt := utcnow } ∈ db'.notifications := by
  obtain ⟨i, hi, rfl⟩ := List.mem_iff_getElem.1 hdraft
  refine ⟨db.notifications.next + i, ?_⟩
  rw [AutoTable.mem_iff, (notifications_commit h).1]
  exact List.mem_append_right _ (List.mem_mapIdx.2 ⟨i, hi, rfl⟩)

/-- What the handlers add is for users who want notifications. -/
theorem alarm_of_mem_drafts {k : ℕ} {users : Table User} {n : Notification}
    (h : n ∈ u.drafts bus k users) : alarmEnabled users n.userId = true := by
  cases he : u.event with
  | none =>
      rw [drafts_of_none he] at h
      exact absurd h List.not_mem_nil
  | some event =>
      rw [drafts_of_event he] at h
      exact EventBus.alarm_of_mem_drafts h

/-- A notification after a commit was there before, or is for a user who wants it. -/
theorem mem_notifications_commit (h : u.commit utcnow db bus = .ok db') {n : Notification}
    (hn : n ∈ db'.notifications) :
    n ∈ (u.write utcnow db).notifications ∨ alarmEnabled db'.users n.userId = true := by
  rw [AutoTable.mem_iff, (notifications_commit h).1] at hn
  rcases List.mem_append.1 hn with hn | hn
  · exact Or.inl hn
  · obtain ⟨i, hi, rfl⟩ := List.mem_mapIdx.1 hn
    have halarm := alarm_of_mem_drafts (List.getElem_mem hi)
    exact Or.inr halarm

/-- A commit removes no proposal and no offer. -/
theorem extends_commit (h : u.commit utcnow db bus = .ok db') : db.Extends db' := by
  obtain ⟨-, -, -, hprops, hoffers⟩ := commit_eq_ok h
  constructor
  · intro p hp
    rw [hprops]
    exact ⟨u.proposalRow utcnow p, mem_proposals_write.2 (Or.inl ⟨p, hp, rfl⟩),
      u.proposalRow_id utcnow p, u.proposalRow_ordererId utcnow p⟩
  · intro o ho
    rw [hoffers]
    exact ⟨u.offerRow utcnow o, mem_offers_write.2 (Or.inl ⟨o, ho, rfl⟩),
      u.offerRow_id utcnow o, u.offerRow_proposalId utcnow o, u.offerRow_runnerId utcnow o⟩

end Spec

end UnitOfWork
end OrderRun
