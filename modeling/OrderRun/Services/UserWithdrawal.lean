import OrderRun.Services.ProposalReport

/-!
# User withdrawal

`app/services/user_auth/user_withdrawal_service.py`: a user without a running
errand leaves.  Everything the user still has open is cancelled object by
object, personal rows are deleted, and the user row is blanked.

The two loops over offers run in one session: an offer that the first loop has
cancelled is handed to the second one as the same object, already cancelled, and
cancelling it again raises.
-/

namespace OrderRun

open Store

namespace UserWithdrawalService

def WITHDRAWAL_BLOCKING_PROPOSAL_STATUSES : List ProposalStatus :=
  [.matched, .orderCompleted, .disputed]

def WITHDRAWAL_BLOCKING_OFFER_STATUSES : List OfferStatus :=
  [.accepted, .runnerCompleted, .disputed]

def WITHDRAWAL_AUTO_CANCEL_PROPOSAL_STATUSES : List ProposalStatus := [.holding, .posted, .offered]

def WITHDRAWAL_AUTO_CANCEL_OFFER_STATUSES : List OfferStatus := [.waiting]

def hasBlockingActivity (db : Db) (userId : UserId) : Bool :=
  (∃ p ∈ db.proposals.rows, p.ordererId = userId ∧
    p.status ∈ WITHDRAWAL_BLOCKING_PROPOSAL_STATUSES) ∨
  (∃ o ∈ db.offers.rows, o.runnerId = userId ∧ o.status ∈ WITHDRAWAL_BLOCKING_OFFER_STATUSES)

/-- The user's proposals that are not matched yet. -/
def openProposals (db : Db) (userId : UserId) : List Proposal :=
  db.proposals.rows.filter fun p =>
    p.ordererId = userId ∧ p.status ∈ WITHDRAWAL_AUTO_CANCEL_PROPOSAL_STATUSES

/-- The offers waiting on these proposals. -/
def waitingOffers (db : Db) (proposalIds : List ℕ) : List Offer :=
  db.offers.rows.filter fun o =>
    o.proposalId ∈ proposalIds ∧ o.status ∈ WITHDRAWAL_AUTO_CANCEL_OFFER_STATUSES

/-- The user's own waiting offers. -/
def runnerOffers (db : Db) (userId : UserId) : List Offer :=
  db.offers.rows.filter fun o =>
    o.runnerId = userId ∧ o.status ∈ WITHDRAWAL_AUTO_CANCEL_OFFER_STATUSES

/-- The object a query hands back for a row: the one the session already holds,
changes included, if it has loaded the row before. -/
def identityMap (session : List (Change Offer)) (o : Offer) : Offer :=
  match session.find? (fun c => c.loaded.id = o.id) with
  | none => o
  | some c => c.dirty

def autoCancelPreMatchActivity (db : Db) (userId : UserId) :
    Except Failure (List (Change Proposal) × List (Change Offer)) := do
  let proposals := openProposals db userId
  let waiting := waitingOffers db (proposals.map (·.id))
  let cancelledOffers ← waiting.mapM fun o => (⟨o, ·⟩) <$> o.cancel
  let cancelledProposals ← proposals.mapM fun p => (⟨p, ·⟩) <$> p.cancel
  let withdrawnOffers ← (runnerOffers db userId).mapM fun o =>
    (⟨o, ·⟩) <$> (identityMap cancelledOffers o).cancel
  return (cancelledProposals, cancelledOffers ++ withdrawnOffers)

def withdrawUser (db : Db) (userId : UserId) (now : Readings) : Except Failure UnitOfWork := do
  let freshUser ← ProposalService.getExistingUser db userId
  raiseIf (hasBlockingActivity db freshUser.id) (apiError .userWithdrawalBlocked)
  let (proposals, offers) ← autoCancelPreMatchActivity db freshUser.id
  return {
    purge := some ⟨freshUser.id, freshUser.phone⟩
    proposals := proposals
    offers := offers
    users := [⟨freshUser, freshUser.withdraw now.first⟩] }

/-! ## What a withdrawal writes -/

/-- A proposal and what the withdrawal makes of it. -/
def cancelledProposal (p : Proposal) : Change Proposal := ⟨p, { p with status := .cancelled }⟩

/-- An offer and what the withdrawal makes of it. -/
def cancelledOffer (o : Offer) : Change Offer := ⟨o, { o with status := .cancelled }⟩

theorem status_of_mem_openProposals {db : Db} {uid : UserId} {p : Proposal}
    (h : p ∈ openProposals db uid) : p.status ∈ [.holding, .posted, .offered] := by
  have hp := List.mem_filter.1 h
  simpa [WITHDRAWAL_AUTO_CANCEL_PROPOSAL_STATUSES] using (of_decide_eq_true hp.2).2

/-- The offers a withdrawal takes back are waiting. -/
theorem waiting_of_mem_withdrawn {db : Db} {uid : UserId} {pids : List ℕ} {o : Offer}
    (h : o ∈ waitingOffers db pids ++ runnerOffers db uid) :
    o ∈ db.offers ∧ o.status = .waiting := by
  have hselected : o ∈ db.offers.rows ∧ o.status ∈ WITHDRAWAL_AUTO_CANCEL_OFFER_STATUSES := by
    rcases List.mem_append.1 h with h | h
    · exact ⟨(List.mem_filter.1 h).1, (of_decide_eq_true (List.mem_filter.1 h).2).2⟩
    · exact ⟨(List.mem_filter.1 h).1, (of_decide_eq_true (List.mem_filter.1 h).2).2⟩
  exact ⟨hselected.1, List.mem_singleton.1 hselected.2⟩

/-- The first loop cannot raise: its query only returns waiting offers. -/
theorem mapM_cancel_waiting {db : Db} {pids : List ℕ} {cs : List (Change Offer)} :
    (waitingOffers db pids).mapM (fun o => (⟨o, ·⟩) <$> o.cancel) = .ok cs ↔
      (waitingOffers db pids).map cancelledOffer = cs := by
  rw [mapM_eq_ok (P := fun o => o.status = .waiting) (g := cancelledOffer)]
  · refine and_iff_right ?_
    intro o ho
    have h := of_decide_eq_true (List.mem_filter.1 ho).2
    simpa [WITHDRAWAL_AUTO_CANCEL_OFFER_STATUSES] using h.2
  · intro o c
    simp only [map_eq_ok, Offer.cancel_eq_ok, cancelledOffer]
    constructor
    · rintro ⟨_, ⟨h, rfl⟩, rfl⟩; exact ⟨h, rfl⟩
    · rintro ⟨h, rfl⟩; exact ⟨_, ⟨h, rfl⟩, rfl⟩

/-- Nor can the second: its query only returns proposals that may be cancelled. -/
theorem mapM_cancel_open {db : Db} {uid : UserId} {cs : List (Change Proposal)} :
    (openProposals db uid).mapM (fun p => (⟨p, ·⟩) <$> p.cancel) = .ok cs ↔
      (openProposals db uid).map cancelledProposal = cs := by
  rw [mapM_eq_ok (P := fun p => p.status ∈ [.holding, .posted, .offered])
    (g := cancelledProposal)]
  · exact and_iff_right fun p hp => status_of_mem_openProposals hp
  · intro p c
    simp only [map_eq_ok, Proposal.cancel_eq_ok, cancelledProposal]
    constructor
    · rintro ⟨_, ⟨h, rfl⟩, rfl⟩; exact ⟨h, rfl⟩
    · rintro ⟨h, rfl⟩; exact ⟨_, ⟨h, rfl⟩, rfl⟩

/-- The third one returns only if the first has not touched any of its offers. -/
theorem mapM_cancel_runner {os : List Offer} {waiting : List Offer} {cs : List (Change Offer)}
    (h : os.mapM (fun o => (⟨o, ·⟩) <$> (identityMap (waiting.map cancelledOffer) o).cancel)
      = .ok cs) : os.map cancelledOffer = cs := by
  rw [mapM_eq_ok (P := fun o => (identityMap (waiting.map cancelledOffer) o).status = .waiting)
    (g := fun o => ⟨o, { identityMap (waiting.map cancelledOffer) o with status := .cancelled }⟩)]
    at h
  · obtain ⟨hwaiting, rfl⟩ := h
    refine List.map_congr_left fun o ho => ?_
    have hw := hwaiting o ho
    unfold identityMap at hw ⊢
    cases hf : (waiting.map cancelledOffer).find? (fun c => c.loaded.id = o.id) with
    | none => rfl
    | some c =>
        -- the session holds the object, cancelled: the loop would have raised
        obtain ⟨x, -, rfl⟩ := List.mem_map.1 (List.mem_of_find?_eq_some hf)
        rw [hf] at hw
        exact absurd hw (by simp [cancelledOffer])
  · intro o c
    simp only [map_eq_ok, Offer.cancel_eq_ok]
    constructor
    · rintro ⟨_, ⟨h, rfl⟩, rfl⟩; exact ⟨h, rfl⟩
    · rintro ⟨h, rfl⟩; exact ⟨_, ⟨h, rfl⟩, rfl⟩

theorem withdrawUser_eq_ok {db : Db} {uid : UserId} {now : Readings} {u : UnitOfWork}
    (h : withdrawUser db uid now = .ok u) :
    ∃ user ∈ db.users, user.id = uid ∧ user.deleted = false ∧
      hasBlockingActivity db uid = false ∧
      u = {
        purge := some ⟨uid, user.phone⟩
        proposals := (openProposals db uid).map cancelledProposal
        offers := (waitingOffers db ((openProposals db uid).map (·.id)) ++
          runnerOffers db uid).map cancelledOffer
        users := [⟨user, user.withdraw now.first⟩] } := by
  simp only [withdrawUser, autoCancelPreMatchActivity, bind_eq_ok,
    ProposalService.getExistingUser_eq_ok, raiseIf_eq_ok, pure_eq_ok, mapM_cancel_waiting,
    mapM_cancel_open] at h
  obtain ⟨user, ⟨huser, rfl, hdel⟩, -, hblock, x, ⟨_, rfl, _, rfl, cs, hrunner, rfl⟩, rfl⟩ := h
  have hcs := mapM_cancel_runner hrunner
  refine ⟨user, huser, rfl, hdel, by simpa using hblock, ?_⟩
  rw [List.map_append, hcs]

/-! ## When a withdrawal goes through -/

/-- The user is in the middle of an errand. -/
def Busy (db : Db) (userId : UserId) : Prop :=
  (∃ p ∈ db.proposals, p.ordererId = userId ∧
    p.status ∈ [.matched, .orderCompleted, .disputed]) ∨
  ∃ o ∈ db.offers, o.runnerId = userId ∧ o.status ∈ [.accepted, .runnerCompleted, .disputed]

theorem hasBlockingActivity_iff {db : Db} {uid : UserId} :
    hasBlockingActivity db uid = true ↔ Busy db uid := by
  simp only [hasBlockingActivity, decide_eq_true_eq]
  rfl

/-- A user in the middle of an errand cannot leave. -/
theorem withdrawUser_of_busy {db : Db} {user : User} (huser : user ∈ db.users)
    (hactive : user.deleted = false) (hbusy : Busy db user.id) (now : Readings) :
    withdrawUser db user.id now = .error (apiError .userWithdrawalBlocked) := by
  have hfresh : ProposalService.getExistingUser db user.id = .ok user :=
    ProposalService.getExistingUser_eq_ok.2 ⟨huser, rfl, hactive⟩
  unfold withdrawUser
  rw [hfresh]
  show (raiseIf (hasBlockingActivity db user.id) (apiError .userWithdrawalBlocked) >>= _) = _
  rw [raiseIf, if_pos (hasBlockingActivity_iff.2 hbusy)]
  rfl

/-- An offer of the user is not among those waiting on the user's own errands, so the
session does not hold it yet. -/
theorem identityMap_of_noSelfOffer {db : Db} {uid : UserId} {o : Offer} (ho : o ∈ db.offers)
    (hrunner : o.runnerId = uid)
    (hself : ∀ p x, db.Pair p x → x.runnerId ≠ p.ordererId) :
    identityMap ((waitingOffers db ((openProposals db uid).map (·.id))).map cancelledOffer) o
      = o := by
  unfold identityMap
  cases hfind : ((waitingOffers db ((openProposals db uid).map (·.id))).map cancelledOffer).find?
    (fun c => c.loaded.id = o.id) with
  | none => rfl
  | some c =>
      exfalso
      obtain ⟨x, hx, rfl⟩ := List.mem_map.1 (List.mem_of_find?_eq_some hfind)
      have hfound := List.find?_some hfind
      have hid : x.id = o.id := of_decide_eq_true hfound
      obtain ⟨hmem, hselected⟩ := List.mem_filter.1 hx
      obtain rfl : x = o := AutoTable.eq_of_key_eq hmem ho hid
      obtain ⟨p, hp, hpid⟩ := List.mem_map.1 (of_decide_eq_true hselected).1
      obtain ⟨hpmem, hpselected⟩ := List.mem_filter.1 hp
      refine hself p x ⟨hpmem, hmem, hpid.symm⟩ ?_
      rw [hrunner, (of_decide_eq_true hpselected).1]

/-- The third loop, if the first has not touched any of its offers. -/
theorem mapM_cancel_of_same {session : List (Change Offer)} {os : List Offer}
    (h : ∀ o ∈ os, identityMap session o = o ∧ o.status = .waiting) :
    os.mapM (fun o => (⟨o, ·⟩) <$> (identityMap session o).cancel) =
      Except.ok (os.map cancelledOffer) := by
  induction os with
  | nil => rfl
  | cons o os ih =>
      obtain ⟨hsame, hwaiting⟩ := h o List.mem_cons_self
      have hcancel : o.cancel = .ok { o with status := .cancelled } :=
        Offer.cancel_eq_ok.2 ⟨hwaiting, rfl⟩
      rw [List.mapM_cons, ih fun x hx => h x (List.mem_cons_of_mem _ hx), hsame, hcancel]
      rfl

/-- **Everybody else can leave**: none of the three loops raises, although the second query
for offers does not see what the first loop has done. -/
theorem withdrawUser_of_free {db : Db} {user : User} (huser : user ∈ db.users)
    (hactive : user.deleted = false) (hfree : ¬ Busy db user.id)
    (hself : ∀ p o, db.Pair p o → o.runnerId ≠ p.ordererId) (now : Readings) :
    ∃ u, withdrawUser db user.id now = .ok u := by
  have hsame : ∀ o ∈ runnerOffers db user.id,
      identityMap ((waitingOffers db ((openProposals db user.id).map (·.id))).map
        cancelledOffer) o = o ∧ o.status = .waiting := by
    intro o ho
    obtain ⟨hmem, hselected⟩ := List.mem_filter.1 ho
    obtain ⟨hruns, hstatus⟩ := of_decide_eq_true hselected
    exact ⟨identityMap_of_noSelfOffer hmem hruns hself, List.mem_singleton.1 hstatus⟩
  have hrunner := mapM_cancel_of_same hsame
  have hfresh : ProposalService.getExistingUser db user.id = .ok user :=
    ProposalService.getExistingUser_eq_ok.2 ⟨huser, rfl, hactive⟩
  simp only [withdrawUser, autoCancelPreMatchActivity, bind_eq_ok, raiseIf_eq_ok, pure_eq_ok,
    mapM_cancel_waiting, mapM_cancel_open]
  exact ⟨_, user, hfresh, (), fun h => hfree (hasBlockingActivity_iff.1 h), _,
    ⟨_, rfl, _, rfl, _, hrunner, rfl⟩, rfl⟩

end UserWithdrawalService
end OrderRun
