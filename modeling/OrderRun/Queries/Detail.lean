import OrderRun.Services.Proposal

/-!
# The detail views

`ProposalService.get_proposal_detail` and `OfferService.get_offer_detail`: the two pages on
which the parties of a matched deal find the link of their chat.

* `ProposalService.getProposalDetail` — the page of a proposal, with its offers.
* `OfferService.getOfferDetail` — the page of an offer.
* `getProposalDetail_eq`, `getOfferDetail_eq` — the link on each of them.
-/

namespace OrderRun

open Store

/-- How a user is named, and the user's level; a user who has left is no longer named. -/
def profile (user : User) : String × ℕ :=
  (if user.deleted then "탈퇴한 사용자" else user.name.getD "", user.level)

/-! ## The page of an offer -/

/-- The columns of an offer that every offer response shows. -/
structure OfferResponse where
  id : ℕ
  proposalId : ℕ
  ordererId : UserId
  ordererName : String
  ordererLevel : ℕ
  runnerId : UserId
  runnerName : String
  runnerLevel : ℕ
  status : OfferStatus
  acceptedAt : Option DateTime
  runnerConfirmedAt : Option DateTime
  ordererConfirmedAt : Option DateTime
  disputedAt : Option DateTime
  resolvedAt : Option DateTime
  createdAt : DateTime
  deriving DecidableEq, Repr

structure OfferDetailResponse extends OfferResponse where
  openChatUrl : Option String
  deriving DecidableEq, Repr

namespace OfferService

def OPEN_CHAT_OFFER_STATUSES : List OfferStatus :=
  [.accepted, .runnerCompleted, .allCompleted, .disputed, .resolved]

def userProfile (db : Db) (userId : UserId) : String × ℕ :=
  match db.users.find? userId with
  | none => ("", 0)
  | some user => profile user

def responseFields (db : Db) (offer : Offer) : Except Failure OfferResponse := do
  let proposal ← getProposal db offer.proposalId
  let (ordererName, ordererLevel) := userProfile db proposal.ordererId
  let (runnerName, runnerLevel) := userProfile db offer.runnerId
  return {
    id := offer.id
    proposalId := offer.proposalId
    ordererId := proposal.ordererId
    ordererName
    ordererLevel
    runnerId := offer.runnerId
    runnerName
    runnerLevel
    status := offer.status
    acceptedAt := offer.acceptedAt
    runnerConfirmedAt := offer.runnerConfirmedAt
    ordererConfirmedAt := offer.ordererConfirmedAt
    disputedAt := offer.disputedAt
    resolvedAt := offer.resolvedAt
    createdAt := offer.createdAt }

def toDetailResponse (db : Db) (offer : Offer) (viewerId : UserId) :
    Except Failure OfferDetailResponse := do
  let fields ← responseFields db offer
  let openChatUrl := if offer.status ∈ OPEN_CHAT_OFFER_STATUSES ∧
      viewerId ∈ [fields.ordererId, offer.runnerId] then offer.openChatUrl else none
  return { fields with openChatUrl }

def getOfferDetail (db : Db) (offerId : ℕ) (viewerId : UserId) :
    Except Failure OfferDetailResponse := do
  let offer ← getOffer db offerId
  toDetailResponse db offer viewerId

end OfferService

/-! ## The page of a proposal -/

structure ProposalOwnOfferResponse where
  id : ℕ
  proposalId : ℕ
  runnerId : UserId
  runnerName : String
  runnerLevel : ℕ
  status : OfferStatus
  createdAt : DateTime
  deriving DecidableEq, Repr

structure ProposalDetailResponse where
  id : ℕ
  title : String
  content : String
  deadline : DateTime
  errandFee : ℤ
  ordererId : UserId
  ordererName : String
  ordererLevel : ℕ
  status : ProposalStatus
  matchedAt : Option DateTime
  runnerConfirmedAt : Option DateTime
  ordererConfirmedAt : Option DateTime
  disputedAt : Option DateTime
  resolvedAt : Option DateTime
  openChatUrl : Option String
  offers : List ProposalOwnOfferResponse
  deriving DecidableEq, Repr

namespace ProposalService

def OPEN_CHAT_PROPOSAL_STATUSES : List ProposalStatus :=
  [.matched, .orderCompleted, .allCompleted, .disputed, .resolved]

def OPEN_CHAT_OFFER_STATUSES : List OfferStatus :=
  [.accepted, .runnerCompleted, .allCompleted, .disputed, .resolved]

/-- `_user_profiles(...).get(...)`: what the dictionary for these users holds. -/
def userProfiles (db : Db) (userIds : List UserId) (userId : UserId) : Option (String × ℕ) :=
  if userId ∈ userIds then (db.users.find? userId).map profile else none

/-- The link on the page: that of the first offer that has been chosen. -/
def shownChatUrl (proposal : Proposal) (offers : List Offer) (viewerId : UserId) :
    Option String :=
  match offers.find? (fun o => o.status ∈ OPEN_CHAT_OFFER_STATUSES) with
  | none => none
  | some openChatOffer =>
      if proposal.status ∈ OPEN_CHAT_PROPOSAL_STATUSES ∧
        viewerId ∈ [proposal.ordererId, openChatOffer.runnerId] then openChatOffer.openChatUrl
      else none

/-- The offers of the page, latest first. -/
def offersShown (db : Db) (proposalId : ℕ) : List Offer :=
  db.offers.select (fun o => o.proposalId = proposalId) (latestFirst Offer.createdAt)

def toDetailResponse (db : Db) (proposal : Proposal) (offers : List Offer) (viewerId : UserId) :
    ProposalDetailResponse :=
  let profiles := userProfiles db (proposal.ordererId :: offers.map (·.runnerId))
  let (ordererName, ordererLevel) := (profiles proposal.ordererId).getD ("", 0)
  { id := proposal.id
    title := proposal.title
    content := proposal.content
    deadline := proposal.deadline
    errandFee := proposal.errandFee
    ordererId := proposal.ordererId
    ordererName
    ordererLevel
    status := proposal.status
    matchedAt := proposal.matchedAt
    runnerConfirmedAt := proposal.runnerConfirmedAt
    ordererConfirmedAt := proposal.ordererConfirmedAt
    disputedAt := proposal.disputedAt
    resolvedAt := proposal.resolvedAt
    openChatUrl := shownChatUrl proposal offers viewerId
    offers := offers.map fun offer => {
      id := offer.id
      proposalId := offer.proposalId
      runnerId := offer.runnerId
      runnerName := ((profiles offer.runnerId).getD ("", 0)).1
      runnerLevel := ((profiles offer.runnerId).getD ("", 0)).2
      status := offer.status
      createdAt := offer.createdAt } }

def getProposalDetail (db : Db) (proposalId : ℕ) (viewerId : UserId) :
    Except Failure ProposalDetailResponse := do
  let proposal ← getProposal db proposalId
  return toDetailResponse db proposal (offersShown db proposalId) viewerId

end ProposalService

/-! ## The link on the pages -/

section Spec

variable {db : Db} {p : Proposal} {o : Offer}

theorem mem_offersShown {pid : ℕ} : o ∈ ProposalService.offersShown db pid ↔
    o ∈ db.offers ∧ o.proposalId = pid := by
  unfold ProposalService.offersShown
  rw [Table.mem_select, decide_eq_true_iff]
  rfl

/-- The offer whose link is shown has been chosen. -/
theorem chosen_of_find {offers : List Offer}
    (h : offers.find? (fun o => o.status ∈ ProposalService.OPEN_CHAT_OFFER_STATUSES) = some o) :
    o ∈ offers ∧ o.status ∈ ProposalService.OPEN_CHAT_OFFER_STATUSES :=
  ⟨List.mem_of_find?_eq_some h, by simpa using List.find?_some h⟩

theorem shownChatUrl_of_none {offers : List Offer} {viewerId : UserId}
    (h : offers.find? (fun o => o.status ∈ ProposalService.OPEN_CHAT_OFFER_STATUSES) = none) :
    ProposalService.shownChatUrl p offers viewerId = none := by
  unfold ProposalService.shownChatUrl
  rw [h]

theorem shownChatUrl_of_some {offers : List Offer} {viewerId : UserId}
    (h : offers.find? (fun o => o.status ∈ ProposalService.OPEN_CHAT_OFFER_STATUSES) = some o) :
    ProposalService.shownChatUrl p offers viewerId =
      if p.status ∈ ProposalService.OPEN_CHAT_PROPOSAL_STATUSES ∧
        viewerId ∈ [p.ordererId, o.runnerId] then o.openChatUrl else none := by
  unfold ProposalService.shownChatUrl
  rw [h]

theorem getProposalDetail_eq (hp : p ∈ db.proposals) (viewerId : UserId) :
    ProposalService.getProposalDetail db p.id viewerId =
      .ok (ProposalService.toDetailResponse db p (ProposalService.offersShown db p.id)
        viewerId) := by
  unfold ProposalService.getProposalDetail
  rw [ProposalService.getProposal_eq_ok.2 ⟨hp, rfl⟩]
  rfl

/-- The page of an offer exists, and its link is the offer's own or nothing. -/
theorem getOfferDetail_eq (hpair : db.Pair p o) (viewerId : UserId) :
    ∃ response, OfferService.getOfferDetail db o.id viewerId = .ok response ∧
      response.openChatUrl = if o.status ∈ OfferService.OPEN_CHAT_OFFER_STATUSES ∧
        viewerId ∈ [p.ordererId, o.runnerId] then o.openChatUrl else none := by
  have hoffer : OfferService.getOffer db o.id = .ok o :=
    OfferService.getOffer_eq_ok.2 ⟨hpair.offer, rfl⟩
  have hproposal : OfferService.getProposal db o.proposalId = .ok p :=
    OfferService.getProposal_eq_ok.2 ⟨hpair.proposal, hpair.proposalId.symm⟩
  simp only [OfferService.getOfferDetail, OfferService.toDetailResponse,
    OfferService.responseFields, bind_eq_ok, pure_eq_ok]
  exact ⟨_, ⟨o, hoffer, _, ⟨p, hproposal, rfl⟩, rfl⟩, rfl⟩

end Spec

end OrderRun
