import OrderRun.Queries.Search
import OrderRun.Queries.Detail
import OrderRun.Services.ProposalReport
import OrderRun.Lib.Pages

/-!
# Listings

The other queries that list rows: the errands of an orderer with their offers, the offers of
a runner, the offers of an errand, and the reports.

* `ProposalService.searchOwnerProposals` — one query for all the offers of a page, which
  `Grouped` sorts by errand again, and one for all its people.
* `OfferService.searchRunnerOffers`, `OfferService.findOffersByProposal` — one query for the
  people of each offer.
* `ProposalReportService.listReports` — the reports, joined with their questions.
* `keyOrder_soonestFirst`, `keyOrder_oldestFirst` — no listing leaves its order to the
  database.
-/

namespace OrderRun

open Store Pages

/-! ## The errands of an orderer -/

structure ProposalOwnResponse where
  id : ℕ
  ordererId : UserId
  ordererName : String
  ordererLevel : ℕ
  title : String
  content : String
  deadline : DateTime
  errandFee : ℤ
  status : ProposalStatus
  offerCount : ℕ
  offers : List ProposalOwnOfferResponse
  createdAt : DateTime
  updatedAt : DateTime
  deriving DecidableEq, Repr

namespace ProposalService

/-- The dictionary `offers_by_proposal` and the list `user_ids`, while the offers of a page are
gone through. -/
structure Grouped where
  offersByProposal : ℕ → Option (List Offer)
  userIds : List UserId

/-- `offers_by_proposal.setdefault(...).append(offer)`, and `user_ids.append(...)`. -/
def Grouped.append (g : Grouped) (offer : Offer) : Grouped where
  offersByProposal id :=
    if id = offer.proposalId then some ((g.offersByProposal id).getD [] ++ [offer])
    else g.offersByProposal id
  userIds := g.userIds ++ [offer.runnerId]

/-- Every errand of the page, without offers. -/
def Grouped.start (proposals : List Proposal) : Grouped where
  offersByProposal id := if id ∈ proposals.map (·.id) then some [] else none
  userIds := proposals.map (·.ordererId)

/-- An offer in the listing of an orderer. -/
def toOwnOffer (profiles : UserId → Option (String × ℕ)) (offer : Offer) :
    ProposalOwnOfferResponse where
  id := offer.id
  proposalId := offer.proposalId
  runnerId := offer.runnerId
  runnerName := ((profiles offer.runnerId).getD ("", 0)).1
  runnerLevel := ((profiles offer.runnerId).getD ("", 0)).2
  status := offer.status
  createdAt := offer.createdAt

def toOwnResponse (profiles : UserId → Option (String × ℕ)) (offers : List Offer)
    (proposal : Proposal) : ProposalOwnResponse where
  id := proposal.id
  ordererId := proposal.ordererId
  ordererName := ((profiles proposal.ordererId).getD ("", 0)).1
  ordererLevel := ((profiles proposal.ordererId).getD ("", 0)).2
  title := proposal.title
  content := proposal.content
  deadline := proposal.deadline
  errandFee := proposal.errandFee
  status := proposal.status
  offerCount := offers.length
  offers := offers.map (toOwnOffer profiles)
  createdAt := proposal.createdAt
  updatedAt := proposal.updatedAt

/-- The offers of the errands of a page; without errands nothing is queried. -/
def offersOfPage (db : Db) (proposals : List Proposal) : List Offer :=
  match proposals with
  | [] => []
  | _ => db.offers.select (fun o => o.proposalId ∈ proposals.map (·.id))
      (latestFirst Offer.createdAt)

/-- The entries of a page. -/
def ownResponses (db : Db) (proposals : List Proposal) : List ProposalOwnResponse :=
  let grouped := (offersOfPage db proposals).foldl Grouped.append (Grouped.start proposals)
  let profiles := userProfiles db grouped.userIds
  proposals.map fun proposal =>
    toOwnResponse profiles ((grouped.offersByProposal proposal.id).getD []) proposal

def searchOwnerProposals (db : Db) (userId : UserId)
    (proposalStatuses : Option (List ProposalStatus)) (page size : ℕ) :
    PageResponse ProposalOwnResponse :=
  let rows := db.proposals.select
    (fun p => p.ordererId = userId ∧ Requested proposalStatuses p.status) soonestFirst
  .of (ownResponses db ((rows.drop (page * size)).take size)) page size rows.length

theorem soonestFirst_iff {p q : Proposal} : soonestFirst p q = true ↔
    p.deadline < q.deadline ∨
      p.deadline = q.deadline ∧ latestFirst Proposal.createdAt p q = true := by
  simp [soonestFirst]

theorem keyOrder_soonestFirst : KeyOrder soonestFirst := by
  refine .of_le (fun p : Proposal => toLex (p.deadline,
    toLex (OrderDual.toDual p.createdAt, OrderDual.toDual p.id))) (fun p q => ?_) fun p q h => ?_
  · rw [soonestFirst_iff, latestFirst_iff, Prod.Lex.toLex_le_toLex, Prod.Lex.toLex_le_toLex]
    exact or_congr_right (and_congr_right fun _ =>
      or_congr_right (and_congr_left fun _ => eq_comm))
  · have hrest := toLex_inj.1 (congrArg Prod.snd (toLex_inj.1 h))
    exact congrArg OrderDual.ofDual (congrArg Prod.snd hrest)

end ProposalService

/-! ## The offers of a runner and of an errand -/

namespace OfferService

/-- The filter of a request; an empty list of statuses does not filter. -/
def Requested (offerStatuses : Option (List OfferStatus)) (status : OfferStatus) : Bool :=
  match offerStatuses with
  | none | some [] => true
  | some statuses => status ∈ statuses

/-- A response that cannot be put together fails the request. -/
def searchRunnerOffers (db : Db) (runnerId : UserId) (offerStatuses : Option (List OfferStatus))
    (page size : ℕ) : Except Failure (PageResponse OfferResponse) := do
  let rows := db.offers.select
    (fun o => o.runnerId = runnerId ∧ Requested offerStatuses o.status)
    (latestFirst Offer.createdAt)
  let content ← ((rows.drop (page * size)).take size).mapM (responseFields db)
  return .of content page size rows.length

/-- The columns of an `OfferSummaryResponse` are those of an `OfferResponse`. -/
def findOffersByProposal (db : Db) (proposalId : ℕ)
    (offerStatuses : Option (List OfferStatus)) : Except Failure (List OfferResponse) := do
  let _ ← getProposal db proposalId
  let offers := db.offers.select
    (fun o => o.proposalId = proposalId ∧ Requested offerStatuses o.status)
    (latestFirst Offer.createdAt)
  offers.mapM (responseFields db)

end OfferService

/-! ## Reports -/

namespace ProposalReportService

/-- `ORDER BY created_at ASC, id ASC`. -/
def oldestFirst (r s : ProposalReport) : Bool :=
  r.createdAt < s.createdAt ∨ r.createdAt = s.createdAt ∧ r.id ≤ s.id

theorem keyOrder_oldestFirst : KeyOrder oldestFirst := by
  refine .of_le (fun r : ProposalReport => toLex (r.createdAt, r.id)) (fun r s => ?_)
    fun r s h => congrArg Prod.snd (toLex_inj.1 h)
  rw [Prod.Lex.toLex_le_toLex]
  exact decide_eq_true_iff

/-- The reports with the texts of their questions: an inner join. -/
def joined (db : Db) (reportStatus : Option ProposalReportStatus) :
    List (ProposalReport × String) :=
  (db.reports.rows.filter fun r => ∀ status, reportStatus = some status → r.status = status).flatMap
    fun report => (db.reasonQuestions.rows.filter fun q => report.reasonQuestionId = q.id).map
      fun question => (report, question.questionText)

def listReports (db : Db) (reportStatus : Option ProposalReportStatus) (page size : ℕ) :
    PageResponse ProposalReportResponse :=
  let rows := (joined db reportStatus).insertionSort fun r s => oldestFirst r.1 s.1 = true
  .of (((rows.drop (page * size)).take size).map fun row => toResponse row.1 row.2) page size
    rows.length

end ProposalReportService
end OrderRun
