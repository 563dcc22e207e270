import OrderRun.Services.Proposal

/-!
# Searching proposals

`ProposalService.search_proposals`: the public list of errands, page by page.

* `PageResponse` — a page of results (`app/schemas/common.py`).
* `searchProposals` — the query; `public_of_mem_search`: it lists open errands only.
-/

namespace OrderRun

open Store

/-- A page of results. -/
structure PageResponse (α : Type*) where
  content : List α
  totalElements : ℕ
  totalPages : ℕ
  pageNumber : ℕ
  pageSize : ℕ
  first : Bool
  last : Bool
  deriving Repr

/-- The router admits no negative page number and no empty page. -/
def PageResponse.of {α : Type*} (content : List α) (pageNumber pageSize totalElements : ℕ) :
    PageResponse α :=
  let totalPages := if 0 < pageSize ∧ 0 < totalElements then
    (totalElements + pageSize - 1) / pageSize else 0
  { content
    totalElements
    totalPages
    pageNumber
    pageSize
    first := pageNumber = 0
    last := totalPages = 0 ∨ totalPages - 1 ≤ pageNumber }

namespace ProposalService

def PUBLIC_PROPOSAL_STATUSES : List ProposalStatus := [.posted, .offered]

/-- The filter of a request; an empty list of statuses does not filter. -/
def Requested (proposalStatuses : Option (List ProposalStatus)) (status : ProposalStatus) : Bool :=
  match proposalStatuses with
  | none | some [] => true
  | some statuses => status ∈ statuses

/-- `ORDER BY deadline ASC, created_at DESC, id DESC`. -/
def soonestFirst (p q : Proposal) : Bool :=
  p.deadline < q.deadline ∨ p.deadline = q.deadline ∧ latestFirst Proposal.createdAt p q

def searchProposals (db : Db) (proposalStatuses : Option (List ProposalStatus)) (page size : ℕ) :
    PageResponse Proposal :=
  let rows := db.proposals.select
    (fun p => p.status ∈ PUBLIC_PROPOSAL_STATUSES ∧ Requested proposalStatuses p.status)
    soonestFirst
  .of ((rows.drop (page * size)).take size) page size rows.length

/-- **The search lists open errands only.** -/
theorem public_of_mem_search {db : Db} {proposalStatuses : Option (List ProposalStatus)}
    {page size : ℕ} {p : Proposal}
    (h : p ∈ (searchProposals db proposalStatuses page size).content) :
    p ∈ db.proposals ∧ (p.status = .posted ∨ p.status = .offered) := by
  have hrow := List.mem_of_mem_drop (List.mem_of_mem_take h)
  obtain ⟨hp, hselected⟩ := Table.mem_select.1 hrow
  have hpublic := (of_decide_eq_true hselected).1
  exact ⟨hp, by simpa [PUBLIC_PROPOSAL_STATUSES] using hpublic⟩

end ProposalService
end OrderRun
