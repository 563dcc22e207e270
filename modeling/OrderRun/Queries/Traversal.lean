import OrderRun.Queries.People
import OrderRun.Application.Deals

/-!
# Going through the pages

Every listing answers with one window of the rows it has selected, with how many rows and
pages there are, and with two marks for the first page and the last.

* `Traverses` — what a reader relies on who goes through the pages.
* `traverses_of` — windows of one list are gone through like that.
* `listReports_eq` — the join of the reports with their questions, as a list of reports.
* `listings_traverse` — all four listings; `listings_not_traverse` — an offer without an errand.
* `shown_of_owned` — an offer can be shown together with its errand.
-/

namespace OrderRun

open Store Pages

/-! ## One listing -/

/-- Going through the pages of a listing: the pages show the rows, in order and once each;
there is nothing beyond them; and whoever reads on until a page is marked as the last has
seen everything. -/
structure Traverses {α : Type*} (rows : List α) (size : ℕ) (fetch : ℕ → PageResponse α) :
    Prop where
  totalElements : ∀ page, (fetch page).totalElements = rows.length
  totalPages : ∀ page, (fetch page).totalPages = ⌈(rows.length : ℚ) / size⌉₊
  content : (List.range ⌈(rows.length : ℚ) / size⌉₊).flatMap (fun page => (fetch page).content) =
    rows
  beyond : ∀ page, ⌈(rows.length : ℚ) / size⌉₊ ≤ page → (fetch page).content = []
  walked : ∀ fuel, ⌈(rows.length : ℚ) / size⌉₊ < fuel →
    walk (fun page => ((fetch page).content, (fetch page).last)) fuel 0 = some rows
  first : ∀ page, (fetch page).first = true ↔ page = 0

section Pages

variable {α : Type*} {size : ℕ}

theorem totalPages_of (content : List α) (page total : ℕ) (hsize : 0 < size) :
    (PageResponse.of content page size total).totalPages = pageCount total size := by
  unfold PageResponse.of pageCount
  dsimp only
  by_cases htotal : 0 < total
  · rw [if_pos ⟨hsize, htotal⟩]
  · obtain rfl : total = 0 := by omega
    rw [if_neg fun h => htotal h.2, Nat.div_eq_of_lt (by omega)]

theorem last_of (content : List α) (page total : ℕ) (hsize : 0 < size) :
    (PageResponse.of content page size total).last = true ↔ pageCount total size ≤ page + 1 := by
  have hpages := totalPages_of content page total hsize
  have hlast : (PageResponse.of content page size total).last = true ↔
      (PageResponse.of content page size total).totalPages = 0 ∨
        (PageResponse.of content page size total).totalPages - 1 ≤ page :=
    decide_eq_true_iff
  rw [hlast, hpages]
  omega

/-- **Windows of one list** are gone through. -/
theorem traverses_of {rows : List α} {fetch : ℕ → PageResponse α} (hsize : 0 < size)
    (h : ∀ page, fetch page = .of (window rows size page) page size rows.length) :
    Traverses rows size fetch := by
  obtain rfl : fetch = fun page => .of (window rows size page) page size rows.length := funext h
  have hceil := pageCount_eq_ceil rows.length hsize
  refine ⟨fun _ => rfl, fun page => ?_, ?_, fun page hpage => ?_, fun fuel hfuel => ?_,
    fun page => decide_eq_true_iff⟩
  · rw [totalPages_of _ _ _ hsize, hceil]
  · rw [← hceil]
    exact flatMap_window_pageCount rows hsize
  · rw [← hceil, pageCount_le_iff hsize] at hpage
    exact window_eq_nil hpage
  · rw [← hceil] at hfuel
    have hwalk : walk (fun page => (window rows size page,
        (PageResponse.of (window rows size page) page size rows.length).last)) fuel 0 =
          some (rows.drop (0 * size)) :=
      walk_eq hsize (fun _ => rfl)
        (fun page => last_of (window rows size page) page rows.length hsize) (by omega)
        (Nat.zero_lt_of_lt hfuel)
    rwa [Nat.zero_mul, List.drop_zero] at hwalk

end Pages

/-! ## The reports -/

namespace ProposalReportService

variable {db : Db}

/-- The text of the question a report has chosen. -/
def questionText (db : Db) (report : ProposalReport) : Option String :=
  (db.reasonQuestions.find? report.reasonQuestionId).map (·.questionText)

/-- The reports a request asks for, and whose question exists. -/
def Listed (db : Db) (reportStatus : Option ProposalReportStatus) (report : ProposalReport) :
    Bool :=
  (∀ status, reportStatus = some status → report.status = status) ∧
    (questionText db report).isSome

/-- The question of a report joins it at most once. -/
theorem questions_eq (db : Db) (report : ProposalReport) :
    (db.reasonQuestions.rows.filter fun q => report.reasonQuestionId = q.id).map
      (fun question => (report, question.questionText)) =
        (questionText db report).toList.map (report, ·) := by
  have hkey : (db.reasonQuestions.rows.filter fun q => report.reasonQuestionId = q.id) =
      (db.reasonQuestions.find? report.reasonQuestionId).toList := by
    rw [AutoTable.find?, ← Table.filter_key_eq]
    exact List.filter_congr fun q _ => decide_eq_decide.2 eq_comm
  rw [hkey]
  unfold questionText
  cases db.reasonQuestions.find? report.reasonQuestionId <;> rfl

theorem joined_eq (db : Db) (reportStatus : Option ProposalReportStatus) :
    joined db reportStatus = (db.reports.rows.filter (Listed db reportStatus)).map
      fun r => (r, (questionText db r).getD "") := by
  unfold joined
  simp only [questions_eq]
  induction db.reports.rows with
  | nil => rfl
  | cons r rows ih =>
      by_cases hstatus : ∀ status, reportStatus = some status → r.status = status
      · rw [List.filter_cons, if_pos (decide_eq_true hstatus), List.flatMap_cons, ih]
        cases htext : questionText db r with
        | none =>
            have hnot : Listed db reportStatus r = false := by simp [Listed, htext]
            rw [List.filter_cons, hnot]
            rfl
        | some text =>
            have hlisted : Listed db reportStatus r = true := by
              simpa [Listed, htext] using hstatus
            rw [List.filter_cons, if_pos hlisted, List.map_cons, htext]
            rfl
      · have hnot : Listed db reportStatus r = false := by
          simp only [Listed, decide_eq_false_iff_not]
          exact fun h => hstatus h.1
        rw [List.filter_cons, if_neg (by simpa using hstatus), ih, List.filter_cons, hnot]
        rfl

/-- **The join as a list of reports.** -/
theorem listReports_eq (db : Db) (reportStatus : Option ProposalReportStatus) (page size : ℕ) :
    listReports db reportStatus page size =
      let rows := (db.reports.select (Listed db reportStatus) oldestFirst).map
        fun r => toResponse r ((questionText db r).getD "")
      .of (window rows size page) page size rows.length := by
  have hsort : (joined db reportStatus).insertionSort (fun r s => oldestFirst r.1 s.1 = true) =
      (db.reports.select (Listed db reportStatus) oldestFirst).map
        fun r => (r, (questionText db r).getD "") := by
    rw [joined_eq]
    exact (List.map_insertionSort (fun r s => oldestFirst r s = true)
      (fun r s : ProposalReport × String => oldestFirst r.1 s.1 = true) _ _
      fun _ _ _ _ => Iff.rfl).symm
  unfold listReports
  dsimp only
  rw [hsort, List.length_map, List.length_map, map_window]
  show PageResponse.of ((window _ size page).map _) _ _ _ = _
  rw [map_window, List.map_map]
  rfl

end ProposalReportService

/-! ## The offers of a runner -/

namespace OfferService

variable {db : Db}

theorem mapM_iff_forall₂ {α β : Type} {f : α → Except Failure β} {as : List α} {bs : List β} :
    as.mapM f = .ok bs ↔ List.Forall₂ (fun a b => f a = .ok b) as bs := by
  induction as generalizing bs with
  | nil => rw [List.mapM_nil, pure_eq_ok, List.forall₂_nil_left_iff, eq_comm]
  | cons a as ih =>
      simp only [List.mapM_cons, bind_eq_ok, pure_eq_ok, List.forall₂_cons_left_iff, ih]
      constructor
      · rintro ⟨b, hb, bs', hbs', rfl⟩
        exact ⟨b, bs', hb, hbs', rfl⟩
      · rintro ⟨b, bs', hb, hbs', rfl⟩
        exact ⟨b, hb, bs', hbs', rfl⟩

/-- Offers whose errands are in the database can all be shown. -/
theorem shown_of_owned {offers : List Offer} (hoffers : ∀ o ∈ offers, o ∈ db.offers)
    (howned : ∀ o ∈ offers, ∃ p ∈ db.proposals, p.id = o.proposalId) :
    ∃ responses, offers.mapM (responseFields db) = .ok responses := by
  induction offers with
  | nil => exact ⟨[], rfl⟩
  | cons o offers ih =>
      obtain ⟨p, hp, hid⟩ := howned o (by simp)
      obtain ⟨response, hresponse, -⟩ := responseFields_eq ⟨hp, hoffers o (by simp), hid.symm⟩
      obtain ⟨responses, hresponses⟩ := ih (fun x hx => hoffers x (List.mem_cons_of_mem o hx))
        fun x hx => howned x (List.mem_cons_of_mem o hx)
      rw [mapM_iff_forall₂] at hresponses
      exact ⟨response :: responses, mapM_iff_forall₂.2 (.cons hresponse hresponses)⟩

/-- A page of the offers, if all of them can be shown. -/
theorem searchRunnerOffers_eq {runnerId : UserId} {offerStatuses : Option (List OfferStatus)}
    {responses : List OfferResponse} (size page : ℕ)
    (h : (db.offers.select (fun o => o.runnerId = runnerId ∧ Requested offerStatuses o.status)
      (latestFirst Offer.createdAt)).mapM (responseFields db) = .ok responses) :
    searchRunnerOffers db runnerId offerStatuses page size =
      .ok (.of (window responses size page) page size responses.length) := by
  rw [mapM_iff_forall₂] at h
  have hwindow := mapM_iff_forall₂.2 (List.forall₂_take size (List.forall₂_drop (page * size) h))
  unfold searchRunnerOffers
  dsimp only
  rw [hwindow, h.length_eq]
  rfl

end OfferService

/-! ## All listings -/

/-- **Every listing can be gone through.**  `rows` are the selected rows in the order the query
declares.  An offer is shown together with its errand, which nothing declares but every
reachable database has. -/
theorem listings_traverse (db : Db) {size : ℕ} (hsize : 1 ≤ size) :
    (∀ proposalStatuses rows,
      Answer (db.proposals.rows.filter fun p =>
          p.status ∈ ProposalService.PUBLIC_PROPOSAL_STATUSES ∧
            ProposalService.Requested proposalStatuses p.status)
        (fun p q => ProposalService.soonestFirst p q = true) rows →
      Traverses rows size fun page =>
        ProposalService.searchProposals db proposalStatuses page size) ∧
    (∀ userId proposalStatuses rows,
      Answer (db.proposals.rows.filter fun p =>
          p.ordererId = userId ∧ ProposalService.Requested proposalStatuses p.status)
        (fun p q => ProposalService.soonestFirst p q = true) rows →
      Traverses (rows.map (ProposalService.ownResponse db)) size fun page =>
        ProposalService.searchOwnerProposals db userId proposalStatuses page size) ∧
    (∀ runnerId offerStatuses rows,
      Answer (db.offers.rows.filter fun o =>
          o.runnerId = runnerId ∧ OfferService.Requested offerStatuses o.status)
        (fun o x => latestFirst Offer.createdAt o x = true) rows →
      (∀ o ∈ rows, ∃ p ∈ db.proposals, p.id = o.proposalId) → ∃ responses fetch,
        rows.mapM (OfferService.responseFields db) = .ok responses ∧
        (∀ page, OfferService.searchRunnerOffers db runnerId offerStatuses page size =
          .ok (fetch page)) ∧
        Traverses responses size fetch) ∧
    (∀ settings bus m cs, (App.after settings bus m cs).db.Owned) ∧
    ∀ reportStatus rows,
      Answer (db.reports.rows.filter (ProposalReportService.Listed db reportStatus))
        (fun r s => ProposalReportService.oldestFirst r s = true) rows →
      Traverses (rows.map fun r => ProposalReportService.toResponse r
          ((ProposalReportService.questionText db r).getD "")) size fun page =>
        ProposalReportService.listReports db reportStatus page size := by
  refine ⟨?_, ?_, ?_, fun settings bus m cs => (App.traced_after m cs).owned, ?_⟩
  · intro proposalStatuses rows hrows
    obtain rfl := eq_select ProposalService.keyOrder_soonestFirst hrows
    exact traverses_of hsize fun page => rfl
  · intro userId proposalStatuses rows hrows
    obtain rfl := eq_select ProposalService.keyOrder_soonestFirst hrows
    refine traverses_of hsize fun page => ?_
    rw [map_window, ← ProposalService.ownResponses_eq, List.length_map]
    rfl
  · intro runnerId offerStatuses rows hrows howned
    obtain rfl := eq_select (keyOrder_latestFirst Offer.createdAt) hrows
    obtain ⟨responses, hresponses⟩ :=
      OfferService.shown_of_owned (fun o ho => (Table.mem_select.1 ho).1) howned
    exact ⟨responses, _, hresponses,
      fun page => OfferService.searchRunnerOffers_eq size page hresponses,
      traverses_of hsize fun page => rfl⟩
  · intro reportStatus rows hrows
    obtain rfl := eq_select ProposalReportService.keyOrder_oldestFirst hrows
    exact traverses_of hsize fun page =>
      ProposalReportService.listReports_eq db reportStatus page size

namespace Sample

/-- Three errands are posted and paid for, and a runner applies for each and reports it. -/
def board : Db := (App.after .sample bus master ([
  request 1 (.proposalCreate errand "orderer"),
  request 2 (.proposalCreate errand "orderer"),
  request 3 (.proposalCreate errand "orderer"),
  request 4 (.confirmPayment 1),
  request 5 (.confirmPayment 2),
  request 6 (.confirmPayment 3),
  request 7 (.offerCreate 1 "runner"),
  request 8 (.offerCreate 2 "runner"),
  request 9 (.offerCreate 3 "runner"),
  request 10 (.reportCreate 1 "runner" ⟨1, none⟩),
  request 11 (.reportCreate 2 "runner" ⟨1, none⟩),
  request 12 (.reportCreate 3 "runner" ⟨1, none⟩)].map .deal)).db

/-- An offer for an errand that is not there; `offers.proposal_id` has no foreign key. -/
def stray : Db :=
  let db := (World.initial master).db
  { db with offers := db.offers.insert fun id =>
    ⟨id, 1, "runner", .waiting, none, 0, none, none, none, none, none, 0⟩ }

end Sample

/-- Three errands on pages of two, in every listing. -/
theorem listings_traverse_two :
    ((ProposalService.searchProposals Sample.board none 1 2).content.map (·.id) = [1] ∧
      (ProposalService.searchOwnerProposals Sample.board "orderer" (some [.offered]) 1
        2).content.map (·.id) = [1] ∧
      (ProposalReportService.listReports Sample.board none 1 2).content.map (·.id) = [3] ∧
      Sample.board.offers.rows.length = 3) ∧
    Traverses (Sample.board.proposals.select (fun p =>
        p.status ∈ ProposalService.PUBLIC_PROPOSAL_STATUSES ∧
          ProposalService.Requested none p.status) ProposalService.soonestFirst) 2
      (fun page => ProposalService.searchProposals Sample.board none page 2) ∧
    Traverses ((Sample.board.proposals.select (fun p => p.ordererId = "orderer" ∧
          ProposalService.Requested (some [.offered]) p.status) ProposalService.soonestFirst).map
        (ProposalService.ownResponse Sample.board)) 2
      (fun page => ProposalService.searchOwnerProposals Sample.board "orderer" (some [.offered])
        page 2) ∧
    (∃ responses fetch,
      (Sample.board.offers.select (fun o => o.runnerId = "runner" ∧
          OfferService.Requested none o.status) (latestFirst Offer.createdAt)).mapM
        (OfferService.responseFields Sample.board) = .ok responses ∧
      (∀ page, OfferService.searchRunnerOffers Sample.board "runner" none page 2 =
        .ok (fetch page)) ∧
      Traverses responses 2 fetch) ∧
    Traverses ((Sample.board.reports.select (ProposalReportService.Listed Sample.board none)
          ProposalReportService.oldestFirst).map fun r => ProposalReportService.toResponse r
        ((ProposalReportService.questionText Sample.board r).getD "")) 2
      (fun page => ProposalReportService.listReports Sample.board none page 2) := by
  obtain ⟨hopen, hown, hoffers, -, hreports⟩ := @listings_traverse Sample.board 2 (by decide)
  refine ⟨by decide +kernel, ?_, ?_, ?_, ?_⟩
  · exact hopen none _ (answer_select ProposalService.keyOrder_soonestFirst _ _)
  · exact hown "orderer" (some [.offered]) _
      (answer_select ProposalService.keyOrder_soonestFirst _ _)
  · exact hoffers "runner" none _ (answer_select (keyOrder_latestFirst Offer.createdAt) _ _)
      (by decide +kernel)
  · exact hreports none _ (answer_select ProposalReportService.keyOrder_oldestFirst _ _)

/-- The page with an offer whose errand is not there fails. -/
theorem listings_not_traverse :
    ¬ ∀ rows, Answer (Sample.stray.offers.rows.filter fun o =>
          o.runnerId = "runner" ∧ OfferService.Requested none o.status)
        (fun o x => latestFirst Offer.createdAt o x = true) rows →
      ∃ responses fetch,
        rows.mapM (OfferService.responseFields Sample.stray) = .ok responses ∧
        (∀ page, OfferService.searchRunnerOffers Sample.stray "runner" none page 10 =
          .ok (fetch page)) ∧
        Traverses responses 10 fetch := by
  intro h
  obtain ⟨-, fetch, -, hfetch, -⟩ :=
    h _ (answer_select (keyOrder_latestFirst Offer.createdAt) _ _)
  have hfails : (OfferService.searchRunnerOffers Sample.stray "runner" none 0 10).isOk = false := by
    decide +kernel
  rw [hfetch 0] at hfails
  exact Bool.noConfusion hfails

end OrderRun
