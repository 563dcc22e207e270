import OrderRun.Application.Command
import OrderRun.Queries.Listing

/-!
# The same offers, the same people

An errand is shown in the listing of its orderer, on its own page and through its offers.  The
listing loads the offers of a whole page at once and looks all the people up together; the
offers of an errand are shown with one lookup each.

* `offers_foldl`, `userIds_foldl` — what the grouping loop collects.
* `ownResponses_eq` — every entry of the listing is the entry the errand would have alone.
* `Named` — the name and the level that stand for a user.
* `ownerListing_agrees` — the three views agree.
-/

namespace OrderRun

open Store Pages

/-! ## The grouping loop -/

namespace ProposalService

variable {db : Db} {proposals : List Proposal} {p : Proposal}

theorem userIds_foldl (g : Grouped) (offers : List Offer) :
    (offers.foldl Grouped.append g).userIds = g.userIds ++ offers.map (·.runnerId) := by
  induction offers generalizing g with
  | nil => simp
  | cons o offers ih =>
      rw [List.foldl_cons, ih, List.map_cons]
      exact List.append_assoc _ _ _

/-- **The loop groups the offers by errand**, and keeps their order. -/
theorem offers_foldl (g : Grouped) (offers : List Offer) (id : ℕ) :
    ((offers.foldl Grouped.append g).offersByProposal id).getD [] =
      (g.offersByProposal id).getD [] ++ offers.filter fun o => o.proposalId = id := by
  induction offers generalizing g with
  | nil => simp
  | cons o offers ih =>
      rw [List.foldl_cons, ih]
      by_cases hid : o.proposalId = id
      · have happend : (g.append o).offersByProposal id =
            some ((g.offersByProposal id).getD [] ++ [o]) := if_pos hid.symm
        rw [happend, List.filter_cons, if_pos (decide_eq_true hid)]
        exact List.append_assoc _ _ _
      · have hskip : (g.append o).offersByProposal id = g.offersByProposal id :=
          if_neg (Ne.symm hid)
        rw [hskip, List.filter_cons, if_neg (by simpa using hid)]

theorem offersOfPage_eq (hp : p ∈ proposals) : offersOfPage db proposals =
    db.offers.select (fun o => o.proposalId ∈ proposals.map (·.id))
      (latestFirst Offer.createdAt) := by
  cases proposals with
  | nil => exact absurd hp List.not_mem_nil
  | cons q proposals => rfl

/-- The offers of the errand, out of those of the page. -/
theorem filter_offersOfPage (hp : p ∈ proposals) :
    ((offersOfPage db proposals).filter fun o => o.proposalId = p.id) = offersShown db p.id := by
  rw [offersOfPage_eq hp]
  refine filter_select (keyOrder_latestFirst Offer.createdAt) fun o ho => ?_
  rw [decide_eq_true_iff] at ho ⊢
  rw [ho]
  exact List.mem_map_of_mem hp

/-! ## One errand -/

/-- What a lookup of everybody says about a user. -/
def everybody (db : Db) (userId : UserId) : Option (String × ℕ) :=
  (db.users.find? userId).map profile

theorem userProfiles_eq (db : Db) {userIds : List UserId} {userId : UserId}
    (h : userId ∈ userIds) : userProfiles db userIds userId = everybody db userId := if_pos h

/-- The entry of an errand by itself. -/
def ownResponse (db : Db) (proposal : Proposal) : ProposalOwnResponse :=
  toOwnResponse (everybody db) (offersShown db proposal.id) proposal

theorem toOwnOffer_congr {profiles profiles' : UserId → Option (String × ℕ)} {o : Offer}
    (h : profiles o.runnerId = profiles' o.runnerId) :
    toOwnOffer profiles o = toOwnOffer profiles' o := by
  unfold toOwnOffer
  rw [h]

theorem toOwnResponse_congr {profiles profiles' : UserId → Option (String × ℕ)}
    {offers : List Offer} (hp : profiles p.ordererId = profiles' p.ordererId)
    (ho : ∀ o ∈ offers, profiles o.runnerId = profiles' o.runnerId) :
    toOwnResponse profiles offers p = toOwnResponse profiles' offers p := by
  have hoffers : offers.map (toOwnOffer profiles) = offers.map (toOwnOffer profiles') :=
    List.map_congr_left fun o h => toOwnOffer_congr (ho o h)
  unfold toOwnResponse
  rw [hp, hoffers]

/-- **The entries of a page** are those of its errands. -/
theorem ownResponses_eq (db : Db) (proposals : List Proposal) :
    ownResponses db proposals = proposals.map (ownResponse db) := by
  refine List.map_congr_left fun p hp => ?_
  have hstart : ((Grouped.start proposals).offersByProposal p.id).getD [] = [] := by
    have hmem : p.id ∈ proposals.map (·.id) := List.mem_map_of_mem hp
    show (if p.id ∈ proposals.map (·.id) then some [] else none).getD [] = ([] : List Offer)
    rw [if_pos hmem]
    rfl
  rw [offers_foldl, hstart, List.nil_append, filter_offersOfPage hp, userIds_foldl]
  refine toOwnResponse_congr (userProfiles_eq db ?_) fun o ho => userProfiles_eq db ?_
  · exact List.mem_append_left _ (List.mem_map_of_mem (f := fun q : Proposal => q.ordererId) hp)
  · rw [← filter_offersOfPage hp] at ho
    exact List.mem_append_right _ (List.mem_map_of_mem (List.mem_filter.1 ho).1)

theorem mem_searchOwnerProposals {userId : UserId}
    {proposalStatuses : Option (List ProposalStatus)} {page size : ℕ} {item : ProposalOwnResponse}
    (h : item ∈ (searchOwnerProposals db userId proposalStatuses page size).content) :
    ∃ p ∈ db.proposals, item = ownResponse db p := by
  have hmem : item ∈ ownResponses db _ := h
  rw [ownResponses_eq] at hmem
  obtain ⟨p, hp, rfl⟩ := List.mem_map.1 hmem
  exact ⟨p, (Table.mem_select.1 (List.mem_of_mem_drop (List.mem_of_mem_take hp))).1, rfl⟩

/-- The page of the errand. -/
theorem detail_agrees (hp : p ∈ db.proposals) (viewerId : UserId) : ∃ detail,
    getProposalDetail db p.id viewerId = .ok detail ∧
      detail.ordererId = (ownResponse db p).ordererId ∧
      detail.ordererName = (ownResponse db p).ordererName ∧
      detail.ordererLevel = (ownResponse db p).ordererLevel ∧
      detail.offers = (ownResponse db p).offers := by
  have hmem : p.ordererId ∈ p.ordererId :: (offersShown db p.id).map (·.runnerId) :=
    List.mem_cons_self
  have horderer := userProfiles_eq db hmem
  refine ⟨_, getProposalDetail_eq hp viewerId, rfl, ?_, ?_, ?_⟩
  · exact congrArg (fun x => (x.getD ("", 0)).1) horderer
  · exact congrArg (fun x => (x.getD ("", 0)).2) horderer
  · refine List.map_congr_left fun o ho => toOwnOffer_congr (userProfiles_eq db ?_)
    exact List.mem_cons_of_mem _ (List.mem_map_of_mem ho)

end ProposalService

/-! ## One lookup for each offer -/

/-- What the listing of an orderer shows of an offer response. -/
def OfferResponse.own (response : OfferResponse) : ProposalOwnOfferResponse where
  id := response.id
  proposalId := response.proposalId
  runnerId := response.runnerId
  runnerName := response.runnerName
  runnerLevel := response.runnerLevel
  status := response.status
  createdAt := response.createdAt

namespace OfferService

variable {db : Db} {p : Proposal} {o : Offer}

theorem userProfile_eq (db : Db) (userId : UserId) :
    userProfile db userId = (ProposalService.everybody db userId).getD ("", 0) := by
  unfold userProfile ProposalService.everybody
  cases db.users.find? userId <;> rfl

/-- The response about an offer whose errand is in the database. -/
theorem responseFields_eq (hpair : db.Pair p o) : ∃ response,
    responseFields db o = .ok response ∧
      response.own = ProposalService.toOwnOffer (ProposalService.everybody db) o ∧
      response.ordererId = p.ordererId ∧
      (response.ordererName, response.ordererLevel) = userProfile db p.ordererId := by
  have hproposal : getProposal db o.proposalId = .ok p :=
    getProposal_eq_ok.2 ⟨hpair.proposal, hpair.proposalId.symm⟩
  simp only [responseFields, bind_eq_ok, pure_eq_ok]
  refine ⟨_, ⟨p, hproposal, rfl⟩, ?_, rfl, rfl⟩
  unfold OfferResponse.own ProposalService.toOwnOffer
  dsimp only
  rw [userProfile_eq db o.runnerId]

/-- **The offers of an errand**, one by one. -/
theorem findOffersByProposal_eq (hp : p ∈ db.proposals) : ∃ summaries,
    findOffersByProposal db p.id none = .ok summaries ∧
      summaries.map OfferResponse.own = (ProposalService.ownResponse db p).offers ∧
      ∀ s ∈ summaries, s.ordererId = p.ordererId ∧
        (s.ordererName, s.ordererLevel) = userProfile db p.ordererId := by
  have hshown : db.offers.select (fun o => o.proposalId = p.id ∧ Requested none o.status)
      (latestFirst Offer.createdAt) = ProposalService.offersShown db p.id := by
    simp only [Requested, and_true]
    rfl
  have hall : ∀ os : List Offer, (∀ o ∈ os, db.Pair p o) → ∃ summaries,
      os.mapM (responseFields db) = .ok summaries ∧ summaries.map OfferResponse.own =
        os.map (ProposalService.toOwnOffer (ProposalService.everybody db)) ∧
      ∀ s ∈ summaries, s.ordererId = p.ordererId ∧
        (s.ordererName, s.ordererLevel) = userProfile db p.ordererId := by
    intro os
    induction os with
    | nil => exact fun _ => ⟨[], rfl, rfl, by simp⟩
    | cons o os ih =>
        intro hos
        obtain ⟨response, hresponse, hown, hid, hname⟩ := responseFields_eq (hos o (by simp))
        obtain ⟨summaries, hsummaries, hmap, horderer⟩ :=
          ih fun x hx => hos x (List.mem_cons_of_mem o hx)
        refine ⟨response :: summaries, ?_, ?_, ?_⟩
        · rw [List.mapM_cons, hresponse, hsummaries]
          rfl
        · rw [List.map_cons, List.map_cons, hown, hmap]
        · intro s hs
          rcases List.mem_cons.1 hs with rfl | hs
          · exact ⟨hid, hname⟩
          · exact horderer s hs
  obtain ⟨summaries, hsummaries, hmap, horderer⟩ := hall (ProposalService.offersShown db p.id)
    fun o ho => ⟨hp, (mem_offersShown.1 ho).1, (mem_offersShown.1 ho).2⟩
  refine ⟨summaries, ?_, hmap, horderer⟩
  have hproposal : getProposal db p.id = .ok p := getProposal_eq_ok.2 ⟨hp, rfl⟩
  unfold findOffersByProposal
  rw [hproposal, hshown]
  exact hsummaries

end OfferService

/-! ## Names -/

/-- The name and the level that stand for a user: a user who has left has a placeholder, and
an id without a row has neither. -/
structure Named (db : Db) (userId : UserId) (name : String) (level : ℕ) : Prop where
  known : ∀ user ∈ db.users, user.id = userId →
    name = (if user.deleted then "탈퇴한 사용자" else user.name.getD "") ∧ level = user.level
  unknown : (∀ user ∈ db.users, user.id ≠ userId) → name = "" ∧ level = 0

theorem named_everybody (db : Db) (userId : UserId) :
    Named db userId ((ProposalService.everybody db userId).getD ("", 0)).1
      ((ProposalService.everybody db userId).getD ("", 0)).2 := by
  unfold ProposalService.everybody
  constructor
  · intro user huser hid
    rw [Table.find?_eq_some_iff.2 ⟨huser, hid⟩]
    exact ⟨rfl, rfl⟩
  · intro hnone
    have hfind : db.users.find? userId = none := by
      refine Option.eq_none_iff_forall_ne_some.2 fun user huser => ?_
      obtain ⟨hmem, hid⟩ := Table.find?_eq_some_iff.1 huser
      exact hnone user hmem hid
    rw [hfind]
    exact ⟨rfl, rfl⟩

/-- **The three views agree.**  Whatever the listing of an orderer shows of an errand, the page
of the errand and the list of its offers show as well: the same offers in the same order, and
the same names and levels. -/
theorem ownerListing_agrees (db : Db) (userId : UserId)
    (proposalStatuses : Option (List ProposalStatus)) (page size : ℕ) :
    ∀ item ∈ (ProposalService.searchOwnerProposals db userId proposalStatuses page size).content,
      item.offerCount = item.offers.length ∧
      Named db item.ordererId item.ordererName item.ordererLevel ∧
      (∀ offer ∈ item.offers, Named db offer.runnerId offer.runnerName offer.runnerLevel) ∧
      (∀ viewerId, ∃ detail, ProposalService.getProposalDetail db item.id viewerId = .ok detail ∧
        detail.ordererId = item.ordererId ∧ detail.ordererName = item.ordererName ∧
        detail.ordererLevel = item.ordererLevel ∧ detail.offers = item.offers) ∧
      ∃ summaries, OfferService.findOffersByProposal db item.id none = .ok summaries ∧
        summaries.map OfferResponse.own = item.offers ∧
        ∀ s ∈ summaries, s.ordererId = item.ordererId ∧ s.ordererName = item.ordererName ∧
          s.ordererLevel = item.ordererLevel := by
  intro item hitem
  obtain ⟨p, hp, rfl⟩ := ProposalService.mem_searchOwnerProposals hitem
  refine ⟨(List.length_map _).symm, named_everybody db p.ordererId, ?_,
    fun viewerId => ProposalService.detail_agrees hp viewerId, ?_⟩
  · intro offer hoffer
    obtain ⟨o, -, rfl⟩ := List.mem_map.1 hoffer
    exact named_everybody db o.runnerId
  · obtain ⟨summaries, hsummaries, hmap, horderer⟩ := OfferService.findOffersByProposal_eq hp
    refine ⟨summaries, hsummaries, hmap, fun s hs => ?_⟩
    obtain ⟨hid, hname⟩ := horderer s hs
    rw [OfferService.userProfile_eq] at hname
    exact ⟨hid, congrArg Prod.fst hname, congrArg Prod.snd hname⟩

/-- An errand with two offers, as one of the runners sees it. -/
theorem ownerListing_agrees_offered :
    ∃ item ∈ (ProposalService.searchOwnerProposals
        (App.after .sample Sample.bus Sample.master (Sample.offered.map .deal)).db "orderer" none
        0 10).content,
      ∃ detail, ProposalService.getProposalDetail
          (App.after .sample Sample.bus Sample.master (Sample.offered.map .deal)).db item.id
          "runner" = .ok detail ∧
        detail.ordererId = item.ordererId ∧ detail.ordererName = item.ordererName ∧
        detail.ordererLevel = item.ordererLevel ∧ detail.offers = item.offers := by
  have hlisted : 0 < (ProposalService.searchOwnerProposals
      (App.after .sample Sample.bus Sample.master (Sample.offered.map .deal)).db "orderer" none
      0 10).content.length := by decide +kernel
  obtain ⟨item, hitem⟩ := List.exists_mem_of_length_pos hlisted
  obtain ⟨-, -, -, hdetail, -⟩ := ownerListing_agrees _ "orderer" none 0 10 item hitem
  exact ⟨item, hitem, hdetail "runner"⟩

end OrderRun
