import OrderRun.Application.Deals
import OrderRun.Queries.Detail

/-!
# Chat links

Only the two parties of a matched deal get to see the link of their chat, and both detail
views agree on it.

* `openChatUrl_executed`, `openChatUrl_none` — the link on the two pages, for a proposal
  with an executed offer and for one without.
* `Db.DiffersInLinks`, `getProposalDetail_relink`, `getOfferDetail_relink` — the answers to
  anybody else do not depend on the links.
* `Db.LinksShown`, `App.chatLinks` — all this in every run of the application, whatever
  links have been entered.
-/

namespace OrderRun

open Store

/-! ## What the two pages show -/

section Shown

variable {db : Db} {p : Proposal} {o : Offer}

/-- **On a proposal with an executed offer** both pages show its parties the link. -/
theorem openChatUrl_executed (hshape : (db.deal p).Shape) (hdist : (db.deal p).Distinct)
    (hpair : db.Pair p o) (hex : Executed o.status) (viewerId : UserId) :
    ∃ page response, ProposalService.getProposalDetail db p.id viewerId = .ok page ∧
      OfferService.getOfferDetail db o.id viewerId = .ok response ∧
      page.openChatUrl = (if viewerId ∈ [p.ordererId, o.runnerId] then o.openChatUrl else none) ∧
      response.openChatUrl = page.openChatUrl := by
  have hstatus : p.status ∈ ProposalService.OPEN_CHAT_PROPOSAL_STATUSES := by
    have htogether : Together p.status o.status := hshape.together hdist hpair.mem_bids hex
    revert htogether
    cases p.status <;> cases o.status <;> decide
  -- the offers of the page are ordered by age, but only one of them has been chosen
  have hfirst : (ProposalService.offersShown db p.id).find?
      (fun x => x.status ∈ ProposalService.OPEN_CHAT_OFFER_STATUSES) = some o := by
    have hmem : o ∈ ProposalService.offersShown db p.id :=
      mem_offersShown.2 ⟨hpair.offer, hpair.proposalId⟩
    cases hfind : (ProposalService.offersShown db p.id).find?
      (fun x => x.status ∈ ProposalService.OPEN_CHAT_OFFER_STATUSES) with
    | none => exact absurd (decide_eq_true hex) (List.find?_eq_none.1 hfind o hmem)
    | some x =>
        obtain ⟨hshown, hxe⟩ := chosen_of_find hfind
        obtain ⟨hx, hxp⟩ := mem_offersShown.1 hshown
        have hbid : x.bid = o.bid := hshape.executed_unique hdist
          (Db.Pair.mem_bids ⟨hpair.proposal, hx, hxp⟩) hpair.mem_bids hxe hex
        rw [AutoTable.eq_of_key_eq hx hpair.offer (congrArg Bid.id hbid)]
  have hpage : ProposalService.shownChatUrl p (ProposalService.offersShown db p.id) viewerId =
      if viewerId ∈ [p.ordererId, o.runnerId] then o.openChatUrl else none := by
    rw [shownChatUrl_of_some hfirst]
    exact if_congr (and_iff_right hstatus) rfl rfl
  obtain ⟨response, hresponse, hurl⟩ := getOfferDetail_eq hpair viewerId
  refine ⟨_, response, getProposalDetail_eq hpair.proposal viewerId, hresponse, hpage, ?_⟩
  rw [hurl]
  refine Eq.trans ?_ hpage.symm
  exact if_congr (and_iff_right hex) rfl rfl

/-- On a proposal without an executed offer there is no link. -/
theorem openChatUrl_none (hp : p ∈ db.proposals)
    (hnone : ∀ o, db.Pair p o → ¬ Executed o.status) (viewerId : UserId) :
    ∃ page, ProposalService.getProposalDetail db p.id viewerId = .ok page ∧
      page.openChatUrl = none := by
  refine ⟨_, getProposalDetail_eq hp viewerId, ?_⟩
  have hfirst : (ProposalService.offersShown db p.id).find?
      (fun x => x.status ∈ ProposalService.OPEN_CHAT_OFFER_STATUSES) = none := by
    refine List.find?_eq_none.2 fun x hx => ?_
    obtain ⟨hmem, hxp⟩ := mem_offersShown.1 hx
    exact fun hex => hnone x ⟨hp, hmem, hxp⟩ (of_decide_eq_true hex)
  exact shownChatUrl_of_none hfirst

/-- The page of an offer that is not executed shows no link. -/
theorem openChatUrl_offer (hpair : db.Pair p o) (hex : ¬ Executed o.status) (viewerId : UserId) :
    ∃ response, OfferService.getOfferDetail db o.id viewerId = .ok response ∧
      response.openChatUrl = none := by
  obtain ⟨response, hresponse, hurl⟩ := getOfferDetail_eq hpair viewerId
  refine ⟨response, hresponse, hurl.trans (if_neg ?_)⟩
  exact fun h => hex h.1

end Shown

/-! ## What everybody else learns -/

/-- The database with other chat links. -/
def Db.relink (db : Db) (link : Offer → Option String) : Db :=
  { db with offers := db.offers.map (Offer.relink link) }

/-- The two databases differ at most in the links of the offers of a proposal. -/
def Db.DiffersInLinks (db : Db) (pid : ℕ) (db' : Db) : Prop :=
  ∃ link : Offer → Option String,
    (∀ o ∈ db.offers, o.proposalId ≠ pid → link o = o.openChatUrl) ∧ db' = db.relink link

/-- The viewer is neither the orderer of the proposal nor the runner of an executed offer
of it. -/
def Db.Outsider (db : Db) (p : Proposal) (viewerId : UserId) : Prop :=
  viewerId ≠ p.ordererId ∧ ∀ o, db.Pair p o → Executed o.status → viewerId ≠ o.runnerId

section Relink

variable {db : Db} {p : Proposal} {viewerId : UserId} {link : Offer → Option String}

/-- **The page of a proposal** is the same for an outsider, whatever the links are. -/
theorem getProposalDetail_relink (hp : p ∈ db.proposals) (hout : db.Outsider p viewerId) :
    ProposalService.getProposalDetail (db.relink link) p.id viewerId =
      ProposalService.getProposalDetail db p.id viewerId := by
  have hoffers : ProposalService.offersShown (db.relink link) p.id =
      (ProposalService.offersShown db p.id).map (Offer.relink link) :=
    Table.select_map (f := Offer.relink link) (fun _ => rfl) (fun _ => rfl) fun _ _ => rfl
  have hurl : ProposalService.shownChatUrl p
        ((ProposalService.offersShown db p.id).map (Offer.relink link)) viewerId =
      ProposalService.shownChatUrl p (ProposalService.offersShown db p.id) viewerId := by
    have hmap : ((ProposalService.offersShown db p.id).map (Offer.relink link)).find?
          (fun o => o.status ∈ ProposalService.OPEN_CHAT_OFFER_STATUSES) =
        ((ProposalService.offersShown db p.id).find?
          fun o => o.status ∈ ProposalService.OPEN_CHAT_OFFER_STATUSES).map (Offer.relink link) :=
      List.find?_map
    cases hfind : (ProposalService.offersShown db p.id).find?
      (fun o => o.status ∈ ProposalService.OPEN_CHAT_OFFER_STATUSES) with
    | none =>
        rw [hfind] at hmap
        rw [shownChatUrl_of_none hmap, shownChatUrl_of_none hfind]
    | some o =>
        obtain ⟨hshown, hex⟩ := chosen_of_find hfind
        obtain ⟨ho, hop⟩ := mem_offersShown.1 hshown
        have hviewer : viewerId ∉ [p.ordererId, o.runnerId] := by
          rw [List.mem_pair, not_or]
          exact ⟨hout.1, hout.2 o ⟨hp, ho, hop⟩ hex⟩
        rw [hfind] at hmap
        rw [shownChatUrl_of_some hmap, shownChatUrl_of_some hfind]
        exact (if_neg fun h => hviewer h.2).trans (if_neg fun h => hviewer h.2).symm
  have hmem : p ∈ (db.relink link).proposals := hp
  rw [getProposalDetail_eq hp, getProposalDetail_eq hmem, hoffers]
  unfold ProposalService.toDetailResponse
  simp only [List.map_map, hurl]
  rfl

/-- **The page of an offer** is the same for an outsider, whatever the links are. -/
theorem getOfferDetail_relink (hp : p ∈ db.proposals) (hout : db.Outsider p viewerId)
    (hlink : ∀ o ∈ db.offers, o.proposalId ≠ p.id → link o = o.openChatUrl) (offerId : ℕ) :
    OfferService.getOfferDetail (db.relink link) offerId viewerId =
      OfferService.getOfferDetail db offerId viewerId := by
  have hfind : (db.relink link).offers.find? offerId =
      (db.offers.find? offerId).map (Offer.relink link) :=
    Table.find?_map (f := Offer.relink link) fun _ => rfl
  unfold OfferService.getOfferDetail OfferService.getOffer
  rw [hfind]
  cases ho : db.offers.find? offerId with
  | none => rfl
  | some o =>
      obtain ⟨hmem, -⟩ := Db.offers_find?.1 ho
      show OfferService.toDetailResponse (db.relink link) (o.relink link) viewerId =
        OfferService.toDetailResponse db o viewerId
      by_cases hop : o.proposalId = p.id
      · have hpair : db.Pair p o := ⟨hp, hmem, hop⟩
        have hfields : OfferService.responseFields (db.relink link) (o.relink link) =
            OfferService.responseFields db o := rfl
        unfold OfferService.toDetailResponse
        rw [hfields]
        cases hresponse : OfferService.responseFields db o with
        | error failure => rfl
        | ok fields =>
            have hproposal : OfferService.getProposal db o.proposalId = .ok p :=
              OfferService.getProposal_eq_ok.2 ⟨hp, hop.symm⟩
            have horderer : fields.ordererId = p.ordererId := by
              simp only [OfferService.responseFields, bind_eq_ok, pure_eq_ok] at hresponse
              obtain ⟨q, hq, rfl⟩ := hresponse
              rw [hproposal] at hq
              rw [← Except.ok.inj hq]
            have hhidden : ¬ (o.status ∈ OfferService.OPEN_CHAT_OFFER_STATUSES ∧
                viewerId ∈ [fields.ordererId, o.runnerId]) := by
              rintro ⟨hex, hviewer⟩
              rw [horderer] at hviewer
              rcases List.mem_pair.1 hviewer with hv | hv
              · exact hout.1 hv
              · exact hout.2 o hpair hex hv
            show Except.ok _ = Except.ok _
            refine congrArg (fun url => Except.ok (OfferDetailResponse.mk fields url)) ?_
            exact (if_neg hhidden).trans (if_neg hhidden).symm
      · have hsame : o.relink link = o := by
          unfold Offer.relink
          rw [hlink o hmem hop]
        rw [hsame]
        rfl

end Relink

/-! ## Confidentiality -/

/-- Who sees the link of a chat, and where. -/
structure Db.LinksShown (db : Db) : Prop where
  /-- The page of a proposal shows a link to the parties of its executed offer only, and
  so does the page of this offer. -/
  proposal : ∀ p ∈ db.proposals, ∀ viewerId, ∃ page,
    ProposalService.getProposalDetail db p.id viewerId = .ok page ∧
    ∀ url, page.openChatUrl = some url → ∃ o response, db.Pair p o ∧ Executed o.status ∧
      (viewerId = p.ordererId ∨ viewerId = o.runnerId) ∧
      OfferService.getOfferDetail db o.id viewerId = .ok response ∧
      response.openChatUrl = some url
  /-- The page of an offer that is not executed shows no link to anybody. -/
  offer : ∀ o ∈ db.offers, ¬ Executed o.status → ∀ viewerId, ∃ response,
    OfferService.getOfferDetail db o.id viewerId = .ok response ∧ response.openChatUrl = none
  /-- The page of a proposal and that of its executed offer agree. -/
  agree : ∀ p o, db.Pair p o → Executed o.status → ∀ viewerId, ∃ page response,
    ProposalService.getProposalDetail db p.id viewerId = .ok page ∧
    OfferService.getOfferDetail db o.id viewerId = .ok response ∧
    page.openChatUrl = (if viewerId = p.ordererId ∨ viewerId = o.runnerId then o.openChatUrl
      else none) ∧
    response.openChatUrl = page.openChatUrl
  /-- Nobody else learns anything about the links. -/
  secret : ∀ p ∈ db.proposals, ∀ db', db.DiffersInLinks p.id db' → ∀ viewerId,
    db.Outsider p viewerId →
    ProposalService.getProposalDetail db' p.id viewerId =
      ProposalService.getProposalDetail db p.id viewerId ∧
    ∀ offerId, OfferService.getOfferDetail db' offerId viewerId =
      OfferService.getOfferDetail db offerId viewerId

/-- **The link of a chat is shown to the two parties of the deal, by both pages alike, and
to nobody else**, in every run of the application. -/
theorem App.chatLinks (settings : Settings) (bus : EventBus) (m : MasterData)
    (cs : List Command) : (App.after settings bus m cs).db.LinksShown := by
  have ht : (App.after settings bus m cs).Traced := App.traced_after m cs
  have hagree : ∀ p o, (App.after settings bus m cs).db.Pair p o → Executed o.status →
      ∀ viewerId, _ :=
    fun p o hpair hex viewerId => openChatUrl_executed (ht.shape hpair.proposal)
      (ht.history p hpair.proposal).distinct hpair hex viewerId
  constructor
  · intro p hp viewerId
    by_cases hexists : ∃ o, (App.after settings bus m cs).db.Pair p o ∧ Executed o.status
    · obtain ⟨o, hpair, hex⟩ := hexists
      obtain ⟨page, response, hpage, hresponse, hurl, hsame⟩ := hagree p o hpair hex viewerId
      refine ⟨page, hpage, fun url hsome => ⟨o, response, hpair, hex, ?_, hresponse, ?_⟩⟩
      · by_contra hno
        rw [hurl, if_neg (by simpa using hno)] at hsome
        exact absurd hsome (by simp)
      · rw [hsame, hsome]
    · obtain ⟨page, hpage, hurl⟩ :=
        openChatUrl_none hp (fun o hpair hex => hexists ⟨o, hpair, hex⟩) viewerId
      refine ⟨page, hpage, fun url hsome => ?_⟩
      rw [hurl] at hsome
      exact absurd hsome (by simp)
  · intro o ho hex viewerId
    obtain ⟨p, hpair⟩ := ht.owned.pair ho
    exact openChatUrl_offer hpair hex viewerId
  · intro p o hpair hex viewerId
    obtain ⟨page, response, hpage, hresponse, hurl, hsame⟩ := hagree p o hpair hex viewerId
    exact ⟨page, response, hpage, hresponse,
      hurl.trans (if_congr (by simp) rfl rfl), hsame⟩
  · rintro p hp _ ⟨link, hlink, rfl⟩ viewerId hout
    exact ⟨getProposalDetail_relink hp hout, getOfferDetail_relink hp hout hlink⟩

end OrderRun
