import OrderRun.Concurrent.Commits

/-!
# Terminal statuses

Whether a row that has reached a terminal status keeps it when calls run
concurrently.  The transition table is consulted on the rows a call has read; its
commit writes the new status over whatever the row has become.

* `World.KeepsTerminal` — no terminal row of the earlier state has another status in
  the later one.
* `InTime` — which call must find which of the rows it has read still open, and which
  other calls may have closed them.
* `inTime_iff` — these are the commits that write over no terminal status.
* `terminal_stays_iff` — terminal statuses are never left, from any state of an
  interleaving to any later one, precisely if every commit in it is in time.
-/

namespace OrderRun

open Store Split

/-- Rows with a terminal status keep it. -/
structure World.KeepsTerminal (w w' : World) : Prop where
  proposals : ∀ p ∈ w.db.proposals, p.status.Terminal →
    ∃ p' ∈ w'.db.proposals, p'.id = p.id ∧ p'.status = p.status
  offers : ∀ o ∈ w.db.offers, o.status.Terminal →
    ∃ o' ∈ w'.db.offers, o'.id = o.id ∧ o'.status = o.status

theorem World.KeepsTerminal.refl (w : World) : w.KeepsTerminal w :=
  ⟨fun p hp _ => ⟨p, hp, rfl, rfl⟩, fun o ho _ => ⟨o, ho, rfl, rfl⟩⟩

theorem World.KeepsTerminal.trans {w₁ w₂ w₃ : World} (h : w₁.KeepsTerminal w₂)
    (h' : w₂.KeepsTerminal w₃) : w₁.KeepsTerminal w₃ := by
  constructor
  · intro p hp ht
    obtain ⟨p', hp', hid, hst⟩ := h.proposals p hp ht
    obtain ⟨p'', hp'', hid', hst'⟩ := h'.proposals p' hp' (by rw [hst]; exact ht)
    exact ⟨p'', hp'', hid'.trans hid, hst'.trans hst⟩
  · intro o ho ht
    obtain ⟨o', ho', hid, hst⟩ := h.offers o ho ht
    obtain ⟨o'', ho'', hid', hst'⟩ := h'.offers o' ho' (by rw [hst]; exact ht)
    exact ⟨o'', ho'', hid'.trans hid, hst'.trans hst⟩

/-! ## Calls in time -/

section Open

variable {α σ : Type} [Keyed α ℕ]

/-- The rows that have been loaded are not terminal by now, but for some statuses. -/
def RowsOpen (rows : AutoTable α) (status : α → σ) (Terminal : σ → Prop) (changes : List (Change α))
    (but : List σ) : Prop :=
  ∀ c ∈ changes, ∀ row ∈ rows, Keyed.key row = Keyed.key c.loaded → Terminal (status row) →
    status row ∈ but

/-- Writing the objects back changes no terminal status. -/
def LeavesClosed (rows : AutoTable α) (status : α → σ) (Terminal : σ → Prop)
    (changes : List (Change α)) : Prop :=
  ∀ c ∈ changes, ∀ row ∈ rows, Keyed.key row = Keyed.key c.loaded → Terminal (status row) →
    status c.dirty = status c.loaded ∨ status c.dirty = status row

variable {rows : AutoTable α} {status : α → σ} {Terminal : σ → Prop} {changes : List (Change α)}

theorem leavesClosed_of_same (h : ∀ c ∈ changes, status c.dirty = status c.loaded) :
    LeavesClosed rows status Terminal changes :=
  fun c hc _ _ _ _ => Or.inl (h c hc)

/-- Objects that are all given the status `s`: it is written over no terminal status other
than itself. -/
theorem leavesClosed_iff_open {s : σ} {but : List σ}
    (h : ∀ c ∈ changes, status c.dirty = s ∧ status c.loaded ≠ s)
    (hbut : but = [s] ∨ but = [] ∧ ¬ Terminal s) :
    LeavesClosed rows status Terminal changes ↔ RowsOpen rows status Terminal changes but := by
  have hmem : ∀ t, Terminal t → (s = t ↔ t ∈ but) := by
    intro t ht
    rcases hbut with rfl | ⟨rfl, hs⟩
    · rw [List.mem_singleton]
      exact eq_comm
    · exact iff_of_false (fun he => hs (he ▸ ht)) List.not_mem_nil
  constructor
  · intro hclosed c hc row hrow hkey ht
    obtain ⟨hdirty, hloaded⟩ := h c hc
    have hwritten := (hclosed c hc row hrow hkey ht).resolve_left fun he =>
      hloaded (he.symm.trans hdirty)
    exact (hmem _ ht).1 (hdirty.symm.trans hwritten)
  · intro hopen c hc row hrow hkey ht
    exact Or.inr ((h c hc).1.trans ((hmem _ ht).2 (hopen c hc row hrow hkey ht)))

end Open

/-- The proposals the call has read are not terminal by now, but for some statuses. -/
def World.ProposalsOpen (w : World) (u : UnitOfWork) (but : List ProposalStatus) : Prop :=
  RowsOpen w.db.proposals Proposal.status ProposalStatus.Terminal u.proposals but

/-- The offers the call has read are not terminal by now, but for some statuses. -/
def World.OffersOpen (w : World) (u : UnitOfWork) (but : List OfferStatus) : Prop :=
  RowsOpen w.db.offers Offer.status OfferStatus.Terminal u.offers but

/-- The call has read a proposal in this status. -/
def UnitOfWork.HasRead (u : UnitOfWork) (s : ProposalStatus) : Prop :=
  ∃ c ∈ u.proposals, c.loaded.status = s

/-- A confirmation that has read the one of the other side. -/
def UnitOfWork.ConfirmsLast (u : UnitOfWork) : Prop :=
  u.HasRead .orderCompleted ∨ ∃ c ∈ u.offers, c.loaded.status = .runnerCompleted

/-- What each call must find at its commit of the rows it has read.  A row may be closed by
then if a call of the same kind has closed it: another cancellation, the acceptance of another
report, another resolution, another last confirmation. -/
def InTime (w : World) (r : Request) (u : UnitOfWork) : Prop :=
  match r.call with
  | .proposalUpdate _ _ _ | .offerCreate _ _ => u.HasRead .posted → w.ProposalsOpen u []
  | .confirmPayment _ => w.ProposalsOpen u []
  | .offerAccept _ _ | .proposalDispute _ _ _ _ | .offerDispute _ _ _ _ =>
      w.ProposalsOpen u [] ∧ w.OffersOpen u []
  | .completeDelivery _ _ =>
      (u.ConfirmsLast → w.ProposalsOpen u [.allCompleted] ∧ w.OffersOpen u [.allCompleted]) ∧
        (¬ u.ConfirmsLast → w.OffersOpen u [])
  | .confirmReceived _ _ =>
      (u.ConfirmsLast → w.ProposalsOpen u [.allCompleted] ∧ w.OffersOpen u [.allCompleted]) ∧
        (¬ u.ConfirmsLast → w.ProposalsOpen u [])
  | .resolve _ => w.ProposalsOpen u [.resolved] ∧ w.OffersOpen u [.resolved]
  | .reportAccept _ => ¬ u.HasRead .reported → w.ProposalsOpen u [.reported]
  | .proposalCancel _ _ => w.ProposalsOpen u [.cancelled]
  | .offerCancel _ _ => w.OffersOpen u [.cancelled]
  | .withdrawUser _ => w.ProposalsOpen u [.cancelled] ∧ w.OffersOpen u [.cancelled]
  | .proposalCreate _ _ | .reportCreate _ _ _ | .reportReject _ => True

/-- Neither the proposals nor the offers a commit writes lose a terminal status. -/
def UnitOfWork.LeavesClosed (u : UnitOfWork) (w : World) : Prop :=
  OrderRun.LeavesClosed w.db.proposals Proposal.status ProposalStatus.Terminal u.proposals ∧
    OrderRun.LeavesClosed w.db.offers Offer.status OfferStatus.Terminal u.offers

section Calls

variable {w w₀ : World} {r : Request} {u : UnitOfWork} {p p' : Proposal} {o o' : Offer}

theorem hasRead_iff (hu : u.proposals = [⟨p, p'⟩]) {s : ProposalStatus} :
    u.HasRead s ↔ p.status = s := by
  simp [UnitOfWork.HasRead, hu]

theorem confirmsLast_iff (hu : u.proposals = [⟨p, p'⟩]) (ho : u.offers = [⟨o, o'⟩]) :
    u.ConfirmsLast ↔ p.status = .orderCompleted ∨ o.status = .runnerCompleted := by
  simp [UnitOfWork.ConfirmsLast, hasRead_iff hu, ho]

/-- A call that sets no status. -/
theorem leavesClosed_nothing (hp : ∀ c ∈ u.proposals, c.dirty.status = c.loaded.status)
    (ho : ∀ c ∈ u.offers, c.dirty.status = c.loaded.status) : u.LeavesClosed w :=
  ⟨leavesClosed_of_same hp, leavesClosed_of_same ho⟩

/-- A call that sets the status of proposals. -/
theorem leavesClosed_proposals {s : ProposalStatus} {but : List ProposalStatus}
    (hp : ∀ c ∈ u.proposals, c.dirty.status = s ∧ c.loaded.status ≠ s)
    (hbut : but = [s] ∨ but = [] ∧ ¬ s.Terminal)
    (ho : ∀ c ∈ u.offers, c.dirty.status = c.loaded.status) :
    u.LeavesClosed w ↔ w.ProposalsOpen u but :=
  (and_iff_left (leavesClosed_of_same ho)).trans (leavesClosed_iff_open hp hbut)

/-- A call after which the proposal is in an open status, in which it was or from `POSTED`. -/
theorem leavesClosed_posted {s : ProposalStatus} (hu : u.proposals = [⟨p, p'⟩])
    (hoffers : u.offers = []) (hs : ¬ s.Terminal ∧ s ≠ .posted) (hset : p'.status = s)
    (hread : s = p.status ∨ p.status = .posted) :
    u.LeavesClosed w ↔ (u.HasRead .posted → w.ProposalsOpen u []) := by
  rcases hread with rfl | hposted
  · -- the status is not set
    exact iff_of_true (leavesClosed_nothing (by simp [hu, hset]) (by simp [hoffers]))
      fun h => absurd ((hasRead_iff hu).1 h) hs.2
  · refine Iff.trans ?_ (forall_prop_of_true ((hasRead_iff hu).2 hposted)).symm
    exact leavesClosed_proposals (by simpa [hu, hset, hposted] using hs.2.symm)
      (Or.inr ⟨rfl, hs.1⟩) (by simp [hoffers])

/-- A call that sets the status of offers. -/
theorem leavesClosed_offers {t : OfferStatus} {but : List OfferStatus}
    (hp : ∀ c ∈ u.proposals, c.dirty.status = c.loaded.status)
    (ho : ∀ c ∈ u.offers, c.dirty.status = t ∧ c.loaded.status ≠ t)
    (hbut : but = [t] ∨ but = [] ∧ ¬ t.Terminal) :
    u.LeavesClosed w ↔ w.OffersOpen u but :=
  (and_iff_right (leavesClosed_of_same hp)).trans (leavesClosed_iff_open ho hbut)

/-- A call that sets both. -/
theorem leavesClosed_both {s : ProposalStatus} {t : OfferStatus} {but : List ProposalStatus}
    {but' : List OfferStatus} (hp : ∀ c ∈ u.proposals, c.dirty.status = s ∧ c.loaded.status ≠ s)
    (hbut : but = [s] ∨ but = [] ∧ ¬ s.Terminal)
    (ho : ∀ c ∈ u.offers, c.dirty.status = t ∧ c.loaded.status ≠ t)
    (hbut' : but' = [t] ∨ but' = [] ∧ ¬ t.Terminal) :
    u.LeavesClosed w ↔ w.ProposalsOpen u but ∧ w.OffersOpen u but' :=
  and_congr (leavesClosed_iff_open hp hbut) (leavesClosed_iff_open ho hbut')

/-- The last confirmation completes the deal, and any other sets one status. -/
theorem confirms_iff {P Q R : Prop} (h : u.ConfirmsLast → (u.LeavesClosed w ↔ P ∧ Q))
    (h' : ¬ u.ConfirmsLast → (u.LeavesClosed w ↔ R)) :
    u.LeavesClosed w ↔ (u.ConfirmsLast → P ∧ Q) ∧ (¬ u.ConfirmsLast → R) := by
  by_cases hlast : u.ConfirmsLast
  · rw [h hlast]
    exact ⟨fun hPQ => ⟨fun _ => hPQ, fun hn => absurd hlast hn⟩, fun hall => hall.1 hlast⟩
  · rw [h' hlast]
    exact ⟨fun hR => ⟨fun hl => absurd hl hlast, fun _ => hR⟩, fun hall => hall.2 hlast⟩

/-- **The calls in time** are those whose commit writes over no terminal status. -/
theorem inTime_iff (hbody : r.call.body w₀.db r.now = .ok u) : u.LeavesClosed w ↔ InTime w r u := by
  obtain ⟨call, now⟩ := r
  cases call with
  | proposalCreate request uid =>
      obtain ⟨p, -, -, -, -, -, -, -, rfl⟩ := ProposalService.create_eq_ok hbody
      exact iff_of_true (leavesClosed_nothing (by simp) (by simp)) trivial
  | proposalUpdate pid request uid =>
      obtain ⟨p, -, rfl, -, hs, hu⟩ := ProposalService.update_eq_ok hbody
      exact leavesClosed_posted (s := .holding) (congrArg UnitOfWork.proposals hu)
        (congrArg UnitOfWork.offers hu) (by decide) rfl (hs.imp_left Eq.symm)
  | proposalCancel pid uid =>
      obtain ⟨p, -, rfl, -, hs, hu⟩ := ProposalService.cancel_eq_ok hbody
      have hne : p.status ≠ .cancelled := by
        rintro he
        rw [he] at hs
        exact absurd hs (by decide)
      exact leavesClosed_proposals (s := .cancelled) (by simpa [hu] using hne) (by decide)
        (by simp [hu])
  | confirmPayment pid =>
      obtain ⟨p, -, rfl, hs, hu⟩ := ProposalService.confirmPayment_eq_ok hbody
      exact leavesClosed_proposals (s := .posted) (by simp [hu, hs]) (by decide) (by simp [hu])
  | confirmReceived pid uid =>
      obtain ⟨p, o, hpair, rfl, -, hps, hcases⟩ := ProposalService.confirmReceived_eq_ok hbody
      rcases hcases with ⟨hos, event, hu⟩ | ⟨hos, event, hu⟩ <;>
        have hlast := confirmsLast_iff (congrArg UnitOfWork.proposals hu)
          (congrArg UnitOfWork.offers hu)
      · refine confirms_iff (fun h => ?_) fun _ => ?_
        · rw [hlast, hps, hos] at h
          exact absurd h (by simp)
        · exact leavesClosed_proposals (s := .orderCompleted) (by simp [hu, hps]) (by decide)
            (by simp [hu])
      · refine confirms_iff (fun _ => ?_) fun h => ?_
        · exact leavesClosed_both (s := .allCompleted) (t := .allCompleted) (by simp [hu, hps])
            (by decide) (by simp [hu, hos]) (by decide)
        · exact absurd (hlast.2 (Or.inr hos)) h
  | proposalDispute pid uid qid reason =>
      obtain ⟨p, o, hpair, rfl, -, hps, hos, event, hu⟩ := ProposalService.raiseDispute_eq_ok hbody
      refine leavesClosed_both (s := .disputed) (t := .disputed) ?_ (by decide) ?_ (by decide)
      · rcases List.mem_pair.1 hps with hs | hs <;> simp [hu, hs]
      · rcases List.mem_pair.1 hos with hs | hs <;> simp [hu, hs]
  | offerCreate pid uid =>
      obtain ⟨p, -, rfl, -, hs, -, event, hu⟩ := OfferService.create_eq_ok hbody
      exact leavesClosed_posted (s := .offered) (congrArg UnitOfWork.proposals hu)
        (congrArg UnitOfWork.offers hu) (by decide) rfl (hs.symm.imp_left Eq.symm)
  | offerCancel oid uid =>
      obtain ⟨o, -, rfl, -, hs, hu⟩ := OfferService.cancel_eq_ok hbody
      exact leavesClosed_offers (t := .cancelled) (by simp [hu]) (by simp [hu, hs]) (by decide)
  | offerAccept oid uid =>
      obtain ⟨p, o, hpair, rfl, -, hos, hps, -, event, hu⟩ := OfferService.accept_eq_ok hbody
      exact leavesClosed_both (s := .matched) (t := .accepted) (by simp [hu, hps]) (by decide)
        (by simp [hu, hos]) (by decide)
  | completeDelivery oid uid =>
      obtain ⟨p, o, hpair, rfl, -, hos, hcases⟩ := OfferService.completeDelivery_eq_ok hbody
      rcases hcases with ⟨hps, event, hu⟩ | ⟨hps, event, hu⟩ <;>
        have hlast := confirmsLast_iff (congrArg UnitOfWork.proposals hu)
          (congrArg UnitOfWork.offers hu)
      · refine confirms_iff (fun h => ?_) fun _ => ?_
        · rw [hlast, hps, hos] at h
          exact absurd h (by simp)
        · exact leavesClosed_offers (t := .runnerCompleted) (by simp [hu, hps])
            (by simp [hu, hos]) (by decide)
      · refine confirms_iff (fun _ => ?_) fun h => ?_
        · exact leavesClosed_both (s := .allCompleted) (t := .allCompleted) (by simp [hu, hps])
            (by decide) (by simp [hu, hos]) (by decide)
        · exact absurd (hlast.2 (Or.inl hps)) h
  | offerDispute oid uid qid reason =>
      obtain ⟨p, o, hpair, rfl, -, hos, hps, event, hu⟩ := OfferService.raiseDispute_eq_ok hbody
      refine leavesClosed_both (s := .disputed) (t := .disputed) ?_ (by decide) ?_ (by decide)
      · rcases List.mem_pair.1 hps with hs | hs <;> simp [hu, hs]
      · rcases List.mem_pair.1 hos with hs | hs <;> simp [hu, hs]
  | resolve oid =>
      obtain ⟨p, o, hpair, rfl, hos, hps, hu⟩ := OfferService.resolve_eq_ok hbody
      exact leavesClosed_both (s := .resolved) (t := .resolved) (by simp [hu, hps]) (by decide)
        (by simp [hu, hos]) (by decide)
  | reportCreate pid uid request =>
      obtain ⟨p, -, -, -, -, report, -, -, -, -, rfl⟩ := ProposalReportService.create_eq_ok hbody
      exact iff_of_true (leavesClosed_nothing (by simp) (by simp)) trivial
  | reportAccept rid =>
      obtain ⟨p, hp, report, -, rfl, -, -, hcases⟩ := ProposalReportService.accept_eq_ok hbody
      rcases hcases with ⟨hs, hu⟩ | ⟨hs, hu⟩ <;>
        have hread := @hasRead_iff _ _ _ (congrArg UnitOfWork.proposals hu) .reported
      · have hne : p.status ≠ .reported := by
          rcases List.mem_pair.1 hs with hs | hs <;> simp [hs]
        refine Iff.trans ?_ (forall_prop_of_true fun h => hne (hread.1 h)).symm
        exact leavesClosed_proposals (s := .reported) (by simpa [hu] using hne) (by decide)
          (by simp [hu])
      · -- the proposal has been taken down before
        exact iff_of_true (leavesClosed_nothing (by simp [hu]) (by simp [hu]))
          fun h => absurd (hread.2 hs) h
  | reportReject rid =>
      obtain ⟨report, -, -, -, rfl⟩ := ProposalReportService.reject_eq_ok hbody
      exact iff_of_true (leavesClosed_nothing (by simp) (by simp)) trivial
  | withdrawUser uid =>
      obtain ⟨user, -, -, -, -, rfl⟩ := UserWithdrawalService.withdrawUser_eq_ok hbody
      refine leavesClosed_both (s := .cancelled) (t := .cancelled) ?_ (by decide) ?_ (by decide)
      · intro c hc
        obtain ⟨p, hp, rfl⟩ := List.mem_map.1 hc
        refine ⟨rfl, fun he => ?_⟩
        have hs := UserWithdrawalService.status_of_mem_openProposals hp
        rw [show p.status = .cancelled from he] at hs
        exact absurd hs (by decide)
      · intro c hc
        obtain ⟨o, ho, rfl⟩ := List.mem_map.1 hc
        refine ⟨rfl, fun he => ?_⟩
        have hs := (UserWithdrawalService.waiting_of_mem_withdrawn ho).2
        rw [show o.status = .cancelled from he] at hs
        exact absurd hs (by simp)

end Calls

/-! ## One commit -/

section Commit

variable {u : UnitOfWork} {db : Db} {t : DateTime}

theorem proposalRow_status_iff (hu : u.Prepared db) (p : Proposal) :
    (u.proposalRow t p).status = p.status ↔ ∀ c ∈ u.proposals, c.loaded.id = p.id →
      c.dirty.status = c.loaded.status ∨ c.dirty.status = p.status :=
  column_writeBack (fun _ _ _ => Proposal.flush_status _ _ _ _ _) hu.proposalObjects

/-- A terminal offer is not reached by the bulk statement. -/
theorem offerRow_status_iff (hu : u.Prepared db) {o : Offer} (ht : o.status.Terminal) :
    (u.offerRow t o).status = o.status ↔ ∀ c ∈ u.offers, c.loaded.id = o.id →
      c.dirty.status = c.loaded.status ∨ c.dirty.status = o.status := by
  have hrow : u.rejectRow t o = o := by
    refine rejectRow_of_ne_waiting fun hw => ?_
    rw [hw] at ht
    exact absurd ht (by decide)
  rw [UnitOfWork.offerRow, hrow]
  exact column_writeBack (fun _ _ _ => Offer.flush_status _ _ _ _) hu.offerObjects

variable {bus : EventBus} {w w' : World} {r : Request}

/-- **One commit** keeps the terminal statuses precisely if it writes over none. -/
theorem keepsTerminal_commit (hu : u.Prepared db) (hc : (service bus).commit w r u = .ok w') :
    w.KeepsTerminal w' ↔ u.LeavesClosed w := by
  constructor
  · intro h
    constructor
    · intro c hcu p hp hid ht
      obtain ⟨p', hp', hpid, hst⟩ := h.proposals p hp ht
      rw [proposal_commit_eq hc hp hp' hpid] at hst
      exact (proposalRow_status_iff hu p).1 hst c hcu hid.symm
    · intro c hcu o ho hid ht
      obtain ⟨o', ho', hoid, hst⟩ := h.offers o ho ht
      rw [offer_commit_eq hc ho ho' hoid] at hst
      exact (offerRow_status_iff hu ht).1 hst c hcu hid.symm
  · intro h
    constructor
    · intro p hp ht
      refine ⟨_, proposal_commit hc hp, u.proposalRow_id _ p, ?_⟩
      exact (proposalRow_status_iff hu p).2 fun c hcu hid => h.1 c hcu p hp hid.symm ht
    · intro o ho ht
      refine ⟨_, offer_commit hc ho, u.offerRow_id _ o, ?_⟩
      exact (offerRow_status_iff hu ht).2 fun c hcu hid => h.2 c hcu o ho hid.symm ht

end Commit

/-- **When terminal statuses are never left.**  Start from any reachable database and
interleave the read and commit steps of any calls: a row that is terminal in some
committed state has the same status in every later one, precisely if every commit in it is
in time. -/
theorem terminal_stays_iff (bus : EventBus) (m : MasterData) (rs : List Request)
    (es : List (Event Request)) :
    (∀ pre mid suf, es = pre ++ mid ++ suf →
        (Runs.run (service bus).step (State.quiet (World.after bus m rs)) pre).now.KeepsTerminal
          (Runs.run (service bus).step (State.quiet (World.after bus m rs)) (pre ++ mid)).now) ↔
      Runs.Along (service bus).step ((service bus).Commits InTime)
        (State.quiet (World.after bus m rs)) es := by
  rw [← Service.along_iff_commits (sound_service bus fun _ => True) World.KeepsTerminal.refl
    (fun _ _ hread _ _ hc => ?_) trivial fun e _ => e.calls_true]
  · exact (Runs.along_between (K := fun x y : State World Request UnitOfWork =>
      x.now.KeepsTerminal y.now) (fun x => World.KeepsTerminal.refl x.now)
      fun _ _ _ => World.KeepsTerminal.trans).symm
  · have hbody := (service_read_eq_ok.1 hread).2
    exact (keepsTerminal_commit (body_prepared hbody) hc).trans (inTime_iff hbody)

/-- The orderer cancels the posted errand while a runner applies for it. -/
def Sample.lateOffer : List (Event Request) := [
  .read 0 (request 3 (.offerCreate 1 "runner")),
  .read 1 (request 4 (.proposalCancel 1 "orderer")),
  .commit 1,
  .commit 0]

/-- The cancelled errand is `OFFERED` again. -/
theorem not_terminal_stays_lateOffer :
    ¬ ∀ pre mid suf, Sample.lateOffer = pre ++ mid ++ suf →
        (Runs.run (service Sample.bus).step
          (State.quiet (World.after Sample.bus Sample.master (Sample.offered.take 2)))
          pre).now.KeepsTerminal
        (Runs.run (service Sample.bus).step
          (State.quiet (World.after Sample.bus Sample.master (Sample.offered.take 2)))
          (pre ++ mid)).now := by
  intro h
  have hkeeps := h (Sample.lateOffer.take 3) (Sample.lateOffer.drop 3) [] (by simp)
  revert hkeeps
  generalize hx : Runs.run (service Sample.bus).step
    (State.quiet (World.after Sample.bus Sample.master (Sample.offered.take 2)))
    (Sample.lateOffer.take 3) = x
  generalize hy : Runs.run (service Sample.bus).step
    (State.quiet (World.after Sample.bus Sample.master (Sample.offered.take 2)))
    (Sample.lateOffer.take 3 ++ Sample.lateOffer.drop 3) = y
  have hbefore : ∃ p ∈ x.now.db.proposals.rows, p.status = .cancelled := by
    rw [← hx]
    decide +kernel
  have hafter : ∀ p ∈ y.now.db.proposals.rows, p.status = .offered := by
    rw [← hy]
    decide +kernel
  intro hkeeps
  obtain ⟨p, hp, hst⟩ := hbefore
  obtain ⟨p', hp', -, hst'⟩ := hkeeps.proposals p hp (by rw [hst]; decide)
  rw [hafter p' hp', hst] at hst'
  exact absurd hst' (by decide)

end OrderRun
