import OrderRun.Concurrent.Pair

/-!
# Both confirmations

Whether the deal is completed once the runner's `complete_delivery` and the
orderer's `confirm_received` have both been answered with success.  Each call
decides from its own snapshot whether it is the second one.

* `BothConfirm` — an interleaving of the two calls, both successful, during which
  nothing else touches the pair.
* `turn` — a call whose read and commit are not separated by the other one's steps.
* `completed_iff` — the deal is completed precisely if one call reads after the other
  has committed; otherwise the pair is left half confirmed.
-/

namespace OrderRun

open Store Split

/-- A step leaves the proposal, its offers and the runner's level as they are. -/
structure Untouched (proposalId : ℕ) (runnerId : UserId) (w w' : World) : Prop where
  proposal : ∀ p, p.id = proposalId → (p ∈ w'.db.proposals ↔ p ∈ w.db.proposals)
  offers : ∀ o, o.proposalId = proposalId → (o ∈ w'.db.offers ↔ o ∈ w.db.offers)
  runner : ∀ user ∈ w.db.users, user.id = runnerId →
    ∃ user' ∈ w'.db.users, user'.id = user.id ∧ user'.level = user.level

/-- The event belongs to one of the two transactions. -/
def ofEither (a b : ℕ) (e : Event Request) : Bool := e.tid = a ∨ e.tid = b

/-- Transaction `a` is the runner's delivery and transaction `b` the orderer's receipt;
both succeed, and no other step touches the pair. -/
structure BothConfirm (bus : EventBus) (w : World) (p : Proposal) (o : Offer) (a b : ℕ)
    (deliver receive : Request) (es : List (Event Request)) : Prop where
  delivers : deliver.call = .completeDelivery o.id o.runnerId
  receives : receive.call = .confirmReceived p.id p.ordererId
  deliverSteps : es.filter (fun e => e.tid = a) = steps a deliver
  receiveSteps : es.filter (fun e => e.tid = b) = steps b receive
  succeed : Runs.Along (service bus).step
    (fun x e => ofEither a b e = true → (service bus).Succeeds x e) (State.quiet w) es
  alone : Runs.Along (service bus).step
    (fun x e => ofEither a b e = false →
      Untouched p.id o.runnerId x.now ((service bus).step x e).now) (State.quiet w) es

/-- The proposal and the offer are `ALL_COMPLETED`, and the runner is one level up. -/
def Completed (p : Proposal) (o : Offer) (runner : User) (w : World) : Prop :=
  ∃ p' o', w.db.Pair p' o' ∧ p'.id = p.id ∧ o'.id = o.id ∧
    p'.status = .allCompleted ∧ o'.status = .allCompleted ∧
    ∃ runner' ∈ w.db.users, runner'.id = runner.id ∧ runner'.level = runner.level + 1

/-- One of the two calls is read after the other one has committed. -/
def InTurn (a b : ℕ) (deliver receive : Request) (es : List (Event Request)) : Prop :=
  es.filter (ofEither a b) = steps a deliver ++ steps b receive ∨
    es.filter (ofEither a b) = steps b receive ++ steps a deliver

/-! ## What other steps keep -/

section Frame

variable {w w' : World} {p : Proposal} {o : Offer} {n : ℕ}

theorem World.Stands.untouched (h : w.Stands p o n) (hu : Untouched p.id o.runnerId w w') :
    w'.Stands p o n where
  pair := ⟨(hu.proposal p rfl).2 h.pair.proposal,
    (hu.offers o h.pair.proposalId).2 h.pair.offer, h.pair.proposalId⟩
  only := by
    intro x hx
    obtain ⟨hmem, hpid⟩ := Db.mem_offersOf.1 hx
    exact h.only x (Db.mem_offersOf.2 ⟨(hu.offers x hpid).1 hmem, hpid⟩)
  runner := by
    obtain ⟨user, huser, hid, hlevel⟩ := h.runner
    obtain ⟨user', huser', hid', hlevel'⟩ := hu.runner user huser hid
    exact ⟨user', huser', hid'.trans hid, hlevel'.trans hlevel⟩

/-- The proposal has not been completed. -/
def World.Unfinished (w : World) (pid : ℕ) : Prop :=
  ∃ p ∈ w.db.proposals, p.id = pid ∧ p.status ≠ .allCompleted

theorem World.Unfinished.untouched {pid : ℕ} {runnerId : UserId} (h : w.Unfinished pid)
    (hu : Untouched pid runnerId w w') : w'.Unfinished pid := by
  obtain ⟨p, hp, hid, hst⟩ := h
  exact ⟨p, (hu.proposal p hid).2 hp, hid, hst⟩

/-- The unit of work does not complete the proposal. -/
def UnitOfWork.Half (u : UnitOfWork) : Prop :=
  ∃ p p', u.proposals = [⟨p, p'⟩] ∧ p'.status ≠ .allCompleted

theorem World.Unfinished.commit {bus : EventBus} {r : Request} {u : UnitOfWork} {pid : ℕ}
    (h : w.Unfinished pid) (hu : u.Half) (hc : (service bus).commit w r u = .ok w') :
    w'.Unfinished pid := by
  obtain ⟨p, hp, hid, hst⟩ := h
  obtain ⟨p₀, p', hprops, hst'⟩ := hu
  refine ⟨_, proposal_commit hc hp, by rw [u.proposalRow_id, hid], ?_⟩
  rw [proposalRow_of_single hprops]
  split
  · rw [Proposal.flush_status]
    unfold col
    split
    · exact hst
    · exact hst'
  · exact hst

end Frame

/-! ## The two transactions -/

section Transactions

variable {bus : EventBus} {p : Proposal} {o : Offer} {n : ℕ} {a b : ℕ}
  {es l : List (Event Request)} {x : State World Request UnitOfWork}

/-- What is assumed of every step: an own one succeeds, any other leaves the pair alone. -/
def Fair (bus : EventBus) (p : Proposal) (o : Offer) (a b : ℕ)
    (x : State World Request UnitOfWork) (e : Event Request) : Prop :=
  (ofEither a b e = true → (service bus).Succeeds x e) ∧
    (ofEither a b e = false →
      Untouched p.id o.runnerId x.now ((service bus).step x e).now)

/-- The pair stands, and the units that the two transactions hold satisfy `H`. -/
def Holding (p : Proposal) (o : Offer) (n : ℕ) (a b : ℕ)
    (H : ℕ → Option (Request × UnitOfWork) → Prop) (x : State World Request UnitOfWork) : Prop :=
  x.now.Stands p o n ∧ ∀ k, k = a ∨ k = b → H k (x.pool k)

theorem pool_of_other {e : Event Request} (he : ofEither a b e = false) {k : ℕ}
    (hk : k = a ∨ k = b) :
    ((service bus).step x e).pool k = x.pool k := by
  refine Service.pool_step_of_ne fun h => ?_
  rw [ofEither, decide_eq_false_iff_not] at he
  exact he (by rw [h]; exact hk)

theorem Holding.frame {H : ℕ → Option (Request × UnitOfWork) → Prop} {p₁ : Proposal} {o₁ : Offer}
    (hp : p₁.id = p.id) (ho : o₁.runnerId = o.runnerId) (x : State World Request UnitOfWork)
    (e : Event Request) (he : ofEither a b e = false) (hx : Holding p₁ o₁ n a b H x)
    (hC : Fair bus p o a b x e) : Holding p₁ o₁ n a b H ((service bus).step x e) := by
  refine ⟨hx.1.untouched (by rw [hp, ho]; exact hC.2 he), ?_⟩
  intro k hk
  rw [pool_of_other he hk]
  exact hx.2 k hk

/-- Nothing is pending. -/
def Idle (_ : ℕ) (slot : Option (Request × UnitOfWork)) : Prop := slot = none

/-- Only the transaction `tid` holds a unit of work. -/
def Only (tid : ℕ) (r : Request) (u : UnitOfWork) (k : ℕ) (slot : Option (Request × UnitOfWork)) :
    Prop :=
  slot = if k = tid then some (r, u) else none

/-- The unit of work sets the two statuses and raises the runner's level by `up`. -/
def UnitOfWork.Sets (u : UnitOfWork) (p : Proposal) (o : Offer) (s : ProposalStatus)
    (t : OfferStatus) (up : ℕ) : Prop :=
  ∃ p' o', u.Pairs p p' o o' ∧ p'.status = s ∧ o'.status = t ∧
    (if u.levelUp = some o.runnerId then 1 else 0) = up

/-- **A call that has the pair for itself.**  If what it prepares on the rows `p₁` and
`o₁` sets the statuses `s` and `t` and raises the level by `up`, then so does the call. -/
theorem turn {p₁ : Proposal} {o₁ : Offer} {tid : ℕ} {r : Request} {s : ProposalStatus}
    {t : OfferStatus} {up : ℕ} (hp : p₁.id = p.id) (ho : o₁.runnerId = o.runnerId)
    (htid : tid = a ∨ tid = b)
    (hread : ∀ (w : World) (u : UnitOfWork), w.Stands p₁ o₁ n →
      r.call.body w.db r.now = .ok u → u.Sets p₁ o₁ s t up)
    (hes : es.filter (ofEither a b) = steps tid r ++ l)
    (hC : Runs.Along (service bus).step (Fair bus p o a b) x es)
    (hx : Holding p₁ o₁ n a b Idle x) :
    ∃ x' es' p₂ o₂, es'.filter (ofEither a b) = l ∧
      Runs.Along (service bus).step (Fair bus p o a b) x' es' ∧
      (p₂.id = p₁.id ∧ o₂.id = o₁.id ∧ o₂.runnerId = o₁.runnerId ∧ p₂.status = s ∧
        o₂.status = t) ∧ Holding p₂ o₂ (n + up) a b Idle x' ∧
      Runs.run (service bus).step x es = Runs.run (service bus).step x' es' := by
  have hown : ofEither a b (.read tid r) = true := decide_eq_true htid
  have hown' : ofEither a b (.commit tid : Event Request) = true := decide_eq_true htid
  -- up to the read step
  obtain ⟨x₁, es₁, hes₁, hC₁, ⟨u, ⟨p', o', hu, hps, hos, hup⟩, hx₁⟩, hrun₁⟩ :=
    Runs.run_own (P := Holding p₁ o₁ n a b Idle)
      (Q := fun x => ∃ u, u.Sets p₁ o₁ s t up ∧ Holding p₁ o₁ n a b (Only tid r u) x)
      (Holding.frame hp ho)
      (by
        rintro x ⟨hstands, hslots⟩ hfair
        obtain ⟨u, hr, hstep⟩ := (hfair.1 hown).step_read
        refine ⟨u, hread x.now u hstands (service_read_eq_ok.1 hr).2, ?_⟩
        rw [hstep]
        refine ⟨hstands, fun k hk => ?_⟩
        by_cases hkt : k = tid
        · rw [hkt, State.pool_setPool_self, Only, if_pos rfl]
        · rw [State.pool_setPool_of_ne _ _ hkt, Only, if_neg hkt]
          exact hslots k hk)
      hes hC hx
  -- up to the commit step
  obtain ⟨x₂, es₂, hes₂, hC₂, hx₂, hrun₂⟩ :=
    Runs.run_own (P := Holding p₁ o₁ n a b (Only tid r u))
      (Q := Holding (Proposal.flush u.deadlineAssigned p₁ p' r.now.flush p₁)
        (Offer.flush o₁ o' r.now.flush o₁) (n + up) a b Idle)
      (Holding.frame hp ho)
      (by
        rintro x ⟨hstands, hslots⟩ hfair
        have hslot : x.pool tid = some (r, u) := by
          have := hslots tid htid
          rwa [Only, if_pos rfl] at this
        obtain ⟨w', hc, hstep⟩ := (hfair.1 hown').step_commit hslot
        rw [hstep]
        have hafter := hstands.commit hu rfl rfl hc
        rw [hup] at hafter
        refine ⟨hafter, fun k hk => ?_⟩
        show (x.setPool tid none).pool k = none
        by_cases hkt : k = tid
        · rw [hkt, State.pool_setPool_self]
        · rw [State.pool_setPool_of_ne _ _ hkt, hslots k hk, if_neg hkt])
      hes₁ hC₁ hx₁
  refine ⟨x₂, es₂, _, _, hes₂, hC₂, ⟨Proposal.flush_id _ _ _ _ _, Offer.flush_id _ _ _ _,
    Offer.flush_runnerId _ _ _ _, ?_, ?_⟩, hx₂, hrun₁.trans hrun₂⟩
  · rw [Proposal.flush_status, col_untouched, hps]
  · rw [Offer.flush_status, col_untouched, hos]

/-- A unit of work held by either transaction leaves the proposal unfinished. -/
def Halves (_ : ℕ) (slot : Option (Request × UnitOfWork)) : Prop :=
  ∀ r u, slot = some (r, u) → u.Half

/-- A read step on the untouched pair prepares half a completion. -/
theorem holding_read {tid : ℕ} {r : Request} (htid : tid = a ∨ tid = b)
    (hread : ∀ (w : World) (u : UnitOfWork), w.Stands p o n → r.call.body w.db r.now = .ok u →
      u.Half) {x : State World Request UnitOfWork} (hx : Holding p o n a b Halves x)
    (hfair : Fair bus p o a b x (.read tid r)) :
    Holding p o n a b Halves ((service bus).step x (.read tid r)) := by
  obtain ⟨u, hr, hstep⟩ := (hfair.1 (decide_eq_true htid)).step_read
  rw [hstep]
  refine ⟨hx.1, fun k hk => ?_⟩
  by_cases hkt : k = tid
  · intro r' u' h
    rw [hkt, State.pool_setPool_self, Option.some.injEq, Prod.mk.injEq] at h
    obtain ⟨-, rfl⟩ := h
    exact hread x.now u hx.1 (service_read_eq_ok.1 hr).2
  · rw [State.pool_setPool_of_ne _ _ hkt]
    exact hx.2 k hk

/-- Two such units leave the proposal unfinished, in whatever order they are committed. -/
theorem unfinished_commits (hes : ∀ e ∈ es, ofEither a b e = true → e = .commit a ∨ e = .commit b)
    (hC : Runs.Along (service bus).step (Fair bus p o a b) x es) (hx : x.now.Unfinished p.id)
    (hslots : ∀ k, k = a ∨ k = b → Halves k (x.pool k)) :
    (Runs.run (service bus).step x es).now.Unfinished p.id := by
  induction es generalizing x with
  | nil => exact hx
  | cons e es ih =>
      have htail : ∀ e' ∈ es, ofEither a b e' = true → e' = .commit a ∨ e' = .commit b :=
        fun e' he' => hes e' (List.mem_cons_of_mem _ he')
      cases hown : ofEither a b e with
      | false =>
          refine ih htail hC.2 (hx.untouched (hC.1.2 hown)) fun k hk => ?_
          rw [pool_of_other hown hk]
          exact hslots k hk
      | true =>
          obtain ⟨tid, htid, rfl⟩ : ∃ tid, (tid = a ∨ tid = b) ∧ e = .commit tid := by
            rcases hes e List.mem_cons_self hown with rfl | rfl
            · exact ⟨a, Or.inl rfl, rfl⟩
            · exact ⟨b, Or.inr rfl, rfl⟩
          obtain ⟨r, u, w', hslot, hc⟩ := hC.1.1 hown
          have hstep := Service.step_commit hslot hc
          refine ih htail hC.2 ?_ fun k hk => ?_
          · rw [hstep]
            exact hx.commit (hslots tid htid r u hslot) hc
          · rw [hstep]
            show Halves k ((x.setPool tid none).pool k)
            by_cases hkt : k = tid
            · rw [hkt, State.pool_setPool_self]
              intro r u h
              exact absurd h (by simp)
            · rw [State.pool_setPool_of_ne _ _ hkt]
              exact hslots k hk

end Transactions

/-! ## The two calls -/

section Calls

variable {w : World} {p : Proposal} {o : Offer} {n : ℕ} {r : Request} {u : UnitOfWork}
  {uid : UserId}

theorem deliver_sets (h : w.Stands p o n) (hp : p.status = .matched)
    (hcall : r.call = .completeDelivery o.id uid) (hbody : r.call.body w.db r.now = .ok u) :
    u.Sets p o .matched .runnerCompleted 0 := by
  obtain ⟨-, p', o', hu, ⟨-, hup, hps, hos⟩ | ⟨hne, -⟩⟩ := h.deliver hcall hbody
  · exact ⟨p', o', hu, hps, hos, by simp [hup]⟩
  · exact absurd hne (by simp [hp])

theorem deliver_completes (h : w.Stands p o n) (hp : p.status = .orderCompleted)
    (hcall : r.call = .completeDelivery o.id uid) (hbody : r.call.body w.db r.now = .ok u) :
    u.Sets p o .allCompleted .allCompleted 1 := by
  obtain ⟨-, p', o', hu, ⟨hne, -⟩ | ⟨-, hup, hps, hos⟩⟩ := h.deliver hcall hbody
  · exact absurd hne (by simp [hp])
  · exact ⟨p', o', hu, hps, hos, by simp [hup]⟩

theorem receive_sets (h : w.Stands p o n) (ho : o.status = .accepted)
    (hcall : r.call = .confirmReceived p.id uid) (hbody : r.call.body w.db r.now = .ok u) :
    u.Sets p o .orderCompleted .accepted 0 := by
  obtain ⟨-, p', o', hu, ⟨-, hup, hps, hos⟩ | ⟨hne, -⟩⟩ := h.receive hcall hbody
  · exact ⟨p', o', hu, hps, hos, by simp [hup]⟩
  · exact absurd hne (by simp [ho])

theorem receive_completes (h : w.Stands p o n) (ho : o.status = .runnerCompleted)
    (hcall : r.call = .confirmReceived p.id uid) (hbody : r.call.body w.db r.now = .ok u) :
    u.Sets p o .allCompleted .allCompleted 1 := by
  obtain ⟨-, p', o', hu, ⟨hne, -⟩ | ⟨-, hup, hps, hos⟩⟩ := h.receive hcall hbody
  · exact absurd hne (by simp [ho])
  · exact ⟨p', o', hu, hps, hos, by simp [hup]⟩

theorem UnitOfWork.Sets.half {s : ProposalStatus} {t : OfferStatus} {up : ℕ}
    (h : u.Sets p o s t up) (hs : s ≠ .allCompleted) : u.Half := by
  obtain ⟨p', o', hu, hps, -⟩ := h
  exact ⟨p, p', hu.proposals, by rw [hps]; exact hs⟩

end Calls

/-! ## Both orders, and the overlap -/

section Confirm

variable {bus : EventBus} {w : World} {p : Proposal} {o : Offer} {runner : User} {a b : ℕ}
  {deliver receive : Request} {es : List (Event Request)}

theorem BothConfirm.fair (h : BothConfirm bus w p o a b deliver receive es) :
    Runs.Along (service bus).step (Fair bus p o a b) (State.quiet w) es := by
  rw [Runs.along_iff]
  intro pre e suf he
  exact ⟨Runs.along_iff.1 h.succeed pre e suf he, Runs.along_iff.1 h.alone pre e suf he⟩

theorem completed_of_holding {p₁ p₂ : Proposal} {o₁ o₂ : Offer} {n : ℕ}
    {es' : List (Event Request)} {x : State World Request UnitOfWork}
    (hp₁ : p₁.id = p.id ∧ o₁.id = o.id ∧ o₁.runnerId = o.runnerId)
    (hp₂ : p₂.id = p₁.id ∧ o₂.id = o₁.id ∧ o₂.runnerId = o₁.runnerId ∧
      p₂.status = .allCompleted ∧ o₂.status = .allCompleted)
    (hid : runner.id = o.runnerId) (hn : n = runner.level + 1)
    (hes : es'.filter (ofEither a b) = [])
    (hC : Runs.Along (service bus).step (Fair bus p o a b) x es')
    (hx : Holding p₂ o₂ n a b Idle x) :
    Completed p o runner (Runs.run (service bus).step x es').now := by
  have hrunner : o₂.runnerId = o.runnerId := hp₂.2.2.1.trans hp₁.2.2
  obtain ⟨hstands, -⟩ := Runs.run_foreign (P := Holding p₂ o₂ n a b Idle)
    (Holding.frame (hp₂.1.trans hp₁.1) hrunner) hes hC hx
  obtain ⟨user, huser, huid, hlevel⟩ := hstands.runner
  exact ⟨p₂, o₂, hstands.pair, hp₂.1.trans hp₁.1, hp₂.2.1.trans hp₁.2.1, hp₂.2.2.2.1,
    hp₂.2.2.2.2, user, huser, by rw [huid, hrunner, hid], by rw [hlevel, hn]⟩

/-- **In turn, the second call completes the deal.** -/
theorem completed_of_inTurn (hstands : w.Stands p o runner.level) (hp : p.status = .matched)
    (ho : o.status = .accepted) (hid : runner.id = o.runnerId)
    (h : BothConfirm bus w p o a b deliver receive es) (hturn : InTurn a b deliver receive es) :
    Completed p o runner (Runs.run (service bus).step (State.quiet w) es).now := by
  have hidle : Holding p o runner.level a b Idle (State.quiet w) :=
    ⟨hstands, fun k _ => State.pool_quiet w k⟩
  rcases hturn with hes | hes
  · obtain ⟨x₁, es₁, p₁, o₁, hes₁, hC₁, hpo₁, hx₁, hrun₁⟩ := turn rfl rfl (Or.inl rfl)
      (fun _ _ hst hbody => deliver_sets hst hp h.delivers hbody) hes h.fair hidle
    obtain ⟨x₂, es₂, p₂, o₂, hes₂, hC₂, hpo₂, hx₂, hrun₂⟩ := turn hpo₁.1 hpo₁.2.2.1 (Or.inr rfl)
      (fun _ _ hst hbody => receive_completes hst hpo₁.2.2.2.2
        (by rw [hpo₁.1]; exact h.receives) hbody)
      (by rw [hes₁, List.append_nil]) hC₁ hx₁
    rw [hrun₁, hrun₂]
    exact completed_of_holding ⟨hpo₁.1, hpo₁.2.1, hpo₁.2.2.1⟩ hpo₂ hid rfl hes₂ hC₂ hx₂
  · obtain ⟨x₁, es₁, p₁, o₁, hes₁, hC₁, hpo₁, hx₁, hrun₁⟩ := turn rfl rfl (Or.inr rfl)
      (fun _ _ hst hbody => receive_sets hst ho h.receives hbody) hes h.fair hidle
    obtain ⟨x₂, es₂, p₂, o₂, hes₂, hC₂, hpo₂, hx₂, hrun₂⟩ := turn hpo₁.1 hpo₁.2.2.1 (Or.inl rfl)
      (fun _ _ hst hbody => deliver_completes hst hpo₁.2.2.2.1
        (by rw [hpo₁.2.1]; exact h.delivers) hbody)
      (by rw [hes₁, List.append_nil]) hC₁ hx₁
    rw [hrun₁, hrun₂]
    exact completed_of_holding ⟨hpo₁.1, hpo₁.2.1, hpo₁.2.2.1⟩ hpo₂ hid rfl hes₂ hC₂ hx₂

/-- **Both read before either commits**: neither call sees the other's confirmation. -/
theorem unfinished_of_overlap (hstands : w.Stands p o runner.level) (hp : p.status = .matched)
    (ho : o.status = .accepted) (h : BothConfirm bus w p o a b deliver receive es)
    {l : List (Event Request)} (hl : ∀ e ∈ l, e = .commit a ∨ e = .commit b)
    (hes : es.filter (ofEither a b) = .read a deliver :: .read b receive :: l ∨
      es.filter (ofEither a b) = .read b receive :: .read a deliver :: l) :
    (Runs.run (service bus).step (State.quiet w) es).now.Unfinished p.id := by
  have hquiet : Holding p o runner.level a b Halves (State.quiet w) := by
    refine ⟨hstands, fun k _ r u hslot => ?_⟩
    rw [State.pool_quiet] at hslot
    exact absurd hslot (by simp)
  have hdeliver : ∀ x, Holding p o runner.level a b Halves x →
      Fair bus p o a b x (.read a deliver) →
      Holding p o runner.level a b Halves ((service bus).step x (.read a deliver)) :=
    fun _ hx hfair => holding_read (Or.inl rfl)
      (fun _ _ hst hbody => (deliver_sets hst hp h.delivers hbody).half (by simp)) hx hfair
  have hreceive : ∀ x, Holding p o runner.level a b Halves x →
      Fair bus p o a b x (.read b receive) →
      Holding p o runner.level a b Halves ((service bus).step x (.read b receive)) :=
    fun _ hx hfair => holding_read (Or.inr rfl)
      (fun _ _ hst hbody => (receive_sets hst ho h.receives hbody).half (by simp)) hx hfair
  have hfinish : ∀ {x es'}, es'.filter (ofEither a b) = l →
      Runs.Along (service bus).step (Fair bus p o a b) x es' →
      Holding p o runner.level a b Halves x →
      (Runs.run (service bus).step x es').now.Unfinished p.id := by
    intro x es' hes' hC hx
    refine unfinished_commits ?_ hC ⟨p, hx.1.pair.proposal, rfl, by simp [hp]⟩ hx.2
    intro e he hown
    exact hl e (by rw [← hes']; exact List.mem_filter.2 ⟨he, hown⟩)
  rcases hes with hes | hes
  · obtain ⟨x₁, es₁, hes₁, hC₁, hx₁, hrun₁⟩ := Runs.run_own (Holding.frame rfl rfl) hdeliver hes
      h.fair hquiet
    obtain ⟨x₂, es₂, hes₂, hC₂, hx₂, hrun₂⟩ := Runs.run_own (Holding.frame rfl rfl) hreceive hes₁
      hC₁ hx₁
    rw [hrun₁, hrun₂]
    exact hfinish hes₂ hC₂ hx₂
  · obtain ⟨x₁, es₁, hes₁, hC₁, hx₁, hrun₁⟩ := Runs.run_own (Holding.frame rfl rfl) hreceive hes
      h.fair hquiet
    obtain ⟨x₂, es₂, hes₂, hC₂, hx₂, hrun₂⟩ := Runs.run_own (Holding.frame rfl rfl) hdeliver hes₁
      hC₁ hx₁
    rw [hrun₁, hrun₂]
    exact hfinish hes₂ hC₂ hx₂

theorem BothConfirm.interleaved (h : BothConfirm bus w p o a b deliver receive es) :
    InTurn a b deliver receive es ∨
      ∃ l, (es.filter (ofEither a b) = .read a deliver :: .read b receive :: l ∨
        es.filter (ofEither a b) = .read b receive :: .read a deliver :: l) ∧
        ∀ e ∈ l, e = .commit a ∨ e = .commit b := by
  have hab : a ≠ b := by
    rintro rfl
    have hsame : steps a deliver = steps a receive := h.deliverSteps.symm.trans h.receiveSteps
    simp only [steps, List.cons.injEq, Event.read.injEq, true_and, and_true] at hsame
    have hcalls := congrArg Request.call hsame
    rw [h.delivers, h.receives] at hcalls
    exact absurd hcalls (by simp)
  have hown : ∀ e ∈ es.filter (ofEither a b), e.tid = a ∨ e.tid = b := by
    intro e he
    simpa [ofEither] using (List.mem_filter.1 he).2
  have hfilter : ∀ k, k = a ∨ k = b →
      (es.filter (ofEither a b)).filter (fun e => e.tid = k) = es.filter (fun e => e.tid = k) := by
    intro k hk
    rw [List.filter_filter]
    refine List.filter_congr fun e _ => ?_
    by_cases he : e.tid = k
    · simp [ofEither, he, hk]
    · simp [he]
  rcases steps_interleaved hab hown ((hfilter a (Or.inl rfl)).trans h.deliverSteps)
    ((hfilter b (Or.inr rfl)).trans h.receiveSteps) with hes | hes | hes
  · exact Or.inl (Or.inl hes)
  · exact Or.inl (Or.inr hes)
  · exact Or.inr hes

end Confirm

/-- **When both confirmations complete the deal.**  Take any `MATCHED` proposal of any
reachable database, with its `ACCEPTED` offer, and let the runner deliver and the
orderer confirm, both with success and undisturbed by others.  Afterwards the deal is
completed and the runner one level up precisely if one of the two calls was read after
the other had committed. -/
theorem completed_iff (bus : EventBus) (m : MasterData) (rs : List Request) {p : Proposal}
    {o : Offer} {runner : User} (hpair : (World.after bus m rs).db.Pair p o)
    (hp : p.status = .matched) (ho : o.status = .accepted)
    (hrunner : runner ∈ (World.after bus m rs).db.users) (hid : runner.id = o.runnerId)
    {a b : ℕ} {deliver receive : Request} {es : List (Event Request)}
    (h : BothConfirm bus (World.after bus m rs) p o a b deliver receive es) :
    Completed p o runner
        (Runs.run (service bus).step (State.quiet (World.after bus m rs)) es).now ↔
      InTurn a b deliver receive es := by
  have hstands := stands_after bus m rs hpair (by rw [ho]; decide) hrunner hid
  constructor
  · rintro ⟨p', o', hpair', hpid, -, hst, -⟩
    rcases h.interleaved with hturn | ⟨l, hes, hl⟩
    · exact hturn
    · obtain ⟨q, hq, hqid, hne⟩ := unfinished_of_overlap hstands hp ho h hl hes
      refine absurd hst ?_
      rw [AutoTable.eq_of_key_eq hpair'.proposal hq (hpid.trans hqid.symm)]
      exact hne
  · exact completed_of_inTurn hstands hp ho hid h

/-- Both read before either commits. -/
def Sample.overlap : List (Event Request) :=
  [.read 0 delivery, .read 1 receipt, .commit 0, .commit 1]

theorem bothConfirm_overlap :
    BothConfirm Sample.bus (World.after Sample.bus Sample.master Sample.matched) Sample.paired
      Sample.chosen 0 1 Sample.delivery Sample.receipt Sample.overlap where
  delivers := rfl
  receives := rfl
  deliverSteps := rfl
  receiveSteps := rfl
  succeed := ⟨fun _ => by decide +kernel, fun _ => by decide +kernel, fun _ => by decide +kernel,
    fun _ => by decide +kernel, trivial⟩
  alone := ⟨fun h => absurd h (by decide), fun h => absurd h (by decide),
    fun h => absurd h (by decide), fun h => absurd h (by decide), trivial⟩

/-- Both calls succeed, and the deal is stuck half confirmed. -/
theorem not_completed_overlap :
    (World.after Sample.bus Sample.master Sample.matched).db.Pair Sample.paired Sample.chosen ∧
      BothConfirm Sample.bus (World.after Sample.bus Sample.master Sample.matched) Sample.paired
        Sample.chosen 0 1 Sample.delivery Sample.receipt Sample.overlap ∧
      ¬ Completed Sample.paired Sample.chosen (Sample.user "runner")
        (Runs.run (service Sample.bus).step
          (State.quiet (World.after Sample.bus Sample.master Sample.matched))
          Sample.overlap).now := by
  refine ⟨Sample.pair_matched, bothConfirm_overlap, ?_⟩
  generalize hx : Runs.run (service Sample.bus).step
    (State.quiet (World.after Sample.bus Sample.master Sample.matched)) Sample.overlap = x
  have hrows : ∀ p ∈ x.now.db.proposals.rows, p.status = .orderCompleted := by
    rw [← hx]
    decide +kernel
  rintro ⟨p, o, hpair, -, -, hst, -⟩
  rw [hrows p hpair.proposal] at hst
  exact absurd hst (by decide)

/-- The condition for the overlapping calls. -/
theorem completed_iff_overlap :
    (World.after Sample.bus Sample.master Sample.matched).db.Pair Sample.paired Sample.chosen ∧
      (Completed Sample.paired Sample.chosen (Sample.user "runner")
          (Runs.run (service Sample.bus).step
            (State.quiet (World.after Sample.bus Sample.master Sample.matched))
            Sample.overlap).now ↔
        InTurn 0 1 Sample.delivery Sample.receipt Sample.overlap) :=
  ⟨Sample.pair_matched,
    completed_iff Sample.bus Sample.master Sample.matched Sample.pair_matched rfl rfl
      Sample.runner_matched rfl bothConfirm_overlap⟩

end OrderRun
