import OrderRun.Concurrent.Pair
import OrderRun.Sequential.Log

/-!
# Repeated confirmations

How often `complete_delivery` and `confirm_received` can succeed on one matched pair
when they are submitted repeatedly and run concurrently.  The statuses they require
are checked when they are read; the level is raised by an increment at the commit.

* `World.count` — how many calls of a kind have been answered with success.
* `Confirmed` — in every interleaving, the offer is `ACCEPTED` as long as no delivery
  has succeeded, the proposal `MATCHED` as long as no receipt has, and the level is
  untouched as long as one of the two is missing.
* `ConfirmedOnce` — each succeeds at most once and the level grows by at most one.
* `confirmedOnce_iff` — this holds precisely if every confirmation commits while the
  status it has checked still stands.
-/

namespace OrderRun

open Store Split

/-! ## Counting successes -/

instance (oid : ℕ) : DecidablePred (Call.Delivers oid) := fun call =>
  match call with
  | .completeDelivery id uid => decidable_of_iff (id = oid)
      ⟨fun h => ⟨uid, by rw [h]⟩, fun ⟨_, h⟩ => (Call.completeDelivery.inj h).1⟩
  | .proposalCreate _ _ | .proposalUpdate _ _ _ | .proposalCancel _ _ | .confirmPayment _
  | .confirmReceived _ _ | .proposalDispute _ _ _ _ | .offerCreate _ _ | .offerCancel _ _
  | .offerAccept _ _ | .offerDispute _ _ _ _ | .resolve _ | .reportCreate _ _ _
  | .reportAccept _ | .reportReject _ | .withdrawUser _ => isFalse (by simp [Call.Delivers])

instance (pid : ℕ) : DecidablePred (Call.Receives pid) := fun call =>
  match call with
  | .confirmReceived id uid => decidable_of_iff (id = pid)
      ⟨fun h => ⟨uid, by rw [h]⟩, fun ⟨_, h⟩ => (Call.confirmReceived.inj h).1⟩
  | .proposalCreate _ _ | .proposalUpdate _ _ _ | .proposalCancel _ _ | .confirmPayment _
  | .completeDelivery _ _ | .proposalDispute _ _ _ _ | .offerCreate _ _ | .offerCancel _ _
  | .offerAccept _ _ | .offerDispute _ _ _ _ | .resolve _ | .reportCreate _ _ _
  | .reportAccept _ | .reportReject _ | .withdrawUser _ => isFalse (by simp [Call.Receives])

/-- How many requests with such a call have been committed. -/
def World.count (w : World) (A : Call → Prop) [DecidablePred A] : ℕ :=
  w.log.countP fun e => A e.request.call

section Count

variable {w w' : World} {A : Call → Prop} [DecidablePred A]

theorem count_eq_zero : w.count A = 0 ↔ ¬ w.Succeeded A := by
  simp [World.count, World.Succeeded, List.countP_eq_zero]

theorem count_cons {e : Entry} {db : Db} :
    World.count ⟨db, e :: w.log⟩ A = w.count A + if A e.request.call then 1 else 0 := by
  simp [World.count, List.countP_cons]

theorem count_commit {bus : EventBus} {r : Request} {u : UnitOfWork}
    (h : (service bus).commit w r u = .ok w') :
    w'.count A = w.count A + if A r.call then 1 else 0 := by
  obtain ⟨db, -, rfl⟩ := service_commit_eq_ok.1 h
  exact count_cons

/-- A delivery counts as one, and as no receipt. -/
theorem count_delivery {bus : EventBus} {r : Request} {u : UnitOfWork} {oid : ℕ} {uid : UserId}
    (h : (service bus).commit w r u = .ok w') (hcall : r.call = .completeDelivery oid uid)
    (pid : ℕ) : w'.count (Call.Delivers oid) = w.count (Call.Delivers oid) + 1 ∧
      w'.count (Call.Receives pid) = w.count (Call.Receives pid) := by
  refine ⟨by rw [count_commit h, if_pos ⟨uid, hcall⟩], ?_⟩
  rw [count_commit h, if_neg, Nat.add_zero]
  rintro ⟨uid', hreceipt⟩
  rw [hcall] at hreceipt
  exact absurd hreceipt (by simp)

/-- A receipt counts as one, and as no delivery. -/
theorem count_receipt {bus : EventBus} {r : Request} {u : UnitOfWork} {pid : ℕ} {uid : UserId}
    (h : (service bus).commit w r u = .ok w') (hcall : r.call = .confirmReceived pid uid)
    (oid : ℕ) : w'.count (Call.Receives pid) = w.count (Call.Receives pid) + 1 ∧
      w'.count (Call.Delivers oid) = w.count (Call.Delivers oid) := by
  refine ⟨by rw [count_commit h, if_pos ⟨uid, hcall⟩], ?_⟩
  rw [count_commit h, if_neg, Nat.add_zero]
  rintro ⟨uid', hdelivery⟩
  rw [hcall] at hdelivery
  exact absurd hdelivery (by simp)

end Count

/-! ## One request after the other -/

section Sequential

variable {w : World} {p : Proposal} {o : Offer}

theorem delivered_eq_zero (hl : w.Logged) (ht : w.Traced) (hpair : w.db.Pair p o)
    (hex : Executed o.status) : w.count (Call.Delivers o.id) = 0 ↔
      (w.db.deal p).marks.runner = none := by
  have hr := (ht.history p hpair.proposal).chronicle.executed _ hpair.mem_bids hex
  rw [count_eq_zero, ← delivered_iff hl ht hpair hex]
  rw [show Did (w.log.filterMap (Entry.move p.id)) [.deliver, .deliverLast] o.id ↔ _ from
    hr.runner.symm, Option.not_isSome_iff_eq_none]

theorem received_eq_zero (hl : w.Logged) (ht : w.Traced) (hpair : w.db.Pair p o)
    (hex : Executed o.status) : w.count (Call.Receives p.id) = 0 ↔
      (w.db.deal p).marks.orderer = none := by
  have hr := (ht.history p hpair.proposal).chronicle.executed _ hpair.mem_bids hex
  rw [count_eq_zero, ← received_iff hl ht hpair hex]
  rw [show Did (w.log.filterMap (Entry.move p.id)) [.receive, .receiveLast] o.id ↔ _ from
    hr.orderer.symm, Option.not_isSome_iff_eq_none]

/-- No offer is delivered twice when requests are executed one at a time. -/
theorem delivered_atMostOnce (bus : EventBus) (m : MasterData) (rs : List Request) (oid : ℕ) :
    (World.after bus m rs).count (Call.Delivers oid) ≤ 1 := by
  induction rs using List.reverseRecOn with
  | nil => exact Nat.zero_le 1
  | append_singleton rs r ih =>
      have hstep : World.after bus m (rs ++ [r]) =
          (service bus).call (World.after bus m rs) r := Runs.run_concat _ _ _
      rw [hstep]
      rcases call_cases bus (World.after bus m rs) r with he | ⟨u, db, -, hbody, -, he⟩
      · rw [he]; exact ih
      · rw [he, count_cons]
        split
        · next hdel =>
            obtain ⟨uid, hcall⟩ : Call.Delivers oid r.call := hdel
            rw [hcall] at hbody
            obtain ⟨p, o, hpair, rfl, -, hos, -⟩ := OfferService.completeDelivery_eq_ok hbody
            have hex : Executed o.status := by rw [hos]; decide
            have ht := traced_after bus m rs
            have hr := (ht.history p hpair.proposal).chronicle.executed _ hpair.mem_bids hex
            have hnone :=
              (delivered_eq_zero (logged_after bus m rs) ht hpair hex).2 (hr.noRunner hos)
            rw [hnone]
        · exact ih

end Sequential

/-! ## Any interleaving -/

/-- The call confirms the pair. -/
def Request.Confirms (p : Proposal) (o : Offer) (r : Request) : Prop :=
  r.call.Delivers o.id ∨ r.call.Receives p.id

/-- What stays true of the pair, whatever is repeated or overlaps: the statuses tell
which confirmations have been answered with success so far. -/
def World.Confirmed (p : Proposal) (o : Offer) (level : ℕ) (w : World) : Prop :=
  ∃ p' o' n, (p'.id = p.id ∧ o'.id = o.id ∧ o'.runnerId = o.runnerId) ∧ w.Stands p' o' n ∧
    (o'.status = .accepted ↔ w.count (Call.Delivers o.id) = 0) ∧
    (p'.status = .matched ↔ w.count (Call.Receives p.id) = 0) ∧
    (w.count (Call.Delivers o.id) = 0 ∨ w.count (Call.Receives p.id) = 0 → n = level)

/-- Successes are not forgotten. -/
structure World.CountsUp (p : Proposal) (o : Offer) (w w' : World) : Prop where
  delivered : w.count (Call.Delivers o.id) ≤ w'.count (Call.Delivers o.id)
  received : w.count (Call.Receives p.id) ≤ w'.count (Call.Receives p.id)

/-- Each confirmation has succeeded at most once, and the runner is at most one level up. -/
structure World.ConfirmedOnce (p : Proposal) (o : Offer) (runner : User) (w : World) : Prop where
  delivered : w.count (Call.Delivers o.id) ≤ 1
  received : w.count (Call.Receives p.id) ≤ 1
  level : ∀ user ∈ w.db.users, user.id = runner.id → user.level ≤ runner.level + 1

/-- A delivery commits while the offer is still `ACCEPTED`, a receipt while the proposal
is still `MATCHED`. -/
def StillOpen (w : World) (r : Request) (_ : UnitOfWork) : Prop :=
  match r.call with
  | .completeDelivery oid _ => ∀ o ∈ w.db.offers, o.id = oid → o.status = .accepted
  | .confirmReceived pid _ => ∀ p ∈ w.db.proposals, p.id = pid → p.status = .matched
  | _ => True

section Commit

variable {bus : EventBus} {w₀ w w' : World} {p : Proposal} {o : Offer} {level : ℕ} {r : Request}
  {u : UnitOfWork}

/-- A delivery, read from an earlier state and committed now: from now on the offer has
been delivered. -/
theorem confirmed_delivery {uid : UserId} (hcall : r.call = .completeDelivery o.id uid)
    (h₀ : w₀.Confirmed p o level) (hbody : r.call.body w₀.db r.now = .ok u)
    (hR : w₀.CountsUp p o w) (h : w.Confirmed p o level)
    (hc : (service bus).commit w r u = .ok w') : w'.Confirmed p o level := by
  obtain ⟨p₀, o₀, n₀, ⟨hp₀, ho₀, hrun₀⟩, hst₀, -, hmat₀, -⟩ := h₀
  obtain ⟨p₁, o₁, n, ⟨hp₁, ho₁, hrun₁⟩, hst, -, hmat, hlevel⟩ := h
  obtain ⟨hos₀, p', o', hu, hcases⟩ := hst₀.deliver (by rw [hcall, ho₀]) hbody
  obtain ⟨hdel, hrec⟩ := count_delivery hc hcall p.id
  have hle := hR.received
  -- the receipt that has been seen is still there
  have hseen : p₀.status = .orderCompleted → w₀.count (Call.Receives p.id) ≠ 0 := fun hps₀ h => by
    rw [hmat₀.2 h] at hps₀
    exact absurd hps₀ (by simp)
  refine ⟨_, _, _, ⟨(Proposal.flush_id _ _ _ _ _).trans hp₁, (Offer.flush_id _ _ _ _).trans ho₁,
    (Offer.flush_runnerId _ _ _ _).trans hrun₁⟩,
    hst.commit hu (hp₀.trans hp₁.symm) (ho₀.trans ho₁.symm) hc, ?_, ?_, ?_⟩
  · refine iff_of_false ?_ (by omega)
    rw [Offer.flush_status, hos₀]
    rcases hcases with ⟨-, -, -, hos⟩ | ⟨-, -, -, hos⟩ <;> simp [hos, col]
  · rw [hrec, Proposal.flush_status]
    rcases hcases with ⟨hps₀, -, hps, -⟩ | ⟨hps₀, -, hps, -⟩
    · rw [hps₀, hps, col_unchanged]
      exact hmat
    · have hne := hseen hps₀
      refine iff_of_false ?_ (by omega)
      simp [hps₀, hps, col]
  · intro hmissing
    have hzero : w.count (Call.Receives p.id) = 0 := by omega
    rcases hcases with ⟨-, hup, -⟩ | ⟨hps₀, -⟩
    · rw [hup, if_neg (by simp), Nat.add_zero]
      exact hlevel (Or.inr hzero)
    · have hne := hseen hps₀
      omega

/-- A receipt, read from an earlier state and committed now: from now on the proposal
has been received. -/
theorem confirmed_receipt {uid : UserId} (hcall : r.call = .confirmReceived p.id uid)
    (h₀ : w₀.Confirmed p o level) (hbody : r.call.body w₀.db r.now = .ok u)
    (hR : w₀.CountsUp p o w) (h : w.Confirmed p o level)
    (hc : (service bus).commit w r u = .ok w') : w'.Confirmed p o level := by
  obtain ⟨p₀, o₀, n₀, ⟨hp₀, ho₀, hrun₀⟩, hst₀, hacc₀, -⟩ := h₀
  obtain ⟨p₁, o₁, n, ⟨hp₁, ho₁, hrun₁⟩, hst, hacc, -, hlevel⟩ := h
  obtain ⟨hps₀, p', o', hu, hcases⟩ := hst₀.receive (by rw [hcall, hp₀]) hbody
  obtain ⟨hrec, hdel⟩ := count_receipt hc hcall o.id
  have hle := hR.delivered
  -- the delivery that has been seen is still there
  have hseen : o₀.status = .runnerCompleted → w₀.count (Call.Delivers o.id) ≠ 0 := fun hos₀ h => by
    rw [hacc₀.2 h] at hos₀
    exact absurd hos₀ (by simp)
  refine ⟨_, _, _, ⟨(Proposal.flush_id _ _ _ _ _).trans hp₁, (Offer.flush_id _ _ _ _).trans ho₁,
    (Offer.flush_runnerId _ _ _ _).trans hrun₁⟩,
    hst.commit hu (hp₀.trans hp₁.symm) (ho₀.trans ho₁.symm) hc, ?_, ?_, ?_⟩
  · rw [hdel, Offer.flush_status]
    rcases hcases with ⟨hos₀, -, -, hos⟩ | ⟨hos₀, -, -, hos⟩
    · rw [hos₀, hos, col_unchanged]
      exact hacc
    · have hne := hseen hos₀
      refine iff_of_false ?_ (by omega)
      simp [hos₀, hos, col]
  · refine iff_of_false ?_ (by omega)
    rw [Proposal.flush_status, hps₀]
    rcases hcases with ⟨-, -, hps, -⟩ | ⟨-, -, hps, -⟩ <;> simp [hps, col]
  · intro hmissing
    have hzero : w.count (Call.Delivers o.id) = 0 := by omega
    rcases hcases with ⟨-, hup, -⟩ | ⟨hos₀, -⟩
    · rw [hup, if_neg (by simp), Nat.add_zero]
      exact hlevel (Or.inl hzero)
    · have hne := hseen hos₀
      omega

/-- **One confirmation**, read from an earlier state and committed now. -/
theorem confirmed_commit (hA : r.Confirms p o) (h₀ : w₀.Confirmed p o level)
    (hread : (service bus).read w₀ r = .ok u) (hR : w₀.CountsUp p o w)
    (h : w.Confirmed p o level) (hc : (service bus).commit w r u = .ok w') :
    w'.Confirmed p o level := by
  have hbody := (service_read_eq_ok.1 hread).2
  rcases hA with ⟨uid, hcall⟩ | ⟨uid, hcall⟩
  · exact confirmed_delivery hcall h₀ hbody hR h hc
  · exact confirmed_receipt hcall h₀ hbody hR h hc

/-- Confirmations keep `Confirmed`, and their successes add up. -/
theorem sound_confirmed (bus : EventBus) (p : Proposal) (o : Offer) (level : ℕ) :
    (service bus).Sound (World.Confirmed p o level) (World.CountsUp p o)
      (Request.Confirms p o) where
  refl := fun _ => ⟨le_rfl, le_rfl⟩
  trans := fun _ _ _ h h' => ⟨h.delivered.trans h'.delivered, h.received.trans h'.received⟩
  commit := by
    intro w₀ w w' r u hA h₀ hread hR h hc
    refine ⟨confirmed_commit hA h₀ hread hR h hc, ?_, ?_⟩
    · rw [count_commit hc]
      exact Nat.le_add_right _ _
    · rw [count_commit hc]
      exact Nat.le_add_right _ _

/-- The rows of the pair, by their ids. -/
theorem World.Confirmed.rows (h : w.Confirmed p o level) :
    (∀ x ∈ w.db.offers, x.id = o.id →
        (x.status = .accepted ↔ w.count (Call.Delivers o.id) = 0)) ∧
      ∀ x ∈ w.db.proposals, x.id = p.id →
        (x.status = .matched ↔ w.count (Call.Receives p.id) = 0) := by
  obtain ⟨p₁, o₁, n, ⟨hp₁, ho₁, -⟩, hst, hacc, hmat, -⟩ := h
  constructor
  · intro x hx hid
    rw [AutoTable.eq_of_key_eq hx hst.pair.offer (hid.trans ho₁.symm)]
    exact hacc
  · intro x hx hid
    rw [AutoTable.eq_of_key_eq hx hst.pair.proposal (hid.trans hp₁.symm)]
    exact hmat

/-- The runner's level, while one of the two confirmations is missing. -/
theorem World.Confirmed.level_eq (h : w.Confirmed p o level)
    (hmissing : w.count (Call.Delivers o.id) = 0 ∨ w.count (Call.Receives p.id) = 0) {user : User}
    (huser : user ∈ w.db.users) (hid : user.id = o.runnerId) : user.level = level := by
  obtain ⟨p₁, o₁, n, ⟨-, -, hrun⟩, hst, -, -, hlevel⟩ := h
  obtain ⟨v, hv, hvid, hvlevel⟩ := hst.runner
  obtain rfl : user = v := Table.eq_of_key_eq huser hv (hid.trans (hrun.symm.trans hvid.symm))
  rw [hvlevel, hlevel hmissing]

/-- A commit raises a level by at most one. -/
theorem level_commit_le (hc : (service bus).commit w r u = .ok w') {user' : User}
    (huser' : user' ∈ w'.db.users) :
    ∃ user ∈ w.db.users, user.id = user'.id ∧ user'.level ≤ user.level + 1 := by
  rw [(commit_tables hc).1] at huser'
  obtain ⟨user, huser, rfl⟩ := UnitOfWork.mem_users_write.1 huser'
  refine ⟨user, huser, (u.userRow_id user).symm, ?_⟩
  rw [u.userRow_level]
  split <;> omega

/-- **One commit keeps the confirmations single** precisely if the status it relies on
still stands. -/
theorem confirmedOnce_commit {runner : User} (hid : runner.id = o.runnerId)
    (hA : r.Confirms p o) (h : w.Confirmed p o runner.level) (hP : w.ConfirmedOnce p o runner)
    (hc : (service bus).commit w r u = .ok w') :
    w'.ConfirmedOnce p o runner ↔ StillOpen w r u := by
  obtain ⟨hoffers, hproposals⟩ := h.rows
  -- while one confirmation is missing, a commit cannot take the level too far
  have hlevel : w.count (Call.Delivers o.id) = 0 ∨ w.count (Call.Receives p.id) = 0 →
      ∀ user ∈ w'.db.users, user.id = runner.id → user.level ≤ runner.level + 1 := by
    intro hmissing user' huser' hid'
    obtain ⟨user, huser, heq, hle⟩ := level_commit_le hc huser'
    rw [h.level_eq hmissing huser (heq.trans (hid'.trans hid))] at hle
    exact hle
  have hexists : ∃ p₁ ∈ w.db.proposals, p₁.id = p.id ∧ ∃ o₁ ∈ w.db.offers, o₁.id = o.id := by
    obtain ⟨p₁, o₁, n, ⟨hp₁, ho₁, -⟩, hst, -⟩ := h
    exact ⟨p₁, hst.pair.proposal, hp₁, o₁, hst.pair.offer, ho₁⟩
  obtain ⟨p₁, hp₁, hpid, o₁, ho₁, hoid⟩ := hexists
  have hdelivered := hP.delivered
  have hreceived := hP.received
  rcases hA with ⟨uid, hcall⟩ | ⟨uid, hcall⟩
  · obtain ⟨hdel, hrec⟩ := count_delivery hc hcall p.id
    simp only [StillOpen, hcall]
    constructor
    · intro h' x hx hxid
      have hle := h'.delivered
      exact (hoffers x hx hxid).2 (by omega)
    · intro hopen
      have hzero := (hoffers o₁ ho₁ hoid).1 (hopen o₁ ho₁ hoid)
      exact ⟨by omega, by omega, hlevel (Or.inl hzero)⟩
  · obtain ⟨hrec, hdel⟩ := count_receipt hc hcall o.id
    simp only [StillOpen, hcall]
    constructor
    · intro h' x hx hxid
      have hle := h'.received
      exact (hproposals x hx hxid).2 (by omega)
    · intro hopen
      have hzero := (hproposals p₁ hp₁ hpid).1 (hopen p₁ hp₁ hpid)
      exact ⟨by omega, by omega, hlevel (Or.inr hzero)⟩

end Commit

/-! ## From a reachable database -/

theorem confirmed_after (bus : EventBus) (m : MasterData) (rs : List Request) {p : Proposal}
    {o : Offer} {runner : User} (hpair : (World.after bus m rs).db.Pair p o)
    (hp : p.status = .matched) (ho : o.status ∈ [.accepted, .runnerCompleted])
    (hrunner : runner ∈ (World.after bus m rs).db.users) (hid : runner.id = o.runnerId) :
    (World.after bus m rs).Confirmed p o runner.level ∧
      (World.after bus m rs).ConfirmedOnce p o runner := by
  have hex : Executed o.status := by
    rcases List.mem_pair.1 ho with h | h <;> rw [h] <;> decide
  have hl := logged_after bus m rs
  have ht := traced_after bus m rs
  have hr := (ht.history p hpair.proposal).chronicle.executed _ hpair.mem_bids hex
  have hreceived := (received_eq_zero hl ht hpair hex).2 (hr.noOrderer hp)
  refine ⟨⟨p, o, runner.level, ⟨rfl, rfl, rfl⟩, stands_after bus m rs hpair hex hrunner hid, ?_,
    iff_of_true hp hreceived, fun _ => rfl⟩, delivered_atMostOnce bus m rs o.id, by omega, ?_⟩
  · rw [delivered_eq_zero hl ht hpair hex]
    refine ⟨hr.noRunner, fun hnone => ?_⟩
    rcases List.mem_pair.1 ho with h | h
    · exact h
    · have hsome := hr.hasRunner h
      rw [hnone] at hsome
      exact absurd hsome (by simp)
  · intro user huser huid
    rw [Table.eq_of_key_eq huser hrunner huid]
    exact Nat.le_succ _

/-- **When confirmations take effect once.**  Take any `MATCHED` proposal of any
reachable database, with its executed offer, and interleave any number of deliveries and
receipts of the two.  Each kind succeeds at most once, and the runner gains at most one
level, precisely if every delivery commits while the offer is still `ACCEPTED` and every
receipt while the proposal is still `MATCHED`. -/
theorem confirmedOnce_iff (bus : EventBus) (m : MasterData) (rs : List Request) {p : Proposal}
    {o : Offer} {runner : User} (hpair : (World.after bus m rs).db.Pair p o)
    (hp : p.status = .matched) (ho : o.status ∈ [.accepted, .runnerCompleted])
    (hrunner : runner ∈ (World.after bus m rs).db.users) (hid : runner.id = o.runnerId)
    {es : List (Event Request)} (hes : ∀ e ∈ es, e.Calls (Request.Confirms p o)) :
    Runs.Always (service bus).step (fun x => x.now.ConfirmedOnce p o runner)
        (State.quiet (World.after bus m rs)) es ↔
      Runs.Along (service bus).step ((service bus).Commits StillOpen)
        (State.quiet (World.after bus m rs)) es := by
  obtain ⟨hinv, honce⟩ := confirmed_after bus m rs hpair hp ho hrunner hid
  exact Service.always_iff_commits (sound_confirmed bus p o runner.level)
    (P := fun w => w.ConfirmedOnce p o runner)
    (fun hA _ _ _ hi hP hc => confirmedOnce_commit hid hA hi hP hc) hinv honce hes

/-- The runner's delivery is submitted twice, and the orderer has already confirmed. -/
def Sample.twoDeliveries : List (Event Request) :=
  [.read 0 receipt, .commit 0, .read 0 (request 8 delivery.call), .read 1 (request 9 delivery.call),
    .commit 0, .commit 1]

theorem confirms_twoDeliveries :
    ∀ e ∈ Sample.twoDeliveries, e.Calls (Request.Confirms Sample.paired Sample.chosen) := by
  simp [Sample.twoDeliveries, Sample.request, Sample.delivery, Sample.receipt, Sample.paired,
    Sample.chosen, Event.Calls, Request.Confirms, Call.Delivers, Call.Receives]

/-- Both deliveries succeed, and the runner gains two levels. -/
theorem not_confirmedOnce_twoDeliveries :
    (World.after Sample.bus Sample.master Sample.matched).db.Pair Sample.paired Sample.chosen ∧
      (∀ e ∈ Sample.twoDeliveries, e.Calls (Request.Confirms Sample.paired Sample.chosen)) ∧
      ¬ Runs.Always (service Sample.bus).step
        (fun x => x.now.ConfirmedOnce Sample.paired Sample.chosen (Sample.user "runner"))
        (State.quiet (World.after Sample.bus Sample.master Sample.matched))
        Sample.twoDeliveries := by
  refine ⟨Sample.pair_matched, confirms_twoDeliveries, fun h => ?_⟩
  have hlast := Runs.always_last h
  revert hlast
  generalize hx : Runs.run (service Sample.bus).step
    (State.quiet (World.after Sample.bus Sample.master Sample.matched)) Sample.twoDeliveries = x
  have htwice : x.now.count (Call.Delivers Sample.chosen.id) = 2 ∧
      ∃ user ∈ x.now.db.users.rows, user.id = "runner" ∧ user.level = 2 := by
    rw [← hx]
    decide +kernel
  intro honce
  have hle := honce.delivered
  rw [htwice.1] at hle
  exact absurd hle (by decide)

/-- The condition for the repeated delivery. -/
theorem confirmedOnce_iff_twoDeliveries :
    (World.after Sample.bus Sample.master Sample.matched).db.Pair Sample.paired Sample.chosen ∧
      (∀ e ∈ Sample.twoDeliveries, e.Calls (Request.Confirms Sample.paired Sample.chosen)) ∧
      (Runs.Always (service Sample.bus).step
          (fun x => x.now.ConfirmedOnce Sample.paired Sample.chosen (Sample.user "runner"))
          (State.quiet (World.after Sample.bus Sample.master Sample.matched))
          Sample.twoDeliveries ↔
        Runs.Along (service Sample.bus).step ((service Sample.bus).Commits StillOpen)
          (State.quiet (World.after Sample.bus Sample.master Sample.matched))
          Sample.twoDeliveries) :=
  ⟨Sample.pair_matched, confirms_twoDeliveries,
    confirmedOnce_iff Sample.bus Sample.master Sample.matched Sample.pair_matched rfl (by decide)
      Sample.runner_matched rfl confirms_twoDeliveries⟩

end OrderRun
