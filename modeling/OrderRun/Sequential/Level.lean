import OrderRun.Services.Transitions

/-!
# Levels count completed offers

A user's level moves by an SQL increment in the transaction that completes an
offer, and by nothing else.

* `status_offerRow` — the status of an offer after a unit of work that was
  prepared on the same database.
* `level_call` — one request keeps every level equal to the number of offers the
  user has completed.
* `level_after` — so does every list of requests, if all users start at level 0.
-/

namespace OrderRun

open Store

/-- The number of offers a user has completed as a runner. -/
def Db.completedOffers (db : Db) (userId : UserId) : ℕ :=
  db.offers.rows.countP fun o => o.runnerId = userId ∧ o.status = .allCompleted

/-- Every level is the number of completed offers. -/
def Db.LevelsCount (db : Db) : Prop := ∀ user ∈ db.users, user.level = db.completedOffers user.id

section Step

variable {u : UnitOfWork} {db : Db} {t : DateTime}

/-- **The status of an offer after one request** is the one the call has given it;
without a change of its own it stays, or is rejected in bulk. -/
theorem status_offerRow (hu : u.Prepared db) {o : Offer} (ho : o ∈ db.offers) :
    (∃ c ∈ u.offers, c.loaded = o ∧ (u.offerRow t o).status = c.dirty.status) ∨
      (∀ c ∈ u.offers, c.loaded ≠ o) ∧ ((u.offerRow t o).status = o.status ∨
        o.status = .waiting ∧ (u.offerRow t o).status = .rejected) := by
  have hkey : (u.rejectRow t o).id = o.id := by
    rcases u.rejectRow_cases t o with h | ⟨-, h⟩ <;> rw [h]
  unfold UnitOfWork.offerRow
  rcases writeBack_cases (fun loaded dirty row => Offer.flush loaded dirty t row) u.offers
    (u.rejectRow t o) with ⟨hno, he⟩ | ⟨c, hc, hid, he⟩
  · refine Or.inr ⟨?_, ?_⟩
    · rintro c hc rfl
      exact hno c hc hkey.symm
    · rw [he]
      rcases u.rejectRow_cases t o with h | ⟨hw, h⟩
      · exact Or.inl (by rw [h])
      · exact Or.inr ⟨hw, by rw [h]⟩
  · obtain ⟨hmem, hstep⟩ := hu.offers c hc
    obtain rfl : c.loaded = o := AutoTable.eq_of_key_eq hmem ho (hid.trans hkey)
    refine Or.inl ⟨c, hc, rfl, ?_⟩
    rw [he, Offer.flush_status]
    rcases u.rejectRow_cases t c.loaded with h | ⟨hw, -⟩
    · rw [h, col_untouched]
    · -- a waiting offer is never left waiting
      exact col_of_ne (by rw [hw]; exact hstep.ne_waiting) _

/-- An offer is complete after the request if it was before, or if the call has
completed it. -/
theorem allCompleted_offerRow (hu : u.Prepared db) {o : Offer} (ho : o ∈ db.offers) :
    (u.offerRow t o).status = .allCompleted ↔ o.status = .allCompleted ∨
      ∃ c ∈ u.offers, c.loaded = o ∧ c.dirty.status = .allCompleted := by
  rcases status_offerRow (t := t) hu ho with ⟨c, hc, rfl, hs⟩ | ⟨hno, hs | ⟨hw, hs⟩⟩
  · rw [hs]
    constructor
    · intro h
      exact Or.inr ⟨c, hc, rfl, h⟩
    · rintro (h | ⟨c', hc', hl, h⟩)
      · exact absurd (show c.loaded.status.Terminal by rw [h]; decide)
          (hu.offers c hc).2.not_terminal
      · rcases hu.level with ⟨-, hne⟩ | ⟨d, hd, -, hall⟩
        · exact absurd h (hne c' hc')
        · rw [hd, List.mem_singleton] at hc
          rw [hc]
          exact hall
  · rw [hs]
    exact ⟨Or.inl, fun h => h.resolve_right fun ⟨c, hc, hl, _⟩ => hno c hc hl⟩
  · rw [hs, hw]
    refine iff_of_false (by simp) ?_
    rintro (h | ⟨c, hc, hl, -⟩)
    · exact absurd h (by simp)
    · exact hno c hc hl

/-- The completed offers after a request: one more for the runner whose level the
call raises. -/
theorem completedOffers_write (hu : u.Prepared db) (uid : UserId) :
    (u.write t db).completedOffers uid =
      db.completedOffers uid + if u.levelUp = some uid then 1 else 0 := by
  have hnew : (u.write t db).completedOffers uid = db.offers.rows.countP
      ((fun o => o.runnerId = uid ∧ o.status = .allCompleted) ∘ u.offerRow t) := by
    unfold Db.completedOffers UnitOfWork.write
    cases hn : u.newOffer with
    | none => simp [List.countP_map]
    | some o =>
        have hw := hu.newOffer o hn
        simp [AutoTable.add, List.countP_append, List.countP_map, hw]
  have hrow : ∀ o ∈ db.offers.rows,
      ((fun o => decide (o.runnerId = uid ∧ o.status = .allCompleted)) ∘ u.offerRow t) o =
        decide (o.runnerId = uid ∧ (o.status = .allCompleted ∨
          ∃ c ∈ u.offers, c.loaded = o ∧ c.dirty.status = .allCompleted)) := by
    intro o ho
    refine decide_eq_decide.2 (and_congr ?_ (allCompleted_offerRow hu ho))
    rw [UnitOfWork.offerRow_runnerId]
  rw [hnew]
  unfold Db.completedOffers
  rcases hu.level with ⟨hl, hne⟩ | ⟨c, hc, hl, hall⟩
  · rw [hl, if_neg (by simp), Nat.add_zero]
    refine List.countP_congr fun o ho => ?_
    rw [hrow o ho, decide_eq_true_iff, decide_eq_true_iff]
    refine and_congr_right fun _ => or_iff_left ?_
    rintro ⟨c, hc, -, h⟩
    exact hne c hc h
  · obtain ⟨hmem, hstep⟩ := hu.offers c (by simp [hc])
    have hbefore : c.loaded.status ≠ .allCompleted := by
      intro h
      exact hstep.not_terminal (by rw [h]; decide)
    rw [hl]
    by_cases hrun : c.loaded.runnerId = uid
    · rw [if_pos (by rw [hrun])]
      refine countP_eq_add_one db.offers.toTable.rows_nodup hmem (by simp [hbefore]) ?_ ?_
      · rw [hrow _ hmem]
        simp [hrun, hc, hall]
      · intro o ho hne
        rw [hrow o ho]
        refine decide_eq_decide.2 (and_congr_right fun _ => or_iff_left ?_)
        rintro ⟨c', hc', hl', -⟩
        rw [hc, List.mem_singleton] at hc'
        exact hne (by rw [← hl', hc'])
    · rw [if_neg (by simpa using hrun), Nat.add_zero]
      refine List.countP_congr fun o ho => ?_
      rw [hrow o ho, decide_eq_true_iff, decide_eq_true_iff]
      refine and_congr_right fun hruns => or_iff_left ?_
      rintro ⟨c', hc', hl', -⟩
      rw [hc, List.mem_singleton] at hc'
      exact hrun (by rw [← hc', hl', hruns])

end Step

/-- **One request keeps levels and completed offers equal.** -/
theorem level_call (bus : EventBus) {w : World} (h : w.db.LevelsCount) (r : Request) :
    ((service bus).call w r).db.LevelsCount := by
  rcases call_cases bus w r with he | ⟨u, db, -, hbody, hcommit, he⟩
  · rw [he]; exact h
  · rw [he]
    obtain ⟨-, -, husers, -, hoffers⟩ := UnitOfWork.commit_eq_ok hcommit
    intro user' huser'
    have hcount : db.completedOffers user'.id =
        (u.write r.now.flush w.db).completedOffers user'.id := by
      unfold Db.completedOffers
      rw [hoffers]
    show user'.level = db.completedOffers user'.id
    replace huser' : user' ∈ (u.write r.now.flush w.db).users := by rw [← husers]; exact huser'
    obtain ⟨user, huser, rfl⟩ := UnitOfWork.mem_users_write.1 huser'
    rw [hcount, completedOffers_write (body_prepared hbody), u.userRow_level, u.userRow_id,
      h user huser]

/-- **Levels count completed offers.**  If all users start at level 0, then after any
requests, executed one at a time from an empty database, the level of every user is
the number of offers the user has completed as a runner. -/
theorem level_after (bus : EventBus) (m : MasterData) (hlevel : ∀ user ∈ m.users, user.level = 0)
    (rs : List Request) : (World.after bus m rs).db.LevelsCount := by
  refine Runs.inv_run (I := fun w : World => w.db.LevelsCount)
    (fun _ r h => level_call bus h r) ?_ rs
  intro user huser
  exact hlevel user huser

/-- Two runners apply, one delivers, and the orderer confirms. -/
theorem level_after_delivery : (∀ user ∈ Sample.master.users, user.level = 0) ∧
    (World.after Sample.bus Sample.master Sample.delivered).db.LevelsCount :=
  have hlevel : ∀ user ∈ Sample.master.users.rows, user.level = 0 := by decide
  ⟨hlevel, level_after Sample.bus Sample.master hlevel _⟩

end OrderRun
