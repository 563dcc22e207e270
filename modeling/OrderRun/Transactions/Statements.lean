import OrderRun.Lib.Session
import OrderRun.Concurrent.Commits

/-!
# The statements of a call

What a service method sends to the database, one statement after the other, each of which
may fail: its queries, the bulk statements, the flush, the lookups of the event handlers, the
flush of what they have added, and the `COMMIT`.

* `Raised`, `Tx` — a method as a script over the database.
* `Tx.store` — the statements behind a unit of work, in the order in which the methods send
  them.
* `Tx.transaction` — the shape of most methods: guards, statements, and a response.
* `store_atomic` — an exception leaves nothing behind, and a return leaves everything the
  unit of work has promised.
* `store_quiet` — if nothing goes wrong on the way, the statements come to
  `UnitOfWork.commit`.
-/

namespace OrderRun

open Store Session Script

/-- What a method raises. -/
inductive Raised where
  /-- An error of the program, or a violated constraint. -/
  | failure (failure : Failure)
  /-- Any other exception of the database. -/
  | database (message : String)
  deriving DecidableEq, Repr

/-- A method in a session. -/
abbrev Tx (α : Type) : Type := Script Db Raised α

/-- The keys the next new rows will get. -/
structure Keys where
  proposal : ℕ
  offer : ℕ
  report : ℕ

def Db.nextKeys (db : Db) : Keys := ⟨db.proposals.next, db.offers.next, db.reports.next⟩

/-- What is known when a unit of work is committed: the number of offers the bulk statement
has rejected, and the keys of the new rows. -/
structure Stored where
  rejectedOfferCount : ℕ
  keys : Keys

namespace UnitOfWork

/-- What a unit of work leaves to the flush. -/
def objects (u : UnitOfWork) : UnitOfWork :=
  { u with rejectWaiting := none, levelUp := none, purge := none }

/-- The database after the flush, unless a unique constraint refuses it. -/
def flushed (u : UnitOfWork) (utcnow : DateTime) (db : Db) : Except Failure Db := do
  raiseIf (u.OfferTaken db) (.integrityError "uk_proposal_runner")
  raiseIf (u.ReportTaken db) (.integrityError "uk_proposal_reports_proposal_reporter")
  return u.objects.write utcnow db

end UnitOfWork

namespace Tx

variable {α : Type}

/-! ## Statements -/

/-- Queries without a write in between, and what the program makes of them. -/
def read (g : Db → Except Failure α) : Tx α := query fun db => (g db).mapError .failure

/-- What the program computes after the commit.  A connection that is lost by then is not
modelled. -/
def answer (g : Db → Except Failure α) : Tx α := ask fun db => (g db).mapError .failure

/-- `db.refresh(...)`. -/
def refresh (find : Db → Option α) : Tx α := ask fun db =>
  match find db with
  | none => .error (.database "Could not refresh instance")
  | some row => .ok row

section Store

variable (bus : EventBus) (utcnow : DateTime) (u : UnitOfWork)

/-- `UPDATE offers SET status = REJECTED ...`, with the number of rows it has changed. -/
def rejectWaiting : Tx ℕ :=
  match u.rejectWaiting with
  | none => return 0
  | some stmt => do
      let rejectedCount ← ask fun db => .ok (db.offers.rows.countP fun o => stmt.Selects o)
      execute fun db => .ok
        { db with offers := db.offers.map (u.rejectRow utcnow) rejectRow_id }
      return rejectedCount

/-- `UPDATE users SET level = level + 1 ...`. -/
def levelUp : Tx Unit :=
  match u.levelUp with
  | none => return ()
  | some _ => execute fun db => .ok { db with users := db.users.map u.levelRow u.levelRow_id }

/-- A user without a phone has no records to delete. -/
def purgeRecords (phone : Option String) : Tx Unit :=
  match phone with
  | none => return ()
  | some _ => execute fun db => .ok { db with
      verifications := u.keep db.verifications fun purge v => some v.phone = purge.phone }

/-- The `DELETE`s of a withdrawal. -/
def purge : Tx Unit :=
  match u.purge with
  | none => return ()
  | some purge => do
      purgeRecords u purge.phone
      execute fun db => .ok { db with
        fcmTokens := u.keep db.fcmTokens fun purge t => t.userId = purge.userId }
      execute fun db => .ok { db with
        settlementAccounts :=
          u.keep db.settlementAccounts fun purge a => a.userId = purge.userId }
      execute fun db => .ok { db with
        notifications := u.keep db.notifications fun purge n => n.userId = purge.userId }

/-- The bulk statements: the session sees what they have done at once. -/
def bulk : Tx ℕ := do
  let rejectedOfferCount ← rejectWaiting utcnow u
  levelUp u
  purge u
  return rejectedOfferCount

/-- The new rows and the changed objects.  Whichever of its statements fails, a flush fails as
a whole. -/
def flush : Tx Keys := do
  let keys ← ask fun db => .ok db.nextKeys
  execute fun db => (u.flushed utcnow db).mapError .failure
  return keys

/-- A handler looks up each recipient before it adds a notification.  A lookup that fails ends
the handler; what it has added so far stays in the session. -/
def addEach : List Notification → Tx (List Notification)
  | [] => return []
  | draft :: drafts => do
      if ← attempt send then
        let added ← addEach drafts
        return draft :: added
      else
        return []

/-- The handlers, one after the other: whatever one of them raises is swallowed. -/
def runHandlers (event : DomainEvent) : List Handler → Tx (List Notification)
  | [] => return []
  | handler :: handlers => do
      let drafts ← ask fun db => .ok (handler.run db.users event)
      let added ← addEach drafts
      let rest ← runHandlers event handlers
      return added ++ rest

def publish : Option DomainEvent → Tx (List Notification)
  | none => return []
  | some event => runHandlers event (bus.handlers event.type)

/-- The row of a draft. -/
def draftRow (draft : Notification) (k : ℕ) : Notification :=
  { draft with id := k, createdAt := utcnow }

/-- What the handlers have added is flushed by the commit. -/
def addNotifications (drafts : List Notification) : Tx Unit :=
  execute fun db => .ok { db with
    notifications := drafts.foldl (fun t draft => t.insert (draftRow utcnow draft))
      db.notifications }

/-- **The statements behind a unit of work.** -/
def store : Tx Stored := do
  let rejectedOfferCount ← bulk utcnow u
  let keys ← flush utcnow u
  let drafts ← publish bus (u.event.map (· keys.offer))
  addNotifications utcnow drafts
  commit
  return ⟨rejectedOfferCount, keys⟩

end Store

end Tx

/-! ## What a unit of work writes -/

namespace UnitOfWork

variable (u : UnitOfWork) (utcnow : DateTime) (db : Db)

/-- The database after the bulk statements. -/
def bulk : Db :=
  { db with
    offers := db.offers.map (u.rejectRow utcnow) rejectRow_id
    users := db.users.map u.levelRow u.levelRow_id
    verifications := u.keep db.verifications fun purge v => some v.phone = purge.phone
    fcmTokens := u.keep db.fcmTokens fun purge t => t.userId = purge.userId
    settlementAccounts := u.keep db.settlementAccounts fun purge a => a.userId = purge.userId
    notifications := u.keep db.notifications fun purge n => n.userId = purge.userId }

/-- What a unit of work leaves behind, with these notifications. -/
def written (notifications : AutoTable Notification) : Db :=
  { u.write utcnow db with notifications := notifications }

/-- The flush completes what the bulk statements have begun. -/
theorem write_objects : u.objects.write utcnow (u.bulk utcnow db) = u.write utcnow db := by
  unfold write bulk
  congr 1
  · exact Table.map_map db.users u.levelRow_id u.objects.userRow_id
  · exact congrArg (fun t : AutoTable Offer => t.add u.newOffer _)
      (AutoTable.map_map db.offers rejectRow_id (u.objects.offerRow_id utcnow))

/-- The bulk statements do not make room for an offer. -/
theorem offerTaken_bulk : u.OfferTaken (u.bulk utcnow db) ↔ u.OfferTaken db := by
  have hrow : ∀ o, (u.rejectRow utcnow o).proposalId = o.proposalId ∧
      (u.rejectRow utcnow o).runnerId = o.runnerId := by
    intro o
    rcases u.rejectRow_cases utcnow o with h | ⟨-, h⟩ <;> rw [h] <;> exact ⟨rfl, rfl⟩
  refine exists_congr fun new => and_congr_right fun _ => ?_
  simp [bulk, hrow]

/-- After the bulk statements the flush is refused exactly when the unit of work is. -/
theorem flushed_bulk (bus : EventBus) : u.flushed utcnow (u.bulk utcnow db) =
    (fun _ => u.write utcnow db) <$> u.commit utcnow db bus := by
  have hreport : u.ReportTaken (u.bulk utcnow db) ↔ u.ReportTaken db := Iff.rfl
  simp only [flushed, commit, raiseIf, write_objects, offerTaken_bulk, hreport]
  by_cases ho : u.OfferTaken db
  · rw [if_pos ho]
    rfl
  · rw [if_neg ho]
    by_cases hr : u.ReportTaken db
    · rw [if_pos hr]
      rfl
    · rw [if_neg hr]
      rfl

end UnitOfWork

/-! ## What the statements do -/

namespace Tx

section Spec

variable {α β : Type} {bus : EventBus} {utcnow : DateTime} {u : UnitOfWork} {d x : Db}
  {N : Raised → Db → Prop} {Q : β → Session Db Raised → Prop}

@[simp] theorem mapError_eq_ok {y : Except Failure α} {a : α} :
    y.mapError Raised.failure = .ok a ↔ y = .ok a := by
  cases y <;> simp [Except.mapError]

theorem read_bind {g : Db → Except Failure α} {f : α → Tx β}
    (h : ∀ a, g x = .ok a → Triple (Open d x) (f a) Q (Leaves d N)) :
    Triple (Open d x) (read g >>= f) Q (Leaves d N) :=
  .query_bind fun a ha => h a (mapError_eq_ok.1 ha)

theorem moves_rejectWaiting : Moves x (rejectWaiting utcnow u)
    { x with offers := x.offers.map (u.rejectRow utcnow) rejectRow_id } := by
  unfold rejectWaiting
  cases hstmt : u.rejectWaiting with
  | none =>
      have hsame : x.offers.map (u.rejectRow utcnow) rejectRow_id = x.offers :=
        AutoTable.map_eq_self fun o _ => by rw [UnitOfWork.rejectRow, hstmt]
      rw [hsame]
      exact .ret _
  | some stmt =>
      exact .bind (.ask _) fun rejectedCount => .bind (.execute _) fun _ => .ret rejectedCount

theorem moves_levelUp :
    Moves x (levelUp u) { x with users := x.users.map u.levelRow u.levelRow_id } := by
  unfold levelUp
  cases huser : u.levelUp with
  | none =>
      have hsame : x.users.map u.levelRow u.levelRow_id = x.users :=
        Table.map_eq_self fun user _ => by simp [UnitOfWork.levelRow, huser]
      rw [hsame]
      exact .ret _
  | some uid => exact .execute _

theorem moves_purgeRecords {purge : Purge} (h : u.purge = some purge) :
    Moves x (purgeRecords u purge.phone) { x with
      verifications := u.keep x.verifications fun purge v => some v.phone = purge.phone } := by
  unfold purgeRecords
  cases hphone : purge.phone with
  | none =>
      have hsame : u.keep x.verifications (fun purge v => some v.phone = purge.phone) =
          x.verifications := by
        simp only [UnitOfWork.keep, h, hphone]
        exact AutoTable.filter_eq_self fun v _ => by simp
      rw [hsame]
      exact .ret _
  | some phone => exact .execute _

theorem moves_purge : Moves x (purge u) { x with
    verifications := u.keep x.verifications fun purge v => some v.phone = purge.phone
    fcmTokens := u.keep x.fcmTokens fun purge t => t.userId = purge.userId
    settlementAccounts := u.keep x.settlementAccounts fun purge a => a.userId = purge.userId
    notifications := u.keep x.notifications fun purge n => n.userId = purge.userId } := by
  unfold purge
  cases hpurge : u.purge with
  | none =>
      simp only [UnitOfWork.keep, hpurge]
      exact .ret _
  | some p =>
      refine .bind (moves_purgeRecords hpurge) fun _ => ?_
      exact .bind (.execute _) fun _ => .bind (.execute _) fun _ => .execute _

theorem moves_bulk (utcnow : DateTime) (u : UnitOfWork) (x : Db) :
    Moves x (bulk utcnow u) (u.bulk utcnow x) :=
  .bind moves_rejectWaiting fun n => .bind moves_levelUp fun _ => .bind moves_purge fun _ => .ret n

/-- A flush is refused, or completes the unit of work. -/
theorem flush_atomic : Triple (Open d (u.bulk utcnow x)) (flush utcnow u)
    (fun keys s => (keys = x.nextKeys ∧ ¬ u.OfferTaken x ∧ ¬ u.ReportTaken x) ∧
      Open d (u.write utcnow x) s) (Leaves d N) := by
  unfold flush
  refine .ask_bind fun keys hkeys => .execute_bind fun x' hx' => .ret fun s hs => ?_
  obtain rfl := Except.ok.inj hkeys
  simp only [UnitOfWork.flushed, mapError_eq_ok, bind_eq_ok, raiseIf_eq_ok, pure_eq_ok,
    UnitOfWork.write_objects, UnitOfWork.offerTaken_bulk] at hx'
  obtain ⟨-, hoffer, -, hreport, rfl⟩ := hx'
  exact ⟨⟨rfl, hoffer, hreport⟩, hs⟩

theorem addEach_atomic (drafts : List Notification) {E : Raised → Session Db Raised → Prop} :
    Triple (Open d x) (addEach drafts) (fun _ => Open d x) E := by
  induction drafts with
  | nil => exact .ret fun _ hs => hs
  | cons draft drafts ih =>
      refine .attempt_bind fun found => ?_
      cases found with
      | true => exact ih.bind fun added => .ret fun _ hs => hs
      | false => exact .ret fun _ hs => hs

theorem runHandlers_atomic (event : DomainEvent) (handlers : List Handler) :
    Triple (Open d x) (runHandlers event handlers) (fun _ => Open d x) (Leaves d N) := by
  induction handlers with
  | nil => exact .ret fun _ hs => hs
  | cons handler handlers ih =>
      refine .ask_bind fun drafts _ => (addEach_atomic drafts).bind fun added => ?_
      exact ih.bind fun rest => .ret fun _ hs => hs

/-- The handlers write nothing themselves. -/
theorem publish_atomic (event : Option DomainEvent) :
    Triple (Open d x) (publish bus event) (fun _ => Open d x) (Leaves d N) := by
  cases event with
  | none => exact .ret fun _ hs => hs
  | some event => exact runHandlers_atomic event _

/-- **All or nothing**: an exception leaves nothing behind, and a return everything the unit of
work has promised, with some of the notifications. -/
theorem store_atomic : Triple (Open d d) (store bus utcnow u)
    (fun stored s => stored.keys = d.nextKeys ∧ ∃ notifications,
      Open (u.written utcnow d notifications) (u.written utcnow d notifications) s)
    (Leaves d N) := by
  unfold store
  refine (moves_bulk utcnow u d).triple.bind fun n => flush_atomic.bind fun keys => .assuming ?_
  rintro ⟨rfl, -, -⟩
  refine (publish_atomic _).bind fun drafts => .bind .open_execute fun _ => ?_
  exact .bind .open_commit fun _ => .ret fun s hs => ⟨rfl, _, hs⟩

/-! ### Without mishaps -/

theorem addEach_quiet (drafts : List Notification) :
    addEach drafts ⟨d, x, []⟩ = (.ok drafts, ⟨d, x, []⟩) := by
  induction drafts with
  | nil => rfl
  | cons draft drafts ih =>
      unfold addEach
      rw [bind_ok attempt_quiet]
      exact bind_ok ih

theorem runHandlers_quiet (event : DomainEvent) (handlers : List Handler) :
    runHandlers event handlers ⟨d, x, []⟩ =
      (.ok (handlers.flatMap fun handler => handler.run x.users event), ⟨d, x, []⟩) := by
  induction handlers with
  | nil => rfl
  | cons handler handlers ih =>
      unfold runHandlers
      rw [bind_ok (ask_ok _ _), bind_ok (addEach_quiet _), bind_ok ih]
      rfl

theorem publish_quiet (k : ℕ) : publish bus (u.event.map (· k)) ⟨d, x, []⟩ =
    (.ok (u.drafts bus k x.users), ⟨d, x, []⟩) := by
  unfold UnitOfWork.drafts
  cases u.event with
  | none => rfl
  | some event => exact runHandlers_quiet _ _

theorem flush_quiet {d' : Db} (h : u.commit utcnow x bus = .ok d') :
    flush utcnow u ⟨d, u.bulk utcnow x, []⟩ = (.ok x.nextKeys, ⟨d, u.write utcnow x, []⟩) := by
  have hexecute : execute (fun db => (u.flushed utcnow db).mapError Raised.failure)
      ⟨d, u.bulk utcnow x, []⟩ = (.ok (), ⟨d, u.write utcnow x, []⟩) :=
    execute_quiet (by rw [u.flushed_bulk utcnow x bus, h]; rfl)
  unfold flush
  rw [bind_ok (ask_ok _ _), bind_ok hexecute]
  rfl

theorem flush_quiet_error {failure : Failure} (h : u.commit utcnow x bus = .error failure) :
    flush utcnow u ⟨d, u.bulk utcnow x, []⟩ =
      (.error (.failure failure), ⟨d, u.bulk utcnow x, []⟩) := by
  have hexecute : execute (fun db => (u.flushed utcnow db).mapError Raised.failure)
      ⟨d, u.bulk utcnow x, []⟩ = (.error (.failure failure), ⟨d, u.bulk utcnow x, []⟩) :=
    execute_quiet_error (by rw [u.flushed_bulk utcnow x bus, h]; rfl)
  unfold flush
  rw [bind_ok (ask_ok _ _), bind_error hexecute]

/-- What publishing the event comes to. -/
theorem write_publish (u : UnitOfWork) (utcnow : DateTime) (bus : EventBus) (k : ℕ) (x : Db) :
    u.publish utcnow bus k x = { x with
      notifications := (u.drafts bus k x.users).foldl
        (fun t draft => t.insert (draftRow utcnow draft)) x.notifications } := by
  unfold UnitOfWork.publish UnitOfWork.drafts
  cases u.event with
  | none => rfl
  | some event => rfl

/-- The number of offers the bulk statement rejects. -/
theorem bulk_rejectWaiting {stmt : RejectWaiting} (hreject : u.rejectWaiting = some stmt)
    (hlevel : u.levelUp = none) (hpurge : u.purge = none) : bulk utcnow u ⟨d, x, []⟩ =
      (.ok (x.offers.rows.countP fun o => stmt.Selects o), ⟨d, u.bulk utcnow x, []⟩) := by
  obtain ⟨n, hn⟩ := (moves_bulk utcnow u x).quiet d
  have hfirst : rejectWaiting utcnow u ⟨d, x, []⟩ =
      (.ok (x.offers.rows.countP fun o => stmt.Selects o),
        ⟨d, { x with offers := x.offers.map (u.rejectRow utcnow) rejectRow_id }, []⟩) := by
    unfold rejectWaiting
    rw [hreject]
    rfl
  have hsecond : ∀ s, levelUp u s = (.ok (), s) := by
    unfold levelUp
    rw [hlevel]
    exact fun _ => rfl
  have hthird : ∀ s, purge u s = (.ok (), s) := by
    unfold purge
    rw [hpurge]
    exact fun _ => rfl
  have hcount : (bulk utcnow u ⟨d, x, []⟩).1 =
      .ok (x.offers.rows.countP fun o => stmt.Selects o) := by
    unfold bulk
    rw [bind_ok hfirst, bind_ok (hsecond _), bind_ok (hthird _)]
    rfl
  rw [hn] at hcount ⊢
  exact Prod.ext hcount rfl

theorem store_of_bulk {n : ℕ} {d' : Db}
    (hbulk : bulk utcnow u ⟨d, x, []⟩ = (.ok n, ⟨d, u.bulk utcnow x, []⟩))
    (h : u.commit utcnow x bus = .ok d') :
    store bus utcnow u ⟨d, x, []⟩ = (.ok ⟨n, x.nextKeys⟩, ⟨d', d', []⟩) := by
  have hd' : u.publish utcnow bus x.offers.next (u.write utcnow x) = d' := by
    simp only [UnitOfWork.commit, bind_eq_ok, pure_eq_ok] at h
    obtain ⟨-, -, -, -, h⟩ := h
    exact h
  unfold store
  rw [bind_ok hbulk, bind_ok (flush_quiet h), bind_ok (publish_quiet _), ← hd', write_publish]
  rfl

theorem store_quiet {d' : Db} (h : u.commit utcnow x bus = .ok d') :
    ∃ n, store bus utcnow u ⟨d, x, []⟩ = (.ok ⟨n, x.nextKeys⟩, ⟨d', d', []⟩) := by
  obtain ⟨n, hbulk⟩ := (moves_bulk utcnow u x).quiet d
  exact ⟨n, store_of_bulk hbulk h⟩

theorem store_quiet_error {failure : Failure} (h : u.commit utcnow x bus = .error failure) :
    ∃ s, store bus utcnow u ⟨d, x, []⟩ = (.error (.failure failure), s) ∧ s.committed = d := by
  obtain ⟨n, hbulk⟩ := (moves_bulk utcnow u x).quiet d
  refine ⟨⟨d, u.bulk utcnow x, []⟩, ?_, rfl⟩
  unfold store
  rw [bind_ok hbulk, bind_error (flush_quiet_error h)]

end Spec
end Tx

/-! ## Methods -/

namespace Tx

variable {α β : Type}

/-- The shape of most methods: the guards, the statements with what is read back under the
same `except` clause, and the response. -/
def guarded (bus : EventBus) (utcnow : DateTime) (body : Db → Except Failure UnitOfWork)
    (reload : Stored → Tx α) (recover : Raised → Tx α) (respond : α → Tx β) : Tx β := do
  let u ← read body
  let loaded ← handle (do let stored ← store bus utcnow u; reload stored) recover
  respond loaded

/-- A method without an `except` clause. -/
def transaction (bus : EventBus) (utcnow : DateTime) (body : Db → Except Failure UnitOfWork)
    (respond : Stored → Tx β) : Tx β :=
  guarded bus utcnow body pure raise respond

/-- `except IntegrityError`: everything else goes on upwards. -/
def exceptIntegrityError (reply : String → Failure) (e : Raised) : Tx α :=
  match e with
  | .failure (.integrityError constraint) => do
      rollback
      raise (.failure (reply constraint))
  | e => raise e

/-- What a call that nothing interferes with makes of the database. -/
def executed (bus : EventBus) (utcnow : DateTime) (body : Db → Except Failure UnitOfWork)
    (d : Db) : Db :=
  match (do let u ← body d; u.commit utcnow d bus : Except Failure Db) with
  | .error _ => d
  | .ok d' => d'

/-- **What is shown of a method**: an exception leaves nothing behind, a return everything the
unit of work has promised, and if nothing goes wrong on the way, it comes to executing the
unit of work at one stroke. -/
structure Atomic (bus : EventBus) (utcnow : DateTime) (body : Db → Except Failure UnitOfWork)
    (d : Db) (m : Tx α) : Prop where
  triple : ∀ {N : Raised → Db → Prop}, Triple (Open d d) m
    (fun _ s => ∃ u notifications, body d = .ok u ∧
      s.committed = u.written utcnow d notifications) (Leaves d N)
  quiet : (m (.start d [])).2.committed = executed bus utcnow body d

section Atomic

variable {bus : EventBus} {utcnow : DateTime} {body : Db → Except Failure UnitOfWork} {d : Db}
  {N : Raised → Db → Prop}

theorem read_ok {g : Db → Except Failure α} {x : Db} {a : α} (h : g x = .ok a) :
    read g ⟨d, x, []⟩ = (.ok a, ⟨d, x, []⟩) := by
  unfold read
  rw [query_quiet, h]
  rfl

theorem read_error {g : Db → Except Failure α} {x : Db} {failure : Failure}
    (h : g x = .error failure) :
    read g ⟨d, x, []⟩ = (.error (.failure failure), ⟨d, x, []⟩) := by
  unfold read
  rw [query_quiet, h]
  rfl

theorem read_value (g : Db → α) (d x : Db) :
    read (fun db => .ok (g db)) ⟨d, x, []⟩ = (.ok (g x), ⟨d, x, []⟩) := rfl

theorem executed_of_error {failure : Failure} (h : body d = .error failure) :
    executed bus utcnow body d = d := by
  unfold executed
  rw [h]
  rfl

theorem executed_of_ok {u : UnitOfWork} (h : body d = .ok u) : executed bus utcnow body d =
    match u.commit utcnow d bus with
    | .error _ => d
    | .ok d' => d' := by
  unfold executed
  rw [h]
  rfl

theorem reraises_exceptIntegrityError (reply : String → Failure) :
    Reraises (exceptIntegrityError reply : Raised → Tx α) := by
  intro e s
  unfold exceptIntegrityError
  split
  · next constraint =>
      exact reraises_rollback (fun _ => Raised.failure (reply constraint))
        (.failure (.integrityError constraint)) s
  · exact reraises_raise _ s

theorem guarded_atomic {reload : Stored → Tx α} {recover : Raised → Tx α} {respond : α → Tx β}
    (hrecover : Reraises recover)
    (h : ∀ n u notifications, body d = .ok u → ∃ loaded response,
      Returns (u.written utcnow d notifications) (reload ⟨n, d.nextKeys⟩) loaded ∧
      Returns (u.written utcnow d notifications) (respond loaded) response) :
    Atomic bus utcnow body d (guarded bus utcnow body reload recover respond) where
  triple := by
    refine read_bind fun u hu => ?_
    have hloaded : Triple (Open d d) (do let stored ← store bus utcnow u; reload stored)
        (fun loaded s => ∃ notifications, (∃ response,
            Returns (u.written utcnow d notifications) (respond loaded) response) ∧
          Open (u.written utcnow d notifications) (u.written utcnow d notifications) s)
        (Leaves d Nothing) := by
      refine store_atomic.bind fun ⟨n, keys⟩ => .assuming ?_
      rintro rfl
      refine .exists_pre fun notifications => ?_
      obtain ⟨loaded, response, hreload, hrespond⟩ := h n u notifications hu
      refine hreload.triple.weaken (fun _ hs => hs) ?_ fun _ _ he => he
      rintro _ s ⟨rfl, hs⟩
      exact ⟨notifications, ⟨response, hrespond⟩, hs⟩
    refine (Triple.handle_reraises hloaded hrecover).bind fun loaded => ?_
    refine .exists_pre fun notifications => .assuming ?_
    rintro ⟨response, hrespond⟩
    exact hrespond.triple.weaken (fun _ hs => hs)
      (fun _ _ hs => ⟨u, notifications, hu, hs.2.1⟩) fun _ _ he => he
  quiet := by
    unfold guarded Session.start
    cases hbody : body d with
    | error failure =>
        rw [bind_error (read_error hbody), executed_of_error hbody]
    | ok u =>
        rw [bind_ok (read_ok hbody), executed_of_ok hbody]
        cases hcommit : u.commit utcnow d bus with
        | error failure =>
            obtain ⟨s, hstore, hs⟩ := store_quiet_error (d := d) hcommit
            obtain ⟨e, s', hraise, hcommitted⟩ := hrecover (.failure failure) s
            rw [bind_error ((handle_error (bind_error hstore)).trans hraise)]
            exact hcommitted.trans hs
        | ok d' =>
            obtain ⟨n, hstore⟩ := store_quiet (d := d) hcommit
            obtain ⟨notifications, hd'⟩ := UnitOfWork.commit_same hcommit
            obtain ⟨loaded, response, hreload, hrespond⟩ := h n u notifications hbody
            rw [bind_ok (handle_ok ((bind_ok hstore).trans (hreload _ hd'))), hrespond _ hd']

/-- Without an `except` clause. -/
theorem transaction_atomic {respond : Stored → Tx β}
    (h : ∀ n u notifications, body d = .ok u → ∃ response,
      Returns (u.written utcnow d notifications) (respond ⟨n, d.nextKeys⟩) response) :
    Atomic bus utcnow body d (transaction bus utcnow body respond) :=
  guarded_atomic reraises_raise fun n u notifications hu => by
    obtain ⟨response, hrespond⟩ := h n u notifications hu
    exact ⟨_, response, .ret _, hrespond⟩

end Atomic
end Tx
end OrderRun
