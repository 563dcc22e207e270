import OrderRun.Transactions.Confirmation
import OrderRun.Application.Command

/-!
# Failing calls

The mutating methods are called on any database the application can get to, and anything may
go wrong on the way.

* `MutatingCall.Bookkept`, `MutatingCall.Done` — what a call may leave behind when it raises,
  and what it has promised when it returns.
* `App.Reachable` — the reachable databases: those of single commands, of calls that overlap,
  and of calls that have failed (`reachable_after`, `reachable_interleaved`, `reachable_tx`).
* `questioned_reachable` — every report names one of the questions, so that the response about
  a reviewed report can be put together after the commit.
* `App.failed_call_unchanged` — a failing call changes nothing.
* `mutatingCall_quiet` — if nothing goes wrong on the way, a call comes to its command.
-/

namespace OrderRun

open Store Session Script Tx Split

/-! ## Calls -/

/-- The calls that change something, each with what the clock shows while it runs. -/
inductive MutatingCall where
  | service (call : Call) (now : Readings)
  | confirmSignup (payload : AuthPhoneConfirmRequest) (userId : UserId) (now : Readings)
  | confirmLogin (payload : AuthLoginConfirmRequest) (now : Readings)

namespace MutatingCall

/-- The call in a session. -/
def tx (settings : Settings) (bus : EventBus) : MutatingCall → Tx Unit
  | .service call now => call.tx bus now
  | .confirmSignup payload userId now =>
      ignore (UserAuthService.confirmSignupTx settings payload userId now)
  | .confirmLogin payload now => ignore (UserAuthService.confirmLoginTx settings payload now)

/-- What an exception may leave behind. -/
def Bookkept (d : Db) : MutatingCall → Raised → Db → Prop
  | .service _ _ => Nothing
  | .confirmSignup payload _ _ => Bookkeeping .signup (normalizePhone payload.phone) d
  | .confirmLogin payload _ => Bookkeeping .login (normalizePhone payload.phone) d

/-- What the call has promised when it returns: its unit of work with some of the
notifications, or the new user, or the login. -/
def Done (settings : Settings) (d : Db) : MutatingCall → Db → Prop
  | .service call now => fun d' => ∃ u notifications, call.body d now = .ok u ∧
      d' = u.written now.flush d notifications
  | .confirmSignup payload userId now => fun d' =>
      d' = (UserAuthService.confirmSignup settings d payload userId now).1
  | .confirmLogin payload now => fun d' =>
      d' = (UserAuthService.confirmLogin settings d payload now).1

end MutatingCall

/-! ## Reachable databases -/

/-- The databases the application can get to. -/
inductive App.Reachable (m : MasterData) : Db → Prop where
  | initial : Reachable m (World.initial m).db
  /-- A unit of work that was prepared on any of these databases is committed on this one, with
  the notifications the handlers have come to add. -/
  | commit {d₀ d : Db} (h₀ : Reachable m d₀) (h : Reachable m d) {call : Call} {now : Readings}
      {u : UnitOfWork} (hbody : call.body d₀ now = .ok u)
      (notifications : AutoTable Notification) :
      Reachable m (u.written now.flush d notifications)
  | account {d d' : Db} (h : Reachable m d) (hstep : AccountStep d d') : Reachable m d'

section Reachable

variable {settings : Settings} {bus : EventBus} {m : MasterData} {d d' : Db}

open App

/-- Calls that overlap only get to reachable databases. -/
theorem reachable_service {w₀ w w' : World} {r : Request} {u : UnitOfWork}
    (h₀ : Reachable m w₀.db) (h : Reachable m w.db) (hread : (service bus).read w₀ r = .ok u)
    (hcommit : (service bus).commit w r u = .ok w') : Reachable m w'.db := by
  obtain ⟨db, hdb, rfl⟩ := service_commit_eq_ok.1 hcommit
  obtain ⟨notifications, rfl⟩ := UnitOfWork.commit_same hdb
  exact .commit h₀ h (service_read_eq_ok.1 hread).2 notifications

theorem reachable_step {w : World} (h : Reachable m w.db) (c : Command) :
    Reachable m (App.step settings bus w c).db := by
  cases c with
  | deal r =>
      rcases Service.call_cases (S := service bus) w r with he | ⟨u, hread, hcommit⟩
      · show Reachable m ((service bus).call w r).db
        rw [he]
        exact h
      · exact reachable_service h h hread hcommit
  | account c => exact .account h (accountStep_run settings w.db c)

/-- So do commands executed one at a time. -/
theorem reachable_after (cs : List Command) : Reachable m (App.after settings bus m cs).db :=
  Runs.inv_run (I := fun w : World => Reachable m w.db) (fun _ c h => reachable_step h c)
    .initial cs

/-- And calls in every interleaving of their reads and commits. -/
theorem reachable_interleaved (es : List (Event Request)) :
    Runs.Always (service bus).step (fun s => Reachable m s.now.db)
      (State.quiet (World.initial m)) es := by
  have hsound : (service bus).Sound (fun w : World => Reachable m w.db) (fun _ _ => True)
      fun _ => True :=
    ⟨fun _ => trivial, fun _ _ _ _ _ => trivial,
      fun _ h₀ hread _ h hcommit => ⟨reachable_service h₀ h hread hcommit, trivial⟩⟩
  have hcalls : ∀ e ∈ es, e.Calls fun _ : Request => True := by
    intro e _
    cases e <;> trivial
  have hrun := hsound.inv_run (s := World.initial m) Reachable.initial hcalls
  exact Runs.always_iff.2 fun es₁ es₂ he => (Runs.always_iff.1 hrun es₁ es₂ he).1

/-! ## The questions of reports -/

/-- The reason of a new report is among the questions. -/
theorem question_of_newReport {call : Call} {now : Readings} {u : UnitOfWork}
    (h : call.body d now = .ok u) {report : ProposalReport} (hnew : u.newReport = some report) :
    ∃ q ∈ d.reasonQuestions, q.id = report.reasonQuestionId := by
  rcases (body_fills h).newReport with hnone | ⟨pid, uid, request, rfl⟩
  · rw [hnone] at hnew
    exact absurd hnew (by simp)
  · obtain ⟨q, hq, -, report', hid, rfl⟩ := ProposalReportService.question_of_create h
    rw [← Option.some.inj hnew]
    exact ⟨q, hq, hid.symm⟩

/-- **Every report names one of the questions**, which nobody changes. -/
theorem questioned_reachable (h : Reachable m d) :
    d.reasonQuestions = m.reasonQuestions ∧ d.Questioned := by
  induction h with
  | initial => exact ⟨rfl, fun r hr => absurd hr List.not_mem_nil⟩
  | @commit d₀ d _ _ call now u hbody notifications ih₀ ih =>
      refine ⟨ih.1, fun r hr => ?_⟩
      rcases UnitOfWork.mem_reports_write.1 hr with ⟨r', hr', rfl⟩ | ⟨report, hnew, rfl⟩
      · rw [u.reportRow_reasonQuestionId]
        exact ih.2 r' hr'
      · obtain ⟨q, hq, hid⟩ := question_of_newReport hbody hnew
        rw [ih₀.1, ← ih.1] at hq
        exact ⟨q, hq, hid⟩
  | account h hstep ih =>
      cases hstep <;> exact ih

end Reachable

/-! ## All or nothing -/

/-- A call that returns has done what it has promised; one that raises has left nothing behind,
or what it may leave behind. -/
theorem mutatingCall_atomic (settings : Settings) (bus : EventBus) {d : Db} (hd : d.Questioned)
    (call : MutatingCall) : Triple (Open d d) (call.tx settings bus)
      (fun _ s => call.Done settings d s.committed) (Leaves d (call.Bookkept d)) := by
  cases call with
  | service call now => exact (call_atomic bus now hd call).triple
  | confirmSignup payload userId now =>
      exact (confirmSignup_atomic settings payload userId now d).bind fun _ => .ret fun _ hs => hs
  | confirmLogin payload now =>
      exact (confirmLogin_atomic settings payload now d).bind fun _ => .ret fun _ hs => hs

/-- **A failing call changes nothing.**  Whatever goes wrong, and wherever: in every reachable
database, a call that ends in an exception leaves the committed contents of every table as they
were, but for the bookkeeping of `verify`. -/
theorem App.failed_call_unchanged (settings : Settings) (bus : EventBus) {m : MasterData} {d : Db}
    (h : App.Reachable m d) (call : MutatingCall) (mishaps : List (Option Raised)) {e : Raised}
    {s : Session Db Raised} (hrun : call.tx settings bus (.start d mishaps) = (.error e, s)) :
    s.committed = d ∨ call.Bookkept d e s.committed :=
  (mutatingCall_atomic settings bus (questioned_reachable h).2 call).of_error
    (open_start d mishaps) hrun

namespace Sample

/-- Both runners have applied. -/
def applied : Db := (App.after .sample bus master (offered.map .deal)).db

def acceptance : MutatingCall := .service (.offerAccept 1 "orderer") ⟨50, 51, 52, 53⟩

def conflict : Raised := .database "could not serialize access"

/-- The `COMMIT` of the acceptance fails. -/
def refused : Except Raised Unit × Session Db Raised :=
  acceptance.tx .sample bus (.start applied (List.replicate 6 none ++ [some conflict]))

end Sample

/-- By the time of the `COMMIT` two notifications wait in the session. -/
theorem App.failed_call_unchanged_refused :
    Sample.refused.2.current.notifications.rows.length =
        Sample.applied.notifications.rows.length + 2 ∧
      (Sample.refused.2.committed = Sample.applied ∨
        Sample.acceptance.Bookkept Sample.applied Sample.conflict Sample.refused.2.committed) := by
  have hraised : Sample.refused.1 = .error Sample.conflict := by decide +kernel
  have hrun : Sample.refused = (.error Sample.conflict, Sample.refused.2) := by rw [← hraised]
  refine ⟨by decide +kernel, ?_⟩
  exact App.failed_call_unchanged .sample Sample.bus (reachable_after (Sample.offered.map .deal))
    Sample.acceptance _ hrun

/-! ## After the call -/

theorem accountStep_bookkept {d d' : Db} {call : MutatingCall} {e : Raised}
    (h : call.Bookkept d e d') : AccountStep d d' := by
  have hrecord : ∀ {purpose phone}, Bookkeeping purpose phone d e d' → AccountStep d d' := by
    rintro purpose phone hb
    obtain ⟨v, status, attemptCount, -, rfl⟩ := hb.record
    exact .records _
  cases call with
  | service call now => exact h.elim
  | confirmSignup payload userId now => exact hrecord h
  | confirmLogin payload now => exact hrecord h

theorem reachable_done {settings : Settings} {m : MasterData} {d d' : Db} {call : MutatingCall}
    (h : App.Reachable m d) (hdone : call.Done settings d d') : App.Reachable m d' := by
  cases call with
  | service call now =>
      obtain ⟨u, notifications, hbody, rfl⟩ := hdone
      exact .commit h h hbody notifications
  | confirmSignup payload userId now =>
      obtain rfl := hdone
      exact .account h (accountStep_run settings d (.signupConfirm payload userId now))
  | confirmLogin payload now =>
      obtain rfl := hdone
      exact .account h (accountStep_run settings d (.loginConfirm payload now))

/-- Whatever a call leaves behind is reachable again, however it has ended. -/
theorem reachable_tx (settings : Settings) (bus : EventBus) {m : MasterData} {d : Db}
    (h : App.Reachable m d) (call : MutatingCall) (mishaps : List (Option Raised)) :
    App.Reachable m (call.tx settings bus (.start d mishaps)).2.committed := by
  have hatomic := mutatingCall_atomic settings bus (questioned_reachable h).2 call
  rcases hrun : call.tx settings bus (.start d mishaps) with ⟨e | x, s⟩
  · rcases hatomic.of_error (open_start d mishaps) hrun with hs | hs
    · rw [hs]
      exact h
    · exact .account h (accountStep_bookkept hs)
  · exact reachable_done h (hatomic.of_ok (open_start d mishaps) hrun)

/-! ## Without mishaps -/

namespace MutatingCall

/-- The command a call stands for. -/
def command : MutatingCall → Command
  | .service call now => .deal ⟨call, now⟩
  | .confirmSignup payload userId now => .account (.signupConfirm payload userId now)
  | .confirmLogin payload now => .account (.loginConfirm payload now)

/-- The router has let the call in. -/
def Authenticated (d : Db) : MutatingCall → Prop
  | .service call _ => call.authenticate d = .ok ()
  | _ => True

end MutatingCall

/-- A request that has been let in comes to what its method makes of the database. -/
theorem call_executed {bus : EventBus} {w : World} {r : Request}
    (h : r.call.authenticate w.db = .ok ()) :
    ((service bus).call w r).db =
      executed bus r.now.flush (fun db => r.call.body db r.now) w.db := by
  have hread : (service bus).read w r = r.call.body w.db r.now := by
    show (r.call.authenticate w.db >>= fun _ => r.call.body w.db r.now) = _
    rw [h]
    rfl
  unfold Service.call
  rw [hread]
  cases hbody : r.call.body w.db r.now with
  | error failure => rw [executed_of_error hbody]
  | ok u =>
      rw [executed_of_ok hbody]
      cases hcommit : u.commit r.now.flush w.db bus with
      | error failure => simp only [service, hcommit]
      | ok db => simp only [service, hcommit]

/-- **A call that nothing interferes with comes to its command.** -/
theorem mutatingCall_quiet (settings : Settings) (bus : EventBus) {w : World}
    (hd : w.db.Questioned) (call : MutatingCall) (hauth : call.Authenticated w.db) :
    (call.tx settings bus (.start w.db [])).2.committed =
      (App.step settings bus w call.command).db := by
  cases call with
  | service call now =>
      exact (call_atomic bus now hd call).quiet.trans
        (call_executed (r := ⟨call, now⟩) hauth).symm
  | confirmSignup payload userId now =>
      exact (ignore_committed _ _).trans (confirmSignup_quiet settings payload userId now w.db)
  | confirmLogin payload now =>
      exact (ignore_committed _ _).trans (confirmLogin_quiet settings payload now w.db)

end OrderRun
