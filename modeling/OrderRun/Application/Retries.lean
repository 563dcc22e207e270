import Mathlib.Algebra.Group.Action.Defs
import Mathlib.Algebra.Order.BigOperators.Group.List
import Mathlib.Algebra.Order.Ring.Nat
import OrderRun.Application.Background
import OrderRun.Notification.SendToUser

/-!
# Bounded retries

Runs of the worker, one after the other: flushes of the outbox and retries of what has failed,
with whatever FCM answers.

* `Tried`, `exists_rows_run` — what a run makes of the rows it takes, and of the others.
* `Accounted`, `accounted_step` — the attempts at a notification, as its row counts them.
* `budget`, `budget_retry` — what the retryable rows have left, and how much a retry run uses up.
* `retries_bounded` — three attempts at most, and an end of the retries.
-/

namespace OrderRun

open Store

namespace NotificationWorker

/-! ## One run -/

/-- FCM answers without an exception, and the stored data can be read. -/
structure Surroundings.Answers (env : Surroundings) (db : Db) : Prop where
  fcm : ∀ id, env.result id ≠ .raised
  json : ∀ n ∈ db.notifications, ∀ data, n.data = some data → ∃ items, env.loads data = some items

/-- An attempt at a notification: the failed ones are counted. -/
structure Tried (n n' : Notification) : Prop where
  id : n'.id = n.id
  data : n'.data = n.data
  outcome : n'.status = .failed ∧ n'.retryCount = n.retryCount + 1 ∨
    n'.status = .sent ∧ n'.retryCount = n.retryCount

section Run

variable {db : Db} {job : WorkerJob} {env : Surroundings}

theorem exists_turn (henv : env.Answers db) {n : Notification} (hn : n ∈ db.notifications) :
    ∃ c, turn db env n = some c := by
  have hmessage : ∃ data, messageData env.loads n = some data := by
    cases hdata : n.data with
    | none =>
        unfold messageData
        rw [hdata]
        exact ⟨_, rfl⟩
    | some data =>
        obtain ⟨items, hitems⟩ := henv.json n hn data hdata
        exact messageData_of_loads hdata hitems
  obtain ⟨data, hmessage⟩ := hmessage
  exact turn_of_message hmessage (henv.fcm n.id)

/-- A row nobody has touched is written as the turn has left the object. -/
theorem tried_flush {n : Notification} {c : Change Notification} (h : turn db env n = some c) :
    Tried n (Notification.flush c.loaded c.dirty n) := by
  obtain ⟨⟨n', message⟩, hr, rfl⟩ := Option.map_eq_some_iff.1 h
  refine ⟨rfl, rfl, ?_⟩
  rcases sendOne_cases hr with ⟨-, errorMessage, rfl⟩ | ⟨-, messageId, rfl⟩
  · exact Or.inl ⟨col_untouched _ _, col_untouched _ _⟩
  · exact Or.inr ⟨col_untouched _ _, col_untouched _ _⟩

/-- **What a run does to the rows.** -/
theorem exists_rows_run (henv : env.Answers db) (job : WorkerJob) :
    ∃ (f : Notification → Notification) (hf : ∀ n, (f n).id = n.id),
      run db job env = { db with notifications := db.notifications.map f hf } ∧
      (∀ n ∈ selectBatch db.notifications job env.rank, Tried n (f n)) ∧
      ∀ n ∈ db.notifications, n ∉ selectBatch db.notifications job env.rank → f n = n := by
  have hturns : ∀ n ∈ selectBatch db.notifications job env.rank, ∃ c, turn db env n = some c :=
    fun n hn => exists_turn henv (mem_selectBatch hn).1
  obtain ⟨cs, hcs⟩ := mapM_some hturns
  refine ⟨writeBack Notification.flush cs, Outbox.notification_writeBack_id cs, ?_, ?_, ?_⟩
  · unfold run sendBatch
    rw [hcs]
    rfl
  · intro n hn
    rcases writeBack_batch hcs (mem_selectBatch hn).1 with ⟨hout, -⟩ | ⟨-, c, hturn, he⟩
    · exact absurd hn hout
    · rw [he]
      exact tried_flush hturn
  · intro n hn hout
    rcases writeBack_batch hcs hn with ⟨-, he⟩ | ⟨hin, -⟩
    · exact he
    · exact absurd hin hout

/-- What is stored stays readable. -/
theorem Surroundings.Answers.run {env' : Surroundings} (henv : env.Answers db)
    (henv' : env'.Answers db) (job : WorkerJob) : env'.Answers (run db job env) where
  fcm := henv'.fcm
  json := by
    obtain ⟨f, hf, hrun, htried, hsame⟩ := exists_rows_run henv job
    intro n' hn'
    rw [hrun] at hn'
    obtain ⟨n, hn, rfl⟩ := AutoTable.mem_map.1 hn'
    have hdata : (f n).data = n.data := by
      by_cases hmem : n ∈ selectBatch db.notifications job env.rank
      · exact (htried n hmem).data
      · rw [hsame n hn hmem]
    rw [hdata]
    exact henv'.json n hn

end Run

/-! ## Attempts -/

/-- The database after one run. -/
def step (db : Db) (r : WorkerJob × Surroundings) : Db := run db r.1 r.2

/-- How often the runs have taken a notification. -/
def attempts (db : Db) (rs : List (WorkerJob × Surroundings)) (id : ℕ) : ℕ :=
  (Runs.trail step db rs).countP fun x =>
    id ∈ (selectBatch x.1.notifications x.2.1 x.2.2.rank).map Notification.id

/-- The attempts at a notification, as its row counts them. -/
structure Accounted (n : Notification) (attempts : ℕ) : Prop where
  attempts_le : attempts ≤ MAX_RETRY
  retryCount_le : n.retryCount ≤ MAX_RETRY
  pending : n.status = .pending → attempts = 0 ∧ n.retryCount = 0
  failed : n.status = .failed → attempts = n.retryCount

/-- An attempt is only made while there are some left. -/
theorem Accounted.tried {n n' : Notification} {a : ℕ} {job : WorkerJob} (h : Accounted n a)
    (hselects : job.selects n = true) (htried : Tried n n') : Accounted n' (a + 1) := by
  have hbound : a = n.retryCount ∧ n.retryCount < MAX_RETRY := by
    cases job with
    | flushPending =>
        obtain ⟨ha, hcount⟩ := h.pending (of_decide_eq_true hselects)
        rw [ha, hcount]
        decide
    | retryFailed =>
        obtain ⟨hfailed, hlt⟩ := of_decide_eq_true hselects
        exact ⟨h.failed hfailed, hlt⟩
  obtain ⟨rfl, hlt⟩ := hbound
  rcases htried.outcome with ⟨hstatus, hcount⟩ | ⟨hstatus, hcount⟩
  · refine ⟨hlt, by omega, fun hpending => ?_, fun _ => hcount.symm⟩
    rw [hstatus] at hpending
    exact absurd hpending (by decide)
  · refine ⟨hlt, by omega, fun hpending => ?_, fun hfailed => ?_⟩
    · rw [hstatus] at hpending
      exact absurd hpending (by decide)
    · rw [hstatus] at hfailed
      exact absurd hfailed (by decide)

section Runs

variable {db : Db} {r : WorkerJob × Surroundings} {rs : List (WorkerJob × Surroundings)}

theorem attempts_cons (db : Db) (r : WorkerJob × Surroundings)
    (rs : List (WorkerJob × Surroundings)) (id : ℕ) :
    attempts db (r :: rs) id =
      (if id ∈ (selectBatch db.notifications r.1 r.2.rank).map Notification.id then 1 else 0) +
        attempts (step db r) rs id := by
  unfold attempts
  rw [Runs.trail, List.countP_cons, Nat.add_comm]
  simp

/-- Every row goes through a run: it is tried, or left as it is. -/
theorem mem_step (henv : r.2.Answers db) {n' : Notification}
    (hn' : n' ∈ (step db r).notifications) :
    ∃ n ∈ db.notifications, n'.id = n.id ∧
      (n ∈ selectBatch db.notifications r.1 r.2.rank ∧ Tried n n' ∨
        n ∉ selectBatch db.notifications r.1 r.2.rank ∧ n' = n) := by
  obtain ⟨f, hf, hrun, htried, hsame⟩ := exists_rows_run henv r.1
  have hstep : (step db r).notifications = db.notifications.map f hf := by
    rw [step, hrun]
  rw [hstep] at hn'
  obtain ⟨n, hn, rfl⟩ := AutoTable.mem_map.1 hn'
  refine ⟨n, hn, hf n, ?_⟩
  by_cases hmem : n ∈ selectBatch db.notifications r.1 r.2.rank
  · exact Or.inl ⟨hmem, htried n hmem⟩
  · exact Or.inr ⟨hmem, hsame n hn hmem⟩

theorem mem_batch_ids {job : WorkerJob} {rank : ℕ → ℕ} {n : Notification}
    (hn : n ∈ db.notifications) :
    n.id ∈ (selectBatch db.notifications job rank).map Notification.id ↔
      n ∈ selectBatch db.notifications job rank := by
  refine ⟨fun h => ?_, fun h => List.mem_map_of_mem h⟩
  obtain ⟨m, hm, hid⟩ := List.mem_map.1 h
  rwa [← AutoTable.eq_of_key_eq (mem_selectBatch hm).1 hn hid]

/-- **One run keeps the accounts.** -/
theorem accounted_step {a : ℕ → ℕ} (henv : r.2.Answers db)
    (h : ∀ n ∈ db.notifications, Accounted n (a n.id)) :
    ∀ n ∈ (step db r).notifications, Accounted n (a n.id +
      if n.id ∈ (selectBatch db.notifications r.1 r.2.rank).map Notification.id then 1 else 0) := by
  intro n' hn'
  obtain ⟨n, hn, hid, ⟨hmem, htried⟩ | ⟨hnot, rfl⟩⟩ := mem_step henv hn'
  · rw [hid, if_pos ((mem_batch_ids hn).2 hmem)]
    exact (h n hn).tried (mem_selectBatch hmem).2 htried
  · rw [if_neg (mt (mem_batch_ids hn).1 hnot)]
    exact h _ hn

/-- **The accounts over a whole run.** -/
theorem accounted_run {a : ℕ → ℕ} (hrs : ∀ r ∈ rs, r.2.Answers db)
    (h : ∀ n ∈ db.notifications, Accounted n (a n.id)) :
    ∀ n ∈ (Runs.run step db rs).notifications, Accounted n (a n.id + attempts db rs n.id) := by
  induction rs generalizing db a with
  | nil => exact h
  | cons r rs ih =>
      have henv := hrs r List.mem_cons_self
      have hrest : ∀ r' ∈ rs, r'.2.Answers (step db r) := fun r' hr' =>
        henv.run (hrs r' (List.mem_cons_of_mem r hr')) r.1
      intro n hn
      rw [attempts_cons, ← Nat.add_assoc]
      exact ih (a := fun id => a id +
        if id ∈ (selectBatch db.notifications r.1 r.2.rank).map Notification.id then 1 else 0)
        hrest (accounted_step henv h) n hn

theorem answers_run (hrs : ∀ r ∈ rs, r.2.Answers db) {env : Surroundings} (henv : env.Answers db) :
    env.Answers (Runs.run step db rs) := by
  induction rs generalizing db with
  | nil => exact henv
  | cons r rs ih =>
      have hr := hrs r List.mem_cons_self
      exact ih (fun r' hr' => hr.run (hrs r' (List.mem_cons_of_mem r hr')) r.1) (hr.run henv r.1)

/-- A row that no job selects is left as it is. -/
theorem mem_step_of_settled (henv : r.2.Answers db) {n : Notification} (hn : n ∈ db.notifications)
    (hsettled : r.1.selects n = false) : n ∈ (step db r).notifications := by
  obtain ⟨f, hf, hrun, -, hsame⟩ := exists_rows_run henv r.1
  have hnot : n ∉ selectBatch db.notifications r.1 r.2.rank := by
    intro hmem
    rw [(mem_selectBatch hmem).2] at hsettled
    exact absurd hsettled (by decide)
  rw [step, hrun]
  exact AutoTable.mem_map.2 ⟨n, hn, hsame n hn hnot⟩

theorem selects_eq_false {job : WorkerJob} {n : Notification}
    (h : n.status = .sent ∨ n.status = .read) : job.selects n = false := by
  cases job <;> rcases h with h | h <;> simp [WorkerJob.selects, h]

/-- What has been sent or read stays as it is. -/
theorem mem_run_of_settled (hrs : ∀ r ∈ rs, r.2.Answers db) {n : Notification}
    (hn : n ∈ db.notifications) (h : n.status = .sent ∨ n.status = .read) :
    n ∈ (Runs.run step db rs).notifications := by
  induction rs generalizing db with
  | nil => exact hn
  | cons r rs ih =>
      have hr := hrs r List.mem_cons_self
      exact ih (fun r' hr' => hr.run (hrs r' (List.mem_cons_of_mem r hr')) r.1)
        (mem_step_of_settled hr hn (selects_eq_false h))

/-- No row is lost. -/
theorem exists_mem_run (hrs : ∀ r ∈ rs, r.2.Answers db) {n : Notification}
    (hn : n ∈ db.notifications) : ∃ n' ∈ (Runs.run step db rs).notifications, n'.id = n.id := by
  induction rs generalizing db n with
  | nil => exact ⟨n, hn, rfl⟩
  | cons r rs ih =>
      have hr := hrs r List.mem_cons_self
      obtain ⟨f, hf, hrun, -, -⟩ := exists_rows_run hr r.1
      have hnext : f n ∈ (step db r).notifications := by
        rw [step, hrun]
        exact AutoTable.mem_map.2 ⟨n, hn, rfl⟩
      obtain ⟨n', hn', hid⟩ :=
        ih (fun r' hr' => hr.run (hrs r' (List.mem_cons_of_mem r hr')) r.1) hnext
      exact ⟨n', hn', hid.trans (hf n)⟩

end Runs

/-! ## Progress -/

/-- The rows a retry run can take. -/
def retryable (db : Db) : List Notification :=
  db.notifications.rows.filter (WorkerJob.selects .retryFailed)

/-- The attempts the retryable rows have left. -/
def budget (db : Db) : ℕ := ((retryable db).map fun n => MAX_RETRY - n.retryCount).sum

/-- What a row contributes. -/
def share (n : Notification) : ℕ :=
  if WorkerJob.selects .retryFailed n then MAX_RETRY - n.retryCount else 0

theorem budget_eq (db : Db) : budget db = (db.notifications.rows.map share).sum := by
  unfold budget retryable
  induction db.notifications.rows with
  | nil => rfl
  | cons n rows ih =>
      rw [List.map_cons, List.sum_cons, ← ih, share]
      by_cases h : WorkerJob.selects .retryFailed n = true
      · rw [List.filter_cons_of_pos h, if_pos h, List.map_cons, List.sum_cons]
      · rw [List.filter_cons_of_neg h, if_neg h, Nat.zero_add]

/-- A sum falls by as much as there are summands that fall. -/
theorem sum_add_countP_le {α : Type*} {w w' : α → ℕ} {p : α → Bool} {xs : List α}
    (h : ∀ a ∈ xs, w' a + (if p a then 1 else 0) ≤ w a) :
    (xs.map w').sum + xs.countP p ≤ (xs.map w).sum := by
  induction xs with
  | nil => simp
  | cons a xs ih =>
      have hrest := ih fun b hb => h b (List.mem_cons_of_mem a hb)
      have hfirst := h a List.mem_cons_self
      rw [List.map_cons, List.map_cons, List.sum_cons, List.sum_cons, List.countP_cons]
      omega

section Progress

variable {db : Db} {env : Surroundings}

/-- How many rows a retry run takes. -/
theorem length_batch (db : Db) (rank : ℕ → ℕ) :
    (selectBatch db.notifications .retryFailed rank).length = min (retryable db).length 100 := by
  unfold selectBatch retryable
  rw [List.length_take, (List.perm_insertionSort _ _).length_eq, Nat.min_comm]

/-- An attempt uses up at least one of those that are left. -/
theorem share_tried {n n' : Notification} (hselects : WorkerJob.selects .retryFailed n = true)
    (htried : Tried n n') : share n' + 1 ≤ share n := by
  obtain ⟨hfailed, hlt⟩ : n.status = .failed ∧ n.retryCount < MAX_RETRY :=
    of_decide_eq_true hselects
  rw [share, share, if_pos hselects]
  rcases htried.outcome with ⟨-, hcount⟩ | ⟨hstatus, -⟩
  · rw [hcount]
    split <;> omega
  · have hnot : WorkerJob.selects .retryFailed n' = false := selects_eq_false (Or.inl hstatus)
    rw [hnot, if_neg Bool.false_ne_true]
    omega

/-- **A retry run uses up the budget.** -/
theorem budget_retry (henv : env.Answers db) :
    budget (step db (.retryFailed, env)) + min (retryable db).length 100 ≤ budget db := by
  obtain ⟨f, hf, hrun, htried, hsame⟩ := exists_rows_run henv .retryFailed
  have hrows : (step db (.retryFailed, env)).notifications.rows =
      db.notifications.rows.map f := by
    rw [step, hrun]
    rfl
  have hcount : db.notifications.rows.countP
      (fun n => n ∈ selectBatch db.notifications .retryFailed env.rank) =
        min (retryable db).length 100 := by
    rw [← length_batch db env.rank, List.countP_eq_length_filter]
    refine ((List.perm_ext_iff_of_nodup (db.notifications.toTable.rows_nodup.filter _)
      (nodup_selectBatch _ _ _).of_map).2 fun n => ?_).length_eq
    rw [List.mem_filter, decide_eq_true_iff]
    exact and_iff_right_of_imp fun hn => (mem_selectBatch hn).1
  rw [← hcount, budget_eq, budget_eq, hrows, List.map_map]
  refine sum_add_countP_le fun n hn => ?_
  by_cases hmem : n ∈ selectBatch db.notifications .retryFailed env.rank
  · rw [if_pos (decide_eq_true hmem)]
    exact share_tried (mem_selectBatch hmem).2 (htried n hmem)
  · rw [if_neg (by simpa using hmem), Function.comp_apply, hsame n hn hmem]
    omega

/-- While a row is retryable it has an attempt left. -/
theorem length_retryable_le (db : Db) : (retryable db).length ≤ budget db := by
  have hone : ∀ k ∈ (retryable db).map (fun n => MAX_RETRY - n.retryCount), 1 ≤ k := by
    intro k hk
    obtain ⟨n, hn, rfl⟩ := List.mem_map.1 hk
    have hlt : n.retryCount < MAX_RETRY := (of_decide_eq_true (List.mem_filter.1 hn).2).2
    omega
  have hsum := List.card_nsmul_le_sum _ 1 hone
  rwa [List.length_map, smul_eq_mul, Nat.mul_one] at hsum

theorem budget_le (db : Db) : budget db ≤ MAX_RETRY * (retryable db).length := by
  have hall : ∀ k ∈ (retryable db).map (fun n => MAX_RETRY - n.retryCount), k ≤ MAX_RETRY := by
    intro k hk
    obtain ⟨n, -, rfl⟩ := List.mem_map.1 hk
    exact Nat.sub_le _ _
  have hsum := List.sum_le_card_nsmul _ _ hall
  rwa [List.length_map, smul_eq_mul, Nat.mul_comm] at hsum

/-- **Retry runs come to an end.** -/
theorem budget_retries {rs : List (WorkerJob × Surroundings)} (hrs : ∀ r ∈ rs, r.2.Answers db)
    (hjobs : ∀ r ∈ rs, r.1 = .retryFailed) :
    budget (Runs.run step db rs) ≤ budget db - rs.length := by
  induction rs generalizing db with
  | nil => exact le_refl _
  | cons r rs ih =>
      obtain ⟨job, env⟩ := r
      obtain rfl : job = .retryFailed := hjobs (job, env) List.mem_cons_self
      have henv : env.Answers db := hrs (.retryFailed, env) List.mem_cons_self
      have hnext : budget (step db (.retryFailed, env)) ≤ budget db - 1 := by
        have hused := budget_retry henv
        have hbound := budget_le db
        rcases Nat.eq_zero_or_pos (retryable db).length with hzero | hpos
        · rw [hzero] at hbound
          omega
        · omega
      have hrest := ih (fun r' hr' => henv.run (hrs r' (List.mem_cons_of_mem _ hr')) .retryFailed)
        fun r' hr' => hjobs r' (List.mem_cons_of_mem _ hr')
      calc budget (Runs.run step (step db (.retryFailed, env)) rs)
          ≤ budget (step db (.retryFailed, env)) - rs.length := hrest
        _ ≤ budget db - 1 - rs.length := Nat.sub_le_sub_right hnext _
        _ = budget db - (rs.length + 1) := by omega

end Progress

/-! ## Whole runs -/

/-- What one retry run does: it takes as many retryable rows as it may, tries each of them, and
uses up an attempt of each. -/
structure Progress (db : Db) (env : Surroundings) : Prop where
  processed : (selectBatch db.notifications .retryFailed env.rank).length =
    min (retryable db).length 100
  tried : ∀ n ∈ selectBatch db.notifications .retryFailed env.rank,
    n ∈ retryable db ∧ ∃ n' ∈ (step db (.retryFailed, env)).notifications, Tried n n'
  budget : budget (step db (.retryFailed, env)) + min (retryable db).length 100 ≤ budget db

theorem progress_retry {db : Db} {env : Surroundings} (henv : env.Answers db) :
    Progress db env where
  processed := length_batch db env.rank
  tried := by
    obtain ⟨f, hf, hrun, htried, -⟩ := exists_rows_run henv .retryFailed
    intro n hn
    obtain ⟨hmem, hselects⟩ := mem_selectBatch hn
    refine ⟨List.mem_filter.2 ⟨hmem, hselects⟩, f n, ?_, htried n hn⟩
    rw [step, hrun]
    exact AutoTable.mem_map.2 ⟨n, hmem, rfl⟩
  budget := budget_retry henv

/-- **The retries are bounded, and they come to an end.**  In a sequence of flushes and retries
over new notifications no row counts more than three failed attempts, and none is tried more
often; what has been sent or read is not touched again; every retry run makes progress; and after
three retry runs for each retryable row none is retryable any more. -/
theorem retries_bounded {db : Db} (hnew : ∀ n ∈ db.notifications, n.retryCount = 0)
    {rs : List (WorkerJob × Surroundings)} (hrs : ∀ r ∈ rs, r.2.Answers db) :
    Runs.Always step (fun x => ∀ n ∈ x.notifications, n.retryCount ≤ MAX_RETRY) db rs ∧
    (∀ n ∈ db.notifications, attempts db rs n.id ≤ MAX_RETRY) ∧
    (∀ pre mid r suf, rs = pre ++ mid ++ r :: suf → ∀ n ∈ (Runs.run step db pre).notifications,
      n.status = .sent ∨ n.status = .read →
        n ∈ (Runs.run step db (pre ++ mid)).notifications ∧
        n ∉ selectBatch (Runs.run step db (pre ++ mid)).notifications r.1 r.2.rank) ∧
    (∀ pre env suf, rs = pre ++ (.retryFailed, env) :: suf →
      Progress (Runs.run step db pre) env) ∧
    ∀ pre mid suf, rs = pre ++ mid ++ suf → (∀ r ∈ mid, r.1 = .retryFailed) →
      MAX_RETRY * (retryable (Runs.run step db pre)).length ≤ mid.length →
        retryable (Runs.run step db (pre ++ mid)) = [] := by
  have hpart : ∀ pre part suf, rs = pre ++ part ++ suf →
      (∀ r ∈ pre, r.2.Answers db) ∧ ∀ r ∈ part, r.2.Answers (Runs.run step db pre) := by
    intro pre part suf he
    have hpre : ∀ r ∈ pre, r.2.Answers db := fun r hr => hrs r (by rw [he]; simp [hr])
    exact ⟨hpre, fun r hr => answers_run hpre (hrs r (by rw [he]; simp [hr]))⟩
  have hstart : ∀ n ∈ db.notifications, Accounted n 0 := by
    intro n hn
    have hcount := hnew n hn
    exact ⟨Nat.zero_le _, by rw [hcount]; exact Nat.zero_le _, fun _ => ⟨rfl, hcount⟩,
      fun _ => hcount.symm⟩
  have haccounted : ∀ pre suf, rs = pre ++ suf → ∀ n ∈ (Runs.run step db pre).notifications,
      Accounted n (0 + attempts db pre n.id) := fun pre suf he =>
    accounted_run (a := fun _ => 0) (hpart pre [] suf (by simpa using he)).1 hstart
  refine ⟨Runs.always_iff.2 fun pre suf he n hn => (haccounted pre suf he n hn).retryCount_le,
    ?_, ?_, ?_, ?_⟩
  · intro n hn
    obtain ⟨n', hn', hid⟩ := exists_mem_run hrs hn
    have hle := (haccounted rs [] (by simp) n' hn').attempts_le
    rwa [hid, Nat.zero_add] at hle
  · intro pre mid r suf he n hn hsettled
    obtain ⟨-, hmid⟩ := hpart pre mid (r :: suf) he
    refine ⟨?_, fun hmem => ?_⟩
    · rw [Runs.run_append]
      exact mem_run_of_settled hmid hn hsettled
    · have hselects := (mem_selectBatch hmem).2
      rw [selects_eq_false hsettled] at hselects
      exact absurd hselects (by decide)
  · intro pre env suf he
    exact progress_retry ((hpart pre [(.retryFailed, env)] suf (by simpa using he)).2 _
      List.mem_cons_self)
  · intro pre mid suf he hjobs hlong
    obtain ⟨-, hmid⟩ := hpart pre mid suf he
    have hused := budget_retries hmid hjobs
    have hbound := budget_le (Runs.run step db pre)
    have hleft := length_retryable_le (Runs.run step db (pre ++ mid))
    rw [← Runs.run_append] at hused
    refine List.eq_nil_of_length_eq_zero ?_
    omega

end NotificationWorker

namespace Sample

open NotificationWorker

/-- One notification waits to be sent. -/
def queue : Db := { withToken with notifications := notifications }

/-- FCM refuses everything. -/
def refusing : Surroundings where
  loads := loadsText
  result := fun _ => .failure "unavailable"
  utcnow := fun _ => 90
  rank := id

def retries : List (WorkerJob × Surroundings) :=
  (.flushPending, refusing) :: List.replicate 3 (.retryFailed, refusing)

theorem answers_refusing (db : Db) : refusing.Answers db :=
  ⟨fun _ => nofun, fun _ _ _ _ => ⟨_, rfl⟩⟩

end Sample

theorem NotificationWorker.retries_bounded_refusing :
    Runs.Always step (fun x => ∀ n ∈ x.notifications, n.retryCount ≤ MAX_RETRY) Sample.queue
      Sample.retries ∧
    attempts Sample.queue Sample.retries Sample.pending.id ≤ MAX_RETRY ∧
    retryable (Runs.run step Sample.queue Sample.retries) = [] := by
  have hrs : ∀ r ∈ Sample.retries, r.2.Answers Sample.queue := by
    intro r hr
    have henv : r.2 = Sample.refusing := by
      rcases List.mem_cons.1 hr with rfl | hr
      · rfl
      · rw [List.eq_of_mem_replicate hr]
    rw [henv]
    exact Sample.answers_refusing _
  have hnew : ∀ n ∈ Sample.queue.notifications, n.retryCount = 0 := by decide
  have hpending : Sample.pending ∈ Sample.queue.notifications.rows := by decide
  obtain ⟨hcounts, hattempts, -, -, hend⟩ := retries_bounded hnew hrs
  exact ⟨hcounts, hattempts Sample.pending hpending, hend [(.flushPending, Sample.refusing)]
    (List.replicate 3 (.retryFailed, Sample.refusing)) [] rfl
    (fun r hr => by rw [List.eq_of_mem_replicate hr]) (by decide +kernel)⟩

end OrderRun
