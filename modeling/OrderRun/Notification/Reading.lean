import OrderRun.Notification.Delivery

/-!
# Reading a notification

The worker keeps its own account of a notification in the column that also says that the
notification has been read.  Between the selection of a row and the commit of the batch the user
may read it.

* `Batch.Sound`, `sound_step` — what a run can hold, in every interleaving.
* `Outbox.Consistent` — a notification is read exactly if it has a time of reading.
* `Heeds` — a run does not commit a new status for a notification that has been read meanwhile.
* `read_forever_iff` — exactly then no reading is ever undone.
-/

namespace OrderRun

open Store

/-! ## What a run holds -/

/-- A run has selected each row once, when it was pending or failed, and has marked what it is
through with as sent or failed. -/
structure Batch.Sound (b : Batch) (next : ℕ) : Prop where
  nodup : b.ids.Nodup
  known : ∀ id ∈ b.ids, id < next
  rest : ∀ n ∈ b.rest, n.status = .pending ∨ n.status = .failed
  loaded : ∀ c ∈ b.done, c.loaded.status = .pending ∨ c.loaded.status = .failed
  dirty : ∀ c ∈ b.done, c.dirty.status = .sent ∨ c.dirty.status = .failed

/-- All unfinished runs are sound. -/
def Outbox.Sound (s : Outbox) : Prop := ∀ run b, s.runs run = some b → b.Sound s.rows.next

theorem Batch.Sound.mono {b : Batch} {next next' : ℕ} (h : b.Sound next) (hle : next ≤ next') :
    b.Sound next' :=
  ⟨h.nodup, fun id hid => (h.known id hid).trans_le hle, h.rest, h.loaded, h.dirty⟩

theorem status_of_selects {job : WorkerJob} {n : Notification} (h : job.selects n = true) :
    n.status = .pending ∨ n.status = .failed := by
  cases job with
  | flushPending => exact Or.inl (of_decide_eq_true h)
  | retryFailed => exact Or.inr (of_decide_eq_true h).1

section Step

variable {s : Outbox}

theorem sound_quiet (rows : AutoTable Notification) : (Outbox.quiet rows).Sound :=
  fun _ _ h => absurd h (by simp [Outbox.quiet])

/-- A run starts, goes on or ends. -/
theorem sound_setRun (h : s.Sound) {run : ℕ} {b : Option Batch}
    (hb : ∀ b', b = some b' → b'.Sound s.rows.next) : (s.setRun run b).Sound := by
  intro k b' hk
  rcases Outbox.runs_setRun_cases hk with ⟨-, hb'⟩ | ⟨-, hk⟩
  · exact hb b' hb'
  · exact h k b' hk

theorem sound_select (job : WorkerJob) (rank : ℕ → ℕ) :
    (Batch.mk [] (selectBatch s.rows job rank)).Sound s.rows.next where
  nodup := nodup_selectBatch s.rows job rank
  known := by
    intro id hid
    obtain ⟨n, hn, rfl⟩ := List.mem_map.1 hid
    exact AutoTable.lt_next (mem_selectBatch hn).1
  rest := fun n hn => status_of_selects (mem_selectBatch hn).2
  loaded := fun c hc => absurd hc List.not_mem_nil
  dirty := fun c hc => absurd hc List.not_mem_nil

/-- One turn of the loop. -/
theorem Batch.Sound.turn {done : List (Change Notification)} {n n' : Notification}
    {rest : List Notification} {next : ℕ} (h : (Batch.mk done (n :: rest)).Sound next)
    (hstatus : n'.status = .sent ∨ n'.status = .failed) :
    (Batch.mk (done ++ [⟨n, n'⟩]) rest).Sound next where
  nodup := by
    rw [Batch.ids_turn]
    exact h.nodup
  known := by
    rw [Batch.ids_turn]
    exact h.known
  rest := fun m hm => h.rest m (List.mem_cons_of_mem n hm)
  loaded := by
    intro c hc
    rcases List.mem_append.1 hc with hc | hc
    · exact h.loaded c hc
    · obtain rfl := List.mem_singleton.1 hc
      exact h.rest n List.mem_cons_self
  dirty := by
    intro c hc
    rcases List.mem_append.1 hc with hc | hc
    · exact h.dirty c hc
    · obtain rfl := List.mem_singleton.1 hc
      exact hstatus

/-- **Every step keeps the runs sound.** -/
theorem sound_step (loads : String → Option (List (String × String))) (h : s.Sound)
    (e : WorkerEvent) : (workerStep loads s e).Sound := by
  cases e with
  | enqueue n => exact fun run b hb => (h run b hb).mono (Nat.le_succ _)
  | markRead userId ids utcnow => exact h
  | select run job rank =>
      rcases select_cases loads s run job rank with he | ⟨-, he⟩
      · rw [he]
        exact h
      · rw [he]
        exact sound_setRun h fun b hb => Option.some.inj hb ▸ sound_select job rank
  | send run token result utcnow =>
      rcases send_cases loads s run token result utcnow with
        he | ⟨done, n, rest, hrun, ⟨-, he⟩ | ⟨n', message, hsome, he⟩⟩
      · rw [he]
        exact h
      · rw [he]
        exact sound_setRun h fun b hb => absurd hb (by simp)
      · rw [he]
        have hstatus : n'.status = .sent ∨ n'.status = .failed :=
          (sendOne_eq_some hsome).2.elim (fun h => Or.inr h.2) fun h => Or.inl h.2
        exact sound_setRun h fun b hb => Option.some.inj hb ▸ (h run _ hrun).turn hstatus
  | commit run goesThrough =>
      rcases commit_cases loads s run goesThrough with he | ⟨done, -, ⟨-, he⟩ | ⟨-, he⟩⟩
      · rw [he]
        exact h
      · rw [he]
        exact sound_setRun h fun b hb => absurd hb (by simp)
      · rw [he]
        exact sound_setRun h fun b hb => absurd hb (by simp)

end Step

/-! ## Read notifications -/

/-- A notification is read exactly if it has a time of reading. -/
def Outbox.Consistent (s : Outbox) : Prop :=
  ∀ n ∈ s.rows, n.status = .read ↔ n.readAt ≠ none

/-- What has been read stays read, with its time. -/
def Outbox.Kept (s s' : Outbox) : Prop :=
  ∀ n ∈ s.rows, n.status = .read →
    ∃ n' ∈ s'.rows, n'.id = n.id ∧ n'.status = .read ∧ n'.readAt = n.readAt

/-- Nobody has read a new notification. -/
def WorkerEvent.Unread : WorkerEvent → Prop
  | .enqueue n => n.status ≠ .read ∧ n.readAt = none
  | _ => True

/-- A run that commits a new status for a notification finds it unread. -/
def Heeds (s : Outbox) : WorkerEvent → Prop
  | .commit run goesThrough => ∀ done, s.runs run = some ⟨done, []⟩ → goesThrough = true →
      ∀ c ∈ done, c.dirty.status ≠ c.loaded.status →
        ∀ n ∈ s.rows, n.id = c.loaded.id → n.status ≠ .read
  | _ => True

section Step

variable {s : Outbox}

theorem consistent_enqueue (h : s.Consistent) {n : Notification} (hstatus : n.status ≠ .read)
    (hread : n.readAt = none) : (s.enqueue n).Consistent := by
  intro m hm
  rcases AutoTable.mem_insert.1 hm with hm | rfl
  · exact h m hm
  · exact iff_of_false hstatus (not_not.2 hread)

theorem consistent_markRead (h : s.Consistent) (userId : UserId) (ids : List ℕ)
    (utcnow : DateTime) : (s.markRead userId ids utcnow).Consistent := by
  intro m hm
  obtain ⟨n, hn, rfl⟩ := AutoTable.mem_map.1 hm
  unfold Notification.markRead
  split
  · exact iff_of_true rfl (by simp)
  · exact h n hn

/-- **What a commit does to the readings.** -/
theorem consistent_record_iff (h : s.Consistent) {run : ℕ} {done : List (Change Notification)}
    (hsound : (Batch.mk done []).Sound s.rows.next) :
    (s.record run done).Consistent ↔
      ∀ c ∈ done, c.dirty.status ≠ c.loaded.status →
        ∀ n ∈ s.rows, n.id = c.loaded.id → n.status ≠ .read := by
  have hone : OneObject done := by
    have hids : (done.map fun c => c.loaded.id).Nodup := hsound.nodup.of_append_left
    exact fun c hc c' hc' hid => List.inj_on_of_nodup_map hids hc hc' hid
  have hdirty : ∀ c ∈ done, c.dirty.status ≠ .read := by
    intro c hc
    rcases hsound.dirty c hc with hs | hs <;> rw [hs] <;> decide
  have hstatus : ∀ n : Notification, (writeBack Notification.flush done n).status = n.status ↔ _ :=
    fun n => column_writeBack (fun _ _ _ => rfl) hone
  have hread : ∀ n : Notification, (writeBack Notification.flush done n).readAt = n.readAt :=
    fun n => writeBack_induction (P := fun r : Notification => r.readAt = n.readAt) rfl
      fun _ _ _ => rfl
  constructor
  · intro hafter c hc hchanged n hn hid hnread
    have hboth := (hafter _ (AutoTable.mem_map.2 ⟨n, hn, rfl⟩)).2
      (by rw [hread]; exact (h n hn).1 hnread)
    rcases (hstatus n).1 (hboth.trans hnread.symm) c hc hid.symm with hsame | hsame
    · exact hchanged hsame
    · exact hdirty c hc (hsame.trans hnread)
  · intro hall m hm
    obtain ⟨n, hn, rfl⟩ := AutoTable.mem_map.1 hm
    rw [hread, ← h n hn]
    by_cases hnread : n.status = .read
    · rw [(hstatus n).2 fun c hc hid => ?_]
      exact Or.inl (by_contra fun hchanged => hall c hc hchanged n hn hid.symm hnread)
    · refine iff_of_false (fun hm => ?_) hnread
      rcases writeBack_cases Notification.flush done n with ⟨-, he⟩ | ⟨c, hc, -, he⟩
      · rw [he] at hm
        exact hnread hm
      · rw [he] at hm
        have hcol : col c.loaded.status c.dirty.status n.status = .read := hm
        rcases eq_or_ne c.dirty.status c.loaded.status with hsame | hchanged
        · rw [hsame, col_unchanged] at hcol
          exact hnread hcol
        · rw [col_of_ne hchanged] at hcol
          exact hdirty c hc hcol

/-- **One step keeps the account** exactly if it heeds the readings. -/
theorem consistent_step_iff (loads : String → Option (List (String × String)))
    (hsound : s.Sound) (h : s.Consistent) {e : WorkerEvent} (he : e.Unread) :
    (workerStep loads s e).Consistent ↔ Heeds s e := by
  cases e with
  | enqueue n => exact iff_of_true (consistent_enqueue h he.1 he.2) trivial
  | markRead userId ids utcnow =>
      exact iff_of_true (consistent_markRead h userId ids utcnow) trivial
  | select run job rank =>
      refine iff_of_true ?_ trivial
      rcases select_cases loads s run job rank with he | ⟨-, he⟩ <;> rw [he] <;> exact h
  | send run token result utcnow =>
      refine iff_of_true ?_ trivial
      rcases send_cases loads s run token result utcnow with
        he | ⟨done, n, rest, -, ⟨-, he⟩ | ⟨n', message, -, he⟩⟩ <;> rw [he] <;> exact h
  | commit run goesThrough =>
      constructor
      · intro hafter done hrun hgoes
        have hrecord : workerStep loads s (.commit run goesThrough) = s.record run done := by
          simp only [workerStep, hrun, hgoes, if_pos]
        rw [hrecord] at hafter
        exact (consistent_record_iff h (hsound run _ hrun)).1 hafter
      · intro hheeds
        rcases commit_cases loads s run goesThrough with
          he | ⟨done, hrun, ⟨hgoes, he⟩ | ⟨-, he⟩⟩
        · rw [he]
          exact h
        · rw [he]
          exact (consistent_record_iff h (hsound run _ hrun)).2 (hheeds done hrun hgoes)
        · rw [he]
          exact h

/-- A time of reading is never changed. -/
def Outbox.Timed (s s' : Outbox) : Prop :=
  ∀ n ∈ s.rows, n.readAt ≠ none → ∃ n' ∈ s'.rows, n'.id = n.id ∧ n'.readAt = n.readAt

theorem Outbox.Timed.refl (s : Outbox) : s.Timed s := fun n hn _ => ⟨n, hn, rfl, rfl⟩

theorem Outbox.Timed.trans {s t u : Outbox} (hst : s.Timed t) (htu : t.Timed u) : s.Timed u := by
  intro n hn hread
  obtain ⟨n', hn', hid, htime⟩ := hst n hn hread
  obtain ⟨n'', hn'', hid', htime'⟩ := htu n' hn' (by rwa [htime])
  exact ⟨n'', hn'', hid'.trans hid, htime'.trans htime⟩

/-- A change of the rows that leaves the times alone. -/
theorem timed_map {t : Outbox} {f : Notification → Notification} {hf : ∀ n, (f n).id = n.id}
    (hrows : t.rows = s.rows.map f hf)
    (hread : ∀ n : Notification, n.readAt ≠ none → (f n).readAt = n.readAt) : s.Timed t := by
  intro n hn hne
  refine ⟨f n, ?_, hf n, hread n hne⟩
  rw [hrows]
  exact AutoTable.mem_map.2 ⟨n, hn, rfl⟩

theorem timed_step (loads : String → Option (List (String × String))) (s : Outbox)
    (e : WorkerEvent) : s.Timed (workerStep loads s e) := by
  cases e with
  | enqueue n => exact fun m hm _ => ⟨m, AutoTable.mem_insert.2 (Or.inl hm), rfl, rfl⟩
  | markRead userId ids utcnow =>
      refine timed_map rfl fun n hne => ?_
      unfold Notification.markRead
      rw [if_neg fun h => hne h.2.2]
  | select run job rank =>
      rcases select_cases loads s run job rank with he | ⟨-, he⟩ <;> rw [he] <;>
        exact Outbox.Timed.refl s
  | send run token result utcnow =>
      rcases send_cases loads s run token result utcnow with
        he | ⟨done, n, rest, -, ⟨-, he⟩ | ⟨n', message, -, he⟩⟩ <;> rw [he] <;>
        exact Outbox.Timed.refl s
  | commit run goesThrough =>
      rcases commit_cases loads s run goesThrough with
        he | ⟨done, -, ⟨-, he⟩ | ⟨-, he⟩⟩
      · rw [he]
        exact Outbox.Timed.refl s
      · rw [he]
        exact timed_map rfl fun n _ => writeBack_induction
          (P := fun r : Notification => r.readAt = n.readAt) rfl fun _ _ _ => rfl
      · rw [he]
        exact Outbox.Timed.refl s

/-- Between consistent states, a time that stays keeps the notification read. -/
theorem Outbox.Timed.kept {s' : Outbox} (h : s.Timed s') (hs : s.Consistent)
    (hs' : s'.Consistent) : s.Kept s' := by
  intro n hn hstatus
  have hread := (hs n hn).1 hstatus
  obtain ⟨n', hn', hid, htime⟩ := h n hn hread
  exact ⟨n', hn', hid, (hs' n' hn').2 (by rwa [htime]), htime⟩

end Step

/-! ## Whole interleavings -/

/-- **When no reading is undone.**  In an interleaving of any number of runs with the readings of
the users, the status and the time of reading agree in every committed state, and what is read
stays read with its time, exactly if no run commits a new status for a notification that has been
read meanwhile. -/
theorem read_forever_iff (loads : String → Option (List (String × String)))
    {rows : AutoTable Notification} (hrows : ∀ n ∈ rows, n.status = .read ↔ n.readAt ≠ none)
    {es : List WorkerEvent} (hes : ∀ e ∈ es, e.Unread) :
    (Runs.Always (workerStep loads) Outbox.Consistent (Outbox.quiet rows) es ∧
      ∀ pre mid suf, es = pre ++ mid ++ suf →
        (Runs.run (workerStep loads) (Outbox.quiet rows) pre).Kept
          (Runs.run (workerStep loads) (Outbox.quiet rows) (pre ++ mid))) ↔
    Runs.Along (workerStep loads) Heeds (Outbox.quiet rows) es := by
  have hiff : Runs.Always (workerStep loads) Outbox.Consistent (Outbox.quiet rows) es ↔
      Runs.Along (workerStep loads) Heeds (Outbox.quiet rows) es :=
    Runs.always_iff_along (fun _ e hs _ => sound_step loads hs e)
      (fun _ _ hsound he h => consistent_step_iff loads hsound h he) (sound_quiet rows) hrows hes
  have hsteps : Runs.Along (workerStep loads) (fun s e => s.Timed (workerStep loads s e))
      (Outbox.quiet rows) es := Runs.along_iff.2 fun _ e _ _ => timed_step loads _ e
  have htimed := (Runs.along_between Outbox.Timed.refl fun _ _ _ => Outbox.Timed.trans).1 hsteps
  refine ⟨fun h => hiff.1 h.1, fun h => ⟨hiff.2 h, fun pre mid suf he => ?_⟩⟩
  have hconsistent := Runs.always_iff.1 (hiff.2 h)
  refine (htimed pre mid suf he).kept
    (hconsistent pre (mid ++ suf) ?_) (hconsistent (pre ++ mid) suf he)
  rw [he, List.append_assoc]

namespace Sample

/-- The user reads a notification while a run is about to send it. -/
def readMeanwhile : List WorkerEvent := [
  .select 0 .flushPending id,
  .markRead "runner" [1] 60,
  .send 0 (some "token") (.success "message") 61,
  .commit 0 true]

/-- The user reads a notification that has been sent. -/
def readAfterwards : List WorkerEvent := [
  .select 0 .flushPending id,
  .send 0 (some "token") (.success "message") 61,
  .commit 0 true,
  .markRead "runner" [1] 70]

end Sample

/-- The run puts the notification back to sent. -/
theorem not_read_forever_readMeanwhile :
    ¬ Runs.Always (workerStep Sample.loads) Outbox.Consistent
      (Outbox.quiet Sample.notifications) Sample.readMeanwhile := by
  intro h
  have hrow : ∃ n ∈ (Runs.run (workerStep Sample.loads) (Outbox.quiet Sample.notifications)
      Sample.readMeanwhile).rows.rows, n.status ≠ .read ∧ n.readAt ≠ none := by
    decide +kernel
  obtain ⟨n, hn, hstatus, hread⟩ := hrow
  exact hstatus ((Runs.always_last h n hn).2 hread)

theorem read_forever_iff_readAfterwards :
    (Runs.Always (workerStep Sample.loads) Outbox.Consistent (Outbox.quiet Sample.notifications)
        Sample.readAfterwards ∧
      ∀ pre mid suf, Sample.readAfterwards = pre ++ mid ++ suf →
        (Runs.run (workerStep Sample.loads) (Outbox.quiet Sample.notifications) pre).Kept
          (Runs.run (workerStep Sample.loads) (Outbox.quiet Sample.notifications) (pre ++ mid))) ↔
    Runs.Along (workerStep Sample.loads) Heeds (Outbox.quiet Sample.notifications)
      Sample.readAfterwards :=
  read_forever_iff Sample.loads (by decide) (by simp [Sample.readAfterwards, WorkerEvent.Unread])

end OrderRun
