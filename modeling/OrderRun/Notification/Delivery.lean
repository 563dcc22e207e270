import OrderRun.Lib.Runs
import OrderRun.Notification.Worker

/-!
# At-most-once delivery

Whether a notification can be accepted by FCM more than once.  A run does not claim the
rows it has selected, and what it has sent is recorded only when the whole batch
commits.

* `Outbox.Tracked` — every accepted message is on record: its row is settled, or an
  unfinished run holds the object marked as sent.
* `Exclusive` — no run selects a row that an unfinished run holds, and no run ends
  without a commit after a successful send.
* `tracked_step` — an exclusive step keeps the records.
* `atMostOnce_of_exclusive` — so no notification is accepted twice in any run whose
  steps are all exclusive.
-/

namespace OrderRun

open Store

/-! ## What a run holds -/

namespace Batch

/-- The notifications a run has selected. -/
def ids (b : Batch) : List ℕ := b.done.map (fun c => c.loaded.id) ++ b.rest.map Notification.id

/-- The run has sent this notification, and not yet recorded it. -/
def Sent (b : Batch) (id : ℕ) : Prop := ∃ c ∈ b.done, c.loaded.id = id ∧ c.dirty.status = .sent

theorem mem_ids_of_done {b : Batch} {c : Change Notification} (h : c ∈ b.done) :
    c.loaded.id ∈ b.ids :=
  List.mem_append_left _ (List.mem_map_of_mem h)

theorem mem_ids_of_rest {b : Batch} {n : Notification} (h : n ∈ b.rest) : n.id ∈ b.ids :=
  List.mem_append_right _ (List.mem_map_of_mem h)

/-- A turn of the loop moves the notification from one part to the other. -/
theorem ids_turn (done : List (Change Notification)) (n n' : Notification)
    (rest : List Notification) :
    (Batch.mk (done ++ [⟨n, n'⟩]) rest).ids = (Batch.mk done (n :: rest)).ids := by
  simp [ids]

end Batch

/-- An unfinished run holds the notification. -/
def Outbox.Held (s : Outbox) (id : ℕ) : Prop := ∃ run b, s.runs run = some b ∧ id ∈ b.ids

/-! ## Records -/

/-- No run selects the row. -/
def Notification.Settled (n : Notification) : Prop := n.status ≠ .pending ∧ n.status ≠ .failed

theorem Notification.Settled.of_sent {n : Notification} (h : n.status = .sent) : n.Settled := by
  unfold Settled
  rw [h]
  decide

theorem not_settled_of_selects {job : WorkerJob} {n : Notification} (h : job.selects n = true) :
    ¬ n.Settled := by
  rintro ⟨hpending, hfailed⟩
  cases job with
  | flushPending => exact hpending (by simpa [WorkerJob.selects] using h)
  | retryFailed =>
      have hboth : n.status = .failed ∧ n.retryCount < MAX_RETRY := by
        simpa [WorkerJob.selects] using h
      exact hfailed hboth.1

/-- What a run knows about the notifications it holds. -/
structure Outbox.Holds (s : Outbox) (b : Batch) : Prop where
  nodup : b.ids.Nodup
  known : ∀ id ∈ b.ids, id < s.rows.next
  rest : ∀ n ∈ b.rest, ¬ n.Settled ∧ s.successes n.id = 0
  done : ∀ c ∈ b.done, ¬ c.loaded.Settled ∧
    (c.dirty.status = .sent ∨ s.successes c.loaded.id = 0)

/-- Every accepted message is on record, and runs do not share notifications. -/
structure Outbox.Tracked (s : Outbox) : Prop where
  known : ∀ id, s.rows.next ≤ id → s.successes id = 0
  holds : ∀ run b, s.runs run = some b → s.Holds b
  apart : ∀ run run' b b', s.runs run = some b → s.runs run' = some b' → run ≠ run' →
    ∀ id ∈ b.ids, id ∉ b'.ids
  recorded : ∀ id, s.successes id = 0 ∨ s.successes id = 1 ∧
    ((∀ n ∈ s.rows, n.id = id → n.Settled) ∨
      ∃ run b, s.runs run = some b ∧ b.Sent id)

/-- A step that sends none of the notifications a run holds does not concern the run. -/
theorem Outbox.Holds.mono {s s' : Outbox} {b : Batch} (h : s.Holds b)
    (hnext : s.rows.next ≤ s'.rows.next)
    (hsame : ∀ id ∈ b.ids, s'.successes id = s.successes id) : s'.Holds b where
  nodup := h.nodup
  known := fun id hid => (h.known id hid).trans_le hnext
  rest := by
    intro n hn
    rw [hsame n.id (Batch.mem_ids_of_rest hn)]
    exact h.rest n hn
  done := by
    intro c hc
    rw [hsame c.loaded.id (Batch.mem_ids_of_done hc)]
    exact h.done c hc

/-- What a run must not do: select what an unfinished run holds, or end without a commit
after it has sent something. -/
def Exclusive (loads : String → Option (List (String × String))) (s : Outbox) :
    WorkerEvent → Prop
  | .enqueue _ | .markRead .. => True
  | .select run job rank => s.runs run = none →
      ∀ n ∈ selectBatch s.rows job rank, ¬ s.Held n.id
  | .send run token result utcnow => ∀ done n rest, s.runs run = some ⟨done, n :: rest⟩ →
      sendOne loads n token result utcnow = none → ∀ c ∈ done, c.dirty.status ≠ .sent
  | .commit run goesThrough => ∀ done, s.runs run = some ⟨done, []⟩ → goesThrough = false →
      ∀ c ∈ done, c.dirty.status ≠ .sent

section Step

variable {s : Outbox}

theorem tracked_quiet (rows : AutoTable Notification) : (Outbox.quiet rows).Tracked where
  known := fun _ _ => rfl
  holds := fun _ _ h => absurd h (by simp [Outbox.quiet])
  apart := fun _ _ _ _ h => absurd h (by simp [Outbox.quiet])
  recorded := fun _ => Or.inl rfl

/-- A new notification: nothing has been sent for its key. -/
theorem tracked_enqueue (h : s.Tracked) (n : Notification) : (s.enqueue n).Tracked := by
  have hnext : s.rows.next ≤ s.rows.next + 1 := Nat.le_succ _
  refine ⟨fun id hid => h.known id (hnext.trans hid), ?_, h.apart, ?_⟩
  · intro run b hb
    exact (h.holds run b hb).mono hnext fun _ _ => rfl
  · intro id
    refine (h.recorded id).imp_right fun ⟨hone, hrec⟩ => ⟨hone, hrec.imp_left ?_⟩
    intro hrows m hm hid
    rcases AutoTable.mem_insert.1 hm with hm | rfl
    · exact hrows m hm hid
    · have hzero : s.successes id = 0 := h.known id (by rw [← hid])
      omega

/-- Reading a notification does not make a run select it. -/
theorem tracked_markRead (h : s.Tracked) (userId : UserId) (ids : List ℕ) (utcnow : DateTime) :
    (s.markRead userId ids utcnow).Tracked := by
  refine ⟨h.known, ?_, h.apart, ?_⟩
  · intro run b hb
    exact (h.holds run b hb).mono le_rfl fun _ _ => rfl
  · intro id
    refine (h.recorded id).imp_right fun ⟨hone, hrec⟩ => ⟨hone, hrec.imp_left ?_⟩
    intro hrows m' hm' hid
    obtain ⟨m, hm, rfl⟩ := AutoTable.mem_map.1 hm'
    rw [Notification.markRead_id] at hid
    rcases m.markRead_cases userId ids utcnow with he | hread
    · rw [he]
      exact hrows m hm hid
    · unfold Notification.Settled
      rw [hread]
      decide

/-- A run that ends without having anything to record. -/
theorem tracked_drop (h : s.Tracked) {run : ℕ} {b : Batch} (hb : s.runs run = some b)
    (hsent : ∀ c ∈ b.done, c.dirty.status ≠ .sent) : (s.setRun run none).Tracked := by
  have hold : ∀ k b', (s.setRun run none).runs k = some b' → s.runs k = some b' := by
    intro k b' hk
    rcases Outbox.runs_setRun_cases hk with ⟨-, hnone⟩ | ⟨-, hk⟩
    · exact absurd hnone (by simp)
    · exact hk
  refine ⟨h.known, ?_, ?_, ?_⟩
  · intro k b' hk
    exact (h.holds k b' (hold k b' hk)).mono le_rfl fun _ _ => rfl
  · intro k k' b₁ b₂ hk hk'
    exact h.apart k k' b₁ b₂ (hold k b₁ hk) (hold k' b₂ hk')
  · intro id
    refine (h.recorded id).imp_right fun ⟨hone, hrec⟩ => ⟨hone, hrec.imp_right ?_⟩
    rintro ⟨k, b', hk, c, hc, hid, hst⟩
    have hne : k ≠ run := by
      rintro rfl
      rw [hb, Option.some.injEq] at hk
      rw [← hk] at hc
      exact hsent c hc hst
    exact ⟨k, b', by rw [Outbox.runs_setRun_of_ne _ _ hne, hk], c, hc, hid, hst⟩

/-- A run starts on rows that no other run holds: none of them has been sent. -/
theorem tracked_select (h : s.Tracked) {run : ℕ} {job : WorkerJob} {rank : ℕ → ℕ}
    (hrun : s.runs run = none) (hfree : ∀ n ∈ selectBatch s.rows job rank, ¬ s.Held n.id) :
    (s.setRun run (some ⟨[], selectBatch s.rows job rank⟩)).Tracked := by
  have hids : (Batch.mk [] (selectBatch s.rows job rank)).ids =
      (selectBatch s.rows job rank).map Notification.id := rfl
  have hmem : ∀ n ∈ selectBatch s.rows job rank, n ∈ s.rows ∧ ¬ n.Settled := by
    intro n hn
    obtain ⟨hrow, hjob⟩ := mem_selectBatch hn
    exact ⟨hrow, not_settled_of_selects hjob⟩
  have hunsent : ∀ n ∈ selectBatch s.rows job rank, s.successes n.id = 0 := by
    intro n hn
    rcases h.recorded n.id with hzero | ⟨-, hrows | ⟨k, b, hk, c, hc, hid, -⟩⟩
    · exact hzero
    · exact absurd (hrows n (hmem n hn).1 rfl) (hmem n hn).2
    · exact absurd ⟨k, b, hk, by rw [← hid]; exact Batch.mem_ids_of_done hc⟩ (hfree n hn)
  have hother : ∀ k b, s.runs k = some b → ∀ id ∈ b.ids,
      id ∉ (Batch.mk [] (selectBatch s.rows job rank)).ids := by
    intro k b hk id hid hnew
    rw [hids] at hnew
    obtain ⟨n, hn, rfl⟩ := List.mem_map.1 hnew
    exact hfree n hn ⟨k, b, hk, hid⟩
  refine ⟨h.known, ?_, ?_, ?_⟩
  · intro k b hk
    rcases Outbox.runs_setRun_cases hk with ⟨-, hb⟩ | ⟨-, hk⟩
    · rw [Option.some.injEq] at hb
      subst hb
      refine ⟨by rw [hids]; exact nodup_selectBatch s.rows job rank, ?_,
        fun n hn => ⟨(hmem n hn).2, hunsent n hn⟩, fun c hc => absurd hc List.not_mem_nil⟩
      intro id hid
      rw [hids] at hid
      obtain ⟨n, hn, rfl⟩ := List.mem_map.1 hid
      exact AutoTable.lt_next (hmem n hn).1
    · exact (h.holds k b hk).mono le_rfl fun _ _ => rfl
  · intro k k' b b' hk hk' hne
    rcases Outbox.runs_setRun_cases hk with ⟨hkr, hb⟩ | ⟨-, hk⟩ <;>
      rcases Outbox.runs_setRun_cases hk' with ⟨hkr', hb'⟩ | ⟨-, hk'⟩
    · exact absurd (hkr.trans hkr'.symm) hne
    · rw [← Option.some.inj hb]
      exact fun id hid hid' => hother k' b' hk' id hid' hid
    · rw [← Option.some.inj hb']
      exact hother k b hk
    · exact h.apart k k' b b' hk hk' hne
  · intro id
    refine (h.recorded id).imp_right fun ⟨hone, hrec⟩ => ⟨hone, hrec.imp_right ?_⟩
    rintro ⟨k, b, hk, hsent⟩
    have hne : k ≠ run := by
      rintro rfl
      rw [hrun] at hk
      exact absurd hk (by simp)
    exact ⟨k, b, by rw [Outbox.runs_setRun_of_ne _ _ hne, hk], hsent⟩

/-- The messages accepted after one turn of a run. -/
theorem successes_advance (run : ℕ) (done : List (Change Notification)) (n n' : Notification)
    (rest : List Notification) (message : Option FCMMessage) (id : ℕ) :
    (s.advance run done n n' rest message).successes id =
      s.successes id + if message.isSome ∧ n.id = id then 1 else 0 := by
  cases message with
  | none => simp [Outbox.advance, Outbox.successes]
  | some m =>
      simp [Outbox.advance, Outbox.successes, List.countP_cons]

/-- Nothing changes for the other notifications. -/
theorem successes_advance_of_ne {run : ℕ} {done : List (Change Notification)} {n n' : Notification}
    {rest : List Notification} {message : Option FCMMessage} {id : ℕ} (h : n.id ≠ id) :
    (s.advance run done n n' rest message).successes id = s.successes id := by
  rw [successes_advance, if_neg fun hc => h hc.2, Nat.add_zero]

/-- One turn of a run: what it knows afterwards. -/
theorem holds_advance (run : ℕ) {done : List (Change Notification)} {n n' : Notification}
    {rest : List Notification} {message : Option FCMMessage} (h : s.Holds ⟨done, n :: rest⟩)
    (hturn : message = none ∨ n'.status = .sent) :
    (s.advance run done n n' rest message).Holds ⟨done ++ [⟨n, n'⟩], rest⟩ := by
  have hids := Batch.ids_turn done n n' rest
  have hnodup : (done.map (fun c => c.loaded.id) ++ n.id :: rest.map Notification.id).Nodup :=
    h.nodup
  have hmiddle := List.nodup_cons.1 (List.nodup_middle.1 hnodup)
  have hdone : ∀ c ∈ done, n.id ≠ c.loaded.id := by
    intro c hc he
    refine hmiddle.1 (List.mem_append_left _ ?_)
    rw [he]
    exact List.mem_map_of_mem hc
  have hrest : ∀ m ∈ rest, n.id ≠ m.id := by
    intro m hm he
    refine hmiddle.1 (List.mem_append_right _ ?_)
    rw [he]
    exact List.mem_map_of_mem hm
  obtain ⟨hunsettled, hzero⟩ := h.rest n List.mem_cons_self
  refine ⟨by rw [hids]; exact h.nodup, by rw [hids]; exact h.known, ?_, ?_⟩
  · intro m hm
    rw [successes_advance_of_ne (hrest m hm)]
    exact h.rest m (List.mem_cons_of_mem _ hm)
  · intro c hc
    rcases List.mem_append.1 hc with hc | hc
    · rw [successes_advance_of_ne (hdone c hc)]
      exact h.done c hc
    · rw [List.mem_singleton] at hc
      rw [hc]
      refine ⟨hunsettled, hturn.symm.imp_right fun hnone => ?_⟩
      show (s.advance run done n n' rest message).successes n.id = 0
      rw [successes_advance, hzero, hnone]
      rfl

/-- One turn of a run: the notification was unsent, and is on record if it is sent. -/
theorem tracked_advance (h : s.Tracked) {run : ℕ} {done : List (Change Notification)}
    {n n' : Notification} {rest : List Notification} {message : Option FCMMessage}
    (hrun : s.runs run = some ⟨done, n :: rest⟩)
    (hturn : message = none ∧ n'.status = .failed ∨ (∃ m, message = some m) ∧ n'.status = .sent) :
    (s.advance run done n n' rest message).Tracked := by
  have hb := h.holds run _ hrun
  have hids := Batch.ids_turn done n n' rest
  have hmem : n.id ∈ (Batch.mk done (n :: rest)).ids := Batch.mem_ids_of_rest List.mem_cons_self
  have hzero := (hb.rest n List.mem_cons_self).2
  have hself : (s.advance run done n n' rest message).runs run =
      some ⟨done ++ [⟨n, n'⟩], rest⟩ := Outbox.runs_setRun_self _ _ _
  -- a run after the step holds what it held before
  have hold : ∀ k b', (s.advance run done n n' rest message).runs k = some b' →
      ∃ b, s.runs k = some b ∧ b.ids = b'.ids := by
    intro k b' hk
    rcases Outbox.runs_setRun_cases hk with ⟨rfl, hb'⟩ | ⟨-, hk⟩
    · exact ⟨_, hrun, by rw [← Option.some.inj hb', hids]⟩
    · exact ⟨b', hk, rfl⟩
  refine ⟨?_, ?_, ?_, ?_⟩
  · intro id hid
    rw [successes_advance_of_ne ((hb.known n.id hmem).trans_le hid).ne]
    exact h.known id hid
  · intro k b' hk
    rcases Outbox.runs_setRun_cases hk with ⟨-, hb'⟩ | ⟨hne, hk⟩
    · rw [← Option.some.inj hb']
      exact holds_advance run hb (hturn.imp And.left And.right)
    · refine (h.holds k b' hk).mono le_rfl fun id hid => successes_advance_of_ne ?_
      rintro rfl
      exact h.apart k run b' _ hk hrun hne _ hid hmem
  · intro k k' b₁ b₂ hk hk' hne
    obtain ⟨b₁', hk₁, he₁⟩ := hold k b₁ hk
    obtain ⟨b₂', hk₂, he₂⟩ := hold k' b₂ hk'
    rw [← he₁, ← he₂]
    exact h.apart k k' b₁' b₂' hk₁ hk₂ hne
  · intro id
    by_cases hid : n.id = id
    · subst hid
      rcases hturn with ⟨hnone, -⟩ | ⟨⟨m, hm⟩, hst⟩
      · refine Or.inl ?_
        rw [successes_advance, hzero, hnone]
        rfl
      · refine Or.inr ⟨?_, Or.inr ⟨run, _, hself, ⟨n, n'⟩, ?_, rfl, hst⟩⟩
        · rw [successes_advance, hzero, hm]
          simp
        · exact List.mem_append_right _ List.mem_cons_self
    · rw [successes_advance_of_ne hid]
      refine (h.recorded id).imp_right fun ⟨hone, hrec⟩ => ⟨hone, hrec.imp_right ?_⟩
      rintro ⟨k, b, hk, c, hc, hcid, hst⟩
      by_cases hkr : k = run
      · rw [hkr, hrun, Option.some.injEq] at hk
        rw [← hk] at hc
        exact ⟨run, _, hself, c, List.mem_append_left _ hc, hcid, hst⟩
      · exact ⟨k, b, (Outbox.runs_setRun_of_ne _ _ hkr).trans hk, c, hc, hcid, hst⟩

/-- The row of a notification a run has sent is settled after the run's commit. -/
theorem settled_record {done : List (Change Notification)} {rest : List Notification}
    (hb : s.Holds ⟨done, rest⟩) {n : Notification} (hone : s.successes n.id = 1)
    (h : n.Settled ∨ (Batch.mk done rest).Sent n.id) :
    (writeBack Notification.flush done n).Settled := by
  have hunique : ∀ c ∈ done, ∀ c' ∈ done, c.loaded.id = c'.loaded.id → c = c' := by
    have hnodup : (done.map (fun c => c.loaded.id)).Nodup :=
      (List.nodup_append.1 hb.nodup).1
    exact fun c hc c' hc' he => List.inj_on_of_nodup_map hnodup hc hc' he
  rcases writeBack_cases Notification.flush done n with ⟨hno, he⟩ | ⟨c, hc, hid, he⟩
  · rw [he]
    rcases h with hst | ⟨c, hc, hid, -⟩
    · exact hst
    · exact absurd hid (hno c hc)
  · rw [he]
    obtain ⟨hloaded, hdone⟩ := hb.done c hc
    have hcid : c.loaded.id = n.id := hid
    have hsent : c.dirty.status = .sent := by
      refine hdone.resolve_right fun hzero => ?_
      rw [hcid] at hzero
      omega
    refine Notification.Settled.of_sent ?_
    show col c.loaded.status c.dirty.status n.status = .sent
    rw [hsent, col_of_ne fun h => hloaded (Notification.Settled.of_sent h.symm)]

/-- The commit of a run puts on record what it has sent. -/
theorem tracked_record (h : s.Tracked) {run : ℕ} {done : List (Change Notification)}
    (hrun : s.runs run = some ⟨done, []⟩) : (s.record run done).Tracked := by
  have hold : ∀ k b', (s.record run done).runs k = some b' → s.runs k = some b' := by
    intro k b' hk
    rcases Outbox.runs_setRun_cases hk with ⟨-, hnone⟩ | ⟨-, hk⟩
    · exact absurd hnone (by simp)
    · exact hk
  refine ⟨h.known, ?_, ?_, ?_⟩
  · intro k b' hk
    exact (h.holds k b' (hold k b' hk)).mono le_rfl fun _ _ => rfl
  · intro k k' b₁ b₂ hk hk'
    exact h.apart k k' b₁ b₂ (hold k b₁ hk) (hold k' b₂ hk')
  · intro id
    refine (h.recorded id).imp_right fun ⟨hone, hrec⟩ => ⟨hone, ?_⟩
    have hrows : ∀ n' ∈ (s.record run done).rows, n'.id = id →
        ∃ n ∈ s.rows, n.id = id ∧ n' = writeBack Notification.flush done n := by
      intro n' hn' hid
      obtain ⟨n, hn, rfl⟩ := AutoTable.mem_map.1 hn'
      exact ⟨n, hn, by rw [← hid, Outbox.notification_writeBack_id], rfl⟩
    rcases hrec with hst | ⟨k, b, hk, hsent⟩
    · refine Or.inl fun n' hn' hid => ?_
      obtain ⟨n, hn, rfl, rfl⟩ := hrows n' hn' hid
      exact settled_record (h.holds run _ hrun) hone (Or.inl (hst n hn rfl))
    · by_cases hkr : k = run
      · rw [hkr, hrun, Option.some.injEq] at hk
        subst hk
        refine Or.inl fun n' hn' hid => ?_
        obtain ⟨n, hn, rfl, rfl⟩ := hrows n' hn' hid
        exact settled_record (h.holds run _ hrun) hone (Or.inr hsent)
      · exact Or.inr ⟨k, b, (Outbox.runs_setRun_of_ne _ _ hkr).trans hk, hsent⟩

/-- **An exclusive step keeps the records.** -/
theorem tracked_step {loads : String → Option (List (String × String))} (h : s.Tracked)
    {e : WorkerEvent} (hC : Exclusive loads s e) : (workerStep loads s e).Tracked := by
  cases e with
  | enqueue n => exact tracked_enqueue h n
  | markRead userId ids utcnow => exact tracked_markRead h userId ids utcnow
  | select run job rank =>
      rcases select_cases loads s run job rank with he | ⟨hrun, he⟩
      · rw [he]; exact h
      · rw [he]; exact tracked_select h hrun (hC hrun)
  | send run token result utcnow =>
      rcases send_cases loads s run token result utcnow with
        he | ⟨done, n, rest, hrun, ⟨hnone, he⟩ | ⟨n', message, hsome, he⟩⟩
      · rw [he]; exact h
      · rw [he]; exact tracked_drop h hrun (hC done n rest hrun hnone)
      · rw [he]; exact tracked_advance h hrun (sendOne_eq_some hsome).2
  | commit run goesThrough =>
      rcases commit_cases loads s run goesThrough with
        he | ⟨done, hrun, ⟨-, he⟩ | ⟨hfalse, he⟩⟩
      · rw [he]; exact h
      · rw [he]; exact tracked_record h hrun
      · rw [he]; exact tracked_drop h hrun (hC done hrun hfalse)

end Step

/-! ## Whole interleavings -/

/-- **When every notification is delivered at most once.**  Start from any set of
notifications, with no run under way, and interleave the steps of any number of runs,
with whatever results FCM returns: as long as no run selects a row that an unfinished
run holds, and no run that has sent something ends without a commit, FCM accepts at most
one message for each notification. -/
theorem atMostOnce_of_exclusive (loads : String → Option (List (String × String)))
    (rows : AutoTable Notification) {es : List WorkerEvent}
    (h : Runs.Along (workerStep loads) (Exclusive loads) (Outbox.quiet rows) es) :
    Runs.Always (workerStep loads) (fun s => ∀ id, s.successes id ≤ 1) (Outbox.quiet rows) es := by
  have htracked : Runs.Always (workerStep loads) Outbox.Tracked (Outbox.quiet rows) es :=
    Runs.always_of_along (I := fun _ => True) (A := fun _ => True) (fun _ _ _ _ => trivial)
      (fun _ _ _ _ hs hC => tracked_step hs hC) trivial (tracked_quiet rows)
      (fun _ _ => trivial) h
  rw [Runs.always_iff] at htracked ⊢
  intro pre suf he id
  rcases (htracked pre suf he).recorded id with hzero | ⟨hone, -⟩ <;> omega

namespace Sample

/-- A notification that waits to be sent. -/
def pending : Notification where
  id := 1
  userId := "runner"
  notificationType := .offerAccepted
  title := "accepted"
  body := "you have been chosen"
  data := none
  relatedEntityType := some "offer"
  relatedEntityId := some 1
  status := .pending
  fcmMessageId := none
  errorMessage := none
  createdAt := 53
  sentAt := none
  deliveredAt := none
  readAt := none
  retryCount := 0

/-- The committed notifications before any run. -/
def notifications : AutoTable Notification :=
  AutoTable.empty.insert fun k => { pending with id := k }

/-- No notification has extra data. -/
def loads (_ : String) : Option (List (String × String)) := none

/-- The runs after two requests, one following the other. -/
def oneAfterTheOther : List WorkerEvent := [
  .select 0 .flushPending id,
  .send 0 (some "token") (.success "first") 60,
  .commit 0 true,
  .select 1 .flushPending id,
  .send 1 (some "token") (.success "second") 61,
  .commit 1 true]

/-- The same runs, both under way at once. -/
def bothAtOnce : List WorkerEvent := [
  .select 0 .flushPending id,
  .select 1 .flushPending id,
  .send 0 (some "token") (.success "first") 60,
  .send 1 (some "token") (.success "second") 61,
  .commit 0 true,
  .commit 1 true]

end Sample

theorem atMostOnce_of_exclusive_oneAfterTheOther :
    Runs.Always (workerStep Sample.loads) (fun s => ∀ id, s.successes id ≤ 1)
      (Outbox.quiet Sample.notifications) Sample.oneAfterTheOther := by
  refine atMostOnce_of_exclusive Sample.loads Sample.notifications
    ⟨?_, ?_, ?_, ?_, ?_, ?_, trivial⟩
  · rintro - n - ⟨run, b, hb, -⟩
    exact absurd hb (by simp [Outbox.quiet])
  · intro done n rest hrun hnone
    have hrun' : some (Batch.mk [] [Sample.pending]) = some (Batch.mk done (n :: rest)) := hrun
    simp only [Option.some.injEq, Batch.mk.injEq] at hrun'
    rw [← hrun'.1]
    exact fun c hc => absurd hc List.not_mem_nil
  · intro done hrun hfalse
    exact absurd hfalse (by decide)
  · rintro - n hn
    have hnil : n ∈ ([] : List Notification) := hn
    exact absurd hnil List.not_mem_nil
  · intro done n rest hrun
    have hrun' : none = some (Batch.mk done (n :: rest)) := hrun
    exact absurd hrun' (by simp)
  · intro done hrun hfalse
    exact absurd hfalse (by decide)

/-- Both runs deliver the notification. -/
theorem not_atMostOnce_bothAtOnce :
    ¬ Runs.Always (workerStep Sample.loads) (fun s => ∀ id, s.successes id ≤ 1)
      (Outbox.quiet Sample.notifications) Sample.bothAtOnce := by
  intro h
  have htwo : (Runs.run (workerStep Sample.loads) (Outbox.quiet Sample.notifications)
      Sample.bothAtOnce).successes 1 = 2 := by
    decide +kernel
  have hone := Runs.always_last h 1
  rw [htwo] at hone
  omega

end OrderRun
