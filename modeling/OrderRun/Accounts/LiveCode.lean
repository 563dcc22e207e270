import OrderRun.Lib.Runs
import OrderRun.Accounts.PhoneVerification

/-!
# The live code

`send` looks for any unexpired pending record, `verify` takes the newest pending record
whether or not it has expired.  Over every run the two agree.

* `Desk`, `VerificationEvent` — the records, the codes that went out, and what can happen
  to them: sends and verifications, with the commit or rollback of their callers, and the
  deletion of a phone's records when its owner withdraws.
* `Orderly` — the invariant: a record is only opened once every earlier one for the same
  purpose and phone has expired or left `PENDING`.
* `send_verify_agree` — what it says about the two selections.
-/

namespace OrderRun

open Store Runs PhoneVerificationService

/-! ## Runs of the service -/

/-- What can happen to the records. -/
inductive VerificationEvent where
  | send (smsSender : Bool) (purpose : PhoneVerificationPurpose) (phone : String) (draw : ℕ)
      (name carrier : Option String) (now : Readings)
  /-- `commits` is what the caller does with a verified record. -/
  | verify (purpose : PhoneVerificationPurpose) (phone code : String) (now : DateTime)
      (commits : Bool)
  /-- The owner of the phone withdraws. -/
  | forget (phone : String)

/-- What the clock shows while an event happens. -/
def VerificationEvent.readings : VerificationEvent → List DateTime
  | .send _ _ _ _ _ _ now => [now.first, now.second]
  | .verify _ _ _ now _ => [now]
  | .forget _ => []

/-- The clock never goes back. -/
def VerificationEvent.Clocked (es : List VerificationEvent) : Prop :=
  (es.flatMap VerificationEvent.readings).Pairwise (· ≤ ·)

/-- The records, and the codes generated so far, each with the key of its record. -/
structure Desk where
  records : AutoTable AuthPhoneVerification
  codes : List (ℕ × String)

namespace Desk

variable (settings : Settings)

/-- No code has been sent. -/
def empty : Desk := ⟨AutoTable.empty, []⟩

def step (d : Desk) : VerificationEvent → Desk
  | .send smsSender purpose phone draw name carrier now =>
    match send settings d.records purpose phone smsSender draw name carrier now with
    | .error _ => d
    | .ok sent => ⟨sent.records, (d.records.next, generateVerificationCode draw) :: d.codes⟩
  | .verify purpose phone code now commits =>
    match verify settings d.records purpose phone code now with
    | .error _ => d
    | .ok x =>
      -- an expired or mismatching record has been committed before the error is raised
      if x.verdict = .verified ∧ commits = false then d
      else { d with records := recordChange d.records x.change }
  | .forget phone => { d with records := d.records.filter fun v => v.phone ≠ phone }

/-- The desk after a run. -/
def after (es : List VerificationEvent) : Desk := run (step settings) empty es

/-- The record is pending and has not expired. -/
def Live (d : Desk) (purpose : PhoneVerificationPurpose) (phone : String) (now : DateTime)
    (v : AuthPhoneVerification) : Prop :=
  v ∈ d.records ∧ v.Awaits purpose phone ∧ now < v.expiresAt

/-! ## The invariant -/

/-- What holds of the desk when the clock shows `now`. -/
structure Orderly (d : Desk) (now : DateTime) : Prop where
  attempts : ∀ v ∈ d.records, v.status = .pending → v.attemptCount < VERIFICATION_CODE_MAX_ATTEMPTS
  sent_le : ∀ v ∈ d.records, v.sentAt ≤ now
  ordered : ∀ v ∈ d.records, ∀ w ∈ d.records, v.id < w.id → v.sentAt ≤ w.sentAt
  /-- A record was opened when all earlier pending ones had expired. -/
  apart : ∀ v ∈ d.records, ∀ w ∈ d.records, ∀ purpose phone, v.Awaits purpose phone →
    w.Awaits purpose phone → v.id < w.id → v.expiresAt ≤ w.sentAt
  stored : ∀ v ∈ d.records, ∃ code, (v.id, code) ∈ d.codes ∧
    v.codeHash = hashVerificationCode settings code
  codes_lt : ∀ x ∈ d.codes, x.1 < d.records.next
  codes_inj : ∀ x ∈ d.codes, ∀ y ∈ d.codes, x.1 = y.1 → x = y

variable {settings} {d : Desk} {now : DateTime}

theorem Orderly.mono (h : d.Orderly settings now) {later : DateTime} (hle : now ≤ later) :
    d.Orderly settings later :=
  { h with sent_le := fun v hv => (h.sent_le v hv).trans hle }

theorem orderly_empty (now : DateTime) : empty.Orderly settings now := by
  constructor <;> intro x hx <;> exact absurd hx List.not_mem_nil

/-- Records that are rewritten or dropped, without a new pending one, keep the order. -/
theorem Orderly.shrink (h : d.Orderly settings now) {t : AutoTable AuthPhoneVerification}
    (hnext : t.next = d.records.next)
    (ht : ∀ w ∈ t, ∃ v ∈ d.records, w.id = v.id ∧ w.sentAt = v.sentAt ∧ w.expiresAt = v.expiresAt ∧
      w.codeHash = v.codeHash ∧
      (w.status = .pending → w.attemptCount < VERIFICATION_CODE_MAX_ATTEMPTS) ∧
      ∀ purpose phone, w.Awaits purpose phone → v.Awaits purpose phone) :
    Orderly settings { d with records := t } now where
  attempts := by
    intro w hw
    obtain ⟨v, -, -, -, -, -, hattempts, -⟩ := ht w hw
    exact hattempts
  sent_le := by
    intro w hw
    obtain ⟨v, hv, -, hsent, -⟩ := ht w hw
    rw [hsent]
    exact h.sent_le v hv
  ordered := by
    intro w hw w' hw' hlt
    obtain ⟨v, hv, hid, hsent, -⟩ := ht w hw
    obtain ⟨v', hv', hid', hsent', -⟩ := ht w' hw'
    rw [hsent, hsent']
    exact h.ordered v hv v' hv' (by omega)
  apart := by
    intro w hw w' hw' purpose phone hpending hpending' hlt
    obtain ⟨v, hv, hid, -, hexp, -, -, haw⟩ := ht w hw
    obtain ⟨v', hv', hid', hsent', -, -, -, haw'⟩ := ht w' hw'
    rw [hexp, hsent']
    exact h.apart v hv v' hv' purpose phone (haw purpose phone hpending)
      (haw' purpose phone hpending') (by omega)
  stored := by
    intro w hw
    obtain ⟨v, hv, hid, -, -, hhash, -⟩ := ht w hw
    rw [hid, hhash]
    exact h.stored v hv
  codes_lt := by
    intro x hx
    rw [hnext]
    exact h.codes_lt x hx
  codes_inj := h.codes_inj

/-- A send opens a record only if no pending one is alive. -/
theorem orderly_send {now : Readings} (h : d.Orderly settings now.first)
    (hle : now.first ≤ now.second) (smsSender : Bool) (purpose : PhoneVerificationPurpose)
    (phone : String) (draw : ℕ) (name carrier : Option String) :
    (d.step settings (.send smsSender purpose phone draw name carrier now)).Orderly settings
      now.second := by
  simp only [step]
  cases hsend : send settings d.records purpose phone smsSender draw name carrier now with
  | error _ => exact h.mono hle
  | ok sent =>
      obtain ⟨hinactive, -, rfl⟩ := send_eq_ok.1 hsend
      have hold : ∀ v ∈ d.records, v.id < d.records.next := fun v hv => AutoTable.lt_next hv
      have hdead : ∀ v ∈ d.records, v.Awaits purpose phone → v.expiresAt ≤ now.first := by
        intro v hv hpending
        by_contra hlt
        have hlive := hasActivePending_iff.2 ⟨v, hv, hpending, not_le.1 hlt⟩
        rw [hlive] at hinactive
        exact absurd hinactive (by decide)
      constructor
      · intro v hv hpending
        rcases AutoTable.mem_insert.1 hv with hv | rfl
        · exact h.attempts v hv hpending
        · exact Nat.zero_lt_succ _
      · intro v hv
        rcases AutoTable.mem_insert.1 hv with hv | rfl
        · exact (h.sent_le v hv).trans hle
        · exact le_rfl
      · intro v hv w hw hlt
        rcases AutoTable.mem_insert.1 hv with hv | rfl <;>
          rcases AutoTable.mem_insert.1 hw with hw | rfl
        · exact h.ordered v hv w hw hlt
        · exact (h.sent_le v hv).trans hle
        · exact absurd hlt (not_lt.2 (hold w hw).le)
        · exact le_rfl
      · intro v hv w hw purpose' phone' hpending hpending' hlt
        rcases AutoTable.mem_insert.1 hv with hv | rfl <;>
          rcases AutoTable.mem_insert.1 hw with hw | rfl
        · exact h.apart v hv w hw purpose' phone' hpending hpending' hlt
        · -- the new record is for the purpose and the phone of the send
          obtain ⟨rfl, rfl, -⟩ := hpending'
          exact (hdead v hv hpending).trans hle
        · exact absurd hlt (not_lt.2 (hold w hw).le)
        · exact absurd hlt (lt_irrefl _)
      · intro v hv
        rcases AutoTable.mem_insert.1 hv with hv | rfl
        · obtain ⟨code, hcode, hhash⟩ := h.stored v hv
          exact ⟨code, List.mem_cons_of_mem _ hcode, hhash⟩
        · exact ⟨_, List.mem_cons_self, rfl⟩
      · intro x hx
        rcases List.mem_cons.1 hx with rfl | hx
        · exact Nat.lt_succ_self _
        · exact Nat.lt_succ_of_lt (h.codes_lt x hx)
      · intro x hx y hy he
        rcases List.mem_cons.1 hx with rfl | hx <;> rcases List.mem_cons.1 hy with rfl | hy
        · rfl
        · exact absurd he (h.codes_lt y hy).ne'
        · exact absurd he (h.codes_lt x hx).ne
        · exact h.codes_inj x hx y hy he

/-- A record that has been examined keeps its key, its times and its code, and is pending
afterwards only if it was, with attempts left. -/
theorem examine_keeps {v : AuthPhoneVerification} (hv : v.status = .pending) (code : String)
    (now : DateTime) :
    let w := (examine settings v code now).change.dirty
    w.id = v.id ∧ w.sentAt = v.sentAt ∧ w.expiresAt = v.expiresAt ∧ w.codeHash = v.codeHash ∧
      (w.status = .pending → w.attemptCount < VERIFICATION_CODE_MAX_ATTEMPTS) ∧
      ∀ purpose phone, w.Awaits purpose phone → v.Awaits purpose phone := by
  intro w
  rcases examine_cases settings v code now with ⟨-, h⟩ | ⟨-, -, h⟩ | ⟨-, -, h⟩
  · rw [show w = _ from congrArg (·.change.dirty) h]
    exact ⟨rfl, rfl, rfl, rfl, by simp, fun _ _ hw => ⟨hw.1, hw.2.1, hv⟩⟩
  · rw [show w = _ from congrArg (·.change.dirty) h]
    refine ⟨rfl, rfl, rfl, rfl, ?_, fun _ _ hw => ⟨hw.1, hw.2.1, hv⟩⟩
    -- the status of the last attempt is EXPIRED
    intro hstatus
    by_contra hmax
    rw [show (ite (VERIFICATION_CODE_MAX_ATTEMPTS ≤ v.attemptCount + 1) _ _ :
      PhoneVerificationStatus) = .expired from if_pos (not_lt.1 hmax)] at hstatus
    exact absurd hstatus (by simp)
  · rw [show w = _ from congrArg (·.change.dirty) h]
    exact ⟨rfl, rfl, rfl, rfl, by simp, fun _ _ hw => ⟨hw.1, hw.2.1, hv⟩⟩

theorem orderly_verify (h : d.Orderly settings now) (purpose : PhoneVerificationPurpose)
    (phone code : String) (commits : Bool) :
    (d.step settings (.verify purpose phone code now commits)).Orderly settings now := by
  simp only [step]
  cases hverify : verify settings d.records purpose phone code now with
  | error _ => exact h
  | ok x =>
      obtain ⟨v, hlatest, rfl⟩ := verify_eq_ok.1 hverify
      obtain ⟨hv, hpending, -⟩ := latestPending_eq_some_iff.1 hlatest
      by_cases hrollback : (examine settings v code now).verdict = .verified ∧ commits = false
      · simp only [if_pos hrollback]
        exact h
      · simp only [if_neg hrollback]
        refine h.shrink rfl fun w hw => ?_
        rcases (mem_recordChange hv).1 hw with ⟨hw, -⟩ | rfl
        · exact ⟨w, hw, rfl, rfl, rfl, rfl, h.attempts w hw, fun _ _ hw => hw⟩
        · exact ⟨v, hv, examine_keeps hpending.2.2 code now⟩

theorem orderly_forget (h : d.Orderly settings now) (phone : String) :
    (d.step settings (.forget phone)).Orderly settings now := by
  refine h.shrink rfl fun w hw => ?_
  have hold : w ∈ d.records := (AutoTable.mem_filter.1 hw).1
  exact ⟨w, hold, rfl, rfl, rfl, rfl, h.attempts w hold, fun _ _ hw => hw⟩

/-- **The order is kept over every run** under a clock that does not go back. -/
theorem orderly_after {es : List VerificationEvent} (hclock : VerificationEvent.Clocked es)
    (hnow : ∀ e ∈ es, ∀ t ∈ e.readings, t ≤ now) : (after settings es).Orderly settings now := by
  induction es using List.reverseRecOn generalizing now with
  | nil => exact orderly_empty now
  | append_singleton es e ih =>
      rw [VerificationEvent.Clocked, List.flatMap_append, List.pairwise_append] at hclock
      obtain ⟨hes, he, hbefore⟩ := hclock
      have hreading : ∀ t ∈ e.readings, ∀ x ∈ es, ∀ t' ∈ x.readings, t' ≤ t := by
        intro t ht x hx t' ht'
        exact hbefore t' (List.mem_flatMap.2 ⟨x, hx, ht'⟩) t (by simpa using ht)
      have hlast : ∀ t ∈ e.readings, t ≤ now := hnow e (by simp)
      rw [after, run_concat]
      cases e with
      | send smsSender purpose phone draw name carrier t =>
          have hle : t.first ≤ t.second := by
            simpa [VerificationEvent.readings] using he
          exact (orderly_send (ih hes (hreading t.first (by simp [VerificationEvent.readings])))
            hle smsSender purpose phone draw name carrier).mono
            (hlast t.second (by simp [VerificationEvent.readings]))
      | verify purpose phone code t commits =>
          exact (orderly_verify (ih hes (hreading t (by simp [VerificationEvent.readings])))
            purpose phone code commits).mono (hlast t (by simp [VerificationEvent.readings]))
      | forget phone =>
          exact orderly_forget (ih hes fun x hx => hnow x (by simp [hx])) phone

/-! ## The two selections -/

theorem hasActivePending_iff_live {purpose : PhoneVerificationPurpose} {phone : String} :
    hasActivePending d.records purpose phone now = true ↔ ∃ v, d.Live purpose phone now v :=
  hasActivePending_iff

/-- A live record is later than every other pending record of its purpose and phone. -/
theorem Orderly.live_latest (h : d.Orderly settings now) {purpose : PhoneVerificationPurpose}
    {phone : String} {v : AuthPhoneVerification} (hv : d.Live purpose phone now v) :
    latestPending d.records purpose phone = some v := by
  obtain ⟨hmem, hpending, hlive⟩ := hv
  refine latestPending_eq_some_iff.2 ⟨hmem, hpending, fun w hw hpending' => ?_⟩
  rcases lt_trichotomy w.id v.id with hlt | heq | hgt
  · rcases (h.ordered w hw v hmem hlt).lt_or_eq with hs | hs
    · exact Or.inl hs
    · exact Or.inr ⟨hs, hlt.le⟩
  · obtain rfl : w = v := AutoTable.eq_of_key_eq hw hmem heq
    exact Or.inr ⟨rfl, le_rfl⟩
  · -- a later record would have been opened after this one had expired
    have hdead := h.apart v hmem w hw purpose phone hpending hpending' hgt
    exact absurd hlive (not_lt.2 (hdead.trans (h.sent_le w hw)))

/-- At most one record of a purpose and phone is live. -/
theorem Orderly.live_unique (h : d.Orderly settings now) {purpose : PhoneVerificationPurpose}
    {phone : String} {v w : AuthPhoneVerification} (hv : d.Live purpose phone now v)
    (hw : d.Live purpose phone now w) : v = w :=
  Option.some.inj ((h.live_latest hv).symm.trans (h.live_latest hw))

/-- The newest pending record, if it is not live, hides no live one. -/
theorem latest_dead {purpose : PhoneVerificationPurpose} {phone : String}
    (hno : hasActivePending d.records purpose phone now = false) {v : AuthPhoneVerification}
    (hv : latestPending d.records purpose phone = some v) : v.expiresAt ≤ now := by
  obtain ⟨hmem, hpending, -⟩ := latestPending_eq_some_iff.1 hv
  by_contra hlt
  have hlive := hasActivePending_iff.2 ⟨v, hmem, hpending, not_le.1 hlt⟩
  rw [hlive] at hno
  exact absurd hno (by decide)

/-- What `verify` answers while a record is live. -/
theorem Orderly.verifyAnswer_live (h : d.Orderly settings now) {purpose : PhoneVerificationPurpose}
    {phone : String} {v : AuthPhoneVerification} (hv : d.Live purpose phone now v) (code : String) :
    verifyAnswer settings d.records purpose phone code now =
      if v.codeHash = hashVerificationCode settings code then
        .ok { v with status := .verified, verifiedAt := some now }
      else .error (apiError .phoneVerificationCodeMismatch) := by
  have hverify : verify settings d.records purpose phone code now =
      .ok (examine settings v code now) := verify_eq_ok.2 ⟨v, h.live_latest hv, rfl⟩
  rcases examine_cases settings v code now with ⟨hdead, he⟩ | ⟨-, hne, he⟩ | ⟨-, hhash, he⟩
  · exact absurd hv.2.2 (not_lt.2 hdead)
  · rw [if_neg hne]
    simp only [verifyAnswer, hverify, he]
    rfl
  · rw [if_pos hhash]
    simp only [verifyAnswer, hverify, he]
    rfl

/-- What `verify` answers while no record is live. -/
theorem verifyAnswer_dead {purpose : PhoneVerificationPurpose} {phone : String}
    (hno : hasActivePending d.records purpose phone now = false) (code : String) :
    verifyAnswer settings d.records purpose phone code now =
        .error (apiError .phoneVerificationNotFound) ∨
      verifyAnswer settings d.records purpose phone code now =
        .error (apiError .phoneVerificationExpired) := by
  cases hlatest : latestPending d.records purpose phone with
  | none => exact Or.inl (by simp [verifyAnswer, verify, hlatest, orRaise]; rfl)
  | some v =>
      refine Or.inr ?_
      have hverify : verify settings d.records purpose phone code now =
          .ok (examine settings v code now) := verify_eq_ok.2 ⟨v, hlatest, rfl⟩
      have he : examine settings v code now = ⟨⟨v, { v with status := .expired }⟩, .expired⟩ :=
        if_pos (latest_dead hno hlatest)
      simp only [verifyAnswer, hverify, he]
      rfl

/-- The code of a record is the one whose hash it holds. -/
theorem Orderly.code_iff (h : d.Orderly settings now)
    (hhash : Function.Injective (hashVerificationCode settings)) {v : AuthPhoneVerification}
    (hv : v ∈ d.records) {code : String} :
    v.codeHash = hashVerificationCode settings code ↔ (v.id, code) ∈ d.codes := by
  obtain ⟨c, hc, hstored⟩ := h.stored v hv
  rw [hstored]
  constructor
  · intro he
    rwa [← hhash he]
  · intro hcode
    obtain rfl := (Prod.mk.inj (h.codes_inj _ hc _ hcode rfl)).2
    rfl

/-- A send is refused as already sent exactly if there is an active code. -/
theorem send_refused_iff {purpose : PhoneVerificationPurpose} {phone : String} {smsSender : Bool}
    {draw : ℕ} {name carrier : Option String} {now : Readings} :
    send settings d.records purpose phone smsSender draw name carrier now =
        .error (apiError .phoneVerificationAlreadySent) ↔
      hasActivePending d.records purpose phone now.first = true := by
  cases hactive : hasActivePending d.records purpose phone now.first <;> cases smsSender <;>
    simp [send, raiseIf, hactive, bind, Except.bind, pure, Except.pure, apiError, ERRORS]

/-- **`send` and `verify` agree about which code is live.** -/
theorem send_verify_agree (settings : Settings)
    (hhash : Function.Injective (hashVerificationCode settings)) {es : List VerificationEvent}
    (hclock : VerificationEvent.Clocked es) {now : DateTime}
    (hnow : ∀ e ∈ es, ∀ t ∈ e.readings, t ≤ now) :
    let d := after settings es
    (∀ purpose phone v w, d.Live purpose phone now v → d.Live purpose phone now w → v = w) ∧
    (∀ v ∈ d.records, v.status = .pending → v.attemptCount < VERIFICATION_CODE_MAX_ATTEMPTS) ∧
    (∀ purpose phone code r,
      verifyAnswer settings d.records purpose phone code now = .ok r ↔
        hasActivePending d.records purpose phone now = true ∧
        ∃ v, d.Live purpose phone now v ∧ (v.id, code) ∈ d.codes ∧
          r = { v with status := .verified, verifiedAt := some now }) ∧
    (∀ purpose phone code, hasActivePending d.records purpose phone now = true →
      (∀ v, d.Live purpose phone now v → (v.id, code) ∉ d.codes) →
      verifyAnswer settings d.records purpose phone code now =
        .error (apiError .phoneVerificationCodeMismatch)) ∧
    (∀ purpose phone code, hasActivePending d.records purpose phone now = false →
      verifyAnswer settings d.records purpose phone code now =
          .error (apiError .phoneVerificationNotFound) ∨
        verifyAnswer settings d.records purpose phone code now =
          .error (apiError .phoneVerificationExpired)) ∧
    ∀ purpose phone smsSender draw name carrier (t : Readings), t.first = now →
      (send settings d.records purpose phone smsSender draw name carrier t =
          .error (apiError .phoneVerificationAlreadySent) ↔
        hasActivePending d.records purpose phone now = true) := by
  intro d
  have h : d.Orderly settings now := orderly_after hclock hnow
  refine ⟨fun _ _ _ _ => h.live_unique, h.attempts, ?_, ?_, ?_, ?_⟩
  · intro purpose phone code r
    cases hactive : hasActivePending d.records purpose phone now with
    | false =>
        rcases verifyAnswer_dead hactive code with he | he <;> rw [he] <;> simp
    | true =>
        obtain ⟨v, hv⟩ := hasActivePending_iff_live.1 hactive
        rw [h.verifyAnswer_live hv code]
        constructor
        · intro hr
          split at hr
          · next hcode =>
              exact ⟨rfl, v, hv, (h.code_iff hhash hv.1).1 hcode, (Except.ok.inj hr).symm⟩
          · exact absurd hr (by simp)
        · rintro ⟨-, w, hw, hcode, rfl⟩
          obtain rfl := h.live_unique hv hw
          rw [if_pos ((h.code_iff hhash hv.1).2 hcode)]
  · intro purpose phone code hactive hwrong
    obtain ⟨v, hv⟩ := hasActivePending_iff_live.1 hactive
    rw [h.verifyAnswer_live hv code,
      if_neg fun hcode => hwrong v hv ((h.code_iff hhash hv.1).1 hcode)]
  · intro purpose phone code hno
    exact verifyAnswer_dead hno code
  · rintro purpose phone smsSender draw name carrier t rfl
    exact send_refused_iff

/-- A code is sent, and guessed wrong once. -/
def sample : List VerificationEvent := [
  .send true .login "01012345678" 7 none none ⟨1, 2, 3, 4⟩,
  .verify .login "01012345678" "000008" 5 true]

/-- The code that was sent is still accepted. -/
theorem send_verify_agree_sample : ∃ r, verifyAnswer Settings.sample
    (after Settings.sample sample).records .login "01012345678" "000007" 6 = .ok r := by
  have h := @send_verify_agree Settings.sample
    (hashVerificationCode_injective Function.injective_id) sample
    (by simp [sample, VerificationEvent.Clocked, VerificationEvent.readings]) 6
    (by simp [sample, VerificationEvent.readings])
  obtain ⟨-, -, hanswer, -⟩ := h
  exact ⟨_, (hanswer _ _ _ _).2 ⟨by decide +kernel, _,
    ⟨AutoTable.mem_iff.2 List.mem_cons_self, by decide +kernel⟩, by decide +kernel, rfl⟩⟩

end Desk
end OrderRun
