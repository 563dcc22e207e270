import OrderRun.Lib.Split
import OrderRun.Accounts.PhoneVerification

/-!
# Guessing a code

`verify` loads a record, compares the code, computes the next number of attempts, and
commits.  Nothing is re-checked at the commit: two calls that have loaded the same record
both write what they have computed.

* `VerificationCall`, `verification` — the calls, split into a read and a commit step.
* `Desk.Guarded` — at most five answers `CODE_MISMATCH` for a record, and at most one
  verification of it.
* `guarded_of_inTime` — it holds in every run in which no commit comes too late;
  `late_commits` shows what happens otherwise.
-/

namespace OrderRun

open Store Runs Split PhoneVerificationService

/-! ## Calls in two steps -/

/-- A call of the service. -/
inductive VerificationCall where
  | send (smsSender : Bool) (purpose : PhoneVerificationPurpose) (phone : String) (draw : ℕ)
      (name carrier : Option String) (now : Readings)
  | verify (purpose : PhoneVerificationPurpose) (phone code : String) (now : DateTime)

/-- What a call is going to commit. -/
inductive VerificationWork where
  | insert (record : AuthPhoneVerification)
  | update (examined : Examined)

/-- The committed records, and the verdicts committed so far, each with the key of its
record, latest first. -/
structure VerdictLog where
  records : AutoTable AuthPhoneVerification
  verdicts : List (ℕ × Verdict)

namespace VerdictLog

/-- No code has been sent. -/
def empty : VerdictLog := ⟨AutoTable.empty, []⟩

/-- How often a record has been answered with a verdict. -/
def answers (w : VerdictLog) (id : ℕ) (verdict : Verdict) : ℕ := w.verdicts.count (id, verdict)

end VerdictLog

/-- The service: what a call reads, and what its commit writes. -/
def verification (settings : Settings) :
    Service VerdictLog VerificationCall VerificationWork Failure where
  read w
    | .send smsSender purpose phone draw name carrier now => do
        let _ ← send settings w.records purpose phone smsSender draw name carrier now
        return .insert (newRecord settings purpose phone (generateVerificationCode draw) name
          carrier now.second)
    | .verify purpose phone code now => do
        return .update (← verify settings w.records purpose phone code now)
  commit w _
    | .insert record =>
        return { w with records := w.records.insert fun k => { record with id := k } }
    | .update x =>
        return ⟨recordChange w.records x.change,
          (x.change.loaded.id, x.verdict) :: w.verdicts⟩

/-- A wrong guess commits while its record has the number of attempts it was loaded with,
a right one while its record is still pending. -/
def Examined.InTime (x : Examined) (row : AuthPhoneVerification) : Prop :=
  (x.verdict = .mismatch → row.attemptCount = x.change.loaded.attemptCount) ∧
    (x.verdict = .verified → row.status = .pending)

/-- No commit comes too late for its record. -/
def CommitsInTime (w : VerdictLog) (_ : VerificationCall) : VerificationWork → Prop
  | .insert _ => True
  | .update x => ∀ row ∈ w.records, row.id = x.change.loaded.id → x.InTime row

namespace VerdictLog

/-- What holds of a record and of the answers it has been given. -/
structure Guarded (w : VerdictLog) (id : ℕ) : Prop where
  mismatches : w.answers id .mismatch ≤ VERIFICATION_CODE_MAX_ATTEMPTS
  once : w.answers id .verified ≤ 1

/-! ## The invariant -/

/-- The attempts of a record count its mismatches; while it is pending, some are left and
it has not been verified. -/
structure Counted (w : VerdictLog) : Prop where
  attempts : ∀ v ∈ w.records, w.answers v.id .mismatch = v.attemptCount
  bound : ∀ v ∈ w.records, v.attemptCount ≤ VERIFICATION_CODE_MAX_ATTEMPTS
  pending : ∀ v ∈ w.records, v.status = .pending →
    v.attemptCount < VERIFICATION_CODE_MAX_ATTEMPTS ∧ w.answers v.id .verified = 0
  once : ∀ v ∈ w.records, w.answers v.id .verified ≤ 1
  /-- Verdicts are about records. -/
  known : ∀ x ∈ w.verdicts, ∃ v ∈ w.records, v.id = x.1

theorem counted_empty : empty.Counted := by
  constructor <;> intro x hx <;> exact absurd hx List.not_mem_nil

/-- No verdict was given about a record that does not exist. -/
theorem Counted.answers_eq_zero {w : VerdictLog} (h : w.Counted) {id : ℕ}
    (hid : ∀ v ∈ w.records, v.id ≠ id) (verdict : Verdict) : w.answers id verdict = 0 := by
  refine List.count_eq_zero.2 fun hmem => ?_
  obtain ⟨v, hv, he⟩ := h.known _ hmem
  exact hid v hv he

theorem Counted.guarded {w : VerdictLog} (h : w.Counted) (id : ℕ) : w.Guarded id := by
  by_cases hid : ∃ v ∈ w.records, v.id = id
  · obtain ⟨v, hv, rfl⟩ := hid
    exact ⟨(h.attempts v hv).trans_le (h.bound v hv), h.once v hv⟩
  · have hno : ∀ v ∈ w.records, v.id ≠ id := fun v hv he => hid ⟨v, hv, he⟩
    exact ⟨(h.answers_eq_zero hno _).trans_le (Nat.zero_le _),
      (h.answers_eq_zero hno _).trans_le (Nat.zero_le _)⟩

/-- What the invariant says about one record. -/
structure CountedRow (answers : Verdict → ℕ) (v : AuthPhoneVerification) : Prop where
  attempts : answers .mismatch = v.attemptCount
  bound : v.attemptCount ≤ VERIFICATION_CODE_MAX_ATTEMPTS
  pending : v.status = .pending →
    v.attemptCount < VERIFICATION_CODE_MAX_ATTEMPTS ∧ answers .verified = 0
  once : answers .verified ≤ 1

theorem Counted.row {w : VerdictLog} (h : w.Counted) {v : AuthPhoneVerification}
    (hv : v ∈ w.records) : CountedRow (w.answers v.id) v :=
  ⟨h.attempts v hv, h.bound v hv, h.pending v hv, h.once v hv⟩

theorem counted_of_rows {w : VerdictLog} (h : ∀ v ∈ w.records, CountedRow (w.answers v.id) v)
    (hknown : ∀ x ∈ w.verdicts, ∃ v ∈ w.records, v.id = x.1) : w.Counted where
  attempts v hv := (h v hv).attempts
  bound v hv := (h v hv).bound
  pending v hv := (h v hv).pending
  once v hv := (h v hv).once
  known := hknown

theorem Counted.insert {w : VerdictLog} (h : w.Counted) {record : AuthPhoneVerification}
    (hattempts : record.attemptCount = 0) :
    Counted { w with records := w.records.insert fun k => { record with id := k } } := by
  have hfresh : ∀ verdict, w.answers w.records.next verdict = 0 :=
    h.answers_eq_zero fun v hv => (AutoTable.lt_next hv).ne
  refine counted_of_rows (fun v hv => ?_) fun x hx => ?_
  · rcases AutoTable.mem_insert.1 hv with hv | rfl
    · exact h.row hv
    · exact ⟨(hfresh _).trans hattempts.symm, hattempts.trans_le (Nat.zero_le _),
        fun _ => ⟨hattempts.trans_lt (by decide), hfresh _⟩, (hfresh _).trans_le (Nat.zero_le _)⟩
  · obtain ⟨v, hv, he⟩ := h.known x hx
    exact ⟨v, AutoTable.mem_insert.2 (Or.inl hv), he⟩

/-- The row an examined record becomes, whatever it has become by then. -/
theorem write_cases {settings : Settings} {v row : AuthPhoneVerification} (hv : v.status = .pending)
    (hid : row.id = v.id) (code : String) (now : DateTime) :
    let x := examine settings v code now
    let row' := AuthPhoneVerification.write x.change row
    (x.verdict = .expired ∧ row'.status = .expired ∧ row'.attemptCount = row.attemptCount) ∨
      (x.verdict = .mismatch ∧ row'.attemptCount = v.attemptCount + 1 ∧
        (row'.status = .pending → row.status = .pending ∧
          v.attemptCount + 1 < VERIFICATION_CODE_MAX_ATTEMPTS)) ∨
      (x.verdict = .verified ∧ row'.status = .verified ∧ row'.attemptCount = row.attemptCount) := by
  intro x row'
  have hrow' : row' = AuthPhoneVerification.flush x.change.loaded x.change.dirty row :=
    AuthPhoneVerification.write_of_eq (by rw [examine_loaded, hid])
  rcases examine_cases settings v code now with ⟨-, he⟩ | ⟨-, -, he⟩ | ⟨-, -, he⟩
  · refine Or.inl ⟨congrArg Examined.verdict he, ?_, ?_⟩ <;> rw [hrow', show x = _ from he]
    · exact col_of_ne (by simp [hv]) row.status
    · exact col_unchanged _ _
  · refine Or.inr (Or.inl ⟨congrArg Examined.verdict he, ?_, ?_⟩) <;> rw [hrow', show x = _ from he]
    · exact col_of_ne (Nat.succ_ne_self _) row.attemptCount
    · simp only [AuthPhoneVerification.flush]
      split
      · rw [col_of_ne (by simp [hv])]
        simp
      · next hleft =>
          rw [col_unchanged]
          exact fun hpending => ⟨hpending, not_le.1 hleft⟩
  · refine Or.inr (Or.inr ⟨congrArg Examined.verdict he, ?_, ?_⟩) <;> rw [hrow', show x = _ from he]
    · exact col_of_ne (by simp [hv]) row.status
    · exact col_unchanged _ _

/-- The record of a verification that does not come too late. -/
theorem CountedRow.write {settings : Settings} {v row : AuthPhoneVerification}
    {answers : Verdict → ℕ} (h : CountedRow answers row) (hv : v.status = .pending)
    (hleft : v.attemptCount < VERIFICATION_CODE_MAX_ATTEMPTS) (hid : row.id = v.id)
    {code : String} {now : DateTime} (hcur : (examine settings v code now).InTime row) :
    CountedRow
      (fun verdict => answers verdict +
        if (examine settings v code now).verdict = verdict then 1 else 0)
      (AuthPhoneVerification.write (examine settings v code now).change row) := by
  obtain ⟨hguess, hright⟩ := hcur
  rw [examine_loaded] at hguess
  have hcases := @write_cases settings v row hv hid code now
  dsimp only at hcases
  generalize examine settings v code now = x at hcases hguess hright ⊢
  generalize AuthPhoneVerification.write x.change row = row' at hcases ⊢
  rcases hcases with ⟨hver, hst, hat⟩ | ⟨hver, hat, hst⟩ | ⟨hver, hst, hat⟩
  · refine ⟨?_, hat ▸ h.bound, fun hpending => ?_, ?_⟩
    · simp [hver, hat, h.attempts]
    · rw [hst] at hpending
      exact absurd hpending (by decide)
    · simpa [hver] using h.once
  · have hattempts : row'.attemptCount = row.attemptCount + 1 := by rw [hat, hguess hver]
    refine ⟨?_, hat ▸ hleft, fun hpending => ?_, ?_⟩
    · simp [hver, hattempts, h.attempts]
    · obtain ⟨hrow, hmore⟩ := hst hpending
      exact ⟨hat ▸ hmore, by simpa [hver] using (h.pending hrow).2⟩
    · simpa [hver] using h.once
  · have hnever := (h.pending (hright hver)).2
    refine ⟨?_, hat ▸ h.bound, fun hpending => ?_, ?_⟩
    · simp [hver, hat, h.attempts]
    · rw [hst] at hpending
      exact absurd hpending (by decide)
    · simp [hver, hnever]

/-- **The commit of a verification** that does not come too late. -/
theorem Counted.update {w : VerdictLog} (h : w.Counted) {settings : Settings}
    {v : AuthPhoneVerification} (hv : v.status = .pending)
    (hleft : v.attemptCount < VERIFICATION_CODE_MAX_ATTEMPTS) {code : String} {now : DateTime}
    (hex : ∃ row ∈ w.records, row.id = v.id)
    (hcur : ∀ row ∈ w.records, row.id = v.id → (examine settings v code now).InTime row) :
    Counted ⟨recordChange w.records (examine settings v code now).change,
      (v.id, (examine settings v code now).verdict) :: w.verdicts⟩ := by
  have hkept : ∀ r ∈ w.records, ∃ r' ∈ recordChange w.records (examine settings v code now).change,
      r'.id = r.id := fun r hr =>
    ⟨_, AutoTable.mem_map.2 ⟨r, hr, rfl⟩, AuthPhoneVerification.write_id _ _⟩
  refine counted_of_rows (fun r' hr' => ?_) fun y hy => ?_
  · obtain ⟨r, hr, rfl⟩ := AutoTable.mem_map.1 hr'
    rw [AuthPhoneVerification.write_id]
    by_cases hid : r.id = v.id
    · -- the record of the verification
      have hrow := (h.row hr).write hv hleft hid (hcur r hr hid)
      have hanswers : answers ⟨recordChange w.records (examine settings v code now).change,
          (v.id, (examine settings v code now).verdict) :: w.verdicts⟩ r.id = fun verdict =>
            w.answers r.id verdict +
              if (examine settings v code now).verdict = verdict then 1 else 0 := by
        funext verdict
        simp [answers, List.count_cons, hid]
      rw [hanswers]
      exact hrow
    · have hsame : AuthPhoneVerification.write (examine settings v code now).change r = r :=
        AuthPhoneVerification.write_of_ne (by rw [examine_loaded]; exact Ne.symm hid)
      have hanswers : answers ⟨recordChange w.records (examine settings v code now).change,
          (v.id, (examine settings v code now).verdict) :: w.verdicts⟩ r.id = w.answers r.id :=
        funext fun verdict => List.count_cons_of_ne fun he => hid (Prod.mk.inj he).1.symm
      rw [hanswers, hsame]
      exact h.row hr
  · rcases List.mem_cons.1 hy with rfl | hy
    · obtain ⟨row, hrow, hid⟩ := hex
      obtain ⟨r', hr', he⟩ := hkept row hrow
      exact ⟨r', hr', he.trans hid⟩
    · obtain ⟨r, hr, hid⟩ := h.known y hy
      obtain ⟨r', hr', he⟩ := hkept r hr
      exact ⟨r', hr', he.trans hid⟩

/-! ## Runs -/

/-- No record of `w` is missing in `w'`. -/
def Within (w w' : VerdictLog) : Prop := ∀ v ∈ w.records, ∃ v' ∈ w'.records, v'.id = v.id

theorem verification_sound (settings : Settings) :
    (verification settings).Sound (fun _ => True) Within (fun _ => True) where
  refl := fun _ v hv => ⟨v, hv, rfl⟩
  trans := by
    intro w₁ w₂ w₃ h h' v hv
    obtain ⟨v', hv', hid⟩ := h v hv
    obtain ⟨v'', hv'', hid'⟩ := h' v' hv'
    exact ⟨v'', hv'', hid'.trans hid⟩
  commit := by
    intro w₀ w w' c work _ _ _ _ _ hcommit
    refine ⟨trivial, fun v hv => ?_⟩
    cases work with
    | insert record =>
        obtain rfl := pure_eq_ok.1 hcommit
        exact ⟨v, AutoTable.mem_insert.2 (Or.inl hv), rfl⟩
    | update x =>
        obtain rfl := pure_eq_ok.1 hcommit
        exact ⟨_, AutoTable.mem_map.2 ⟨v, hv, rfl⟩, AuthPhoneVerification.write_id _ _⟩

/-- What a read step has found. -/
theorem read_eq_ok {settings : Settings} {w₀ : VerdictLog} {c : VerificationCall}
    {work : VerificationWork} (h : (verification settings).read w₀ c = .ok work) :
    (∃ purpose phone code name carrier now,
        work = .insert (newRecord settings purpose phone code name carrier now)) ∨
      ∃ v ∈ w₀.records, ∃ code now, v.status = .pending ∧
        work = .update (examine settings v code now) := by
  cases c with
  | send smsSender purpose phone draw name carrier now =>
      simp only [verification, bind_eq_ok, pure_eq_ok] at h
      obtain ⟨_, -, rfl⟩ := h
      exact Or.inl ⟨purpose, phone, _, name, carrier, _, rfl⟩
  | verify purpose phone code now =>
      simp only [verification, bind_eq_ok, pure_eq_ok, verify_eq_ok] at h
      obtain ⟨x, ⟨v, hlatest, rfl⟩, rfl⟩ := h
      obtain ⟨hv, hpending, -⟩ := latestPending_eq_some_iff.1 hlatest
      exact Or.inr ⟨v, hv, code, now, hpending.2.2, rfl⟩

/-- The record of a pending verification had attempts left when it was loaded. -/
def AttemptsLeft (x : State VerdictLog VerificationCall VerificationWork) : Prop :=
  ∀ tid c examined, x.pool tid = some (c, .update examined) →
    examined.change.loaded.attemptCount < VERIFICATION_CODE_MAX_ATTEMPTS

theorem attemptsLeft_step {settings : Settings}
    {x : State VerdictLog VerificationCall VerificationWork} (h : AttemptsLeft x)
    (hcounted : x.now.Counted) (e : Event VerificationCall) :
    AttemptsLeft ((verification settings).step x e) := by
  intro tid c examined hpool
  rcases Service.pool_step hpool with hpool | ⟨-, hread⟩
  · exact h tid c examined hpool
  · rcases read_eq_ok hread with ⟨_, _, _, _, _, _, he⟩ | ⟨v, hv, code, now, hpending, he⟩
    · exact absurd he (by simp)
    · obtain rfl := VerificationWork.update.inj he
      rw [examine_loaded]
      exact (hcounted.pending v hv hpending).1

/-- One commit that does not come too late keeps the counts. -/
theorem counted_commit {settings : Settings} {w₀ w w' : VerdictLog} {c : VerificationCall}
    {work : VerificationWork} (hread : (verification settings).read w₀ c = .ok work)
    (hwithin : w₀.Within w) (h : w.Counted)
    (hleft : ∀ x, work = .update x →
      x.change.loaded.attemptCount < VERIFICATION_CODE_MAX_ATTEMPTS)
    (hcommit : (verification settings).commit w c work = .ok w')
    (hcur : CommitsInTime w c work) : w'.Counted := by
  rcases read_eq_ok hread with ⟨purpose, phone, code, name, carrier, now, rfl⟩ |
    ⟨v, hv, code, now, hpending, rfl⟩
  · obtain rfl := pure_eq_ok.1 hcommit
    exact h.insert rfl
  · obtain rfl := pure_eq_ok.1 hcommit
    have hmore := hleft _ rfl
    rw [examine_loaded] at hmore
    have hcur' : ∀ row ∈ w.records, row.id = v.id → (examine settings v code now).InTime row := by
      intro row hrow hid
      exact hcur row hrow (by rw [examine_loaded, hid])
    simp only [examine_loaded]
    exact h.update hpending hmore (hwithin v hv) hcur'

/-- **Guesses are bounded and codes are used once**, over every interleaving of sends and
verifications, if every wrong guess commits while its record has the number of attempts it
was loaded with, and every right one while its record is still pending. -/
theorem guarded_of_inTime (settings : Settings) {es : List (Event VerificationCall)}
    (hcur : Along (verification settings).step ((verification settings).Commits CommitsInTime)
      (State.quiet empty) es) :
    Always (verification settings).step (fun x => ∀ id, x.now.Guarded id)
      (State.quiet empty) es := by
  have hsound := verification_sound settings
  have hcounted : Always (verification settings).step (fun x => x.now.Counted ∧ AttemptsLeft x)
      (State.quiet empty) es := by
    refine always_of_along (A := Event.Calls fun _ => True)
      (I := fun x => True ∧ (verification settings).Origin (fun _ => True) Within (fun _ => True) x)
      (fun x e hx he => hsound.inv_step x e hx he) ?_ ⟨trivial, Service.origin_quiet _⟩
      ⟨counted_empty, ?_⟩ (fun e _ => by cases e <;> trivial) hcur
    · rintro x e hx - ⟨hP, hleft⟩ hC
      refine ⟨?_, attemptsLeft_step hleft hP e⟩
      cases e with
      | read tid c => rw [Service.now_step_read]; exact hP
      | commit tid =>
          rcases Service.now_step_commit (S := verification settings) x tid with he |
            ⟨c, work, hpool, hcommit⟩
          · rw [he]; exact hP
          · obtain ⟨-, w₀, -, hread, hwithin⟩ := hx.2 tid c work hpool
            exact counted_commit hread hwithin hP (fun y hy => hleft tid c y (hy ▸ hpool)) hcommit
              ((Service.commits_iff hpool hcommit).1 hC)
    · intro tid c examined hpool
      exact absurd hpool (by simp)
  exact always_iff.2 fun pre suf he => (always_iff.1 hcounted pre suf he).1.guarded

/-- Calls executed one at a time commit what they have just read. -/
theorem along_commits_in_turn (settings : Settings) (cs : List VerificationCall) :
    Along (verification settings).step ((verification settings).Commits CommitsInTime)
      (State.quiet empty) (cs.flatMap fun c => [.read 0 c, .commit 0]) := by
  refine Service.along_commits_calls ?_ empty cs
  intro w w' c work hread _
  rcases read_eq_ok hread with ⟨_, _, _, _, _, _, rfl⟩ | ⟨v, hv, code, now, hpending, rfl⟩
  · trivial
  · intro row hrow hid
    rw [examine_loaded] at hid
    obtain rfl : row = v := AutoTable.eq_of_key_eq hrow hv hid
    exact ⟨fun _ => by rw [examine_loaded], fun _ => hpending⟩

/-! ## Commits that come too late -/

namespace Sample

def code : VerificationCall := .send true .login "01012345678" 7 none none ⟨1, 2, 3, 4⟩

def guess : VerificationCall := .verify .login "01012345678" "000008" 5

def login : VerificationCall := .verify .login "01012345678" "000007" 5

/-- Each call commits before the next one reads. -/
def inTurn : List (Event VerificationCall) :=
  [code, guess, login].flatMap fun c => [.read 0 c, .commit 0]

/-- Six guesses read the record before the first of them commits. -/
def lateGuesses : List (Event VerificationCall) :=
  [.read 0 code, .commit 0] ++ (List.range 6).map (.read · guess) ++ (List.range 6).map .commit

/-- Two logins read the record before the first of them commits. -/
def lateLogins : List (Event VerificationCall) :=
  [.read 0 code, .commit 0, .read 1 login, .read 2 login, .commit 1, .commit 2]

end Sample

theorem guarded_inTurn : Always (verification Settings.sample).step
    (fun x => ∀ id, x.now.Guarded id) (State.quiet empty) Sample.inTurn :=
  guarded_of_inTime Settings.sample
    (along_commits_in_turn Settings.sample [Sample.code, Sample.guess, Sample.login])

/-- **Late commits**: six guesses are answered `CODE_MISMATCH`, and one code logs in
twice. -/
theorem late_commits :
    (¬ Always (verification Settings.sample).step (fun x => ∀ id, x.now.Guarded id)
      (State.quiet empty) Sample.lateGuesses) ∧
    ¬ Always (verification Settings.sample).step (fun x => ∀ id, x.now.Guarded id)
      (State.quiet empty) Sample.lateLogins := by
  constructor
  · intro h
    have hlast := (always_last h 1).mismatches
    revert hlast
    decide +kernel
  · intro h
    have hlast := (always_last h 1).once
    revert hlast
    decide +kernel

end VerdictLog
end OrderRun
