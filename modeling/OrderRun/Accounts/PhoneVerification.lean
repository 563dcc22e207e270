import OrderRun.Core.Config
import OrderRun.Services.UnitOfWork

/-!
# Phone verification

`app/services/user_auth/phone_verification.py` and `phone_verification_service.py`: a
code is generated, its hash is stored in a record, and the code goes out by SMS; later
a caller proves that it knows the code.

* `send`, `hasActivePending` — a new code is refused while an unexpired one is pending.
* `examine` — what `verify` makes of the record it has selected, and how it answers.
* `verify` — the selection of the newest pending record, and its examination.  A record
  that is answered with an error has been committed before the error is raised; a
  verified one is left to the caller's transaction.
-/

namespace OrderRun

open Store

/-! ## Policy -/

def LOCAL_TEST_VERIFICATION_CODE : String := "123456"

def LOGIN_TEST_CODE_ALLOWED_ENVS : List String := ["development", "local", "staging"]

def VERIFICATION_CODE_TTL_MINUTES : ℕ := 5

/-- In microseconds, the unit of the clock. -/
def VERIFICATION_CODE_TTL : ℕ := VERIFICATION_CODE_TTL_MINUTES * 60 * 1000000

def VERIFICATION_CODE_MAX_ATTEMPTS : ℕ := 5

/-- `f"{secrets.randbelow(1_000_000):06d}"`; `draw` is what the source of randomness
returns. -/
def generateVerificationCode (draw : ℕ) : String :=
  let digits := toString (draw % 1000000)
  "".pushn '0' (6 - digits.length) ++ digits

def hashVerificationCode (settings : Settings) (code : String) : String :=
  settings.sha256 (settings.secretKey ++ ":" ++ code)

def buildVerificationMessage (code : String) : String :=
  "[OrderRun] 인증번호는 " ++ code ++ " 입니다. " ++ toString VERIFICATION_CODE_TTL_MINUTES
    ++ "분 내 입력해 주세요."

def isLoginTestCodeAllowed (settings : Settings) (code : String) : Bool :=
  code = LOCAL_TEST_VERIFICATION_CODE ∧ settings.appEnv.toLower ∈ LOGIN_TEST_CODE_ALLOWED_ENVS

/-- Outside the listed environments no code is let through unverified. -/
theorem isLoginTestCodeAllowed_eq_false {settings : Settings}
    (h : settings.appEnv.toLower ∉ LOGIN_TEST_CODE_ALLOWED_ENVS) (code : String) :
    isLoginTestCodeAllowed settings code = false := by
  simp [isLoginTestCodeAllowed, h]

/-- The key in front of a code does not make two codes collide. -/
theorem hashVerificationCode_injective {settings : Settings}
    (h : Function.Injective settings.sha256) :
    Function.Injective (hashVerificationCode settings) := by
  intro code code' he
  have hlist := congrArg String.toList (h he)
  simp only [String.toList_append] at hlist
  exact String.toList_inj.1 (List.append_cancel_left hlist)

/-! ## Records -/

namespace AuthPhoneVerification

/-- The record waits for the code of this purpose and phone. -/
def Awaits (purpose : PhoneVerificationPurpose) (phone : String) (v : AuthPhoneVerification) :
    Prop :=
  v.purpose = purpose ∧ v.phone = phone ∧ v.status = .pending

instance (purpose : PhoneVerificationPurpose) (phone : String) (v : AuthPhoneVerification) :
    Decidable (v.Awaits purpose phone) :=
  inferInstanceAs (Decidable (_ ∧ _ ∧ _))

/-- The row after a flush of `dirty`, which was loaded as `loaded`. -/
def flush (loaded dirty row : AuthPhoneVerification) : AuthPhoneVerification :=
  { row with
    status := col loaded.status dirty.status row.status
    verifiedAt := col loaded.verifiedAt dirty.verifiedAt row.verifiedAt
    attemptCount := col loaded.attemptCount dirty.attemptCount row.attemptCount }

/-- The row after the flush of a change. -/
def write (c : Change AuthPhoneVerification) (row : AuthPhoneVerification) :
    AuthPhoneVerification :=
  writeBack flush [c] row

@[simp] theorem write_id (c : Change AuthPhoneVerification) (row : AuthPhoneVerification) :
    (write c row).id = row.id :=
  writeBack_induction (P := fun r : AuthPhoneVerification => r.id = row.id) rfl fun _ _ _ => rfl

theorem write_of_ne {c : Change AuthPhoneVerification} {row : AuthPhoneVerification}
    (h : c.loaded.id ≠ row.id) : write c row = row := by
  rw [write, writeBack_singleton]
  exact if_neg h

theorem write_of_eq {c : Change AuthPhoneVerification} {row : AuthPhoneVerification}
    (h : c.loaded.id = row.id) : write c row = flush c.loaded c.dirty row := by
  rw [write, writeBack_singleton]
  exact if_pos h

end AuthPhoneVerification

/-- The table after the flush of a change. -/
def recordChange (t : AutoTable AuthPhoneVerification) (c : Change AuthPhoneVerification) :
    AutoTable AuthPhoneVerification :=
  t.map (AuthPhoneVerification.write c) (AuthPhoneVerification.write_id c)

/-! ## The service -/

/-- A text message on its way. -/
structure SmsMessage where
  phone : String
  message : String
  deriving DecidableEq, Repr

structure AuthVerificationSendResponse where
  phone : String
  expiresAt : DateTime
  deriving DecidableEq, Repr

/-- What a successful `send` leaves: the table, the response, and the message the
background task will send. -/
structure Sent where
  records : AutoTable AuthPhoneVerification
  response : AuthVerificationSendResponse
  sms : SmsMessage

/-- How `verify` answers about the record it has examined. -/
inductive Verdict where
  | expired
  | mismatch
  | verified
  deriving DecidableEq, Repr

/-- The error raised with a verdict. -/
def Verdict.failure : Verdict → Option Failure
  | .expired => some (apiError .phoneVerificationExpired)
  | .mismatch => some (apiError .phoneVerificationCodeMismatch)
  | .verified => none

theorem Verdict.failure_eq_none {verdict : Verdict} :
    verdict.failure = none ↔ verdict = .verified := by
  cases verdict <;> simp [failure]

/-- The record `verify` has examined: as loaded, as changed, and the answer. -/
structure Examined where
  change : Change AuthPhoneVerification
  verdict : Verdict

namespace PhoneVerificationService

section Service

variable (settings : Settings) (t : AutoTable AuthPhoneVerification)
  (purpose : PhoneVerificationPurpose) (phone : String)

def hasActivePending (now : DateTime) : Bool :=
  ∃ v ∈ t.rows, v.Awaits purpose phone ∧ now < v.expiresAt

/-- A new record; its key is filled in when it is inserted. -/
def newRecord (code : String) (name carrier : Option String) (now : DateTime) :
    AuthPhoneVerification where
  id := 0
  purpose := purpose
  phone := phone
  name := name
  carrier := carrier
  codeHash := hashVerificationCode settings code
  status := .pending
  expiresAt := now + VERIFICATION_CODE_TTL
  sentAt := now
  verifiedAt := none
  attemptCount := 0

/-- The clock is read once by `has_active_pending` and once for the record. -/
def send (smsSender : Bool) (draw : ℕ) (name carrier : Option String) (now : Readings) :
    Except Failure Sent := do
  raiseIf (hasActivePending t purpose phone now.first) (apiError .phoneVerificationAlreadySent)
  raiseIf (¬ smsSender) (apiError .smsSenderNotConfigured)
  let code := generateVerificationCode draw
  let record := newRecord settings purpose phone code name carrier now.second
  return {
    records := t.insert fun k => { record with id := k }
    response := ⟨phone, record.expiresAt⟩
    sms := ⟨phone, buildVerificationMessage code⟩ }

/-- The newest pending record, expired or not. -/
def latestPending : Option AuthPhoneVerification :=
  t.firstBy (fun v => v.Awaits purpose phone) (latestFirst AuthPhoneVerification.sentAt)

/-- What `verify` makes of the record it has selected. -/
def examine (v : AuthPhoneVerification) (code : String) (now : DateTime) : Examined :=
  if v.expiresAt ≤ now then
    ⟨⟨v, { v with status := .expired }⟩, .expired⟩
  else if v.codeHash ≠ hashVerificationCode settings code then
    ⟨⟨v, { v with
      attemptCount := v.attemptCount + 1
      status := if VERIFICATION_CODE_MAX_ATTEMPTS ≤ v.attemptCount + 1 then .expired
        else v.status }⟩, .mismatch⟩
  else
    ⟨⟨v, { v with status := .verified, verifiedAt := some now }⟩, .verified⟩

def verify (code : String) (now : DateTime) : Except Failure Examined := do
  let v ← orRaise (latestPending t purpose phone) (apiError .phoneVerificationNotFound)
  return examine settings v code now

/-- What a call of `verify` comes back with. -/
def verifyAnswer (code : String) (now : DateTime) : Except Failure AuthPhoneVerification := do
  let x ← verify settings t purpose phone code now
  match x.verdict.failure with
  | some failure => .error failure
  | none => return x.change.dirty

end Service

/-! ## What the methods do -/

section Spec

variable {settings : Settings} {t : AutoTable AuthPhoneVerification}
  {purpose : PhoneVerificationPurpose} {phone : String}

theorem hasActivePending_iff {now : DateTime} : hasActivePending t purpose phone now = true ↔
    ∃ v ∈ t, v.Awaits purpose phone ∧ now < v.expiresAt := by
  rw [hasActivePending, decide_eq_true_eq]
  rfl

theorem send_eq_ok {smsSender : Bool} {draw : ℕ} {name carrier : Option String} {now : Readings}
    {s : Sent} : send settings t purpose phone smsSender draw name carrier now = .ok s ↔
      hasActivePending t purpose phone now.first = false ∧ smsSender = true ∧ s = {
        records := t.insert fun k => { newRecord settings purpose phone
          (generateVerificationCode draw) name carrier now.second with id := k }
        response := ⟨phone, now.second + VERIFICATION_CODE_TTL⟩
        sms := ⟨phone, buildVerificationMessage (generateVerificationCode draw)⟩ } := by
  simp only [send, bind_eq_ok, raiseIf_eq_ok, pure_eq_ok]
  constructor
  · rintro ⟨-, hactive, -, hsms, rfl⟩
    exact ⟨by simpa using hactive, by simpa using hsms, rfl⟩
  · rintro ⟨hactive, hsms, rfl⟩
    exact ⟨(), by simp [hactive], (), by simp [hsms], rfl⟩

/-- The selected record is the newest of the pending ones. -/
theorem latestPending_eq_some_iff {v : AuthPhoneVerification} :
    latestPending t purpose phone = some v ↔ v ∈ t ∧ v.Awaits purpose phone ∧
      ∀ w ∈ t, w.Awaits purpose phone →
        w.sentAt < v.sentAt ∨ w.sentAt = v.sentAt ∧ w.id ≤ v.id := by
  rw [latestPending, firstBy_latest_iff]
  simp only [decide_eq_true_eq]
  rfl

theorem verify_eq_ok {code : String} {now : DateTime} {x : Examined} :
    verify settings t purpose phone code now = .ok x ↔
      ∃ v, latestPending t purpose phone = some v ∧ x = examine settings v code now := by
  simp only [verify, bind_eq_ok, orRaise_eq_ok, pure_eq_ok]
  exact exists_congr fun v => and_congr_right fun _ => eq_comm

/-- **The three verdicts.** -/
theorem examine_cases (settings : Settings) (v : AuthPhoneVerification) (code : String)
    (now : DateTime) :
    (v.expiresAt ≤ now ∧ examine settings v code now =
        ⟨⟨v, { v with status := .expired }⟩, .expired⟩) ∨
      (now < v.expiresAt ∧ v.codeHash ≠ hashVerificationCode settings code ∧
        examine settings v code now = ⟨⟨v, { v with
          attemptCount := v.attemptCount + 1
          status := if VERIFICATION_CODE_MAX_ATTEMPTS ≤ v.attemptCount + 1 then .expired
            else v.status }⟩, .mismatch⟩) ∨
      (now < v.expiresAt ∧ v.codeHash = hashVerificationCode settings code ∧
        examine settings v code now =
          ⟨⟨v, { v with status := .verified, verifiedAt := some now }⟩, .verified⟩) := by
  unfold examine
  by_cases hexpired : v.expiresAt ≤ now
  · exact Or.inl ⟨hexpired, if_pos hexpired⟩
  · rw [if_neg hexpired]
    by_cases hhash : v.codeHash = hashVerificationCode settings code
    · exact Or.inr (Or.inr ⟨not_le.1 hexpired, hhash, if_neg (not_not.2 hhash)⟩)
    · exact Or.inr (Or.inl ⟨not_le.1 hexpired, hhash, if_pos hhash⟩)

@[simp] theorem examine_loaded (settings : Settings) (v : AuthPhoneVerification) (code : String)
    (now : DateTime) : (examine settings v code now).change.loaded = v := by
  rcases examine_cases settings v code now with ⟨-, h⟩ | ⟨-, -, h⟩ | ⟨-, -, h⟩ <;> rw [h]

/-- A record is verified only while it lives, and by its own code. -/
theorem verdict_examine_eq_verified {v : AuthPhoneVerification} {code : String} {now : DateTime} :
    (examine settings v code now).verdict = .verified ↔
      now < v.expiresAt ∧ v.codeHash = hashVerificationCode settings code := by
  rcases examine_cases settings v code now with ⟨hle, h⟩ | ⟨hlt, hne, h⟩ | ⟨hlt, he, h⟩ <;> rw [h]
  · simp [not_lt.2 hle]
  · simp [hne]
  · simp [hlt, he]

/-- A record loaded by a session that nobody has overtaken ends as the session left it. -/
theorem write_loaded (settings : Settings) (v : AuthPhoneVerification) (code : String)
    (now : DateTime) : AuthPhoneVerification.write (examine settings v code now).change v =
      (examine settings v code now).change.dirty := by
  rw [AuthPhoneVerification.write_of_eq (by rw [examine_loaded]), examine_loaded]
  rcases examine_cases settings v code now with ⟨-, h⟩ | ⟨-, -, h⟩ | ⟨-, -, h⟩ <;> rw [h] <;>
    simp [AuthPhoneVerification.flush]

/-- The rows after the flush of an examined record of the table. -/
theorem mem_recordChange {v : AuthPhoneVerification} (hv : v ∈ t) {code : String} {now : DateTime}
    {w : AuthPhoneVerification} :
    w ∈ recordChange t (examine settings v code now).change ↔
      (w ∈ t ∧ w.id ≠ v.id) ∨ w = (examine settings v code now).change.dirty := by
  rw [recordChange, AutoTable.mem_map]
  constructor
  · rintro ⟨r, hr, rfl⟩
    by_cases hid : v.id = r.id
    · obtain rfl : v = r := AutoTable.eq_of_key_eq hv hr hid
      exact Or.inr (write_loaded settings v code now)
    · rw [AuthPhoneVerification.write_of_ne (by rwa [examine_loaded])]
      exact Or.inl ⟨hr, fun h => hid h.symm⟩
  · rintro (⟨hw, hid⟩ | rfl)
    · exact ⟨w, hw, AuthPhoneVerification.write_of_ne (by rw [examine_loaded]; exact hid.symm)⟩
    · exact ⟨v, hv, write_loaded settings v code now⟩

end Spec

end PhoneVerificationService
end OrderRun
