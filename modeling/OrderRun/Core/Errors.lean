import Mathlib.Tactic.Common

/-!
# The error catalogue and failing computations

`app/core/errors.py`, and the other ways a call can end without an answer.  A
service method is a computation in `Except Failure`: it raises an API error, a
`ValueError` out of a model method, or an `IntegrityError` out of the database.

* `AppError`, `ERRORS`, `apiError` — the catalogue, and the exception a service
  raises from it.
* `raiseIf` — the `if bad: raise ...` that every guard of the services is, with
  `raiseIf_eq_ok` and `bind_eq_ok`, the two lemmas that turn a run of guards
  into the list of facts it has checked.
-/

namespace OrderRun

/-- What the API says about one error. -/
structure ApiErrorSpec where
  /-- The HTTP status of the response. -/
  httpStatus : ℕ
  /-- The code in its body. -/
  code : String
  /-- The message in its body. -/
  message : String
  deriving DecidableEq, Repr

/-- The errors the application raises deliberately. -/
inductive AppError where
  | userNotFound
  | userWithdrawalBlocked
  | validationError
  | requiredTermsInvalid
  | invalidToken
  | invalidTokenCredentials
  | invalidTokenType
  | missingCredentials
  | invalidAuthenticationCredentials
  | smsSenderNotConfigured
  | smsSendFailed
  | phoneAlreadyExists
  | phoneVerificationAlreadySent
  | phoneVerificationNotFound
  | phoneVerificationExpired
  | phoneVerificationCodeMismatch
  | invalidCredentials
  | invalidDateTimeFormat
  | proposalDeadlineInvalid
  | proposalErrandFeeInvalid
  | proposalNotFound
  | offerProposalNotFound
  | proposalNotEditable
  | proposalNotCancellable
  | proposalNotOpen
  | proposalNotMatchable
  | proposalNotUpdatable
  | proposalNotReportable
  | proposalSelfReportNotAllowed
  | duplicateProposalReport
  | proposalReportNotFound
  | proposalReportNotReviewable
  | invalidStatus
  | forbidden
  | offerNotFound
  | selfOfferNotAllowed
  | duplicateOffer
  | offerNotCancellable
  | offerNotAcceptable
  | offerNotUpdatable
  | disputeEvidenceNotFound
  | notificationNotFound
  deriving DecidableEq, Repr

/-- The catalogue. -/
def ERRORS : AppError → ApiErrorSpec
  | .userNotFound => ⟨404, "USER_NOT_FOUND", "User not found"⟩
  | .userWithdrawalBlocked =>
      ⟨409, "USER_WITHDRAWAL_BLOCKED",
        "진행 중인 임무, 분쟁 또는 정산이 있어 탈퇴할 수 없습니다. 모든 절차가 완료된 후 다시 이용해주세요."⟩
  | .validationError => ⟨400, "VALIDATION_ERROR", "요청 값이 올바르지 않습니다."⟩
  | .requiredTermsInvalid => ⟨400, "VALIDATION_ERROR", "Required terms must be true"⟩
  | .invalidToken => ⟨401, "INVALID_TOKEN", "Invalid token"⟩
  | .invalidTokenCredentials => ⟨401, "INVALID_TOKEN", "Could not validate credentials"⟩
  | .invalidTokenType => ⟨401, "INVALID_TOKEN", "Invalid token type"⟩
  | .missingCredentials => ⟨401, "INVALID_TOKEN", "Missing credentials"⟩
  | .invalidAuthenticationCredentials =>
      ⟨401, "INVALID_TOKEN", "Invalid authentication credentials"⟩
  | .smsSenderNotConfigured => ⟨500, "SMS_SENDER_NOT_CONFIGURED", "SMS sender not configured"⟩
  | .smsSendFailed => ⟨502, "SMS_SEND_FAILED", "SMS sending failed"⟩
  | .phoneAlreadyExists => ⟨409, "PHONE_ALREADY_EXISTS", "Phone number already exists"⟩
  | .phoneVerificationAlreadySent =>
      ⟨409, "PHONE_VERIFICATION_ALREADY_SENT", "Verification already sent"⟩
  | .phoneVerificationNotFound =>
      ⟨404, "PHONE_VERIFICATION_NOT_FOUND", "Phone verification not found"⟩
  | .phoneVerificationExpired => ⟨400, "PHONE_VERIFICATION_EXPIRED", "Phone verification expired"⟩
  | .phoneVerificationCodeMismatch =>
      ⟨400, "PHONE_VERIFICATION_CODE_MISMATCH", "Phone verification code mismatch"⟩
  | .invalidCredentials => ⟨401, "INVALID_CREDENTIALS", "Invalid credentials"⟩
  | .invalidDateTimeFormat => ⟨400, "INVALID_DATE_TIME_FORMAT", "deadline 형식이 올바르지 않습니다."⟩
  | .proposalDeadlineInvalid => ⟨400, "PROPOSAL_DEADLINE_INVALID", "마감 시각은 현재 시각보다 이후여야 합니다."⟩
  | .proposalErrandFeeInvalid => ⟨400, "PROPOSAL_ERRAND_FEE_INVALID", "심부름비는 1000원 이상이어야 합니다."⟩
  | .proposalNotFound => ⟨404, "PROPOSAL_NOT_FOUND", "제안을 찾을 수 없습니다."⟩
  | .offerProposalNotFound => ⟨404, "PROPOSAL_NOT_FOUND", "요청을 찾을 수 없습니다."⟩
  | .proposalNotEditable => ⟨409, "PROPOSAL_NOT_EDITABLE", "수정할 수 없는 제안 상태입니다."⟩
  | .proposalNotCancellable => ⟨409, "PROPOSAL_NOT_CANCELLABLE", "취소할 수 없는 제안 상태입니다."⟩
  | .proposalNotOpen => ⟨409, "PROPOSAL_NOT_OPEN", "제안을 받을 수 없는 요청 상태입니다."⟩
  | .proposalNotMatchable => ⟨409, "PROPOSAL_NOT_MATCHABLE", "매칭할 수 없는 요청 상태입니다."⟩
  | .proposalNotUpdatable => ⟨409, "PROPOSAL_NOT_UPDATABLE", "업데이트할 수 없는 요청 상태입니다."⟩
  | .proposalNotReportable => ⟨409, "PROPOSAL_NOT_REPORTABLE", "신고할 수 없는 요청 상태입니다."⟩
  | .proposalSelfReportNotAllowed =>
      ⟨403, "PROPOSAL_SELF_REPORT_NOT_ALLOWED", "본인의 요청은 신고할 수 없습니다."⟩
  | .duplicateProposalReport => ⟨409, "DUPLICATE_PROPOSAL_REPORT", "이미 해당 요청을 신고했습니다."⟩
  | .proposalReportNotFound => ⟨404, "PROPOSAL_REPORT_NOT_FOUND", "신고 내역을 찾을 수 없습니다."⟩
  | .proposalReportNotReviewable => ⟨409, "PROPOSAL_REPORT_NOT_REVIEWABLE", "이미 처리된 신고입니다."⟩
  | .invalidStatus => ⟨400, "INVALID_STATUS", "입금 확인 대기 상태가 아닙니다."⟩
  | .forbidden => ⟨403, "FORBIDDEN", "권한이 없습니다."⟩
  | .offerNotFound => ⟨404, "OFFER_NOT_FOUND", "제안을 찾을 수 없습니다."⟩
  | .selfOfferNotAllowed => ⟨400, "SELF_OFFER_NOT_ALLOWED", "오더러는 본인의 요청에 러너로 제안할 수 없습니다."⟩
  | .duplicateOffer => ⟨409, "DUPLICATE_OFFER", "이미 해당 요청에 제안을 제출했습니다."⟩
  | .offerNotCancellable => ⟨409, "OFFER_NOT_CANCELLABLE", "취소할 수 없는 제안 상태입니다."⟩
  | .offerNotAcceptable => ⟨409, "OFFER_NOT_ACCEPTABLE", "수락할 수 없는 제안 상태입니다."⟩
  | .offerNotUpdatable => ⟨409, "OFFER_NOT_UPDATABLE", "업데이트할 수 없는 제안 상태입니다."⟩
  | .disputeEvidenceNotFound => ⟨404, "DISPUTE_EVIDENCE_NOT_FOUND", "분쟁 증빙을 찾을 수 없습니다."⟩
  | .notificationNotFound => ⟨404, "ERROR", "Notification not found"⟩

/-- Every error of the catalogue is reported as a client or a server error, with
a code and a message. -/
theorem ERRORS_wellFormed (e : AppError) :
    400 ≤ (ERRORS e).httpStatus ∧ (ERRORS e).httpStatus < 600 ∧ (ERRORS e).code ≠ "" ∧
      (ERRORS e).message ≠ "" := by
  cases e <;> simp [ERRORS]

/-- The `detail` of an error response. -/
structure ErrorDetail where
  code : String
  message : String
  details : Option String
  deriving DecidableEq, Repr

/-- The body of an error response, with the details of this occurrence. -/
def errorDetail (error : AppError) (details : Option String) : ErrorDetail :=
  ⟨(ERRORS error).code, (ERRORS error).message, details⟩

/-- How a call ends when it does not return. -/
inductive Failure where
  /-- An `HTTPException`, as `api_error` builds it. -/
  | http (statusCode : ℕ) (detail : ErrorDetail)
  /-- A `ValueError` raised by a model method. -/
  | valueError (message : String)
  /-- An `IntegrityError`: the statement violates this unique constraint. -/
  | integrityError (constraint : String)
  deriving DecidableEq, Repr

/-- The exception for an error of the catalogue. -/
def apiError (error : AppError) (details : Option String := none) : Failure :=
  .http (ERRORS error).httpStatus (errorDetail error details)

/-! ## Guards -/

/-- `if bad: raise failure`. -/
def raiseIf (bad : Prop) [Decidable bad] (failure : Failure) : Except Failure Unit :=
  if bad then .error failure else .ok ()

/-- `if found is None: raise failure`. -/
def orRaise {α : Type*} (found : Option α) (failure : Failure) : Except Failure α :=
  match found with
  | none => .error failure
  | some a => .ok a

@[simp] theorem raiseIf_eq_ok {bad : Prop} [Decidable bad] {failure : Failure} {u : Unit} :
    raiseIf bad failure = .ok u ↔ ¬ bad := by
  unfold raiseIf
  by_cases h : bad <;> simp [h]

@[simp] theorem orRaise_eq_ok {α : Type*} {found : Option α} {failure : Failure} {a : α} :
    orRaise found failure = .ok a ↔ found = some a := by
  cases found <;> simp [orRaise]

/-- A sequence of computations returns exactly when each of them does. -/
@[simp] theorem bind_eq_ok {α β : Type} {x : Except Failure α} {f : α → Except Failure β} {b : β} :
    x >>= f = .ok b ↔ ∃ a, x = .ok a ∧ f a = .ok b := by
  cases x <;> simp [bind, Except.bind]

@[simp] theorem map_eq_ok {α β : Type} {x : Except Failure α} {f : α → β} {b : β} :
    f <$> x = .ok b ↔ ∃ a, x = .ok a ∧ f a = b := by
  cases x <;> simp [Functor.map, Except.map]

@[simp] theorem pure_eq_ok {α : Type} {a b : α} :
    (pure a : Except Failure α) = .ok b ↔ a = b := by
  simp [pure, Except.pure]

/-- A loop whose body returns on some elements and raises on the others returns
exactly when no element raises. -/
theorem mapM_eq_ok {α β : Type} {f : α → Except Failure β} {g : α → β} {P : α → Prop}
    (hf : ∀ a b, f a = .ok b ↔ P a ∧ g a = b) {as : List α} {bs : List β} :
    as.mapM f = .ok bs ↔ (∀ a ∈ as, P a) ∧ as.map g = bs := by
  induction as generalizing bs with
  | nil => simp
  | cons a as ih =>
      simp only [List.mapM_cons, bind_eq_ok, pure_eq_ok, hf, ih, List.forall_mem_cons,
        List.map_cons]
      constructor
      · rintro ⟨b, ⟨ha, rfl⟩, bs', ⟨has, rfl⟩, rfl⟩
        exact ⟨⟨ha, has⟩, rfl⟩
      · rintro ⟨⟨ha, has⟩, rfl⟩
        exact ⟨_, ⟨ha, rfl⟩, _, ⟨has, rfl⟩, rfl⟩

end OrderRun
