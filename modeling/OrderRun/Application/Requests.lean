import OrderRun.Accounts.Settlement
import OrderRun.Application.Command

/-!
# Request bodies

What a body has to get through before a route sees it: the schemas of `app/schemas`, with the
error that `validation_exception_handler` makes of the first one pydantic has found.  A body is
taken with its values typed; missing and unknown fields are refused by pydantic itself.

* `textField`, `stripText`, `validateNotBlank` — the validators of texts, shared by all schemas.
* `…ofBody` — one for each schema.
* `IsText` — what the validators let through.
* `Call.Accepted`, `AccountCommand.Accepted` — the payload has got through its schema.
-/

namespace OrderRun

open Store

/-! ## Validation -/

/-- An error of pydantic: the field, the kind of error, and its message. -/
structure FieldError where
  field : String
  type : String
  msg : String
  deriving DecidableEq, Repr

/-- `validation_exception_handler`, on the first error. -/
def validationExceptionHandler (e : FieldError) : Failure :=
  apiError
    (if e.field = "deadline" ∧
        e.type ∈ ["datetime_from_date_parsing", "datetime_parsing", "invalid_datetime_offset"]
      then .invalidDateTimeFormat
      else .validationError)
    (some (e.field ++ ": " ++ e.msg))

/-- `n characters`, as pydantic has it. -/
def characters (n : ℕ) : String := toString n ++ if n = 1 then " character" else " characters"

/-- `Field(min_length=…, max_length=…)`, and then the validator of the field, whose `ValueError`
carries its message. -/
def textField (field : String) (minLength maxLength : ℕ) (validate : String → Except String String)
    (value : String) : Except Failure String :=
  if value.length < minLength then
    .error (validationExceptionHandler ⟨field, "string_too_short",
      "String should have at least " ++ characters minLength⟩)
  else if maxLength < value.length then
    .error (validationExceptionHandler ⟨field, "string_too_long",
      "String should have at most " ++ characters maxLength⟩)
  else
    match validate value with
    | .ok s => .ok s
    | .error message =>
        .error (validationExceptionHandler ⟨field, "value_error", "Value error, " ++ message⟩)

/-- `strip_text` and its siblings: the stripped text, if there is any. -/
def stripText (message value : String) : Except String String :=
  if strip value = "" then .error message else .ok (strip value)

/-- `validate_not_blank`: the text as it is, if it is not blank. -/
def validateNotBlank (value : String) : Except String String :=
  if strip value = "" then .error "must not be blank" else .ok value

/-- A field that may be missing. -/
def optionalField {α β : Type} (validate : α → Except Failure β) :
    Option α → Except Failure (Option β)
  | none => .ok none
  | some value => some <$> validate value

/-- A point in time as a body gives it: without an offset from UTC it names none. -/
inductive Stamp where
  | naive
  | aware (instant : DateTime)
  deriving DecidableEq, Repr

def validateDeadlineHasOffset : Stamp → Except Failure DateTime
  | .naive => .error (validationExceptionHandler
      ⟨"deadline", "invalid_datetime_offset", "deadline must include timezone offset"⟩)
  | .aware instant => .ok instant

/-! ## The schemas -/

def ProposalRequest.ofBody (title content : String) (deadline : Stamp) (errandFee : ℤ) :
    Except Failure ProposalRequest := do
  let title ← textField "title" 0 50 validateNotBlank title
  let content ← textField "content" 0 500 validateNotBlank content
  let deadline ← validateDeadlineHasOffset deadline
  return ⟨title, content, deadline, errandFee⟩

def ProposalReportCreateRequest.ofBody (reasonQuestionId : ℕ) (detailReason : Option String) :
    Except Failure ProposalReportCreateRequest := do
  raiseIf (reasonQuestionId < 1) (validationExceptionHandler ⟨"reasonQuestionId",
    "greater_than_equal", "Input should be greater than or equal to 1"⟩)
  let detailReason ← optionalField (textField "detailReason" 0 500 validateNotBlank) detailReason
  return ⟨reasonQuestionId, detailReason⟩

def phoneField (phone : String) : Except Failure String :=
  textField "phone" 1 20 (stripText "must not be blank") phone

def AuthSignupSendRequest.ofBody (name phone carrier : String) :
    Except Failure AuthSignupSendRequest := do
  let name ← textField "name" 1 100 (stripText "must not be blank") name
  let phone ← phoneField phone
  let carrier ← textField "carrier" 1 50 (stripText "must not be blank") carrier
  return ⟨name, phone, carrier⟩

def AuthLoginSendRequest.ofBody (phone : String) : Except Failure AuthLoginSendRequest := do
  let phone ← phoneField phone
  return ⟨phone⟩

def AuthPhoneConfirmRequest.ofBody (phone code : String) :
    Except Failure AuthPhoneConfirmRequest := do
  let phone ← phoneField phone
  let code ← textField "code" 1 20 (stripText "must not be blank") code
  return ⟨phone, code⟩

def fcmTokenField (fcmToken : String) : Except Failure String :=
  textField "fcmToken" 1 4096 (stripText "fcmToken must not be blank") fcmToken

def AuthLoginConfirmRequest.ofBody (phone code : String) (fcmToken : Option String) :
    Except Failure AuthLoginConfirmRequest := do
  let phone ← phoneField phone
  let code ← textField "code" 1 20 (stripText "must not be blank") code
  let fcmToken ← optionalField fcmTokenField fcmToken
  return ⟨phone, code, fcmToken⟩

/-- `UserNameUpdateRequest`. -/
def nameField (name : String) : Except Failure String :=
  textField "name" 1 100 (stripText "name must not be blank") name

/-- `NotificationSendRequest`, whose `data` have been written by `json.dumps`. -/
def NotificationSendRequest.ofBody (title body : String) (data relatedEntityType : Option String)
    (relatedEntityId : Option ℤ) : Except Failure NotificationSendRequest := do
  let title ← textField "title" 1 255 .ok title
  raiseIf (body = "") (validationExceptionHandler ⟨"body", "string_too_short",
    "String should have at least " ++ characters 1⟩)
  let relatedEntityType ← optionalField (textField "related_entity_type" 0 50 .ok) relatedEntityType
  return ⟨title, body, data, relatedEntityType, relatedEntityId⟩

/-! ## What gets through -/

/-- A text of at most `n` characters that is not blank. -/
structure IsText (n : ℕ) (s : String) : Prop where
  length_le : s.length ≤ n
  not_blank : strip s ≠ ""

section Fields

variable {field value s : String} {lo hi : ℕ} {validate : String → Except String String}

theorem textField_eq_ok (h : textField field lo hi validate value = .ok s) :
    value.length ≤ hi ∧ validate value = .ok s := by
  unfold textField at h
  split at h
  · exact absurd h (by simp)
  split at h
  · exact absurd h (by simp)
  · next hle =>
      cases hvalidate : validate value with
      | error message =>
          rw [hvalidate] at h
          exact absurd h (by simp)
      | ok t =>
          rw [hvalidate] at h
          exact ⟨not_lt.1 hle, congrArg _ (Except.ok.inj h)⟩

theorem isText_strip (h : s.length ≤ hi) (hne : strip s ≠ "") : IsText hi (strip s) :=
  ⟨(length_strip_le s).trans h, by rwa [strip_strip]⟩

/-- What a stripping validator lets through. -/
theorem isText_of_stripText {message : String}
    (h : textField field lo hi (stripText message) value = .ok s) :
    IsText hi s ∧ strip s = s := by
  obtain ⟨hle, hvalidate⟩ := textField_eq_ok h
  unfold stripText at hvalidate
  split at hvalidate
  · exact absurd hvalidate (by simp)
  · next hne =>
      obtain rfl := Except.ok.inj hvalidate
      exact ⟨isText_strip hle hne, strip_strip value⟩

/-- What `validate_not_blank` lets through. -/
theorem isText_of_validateNotBlank
    (h : textField field lo hi validateNotBlank value = .ok s) : IsText hi s := by
  obtain ⟨hle, hvalidate⟩ := textField_eq_ok h
  unfold validateNotBlank at hvalidate
  split at hvalidate
  · exact absurd hvalidate (by simp)
  · next hne =>
      obtain rfl := Except.ok.inj hvalidate
      exact ⟨hle, hne⟩

theorem length_of_textField (h : textField field lo hi .ok value = .ok s) : s.length ≤ hi := by
  obtain ⟨hle, hvalidate⟩ := textField_eq_ok h
  obtain rfl := Except.ok.inj hvalidate
  exact hle

theorem optionalField_eq_ok {α β : Type} {validate : α → Except Failure β} {value : Option α}
    {o : Option β} (h : optionalField validate value = .ok o) {b : β} (hb : o = some b) :
    ∃ a, validate a = .ok b := by
  cases value with
  | none =>
      obtain rfl := Except.ok.inj h
      exact absurd hb (by simp)
  | some a =>
      obtain ⟨b', hb', rfl⟩ := map_eq_ok.1 h
      obtain rfl := Option.some.inj hb
      exact ⟨a, hb'⟩

end Fields

/-- The payload of the call has got through its schema. -/
def Call.Accepted : Call → Prop
  | .proposalCreate request _ | .proposalUpdate _ request _ =>
      ∃ title content deadline errandFee,
        ProposalRequest.ofBody title content deadline errandFee = .ok request
  | .reportCreate _ _ request => ∃ reasonQuestionId detailReason,
      ProposalReportCreateRequest.ofBody reasonQuestionId detailReason = .ok request
  | _ => True

def AccountCommand.Accepted : AccountCommand → Prop
  | .signupSend payload _ _ _ => ∃ name phone carrier,
      AuthSignupSendRequest.ofBody name phone carrier = .ok payload
  | .loginSend payload _ _ _ => ∃ phone, AuthLoginSendRequest.ofBody phone = .ok payload
  | .signupConfirm payload _ _ => ∃ phone code,
      AuthPhoneConfirmRequest.ofBody phone code = .ok payload
  | .loginConfirm payload _ => ∃ phone code fcmToken,
      AuthLoginConfirmRequest.ofBody phone code fcmToken = .ok payload
  | .updateName _ name => ∃ value, nameField value = .ok name
  | .updateFcmToken _ fcmToken => ∃ value, fcmTokenField value = .ok fcmToken
  | .sendNotification _ request _ _ _ => ∃ title body data relatedEntityType relatedEntityId,
      NotificationSendRequest.ofBody title body data relatedEntityType relatedEntityId = .ok request
  | _ => True

end OrderRun
