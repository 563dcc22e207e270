import OrderRun.Accounts.Settlement

/-!
# Terms of service

`schemas/terms.py`, `models/terms.py` and `terms_service.py`: a user agrees to the required
terms, as often as she likes; the row of a user holds the latest agreement.

* `TermsType`, `TermsAgreementRequest` — what has to be agreed to; `ensureRequired_validated`
  says that the service checks again what the validators have made sure of.
* `termsForm` — how an agreement fills a row; the steps are those of `Upsert`.
* `agreements_kept` — in every interleaving a user has one agreement at most, to everything
  that is required and at an instant at which she has agreed, and no withdrawal removes it.
* `agreements_serial` — if the agreements of a user do not overlap, hers is the latest.
-/

namespace OrderRun

open Store Split Upsert

/-- The terms, with the name of the field. -/
inductive TermsType where
  | termsOfService
  | privacyPolicy
  | paymentRefundPolicy
  deriving DecidableEq, Repr

namespace TermsType

def fieldName : TermsType → String
  | .termsOfService => "termsOfService"
  | .privacyPolicy => "privacyPolicy"
  | .paymentRefundPolicy => "paymentRefundPolicy"

def required : TermsType → Bool
  | .termsOfService | .privacyPolicy | .paymentRefundPolicy => true

def all : List TermsType := [.termsOfService, .privacyPolicy, .paymentRefundPolicy]

end TermsType

/-- The body of a request. -/
structure TermsAgreementBody where
  termsOfService : Bool
  privacyPolicy : Bool
  paymentRefundPolicy : Bool
  deriving DecidableEq, Repr

/-- A request that has been validated. -/
structure TermsAgreementRequest extends TermsAgreementBody where
  termsOfService_eq : termsOfService = true
  privacyPolicy_eq : privacyPolicy = true
  paymentRefundPolicy_eq : paymentRefundPolicy = true
  deriving DecidableEq, Repr

/-- `required_terms_must_be_true`, field by field. -/
def TermsAgreementRequest.ofBody (body : TermsAgreementBody) :
    Except (String × String) TermsAgreementRequest :=
  if h₁ : body.termsOfService = true then
    if h₂ : body.privacyPolicy = true then
      if h₃ : body.paymentRefundPolicy = true then .ok ⟨body, h₁, h₂, h₃⟩
      else .error ("paymentRefundPolicy", "required terms must be true")
    else .error ("privacyPolicy", "required terms must be true")
  else .error ("termsOfService", "required terms must be true")

/-- A row of `terms_agreements`. -/
structure TermsAgreement where
  id : ℕ
  userId : UserId
  termsOfService : Bool
  privacyPolicy : Bool
  paymentRefundPolicy : Bool
  agreedAt : DateTime
  createdAt : DateTime
  updatedAt : DateTime
  deriving DecidableEq, Repr

namespace TermsAgreement

instance : Keyed TermsAgreement ℕ := ⟨TermsAgreement.id⟩

/-- What `agree` assigns: the payload, and the instant it has read from the clock. -/
def assign (q : TermsAgreementRequest × DateTime) (r : TermsAgreement) : TermsAgreement :=
  { r with
    termsOfService := q.1.termsOfService
    privacyPolicy := q.1.privacyPolicy
    paymentRefundPolicy := q.1.paymentRefundPolicy
    agreedAt := q.2 }

/-- The row after a flush of `dirty`, which was loaded as `loaded`. -/
def flush (loaded dirty : TermsAgreement) (utcnow : DateTime) (row : TermsAgreement) :
    TermsAgreement :=
  { row with
    termsOfService := col loaded.termsOfService dirty.termsOfService row.termsOfService
    privacyPolicy := col loaded.privacyPolicy dirty.privacyPolicy row.privacyPolicy
    paymentRefundPolicy :=
      col loaded.paymentRefundPolicy dirty.paymentRefundPolicy row.paymentRefundPolicy
    agreedAt := col loaded.agreedAt dirty.agreedAt row.agreedAt
    updatedAt := utcnow }

end TermsAgreement

/-- How agreements fill the table; a withdrawal leaves it alone. -/
def termsForm : Form UserId (TermsAgreementRequest × DateTime) DateTime TermsAgreement where
  owner := TermsAgreement.userId
  create userId q := TermsAgreement.assign q ⟨0, userId, false, false, false, 0, 0, 0⟩
  assign := TermsAgreement.assign
  stamp utcnow k r := { r with id := k, createdAt := utcnow, updatedAt := utcnow }
  flush := TermsAgreement.flush
  purges := false
  owner_create := fun _ _ => rfl
  owner_stamp := fun _ _ _ => rfl
  key_stamp := fun _ _ _ => rfl
  owner_flush := fun _ _ _ _ => rfl
  key_flush := fun _ _ _ _ => rfl

/-- The table of agreements, and the users who are there. -/
abbrev TermsRegister := Register UserId TermsAgreement

abbrev TermsCall := Upsert.Call UserId (TermsAgreementRequest × DateTime) DateTime

def TermsRegister.initial (users : List UserId) : TermsRegister := ⟨AutoTable.empty, users⟩

namespace TermsAgreementService

/-- `payload_by_field`. -/
def payloadByField (payload : TermsAgreementRequest) : List (String × Bool) := [
  (TermsType.termsOfService.fieldName, payload.termsOfService),
  (TermsType.privacyPolicy.fieldName, payload.privacyPolicy),
  (TermsType.paymentRefundPolicy.fieldName, payload.paymentRefundPolicy)]

/-- The loop over the terms. -/
def ensureRequired (payload : TermsAgreementRequest) : Except Failure Unit :=
  raiseIf (∃ t ∈ TermsType.all, t.required = true ∧
    (payloadByField payload).lookup t.fieldName ≠ some true) (apiError .requiredTermsInvalid)

/-- **The loop finds nothing** that the validators have let through. -/
theorem ensureRequired_validated (payload : TermsAgreementRequest) :
    ensureRequired payload = .ok () := by
  have hall : payloadByField payload = TermsType.all.map fun t => (t.fieldName, true) := by
    simp only [payloadByField, payload.termsOfService_eq, payload.privacyPolicy_eq,
      payload.paymentRefundPolicy_eq]
    rfl
  unfold ensureRequired
  rw [hall]
  decide

/-- What `agree` prepares for a user the router has authenticated. -/
def agree (d : TermsRegister) (userId : UserId) (payload : TermsAgreementRequest)
    (now utcnow : DateTime) : Except Failure (Work UserId DateTime TermsAgreement) := do
  raiseIf (userId ∉ d.active) (apiError .userNotFound)
  ensureRequired payload
  return termsForm.prepare d (.save userId (payload, now) utcnow)

/-- It is the read step of an upsert. -/
theorem agree_eq_ok {d : TermsRegister} {userId : UserId} {payload : TermsAgreementRequest}
    {now utcnow : DateTime} {work : Work UserId DateTime TermsAgreement} :
    agree d userId payload now utcnow = .ok work ↔
      termsForm.service.read d (.save userId (payload, now) utcnow) = .ok work := by
  simp only [agree, bind_eq_ok, raiseIf_eq_ok, ensureRequired_validated, Form.read_eq_ok,
    Upsert.Call.owner]
  simp

end TermsAgreementService

/-! ## Overlapping agreements -/

/-- The user agrees at this instant, in the course of the events. -/
def Agrees (es : List (Event TermsCall)) (userId : UserId)
    (q : TermsAgreementRequest × DateTime) : Prop :=
  ∃ tid utcnow, Event.read tid (.save userId q utcnow) ∈ es

/-- An agreement to everything that is required, at one of these instants. -/
structure TermsAgreement.Full (A : UserId → TermsAgreementRequest × DateTime → Prop)
    (r : TermsAgreement) : Prop where
  termsOfService : r.termsOfService = true
  privacyPolicy : r.privacyPolicy = true
  paymentRefundPolicy : r.paymentRefundPolicy = true
  agreedAt : ∃ q, A r.userId q ∧ r.agreedAt = q.2

theorem kept_full (A : UserId → TermsAgreementRequest × DateTime → Prop) :
    termsForm.Kept A (TermsAgreement.Full A) where
  create := fun {_ q} hA _ _ =>
    ⟨q.1.termsOfService_eq, q.1.privacyPolicy_eq, q.1.paymentRefundPolicy_eq, q, hA, rfl⟩
  flush := by
    intro l q r hA _ hr howner t
    have hsame : l.userId = r.userId := howner
    have htrue : ∀ loaded dirty current : Bool, dirty = true → current = true →
        col loaded dirty current = true := by decide
    refine ⟨htrue _ _ _ q.1.termsOfService_eq hr.termsOfService,
      htrue _ _ _ q.1.privacyPolicy_eq hr.privacyPolicy,
      htrue _ _ _ q.1.paymentRefundPolicy_eq hr.paymentRefundPolicy, ?_⟩
    show ∃ q', A r.userId q' ∧ col l.agreedAt q.2 r.agreedAt = q'.2
    rcases col_cases l.agreedAt q.2 r.agreedAt with he | he <;> rw [he]
    · exact hr.agreedAt
    · exact ⟨q, hsame ▸ hA, rfl⟩

theorem terms_initial {P : TermsAgreement → Prop} (users : List UserId) :
    termsForm.Distinct (TermsRegister.initial users) ∧
      ∀ r ∈ (TermsRegister.initial users).rows, P r :=
  ⟨fun _ hr => absurd hr List.not_mem_nil, fun _ hr => absurd hr List.not_mem_nil⟩

/-- **Agreements are kept**: in every interleaving of agreements and withdrawals a user has one
agreement at most, it is to everything that is required and at an instant at which she has
agreed, and an agreement that was there before is still there. -/
theorem agreements_kept (users : List UserId) (es : List (Event TermsCall)) :
    Runs.Always termsForm.service.step
      (fun s => termsForm.Distinct s.now ∧ ∀ r ∈ s.now.rows, r.Full (Agrees es))
      (State.quiet (TermsRegister.initial users)) es ∧
    ∀ pre suf, es = pre ++ suf →
      termsForm.Stays
        (Runs.run termsForm.service.step (State.quiet (TermsRegister.initial users)) pre).now
        (Runs.run termsForm.service.step (State.quiet (TermsRegister.initial users)) es).now := by
  constructor
  · obtain ⟨hdistinct, hfull⟩ := terms_initial users
    refine Form.kept_always (kept_full (Agrees es)) hdistinct hfull ?_
    rintro (⟨tid, (⟨userId, q, utcnow⟩ | userId)⟩ | tid) he
    · exact ⟨tid, utcnow, he⟩
    · trivial
    · trivial
  · rintro pre suf rfl
    rw [Runs.run_append]
    exact Form.stays_run rfl _ suf

/-! ## Agreements that do not overlap -/

theorem shows_agreedAt : termsForm.Shows TermsAgreement.agreedAt Prod.snd where
  create := fun _ _ _ _ => rfl
  assign := fun _ _ => rfl
  flush := fun _ _ _ => col_untouched _ _

/-- **The row of a user is her latest agreement**, if her calls do not overlap. -/
theorem agreements_serial (users : List UserId) {es : List (Event TermsCall)}
    (h : Runs.Along termsForm.service.step (Service.Alone Form.Conflicts)
      (State.quiet (TermsRegister.initial users)) es) :
    termsForm.book TermsAgreement.agreedAt
        (Runs.run termsForm.service.step (State.quiet (TermsRegister.initial users)) es).now =
      (termsForm.service.committing (State.quiet (TermsRegister.initial users)) es).foldl
        (Book.step false Prod.snd) ⟨fun _ => none, users⟩ :=
  Form.book_serial shows_agreedAt h

end OrderRun
