import OrderRun.Accounts.PhoneVerification
import OrderRun.Accounts.Profile

/-!
# Signing up and logging in

`app/services/user_auth/user_auth_service.py`.  A method runs its guards and its writes in
one session; what comes back is the committed database and the answer, because `verify`
commits what it notes about a record even if it raises.

* `withVerified` — the call of `verify` in front of a method's own transaction.
* `confirmSignup`, `confirmLogin` — the methods that issue tokens; `confirmSignup_cases`
  and `confirmLogin_cases` say what each of them commits.
-/

namespace OrderRun

open Store PhoneVerificationService

structure AuthSignupSendRequest where
  name : String
  phone : String
  carrier : String
  deriving DecidableEq, Repr

structure AuthPhoneConfirmRequest where
  phone : String
  code : String
  deriving DecidableEq, Repr

structure AuthLoginSendRequest where
  phone : String
  deriving DecidableEq, Repr

structure AuthLoginConfirmRequest where
  phone : String
  code : String
  fcmToken : Option String
  deriving DecidableEq, Repr

structure AuthRefreshRequest where
  refreshToken : String
  deriving DecidableEq, Repr

structure AuthTokenResponse where
  accessToken : String
  refreshToken : String
  tokenType : String
  expiresIn : ℕ
  userId : UserId
  deriving DecidableEq, Repr

structure AuthAccessTokenResponse where
  accessToken : String
  expiresIn : ℕ
  deriving DecidableEq, Repr

/-! ## Tokens -/

namespace Settings

variable (settings : Settings)

def accessTokenExpiresInMs : ℕ := settings.jwtAccessTokenExpireMinutes * 60 * 1000

def createAccessToken (userId : UserId) : String := settings.jwtEncode ⟨some userId, "access"⟩

def createRefreshToken (userId : UserId) : String := settings.jwtEncode ⟨some userId, "refresh"⟩

def verifyToken (token tokenType : String) : Except Failure TokenClaims := do
  let payload ← orRaise (settings.jwtDecode token) (apiError .invalidTokenCredentials)
  raiseIf (payload.type ≠ tokenType) (apiError .invalidTokenType)
  return payload

end Settings

namespace UserAuthService

/-- The active user of a phone. -/
def findUserByPhone (db : Db) (phone : String) : Option User :=
  db.users.rows.find? fun u => u.phone = some phone ∧ u.deleted = false

def buildTokens (settings : Settings) (userId : UserId) : AuthTokenResponse where
  accessToken := settings.createAccessToken userId
  refreshToken := settings.createRefreshToken userId
  tokenType := "Bearer"
  expiresIn := settings.accessTokenExpiresInMs
  userId := userId

/-! ## The methods -/

section Methods

variable (settings : Settings) (db : Db)

def sendSignupVerification (payload : AuthSignupSendRequest) (smsSender : Bool) (draw : ℕ)
    (now : Readings) : Except Failure Sent := do
  let phone := normalizePhone payload.phone
  raiseIf (findUserByPhone db phone ≠ none) (apiError .phoneAlreadyExists)
  send settings db.verifications .signup phone smsSender draw (some (strip payload.name))
    (some (strip payload.carrier)) now

def sendLoginVerification (payload : AuthLoginSendRequest) (smsSender : Bool) (draw : ℕ)
    (now : Readings) : Except Failure Sent := do
  let phone := normalizePhone payload.phone
  raiseIf (findUserByPhone db phone = none) (apiError .invalidCredentials)
  send settings db.verifications .login phone smsSender draw none none now

/-- The database with what `verify` has noted about a record. -/
def noted (x : Examined) : Db := { db with verifications := recordChange db.verifications x.change }

/-- `verify`, and then `rest` on the verified record, with nothing committed yet. -/
def withVerified {α : Type} (purpose : PhoneVerificationPurpose) (phone code : String)
    (now : DateTime) (rest : Examined → Db × Except Failure α) : Db × Except Failure α :=
  match verify settings db.verifications purpose phone code now with
  | .error failure => (db, .error failure)
  | .ok x =>
    match x.verdict.failure with
    | some failure => (noted db x, .error failure)
    | none => rest x

/-- The row of a new user.  Its key is a fresh UUID. -/
def newUser (userId : UserId) (verification : AuthPhoneVerification) (phone : String)
    (now : DateTime) : User where
  id := userId
  passwordHash := none
  name := some (verification.name.getD "")
  phone := some phone
  phoneVerifiedAt := some now
  lastLoginAt := some now
  alarmEnabled := some false
  level := 0
  deleted := false
  deletedAt := none

/-- `INSERT INTO users`, with the unique constraint of the phone. -/
def insertUser (user : User) : Option Db :=
  if ∃ u ∈ db.users.rows, u.phone = user.phone then none
  else (db.users.insert? user).map fun users => { db with users := users }

/-- The transaction of `confirm_signup` after the verification. -/
def signup (phone : String) (userId : UserId) (now : DateTime) (x : Examined) :
    Db × Except Failure AuthTokenResponse :=
  if findUserByPhone db phone ≠ none then (db, .error (apiError .phoneAlreadyExists))
  else
    match insertUser (noted db x) (newUser userId x.change.dirty phone now) with
    | none => (db, .error (apiError .phoneAlreadyExists))
    | some db' => (db', .ok (buildTokens settings userId))

def confirmSignup (payload : AuthPhoneConfirmRequest) (userId : UserId) (now : Readings) :
    Db × Except Failure AuthTokenResponse :=
  let phone := normalizePhone payload.phone
  withVerified settings db .signup phone payload.code now.first
    (signup settings db phone userId now.second)

/-- The transaction of `confirm_login` after the verification. -/
def login (user : User) (fcmToken : Option String) (now : DateTime) :
    Db × Except Failure AuthTokenResponse :=
  let db' := db.updateUser user.id (fun u => { u with lastLoginAt := some now }) fun _ => rfl
  let fcmTokens := match fcmToken with
    | none => db.fcmTokens
    | some token => UserProfileService.upsertFcmToken db.fcmTokens user.id (strip token)
  ({ db' with fcmTokens := fcmTokens }, .ok (buildTokens settings user.id))

def confirmLogin (payload : AuthLoginConfirmRequest) (now : Readings) :
    Db × Except Failure AuthTokenResponse :=
  let phone := normalizePhone payload.phone
  match findUserByPhone db phone with
  | none => (db, .error (apiError .userNotFound))
  | some user =>
    if isLoginTestCodeAllowed settings payload.code then
      login settings db user payload.fcmToken now.second
    else
      withVerified settings db .login phone payload.code now.first fun x =>
        login settings (noted db x) user payload.fcmToken now.second

def refreshAccessToken (payload : AuthRefreshRequest) :
    Except Failure AuthAccessTokenResponse := do
  let claims ← settings.verifyToken payload.refreshToken "refresh"
  let userId ← orRaise (claims.sub.filter (· ≠ "")) (apiError .invalidToken)
  let user ← orRaise ((db.users.find? userId).filter fun user => ! user.deleted)
    (apiError .userNotFound)
  return ⟨settings.createAccessToken user.id, settings.accessTokenExpiresInMs⟩

end Methods

/-! ## What the methods do -/

section Spec

variable {settings : Settings} {db db' : Db}

theorem findUserByPhone_eq_some {phone : String} {u : User}
    (h : findUserByPhone db phone = some u) :
    u ∈ db.users ∧ u.phone = some phone ∧ u.deleted = false :=
  ⟨List.mem_of_find?_eq_some h, by simpa using List.find?_some h⟩

/-- **What a verification comes to.** -/
theorem withVerified_cases {α : Type} (settings : Settings) (db : Db)
    (purpose : PhoneVerificationPurpose) (phone code : String) (now : DateTime)
    (rest : Examined → Db × Except Failure α) :
    (∃ failure, withVerified settings db purpose phone code now rest = (db, .error failure)) ∨
      ∃ v, latestPending db.verifications purpose phone = some v ∧
        let x := examine settings v code now
        ((∃ failure, x.verdict.failure = some failure ∧
            withVerified settings db purpose phone code now rest = (noted db x, .error failure)) ∨
          x.verdict = .verified ∧
            withVerified settings db purpose phone code now rest = rest x) := by
  unfold withVerified
  cases hverify : verify settings db.verifications purpose phone code now with
  | error failure => exact Or.inl ⟨failure, rfl⟩
  | ok x =>
      obtain ⟨v, hlatest, rfl⟩ := verify_eq_ok.1 hverify
      refine Or.inr ⟨v, hlatest, ?_⟩
      dsimp only
      cases hfail : (examine settings v code now).verdict.failure with
      | some failure => exact Or.inl ⟨failure, rfl, rfl⟩
      | none => exact Or.inr ⟨Verdict.failure_eq_none.1 hfail, rfl⟩

theorem insertUser_eq_some {user : User} (h : insertUser db user = some db') :
    user.id ∉ db.users.rows.map User.id ∧ (∀ u ∈ db.users, u.phone ≠ user.phone) ∧
      ∃ users : Table User, users.rows = db.users.rows ++ [user] ∧
        db' = { db with users := users } := by
  unfold insertUser at h
  split at h
  · exact absurd h (by simp)
  · next hphone =>
      obtain ⟨users, husers, rfl⟩ := Option.map_eq_some_iff.1 h
      obtain ⟨hid, hrows⟩ := Table.insert?_eq_some husers
      exact ⟨hid, fun u hu he => hphone ⟨u, hu, he⟩, users, hrows, rfl⟩

/-- **What `confirm_signup` comes to**: nothing, a note about a record, or a new user with
the record consumed. -/
theorem confirmSignup_cases (settings : Settings) (db : Db) (payload : AuthPhoneConfirmRequest)
    (userId : UserId) (now : Readings) :
    (∃ failure, confirmSignup settings db payload userId now = (db, .error failure)) ∨
      ∃ v, latestPending db.verifications .signup (normalizePhone payload.phone) = some v ∧
        let x := examine settings v payload.code now.first
        ((∃ failure, x.verdict ≠ .verified ∧
            confirmSignup settings db payload userId now = (noted db x, .error failure)) ∨
          x.verdict = .verified ∧ findUserByPhone db (normalizePhone payload.phone) = none ∧
            userId ∉ db.users.rows.map User.id ∧
            (∀ u ∈ db.users, u.phone ≠ some (normalizePhone payload.phone)) ∧
            ∃ users : Table User, users.rows = db.users.rows ++
                [newUser userId x.change.dirty (normalizePhone payload.phone) now.second] ∧
              confirmSignup settings db payload userId now =
                ({ noted db x with users := users }, .ok (buildTokens settings userId))) := by
  unfold confirmSignup
  dsimp only
  rcases withVerified_cases settings db .signup (normalizePhone payload.phone) payload.code
    now.first (signup settings db (normalizePhone payload.phone) userId now.second)
    with ⟨failure, he⟩ | ⟨v, hlatest, ⟨failure, hfail, he⟩ | ⟨hver, he⟩⟩
  · exact Or.inl ⟨failure, he⟩
  · refine Or.inr ⟨v, hlatest, Or.inl ⟨failure, ?_, he⟩⟩
    intro hver
    rw [Verdict.failure_eq_none.2 hver] at hfail
    exact absurd hfail (by simp)
  · rw [he]
    unfold signup
    by_cases hnone : findUserByPhone db (normalizePhone payload.phone) = none
    · rw [if_neg (not_not.2 hnone)]
      cases hinsert : insertUser (noted db (examine settings v payload.code now.first))
        (newUser userId (examine settings v payload.code now.first).change.dirty
          (normalizePhone payload.phone) now.second) with
      | none => exact Or.inl ⟨_, rfl⟩
      | some db' =>
          obtain ⟨hid, hphone, users, hrows, rfl⟩ := insertUser_eq_some hinsert
          exact Or.inr ⟨v, hlatest, Or.inr ⟨hver, hnone, hid, hphone, users, hrows, rfl⟩⟩
    · rw [if_pos hnone]
      exact Or.inl ⟨_, rfl⟩

/-- **What `confirm_login` comes to**: nothing, a note about a record, or a login, with the
record consumed unless the code is let through unverified. -/
theorem confirmLogin_cases (settings : Settings) (db : Db) (payload : AuthLoginConfirmRequest)
    (now : Readings) :
    (∃ failure, confirmLogin settings db payload now = (db, .error failure)) ∨
      ∃ user, findUserByPhone db (normalizePhone payload.phone) = some user ∧
        ((isLoginTestCodeAllowed settings payload.code = true ∧
            confirmLogin settings db payload now =
              login settings db user payload.fcmToken now.second) ∨
          ∃ v, latestPending db.verifications .login (normalizePhone payload.phone) = some v ∧
            let x := examine settings v payload.code now.first
            ((∃ failure, x.verdict ≠ .verified ∧
                confirmLogin settings db payload now = (noted db x, .error failure)) ∨
              x.verdict = .verified ∧ confirmLogin settings db payload now =
                login settings (noted db x) user payload.fcmToken now.second)) := by
  unfold confirmLogin
  dsimp only
  cases huser : findUserByPhone db (normalizePhone payload.phone) with
  | none => exact Or.inl ⟨_, rfl⟩
  | some user =>
      cases htest : isLoginTestCodeAllowed settings payload.code with
      | true => exact Or.inr ⟨user, rfl, Or.inl ⟨rfl, if_pos rfl⟩⟩
      | false =>
          simp only [Bool.false_eq_true, if_false]
          rcases withVerified_cases settings db .login (normalizePhone payload.phone) payload.code
            now.first (fun x => login settings (noted db x) user payload.fcmToken now.second)
            with ⟨failure, he⟩ | ⟨v, hlatest, ⟨failure, hfail, he⟩ | ⟨hver, he⟩⟩
          · exact Or.inl ⟨failure, he⟩
          · refine Or.inr ⟨user, rfl, Or.inr ⟨v, hlatest, Or.inl ⟨failure, ?_, he⟩⟩⟩
            intro hver
            rw [Verdict.failure_eq_none.2 hver] at hfail
            exact absurd hfail (by simp)
          · exact Or.inr ⟨user, rfl, Or.inr ⟨v, hlatest, Or.inr ⟨hver, he⟩⟩⟩

end Spec

end UserAuthService
end OrderRun
