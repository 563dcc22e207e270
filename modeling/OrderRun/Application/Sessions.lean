import OrderRun.Application.Responses
import OrderRun.Application.Tokens

/-!
# Sessions come to an end

A token is good until its `exp`, a refresh token gives new access tokens until its own, and
neither is ever taken back: the logout route does nothing.  So how long somebody can act for
a user after she has entered a code rests on the expiry alone.

* `Jwt`, `Clock`, `Settings.at` — signing and checking with `exp`, at the readings of one
  visit.
* `Visit`, `App.visit` — a request with its credentials: the routes of users take them from
  `get_current_user`, the other routes and the jobs take none.
* `Unforged` — nobody presents a token that the application would accept and has not issued.
* `Confirmed`, `InSession` — where a session starts, and how long it lasts.
* `App.sessions_bounded` — whoever gets through as a user is in a session of hers.
-/

namespace OrderRun

open Store PhoneVerificationService UserAuthService

/-! ## Signing -/

/-- What is signed: the claims, and the second up to which they hold. -/
structure SignedClaims where
  claims : TokenClaims
  exp : DateTime
  deriving DecidableEq, Repr

/-- The readings of the clock in one visit: when a token is checked, and when an access and a
refresh token are made. -/
structure Clock where
  checked : DateTime
  access : DateTime
  refresh : DateTime
  deriving DecidableEq, Repr

/-- `jose.jwt` with the secret of the application. -/
structure Jwt where
  refreshTokenExpireDays : ℕ
  encode : SignedClaims → String
  /-- `none` for a `JWTError`. -/
  decode : String → DateTime → Option SignedClaims
  /-- A token is accepted up to its last second. -/
  decode_encode : ∀ signed now,
    decode (encode signed) now = if now ≤ signed.exp then some signed else none

section Definitions

variable (settings : Settings) (jwt : Jwt) (bus : EventBus)

/-- How long an access token holds, in seconds. -/
def Settings.accessLifetime : ℕ := settings.jwtAccessTokenExpireMinutes * 60

/-- How long a refresh token holds, in seconds. -/
def Jwt.refreshLifetime : ℕ := jwt.refreshTokenExpireDays * 86400

/-- The settings as they work at these readings of the clock. -/
def Settings.at (clock : Clock) : Settings :=
  { settings with
    jwtEncode := fun claims => jwt.encode ⟨claims,
      if claims.type = "access" then clock.access + settings.accessLifetime
      else clock.refresh + jwt.refreshLifetime⟩
    jwtDecode := fun token => (jwt.decode token clock.checked).map SignedClaims.claims }

/-! ## Visits -/

/-- The user a route acts for, if it takes a token. -/
def AccountCommand.user : AccountCommand → Option UserId
  | .updateAlarm uid _ | .updateName uid _ | .updateFcmToken uid _ | .saveAccount uid
  | .markRead uid _ _ | .sendNotification uid _ _ _ _ => some uid
  | .signupSend _ _ _ _ | .loginSend _ _ _ _ | .signupConfirm _ _ _ | .loginConfirm _ _
  | .refreshToken _ | .work _ _ | .setOpenChatUrl _ _ => none

/-- The command as its route gives it for the user the token names. -/
def AccountCommand.as (uid : UserId) : AccountCommand → AccountCommand
  | .updateAlarm _ alarmEnabled => .updateAlarm uid alarmEnabled
  | .updateName _ name => .updateName uid name
  | .updateFcmToken _ token => .updateFcmToken uid token
  | .saveAccount _ => .saveAccount uid
  | .markRead _ ids utcnow => .markRead uid ids utcnow
  | .sendNotification _ request result createdAt sentAt =>
      .sendNotification uid request result createdAt sentAt
  | c => c

def Command.user : Command → Option UserId
  | .deal r => r.call.actor
  | .account c => c.user

def Command.as (uid : UserId) : Command → Command
  | .deal r => .deal ⟨r.call.as uid, r.now⟩
  | .account c => .account (c.as uid)

/-- A request, or a turn of a job. -/
structure Visit where
  clock : Clock
  credentials : Option String
  command : Command

/-- The tokens a visitor shows. -/
def Visit.presented (v : Visit) : List String :=
  v.credentials.toList ++
    match v.command with
    | .account (.refreshToken payload) => [payload.refreshToken]
    | _ => []

/-- What is done for a visitor, if she is let in. -/
def Visit.executed (db : Db) (v : Visit) : Option Command :=
  match v.command.user with
  | none => some v.command
  | some _ =>
    match getCurrentUser (settings.at jwt v.clock) db v.credentials with
    | .error _ => none
    | .ok user => some (v.command.as user.id)

/-- The tokens in an answer. -/
def Reply.issued : Reply → List String
  | .tokens response => [response.accessToken, response.refreshToken]
  | .accessToken response => [response.accessToken]
  | .done | .sent _ _ => []

/-- The tokens a command is answered with. -/
def Command.issues (db : Db) : Command → List String
  | .deal _ => []
  | .account c =>
    match (c.run settings db).2 with
    | .error _ => []
    | .ok reply => reply.issued

/-- The application and the tokens that are out. -/
structure Gate where
  world : World
  issued : List String

/-- One visit. -/
def App.visit (g : Gate) (v : Visit) : Gate :=
  match v.executed settings jwt g.world.db with
  | none => g
  | some c => ⟨App.step (settings.at jwt v.clock) bus g.world c,
      g.issued ++ c.issues (settings.at jwt v.clock) g.world.db⟩

def Gate.initial (m : MasterData) : Gate := ⟨World.initial m, []⟩

/-- What has been executed, in order. -/
def executions (past : List (Gate × Visit)) : List (World × Command) :=
  past.filterMap fun x => (x.2.executed settings jwt x.1.world.db).map (x.1.world, ·)

/-- Whatever a visitor shows and the application would accept has been issued by it. -/
def Unforged (g : Gate) (vs : List Visit) : Prop :=
  Runs.Along (App.visit settings jwt bus)
    (fun g v => ∀ token ∈ v.presented, jwt.decode token v.clock.checked ≠ none →
      token ∈ g.issued) g vs

/-! ## Sessions -/

/-- In the past, in visit `x`, a code was confirmed for this user, and she was given tokens;
they are earned. -/
def Confirmed (past : List (Gate × Visit)) (uid : UserId) (x : Gate × Visit) : Prop :=
  ∃ pre suf c response, past = pre ++ x :: suf ∧ x.2.command = .account c ∧
    (c.run (settings.at jwt x.2.clock) x.1.world.db).2 = .ok (.tokens response) ∧
    response.userId = uid ∧
    Earned (settings.at jwt x.2.clock) bus (executions settings jwt pre) x.1.world c response

/-- The user has got her access token with a confirmation, or for a refresh token of one; all
lifetimes are respected. -/
inductive InSession (past : List (Gate × Visit)) (uid : UserId) (now : DateTime) : Prop where
  | fresh (x : Gate × Visit) (confirmed : Confirmed settings jwt bus past uid x)
      (alive : now ≤ x.2.clock.access + settings.accessLifetime) :
      InSession past uid now
  | refreshed (pre suf : List (Gate × Visit)) (x y : Gate × Visit) (payload : AuthRefreshRequest)
      (split : past = pre ++ y :: suf) (refresh : y.2.command = .account (.refreshToken payload))
      (confirmed : Confirmed settings jwt bus pre uid x)
      (refreshable : y.2.clock.checked ≤ x.2.clock.refresh + jwt.refreshLifetime)
      (alive : now ≤ y.2.clock.access + settings.accessLifetime) :
      InSession past uid now

end Definitions

/-! ## The clock and the database

What is committed does not depend on the tokens. -/

section Clocks

variable {settings : Settings} {jwt : Jwt} {bus : EventBus} {clock : Clock} {db : Db} {w : World}

theorem withVerified_at {α β : Type} {purpose : PhoneVerificationPurpose} {phone code : String}
    {now : DateTime} {rest : Examined → Db × Except Failure α}
    {rest' : Examined → Db × Except Failure β} (h : ∀ x, (rest x).1 = (rest' x).1) :
    (withVerified (settings.at jwt clock) db purpose phone code now rest).1 =
      (withVerified settings db purpose phone code now rest').1 := by
  unfold withVerified
  rw [show verify (settings.at jwt clock) db.verifications purpose phone code now =
    verify settings db.verifications purpose phone code now from rfl]
  cases verify settings db.verifications purpose phone code now with
  | error failure => rfl
  | ok x =>
      cases hfail : x.verdict.failure with
      | some failure => simp only [hfail]
      | none =>
          simp only [hfail]
          exact h x

theorem signup_at (phone : String) (uid : UserId) (now : DateTime) (x : Examined) :
    (signup (settings.at jwt clock) db phone uid now x).1 =
      (signup settings db phone uid now x).1 := by
  unfold signup
  split
  · rfl
  · cases insertUser (noted db x) (newUser uid x.change.dirty phone now) <;> rfl

theorem confirmLogin_at (payload : AuthLoginConfirmRequest) (now : Readings) :
    (confirmLogin (settings.at jwt clock) db payload now).1 =
      (confirmLogin settings db payload now).1 := by
  have hcode : isLoginTestCodeAllowed (settings.at jwt clock) payload.code =
      isLoginTestCodeAllowed settings payload.code := rfl
  unfold confirmLogin
  dsimp only
  rw [hcode]
  cases findUserByPhone db (normalizePhone payload.phone) with
  | none => rfl
  | some user =>
      cases isLoginTestCodeAllowed settings payload.code with
      | true => rfl
      | false => exact withVerified_at fun x => rfl

theorem run_at (c : AccountCommand) :
    (c.run (settings.at jwt clock) db).1 = (c.run settings db).1 := by
  cases c with
  | signupConfirm payload uid now => exact withVerified_at fun x => signup_at _ _ _ x
  | loginConfirm payload now => exact confirmLogin_at payload now
  | _ => rfl

theorem App.step_at (c : Command) :
    App.step (settings.at jwt clock) bus w c = App.step settings bus w c := by
  cases c with
  | deal r => rfl
  | account c => exact congrArg (fun db => { w with db := db }) (run_at c)

theorem Command.Sends.at {c : Command} {purpose : PhoneVerificationPurpose}
    {phone code : String} {sent : Sent} (h : c.Sends settings db purpose phone code sent) :
    c.Sends (settings.at jwt clock) db purpose phone code sent := by
  cases h with
  | signup payload smsSender draw now sent h => exact .signup payload smsSender draw now sent h
  | login payload smsSender draw now sent h => exact .login payload smsSender draw now sent h

theorem Outstanding.at {past : List (World × Command)} (h : Outstanding settings bus past w) :
    Outstanding (settings.at jwt clock) bus past w where
  sent := by
    intro v hv hpending
    obtain ⟨x, hx, code, hhash, ⟨sent, hsends, hsent⟩, howner⟩ := h.sent v hv hpending
    exact ⟨x, hx, code, hhash, ⟨sent, hsends.at, hsent⟩, howner⟩
  spent := by
    intro x hx id hconsumes
    rw [App.step_at] at hconsumes
    exact h.spent x hx id hconsumes

end Clocks

/-! ## Tokens that are out -/

section Tokens

variable {settings : Settings} {jwt : Jwt} {bus : EventBus} {clock : Clock} {db : Db}
  {past : List (Gate × Visit)} {g : Gate} {token : String} {uid : UserId} {now : DateTime}
  {signed : SignedClaims}

theorem Jwt.decode_eq_some (h : jwt.decode (jwt.encode signed) now = some signed') :
    signed' = signed ∧ now ≤ signed.exp := by
  rw [jwt.decode_encode] at h
  split at h
  · next hle => exact ⟨(Option.some.inj h).symm, hle⟩
  · exact absurd h (by simp)

theorem decode_accessToken
    (h : jwt.decode ((settings.at jwt clock).createAccessToken uid) now = some signed) :
    signed.claims = ⟨some uid, "access"⟩ ∧ now ≤ clock.access + settings.accessLifetime := by
  obtain ⟨rfl, hle⟩ := Jwt.decode_eq_some h
  exact ⟨rfl, hle⟩

theorem decode_refreshToken
    (h : jwt.decode ((settings.at jwt clock).createRefreshToken uid) now = some signed) :
    signed.claims = ⟨some uid, "refresh"⟩ ∧ now ≤ clock.refresh + jwt.refreshLifetime := by
  obtain ⟨rfl, hle⟩ := Jwt.decode_eq_some h
  exact ⟨rfl, hle⟩

theorem verifyToken_at {type : String} {claims : TokenClaims}
    (h : (settings.at jwt clock).verifyToken token type = .ok claims) :
    ∃ signed, jwt.decode token clock.checked = some signed ∧ signed.claims = claims ∧
      claims.type = type := by
  simp only [Settings.verifyToken, bind_eq_ok, orRaise_eq_ok, raiseIf_eq_ok, not_not,
    pure_eq_ok] at h
  obtain ⟨payload, hdecode, -, htype, rfl⟩ := h
  obtain ⟨signed, hsigned, rfl⟩ := Option.map_eq_some_iff.1 hdecode
  exact ⟨signed, hsigned, rfl, htype⟩

/-- Where a token that is out comes from. -/
inductive TokenOrigin (settings : Settings) (jwt : Jwt) (bus : EventBus)
    (past : List (Gate × Visit)) (token : String) : Prop where
  | access (uid : UserId) (x : Gate × Visit) (confirmed : Confirmed settings jwt bus past uid x)
      (made : token = (settings.at jwt x.2.clock).createAccessToken uid) :
      TokenOrigin settings jwt bus past token
  | refresh (uid : UserId) (x : Gate × Visit) (confirmed : Confirmed settings jwt bus past uid x)
      (made : token = (settings.at jwt x.2.clock).createRefreshToken uid) :
      TokenOrigin settings jwt bus past token
  | renewed (uid : UserId) (pre suf : List (Gate × Visit)) (x y : Gate × Visit)
      (payload : AuthRefreshRequest) (split : past = pre ++ y :: suf)
      (asked : y.2.command = .account (.refreshToken payload))
      (confirmed : Confirmed settings jwt bus pre uid x)
      (refreshable : y.2.clock.checked ≤ x.2.clock.refresh + jwt.refreshLifetime)
      (made : token = (settings.at jwt y.2.clock).createAccessToken uid) :
      TokenOrigin settings jwt bus past token

theorem Confirmed.append {x : Gate × Visit} (h : Confirmed settings jwt bus past uid x)
    (later : List (Gate × Visit)) : Confirmed settings jwt bus (past ++ later) uid x := by
  obtain ⟨pre, suf, c, response, rfl, h⟩ := h
  exact ⟨pre, suf ++ later, c, response, by simp, h⟩

theorem TokenOrigin.append (h : TokenOrigin settings jwt bus past token)
    (later : List (Gate × Visit)) : TokenOrigin settings jwt bus (past ++ later) token := by
  cases h with
  | access uid x confirmed made => exact .access uid x (confirmed.append later) made
  | refresh uid x confirmed made => exact .refresh uid x (confirmed.append later) made
  | renewed uid pre suf x y payload split asked confirmed refreshable made =>
      exact .renewed uid pre (suf ++ later) x y payload (by rw [split]; simp) asked confirmed
        refreshable made

/-- **An access token is good for a session.** -/
theorem TokenOrigin.inSession (h : TokenOrigin settings jwt bus past token)
    (hdecode : jwt.decode token now = some signed) (htype : signed.claims.type = "access") :
    ∃ uid, signed.claims.sub = some uid ∧ InSession settings jwt bus past uid now := by
  cases h with
  | access uid x confirmed made =>
      subst made
      obtain ⟨hclaims, hle⟩ := decode_accessToken hdecode
      exact ⟨uid, by rw [hclaims], .fresh x confirmed hle⟩
  | refresh uid x confirmed made =>
      subst made
      rw [(decode_refreshToken hdecode).1] at htype
      exact absurd htype (by simp)
  | renewed uid pre suf x y payload split asked confirmed refreshable made =>
      subst made
      obtain ⟨hclaims, hle⟩ := decode_accessToken hdecode
      exact ⟨uid, by rw [hclaims], .refreshed pre suf x y payload split asked confirmed
        refreshable hle⟩

/-- **A refresh token comes from a confirmation**, and still holds. -/
theorem TokenOrigin.refreshable (h : TokenOrigin settings jwt bus past token)
    (hdecode : jwt.decode token now = some signed) (htype : signed.claims.type = "refresh") :
    ∃ uid x, signed.claims.sub = some uid ∧ Confirmed settings jwt bus past uid x ∧
      now ≤ x.2.clock.refresh + jwt.refreshLifetime := by
  cases h with
  | refresh uid x confirmed made =>
      subst made
      obtain ⟨hclaims, hle⟩ := decode_refreshToken hdecode
      exact ⟨uid, x, by rw [hclaims], confirmed, hle⟩
  | access uid x confirmed made =>
      subst made
      rw [(decode_accessToken hdecode).1] at htype
      exact absurd htype (by simp)
  | renewed uid pre suf x y payload split asked confirmed refreshable made =>
      subst made
      rw [(decode_accessToken hdecode).1] at htype
      exact absurd htype (by simp)

/-! ## Answers -/

theorem answer_done {operation : User → Db × Except Failure Reply} {reply : Reply}
    (hop : ∀ user, ∃ x, operation user = committed db x)
    (h : (asUser db uid operation).2 = .ok reply) : reply = .done := by
  unfold asUser at h
  cases hcurrent : currentUser db uid with
  | error failure =>
      rw [hcurrent] at h
      exact absurd h (by simp)
  | ok user =>
      obtain ⟨x, hx⟩ := hop user
      simp only [hcurrent, hx] at h
      cases x with
      | error failure => exact absurd h (by simp [committed])
      | ok db' => exact (Except.ok.inj h).symm

/-- A user is not answered with tokens. -/
theorem AccountCommand.reply_of_user {c : AccountCommand} {reply : Reply} (hc : c.user = some uid)
    (h : (c.run settings db).2 = .ok reply) : reply = .done := by
  cases c with
  | updateAlarm | updateName | updateFcmToken | saveAccount | markRead | sendNotification =>
      exact answer_done (fun user => ⟨_, rfl⟩) h
  | _ => exact absurd hc (by simp [AccountCommand.user])

theorem Command.issues_as {c : Command} (hc : c.user ≠ none) (uid : UserId) :
    (c.as uid).issues settings db = [] := by
  cases c with
  | deal r => rfl
  | account c =>
      obtain ⟨uid', huser⟩ : ∃ uid', (c.as uid).user = some uid' := by
        cases c <;> first | exact ⟨_, rfl⟩ | exact absurd rfl hc
      show (match ((c.as uid).run settings db).2 with
        | .error _ => []
        | .ok reply => reply.issued) = []
      cases hrun : ((c.as uid).run settings db).2 with
      | error failure => rfl
      | ok reply =>
          obtain rfl := AccountCommand.reply_of_user huser hrun
          rfl

/-- Only a refresh token is answered with a single token. -/
theorem AccountCommand.reply_accessToken {c : AccountCommand} {response : AuthAccessTokenResponse}
    (h : (c.run settings db).2 = .ok (.accessToken response)) :
    ∃ payload, c = .refreshToken payload ∧
      refreshAccessToken settings db payload = .ok response := by
  cases c with
  | refreshToken payload =>
      obtain ⟨response', hresponse, he⟩ := map_eq_ok.1 h
      obtain rfl := Reply.accessToken.inj he
      exact ⟨payload, rfl, hresponse⟩
  | signupConfirm payload uid now =>
      obtain ⟨response', -, he⟩ := map_eq_ok.1 h
      exact absurd he (by simp)
  | loginConfirm payload now =>
      obtain ⟨response', -, he⟩ := map_eq_ok.1 h
      exact absurd he (by simp)
  | signupSend payload smsSender draw now =>
      revert h
      show (afterSend db _).2 = _ → _
      cases sendSignupVerification settings db payload smsSender draw now <;> simp [afterSend]
  | loginSend payload smsSender draw now =>
      revert h
      show (afterSend db _).2 = _ → _
      cases sendLoginVerification settings db payload smsSender draw now <;> simp [afterSend]
  | work job env => exact absurd h (by simp [AccountCommand.run])
  | setOpenChatUrl offerId url => exact absurd h (by simp [AccountCommand.run])
  | _ => exact absurd (AccountCommand.reply_of_user rfl h) (by simp)

/-- **Where new tokens come from**: a confirmation, or a refresh token. -/
theorem Command.issues_cases {c : Command} (h : token ∈ c.issues settings db) :
    (∃ c' response, c = .account c' ∧ (c'.run settings db).2 = .ok (.tokens response) ∧
        (token = response.accessToken ∨ token = response.refreshToken)) ∨
      ∃ payload response, c = .account (.refreshToken payload) ∧
        refreshAccessToken settings db payload = .ok response ∧ token = response.accessToken := by
  cases c with
  | deal r => exact absurd h List.not_mem_nil
  | account c =>
      unfold Command.issues at h
      dsimp only at h
      cases hrun : (c.run settings db).2 with
      | error failure =>
          rw [hrun] at h
          exact absurd h List.not_mem_nil
      | ok reply =>
          rw [hrun] at h
          cases reply with
          | done => exact absurd h List.not_mem_nil
          | sent response sms => exact absurd h List.not_mem_nil
          | tokens response =>
              exact Or.inl ⟨c, response, rfl, hrun, by simpa [Reply.issued] using h⟩
          | accessToken response =>
              obtain rfl : token = response.accessToken := List.mem_singleton.1 h
              obtain ⟨payload, rfl, hresponse⟩ := AccountCommand.reply_accessToken hrun
              exact Or.inr ⟨payload, response, rfl, hresponse, rfl⟩

end Tokens

/-! ## Runs -/

/-- Every token that is out comes from a confirmation, and the records of codes are in
order. -/
structure Traced (settings : Settings) (jwt : Jwt) (bus : EventBus)
    (past : List (Gate × Visit)) (g : Gate) : Prop where
  outstanding : Outstanding settings bus (executions settings jwt past) g.world
  issued : ∀ token ∈ g.issued, TokenOrigin settings jwt bus past token

section Runs

variable {settings : Settings} {jwt : Jwt} {bus : EventBus} {past : List (Gate × Visit)}
  {g : Gate} {v : Visit} {c : Command} {token : String}

/-- Visitors with a good token are let in. -/
theorem Visit.executed_eq_some {uid : UserId} (huser : v.command.user ≠ none)
    (h : User.id <$> getCurrentUser (settings.at jwt v.clock) g.world.db v.credentials = .ok uid) :
    v.executed settings jwt g.world.db = some (v.command.as uid) := by
  obtain ⟨user, hcurrent, rfl⟩ := map_eq_ok.1 h
  unfold Visit.executed
  split
  · next hnone => exact absurd hnone huser
  · rw [hcurrent]

/-- Visitors who are not let in change nothing. -/
theorem App.visit_none (h : v.executed settings jwt g.world.db = none) :
    App.visit settings jwt bus g v = g := by
  unfold App.visit
  rw [h]

theorem App.visit_some (h : v.executed settings jwt g.world.db = some c) :
    App.visit settings jwt bus g v = ⟨App.step settings bus g.world c,
      g.issued ++ c.issues (settings.at jwt v.clock) g.world.db⟩ := by
  unfold App.visit
  rw [h]
  exact congrArg (Gate.mk · _) (App.step_at c)

theorem executions_concat_none (h : v.executed settings jwt g.world.db = none) :
    executions settings jwt (past ++ [(g, v)]) = executions settings jwt past := by
  simp [executions, List.filterMap_append, h]

theorem executions_concat_some (h : v.executed settings jwt g.world.db = some c) :
    executions settings jwt (past ++ [(g, v)]) =
      executions settings jwt past ++ [(g.world, c)] := by
  simp [executions, List.filterMap_append, h]

/-- What a visitor is answered with tokens for is what she asked for. -/
theorem Visit.command_of_issues (h : v.executed settings jwt g.world.db = some c)
    (htoken : token ∈ c.issues (settings.at jwt v.clock) g.world.db) : v.command = c := by
  unfold Visit.executed at h
  split at h
  · exact Option.some.inj h
  · next uid huser =>
      split at h
      · exact absurd h (by simp)
      · obtain rfl := Option.some.inj h
        rw [Command.issues_as (by rw [huser]; simp)] at htoken
        exact absurd htoken List.not_mem_nil

theorem earned_buildTokens {earlier : List (World × Command)} {w : World} {c : AccountCommand}
    {response : AuthTokenResponse} (h : Earned settings bus earlier w c response) :
    response = buildTokens settings response.userId := by
  cases h <;> rfl

/-- A refresh token that is accepted comes from a confirmation. -/
theorem refreshable_of_ok (h : Traced settings jwt bus past g)
    (hshown : ∀ token ∈ v.presented, jwt.decode token v.clock.checked ≠ none → token ∈ g.issued)
    {payload : AuthRefreshRequest} (hcommand : v.command = .account (.refreshToken payload))
    {response : AuthAccessTokenResponse} (hok : refreshAccessToken (settings.at jwt v.clock)
      g.world.db payload = .ok response) :
    ∃ uid x, Confirmed settings jwt bus past uid x ∧
      v.clock.checked ≤ x.2.clock.refresh + jwt.refreshLifetime ∧
      response.accessToken = (settings.at jwt v.clock).createAccessToken uid := by
  simp only [refreshAccessToken, bind_eq_ok, orRaise_eq_ok, pure_eq_ok] at hok
  obtain ⟨claims, hverify, userId, hsub, user, huser, rfl⟩ := hok
  obtain ⟨signed, hdecode, rfl, htype⟩ := verifyToken_at hverify
  have hissued : payload.refreshToken ∈ g.issued := by
    refine hshown _ ?_ (by rw [hdecode]; simp)
    unfold Visit.presented
    rw [hcommand]
    exact List.mem_append_right _ List.mem_cons_self
  obtain ⟨uid, x, hsub', hconfirmed, hle⟩ := (h.issued _ hissued).refreshable hdecode htype
  rw [hsub', Option.filter_eq_some_iff, Option.some.injEq] at hsub
  rw [Option.filter_eq_some_iff] at huser
  obtain ⟨-, hid⟩ := Table.find?_eq_some_iff.1 huser.1
  refine ⟨uid, x, hconfirmed, hle, ?_⟩
  rw [show user.id = userId from hid, ← hsub.1]

/-- Whoever gets through as a user is in a session of hers. -/
theorem inSession_of_executed (h : Traced settings jwt bus past g)
    (hshown : ∀ token ∈ v.presented, jwt.decode token v.clock.checked ≠ none → token ∈ g.issued)
    (huser : v.command.user ≠ none) (hexecuted : v.executed settings jwt g.world.db = some c) :
    ∃ user ∈ g.world.db.users, user.deleted = false ∧ c = v.command.as user.id ∧
      InSession settings jwt bus past user.id v.clock.checked := by
  unfold Visit.executed at hexecuted
  split at hexecuted
  · next hnone => exact absurd hnone huser
  split at hexecuted
  · exact absurd hexecuted (by simp)
  next user hcurrent =>
  obtain ⟨hmem, hactive⟩ := getCurrentUser_eq_ok hcurrent
  simp only [getCurrentUser, bind_eq_ok, orRaise_eq_ok] at hcurrent
  obtain ⟨token, htoken, claims, hverify, userId, hsub, hfound⟩ := hcurrent
  obtain ⟨signed, hdecode, rfl, htype⟩ := verifyToken_at hverify
  have hissued : token ∈ g.issued := by
    refine hshown token (List.mem_append_left _ ?_) (by rw [hdecode]; simp)
    rw [htoken]
    exact List.mem_singleton_self token
  obtain ⟨uid, hsub', hsession⟩ := (h.issued token hissued).inSession hdecode htype
  rw [hsub', Option.filter_eq_some_iff, Option.some.injEq] at hsub
  obtain ⟨-, hid, -⟩ := currentUser_eq_ok hfound
  refine ⟨user, hmem, hactive, (Option.some.inj hexecuted).symm, ?_⟩
  rw [hid, ← hsub.1]
  exact hsession

variable (hverified : ∀ code, isLoginTestCodeAllowed settings code = false)
  (hhash : Function.Injective (hashVerificationCode settings))
include hverified hhash

/-- **Every visit keeps the invariant.** -/
theorem traced_visit (h : Traced settings jwt bus past g)
    (hshown : ∀ token ∈ v.presented, jwt.decode token v.clock.checked ≠ none → token ∈ g.issued) :
    Traced settings jwt bus (past ++ [(g, v)]) (App.visit settings jwt bus g v) := by
  cases hexecuted : v.executed settings jwt g.world.db with
  | none =>
      rw [App.visit_none hexecuted]
      refine ⟨?_, fun token htoken => (h.issued token htoken).append _⟩
      rw [executions_concat_none hexecuted]
      exact h.outstanding
  | some c =>
      rw [App.visit_some hexecuted]
      refine ⟨?_, fun token htoken => ?_⟩
      · rw [executions_concat_some hexecuted]
        exact outstanding_step h.outstanding c
      · rcases List.mem_append.1 htoken with htoken | htoken
        · exact (h.issued token htoken).append _
        · have hcommand := Visit.command_of_issues hexecuted htoken
          rcases Command.issues_cases htoken with
            ⟨c', response, rfl, hanswer, hmade⟩ | ⟨payload, response, rfl, hok, hmade⟩
          · have hearned :=
              @earned_run (settings.at jwt v.clock) _ _ _ hhash hverified h.outstanding.at _ _
                hanswer
            have hresponse := earned_buildTokens hearned
            have hconfirmed :
                Confirmed settings jwt bus (past ++ [(g, v)]) response.userId (g, v) :=
              ⟨past, [], c', response, rfl, hcommand, hanswer, rfl, hearned⟩
            rcases hmade with rfl | rfl
            · exact .access _ _ hconfirmed (congrArg AuthTokenResponse.accessToken hresponse)
            · exact .refresh _ _ hconfirmed (congrArg AuthTokenResponse.refreshToken hresponse)
          · obtain ⟨uid, x, hconfirmed, hle, hmade'⟩ :=
              refreshable_of_ok h hshown hcommand hok
            exact .renewed uid past [] x (g, v) payload rfl hcommand hconfirmed hle
              (hmade.trans hmade')

end Runs

/-- **Sessions come to an end.**  In every run whose visitors do not forge tokens, whatever a
route of users does, it does for an active user who has got her access token at most a lifetime
ago, in answer to a code sent to her phone, or for a refresh token that was good at the time and
had been given in answer to such a code at most its lifetime before. -/
theorem App.sessions_bounded (settings : Settings) (jwt : Jwt) (bus : EventBus) (m : MasterData)
    (hverified : ∀ code, isLoginTestCodeAllowed settings code = false)
    (hhash : Function.Injective (hashVerificationCode settings))
    (hnone : ∀ v ∈ m.verifications, v.status ≠ .pending) (vs : List Visit)
    (hunforged : Unforged settings jwt bus (.initial m) vs) :
    ∀ pre v suf c, vs = pre ++ v :: suf → v.command.user ≠ none →
      let g := Runs.run (App.visit settings jwt bus) (.initial m) pre
      v.executed settings jwt g.world.db = some c →
      ∃ user ∈ g.world.db.users, user.deleted = false ∧ c = v.command.as user.id ∧
        InSession settings jwt bus (Runs.trail (App.visit settings jwt bus) (.initial m) pre)
          user.id v.clock.checked := by
  rintro pre v suf c rfl huser g hexecuted
  have hshown := Runs.along_iff.1 hunforged
  have htraced : Traced settings jwt bus
      (Runs.trail (App.visit settings jwt bus) (.initial m) pre) g := by
    have hinv := @Runs.inv_trail _ _ (App.visit settings jwt bus)
      (fun past g => (∀ x ∈ past, ∀ token ∈ x.2.presented,
        jwt.decode token x.2.clock.checked ≠ none → token ∈ x.1.issued) →
          Traced settings jwt bus past g) ?_ (.initial m) ?_ pre
    · refine hinv fun x hx => ?_
      obtain ⟨pre', suf', rfl, hg⟩ := Runs.mem_trail.1 hx
      rw [hg]
      exact hshown pre' x.2 (suf' ++ v :: suf) (by simp)
    · intro past g' v' h hall
      exact traced_visit hverified hhash (h fun x hx => hall x (List.mem_append_left _ hx))
        (hall (g', v') (List.mem_append_right _ List.mem_cons_self))
    · intro _
      refine ⟨⟨fun v' hv' hpending => absurd hpending (hnone v' hv'), ?_⟩, ?_⟩
      · intro x hx
        exact absurd hx List.not_mem_nil
      · intro token htoken
        exact absurd htoken List.not_mem_nil
  exact inSession_of_executed htraced (hshown pre v suf rfl) huser hexecuted

namespace Sample

/-- A text, with its length in front. -/
def pack (cs : List Char) : List Char := List.replicate cs.length '1' ++ '0' :: cs

def unpack (cs : List Char) : List Char × List Char :=
  let n := (cs.takeWhile (· = '1')).length
  ((cs.drop (n + 1)).take n, (cs.drop (n + 1)).drop n)

theorem unpack_pack (cs rest : List Char) : unpack (pack cs ++ rest) = (cs, rest) := by
  have hlength : ((pack cs ++ rest).takeWhile (· = '1')).length = cs.length := by
    unfold pack
    rw [List.append_assoc, List.takeWhile_append_of_pos (by simp)]
    simp
  have hdrop : (pack cs ++ rest).drop (cs.length + 1) = cs ++ rest := by
    unfold pack
    rw [List.append_assoc, ← List.drop_drop, List.drop_append_of_le_length (by simp)]
    simp
  unfold unpack
  dsimp only
  rw [hlength, hdrop, List.take_left, List.drop_left]

def signToken (signed : SignedClaims) : String :=
  String.ofList (pack (Nat.toDigits 10 signed.exp) ++ (pack signed.claims.type.toList ++
    match signed.claims.sub with
    | none => []
    | some uid => '1' :: uid.toList))

def readToken (token : String) : SignedClaims :=
  let (exp, rest) := unpack token.toList
  let (type, sub) := unpack rest
  { exp := Nat.ofDigitChars 10 exp 0
    claims :=
      { type := String.ofList type
        sub := match sub with
          | [] => none
          | _ :: uid => some (String.ofList uid) } }

theorem readToken_signToken (signed : SignedClaims) : readToken (signToken signed) = signed := by
  obtain ⟨⟨sub, type⟩, exp⟩ := signed
  unfold readToken signToken
  rw [String.toList_ofList, unpack_pack]
  dsimp only
  rw [unpack_pack]
  cases sub <;> simp [Nat.ofDigitChars_toDigits]

/-- A library that accepts what it has signed, and a week for refresh tokens. -/
def jwt : Jwt where
  refreshTokenExpireDays := 7
  encode := signToken
  decode := fun token now =>
    if signToken (readToken token) = token ∧ now ≤ (readToken token).exp then
      some (readToken token)
    else none
  decode_encode := by
    intro signed now
    rw [readToken_signToken]
    simp

/-- A token of the newcomer, made at this reading. -/
def tokenOf (made : DateTime) : Option String :=
  some ((Settings.sample.at jwt ⟨made, made, made⟩).createAccessToken "newcomer")

/-- A newcomer signs up, sets her alarm, gets a new token when the first one has expired, and
comes back. -/
def visits : List Visit := [
  ⟨⟨1, 1, 1⟩, none,
    .account (.signupSend ⟨"newcomer", "010-1234-5678", "carrier"⟩ true 7 ⟨1, 2, 3, 4⟩)⟩,
  ⟨⟨5, 5, 5⟩, none,
    .account (.signupConfirm ⟨"010-1234-5678", "000007"⟩ "newcomer" ⟨5, 6, 7, 8⟩)⟩,
  ⟨⟨3605, 3605, 3605⟩, tokenOf 5, .account (.updateAlarm "" true)⟩,
  ⟨⟨600000, 600000, 600000⟩, none, .account (.refreshToken
    ⟨(Settings.sample.at jwt ⟨5, 5, 5⟩).createRefreshToken "newcomer"⟩)⟩,
  ⟨⟨603600, 603600, 603600⟩, tokenOf 600000, .account (.updateAlarm "" false)⟩]

end Sample

/-- A week later the newcomer is in the session she has signed up for. -/
theorem App.sessions_bounded_newcomer :
    ∃ user ∈ (Runs.run (App.visit .sample Sample.jwt Sample.bus) (.initial Sample.master)
        (Sample.visits.take 4)).world.db.users,
      user.deleted = false ∧
      Command.account (.updateAlarm "newcomer" false) = .account (.updateAlarm user.id false) ∧
      InSession .sample Sample.jwt Sample.bus (Runs.trail (App.visit .sample Sample.jwt Sample.bus)
        (.initial Sample.master) (Sample.visits.take 4)) user.id 603600 := by
  refine App.sessions_bounded .sample Sample.jwt Sample.bus Sample.master Sample.verified_production
    (hashVerificationCode_injective Function.injective_id)
    (fun _ hv => absurd hv List.not_mem_nil) Sample.visits ?_ (Sample.visits.take 4) _ [] _ rfl
    (by decide) (Visit.executed_eq_some (by decide) (by decide +kernel))
  exact ⟨by decide +kernel, by decide +kernel, by decide +kernel, by decide +kernel,
    by decide +kernel, trivial⟩

end OrderRun
