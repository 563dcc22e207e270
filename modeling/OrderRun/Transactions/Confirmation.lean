import OrderRun.Transactions.Atomicity

/-!
# Signing up and logging in, in a session

The two methods that issue tokens, and the one exception of theirs that leaves something
behind: `verify` commits what it notes about a record before it raises.

* `Bookkeeping` — what `verify` commits although it raises.
* `verify_atomic`, `confirmSignup_atomic`, `confirmLogin_atomic` — an exception leaves nothing
  else behind, and a return all that the method has promised.
* `confirmSignup_quiet`, `confirmLogin_quiet` — if nothing goes wrong on the way, they come to
  the methods at one stroke.
-/

namespace OrderRun

open Store Session Script Tx

open PhoneVerificationService UserAuthService

section Auth

/-- What `verify` commits although it raises: the bookkeeping on the record it has examined. -/
structure Bookkeeping (purpose : PhoneVerificationPurpose) (phone : String) (d : Db) (e : Raised)
    (d' : Db) : Prop where
  answer : e = .failure (apiError .phoneVerificationExpired) ∨
    e = .failure (apiError .phoneVerificationCodeMismatch)
  record : ∃ v status attemptCount, latestPending d.verifications purpose phone = some v ∧
    d' = { d with
      verifications := recordChange d.verifications
        ⟨v, { v with status := status, attemptCount := attemptCount }⟩ }

/-! ## Verifying -/

variable {settings : Settings} {purpose : PhoneVerificationPurpose} {phone code : String}
  {now : DateTime} {d : Db} {x : Examined} {N : Raised → Db → Prop}

theorem bookkeeping_noted {failure : Failure}
    (h : verify settings d.verifications purpose phone code now = .ok x)
    (hfailure : x.verdict.failure = some failure) :
    Bookkeeping purpose phone d (.failure failure) (noted d x) := by
  obtain ⟨v, hv, rfl⟩ := verify_eq_ok.1 h
  rcases examine_cases settings v code now with ⟨-, he⟩ | ⟨-, -, he⟩ | ⟨-, -, he⟩
  · rw [he] at hfailure ⊢
    obtain rfl := Option.some.inj hfailure
    exact ⟨Or.inl rfl, v, _, _, hv, rfl⟩
  · rw [he] at hfailure ⊢
    obtain rfl := Option.some.inj hfailure
    exact ⟨Or.inr rfl, v, _, _, hv, rfl⟩
  · rw [he] at hfailure
    exact absurd hfailure (by simp [Verdict.failure])

/-- `verify` leaves the record it has examined to the caller, or commits what it notes about it
and raises. -/
theorem verify_atomic : Triple (Open d d) (verifyTx settings purpose phone code now)
    (fun x s => (verify settings d.verifications purpose phone code now = .ok x ∧
      x.verdict = .verified) ∧ Open d d s) (Leaves d (Bookkeeping purpose phone d)) := by
  refine read_bind fun x hx => ?_
  cases hfailure : x.verdict.failure with
  | none => exact .ret fun s hs => ⟨⟨hx, Verdict.failure_eq_none.1 hfailure⟩, hs⟩
  | some failure =>
      refine .bind .open_execute fun _ => .bind .open_commit fun _ => .raise fun s hs => Or.inr ?_
      rw [hs.1]
      exact bookkeeping_noted hx hfailure

theorem withVerified_of_verified {α : Type} {rest : Examined → Db × Except Failure α}
    (h : verify settings d.verifications purpose phone code now = .ok x)
    (hver : x.verdict = .verified) :
    withVerified settings d purpose phone code now rest = rest x := by
  unfold withVerified
  rw [h]
  simp only [Verdict.failure_eq_none.2 hver]

/-! ## Signing up -/

variable {userId : UserId}

theorem signedUp_eq_ok {d' : Db} : signedUp phone userId now x d = .ok d' ↔
    insertUser (noted d x) (newUser userId x.change.dirty phone now) = some d' := by
  unfold signedUp
  split
  · next h => simp [h]
  · next d'' h => simp [h]

/-- The new user is found again. -/
theorem returns_signedUp {d' : Db} (h : signedUp phone userId now x d = .ok d') :
    ∃ user, Returns d' (refresh fun db => db.users.find? userId) user := by
  obtain ⟨-, -, users, husers, rfl⟩ := insertUser_eq_some (signedUp_eq_ok.1 h)
  have hmem : newUser userId x.change.dirty phone now ∈ users := by
    rw [Table.mem_iff, husers]
    exact List.mem_append_right _ (List.mem_singleton.2 rfl)
  exact ⟨_, returns_refresh (Table.find?_eq_some_iff.2 ⟨hmem, rfl⟩)⟩

theorem signup_of_signedUp {d' : Db} (hnone : findUserByPhone d phone = none)
    (h : signedUp phone userId now x d = .ok d') :
    signup settings d phone userId now x = (d', .ok (buildTokens settings userId)) := by
  unfold signup
  rw [if_neg (not_not.2 hnone), signedUp_eq_ok.1 h]

theorem signup_atomic : Triple (Open d d) (signupTx settings phone userId now x)
    (fun _ s => s.committed = (signup settings d phone userId now x).1) (Leaves d N) := by
  refine read_bind fun known hknown => ?_
  obtain rfl : findUserByPhone d phone = known := Except.ok.inj hknown
  by_cases hnone : findUserByPhone d phone = none
  · rw [if_neg (not_not.2 hnone)]
    have hflush : Triple (Open d d)
        (do execute (signedUp phone userId now x); commit : Tx Unit)
        (fun _ s => ∃ d', signedUp phone userId now x d = .ok d' ∧ Open d' d' s)
        (Leaves d Nothing) :=
      .execute_bind fun d' hd' => Triple.open_commit.weaken (fun _ hs => hs)
        (fun _ _ hs => ⟨d', hd', hs⟩) fun _ _ he => he
    refine (Triple.handle_reraises hflush (reraises_rollback fun _ => _)).bind fun _ => ?_
    refine .exists_pre fun d' => .assuming fun hd' => ?_
    obtain ⟨user, huser⟩ := returns_signedUp hd'
    refine huser.triple.bind fun _ => .ret fun s hs => ?_
    rw [signup_of_signedUp hnone hd']
    exact hs.2.1
  · rw [if_pos hnone]
    exact .bind .open_rollback fun _ => .open_raise

/-- **Signing up is atomic**, but for the bookkeeping. -/
theorem confirmSignup_atomic (settings : Settings) (payload : AuthPhoneConfirmRequest)
    (userId : UserId) (now : Readings) (d : Db) :
    Triple (Open d d) (confirmSignupTx settings payload userId now)
      (fun _ s => s.committed = (confirmSignup settings d payload userId now).1)
      (Leaves d (Bookkeeping .signup (normalizePhone payload.phone) d)) := by
  refine verify_atomic.bind fun x => .assuming ?_
  rintro ⟨hx, hver⟩
  have hsame : confirmSignup settings d payload userId now =
      signup settings d (normalizePhone payload.phone) userId now.second x :=
    withVerified_of_verified hx hver
  rw [hsame]
  exact signup_atomic

/-! ## Logging in -/

variable {user : User} {fcmToken : Option String}

theorem returns_loggedIn (settings : Settings) (fcmToken : Option String) (now : DateTime)
    (h : user ∈ d.users) (y : Option Examined) : ∃ user',
    Returns (loggedIn settings user fcmToken now y d)
      (refresh fun db => db.users.find? user.id) user' := by
  have husers : (loggedIn settings user fcmToken now y d).users =
      (d.updateUser user.id (fun u => { u with lastLoginAt := some now }) fun _ => rfl).users := by
    cases y <;> rfl
  have hfind : (loggedIn settings user fcmToken now y d).users.find? user.id =
      some { user with lastLoginAt := some now } := by
    rw [husers]
    refine Table.find?_eq_some_iff.2 ⟨Db.mem_updateUser.2 ⟨user, h, if_pos rfl⟩, rfl⟩
  exact ⟨_, returns_refresh hfind⟩

theorem moves_lookUp (user : User) (fcmToken : Option String) :
    Moves d (lookUpFcmToken user fcmToken) d := by
  cases fcmToken with
  | none => exact .ret _
  | some token => exact .query fun db : Db => db.fcmTokens.rows.find? fun t => t.userId = user.id

theorem login_atomic (h : user ∈ d.users) (y : Option Examined) :
    Triple (Open d d) (loginTx settings user fcmToken now y)
      (fun _ s => s.committed = loggedIn settings user fcmToken now y d) (Leaves d N) := by
  refine (moves_lookUp user fcmToken).triple.bind fun _ => ?_
  refine (Triple.handle_reraises (.bind .open_execute fun _ => .open_commit)
    (reraises_rollback id)).bind fun _ => ?_
  obtain ⟨user', huser'⟩ := returns_loggedIn settings fcmToken now h y
  exact huser'.triple.bind fun _ => .ret fun s hs => hs.2.1

/-- **Logging in is atomic**, but for the bookkeeping. -/
theorem confirmLogin_atomic (settings : Settings) (payload : AuthLoginConfirmRequest)
    (now : Readings) (d : Db) :
    Triple (Open d d) (confirmLoginTx settings payload now)
      (fun _ s => s.committed = (confirmLogin settings d payload now).1)
      (Leaves d (Bookkeeping .login (normalizePhone payload.phone) d)) := by
  refine read_bind fun user huser => ?_
  have hfind : findUserByPhone d (normalizePhone payload.phone) = some user :=
    orRaise_eq_ok.1 huser
  have hmem := (findUserByPhone_eq_some hfind).1
  have hlogin : confirmLogin settings d payload now =
      if isLoginTestCodeAllowed settings payload.code then
        login settings d user payload.fcmToken now.second
      else
        withVerified settings d .login (normalizePhone payload.phone) payload.code now.first
          fun x => login settings (noted d x) user payload.fcmToken now.second := by
    unfold confirmLogin
    simp only [hfind]
  rw [hlogin]
  by_cases htest : isLoginTestCodeAllowed settings payload.code = true
  · rw [if_pos htest, if_pos htest]
    exact login_atomic hmem none
  · rw [if_neg htest, if_neg htest]
    refine verify_atomic.bind fun x => .assuming ?_
    rintro ⟨hx, hver⟩
    rw [withVerified_of_verified hx hver]
    exact login_atomic hmem (some x)

/-! ## Without mishaps -/

theorem verify_quiet {α : Type} {next : Examined → Tx α} {rest : Examined → Db × Except Failure α}
    (h : ∀ x, (next x ⟨d, d, []⟩).2.committed = (rest x).1) :
    ((verifyTx settings purpose phone code now >>= next) ⟨d, d, []⟩).2.committed =
      (withVerified settings d purpose phone code now rest).1 := by
  unfold verifyTx withVerified
  cases hx : verify settings d.verifications purpose phone code now with
  | error failure => rw [bind_error (bind_error (read_error hx))]
  | ok x =>
      rw [bind_bind, bind_ok (read_ok hx)]
      dsimp only
      cases x.verdict.failure with
      | none => exact h x
      | some failure => rfl

theorem signup_quiet : (signupTx settings phone userId now x ⟨d, d, []⟩).2.committed =
    (signup settings d phone userId now x).1 := by
  unfold signupTx signup
  rw [bind_ok (read_value _ d d)]
  by_cases hnone : findUserByPhone d phone = none
  · rw [if_neg (not_not.2 hnone), if_neg (not_not.2 hnone)]
    cases hinsert : insertUser (noted d x) (newUser userId x.change.dirty phone now) with
    | none =>
        have hrefused : signedUp phone userId now x d =
            .error (.failure (.integrityError "phone")) := by
          unfold signedUp
          rw [hinsert]
        rw [bind_error (handle_error (bind_error (execute_quiet_error hrefused)))]
    | some d' =>
        have hflush : (do execute (signedUp phone userId now x); commit : Tx Unit) ⟨d, d, []⟩ =
            (.ok (), ⟨d', d', []⟩) :=
          bind_ok (execute_quiet (signedUp_eq_ok.2 hinsert))
        rw [bind_ok (handle_ok hflush)]
        obtain ⟨user, huser⟩ := returns_signedUp (signedUp_eq_ok.2 hinsert)
        rw [bind_ok (huser _ rfl)]
        rfl
  · rw [if_pos hnone, if_pos hnone]
    rfl

theorem confirmSignup_quiet (settings : Settings) (payload : AuthPhoneConfirmRequest)
    (userId : UserId) (now : Readings) (d : Db) :
    (confirmSignupTx settings payload userId now (.start d [])).2.committed =
      (confirmSignup settings d payload userId now).1 :=
  verify_quiet fun _ => signup_quiet

theorem login_quiet (h : user ∈ d.users) (y : Option Examined) :
    (loginTx settings user fcmToken now y ⟨d, d, []⟩).2.committed =
      loggedIn settings user fcmToken now y d := by
  unfold loginTx
  obtain ⟨token, htoken⟩ := (moves_lookUp (d := d) user fcmToken).quiet d
  have hflush : (do
        execute fun db => .ok (loggedIn settings user fcmToken now y db)
        commit : Tx Unit) ⟨d, d, []⟩ =
      (.ok (), ⟨loggedIn settings user fcmToken now y d,
        loggedIn settings user fcmToken now y d, []⟩) := rfl
  obtain ⟨user', huser'⟩ := returns_loggedIn settings fcmToken now h y
  rw [bind_ok htoken, bind_ok (handle_ok hflush), bind_ok (huser' _ rfl)]
  rfl

theorem confirmLogin_quiet (settings : Settings) (payload : AuthLoginConfirmRequest)
    (now : Readings) (d : Db) :
    (confirmLoginTx settings payload now (.start d [])).2.committed =
      (confirmLogin settings d payload now).1 := by
  unfold confirmLoginTx confirmLogin Session.start
  dsimp only
  cases hfind : findUserByPhone d (normalizePhone payload.phone) with
  | none =>
      have hread : orRaise (findUserByPhone d (normalizePhone payload.phone))
          (apiError .userNotFound) = .error (apiError .userNotFound) := by rw [hfind]; rfl
      rw [bind_error (read_error hread)]
  | some user =>
      have hread : orRaise (findUserByPhone d (normalizePhone payload.phone))
          (apiError .userNotFound) = .ok user := orRaise_eq_ok.2 hfind
      have hmem := (findUserByPhone_eq_some hfind).1
      rw [bind_ok (read_ok hread)]
      dsimp only
      by_cases htest : isLoginTestCodeAllowed settings payload.code = true
      · rw [if_pos htest, if_pos htest]
        exact login_quiet hmem none
      · rw [if_neg htest, if_neg htest]
        exact verify_quiet fun x => login_quiet hmem (some x)

end Auth
end OrderRun
