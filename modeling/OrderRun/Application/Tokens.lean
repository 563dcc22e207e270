import OrderRun.Application.Withdrawal

/-!
# Who gets a token

A login or a signup consumes one code, and the code went out to the phone it is confirmed
for: at that time the phone had the owner who logs in now, or none for a signup.  In between
accounts come and go; what keeps an old code from opening a new account is that the records
of a phone are deleted with the account.

* `Db.KeepsOwner` — the active user of a phone stays who she is.
* `Command.Sends`, `CodeSent` — a code goes out.
* `records_step` — what a command can do to the records.
* `Outstanding` — the invariant: where the pending records come from, and which codes are
  spent.
* `App.tokens_earned` — every token of a run of the application is earned.
-/

namespace OrderRun

open Store PhoneVerificationService UserAuthService

/-! ## The owner of a phone -/

/-- The active user of the phone stays who she is. -/
def Db.KeepsOwner (db db' : Db) (phone : String) : Prop :=
  ∀ u, findUserByPhone db phone = some u → ∃ u', findUserByPhone db' phone = some u' ∧ u'.id = u.id

section Owners

variable {db db' : Db} {phone : String}

theorem Db.KeepsOwner.of_users (h : db'.users = db.users) : db.KeepsOwner db' phone := by
  intro u hu
  refine ⟨u, ?_, rfl⟩
  unfold findUserByPhone at hu ⊢
  rw [h]
  exact hu

/-- Rows that are changed without touching the phone and the deletion mark. -/
theorem Db.KeepsOwner.of_map {f : User → User} (hrows : db'.users.rows = db.users.rows.map f)
    (hid : ∀ u, (f u).id = u.id)
    (hf : ∀ u ∈ db.users, ((f u).phone = some phone ∧ (f u).deleted = false ↔
      u.phone = some phone ∧ u.deleted = false)) : db.KeepsOwner db' phone := by
  intro u hu
  refine ⟨f u, ?_, hid u⟩
  unfold findUserByPhone at hu ⊢
  have hsame : db.users.rows.filter
        ((fun x => decide (x.phone = some phone ∧ x.deleted = false)) ∘ f) =
      db.users.rows.filter fun x => x.phone = some phone ∧ x.deleted = false :=
    List.filter_congr fun x hx => decide_eq_decide.2 (hf x hx)
  rw [hrows, List.find?_map, ← List.head?_filter, hsame, List.head?_filter, hu]
  rfl

/-- A command outside the four services keeps the owners of all phones. -/
theorem AccountStep.keepsOwner (hstep : AccountStep db db') (phone : String) :
    db.KeepsOwner db' phone := by
  cases hstep with
  | profile user huser hactive f hf verifications fcmTokens htokens =>
      refine .of_map (f := fun u => if u.id = user.id then f u else u) rfl ?_ ?_
      · intro u
        split
        · exact (hf u).id
        · rfl
      · intro u _
        split
        · rw [(hf u).phone, (hf u).deleted]
        · rfl
  | signup user hactive hid users husers verifications =>
      intro u hu
      refine ⟨u, ?_, rfl⟩
      unfold findUserByPhone at hu ⊢
      show users.rows.find? _ = _
      rw [husers, List.find?_append, hu]
      rfl
  | _ => exact .of_users rfl

/-- A call keeps the owner of a phone whose records it keeps. -/
theorem keepsOwner_commit {bus : EventBus} {w : World} {r : Request} {u : UnitOfWork} {db : Db}
    (hbody : r.call.body w.db r.now = .ok u) (hcommit : u.commit r.now.flush w.db bus = .ok db)
    {v : AuthPhoneVerification} (hv : v ∈ db.verifications) : w.db.KeepsOwner db v.phone := by
  obtain ⟨-, -, husers, -, -⟩ := UnitOfWork.commit_eq_ok hcommit
  have hlevel : ∀ x, (u.levelRow x).phone = x.phone ∧ (u.levelRow x).deleted = x.deleted := by
    intro x
    unfold UnitOfWork.levelRow
    split <;> exact ⟨rfl, rfl⟩
  refine .of_map (f := u.userRow) (by rw [husers]; rfl) u.userRow_id fun x hx => ?_
  by_cases hne : ∀ c ∈ u.users, c.loaded.id ≠ x.id
  · rw [UnitOfWork.userRow_of_ne hne, (hlevel x).1, (hlevel x).2]
  · -- the records of the phone of the user who leaves are deleted
    obtain ⟨user, rfl, hone, hpurge⟩ : ∃ user, user = x ∧
        u.users = [⟨user, user.withdraw r.now.first⟩] ∧ u.purge = some ⟨user.id, user.phone⟩ := by
      rcases body_leaves hbody with ⟨hnone, -⟩ | ⟨user, huser, -, hone, hpurge⟩
      · exact absurd (fun c hc => absurd hc (by simp [hnone])) hne
      · refine ⟨user, ?_, hone, hpurge⟩
        by_contra hother
        refine hne fun c hc hid => hother ?_
        rw [hone] at hc
        obtain rfl := List.mem_singleton.1 hc
        exact Table.eq_of_key_eq huser hx hid
    have hother : user.phone ≠ some v.phone := by
      obtain ⟨notifications, rfl⟩ := UnitOfWork.commit_same hcommit
      have hkept := (UnitOfWork.mem_keep.1 hv).2 _ hpurge
      intro hphone
      rw [← hphone] at hkept
      exact absurd hkept (by simp)
    have hrow : u.userRow user =
        User.flush user (user.withdraw r.now.first) (u.levelRow user) := by
      unfold UnitOfWork.userRow
      rw [hone]
      exact (writeBack_singleton _).trans (if_pos (u.levelRow_id user).symm)
    have hphone : (u.userRow user).phone = none := by
      rw [hrow]
      show col _ _ _ = _
      rw [(hlevel user).1]
      exact col_untouched _ _
    rw [hphone]
    constructor
    · rintro ⟨hnone, -⟩
      exact absurd hnone (by simp)
    · rintro ⟨hsome, -⟩
      exact absurd hsome hother

end Owners

/-! ## Codes that go out -/

/-- The command sends a code for this purpose to this phone. -/
inductive Command.Sends (settings : Settings) (db : Db) :
    Command → PhoneVerificationPurpose → String → String → Sent → Prop where
  | signup (payload : AuthSignupSendRequest) (smsSender : Bool) (draw : ℕ) (now : Readings)
      (sent : Sent)
      (h : sendSignupVerification settings db payload smsSender draw now = .ok sent) :
      Sends settings db (.account (.signupSend payload smsSender draw now)) .signup
        (normalizePhone payload.phone) (generateVerificationCode draw) sent
  | login (payload : AuthLoginSendRequest) (smsSender : Bool) (draw : ℕ) (now : Readings)
      (sent : Sent)
      (h : sendLoginVerification settings db payload smsSender draw now = .ok sent) :
      Sends settings db (.account (.loginSend payload smsSender draw now)) .login
        (normalizePhone payload.phone) (generateVerificationCode draw) sent

/-- The record was opened in this step of a run, and the code went out by SMS. -/
def CodeSent (settings : Settings) (x : World × Command) (v : AuthPhoneVerification)
    (code : String) : Prop :=
  ∃ sent, x.2.Sends settings x.1.db v.purpose v.phone code sent ∧
    sent.sms = ⟨v.phone, buildVerificationMessage code⟩ ∧
    v.id = x.1.db.verifications.next ∧ v.expiresAt = sent.response.expiresAt

section Sends

variable {settings : Settings} {db : Db} {c : Command} {purpose : PhoneVerificationPurpose}
  {phone code : String} {sent : Sent}

theorem sendSignupVerification_eq_ok {payload : AuthSignupSendRequest} {smsSender : Bool}
    {draw : ℕ} {now : Readings}
    (h : sendSignupVerification settings db payload smsSender draw now = .ok sent) :
    findUserByPhone db (normalizePhone payload.phone) = none ∧
      send settings db.verifications .signup (normalizePhone payload.phone) smsSender draw
        (some (strip payload.name)) (some (strip payload.carrier)) now = .ok sent := by
  simp only [sendSignupVerification, bind_eq_ok, raiseIf_eq_ok, not_not] at h
  obtain ⟨-, hnone, hsend⟩ := h
  exact ⟨hnone, hsend⟩

theorem sendLoginVerification_eq_ok {payload : AuthLoginSendRequest} {smsSender : Bool}
    {draw : ℕ} {now : Readings}
    (h : sendLoginVerification settings db payload smsSender draw now = .ok sent) :
    findUserByPhone db (normalizePhone payload.phone) ≠ none ∧
      send settings db.verifications .login (normalizePhone payload.phone) smsSender draw
        none none now = .ok sent := by
  simp only [sendLoginVerification, bind_eq_ok, raiseIf_eq_ok] at h
  obtain ⟨-, hsome, hsend⟩ := h
  exact ⟨hsome, hsend⟩

/-- For a signup the phone has no owner, for a login it has one. -/
theorem Command.Sends.owner (h : c.Sends settings db purpose phone code sent) :
    (purpose = .signup ∧ findUserByPhone db phone = none) ∨
      (purpose = .login ∧ ∃ u, findUserByPhone db phone = some u) := by
  cases h with
  | signup payload smsSender draw now sent h =>
      exact Or.inl ⟨rfl, (sendSignupVerification_eq_ok h).1⟩
  | login payload smsSender draw now sent h =>
      exact Or.inr ⟨rfl, Option.ne_none_iff_exists'.1 (sendLoginVerification_eq_ok h).1⟩

/-- A record that has just been opened belongs to its send. -/
theorem codeSent_newRecord {bus : EventBus} {w : World} {smsSender : Bool} {draw : ℕ}
    {name carrier : Option String} {now : Readings}
    (h : c.Sends settings w.db purpose phone (generateVerificationCode draw) sent)
    (hsend : send settings w.db.verifications purpose phone smsSender draw name carrier now =
      .ok sent) (hstep : App.step settings bus w c =
      { w with db := { w.db with verifications := sent.records } })
    {v' : AuthPhoneVerification} (hv' : v' ∈ (App.step settings bus w c).db.verifications) :
    v' ∈ w.db.verifications ∨ v'.codeHash =
      hashVerificationCode settings (generateVerificationCode draw) ∧
      CodeSent settings (w, c) v' (generateVerificationCode draw) := by
  obtain ⟨-, -, rfl⟩ := send_eq_ok.1 hsend
  rw [hstep] at hv'
  rcases AutoTable.mem_insert.1 hv' with hv' | rfl
  · exact Or.inl hv'
  · exact Or.inr ⟨rfl, _, h, rfl, rfl, rfl⟩

end Sends

/-! ## What a command can do to the records -/

/-- A record that was there before: it may have been examined, but it does not become
pending again, and the owner of its phone is still the same. -/
structure Db.Kept (db db' : Db) (v v' : AuthPhoneVerification) : Prop where
  id : v'.id = v.id
  purpose : v'.purpose = v.purpose
  phone : v'.phone = v.phone
  codeHash : v'.codeHash = v.codeHash
  expiresAt : v'.expiresAt = v.expiresAt
  pending : v'.status = .pending → v.status = .pending
  owner : db.KeepsOwner db' v.phone

section Records

variable {settings : Settings} {bus : EventBus} {w : World} {db db' : Db}

theorem Db.Kept.refl {v : AuthPhoneVerification} (h : db.KeepsOwner db' v.phone) :
    db.Kept db' v v where
  id := rfl
  purpose := rfl
  phone := rfl
  codeHash := rfl
  expiresAt := rfl
  pending := fun h => h
  owner := h

/-- The records after one has been examined. -/
theorem kept_recordChange {v : AuthPhoneVerification} (hv : v ∈ db.verifications)
    (hpending : v.status = .pending) (code : String) (now : DateTime)
    (howner : ∀ phone, db.KeepsOwner db' phone) :
    ∀ v' ∈ recordChange db.verifications (examine settings v code now).change,
      ∃ v₀ ∈ db.verifications, db.Kept db' v₀ v' := by
  intro v' hv'
  rcases (mem_recordChange hv).1 hv' with ⟨hmem, -⟩ | rfl
  · exact ⟨v', hmem, .refl (howner _)⟩
  · refine ⟨v, hv, ?_⟩
    rcases examine_cases settings v code now with ⟨-, h⟩ | ⟨-, -, h⟩ | ⟨-, -, h⟩ <;> rw [h] <;>
      exact ⟨rfl, rfl, rfl, rfl, rfl, fun _ => hpending, howner _⟩

/-- An operation of a user that does not touch the records. -/
theorem verifications_asUser {userId : UserId} {operation : User → Db × Except Failure Reply}
    (h : ∀ user, (operation user).1.verifications = db.verifications) :
    (asUser db userId operation).1.verifications = db.verifications :=
  asUser_induction (I := fun db' => db'.verifications = db.verifications) rfl fun user _ => h user

theorem verifications_committed {x : Except Failure Db}
    (h : ∀ db', x = .ok db' → db'.verifications = db.verifications) :
    (committed db x).1.verifications = db.verifications :=
  committed_induction (I := fun db' => db'.verifications = db.verifications) rfl h

/-- **What a command outside the four services does to the records.** -/
theorem verifications_run (settings : Settings) (db : Db) (c : AccountCommand) :
    (c.run settings db).1.verifications = db.verifications ∨
      (∃ purpose phone draw sent smsSender name carrier now,
        (Command.account c).Sends settings db purpose phone (generateVerificationCode draw) sent ∧
        send settings db.verifications purpose phone smsSender draw name carrier now = .ok sent ∧
        (c.run settings db).1 = { db with verifications := sent.records }) ∨
      ∃ purpose phone v code now, latestPending db.verifications purpose phone = some v ∧
        (c.run settings db).1.verifications =
          recordChange db.verifications (examine settings v code now).change := by
  cases c with
  | signupSend payload smsSender draw now =>
      cases hsend : sendSignupVerification settings db payload smsSender draw now with
      | error failure =>
          left
          show (afterSend db _).1.verifications = _
          rw [hsend]
          rfl
      | ok sent =>
          right; left
          refine ⟨.signup, _, draw, sent, _, _, _, _, .signup payload smsSender draw now sent hsend,
            (sendSignupVerification_eq_ok hsend).2, ?_⟩
          show (afterSend db _).1 = _
          rw [hsend]
          rfl
  | loginSend payload smsSender draw now =>
      cases hsend : sendLoginVerification settings db payload smsSender draw now with
      | error failure =>
          left
          show (afterSend db _).1.verifications = _
          rw [hsend]
          rfl
      | ok sent =>
          right; left
          refine ⟨.login, _, draw, sent, _, _, _, _, .login payload smsSender draw now sent hsend,
            (sendLoginVerification_eq_ok hsend).2, ?_⟩
          show (afterSend db _).1 = _
          rw [hsend]
          rfl
  | signupConfirm payload userId now =>
      show (confirmSignup settings db payload userId now).1.verifications = _ ∨ _ ∨
        ∃ purpose phone v code t, _ ∧
          (confirmSignup settings db payload userId now).1.verifications = _
      rcases confirmSignup_cases settings db payload userId now with
        ⟨failure, he⟩ | ⟨v, hlatest, ⟨failure, -, he⟩ | ⟨-, -, -, -, users, -, he⟩⟩
      · exact Or.inl (by rw [he])
      · exact Or.inr (Or.inr ⟨_, _, v, payload.code, now.first, hlatest, by rw [he]; rfl⟩)
      · exact Or.inr (Or.inr ⟨_, _, v, payload.code, now.first, hlatest, by rw [he]; rfl⟩)
  | loginConfirm payload now =>
      show (confirmLogin settings db payload now).1.verifications = _ ∨ _ ∨
        ∃ purpose phone v code t, _ ∧ (confirmLogin settings db payload now).1.verifications = _
      rcases confirmLogin_cases settings db payload now with
        ⟨failure, he⟩ | ⟨user, huser, ⟨-, he⟩ | ⟨v, hlatest, ⟨failure, -, he⟩ | ⟨-, he⟩⟩⟩
      · exact Or.inl (by rw [he])
      · exact Or.inl (by rw [he]; rfl)
      · exact Or.inr (Or.inr ⟨_, _, v, payload.code, now.first, hlatest, by rw [he]; rfl⟩)
      · exact Or.inr (Or.inr ⟨_, _, v, payload.code, now.first, hlatest, by rw [he]; rfl⟩)
  | refreshToken payload => exact Or.inl rfl
  | updateAlarm userId alarmEnabled =>
      refine Or.inl (verifications_asUser fun user => verifications_committed fun db' h => ?_)
      simp only [UserProfileService.updateAlarm, bind_eq_ok, pure_eq_ok] at h
      obtain ⟨fresh, -, rfl⟩ := h
      rfl
  | updateName userId name =>
      refine Or.inl (verifications_asUser fun user => verifications_committed fun db' h => ?_)
      simp only [UserProfileService.updateName, bind_eq_ok, pure_eq_ok] at h
      obtain ⟨fresh, -, rfl⟩ := h
      rfl
  | updateFcmToken userId fcmToken =>
      refine Or.inl (verifications_asUser fun user => verifications_committed fun db' h => ?_)
      simp only [UserProfileService.updateFcmToken, bind_eq_ok, pure_eq_ok] at h
      obtain ⟨fresh, -, rfl⟩ := h
      rfl
  | saveAccount userId =>
      refine Or.inl (verifications_asUser fun user => ?_)
      show (SettlementService.saveAccount db user.id).verifications = _
      rcases SettlementService.saveAccount_cases db user.id with he | he <;> rw [he]
  | markRead userId ids utcnow => exact Or.inl (verifications_asUser fun user => rfl)
  | sendNotification userId request result createdAt sentAt =>
      refine Or.inl (verifications_asUser fun user => ?_)
      show ((NotificationService.sendCustomNotification db user.id request result createdAt
        sentAt).getD db).verifications = _
      cases hsend : NotificationService.sendCustomNotification db user.id request result createdAt
        sentAt with
      | none => rfl
      | some db' =>
          obtain ⟨n, -, -, -, rfl⟩ := NotificationService.sendCustomNotification_eq_some hsend
          rfl
  | work job env =>
      left
      show (NotificationWorker.run db job env).verifications = _
      unfold NotificationWorker.run NotificationWorker.sendBatch
      cases (selectBatch db.notifications job env.rank).mapM (NotificationWorker.turn db env) with
      | none => rfl
      | some cs => rfl
  | setOpenChatUrl offerId url => exact Or.inl rfl

/-- **What a command does to the records**: those that are there afterwards were there
before, or have just been opened by a send. -/
theorem records_step (settings : Settings) (bus : EventBus) (w : World) (c : Command) :
    w.db.verifications.next ≤ (App.step settings bus w c).db.verifications.next ∧
    ∀ v' ∈ (App.step settings bus w c).db.verifications,
      (∃ v ∈ w.db.verifications, w.db.Kept (App.step settings bus w c).db v v') ∨
      ∃ code, v'.codeHash = hashVerificationCode settings code ∧
        CodeSent settings (w, c) v' code ∧
        w.db.KeepsOwner (App.step settings bus w c).db v'.phone := by
  cases c with
  | deal r =>
      rcases call_cases bus w r with he | ⟨u, db, -, hbody, hcommit, he⟩
      · rw [show App.step settings bus w (.deal r) = w from he]
        exact ⟨le_rfl, fun v hv => Or.inl ⟨v, hv, .refl (.of_users rfl)⟩⟩
      · rw [show App.step settings bus w (.deal r) = ⟨db, ⟨r, u, db⟩ :: w.log⟩ from he]
        refine ⟨?_, fun v hv => Or.inl ⟨v, ?_, .refl (keepsOwner_commit hbody hcommit hv)⟩⟩
        · obtain ⟨notifications, rfl⟩ := UnitOfWork.commit_same hcommit
          show _ ≤ (u.keep w.db.verifications _).next
          unfold UnitOfWork.keep
          split <;> exact le_rfl
        · obtain ⟨notifications, rfl⟩ := UnitOfWork.commit_same hcommit
          exact (UnitOfWork.mem_keep.1 hv).1
  | account c =>
      have howner := (accountStep_run settings w.db c).keepsOwner
      have hdb : (App.step settings bus w (.account c)).db = (c.run settings w.db).1 := rfl
      rcases verifications_run settings w.db c with
        hsame | ⟨purpose, phone, draw, sent, _, _, _, _, hsends, hsend, hrun⟩ |
        ⟨purpose, phone, v, code, now, hlatest, hchange⟩
      · rw [hdb, hsame]
        exact ⟨le_rfl, fun v hv => Or.inl ⟨v, hv, .refl (howner _)⟩⟩
      · have hstep : App.step settings bus w (.account c) =
            { w with db := { w.db with verifications := sent.records } } :=
          congrArg (fun db => { w with db := db }) hrun
        refine ⟨?_, fun v' hv' => ?_⟩
        · rw [hstep]
          obtain ⟨-, -, rfl⟩ := send_eq_ok.1 hsend
          exact Nat.le_succ _
        · rcases codeSent_newRecord hsends hsend hstep hv' with hv | ⟨hhash, hsent⟩
          · exact Or.inl ⟨v', hv, .refl (howner _)⟩
          · exact Or.inr ⟨_, hhash, hsent, howner _⟩
      · rw [hdb, hchange]
        obtain ⟨hv, hawaits, -⟩ := latestPending_eq_some_iff.1 hlatest
        exact ⟨le_rfl, fun v' hv' =>
          Or.inl (kept_recordChange hv hawaits.2.2 code now howner v' hv')⟩

end Records

/-! ## Where the pending records come from -/

/-- Between the two databases the record has been used up. -/
def Db.Consumes (db db' : Db) (id : ℕ) : Prop :=
  (∃ v ∈ db.verifications, v.id = id ∧ v.status = .pending) ∧
    ∃ v ∈ db'.verifications, v.id = id ∧ v.status = .verified

/-- Every pending record was opened by a send of the past, and the phone has had the same
owner since; a record that was used up is not pending any more. -/
structure Outstanding (settings : Settings) (bus : EventBus) (past : List (World × Command))
    (w : World) : Prop where
  sent : ∀ v ∈ w.db.verifications, v.status = .pending → ∃ x ∈ past, ∃ code,
    v.codeHash = hashVerificationCode settings code ∧ CodeSent settings x v code ∧
      x.1.db.KeepsOwner w.db v.phone
  spent : ∀ x ∈ past, ∀ id, x.1.db.Consumes (App.step settings bus x.1 x.2).db id →
    id < w.db.verifications.next ∧ ∀ v ∈ w.db.verifications, v.id = id → v.status ≠ .pending

section Outstanding

variable {settings : Settings} {bus : EventBus} {past : List (World × Command)} {w : World}

theorem Db.KeepsOwner.trans {db₁ db₂ db₃ : Db} {phone : String} (h : db₁.KeepsOwner db₂ phone)
    (h' : db₂.KeepsOwner db₃ phone) : db₁.KeepsOwner db₃ phone := by
  intro u hu
  obtain ⟨u₂, hu₂, hid⟩ := h u hu
  obtain ⟨u₃, hu₃, hid'⟩ := h' u₂ hu₂
  exact ⟨u₃, hu₃, hid'.trans hid⟩

/-- The send a record comes from can be told as long as the record exists. -/
theorem CodeSent.kept {db db' : Db} {x : World × Command} {v v' : AuthPhoneVerification}
    {code : String} (h : CodeSent settings x v code) (hkept : db.Kept db' v v') :
    CodeSent settings x v' code := by
  unfold CodeSent
  rw [hkept.purpose, hkept.phone, hkept.id, hkept.expiresAt]
  exact h

/-- **Every command keeps the invariant.** -/
theorem outstanding_step (h : Outstanding settings bus past w) (c : Command) :
    Outstanding settings bus (past ++ [(w, c)]) (App.step settings bus w c) := by
  obtain ⟨hnext, hrecords⟩ := records_step settings bus w c
  constructor
  · intro v' hv' hpending
    rcases hrecords v' hv' with ⟨v, hv, hkept⟩ | ⟨code, hhash, hsent, howner⟩
    · obtain ⟨x, hx, code, hhash, hsent, howner⟩ := h.sent v hv (hkept.pending hpending)
      refine ⟨x, List.mem_append_left _ hx, code, hkept.codeHash.trans hhash, hsent.kept hkept, ?_⟩
      rw [hkept.phone]
      exact howner.trans hkept.owner
    · exact ⟨(w, c), List.mem_append_right _ List.mem_cons_self, code, hhash, hsent, howner⟩
  · intro x hx id hconsumes
    rcases List.mem_append.1 hx with hx | hx
    · obtain ⟨hlt, hspent⟩ := h.spent x hx id hconsumes
      refine ⟨hlt.trans_le hnext, fun v' hv' hid hpending => ?_⟩
      rcases hrecords v' hv' with ⟨v, hv, hkept⟩ | ⟨code, -, ⟨-, -, -, hnew, -⟩, -⟩
      · exact hspent v hv (hkept.id.symm.trans hid) (hkept.pending hpending)
      · -- the key of a new record has not been used before
        have hkey : id = w.db.verifications.next := hid.symm.trans hnew
        exact absurd hkey hlt.ne
    · obtain rfl := List.mem_singleton.1 hx
      obtain ⟨⟨v, hv, rfl, -⟩, v₁, hv₁, hid₁, hverified⟩ := hconsumes
      refine ⟨(AutoTable.lt_next hv).trans_le hnext, fun v' hv' hid hpending => ?_⟩
      obtain rfl : v' = v₁ := AutoTable.eq_of_key_eq hv' hv₁ (hid.trans hid₁.symm)
      rw [hverified] at hpending
      exact absurd hpending (by decide)

theorem App.outstanding (settings : Settings) (bus : EventBus) {m : MasterData}
    (hnone : ∀ v ∈ m.verifications, v.status ≠ .pending) (cs : List Command) :
    Outstanding settings bus (Runs.trail (App.step settings bus) (World.initial m) cs)
      (App.after settings bus m cs) := by
  refine Runs.inv_trail (I := Outstanding settings bus) (fun past w c h => outstanding_step h c)
    ⟨?_, ?_⟩ cs
  · intro v hv hpending
    exact absurd hpending (hnone v hv)
  · intro x hx
    exact absurd hx List.not_mem_nil

/-! ## Confirmations -/

/-- The command uses up the record `v` and no other one: a record for this purpose and
phone, alive, whose code was sent in step `x`. -/
structure Redeems (settings : Settings) (bus : EventBus) (w : World) (c : Command)
    (purpose : PhoneVerificationPurpose) (phone code : String) (now : DateTime)
    (v : AuthPhoneVerification) (x : World × Command) : Prop where
  consumed : ∀ id, w.db.Consumes (App.step settings bus w c).db id ↔ id = v.id
  purpose : v.purpose = purpose
  phone : v.phone = phone
  alive : now < v.expiresAt
  sent : CodeSent settings x v code

/-- The tokens answered to a command are earned: the code submitted went out, in a step of
the past, to the phone it is submitted for; for a login the phone had the owner who gets the
tokens, for a signup it had none. -/
inductive Earned (settings : Settings) (bus : EventBus) (past : List (World × Command))
    (w : World) : AccountCommand → AuthTokenResponse → Prop where
  | login (payload : AuthLoginConfirmRequest) (now : Readings) (u owner : User)
      (v : AuthPhoneVerification) (x : World × Command) (mem : x ∈ past)
      (user : findUserByPhone w.db (normalizePhone payload.phone) = some u)
      (redeems : Redeems settings bus w (.account (.loginConfirm payload now)) .login
        (normalizePhone payload.phone) payload.code now.first v x)
      (sentTo : findUserByPhone x.1.db v.phone = some owner) (same : owner.id = u.id) :
      Earned settings bus past w (.loginConfirm payload now) (buildTokens settings u.id)
  | signup (payload : AuthPhoneConfirmRequest) (userId : UserId) (now : Readings)
      (v : AuthPhoneVerification) (x : World × Command) (mem : x ∈ past)
      (redeems : Redeems settings bus w (.account (.signupConfirm payload userId now)) .signup
        (normalizePhone payload.phone) payload.code now.first v x)
      (sentTo : findUserByPhone x.1.db v.phone = none) :
      Earned settings bus past w (.signupConfirm payload userId now) (buildTokens settings userId)

/-- A verified record is the one that is used up. -/
theorem consumes_iff {db db' : Db} {v : AuthPhoneVerification} (hv : v ∈ db.verifications)
    (hpending : v.status = .pending) {code : String} {now : DateTime}
    (hverdict : (examine settings v code now).verdict = .verified)
    (hrecords : db'.verifications =
      recordChange db.verifications (examine settings v code now).change) (id : ℕ) :
    db.Consumes db' id ↔ id = v.id := by
  obtain ⟨hlt, hhash⟩ := verdict_examine_eq_verified.1 hverdict
  have he : (examine settings v code now).change.dirty =
      { v with status := .verified, verifiedAt := some now } := by
    rcases examine_cases settings v code now with ⟨hle, -⟩ | ⟨-, hne, -⟩ | ⟨-, -, h⟩
    · exact absurd hlt (not_lt.2 hle)
    · exact absurd hhash hne
    · rw [h]
  constructor
  · rintro ⟨⟨v₀, hv₀, rfl, hpending₀⟩, v₁, hv₁, hid, hverified⟩
    rw [hrecords] at hv₁
    rcases (mem_recordChange hv).1 hv₁ with ⟨hmem, -⟩ | rfl
    · -- the other records have not changed
      obtain rfl : v₁ = v₀ := AutoTable.eq_of_key_eq hmem hv₀ hid
      rw [hpending₀] at hverified
      exact absurd hverified (by decide)
    · rw [← hid, he]
  · rintro rfl
    refine ⟨⟨v, hv, rfl, hpending⟩, (examine settings v code now).change.dirty, ?_, ?_, ?_⟩
    · rw [hrecords]
      exact (mem_recordChange hv).2 (Or.inr rfl)
    · rw [he]
    · rw [he]

variable (hhash : Function.Injective (hashVerificationCode settings))
include hhash

/-- **A verified record was sent to the phone, with the code submitted.** -/
theorem redeems_of_verified (h : Outstanding settings bus past w) {c : Command}
    {purpose : PhoneVerificationPurpose} {phone code : String} {now : DateTime}
    {v : AuthPhoneVerification} (hlatest : latestPending w.db.verifications purpose phone = some v)
    (hverdict : (examine settings v code now).verdict = .verified)
    (hrecords : (App.step settings bus w c).db.verifications =
      recordChange w.db.verifications (examine settings v code now).change) :
    ∃ x ∈ past, Redeems settings bus w c purpose phone code now v x ∧
      x.1.db.KeepsOwner w.db phone := by
  obtain ⟨hv, ⟨rfl, rfl, hpending⟩, -⟩ := latestPending_eq_some_iff.1 hlatest
  obtain ⟨hlt, hcode⟩ := verdict_examine_eq_verified.1 hverdict
  obtain ⟨x, hx, code', hstored, hsent, howner⟩ := h.sent v hv hpending
  obtain rfl : code' = code := hhash (hstored.symm.trans hcode)
  exact ⟨x, hx, ⟨consumes_iff hv hpending hverdict hrecords, rfl, rfl, hlt, hsent⟩, howner⟩

/-- **A login is earned**, unless the code is let through unverified. -/
theorem earned_login (hverified : ∀ code, isLoginTestCodeAllowed settings code = false)
    (h : Outstanding settings bus past w) {payload : AuthLoginConfirmRequest} {now : Readings}
    {response : AuthTokenResponse}
    (hanswer : (confirmLogin settings w.db payload now).2 = .ok response) :
    Earned settings bus past w (.loginConfirm payload now) response := by
  rcases confirmLogin_cases settings w.db payload now with
    ⟨failure, he⟩ | ⟨u, hu, ⟨htest, -⟩ | ⟨v, hlatest, ⟨failure, -, he⟩ | ⟨hverdict, he⟩⟩⟩
  · rw [he] at hanswer
    exact absurd hanswer (by simp)
  · rw [hverified] at htest
    exact absurd htest (by decide)
  · rw [he] at hanswer
    exact absurd hanswer (by simp)
  · obtain rfl : buildTokens settings u.id = response := by
      rw [he] at hanswer
      exact Except.ok.inj hanswer
    have hrecords :
        (App.step settings bus w (.account (.loginConfirm payload now))).db.verifications
        = recordChange w.db.verifications (examine settings v payload.code now.first).change :=
      (congrArg (fun x => x.1.verifications) he).trans rfl
    obtain ⟨x, hx, hredeems, howner⟩ := redeems_of_verified hhash h hlatest hverdict hrecords
    obtain ⟨sent, hsends, -⟩ := hredeems.sent
    rcases hsends.owner with ⟨hsignup, -⟩ | ⟨-, owner, hsentTo⟩
    · rw [hredeems.purpose] at hsignup
      exact absurd hsignup (by decide)
    · -- the phone has had the same owner since
      have hthen := hsentTo
      rw [hredeems.phone] at hthen
      obtain ⟨u', hu', hid⟩ := howner owner hthen
      obtain rfl : u' = u := Option.some.inj (hu'.symm.trans hu)
      exact .login payload now u' owner v x hx hu hredeems hsentTo hid.symm

/-- **A signup is earned.** -/
theorem earned_signup (h : Outstanding settings bus past w) {payload : AuthPhoneConfirmRequest}
    {userId : UserId} {now : Readings} {response : AuthTokenResponse}
    (hanswer : (confirmSignup settings w.db payload userId now).2 = .ok response) :
    Earned settings bus past w (.signupConfirm payload userId now) response := by
  rcases confirmSignup_cases settings w.db payload userId now with
    ⟨failure, he⟩ | ⟨v, hlatest, ⟨failure, -, he⟩ | ⟨hverdict, -, -, -, users, -, he⟩⟩
  · rw [he] at hanswer
    exact absurd hanswer (by simp)
  · rw [he] at hanswer
    exact absurd hanswer (by simp)
  · obtain rfl : buildTokens settings userId = response := by
      rw [he] at hanswer
      exact Except.ok.inj hanswer
    have hrecords :
        (App.step settings bus w (.account (.signupConfirm payload userId now))).db.verifications
        = recordChange w.db.verifications (examine settings v payload.code now.first).change :=
      (congrArg (fun x => x.1.verifications) he).trans rfl
    obtain ⟨x, hx, hredeems, -⟩ := redeems_of_verified hhash h hlatest hverdict hrecords
    obtain ⟨sent, hsends, -⟩ := hredeems.sent
    rcases hsends.owner with ⟨-, hsentTo⟩ | ⟨hlogin, -⟩
    · exact .signup payload userId now v x hx hredeems hsentTo
    · rw [hredeems.purpose] at hlogin
      exact absurd hlogin (by decide)

omit hhash

theorem answer_asUser {db : Db} {userId : UserId} {operation : User → Db × Except Failure Reply}
    {response : AuthTokenResponse} (h : ∀ user, (operation user).2 ≠ .ok (.tokens response)) :
    (asUser db userId operation).2 ≠ .ok (.tokens response) := by
  unfold asUser
  split
  · simp
  · exact h _

theorem answer_committed (db : Db) (x : Except Failure Db) (response : AuthTokenResponse) :
    (committed db x).2 ≠ .ok (.tokens response) := by
  cases x <;> simp [committed]

theorem answer_afterSend (db : Db) (x : Except Failure Sent) (response : AuthTokenResponse) :
    (afterSend db x).2 ≠ .ok (.tokens response) := by
  cases x <;> simp [afterSend]

include hhash

/-- **Only confirmations issue tokens, and these are earned.** -/
theorem earned_run (hverified : ∀ code, isLoginTestCodeAllowed settings code = false)
    (h : Outstanding settings bus past w) {c : AccountCommand} {response : AuthTokenResponse}
    (hanswer : (c.run settings w.db).2 = .ok (.tokens response)) :
    Earned settings bus past w c response := by
  cases c with
  | signupSend payload smsSender draw now => exact absurd hanswer (answer_afterSend _ _ _)
  | loginSend payload smsSender draw now => exact absurd hanswer (answer_afterSend _ _ _)
  | signupConfirm payload userId now =>
      obtain ⟨response', hresponse, he⟩ := map_eq_ok.1 hanswer
      obtain rfl : response' = response := Reply.tokens.inj he
      exact earned_signup hhash h hresponse
  | loginConfirm payload now =>
      obtain ⟨response', hresponse, he⟩ := map_eq_ok.1 hanswer
      obtain rfl : response' = response := Reply.tokens.inj he
      exact earned_login hhash hverified h hresponse
  | refreshToken payload =>
      obtain ⟨access, -, he⟩ := map_eq_ok.1 hanswer
      exact absurd he (by simp)
  | updateAlarm userId alarmEnabled =>
      exact absurd hanswer (answer_asUser fun user => answer_committed _ _ _)
  | updateName userId name =>
      exact absurd hanswer (answer_asUser fun user => answer_committed _ _ _)
  | updateFcmToken userId fcmToken =>
      exact absurd hanswer (answer_asUser fun user => answer_committed _ _ _)
  | saveAccount userId =>
      exact absurd hanswer (answer_asUser fun user => answer_committed _ _ _)
  | markRead userId ids utcnow =>
      exact absurd hanswer (answer_asUser fun user => answer_committed _ _ _)
  | sendNotification userId request result createdAt sentAt =>
      exact absurd hanswer (answer_asUser fun user => answer_committed _ _ _)
  | work job env => exact absurd hanswer (by simp [AccountCommand.run])
  | setOpenChatUrl offerId url => exact absurd hanswer (by simp [AccountCommand.run])

end Outstanding

/-! ## Whole runs -/

/-- In a run every token is earned, and no code is used twice. -/
structure App.TokensEarned (settings : Settings) (bus : EventBus) (m : MasterData)
    (cs : List Command) : Prop where
  earned : ∀ pre c suf response, cs = pre ++ .account c :: suf →
    (c.run settings (App.after settings bus m pre).db).2 = .ok (.tokens response) →
    Earned settings bus (Runs.trail (App.step settings bus) (World.initial m) pre)
      (App.after settings bus m pre) c response
  once : ∀ pre c mid c' suf, cs = pre ++ c :: mid ++ c' :: suf → ∀ id,
    (App.after settings bus m pre).db.Consumes (App.after settings bus m (pre ++ [c])).db id →
    ¬ (App.after settings bus m (pre ++ c :: mid)).db.Consumes
      (App.after settings bus m (pre ++ c :: mid ++ [c'])).db id

/-- **Tokens are only issued to the owner of the phone the code was sent for**, in every run
of the application that starts without a pending code, where no code is let through
unverified and different codes have different hashes. -/
theorem App.tokens_earned (settings : Settings) (bus : EventBus) (m : MasterData)
    (hverified : ∀ code, isLoginTestCodeAllowed settings code = false)
    (hhash : Function.Injective (hashVerificationCode settings))
    (hnone : ∀ v ∈ m.verifications, v.status ≠ .pending) (cs : List Command) :
    App.TokensEarned settings bus m cs where
  earned := by
    rintro pre c suf response - hanswer
    exact earned_run hhash hverified (App.outstanding settings bus hnone pre) hanswer
  once := by
    rintro pre c mid c' suf - id hfirst ⟨⟨v, hv, hid, hpending⟩, -⟩
    have h := App.outstanding settings bus hnone (pre ++ c :: mid)
    have hmem : (App.after settings bus m pre, c) ∈
        Runs.trail (App.step settings bus) (World.initial m) (pre ++ c :: mid) :=
      Runs.mem_trail.2 ⟨pre, mid, rfl, rfl⟩
    have hstep : App.after settings bus m (pre ++ [c]) =
        App.step settings bus (App.after settings bus m pre) c := Runs.run_concat _ _ _
    rw [hstep] at hfirst
    exact (h.spent _ hmem id hfirst).2 v hv hid hpending

/-- A newcomer signs up and logs in. -/
def Sample.newcomer : List Command := [
  .account (.signupSend ⟨"newcomer", "010-1234-5678", "carrier"⟩ true 7 ⟨1, 2, 3, 4⟩),
  .account (.signupConfirm ⟨"010-1234-5678", "000007"⟩ "newcomer" ⟨5, 6, 7, 8⟩),
  .account (.loginSend ⟨"010-1234-5678"⟩ true 8 ⟨9, 10, 11, 12⟩),
  .account (.loginConfirm ⟨"010-1234-5678", "000008", none⟩ ⟨13, 14, 15, 16⟩)]

theorem Sample.verified_production (code : String) :
    isLoginTestCodeAllowed .sample code = false :=
  isLoginTestCodeAllowed_eq_false (by decide +kernel) code

/-- The newcomer's login is earned. -/
theorem App.tokens_earned_newcomer :
    Earned .sample Sample.bus
      (Runs.trail (App.step .sample Sample.bus) (World.initial Sample.master)
        (Sample.newcomer.take 3))
      (App.after .sample Sample.bus Sample.master (Sample.newcomer.take 3))
      (.loginConfirm ⟨"010-1234-5678", "000008", none⟩ ⟨13, 14, 15, 16⟩)
      (buildTokens .sample "newcomer") := by
  have h := App.tokens_earned .sample Sample.bus Sample.master Sample.verified_production
    (hashVerificationCode_injective Function.injective_id)
    (fun _ hv => absurd hv List.not_mem_nil) Sample.newcomer
  exact h.earned (Sample.newcomer.take 3) _ [] _ rfl (by decide +kernel)

end OrderRun
