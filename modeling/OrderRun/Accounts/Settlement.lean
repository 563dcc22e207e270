import OrderRun.Accounts.Profile
import OrderRun.Accounts.SmsAddress
import OrderRun.Lib.Upsert

/-!
# Settlement accounts

`schemas/settlement.py`, `models/settlement.py` and `settlement_service.py`, with all columns
of a row: where the money of a runner goes.  Saving is a read step, which looks for the
user's row, and a commit step, which inserts one or writes the columns that have changed.

* `SettlementAccountRequest`, `ofBody` — what the validators let through.
* `maskAccountNumber`, `mask_eq_iff` — the mask shows how long a number is and its last four
  digits, and nothing else.
* `settlementForm` — how a request fills a row; the steps are those of `Upsert`.
* `accounts_authored` — in every interleaving a user has one account at most, and every column
  of it is hers.
* `masks_agree_iff` — when the mask belongs to the number.
* `accounts_serial` — if the saves of a user do not overlap, her account is the last one.
* `getAccount_authored`, `getAccount_eq_book` — what a user is shown of it.
* `saveAccount_refines` — the accounts of the application are these, without the details.
-/

namespace OrderRun

open Store Split Upsert

/-! ## Validation -/

/-- The zeros of the decimal digits of Unicode; the digits follow them. -/
def decimalZeros : List ℕ := [
  0x30, 0x660, 0x6f0, 0x7c0, 0x966, 0x9e6, 0xa66, 0xae6, 0xb66, 0xbe6, 0xc66, 0xce6, 0xd66,
  0xde6, 0xe50, 0xed0, 0xf20, 0x1040, 0x1090, 0x17e0, 0x1810, 0x1946, 0x19d0, 0x1a80, 0x1a90,
  0x1b50, 0x1bb0, 0x1c40, 0x1c50, 0xa620, 0xa8d0, 0xa900, 0xa9d0, 0xa9f0, 0xaa50, 0xabf0, 0xff10,
  0x104a0, 0x10d30, 0x11066, 0x110f0, 0x11136, 0x111d0, 0x112f0, 0x11450, 0x114d0, 0x11650,
  0x116c0, 0x11730, 0x118e0, 0x11950, 0x11c50, 0x11d50, 0x11da0, 0x11f50, 0x16a60, 0x16ac0,
  0x16b50, 0x1d7ce, 0x1d7d8, 0x1d7e2, 0x1d7ec, 0x1d7f6, 0x1e140, 0x1e2f0, 0x1e4f0, 0x1e950,
  0x1fbf0]

/-- `\d` in a regular expression. -/
def isDecimal (c : Char) : Bool := decimalZeros.any fun z => z ≤ c.toNat && c.toNat < z + 10

def SUPPORTED_BANK_NAMES : List String := [
  "국민은행", "신한은행", "우리은행", "하나은행", "농협은행", "기업은행", "카카오뱅크", "토스뱅크",
  "케이뱅크", "SC제일은행", "한국씨티은행", "산업은행", "수협은행", "대구은행", "부산은행", "광주은행",
  "제주은행", "전북은행", "경남은행", "새마을금고", "신협", "우체국"]

/-- `re.fullmatch(r"\d{6,30}", …)`. -/
def IsAccountNumber (s : String) : Prop :=
  6 ≤ s.length ∧ s.length ≤ 30 ∧ s.toList.all isDecimal = true

instance : DecidablePred IsAccountNumber := fun s =>
  inferInstanceAs (Decidable (6 ≤ s.length ∧ s.length ≤ 30 ∧ s.toList.all isDecimal = true))

/-- Somebody's name, without whitespace around it. -/
structure IsHolder (s : String) : Prop where
  ne_empty : s ≠ ""
  stripped : strip s = s
  length_le : s.length ≤ 100

/-- The body of a request. -/
structure SettlementAccountBody where
  bankName : String
  accountNumber : String
  accountHolder : String
  deriving DecidableEq, Repr

/-- A request that has been validated. -/
structure SettlementAccountRequest where
  bankName : { s : String // s ∈ SUPPORTED_BANK_NAMES }
  accountNumber : { s : String // IsAccountNumber s }
  accountHolder : { s : String // IsHolder s }
  deriving DecidableEq

namespace SettlementAccountRequest

/-- `Field(max_length=…)`. -/
def maxLength (n : ℕ) (value : String) : Except String { s : String // s.length ≤ n } :=
  if h : value.length ≤ n then .ok ⟨value, h⟩
  else .error ("String should have at most " ++ toString n ++ " characters")

def validateAccountNumber (value : String) : Except String { s : String // IsAccountNumber s } :=
  if h : IsAccountNumber (strip value) then .ok ⟨strip value, h⟩
  else .error "accountNumber must be 6 to 30 digits"

def validateBankName (value : String) :
    Except String { s : String // s ∈ SUPPORTED_BANK_NAMES } :=
  if strip value = "" then .error "must not be blank"
  else if h : strip value ∈ SUPPORTED_BANK_NAMES then .ok ⟨strip value, h⟩
  else .error "unsupported bankName"

def validateAccountHolder (value : { s : String // s.length ≤ 100 }) :
    Except String { s : String // IsHolder s } :=
  if h : strip value.1 = "" then .error "must not be blank"
  else .ok ⟨strip value.1, h, strip_strip value.1, (length_strip_le value.1).trans value.2⟩

/-- The first error, with the field it is about. -/
def inField {α : Type} (field : String) : Except String α → Except (String × String) α
  | .ok a => .ok a
  | .error message => .error (field, message)

/-- The validated request, or the first field that is not accepted. -/
def ofBody (body : SettlementAccountBody) : Except (String × String) SettlementAccountRequest := do
  let bankName ← inField "bankName" (maxLength 50 body.bankName >>= (validateBankName ·.1))
  let accountNumber ← inField "accountNumber" (validateAccountNumber body.accountNumber)
  let accountHolder ← inField "accountHolder"
    (maxLength 100 body.accountHolder >>= validateAccountHolder)
  return ⟨bankName, accountNumber, accountHolder⟩

/-- The body that carries the values of a request. -/
def toBody (q : SettlementAccountRequest) : SettlementAccountBody :=
  ⟨q.bankName, q.accountNumber, q.accountHolder⟩

/-- A digit is not whitespace. -/
theorem isSpace_of_isDecimal {c : Char} (h : isDecimal c = true) : isSpace c = false := by
  obtain ⟨z, hz, hc⟩ := List.any_eq_true.1 h
  have hbounds : z ≤ c.toNat ∧ c.toNat < z + 10 := by simpa using hc
  have hclear : ∀ z ∈ decimalZeros, ∀ w ∈ whitespace, w < z ∨ z + 10 ≤ w := by decide +kernel
  refine decide_eq_false fun hspace => ?_
  rcases hclear z hz _ hspace with hlt | hge <;> omega

theorem strip_of_isAccountNumber {s : String} (h : IsAccountNumber s) : strip s = s := by
  have hall : ∀ c ∈ s.toList, isSpace c = false := fun c hc =>
    isSpace_of_isDecimal (List.all_eq_true.1 h.2.2 c hc)
  rw [← String.toList_inj, toList_strip, Trim.trim_eq_self_iff]
  exact ⟨fun c hc => hall c (List.mem_of_head? hc), fun c hc => hall c (List.mem_of_getLast? hc)⟩

theorem maxLength_eq {n : ℕ} {s : String} (h : s.length ≤ n) : maxLength n s = pure ⟨s, h⟩ :=
  dif_pos h

/-- **What has been validated is accepted again, as it is.** -/
theorem ofBody_toBody (q : SettlementAccountRequest) : ofBody q.toBody = .ok q := by
  obtain ⟨⟨bank, hbank⟩, ⟨number, hnumber⟩, ⟨holder, hholder⟩⟩ := q
  have hbanks : ∀ s ∈ SUPPORTED_BANK_NAMES, s.length ≤ 50 ∧ strip s = s ∧ s ≠ "" := by
    decide +kernel
  obtain ⟨hlength, hstrip, hne⟩ := hbanks bank hbank
  have hbank' : maxLength 50 bank >>= (validateBankName ·.1) = .ok ⟨bank, hbank⟩ := by
    rw [maxLength_eq hlength, pure_bind]
    simp only [validateBankName, hstrip, if_neg hne, dif_pos hbank]
  have hnumber' : validateAccountNumber number = .ok ⟨number, hnumber⟩ := by
    simp only [validateAccountNumber, strip_of_isAccountNumber hnumber, dif_pos hnumber]
  have hholder' : maxLength 100 holder >>= validateAccountHolder = .ok ⟨holder, hholder⟩ := by
    rw [maxLength_eq hholder.length_le, pure_bind]
    simp only [validateAccountHolder, hholder.stripped, dif_neg hholder.ne_empty]
  simp only [ofBody, toBody, hbank', hnumber', hholder']
  rfl

end SettlementAccountRequest

/-! ## The mask -/

namespace SettlementService

def maskAccountNumber (accountNumber : String) : String :=
  if accountNumber.length ≤ 4 then String.ofList (List.replicate accountNumber.length '*')
  else String.ofList (List.replicate (accountNumber.length - 4) '*' ++
    accountNumber.toList.drop (accountNumber.length - 4))

example : maskAccountNumber "110123456789" = "********6789" := by decide +kernel

theorem length_maskAccountNumber (s : String) : (maskAccountNumber s).length = s.length := by
  unfold maskAccountNumber
  split
  · rw [← String.length_toList, String.toList_ofList, List.length_replicate]
  · rw [← String.length_toList, String.toList_ofList, List.length_append, List.length_replicate,
      List.length_drop, String.length_toList]
    omega

/-- **What the mask shows**: how long the number is, and its last four digits. -/
theorem mask_eq_iff {a b : String} (ha : 4 < a.length) :
    maskAccountNumber a = maskAccountNumber b ↔ a.length = b.length ∧
      a.toList.drop (a.length - 4) = b.toList.drop (b.length - 4) := by
  constructor
  · intro h
    have hlength : a.length = b.length := by
      rw [← length_maskAccountNumber a, h, length_maskAccountNumber]
    unfold maskAccountNumber at h
    rw [if_neg (by omega), if_neg (by omega), ← String.toList_inj, String.toList_ofList,
      String.toList_ofList, hlength] at h
    refine ⟨hlength, ?_⟩
    rw [hlength]
    exact List.append_cancel_left h
  · rintro ⟨hlength, hlast⟩
    unfold maskAccountNumber
    rw [if_neg (by omega), if_neg (by omega), hlast, hlength]

end SettlementService

/-! ## Rows -/

/-- A row of `settlement_accounts`, with all its columns. -/
structure SettlementAccountRow where
  id : ℕ
  userId : UserId
  bankName : String
  accountHolder : String
  encryptedAccountNumber : String
  maskedAccountNumber : String
  createdAt : DateTime
  updatedAt : DateTime
  deriving DecidableEq, Repr

namespace SettlementAccountRow

instance : Keyed SettlementAccountRow ℕ := ⟨SettlementAccountRow.id⟩

/-- What `save_account` assigns. -/
def assign (q : SettlementAccountRequest) (r : SettlementAccountRow) : SettlementAccountRow :=
  { r with
    bankName := q.bankName
    accountHolder := q.accountHolder
    encryptedAccountNumber := q.accountNumber
    maskedAccountNumber := SettlementService.maskAccountNumber q.accountNumber }

/-- The row after a flush of `dirty`, which was loaded as `loaded`. -/
def flush (loaded dirty : SettlementAccountRow) (utcnow : DateTime) (row : SettlementAccountRow) :
    SettlementAccountRow :=
  { row with
    bankName := col loaded.bankName dirty.bankName row.bankName
    accountHolder := col loaded.accountHolder dirty.accountHolder row.accountHolder
    encryptedAccountNumber :=
      col loaded.encryptedAccountNumber dirty.encryptedAccountNumber row.encryptedAccountNumber
    maskedAccountNumber :=
      col loaded.maskedAccountNumber dirty.maskedAccountNumber row.maskedAccountNumber
    updatedAt := utcnow }

end SettlementAccountRow

/-- How requests fill the table; an account goes with its user. -/
def settlementForm : Form UserId SettlementAccountRequest DateTime SettlementAccountRow where
  owner := SettlementAccountRow.userId
  create userId q := SettlementAccountRow.assign q ⟨0, userId, "", "", "", "", 0, 0⟩
  assign := SettlementAccountRow.assign
  stamp utcnow k r := { r with id := k, createdAt := utcnow, updatedAt := utcnow }
  flush := SettlementAccountRow.flush
  purges := true
  owner_create := fun _ _ => rfl
  owner_stamp := fun _ _ _ => rfl
  key_stamp := fun _ _ _ => rfl
  owner_flush := fun _ _ _ _ => rfl
  key_flush := fun _ _ _ _ => rfl

/-- The table of accounts, and the users who are there. -/
abbrev SettlementRegister := Register UserId SettlementAccountRow

abbrev SettlementCall := Upsert.Call UserId SettlementAccountRequest DateTime

/-- What a user is shown of her account. -/
structure SettlementAccountResponse where
  bankName : String
  accountHolder : String
  maskedAccountNumber : String
  updatedAt : DateTime
  deriving DecidableEq, Repr

namespace SettlementService

def toResponse (account : SettlementAccountRow) : SettlementAccountResponse :=
  ⟨account.bankName, account.accountHolder, account.maskedAccountNumber, account.updatedAt⟩

def getAccount (d : SettlementRegister) (userId : UserId) : Option SettlementAccountResponse :=
  (settlementForm.lookup d userId).map toResponse

end SettlementService

/-! ## Overlapping saves -/

/-- The table before the first save. -/
def SettlementRegister.initial (users : List UserId) : SettlementRegister :=
  ⟨AutoTable.empty, users⟩

/-- The user makes this request in the course of the events. -/
def Asked (es : List (Event SettlementCall)) (userId : UserId) (q : SettlementAccountRequest) :
    Prop :=
  ∃ tid utcnow, Event.read tid (.save userId q utcnow) ∈ es

/-- Every column comes from a request of the user, though not all from the same one. -/
structure SettlementAccountRow.Authored (A : UserId → SettlementAccountRequest → Prop)
    (r : SettlementAccountRow) : Prop where
  bankName : ∃ q, A r.userId q ∧ r.bankName = q.bankName
  accountHolder : ∃ q, A r.userId q ∧ r.accountHolder = q.accountHolder
  accountNumber : ∃ q, A r.userId q ∧ r.encryptedAccountNumber = q.accountNumber
  mask : ∃ q, A r.userId q ∧
    r.maskedAccountNumber = SettlementService.maskAccountNumber q.accountNumber

theorem kept_authored (A : UserId → SettlementAccountRequest → Prop) :
    settlementForm.Kept A (SettlementAccountRow.Authored A) where
  create := fun {_ q} hA _ _ => ⟨⟨q, hA, rfl⟩, ⟨q, hA, rfl⟩, ⟨q, hA, rfl⟩, ⟨q, hA, rfl⟩⟩
  flush := by
    intro l q r hA _ hr howner t
    have hsame : l.userId = r.userId := howner
    have hown : A r.userId q := hsame ▸ hA
    have hmixed : ∀ {column : SettlementAccountRow → String}
        {f : SettlementAccountRequest → String}, (∃ q, A r.userId q ∧ column r = f q) →
          ∃ q', A r.userId q' ∧ col (column l) (f q) (column r) = f q' := by
      intro column f hcol
      rcases col_cases (column l) (f q) (column r) with he | he <;> rw [he]
      · exact hcol
      · exact ⟨q, hown, rfl⟩
    exact ⟨hmixed (f := (·.bankName)) hr.bankName, hmixed (f := (·.accountHolder)) hr.accountHolder,
      hmixed (f := (·.accountNumber)) hr.accountNumber,
      hmixed (f := fun q => SettlementService.maskAccountNumber q.accountNumber) hr.mask⟩

theorem distinct_initial {P : SettlementAccountRow → Prop} (users : List UserId) :
    settlementForm.Distinct (SettlementRegister.initial users) ∧
      ∀ r ∈ (SettlementRegister.initial users).rows, P r :=
  ⟨fun _ hr => absurd hr List.not_mem_nil, fun _ hr => absurd hr List.not_mem_nil⟩

/-- **A user has one account, and it is hers**: in every interleaving of saves and withdrawals
no user has two accounts, and every column of an account comes from a validated request of its
user. -/
theorem accounts_authored (users : List UserId) (es : List (Event SettlementCall)) :
    Runs.Always settlementForm.service.step
      (fun s => settlementForm.Distinct s.now ∧ ∀ r ∈ s.now.rows, r.Authored (Asked es))
      (State.quiet (SettlementRegister.initial users)) es := by
  obtain ⟨hdistinct, hgoods⟩ := distinct_initial users
  refine Form.kept_always (kept_authored (Asked es)) hdistinct hgoods ?_
  rintro (⟨tid, (⟨userId, q, utcnow⟩ | userId)⟩ | tid) he
  · exact ⟨tid, utcnow, he⟩
  · trivial
  · trivial

/-- **What a user is shown comes from her own requests**, and of the number only what the mask
shows. -/
theorem getAccount_authored {A : UserId → SettlementAccountRequest → Prop} {d : SettlementRegister}
    (h : ∀ r ∈ d.rows, r.Authored A) {userId : UserId} {response : SettlementAccountResponse}
    (hget : SettlementService.getAccount d userId = some response) :
    (∃ q, A userId q ∧ response.bankName = q.bankName) ∧
    (∃ q, A userId q ∧ response.accountHolder = q.accountHolder) ∧
    ∃ q, A userId q ∧
      response.maskedAccountNumber = SettlementService.maskAccountNumber q.accountNumber := by
  obtain ⟨r, hr, rfl⟩ := Option.map_eq_some_iff.1 hget
  obtain ⟨hmem, rfl⟩ := Form.lookup_eq_some hr
  obtain ⟨hbank, hholder, -, hmask⟩ := h r hmem
  exact ⟨hbank, hholder, hmask⟩

/-! ## When the mask belongs to the number -/

/-- Every account shows the mask of its number. -/
def MasksAgree (d : SettlementRegister) : Prop :=
  ∀ r ∈ d.rows,
    r.maskedAccountNumber = SettlementService.maskAccountNumber r.encryptedAccountNumber

/-- An update writes the number and the mask, or neither of them; or the account happens to
show the mask of the new number. -/
def MaskWritten (d : SettlementRegister) (_ : SettlementCall) :
    Work UserId DateTime SettlementAccountRow → Prop
  | .update _ c => ∀ r ∈ d.rows, r.id = c.loaded.id →
      (c.dirty.encryptedAccountNumber = c.loaded.encryptedAccountNumber ↔
        c.dirty.maskedAccountNumber = c.loaded.maskedAccountNumber) ∨
      r.maskedAccountNumber = c.dirty.maskedAccountNumber
  | _ => True

/-- One row after an update. -/
theorem mask_flush_iff {l r : SettlementAccountRow} (q : SettlementAccountRequest)
    (utcnow : DateTime)
    (hr : r.maskedAccountNumber = SettlementService.maskAccountNumber r.encryptedAccountNumber) :
    (SettlementAccountRow.flush l (l.assign q) utcnow r).maskedAccountNumber =
        SettlementService.maskAccountNumber
          (SettlementAccountRow.flush l (l.assign q) utcnow r).encryptedAccountNumber ↔
      ((l.assign q).encryptedAccountNumber = l.encryptedAccountNumber ↔
        (l.assign q).maskedAccountNumber = l.maskedAccountNumber) ∨
      r.maskedAccountNumber = (l.assign q).maskedAccountNumber := by
  have hq : (l.assign q).maskedAccountNumber =
    SettlementService.maskAccountNumber (l.assign q).encryptedAccountNumber := rfl
  simp only [SettlementAccountRow.flush]
  by_cases hnumber : (l.assign q).encryptedAccountNumber = l.encryptedAccountNumber
  · rw [hnumber, col_unchanged]
    by_cases hmask : (l.assign q).maskedAccountNumber = l.maskedAccountNumber
    · rw [hmask, col_unchanged]
      exact iff_of_true hr (Or.inl (iff_of_true rfl rfl))
    · rw [col_of_ne hmask, ← hr]
      simp [hmask, eq_comm]
  · rw [col_of_ne hnumber, ← hq]
    by_cases hmask : (l.assign q).maskedAccountNumber = l.maskedAccountNumber
    · rw [hmask, col_unchanged]
      simp [hnumber]
    · rw [col_of_ne hmask]
      exact iff_of_true rfl (Or.inl (iff_of_false hnumber hmask))

theorem masksAgree_initial (users : List UserId) : MasksAgree (SettlementRegister.initial users) :=
  fun _ hr => absurd hr List.not_mem_nil

/-- **When the masks agree.**  In an interleaving every account always shows the mask of its
number precisely if no update writes only one of the two onto an account that shows another
mask. -/
theorem masks_agree_iff (users : List UserId) (es : List (Event SettlementCall)) :
    Runs.Always settlementForm.service.step (fun s => MasksAgree s.now)
        (State.quiet (SettlementRegister.initial users)) es ↔
      Runs.Along settlementForm.service.step (settlementForm.service.Commits MaskWritten)
        (State.quiet (SettlementRegister.initial users)) es := by
  refine Service.always_iff_commits (Form.sound (kept_authored fun _ _ => True))
    (P := MasksAgree) ?_
    (distinct_initial users) (masksAgree_initial users) ?_
  · intro d₀ d d' c work hA _ hread _ _ hagree hcommit
    obtain ⟨-, rfl⟩ := Form.read_eq_ok.1 hread
    cases c with
    | leave userId =>
        obtain rfl := Except.ok.inj hcommit
        exact iff_of_true (fun r hr => hagree r (Form.mem_without.1 hr).1) trivial
    | save userId q utcnow =>
        cases hl : settlementForm.lookup d₀ userId with
        | none =>
            rw [Form.prepare_of_none hl] at hcommit ⊢
            obtain ⟨-, rfl⟩ := Form.commit_insert_eq_ok.1 hcommit
            refine iff_of_true (fun r hr => ?_) trivial
            rcases AutoTable.mem_insert.1 hr with hr | rfl
            · exact hagree r hr
            · rfl
        | some l =>
            rw [Form.prepare_of_some hl] at hcommit ⊢
            rcases Form.commit_update_eq_ok.1 hcommit with ⟨hsame, rfl⟩ | ⟨-, -, rfl⟩
            · refine iff_of_true hagree fun r _ _ => Or.inl ?_
              rw [hsame]
              exact iff_of_true rfl rfl
            · constructor
              · intro h r hr hid
                have hrow := h _ (AutoTable.mem_map.2 ⟨r, hr, rfl⟩)
                rw [Form.row_of_key _ hid] at hrow
                exact (mask_flush_iff q utcnow (hagree r hr)).1 hrow
              · intro h r' hr'
                obtain ⟨r, hr, rfl⟩ := AutoTable.mem_map.1 hr'
                unfold Form.row
                split
                · next hid => exact (mask_flush_iff q utcnow (hagree r hr)).2 (h r hr hid)
                · exact hagree r hr
  · rintro (⟨tid, (⟨userId, q, utcnow⟩ | userId)⟩ | tid) - <;> trivial

namespace Sample

/-- A request for an account at the first of the banks. -/
def kookmin (number : String) (h : IsAccountNumber number) : SettlementAccountRequest where
  bankName := ⟨"국민은행", by decide⟩
  accountNumber := ⟨number, h⟩
  accountHolder := ⟨"holder", by decide, by decide +kernel, by decide⟩

/-- A number is corrected in its first half, and replaced, at the same time. -/
def correctedAndReplaced : List (Event SettlementCall) := [
  .read 1 (.save "runner" (kookmin "110123456789" (by decide +kernel)) 10),
  .commit 1,
  .read 1 (.save "runner" (kookmin "111123456789" (by decide +kernel)) 20),
  .read 2 (.save "runner" (kookmin "220123450000" (by decide +kernel)) 21),
  .commit 2,
  .commit 1]

/-- The number is the corrected one, the mask that of the other. -/
example : (settlementForm.lookup (Runs.run settlementForm.service.step
      (State.quiet (SettlementRegister.initial ["runner"])) correctedAndReplaced).now "runner").map
        (fun r => (r.encryptedAccountNumber, r.maskedAccountNumber)) =
    some ("111123456789", "********0000") := by decide +kernel

end Sample

/-! ## Saves that do not overlap -/

/-- The columns a user can set, and the mask. -/
def SettlementAccountRow.columns (r : SettlementAccountRow) : String × String × String × String :=
  (r.bankName, r.accountHolder, r.encryptedAccountNumber, r.maskedAccountNumber)

/-- What a request asks for. -/
def SettlementAccountRequest.columns (q : SettlementAccountRequest) :
    String × String × String × String :=
  (q.bankName, q.accountHolder, q.accountNumber,
    SettlementService.maskAccountNumber q.accountNumber)

theorem shows_columns :
    settlementForm.Shows SettlementAccountRow.columns SettlementAccountRequest.columns where
  create := fun _ _ _ _ => rfl
  assign := fun _ _ => rfl
  flush := by
    intro q r t
    simp only [settlementForm, SettlementAccountRow.flush, SettlementAccountRow.columns,
      col_untouched]
    rfl

/-- A user is shown what the book has, without the number. -/
theorem getAccount_eq_book (d : SettlementRegister) (userId : UserId) :
    (SettlementService.getAccount d userId).map
        (fun a => (a.bankName, a.accountHolder, a.maskedAccountNumber)) =
      ((settlementForm.book SettlementAccountRow.columns d).entries userId).map
        fun c => (c.1, c.2.1, c.2.2.2) := by
  simp only [SettlementService.getAccount, Form.book, Option.map_map]
  rfl

/-- **A user sees the account she has saved last**, if her calls do not overlap: whatever the
other users do meanwhile, the accounts are those of the committed calls, one at a time. -/
theorem accounts_serial (users : List UserId) {es : List (Event SettlementCall)}
    (h : Runs.Along settlementForm.service.step (Service.Alone Form.Conflicts)
      (State.quiet (SettlementRegister.initial users)) es) :
    settlementForm.book SettlementAccountRow.columns
        (Runs.run settlementForm.service.step
          (State.quiet (SettlementRegister.initial users)) es).now =
      (settlementForm.service.committing (State.quiet (SettlementRegister.initial users)) es).foldl
        (Book.step true SettlementAccountRequest.columns) ⟨fun _ => none, users⟩ :=
  Form.book_serial shows_columns h

namespace Sample

/-- Two runners save their accounts at the same time; then one of them changes hers. -/
def twoAccounts : List (Event SettlementCall) := [
  .read 1 (.save "runner" (kookmin "110123456789" (by decide +kernel)) 10),
  .read 2 (.save "rival" (kookmin "220123450000" (by decide +kernel)) 11),
  .commit 2,
  .commit 1,
  .read 1 (.save "runner" (kookmin "330123456789" (by decide +kernel)) 20),
  .commit 1]

/-- Whose calls a transaction makes. -/
def ownAccount (tid : ℕ) (c : SettlementCall) : Prop :=
  (tid = 1 ∧ c.owner = "runner") ∨ (tid = 2 ∧ c.owner = "rival")

theorem apart_ownAccount :
    Service.Apart (Form.Conflicts : SettlementRegister → SettlementCall → _) ownAccount := by
  rintro tid tid' c c' d hne (⟨rfl, hc⟩ | ⟨rfl, hc⟩) (⟨rfl, hc'⟩ | ⟨rfl, hc'⟩) hsame
  · exact hne rfl
  · exact absurd (hc.symm.trans (Eq.trans hsame hc')) (by decide)
  · exact absurd (hc.symm.trans (Eq.trans hsame hc')) (by decide)
  · exact hne rfl

theorem alone_twoAccounts : Runs.Along settlementForm.service.step
    (Service.Alone Form.Conflicts) (State.quiet (SettlementRegister.initial ["runner", "rival"]))
    twoAccounts := by
  refine Service.along_alone apart_ownAccount (fun tid c work hp => absurd hp (by simp)) ?_
  intro tid c hc
  simp only [twoAccounts, List.mem_cons, Event.read.injEq, List.not_mem_nil, reduceCtorEq,
    false_or, or_false] at hc
  rcases hc with ⟨rfl, rfl⟩ | ⟨rfl, rfl⟩ | ⟨rfl, rfl⟩
  · exact Or.inl ⟨rfl, rfl⟩
  · exact Or.inr ⟨rfl, rfl⟩
  · exact Or.inl ⟨rfl, rfl⟩

end Sample

theorem accounts_serial_twoAccounts :
    settlementForm.book SettlementAccountRow.columns
        (Runs.run settlementForm.service.step
          (State.quiet (SettlementRegister.initial ["runner", "rival"])) Sample.twoAccounts).now =
      (settlementForm.service.committing
        (State.quiet (SettlementRegister.initial ["runner", "rival"])) Sample.twoAccounts).foldl
        (Book.step true SettlementAccountRequest.columns)
        ⟨fun _ => none, ["runner", "rival"]⟩ :=
  accounts_serial ["runner", "rival"] Sample.alone_twoAccounts

/-! ## The accounts of the application -/

/-- What the rest of the application knows of an account. -/
def SettlementAccountRow.forget (r : SettlementAccountRow) : SettlementAccount := ⟨r.id, r.userId⟩

/-- The table of the application is this one, without the details. -/
structure Forgets (full : AutoTable SettlementAccountRow) (t : AutoTable SettlementAccount) :
    Prop where
  rows : t.rows = full.rows.map SettlementAccountRow.forget
  next : t.next = full.next

section Forgets

variable {d : SettlementRegister} {db : Db} {userId : UserId}

/-- Both find an account, or neither does. -/
theorem Forgets.find? (h : Forgets d.rows db.settlementAccounts) (userId : UserId) :
    db.settlementAccounts.rows.find? (fun a => a.userId = userId) =
      (settlementForm.lookup d userId).map SettlementAccountRow.forget := by
  rw [h.rows, List.find?_map]
  rfl

/-- **`save_account` of the application** is this one. -/
theorem saveAccount_refines (h : Forgets d.rows db.settlementAccounts) (hactive : userId ∈ d.active)
    (q : SettlementAccountRequest) (utcnow : DateTime) :
    Forgets (settlementForm.service.call d (.save userId q utcnow)).rows
      (SettlementService.saveAccount db userId).settlementAccounts := by
  have hread := Form.read_eq_ok.2 (⟨hactive, rfl⟩ : (Upsert.Call.save userId q utcnow).owner ∈
    d.active ∧ settlementForm.prepare d (.save userId q utcnow) = _)
  have hfind := h.find? userId
  unfold SettlementService.saveAccount
  cases hl : settlementForm.lookup d userId with
  | none =>
      rw [Form.prepare_of_none hl] at hread
      rw [hl] at hfind
      rw [hfind, Service.call_eq hread (Form.commit_insert_eq_ok.2
        ⟨fun x hx => Form.lookup_eq_none_iff.1 hl x hx, rfl⟩)]
      refine ⟨?_, congrArg (· + 1) h.next⟩
      show db.settlementAccounts.rows ++ _ = List.map _ (d.rows.rows ++ _)
      rw [List.map_append, h.rows, h.next]
      rfl
  | some r =>
      rw [Form.prepare_of_some hl] at hread
      rw [hl] at hfind
      rw [hfind]
      by_cases hsame : settlementForm.assign q r = r
      · rw [Service.call_eq hread (Form.commit_update_eq_ok.2 (Or.inl ⟨hsame, rfl⟩))]
        exact h
      · rw [Service.call_eq hread (Form.commit_update_eq_ok.2
          (Or.inr ⟨hsame, ⟨r, (Form.lookup_eq_some hl).1, rfl⟩, rfl⟩))]
        refine ⟨h.rows.trans ?_, h.next⟩
        show _ = List.map _ (List.map _ d.rows.rows)
        rw [List.map_map]
        refine List.map_congr_left fun x _ => ?_
        have hid := settlementForm.key_row utcnow ⟨r, settlementForm.assign q r⟩ x
        have howner := settlementForm.owner_row utcnow ⟨r, settlementForm.assign q r⟩ x
        exact (congrArg₂ SettlementAccount.mk hid howner).symm

/-- **A withdrawal** takes the account along, in both. -/
theorem leave_refines (h : Forgets d.rows db.settlementAccounts) (hactive : userId ∈ d.active)
    {u : UnitOfWork} {phone : Option String} (hu : u.purge = some ⟨userId, phone⟩)
    (utcnow : DateTime) :
    Forgets (settlementForm.service.call d (.leave userId)).rows
      (u.write utcnow db).settlementAccounts := by
  have hread := Form.read_eq_ok.2 (⟨hactive, rfl⟩ :
    (Upsert.Call.leave userId : SettlementCall).owner ∈ d.active ∧
      settlementForm.prepare d (.leave userId) = _)
  rw [Service.call_eq hread rfl]
  have hkeep : (u.write utcnow db).settlementAccounts =
      db.settlementAccounts.filter fun a => ! decide (a.userId = userId) := by
    simp only [UnitOfWork.write, UnitOfWork.keep, hu]
  rw [hkeep]
  refine ⟨?_, h.next⟩
  show List.filter _ db.settlementAccounts.rows = List.map _ (List.filter _ d.rows.rows)
  rw [h.rows, List.filter_map]
  refine congrArg (List.map _) (List.filter_congr fun r _ => ?_)
  show (! decide (r.userId = userId)) = decide (r.userId ≠ userId)
  rw [decide_not]

end Forgets

end OrderRun
