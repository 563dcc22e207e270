import OrderRun.Core.Phone
import OrderRun.Lib.Trim

/-!
# Where the messages go

Accounts and verifications are looked up by their normalised phone number, and the message goes
to the address that `AwsSnsSmsSender` makes of it (`app/services/sms_service.py`).

* `PhoneField` — what the validators of `app/schemas/user.py` let through.
* `toE164Kr` — the address of a stored number.
* `Tidy` — deleting blanks and hyphens does not expose another white space at an end.
* `normalizePhone_normalizePhone_iff`, `phones_canonical_iff` — for these numbers, and for no
  others, the stored form is canonical.
-/

namespace OrderRun

open Trim

/-! ## Fields and addresses -/

/-- A phone number as the validators let it through. -/
@[ext] structure PhoneField where
  value : String
  ne_empty : value ≠ ""
  length_le : value.length ≤ 20
  stripped : strip value = value

namespace AwsSnsSmsSender

def toE164Kr (phone : String) : String :=
  let normalized := normalizePhone phone
  match normalized.toList with
  | '+' :: _ => normalized
  | '0' :: rest => "+82" ++ String.ofList rest
  | _ => normalized

end AwsSnsSmsSender

theorem toList_strip (s : String) : (strip s).toList = trim isSpace s.toList := by
  unfold strip trim List.rdropWhile
  rw [String.toList_ofList]

theorem length_strip_le (s : String) : (strip s).length ≤ s.length := by
  rw [← String.length_toList, ← String.length_toList, toList_strip]
  exact length_trim_le isSpace s.toList

theorem strip_strip (s : String) : strip (strip s) = strip s := by
  rw [← String.toList_inj, toList_strip, toList_strip, trim_trim]

/-- `strip_text`, between the bounds on the length and the check for a blank value. -/
def PhoneField.stripText (value : String) : Option PhoneField :=
  if h : 1 ≤ value.length ∧ value.length ≤ 20 ∧ strip value ≠ "" then some {
    value := strip value
    ne_empty := h.2.2
    length_le := (length_strip_le value).trans h.2.1
    stripped := strip_strip value }
  else none

/-- The validators return exactly the values that they leave as they are. -/
theorem PhoneField.stripText_value (p : PhoneField) : stripText p.value = some p := by
  have hlength : 1 ≤ p.value.length :=
    Nat.one_le_iff_ne_zero.2 fun h => p.ne_empty (String.length_eq_zero_iff.1 h)
  have hblank : strip p.value ≠ "" := by
    rw [p.stripped]
    exact p.ne_empty
  unfold stripText
  rw [dif_pos ⟨hlength, p.length_le, hblank⟩]
  exact congrArg some (PhoneField.ext p.stripped)

/-! ## The passes of the normalisation -/

/-- Neither a blank nor a hyphen. -/
def kept (c : Char) : Bool := c ≠ ' ' ∧ c ≠ '-'

/-- A number without the white space around it, and without blanks and hyphens. -/
def digits (phone : String) : List Char := (strip phone).toList.filter kept

/-- The country code becomes a zero. -/
def domestic : List Char → List Char
  | '+' :: '8' :: '2' :: rest => '0' :: rest
  | value => value

/-- The country code at the front. -/
def Foreign (value : List Char) : Prop := ∃ rest, value = '+' :: '8' :: '2' :: rest

theorem domestic_of_not_foreign {value : List Char} (h : ¬ Foreign value) :
    domestic value = value := by
  unfold domestic
  split
  · exact absurd ⟨_, rfl⟩ h
  · rfl

theorem toList_normalizePhone (phone : String) :
    (normalizePhone phone).toList = domestic (digits phone) := by
  have hdigits : (strip phone).toList.filter (fun c => c ≠ ' ' ∧ c ≠ '-') = digits phone := rfl
  unfold normalizePhone
  dsimp only
  rw [hdigits]
  generalize digits phone = value
  split
  · exact String.toList_ofList
  · next hforeign =>
      have hnot : ¬ Foreign value := fun ⟨rest, hrest⟩ => hforeign rest hrest
      rw [domestic_of_not_foreign hnot]
      exact String.toList_ofList

theorem not_foreign_domestic (value : List Char) : ¬ Foreign (domestic value) := by
  by_cases h : Foreign value
  · obtain ⟨rest, rfl⟩ := h
    rintro ⟨rest', hrest⟩
    exact absurd (List.cons.inj hrest).1 (by decide)
  · rwa [domestic_of_not_foreign h]

theorem length_domestic_le (value : List Char) : (domestic value).length ≤ value.length := by
  by_cases h : Foreign value
  · obtain ⟨rest, rfl⟩ := h
    simp [domestic]
  · rw [domestic_of_not_foreign h]

theorem kept_domestic {value : List Char} (h : ∀ c ∈ value, kept c = true) :
    ∀ c ∈ domestic value, kept c = true := by
  by_cases hforeign : Foreign value
  · obtain ⟨rest, rfl⟩ := hforeign
    exact List.forall_mem_cons.2 ⟨by decide, fun c hc => h c (by simp [hc])⟩
  · rwa [domestic_of_not_foreign hforeign]

/-- Behind a visible character, only the other end matters. -/
theorem bare_cons_iff {c : Char} (hc : isSpace c = false) (rest : List Char) :
    Bare isSpace (c :: rest) ↔ ∀ d ∈ rest.getLast?, isSpace d = false := by
  cases rest with
  | nil => exact iff_of_true ⟨by simpa using hc, by simpa using hc⟩ (by simp)
  | cons d rest =>
      refine ⟨fun h => ?_, fun h => ⟨by simpa using hc, ?_⟩⟩
      · have hlast := h.last
        rwa [List.getLast?_cons_cons] at hlast
      · rwa [List.getLast?_cons_cons]

/-- The country code and the zero both hold off what is trimmed at the front. -/
theorem bare_domestic_iff (value : List Char) :
    Bare isSpace (domestic value) ↔ Bare isSpace value := by
  by_cases h : Foreign value
  · obtain ⟨rest, rfl⟩ := h
    have hplus : isSpace '+' = false := by decide +kernel
    have htwo : isSpace '2' = false := by decide +kernel
    have hzero : isSpace '0' = false := by decide +kernel
    have hdomestic : domestic ('+' :: '8' :: '2' :: rest) = '0' :: rest := rfl
    rw [hdomestic, bare_cons_iff hzero, bare_cons_iff hplus,
      List.getLast?_cons_cons, ← bare_cons_iff htwo]
    exact ⟨Bare.last, fun h => ⟨fun c hc => Option.some.inj hc ▸ htwo, h⟩⟩
  · rw [domestic_of_not_foreign h]

/-! ## Canonical numbers -/

/-- Deleting blanks and hyphens exposes no other white space at an end. -/
def Tidy (phone : String) : Prop :=
  strip (String.ofList (digits phone)) = String.ofList (digits phone)

theorem tidy_iff {phone : String} : Tidy phone ↔ Bare isSpace (digits phone) := by
  unfold Tidy
  rw [← trim_eq_self_iff, ← String.toList_inj, toList_strip, String.toList_ofList]

/-- A second normalisation only trims. -/
theorem digits_normalizePhone (phone : String) :
    digits (normalizePhone phone) = trim isSpace (domestic (digits phone)) := by
  have hkept : ∀ c ∈ digits phone, kept c = true := fun c hc => (List.mem_filter.1 hc).2
  rw [digits, toList_strip, toList_normalizePhone]
  exact List.filter_eq_self.2 (forall_trim (kept_domestic hkept))

/-- **Which numbers a second normalisation leaves alone.** -/
theorem normalizePhone_normalizePhone_iff (phone : String) :
    normalizePhone (normalizePhone phone) = normalizePhone phone ↔ Tidy phone := by
  rw [tidy_iff, ← bare_domestic_iff, ← trim_eq_self_iff, ← String.toList_inj,
    toList_normalizePhone, digits_normalizePhone, toList_normalizePhone]
  constructor
  · exact eq_of_trim length_domestic_le
  · intro h
    rw [h, domestic_of_not_foreign (not_foreign_domestic _)]

/-- The address of a stored number, letter by letter. -/
def address : List Char → List Char
  | '0' :: rest => '+' :: '8' :: '2' :: rest
  | value => value

theorem toList_toE164Kr {phone : String} (h : normalizePhone phone = phone) :
    (AwsSnsSmsSender.toE164Kr phone).toList = address phone.toList := by
  obtain ⟨value, hvalue⟩ : ∃ value, phone.toList = value := ⟨_, rfl⟩
  unfold AwsSnsSmsSender.toE164Kr address
  dsimp only
  rw [h, hvalue]
  split
  · exact hvalue
  · rw [String.toList_append, String.toList_ofList, String.toList_ofList]
    rfl
  · next hplus hzero =>
      split
      · exact absurd rfl (hzero _)
      · exact hvalue

/-- Without the country code at the front, a number can be read off its address. -/
theorem address_inj {v w : List Char} (hv : ¬ Foreign v) (hw : ¬ Foreign w)
    (h : address v = address w) : v = w := by
  have hinv : ∀ {v}, ¬ Foreign v → domestic (address v) = v := by
    intro v hv
    unfold address
    split
    · rfl
    · exact domestic_of_not_foreign hv
  rw [← hinv hv, ← hinv hw, h]

/-- **When stored numbers are canonical.** -/
theorem phones_canonical_iff (p q : PhoneField) :
    (normalizePhone (normalizePhone p.value) = normalizePhone p.value ∧
      normalizePhone (normalizePhone q.value) = normalizePhone q.value ∧
      (AwsSnsSmsSender.toE164Kr (normalizePhone p.value) =
          AwsSnsSmsSender.toE164Kr (normalizePhone q.value) →
        normalizePhone p.value = normalizePhone q.value)) ↔
    Tidy p.value ∧ Tidy q.value := by
  rw [normalizePhone_normalizePhone_iff, normalizePhone_normalizePhone_iff]
  refine ⟨fun h => ⟨h.1, h.2.1⟩, fun ⟨hp, hq⟩ => ⟨hp, hq, fun h => ?_⟩⟩
  rw [← normalizePhone_normalizePhone_iff] at hp hq
  rw [← String.toList_inj, toList_toE164Kr hp, toList_toE164Kr hq] at h
  rw [← String.toList_inj]
  rw [toList_normalizePhone, toList_normalizePhone] at h ⊢
  exact address_inj (not_foreign_domestic _) (not_foreign_domestic _) h

namespace Sample

/-- A number with a tabulator behind the hyphen. -/
def tabbed : PhoneField :=
  ⟨"-\t01012345678", by decide +kernel, by decide +kernel, by decide +kernel⟩

def plain : PhoneField :=
  ⟨"01012345678", by decide +kernel, by decide +kernel, by decide +kernel⟩

end Sample

/-- Two stored numbers with one address. -/
theorem phones_not_canonical :
    normalizePhone (normalizePhone Sample.tabbed.value) ≠ normalizePhone Sample.tabbed.value ∧
    ¬ (AwsSnsSmsSender.toE164Kr (normalizePhone Sample.tabbed.value) =
        AwsSnsSmsSender.toE164Kr (normalizePhone Sample.plain.value) →
      normalizePhone Sample.tabbed.value = normalizePhone Sample.plain.value) := by
  decide +kernel

end OrderRun
