import Mathlib.Data.List.DropRight
import Mathlib.Tactic.Common

/-!
# Trimming a list

* `trim` — a list without what satisfies `p` at its two ends.
* `trim_eq_self_iff` — when there is nothing to remove; `trim_trim`.
* `eq_of_trim` — a function that makes no list longer cannot give back what trimming
  has removed.
-/

namespace Trim

universe u

variable {α : Type u} {p : α → Bool} {l : List α}

/-- Without what satisfies `p` at the two ends. -/
def trim (p : α → Bool) (l : List α) : List α := (l.dropWhile p).rdropWhile p

theorem trim_sublist (p : α → Bool) (l : List α) : (trim p l).Sublist l :=
  (List.rdropWhile_prefix p _).sublist.trans (List.dropWhile_suffix p).sublist

theorem length_trim_le (p : α → Bool) (l : List α) : (trim p l).length ≤ l.length :=
  (trim_sublist p l).length_le

theorem trim_eq_self_of_length (h : l.length ≤ (trim p l).length) : trim p l = l :=
  (trim_sublist p l).eq_of_length_le h

/-- Neither end satisfies `p`. -/
structure Bare (p : α → Bool) (l : List α) : Prop where
  head : ∀ a ∈ l.head?, p a = false
  last : ∀ a ∈ l.getLast?, p a = false

theorem dropWhile_eq_self (h : ∀ a ∈ l.head?, p a = false) : l.dropWhile p = l := by
  cases l with
  | nil => rfl
  | cons a l => exact List.dropWhile_cons_of_neg (by simpa using h a rfl)

theorem head_dropWhile (p : α → Bool) (l : List α) : ∀ a ∈ (l.dropWhile p).head?, p a = false := by
  intro a ha
  have hhead := List.head?_dropWhile_not p l
  rwa [Option.mem_def.1 ha] at hhead

/-- What trimming leaves is bare. -/
theorem bare_trim (p : α → Bool) (l : List α) : Bare p (trim p l) where
  head := by
    obtain ⟨rest, hrest⟩ := List.rdropWhile_prefix p (l.dropWhile p)
    intro a ha
    refine head_dropWhile p l a ?_
    have hsame : (List.rdropWhile p (l.dropWhile p)).head? = some a := ha
    rw [← hrest, List.head?_append, hsame]
    exact Option.mem_some_self a
  last := by
    intro a ha
    obtain ⟨hne, rfl⟩ := List.mem_getLast?_eq_getLast ha
    exact Bool.eq_false_iff.2 (List.rdropWhile_last_not p _ hne)

/-- **When there is nothing to remove.** -/
theorem trim_eq_self_iff : trim p l = l ↔ Bare p l := by
  refine ⟨fun h => h ▸ bare_trim p l, fun h => ?_⟩
  unfold trim
  rw [dropWhile_eq_self h.head, List.rdropWhile_eq_self_iff]
  intro hne
  rw [h.last _ (List.getLast?_eq_getLast_of_ne_nil hne)]
  exact Bool.false_ne_true

@[simp] theorem trim_trim (p : α → Bool) (l : List α) : trim p (trim p l) = trim p l :=
  trim_eq_self_iff.2 (bare_trim p l)

/-- What holds of all elements holds after trimming. -/
theorem forall_trim {q : α → Prop} (h : ∀ a ∈ l, q a) : ∀ a ∈ trim p l, q a :=
  fun a ha => h a ((trim_sublist p l).subset ha)

/-- What trimming removes does not come back through a function that makes no list longer. -/
theorem eq_of_trim {f : List α → List α} (hf : ∀ l, (f l).length ≤ l.length)
    (h : f (trim p l) = l) : trim p l = l := by
  refine trim_eq_self_of_length ?_
  calc l.length = (f (trim p l)).length := by rw [h]
    _ ≤ (trim p l).length := hf _

end Trim
