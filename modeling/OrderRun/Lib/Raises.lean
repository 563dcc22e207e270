import Mathlib.Tactic.Common

/-!
# What a computation can raise

The dual of a postcondition, for computations in `Except`: a bound on the errors, which says
nothing about results.  What a step has returned is known to the steps after it, so a guard
that has passed rules out the errors it guards against.

* `Raises` — every error of the computation is one of these.
* `Raises.bind`, `Raises.map`, `Raises.mapM` — the rules for a sequence and for a loop.
* `Raises.of_ok` — a computation that returns raises nothing at all.
-/

/-- Every error of the computation satisfies `E`. -/
def Raises {ε α : Type} (E : ε → Prop) (x : Except ε α) : Prop := ∀ e, x = .error e → E e

namespace Raises

variable {ε α β : Type} {E : ε → Prop} {x : Except ε α}

theorem ok (a : α) : Raises E (.ok a : Except ε α) := by
  intro e h
  cases h

theorem pure (a : α) : Raises E (Pure.pure a : Except ε α) := ok a

theorem error {e : ε} (h : E e) : Raises E (.error e : Except ε α) := by
  intro e' he
  cases he
  exact h

/-- A computation that returns raises nothing. -/
theorem of_ok (h : ∃ a, x = .ok a) : Raises E x := by
  obtain ⟨a, rfl⟩ := h
  exact ok a

theorem mono {E' : ε → Prop} (h : Raises E x) (hE : ∀ e, E e → E' e) : Raises E' x :=
  fun e he => hE e (h e he)

/-- **One computation after the other.**  The second one may rely on what the first has
returned. -/
theorem bind {f : α → Except ε β} (h : Raises E x) (hf : ∀ a, x = .ok a → Raises E (f a)) :
    Raises E (x >>= f) := by
  cases x with
  | error e => exact error (h e rfl)
  | ok a => exact hf a rfl

theorem map {f : α → β} (h : Raises E x) : Raises E (f <$> x) := by
  cases x with
  | error e => exact error (h e rfl)
  | ok a => exact ok (f a)

/-- A choice. -/
theorem ite {c : Prop} [Decidable c] {y : Except ε α} (hx : c → Raises E x)
    (hy : ¬ c → Raises E y) : Raises E (if c then x else y) := by
  by_cases h : c
  · rw [if_pos h]
    exact hx h
  · rw [if_neg h]
    exact hy h

/-- **A loop** raises what its body raises on one of the elements. -/
theorem mapM {f : α → Except ε β} {as : List α} (h : ∀ a ∈ as, Raises E (f a)) :
    Raises E (as.mapM f) := by
  induction as with
  | nil => exact pure []
  | cons a as ih =>
      rw [List.mapM_cons]
      refine bind (h a List.mem_cons_self) fun b _ => ?_
      refine bind (ih fun a' ha' => h a' (List.mem_cons_of_mem a ha')) fun bs _ => ?_
      exact pure (b :: bs)

end Raises
