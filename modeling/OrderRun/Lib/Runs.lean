import Mathlib.Data.List.Induction
import Mathlib.Tactic.Common

/-!
# Runs of a step function

A system here is a total step function `σ → ε → σ`: an event that cannot happen
in a state leaves the state as it is, so every list of events is a run and a
statement about every run is a statement about every list.

* `run` — the state a list of events leads to.
* `Always` — a property of every state a run passes through (`always_iff`).
* `Along` — a property of every step a run takes (`along_iff`).
* `trail` — the steps of a run, each with the state it is taken in.
* `inv_run`, `inv_trail` — the invariant rule, and the one for invariants that also speak
  of the past.
* `always_of_along` — a property that every step meeting a side condition keeps
  holds throughout every run whose steps all meet the side condition.
* `along_of_along` — steps that meet a side condition meet another one, thanks to what they keep.
* `always_iff_along` — when keeping the property is *equivalent* to the side
  condition, step by step, the runs on which the property always holds are
  exactly the runs whose steps all meet the condition.
* `along_between` — a reflexive, transitive relation between the two ends of
  every step relates every earlier state of the run to every later one.
* `run_own` — a run is followed from one event of interest to the next, while the
  events in between keep what has been established.
-/

namespace Runs

variable {σ ε : Type*} (step : σ → ε → σ)

/-- The state a list of events leads to. -/
def run (s : σ) (es : List ε) : σ := es.foldl step s

/-- `P` holds of every state the run passes through, its two ends included. -/
def Always (P : σ → Prop) : σ → List ε → Prop
  | s, [] => P s
  | s, e :: es => P s ∧ Always P (step s e) es

/-- `C` holds of every step the run takes. -/
def Along (C : σ → ε → Prop) : σ → List ε → Prop
  | _, [] => True
  | s, e :: es => C s e ∧ Along C (step s e) es

variable {step}

instance decidableAlong (C : σ → ε → Prop) [∀ s e, Decidable (C s e)] :
    ∀ s es, Decidable (Along step C s es)
  | _, [] => isTrue trivial
  | s, e :: es =>
      have := decidableAlong C (step s e) es
      inferInstanceAs (Decidable (C s e ∧ Along step C (step s e) es))

@[simp] theorem run_nil (s : σ) : run step s [] = s := rfl

@[simp] theorem run_cons (s : σ) (e : ε) (es : List ε) :
    run step s (e :: es) = run step (step s e) es := rfl

theorem run_append (s : σ) (es fs : List ε) :
    run step s (es ++ fs) = run step (run step s es) fs :=
  List.foldl_append

@[simp] theorem run_concat (s : σ) (es : List ε) (e : ε) :
    run step s (es ++ [e]) = step (run step s es) e := by
  rw [run_append, run_cons, run_nil]

/-! ## What the two quantifiers mean -/

/-- `Always` speaks of the state after every prefix of the run. -/
theorem always_iff {P : σ → Prop} {s : σ} {es : List ε} :
    Always step P s es ↔ ∀ pre suf, es = pre ++ suf → P (run step s pre) := by
  induction es generalizing s with
  | nil =>
      constructor
      · intro h pre suf he
        obtain ⟨rfl, -⟩ := List.append_eq_nil_iff.1 he.symm
        exact h
      · intro h
        exact h [] [] rfl
  | cons e es ih =>
      constructor
      · rintro ⟨hs, hes⟩ pre suf he
        cases pre with
        | nil => exact hs
        | cons e' pre =>
            rw [List.cons_append, List.cons.injEq] at he
            obtain ⟨rfl, he⟩ := he
            exact ih.1 hes pre suf he
      · intro h
        exact ⟨h [] (e :: es) rfl, ih.2 fun pre suf he => h (e :: pre) suf (by rw [he]; rfl)⟩

/-- `Along` speaks of every event of the run, in the state it happens in. -/
theorem along_iff {C : σ → ε → Prop} {s : σ} {es : List ε} :
    Along step C s es ↔ ∀ pre e suf, es = pre ++ e :: suf → C (run step s pre) e := by
  induction es generalizing s with
  | nil => exact ⟨fun _ pre e suf he => absurd he (by simp), fun _ => trivial⟩
  | cons e es ih =>
      constructor
      · rintro ⟨hs, hes⟩ pre e' suf he
        cases pre with
        | nil =>
            rw [List.nil_append, List.cons.injEq] at he
            rw [← he.1]
            exact hs
        | cons e₁ pre =>
            rw [List.cons_append, List.cons.injEq] at he
            obtain ⟨rfl, he⟩ := he
            exact ih.1 hes pre e' suf he
      · intro h
        exact ⟨h [] e es rfl, ih.2 fun pre e' suf he => h (e :: pre) e' suf (by rw [he]; rfl)⟩

theorem always_head {P : σ → Prop} {s : σ} {es : List ε} (h : Always step P s es) : P s :=
  always_iff.1 h [] es rfl

theorem always_last {P : σ → Prop} {s : σ} {es : List ε} (h : Always step P s es) :
    P (run step s es) :=
  always_iff.1 h es [] (List.append_nil es).symm

/-! ## The steps of a run -/

/-- The steps of a run in order: each event, with the state it happens in. -/
def trail (step : σ → ε → σ) : σ → List ε → List (σ × ε)
  | _, [] => []
  | s, e :: es => (s, e) :: trail step (step s e) es

theorem trail_append (s : σ) (es fs : List ε) :
    trail step s (es ++ fs) = trail step s es ++ trail step (run step s es) fs := by
  induction es generalizing s with
  | nil => rfl
  | cons e es ih => rw [List.cons_append, trail, ih]; rfl

theorem trail_concat (s : σ) (es : List ε) (e : ε) :
    trail step s (es ++ [e]) = trail step s es ++ [(run step s es, e)] :=
  trail_append s es [e]

theorem mem_trail {s : σ} {es : List ε} {x : σ × ε} :
    x ∈ trail step s es ↔ ∃ pre suf, es = pre ++ x.2 :: suf ∧ x.1 = run step s pre := by
  constructor
  · intro h
    induction es generalizing s with
    | nil => exact absurd h List.not_mem_nil
    | cons e es ih =>
        rcases List.mem_cons.1 h with rfl | h
        · exact ⟨[], es, rfl, rfl⟩
        · obtain ⟨pre, suf, rfl, hx⟩ := ih h
          exact ⟨e :: pre, suf, rfl, hx⟩
  · rintro ⟨pre, suf, rfl, hx⟩
    rw [trail_append, trail, ← hx]
    exact List.mem_append_right _ List.mem_cons_self

/-! ## Invariants -/

/-- **The invariant rule, with the past.**  `I` speaks of the steps taken so far and of
the state they have led to. -/
theorem inv_trail {I : List (σ × ε) → σ → Prop}
    (hstep : ∀ past s e, I past s → I (past ++ [(s, e)]) (step s e)) {s : σ} (hs : I [] s)
    (es : List ε) : I (trail step s es) (run step s es) := by
  induction es using List.reverseRecOn with
  | nil => exact hs
  | append_singleton es e ih =>
      rw [trail_concat, run_concat]
      exact hstep _ _ _ ih

/-- **The invariant rule.** -/
theorem inv_run {I : σ → Prop} (hstep : ∀ s e, I s → I (step s e)) {s : σ} (hs : I s)
    (es : List ε) : I (run step s es) := by
  induction es generalizing s with
  | nil => exact hs
  | cons e es ih => exact ih (hstep s e hs)

section SideCondition

variable {I P : σ → Prop} {A : ε → Prop} {C : σ → ε → Prop}

/-- **Runs under a side condition.**  `I` is kept by every allowed step, `P` by
every allowed step that meets `C`; then `P` holds throughout every allowed run
all of whose steps meet `C`. -/
theorem always_of_along (hinv : ∀ s e, I s → A e → I (step s e))
    (hP : ∀ s e, I s → A e → P s → C s e → P (step s e))
    {s : σ} {es : List ε} (hs : I s) (hPs : P s) (hes : ∀ e ∈ es, A e)
    (hC : Along step C s es) : Always step P s es := by
  induction es generalizing s with
  | nil => exact hPs
  | cons e es ih =>
      have he : A e := hes e List.mem_cons_self
      exact ⟨hPs, ih (hinv s e hs he) (hP s e hs he hPs hC.1)
        (fun e' he' => hes e' (List.mem_cons_of_mem _ he')) hC.2⟩

/-- **From one side condition to another.**  `I` is kept by every step that meets `C`, and such
a step from a state with `I` meets `D` as well. -/
theorem along_of_along {D : σ → ε → Prop} (hinv : ∀ s e, I s → C s e → I (step s e))
    (hD : ∀ s e, I s → C s e → D s e) {s : σ} {es : List ε} (hs : I s)
    (hC : Along step C s es) : Along step D s es := by
  induction es generalizing s with
  | nil => trivial
  | cons e es ih => exact ⟨hD s e hs hC.1, ih (hinv s e hs hC.1) hC.2⟩

/-- **The exact side condition.**  If an allowed step from a state with `P` keeps
`P` precisely when it meets `C`, the allowed runs on which `P` always holds are
precisely those whose steps all meet `C`. -/
theorem always_iff_along (hinv : ∀ s e, I s → A e → I (step s e))
    (hP : ∀ s e, I s → A e → P s → (P (step s e) ↔ C s e))
    {s : σ} {es : List ε} (hs : I s) (hPs : P s) (hes : ∀ e ∈ es, A e) :
    Always step P s es ↔ Along step C s es := by
  refine ⟨fun h => ?_, always_of_along hinv (fun s e hi ha hp => (hP s e hi ha hp).2) hs hPs hes⟩
  induction es generalizing s with
  | nil => trivial
  | cons e es ih =>
      have he : A e := hes e List.mem_cons_self
      have hnext : P (step s e) := always_head h.2
      exact ⟨(hP s e hs he hPs).1 hnext, ih (hinv s e hs he) hnext
        (fun e' he' => hes e' (List.mem_cons_of_mem _ he')) h.2⟩

/-- The same equivalence for a relation between the two ends of each step: it
holds along an allowed run precisely when every step meets `C`. -/
theorem along_iff_along {K : σ → σ → Prop} (hinv : ∀ s e, I s → A e → I (step s e))
    (hK : ∀ s e, I s → A e → (K s (step s e) ↔ C s e))
    {s : σ} {es : List ε} (hs : I s) (hes : ∀ e ∈ es, A e) :
    Along step (fun s e => K s (step s e)) s es ↔ Along step C s es := by
  induction es generalizing s with
  | nil => exact Iff.rfl
  | cons e es ih =>
      have he : A e := hes e List.mem_cons_self
      exact and_congr (hK s e hs he)
        (ih (hinv s e hs he) fun e' he' => hes e' (List.mem_cons_of_mem _ he'))

end SideCondition

/-! ## Relations between earlier and later states -/

/-- A reflexive, transitive relation holds between the ends of every step of a
run precisely when it holds between every earlier and every later state. -/
theorem along_between {K : σ → σ → Prop} (hrefl : ∀ s, K s s)
    (htrans : ∀ s t u, K s t → K t u → K s u) {s : σ} {es : List ε} :
    Along step (fun s e => K s (step s e)) s es ↔
      ∀ pre mid suf, es = pre ++ mid ++ suf → K (run step s pre) (run step s (pre ++ mid)) := by
  rw [along_iff]
  constructor
  · intro h pre mid
    induction mid using List.reverseRecOn with
    | nil => intro suf _; rw [List.append_nil]; exact hrefl _
    | append_singleton mid e ih =>
        intro suf he
        have hmid := ih (e :: suf) (by rw [he]; simp)
        have hlast := h (pre ++ mid) e suf (by rw [he]; simp)
        rw [← List.append_assoc, run_concat]
        exact htrans _ _ _ hmid hlast
  · intro h pre e suf he
    have := h pre [e] suf (by rw [he]; simp)
    rwa [run_concat] at this

/-! ## Following some of the events -/

section Own

variable {own : ε → Bool} {P Q : σ → Prop} {C : σ → ε → Prop}

/-- **Up to the next own event.**  The events in between keep `P`, the own event
`e` turns it into `Q`; the rest of the run starts from a state with `Q`. -/
theorem run_own (frame : ∀ s e', own e' = false → P s → C s e' → P (step s e')) {e : ε}
    (howner : ∀ s, P s → C s e → Q (step s e)) {s : σ} {es l : List ε}
    (hes : es.filter own = e :: l) (hC : Along step C s es) (hs : P s) :
    ∃ s' es', es'.filter own = l ∧ Along step C s' es' ∧ Q s' ∧
      run step s es = run step s' es' := by
  induction es generalizing s with
  | nil => exact absurd hes (by simp)
  | cons e' es ih =>
      cases h : own e' with
      | false =>
          rw [List.filter_cons_of_neg (by simp [h])] at hes
          exact ih hes hC.2 (frame s e' h hs hC.1)
      | true =>
          rw [List.filter_cons_of_pos h, List.cons.injEq] at hes
          obtain ⟨rfl, hes⟩ := hes
          exact ⟨step s e', es, hes, hC.2, howner s hs hC.1, rfl⟩

/-- After the last own event, what has been established stays. -/
theorem run_foreign (frame : ∀ s e', own e' = false → P s → C s e' → P (step s e')) {s : σ}
    {es : List ε} (hes : es.filter own = []) (hC : Along step C s es) (hs : P s) :
    P (run step s es) := by
  induction es generalizing s with
  | nil => exact hs
  | cons e es ih =>
      rw [List.filter_eq_nil_iff] at hes
      have he : own e = false := by simpa using hes e List.mem_cons_self
      exact ih (List.filter_eq_nil_iff.2 fun e' he' => hes e' (List.mem_cons_of_mem _ he')) hC.2
        (frame s e he hs hC.1)

end Own

end Runs
