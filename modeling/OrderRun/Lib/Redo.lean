import Mathlib.Logic.Relation

/-!
# Scripts that may be started again

A script changes a state step by step, and may be stopped between any two steps.  Whoever starts
it again starts at its beginning.  If a step leaves the states alone in which it has been done,
and no later step undoes it, nothing is lost: the next attempt passes over the steps that have
been done and goes on with the others.

* `Step` — a step, and the states in which it has been done.
* `Step.Spares` — a later step does not undo it.
* `Stopped` — what a stopped script leaves behind.
* `run_of_stopped`, `run_of_attempts` — the next attempt ends as the first would have ended.
-/

namespace Redo

/-- A step of a script.  Doing it again changes nothing. -/
structure Step (σ ε : Type*) where
  run : σ → Except ε σ
  /-- The step has been done. -/
  Done : σ → Prop
  done_of_run : ∀ {s s'}, run s = .ok s' → Done s'
  run_of_done : ∀ {s}, Done s → run s = .ok s

variable {σ ε : Type*} {p q : Step σ ε} {steps : List (Step σ ε)} {s s' t : σ}

/-- `q` does not undo `p`. -/
def Step.Spares (q p : Step σ ε) : Prop := ∀ s s', p.Done s → q.run s = .ok s' → p.Done s'

/-- The steps, one after the other. -/
def run (steps : List (Step σ ε)) (s : σ) : Except ε σ := steps.foldlM (fun s p => p.run s) s

/-- No step is undone by a later one. -/
def Lasting (steps : List (Step σ ε)) : Prop := steps.Pairwise fun p q => q.Spares p

/-- The script has been stopped after some of its steps. -/
inductive Stopped (steps : List (Step σ ε)) (s t : σ) : Prop where
  | between (before after : List (Step σ ε)) (split : steps = before ++ after)
      (ran : run before s = .ok t) : Stopped steps s t

theorem run_nil (s : σ) : run ([] : List (Step σ ε)) s = .ok s := rfl

theorem run_cons (p : Step σ ε) (steps : List (Step σ ε)) (s : σ) :
    run (p :: steps) s = p.run s >>= run steps := List.foldlM_cons

theorem run_append (before after : List (Step σ ε)) (s : σ) :
    run (before ++ after) s = run before s >>= run after := List.foldlM_append

theorem run_cons_eq_ok : run (p :: steps) s = .ok t ↔ ∃ s', p.run s = .ok s' ∧
    run steps s' = .ok t := by
  rw [run_cons]
  cases p.run s <;> simp [Bind.bind, Except.bind]

/-- A step that no other undoes stays done. -/
theorem done_of_spares (h : ∀ q ∈ steps, q.Spares p) (hdone : p.Done s)
    (hrun : run steps s = .ok t) : p.Done t := by
  induction steps generalizing s with
  | nil =>
      obtain rfl : s = t := Except.ok.inj hrun
      exact hdone
  | cons q steps ih =>
      obtain ⟨s', hq, hrest⟩ := run_cons_eq_ok.1 hrun
      exact ih (fun q' hq' => h q' (List.mem_cons_of_mem q hq'))
        (h q List.mem_cons_self s s' hdone hq) hrest

/-- **After a run all steps have been done.** -/
theorem done_of_run (h : Lasting steps) (hrun : run steps s = .ok t) : ∀ p ∈ steps, p.Done t := by
  induction steps generalizing s with
  | nil => exact fun p hp => absurd hp List.not_mem_nil
  | cons q steps ih =>
      obtain ⟨hspares, hrest⟩ := List.pairwise_cons.1 h
      obtain ⟨s', hq, hothers⟩ := run_cons_eq_ok.1 hrun
      intro p hp
      rcases List.mem_cons.1 hp with rfl | hp
      · exact done_of_spares hspares (p.done_of_run hq) hothers
      · exact ih hrest hothers p hp

/-- What has been done is not done again. -/
theorem run_of_done (h : ∀ p ∈ steps, p.Done s) : run steps s = .ok s := by
  induction steps with
  | nil => rfl
  | cons p steps ih =>
      rw [run_cons, p.run_of_done (h p List.mem_cons_self)]
      exact ih fun q hq => h q (List.mem_cons_of_mem p hq)

/-- **The next attempt ends as the first would have ended**, whether in a state or in a
failure. -/
theorem run_of_stopped (h : Lasting steps) (hstopped : Stopped steps s t) :
    run steps t = run steps s := by
  obtain ⟨before, after, rfl, hrun⟩ := hstopped
  have hbefore : Lasting before := (List.pairwise_append.1 h).1
  have hagain : run before t = .ok t := run_of_done (done_of_run hbefore hrun)
  calc run (before ++ after) t
      = run before t >>= run after := run_append before after t
    _ = run after t := by rw [hagain]; rfl
    _ = run before s >>= run after := by rw [hrun]; rfl
    _ = run (before ++ after) s := (run_append before after s).symm

/-- **However often the script is stopped.** -/
theorem run_of_attempts (h : Lasting steps)
    (hattempts : Relation.ReflTransGen (Stopped steps) s t) : run steps t = run steps s := by
  induction hattempts with
  | refl => rfl
  | tail _ hlast ih => exact (run_of_stopped h hlast).trans ih

end Redo
