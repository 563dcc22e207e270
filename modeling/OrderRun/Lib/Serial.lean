import OrderRun.Lib.Split

/-!
# Interleavings that amount to calls one at a time

Nothing in a split service keeps a commit from running on a state that its read has not
seen.  A discipline on the clients can: calls that conflict are not pending together when
one of them commits.  Then every unit of work is still what its call would read now, and
the interleaving does what its calls do one at a time, in the order of their commits.

* `committing` — the calls that reach their commit step, in order.
* `Fresh` — what is pending would be read again, as it is.
* `Alone` — the discipline, for a given notion of conflict; `Framed` is what that notion
  has to fulfil: a call does not change what another one reads unless they conflict.
* `run_serial` — the committed state is that of a serial execution.
* `always_of_serial` — what holds after every serial execution holds throughout.
* `along_alone` — the discipline is met by clients that keep to what is theirs.
-/

namespace Split

open Runs

namespace Service

variable {σ γ τ ε : Type*} {S : Service σ γ τ ε} {conflicts : σ → γ → γ → Prop}

variable (S) in
/-- The calls that reach their commit step, in the order of these steps. -/
def committing : State σ γ τ → List (Event γ) → List γ
  | _, [] => []
  | s, .read tid c :: es => committing (S.step s (.read tid c)) es
  | s, .commit tid :: es =>
      ((s.pool tid).map Prod.fst).toList ++ committing (S.step s (.commit tid)) es

variable (S) in
/-- Every pending unit of work is what its call would read now. -/
def Fresh (s : State σ γ τ) : Prop :=
  ∀ tid c t, s.pool tid = some (c, t) → S.read s.now c = .ok t

variable (conflicts) in
/-- A call that commits conflicts with nothing else that is pending. -/
def Alone (s : State σ γ τ) : Event γ → Prop
  | .read _ _ => True
  | .commit tid => ∀ c t, s.pool tid = some (c, t) →
      ∀ tid' c' t', tid' ≠ tid → s.pool tid' = some (c', t') → ¬ conflicts s.now c c'

variable (S conflicts) in
/-- A call leaves alone what the calls it does not conflict with have read. -/
def Framed : Prop :=
  ∀ {s s' : σ} {c c' : γ} {t t' : τ}, S.read s c = .ok t → S.commit s c t = .ok s' →
    ¬ conflicts s c c' → S.read s c' = .ok t' → S.read s' c' = .ok t'

theorem fresh_quiet (s : σ) : S.Fresh (State.quiet s) := by
  intro tid c t h
  rw [State.pool_quiet] at h
  exact absurd h (by simp)

/-- **Under the discipline nothing goes stale.** -/
theorem fresh_step (hframe : S.Framed conflicts) {s : State σ γ τ} {e : Event γ}
    (hfresh : S.Fresh s) (halone : Alone conflicts s e) : S.Fresh (S.step s e) := by
  intro tid c t hp
  rcases pool_step hp with hp' | ⟨rfl, hr⟩
  · cases e with
    | read k d => rw [now_step_read]; exact hfresh tid c t hp'
    | commit k =>
        rcases now_step_commit (S := S) s k with he | ⟨d, v, hpk, hc⟩
        · rw [he]
          exact hfresh tid c t hp'
        · -- the unit that commits has left the pool, so it is not the one we look at
          have hne : tid ≠ k := by
            rintro rfl
            rw [step_commit hpk hc] at hp
            simp at hp
          exact hframe (hfresh k d v hpk) hc (halone d v hpk tid c t hne hp') (hfresh tid c t hp')
  · rw [now_step_read]
    exact hr

/-- A commit of a fresh unit is the call at one stroke. -/
theorem now_commit_of_fresh {s : State σ γ τ} (hfresh : S.Fresh s) (tid : ℕ) :
    (S.step s (.commit tid)).now =
      (((s.pool tid).map Prod.fst).toList).foldl S.call s.now := by
  cases hp : s.pool tid with
  | none => simp only [step, hp]; rfl
  | some ct =>
      obtain ⟨c, t⟩ := ct
      have hr := hfresh tid c t hp
      cases hc : S.commit s.now c t with
      | error e => simp [step, hp, hc, call, hr]
      | ok s' => simp [step, hp, hc, call, hr]

/-- **Interleavings under the discipline are serial.** -/
theorem run_serial (hframe : S.Framed conflicts) {s : State σ γ τ} (hfresh : S.Fresh s)
    {es : List (Event γ)} (h : Along S.step (Alone conflicts) s es) :
    (run S.step s es).now = (S.committing s es).foldl S.call s.now := by
  induction es generalizing s with
  | nil => rfl
  | cons e es ih =>
      have hrest := ih (fresh_step hframe hfresh h.1) h.2
      rw [run_cons, hrest]
      cases e with
      | read tid c => rw [now_step_read]; rfl
      | commit tid => rw [now_commit_of_fresh hfresh tid, committing, List.foldl_append]

/-- Every prefix of a run under the discipline is one. -/
theorem along_of_append {C : State σ γ τ → Event γ → Prop} {s : State σ γ τ}
    {pre suf : List (Event γ)} (h : Along S.step C s (pre ++ suf)) : Along S.step C s pre := by
  rw [along_iff] at h ⊢
  intro pre' e suf' he
  exact h pre' e (suf' ++ suf) (by rw [he]; simp)

/-- **What serial executions keep** holds in every committed state. -/
theorem always_of_serial (hframe : S.Framed conflicts) {P : σ → Prop} {s : σ}
    (hP : ∀ cs : List γ, P (cs.foldl S.call s)) {es : List (Event γ)}
    (h : Along S.step (Alone conflicts) (State.quiet s) es) :
    Always S.step (fun x => P x.now) (State.quiet s) es := by
  refine always_iff.2 fun pre suf he => ?_
  subst he
  rw [run_serial hframe (fresh_quiet s) (along_of_append h)]
  exact hP _

variable (conflicts) in
/-- No call of one transaction ever conflicts with one of another. -/
def Apart (own : ℕ → γ → Prop) : Prop :=
  ∀ tid tid' c c' (s : σ), tid ≠ tid' → own tid c → own tid' c' → ¬ conflicts s c c'

/-- Clients that keep to what is theirs need no discipline. -/
theorem along_alone {own : ℕ → γ → Prop} (hapart : Apart conflicts own) {s : State σ γ τ}
    (hs : ∀ tid c t, s.pool tid = some (c, t) → own tid c) {es : List (Event γ)}
    (hes : ∀ tid c, Event.read tid c ∈ es → own tid c) :
    Along S.step (Alone conflicts) s es := by
  induction es generalizing s with
  | nil => trivial
  | cons e es ih =>
      refine ⟨?_, ih ?_ fun tid c h => hes tid c (List.mem_cons_of_mem _ h)⟩
      · cases e with
        | read tid c => trivial
        | commit tid =>
            intro c t hp tid' c' t' hne hp'
            exact hapart tid tid' c c' s.now hne.symm (hs tid c t hp) (hs tid' c' t' hp')
      · intro tid c t hp
        rcases pool_step hp with hp | ⟨rfl, -⟩
        · exact hs tid c t hp
        · exact hes tid c List.mem_cons_self

end Service

end Split
