import OrderRun.Lib.Runs

/-!
# Calls split into a read step and a commit step

A service whose calls load what they need, decide what to write, and write it
later: `Service.read` runs on the state committed at that moment and yields a
unit of work, `Service.commit` applies that unit to the state committed *then*.
Nothing is locked and nothing is re-checked in between, so other calls may
commit while a unit of work is pending.

* `Service.call` — a call executed at one stroke.
* `State`, `Event`, `Service.step` — the committed state with a pool of pending
  units, and the interleaving of read and commit steps of any number of calls.
  `step_read_commit` says that a read directly followed by its commit is `call`.
* `Origin` — every pending unit was read from an earlier state, which satisfied
  the invariant and is related to the present one.  `Sound` collects what has to
  be shown of one commit for this to persist (`origin_step`).
* `Among`, `Sound.among_run` — the same when other changes of the committed state happen
  among the read and commit steps.
* `always_iff_commits`, `along_iff_commits` — the exact side condition on the
  commit steps under which a property of the committed states, or a relation
  between them, holds over every interleaving; `always_of_commits` is one direction of it.
* `along_commits_calls` — calls executed one at a time meet every such condition that a
  commit on the state of its read meets.
* `steps`, `steps_interleaved` — two calls run in turn, or both read before either
  of them commits.
-/

namespace Split

open Runs

/-- A service: what a call reads and decides, and what its commit does. -/
structure Service (σ γ τ ε : Type*) where
  /-- The read step: load, check the guards, prepare the unit of work. -/
  read : σ → γ → Except ε τ
  /-- The commit step: apply a unit of work to the state committed now. -/
  commit : σ → γ → τ → Except ε σ

/-- The committed state, and the units of work waiting for their commit. -/
structure State (σ γ τ : Type*) where
  /-- The committed state. -/
  now : σ
  /-- The pending units of work, by transaction. -/
  pool : ℕ → Option (γ × τ)

/-- One step of some transaction. -/
inductive Event (γ : Type*) where
  /-- Transaction `tid` runs the read step of call `c`. -/
  | read (tid : ℕ) (c : γ)
  /-- Transaction `tid` commits its pending unit of work. -/
  | commit (tid : ℕ)

/-- The transaction an event belongs to. -/
def Event.tid {γ : Type*} : Event γ → ℕ
  | .read tid _ => tid
  | .commit tid => tid

/-- Every call the event starts satisfies `A`. -/
def Event.Calls {γ : Type*} (A : γ → Prop) : Event γ → Prop
  | .read _ c => A c
  | .commit _ => True

theorem Event.calls_true {γ : Type*} (e : Event γ) : e.Calls fun _ => True := by
  cases e <;> trivial

/-- A step of a transaction, or a change of the committed state at one stroke. -/
inductive Among (γ θ : Type*) where
  | event (e : Event γ)
  | change (x : θ)

/-- Every call that is started satisfies `A`, and every change `B`. -/
def Among.Calls {γ θ : Type*} (A : γ → Prop) (B : θ → Prop) : Among γ θ → Prop
  | .event e => e.Calls A
  | .change x => B x

variable {σ γ τ ε : Type*}

/-- No transaction is open. -/
def State.quiet (s : σ) : State σ γ τ := ⟨s, fun _ => none⟩

/-- Fill or clear one slot of the pool. -/
def State.setPool (s : State σ γ τ) (tid : ℕ) (v : Option (γ × τ)) : State σ γ τ :=
  { s with pool := fun k => if k = tid then v else s.pool k }

@[simp] theorem State.now_setPool (s : State σ γ τ) (tid : ℕ) (v : Option (γ × τ)) :
    (s.setPool tid v).now = s.now := rfl

@[simp] theorem State.pool_setPool_self (s : State σ γ τ) (tid : ℕ) (v : Option (γ × τ)) :
    (s.setPool tid v).pool tid = v := if_pos rfl

theorem State.pool_setPool_of_ne (s : State σ γ τ) {tid k : ℕ} (v : Option (γ × τ))
    (h : k ≠ tid) : (s.setPool tid v).pool k = s.pool k := if_neg h

@[simp] theorem State.now_quiet (s : σ) : (State.quiet s : State σ γ τ).now = s := rfl

@[simp] theorem State.pool_quiet (s : σ) (tid : ℕ) :
    (State.quiet s : State σ γ τ).pool tid = none := rfl

namespace Service

variable (S : Service σ γ τ ε)

/-- A call executed at one stroke; a call that fails changes nothing. -/
def call (s : σ) (c : γ) : σ :=
  match S.read s c with
  | .error _ => s
  | .ok t =>
    match S.commit s c t with
    | .error _ => s
    | .ok s' => s'

/-- One step of one transaction.  A read step that fails leaves no pending unit,
a commit that fails is rolled back; both end the transaction. -/
def step (s : State σ γ τ) : Event γ → State σ γ τ
  | .read tid c =>
    match s.pool tid with
    | some _ => s
    | none =>
      match S.read s.now c with
      | .error _ => s
      | .ok t => s.setPool tid (some (c, t))
  | .commit tid =>
    match s.pool tid with
    | none => s
    | some (c, t) =>
      match S.commit s.now c t with
      | .error _ => s.setPool tid none
      | .ok s' => { s.setPool tid none with now := s' }

variable {S}

/-! ## What one step does -/

theorem call_eq {s s' : σ} {c : γ} {t : τ} (hr : S.read s c = .ok t)
    (hc : S.commit s c t = .ok s') : S.call s c = s' := by
  simp only [call, hr, hc]

/-- A call either changes nothing or is a read whose commit succeeds. -/
theorem call_cases (s : σ) (c : γ) :
    S.call s c = s ∨ ∃ t, S.read s c = .ok t ∧ S.commit s c t = .ok (S.call s c) := by
  unfold call
  cases hr : S.read s c with
  | error e => exact Or.inl rfl
  | ok t =>
      cases hc : S.commit s c t with
      | error e => exact Or.inl (by simp [hc])
      | ok s' => exact Or.inr ⟨t, rfl, by simp [hc]⟩

theorem step_read {s : State σ γ τ} {tid : ℕ} {c : γ} {t : τ} (hp : s.pool tid = none)
    (hr : S.read s.now c = .ok t) : S.step s (.read tid c) = s.setPool tid (some (c, t)) := by
  simp only [step, hp, hr]

theorem step_commit {s : State σ γ τ} {tid : ℕ} {c : γ} {t : τ} {s' : σ}
    (hp : s.pool tid = some (c, t)) (hc : S.commit s.now c t = .ok s') :
    S.step s (.commit tid) = { s.setPool tid none with now := s' } := by
  simp only [step, hp, hc]

/-- A read step leaves the committed state alone. -/
@[simp] theorem now_step_read (s : State σ γ τ) (tid : ℕ) (c : γ) :
    (S.step s (.read tid c)).now = s.now := by
  simp only [step]
  split
  · rfl
  · split <;> rfl

/-- A commit step leaves the committed state alone, or is a successful commit of
the unit pending in its slot. -/
theorem now_step_commit (s : State σ γ τ) (tid : ℕ) :
    (S.step s (.commit tid)).now = s.now ∨
      ∃ c t, s.pool tid = some (c, t) ∧ S.commit s.now c t = .ok (S.step s (.commit tid)).now := by
  simp only [step]
  cases hp : s.pool tid with
  | none => exact Or.inl rfl
  | some ct =>
      obtain ⟨c, t⟩ := ct
      cases hc : S.commit s.now c t with
      | error e => exact Or.inl (by simp [hc])
      | ok s' => exact Or.inr ⟨c, t, rfl, by simp [hc]⟩

/-- Every unit pending after a step was pending before or has just been read. -/
theorem pool_step {s : State σ γ τ} {e : Event γ} {tid : ℕ} {c : γ} {t : τ}
    (h : (S.step s e).pool tid = some (c, t)) :
    s.pool tid = some (c, t) ∨ (e = .read tid c ∧ S.read s.now c = .ok t) := by
  cases e with
  | read k c' =>
      simp only [step] at h
      cases hp : s.pool k with
      | some _ => rw [hp] at h; exact Or.inl h
      | none =>
          cases hr : S.read s.now c' with
          | error _ => rw [hp, hr] at h; exact Or.inl h
          | ok t' =>
              rw [hp, hr] at h
              simp only at h
              by_cases hk : tid = k
              · subst hk
                rw [State.pool_setPool_self, Option.some.injEq, Prod.mk.injEq] at h
                obtain ⟨rfl, rfl⟩ := h
                exact Or.inr ⟨rfl, hr⟩
              · rw [State.pool_setPool_of_ne _ _ hk] at h
                exact Or.inl h
  | commit k =>
      have hclear : (S.step s (.commit k)).pool tid = some (c, t) → s.pool tid = some (c, t) := by
        simp only [step]
        cases hp : s.pool k with
        | none => exact id
        | some ct =>
            obtain ⟨c', t'⟩ := ct
            by_cases hk : tid = k
            · subst hk
              cases hc : S.commit s.now c' t' <;> simp [hc]
            · cases hc : S.commit s.now c' t' <;> simp [hc, State.pool_setPool_of_ne _ _ hk]
      exact Or.inl (hclear h)

/-- The slots of other transactions are not touched. -/
theorem pool_step_of_ne {s : State σ γ τ} {e : Event γ} {tid : ℕ} (h : e.tid ≠ tid) :
    (S.step s e).pool tid = s.pool tid := by
  have hne : tid ≠ e.tid := fun he => h he.symm
  cases e with
  | read k c =>
      simp only [step]
      split
      · rfl
      · split
        · rfl
        · exact State.pool_setPool_of_ne _ _ hne
  | commit k =>
      simp only [step]
      split
      · rfl
      · split <;> exact State.pool_setPool_of_ne _ _ hne

/-- **A read directly followed by its commit is the call at one stroke.** -/
theorem step_read_commit {s : State σ γ τ} {tid : ℕ} (c : γ) (h : s.pool tid = none) :
    S.step (S.step s (.read tid c)) (.commit tid) = { s with now := S.call s.now c } := by
  have hpool : (fun k => if k = tid then none else s.pool k) = s.pool := by
    funext k
    by_cases hk : k = tid
    · rw [if_pos hk, hk, h]
    · rw [if_neg hk]
  cases hr : S.read s.now c with
  | error e =>
      have hs : S.step s (.read tid c) = s := by simp only [step, h, hr]
      have hcall : S.call s.now c = s.now := by simp only [call, hr]
      rw [hs, hcall]
      simp only [step, h]
  | ok t =>
      rw [step_read h hr]
      have hclear : (s.setPool tid (some (c, t))).setPool tid none = s := by
        have : (fun k => if k = tid then none else
            if k = tid then some (c, t) else s.pool k) = s.pool := by
          rw [← hpool]
          funext k
          by_cases hk : k = tid <;> simp [hk]
        simp only [State.setPool, this]
      cases hc : S.commit s.now c t with
      | error e =>
          have hcall : S.call s.now c = s.now := by simp only [call, hr, hc]
          simp only [step, State.pool_setPool_self, State.now_setPool, hc, hclear, hcall]
      | ok s' =>
          rw [call_eq hr hc]
          simp only [step, State.pool_setPool_self, State.now_setPool, hc, hclear]

/-- A list of calls executed one after the other is a run of the split service,
on a single transaction slot. -/
theorem run_calls (s : σ) (cs : List γ) :
    run S.step (State.quiet s) (cs.flatMap fun c => [.read 0 c, .commit 0])
      = State.quiet (cs.foldl S.call s) := by
  induction cs generalizing s with
  | nil => rfl
  | cons c cs ih =>
      rw [List.flatMap_cons, run_append, run_cons, run_cons, run_nil, step_read_commit c rfl]
      exact ih (S.call s c)

/-! ## Where pending units come from -/

section Origin

variable (S) (I : σ → Prop) (R : σ → σ → Prop) (A : γ → Prop)

/-- Every pending unit of work was read from an earlier committed state, which
satisfied the invariant and is related to the state committed now. -/
def Origin (s : State σ γ τ) : Prop :=
  ∀ tid c t, s.pool tid = some (c, t) →
    A c ∧ ∃ s₀, I s₀ ∧ S.read s₀ c = .ok t ∧ R s₀ s.now

/-- What has to be shown of a single commit: a unit of work read from a related
earlier state keeps the invariant and the relation. -/
structure Sound : Prop where
  refl : ∀ s, R s s
  trans : ∀ s t u, R s t → R t u → R s u
  commit : ∀ {s₀ s s' : σ} {c : γ} {t : τ}, A c → I s₀ → S.read s₀ c = .ok t → R s₀ s →
    I s → S.commit s c t = .ok s' → I s' ∧ R s s'

variable {S I R A}

theorem origin_quiet (s : σ) : S.Origin I R A (State.quiet s) := by
  intro tid c t h
  rw [State.pool_quiet] at h
  exact absurd h (by simp)

/-- The invariant and the relation across one step of any transaction. -/
theorem Sound.now_step (h : S.Sound I R A) {s : State σ γ τ}
    (ho : S.Origin I R A s) (hi : I s.now) (e : Event γ) :
    I (S.step s e).now ∧ R s.now (S.step s e).now := by
  cases e with
  | read tid c => rw [now_step_read]; exact ⟨hi, h.refl _⟩
  | commit tid =>
      rcases now_step_commit (S := S) s tid with he | ⟨c, t, hp, hc⟩
      · rw [he]; exact ⟨hi, h.refl _⟩
      · obtain ⟨ha, s₀, hi₀, hr, hR⟩ := ho tid c t hp
        exact h.commit ha hi₀ hr hR hi hc

/-- **Origins persist.** -/
theorem Sound.origin_step (h : S.Sound I R A) {s : State σ γ τ}
    (ho : S.Origin I R A s) (hi : I s.now) {e : Event γ} (he : e.Calls A) :
    S.Origin I R A (S.step s e) := by
  obtain ⟨-, hR⟩ := h.now_step ho hi e
  intro tid c t hp
  rcases pool_step hp with hp | ⟨rfl, hr⟩
  · obtain ⟨ha, s₀, hi₀, hr, hR₀⟩ := ho tid c t hp
    exact ⟨ha, s₀, hi₀, hr, h.trans _ _ _ hR₀ hR⟩
  · exact ⟨he, s.now, hi, hr, hR⟩

/-- The invariant the two rules below run on. -/
theorem Sound.inv_step (h : S.Sound I R A) (s : State σ γ τ) (e : Event γ)
    (hs : I s.now ∧ S.Origin I R A s) (he : e.Calls A) :
    I (S.step s e).now ∧ S.Origin I R A (S.step s e) :=
  ⟨(h.now_step hs.2 hs.1 e).1, h.origin_step hs.2 hs.1 he⟩

/-- The invariant holds in every committed state of every interleaving. -/
theorem Sound.inv_run (h : S.Sound I R A) {s : σ} (hs : I s) {es : List (Event γ)}
    (hes : ∀ e ∈ es, e.Calls A) :
    Always S.step (fun x => I x.now ∧ S.Origin I R A x) (State.quiet s) es :=
  always_of_along (I := fun _ => True) (C := fun _ _ => True) (A := Event.Calls A)
    (fun _ _ _ _ => trivial) (fun x e _ he hx _ => h.inv_step x e hx he) trivial
    ⟨hs, origin_quiet s⟩ hes (along_iff.2 fun _ _ _ _ => trivial)

end Origin

/-! ## Calls among other changes -/

section Among

variable {θ : Type*}

variable (S) in
/-- One step of the calls, or one of the changes: the pending units of work are those that
were read before it. -/
def among (change : σ → θ → σ) (s : State σ γ τ) : Among γ θ → State σ γ τ
  | .event e => S.step s e
  | .change x => { s with now := change s.now x }

variable {change : σ → θ → σ} {I : σ → Prop} {R : σ → σ → Prop} {A : γ → Prop} {B : θ → Prop}

/-- Origins persist if a change keeps the invariant and the relation. -/
theorem Sound.among_step (h : S.Sound I R A)
    (hchange : ∀ s x, B x → I s → I (change s x) ∧ R s (change s x)) (s : State σ γ τ)
    (a : Among γ θ) (hs : I s.now ∧ S.Origin I R A s) (ha : a.Calls A B) :
    I (S.among change s a).now ∧ S.Origin I R A (S.among change s a) := by
  cases a with
  | event e => exact h.inv_step s e hs ha
  | change x =>
      obtain ⟨hi, ho⟩ := hs
      obtain ⟨hi', hR⟩ := hchange s.now x ha hi
      refine ⟨hi', fun tid c t hp => ?_⟩
      obtain ⟨hA, s₀, hi₀, hr, hR₀⟩ := ho tid c t hp
      exact ⟨hA, s₀, hi₀, hr, h.trans _ _ _ hR₀ hR⟩

/-- **The invariant rule, among other changes.** -/
theorem Sound.among_run (h : S.Sound I R A)
    (hchange : ∀ s x, B x → I s → I (change s x) ∧ R s (change s x)) {s : σ} (hs : I s)
    {as : List (Among γ θ)} (has : ∀ a ∈ as, a.Calls A B) :
    Always (S.among change) (fun x => I x.now ∧ S.Origin I R A x) (State.quiet s) as :=
  always_of_along (I := fun _ => True) (C := fun _ _ => True) (A := Among.Calls A B)
    (fun _ _ _ _ => trivial) (fun x a _ ha hx _ => h.among_step hchange x a hx ha) trivial
    ⟨hs, origin_quiet s⟩ has (along_iff.2 fun _ _ _ _ => trivial)

end Among

/-! ## Exact conditions on the commits -/

variable (S) in
/-- The condition `C` on every commit that goes through: it speaks of the state
the commit runs on, the call and its pending unit of work. -/
def Commits (C : σ → γ → τ → Prop) (s : State σ γ τ) : Event γ → Prop
  | .read _ _ => True
  | .commit tid => ∀ c t s', s.pool tid = some (c, t) → S.commit s.now c t = .ok s' → C s.now c t

instance (C : σ → γ → τ → Prop) [∀ s c t, Decidable (C s c t)] (s : State σ γ τ) (e : Event γ) :
    Decidable (S.Commits C s e) :=
  match e with
  | .read _ _ => isTrue trivial
  | .commit tid => decidable_of_iff
      (∀ ct ∈ s.pool tid, (S.commit s.now ct.1 ct.2).toOption.isSome → C s.now ct.1 ct.2) (by
      constructor
      · intro h c t s' hp hc
        exact h (c, t) hp (by simp [hc, Except.toOption])
      · rintro h ⟨c, t⟩ hp hsome
        cases hc : S.commit s.now c t with
        | error _ => simp [hc, Except.toOption] at hsome
        | ok s' => exact h c t s' hp hc)

/-- `Commits` at a step whose commit goes through is the condition itself. -/
theorem commits_iff {C : σ → γ → τ → Prop} {s : State σ γ τ} {tid : ℕ} {c : γ} {t : τ} {s' : σ}
    (hp : s.pool tid = some (c, t)) (hc : S.commit s.now c t = .ok s') :
    S.Commits C s (.commit tid) ↔ C s.now c t := by
  constructor
  · intro h
    exact h c t s' hp hc
  · intro h c' t' s'' hp' _
    rw [hp, Option.some.injEq, Prod.mk.injEq] at hp'
    obtain ⟨rfl, rfl⟩ := hp'
    exact h

section Exact

variable {I : σ → Prop} {R : σ → σ → Prop} {A : γ → Prop} {C : σ → γ → τ → Prop}

/-- **The exact condition for a relation.**  If a commit relates the state it
runs on to the state it makes precisely when it meets `C`, then the relation
holds along an interleaving precisely when every commit in it meets `C`. -/
theorem along_iff_commits (h : S.Sound I R A) {K : σ → σ → Prop} (hrefl : ∀ s, K s s)
    (hK : ∀ {s₀ s s' : σ} {c : γ} {t : τ}, A c → I s₀ → S.read s₀ c = .ok t → R s₀ s →
      I s → S.commit s c t = .ok s' → (K s s' ↔ C s c t))
    {s : σ} (hs : I s) {es : List (Event γ)} (hes : ∀ e ∈ es, e.Calls A) :
    Along S.step (fun x e => K x.now (S.step x e).now) (State.quiet s) es
      ↔ Along S.step (S.Commits C) (State.quiet s) es := by
  refine along_iff_along (K := fun x y => K x.now y.now)
    (I := fun x => I x.now ∧ S.Origin I R A x) (fun x e hx he => h.inv_step x e hx he)
    ?_ ⟨hs, origin_quiet s⟩ hes
  rintro x e ⟨hi, ho⟩ -
  cases e with
  | read tid c => rw [now_step_read]; exact iff_of_true (hrefl _) trivial
  | commit tid =>
      rcases now_step_commit (S := S) x tid with he | ⟨c, t, hp, hc⟩
      · rw [he]
        refine iff_of_true (hrefl _) ?_
        intro c t s' hp hc
        rw [step_commit hp hc] at he
        obtain ⟨ha, s₀, hi₀, hr, hR⟩ := ho tid c t hp
        refine (hK ha hi₀ hr hR hi hc).1 ?_
        change s' = x.now at he
        rw [he]
        exact hrefl _
      · obtain ⟨ha, s₀, hi₀, hr, hR⟩ := ho tid c t hp
        rw [commits_iff hp hc]
        exact hK ha hi₀ hr hR hi hc

/-- **A condition for a property of the committed states.**  If every commit that meets `C` keeps
the property, it holds over every interleaving whose commits all meet `C`. -/
theorem always_of_commits (h : S.Sound I R A) {P : σ → Prop}
    (hP : ∀ {s₀ s s' : σ} {c : γ} {t : τ}, A c → I s₀ → S.read s₀ c = .ok t → R s₀ s →
      I s → P s → S.commit s c t = .ok s' → C s c t → P s')
    {s : σ} (hs : I s) (hPs : P s) {es : List (Event γ)} (hes : ∀ e ∈ es, e.Calls A)
    (hC : Along S.step (S.Commits C) (State.quiet s) es) :
    Always S.step (fun x => P x.now) (State.quiet s) es := by
  refine always_of_along (I := fun x => I x.now ∧ S.Origin I R A x)
    (fun x e hx he => h.inv_step x e hx he) ?_ ⟨hs, origin_quiet s⟩ hPs hes hC
  rintro x e ⟨hi, ho⟩ - hPx hCx
  cases e with
  | read tid c => rw [now_step_read]; exact hPx
  | commit tid =>
      rcases now_step_commit (S := S) x tid with he | ⟨c, t, hp, hc⟩
      · rw [he]
        exact hPx
      · obtain ⟨ha, s₀, hi₀, hr, hR⟩ := ho tid c t hp
        exact hP ha hi₀ hr hR hi hPx hc ((commits_iff hp hc).1 hCx)

/-- **The exact condition for a property of the committed states.** -/
theorem always_iff_commits (h : S.Sound I R A) {P : σ → Prop}
    (hP : ∀ {s₀ s s' : σ} {c : γ} {t : τ}, A c → I s₀ → S.read s₀ c = .ok t → R s₀ s →
      I s → P s → S.commit s c t = .ok s' → (P s' ↔ C s c t))
    {s : σ} (hs : I s) (hPs : P s) {es : List (Event γ)} (hes : ∀ e ∈ es, e.Calls A) :
    Always S.step (fun x => P x.now) (State.quiet s) es
      ↔ Along S.step (S.Commits C) (State.quiet s) es := by
  refine always_iff_along (P := fun x => P x.now)
    (I := fun x => I x.now ∧ S.Origin I R A x) (fun x e hx he => h.inv_step x e hx he)
    ?_ ⟨hs, origin_quiet s⟩ hPs hes
  rintro x e ⟨hi, ho⟩ - hPx
  cases e with
  | read tid c => rw [now_step_read]; exact iff_of_true hPx trivial
  | commit tid =>
      rcases now_step_commit (S := S) x tid with he | ⟨c, t, hp, hc⟩
      · rw [he]
        refine iff_of_true hPx ?_
        intro c t s' hp hc
        rw [step_commit hp hc] at he
        obtain ⟨ha, s₀, hi₀, hr, hR⟩ := ho tid c t hp
        refine (hP ha hi₀ hr hR hi hPx hc).1 ?_
        change s' = x.now at he
        rw [he]
        exact hPx
      · obtain ⟨ha, s₀, hi₀, hr, hR⟩ := ho tid c t hp
        rw [commits_iff hp hc]
        exact hP ha hi₀ hr hR hi hPx hc

end Exact

/-- In calls executed one at a time, every commit runs on the state its read has seen. -/
theorem along_commits_calls {C : σ → γ → τ → Prop}
    (hC : ∀ {s s' : σ} {c : γ} {t : τ}, S.read s c = .ok t → S.commit s c t = .ok s' → C s c t)
    (s : σ) (cs : List γ) : Along S.step (S.Commits C) (State.quiet s)
      (cs.flatMap fun c => [.read 0 c, .commit 0]) := by
  induction cs generalizing s with
  | nil => trivial
  | cons c cs ih =>
      refine ⟨trivial, ?_, ?_⟩
      · intro c' t s' hp hc
        rw [now_step_read] at hc ⊢
        rcases pool_step hp with hp | ⟨he, hr⟩
        · rw [State.pool_quiet] at hp
          exact absurd hp (by simp)
        · obtain ⟨-, rfl⟩ := Event.read.inj he
          exact hC hr hc
      · rw [step_read_commit c rfl]
        exact ih (S.call s c)

/-! ## Two calls -/

variable (S) in
/-- The step goes through: a read gets past its guards, a commit is not refused. -/
def Succeeds (s : State σ γ τ) : Event γ → Prop
  | .read tid c => s.pool tid = none ∧ ∃ t, S.read s.now c = .ok t
  | .commit tid => ∃ c t s', s.pool tid = some (c, t) ∧ S.commit s.now c t = .ok s'

instance (s : State σ γ τ) (e : Event γ) : Decidable (S.Succeeds s e) :=
  match e with
  | .read tid c => decidable_of_iff (s.pool tid = none ∧ (S.read s.now c).toOption.isSome) (by
      cases h : S.read s.now c <;> simp [Succeeds, h, Except.toOption])
  | .commit tid => decidable_of_iff
      (((s.pool tid).bind fun ct => (S.commit s.now ct.1 ct.2).toOption).isSome) (by
      cases hp : s.pool tid with
      | none => simp [Succeeds, hp]
      | some ct =>
          obtain ⟨c, t⟩ := ct
          cases h : S.commit s.now c t <;> simp [Succeeds, hp, h, Except.toOption])

theorem Succeeds.step_read {s : State σ γ τ} {tid : ℕ} {c : γ} (h : S.Succeeds s (.read tid c)) :
    ∃ t, S.read s.now c = .ok t ∧ S.step s (.read tid c) = s.setPool tid (some (c, t)) := by
  obtain ⟨hp, t, hr⟩ := h
  exact ⟨t, hr, Service.step_read hp hr⟩

theorem Succeeds.step_commit {s : State σ γ τ} {tid : ℕ} {c : γ} {t : τ}
    (h : S.Succeeds s (.commit tid)) (hp : s.pool tid = some (c, t)) :
    ∃ s', S.commit s.now c t = .ok s' ∧
      S.step s (.commit tid) = { s.setPool tid none with now := s' } := by
  obtain ⟨c', t', s', hp', hc⟩ := h
  rw [hp, Option.some.injEq, Prod.mk.injEq] at hp'
  obtain ⟨rfl, rfl⟩ := hp'
  exact ⟨s', hc, Service.step_commit hp hc⟩

end Service

/-- The two steps of a call. -/
def steps {γ : Type*} (tid : ℕ) (c : γ) : List (Event γ) := [.read tid c, .commit tid]

/-- An interleaving of two lists of events starts with the first event of one of them. -/
theorem interleaved_cons {ε : Type*} {p q : ε → Bool} {l xs ys : List ε} {x y : ε}
    (hl : ∀ e ∈ l, p e = ! q e) (hp : l.filter p = x :: xs) (hq : l.filter q = y :: ys) :
    ∃ l', (l = x :: l' ∧ l'.filter p = xs ∧ l'.filter q = y :: ys) ∨
      (l = y :: l' ∧ l'.filter p = x :: xs ∧ l'.filter q = ys) := by
  cases l with
  | nil => exact absurd hp (by simp)
  | cons e l =>
      have he := hl e List.mem_cons_self
      refine ⟨l, ?_⟩
      cases h : q e with
      | true =>
          rw [h] at he
          rw [List.filter_cons_of_neg (by simp [he])] at hp
          rw [List.filter_cons_of_pos h, List.cons.injEq] at hq
          exact Or.inr ⟨by rw [hq.1], hp, hq.2⟩
      | false =>
          rw [h] at he
          rw [List.filter_cons_of_neg (by simp [h])] at hq
          rw [List.filter_cons_of_pos he, List.cons.injEq] at hp
          exact Or.inl ⟨by rw [hp.1], hp.2, hq⟩

/-- An interleaving with nothing is the other list. -/
theorem interleaved_nil {ε : Type*} {p q : ε → Bool} {l ys : List ε}
    (hl : ∀ e ∈ l, p e = ! q e) (hp : l.filter p = []) (hq : l.filter q = ys) : l = ys := by
  rw [← hq, eq_comm, List.filter_eq_self]
  intro e he
  have hpe : p e = false := by simpa using List.filter_eq_nil_iff.1 hp e he
  simpa [hpe] using hl e he

/-- **Two calls, interleaved**: in turn, or with both reads before both commits. -/
theorem steps_interleaved {γ : Type*} {a b : ℕ} {c d : γ} {l : List (Event γ)} (hab : a ≠ b)
    (hl : ∀ e ∈ l, e.tid = a ∨ e.tid = b) (ha : l.filter (fun e => e.tid = a) = steps a c)
    (hb : l.filter (fun e => e.tid = b) = steps b d) :
    l = steps a c ++ steps b d ∨ l = steps b d ++ steps a c ∨
      ∃ l', (l = .read a c :: .read b d :: l' ∨ l = .read b d :: .read a c :: l') ∧
        ∀ e ∈ l', e = .commit a ∨ e = .commit b := by
  have hown : ∀ e ∈ l, decide (e.tid = a) = ! decide (e.tid = b) := by
    intro e he
    rcases hl e he with h | h
    · simp [h, hab]
    · simp [h, hab.symm]
  have htail : ∀ {e : Event γ} {l' : List (Event γ)}, l = e :: l' →
      ∀ e ∈ l', decide (e.tid = a) = ! decide (e.tid = b) := by
    intro e l' h e' he'
    exact hown e' (by rw [h]; exact List.mem_cons_of_mem _ he')
  have hcommits : ∀ {l' : List (Event γ)}, (∀ e ∈ l', e.tid = a ∨ e.tid = b) →
      l'.filter (fun e => e.tid = a) = [.commit a] →
      l'.filter (fun e => e.tid = b) = [.commit b] → ∀ e ∈ l', e = .commit a ∨ e = .commit b := by
    intro l' hl' ha' hb' e he
    rcases hl' e he with h | h
    · have hmem : e ∈ l'.filter (fun e => e.tid = a) := List.mem_filter.2 ⟨he, decide_eq_true h⟩
      rw [ha'] at hmem
      exact Or.inl (List.mem_singleton.1 hmem)
    · have hmem : e ∈ l'.filter (fun e => e.tid = b) := List.mem_filter.2 ⟨he, decide_eq_true h⟩
      rw [hb'] at hmem
      exact Or.inr (List.mem_singleton.1 hmem)
  obtain ⟨l₁, ⟨rfl, ha₁, hb₁⟩ | ⟨rfl, ha₁, hb₁⟩⟩ := interleaved_cons hown ha hb
  · have hown₁ := htail rfl
    obtain ⟨l₂, ⟨rfl, ha₂, hb₂⟩ | ⟨rfl, ha₂, hb₂⟩⟩ := interleaved_cons hown₁ ha₁ hb₁
    · refine Or.inl ?_
      rw [interleaved_nil (fun e he => hown₁ e (List.mem_cons_of_mem _ he)) ha₂ hb₂]
      rfl
    · exact Or.inr (Or.inr ⟨l₂, Or.inl rfl, hcommits (fun e he => hl e (by simp [he])) ha₂ hb₂⟩)
  · have hown₁ := htail rfl
    obtain ⟨l₂, ⟨rfl, ha₂, hb₂⟩ | ⟨rfl, ha₂, hb₂⟩⟩ := interleaved_cons hown₁ ha₁ hb₁
    · exact Or.inr (Or.inr ⟨l₂, Or.inr rfl, hcommits (fun e he => hl e (by simp [he])) ha₂ hb₂⟩)
    · refine Or.inr (Or.inl ?_)
      rw [interleaved_nil (p := fun e : Event γ => decide (e.tid = b))
        (q := fun e => decide (e.tid = a)) ?_ hb₂ ha₂]
      · rfl
      · intro e he
        simp [hown₁ e (List.mem_cons_of_mem _ he)]

end Split
