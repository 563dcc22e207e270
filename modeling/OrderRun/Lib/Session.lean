import Mathlib.Tactic.Common

/-!
# Database sessions

A session sends statements to a database inside a transaction.  What they write is seen by
the session itself, and by nobody else until it commits; a session that is closed without a
commit leaves nothing behind.

* `Session` — the committed contents, what the open transaction sees, and how the statements
  to come will end.
* `Script` — a program over a session.  It returns or raises, and leaves a session behind in
  both cases.
* `Script.Triple` — pre- and postconditions, with one postcondition for each of the two
  endings.  `Session.Open` says what an open transaction sees and what is committed,
  `Session.Leaves` what an exception leaves behind, and there is a rule for each statement.
* `Script.Returns` — scripts that return and leave the session as it is: all that may follow
  a commit.
* `Script.Reraises` — `except` clauses that raise again.
* `query_quiet`, `execute_quiet`, `attempt_quiet`, `Moves` — sessions without mishaps.
-/

/-- A session: the contents of the database as committed, the contents its open transaction
sees, and how the next statements it sends will end. -/
structure Session (δ ε : Type) where
  committed : δ
  current : δ
  /-- An exception for each statement that fails; statements beyond the list go through. -/
  mishaps : List (Option ε)

/-- A program over a session. -/
def Script (δ ε α : Type) : Type := Session δ ε → Except ε α × Session δ ε

namespace Session

variable {δ ε : Type}

/-- A session that has sent nothing yet. -/
def start (d : δ) (mishaps : List (Option ε)) : Session δ ε := ⟨d, d, mishaps⟩

/-- The committed contents are `d`, and the transaction sees `x`. -/
def Open (d x : δ) (s : Session δ ε) : Prop := s.committed = d ∧ s.current = x

/-- An exception has left the committed contents as they were, or as `N` allows. -/
def Leaves (d : δ) (N : ε → δ → Prop) (e : ε) (s : Session δ ε) : Prop :=
  s.committed = d ∨ N e s.committed

/-- No exception may leave anything behind. -/
def Nothing : ε → δ → Prop := fun _ _ => False

theorem open_start (d : δ) (mishaps : List (Option ε)) : Open d d (start d mishaps) := ⟨rfl, rfl⟩

theorem leaves_nothing {d : δ} {e : ε} {s : Session δ ε} :
    Leaves d Nothing e s ↔ s.committed = d :=
  or_iff_left id

end Session

namespace Script

open Session

variable {δ ε α β : Type}

/-! ## Statements -/

instance : Monad (Script δ ε) where
  pure a := fun s => (.ok a, s)
  bind m f := fun s =>
    match m s with
    | (.ok a, s') => f a s'
    | (.error e, s') => (.error e, s')

/-- `raise`. -/
def raise (e : ε) : Script δ ε α := fun s => (.error e, s)

/-- `try: ... except ...: ...`. -/
def handle (m : Script δ ε α) (recover : ε → Script δ ε α) : Script δ ε α := fun s =>
  match m s with
  | (.ok a, s') => (.ok a, s')
  | (.error e, s') => recover e s'

/-- A statement is sent: it fails if a mishap is due. -/
def send : Script δ ε Unit := fun s =>
  match s.mishaps with
  | [] => (.ok (), s)
  | none :: mishaps => (.ok (), { s with mishaps := mishaps })
  | some e :: mishaps => (.error e, { s with mishaps := mishaps })

/-- What the program computes from the contents the session sees. -/
def ask (g : δ → Except ε α) : Script δ ε α := fun s => (g s.current, s)

/-- A write; it may be refused, and then writes nothing. -/
def put (g : δ → Except ε δ) : Script δ ε Unit := fun s =>
  match g s.current with
  | .error e => (.error e, s)
  | .ok d => (.ok (), { s with current := d })

/-- A query, and what the program makes of it. -/
def query (g : δ → Except ε α) : Script δ ε α := do
  send
  ask g

/-- A statement that writes. -/
def execute (g : δ → Except ε δ) : Script δ ε Unit := do
  send
  put g

/-- What the transaction sees becomes the committed contents. -/
def settle : Script δ ε Unit := fun s => (.ok (), { s with committed := s.current })

/-- `COMMIT`. -/
def commit : Script δ ε Unit := do
  send
  settle

/-- `ROLLBACK`. -/
def rollback : Script δ ε Unit := fun s => (.ok (), { s with current := s.committed })

/-- Has it gone through? -/
def attempt (m : Script δ ε Unit) : Script δ ε Bool :=
  handle (do m; return true) fun _ => return false

section Runs

variable {γ : Type} {m : Script δ ε α} {f : α → Script δ ε β} {recover : ε → Script δ ε α}
  {s s' : Session δ ε} {a : α} {e : ε}

theorem bind_ok (h : m s = (.ok a, s')) : (m >>= f) s = f a s' := by
  show (match m s with | (.ok a, s') => f a s' | (.error e, s') => (.error e, s')) = _
  rw [h]

theorem bind_error (h : m s = (.error e, s')) : (m >>= f) s = (.error e, s') := by
  show (match m s with | (.ok a, s') => f a s' | (.error e, s') => (.error e, s')) = _
  rw [h]

theorem bind_bind (m : Script δ ε α) (f : α → Script δ ε β) (g : β → Script δ ε γ) :
    m >>= f >>= g = m >>= fun a => f a >>= g := by
  funext s
  rcases hm : m s with ⟨e | a, s'⟩
  · rw [bind_error hm, bind_error (bind_error hm)]
  · rw [bind_ok hm]
    rcases hf : f a s' with ⟨e | b, s''⟩
    · rw [bind_error hf, bind_error ((bind_ok hm).trans hf)]
    · rw [bind_ok hf, bind_ok ((bind_ok hm).trans hf)]

theorem handle_ok (h : m s = (.ok a, s')) : handle m recover s = (.ok a, s') := by
  unfold handle
  rw [h]

theorem handle_error (h : m s = (.error e, s')) : handle m recover s = recover e s' := by
  unfold handle
  rw [h]

theorem ask_ok (g : δ → α) (s : Session δ ε) :
    ask (fun x => .ok (g x)) s = (.ok (g s.current), s) := rfl

theorem put_ok {d' : δ} {g : δ → Except ε δ} {s : Session δ ε} (h : g s.current = .ok d') :
    put g s = (.ok (), { s with current := d' }) := by
  unfold put
  rw [h]

theorem put_error {g : δ → Except ε δ} {s : Session δ ε} {e : ε} (h : g s.current = .error e) :
    put g s = (.error e, s) := by
  unfold put
  rw [h]

end Runs

/-! ## Pre- and postconditions -/

/-- From a session with `P`, the script returns into a session with `Q`, or raises into one
with `E`. -/
def Triple (P : Session δ ε → Prop) (m : Script δ ε α) (Q : α → Session δ ε → Prop)
    (E : ε → Session δ ε → Prop) : Prop :=
  ∀ s, P s → match m s with
    | (.ok a, s') => Q a s'
    | (.error e, s') => E e s'

namespace Triple

variable {P P' : Session δ ε → Prop} {Q Q' R : α → Session δ ε → Prop}
  {E E' : ε → Session δ ε → Prop} {m : Script δ ε α}

theorem ret {a : α} (h : ∀ s, P s → Q a s) : Triple P (pure a : Script δ ε α) Q E := h

theorem raise {e : ε} (h : ∀ s, P s → E e s) : Triple P (Script.raise e : Script δ ε α) Q E := h

theorem weaken (h : Triple P m Q E) (hP : ∀ s, P' s → P s) (hQ : ∀ a s, Q a s → Q' a s)
    (hE : ∀ e s, E e s → E' e s) : Triple P' m Q' E' := by
  intro s hs
  have hm := h s (hP s hs)
  rcases hr : m s with ⟨e | a, s'⟩
  · rw [hr] at hm
    exact hE e s' hm
  · rw [hr] at hm
    exact hQ a s' hm

/-- Scripts one after the other. -/
theorem bind {Q : β → Session δ ε → Prop} {f : α → Script δ ε β} (hm : Triple P m R E)
    (hf : ∀ a, Triple (R a) (f a) Q E) : Triple P (m >>= f) Q E := by
  intro s hs
  have hfirst := hm s hs
  rcases hr : m s with ⟨e | a, s'⟩
  · rw [hr] at hfirst
    rw [bind_error hr]
    exact hfirst
  · rw [hr] at hfirst
    rw [bind_ok hr]
    exact hf a s' hfirst

/-- The `except` clause takes over where the exception has left off. -/
theorem handle {recover : ε → Script δ ε α} (hm : Triple P m Q E')
    (hrecover : ∀ e, Triple (E' e) (recover e) Q E) : Triple P (Script.handle m recover) Q E := by
  intro s hs
  have hfirst := hm s hs
  rcases hr : m s with ⟨e | a, s'⟩
  · rw [hr] at hfirst
    rw [handle_error hr]
    exact hrecover e s' hfirst
  · rw [hr] at hfirst
    rw [handle_ok hr]
    exact hfirst

/-- What the precondition says apart from the session may be assumed. -/
theorem assuming {φ : Prop} (h : φ → Triple P m Q E) : Triple (fun s => φ ∧ P s) m Q E :=
  fun s hs => h hs.1 s hs.2

theorem exists_pre {ι : Type} {P : ι → Session δ ε → Prop} (h : ∀ i, Triple (P i) m Q E) :
    Triple (fun s => ∃ i, P i s) m Q E :=
  fun s ⟨i, hs⟩ => h i s hs

theorem of_ok (h : Triple P m Q E) {s s' : Session δ ε} {a : α} (hs : P s)
    (hm : m s = (.ok a, s')) : Q a s' := by
  have hq := h s hs
  rw [hm] at hq
  exact hq

theorem of_error (h : Triple P m Q E) {s s' : Session δ ε} {e : ε} (hs : P s)
    (hm : m s = (.error e, s')) : E e s' := by
  have he := h s hs
  rw [hm] at he
  exact he

/-! ### Open transactions -/

section Open

variable {d x : δ} {N : ε → δ → Prop} {Q : β → Session δ ε → Prop} {f : α → Script δ ε β}

/-- Sending a statement writes nothing. -/
theorem open_send : Triple (Open d x) send (fun _ => Open d x) (Leaves d N) := by
  intro s hs
  unfold send
  cases s.mishaps with
  | nil => exact hs
  | cons mishap mishaps =>
      cases mishap with
      | none => exact hs
      | some e => exact Or.inl hs.1

theorem ask_bind {g : δ → Except ε α}
    (h : ∀ a, g x = .ok a → Triple (Open d x) (f a) Q (Leaves d N)) :
    Triple (Open d x) (ask g >>= f) Q (Leaves d N) := by
  refine .bind (R := fun a s => g x = .ok a ∧ Open d x s) ?_ fun a => assuming (h a)
  rintro s ⟨hd, rfl⟩
  unfold ask
  cases hg : g s.current with
  | ok a => exact ⟨rfl, hd, rfl⟩
  | error e => exact Or.inl hd

theorem query_bind {g : δ → Except ε α}
    (h : ∀ a, g x = .ok a → Triple (Open d x) (f a) Q (Leaves d N)) :
    Triple (Open d x) (query g >>= f) Q (Leaves d N) := by
  unfold query
  rw [bind_bind]
  exact open_send.bind fun _ => ask_bind h

theorem put_bind {g : δ → Except ε δ} {f : Unit → Script δ ε β}
    (h : ∀ x', g x = .ok x' → Triple (Open d x') (f ()) Q (Leaves d N)) :
    Triple (Open d x) (put g >>= f) Q (Leaves d N) := by
  intro s hs
  obtain ⟨hd, rfl⟩ := hs
  cases hg : g s.current with
  | ok x' =>
      rw [bind_ok (put_ok hg)]
      exact h x' hg _ ⟨hd, rfl⟩
  | error e =>
      rw [bind_error (put_error hg)]
      exact Or.inl hd

theorem execute_bind {g : δ → Except ε δ} {f : Unit → Script δ ε β}
    (h : ∀ x', g x = .ok x' → Triple (Open d x') (f ()) Q (Leaves d N)) :
    Triple (Open d x) (execute g >>= f) Q (Leaves d N) := by
  unfold execute
  rw [bind_bind]
  exact open_send.bind fun _ => put_bind h

/-- A statement that is never refused. -/
theorem open_execute {g : δ → δ} : Triple (Open d x) (execute fun y => .ok (g y))
    (fun _ => Open d (g x)) (Leaves d N) := by
  refine open_send.bind fun _ => ?_
  rintro s ⟨hd, rfl⟩
  exact ⟨hd, rfl⟩

/-- What a commit makes visible is what the transaction has seen. -/
theorem open_commit : Triple (Open d x) commit (fun _ => Open x x) (Leaves d N) :=
  open_send.bind fun _ _ hs => ⟨hs.2, hs.2⟩

theorem open_rollback {E : ε → Session δ ε → Prop} :
    Triple (Open d x) (rollback : Script δ ε Unit) (fun _ => Open d d) E :=
  fun _ hs => ⟨hs.1, hs.1⟩

theorem open_raise {e : ε} :
    Triple (Open d x) (Script.raise e : Script δ ε β) Q (Leaves d N) :=
  .raise fun _ hs => Or.inl hs.1

/-- An attempt to send a statement does not raise. -/
theorem attempt_bind {f : Bool → Script δ ε β} {E : ε → Session δ ε → Prop}
    (h : ∀ b, Triple (Open d x) (f b) Q E) :
    Triple (Open d x) (attempt send >>= f) Q E := by
  refine .bind (R := fun _ => Open d x) ?_ h
  intro s hs
  unfold attempt send
  rcases s with ⟨committed, current, mishaps⟩
  cases mishaps with
  | nil => exact hs
  | cons mishap mishaps =>
      cases mishap with
      | none => exact hs
      | some e => exact hs

end Open

end Triple

/-! ## Answers -/

/-- On contents `x` the script returns `a`, and does not touch the session. -/
def Returns (x : δ) (m : Script δ ε α) (a : α) : Prop :=
  ∀ s : Session δ ε, s.current = x → m s = (.ok a, s)

namespace Returns

variable {x : δ} {m : Script δ ε α} {a : α} {b : β}

theorem ret (a : α) : Returns x (pure a : Script δ ε α) a := fun _ _ => rfl

theorem ask {g : δ → Except ε α} (h : g x = .ok a) : Returns x (Script.ask g) a := by
  rintro s rfl
  exact congrArg (·, s) h

theorem bind {f : α → Script δ ε β} (hm : Returns x m a) (hf : Returns x (f a) b) :
    Returns x (m >>= f) b :=
  fun s hs => (bind_ok (hm s hs)).trans (hf s hs)

/-- After a commit nothing can go wrong with an answer. -/
theorem triple (h : Returns x m a) {d : δ} {E : ε → Session δ ε → Prop} :
    Triple (Open d x) m (fun b s => b = a ∧ Open d x s) E := by
  intro s hs
  rw [h s hs.2]
  exact ⟨rfl, hs⟩

end Returns

/-! ## Clauses that raise again -/

/-- The clause raises, and commits nothing before it does. -/
def Reraises (recover : ε → Script δ ε α) : Prop :=
  ∀ e s, ∃ e' s', recover e s = (.error e', s') ∧ s'.committed = s.committed

theorem reraises_raise : Reraises (raise : ε → Script δ ε α) := fun e s => ⟨e, s, rfl, rfl⟩

/-- `except: rollback; raise`. -/
theorem reraises_rollback (g : ε → ε) :
    Reraises (fun e => do rollback; raise (g e) : ε → Script δ ε α) :=
  fun e s => ⟨g e, { s with current := s.committed }, rfl, rfl⟩

theorem Triple.handle_reraises {P : Session δ ε → Prop} {m : Script δ ε α}
    {Q : α → Session δ ε → Prop} {d : δ} {N : ε → δ → Prop} {recover : ε → Script δ ε α}
    (hm : Triple P m Q (Leaves d Nothing)) (h : Reraises recover) :
    Triple P (Script.handle m recover) Q (Leaves d N) := by
  refine .handle hm fun e s hs => ?_
  obtain ⟨e', s', hraise, hcommitted⟩ := h e s
  rw [hraise]
  exact Or.inl (hcommitted.trans (leaves_nothing.1 hs))

/-! ## Sessions without mishaps -/

section Quiet

variable {d x x' : δ}

theorem query_quiet (g : δ → Except ε α) : query g ⟨d, x, []⟩ = (g x, ⟨d, x, []⟩) := rfl

theorem execute_quiet {g : δ → Except ε δ} (h : g x = .ok x') :
    execute g ⟨d, x, []⟩ = (.ok (), ⟨d, x', []⟩) :=
  put_ok h

theorem execute_quiet_error {g : δ → Except ε δ} {e : ε} (h : g x = .error e) :
    execute g ⟨d, x, []⟩ = (.error e, ⟨d, x, []⟩) :=
  put_error h

theorem attempt_quiet : attempt send (⟨d, x, []⟩ : Session δ ε) = (.ok true, ⟨d, x, []⟩) := rfl

end Quiet

/-! ## Writes that nothing refuses -/

/-- Unless a mishap stops it, the script returns, and takes the transaction from `x` to `x'`. -/
structure Moves (x : δ) (m : Script δ ε α) (x' : δ) : Prop where
  triple : ∀ {d : δ} {N : ε → δ → Prop}, Triple (Open d x) m (fun _ => Open d x') (Leaves d N)
  quiet : ∀ d, ∃ a, m ⟨d, x, []⟩ = (.ok a, ⟨d, x', []⟩)

namespace Moves

variable {x x' x'' : δ} {m : Script δ ε α}

theorem ret (a : α) : Moves x (pure a : Script δ ε α) x :=
  ⟨.ret fun _ hs => hs, fun _ => ⟨a, rfl⟩⟩

theorem ask (g : δ → α) : Moves x (Script.ask fun y => .ok (g y) : Script δ ε α) x :=
  ⟨fun _ hs => hs, fun _ => ⟨g x, rfl⟩⟩

theorem query (g : δ → α) : Moves x (Script.query fun y => .ok (g y) : Script δ ε α) x where
  triple := Triple.open_send.bind fun _ _ hs => hs
  quiet := fun _ => ⟨g x, rfl⟩

theorem execute (g : δ → δ) : Moves x (Script.execute fun y => .ok (g y) : Script δ ε Unit) (g x) :=
  ⟨.open_execute, fun _ => ⟨(), rfl⟩⟩

theorem bind {f : α → Script δ ε β} (hm : Moves x m x') (hf : ∀ a, Moves x' (f a) x'') :
    Moves x (m >>= f) x'' := by
  refine ⟨hm.triple.bind fun a => (hf a).triple, fun d => ?_⟩
  obtain ⟨a, ha⟩ := hm.quiet d
  obtain ⟨b, hb⟩ := (hf a).quiet d
  exact ⟨b, (bind_ok ha).trans hb⟩

end Moves

end Script
