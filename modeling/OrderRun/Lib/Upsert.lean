import OrderRun.Lib.Serial
import OrderRun.Lib.Table

/-!
# One row for each owner

A table whose rows have an owner, and a unique constraint on that column.  A call looks for
the owner's row, inserts one or assigns columns of the one it has found, and commits later.
An owner who leaves makes no more calls, and may take her row along.

* `Form` — how requests fill the rows; `service` — the read step and the commit step.
* `Distinct`, `Kept`, `kept_always` — in every interleaving no owner has two rows, and what
  every request and every mixture of columns provides holds of every row.
* `stays_run` — rows that nobody takes along stay.
* `Book`, `book_run` — calls one at a time keep a book with one entry for each owner.
* `framed`, `book_serial` — so do interleavings in which the calls of one owner do not overlap.
-/

namespace Upsert

open Store Split Runs

/-- How requests `φ` fill rows `ρ` with owners `ο`; `τ` are instants. -/
structure Form (ο φ τ ρ : Type) [Keyed ρ ℕ] where
  owner : ρ → ο
  /-- The object for an owner who has no row. -/
  create : ο → φ → ρ
  /-- What a request assigns to an object. -/
  assign : φ → ρ → ρ
  /-- `INSERT` gives the object its key and its time stamps. -/
  stamp : τ → ℕ → ρ → ρ
  /-- `UPDATE` of a row: the object as it was loaded and as it is now, and the row. -/
  flush : ρ → ρ → τ → ρ → ρ
  /-- Does an owner who leaves take her row along? -/
  purges : Bool
  owner_create : ∀ o q, owner (create o q) = o
  owner_stamp : ∀ t k r, owner (stamp t k r) = owner r
  key_stamp : ∀ t k r, Keyed.key (stamp t k r) = k
  owner_flush : ∀ l d t r, owner (flush l d t r) = owner r
  key_flush : ∀ l d t r, Keyed.key (flush l d t r) = Keyed.key r

inductive Call (ο φ τ : Type) where
  | save (owner : ο) (request : φ) (utcnow : τ)
  | leave (owner : ο)

/-- What a call commits. -/
inductive Work (ο τ ρ : Type) where
  | insert (utcnow : τ) (r : ρ)
  | update (utcnow : τ) (change : Change ρ)
  | leave (owner : ο)

/-- Why a call is refused. -/
inductive Refusal where
  /-- The owner is not there, or has left. -/
  | unknown
  /-- The unique constraint. -/
  | duplicate
  /-- The row to be updated is gone. -/
  | stale
  deriving DecidableEq, Repr

/-- The table, and the owners who are there. -/
structure Register (ο ρ : Type) [Keyed ρ ℕ] where
  rows : AutoTable ρ
  active : List ο

def Call.owner {ο φ τ : Type} : Call ο φ τ → ο
  | .save o _ _ => o
  | .leave o => o

namespace Form

variable {ο φ τ ρ : Type} [Keyed ρ ℕ] (F : Form ο φ τ ρ)

/-- A row after an `UPDATE`. -/
def row (t : τ) (c : Change ρ) (r : ρ) : ρ :=
  if Keyed.key r = Keyed.key c.loaded then F.flush c.loaded c.dirty t r else r

theorem row_of_key {t : τ} {c : Change ρ} {r : ρ} (h : Keyed.key r = Keyed.key c.loaded) :
    F.row t c r = F.flush c.loaded c.dirty t r := if_pos h

@[simp] theorem key_row (t : τ) (c : Change ρ) (r : ρ) : Keyed.key (F.row t c r) = Keyed.key r := by
  unfold row
  split
  · exact F.key_flush _ _ _ _
  · rfl

@[simp] theorem owner_row (t : τ) (c : Change ρ) (r : ρ) : F.owner (F.row t c r) = F.owner r := by
  unfold row
  split
  · exact F.owner_flush _ _ _ _
  · rfl

variable [DecidableEq ο]

/-- The row of an owner. -/
def lookup (d : Register ο ρ) (o : ο) : Option ρ := d.rows.rows.find? fun r => F.owner r = o

/-- What a call that has been let in prepares. -/
def prepare (d : Register ο ρ) : Call ο φ τ → Work ο τ ρ
  | .save o q t =>
      match F.lookup d o with
      | none => .insert t (F.create o q)
      | some r => .update t ⟨r, F.assign q r⟩
  | .leave o => .leave o

/-- The rows that stay when an owner leaves. -/
def without (rows : AutoTable ρ) (o : ο) : AutoTable ρ :=
  if F.purges then rows.filter fun r => F.owner r ≠ o else rows

/-- Calls in two steps. -/
def service [DecidableEq ρ] : Service (Register ο ρ) (Call ο φ τ) (Work ο τ ρ) Refusal where
  read d c := if c.owner ∈ d.active then .ok (F.prepare d c) else .error .unknown
  commit d _
    | .insert t r =>
        if ∃ x ∈ d.rows.rows, F.owner x = F.owner r then .error .duplicate
        else .ok { d with
          rows := d.rows.insert (fun k => F.stamp t k r) fun k => F.key_stamp t k r }
    | .update t c =>
        if c.dirty = c.loaded then .ok d
        else if ∃ x ∈ d.rows.rows, Keyed.key x = Keyed.key c.loaded then
          .ok { d with rows := d.rows.map (F.row t c) (F.key_row t c) }
        else .error .stale
    | .leave o => .ok { rows := F.without d.rows o, active := d.active.filter (· ≠ o) }

/-! ## What the two steps do -/

section Spec

variable {F} {d d' : Register ο ρ} {c : Call ο φ τ} {o : ο} {r : ρ} {t : τ}

theorem lookup_eq_some (h : F.lookup d o = some r) : r ∈ d.rows ∧ F.owner r = o :=
  ⟨List.mem_of_find?_eq_some h, by simpa using List.find?_some h⟩

theorem lookup_eq_none_iff : F.lookup d o = none ↔ ∀ r ∈ d.rows, F.owner r ≠ o := by
  simp [lookup, List.find?_eq_none, AutoTable.mem_iff]

theorem prepare_of_none {q : φ} (h : F.lookup d o = none) :
    F.prepare d (.save o q t) = .insert t (F.create o q) := by
  simp only [prepare, h]

theorem prepare_of_some {q : φ} (h : F.lookup d o = some r) :
    F.prepare d (.save o q t) = .update t ⟨r, F.assign q r⟩ := by
  simp only [prepare, h]

theorem mem_without {rows : AutoTable ρ} :
    r ∈ F.without rows o ↔ r ∈ rows ∧ (F.purges = true → F.owner r ≠ o) := by
  unfold without
  split <;> simp_all

variable [DecidableEq ρ]

theorem read_eq_ok {work : Work ο τ ρ} :
    F.service.read d c = .ok work ↔ c.owner ∈ d.active ∧ F.prepare d c = work := by
  by_cases h : c.owner ∈ d.active <;> simp [service, h]

theorem commit_insert_eq_ok : F.service.commit d c (.insert t r) = .ok d' ↔
    (∀ x ∈ d.rows, F.owner x ≠ F.owner r) ∧
      d' = { d with
        rows := d.rows.insert (fun k => F.stamp t k r) fun k => F.key_stamp t k r } := by
  simp only [service]
  split
  · next h =>
      obtain ⟨x, hx, hox⟩ := h
      exact iff_of_false (by simp) fun h => h.1 x hx hox
  · next h =>
      rw [Except.ok.injEq, eq_comm, and_iff_right]
      exact fun x hx hox => h ⟨x, hx, hox⟩

theorem commit_update_eq_ok {change : Change ρ} :
    F.service.commit d c (.update t change) = .ok d' ↔
      (change.dirty = change.loaded ∧ d' = d) ∨
        (change.dirty ≠ change.loaded ∧ (∃ x ∈ d.rows, Keyed.key x = Keyed.key change.loaded) ∧
          d' = { d with rows := d.rows.map (F.row t change) (F.key_row t change) }) := by
  simp only [service]
  split
  · next h => simp [h, eq_comm]
  · next h =>
      split
      · next hx =>
          rw [Except.ok.injEq, eq_comm]
          constructor
          · rintro rfl
            exact Or.inr ⟨h, hx, rfl⟩
          · rintro (⟨hsame, -⟩ | ⟨-, -, hd⟩)
            · exact absurd hsame h
            · exact hd
      · next hx =>
          refine iff_of_false (by simp) ?_
          rintro (⟨hsame, -⟩ | ⟨-, hx', -⟩)
          · exact h hsame
          · exact hx hx'

end Spec

/-! ## What every interleaving keeps -/

/-- No owner has two rows. -/
def Distinct (d : Register ο ρ) : Prop := ∀ r ∈ d.rows, ∀ s ∈ d.rows, F.owner r = F.owner s → r = s

/-- Keys are not handed out again, and rows keep their owners. -/
structure Grows (d d' : Register ο ρ) : Prop where
  next : d.rows.next ≤ d'.rows.next
  old : ∀ r ∈ d'.rows, Keyed.key r < d.rows.next →
    ∃ r₀ ∈ d.rows, Keyed.key r₀ = Keyed.key r ∧ F.owner r₀ = F.owner r

/-- What a request `q` with `A o q` provides, and columns of two good rows of one owner keep. -/
structure Kept (A : ο → φ → Prop) (Good : ρ → Prop) : Prop where
  create : ∀ {o q}, A o q → ∀ t k, Good (F.stamp t k (F.create o q))
  flush : ∀ {l q r}, A (F.owner l) q → Good l → Good r → F.owner l = F.owner r →
    ∀ t, Good (F.flush l (F.assign q l) t r)

end Form

/-- The request of a call, if it has one, satisfies `A`. -/
def Call.Meets {ο φ τ : Type} (A : ο → φ → Prop) : Call ο φ τ → Prop
  | .save o q _ => A o q
  | .leave _ => True

namespace Form

section Kept

variable {ο φ τ ρ : Type} [Keyed ρ ℕ] {F : Form ο φ τ ρ} {d d₀ d₁ d₂ : Register ο ρ}

theorem Grows.refl (d : Register ο ρ) : F.Grows d d := ⟨le_rfl, fun r hr _ => ⟨r, hr, rfl, rfl⟩⟩

theorem Grows.trans (h : F.Grows d₀ d₁) (h' : F.Grows d₁ d₂) : F.Grows d₀ d₂ where
  next := h.next.trans h'.next
  old := by
    intro r hr hlt
    obtain ⟨r₁, hr₁, hkey₁, howner₁⟩ := h'.old r hr (hlt.trans_le h.next)
    obtain ⟨r₀, hr₀, hkey₀, howner₀⟩ := h.old r₁ hr₁ (hkey₁ ▸ hlt)
    exact ⟨r₀, hr₀, hkey₀.trans hkey₁, howner₀.trans howner₁⟩

/-- A row that was loaded earlier, if it is still there, has kept its owner. -/
theorem Grows.owner_eq (h : F.Grows d₀ d) {l r : ρ} (hl : l ∈ d₀.rows) (hr : r ∈ d.rows)
    (hkey : Keyed.key r = Keyed.key l) : F.owner l = F.owner r := by
  obtain ⟨r₀, hr₀, hkey₀, howner⟩ := h.old r hr (hkey ▸ AutoTable.lt_next hl)
  obtain rfl : r₀ = l := AutoTable.eq_of_key_eq hr₀ hl (hkey₀.trans hkey)
  exact howner

variable [DecidableEq ο] [DecidableEq ρ] {A : ο → φ → Prop} {Good : ρ → Prop}

/-- **One commit** keeps what every request and every mixture of columns provides. -/
theorem sound (hgood : F.Kept A Good) : F.service.Sound
    (fun d => F.Distinct d ∧ ∀ r ∈ d.rows, Good r) F.Grows (Call.Meets A) where
  refl := Grows.refl
  trans := fun _ _ _ => Grows.trans
  commit := by
    rintro d₀ d d' c work hA ⟨-, hgood₀⟩ hread hgrows ⟨hdistinct, hgoods⟩ hcommit
    obtain ⟨-, rfl⟩ := read_eq_ok.1 hread
    cases c with
    | leave o =>
        obtain rfl := Except.ok.inj hcommit
        refine ⟨⟨?_, ?_⟩, ?_, ?_⟩
        · intro r hr s hs
          exact hdistinct r (mem_without.1 hr).1 s (mem_without.1 hs).1
        · exact fun r hr => hgoods r (mem_without.1 hr).1
        · show d.rows.next ≤ (F.without d.rows o).next
          unfold without
          split <;> exact le_rfl
        · exact fun r hr _ => ⟨r, (mem_without.1 hr).1, rfl, rfl⟩
    | save o q t =>
        cases hl : F.lookup d₀ o with
        | none =>
            rw [prepare_of_none hl] at hcommit
            obtain ⟨hfree, rfl⟩ := commit_insert_eq_ok.1 hcommit
            have hnew : F.owner (F.stamp t d.rows.next (F.create o q)) = F.owner (F.create o q) :=
              F.owner_stamp _ _ _
            refine ⟨⟨?_, ?_⟩, Nat.le_succ _, ?_⟩
            · intro r hr s hs howner
              rcases AutoTable.mem_insert.1 hr with hr | rfl <;>
                rcases AutoTable.mem_insert.1 hs with hs | rfl
              · exact hdistinct r hr s hs howner
              · exact absurd (howner.trans hnew) (hfree r hr)
              · exact absurd (howner.symm.trans hnew) (hfree s hs)
              · rfl
            · intro r hr
              rcases AutoTable.mem_insert.1 hr with hr | rfl
              · exact hgoods r hr
              · exact hgood.create hA _ _
            · intro r hr hlt
              rcases AutoTable.mem_insert.1 hr with hr | rfl
              · exact ⟨r, hr, rfl, rfl⟩
              · rw [F.key_stamp] at hlt
                exact absurd hlt (lt_irrefl _)
        | some l =>
            rw [prepare_of_some hl] at hcommit
            obtain ⟨hmem, howner⟩ := lookup_eq_some hl
            rcases commit_update_eq_ok.1 hcommit with ⟨-, rfl⟩ | ⟨-, -, rfl⟩
            · exact ⟨⟨hdistinct, hgoods⟩, Grows.refl d'⟩
            · refine ⟨⟨?_, ?_⟩, le_rfl, ?_⟩
              · intro r hr s hs he
                obtain ⟨r', hr', rfl⟩ := AutoTable.mem_map.1 hr
                obtain ⟨s', hs', rfl⟩ := AutoTable.mem_map.1 hs
                rw [F.owner_row, F.owner_row] at he
                rw [hdistinct r' hr' s' hs' he]
              · intro r hr
                obtain ⟨r', hr', rfl⟩ := AutoTable.mem_map.1 hr
                unfold row
                split
                · next hkey =>
                    exact hgood.flush (howner.symm ▸ hA) (hgood₀ l hmem) (hgoods r' hr')
                      (hgrows.owner_eq hmem hr' hkey) t
                · exact hgoods r' hr'
              · intro r hr _
                obtain ⟨r', hr', rfl⟩ := AutoTable.mem_map.1 hr
                exact ⟨r', hr', (F.key_row _ _ _).symm, (F.owner_row _ _ _).symm⟩

/-- **Every committed state of every interleaving** has one row for each owner, and good ones. -/
theorem kept_always (hgood : F.Kept A Good) {d : Register ο ρ} (hdistinct : F.Distinct d)
    (hgoods : ∀ r ∈ d.rows, Good r) {es : List (Event (Call ο φ τ))}
    (hes : ∀ e ∈ es, e.Calls (Call.Meets A)) :
    Always F.service.step (fun s => F.Distinct s.now ∧ ∀ r ∈ s.now.rows, Good r)
      (State.quiet d) es := by
  refine always_iff.2 fun pre suf h => ?_
  exact (always_iff.1 ((sound hgood).inv_run ⟨hdistinct, hgoods⟩ hes) pre suf h).1

/-! ## What stays -/

variable (F) in
/-- Every row is still there, with its owner. -/
def Stays (d d' : Register ο ρ) : Prop :=
  ∀ r ∈ d.rows, ∃ r' ∈ d'.rows, Keyed.key r' = Keyed.key r ∧ F.owner r' = F.owner r

theorem stays_commit (hpurges : F.purges = false) {d' : Register ο ρ} {c : Call ο φ τ}
    {work : Work ο τ ρ} (hcommit : F.service.commit d c work = .ok d') : F.Stays d d' := by
  intro r hr
  cases work with
  | insert t x =>
      obtain ⟨-, rfl⟩ := commit_insert_eq_ok.1 hcommit
      exact ⟨r, AutoTable.mem_insert.2 (Or.inl hr), rfl, rfl⟩
  | update t change =>
      rcases commit_update_eq_ok.1 hcommit with ⟨-, rfl⟩ | ⟨-, -, rfl⟩
      · exact ⟨r, hr, rfl, rfl⟩
      · exact ⟨F.row t change r, AutoTable.mem_map.2 ⟨r, hr, rfl⟩, F.key_row _ _ _,
          F.owner_row _ _ _⟩
  | leave o =>
      obtain rfl := Except.ok.inj hcommit
      exact ⟨r, mem_without.2 ⟨hr, by simp [hpurges]⟩, rfl, rfl⟩

/-- **Rows that nobody takes along stay**, in every interleaving. -/
theorem stays_run (hpurges : F.purges = false) (s : State (Register ο ρ) (Call ο φ τ) (Work ο τ ρ))
    (es : List (Event (Call ο φ τ))) : F.Stays s.now (run F.service.step s es).now := by
  refine inv_run
    (I := fun x : State (Register ο ρ) (Call ο φ τ) (Work ο τ ρ) => F.Stays s.now x.now)
    (fun x e h => ?_) (fun r hr => ⟨r, hr, rfl, rfl⟩) es
  cases e with
  | read tid c => rwa [Service.now_step_read]
  | commit tid =>
      rcases Service.now_step_commit (S := F.service) x tid with he | ⟨c, work, -, hc⟩
      · rwa [he]
      · intro r hr
        obtain ⟨r₁, hr₁, hkey₁, howner₁⟩ := h r hr
        obtain ⟨r₂, hr₂, hkey₂, howner₂⟩ := stays_commit hpurges hc r₁ hr₁
        exact ⟨r₂, hr₂, hkey₂.trans hkey₁, howner₂.trans howner₁⟩

end Kept

/-! ## One call at a time -/

section Lookup

variable {ο φ τ ρ : Type} [Keyed ρ ℕ] [DecidableEq ο] {F : Form ο φ τ ρ} {d : Register ο ρ}
  {o o' : ο}

theorem lookup_insert {mk : ℕ → ρ} {hmk : ∀ k, Keyed.key (mk k) = k} :
    F.lookup { d with rows := d.rows.insert mk hmk } o =
      (F.lookup d o).or (if F.owner (mk d.rows.next) = o then some (mk d.rows.next) else none) := by
  simp only [lookup, AutoTable.rows_insert, List.find?_append, List.find?_cons, List.find?_nil]
  congr 1
  split <;> simp_all

theorem lookup_map {t : τ} {c : Change ρ} :
    F.lookup { d with rows := d.rows.map (F.row t c) (F.key_row t c) } o =
      (F.lookup d o).map (F.row t c) := by
  simp only [lookup, AutoTable.rows_map, List.find?_map]
  refine congrArg (Option.map (F.row t c)) (congrArg (fun p => List.find? p d.rows.rows) ?_)
  funext r
  simp

theorem lookup_without {active : List ο} : F.lookup ⟨F.without d.rows o, active⟩ o' =
    if F.purges = true ∧ o' = o then none else F.lookup d o' := by
  unfold without
  cases hp : F.purges with
  | false => simp [lookup]
  | true =>
      by_cases ho : o' = o
      · subst ho
        simp [lookup, List.find?_eq_none, AutoTable.filter, Table.filter]
      · simp only [if_true, true_and, if_neg ho]
        show List.find? _ (List.filter _ d.rows.rows) = _
        rw [List.find?_filter]
        refine congrArg (fun p => List.find? p d.rows.rows) ?_
        funext r
        by_cases hr : F.owner r = o' <;> simp [hr, ho]

/-- An update of one owner's row is not seen by the others. -/
theorem row_of_ne {t : τ} {l x r : ρ} (hl : F.lookup d o = some l) (hr : F.lookup d o' = some r)
    (hne : o' ≠ o) : F.row t ⟨l, x⟩ r = r := by
  obtain ⟨hlmem, hlo⟩ := lookup_eq_some hl
  obtain ⟨hrmem, hro⟩ := lookup_eq_some hr
  refine if_neg fun hkey => hne ?_
  rw [← hlo, ← hro, AutoTable.eq_of_key_eq hrmem hlmem hkey]

end Lookup

end Form

/-- One entry for each owner. -/
structure Book (ο ν : Type) where
  entries : ο → Option ν
  active : List ο

/-- What a call does to a book. -/
def Book.step {ο φ τ ν : Type} [DecidableEq ο] (purges : Bool) (content : φ → ν) (b : Book ο ν) :
    Call ο φ τ → Book ο ν
  | .save o q _ =>
      if o ∈ b.active then { b with entries := Function.update b.entries o (some (content q)) }
      else b
  | .leave o =>
      if o ∈ b.active then {
        entries := if purges then Function.update b.entries o none else b.entries
        active := b.active.filter (· ≠ o) }
      else b

namespace Form

section Book

variable {ο φ τ ρ ν : Type} [Keyed ρ ℕ] {F : Form ο φ τ ρ} {view : ρ → ν} {content : φ → ν}
  {d d' : Register ο ρ}

variable (F view content) in
/-- What is seen of a row is what the last request put there. -/
structure Shows : Prop where
  create : ∀ o q t k, view (F.stamp t k (F.create o q)) = content q
  assign : ∀ q r, view (F.assign q r) = content q
  flush : ∀ q r t, view (F.flush r (F.assign q r) t r) = content q

variable [DecidableEq ο]

variable (F view) in
/-- The book that a table keeps. -/
def book (d : Register ο ρ) : Book ο ν := ⟨fun o => (F.lookup d o).map view, d.active⟩

theorem book_eq_update {o : ο} {v : ν} {active : List ο} {b : Book ο ν}
    (hentry : b.entries o = some v) (hothers : ∀ o' ≠ o, b.entries o' = (F.lookup d o').map view)
    (hactive : b.active = active) :
    b = ⟨Function.update (fun o => (F.lookup d o).map view) o (some v), active⟩ := by
  obtain ⟨entries, _⟩ := b
  simp only [Book.mk.injEq]
  refine ⟨funext fun o' => ?_, hactive⟩
  by_cases ho : o' = o
  · subst ho
    rw [Function.update_self]
    exact hentry
  · rw [Function.update_of_ne ho]
    exact hothers o' ho

variable [DecidableEq ρ]

/-- **A call at one stroke** changes the entry of its owner. -/
theorem book_call (h : F.Shows view content) (d : Register ο ρ) (c : Call ο φ τ) :
    F.book view (F.service.call d c) = (F.book view d).step F.purges content c := by
  by_cases hactive : c.owner ∈ d.active
  · have hread := read_eq_ok.2 (⟨hactive, rfl⟩ : c.owner ∈ d.active ∧ F.prepare d c = _)
    cases c with
    | leave o =>
        rw [Service.call_eq hread rfl]
        have hstep : (F.book view d).step F.purges content (.leave o : Call ο φ τ) = {
            entries := if F.purges then Function.update (F.book view d).entries o none
              else (F.book view d).entries
            active := d.active.filter (· ≠ o) } := if_pos hactive
        rw [hstep]
        refine congrArg (fun e => Book.mk e _) (funext fun o' => ?_)
        show (F.lookup ⟨F.without d.rows o, _⟩ o').map view = _
        rw [lookup_without]
        cases F.purges <;> by_cases ho : o' = o <;> simp [ho, book]
    | save o q t =>
        have hstep : (F.book view d).step F.purges content (.save o q t) =
            ⟨Function.update (F.book view d).entries o (some (content q)), d.active⟩ :=
          if_pos hactive
        rw [hstep]
        cases hl : F.lookup d o with
        | none =>
            rw [prepare_of_none hl] at hread
            rw [Service.call_eq hread (commit_insert_eq_ok.2 ⟨fun x hx => ?_, rfl⟩)]
            · refine book_eq_update ?_ (fun o' ho => ?_) rfl
              · show (F.lookup _ o).map view = _
                rw [lookup_insert, hl, F.owner_stamp, F.owner_create, if_pos rfl]
                exact congrArg some (h.create o q t _)
              · show (F.lookup _ o').map view = _
                rw [lookup_insert, F.owner_stamp, F.owner_create, if_neg fun he => ho he.symm,
                  Option.or_none]
            · rw [F.owner_create]
              exact lookup_eq_none_iff.1 hl x hx
        | some r =>
            rw [prepare_of_some hl] at hread
            by_cases hsame : F.assign q r = r
            · rw [Service.call_eq hread (commit_update_eq_ok.2 (Or.inl ⟨hsame, rfl⟩))]
              refine book_eq_update ?_ (fun o' _ => rfl) rfl
              show (F.lookup d o).map view = _
              rw [hl, ← h.assign q r, hsame]
              rfl
            · rw [Service.call_eq hread (commit_update_eq_ok.2
                (Or.inr ⟨hsame, ⟨r, (lookup_eq_some hl).1, rfl⟩, rfl⟩))]
              refine book_eq_update ?_ (fun o' ho => ?_) rfl
              · show (F.lookup _ o).map view = _
                rw [lookup_map, hl]
                show some (view (F.row t ⟨r, F.assign q r⟩ r)) = _
                rw [row, if_pos rfl, h.flush]
              · show (F.lookup _ o').map view = _
                rw [lookup_map]
                cases hl' : F.lookup d o' with
                | none => rfl
                | some r' => rw [Option.map_some, row_of_ne hl hl' ho]
  · have hcall : F.service.call d c = d := by
      simp [Service.call, service, hactive]
    rw [hcall]
    cases c with
    | save o q t => exact (if_neg hactive).symm
    | leave o => exact (if_neg hactive).symm

/-- **Calls one at a time keep the book.** -/
theorem book_run (h : F.Shows view content) (d : Register ο ρ) (cs : List (Call ο φ τ)) :
    F.book view (cs.foldl F.service.call d) =
      cs.foldl (Book.step F.purges content) (F.book view d) := by
  induction cs generalizing d with
  | nil => rfl
  | cons c cs ih => rw [List.foldl_cons, List.foldl_cons, ih, book_call h]

/-! ## Calls that do not overlap -/

/-- Calls of one owner get in each other's way. -/
def Conflicts (_ : Register ο ρ) (c c' : Call ο φ τ) : Prop := c.owner = c'.owner

/-- A call leaves the other owners' rows alone. -/
theorem others_of_commit {c : Call ο φ τ} {work : Work ο τ ρ} {o : ο}
    (hread : F.service.read d c = .ok work) (hcommit : F.service.commit d c work = .ok d')
    (ho : o ≠ c.owner) : F.lookup d' o = F.lookup d o ∧ (o ∈ d.active → o ∈ d'.active) := by
  obtain ⟨-, rfl⟩ := read_eq_ok.1 hread
  cases c with
  | leave owner =>
      obtain rfl := Except.ok.inj hcommit
      refine ⟨?_, fun hactive => List.mem_filter.2 ⟨hactive, decide_eq_true ho⟩⟩
      rw [lookup_without, if_neg fun h => ho h.2]
  | save owner q t =>
      cases hl : F.lookup d owner with
      | none =>
          rw [prepare_of_none hl] at hcommit
          obtain ⟨-, rfl⟩ := commit_insert_eq_ok.1 hcommit
          refine ⟨?_, id⟩
          rw [lookup_insert, F.owner_stamp, F.owner_create, if_neg fun h => ho h.symm,
            Option.or_none]
      | some r =>
          rw [prepare_of_some hl] at hcommit
          rcases commit_update_eq_ok.1 hcommit with ⟨-, rfl⟩ | ⟨-, -, rfl⟩
          · exact ⟨rfl, id⟩
          · refine ⟨?_, id⟩
            rw [lookup_map]
            cases hl' : F.lookup d o with
            | none => rfl
            | some r' => rw [Option.map_some, row_of_ne hl hl' ho]

theorem framed :
    F.service.Framed (Conflicts : Register ο ρ → Call ο φ τ → Call ο φ τ → Prop) := by
  intro d d' c c' work work' hread hcommit hne hread'
  obtain ⟨hactive, hwork⟩ := read_eq_ok.1 hread'
  obtain ⟨hlookup, hstays⟩ := others_of_commit hread hcommit fun h => hne h.symm
  refine read_eq_ok.2 ⟨hstays hactive, ?_⟩
  rw [← hwork]
  cases c' with
  | save o q t =>
      have hsame : F.lookup d' o = F.lookup d o := hlookup
      simp only [prepare, hsame]
  | leave o => rfl

/-- **If calls of one owner do not overlap**, an interleaving keeps the book of its calls, in
the order of their commits. -/
theorem book_serial (h : F.Shows view content) {es : List (Event (Call ο φ τ))}
    (halone : Along F.service.step (Service.Alone Conflicts) (State.quiet d) es) :
    F.book view (run F.service.step (State.quiet d) es).now =
      (F.service.committing (State.quiet d) es).foldl (Book.step F.purges content)
        (F.book view d) := by
  rw [Service.run_serial framed (Service.fresh_quiet d) halone, book_run h]
  rfl

end Book

end Form

end Upsert
