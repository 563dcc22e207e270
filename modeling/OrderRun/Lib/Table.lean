import Mathlib.Data.List.Nodup
import Mathlib.Data.List.Sort
import Mathlib.Tactic.Common

/-!
# Keyed tables

A relational table, as far as the row-wise statements of an application see it:
a list of rows no two of which share a primary key.  The key invariant is a
field of the table, so a table with a repeated key cannot be built, and every
statement below is defined so that it hands the invariant on.

* `Table.find?` — lookup by primary key, with `find?_eq_some_iff`: because keys
  are unique, a lookup returns a row exactly when the row is in the table.
* `Table.map` — `UPDATE`: a row-wise function that leaves the key alone; the
  `WHERE` clause is part of the function.
* `Table.filter` — `DELETE`, stated by the rows that stay.
* `Table.select`, `Table.firstBy` — ordered reads; `firstBy_latest_iff` says which row
  `ORDER BY stamp DESC, id DESC` puts first.
* `Table.insert?` — `INSERT` of a row that brings its own key.
* `AutoTable` — a table whose keys come from an auto-increment counter, with
  `AutoTable.insert`.
* `countP_eq_add_one` — how a count of rows moves when one row changes.
* `col`, `writeBack` — a changed row on its way back to the table: only a column
  whose value differs from the loaded one is written, to the row with the key of
  the loaded one, whatever that row holds by then.
-/

namespace Store

universe u v

/-- Rows with a primary key. -/
class Keyed (α : Type u) (κ : outParam (Type v)) where
  /-- The primary key of a row. -/
  key : α → κ

open Keyed

/-- A table: rows with pairwise different keys. -/
structure Table (α : Type u) {κ : Type v} [Keyed α κ] where
  /-- The rows, in the order they were inserted. -/
  rows : List α
  /-- No two rows share a key. -/
  nodup : (rows.map key).Nodup

namespace Table

variable {α : Type u} {κ : Type v} [Keyed α κ]

instance : Membership α (Table α) := ⟨fun t r => r ∈ t.rows⟩

theorem mem_iff {t : Table α} {r : α} : r ∈ t ↔ r ∈ t.rows := Iff.rfl

/-- The table without rows. -/
def empty : Table α := ⟨[], List.nodup_nil⟩

/-- Two rows of a table with the same key are the same row. -/
theorem eq_of_key_eq {t : Table α} {r s : α} (hr : r ∈ t) (hs : s ∈ t) (h : key r = key s) :
    r = s :=
  List.inj_on_of_nodup_map t.nodup hr hs h

theorem rows_nodup (t : Table α) : t.rows.Nodup := List.Nodup.of_map _ t.nodup

/-! ## Lookup -/

/-- Lookup by primary key. -/
def find? [DecidableEq κ] (t : Table α) (k : κ) : Option α :=
  t.rows.find? (fun r => key r = k)

/-- **Lookup is exact.**  Keys are unique, so the lookup of a key returns a row
exactly when that row is in the table and carries the key. -/
theorem find?_eq_some_iff [DecidableEq κ] {t : Table α} {k : κ} {r : α} :
    t.find? k = some r ↔ r ∈ t ∧ key r = k := by
  constructor
  · intro h
    exact ⟨List.mem_of_find?_eq_some h, by simpa using List.find?_some h⟩
  · rintro ⟨hr, rfl⟩
    cases hf : t.find? (key r) with
    | none =>
        have := List.find?_eq_none.1 hf r hr
        simp at this
    | some s =>
        have hs : s ∈ t ∧ key s = key r :=
          ⟨List.mem_of_find?_eq_some hf, by simpa using List.find?_some hf⟩
        rw [eq_of_key_eq hs.1 hr hs.2]

/-- A key selects one row or none. -/
theorem filter_key_eq [DecidableEq κ] (t : Table α) (k : κ) :
    t.rows.filter (fun r => key r = k) = (t.find? k).toList := by
  cases hfind : t.find? k with
  | none =>
      refine List.filter_eq_nil_iff.2 fun r hr => ?_
      simpa using List.find?_eq_none.1 hfind r hr
  | some r =>
      obtain ⟨hr, hkey⟩ := find?_eq_some_iff.1 hfind
      refine List.perm_singleton.1 ((List.perm_ext_iff_of_nodup (t.rows_nodup.filter _)
        (List.nodup_singleton r)).2 fun s => ?_)
      rw [List.mem_filter, List.mem_singleton, decide_eq_true_iff]
      constructor
      · rintro ⟨hs, hk⟩
        exact eq_of_key_eq hs hr (hk.trans hkey.symm)
      · rintro rfl
        exact ⟨hr, hkey⟩

/-! ## Row-wise update -/

/-- `UPDATE`: rewrite every row by a function that leaves the key alone. -/
def map (t : Table α) (f : α → α) (hf : ∀ r, key (f r) = key r := by intro _; rfl) :
    Table α where
  rows := t.rows.map f
  nodup := by
    have hkey : (t.rows.map f).map key = t.rows.map key := by
      rw [List.map_map]
      exact List.map_congr_left fun r _ => hf r
    rw [hkey]
    exact t.nodup

@[simp] theorem rows_map (t : Table α) (f : α → α) (hf : ∀ r, key (f r) = key r) :
    (t.map f hf).rows = t.rows.map f := rfl

@[simp] theorem mem_map {t : Table α} {f : α → α} {hf : ∀ r, key (f r) = key r} {s : α} :
    s ∈ t.map f hf ↔ ∃ r ∈ t, f r = s :=
  List.mem_map

theorem map_eq_self {t : Table α} {f : α → α} {hf : ∀ r, key (f r) = key r}
    (h : ∀ r ∈ t, f r = r) : t.map f hf = t := by
  obtain ⟨rows, nodup⟩ := t
  have hrows : rows.map f = rows := (List.map_congr_left h).trans (List.map_id _)
  simp only [map, mk.injEq]
  exact hrows

/-- Two updates, one after the other. -/
theorem map_map (t : Table α) {f g : α → α} (hf : ∀ r, key (f r) = key r)
    (hg : ∀ r, key (g r) = key r) :
    (t.map f hf).map g hg = t.map (fun r => g (f r)) fun r => (hg (f r)).trans (hf r) := by
  simp [map]

/-- Lookup in an updated table. -/
theorem find?_map [DecidableEq κ] {t : Table α} {f : α → α} (hf : ∀ r, key (f r) = key r) {k : κ} :
    (t.map f hf).find? k = (t.find? k).map f := by
  unfold find?
  rw [rows_map, List.find?_map]
  refine congrArg (Option.map f) (congrArg (fun p => List.find? p t.rows) ?_)
  funext r
  exact congrArg (fun k' => decide (k' = k)) (hf r)

/-! ## Deletion -/

/-- `DELETE`: keep the rows that satisfy `p`. -/
def filter (t : Table α) (p : α → Bool) : Table α where
  rows := t.rows.filter p
  nodup := t.nodup.sublist (List.filter_sublist.map _)

@[simp] theorem mem_filter {t : Table α} {p : α → Bool} {r : α} :
    r ∈ t.filter p ↔ r ∈ t ∧ p r = true :=
  List.mem_filter

/-! ## Ordered reads -/

/-- The first row of `SELECT ... WHERE p ORDER BY le`; rows the order does not
separate are taken in insertion order. -/
def firstBy (t : Table α) (p : α → Bool) (le : α → α → Bool) : Option α :=
  ((t.rows.filter p).insertionSort (fun r s => le r s = true)).head?

theorem firstBy_mem {t : Table α} {p : α → Bool} {le : α → α → Bool} {r : α}
    (h : t.firstBy p le = some r) : r ∈ t ∧ p r = true := by
  have hmem := List.mem_of_head? h
  exact List.mem_filter.1 ((List.mem_insertionSort _).1 hmem)

/-- `SELECT ... WHERE p ORDER BY le`. -/
def select (t : Table α) (p : α → Bool) (le : α → α → Bool) : List α :=
  (t.rows.filter p).insertionSort (fun r s => le r s = true)

@[simp] theorem mem_select {t : Table α} {p : α → Bool} {le : α → α → Bool} {r : α} :
    r ∈ t.select p le ↔ r ∈ t ∧ p r = true :=
  (List.mem_insertionSort _).trans List.mem_filter

/-- A query of an updated table, if it does not look at what the update has changed. -/
theorem select_map {t : Table α} {f : α → α} (hf : ∀ r, key (f r) = key r) {p : α → Bool}
    {le : α → α → Bool} (hp : ∀ r, p (f r) = p r) (hle : ∀ r s, le (f r) (f s) = le r s) :
    (t.map f hf).select p le = (t.select p le).map f := by
  have hfilter : (t.rows.map f).filter p = (t.rows.filter p).map f := by
    rw [List.filter_map]
    exact congrArg (List.map f) (List.filter_congr fun r _ => hp r)
  unfold select
  rw [rows_map, hfilter]
  refine (List.map_insertionSort _ _ f _ fun r _ s _ => ?_).symm
  rw [hle]

theorem firstBy_eq_head? (t : Table α) (p : α → Bool) (le : α → α → Bool) :
    t.firstBy p le = (t.select p le).head? := rfl

/-- Nothing comes back exactly if no row meets the `WHERE` clause. -/
theorem firstBy_eq_none_iff {t : Table α} {p : α → Bool} {le : α → α → Bool} :
    t.firstBy p le = none ↔ ∀ r ∈ t, p r = false := by
  rw [firstBy_eq_head?, List.head?_eq_none_iff, List.eq_nil_iff_forall_not_mem]
  simp

/-- The first row comes before every other. -/
theorem firstBy_le {t : Table α} {p : α → Bool} {le : α → α → Bool} {r : α}
    (htotal : ∀ a b, le a b = true ∨ le b a = true)
    (htrans : ∀ a b c, le a b = true → le b c = true → le a c = true)
    (h : t.firstBy p le = some r) {s : α} (hs : s ∈ t) (hp : p s = true) : le r s = true := by
  have : Std.Total (fun a b => le a b = true) := ⟨htotal⟩
  have : IsTrans α (fun a b => le a b = true) := ⟨htrans⟩
  have hsorted : (t.select p le).Pairwise (fun a b => le a b = true) :=
    List.pairwise_insertionSort _ _
  have hmem : s ∈ t.select p le := mem_select.2 ⟨hs, hp⟩
  rw [firstBy_eq_head?] at h
  cases hrows : t.select p le with
  | nil => rw [hrows] at h; exact absurd h (by simp)
  | cons a l =>
      rw [hrows] at h hsorted hmem
      obtain rfl : a = r := by simpa using h
      rcases List.mem_cons.1 hmem with rfl | hl
      · rcases htotal s s with h | h <;> exact h
      · exact (List.pairwise_cons.1 hsorted).1 s hl

/-! ## Insertion under a given key -/

/-- `INSERT` of a row that brings its own key; nothing comes back if the key is taken. -/
def insert? [DecidableEq κ] (t : Table α) (r : α) : Option (Table α) :=
  if h : key r ∈ t.rows.map key then none else
    some {
      rows := t.rows ++ [r]
      nodup := by
        rw [List.map_append, List.map_singleton]
        refine List.nodup_append.2 ⟨t.nodup, List.nodup_singleton _, ?_⟩
        rintro k hk k' hk' rfl
        rw [List.mem_singleton.1 hk'] at hk
        exact h hk }

theorem insert?_eq_some [DecidableEq κ] {t t' : Table α} {r : α} (h : t.insert? r = some t') :
    key r ∉ t.rows.map key ∧ t'.rows = t.rows ++ [r] := by
  unfold insert? at h
  split at h
  · exact absurd h (by simp)
  · next hfresh =>
      obtain rfl := Option.some.inj h
      exact ⟨hfresh, rfl⟩

end Table

/-! ## Latest first -/

section Latest

variable {α : Type u} {β : Type v} [Keyed α ℕ] [LinearOrder β]

/-- `ORDER BY stamp DESC, id DESC`. -/
def latestFirst (stamp : α → β) (r s : α) : Bool :=
  stamp s < stamp r ∨ stamp s = stamp r ∧ key s ≤ key r

theorem latestFirst_iff {stamp : α → β} {r s : α} :
    latestFirst stamp r s = true ↔ stamp s < stamp r ∨ stamp s = stamp r ∧ key s ≤ key r := by
  simp [latestFirst]

theorem latestFirst_total (stamp : α → β) (r s : α) :
    latestFirst stamp r s = true ∨ latestFirst stamp s r = true := by
  rw [latestFirst_iff, latestFirst_iff]
  rcases lt_trichotomy (stamp r) (stamp s) with h | h | h
  · exact Or.inr (Or.inl h)
  · rcases le_total (key r) (key s) with hk | hk
    · exact Or.inr (Or.inr ⟨h, hk⟩)
    · exact Or.inl (Or.inr ⟨h.symm, hk⟩)
  · exact Or.inl (Or.inl h)

theorem latestFirst_trans (stamp : α → β) (r s t : α) (h : latestFirst stamp r s = true)
    (h' : latestFirst stamp s t = true) : latestFirst stamp r t = true := by
  rw [latestFirst_iff] at *
  rcases h with h | ⟨h, hk⟩ <;> rcases h' with h' | ⟨h', hk'⟩
  · exact Or.inl (h'.trans h)
  · exact Or.inl (h' ▸ h)
  · exact Or.inl (h ▸ h')
  · exact Or.inr ⟨h'.trans h, hk'.trans hk⟩

/-- **The latest row** of those that meet the `WHERE` clause. -/
theorem firstBy_latest_iff {t : Table α} {p : α → Bool} {stamp : α → β} {r : α} :
    t.firstBy p (latestFirst stamp) = some r ↔ r ∈ t ∧ p r = true ∧
      ∀ s ∈ t, p s = true → stamp s < stamp r ∨ stamp s = stamp r ∧ key s ≤ key r := by
  constructor
  · intro h
    obtain ⟨hr, hp⟩ := Table.firstBy_mem h
    exact ⟨hr, hp, fun s hs hps => latestFirst_iff.1
      (Table.firstBy_le (latestFirst_total stamp) (latestFirst_trans stamp) h hs hps)⟩
  · rintro ⟨hr, hp, hlast⟩
    cases h : t.firstBy p (latestFirst stamp) with
    | none =>
        have := Table.firstBy_eq_none_iff.1 h r hr
        rw [hp] at this
        exact absurd this (by decide)
    | some s =>
        obtain ⟨hs, hps⟩ := Table.firstBy_mem h
        have hsr := latestFirst_iff.1
          (Table.firstBy_le (latestFirst_total stamp) (latestFirst_trans stamp) h hr hp)
        -- each of the two comes before the other, so they have the same key
        rcases hlast s hs hps with hlt | ⟨he, hk⟩
        · rcases hsr with hlt' | ⟨he', -⟩
          · exact absurd hlt (lt_asymm hlt')
          · exact absurd he' hlt.ne'
        · rcases hsr with hlt' | ⟨-, hk'⟩
          · exact absurd he hlt'.ne'
          · rw [Table.eq_of_key_eq hs hr (le_antisymm hk hk')]

end Latest

/-! ## Auto-increment keys -/

/-- A table whose keys were handed out by a counter. -/
structure AutoTable (α : Type u) [Keyed α ℕ] extends Table α where
  /-- The key the next inserted row gets. -/
  next : ℕ
  /-- Every key was handed out before. -/
  key_lt : ∀ r ∈ rows, key r < next

namespace AutoTable

variable {α : Type u} [Keyed α ℕ]

instance : Membership α (AutoTable α) := ⟨fun t r => r ∈ t.toTable⟩

theorem mem_iff {t : AutoTable α} {r : α} : r ∈ t ↔ r ∈ t.rows := Iff.rfl

theorem lt_next {t : AutoTable α} {r : α} (h : r ∈ t) : key r < t.next := t.key_lt r h

theorem eq_of_key_eq {t : AutoTable α} {r s : α} (hr : r ∈ t) (hs : s ∈ t) (h : key r = key s) :
    r = s :=
  Table.eq_of_key_eq hr hs h

/-- The table without rows. -/
def empty : AutoTable α := ⟨Table.empty, 1, fun _ h => absurd h List.not_mem_nil⟩

/-- Lookup by primary key. -/
def find? (t : AutoTable α) (k : ℕ) : Option α := t.toTable.find? k

theorem find?_eq_some_iff {t : AutoTable α} {k : ℕ} {r : α} :
    t.find? k = some r ↔ r ∈ t ∧ key r = k :=
  Table.find?_eq_some_iff

/-- `UPDATE` on a table with a counter. -/
def map (t : AutoTable α) (f : α → α) (hf : ∀ r, key (f r) = key r := by intro _; rfl) :
    AutoTable α where
  toTable := t.toTable.map f hf
  next := t.next
  key_lt := by
    intro s hs
    obtain ⟨r, hr, rfl⟩ := List.mem_map.1 hs
    rw [hf]
    exact t.key_lt r hr

@[simp] theorem rows_map (t : AutoTable α) (f : α → α) (hf : ∀ r, key (f r) = key r) :
    (t.map f hf).rows = t.rows.map f := rfl

@[simp] theorem next_map (t : AutoTable α) (f : α → α) (hf : ∀ r, key (f r) = key r) :
    (t.map f hf).next = t.next := rfl

@[simp] theorem mem_map {t : AutoTable α} {f : α → α} {hf : ∀ r, key (f r) = key r} {s : α} :
    s ∈ t.map f hf ↔ ∃ r ∈ t, f r = s :=
  List.mem_map

/-- An `UPDATE` that leaves every row as it is. -/
theorem map_eq_self {t : AutoTable α} {f : α → α} {hf : ∀ r, key (f r) = key r}
    (h : ∀ r ∈ t, f r = r) : t.map f hf = t := by
  obtain ⟨⟨rows, nodup⟩, next, key_lt⟩ := t
  have hrows : rows.map f = rows := (List.map_congr_left h).trans (List.map_id _)
  simp only [map, Table.map, mk.injEq, Table.mk.injEq, and_true]
  exact hrows

theorem map_map (t : AutoTable α) {f g : α → α} (hf : ∀ r, key (f r) = key r)
    (hg : ∀ r, key (g r) = key r) :
    (t.map f hf).map g hg = t.map (fun r => g (f r)) fun r => (hg (f r)).trans (hf r) := by
  simp [map, Table.map_map]

/-- `DELETE` on a table with a counter. -/
def filter (t : AutoTable α) (p : α → Bool) : AutoTable α where
  toTable := t.toTable.filter p
  next := t.next
  key_lt := fun r hr => t.key_lt r (List.mem_filter.1 hr).1

/-- A `DELETE` that selects no row. -/
theorem filter_eq_self {t : AutoTable α} {p : α → Bool} (h : ∀ r ∈ t, p r = true) :
    t.filter p = t := by
  obtain ⟨⟨rows, nodup⟩, next, key_lt⟩ := t
  simp only [filter, Table.filter, mk.injEq, Table.mk.injEq, and_true]
  exact List.filter_eq_self.2 h

@[simp] theorem mem_filter {t : AutoTable α} {p : α → Bool} {r : α} :
    r ∈ t.filter p ↔ r ∈ t ∧ p r = true :=
  List.mem_filter

/-- `INSERT`: the new row is built from the key the counter hands out. -/
def insert (t : AutoTable α) (mk : ℕ → α) (hmk : ∀ k, key (mk k) = k := by intro _; rfl) :
    AutoTable α where
  rows := t.rows ++ [mk t.next]
  nodup := by
    rw [List.map_append, List.map_singleton, hmk]
    refine List.nodup_append.2 ⟨t.nodup, List.nodup_singleton _, ?_⟩
    intro k hk k' hk' he
    obtain ⟨r, hr, rfl⟩ := List.mem_map.1 hk
    rw [List.mem_singleton] at hk'
    have hlt := t.key_lt r hr
    omega
  next := t.next + 1
  key_lt := by
    intro r hr
    rcases List.mem_append.1 hr with h | h
    · exact Nat.lt_succ_of_lt (t.key_lt r h)
    · rw [List.mem_singleton.1 h, hmk]
      exact Nat.lt_succ_self _

@[simp] theorem rows_insert (t : AutoTable α) (mk : ℕ → α) (hmk : ∀ k, key (mk k) = k) :
    (t.insert mk hmk).rows = t.rows ++ [mk t.next] := rfl

@[simp] theorem mem_insert {t : AutoTable α} {mk : ℕ → α} {hmk : ∀ k, key (mk k) = k} {r : α} :
    r ∈ t.insert mk hmk ↔ r ∈ t ∨ r = mk t.next := by
  rw [mem_iff, rows_insert, List.mem_append, List.mem_singleton, mem_iff]

/-- Several `INSERT`s, one after the other: the new rows get the next keys in order. -/
theorem foldl_insert (t : AutoTable α) (as : List α) (stamp : ℕ → α → α)
    (hstamp : ∀ k a, key (stamp k a) = k) :
    (as.foldl (fun t a => t.insert (fun k => stamp k a) fun k => hstamp k a) t).rows =
        t.rows ++ as.mapIdx (fun i a => stamp (t.next + i) a) ∧
      (as.foldl (fun t a => t.insert (fun k => stamp k a) fun k => hstamp k a) t).next =
        t.next + as.length := by
  induction as generalizing t with
  | nil => simp
  | cons a as ih =>
      obtain ⟨hrows, hnext⟩ := ih (t.insert (fun k => stamp k a) fun k => hstamp k a)
      have hsucc : (t.insert (fun k => stamp k a) fun k => hstamp k a).next = t.next + 1 := rfl
      rw [hsucc] at hrows hnext
      constructor
      · rw [List.foldl_cons, hrows, rows_insert, List.mapIdx_cons, List.append_assoc]
        simp [Nat.add_right_comm, Nat.add_assoc]
      · rw [List.foldl_cons, hnext, List.length_cons]
        omega

/-- `INSERT` of a row, if there is one: `stamp` gives it its key. -/
def add (t : AutoTable α) (new : Option α) (stamp : ℕ → α → α)
    (hstamp : ∀ k a, key (stamp k a) = k := by intro _ _; rfl) : AutoTable α :=
  match new with
  | none => t
  | some a => t.insert (fun k => stamp k a) fun k => hstamp k a

@[simp] theorem add_none (t : AutoTable α) (stamp : ℕ → α → α)
    (hstamp : ∀ k a, key (stamp k a) = k) : t.add none stamp hstamp = t := rfl

@[simp] theorem mem_add {t : AutoTable α} {new : Option α} {stamp : ℕ → α → α}
    {hstamp : ∀ k a, key (stamp k a) = k} {r : α} :
    r ∈ t.add new stamp hstamp ↔ r ∈ t ∨ ∃ a, new = some a ∧ r = stamp t.next a := by
  cases new <;> simp [add]

end AutoTable

/-! ## Numbered rows -/

/-- A query of rows that have been numbered, if it does not look at the numbers. -/
theorem filter_map_mapIdx {α β γ : Type*} {l : List α} {f : ℕ → α → β} {p : β → Bool}
    {q : α → Bool} {g : β → γ} {g' : α → γ} (hp : ∀ i a, p (f i a) = q a)
    (hg : ∀ i a, g (f i a) = g' a) : ((l.mapIdx f).filter p).map g = (l.filter q).map g' := by
  induction l generalizing f with
  | nil => rfl
  | cons a l ih =>
      rw [List.mapIdx_cons, List.filter_cons, List.filter_cons, hp]
      have htail := ih (f := fun i => f (i + 1)) (fun i a => hp (i + 1) a) fun i a => hg (i + 1) a
      split
      · rw [List.map_cons, List.map_cons, htail, hg]
      · exact htail

theorem map_mapIdx {α β γ : Type*} {l : List α} {f : ℕ → α → β} {g : β → γ} {k : α → γ}
    (hg : ∀ i a, g (f i a) = k a) : (l.mapIdx f).map g = l.map k := by
  have h := filter_map_mapIdx (l := l) (p := fun _ => true) (q := fun _ => true)
    (fun _ _ => rfl) hg
  simpa only [List.filter_true] using h

/-! ## Counting rows -/

/-- If exactly one element of a list without repetitions starts to satisfy a
predicate, the count grows by one. -/
theorem countP_eq_add_one {α : Type u} {l : List α} (hl : l.Nodup) {a : α} (ha : a ∈ l)
    {p q : α → Bool} (hp : p a = false) (hq : q a = true) (h : ∀ x ∈ l, x ≠ a → q x = p x) :
    l.countP q = l.countP p + 1 := by
  obtain ⟨s, t, rfl⟩ := List.append_of_mem ha
  have hmid := List.nodup_middle.1 hl
  have hnot : ∀ x ∈ s ++ t, x ≠ a := by
    rintro x hx rfl
    exact (List.nodup_cons.1 hmid).1 hx
  have hcongr : ∀ r : List α, (∀ x ∈ r, x ∈ s ++ t) → r.countP q = r.countP p := by
    intro r hr
    refine List.countP_congr fun x hx => ?_
    have hmem : x ∈ s ++ a :: t := by
      rcases List.mem_append.1 (hr x hx) with h' | h'
      · exact List.mem_append_left _ h'
      · exact List.mem_append_right _ (List.mem_cons_of_mem _ h')
    rw [h x hmem (hnot x (hr x hx))]
  rw [List.countP_append, List.countP_append, List.countP_cons, List.countP_cons, hp, hq,
    hcongr s fun x hx => List.mem_append_left _ hx, hcongr t fun x hx => List.mem_append_right _ hx]
  simp
  omega

/-! ## Writing back a changed row -/

section Column

variable {β : Type v} [DecidableEq β]

/-- One column of a row that a session loaded, changed in memory and writes back:
the `UPDATE` names the column only if its value differs from the loaded one, so
an unchanged column keeps whatever the row holds by then. -/
def col (loaded dirty current : β) : β := if dirty = loaded then current else dirty

/-- A column that was not changed is not written. -/
@[simp] theorem col_unchanged (loaded current : β) : col loaded loaded current = current :=
  if_pos rfl

/-- On a row nobody has touched since it was loaded, the column ends as set. -/
@[simp] theorem col_untouched (loaded dirty : β) : col loaded dirty loaded = dirty := by
  unfold col
  split
  · next h => exact h.symm
  · rfl

/-- A column that was changed is written, whatever the row holds by then. -/
theorem col_of_ne {loaded dirty : β} (h : dirty ≠ loaded) (current : β) :
    col loaded dirty current = dirty :=
  if_neg h

/-- A column that is written back holds what it held, or what it was set to. -/
theorem col_cases (loaded dirty current : β) :
    col loaded dirty current = current ∨ col loaded dirty current = dirty := by
  unfold col
  split
  · exact Or.inl rfl
  · exact Or.inr rfl

/-- When a column is left as it is. -/
theorem col_eq_iff {loaded dirty current : β} :
    col loaded dirty current = current ↔ dirty = loaded ∨ dirty = current := by
  unfold col
  split
  · next h => exact iff_of_true rfl (Or.inl h)
  · next h => exact (or_iff_right h).symm

end Column

/-- An object of a session: the row it was loaded from, and what it is now. -/
structure Change (α : Type u) where
  /-- The row as it was loaded. -/
  loaded : α
  /-- The object as it is now. -/
  dirty : α

section WriteBack

variable {α : Type u} {κ : Type v} [Keyed α κ] [DecidableEq κ] {flush : α → α → α → α}
  {changes : List (Change α)} {row : α}

/-- A row after the flush of a session's changes: the change of its own object,
if the session has one, is applied to it. -/
def writeBack (flush : α → α → α → α) (changes : List (Change α)) (row : α) : α :=
  match changes.find? (fun c => key c.loaded = key row) with
  | none => row
  | some c => flush c.loaded c.dirty row

@[simp] theorem writeBack_nil : writeBack flush [] row = row := rfl

@[simp] theorem writeBack_singleton (c : Change α) :
    writeBack flush [c] row =
      if key c.loaded = key row then flush c.loaded c.dirty row else row := by
  by_cases h : key c.loaded = key row <;> simp [writeBack, h]

/-- A row is written by the change of its own object, or not at all. -/
theorem writeBack_cases (flush : α → α → α → α) (changes : List (Change α)) (row : α) :
    (∀ c ∈ changes, key c.loaded ≠ key row) ∧ writeBack flush changes row = row ∨
      ∃ c ∈ changes, key c.loaded = key row ∧
        writeBack flush changes row = flush c.loaded c.dirty row := by
  unfold writeBack
  cases h : changes.find? (fun c => key c.loaded = key row) with
  | none => exact Or.inl ⟨by simpa using List.find?_eq_none.1 h, rfl⟩
  | some c =>
      exact Or.inr ⟨c, List.mem_of_find?_eq_some h, by simpa using List.find?_some h, rfl⟩

theorem writeBack_of_notMem (h : ∀ c ∈ changes, key c.loaded ≠ key row) :
    writeBack flush changes row = row := by
  rcases writeBack_cases flush changes row with h' | ⟨c, hc, hk, -⟩
  · exact h'.2
  · exact absurd hk (h c hc)

/-- A property of rows that every change of the session respects is respected by
the flush. -/
theorem writeBack_induction {P : α → Prop} (hrow : P row)
    (hflush : ∀ c ∈ changes, key c.loaded = key row → P (flush c.loaded c.dirty row)) :
    P (writeBack flush changes row) := by
  rcases writeBack_cases flush changes row with ⟨-, h⟩ | ⟨c, hc, hk, h⟩
  · rw [h]; exact hrow
  · rw [h]; exact hflush c hc hk

/-- The session holds one object for each row. -/
def OneObject (changes : List (Change α)) : Prop :=
  ∀ c ∈ changes, ∀ c' ∈ changes, key c.loaded = key c'.loaded → c = c'

omit [DecidableEq κ] in
theorem oneObject_nil : OneObject ([] : List (Change α)) := by
  simp [OneObject]

omit [DecidableEq κ] in
theorem oneObject_singleton (c : Change α) : OneObject [c] := by
  simp [OneObject]

/-- **When a flush leaves a column as it is**: the objects of the row have not changed
it, or set it to what it is. -/
theorem column_writeBack {β : Type*} [DecidableEq β] {column : α → β}
    (hflush : ∀ loaded dirty row, column (flush loaded dirty row) =
      col (column loaded) (column dirty) (column row)) (h : OneObject changes) :
    column (writeBack flush changes row) = column row ↔
      ∀ c ∈ changes, key c.loaded = key row →
        column c.dirty = column c.loaded ∨ column c.dirty = column row := by
  have hcol : ∀ c : Change α, column (flush c.loaded c.dirty row) = column row ↔
      column c.dirty = column c.loaded ∨ column c.dirty = column row := by
    intro c
    rw [hflush, col_eq_iff]
  rcases writeBack_cases flush changes row with ⟨hno, he⟩ | ⟨c, hc, hk, he⟩
  · rw [he]
    exact iff_of_true rfl fun c hc hk => absurd hk (hno c hc)
  · rw [he, hcol]
    constructor
    · intro hkeep c' hc' hk'
      rw [h c' hc' c hc (hk'.trans hk.symm)]
      exact hkeep
    · intro hall
      exact hall c hc hk

end WriteBack

end Store
