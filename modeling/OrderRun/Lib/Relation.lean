import Mathlib.Data.Finset.Insert
import Mathlib.Data.Finset.Erase
import Mathlib.Logic.Function.Basic
import OrderRun.Lib.Table

/-!
# Tables with named columns, and the statements that change them

A migration changes the columns of a table together with its rows, so here a row is a
function from column names to values and a table knows which columns it has.  That a row
holds nothing outside the columns of its table, and something in each `NOT NULL` column, and
that its indexes and its `NOT NULL` are on these columns, are fields of the table.

* `Gives` — a fallible computation returns, and its result has a property; with the rule
  for sequences.
* `Row`, `Relation` — rows and tables.  `Relation.addColumn`, `dropColumn`, `renameColumn`,
  `createIndex`, `dropIndex`, `update`, `setNotNull`, `setEnum`, `delete`, `insert` are the
  statements; each can be refused.
* `Altered` — what most of them do: new columns, and one function applied to every row.
  There is one rule for each statement, and `Altered.trans` for one after the other.
* `Database` — tables by name.  `Database.run` runs statements on several tables, and
  `run_eq_ok_iff` says that each table then went through its own statements, in order,
  and through nothing else.
-/

namespace Store

/-! ## Fallible computations -/

section Gives

variable {ε α β : Type}

/-- The computation returns, and what it returns satisfies `P`. -/
def Gives (x : Except ε α) (P : α → Prop) : Prop := ∃ a, x = .ok a ∧ P a

theorem gives_ok {a : α} {P : α → Prop} (h : P a) : Gives (.ok a : Except ε α) P := ⟨a, rfl, h⟩

theorem Gives.mono {x : Except ε α} {P Q : α → Prop} (h : Gives x P) (hPQ : ∀ a, P a → Q a) :
    Gives x Q := by
  obtain ⟨a, ha, hP⟩ := h
  exact ⟨a, ha, hPQ a hP⟩

/-- One computation after the other. -/
theorem Gives.bind {x : Except ε α} {f : α → Except ε β} {P : α → Prop} {Q : β → Prop}
    (h : Gives x P) (hf : ∀ a, P a → Gives (f a) Q) : Gives (x >>= f) Q := by
  obtain ⟨a, rfl, hP⟩ := h
  exact hf a hP

/-- A computation returns once, so all that it gives holds of any result. -/
theorem Gives.of_eq_ok {x : Except ε α} {P : α → Prop} {a : α} (h : Gives x P) (ha : x = .ok a) :
    P a := by
  obtain ⟨b, hb, hP⟩ := h
  obtain rfl : b = a := Except.ok.inj (hb.symm.trans ha)
  exact hP

theorem except_bind_eq_ok {x : Except ε α} {f : α → Except ε β} {b : β} :
    x >>= f = .ok b ↔ ∃ a, x = .ok a ∧ f a = .ok b := by
  cases x <;> simp [Bind.bind, Except.bind]

theorem bind_congr_of_ok {x : Except ε α} {f g : α → Except ε β}
    (h : ∀ a, x = .ok a → f a = g a) : x >>= f = x >>= g := by
  cases x with
  | error e => rfl
  | ok a => exact h a rfl

end Gives

/-! ## Rows -/

variable {ν ω : Type}

/-- A row: its key, and what it holds in each column. -/
@[ext] structure Row (ν ω : Type) where
  /-- The primary key. -/
  id : ℕ
  /-- The other columns; `NULL` is `none`. -/
  cells : ν → Option ω

instance : Keyed (Row ν ω) ℕ := ⟨Row.id⟩

namespace Row

variable [DecidableEq ν]

/-- Write one column. -/
def set (r : Row ν ω) (c : ν) (v : Option ω) : Row ν ω :=
  { r with cells := fun c' => if c' = c then v else r.cells c' }

@[simp] theorem id_set (r : Row ν ω) (c : ν) (v : Option ω) : (r.set c v).id = r.id := rfl

@[simp] theorem cells_set (r : Row ν ω) (c : ν) (v : Option ω) (c' : ν) :
    (r.set c v).cells c' = if c' = c then v else r.cells c' := rfl

/-- Writing what is there. -/
theorem set_eq_self {r : Row ν ω} {c : ν} {v : Option ω} (h : r.cells c = v) : r.set c v = r := by
  ext c' w
  · rfl
  · rw [cells_set]
    split
    · next hc => rw [hc, h]
    · rfl

/-- `COALESCE`: a column that is `NULL` takes the value. -/
def fill (r : Row ν ω) (c : ν) (v : Option ω) : Row ν ω := r.set c ((r.cells c).or v)

@[simp] theorem id_fill (r : Row ν ω) (c : ν) (v : Option ω) : (r.fill c v).id = r.id := rfl

@[simp] theorem cells_fill (r : Row ν ω) (c : ν) (v : Option ω) (c' : ν) :
    (r.fill c v).cells c' = if c' = c then (r.cells c).or v else r.cells c' := rfl

@[simp] theorem fill_none (r : Row ν ω) (c : ν) : r.fill c none = r :=
  set_eq_self (Option.or_none).symm

/-- What a column holds fills another one, and leaves its own. -/
def move (r : Row ν ω) (old new : ν) : Row ν ω := (r.fill new (r.cells old)).set old none

@[simp] theorem id_move (r : Row ν ω) (old new : ν) : (r.move old new).id = r.id := rfl

@[simp] theorem cells_move (r : Row ν ω) (old new c : ν) :
    (r.move old new).cells c = if c = old then none else
      if c = new then (r.cells new).or (r.cells old) else r.cells c := rfl

/-- The cells an `INSERT` writes: a column it does not name is `NULL`. -/
def ofValues (values : List (ν × Option ω)) (c : ν) : Option ω :=
  (values.find? fun p => p.1 = c).bind Prod.snd

theorem ofValues_eq_none {values : List (ν × Option ω)} {c : ν} (h : ∀ p ∈ values, p.1 ≠ c) :
    ofValues values c = none := by
  unfold ofValues
  rw [List.find?_eq_none.2 fun p hp => by simpa using h p hp]
  rfl

end Row

/-! ## Tables -/

/-- A table, its columns, which of them are `NOT NULL`, and its indexes. -/
structure Relation (ν ω : Type) where
  /-- The columns next to the key. -/
  columns : Finset ν
  /-- The `NOT NULL` columns. -/
  required : Finset ν
  /-- The columns of each index; a name without columns is free. -/
  indexes : ν → List ν
  /-- The rows. -/
  rows : AutoTable (Row ν ω)
  /-- What is `NOT NULL` is there. -/
  proper : required ⊆ columns
  /-- A row holds nothing outside the columns. -/
  blank : ∀ r ∈ rows, ∀ c, c ∉ columns → r.cells c = none
  /-- A `NOT NULL` column holds a value in every row. -/
  filled : ∀ r ∈ rows, ∀ c ∈ required, r.cells c ≠ none
  /-- An index is on columns of the table. -/
  indexed : ∀ name, ∀ c ∈ indexes name, c ∈ columns

/-- How a statement is refused. -/
inductive Refusal (ν : Type) where
  | unknownTable (t : ν)
  | duplicateTable (t : ν)
  | unknownColumn (c : ν)
  | duplicateColumn (c : ν)
  | unknownIndex (name : ν)
  | duplicateIndex (name : ν)
  /-- `NULL` in a `NOT NULL` column. -/
  | nullValue
  /-- A value outside the enumeration of its column. -/
  | unlistedValue (c : ν)
  deriving DecidableEq, Repr

namespace Relation

variable [DecidableEq ν] {R R' R'' : Relation ν ω}

/-- `ADD COLUMN c NULL`. -/
def addColumn (c : ν) (R : Relation ν ω) : Except (Refusal ν) (Relation ν ω) :=
  if c ∈ R.columns then .error (.duplicateColumn c) else
    .ok { R with
      columns := insert c R.columns
      proper := R.proper.trans (Finset.subset_insert c _)
      blank := fun r hr c' hc' => R.blank r hr c' fun h => hc' (Finset.mem_insert_of_mem h)
      indexed := fun name c' hc' => Finset.mem_insert_of_mem (R.indexed name c' hc') }

/-- `ADD COLUMN c NOT NULL DEFAULT v`: the rows that are there get the value. -/
def addColumnDefault (c : ν) (v : ω) (R : Relation ν ω) : Except (Refusal ν) (Relation ν ω) :=
  if c ∈ R.columns then .error (.duplicateColumn c) else
    .ok {
      columns := insert c R.columns
      required := insert c R.required
      indexes := R.indexes
      rows := R.rows.map fun r => r.set c (some v)
      proper := Finset.insert_subset_insert c R.proper
      blank := by
        intro s hs c' hc'
        obtain ⟨r, hr, rfl⟩ := AutoTable.mem_map.1 hs
        rw [Finset.mem_insert, not_or] at hc'
        rw [Row.cells_set, if_neg hc'.1]
        exact R.blank r hr c' hc'.2
      filled := by
        intro s hs c' hc'
        obtain ⟨r, hr, rfl⟩ := AutoTable.mem_map.1 hs
        rw [Row.cells_set]
        split
        · exact Option.some_ne_none v
        · next hne => exact R.filled r hr c' ((Finset.mem_insert.1 hc').resolve_left hne)
      indexed := fun name c' hc' => Finset.mem_insert_of_mem (R.indexed name c' hc') }

/-- `DROP COLUMN c`.  As in MySQL, the column goes from the indexes too, and an index goes with
its last column. -/
def dropColumn (c : ν) (R : Relation ν ω) : Except (Refusal ν) (Relation ν ω) :=
  if c ∈ R.columns then
    .ok {
      columns := R.columns.erase c
      required := R.required.erase c
      indexes := fun name => (R.indexes name).filter (· ≠ c)
      rows := R.rows.map fun r => r.set c none
      proper := Finset.erase_subset_erase c R.proper
      blank := by
        intro s hs c' hc'
        obtain ⟨r, hr, rfl⟩ := AutoTable.mem_map.1 hs
        rw [Row.cells_set]
        split
        · rfl
        · next hne => exact R.blank r hr c' fun h => hc' (Finset.mem_erase.2 ⟨hne, h⟩)
      filled := by
        intro s hs c' hc'
        obtain ⟨r, hr, rfl⟩ := AutoTable.mem_map.1 hs
        obtain ⟨hne, hc'⟩ := Finset.mem_erase.1 hc'
        rw [Row.cells_set, if_neg hne]
        exact R.filled r hr c' hc'
      indexed := by
        intro name c' hc'
        obtain ⟨hmem, hne⟩ := List.mem_filter.1 hc'
        exact Finset.mem_erase.2 ⟨of_decide_eq_true hne, R.indexed name c' hmem⟩ }
  else .error (.unknownColumn c)

/-- A column name after a rename. -/
def rename (old new c : ν) : ν := if c = old then new else c

/-- `CHANGE old new ... NULL`: the column gets another name, in the indexes too, and may hold
`NULL` from then on. -/
def renameColumn (old new : ν) (R : Relation ν ω) : Except (Refusal ν) (Relation ν ω) :=
  if old ∉ R.columns then .error (.unknownColumn old)
  else if new ∈ R.columns then .error (.duplicateColumn new)
  else
    .ok {
      columns := insert new (R.columns.erase old)
      required := (R.required.erase old).erase new
      indexes := fun name => (R.indexes name).map (rename old new)
      rows := R.rows.map fun r => (r.set new (r.cells old)).set old none
      proper := fun c hc => Finset.mem_insert_of_mem
        (Finset.erase_subset_erase old R.proper (Finset.mem_of_mem_erase hc))
      blank := by
        intro s hs c' hc'
        obtain ⟨r, hr, rfl⟩ := AutoTable.mem_map.1 hs
        simp only [Finset.mem_insert, Finset.mem_erase, not_or, not_and] at hc'
        rw [Row.cells_set]
        split
        · rfl
        · next hne =>
            rw [Row.cells_set, if_neg hc'.1]
            exact R.blank r hr c' (hc'.2 hne)
      filled := by
        intro s hs c' hc'
        obtain ⟨r, hr, rfl⟩ := AutoTable.mem_map.1 hs
        simp only [Finset.mem_erase] at hc'
        rw [Row.cells_set, if_neg hc'.2.1, Row.cells_set, if_neg hc'.1]
        exact R.filled r hr c' hc'.2.2
      indexed := by
        intro name s hs
        obtain ⟨c, hc, rfl⟩ := List.mem_map.1 hs
        unfold rename
        split
        · exact Finset.mem_insert_self new _
        · next hne =>
            exact Finset.mem_insert_of_mem (Finset.mem_erase.2 ⟨hne, R.indexed name c hc⟩) }

/-- `CREATE INDEX name ON ... (on)`. -/
def createIndex (name : ν) (on : List ν) (R : Relation ν ω) :
    Except (Refusal ν) (Relation ν ω) :=
  if R.indexes name ≠ [] then .error (.duplicateIndex name)
  else match hon : on.find? fun c => c ∉ R.columns with
    | some c => .error (.unknownColumn c)
    | none =>
        .ok { R with
          indexes := Function.update R.indexes name on
          indexed := by
            intro name' c hc
            rw [Function.update_apply] at hc
            split at hc
            · have hmem := List.find?_eq_none.1 hon c hc
              simpa using hmem
            · exact R.indexed name' c hc }

/-- `DROP INDEX name`. -/
def dropIndex (name : ν) (R : Relation ν ω) : Except (Refusal ν) (Relation ν ω) :=
  if R.indexes name = [] then .error (.unknownIndex name)
  else
    .ok { R with
      indexes := Function.update R.indexes name []
      indexed := by
        intro name' c hc
        rw [Function.update_apply] at hc
        split at hc
        · exact absurd hc List.not_mem_nil
        · exact R.indexed name' c hc }

/-- `UPDATE ... SET c = value WHERE selected`. -/
def update (c : ν) (selected : Row ν ω → Bool) (value : Row ν ω → Option ω) (R : Relation ν ω) :
    Except (Refusal ν) (Relation ν ω) :=
  if hc : c ∉ R.columns then .error (.unknownColumn c)
  else if hnull : c ∈ R.required ∧
      ∃ r ∈ R.rows.rows, selected r = true ∧ (value r).isNone = true then
    .error .nullValue
  else
    .ok { R with
      rows := R.rows.map (fun r => if selected r then r.set c (value r) else r) (by
        intro r
        split <;> rfl)
      blank := by
        intro s hs c' hc'
        obtain ⟨r, hr, rfl⟩ := AutoTable.mem_map.1 hs
        split
        · rw [Row.cells_set, if_neg fun h : c' = c => hc (h ▸ hc')]
          exact R.blank r hr c' hc'
        · exact R.blank r hr c' hc'
      filled := by
        intro s hs c' hc'
        obtain ⟨r, hr, rfl⟩ := AutoTable.mem_map.1 hs
        split
        · next hsel =>
            rw [Row.cells_set]
            split
            · next he =>
                subst he
                exact fun hv => hnull ⟨hc', r, hr, hsel, by rw [hv]; rfl⟩
            · exact R.filled r hr c' hc'
        · exact R.filled r hr c' hc' }

/-- `MODIFY c ... NOT NULL`. -/
def setNotNull (c : ν) (R : Relation ν ω) : Except (Refusal ν) (Relation ν ω) :=
  if hc : c ∉ R.columns then .error (.unknownColumn c)
  else if hnull : ∃ r ∈ R.rows.rows, (r.cells c).isNone = true then .error .nullValue
  else
    .ok { R with
      required := insert c R.required
      proper := Finset.insert_subset (not_not.1 hc) R.proper
      filled := by
        intro r hr c' hc'
        rcases Finset.mem_insert.1 hc' with rfl | hc'
        · exact fun hv => hnull ⟨r, hr, by rw [hv]; rfl⟩
        · exact R.filled r hr c' hc' }

/-- `MODIFY c ... NULL`. -/
def setNullable (c : ν) (R : Relation ν ω) : Except (Refusal ν) (Relation ν ω) :=
  if c ∉ R.columns then .error (.unknownColumn c)
  else
    .ok { R with
      required := R.required.erase c
      proper := (Finset.erase_subset c _).trans R.proper
      filled := fun r hr c' hc' => R.filled r hr c' (Finset.mem_of_mem_erase hc') }

/-- `MODIFY c ENUM(values) NOT NULL`: refused if a row holds another value. -/
def setEnum [DecidableEq ω] (c : ν) (values : List ω) (R : Relation ν ω) :
    Except (Refusal ν) (Relation ν ω) :=
  if ∀ r ∈ R.rows.rows, ((r.cells c).all fun v => v ∈ values) = true then R.setNotNull c
  else .error (.unlistedValue c)

/-- `DELETE ... WHERE selected`. -/
def delete (selected : Row ν ω → Bool) (R : Relation ν ω) :
    Except (Refusal ν) (Relation ν ω) :=
  .ok { R with
    rows := R.rows.filter fun r => !selected r
    blank := fun r hr => R.blank r (AutoTable.mem_filter.1 hr).1
    filled := fun r hr => R.filled r (AutoTable.mem_filter.1 hr).1 }

/-- `INSERT` of one row: the columns the statement names, with the values for them. -/
def insertRow (values : List (ν × Option ω)) (R : Relation ν ω) :
    Except (Refusal ν) (Relation ν ω) :=
  match hnames : values.find? fun p => p.1 ∉ R.columns with
  | some p => .error (.unknownColumn p.1)
  | none =>
      if hnull : ∃ c ∈ R.required, (Row.ofValues values c).isNone = true then .error .nullValue
      else
        .ok { R with
          rows := R.rows.insert fun id => ⟨id, Row.ofValues values⟩
          blank := by
            intro r hr c hc
            rcases AutoTable.mem_insert.1 hr with hr | rfl
            · exact R.blank r hr c hc
            · refine Row.ofValues_eq_none fun p hp he => ?_
              have hmem := List.find?_eq_none.1 hnames p hp
              exact hmem (by simpa [he] using hc)
          filled := by
            intro r hr c hc
            rcases AutoTable.mem_insert.1 hr with hr | rfl
            · exact R.filled r hr c hc
            · intro hv
              have hcell : Row.ofValues values c = none := hv
              exact hnull ⟨c, hc, by rw [hcell]; rfl⟩ }

/-- `SELECT ... WHERE selected`, for an `INSERT`: the columns the query reads, and the values
it makes of a row. -/
def select (names : List ν) (selected : Row ν ω → Bool) (values : Row ν ω → List (ν × Option ω))
    (R : Relation ν ω) : Except (Refusal ν) (List (List (ν × Option ω))) :=
  match names.find? fun c => c ∉ R.columns with
  | some c => .error (.unknownColumn c)
  | none => .ok ((R.rows.rows.filter selected).map values)

/-- `INSERT ... SELECT`: one row for each row of the query. -/
def insertAll (query : List (List (ν × Option ω))) (R : Relation ν ω) :
    Except (Refusal ν) (Relation ν ω) :=
  query.foldlM (fun R values => R.insertRow values) R

/-! ## One function for every row -/

/-- A table after a statement that gives it these columns and applies `f` to every row. -/
structure Altered (R : Relation ν ω) (columns : Finset ν) (f : Row ν ω → Row ν ω)
    (R' : Relation ν ω) : Prop where
  columns_eq : R'.columns = columns
  rows_eq : R'.rows.rows = R.rows.rows.map f

namespace Altered

variable {C C' : Finset ν} {f g : Row ν ω → Row ν ω}

omit [DecidableEq ν]

theorem refl (R : Relation ν ω) : Altered R R.columns (fun r => r) R :=
  ⟨rfl, (List.map_id' _).symm⟩

/-- One statement after the other. -/
theorem trans (h : Altered R C f R') (h' : Altered R' C' g R'') :
    Altered R C' (fun r => g (f r)) R'' := by
  refine ⟨h'.columns_eq, ?_⟩
  rw [h'.rows_eq, h.rows_eq, List.map_map]
  rfl

theorem congr (h : Altered R C f R') (hfg : ∀ r ∈ R.rows, f r = g r) : Altered R C g R' :=
  ⟨h.columns_eq, h.rows_eq.trans (List.map_congr_left hfg)⟩

theorem mem (h : Altered R C f R') {s : Row ν ω} : s ∈ R'.rows ↔ ∃ r ∈ R.rows, f r = s := by
  rw [AutoTable.mem_iff, h.rows_eq]
  exact List.mem_map

end Altered

theorem addColumn_gives {c : ν} (hc : c ∉ R.columns) :
    Gives (R.addColumn c) (Altered R (Insert.insert c R.columns) fun r => r) := by
  unfold addColumn
  rw [if_neg hc]
  exact gives_ok ⟨rfl, (List.map_id' _).symm⟩

theorem dropColumn_gives {c : ν} (hc : c ∈ R.columns) :
    Gives (R.dropColumn c) (Altered R (R.columns.erase c) fun r => r.set c none) := by
  unfold dropColumn
  rw [if_pos hc]
  exact gives_ok ⟨rfl, rfl⟩

theorem renameColumn_gives {old new : ν} (hold : old ∈ R.columns) (hnew : new ∉ R.columns) :
    Gives (R.renameColumn old new)
      (Altered R (Insert.insert new (R.columns.erase old)) fun r => r.move old new) := by
  unfold renameColumn
  rw [if_neg (not_not_intro hold), if_neg hnew]
  refine gives_ok (Altered.congr ⟨rfl, rfl⟩ fun r hr => ?_)
  rw [Row.move, Row.fill, R.blank r hr new hnew, Option.none_or]

/-- An index is refused only for its name and for a column that is not there. -/
theorem createIndex_gives {name : ν} {on : List ν} (hfree : R.indexes name = [])
    (hon : ∀ c ∈ on, c ∈ R.columns) :
    Gives (R.createIndex name on) (Altered R R.columns fun r => r) := by
  have hfound : (on.find? fun c => c ∉ R.columns) = none :=
    List.find?_eq_none.2 fun c hc => by simpa using hon c hc
  unfold createIndex
  rw [if_neg (not_not_intro hfree)]
  split
  · next c hc => rw [hfound] at hc; cases hc
  · exact gives_ok ⟨rfl, (List.map_id' _).symm⟩

theorem dropIndex_gives {name : ν} (hthere : R.indexes name ≠ []) :
    Gives (R.dropIndex name) (Altered R R.columns fun r => r) := by
  unfold dropIndex
  rw [if_neg hthere]
  exact gives_ok ⟨rfl, (List.map_id' _).symm⟩

/-- An `UPDATE` is refused only for writing `NULL` into a `NOT NULL` column. -/
theorem update_gives {c : ν} {selected : Row ν ω → Bool} {value : Row ν ω → Option ω}
    (hc : c ∈ R.columns)
    (hnull : c ∈ R.required → ∀ r ∈ R.rows, selected r = true → value r ≠ none) :
    Gives (R.update c selected value)
      (Altered R R.columns fun r => if selected r then r.set c (value r) else r) := by
  have hok : ¬ (c ∈ R.required ∧
      ∃ r ∈ R.rows.rows, selected r = true ∧ (value r).isNone = true) := by
    rintro ⟨hreq, r, hr, hsel, hv⟩
    exact hnull hreq r hr hsel (Option.isNone_iff_eq_none.1 hv)
  unfold update
  rw [dif_neg (not_not_intro hc), dif_neg hok]
  exact gives_ok ⟨rfl, rfl⟩

/-- An `UPDATE` of the rows in which the column is `NULL` is never refused, whatever it
writes: a `NOT NULL` column has no such row. -/
theorem update_null_gives {c : ν} {selected : Row ν ω → Bool} {value : Row ν ω → Option ω}
    (hc : c ∈ R.columns) (hsel : ∀ r, selected r = true → r.cells c = none)
    (hskip : ∀ r, selected r = false → r.cells c = none → value r = none) :
    Gives (R.update c selected value) (Altered R R.columns fun r => r.fill c (value r)) := by
  refine (update_gives hc fun hreq r hr h => absurd (hsel r h) (R.filled r hr c hreq)).mono
    fun R' h => h.congr fun r _ => ?_
  cases hs : selected r with
  | true => rw [if_pos rfl, Row.fill, hsel r hs, Option.none_or]
  | false =>
      rw [if_neg Bool.false_ne_true]
      cases hcell : r.cells c with
      | none => rw [hskip r hs hcell, Row.fill_none]
      | some v => exact (Row.set_eq_self (by rw [hcell]; rfl)).symm

theorem update_isNone_gives {c : ν} {value : Row ν ω → Option ω} (hc : c ∈ R.columns) :
    Gives (R.update c (fun r => (r.cells c).isNone) value)
      (Altered R R.columns fun r => r.fill c (value r)) := by
  refine update_null_gives hc (fun r hr => Option.isNone_iff_eq_none.1 hr) fun r hr hnull => ?_
  rw [hnull] at hr
  cases hr

theorem setNotNull_gives {c : ν} (hc : c ∈ R.columns) (h : ∀ r ∈ R.rows, r.cells c ≠ none) :
    Gives (R.setNotNull c) (Altered R R.columns fun r => r) := by
  have hok : ¬ ∃ r ∈ R.rows.rows, (r.cells c).isNone = true := by
    rintro ⟨r, hr, hv⟩
    exact h r hr (Option.isNone_iff_eq_none.1 hv)
  unfold setNotNull
  rw [dif_neg (not_not_intro hc), dif_neg hok]
  exact gives_ok ⟨rfl, (List.map_id' _).symm⟩

section Enum

variable [DecidableEq ω] {c : ν} {values : List ω}

/-- Every row holds one of the values in the column. -/
def Listed (R : Relation ν ω) (c : ν) (values : List ω) : Prop :=
  ∀ r ∈ R.rows, ∃ v ∈ values, r.cells c = some v

omit [DecidableEq ν] [DecidableEq ω] in
/-- A statement that leaves the column alone. -/
theorem Altered.listed_iff {C : Finset ν} {f : Row ν ω → Row ν ω} (h : Altered R C f R')
    (hcell : ∀ r, (f r).cells c = r.cells c) : R'.Listed c values ↔ R.Listed c values := by
  constructor
  · intro hlisted r hr
    rw [← hcell]
    exact hlisted _ (h.mem.2 ⟨r, hr, rfl⟩)
  · intro hlisted s hs
    obtain ⟨r, hr, rfl⟩ := h.mem.1 hs
    rw [hcell]
    exact hlisted r hr

theorem setEnum_gives (hc : c ∈ R.columns) (h : R.Listed c values) :
    Gives (R.setEnum c values) (Altered R R.columns fun r => r) := by
  have hall : ∀ r ∈ R.rows.rows, ((r.cells c).all fun v => v ∈ values) = true := by
    intro r hr
    obtain ⟨v, hv, hcell⟩ := h r hr
    simpa [hcell] using hv
  unfold setEnum
  rw [if_pos hall]
  refine setNotNull_gives hc fun r hr => ?_
  obtain ⟨v, -, hcell⟩ := h r hr
  rw [hcell]
  exact Option.some_ne_none v

/-- The enumeration is refused unless every row holds one of its values. -/
theorem listed_of_setEnum (h : R.setEnum c values = .ok R') : R.Listed c values := by
  intro r hr
  unfold setEnum at h
  split at h
  · next hall =>
      unfold setNotNull at h
      split at h
      · cases h
      · split at h
        · cases h
        · next hnull =>
            cases hcell : r.cells c with
            | none => exact absurd ⟨r, hr, by rw [hcell]; rfl⟩ hnull
            | some v =>
                have hv := hall r hr
                exact ⟨v, by simpa [hcell] using hv, rfl⟩
  · cases h

end Enum

/-! ## Deleted and inserted rows -/

omit [DecidableEq ν] in
theorem delete_gives (selected : Row ν ω → Bool) :
    Gives (R.delete selected) fun R' => R'.columns = R.columns ∧
      R'.rows.rows = R.rows.rows.filter fun r => !selected r :=
  gives_ok ⟨rfl, rfl⟩

/-- The cells of the rows, in order. -/
def contents (R : Relation ν ω) : List (ν → Option ω) := R.rows.rows.map Row.cells

/-- An `INSERT` goes through if it names columns of the table and gives every `NOT NULL`
one a value. -/
theorem insertRow_gives {values : List (ν × Option ω)} (hnames : ∀ p ∈ values, p.1 ∈ R.columns)
    (hnull : ∀ c ∈ R.required, Row.ofValues values c ≠ none) :
    Gives (R.insertRow values) fun R' => R'.columns = R.columns ∧ R'.required = R.required ∧
      R'.contents = R.contents ++ [Row.ofValues values] := by
  have hfound : (values.find? fun p => p.1 ∉ R.columns) = none :=
    List.find?_eq_none.2 fun p hp => by simpa using hnames p hp
  have hok : ¬ ∃ c ∈ R.required, (Row.ofValues values c).isNone = true := by
    rintro ⟨c, hc, hv⟩
    exact hnull c hc (Option.isNone_iff_eq_none.1 hv)
  unfold insertRow
  split
  · next p hp => rw [hfound] at hp; cases hp
  · rw [dif_neg hok]
    exact gives_ok ⟨rfl, rfl, by simp [contents]⟩

theorem select_eq {names : List ν} (hnames : ∀ c ∈ names, c ∈ R.columns)
    (selected : Row ν ω → Bool) (values : Row ν ω → List (ν × Option ω)) :
    R.select names selected values = .ok ((R.rows.rows.filter selected).map values) := by
  unfold select
  rw [List.find?_eq_none.2 fun c hc => by simpa using hnames c hc]

theorem insertAll_gives {query : List (List (ν × Option ω))}
    (hnames : ∀ values ∈ query, ∀ p ∈ values, p.1 ∈ R.columns)
    (hnull : ∀ values ∈ query, ∀ c ∈ R.required, Row.ofValues values c ≠ none) :
    Gives (R.insertAll query) fun R' => R'.columns = R.columns ∧ R'.required = R.required ∧
      R'.contents = R.contents ++ query.map Row.ofValues := by
  induction query generalizing R with
  | nil => exact gives_ok ⟨rfl, rfl, (List.append_nil _).symm⟩
  | cons values query ih =>
      have hhead := insertRow_gives (hnames values List.mem_cons_self)
        (hnull values List.mem_cons_self)
      rw [insertAll, List.foldlM_cons]
      refine hhead.bind fun R₁ ⟨hcols, hreq, hcontents⟩ => ?_
      have htail := ih (R := R₁)
        (fun vs hvs => hcols ▸ hnames vs (List.mem_cons_of_mem _ hvs))
        (fun vs hvs => hreq ▸ hnull vs (List.mem_cons_of_mem _ hvs))
      refine htail.mono fun R₂ ⟨hcols', hreq', hcontents'⟩ => ?_
      refine ⟨hcols'.trans hcols, hreq'.trans hreq, ?_⟩
      rw [hcontents', hcontents, List.append_assoc]
      rfl

end Relation

/-! ## Databases -/

/-- A column as `CREATE TABLE` declares it. -/
structure Column (ν : Type) where
  name : ν
  nullable : Bool
  deriving DecidableEq

/-- `CREATE TABLE`: no rows and no indexes yet. -/
def Relation.create [DecidableEq ν] (columns : List (Column ν)) : Relation ν ω where
  columns := (columns.map Column.name).toFinset
  required := ((columns.filter fun c => !c.nullable).map Column.name).toFinset
  indexes := fun _ => []
  rows := AutoTable.empty
  proper := fun _ hc =>
    List.mem_toFinset.2 ((List.filter_sublist.map _).subset (List.mem_toFinset.1 hc))
  blank := fun _ h => absurd h List.not_mem_nil
  filled := fun _ h => absurd h List.not_mem_nil
  indexed := fun _ _ h => absurd h List.not_mem_nil

/-- The tables, by name. -/
@[ext] structure Database (ν ω : Type) where
  tables : ν → Option (Relation ν ω)

/-- A statement on one table. -/
structure Statement (ν ω : Type) where
  table : ν
  /-- What it does to the table. -/
  change : Relation ν ω → Except (Refusal ν) (Relation ν ω)

namespace Database

variable [DecidableEq ν] {db db' : Database ν ω} {t t' : ν} {R : Relation ν ω}

def hasTable (db : Database ν ω) (t : ν) : Bool := (db.tables t).isSome

/-- The columns of a table; a table that is not there has none. -/
def columnNames (db : Database ν ω) (t : ν) : Finset ν :=
  (db.tables t).elim ∅ Relation.columns

/-- The table is there and has such an index. -/
def hasIndex (db : Database ν ω) (t name : ν) : Bool :=
  (db.tables t).any fun R => !(R.indexes name).isEmpty

def find (db : Database ν ω) (t : ν) : Except (Refusal ν) (Relation ν ω) :=
  match db.tables t with
  | none => .error (.unknownTable t)
  | some R => .ok R

/-- Replace one table. -/
def write (db : Database ν ω) (t : ν) (R : Option (Relation ν ω)) : Database ν ω where
  tables := fun t' => if t' = t then R else db.tables t'

@[simp] theorem tables_write (db : Database ν ω) (t : ν) (R : Option (Relation ν ω)) (t' : ν) :
    (db.write t R).tables t' = if t' = t then R else db.tables t' := rfl

/-- A statement on one table of the database. -/
def alter (db : Database ν ω) (t : ν)
    (change : Relation ν ω → Except (Refusal ν) (Relation ν ω)) :
    Except (Refusal ν) (Database ν ω) := do
  let R ← db.find t
  let R' ← change R
  return db.write t (some R')

def createTable (db : Database ν ω) (t : ν) (columns : List (Column ν)) :
    Except (Refusal ν) (Database ν ω) :=
  if db.hasTable t then .error (.duplicateTable t)
  else .ok (db.write t (some (Relation.create columns)))

def dropTable (db : Database ν ω) (t : ν) : Except (Refusal ν) (Database ν ω) :=
  if db.hasTable t then .ok (db.write t none) else .error (.unknownTable t)

def renameTable (db : Database ν ω) (old new : ν) : Except (Refusal ν) (Database ν ω) := do
  let R ← db.find old
  if db.hasTable new then .error (.duplicateTable new)
  else .ok ((db.write old none).write new (some R))

omit [DecidableEq ν] in
theorem hasTable_eq_true (h : db.tables t = some R) : db.hasTable t = true := by
  rw [hasTable, h]
  rfl

omit [DecidableEq ν] in
theorem hasTable_eq_false (h : db.tables t = none) : db.hasTable t = false := by
  rw [hasTable, h]
  rfl

omit [DecidableEq ν] in
theorem find_eq_ok : db.find t = .ok R ↔ db.tables t = some R := by
  unfold find
  cases db.tables t <;> simp

theorem alter_eq_ok {change : Relation ν ω → Except (Refusal ν) (Relation ν ω)} :
    db.alter t change = .ok db' ↔
      ∃ R, db.tables t = some R ∧ ∃ R', change R = .ok R' ∧ db' = db.write t (some R') := by
  simp only [alter, except_bind_eq_ok, find_eq_ok]
  refine exists_congr fun R => and_congr_right fun _ => exists_congr fun R' =>
    and_congr_right fun _ => ?_
  exact ⟨fun h => (Except.ok.inj h).symm, fun h => by rw [h]; rfl⟩

theorem alter_gives {change : Relation ν ω → Except (Refusal ν) (Relation ν ω)}
    {P : Relation ν ω → Prop} (hR : db.tables t = some R) (h : Gives (change R) P) :
    Gives (db.alter t change) fun db' => ∃ R', P R' ∧ db' = db.write t (some R') := by
  obtain ⟨R', hR', hP⟩ := h
  exact ⟨_, alter_eq_ok.2 ⟨R, hR, R', hR', rfl⟩, R', hP, rfl⟩

/-- A change that changes nothing. -/
theorem alter_self {change : Relation ν ω → Except (Refusal ν) (Relation ν ω)}
    (hR : db.tables t = some R) (h : change R = .ok R) : db.alter t change = .ok db := by
  refine alter_eq_ok.2 ⟨R, hR, R, h, ?_⟩
  ext1
  funext t'
  rw [tables_write]
  split
  · next he => rw [he, hR]
  · rfl

theorem alter_congr {f g : Relation ν ω → Except (Refusal ν) (Relation ν ω)}
    (h : ∀ R, db.tables t = some R → f R = g R) : db.alter t f = db.alter t g := by
  unfold alter find
  cases hR : db.tables t with
  | none => rfl
  | some R => simp [Bind.bind, Except.bind, h R hR]

/-! ## Statements on several tables -/

/-- Run statements one after the other. -/
def run (db : Database ν ω) (script : List (Statement ν ω)) :
    Except (Refusal ν) (Database ν ω) :=
  script.foldlM (fun db s => db.alter s.table s.change) db

/-- The changes a script makes to one table, in order. -/
def changesOf (script : List (Statement ν ω)) (t : ν) :
    List (Relation ν ω → Except (Refusal ν) (Relation ν ω)) :=
  (script.filter fun s => s.table = t).map Statement.change

end Database

/-- Make changes to one table, one after the other. -/
def Relation.runAll (changes : List (Relation ν ω → Except (Refusal ν) (Relation ν ω)))
    (R : Relation ν ω) : Except (Refusal ν) (Relation ν ω) :=
  changes.foldlM (fun R change => change R) R

theorem Relation.runAll_cons
    (change : Relation ν ω → Except (Refusal ν) (Relation ν ω))
    (changes : List (Relation ν ω → Except (Refusal ν) (Relation ν ω))) (R : Relation ν ω) :
    R.runAll (change :: changes) = change R >>= fun R' => R'.runAll changes := rfl

theorem Relation.runAll_append
    (before after : List (Relation ν ω → Except (Refusal ν) (Relation ν ω)))
    (R : Relation ν ω) : R.runAll (before ++ after) = R.runAll before >>= fun R' =>
      R'.runAll after := List.foldlM_append

/-- A table before and after changes: there have been none, or it was there for them. -/
def Reaches (changes : List (Relation ν ω → Except (Refusal ν) (Relation ν ω)))
    (before after : Option (Relation ν ω)) : Prop :=
  match before with
  | none => changes = [] ∧ after = none
  | some R => ∃ R', R.runAll changes = .ok R' ∧ after = some R'

theorem reaches_nil {before after : Option (Relation ν ω)} :
    Reaches [] before after ↔ after = before := by
  cases before with
  | none => simp [Reaches]
  | some R =>
      constructor
      · rintro ⟨R', hR', rfl⟩
        rw [← Except.ok.inj hR']
      · rintro rfl
        exact ⟨R, rfl, rfl⟩

theorem reaches_cons {change : Relation ν ω → Except (Refusal ν) (Relation ν ω)}
    {changes : List (Relation ν ω → Except (Refusal ν) (Relation ν ω))}
    {before after : Option (Relation ν ω)} :
    Reaches (change :: changes) before after ↔
      ∃ R R', before = some R ∧ change R = .ok R' ∧ Reaches changes (some R') after := by
  cases before with
  | none => simp [Reaches]
  | some R =>
      simp only [Reaches, Relation.runAll, List.foldlM_cons, except_bind_eq_ok,
        Option.some.injEq]
      constructor
      · rintro ⟨R'', ⟨R', hR', hrest⟩, hafter⟩
        exact ⟨R, R', rfl, hR', R'', hrest, hafter⟩
      · rintro ⟨R, R', rfl, hR', R'', hrest, hafter⟩
        exact ⟨R'', ⟨R', hR', hrest⟩, hafter⟩

namespace Database

variable [DecidableEq ν] {db db' : Database ν ω}

theorem changesOf_cons (s : Statement ν ω) (script : List (Statement ν ω)) (t : ν) :
    changesOf (s :: script) t =
      if s.table = t then s.change :: changesOf script t else changesOf script t := by
  unfold changesOf
  rw [List.filter_cons]
  by_cases h : s.table = t <;> simp [h]

/-- **A script, table by table.**  Statements on different tables do not get in each
other's way: the run goes through exactly if every table goes through its own statements,
and then that is all that has happened to it. -/
theorem run_eq_ok_iff {script : List (Statement ν ω)} :
    db.run script = .ok db' ↔ ∀ t, Reaches (changesOf script t) (db.tables t) (db'.tables t) := by
  induction script generalizing db with
  | nil =>
      have hnil : db.run [] = .ok db' ↔ db = db' := by
        constructor
        · exact fun h => Except.ok.inj h
        · rintro rfl
          rfl
      rw [hnil]
      constructor
      · rintro rfl t
        exact reaches_nil.2 rfl
      · intro h
        ext1
        funext t
        exact (reaches_nil.1 (h t)).symm
  | cons s script ih =>
      have hcons : db.run (s :: script) = .ok db' ↔
          ∃ db₁, db.alter s.table s.change = .ok db₁ ∧ db₁.run script = .ok db' := by
        rw [run, List.foldlM_cons, except_bind_eq_ok]
        rfl
      rw [hcons]
      constructor
      · rintro ⟨db₁, halter, hrest⟩ t
        obtain ⟨R, hR, R', hchange, rfl⟩ := alter_eq_ok.1 halter
        have ht := ih.1 hrest t
        rw [tables_write] at ht
        rw [changesOf_cons]
        by_cases h : s.table = t
        · rw [if_pos h.symm] at ht
          rw [if_pos h, reaches_cons]
          exact ⟨R, R', h ▸ hR, hchange, ht⟩
        · rw [if_neg fun h' => h h'.symm] at ht
          rw [if_neg h]
          exact ht
      · intro h
        have hs := h s.table
        rw [changesOf_cons, if_pos rfl, reaches_cons] at hs
        obtain ⟨R, R', hR, hchange, hreach⟩ := hs
        refine ⟨_, alter_eq_ok.2 ⟨R, hR, R', hchange, rfl⟩, ih.2 fun t => ?_⟩
        rw [tables_write]
        by_cases ht : t = s.table
        · subst ht
          rw [if_pos rfl]
          exact hreach
        · have hother := h t
          rw [changesOf_cons, if_neg fun h' => ht h'.symm] at hother
          rw [if_neg ht]
          exact hother

variable {script : List (Statement ν ω)} {t : ν}

theorem changesOf_eq_nil (h : ∀ s ∈ script, s.table ≠ t) : changesOf script t = [] := by
  unfold changesOf
  rw [List.filter_eq_nil_iff.2 fun s hs => by simpa using h s hs]
  rfl

/-- A script runs if each table it names is there and goes through its own statements. -/
theorem exists_run (h : ∀ s ∈ script, ∃ R, db.tables s.table = some R ∧
    ∃ R', R.runAll (changesOf script s.table) = .ok R') : ∃ db', db.run script = .ok db' := by
  have hreach : ∀ t, ∃ after, Reaches (changesOf script t) (db.tables t) after := by
    intro t
    by_cases ht : ∃ s ∈ script, s.table = t
    · obtain ⟨s, hs, rfl⟩ := ht
      obtain ⟨R, hR, R', hR'⟩ := h s hs
      rw [hR]
      exact ⟨some R', R', hR', rfl⟩
    · rw [changesOf_eq_nil fun s hs he => ht ⟨s, hs, he⟩]
      exact ⟨db.tables t, reaches_nil.2 rfl⟩
  choose after hafter using hreach
  exact ⟨⟨after⟩, run_eq_ok_iff.2 hafter⟩

/-- What a script has made of a table. -/
theorem runAll_of_run (h : db.run script = .ok db') {R : Relation ν ω}
    (hR : db.tables t = some R) :
    ∃ R', R.runAll (changesOf script t) = .ok R' ∧ db'.tables t = some R' := by
  have ht := run_eq_ok_iff.1 h t
  rw [hR] at ht
  exact ht

theorem gives_of_run (h : db.run script = .ok db') {R : Relation ν ω}
    (hR : db.tables t = some R) {P : Relation ν ω → Prop}
    (hP : Gives (R.runAll (changesOf script t)) P) : ∃ R', db'.tables t = some R' ∧ P R' := by
  obtain ⟨R', hrun, hR'⟩ := runAll_of_run h hR
  exact ⟨R', hR', hP.of_eq_ok hrun⟩

/-- A table the script does not name. -/
theorem tables_of_run (h : db.run script = .ok db') (ht : ∀ s ∈ script, s.table ≠ t) :
    db'.tables t = db.tables t := by
  have hreach := run_eq_ok_iff.1 h t
  rw [changesOf_eq_nil ht] at hreach
  exact reaches_nil.1 hreach

theorem run_append (db : Database ν ω) (script script' : List (Statement ν ω)) :
    db.run (script ++ script') = db.run script >>= fun db => db.run script' :=
  List.foldlM_append

end Database

end Store
