import Mathlib.Data.Finset.Disjoint
import OrderRun.Lib.Redo
import OrderRun.Lib.Relation

/-!
# Guarded statements as steps of a script

A migration looks before each statement whether there is something to do, so that it may be
started again after it has been stopped.  This file has the guarded statements as steps of
`Redo`: each knows when it has been done, and which columns and indexes it names.

* `Exactly` — what a statement makes of a table, with nothing left open.
* `Framed` — what a statement leaves alone.
* `TableStep`, `TableStep.spares_of_disjoint` — statements about different columns do not undo
  each other.
* `renameIf`, `dropIf`, `addIf`, … — the guarded statements.  `createIndexIf` stands apart, as
  an index can go with a column that the statement does not name.
* `onTable`, `renameTableIf` — steps on a database; `lasting_onTables` looks at one table at a
  time.
-/

namespace Store

variable {ν ω : Type} [DecidableEq ν]

namespace Relation

/-! ## What a statement does -/

section Exact

variable {R R' R'' : Relation ν ω} {C C' Q Q' : Finset ν} {X X' : ν → List ν}
  {f g : Row ν ω → Row ν ω} {c : ν}

/-- The table has these columns, these `NOT NULL` columns and these indexes now, and its rows are
the old ones after `f`. -/
structure Exactly (R : Relation ν ω) (columns required : Finset ν) (indexes : ν → List ν)
    (f : Row ν ω → Row ν ω) (R' : Relation ν ω) : Prop extends Altered R columns f R' where
  required_eq : R'.required = required
  indexes_eq : R'.indexes = indexes
  next_eq : R'.rows.next = R.rows.next

omit [DecidableEq ν] in
theorem Exactly.refl (R : Relation ν ω) :
    Exactly R R.columns R.required R.indexes (fun r => r) R :=
  ⟨Altered.refl R, rfl, rfl, rfl⟩

omit [DecidableEq ν] in
/-- One statement after the other. -/
theorem Exactly.trans (h : Exactly R C Q X f R') (h' : Exactly R' C' Q' X' g R'') :
    Exactly R C' Q' X' (fun r => g (f r)) R'' :=
  ⟨h.toAltered.trans h'.toAltered, h'.required_eq, h'.indexes_eq, h'.next_eq.trans h.next_eq⟩

omit [DecidableEq ν] in
theorem Exactly.congr (h : Exactly R C Q X f R') (hC : C = C') (hQ : Q = Q') (hX : X = X')
    (hfg : ∀ r ∈ R.rows, f r = g r) : Exactly R C' Q' X' g R' :=
  ⟨hC ▸ h.toAltered.congr hfg, hQ ▸ h.required_eq, hX ▸ h.indexes_eq, h.next_eq⟩

omit [DecidableEq ν] in
/-- Nothing is left open. -/
theorem Exactly.unique (h : Exactly R C Q X f R') (h' : Exactly R C' Q' X' g R'') (hC : C = C')
    (hQ : Q = Q') (hX : X = X') (hfg : ∀ r ∈ R.rows, f r = g r) : R' = R'' := by
  have hcolumns : R'.columns = R''.columns := h.columns_eq.trans (hC.trans h'.columns_eq.symm)
  have hrequired : R'.required = R''.required :=
    h.required_eq.trans (hQ.trans h'.required_eq.symm)
  have hindexes : R'.indexes = R''.indexes := h.indexes_eq.trans (hX.trans h'.indexes_eq.symm)
  have hrows : R'.rows.rows = R''.rows.rows :=
    h.rows_eq.trans ((List.map_congr_left hfg).trans h'.rows_eq.symm)
  have hnext : R'.rows.next = R''.rows.next := h.next_eq.trans h'.next_eq.symm
  obtain ⟨C₁, Q₁, X₁, ⟨⟨rows₁, nodup₁⟩, next₁, lt₁⟩, proper₁, blank₁, filled₁, indexed₁⟩ := R'
  obtain ⟨C₂, Q₂, X₂, ⟨⟨rows₂, nodup₂⟩, next₂, lt₂⟩, proper₂, blank₂, filled₂, indexed₂⟩ := R''
  obtain rfl : C₁ = C₂ := hcolumns
  obtain rfl : Q₁ = Q₂ := hrequired
  obtain rfl : X₁ = X₂ := hindexes
  obtain rfl : rows₁ = rows₂ := hrows
  obtain rfl : next₁ = next₂ := hnext
  rfl

omit [DecidableEq ν] in
/-- A table that has become what it was. -/
theorem Exactly.eq (h : Exactly R C Q X f R') (hC : C = R.columns) (hQ : Q = R.required)
    (hX : X = R.indexes) (hf : ∀ r ∈ R.rows, f r = r) : R' = R := h.unique (.refl R) hC hQ hX hf

theorem addColumn_exactly (h : R.addColumn c = .ok R') :
    Exactly R (insert c R.columns) R.required R.indexes (fun r => r) R' := by
  unfold addColumn at h
  split at h
  · cases h
  · obtain rfl := Except.ok.inj h
    exact ⟨⟨rfl, (List.map_id' _).symm⟩, rfl, rfl, rfl⟩

theorem addColumnDefault_exactly {v : ω} (h : R.addColumnDefault c v = .ok R') :
    Exactly R (insert c R.columns) (insert c R.required) R.indexes (fun r => r.set c (some v))
      R' := by
  unfold addColumnDefault at h
  split at h
  · cases h
  · obtain rfl := Except.ok.inj h
    exact ⟨⟨rfl, rfl⟩, rfl, rfl, rfl⟩

theorem dropColumn_exactly (h : R.dropColumn c = .ok R') :
    Exactly R (R.columns.erase c) (R.required.erase c)
      (fun name => (R.indexes name).filter (· ≠ c)) (fun r => r.set c none) R' := by
  unfold dropColumn at h
  split at h
  · obtain rfl := Except.ok.inj h
    exact ⟨⟨rfl, rfl⟩, rfl, rfl, rfl⟩
  · cases h

theorem renameColumn_exactly {old new : ν} (h : R.renameColumn old new = .ok R') :
    Exactly R (insert new (R.columns.erase old)) ((R.required.erase old).erase new)
      (fun name => (R.indexes name).map (rename old new))
      (fun r => (r.set new (r.cells old)).set old none) R' := by
  unfold renameColumn at h
  split at h
  · cases h
  · split at h
    · cases h
    · obtain rfl := Except.ok.inj h
      exact ⟨⟨rfl, rfl⟩, rfl, rfl, rfl⟩

theorem createIndex_exactly {name : ν} {on : List ν} (h : R.createIndex name on = .ok R') :
    Exactly R R.columns R.required (Function.update R.indexes name on) (fun r => r) R' := by
  unfold createIndex at h
  split at h
  · cases h
  · split at h
    · cases h
    · obtain rfl := Except.ok.inj h
      exact ⟨⟨rfl, (List.map_id' _).symm⟩, rfl, rfl, rfl⟩

theorem dropIndex_exactly {name : ν} (h : R.dropIndex name = .ok R') :
    Exactly R R.columns R.required (Function.update R.indexes name []) (fun r => r) R' := by
  unfold dropIndex at h
  split at h
  · cases h
  · obtain rfl := Except.ok.inj h
    exact ⟨⟨rfl, (List.map_id' _).symm⟩, rfl, rfl, rfl⟩

theorem update_exactly {selected : Row ν ω → Bool} {value : Row ν ω → Option ω}
    (h : R.update c selected value = .ok R') : Exactly R R.columns R.required R.indexes
      (fun r => if selected r then r.set c (value r) else r) R' := by
  unfold update at h
  split at h
  · cases h
  · split at h
    · cases h
    · obtain rfl := Except.ok.inj h
      exact ⟨⟨rfl, rfl⟩, rfl, rfl, rfl⟩

theorem setNotNull_exactly (h : R.setNotNull c = .ok R') :
    Exactly R R.columns (insert c R.required) R.indexes (fun r => r) R' := by
  unfold setNotNull at h
  split at h
  · cases h
  · split at h
    · cases h
    · obtain rfl := Except.ok.inj h
      exact ⟨⟨rfl, (List.map_id' _).symm⟩, rfl, rfl, rfl⟩

theorem setNullable_exactly (h : R.setNullable c = .ok R') :
    Exactly R R.columns (R.required.erase c) R.indexes (fun r => r) R' := by
  unfold setNullable at h
  split at h
  · cases h
  · obtain rfl := Except.ok.inj h
    exact ⟨⟨rfl, (List.map_id' _).symm⟩, rfl, rfl, rfl⟩

theorem setEnum_exactly [DecidableEq ω] {values : List ω} (h : R.setEnum c values = .ok R') :
    Exactly R R.columns (insert c R.required) R.indexes (fun r => r) R' := by
  unfold setEnum at h
  split at h
  · exact setNotNull_exactly h
  · cases h

end Exact

/-! ## Statements that change nothing -/

section Nothing

variable {R : Relation ν ω} {c : ν}

omit [DecidableEq ν] in
/-- A statement that is not refused, and finds nothing to change. -/
theorem eq_self_of_gives {x : Except (Refusal ν) (Relation ν ω)} {P : Relation ν ω → Prop}
    (h : Gives x P) (hself : ∀ R', x = .ok R' → R' = R) : x = .ok R := by
  obtain ⟨R', hx, -⟩ := h
  rw [hx, hself R' hx]

theorem setNotNull_of_required (hc : c ∈ R.columns) (h : c ∈ R.required) :
    R.setNotNull c = .ok R :=
  eq_self_of_gives (setNotNull_gives hc fun r hr => R.filled r hr c h) fun _ hR' =>
    (setNotNull_exactly hR').eq rfl (Finset.insert_eq_of_mem h) rfl fun _ _ => rfl

theorem mem_of_setEnum [DecidableEq ω] {values : List ω} {R' : Relation ν ω}
    (h : R.setEnum c values = .ok R') : c ∈ R.columns := by
  by_contra hc
  unfold setEnum setNotNull at h
  rw [dif_pos hc] at h
  split at h <;> cases h

theorem mem_of_update {selected : Row ν ω → Bool} {value : Row ν ω → Option ω}
    {R' : Relation ν ω} (h : R.update c selected value = .ok R') : c ∈ R.columns := by
  by_contra hc
  unfold update at h
  rw [dif_pos hc] at h
  cases h

theorem setNullable_of_nullable (hc : c ∈ R.columns) (h : c ∉ R.required) :
    R.setNullable c = .ok R := by
  have hok : R.setNullable c = .ok { R with
      required := R.required.erase c
      proper := (Finset.erase_subset c _).trans R.proper
      filled := fun r hr c' hc' => R.filled r hr c' (Finset.mem_of_mem_erase hc') } := by
    unfold setNullable
    rw [if_neg (not_not_intro hc)]
  rw [hok, (setNullable_exactly hok).eq rfl (Finset.erase_eq_of_notMem h) rfl fun _ _ => rfl]

theorem update_of_none {selected : Row ν ω → Bool} {value : Row ν ω → Option ω}
    (hc : c ∈ R.columns) (h : ∀ r ∈ R.rows, selected r = false) :
    R.update c selected value = .ok R := by
  refine eq_self_of_gives (update_gives hc fun _ r hr hs => ?_) fun _ hR' => ?_
  · exact absurd ((h r hr).symm.trans hs) Bool.false_ne_true
  · refine (update_exactly hR').eq rfl rfl rfl fun r hr => ?_
    rw [h r hr, if_neg Bool.false_ne_true]

omit [DecidableEq ν] in
theorem delete_of_none {selected : Row ν ω → Bool} (h : ∀ r ∈ R.rows, selected r = false) :
    R.delete selected = .ok R := by
  have hrows : (R.rows.filter fun r => !selected r) = R.rows :=
    AutoTable.filter_eq_self fun r hr => by rw [h r hr]; rfl
  unfold delete
  simp only [hrows]

end Nothing

/-! ## What a statement leaves alone -/

section Framed

variable {R R' : Relation ν ω} {names : Finset ν}

/-- Whatever has other names than these is as before, except that an index can go with its
columns; and every row has been one before. -/
structure Framed (names : Finset ν) (R R' : Relation ν ω) : Prop where
  columns : ∀ c ∉ names, (c ∈ R'.columns ↔ c ∈ R.columns)
  required : ∀ c ∉ names, (c ∈ R'.required ↔ c ∈ R.required)
  indexes : ∀ name ∉ names, R.indexes name = [] → R'.indexes name = []
  rows : ∀ r' ∈ R'.rows, ∃ r ∈ R.rows, ∀ c ∉ names, r'.cells c = r.cells c

omit [DecidableEq ν] in
theorem Framed.refl (names : Finset ν) (R : Relation ν ω) : Framed names R R :=
  ⟨fun _ _ => Iff.rfl, fun _ _ => Iff.rfl, fun _ _ h => h, fun r hr => ⟨r, hr, fun _ _ => rfl⟩⟩

omit [DecidableEq ν] in
theorem Framed.mono {names' : Finset ν} (h : Framed names R R') (hsub : names ⊆ names') :
    Framed names' R R' :=
  ⟨fun c hc => h.columns c fun h' => hc (hsub h'), fun c hc => h.required c fun h' => hc (hsub h'),
    fun name hname => h.indexes name fun h' => hname (hsub h'), fun r' hr' => by
      obtain ⟨r, hr, hcells⟩ := h.rows r' hr'
      exact ⟨r, hr, fun c hc => hcells c fun h' => hc (hsub h')⟩⟩

omit [DecidableEq ν] in
theorem Exactly.framed {C Q : Finset ν} {X : ν → List ν} {f : Row ν ω → Row ν ω}
    (h : Exactly R C Q X f R') (hC : ∀ c ∉ names, (c ∈ C ↔ c ∈ R.columns))
    (hQ : ∀ c ∉ names, (c ∈ Q ↔ c ∈ R.required))
    (hX : ∀ name ∉ names, R.indexes name = [] → X name = [])
    (hf : ∀ r, ∀ c ∉ names, (f r).cells c = r.cells c) : Framed names R R' where
  columns := h.columns_eq ▸ hC
  required := h.required_eq ▸ hQ
  indexes := h.indexes_eq ▸ hX
  rows := by
    intro r' hr'
    obtain ⟨r, hr, rfl⟩ := h.mem.1 hr'
    exact ⟨r, hr, hf r⟩

variable {c : ν}

theorem addColumn_framed (h : R.addColumn c = .ok R') : Framed {c} R R' :=
  (addColumn_exactly h).framed (by simp +contextual) (by simp) (by simp) (by simp)

theorem addColumnDefault_framed {v : ω} (h : R.addColumnDefault c v = .ok R') :
    Framed {c} R R' :=
  (addColumnDefault_exactly h).framed (by simp +contextual) (by simp +contextual) (by simp)
    (by simp +contextual)

theorem dropColumn_framed (h : R.dropColumn c = .ok R') : Framed {c} R R' :=
  (dropColumn_exactly h).framed (by simp +contextual) (by simp +contextual) (by simp +contextual)
    (by simp +contextual)

theorem renameColumn_framed {old new : ν} (h : R.renameColumn old new = .ok R') :
    Framed {old, new} R R' :=
  (renameColumn_exactly h).framed (by simp +contextual) (by simp +contextual)
    (by simp +contextual) (by simp +contextual)

theorem createIndex_framed {name : ν} {on : List ν} (h : R.createIndex name on = .ok R') :
    Framed {name} R R' :=
  (createIndex_exactly h).framed (by simp) (by simp)
    (fun other hother hnone => by
      rwa [Function.update_of_ne (Finset.notMem_singleton.1 hother)]) (by simp)

theorem dropIndex_framed {name : ν} (h : R.dropIndex name = .ok R') : Framed {name} R R' :=
  (dropIndex_exactly h).framed (by simp) (by simp)
    (fun other hother hnone => by
      rwa [Function.update_of_ne (Finset.notMem_singleton.1 hother)]) (by simp)

theorem update_framed {selected : Row ν ω → Bool} {value : Row ν ω → Option ω}
    (h : R.update c selected value = .ok R') : Framed {c} R R' := by
  refine (update_exactly h).framed (by simp) (by simp) (by simp) fun r c' hc' => ?_
  split
  · rw [Row.cells_set, if_neg (Finset.notMem_singleton.1 hc')]
  · rfl

theorem setNotNull_framed (h : R.setNotNull c = .ok R') : Framed {c} R R' :=
  (setNotNull_exactly h).framed (by simp) (by simp +contextual) (by simp) (by simp)

theorem setNullable_framed (h : R.setNullable c = .ok R') : Framed {c} R R' :=
  (setNullable_exactly h).framed (by simp) (by simp +contextual) (by simp) (by simp)

theorem setEnum_framed [DecidableEq ω] {values : List ω} (h : R.setEnum c values = .ok R') :
    Framed {c} R R' :=
  (setEnum_exactly h).framed (by simp) (by simp +contextual) (by simp) (by simp)

omit [DecidableEq ν] in
theorem delete_framed {selected : Row ν ω → Bool} (h : R.delete selected = .ok R') :
    Framed names R R' := by
  obtain rfl := Except.ok.inj h
  exact ⟨fun _ _ => Iff.rfl, fun _ _ => Iff.rfl, fun _ _ h => h,
    fun r hr => ⟨r, (AutoTable.mem_filter.1 hr).1, fun _ _ => rfl⟩⟩

end Framed

end Relation

/-! ## Guarded statements -/

/-- A step on a table, with the columns and the indexes it is about. -/
structure TableStep (ν ω : Type) extends Redo.Step (Relation ν ω) (Refusal ν) where
  names : Finset ν
  framed : ∀ {R R'}, run R = .ok R' → Relation.Framed names R R'
  /-- Whether the step has been done shows in them. -/
  done_framed : ∀ {R R' other}, Disjoint names other → Relation.Framed other R R' →
    Done R → Done R'

namespace TableStep

open Store.Relation

omit [DecidableEq ν] in
/-- **Statements about different columns do not undo each other.** -/
theorem spares_of_disjoint {p q : TableStep ν ω} (h : Disjoint p.names q.names) :
    q.toStep.Spares p.toStep :=
  fun _ _ hdone hrun => p.done_framed h (q.framed hrun) hdone

/-- No statement is undone by a later one. -/
def Lasting (ps : List (TableStep ν ω)) : Prop :=
  ps.Pairwise fun p q => q.toStep.Spares p.toStep

omit [DecidableEq ν] in
theorem lasting_of_disjoint {ps : List (TableStep ν ω)}
    (h : ps.Pairwise fun p q => Disjoint p.names q.names) : Lasting ps :=
  h.imp spares_of_disjoint

omit [DecidableEq ν] in
theorem lasting_append {ps qs : List (TableStep ν ω)} (hps : Lasting ps) (hqs : Lasting qs)
    (h : ∀ p ∈ ps, ∀ q ∈ qs, Disjoint p.names q.names) : Lasting (ps ++ qs) :=
  List.pairwise_append.2 ⟨hps, hqs, fun p hp q hq => spares_of_disjoint (h p hp q hq)⟩

/-- A statement, if there is something to do. -/
def guarded (guard : Relation ν ω → Prop) [DecidablePred guard]
    (statement : Relation ν ω → Except (Refusal ν) (Relation ν ω)) (Done : Relation ν ω → Prop)
    (names : Finset ν) (hskip : ∀ {R}, ¬ guard R → Done R)
    (hdone : ∀ {R R'}, statement R = .ok R' → Done R')
    (hagain : ∀ {R}, guard R → Done R → statement R = .ok R)
    (hframed : ∀ {R R'}, statement R = .ok R' → Framed names R R')
    (hlocal : ∀ {R R' other}, Disjoint names other → Framed other R R' → Done R → Done R') :
    TableStep ν ω where
  run R := if guard R then statement R else .ok R
  Done := Done
  names := names
  done_of_run := by
    intro R R' h
    split at h
    · exact hdone h
    · next hnot =>
        obtain rfl := Except.ok.inj h
        exact hskip hnot
  run_of_done := by
    intro R h
    split
    · next hguard => exact hagain hguard h
    · rfl
  framed := by
    intro R R' h
    split at h
    · exact hframed h
    · obtain rfl := Except.ok.inj h
      exact .refl names R
  done_framed := hlocal

section Columns

variable (c : ν)

omit [DecidableEq ν] in
/-- A name that the statement is about is none of the others. -/
theorem notMem_other {names other : Finset ν} {c : ν} (h : Disjoint names other) (hc : c ∈ names) :
    c ∉ other := fun hother => Finset.disjoint_left.1 h hc hother

/-- `ADD COLUMN`, if there is no such column. -/
def addIf : TableStep ν ω :=
  guarded (fun R => c ∉ R.columns) (addColumn c) (fun R => c ∈ R.columns) {c}
    (fun h => not_not.1 h)
    (fun h => (addColumn_exactly h).columns_eq ▸ Finset.mem_insert_self c _)
    (fun hguard hdone => absurd hdone hguard)
    addColumn_framed
    (fun hother hframed hdone =>
      (hframed.columns c (notMem_other hother (Finset.mem_singleton_self c))).2 hdone)

/-- `ADD COLUMN ... NOT NULL DEFAULT v`, if there is no such column. -/
def addDefaultIf (v : ω) : TableStep ν ω :=
  guarded (fun R => c ∉ R.columns) (addColumnDefault c v) (fun R => c ∈ R.columns) {c}
    (fun h => not_not.1 h)
    (fun h => (addColumnDefault_exactly h).columns_eq ▸ Finset.mem_insert_self c _)
    (fun hguard hdone => absurd hdone hguard)
    addColumnDefault_framed
    (fun hother hframed hdone =>
      (hframed.columns c (notMem_other hother (Finset.mem_singleton_self c))).2 hdone)

/-- `DROP COLUMN`, if there is such a column. -/
def dropIf : TableStep ν ω :=
  guarded (fun R => c ∈ R.columns) (dropColumn c) (fun R => c ∉ R.columns) {c}
    (fun h => h)
    (fun h => (dropColumn_exactly h).columns_eq ▸ Finset.notMem_erase c _)
    (fun hguard hdone => absurd hguard hdone)
    dropColumn_framed
    (fun hother hframed hdone hc =>
      hdone ((hframed.columns c (notMem_other hother (Finset.mem_singleton_self c))).1 hc))

/-- `MODIFY ... NOT NULL`, if there is such a column. -/
def notNullIf : TableStep ν ω :=
  guarded (fun R => c ∈ R.columns) (setNotNull c) (fun R => c ∈ R.columns → c ∈ R.required) {c}
    (fun h hc => absurd hc h)
    (fun h _ => (setNotNull_exactly h).required_eq ▸ Finset.mem_insert_self c _)
    (fun hguard hdone => setNotNull_of_required hguard (hdone hguard))
    setNotNull_framed
    (fun hother hframed hdone hc => by
      have hnot := notMem_other hother (Finset.mem_singleton_self c)
      exact (hframed.required c hnot).2 (hdone ((hframed.columns c hnot).1 hc)))

/-- `MODIFY ... NULL`, if there is such a column. -/
def nullableIf : TableStep ν ω :=
  guarded (fun R => c ∈ R.columns) (setNullable c) (fun R => c ∈ R.columns → c ∉ R.required) {c}
    (fun h hc => absurd hc h)
    (fun h _ => (setNullable_exactly h).required_eq ▸ Finset.notMem_erase c _)
    (fun hguard hdone => setNullable_of_nullable hguard (hdone hguard))
    setNullable_framed
    (fun hother hframed hdone hc hrequired => by
      have hnot := notMem_other hother (Finset.mem_singleton_self c)
      exact hdone ((hframed.columns c hnot).1 hc) ((hframed.required c hnot).1 hrequired))

/-- `UPDATE ... SET c = v WHERE c IS NULL`, if there is such a column. -/
def fillIf (v : ω) : TableStep ν ω :=
  guarded (fun R => c ∈ R.columns) (update c (fun r => (r.cells c).isNone) fun _ => some v)
    (fun R => c ∈ R.columns → ∀ r ∈ R.rows, r.cells c ≠ none) {c}
    (fun h hc => absurd hc h)
    (fun h _ r' hr' => by
      obtain ⟨r, -, rfl⟩ := (update_exactly h).mem.1 hr'
      split
      · simp
      · next hsome => simpa using hsome)
    (fun hguard hdone => update_of_none hguard fun r hr => by
      simpa [Option.isSome_iff_ne_none] using hdone hguard r hr)
    update_framed
    (fun hother hframed hdone hc r' hr' => by
      have hnot := notMem_other hother (Finset.mem_singleton_self c)
      obtain ⟨r, hr, hcells⟩ := hframed.rows r' hr'
      rw [hcells c hnot]
      exact hdone ((hframed.columns c hnot).1 hc) r hr)

/-- `DELETE ... WHERE` the column holds one of these, if there is such a column. -/
def deleteIf (gone : Option ω → Bool) : TableStep ν ω :=
  guarded (fun R => c ∈ R.columns) (delete fun r => gone (r.cells c))
    (fun R => c ∈ R.columns → ∀ r ∈ R.rows, gone (r.cells c) = false) {c}
    (fun h hc => absurd hc h)
    (fun h _ r hr => by
      obtain rfl := Except.ok.inj h
      simpa using (AutoTable.mem_filter.1 hr).2)
    (fun hguard hdone => delete_of_none (hdone hguard))
    delete_framed
    (fun hother hframed hdone hc r' hr' => by
      have hnot := notMem_other hother (Finset.mem_singleton_self c)
      obtain ⟨r, hr, hcells⟩ := hframed.rows r' hr'
      rw [hcells c hnot]
      exact hdone ((hframed.columns c hnot).1 hc) r hr)

section Values

variable [DecidableEq ω]

/-- `MODIFY c ENUM(values) NOT NULL`. -/
def enumerate (values : List ω) : TableStep ν ω where
  run := setEnum c values
  Done R := c ∈ R.columns ∧ c ∈ R.required ∧ R.Listed c values
  names := {c}
  done_of_run := by
    intro R R' h
    have hexactly := setEnum_exactly h
    refine ⟨?_, ?_, ?_⟩
    · rw [hexactly.columns_eq]
      exact mem_of_setEnum h
    · rw [hexactly.required_eq]
      exact Finset.mem_insert_self c _
    · exact (hexactly.toAltered.listed_iff fun _ => rfl).2 (listed_of_setEnum h)
  run_of_done := fun ⟨hc, hrequired, hlisted⟩ =>
    eq_self_of_gives (setEnum_gives hc hlisted) fun _ hR' =>
      (setEnum_exactly hR').eq rfl (Finset.insert_eq_of_mem hrequired) rfl fun _ _ => rfl
  framed := setEnum_framed
  done_framed := by
    rintro R R' other hother hframed ⟨hc, hrequired, hlisted⟩
    have hnot := notMem_other hother (Finset.mem_singleton_self c)
    refine ⟨(hframed.columns c hnot).2 hc, (hframed.required c hnot).2 hrequired, ?_⟩
    intro r' hr'
    obtain ⟨r, hr, hcells⟩ := hframed.rows r' hr'
    rw [hcells c hnot]
    exact hlisted r hr

/-- `UPDATE ... SET c = new WHERE c = old`. -/
def replace (old new : ω) (hne : old ≠ new) : TableStep ν ω where
  run := update c (fun r => r.cells c = some old) fun _ => some new
  Done R := c ∈ R.columns ∧ ∀ r ∈ R.rows, r.cells c ≠ some old
  names := {c}
  done_of_run := by
    intro R R' h
    have hexactly := update_exactly h
    refine ⟨?_, fun r' hr' => ?_⟩
    · rw [hexactly.columns_eq]
      exact mem_of_update h
    · obtain ⟨r, -, rfl⟩ := hexactly.mem.1 hr'
      split
      · simpa using hne.symm
      · next hother => simpa using hother
  run_of_done := fun ⟨hc, hnone⟩ => update_of_none hc fun r hr => by simpa using hnone r hr
  framed := update_framed
  done_framed := by
    rintro R R' other hother hframed ⟨hc, hnone⟩
    have hnot := notMem_other hother (Finset.mem_singleton_self c)
    refine ⟨(hframed.columns c hnot).2 hc, fun r' hr' => ?_⟩
    obtain ⟨r, hr, hcells⟩ := hframed.rows r' hr'
    rw [hcells c hnot]
    exact hnone r hr

end Values

end Columns

section Indexes

variable (name : ν)

/-- `DROP INDEX`, if there is such an index. -/
def dropIndexIf : TableStep ν ω :=
  guarded (fun R => R.indexes name ≠ []) (dropIndex name) (fun R => R.indexes name = []) {name}
    (fun h => not_not.1 h)
    (fun h => (congrFun (dropIndex_exactly h).indexes_eq name).trans (Function.update_self ..))
    (fun hguard hdone => absurd hdone hguard)
    dropIndex_framed
    (fun hother hframed hdone =>
      hframed.indexes name (notMem_other hother (Finset.mem_singleton_self name)) hdone)

/-- `CREATE INDEX`, if there is no such index. -/
def createIndexIf (on : List ν) (hon : on ≠ []) : Redo.Step (Relation ν ω) (Refusal ν) where
  run R := if R.indexes name = [] then R.createIndex name on else .ok R
  Done R := R.indexes name ≠ []
  done_of_run := by
    intro R R' h
    split at h
    · rw [(createIndex_exactly h).indexes_eq, Function.update_self]
      exact hon
    · next hthere =>
        obtain rfl := Except.ok.inj h
        exact hthere
  run_of_done := fun hthere => if_neg hthere

variable {name} {on : List ν} {hon : on ≠ []}

theorem createIndexIf_framed {R R' : Relation ν ω}
    (h : (createIndexIf name on hon).run R = .ok R') : Framed {name} R R' := by
  change (if R.indexes name = [] then R.createIndex name on else .ok R) = .ok R' at h
  split at h
  · exact createIndex_framed h
  · obtain rfl := Except.ok.inj h
    exact .refl _ R

/-- A new index undoes no statement about other names. -/
theorem createIndexIf_spares {p : TableStep ν ω} (h : name ∉ p.names) :
    (createIndexIf name on hon).Spares p.toStep :=
  fun _ _ hdone hrun => p.done_framed (Finset.disjoint_singleton_right.2 h)
    (createIndexIf_framed hrun) hdone

/-- A new index leaves the other ones. -/
theorem createIndexIf_spares_createIndexIf {name' : ν} {on' : List ν} {hon' : on' ≠ []} :
    (createIndexIf name' on' hon' : Redo.Step (Relation ν ω) (Refusal ν)).Spares
      (createIndexIf name on hon) := by
  intro R R' hdone hrun
  change (if R.indexes name' = [] then R.createIndex name' on' else .ok R) = .ok R' at hrun
  split at hrun
  · change R'.indexes name ≠ []
    rw [(createIndex_exactly hrun).indexes_eq, Function.update_apply]
    split
    · exact hon'
    · exact hdone
  · obtain rfl := Except.ok.inj hrun
    exact hdone

end Indexes

section Renames

variable (old new : ν)

/-- `CHANGE old new`, if there is the old column and not the new one. -/
def renameIf : TableStep ν ω :=
  guarded (fun R => old ∈ R.columns ∧ new ∉ R.columns) (renameColumn old new)
    (fun R => old ∈ R.columns → new ∈ R.columns) {old, new}
    (fun h hold => not_not.1 fun hnew => h ⟨hold, hnew⟩)
    (fun h _ => (renameColumn_exactly h).columns_eq ▸ Finset.mem_insert_self new _)
    (fun hguard hdone => absurd (hdone hguard.1) hguard.2)
    renameColumn_framed
    (fun hother hframed hdone hold => by
      have hnot := notMem_other hother (Finset.mem_insert_self old {new})
      have hnot' := notMem_other hother
        (Finset.mem_insert_of_mem (Finset.mem_singleton_self new))
      exact (hframed.columns new hnot').2 (hdone ((hframed.columns old hnot).1 hold)))

variable {old new} in
theorem run_renameIf {R : Relation ν ω} (hold : old ∈ R.columns) (hnew : new ∉ R.columns) :
    (renameIf old new).run R = R.renameColumn old new := if_pos ⟨hold, hnew⟩

/-- `UPDATE ... SET new = old WHERE new IS NULL`, if there are both columns. -/
def fillFrom : TableStep ν ω :=
  guarded (fun R => old ∈ R.columns ∧ new ∈ R.columns)
    (update new (fun r => (r.cells new).isNone) fun r => r.cells old)
    (fun R => old ∈ R.columns ∧ new ∈ R.columns →
      ∀ r ∈ R.rows, r.cells new = none → r.cells old = none) {old, new}
    (fun h hboth => absurd hboth h)
    (fun h _ r' hr' => by
      obtain ⟨r, -, rfl⟩ := (update_exactly h).mem.1 hr'
      by_cases hnew : r.cells new = none
      · simp only [hnew, Option.isNone_none, if_true, Row.cells_set]
        split
        · exact fun h => h
        · exact fun h => h
      · intro hnone
        simp [hnew, Option.isNone_iff_eq_none] at hnone)
    (fun hguard hdone => by
      refine eq_self_of_gives (update_isNone_gives hguard.2) fun _ hR' => ?_
      refine (update_exactly hR').eq rfl rfl rfl fun r hr => ?_
      split
      · next hnone =>
          rw [Option.isNone_iff_eq_none] at hnone
          exact Row.set_eq_self (hnone.trans (hdone hguard r hr hnone).symm)
      · rfl)
    (fun h => (update_framed h).mono (by simp))
    (fun hother hframed hdone hboth r' hr' => by
      have hnot := notMem_other hother (Finset.mem_insert_self old {new})
      have hnot' := notMem_other hother
        (Finset.mem_insert_of_mem (Finset.mem_singleton_self new))
      obtain ⟨r, hr, hcells⟩ := hframed.rows r' hr'
      rw [hcells old hnot, hcells new hnot']
      exact hdone ⟨(hframed.columns old hnot).1 hboth.1, (hframed.columns new hnot').1 hboth.2⟩
        r hr)

/-- `DROP COLUMN old` if there are both columns, and else `CHANGE old new`. -/
def finishRename (hne : old ≠ new) : TableStep ν ω :=
  guarded (fun R => old ∈ R.columns)
    (fun R => if new ∈ R.columns then R.dropColumn old else R.renameColumn old new)
    (fun R => old ∉ R.columns) {old, new}
    (fun h => h)
    (fun h => by
      split at h
      · exact (dropColumn_exactly h).columns_eq ▸ Finset.notMem_erase old _
      · rw [(renameColumn_exactly h).columns_eq]
        simpa using hne)
    (fun hguard hdone => absurd hguard hdone)
    (fun h => by
      split at h
      · exact (dropColumn_framed h).mono (by simp)
      · exact renameColumn_framed h)
    (fun hother hframed hdone hold =>
      hdone ((hframed.columns old (notMem_other hother (Finset.mem_insert_self old {new}))).1
        hold))

end Renames

/-! ### The same column twice -/

section Same

variable {c : ν}

/-- Making a column `NOT NULL` leaves no `NULL` where there was none. -/
theorem notNullIf_spares_fillIf (v : ω) :
    (notNullIf c : TableStep ν ω).toStep.Spares (fillIf c v).toStep := by
  intro R R' hdone hrun hc r' hr'
  change (if c ∈ R.columns then R.setNotNull c else .ok R) = .ok R' at hrun
  split at hrun
  · have hexactly := setNotNull_exactly hrun
    obtain ⟨r, hr, rfl⟩ := hexactly.mem.1 hr'
    exact hdone (hexactly.columns_eq ▸ hc) r hr
  · obtain rfl := Except.ok.inj hrun
    exact hdone hc r' hr'

theorem finishRename_spares_fillFrom {old new : ν} (hne : old ≠ new) :
    (finishRename old new hne : TableStep ν ω).toStep.Spares (fillFrom old new).toStep :=
  fun _ _ _ hrun hboth => absurd hboth.1 ((finishRename old new hne).done_of_run hrun)

variable [DecidableEq ω] {values values' : List ω} {old new : ω} {hne : old ≠ new}

/-- The new value is one of the listed ones. -/
theorem replace_spares_enumerate (hnew : new ∈ values) :
    (replace c old new hne).toStep.Spares (enumerate c values).toStep := by
  rintro R R' ⟨hc, hrequired, hlisted⟩ hrun
  have hexactly := update_exactly hrun
  refine ⟨hexactly.columns_eq ▸ hc, hexactly.required_eq ▸ hrequired, fun r' hr' => ?_⟩
  obtain ⟨r, hr, rfl⟩ := hexactly.mem.1 hr'
  split
  · exact ⟨new, hnew, by rw [Row.cells_set, if_pos rfl]⟩
  · exact hlisted r hr

/-- A column may be declared anew. -/
theorem enumerate_spares_enumerate :
    (enumerate c values').toStep.Spares (enumerate c values).toStep := by
  rintro R R' ⟨hc, hrequired, hlisted⟩ hrun
  have hexactly := setEnum_exactly hrun
  refine ⟨hexactly.columns_eq ▸ hc, ?_, (hexactly.toAltered.listed_iff fun _ => rfl).2 hlisted⟩
  rw [hexactly.required_eq]
  exact Finset.mem_insert_of_mem hrequired

theorem enumerate_spares_replace :
    (enumerate c values).toStep.Spares (replace c old new hne).toStep := by
  rintro R R' ⟨hc, hnone⟩ hrun
  have hexactly := setEnum_exactly hrun
  refine ⟨hexactly.columns_eq ▸ hc, fun r' hr' => ?_⟩
  obtain ⟨r, hr, rfl⟩ := hexactly.mem.1 hr'
  exact hnone r hr

end Same

end TableStep

/-! ## Steps on a database -/

namespace Database

open Redo

variable {t t' old new : ν} {R R' : Relation ν ω} {db db' : Database ν ω}

/-- A step on one table; unless the table is needed, there is nothing to do without it. -/
def onTable (needed : Bool) (t : ν) (p : Step (Relation ν ω) (Refusal ν)) :
    Step (Database ν ω) (Refusal ν) where
  run db := if needed || db.hasTable t then db.alter t p.run else .ok db
  Done db := (needed → db.hasTable t) ∧ ∀ R, db.tables t = some R → p.Done R
  done_of_run := by
    intro db db' h
    split at h
    · obtain ⟨R, hR, R', hrun, rfl⟩ := alter_eq_ok.1 h
      refine ⟨fun _ => hasTable_eq_true (by rw [tables_write, if_pos rfl]), fun R₁ hR₁ => ?_⟩
      rw [tables_write, if_pos rfl] at hR₁
      obtain rfl := Option.some.inj hR₁
      exact p.done_of_run hrun
    · next hnone =>
        obtain rfl := Except.ok.inj h
        simp only [Bool.or_eq_true, not_or, Bool.not_eq_true] at hnone
        refine ⟨fun hneeded => absurd (hneeded.symm.trans hnone.1) (by decide), fun R hR => ?_⟩
        exact absurd ((hasTable_eq_true hR).symm.trans hnone.2) (by decide)
  run_of_done := by
    rintro db ⟨hneeded, hdone⟩
    split
    · next hthere =>
        have htable : db.hasTable t = true := by
          rcases Bool.or_eq_true_iff.1 hthere with h | h
          · exact hneeded h
          · exact h
        obtain ⟨R, hR⟩ := Option.isSome_iff_exists.1 htable
        exact alter_self hR (p.run_of_done (hdone R hR))
    · rfl

/-- `ALTER TABLE old RENAME TO new`, if there is the old table and not the new one. -/
def renameTableIf (old new : ν) : Step (Database ν ω) (Refusal ν) where
  run db := if db.hasTable old ∧ ¬ db.hasTable new then db.renameTable old new else .ok db
  Done db := db.hasTable old → db.hasTable new
  done_of_run := by
    intro db db' h
    split at h
    · next hguard =>
        obtain ⟨R, hR, hrest⟩ := except_bind_eq_ok.1 h
        rw [if_neg hguard.2] at hrest
        obtain rfl := Except.ok.inj hrest
        exact fun _ => hasTable_eq_true (by rw [tables_write, if_pos rfl])
    · next hnot =>
        obtain rfl := Except.ok.inj h
        exact fun hold => not_not.1 fun hnew => hnot ⟨hold, hnew⟩
  run_of_done := fun h => if_neg fun hguard => hguard.2 (h hguard.1)

variable {p q : Step (Relation ν ω) (Refusal ν)} {needed needed' : Bool}

theorem onTable_cases (h : (onTable needed t p).run db = .ok db') : db' = db ∨
    ∃ R R', db.tables t = some R ∧ p.run R = .ok R' ∧ db' = db.write t (some R') := by
  change (if needed || db.hasTable t then db.alter t p.run else .ok db) = .ok db' at h
  split at h
  · obtain ⟨R, hR, R', hrun, rfl⟩ := alter_eq_ok.1 h
    exact Or.inr ⟨R, R', hR, hrun, rfl⟩
  · exact Or.inl (Except.ok.inj h).symm

/-- A change of a table neither makes nor drops one. -/
theorem hasTable_alter {change : Relation ν ω → Except (Refusal ν) (Relation ν ω)}
    (h : db.alter t change = .ok db') (t' : ν) : db'.hasTable t' = db.hasTable t' := by
  obtain ⟨R, hR, R', -, rfl⟩ := alter_eq_ok.1 h
  unfold hasTable
  rw [tables_write]
  split
  · next he => rw [he, hR]; rfl
  · rfl

theorem hasTable_onTable (h : (onTable needed t p).run db = .ok db') (t' : ν) :
    db'.hasTable t' = db.hasTable t' := by
  rcases onTable_cases h with rfl | ⟨R, R', hR, hrun, rfl⟩
  · rfl
  · exact hasTable_alter (alter_eq_ok.2 ⟨R, hR, R', hrun, rfl⟩) t'

/-- Steps on different tables do not undo each other, and on one table those do not that do
not there. -/
theorem onTable_spares (h : t = t' → q.Spares p) :
    (onTable needed' t' q).Spares (onTable needed t p) := by
  rintro db db' ⟨hneeded, hdone⟩ hrun
  refine ⟨fun hn => (hasTable_onTable hrun t).trans (hneeded hn), fun R hR => ?_⟩
  rcases onTable_cases hrun with rfl | ⟨R₀, R₁, hR₀, hq, rfl⟩
  · exact hdone R hR
  · rw [tables_write] at hR
    split at hR
    · next he =>
        subst he
        obtain rfl := Option.some.inj hR
        exact h rfl R₀ _ (hdone R₀ hR₀) hq
    · exact hdone R hR

theorem onTable_spares_renameTableIf :
    (onTable needed t p).Spares (renameTableIf old new) := by
  intro db db' hdone hrun hold
  rw [hasTable_onTable hrun] at hold ⊢
  exact hdone hold

/-- A table that has got another name has no steps left. -/
theorem renameTableIf_spares_onTable (hne : old ≠ new) :
    (renameTableIf old new).Spares (onTable false old p) := by
  rintro db db' ⟨-, hdone⟩ hrun
  refine ⟨fun h => absurd h (by decide), fun R hR => ?_⟩
  change (if db.hasTable old ∧ ¬ db.hasTable new then db.renameTable old new else .ok db) =
    .ok db' at hrun
  split at hrun
  · next hguard =>
      obtain ⟨R₀, -, hrest⟩ := except_bind_eq_ok.1 hrun
      rw [if_neg hguard.2] at hrest
      obtain rfl := Except.ok.inj hrest
      rw [tables_write, if_neg hne, tables_write, if_pos rfl] at hR
      exact absurd hR (by simp)
  · obtain rfl := Except.ok.inj hrun
    exact hdone R hR

/-! ### Scripts -/

/-- Statements on tables. -/
def onTables (needed : Bool) (statements : List (ν × TableStep ν ω)) :
    List (Step (Database ν ω) (Refusal ν)) :=
  statements.map fun s => onTable needed s.1 s.2.toStep

/-- The statements on one of the tables. -/
def stepsOn (statements : List (ν × TableStep ν ω)) (t : ν) : List (TableStep ν ω) :=
  (statements.filter fun s => s.1 = t).map Prod.snd

variable {statements : List (ν × TableStep ν ω)}

theorem stepsOn_cons (s : ν × TableStep ν ω) (t : ν) : stepsOn (s :: statements) t =
    if s.1 = t then s.2 :: stepsOn statements t else stepsOn statements t := by
  unfold stepsOn
  by_cases h : s.1 = t <;> simp [h]

theorem stepsOn_append (statements statements' : List (ν × TableStep ν ω)) (t : ν) :
    stepsOn (statements ++ statements') t = stepsOn statements t ++ stepsOn statements' t := by
  simp [stepsOn]

theorem stepsOn_eq_nil (h : ∀ s ∈ statements, s.1 ≠ t) : stepsOn statements t = [] := by
  have hnone : statements.filter (fun s => s.1 = t) = [] :=
    List.filter_eq_nil_iff.2 fun s hs => by simpa using h s hs
  rw [stepsOn, hnone, List.map_nil]

/-- **It is enough to look at one table at a time.** -/
theorem lasting_onTables (h : ∀ t, TableStep.Lasting (stepsOn statements t)) :
    Lasting (onTables needed statements) := by
  induction statements with
  | nil => exact List.Pairwise.nil
  | cons s statements ih =>
      refine List.pairwise_cons.2 ⟨fun q hq => ?_, ih fun t => ?_⟩
      · obtain ⟨s', hs', rfl⟩ := List.mem_map.1 hq
        refine onTable_spares fun he => ?_
        have hown := h s.1
        rw [stepsOn_cons, if_pos rfl] at hown
        have hlater : s'.2 ∈ stepsOn statements s.1 :=
          List.mem_map.2 ⟨s', List.mem_filter.2 ⟨hs', decide_eq_true he.symm⟩, rfl⟩
        exact (List.pairwise_cons.1 hown).1 _ hlater
      · have ht := h t
        rw [stepsOn_cons] at ht
        split at ht
        · exact (List.pairwise_cons.1 ht).2
        · exact ht

theorem stepsOn_map (t t' : ν) (ps : List (TableStep ν ω)) :
    stepsOn (ps.map fun p => (t, p)) t' = if t = t' then ps else [] := by
  by_cases h : t = t' <;>
    simp [stepsOn, List.filter_map, List.map_map, Function.comp_def, h]

/-- First one table, then another. -/
theorem lasting_onTable_onTable {ps qs : List (TableStep ν ω)} (hne : t ≠ t')
    (hps : TableStep.Lasting ps) (hqs : TableStep.Lasting qs) :
    Lasting (onTables needed ((ps.map fun p => (t, p)) ++ qs.map fun q => (t', q))) := by
  refine lasting_onTables fun t'' => ?_
  rw [stepsOn_append, stepsOn_map, stepsOn_map]
  by_cases h : t = t''
  · rw [if_pos h, if_neg fun h' => hne (h.trans h'.symm), List.append_nil]
    exact hps
  · rw [if_neg h, List.nil_append]
    split
    · exact hqs
    · exact List.Pairwise.nil

theorem lasting_map_onTable {ps : List (Step (Relation ν ω) (Refusal ν))} (h : Lasting ps)
    (t : ν) : Lasting (ps.map (onTable needed t)) :=
  List.pairwise_map.2 (h.imp fun hspares => onTable_spares fun _ => hspares)

theorem onTables_map (needed : Bool) (t : ν) (ps : List (TableStep ν ω)) :
    onTables needed (ps.map fun p => (t, p)) =
      (ps.map TableStep.toStep).map (onTable needed t) := by
  simp [onTables]

theorem lasting_onTable {ps : List (TableStep ν ω)} (h : TableStep.Lasting ps) (t : ν) :
    Lasting (onTables needed (ps.map fun p => (t, p))) := by
  rw [onTables_map]
  exact lasting_map_onTable (List.pairwise_map.2 h) t

/-- One statement after the other, on one table. -/
theorem alter_bind (db : Database ν ω) (t : ν)
    (f g : Relation ν ω → Except (Refusal ν) (Relation ν ω)) :
    db.alter t (fun R => f R >>= g) = db.alter t f >>= fun db => db.alter t g := by
  unfold alter find
  cases hR : db.tables t with
  | none => rfl
  | some R =>
      cases hf : f R with
      | error e => simp [Bind.bind, Except.bind, hf]
      | ok R' =>
          cases hg : g R' with
          | error e => simp [Bind.bind, Except.bind, Pure.pure, Except.pure, hf, hg]
          | ok R'' =>
              simp [Bind.bind, Except.bind, Pure.pure, Except.pure, hf, hg, write]
              funext t'
              split <;> rfl

theorem run_onTable_of_hasTable (h : db.hasTable t = true) :
    (onTable needed t p).run db = db.alter t p.run := if_pos (by simp [h])

/-- Statements on a table that is there. -/
theorem run_map_onTable_of_hasTable (h : db.hasTable t = true)
    (ps : List (Step (Relation ν ω) (Refusal ν))) :
    Redo.run (ps.map (onTable needed t)) db = db.alter t (Redo.run ps) := by
  induction ps generalizing db with
  | nil =>
      obtain ⟨R, hR⟩ := Option.isSome_iff_exists.1 h
      exact (alter_self hR rfl).symm
  | cons p ps ih =>
      have hrun : (onTable needed t p).run db = db.alter t p.run := run_onTable_of_hasTable h
      rw [List.map_cons, Redo.run_cons, funext (Redo.run_cons p ps), alter_bind, hrun]
      cases hp : db.alter t p.run with
      | error e => rfl
      | ok db' => exact ih ((hasTable_onTable (hrun.trans hp) t).trans h)

/-- Without the table there is nothing to do. -/
theorem run_map_onTable_of_not_hasTable (h : db.hasTable t = false)
    (ps : List (Step (Relation ν ω) (Refusal ν))) :
    Redo.run (ps.map (onTable false t)) db = .ok db := by
  induction ps with
  | nil => rfl
  | cons p ps ih =>
      have hrun : (onTable false t p).run db = .ok db := if_neg (by simp [h])
      rw [List.map_cons, Redo.run_cons, hrun]
      exact ih

theorem run_onTables_of_hasTable (h : db.hasTable t = true) (ps : List (TableStep ν ω)) :
    Redo.run (onTables needed (ps.map fun p => (t, p))) db =
      db.alter t (Redo.run (ps.map TableStep.toStep)) := by
  rw [onTables_map, run_map_onTable_of_hasTable h]

theorem run_onTables_of_not_hasTable (h : db.hasTable t = false) (ps : List (TableStep ν ω)) :
    Redo.run (onTables false (ps.map fun p => (t, p))) db = .ok db := by
  rw [onTables_map, run_map_onTable_of_not_hasTable h]

end Database

end Store
