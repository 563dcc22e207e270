import Mathlib.Data.Finset.Basic
import OrderRun.Lib.TableSteps

/-!
# What a script makes of a table

`TableSteps` says when a guarded statement has been done.  This file says what it makes of a
table, for scripts that are to be taken back.

* `addIf_gives`, `renameIf_gives`, … — what a statement makes of a table, if there is something
  to do.
* `renameIf_comm` — renames of different columns may change places.
* `renameIf_back` — a rename there and back leaves everything as it was, except that the column
  may hold `NULL` from then on.
* `run_onTables_gives` — a script for several tables is as many scripts for one.
-/

namespace Store

open Redo

variable {ν ω : Type} [DecidableEq ν] {R R' : Relation ν ω}

theorem Gives.of_ok {ε α : Type} {x : Except ε α} {P Q : α → Prop} (h : Gives x P)
    (hQ : ∀ a, x = .ok a → Q a) : Gives x Q := by
  obtain ⟨a, ha, -⟩ := h
  exact ⟨a, ha, hQ a ha⟩

namespace TableStep

open Store.Relation

variable {c : ν}

theorem addIf_gives (hc : c ∉ R.columns) : Gives ((addIf c).run R)
    (Exactly R (insert c R.columns) R.required R.indexes fun r => r) := by
  have hrun : (addIf c).run R = R.addColumn c := if_pos hc
  rw [hrun]
  exact (addColumn_gives hc).of_ok fun _ => addColumn_exactly

theorem addDefaultIf_gives {v : ω} (hc : c ∉ R.columns) : Gives ((addDefaultIf c v).run R)
    (Exactly R (insert c R.columns) (insert c R.required) R.indexes
      fun r => r.set c (some v)) := by
  have hrun : (addDefaultIf c v).run R = R.addColumnDefault c v := if_pos hc
  rw [hrun]
  exact ⟨_, if_neg hc, addColumnDefault_exactly (if_neg hc)⟩

theorem dropIf_gives (hc : c ∈ R.columns) : Gives ((dropIf c).run R)
    (Exactly R (R.columns.erase c) (R.required.erase c)
      (fun name => (R.indexes name).filter (· ≠ c)) fun r => r.set c none) := by
  have hrun : (dropIf c).run R = R.dropColumn c := if_pos hc
  rw [hrun]
  exact (dropColumn_gives hc).of_ok fun _ => dropColumn_exactly

/-- A column that is not there is not `NOT NULL` either. -/
theorem nullableIf_gives (c : ν) (R : Relation ν ω) : Gives ((nullableIf c).run R)
    (Exactly R R.columns (R.required.erase c) R.indexes fun r => r) := by
  by_cases hc : c ∈ R.columns
  · have hrun : (nullableIf c).run R = R.setNullable c := if_pos hc
    rw [hrun]
    exact ⟨_, if_neg (not_not_intro hc), setNullable_exactly (if_neg (not_not_intro hc))⟩
  · have hrun : (nullableIf c).run R = .ok R := if_neg hc
    rw [hrun, Finset.erase_eq_of_notMem fun h => hc (R.proper h)]
    exact gives_ok (.refl R)

theorem notNullIf_gives (hfilled : ∀ r ∈ R.rows, c ∈ R.columns → r.cells c ≠ none) :
    Gives ((notNullIf c).run R) (Exactly R R.columns
      (if c ∈ R.columns then insert c R.required else R.required) R.indexes fun r => r) := by
  by_cases hc : c ∈ R.columns
  · have hrun : (notNullIf c).run R = R.setNotNull c := if_pos hc
    rw [hrun, if_pos hc]
    exact (setNotNull_gives hc fun r hr => hfilled r hr hc).of_ok fun _ => setNotNull_exactly
  · have hrun : (notNullIf c).run R = .ok R := if_neg hc
    rw [hrun, if_neg hc]
    exact gives_ok (.refl R)

section Values

variable [DecidableEq ω]

theorem enumerate_gives {values : List ω} (hc : c ∈ R.columns) (hlisted : R.Listed c values) :
    Gives ((enumerate c values).run R)
      (Exactly R R.columns (insert c R.required) R.indexes fun r => r) :=
  (setEnum_gives hc hlisted).of_ok fun _ => setEnum_exactly

theorem replace_gives {old new : ω} {hne : old ≠ new} (hc : c ∈ R.columns) :
    Gives ((replace c old new hne).run R) (Exactly R R.columns R.required R.indexes fun r =>
      if decide (r.cells c = some old) then r.set c (some new) else r) :=
  (update_gives hc fun _ _ _ _ => Option.some_ne_none new).of_ok fun _ => update_exactly

end Values

/-! ## Indexes -/

section Indexes

variable {name : ν} {on : List ν} {hon : on ≠ []}

theorem dropIndexIf_gives (name : ν) (R : Relation ν ω) : Gives ((dropIndexIf name).run R)
    (Exactly R R.columns R.required (Function.update R.indexes name []) fun r => r) := by
  by_cases hfree : R.indexes name = []
  · have hrun : (dropIndexIf name).run R = .ok R := if_neg (not_not_intro hfree)
    rw [hrun, ← hfree, Function.update_eq_self]
    exact gives_ok (.refl R)
  · have hrun : (dropIndexIf name).run R = R.dropIndex name := if_pos hfree
    rw [hrun]
    exact (dropIndex_gives hfree).of_ok fun _ => dropIndex_exactly

/-- No index is on a column that is not there. -/
theorem filter_indexes {c : ν} (hc : c ∉ R.columns) :
    (fun name => (R.indexes name).filter (· ≠ c)) = R.indexes :=
  funext fun name => List.filter_eq_self.2 fun c' hc' =>
    decide_eq_true fun he => hc (he ▸ R.indexed name c' hc')

/-- The indexes after `createIndexIf`. -/
def indexedIf (name : ν) (on : List ν) (X : ν → List ν) : ν → List ν :=
  if X name = [] then Function.update X name on else X

theorem createIndexIf_gives (hcolumns : R.indexes name = [] → ∀ c ∈ on, c ∈ R.columns) :
    Gives ((createIndexIf name on hon).run R)
      (Exactly R R.columns R.required (indexedIf name on R.indexes) fun r => r) := by
  unfold indexedIf
  by_cases hfree : R.indexes name = []
  · have hrun : (createIndexIf name on hon).run R = R.createIndex name on := if_pos hfree
    rw [hrun, if_pos hfree]
    exact (createIndex_gives hfree (hcolumns hfree)).of_ok fun _ => createIndex_exactly
  · have hrun : (createIndexIf name on hon).run R = .ok R := if_neg hfree
    rw [hrun, if_neg hfree]
    exact gives_ok (.refl R)

end Indexes

/-! ## Renames -/

section Renames

variable {a b a' b' : ν} {C Q : Finset ν} {X : ν → List ν}

/-- The columns after a rename that looks at `C`. -/
def renamed (old new : ν) (C : Finset ν) : Finset ν :=
  if old ∈ C ∧ new ∉ C then insert new (C.erase old) else C

/-- The `NOT NULL` columns then. -/
def freed (old new : ν) (C Q : Finset ν) : Finset ν :=
  if old ∈ C ∧ new ∉ C then (Q.erase old).erase new else Q

/-- The indexes then. -/
def reindexed (old new : ν) (C : Finset ν) (X : ν → List ν) : ν → List ν :=
  if old ∈ C ∧ new ∉ C then fun name => (X name).map (rename old new) else X

/-- A row then. -/
def moved (old new : ν) (C : Finset ν) (r : Row ν ω) : Row ν ω :=
  if old ∈ C ∧ new ∉ C then (r.set new (r.cells old)).set old none else r

theorem renameIf_gives (old new : ν) (R : Relation ν ω) : Gives ((renameIf old new).run R)
    (Exactly R (renamed old new R.columns) (freed old new R.columns R.required)
      (reindexed old new R.columns R.indexes) (moved old new R.columns)) := by
  by_cases hguard : old ∈ R.columns ∧ new ∉ R.columns
  · rw [run_renameIf hguard.1 hguard.2]
    refine (renameColumn_gives hguard.1 hguard.2).of_ok fun R' hR' => ?_
    have hmoved : moved old new R.columns =
        fun r : Row ν ω => (r.set new (r.cells old)).set old none := by
      funext r
      exact if_pos hguard
    rw [renamed, freed, reindexed, hmoved, if_pos hguard, if_pos hguard, if_pos hguard]
    exact renameColumn_exactly hR'
  · have hrun : (renameIf old new).run R = .ok R := if_neg hguard
    have hmoved : moved old new R.columns = fun r : Row ν ω => r := by
      funext r
      exact if_neg hguard
    rw [hrun, renamed, freed, reindexed, hmoved, if_neg hguard, if_neg hguard, if_neg hguard]
    exact gives_ok (.refl R)

/-- The one rename does not change what the other one looks at. -/
theorem guard_renamed (h : Disjoint ({a, b} : Finset ν) {a', b'}) :
    (a ∈ renamed a' b' C ∧ b ∉ renamed a' b' C) ↔ (a ∈ C ∧ b ∉ C) := by
  have hne : ∀ c ∈ ({a, b} : Finset ν), c ≠ a' ∧ c ≠ b' := by
    intro c hc
    have hnot := Finset.disjoint_left.1 h hc
    simpa [not_or] using hnot
  have hmem : ∀ c ∈ ({a, b} : Finset ν), (c ∈ renamed a' b' C ↔ c ∈ C) := by
    intro c hc
    obtain ⟨hne₁, hne₂⟩ := hne c hc
    unfold renamed
    split <;> simp [hne₁, hne₂]
  rw [hmem a (by simp), hmem b (by simp)]

theorem renamed_comm (h : Disjoint ({a, b} : Finset ν) {a', b'}) (C : Finset ν) :
    renamed a' b' (renamed a b C) = renamed a b (renamed a' b' C) := by
  rw [renamed, if_congr (guard_renamed h.symm) rfl rfl, renamed.eq_def a b (renamed a' b' C),
    if_congr (guard_renamed h) rfl rfl]
  simp only [Finset.disjoint_left, Finset.mem_insert, Finset.mem_singleton] at h
  unfold renamed
  split <;> split <;> first | rfl | skip
  ext c
  simp only [Finset.mem_insert, Finset.mem_erase]
  grind

theorem freed_comm (h : Disjoint ({a, b} : Finset ν) {a', b'}) (C Q : Finset ν) :
    freed a' b' (renamed a b C) (freed a b C Q) =
      freed a b (renamed a' b' C) (freed a' b' C Q) := by
  rw [freed, if_congr (guard_renamed h.symm) rfl rfl, freed.eq_def a b (renamed a' b' C),
    if_congr (guard_renamed h) rfl rfl]
  unfold freed
  split <;> split <;> first | rfl | skip
  ext c
  simp only [Finset.mem_erase]
  tauto

theorem reindexed_comm (h : Disjoint ({a, b} : Finset ν) {a', b'}) (C : Finset ν)
    (X : ν → List ν) :
    reindexed a' b' (renamed a b C) (reindexed a b C X) =
      reindexed a b (renamed a' b' C) (reindexed a' b' C X) := by
  rw [reindexed, if_congr (guard_renamed h.symm) rfl rfl, reindexed.eq_def a b (renamed a' b' C),
    if_congr (guard_renamed h) rfl rfl]
  simp only [Finset.disjoint_left, Finset.mem_insert, Finset.mem_singleton] at h
  unfold reindexed
  split <;> split <;> first | rfl | skip
  funext name
  rw [List.map_map, List.map_map]
  refine List.map_congr_left fun c _ => ?_
  simp only [Function.comp_apply, rename]
  grind

theorem moved_comm (h : Disjoint ({a, b} : Finset ν) {a', b'}) (C : Finset ν) (r : Row ν ω) :
    moved a' b' (renamed a b C) (moved a b C r) =
      moved a b (renamed a' b' C) (moved a' b' C r) := by
  rw [moved, if_congr (guard_renamed h.symm) rfl rfl, moved.eq_def a b (renamed a' b' C),
    if_congr (guard_renamed h) rfl rfl]
  simp only [Finset.disjoint_left, Finset.mem_insert, Finset.mem_singleton] at h
  unfold moved
  split <;> split <;> first | rfl | skip
  ext1
  · rfl
  · funext c
    simp only [Row.cells_set]
    grind

/-- **Renames of different columns may change places.** -/
theorem renameIf_comm (h : Disjoint ({a, b} : Finset ν) {a', b'}) (R : Relation ν ω) :
    (renameIf a b).run R >>= (renameIf a' b').run =
      (renameIf a' b').run R >>= (renameIf a b).run := by
  have hboth : ∀ a b a' b' : ν, Gives ((renameIf a b).run R >>= (renameIf a' b').run)
      (Exactly R (renamed a' b' (renamed a b R.columns))
        (freed a' b' (renamed a b R.columns) (freed a b R.columns R.required))
        (reindexed a' b' (renamed a b R.columns) (reindexed a b R.columns R.indexes))
        fun r => moved a' b' (renamed a b R.columns) (moved a b R.columns r)) := by
    intro a b a' b'
    refine (renameIf_gives a b R).bind fun R₁ h₁ => ?_
    refine (renameIf_gives a' b' R₁).mono fun R₂ h₂ => ?_
    rw [h₁.columns_eq, h₁.required_eq, h₁.indexes_eq] at h₂
    exact h₁.trans h₂
  obtain ⟨R₁, hR₁, h₁⟩ := hboth a b a' b'
  obtain ⟨R₂, hR₂, h₂⟩ := hboth a' b' a b
  rw [hR₁, hR₂, h₁.unique h₂ (renamed_comm h _) (freed_comm h _ _) (reindexed_comm h _ _)
    fun r _ => moved_comm h _ r]

theorem renamed_back (hback : b ∈ C → a ∈ C) : renamed b a (renamed a b C) = C := by
  unfold renamed
  by_cases hguard : a ∈ C ∧ b ∉ C
  · have hne : a ≠ b := fun he => hguard.2 (he ▸ hguard.1)
    have hfree : b ∉ C.erase a := fun h => hguard.2 (Finset.mem_of_mem_erase h)
    simp only [hguard, hne, if_true, not_false_eq_true, and_self, Finset.mem_insert,
      Finset.mem_erase, true_or, ne_eq, not_true_eq_false, false_and, or_self]
    rw [Finset.erase_insert hfree, Finset.insert_erase hguard.1]
  · have hskip : ¬ (b ∈ C ∧ a ∉ C) := fun h => h.2 (hback h.1)
    rw [if_neg hguard, if_neg hskip]

theorem freed_back (hback : b ∈ C → a ∈ C) (hproper : Q ⊆ C) :
    freed b a (renamed a b C) (freed a b C Q) = if b ∈ C then Q else Q.erase a := by
  unfold freed renamed
  by_cases hb : b ∈ C
  · have hguard : ¬ (a ∈ C ∧ b ∉ C) := fun h => h.2 hb
    have hskip : ¬ (b ∈ C ∧ a ∉ C) := fun h => h.2 (hback hb)
    rw [if_pos hb, if_neg hguard, if_neg hguard, if_neg hskip]
  · have hfree : b ∉ Q := fun h => hb (hproper h)
    by_cases ha : a ∈ C
    · have hne : a ≠ b := fun he => hb (he ▸ ha)
      simp [ha, hb, hne, hfree]
    · have hfree' : a ∉ Q := fun h => ha (hproper h)
      simp [ha, hb, hfree']

theorem reindexed_back (hback : b ∈ C → a ∈ C) (hindexed : ∀ name, ∀ c ∈ X name, c ∈ C) :
    reindexed b a (renamed a b C) (reindexed a b C X) = X := by
  unfold reindexed renamed
  by_cases hguard : a ∈ C ∧ b ∉ C
  · have hne : a ≠ b := fun he => hguard.2 (he ▸ hguard.1)
    simp only [hguard, hne, if_true, not_false_eq_true, and_self, Finset.mem_insert,
      Finset.mem_erase, true_or, ne_eq, not_true_eq_false, false_and, or_self]
    funext name
    rw [List.map_map]
    refine (List.map_congr_left fun c hc => ?_).trans (List.map_id _)
    have hb : c ≠ b := fun he => hguard.2 (he ▸ hindexed name c hc)
    simp only [Function.comp_apply, rename, id]
    grind
  · have hskip : ¬ (b ∈ C ∧ a ∉ C) := fun h => h.2 (hback h.1)
    rw [if_neg hguard, if_neg hguard, if_neg hskip]

theorem moved_back (hback : b ∈ C → a ∈ C) {r : Row ν ω} (hblank : ∀ c ∉ C, r.cells c = none) :
    moved b a (renamed a b C) (moved a b C r) = r := by
  unfold moved renamed
  by_cases hguard : a ∈ C ∧ b ∉ C
  · have hne : a ≠ b := fun he => hguard.2 (he ▸ hguard.1)
    have hnone := hblank b hguard.2
    simp only [hguard, hne, if_true, not_false_eq_true, and_self, Finset.mem_insert,
      Finset.mem_erase, true_or, ne_eq, not_true_eq_false, false_and, or_self]
    ext1
    · rfl
    · funext c
      simp only [Row.cells_set]
      grind
  · have hskip : ¬ (b ∈ C ∧ a ∉ C) := fun h => h.2 (hback h.1)
    rw [if_neg hguard, if_neg hguard, if_neg hskip]

/-- **A rename there and back** takes a `NOT NULL` away, and nothing else. -/
theorem renameIf_back (hback : b ∈ R.columns → a ∈ R.columns) :
    Gives ((renameIf a b).run R >>= (renameIf b a).run) (Exactly R R.columns
      (if b ∈ R.columns then R.required else R.required.erase a) R.indexes fun r => r) := by
  refine (renameIf_gives a b R).bind fun R₁ h₁ => ?_
  refine (renameIf_gives b a R₁).mono fun R₂ h₂ => ?_
  rw [h₁.columns_eq, h₁.required_eq, h₁.indexes_eq] at h₂
  exact (h₁.trans h₂).congr (renamed_back hback) (freed_back hback R.proper)
    (reindexed_back hback R.indexed) fun r hr => moved_back hback (R.blank r hr)

end Renames

end TableStep

/-! ## Several tables -/

omit [DecidableEq ν] in
/-- A table that has lost no `NOT NULL` and has its indexes is what it was. -/
theorem Relation.Exactly.eq_iff {Q : Finset ν} {X : ν → List ν}
    (h : Relation.Exactly R R.columns Q X (fun r => r) R') :
    R' = R ↔ Q = R.required ∧ X = R.indexes :=
  ⟨fun he => ⟨h.required_eq.symm.trans (congrArg Relation.required he),
      h.indexes_eq.symm.trans (congrArg Relation.indexes he)⟩,
    fun ⟨hQ, hX⟩ => h.eq rfl hQ hX fun _ _ => rfl⟩

namespace Database

variable {db : Database ν ω} {statements : List (ν × TableStep ν ω)} {needed : Bool}

theorem run_renameTableIf {old new : ν} (hR : db.tables old = some R)
    (hnew : db.hasTable new = false) :
    (renameTableIf old new).run db = .ok ((db.write old none).write new (some R)) := by
  change (if db.hasTable old ∧ ¬ db.hasTable new then db.renameTable old new else .ok db) = _
  rw [if_pos ⟨hasTable_eq_true hR, by simp [hnew]⟩, renameTable, find_eq_ok.2 hR]
  exact if_neg (by simp [hnew])

/-- What has been done in the database has been done in its tables. -/
theorem done_stepsOn {t : ν} (h : ∀ p ∈ onTables needed statements, p.Done db)
    (hR : db.tables t = some R) : ∀ p ∈ stepsOn statements t, p.Done R := by
  intro p hp
  obtain ⟨s, hs, rfl⟩ := List.mem_map.1 hp
  obtain ⟨hmem, ht⟩ := List.mem_filter.1 hs
  obtain rfl := of_decide_eq_true ht
  exact (h _ (List.mem_map_of_mem hmem)).2 R hR

/-- **A script for several tables is as many scripts for one.** -/
theorem run_onTables_gives {P : ν → Relation ν ω → Prop}
    (hneeded : needed = true → ∀ s ∈ statements, db.hasTable s.1 = true)
    (h : ∀ t R, db.tables t = some R →
      Gives (Redo.run ((stepsOn statements t).map TableStep.toStep) R) (P t)) :
    Gives (Redo.run (onTables needed statements) db) fun db' =>
      ∀ t, db'.hasTable t = db.hasTable t ∧ ∀ R', db'.tables t = some R' → P t R' := by
  induction statements generalizing db with
  | nil =>
      refine gives_ok fun t => ⟨rfl, fun R hR => ?_⟩
      exact (h t R hR).of_eq_ok rfl
  | cons s statements ih =>
      change Gives (Redo.run (onTable needed s.1 s.2.toStep :: onTables needed statements) db) _
      rw [Redo.run_cons]
      by_cases ht : db.hasTable s.1 = true
      · obtain ⟨R₀, hR₀⟩ := Option.isSome_iff_exists.1 ht
        obtain ⟨R', hrun, hP⟩ := h s.1 R₀ hR₀
        rw [stepsOn_cons, if_pos rfl] at hrun
        obtain ⟨R₁, hstep, hrest⟩ := Redo.run_cons_eq_ok.1 hrun
        have halter : (onTable needed s.1 s.2.toStep).run db = .ok (db.write s.1 (some R₁)) :=
          (run_onTable_of_hasTable ht).trans (alter_eq_ok.2 ⟨R₀, hR₀, R₁, hstep, rfl⟩)
        have hthere : ∀ t, (db.write s.1 (some R₁)).hasTable t = db.hasTable t :=
          hasTable_onTable halter
        rw [halter]
        refine (ih (fun hn s' hs' => (hthere _).trans (hneeded hn s' (List.mem_cons_of_mem s hs')))
          fun t R hR => ?_).mono fun db' hdb' t => ⟨(hdb' t).1.trans (hthere t), (hdb' t).2⟩
        rw [tables_write] at hR
        split at hR
        · next he =>
            obtain rfl := Option.some.inj hR
            exact he ▸ ⟨R', hrest, hP⟩
        · next hne =>
            have hother := h t R hR
            rwa [stepsOn_cons, if_neg (Ne.symm hne)] at hother
      · have hnot : needed = false := by
          cases hn : needed with
          | false => rfl
          | true => exact absurd (hneeded hn s List.mem_cons_self) ht
        have hskip : (onTable needed s.1 s.2.toStep).run db = .ok db :=
          if_neg (by simp [hnot, ht])
        rw [hskip]
        refine ih (fun hn s' hs' => hneeded hn s' (List.mem_cons_of_mem s hs')) fun t R hR => ?_
        have hne : s.1 ≠ t := fun he => ht (he ▸ hasTable_eq_true hR)
        have hother := h t R hR
        rwa [stepsOn_cons, if_neg hne] at hother

omit [DecidableEq ν] in
/-- A database with the same tables. -/
theorem eq_iff_tables {db' : Database ν ω} (hthere : ∀ t, db'.hasTable t = db.hasTable t) :
    db' = db ↔ ∀ t R R', db.tables t = some R → db'.tables t = some R' → R' = R := by
  constructor
  · rintro rfl t R R' hR hR'
    exact Option.some.inj (hR'.symm.trans hR)
  · intro h
    ext1
    funext t
    cases hR : db.tables t with
    | none =>
        have hnone := (hthere t).trans (hasTable_eq_false hR)
        exact Option.not_isSome_iff_eq_none.1 (by simpa [hasTable] using hnone)
    | some R =>
        obtain ⟨R', hR'⟩ := Option.isSome_iff_exists.1
          ((hthere t).trans (hasTable_eq_true hR))
        rw [hR', h t R R' hR hR']

end Database

end Store
