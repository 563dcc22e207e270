import OrderRun.Lib.TableEffects
import OrderRun.Migrations.History
import OrderRun.Migrations.Restarts

/-!
# Taking a downgrade back

After an upgrade somebody goes back one revision, and then forward again.  Each direction has
tests and defaults of its own, so this is not the identity by construction: a rename makes its
column nullable, `0011` drops the answers, `0009` replaces a status wherever it stands, and `0016`
deletes what has another type than the default, and creates its indexes anew.

* `swapped` — indexes that are dropped, and others that are created in their place.
* `Revision.ReversibleTable` — what a table must not have lost on the way; `comesBack_same`,
  `comesBack_iff` — a table that has not been touched, and one that has.
* `status_back`, `confirmations_back`, `answers_back`, `evidences_kept`, `evidences_moved` — the
  statements on one table, there and back.
* `downgrade_upgrade_iff` — downgrade and upgrade are not refused after an upgrade, and lead back
  to the same database exactly if it is reversible.
-/

namespace OrderRun

open Store Store.Relation Store.Database

namespace Migrations

variable {R : SqlTable} {dialect : String}

/-! ## 0009 -/

/-- A row whose status has got another name. -/
def withStatus (old new : String) (r : SqlRow) : SqlRow :=
  if decide (r.cells "status" = some (.text old)) then r.set "status" (some (.text new)) else r

/-- A status there and back. -/
theorem withStatus_withStatus {old new : String} {r : SqlRow}
    (hnew : r.cells "status" ≠ some (.text new)) :
    withStatus new old (withStatus old new r) = r := by
  unfold withStatus
  by_cases hold : r.cells "status" = some (.text old)
  · simp only [hold, decide_true, if_true, Row.cells_set]
    ext1
    · rfl
    · funext c
      simp only [Row.cells_set]
      split
      · next hc => rw [hc, hold]
      · rfl
  · simp only [hold, hnew, decide_false, if_false, Bool.false_eq_true]

theorem listed_withStatus {old new : String} {statuses narrow : List String} {R' : SqlTable}
    {C Q : Finset String} {X : String → List String}
    (hlisted : R.Listed "status" (statuses.map SqlValue.text))
    (hnarrow : ∀ status ∈ statuses, (if status = old then new else status) ∈ narrow)
    (hR' : Exactly R C Q X (withStatus old new) R') :
    R'.Listed "status" (narrow.map SqlValue.text) := by
  intro r' hr'
  obtain ⟨r, hr, rfl⟩ := hR'.mem.1 hr'
  obtain ⟨v, hv, hcell⟩ := hlisted r hr
  obtain ⟨status, hstatus, rfl⟩ := List.mem_map.1 hv
  refine ⟨_, List.mem_map.2 ⟨_, hnarrow status hstatus, rfl⟩, ?_⟩
  by_cases hold : status = old
  · simp [withStatus, hcell, hold]
  · simp [withStatus, hcell, hold]

/-- The statements about the statuses of one table. -/
theorem statusSteps_gives {old new : String} {hne : SqlValue.text old ≠ .text new}
    {statuses wide narrow : List String} (hstatus : "status" ∈ R.columns)
    (hrequired : dialect = "mysql" → "status" ∈ R.required)
    (hlisted : dialect = "mysql" → R.Listed "status" (statuses.map SqlValue.text))
    (hwide : statuses ⊆ wide)
    (hnarrow : ∀ status ∈ statuses, (if status = old then new else status) ∈ narrow) :
    Gives (Redo.run ((statusSteps dialect wide narrow hne).map TableStep.toStep) R)
      (Exactly R R.columns R.required R.indexes (withStatus old new)) := by
  unfold statusSteps enumSteps
  by_cases hdialect : dialect = "mysql"
  · simp only [hdialect, if_true, List.cons_append, List.nil_append, List.map_cons, List.map_nil,
      Redo.run_cons]
    have henumerated : insert "status" R.required = R.required :=
      Finset.insert_eq_of_mem (hrequired hdialect)
    have hlisted₀ : R.Listed "status" (wide.map SqlValue.text) := by
      intro r hr
      obtain ⟨v, hv, hcell⟩ := hlisted hdialect r hr
      exact ⟨v, List.map_subset _ hwide hv, hcell⟩
    refine (TableStep.enumerate_gives hstatus hlisted₀).bind fun R₁ h₁ => ?_
    obtain rfl : R₁ = R := h₁.eq rfl henumerated rfl fun _ _ => rfl
    refine (TableStep.replace_gives hstatus).bind fun R₂ h₂ => ?_
    refine (TableStep.enumerate_gives (h₂.columns_eq ▸ hstatus)
      (listed_withStatus (hlisted hdialect) hnarrow h₂)).bind fun R₃ h₃ => ?_
    rw [h₂.columns_eq, h₂.required_eq, h₂.indexes_eq, henumerated] at h₃
    exact gives_ok (h₂.trans h₃)
  · simp only [hdialect, if_false, List.append_nil, List.nil_append, List.map_cons, List.map_nil,
      Redo.run_cons]
    exact (TableStep.replace_gives hstatus).bind fun R₁ h₁ => gives_ok h₁

/-- The timestamps, if the new column is not there. -/
theorem run_rename {old new : String} {hne : old ≠ new} (hnew : new ∉ R.columns) :
    Redo.run (([.fillFrom old new, .finishRename old new hne] : List SqlStep).map
      TableStep.toStep) R = (TableStep.renameIf old new).run R := by
  have hfill : (TableStep.fillFrom old new : SqlStep).run R = .ok R :=
    if_neg fun h => hnew h.2
  simp only [List.map_cons, List.map_nil, Redo.run_cons, hfill]
  change ((if old ∈ R.columns then
      if new ∈ R.columns then R.dropColumn old else R.renameColumn old new else .ok R) >>= pure) =
    if old ∈ R.columns ∧ new ∉ R.columns then R.renameColumn old new else .ok R
  rw [bind_pure, if_neg hnew]
  by_cases hold : old ∈ R.columns <;> simp [hold, hnew]

/-- The statements of `0009` on one table, there and back. -/
theorem stepsOn_status_back (dialect : String) (h : Heir) :
    stepsOn (statementsBack0009 dialect ++ statements0009 dialect) h.table =
      statusSteps dialect (withRefunded h.statuses)
          (replaceStatus h.statuses "RESOLVED" "REFUNDED")
          (show SqlValue.text "RESOLVED" ≠ .text "REFUNDED" by decide) ++
        ([.fillFrom "resolved_at" "refunded_at",
            .finishRename "resolved_at" "refunded_at" (by decide)] ++
          ([.fillFrom "refunded_at" "resolved_at",
              .finishRename "refunded_at" "resolved_at" (by decide)] ++
            statusSteps dialect (withRefunded h.statuses) h.statuses
              (show SqlValue.text "REFUNDED" ≠ .text "RESOLVED" by decide))) := by
  unfold statementsBack0009 statements0009
  cases h with
  | proposals =>
      rw [Heir.table, stepsOn_append, stepsOn_append, stepsOn_append,
        stepsOn_statusStatements.1, stepsOn_statusStatements.1,
        stepsOn_renameStatements _ (Or.inl rfl), stepsOn_renameStatements _ (Or.inl rfl),
        List.append_assoc]
      rfl
  | offers =>
      rw [Heir.table, stepsOn_append, stepsOn_append, stepsOn_append,
        stepsOn_statusStatements.2, stepsOn_statusStatements.2,
        stepsOn_renameStatements _ (Or.inr rfl), stepsOn_renameStatements _ (Or.inr rfl),
        List.append_assoc]
      rfl

/-- A table after the upgrade of `0009`. -/
structure Heir.Resolved (h : Heir) (dialect : String) (R : SqlTable) : Prop where
  refunded : "refunded_at" ∉ R.columns
  status : "status" ∈ R.columns
  none : ∀ r ∈ R.rows, r.cells "status" ≠ some (.text "REFUNDED")
  required : dialect = "mysql" → "status" ∈ R.required
  listed : dialect = "mysql" → R.Listed "status" (h.statuses.map SqlValue.text)

theorem Heir.resolved_of_done {h : Heir}
    (hdone : ∀ p ∈ stepsOn (statements0009 dialect) h.table, p.Done R) :
    h.Resolved dialect R := by
  have hsteps : stepsOn (statements0009 dialect) h.table =
      [.fillFrom "refunded_at" "resolved_at",
        .finishRename "refunded_at" "resolved_at" (by decide)] ++
          statusSteps dialect (withRefunded h.statuses) h.statuses
            (show SqlValue.text "REFUNDED" ≠ .text "RESOLVED" by decide) := by
    unfold statements0009
    cases h with
    | proposals =>
        rw [Heir.table, stepsOn_append, stepsOn_statusStatements.1,
          stepsOn_renameStatements _ (Or.inl rfl)]
        rfl
    | offers =>
        rw [Heir.table, stepsOn_append, stepsOn_statusStatements.2,
          stepsOn_renameStatements _ (Or.inr rfl)]
        rfl
  rw [hsteps] at hdone
  have hrename := hdone (.finishRename "refunded_at" "resolved_at" (by decide)) (by simp)
  have hreplace := hdone (.replace "status" (.text "REFUNDED") (.text "RESOLVED") (by decide))
    (by simp [statusSteps])
  have henumerate : dialect = "mysql" → (TableStep.enumerate "status"
      (h.statuses.map SqlValue.text) : SqlStep).Done R := by
    intro hdialect
    exact hdone _ (by simp [statusSteps, enumSteps, hdialect])
  exact ⟨hrename, hreplace.1, hreplace.2, fun hd => (henumerate hd).2.1,
    fun hd => (henumerate hd).2.2⟩

/-- **`0009` there and back.** -/
theorem status_back {h : Heir} (hR : h.Resolved dialect R) :
    Gives (Redo.run ((stepsOn (statementsBack0009 dialect ++ statements0009 dialect)
        h.table).map TableStep.toStep) R)
      (Exactly R R.columns (R.required.erase "resolved_at") R.indexes fun r => r) := by
  have hwide : h.statuses ⊆ withRefunded h.statuses := by cases h <;> decide
  have hwide' : replaceStatus h.statuses "RESOLVED" "REFUNDED" ⊆ withRefunded h.statuses := by
    cases h <;> decide
  have hthere : ∀ status ∈ h.statuses, (if status = "RESOLVED" then "REFUNDED" else status) ∈
      replaceStatus h.statuses "RESOLVED" "REFUNDED" := fun _ hs => List.mem_map_of_mem hs
  have hback : ∀ status ∈ replaceStatus h.statuses "RESOLVED" "REFUNDED",
      (if status = "REFUNDED" then "RESOLVED" else status) ∈ h.statuses := by
    cases h <;> decide
  rw [stepsOn_status_back, List.map_append, Redo.run_append]
  refine (statusSteps_gives hR.status hR.required hR.listed hwide hthere).bind fun R₁ h₁ => ?_
  have hrefunded₁ : "refunded_at" ∉ R₁.columns := h₁.columns_eq ▸ hR.refunded
  rw [List.map_append, Redo.run_append, run_rename hrefunded₁]
  obtain ⟨R₂, hR₂, h₂⟩ := TableStep.renameIf_gives "resolved_at" "refunded_at" R₁
  have hresolved₂ : "resolved_at" ∉ R₂.columns := by
    rw [h₂.columns_eq]
    unfold TableStep.renamed
    by_cases hold : "resolved_at" ∈ R₁.columns <;> simp [hold, hrefunded₁]
  have hboth := TableStep.renameIf_back (a := "resolved_at")
    (fun hnew => absurd hnew hrefunded₁)
  rw [hR₂] at hboth ⊢
  change Gives (Redo.run _ R₂) _
  rw [List.map_append, Redo.run_append, run_rename hresolved₂]
  refine Gives.bind hboth fun R₃ h₃ => ?_
  rw [if_neg hrefunded₁] at h₃
  have h₁₃ := h₁.trans h₃
  rw [h₁.columns_eq, h₁.required_eq, h₁.indexes_eq] at h₁₃
  refine (statusSteps_gives (h₁₃.columns_eq ▸ hR.status) (fun hd => ?_)
    (fun hd => listed_withStatus (hR.listed hd) hthere h₁₃) hwide' hback).mono fun R₄ h₄ => ?_
  · rw [h₁₃.required_eq]
    exact Finset.mem_erase.2 ⟨by decide, hR.required hd⟩
  · rw [h₁₃.columns_eq, h₁₃.required_eq, h₁₃.indexes_eq] at h₄
    exact (h₁₃.trans h₄).congr rfl rfl rfl fun r hr => withStatus_withStatus (hR.none r hr)

/-! ## 0017 -/

/-- A table after the upgrade of `0017`. -/
structure Heir.Confirmed (h : Heir) (R : SqlTable) : Prop where
  runner : h.runnerName ∈ R.columns → "runner_confirmed_at" ∈ R.columns
  orderer : h.ordererName ∈ R.columns → "orderer_confirmed_at" ∈ R.columns
  settled : "settled_at" ∉ R.columns

/-- The `NOT NULL` columns after `0017` there and back. -/
def Heir.freed (h : Heir) (C Q : Finset String) : Finset String :=
  let Q' := if h.runnerName ∈ C then Q else Q.erase "runner_confirmed_at"
  if h.ordererName ∈ C then Q' else Q'.erase "orderer_confirmed_at"

theorem Heir.freed_subset (h : Heir) {C Q : Finset String} : h.freed C Q ⊆ Q := by
  unfold freed
  split <;> split <;> intro c hc <;> simp only [Finset.mem_erase] at hc <;> tauto

theorem Heir.freed_eq_iff (h : Heir) {C Q : Finset String} : h.freed C Q = Q ↔
    ("runner_confirmed_at" ∈ Q → h.runnerName ∈ C) ∧
      ("orderer_confirmed_at" ∈ Q → h.ordererName ∈ C) := by
  unfold freed
  by_cases hrunner : h.runnerName ∈ C
  · by_cases horderer : h.ordererName ∈ C <;> simp [hrunner, horderer]
  · by_cases horderer : h.ordererName ∈ C
    · simp [hrunner, horderer]
    · simp only [hrunner, horderer, if_false, imp_false]
      constructor
      · intro he
        rw [← he]
        simp
      · rintro ⟨hr, ho⟩
        rw [Finset.erase_eq_of_notMem hr, Finset.erase_eq_of_notMem ho]

/-- The renames of one column may stand together, as those of different columns may change
places. -/
theorem run_confirmations (h : Heir) (R : SqlTable) :
    Redo.run ((confirmationStepsBack h.runnerName h.ordererName ++
        confirmationSteps h.runnerName h.ordererName).map TableStep.toStep) R =
      (TableStep.addIf "settled_at" : SqlStep).run R >>= fun R =>
        ((TableStep.renameIf "runner_confirmed_at" h.runnerName : SqlStep).run R >>=
          (TableStep.renameIf h.runnerName "runner_confirmed_at" : SqlStep).run) >>= fun R =>
          ((TableStep.renameIf "orderer_confirmed_at" h.ordererName : SqlStep).run R >>=
            (TableStep.renameIf h.ordererName "orderer_confirmed_at" : SqlStep).run) >>=
              (TableStep.dropIf "settled_at" : SqlStep).run := by
  have hdisjoint : Disjoint ({"orderer_confirmed_at", h.ordererName} : Finset String)
      {h.runnerName, "runner_confirmed_at"} := by cases h <;> decide
  change (TableStep.addIf "settled_at" : SqlStep).run R >>= (fun R =>
    (TableStep.renameIf "runner_confirmed_at" h.runnerName : SqlStep).run R >>= fun R =>
      (TableStep.renameIf "orderer_confirmed_at" h.ordererName : SqlStep).run R >>= fun R =>
        (TableStep.renameIf h.runnerName "runner_confirmed_at" : SqlStep).run R >>= fun R =>
          (TableStep.renameIf h.ordererName "orderer_confirmed_at" : SqlStep).run R >>= fun R =>
            (TableStep.dropIf "settled_at" : SqlStep).run R >>= pure) = _
  refine bind_congr_of_ok fun R₀ _ => ?_
  rw [bind_assoc]
  refine bind_congr_of_ok fun R₁ _ => ?_
  simp only [bind_pure]
  rw [← bind_assoc, TableStep.renameIf_comm hdisjoint, bind_assoc]
  exact bind_congr_of_ok fun R₂ _ => (bind_assoc _ _ _).symm

/-- **`0017` there and back.** -/
theorem confirmations_back {h : Heir} (hR : h.Confirmed R) :
    Gives (Redo.run ((confirmationStepsBack h.runnerName h.ordererName ++
        confirmationSteps h.runnerName h.ordererName).map TableStep.toStep) R)
      (Exactly R R.columns (h.freed R.columns R.required) R.indexes fun r => r) := by
  have hrunner : h.runnerName ≠ "settled_at" := by cases h <;> decide
  have horderer : h.ordererName ≠ "settled_at" := by cases h <;> decide
  rw [run_confirmations]
  refine (TableStep.addIf_gives hR.settled).bind fun R₀ h₀ => ?_
  have hmem₀ : ∀ {c : String}, c ≠ "settled_at" → (c ∈ R₀.columns ↔ c ∈ R.columns) := by
    intro c hc
    rw [h₀.columns_eq, Finset.mem_insert]
    simp [hc]
  refine (TableStep.renameIf_back (fun hold => (hmem₀ (by decide)).2
    (hR.runner ((hmem₀ hrunner).1 hold)))).bind fun R₁ h₁ => ?_
  refine (TableStep.renameIf_back (fun hold => ?_)).bind fun R₂ h₂ => ?_
  · rw [h₁.columns_eq] at hold ⊢
    exact (hmem₀ (by decide)).2 (hR.orderer ((hmem₀ horderer).1 hold))
  have hsettled₂ : "settled_at" ∈ R₂.columns := by
    rw [h₂.columns_eq, h₁.columns_eq, h₀.columns_eq]
    exact Finset.mem_insert_self _ _
  refine (TableStep.dropIf_gives hsettled₂).mono fun R₃ h₃ => ?_
  refine (((h₀.trans h₁).trans h₂).trans h₃).congr ?_ ?_ ?_ fun r hr => ?_
  · rw [h₂.columns_eq, h₁.columns_eq, h₀.columns_eq]
    exact Finset.erase_insert hR.settled
  · have hfreed : R₂.required = h.freed R.columns R.required := by
      rw [h₂.required_eq, h₁.columns_eq, h₁.required_eq, h₀.required_eq]
      simp only [hmem₀ hrunner, hmem₀ horderer]
      rfl
    rw [hfreed]
    exact Finset.erase_eq_of_notMem fun hs => hR.settled (R.proper (h.freed_subset hs))
  · rw [h₂.indexes_eq, h₁.indexes_eq, h₀.indexes_eq]
    exact TableStep.filter_indexes hR.settled
  · exact Row.set_eq_self (R.blank r hr _ hR.settled)

/-! ## Indexes -/

/-- The columns that these indexes have when they are created. -/
def indexColumns (indexes : List (String × String)) (name : String) : List String :=
  ((indexes.find? fun i => i.1 = name).map fun i => [i.2]).getD []

theorem indexColumns_eq_nil {indexes : List (String × String)} {name : String} :
    indexColumns indexes name = [] ↔ name ∉ indexes.map Prod.fst := by
  unfold indexColumns
  cases hfound : indexes.find? fun i => i.1 = name with
  | none =>
      have hnot := List.find?_eq_none.1 hfound
      simp only [Option.map_none, Option.getD_none, true_iff, List.mem_map, not_exists, not_and]
      exact fun i hi he => hnot i hi (decide_eq_true he)
  | some i =>
      have hmem := List.mem_map_of_mem (f := Prod.fst) (List.mem_of_find?_eq_some hfound)
      have hname : i.1 = name := by simpa using List.find?_some hfound
      simp [← hname, hmem]

theorem dropIndexSteps_gives (indexes : List (String × String)) (R : SqlTable) :
    Gives (Redo.run ((dropIndexSteps indexes).map TableStep.toStep) R)
      (Exactly R R.columns R.required
        (fun name => if name ∈ indexes.map Prod.fst then [] else R.indexes name)
        fun r => r) := by
  induction indexes generalizing R with
  | nil => exact gives_ok (.refl R)
  | cons i indexes ih =>
      change Gives (Redo.run ((TableStep.dropIndexIf i.1 : SqlStep).toStep ::
        (dropIndexSteps indexes).map TableStep.toStep) R) _
      rw [Redo.run_cons]
      refine (TableStep.dropIndexIf_gives i.1 R).bind fun S hS => (ih S).mono fun S' hS' => ?_
      refine (hS.trans hS').congr hS.columns_eq hS.required_eq (funext fun name => ?_)
        fun _ _ => rfl
      rw [hS.indexes_eq, Function.update_apply, List.map_cons]
      by_cases hname : name = i.1
      · simp [hname]
      · rw [if_neg hname]
        exact if_congr (List.mem_cons.trans (or_iff_right hname)).symm rfl rfl

theorem createIndexSteps_gives {indexes : List (String × String)}
    (hcolumns : ∀ i ∈ indexes, i.2 ∈ R.columns) :
    Gives (Redo.run (createIndexSteps indexes) R) (Exactly R R.columns R.required
      (fun name => if R.indexes name = [] then indexColumns indexes name else R.indexes name)
      fun r => r) := by
  induction indexes generalizing R with
  | nil =>
      refine gives_ok ((Exactly.refl R).congr rfl rfl (funext fun name => ?_) fun _ _ => rfl)
      split
      · next hfree => exact hfree
      · rfl
  | cons i indexes ih =>
      obtain ⟨hc, hrest⟩ := List.forall_mem_cons.1 hcolumns
      change Gives (Redo.run (TableStep.createIndexIf i.1 [i.2] (List.cons_ne_nil _ _) ::
        createIndexSteps indexes) R) _
      rw [Redo.run_cons]
      refine (TableStep.createIndexIf_gives fun _ => List.forall_mem_singleton.2 hc).bind
        fun S hS => (ih fun i hi => hS.columns_eq ▸ hrest i hi).mono fun S' hS' => ?_
      refine (hS.trans hS').congr hS.columns_eq hS.required_eq (funext fun name => ?_)
        fun _ _ => rfl
      rw [hS.indexes_eq, TableStep.indexedIf]
      -- only the first index of a name is created
      by_cases hname : i.1 = name
      · subst hname
        by_cases hfree : R.indexes i.1 = [] <;> simp [hfree, indexColumns]
      · have hother : indexColumns (i :: indexes) name = indexColumns indexes name := by
          simp [indexColumns, hname]
        by_cases hfree : R.indexes i.1 = [] <;>
          simp [hfree, hother, Function.update_of_ne (Ne.symm hname)]

/-- The indexes after some have been dropped, and then others created. -/
def swapped (old new : List (String × String)) (X : String → List String) (name : String) :
    List String :=
  if name ∈ old.map Prod.fst ∨ X name = [] then indexColumns new name else X name

section Swapped

variable {old new : List (String × String)} {X : String → List String}

theorem swapIndexes_gives (hcolumns : ∀ i ∈ new, i.2 ∈ R.columns) :
    Gives (Redo.run ((dropIndexSteps old).map TableStep.toStep ++ createIndexSteps new) R)
      (Exactly R R.columns R.required (swapped old new R.indexes) fun r => r) := by
  rw [Redo.run_append]
  refine (dropIndexSteps_gives old R).bind fun S hS => ?_
  refine (createIndexSteps_gives fun i hi => hS.columns_eq ▸ hcolumns i hi).mono fun S' hS' => ?_
  refine (hS.trans hS').congr hS.columns_eq hS.required_eq (funext fun name => ?_) fun _ _ => rfl
  rw [hS.indexes_eq, swapped]
  by_cases hname : name ∈ old.map Prod.fst <;> simp [hname]

/-- Nothing happens if the others are there already. -/
theorem swapped_eq_iff (hnames : ∀ i ∈ old, i.1 ∉ new.map Prod.fst) : swapped old new X = X ↔
    (∀ i ∈ old, X i.1 = []) ∧ ∀ i ∈ new, X i.1 ≠ [] := by
  constructor
  · intro hsame
    refine ⟨fun i hi => ?_, fun i hi hfree => ?_⟩
    · rw [← hsame, swapped, if_pos (Or.inl (List.mem_map_of_mem hi))]
      exact indexColumns_eq_nil.2 (hnames i hi)
    · have hcreated := congrFun hsame i.1
      rw [swapped, if_pos (Or.inr hfree), hfree] at hcreated
      exact indexColumns_eq_nil.1 hcreated (List.mem_map_of_mem hi)
  · rintro ⟨hold, hnew⟩
    funext name
    unfold swapped
    split
    · next hguard =>
        have hfree : X name = [] := by
          rcases hguard with hname | hfree
          · obtain ⟨i, hi, rfl⟩ := List.mem_map.1 hname
            exact hold i hi
          · exact hfree
        rw [hfree, indexColumns_eq_nil]
        intro hname
        obtain ⟨i, hi, rfl⟩ := List.mem_map.1 hname
        exact hnew i hi hfree
    · rfl

/-- There and back, each index is on its own column. -/
theorem swapped_swapped_eq_iff
    (hunique : ∀ i ∈ old, indexColumns old i.1 = [i.2]) (hfree : ∀ i ∈ new, X i.1 = []) :
    swapped new old (swapped old new X) = X ↔ ∀ i ∈ old, X i.1 = [i.2] := by
  have hvalue : ∀ name, swapped new old (swapped old new X) name =
      if name ∈ old.map Prod.fst then indexColumns old name else X name := by
    intro name
    by_cases hnew : name ∈ new.map Prod.fst
    · obtain ⟨i, hi, rfl⟩ := List.mem_map.1 hnew
      rw [swapped, if_pos (Or.inl hnew)]
      split
      · rfl
      · next hold => rw [hfree i hi, indexColumns_eq_nil.2 hold]
    · have hnone := indexColumns_eq_nil.2 hnew
      by_cases hold : name ∈ old.map Prod.fst
      · simp [swapped, hnew, hold, hnone]
      · have hnone' := indexColumns_eq_nil.2 hold
        by_cases hX : X name = [] <;> simp [swapped, hnew, hold, hX, hnone, hnone']
  constructor
  · intro hsame i hi
    rw [← hunique i hi, ← congrFun hsame i.1, hvalue, if_pos (List.mem_map_of_mem hi)]
  · intro hold
    funext name
    rw [hvalue]
    split
    · next hname =>
        obtain ⟨i, hi, rfl⟩ := List.mem_map.1 hname
        rw [hunique i hi, hold i hi]
    · rfl

end Swapped

/-! ## 0016 -/

/-- A table of evidences. -/
structure AreEvidences (R : SqlTable) : Prop where
  proofType : "proof_type" ∉ R.columns
  imageUrl : "image_url" ∉ R.columns
  reason : "reason" ∈ R.columns → "reason" ∈ R.required
  question : "survey_question_id" ∈ R.columns → "survey_question_id" ∈ R.required
  free : ∀ i ∈ proofIndexes, R.indexes i.1 = []
  indexed : ∀ i ∈ evidenceIndexes, R.indexes i.1 ≠ []

theorem areEvidences_of_done (hdone : ∀ p ∈ evidenceScript, p.Done R) : AreEvidences R := by
  have hsteps : ∀ p ∈ dropIndexSteps proofIndexes ++ evidenceSteps, p.Done R :=
    fun p hp => hdone _ (List.mem_append_left _ (List.mem_map_of_mem hp))
  have hcolumns : ∀ p ∈ evidenceSteps, p.Done R :=
    fun p hp => hsteps p (List.mem_append_right _ hp)
  exact ⟨hcolumns (.dropIf "proof_type") (by simp [evidenceSteps]),
    hcolumns (.dropIf "image_url") (by simp [evidenceSteps]),
    hcolumns (.notNullIf "reason") (by simp [evidenceSteps]),
    hcolumns (.notNullIf "survey_question_id") (by simp [evidenceSteps]),
    fun i hi => hsteps (.dropIndexIf i.1) (List.mem_append_left _ (List.mem_map_of_mem hi)),
    fun i hi => hdone (TableStep.createIndexIf i.1 [i.2] (List.cons_ne_nil _ _))
      (List.mem_append_right _ (List.mem_map_of_mem hi))⟩

/-- An evidence, as a proof. -/
theorem proofSteps_gives (hR : AreEvidences R) :
    Gives (Redo.run (proofSteps.map TableStep.toStep) R)
      (Exactly R (insert "image_url" (insert "proof_type" R.columns))
        (((insert "proof_type" R.required).erase "reason").erase "survey_question_id") R.indexes
        fun r => r.set "proof_type" (some (.text "DISPUTE"))) := by
  simp only [proofSteps, List.map_cons, List.map_nil, Redo.run_cons]
  refine (TableStep.addDefaultIf_gives hR.proofType).bind fun R₁ h₁ => ?_
  have himage₁ : "image_url" ∉ R₁.columns := by
    rw [h₁.columns_eq, Finset.mem_insert]
    simpa using hR.imageUrl
  refine (TableStep.addIf_gives himage₁).bind fun R₂ h₂ => ?_
  have h₂ := h₁.trans h₂
  rw [h₁.columns_eq, h₁.required_eq, h₁.indexes_eq] at h₂
  refine (TableStep.nullableIf_gives "reason" R₂).bind fun R₃ h₃ => ?_
  refine (TableStep.nullableIf_gives "survey_question_id" R₃).bind fun R₄ h₄ => gives_ok ?_
  rw [h₃.columns_eq, h₃.required_eq, h₃.indexes_eq] at h₄
  exact (h₂.trans (h₃.trans h₄)).congr h₂.columns_eq (by rw [h₂.required_eq]) h₂.indexes_eq
    fun _ _ => rfl

/-- A filled column becomes `NOT NULL`. -/
theorem fillSteps_gives {c : String} {v : SqlValue}
    {rest : List (Redo.Step SqlTable (Refusal String))}
    (hfilled : ∀ r ∈ R.rows, c ∈ R.columns → r.cells c ≠ none) {P : SqlTable → Prop}
    (hrest : ∀ R', Exactly R R.columns
      (if c ∈ R.columns then insert c R.required else R.required) R.indexes (fun r => r) R' →
        Gives (Redo.run rest R') P) :
    Gives (Redo.run ((TableStep.fillIf c v : SqlStep).toStep ::
      (TableStep.notNullIf c : SqlStep).toStep :: rest) R) P := by
  have hfill : (TableStep.fillIf c v : SqlStep).run R = .ok R :=
    (TableStep.fillIf c v : SqlStep).run_of_done fun hc r hr => hfilled r hr hc
  rw [Redo.run_cons, hfill]
  exact (TableStep.notNullIf_gives hfilled).bind hrest

/-- A proof, but for its indexes. -/
def IsProofOf (R : SqlTable) (X : String → List String) (R₁ : SqlTable) : Prop :=
  Exactly R (insert "image_url" (insert "proof_type" R.columns))
    (((insert "proof_type" R.required).erase "reason").erase "survey_question_id") X
    (fun r => r.set "proof_type" (some (.text "DISPUTE"))) R₁

/-- The proof, as an evidence again. -/
theorem evidenceSteps_gives (hR : AreEvidences R)
    {X : String → List String} (hX : ∀ name, ∀ c ∈ X name, c ∈ R.columns) {R₁ : SqlTable}
    (h₁ : IsProofOf R X R₁) : Gives (Redo.run (evidenceSteps.map TableStep.toStep) R₁)
      (Exactly R R.columns R.required X fun r => r) := by
  simp only [evidenceSteps, List.map_cons, List.map_nil, Redo.run_cons]
  have htype₁ : "proof_type" ∈ R₁.columns := by
    rw [h₁.columns_eq]
    simp
  refine (TableStep.dropIf_gives htype₁).bind fun R₂ h₂ => ?_
  have himage₂ : "image_url" ∈ R₂.columns := by
    rw [h₂.columns_eq, h₁.columns_eq]
    simp
  refine (TableStep.dropIf_gives himage₂).bind fun R₃ h₃ => ?_
  have hcolumns₃ : R₃.columns = R.columns := by
    rw [h₃.columns_eq, h₂.columns_eq, h₁.columns_eq, Finset.erase_insert_of_ne (by decide),
      Finset.erase_insert hR.proofType, Finset.erase_insert hR.imageUrl]
  have hrequired₃ : R₃.required = (R.required.erase "reason").erase "survey_question_id" := by
    rw [h₃.required_eq, h₂.required_eq, h₁.required_eq]
    have htype : "proof_type" ∉ R.required := fun h => hR.proofType (R.proper h)
    have himage : "image_url" ∉ R.required := fun h => hR.imageUrl (R.proper h)
    ext c
    simp only [Finset.mem_erase, Finset.mem_insert]
    grind
  have hindexes₃ : R₃.indexes = X := by
    rw [h₃.indexes_eq, h₂.indexes_eq, h₁.indexes_eq]
    funext name
    rw [List.filter_filter, List.filter_eq_self]
    intro c hc
    have hne : c ≠ "image_url" ∧ c ≠ "proof_type" :=
      ⟨fun he => hR.imageUrl (he ▸ hX name c hc), fun he => hR.proofType (he ▸ hX name c hc)⟩
    simpa using hne
  have h₃ : Exactly R R.columns R₃.required X (fun r => r) R₃ := by
    refine ((h₁.trans h₂).trans h₃).congr (h₃.columns_eq.symm.trans hcolumns₃)
      h₃.required_eq.symm (h₃.indexes_eq.symm.trans hindexes₃) fun r hr => ?_
    ext1
    · rfl
    · funext c
      simp only [Row.cells_set]
      split
      · next hc => exact (R.blank r hr c (hc ▸ hR.imageUrl)).symm
      · split
        · next hc => exact (R.blank r hr c (hc ▸ hR.proofType)).symm
        · rfl
  have hfilled : ∀ {R' : SqlTable}, Exactly R R.columns R'.required X (fun r => r) R' →
      ∀ {c : String}, (c ∈ R.columns → c ∈ R.required) →
        ∀ r ∈ R'.rows, c ∈ R'.columns → r.cells c ≠ none := by
    intro R' h' c hc r hr hmem
    obtain ⟨r₀, hr₀, rfl⟩ := h'.mem.1 hr
    exact R.filled r₀ hr₀ c (hc (h'.columns_eq ▸ hmem))
  refine fillSteps_gives (hfilled h₃ hR.reason) fun R₄ h₄ => ?_
  have h₄' : Exactly R R.columns R₄.required X (fun r => r) R₄ :=
    (h₃.trans h₄).congr hcolumns₃ h₄.required_eq.symm hindexes₃ fun _ _ => rfl
  refine fillSteps_gives (hfilled h₄' hR.question) fun R₅ h₅ => gives_ok ?_
  refine (h₄'.trans h₅).congr h₄'.columns_eq ?_ h₄'.indexes_eq fun _ _ => rfl
  rw [h₄'.columns_eq, h₄.required_eq, hcolumns₃, hrequired₃]
  have hreason := hR.reason
  have hquestion := hR.question
  ext c
  have hc := @R.proper c
  split <;> split <;> simp only [Finset.mem_insert, Finset.mem_erase] <;> grind

theorem evidenceScript_gives (hR : AreEvidences R)
    (hcolumns : ∀ i ∈ evidenceIndexes, i.2 ∈ R.columns) {X : String → List String}
    (hX : ∀ name ∉ proofIndexes.map Prod.fst, ∀ c ∈ X name, c ∈ R.columns) {R₁ : SqlTable}
    (h₁ : IsProofOf R X R₁) : Gives (Redo.run evidenceScript R₁)
      (Exactly R R.columns R.required (swapped proofIndexes evidenceIndexes X) fun r => r) := by
  rw [evidenceScript, List.map_append, List.append_assoc, Redo.run_append]
  refine (dropIndexSteps_gives proofIndexes R₁).bind fun R₂ h₂ => ?_
  have h₂ := (h₁.trans h₂).congr h₁.columns_eq h₁.required_eq rfl fun _ _ => rfl
  rw [Redo.run_append]
  refine (evidenceSteps_gives hR (fun name c hc => ?_) h₂).bind fun R₃ h₃ => ?_
  · split at hc
    · exact absurd hc List.not_mem_nil
    · next hname => exact hX name hname c (h₁.indexes_eq ▸ hc)
  · refine (createIndexSteps_gives fun i hi => h₃.columns_eq ▸ hcolumns i hi).mono fun R₄ h₄ => ?_
    refine (h₃.trans h₄).congr h₃.columns_eq h₃.required_eq (funext fun name => ?_) fun _ _ => rfl
    rw [h₃.indexes_eq, h₁.indexes_eq, swapped]
    by_cases hname : name ∈ proofIndexes.map Prod.fst <;> simp [hname]

/-- The names of the one table's indexes are not those of the other's. -/
theorem index_names : (∀ i ∈ evidenceIndexes, i.1 ∉ proofIndexes.map Prod.fst) ∧
    ∀ i ∈ proofIndexes, i.1 ∉ evidenceIndexes.map Prod.fst := by decide

/-- What `0016` deletes. -/
abbrev OnlyDisputes (R : SqlTable) : Prop :=
  (TableStep.deleteIf "proof_type" isOther : SqlStep).Done R

/-- They are disputes, by default. -/
theorem IsProofOf.onlyDisputes {X : String → List String} {R₁ : SqlTable} (h : IsProofOf R X R₁) :
    OnlyDisputes R₁ := by
  intro _ r' hr'
  obtain ⟨r, -, rfl⟩ := h.mem.1 hr'
  rfl

/-- **`0016` there and back**, if the table keeps its name. -/
theorem evidences_kept (hR : AreEvidences R)
    (hcolumns : ∀ i ∈ evidenceIndexes, i.2 ∈ R.columns) :
    Gives (Redo.run (proofSteps.map TableStep.toStep) R) fun R₁ =>
      Redo.run evidenceScript R₁ = .ok R := by
  refine (proofSteps_gives hR).mono fun R₁ h₁ => ?_
  obtain ⟨R', hR', h'⟩ := evidenceScript_gives hR hcolumns
    (fun name _ => R.indexed name) h₁
  rw [hR', h'.eq rfl rfl ((swapped_eq_iff index_names.2).2 ⟨hR.free, hR.indexed⟩) fun _ _ => rfl]

/-- **`0016` there and back**, if the table becomes the table of proofs. -/
theorem evidences_moved (hR : AreEvidences R)
    (hcolumns : ∀ i ∈ evidenceIndexes, i.2 ∈ R.columns) :
    Gives (Redo.run (proofSteps.map TableStep.toStep) R) fun R₁ =>
      Gives (Redo.run proofScript R₁) fun R₂ => OnlyDisputes R₂ ∧
        Gives (Redo.run evidenceScript R₂) fun R' =>
          R' = R ↔ ∀ i ∈ evidenceIndexes, R.indexes i.1 = [i.2] := by
  refine (proofSteps_gives hR).mono fun R₁ h₁ => ?_
  have hcolumns₁ : ∀ i ∈ proofIndexes, i.2 ∈ R₁.columns := by
    have hown : ∀ i ∈ proofIndexes, i.2 = "proof_type" ∨ i.2 ∈ evidenceIndexes.map Prod.snd := by
      decide
    intro i hi
    rw [h₁.columns_eq]
    rcases hown i hi with he | hmem
    · rw [he]
      simp
    · obtain ⟨i', hi', he⟩ := List.mem_map.1 hmem
      exact Finset.mem_insert_of_mem (Finset.mem_insert_of_mem (he ▸ hcolumns i' hi'))
  refine (swapIndexes_gives hcolumns₁).mono fun R₂ h₂ => ?_
  have h₂ : IsProofOf R (swapped evidenceIndexes proofIndexes R.indexes) R₂ :=
    (h₁.trans h₂).congr h₁.columns_eq h₁.required_eq (by rw [h₁.indexes_eq]) fun _ _ => rfl
  refine ⟨h₂.onlyDisputes, (evidenceScript_gives hR hcolumns (fun name hname c hc => ?_)
    h₂).mono fun R' h' => ?_⟩
  · unfold swapped at hc
    split at hc
    · rw [indexColumns_eq_nil.2 hname] at hc
      exact absurd hc List.not_mem_nil
    · exact R.indexed name c hc
  · rw [h'.eq_iff, and_iff_right rfl]
    exact swapped_swapped_eq_iff (by decide) hR.free

/-! ## Every migration -/

namespace Revision

/-- There is nothing in the table that the downgrade takes away for good. -/
def ReversibleTable (rev : Revision) (db : SqlDatabase) (t : String) (R : SqlTable) : Prop :=
  match rev with
  | .r0009 => ∀ h : Heir, t = h.table → "resolved_at" ∉ R.required
  | .r0011 => t = "proofs" → "survey_question_id" ∉ R.required ∧
      (∀ r ∈ R.rows, r.cells "survey_question_id" = none) ∧
        R.indexes answerIndex.1 = [answerIndex.2] ∧
          ∀ name ≠ answerIndex.1, "survey_question_id" ∉ R.indexes name
  | .r0016 => (t = "dispute_evidences" → db.tables "proofs" = none →
        ∀ i ∈ evidenceIndexes, R.indexes i.1 = [i.2]) ∧
      (t = "proofs" → (∀ i ∈ evidenceIndexes, R.indexes i.1 = []) ∧
        ∀ i ∈ proofIndexes, R.indexes i.1 ≠ [])
  | .r0017 => ∀ h : Heir, t = h.table →
      ("runner_confirmed_at" ∈ R.required → h.runnerName ∈ R.columns) ∧
        ("orderer_confirmed_at" ∈ R.required → h.ordererName ∈ R.columns)

def Reversible (rev : Revision) (db : SqlDatabase) : Prop :=
  ∀ t R, db.tables t = some R → rev.ReversibleTable db t R

/-- The columns are there for the indexes that `0016` creates, in both directions. -/
structure Indexable (db : SqlDatabase) : Prop where
  evidences : ∀ R, db.tables "dispute_evidences" = some R → ∀ i ∈ evidenceIndexes, i.2 ∈ R.columns
  proofs : ∀ R, db.tables "proofs" = some R → ∀ i ∈ proofIndexes, i.2 ∈ R.columns

end Revision

section There

variable {rev : Revision} {db db₀ : SqlDatabase}

/-- After an upgrade all its statements have been done. -/
theorem done_of_upgrade (h : rev.upgrade dialect db₀ = .ok db) :
    ∀ p ∈ rev.upgradeSteps dialect, p.Done db :=
  Redo.done_of_run (rev.lasting_upgradeSteps dialect)
    ((rev.upgrade_eq_run dialect db₀).symm.trans h)

/-- The table is there again, and the same exactly if it is reversible. -/
def Revision.ComesBack (rev : Revision) (db db' : SqlDatabase) (t : String) : Prop :=
  db'.hasTable t = db.hasTable t ∧ ∀ R', db'.tables t = some R' →
    ∀ R, db.tables t = some R → (R' = R ↔ rev.ReversibleTable db t R)

/-- A table that is the same has to be reversible. -/
theorem comesBack_same {db' : SqlDatabase} {t : String} (h : db'.tables t = db.tables t)
    (hrev : ∀ R, db.tables t = some R → rev.ReversibleTable db t R) :
    rev.ComesBack db db' t := by
  refine ⟨congrArg Option.isSome h, fun R' hR' R hR => ?_⟩
  exact iff_of_true (Option.some.inj (hR'.symm.trans (h.trans hR))) (hrev R hR)

theorem comesBack_iff {db' : SqlDatabase} {t : String} {R R' : SqlTable}
    (hR : db.tables t = some R) (hR' : db'.tables t = some R') :
    rev.ComesBack db db' t ↔ (R' = R ↔ rev.ReversibleTable db t R) := by
  constructor
  · exact fun h => h.2 R' hR' R hR
  · intro h
    refine ⟨(hasTable_eq_true hR').trans (hasTable_eq_true hR).symm, fun S hS R₀ hR₀ => ?_⟩
    obtain rfl := Option.some.inj (hR'.symm.trans hS)
    obtain rfl := Option.some.inj (hR.symm.trans hR₀)
    exact h

/-- The same tables, each the same exactly if it is reversible. -/
theorem gives_reversible {x : Sql SqlDatabase}
    (h : Gives x fun db' => ∀ t, rev.ComesBack db db' t) :
    Gives x fun db' => db' = db ↔ rev.Reversible db := by
  refine h.mono fun db' hdb' => (eq_iff_tables fun t => (hdb' t).1).trans ?_
  constructor
  · intro heq t R hR
    obtain ⟨R', hR'⟩ := Option.isSome_iff_exists.1 ((hdb' t).1.trans (hasTable_eq_true hR))
    exact ((hdb' t).2 R' hR' R hR).1 (heq t R R' hR hR')
  · intro hrev t R R' hR hR'
    exact ((hdb' t).2 R' hR' R hR).2 (hrev t R hR)

theorem mem_table0009 {s : String × SqlStep}
    (hs : s ∈ statementsBack0009 dialect ++ statements0009 dialect) :
    ∃ h : Heir, s.1 = h.table := by
  have htables : s.1 = "proposals" ∨ s.1 = "offers" := by
    revert hs
    unfold statementsBack0009 statements0009 renameStatements statusStatements enumStatements
      enumSteps replaceStatements
    split <;> simp +contextual [or_imp]
  rcases htables with ht | ht
  · exact ⟨.proposals, ht⟩
  · exact ⟨.offers, ht⟩

theorem downgrade_upgrade0009 (h : Revision.r0009.upgrade dialect db₀ = .ok db) :
    Gives (downgrade0009 dialect db >>= upgrade0009 dialect)
      fun db' => db' = db ↔ Revision.r0009.Reversible db := by
  have hdone := done_of_upgrade h
  have hthere : ∀ h : Heir, db.hasTable h.table = true := by
    intro h
    have hs : (h.table, TableStep.fillFrom "refunded_at" "resolved_at") ∈
        statements0009 dialect := by
      refine List.mem_append_left _ ?_
      cases h <;> simp [renameStatements, Heir.table]
    exact (hdone _ (List.mem_map_of_mem hs)).1 rfl
  rw [downgrade0009_eq_run, funext (upgrade0009_eq_run dialect), ← Redo.run_append,
    ← onTables_append]
  refine gives_reversible (run_onTables_gives (fun _ s hs => ?_) fun t R hR => ?_)
  · obtain ⟨h, ht⟩ := mem_table0009 hs
    exact ht ▸ hthere h
  · by_cases ht : ∃ h : Heir, t = h.table
    · obtain ⟨h, rfl⟩ := ht
      refine (status_back (h.resolved_of_done (done_stepsOn hdone hR))).mono
        fun R' hR' R₀ hR₀ => ?_
      obtain rfl := Option.some.inj (hR.symm.trans hR₀)
      rw [hR'.eq_iff, and_iff_left rfl, Finset.erase_eq_self]
      exact ⟨fun hnot _ _ => hnot, fun hrev => hrev h rfl⟩
    · rw [stepsOn_eq_nil (t := t) fun s hs he => ht (he ▸ mem_table0009 hs)]
      refine gives_ok fun R₀ hR₀ => ?_
      obtain rfl := Option.some.inj (hR.symm.trans hR₀)
      exact ⟨fun _ h he => absurd ⟨h, he⟩ ht, fun _ => rfl⟩

theorem stepsOn_confirmations (h : Heir) : stepsOn (statementsBack0017 ++ statements0017) h.table =
    confirmationStepsBack h.runnerName h.ordererName ++
      confirmationSteps h.runnerName h.ordererName := by
  cases h <;> rfl

theorem mem_table0017 {s : String × SqlStep} (hs : s ∈ statementsBack0017 ++ statements0017) :
    ∃ h : Heir, s.1 = h.table := by
  have htables : s.1 = "proposals" ∨ s.1 = "offers" := by
    simp only [statementsBack0017, statements0017, List.mem_append, List.mem_map] at hs
    rcases hs with (⟨p, -, rfl⟩ | ⟨p, -, rfl⟩) | ⟨p, -, rfl⟩ | ⟨p, -, rfl⟩ <;> simp
  rcases htables with ht | ht
  · exact ⟨.proposals, ht⟩
  · exact ⟨.offers, ht⟩

theorem Heir.confirmed_of_done {h : Heir} (hdone : ∀ p ∈ stepsOn statements0017 h.table, p.Done R) :
    h.Confirmed R := by
  have hsteps : stepsOn statements0017 h.table = confirmationSteps h.runnerName h.ordererName := by
    cases h <;> rfl
  rw [hsteps] at hdone
  exact ⟨hdone (.renameIf h.runnerName "runner_confirmed_at") (by simp [confirmationSteps]),
    hdone (.renameIf h.ordererName "orderer_confirmed_at") (by simp [confirmationSteps]),
    hdone (.dropIf "settled_at") (by simp [confirmationSteps])⟩

theorem downgrade_upgrade0017 (h : Revision.r0017.upgrade dialect db₀ = .ok db) :
    Gives (downgrade0017 db >>= upgrade0017)
      fun db' => db' = db ↔ Revision.r0017.Reversible db := by
  have hdone := done_of_upgrade h
  rw [downgrade0017_eq_run, funext upgrade0017_eq_run, ← Redo.run_append, ← onTables_append]
  refine gives_reversible (run_onTables_gives (fun hn => absurd hn (by decide)) fun t R hR => ?_)
  by_cases ht : ∃ h : Heir, t = h.table
  · obtain ⟨h, rfl⟩ := ht
    rw [stepsOn_confirmations]
    refine (confirmations_back (Heir.confirmed_of_done (done_stepsOn hdone hR))).mono
      fun R' hR' R₀ hR₀ => ?_
    obtain rfl := Option.some.inj (hR.symm.trans hR₀)
    rw [hR'.eq_iff, and_iff_left rfl, h.freed_eq_iff]
    constructor
    · intro hfree h' he
      obtain rfl : h = h' := by cases h <;> cases h' <;> first | rfl | exact absurd he (by decide)
      exact hfree
    · exact fun hrev => hrev h rfl
  · rw [stepsOn_eq_nil (t := t) fun s hs he => ht (he ▸ mem_table0017 hs)]
    refine gives_ok fun R₀ hR₀ => ?_
    obtain rfl := Option.some.inj (hR.symm.trans hR₀)
    exact ⟨fun _ h he => absurd ⟨h, he⟩ ht, fun _ => rfl⟩

/-- Without its column there is no answer, and no other index is on the column then. -/
theorem answers_back (hquestion : "survey_question_id" ∈ R.columns) :
    Gives (Redo.run (answerStepsBack.map TableStep.toStep) R >>= Redo.run answerSteps)
      (Exactly R R.columns (R.required.erase "survey_question_id")
        (fun name => if name = answerIndex.1 then [answerIndex.2]
          else (R.indexes name).filter (· ≠ "survey_question_id"))
        fun r => r.set "survey_question_id" none) := by
  have hdrop : Gives (Redo.run (answerStepsBack.map TableStep.toStep) R)
      (Exactly R (R.columns.erase "survey_question_id") (R.required.erase "survey_question_id")
        (fun name => (Function.update R.indexes answerIndex.1 [] name).filter
          (· ≠ "survey_question_id")) fun r => r.set "survey_question_id" none) := by
    simp only [answerStepsBack, List.map_cons, List.map_nil, Redo.run_cons]
    refine (TableStep.dropIndexIf_gives answerIndex.1 R).bind fun R₁ h₁ => ?_
    refine (TableStep.dropIf_gives (h₁.columns_eq ▸ hquestion)).bind fun R₂ h₂ => gives_ok ?_
    rw [h₁.columns_eq, h₁.required_eq, h₁.indexes_eq] at h₂
    exact h₁.trans h₂
  refine hdrop.bind fun R₁ h₁ => ?_
  have hgone : "survey_question_id" ∉ R₁.columns := by
    rw [h₁.columns_eq]
    exact Finset.notMem_erase _ _
  rw [answerSteps, Redo.run_append]
  simp only [List.map_cons, List.map_nil, Redo.run_cons, bind_assoc]
  refine (TableStep.addIf_gives hgone).bind fun R₂ h₂ => ?_
  change Gives (Redo.run (createIndexSteps [answerIndex]) R₂) _
  have hcolumn : ∀ i ∈ [answerIndex], i.2 ∈ R₂.columns := by
    rw [h₂.columns_eq]
    exact List.forall_mem_singleton.2 (Finset.mem_insert_self _ _)
  refine (createIndexSteps_gives hcolumn).mono fun R₃ h₃ => ?_
  refine ((h₁.trans h₂).trans h₃).congr ?_ ?_ (funext fun name => ?_) fun _ _ => rfl
  · rw [h₂.columns_eq, h₁.columns_eq, Finset.insert_erase hquestion]
  · rw [h₂.required_eq, h₁.required_eq]
  · rw [h₂.indexes_eq, h₁.indexes_eq]
    by_cases hname : name = answerIndex.1
    · simp [hname, indexColumns]
    · have hnone : indexColumns [answerIndex] name = [] :=
        indexColumns_eq_nil.2 (by simpa using hname)
      beta_reduce
      rw [if_neg hname, Function.update_of_ne hname]
      split
      · next hfree => rw [hnone, hfree]
      · rfl

theorem answers_eq_iff {R' : SqlTable} (h : Exactly R R.columns
    (R.required.erase "survey_question_id")
    (fun name => if name = answerIndex.1 then [answerIndex.2]
      else (R.indexes name).filter (· ≠ "survey_question_id"))
    (fun r => r.set "survey_question_id" none) R') :
    R' = R ↔ "survey_question_id" ∉ R.required ∧
      (∀ r ∈ R.rows, r.cells "survey_question_id" = none) ∧
        R.indexes answerIndex.1 = [answerIndex.2] ∧
          ∀ name ≠ answerIndex.1, "survey_question_id" ∉ R.indexes name := by
  constructor
  · rintro rfl
    refine ⟨Finset.erase_eq_self.1 h.required_eq.symm, fun r hr => ?_, ?_, fun name hname hc => ?_⟩
    · obtain ⟨r₀, -, rfl⟩ := h.mem.1 hr
      rw [Row.cells_set, if_pos rfl]
    · exact (congrFun h.indexes_eq _).trans (if_pos rfl)
    · rw [(congrFun h.indexes_eq name).trans (if_neg hname)] at hc
      simp at hc
  · rintro ⟨hnull, hnone, hindex, hother⟩
    refine h.eq rfl (Finset.erase_eq_of_notMem hnull) (funext fun name => ?_)
      fun r hr => Row.set_eq_self (hnone r hr)
    split
    · next hname => rw [hname, hindex]
    · next hname =>
        exact List.filter_eq_self.2 fun c hc => decide_eq_true fun he => hother name hname (he ▸ hc)

theorem downgrade_upgrade0011 (h : Revision.r0011.upgrade dialect db₀ = .ok db) :
    Gives (downgrade0011 db >>= upgrade0011)
      fun db' => db' = db ↔ Revision.r0011.Reversible db := by
  have hdone := done_of_upgrade h (onTable true "proofs" _) List.mem_cons_self
  have hthere : db.hasTable "proofs" = true := hdone.1 rfl
  obtain ⟨R, hR⟩ := Option.isSome_iff_exists.1 hthere
  have hquestion : "survey_question_id" ∈ R.columns := hdone.2 R hR
  have hboth : downgrade0011 db >>= upgrade0011 = db.alter "proofs" fun R =>
      Redo.run (answerStepsBack.map TableStep.toStep) R >>= Redo.run answerSteps := by
    rw [downgrade0011_eq_run, statementsBack0011, run_onTables_of_hasTable hthere, alter_bind]
    refine bind_congr_of_ok fun db₁ h₁ => ?_
    rw [upgrade0011_eq_run, steps0011,
      run_map_onTable_of_hasTable ((hasTable_alter h₁ _).trans hthere)]
  obtain ⟨R', hR', h'⟩ := answers_back hquestion
  have halter : db.alter "proofs" (fun R =>
      Redo.run (answerStepsBack.map TableStep.toStep) R >>= Redo.run answerSteps) =
      .ok (db.write "proofs" (some R')) := alter_eq_ok.2 ⟨R, hR, R', hR', rfl⟩
  rw [hboth]
  refine gives_reversible ⟨_, halter, fun t => ?_⟩
  by_cases ht : t = "proofs"
  · subst ht
    rw [comesBack_iff hR rfl, answers_eq_iff h']
    exact ⟨fun hlost _ => hlost, fun hrev => hrev rfl⟩
  · exact comesBack_same (if_neg ht) fun _ _ he => absurd he ht

/-- The upgrade of `0016`, if there are no other proofs. -/
theorem run_steps0016 {db db' : SqlDatabase} {R₁ R' : SqlTable}
    (hdelete : ∀ R, db.tables "proofs" = some R → OnlyDisputes R)
    (hrename : (renameTableIf "proofs" "dispute_evidences").run db = .ok db')
    (hR₁ : db'.tables "dispute_evidences" = some R₁)
    (hback : Redo.run evidenceScript R₁ = .ok R') :
    Redo.run steps0016 db = .ok (db'.write "dispute_evidences" (some R')) := by
  have hfirst : Redo.run (onTables false [("proofs", .deleteIf "proof_type" isOther)]) db =
      .ok db := by
    refine Redo.run_of_done fun p hp => ?_
    obtain rfl := List.mem_singleton.1 hp
    exact ⟨fun hn => absurd hn (by decide), hdelete⟩
  have hlast : Redo.run (evidenceScript.map (onTable false "dispute_evidences")) db' =
      .ok (db'.write "dispute_evidences" (some R')) :=
    (run_map_onTable_of_hasTable (hasTable_eq_true hR₁) _).trans
      (alter_eq_ok.2 ⟨R₁, hR₁, R', hback, rfl⟩)
  rw [steps0016, Redo.run_append, hfirst]
  exact Redo.run_cons_eq_ok.2 ⟨db', hrename, hlast⟩

/-- The rest of the downgrade of `0016`, after the columns. -/
theorem run_proofScript {db db' : SqlDatabase} {P P' : SqlTable}
    (hrename : (renameTableIf "dispute_evidences" "proofs").run db = .ok db')
    (hP : db'.tables "proofs" = some P) (hindexes : Redo.run proofScript P = .ok P') :
    Redo.run (renameTableIf "dispute_evidences" "proofs" ::
      proofScript.map (onTable false "proofs")) db = .ok (db'.write "proofs" (some P')) :=
  Redo.run_cons_eq_ok.2 ⟨db', hrename, (run_map_onTable_of_hasTable (hasTable_eq_true hP) _).trans
    (alter_eq_ok.2 ⟨P, hP, P', hindexes, rfl⟩)⟩

/-- The table keeps its name, if there is another table of proofs. -/
theorem kept_back {db : SqlDatabase} {R₁ R' P P' : SqlTable}
    (hR₁ : db.tables "dispute_evidences" = some R₁) (hP : db.tables "proofs" = some P)
    (hindexes : Redo.run proofScript P = .ok P') (hdisputes : OnlyDisputes P')
    (hback : Redo.run evidenceScript R₁ = .ok R') :
    Redo.run (renameTableIf "dispute_evidences" "proofs" ::
        proofScript.map (onTable false "proofs")) db >>= Redo.run steps0016 =
      .ok ((db.write "proofs" (some P')).write "dispute_evidences" (some R')) := by
  rw [run_proofScript (Redo.Step.run_of_done _ fun _ => hasTable_eq_true hP) hP hindexes]
  have hP' : (db.write "proofs" (some P')).tables "proofs" = some P' := rfl
  have hR₁' : (db.write "proofs" (some P')).tables "dispute_evidences" = some R₁ := hR₁
  refine run_steps0016 (fun R hR => ?_)
    (Redo.Step.run_of_done _ fun _ => hasTable_eq_true hR₁') hR₁' hback
  obtain rfl := Option.some.inj (hP'.symm.trans hR)
  exact hdisputes

/-- Otherwise it is moved there and back. -/
theorem moved_back {db : SqlDatabase} {R₁ R₂ R' : SqlTable}
    (hR₁ : db.tables "dispute_evidences" = some R₁) (hnone : db.tables "proofs" = none)
    (hindexes : Redo.run proofScript R₁ = .ok R₂) (hdisputes : OnlyDisputes R₂)
    (hback : Redo.run evidenceScript R₂ = .ok R') :
    Redo.run (renameTableIf "dispute_evidences" "proofs" ::
        proofScript.map (onTable false "proofs")) db >>= Redo.run steps0016 =
      .ok (db.write "dispute_evidences" (some R')) := by
  rw [run_proofScript (run_renameTableIf hR₁ (hasTable_eq_false hnone)) rfl hindexes]
  set db₂ := ((db.write "dispute_evidences" none).write "proofs" (some R₁)).write "proofs"
    (some R₂) with hdb₂
  have hproofs₂ : db₂.tables "proofs" = some R₂ := rfl
  have hnone₂ : db₂.hasTable "dispute_evidences" = false := rfl
  have hdelete : ∀ R, db₂.tables "proofs" = some R → OnlyDisputes R := by
    intro R hR
    obtain rfl := Option.some.inj (hproofs₂.symm.trans hR)
    exact hdisputes
  refine (run_steps0016 hdelete (run_renameTableIf hproofs₂ hnone₂)
    (by rw [tables_write, if_pos rfl]) hback).trans (congrArg _ ?_)
  ext1
  funext t
  simp only [hdb₂, tables_write]
  by_cases hde : t = "dispute_evidences"
  · rw [if_pos hde, if_pos hde]
  · by_cases hp : t = "proofs" <;> simp [hde, hp, hnone]

/-- The columns come first. -/
theorem run_back0016 {R R₁ : SqlTable} (hR : db.tables "dispute_evidences" = some R)
    (hR₁ : Redo.run (proofSteps.map TableStep.toStep) R = .ok R₁) :
    downgrade0016 db >>= upgrade0016 =
      Redo.run (renameTableIf "dispute_evidences" "proofs" ::
          proofScript.map (onTable false "proofs")) (db.write "dispute_evidences" (some R₁)) >>=
        Redo.run steps0016 := by
  have halter : db.alter "dispute_evidences" (Redo.run (proofSteps.map TableStep.toStep)) =
      .ok (db.write "dispute_evidences" (some R₁)) := alter_eq_ok.2 ⟨R, hR, R₁, hR₁, rfl⟩
  rw [downgrade0016_eq_run, funext upgrade0016_eq_run, stepsBack0016, Redo.run_append,
    run_onTables_of_hasTable (hasTable_eq_true hR), halter]
  rfl

/-- Without evidences there is nothing to do. -/
theorem none_back (hdone : ∀ p ∈ steps0016, p.Done db)
    (hnone : db.tables "dispute_evidences" = none) :
    db.tables "proofs" = none ∧ downgrade0016 db >>= upgrade0016 = .ok db := by
  have hevidences := hasTable_eq_false hnone
  have hproofs : db.hasTable "proofs" = false := by
    have hrename := hdone (renameTableIf "proofs" "dispute_evidences")
      (List.mem_append_right _ List.mem_cons_self)
    exact Bool.eq_false_iff.2 fun hthere => Bool.eq_false_iff.1 hevidences (hrename hthere)
  have hskip : (renameTableIf "dispute_evidences" "proofs").run db = .ok db :=
    Redo.Step.run_of_done _ fun hthere => absurd hthere (Bool.eq_false_iff.1 hevidences)
  have hdown : downgrade0016 db = .ok db := by
    rw [downgrade0016_eq_run, stepsBack0016, Redo.run_append,
      run_onTables_of_not_hasTable hevidences]
    exact Redo.run_cons_eq_ok.2 ⟨db, hskip, run_map_onTable_of_not_hasTable hproofs _⟩
  refine ⟨Option.not_isSome_iff_eq_none.1 (by simpa [hasTable] using hproofs), ?_⟩
  rw [hdown, funext upgrade0016_eq_run]
  exact Redo.run_of_done hdone

/-- **`0016` there and back.** -/
theorem downgrade_upgrade0016 (h : Revision.r0016.upgrade dialect db₀ = .ok db)
    (hindexable : Revision.Indexable db) :
    Gives (downgrade0016 db >>= upgrade0016)
      fun db' => db' = db ↔ Revision.r0016.Reversible db := by
  have hdone := done_of_upgrade h
  cases hR : db.tables "dispute_evidences" with
  | none =>
      obtain ⟨hproofs, hrun⟩ := none_back hdone hR
      refine gives_reversible ⟨db, hrun, fun t => comesBack_same rfl fun R₀ hR₀ => ?_⟩
      refine ⟨fun ht _ => ?_, fun ht => ?_⟩
      · rw [ht, hR] at hR₀
        cases hR₀
      · rw [ht, hproofs] at hR₀
        cases hR₀
  | some R =>
      have hevidences : AreEvidences R := areEvidences_of_done fun p hp =>
        (hdone _ (List.mem_append_right _ (List.mem_cons_of_mem _ (List.mem_map_of_mem hp)))).2 R hR
      have hcolumns := hindexable.evidences R hR
      cases hP : db.tables "proofs" with
      | none =>
          obtain ⟨R₁, hR₁, R₂, hR₂, hdisputes, R', hR', hiff⟩ :=
            evidences_moved hevidences hcolumns
          have hnone : (db.write "dispute_evidences" (some R₁)).tables "proofs" = none := hP
          have hrun := (run_back0016 hR hR₁).trans (moved_back rfl hnone hR₂ hdisputes hR')
          refine gives_reversible ⟨_, hrun, fun t => ?_⟩
          by_cases ht : t = "dispute_evidences"
          · subst ht
            rw [comesBack_iff hR rfl, hiff]
            exact ⟨fun hown => ⟨fun _ _ => hown, fun he => absurd he (by decide)⟩,
              fun hrev => hrev.1 rfl hP⟩
          · refine comesBack_same (by simp [ht]) fun R₀ hR₀ =>
              ⟨fun he => absurd he ht, fun he => ?_⟩
            rw [he, hP] at hR₀
            cases hR₀
      | some P =>
          obtain ⟨R₁, hR₁, hback⟩ := evidences_kept hevidences hcolumns
          obtain ⟨P', hP', h'⟩ := @swapIndexes_gives P evidenceIndexes _ (hindexable.proofs P hP)
          have hdisputes : OnlyDisputes P' := by
            intro hc r' hr'
            have hdeleted := (hdone (onTable false "proofs"
              (TableStep.deleteIf "proof_type" isOther : SqlStep).toStep)
                (List.mem_append_left _ List.mem_cons_self)).2 P hP
            obtain ⟨r, hr, rfl⟩ := h'.mem.1 hr'
            exact hdeleted (h'.columns_eq ▸ hc) r hr
          have hrun := (run_back0016 hR hR₁).trans (kept_back rfl hP hP' hdisputes hback)
          refine gives_reversible ⟨_, hrun, fun t => ?_⟩
          by_cases ht : t = "dispute_evidences"
          · subst ht
            refine comesBack_same hR.symm fun _ _ => ⟨fun _ hnone => ?_, fun he => ?_⟩
            · exact absurd (hP.symm.trans hnone) (by simp)
            · exact absurd he (by decide)
          · by_cases hproofs : t = "proofs"
            · subst hproofs
              rw [comesBack_iff hP rfl, h'.eq_iff, and_iff_right rfl, swapped_eq_iff index_names.1]
              exact ⟨fun hown => ⟨fun he => absurd he ht, fun _ => hown⟩, fun hrev => hrev.2 rfl⟩
            · exact comesBack_same (by simp [ht, hproofs]) fun _ _ =>
                ⟨fun he => absurd he ht, fun he => absurd he hproofs⟩

end There

/-- **Which downgrades can be taken back.**  From a database that an upgrade has left, the
downgrade and the upgrade after it are not refused, for `0016` provided that there are the columns
for its indexes.  They lead back to that database exactly if there is nothing in it that the
downgrade takes away for good: a `NOT NULL` that a rename drops, the answers of `0011`, and an
index of the name but not on the column that the migration gives it. -/
theorem downgrade_upgrade_iff (rev : Revision) (dialect : String) {db₀ db : SqlDatabase}
    (h : rev.upgrade dialect db₀ = .ok db)
    (hindexable : rev = .r0016 → Revision.Indexable db) :
    ∃ db', rev.downgrade dialect db >>= rev.upgrade dialect = .ok db' ∧
      (db' = db ↔ rev.Reversible db) :=
  match rev with
  | .r0009 => downgrade_upgrade0009 h
  | .r0011 => downgrade_upgrade0011 h
  | .r0016 => downgrade_upgrade0016 h (hindexable rfl)
  | .r0017 => downgrade_upgrade0017 h

namespace Sample

/-- One evidence. -/
def evidenceRows : SqlTable :=
  table [⟨"proposal_id", false⟩, ⟨"offer_id", false⟩, ⟨"actor_id", false⟩, ⟨"reason", false⟩,
      ⟨"survey_question_id", false⟩]
    [[("proposal_id", some (.int 1)), ("offer_id", some (.int 2)),
      ("actor_id", some (.text "orderer")), ("reason", some (.text "cold")),
      ("survey_question_id", some (.int 3))]]

theorem indexColumns_evidences : ∀ i ∈ evidenceIndexes, i.2 ∈ evidenceRows.columns := by decide

/-- Its table, with the indexes of `0016`. -/
def evidenceTable : SqlTable :=
  { evidenceRows with
    indexes := indexColumns evidenceIndexes
    indexed := by
      intro name c hc
      unfold indexColumns at hc
      cases hfound : evidenceIndexes.find? fun i => i.1 = name with
      | none =>
          rw [hfound] at hc
          exact absurd hc List.not_mem_nil
      | some i =>
          rw [hfound] at hc
          obtain rfl := List.mem_singleton.1 hc
          exact indexColumns_evidences i (List.mem_of_find?_eq_some hfound) }

def disputed : SqlDatabase where
  tables := fun t => if t = "dispute_evidences" then some evidenceTable else none

theorem tables_disputed {t : String} {R : SqlTable} (hR : disputed.tables t = some R) :
    t = "dispute_evidences" ∧ R = evidenceTable := by
  simp only [disputed] at hR
  split at hR
  · next ht => exact ⟨ht, (Option.some.inj hR).symm⟩
  · cases hR

theorem run_evidenceTable : Redo.run evidenceScript evidenceTable = .ok evidenceTable := rfl

end Sample

/-- The evidences become proofs, and evidences again, with their indexes. -/
theorem downgrade_upgrade_iff_disputed :
    Revision.r0016.upgrade "mysql" Sample.disputed = .ok Sample.disputed ∧
      Revision.Indexable Sample.disputed ∧
        Revision.r0016.downgrade "mysql" Sample.disputed >>= Revision.r0016.upgrade "mysql" =
          .ok Sample.disputed := by
  have hevidences : Sample.disputed.tables "dispute_evidences" = some Sample.evidenceTable := rfl
  have hproofs : Sample.disputed.tables "proofs" = none := rfl
  have hupgrade : Revision.r0016.upgrade "mysql" Sample.disputed = .ok Sample.disputed := by
    have hrename : (renameTableIf "proofs" "dispute_evidences").run Sample.disputed =
        .ok Sample.disputed := Redo.Step.run_of_done _ fun hthere =>
      absurd hthere (Bool.eq_false_iff.1 (hasTable_eq_false hproofs))
    have hrun := run_steps0016 (fun R hR => absurd (hproofs.symm.trans hR) (by simp)) hrename
      hevidences Sample.run_evidenceTable
    have hsame : Sample.disputed.write "dispute_evidences" (some Sample.evidenceTable) =
        Sample.disputed := by
      ext1
      funext t
      rw [tables_write]
      split
      · next ht => rw [ht, hevidences]
      · rfl
    rw [hsame] at hrun
    exact (upgrade0016_eq_run _).trans hrun
  have hindexable : Revision.Indexable Sample.disputed := by
    refine ⟨fun R hR => ?_, fun R hR => ?_⟩
    · obtain ⟨-, rfl⟩ := Sample.tables_disputed hR
      exact Sample.indexColumns_evidences
    · cases hproofs.symm.trans hR
  have hreversible : Revision.r0016.Reversible Sample.disputed := by
    intro t R hR
    obtain ⟨rfl, rfl⟩ := Sample.tables_disputed hR
    exact ⟨fun _ _ => by decide, fun ht => absurd ht (by decide)⟩
  obtain ⟨db', hdb', hiff⟩ :=
    downgrade_upgrade_iff .r0016 "mysql" hupgrade fun _ => hindexable
  exact ⟨hupgrade, hindexable, hdb'.trans (congrArg _ (hiff.2 hreversible))⟩

end Migrations

end OrderRun
