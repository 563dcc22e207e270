import OrderRun.Lib.TableSteps
import OrderRun.Migrations.Downgrades
import OrderRun.Migrations.Evidences

/-!
# Migrations that are started again

MySQL commits a statement that changes a table at once.  A migration that is stopped leaves
behind what it has done so far, with the old version number, and is started again from its
beginning; its tests for tables, columns and indexes are there for that.

* `statements0009`, `steps0016`, … — each direction statement by statement, every one with its
  test.
* `upgrade_eq_run`, `downgrade_eq_run` — the migrations are these statements, one after the
  other.
* `lasting_upgradeSteps`, `lasting_downgradeSteps` — no statement undoes an earlier one.
* `restarts_finish` — wherever and however often a migration is stopped, the next attempt ends
  as the first would have ended.
-/

namespace OrderRun

open Store Store.Relation Store.Database

namespace Migrations

/-- A statement with its test. -/
abbrev SqlStep := TableStep String SqlValue

/-- A step on a table. -/
abbrev SqlTableStep := Redo.Step SqlTable (Refusal String)

/-- A step of a migration. -/
abbrev MigrationStep := Redo.Step SqlDatabase (Refusal String)

/-! ## 0009 -/

/-- `_rename_timestamp_column`, for both tables. -/
def renameStatements (old new : String) (hne : old ≠ new) : List (String × SqlStep) :=
  [("proposals", .fillFrom old new), ("proposals", .finishRename old new hne),
    ("offers", .fillFrom old new), ("offers", .finishRename old new hne)]

/-- `_alter_mysql_enum`, if this is MySQL. -/
def enumSteps (dialect : String) (statuses : List String) : List SqlStep :=
  if dialect = "mysql" then [.enumerate "status" (statuses.map SqlValue.text)] else []

def enumStatements (dialect : String) (proposalStatuses offerStatuses : List String) :
    List (String × SqlStep) :=
  ((enumSteps dialect proposalStatuses).map fun p => ("proposals", p)) ++
    (enumSteps dialect offerStatuses).map fun p => ("offers", p)

/-- `UPDATE ... SET status = new WHERE status = old`, for both tables. -/
def replaceStatements (old new : String) (hne : SqlValue.text old ≠ .text new) :
    List (String × SqlStep) :=
  [("proposals", .replace "status" (.text old) (.text new) hne),
    ("offers", .replace "status" (.text old) (.text new) hne)]

/-- The statements about the statuses: the old value makes room for the new one. -/
def statusStatements (dialect : String) (proposalStatuses offerStatuses : List String)
    {old new : String} (hne : SqlValue.text old ≠ .text new)
    (proposalStatuses' offerStatuses' : List String) : List (String × SqlStep) :=
  enumStatements dialect proposalStatuses offerStatuses ++ replaceStatements old new hne ++
    enumStatements dialect proposalStatuses' offerStatuses'

def statements0009 (dialect : String) : List (String × SqlStep) :=
  renameStatements "refunded_at" "resolved_at" (by decide) ++
    statusStatements dialect PROPOSAL_STATUSES_WITH_REFUNDED OFFER_STATUSES_WITH_REFUNDED
      (show SqlValue.text "REFUNDED" ≠ .text "RESOLVED" by decide)
      PROPOSAL_STATUSES OFFER_STATUSES

def statementsBack0009 (dialect : String) : List (String × SqlStep) :=
  statusStatements dialect PROPOSAL_STATUSES_WITH_REFUNDED OFFER_STATUSES_WITH_REFUNDED
      (show SqlValue.text "RESOLVED" ≠ .text "REFUNDED" by decide)
      (replaceStatus PROPOSAL_STATUSES "RESOLVED" "REFUNDED")
      (replaceStatus OFFER_STATUSES "RESOLVED" "REFUNDED") ++
    renameStatements "resolved_at" "refunded_at" (by decide)

/-- The two statements of a rename. -/
theorem renameTimestampColumn_eq {old new : String} (hne : old ≠ new) (R : SqlTable) :
    renameTimestampColumn old new R =
      (TableStep.fillFrom old new : SqlStep).run R >>=
        (TableStep.finishRename old new hne : SqlStep).run := by
  change _ = (if old ∈ R.columns ∧ new ∈ R.columns then
    R.update new (fun r => (r.cells new).isNone) fun r => r.cells old else .ok R) >>= fun R =>
      if old ∈ R.columns then
        if new ∈ R.columns then R.dropColumn old else R.renameColumn old new
      else .ok R
  unfold renameTimestampColumn
  by_cases hold : old ∈ R.columns
  · by_cases hnew : new ∈ R.columns
    · rw [if_neg (not_not_intro hold), if_pos hnew, if_pos ⟨hold, hnew⟩]
      refine bind_congr_of_ok fun R' hR => ?_
      rw [(update_exactly hR).columns_eq, if_pos hold, if_pos hnew]
    · simp [Bind.bind, Except.bind, hold, hnew]
  · simp [Bind.bind, Except.bind, hold]

theorem run_renameStatements {old new : String} (hne : old ≠ new) :
    Redo.run (onTables true (renameStatements old new hne)) = fun db : SqlDatabase => (do
      let db ← db.alter "proposals" (renameTimestampColumn old new)
      db.alter "offers" (renameTimestampColumn old new)) := by
  funext db
  rw [funext (renameTimestampColumn_eq hne), alter_bind]
  simp only [alter_bind, bind_assoc]
  simp only [renameStatements, onTables, List.map_cons, List.map_nil, Redo.run, List.foldlM_cons,
    List.foldlM_nil, bind_pure]
  rfl

theorem run_replaceStatements {old new : String} (hne : SqlValue.text old ≠ .text new) :
    Redo.run (onTables true (replaceStatements old new hne)) = fun db : SqlDatabase => (do
      let db ← db.alter "proposals" (TableStep.replace "status" (.text old) (.text new) hne).run
      db.alter "offers" (TableStep.replace "status" (.text old) (.text new) hne).run) := by
  funext db
  simp only [replaceStatements, onTables, List.map_cons, List.map_nil, Redo.run, List.foldlM_cons,
    List.foldlM_nil, bind_pure]
  rfl

/-- The statements only MySQL gets. -/
theorem run_enumStatements (dialect : String) (proposalStatuses offerStatuses : List String) :
    Redo.run (onTables true (enumStatements dialect proposalStatuses offerStatuses)) =
      when (dialect = "mysql") fun db : SqlDatabase => (do
        let db ← db.alter "proposals" (alterMysqlEnum "status" proposalStatuses)
        db.alter "offers" (alterMysqlEnum "status" offerStatuses)) := by
  funext db
  unfold when enumStatements enumSteps
  split
  · simp only [List.cons_append, List.nil_append, onTables, List.map_cons, List.map_nil,
      Redo.run, List.foldlM_cons, List.foldlM_nil, bind_pure]
    rfl
  · rfl

theorem onTables_append (needed : Bool) (before after : List (String × SqlStep)) :
    onTables needed (before ++ after) = onTables needed before ++ onTables needed after :=
  List.map_append

theorem run_statusStatements (dialect : String) (ps os : List String) {old new : String}
    (hne : SqlValue.text old ≠ .text new) (ps' os' : List String) :
    Redo.run (onTables true (statusStatements dialect ps os hne ps' os')) =
      fun db : SqlDatabase => (do
        let db ← when (dialect = "mysql") (fun db => do
          let db ← db.alter "proposals" (alterMysqlEnum "status" ps)
          db.alter "offers" (alterMysqlEnum "status" os)) db
        let db ← db.alter "proposals" (TableStep.replace "status" (.text old) (.text new) hne).run
        let db ← db.alter "offers" (TableStep.replace "status" (.text old) (.text new) hne).run
        when (dialect = "mysql") (fun db => do
          let db ← db.alter "proposals" (alterMysqlEnum "status" ps')
          db.alter "offers" (alterMysqlEnum "status" os')) db) := by
  funext db
  simp only [statusStatements, onTables_append, Redo.run_append, run_enumStatements,
    run_replaceStatements, bind_assoc]

theorem upgrade0009_eq_run (dialect : String) (db : SqlDatabase) :
    upgrade0009 dialect db = Redo.run (onTables true (statements0009 dialect)) db := by
  simp only [statements0009, onTables_append, Redo.run_append, run_renameStatements,
    run_statusStatements, bind_assoc]
  rfl

theorem downgrade0009_eq_run (dialect : String) (db : SqlDatabase) :
    downgrade0009 dialect db = Redo.run (onTables true (statementsBack0009 dialect)) db := by
  simp only [statementsBack0009, onTables_append, Redo.run_append, run_renameStatements,
    run_statusStatements, bind_assoc]
  rfl

section Lasting0009

variable {old new : String} (hne : old ≠ new)

theorem lasting_rename : TableStep.Lasting
    ([.fillFrom old new, .finishRename old new hne] : List SqlStep) :=
  List.pairwise_pair.2 (TableStep.finishRename_spares_fillFrom hne)

/-- The statements about the statuses of one table. -/
def statusSteps (dialect : String) (statuses statuses' : List String) {a b : String}
    (hab : SqlValue.text a ≠ .text b) : List SqlStep :=
  enumSteps dialect statuses ++ [.replace "status" (.text a) (.text b) hab] ++
    enumSteps dialect statuses'

theorem lasting_statusSteps (dialect : String) {statuses : List String} (statuses' : List String)
    {a b : String} (hab : SqlValue.text a ≠ .text b) (hb : b ∈ statuses) :
    TableStep.Lasting (statusSteps dialect statuses statuses' hab) := by
  unfold statusSteps enumSteps
  split
  · refine List.pairwise_cons.2 ⟨?_, List.pairwise_pair.2 TableStep.enumerate_spares_replace⟩
    exact List.forall_mem_cons.2 ⟨TableStep.replace_spares_enumerate (List.mem_map_of_mem hb),
      List.forall_mem_singleton.2 TableStep.enumerate_spares_enumerate⟩
  · exact List.pairwise_singleton _ _

theorem names_statusSteps {dialect : String} {statuses statuses' : List String} {a b : String}
    {hab : SqlValue.text a ≠ .text b} :
    ∀ p ∈ statusSteps dialect statuses statuses' hab, p.names = {"status"} := by
  unfold statusSteps enumSteps
  split <;> simp [TableStep.enumerate, TableStep.replace]

/-- The rename and the new statuses of one table do not meet, whichever comes first. -/
theorem lasting_renameStatus (hnames : Disjoint ({old, new} : Finset String) {"status"})
    {qs : List SqlStep} (hqs : TableStep.Lasting qs) (hqnames : ∀ q ∈ qs, q.names = {"status"}) :
    TableStep.Lasting ([.fillFrom old new, .finishRename old new hne] ++ qs) ∧
      TableStep.Lasting (qs ++ [.fillFrom old new, .finishRename old new hne]) := by
  have hdisjoint : ∀ p ∈ ([.fillFrom old new, .finishRename old new hne] : List SqlStep),
      ∀ q ∈ qs, Disjoint p.names q.names := by
    intro p hp q hq
    rw [hqnames q hq]
    simp only [List.mem_cons, List.not_mem_nil, or_false] at hp
    rcases hp with rfl | rfl <;> exact hnames
  exact ⟨TableStep.lasting_append (lasting_rename hne) hqs hdisjoint,
    TableStep.lasting_append hqs (lasting_rename hne) fun q hq p hp => (hdisjoint p hp q hq).symm⟩

theorem stepsOn_renameStatements {t : String} (ht : t = "proposals" ∨ t = "offers") :
    stepsOn (renameStatements old new hne) t = [.fillFrom old new, .finishRename old new hne] := by
  rcases ht with rfl | rfl <;> rfl

/-- The statements about the statuses on one of the tables. -/
theorem stepsOn_statusStatements {dialect : String} {ps ps' os os' : List String} {a b : String}
    {hab : SqlValue.text a ≠ .text b} :
    stepsOn (statusStatements dialect ps os hab ps' os') "proposals" =
      statusSteps dialect ps ps' hab ∧
    stepsOn (statusStatements dialect ps os hab ps' os') "offers" =
      statusSteps dialect os os' hab := by
  unfold statusStatements statusSteps enumStatements enumSteps
  split <;> exact ⟨rfl, rfl⟩

theorem stepsOn_renameStatements_other {t : String} (ht : ¬ (t = "proposals" ∨ t = "offers")) :
    stepsOn (renameStatements old new hne) t = [] := by
  refine stepsOn_eq_nil fun s hs he => ht (he ▸ ?_)
  revert hs
  simp +contextual [renameStatements, or_imp]

theorem stepsOn_statusStatements_other {dialect : String} {ps ps' os os' : List String}
    {a b : String} {hab : SqlValue.text a ≠ .text b} {t : String}
    (ht : ¬ (t = "proposals" ∨ t = "offers")) :
    stepsOn (statusStatements dialect ps os hab ps' os') t = [] := by
  refine stepsOn_eq_nil fun s hs he => ht (he ▸ ?_)
  revert hs
  unfold statusStatements enumStatements enumSteps replaceStatements
  split <;> simp +contextual [or_imp]

/-- The statements of `0009` on one of its tables. -/
theorem lasting_heir (hnames : Disjoint ({old, new} : Finset String) {"status"})
    (dialect : String) {ps os : List String} (ps' os' : List String) {a b : String}
    (hab : SqlValue.text a ≠ .text b) (hps : b ∈ ps) (hos : b ∈ os) (t : String) :
    TableStep.Lasting (stepsOn (renameStatements old new hne ++
        statusStatements dialect ps os hab ps' os') t) ∧
      TableStep.Lasting (stepsOn (statusStatements dialect ps os hab ps' os' ++
        renameStatements old new hne) t) := by
  rw [stepsOn_append, stepsOn_append]
  by_cases ht : t = "proposals" ∨ t = "offers"
  · rw [stepsOn_renameStatements _ ht]
    rcases ht with rfl | rfl
    · rw [stepsOn_statusStatements.1]
      exact lasting_renameStatus _ hnames (lasting_statusSteps dialect _ _ hps) names_statusSteps
    · rw [stepsOn_statusStatements.2]
      exact lasting_renameStatus _ hnames (lasting_statusSteps dialect _ _ hos) names_statusSteps
  · rw [stepsOn_renameStatements_other _ ht, stepsOn_statusStatements_other ht]
    exact ⟨List.Pairwise.nil, List.Pairwise.nil⟩

end Lasting0009

theorem lasting_statements0009 (dialect : String) :
    Redo.Lasting (onTables true (statements0009 dialect)) :=
  lasting_onTables fun t =>
    (lasting_heir _ (by decide) dialect _ _ _ (by decide) (by decide) t).1

theorem lasting_statementsBack0009 (dialect : String) :
    Redo.Lasting (onTables true (statementsBack0009 dialect)) :=
  lasting_onTables fun t =>
    (lasting_heir _ (by decide) dialect _ _ _ (by decide) (by decide) t).2

/-! ## 0017 -/

/-- The statements on one table. -/
def confirmationSteps (runnerName ordererName : String) : List SqlStep :=
  [.renameIf runnerName "runner_confirmed_at", .renameIf ordererName "orderer_confirmed_at",
    .dropIf "settled_at"]

def confirmationStepsBack (runnerName ordererName : String) : List SqlStep :=
  [.addIf "settled_at", .renameIf "runner_confirmed_at" runnerName,
    .renameIf "orderer_confirmed_at" ordererName]

def statements0017 : List (String × SqlStep) :=
  ((confirmationSteps "delivery_completed_at" "receipt_confirmed_at").map fun p => ("offers", p)) ++
    (confirmationSteps "delivery_reported_at" "received_confirmed_at").map fun p => ("proposals", p)

def statementsBack0017 : List (String × SqlStep) :=
  ((confirmationStepsBack "delivery_reported_at" "received_confirmed_at").map
    fun p => ("proposals", p)) ++
    (confirmationStepsBack "delivery_completed_at" "receipt_confirmed_at").map
      fun p => ("offers", p)

/-- A rename that looks at the columns before a statement about other columns. -/
theorem renameUnlessThere_eq {p : SqlStep} {old new : String} {R R' : SqlTable}
    (hp : p.run R = .ok R') (hnames : Disjoint p.names {old, new}) :
    renameUnlessThere R.columns old new R' =
      (TableStep.renameIf old new : SqlStep).run R' := by
  have hframed := p.framed hp
  have hold : old ∉ p.names := fun h => Finset.disjoint_left.1 hnames h (by simp)
  have hnew : new ∉ p.names := fun h => Finset.disjoint_left.1 hnames h (by simp)
  change (if old ∈ R.columns ∧ new ∉ R.columns then R'.renameColumn old new else .ok R') =
    if old ∈ R'.columns ∧ new ∉ R'.columns then R'.renameColumn old new else .ok R'
  simp only [hframed.columns old hold, hframed.columns new hnew]

variable {runnerName ordererName : String}

theorem renameConfirmations_eq (hnames : Disjoint ({runnerName, "runner_confirmed_at"} :
    Finset String) {ordererName, "orderer_confirmed_at"}) (R : SqlTable) :
    renameConfirmations runnerName ordererName R =
      Redo.run ((confirmationSteps runnerName ordererName).map TableStep.toStep) R := by
  change (TableStep.renameIf runnerName "runner_confirmed_at" : SqlStep).run R >>=
      (fun R₁ => renameUnlessThere R.columns ordererName "orderer_confirmed_at" R₁ >>=
        (TableStep.dropIf "settled_at" : SqlStep).run) =
    (TableStep.renameIf runnerName "runner_confirmed_at" : SqlStep).run R >>=
      (fun R₁ => (TableStep.renameIf ordererName "orderer_confirmed_at" : SqlStep).run R₁ >>=
        fun R₂ => (TableStep.dropIf "settled_at" : SqlStep).run R₂ >>= pure)
  simp only [bind_pure]
  refine bind_congr_of_ok fun R₁ h₁ => ?_
  rw [renameUnlessThere_eq h₁ hnames]

theorem restoreConfirmations_eq (hnames : Disjoint ({"runner_confirmed_at", runnerName} :
    Finset String) {"orderer_confirmed_at", ordererName}) (R : SqlTable) :
    restoreConfirmations runnerName ordererName R =
      Redo.run ((confirmationStepsBack runnerName ordererName).map TableStep.toStep) R := by
  change (TableStep.addIf "settled_at" : SqlStep).run R >>= (fun R₁ =>
      (TableStep.renameIf "runner_confirmed_at" runnerName : SqlStep).run R₁ >>=
        renameUnlessThere R₁.columns "orderer_confirmed_at" ordererName) =
    (TableStep.addIf "settled_at" : SqlStep).run R >>= (fun R₁ =>
      (TableStep.renameIf "runner_confirmed_at" runnerName : SqlStep).run R₁ >>= fun R₂ =>
        (TableStep.renameIf "orderer_confirmed_at" ordererName : SqlStep).run R₂ >>= pure)
  simp only [bind_pure]
  exact bind_congr_of_ok fun R₁ _ => bind_congr_of_ok fun R₂ h₂ => renameUnlessThere_eq h₂ hnames

theorem when_hasTable_eq_map (t : String) (ps : List SqlTableStep) (db : SqlDatabase) :
    when (db.hasTable t) (fun db => db.alter t (Redo.run ps)) db =
      Redo.run (ps.map (onTable false t)) db := by
  unfold when
  split
  · next h => exact (run_map_onTable_of_hasTable h ps).symm
  · next h => exact (run_map_onTable_of_not_hasTable (Bool.eq_false_iff.2 h) ps).symm

theorem when_hasTable_eq (t : String) (ps : List SqlStep) (db : SqlDatabase) :
    when (db.hasTable t) (fun db => db.alter t (Redo.run (ps.map TableStep.toStep))) db =
      Redo.run (onTables false (ps.map fun p => (t, p))) db := by
  rw [when_hasTable_eq_map, onTables_map]

theorem upgrade0017_eq_run (db : SqlDatabase) :
    upgrade0017 db = Redo.run (onTables false statements0017) db := by
  unfold upgrade0017
  rw [statements0017, onTables_append, Redo.run_append,
    funext (@renameConfirmations_eq "delivery_completed_at" "receipt_confirmed_at" (by decide)),
    funext (@renameConfirmations_eq "delivery_reported_at" "received_confirmed_at" (by decide)),
    when_hasTable_eq]
  exact congrArg _ (funext fun db => when_hasTable_eq "proposals" _ db)

theorem downgrade0017_eq_run (db : SqlDatabase) :
    downgrade0017 db = Redo.run (onTables false statementsBack0017) db := by
  unfold downgrade0017
  rw [statementsBack0017, onTables_append, Redo.run_append,
    funext (@restoreConfirmations_eq "delivery_completed_at" "receipt_confirmed_at" (by decide)),
    funext (@restoreConfirmations_eq "delivery_reported_at" "received_confirmed_at" (by decide)),
    when_hasTable_eq]
  exact congrArg _ (funext fun db => when_hasTable_eq "offers" _ db)

/-! ## 0011 -/

/-- `CREATE INDEX`, for each index that is not there. -/
def createIndexSteps (indexes : List (String × String)) : List SqlTableStep :=
  indexes.map fun i => TableStep.createIndexIf i.1 [i.2] (List.cons_ne_nil _ _)

/-- `DROP INDEX`, for each index that is there. -/
def dropIndexSteps (indexes : List (String × String)) : List SqlStep :=
  indexes.map fun i => .dropIndexIf i.1

/-- The index of the answers. -/
def answerIndex : String × String := ("idx_proofs_survey_question_id", "survey_question_id")

def answerSteps : List SqlTableStep :=
  [(.addIf "survey_question_id" : SqlStep)].map TableStep.toStep ++ createIndexSteps [answerIndex]

def answerStepsBack : List SqlStep :=
  [.dropIndexIf answerIndex.1, .dropIf "survey_question_id"]

def steps0011 : List MigrationStep := answerSteps.map (onTable true "proofs")

def statementsBack0011 : List (String × SqlStep) := answerStepsBack.map fun p => ("proofs", p)

theorem upgrade0011_eq_run (db : SqlDatabase) : upgrade0011 db = Redo.run steps0011 db := by
  change _ = db.alter "proofs" (TableStep.addIf "survey_question_id" : SqlStep).run >>= fun db =>
    db.alter "proofs" (createIndexIfMissing "idx_proofs_survey_question_id"
      ["survey_question_id"]) >>= pure
  simp only [bind_pure]
  refine bind_congr_of_ok fun db₁ h₁ => ?_
  obtain ⟨R, -, R', -, rfl⟩ := alter_eq_ok.1 h₁
  have hR' : (db.write "proofs" (some R')).tables "proofs" = some R' := rfl
  exact createIndex_eq hR' _ _

/-- A test that looks at a table that need not be there. -/
theorem when_alter_eq {P : Prop} [Decidable P] {guard : SqlTable → Prop} [DecidablePred guard]
    {statement : SqlTable → Sql SqlTable} {t : String} {db : SqlDatabase} {p : SqlTableStep}
    (hp : p.run = fun R => if guard R then statement R else .ok R)
    (hsome : ∀ R, db.tables t = some R → (P ↔ guard R)) (hnone : db.tables t = none → ¬ P) :
    when P (fun db => db.alter t statement) db = (onTable false t p).run db := by
  unfold when
  cases hR : db.tables t with
  | none => exact (if_neg (hnone hR)).trans (if_neg (by simp [hasTable, hR])).symm
  | some R =>
      rw [run_onTable_of_hasTable (hasTable_eq_true hR), hp]
      by_cases hguard : guard R
      · rw [if_pos ((hsome R hR).2 hguard)]
        refine alter_congr fun R' hR' => ?_
        obtain rfl := Option.some.inj (hR.symm.trans hR')
        exact (if_pos hguard).symm
      · rw [if_neg fun h => hguard ((hsome R hR).1 h)]
        exact (alter_self hR (if_neg hguard)).symm

theorem downgrade0011_eq_run (db : SqlDatabase) :
    downgrade0011 db = Redo.run (onTables false statementsBack0011) db := by
  have hindex : ∀ db : SqlDatabase, when (db.hasIndex "proofs" "idx_proofs_survey_question_id")
      (fun db => db.alter "proofs" (dropIndex "idx_proofs_survey_question_id")) db =
      (onTable false "proofs" (TableStep.dropIndexIf answerIndex.1 : SqlStep).toStep).run db :=
    fun db => when_alter_eq rfl (fun R hR => by simp [hasIndex, hR, answerIndex])
      fun hnone => by simp [hasIndex, hnone]
  have hcolumn : ∀ db : SqlDatabase, when ("survey_question_id" ∈ db.columnNames "proofs")
      (fun db => db.alter "proofs" (dropColumn "survey_question_id")) db =
      (onTable false "proofs" (TableStep.dropIf "survey_question_id" : SqlStep).toStep).run db :=
    fun db => when_alter_eq rfl (fun R hR => by simp [columnNames, hR])
      fun hnone => by simp [columnNames, hnone]
  change _ = (onTable false "proofs" _).run db >>= fun db => (onTable false "proofs" _).run db >>=
    pure
  simp only [bind_pure]
  rw [← hindex, ← funext hcolumn]
  rfl

/-! ## 0016 -/

/-- The rows that are no disputes. -/
def isOther (proofType : Option SqlValue) : Bool :=
  proofType.isNone || proofType ≠ some (.text "DISPUTE")

/-- From a proof to an evidence. -/
def evidenceSteps : List SqlStep :=
  [.dropIf "proof_type", .dropIf "image_url", .fillIf "reason" (.text ""), .notNullIf "reason",
    .fillIf "survey_question_id" (.int 0), .notNullIf "survey_question_id"]

/-- From an evidence to a proof. -/
def proofSteps : List SqlStep :=
  [.addDefaultIf "proof_type" (.text "DISPUTE"), .addIf "image_url", .nullableIf "reason",
    .nullableIf "survey_question_id"]

/-- All that is done to the table of the evidences: its indexes get other names. -/
def evidenceScript : List SqlTableStep :=
  (dropIndexSteps proofIndexes ++ evidenceSteps).map TableStep.toStep ++
    createIndexSteps evidenceIndexes

/-- What is done to the table of the proofs, after the columns. -/
def proofScript : List SqlTableStep :=
  (dropIndexSteps evidenceIndexes).map TableStep.toStep ++ createIndexSteps proofIndexes

def steps0016 : List MigrationStep :=
  onTables false [("proofs", .deleteIf "proof_type" isOther)] ++
    renameTableIf "proofs" "dispute_evidences" ::
      evidenceScript.map (onTable false "dispute_evidences")

def stepsBack0016 : List MigrationStep :=
  onTables false (proofSteps.map fun p => ("dispute_evidences", p)) ++
    renameTableIf "dispute_evidences" "proofs" :: proofScript.map (onTable false "proofs")

theorem fillColumnIfExists_eq (c : String) (v : SqlValue) (R : SqlTable) :
    fillColumnIfExists c v R =
      (TableStep.fillIf c v : SqlStep).run R >>= (TableStep.notNullIf c : SqlStep).run := by
  change _ = (if c ∈ R.columns then R.update c (fun r => (r.cells c).isNone) fun _ => some v
    else .ok R) >>= fun R => if c ∈ R.columns then R.setNotNull c else .ok R
  unfold fillColumnIfExists when
  by_cases hc : c ∈ R.columns
  · rw [if_pos hc, if_pos hc]
    refine bind_congr_of_ok fun R' hR => (if_pos ?_).symm
    rwa [(update_exactly hR).columns_eq]
  · simp [Bind.bind, Except.bind, hc]

/-- What is done to the table of the evidences. -/
theorem evidenceScript_eq (db : SqlDatabase) : (do
    let db ← db.alter "dispute_evidences" (dropIndexIfExists "ix_proofs_proposal_id")
    let db ← db.alter "dispute_evidences" (dropIndexIfExists "ix_proofs_offer_id")
    let db ← db.alter "dispute_evidences" (dropIndexIfExists "ix_proofs_proof_type")
    let db ← db.alter "dispute_evidences" (dropIndexIfExists "idx_proofs_survey_question_id")
    let db ← db.alter "dispute_evidences" (dropColumnIfExists "proof_type")
    let db ← db.alter "dispute_evidences" (dropColumnIfExists "image_url")
    let db ← db.alter "dispute_evidences" (fillColumnIfExists "reason" (.text ""))
    let db ← db.alter "dispute_evidences" (fillColumnIfExists "survey_question_id" (.int 0))
    let db ← db.alter "dispute_evidences"
      (createIndexIfMissing "ix_dispute_evidences_proposal_id" ["proposal_id"])
    let db ← db.alter "dispute_evidences"
      (createIndexIfMissing "ix_dispute_evidences_offer_id" ["offer_id"])
    let db ← db.alter "dispute_evidences"
      (createIndexIfMissing "ix_dispute_evidences_actor_id" ["actor_id"])
    db.alter "dispute_evidences"
      (createIndexIfMissing "idx_dispute_evidences_survey_question_id" ["survey_question_id"])) =
      db.alter "dispute_evidences" (Redo.run evidenceScript) := by
  rw [funext (fillColumnIfExists_eq "reason" _), funext (fillColumnIfExists_eq _ _)]
  change _ = db.alter "dispute_evidences" fun R => Redo.run evidenceScript R
  simp only [evidenceScript, dropIndexSteps, createIndexSteps, proofIndexes, evidenceIndexes,
    evidenceSteps, List.map_cons, List.map_nil, List.cons_append, List.nil_append, Redo.run,
    List.foldlM_cons, List.foldlM_nil, bind_pure, alter_bind, bind_assoc]
  rfl

/-- What is done to the table of the proofs. -/
theorem proofScript_eq (db : SqlDatabase) : (do
    let db ← db.alter "proofs" (dropIndexIfExists "ix_dispute_evidences_proposal_id")
    let db ← db.alter "proofs" (dropIndexIfExists "ix_dispute_evidences_offer_id")
    let db ← db.alter "proofs" (dropIndexIfExists "ix_dispute_evidences_actor_id")
    let db ← db.alter "proofs" (dropIndexIfExists "idx_dispute_evidences_survey_question_id")
    let db ← db.alter "proofs" (createIndexIfMissing "ix_proofs_proposal_id" ["proposal_id"])
    let db ← db.alter "proofs" (createIndexIfMissing "ix_proofs_offer_id" ["offer_id"])
    let db ← db.alter "proofs" (createIndexIfMissing "ix_proofs_proof_type" ["proof_type"])
    db.alter "proofs"
      (createIndexIfMissing "idx_proofs_survey_question_id" ["survey_question_id"])) =
      db.alter "proofs" (Redo.run proofScript) := by
  change _ = db.alter "proofs" fun R => Redo.run proofScript R
  simp only [proofScript, dropIndexSteps, createIndexSteps, proofIndexes, evidenceIndexes,
    List.map_cons, List.map_nil, List.cons_append, List.nil_append, Redo.run,
    List.foldlM_cons, List.foldlM_nil, bind_pure, alter_bind]
  rfl

/-- The rest of a migration, if there is the table for it. -/
theorem unless_hasTable_eq (t : String) (ps : List SqlTableStep) (db : SqlDatabase) :
    (if !db.hasTable t then .ok db else db.alter t (Redo.run ps)) =
      Redo.run (ps.map (onTable false t)) db := by
  rw [← when_hasTable_eq_map]
  unfold when
  cases db.hasTable t <;> rfl

/-- After its changes the table gets another name, if that is free. -/
theorem when_renameTable_eq (t new : String) (ps : List SqlStep) (db : SqlDatabase) :
    when (db.hasTable t) (fun db => do
      let db ← db.alter t (Redo.run (ps.map TableStep.toStep))
      when (!db.hasTable new) (fun db => db.renameTable t new) db) db =
      Redo.run (onTables false (ps.map fun p => (t, p))) db >>= (renameTableIf t new).run := by
  rw [← when_hasTable_eq]
  unfold when
  split
  · next ht =>
      beta_reduce
      cases hrun : db.alter t (Redo.run (ps.map TableStep.toStep)) with
      | error e => rfl
      | ok db' =>
          have ht' : db'.hasTable t = true := (hasTable_alter hrun t).trans ht
          change (if !db'.hasTable new then db'.renameTable t new else .ok db') =
            if db'.hasTable t ∧ ¬ db'.hasTable new then db'.renameTable t new else .ok db'
          cases hnew : db'.hasTable new <;> simp [ht']
  · next ht => exact (if_neg fun hguard => ht hguard.1).symm

theorem upgrade0016_eq_run (db : SqlDatabase) :
    upgrade0016 db = Redo.run steps0016 db := by
  have hdelete : deleteOtherProofs =
      Redo.run (([.deleteIf "proof_type" isOther] : List SqlStep).map TableStep.toStep) :=
    funext fun R => (bind_pure (deleteOtherProofs R)).symm
  unfold upgrade0016
  simp only [evidenceScript_eq, unless_hasTable_eq]
  rw [hdelete, when_renameTable_eq, bind_assoc, steps0016, Redo.run_append]
  rfl

/-- The columns are read before the first statement; what comes before a statement is about
other columns than its own. -/
theorem restoreProof_eq (R : SqlTable) :
    restoreProof R = Redo.run (proofSteps.map TableStep.toStep) R := by
  change (TableStep.addDefaultIf "proof_type" (.text "DISPUTE") : SqlStep).run R >>= (fun R₁ =>
      when ("image_url" ∉ R.columns) (addColumn "image_url") R₁ >>= fun R₂ =>
        when ("reason" ∈ R.columns) (setNullable "reason") R₂ >>= fun R₃ =>
          when ("survey_question_id" ∈ R.columns) (setNullable "survey_question_id") R₃) =
    (TableStep.addDefaultIf "proof_type" (.text "DISPUTE") : SqlStep).run R >>= (fun R₁ =>
      when ("image_url" ∉ R₁.columns) (addColumn "image_url") R₁ >>= fun R₂ =>
        when ("reason" ∈ R₂.columns) (setNullable "reason") R₂ >>= fun R₃ =>
          when ("survey_question_id" ∈ R₃.columns) (setNullable "survey_question_id") R₃ >>=
            pure)
  simp only [bind_pure]
  refine bind_congr_of_ok fun R₁ h₁ => ?_
  have hcolumns₁ : ∀ c ∉ ({"proof_type"} : Finset String), (c ∈ R₁.columns ↔ c ∈ R.columns) :=
    (TableStep.framed _ h₁).columns
  simp only [← hcolumns₁ "image_url" (by decide), ← hcolumns₁ "reason" (by decide),
    ← hcolumns₁ "survey_question_id" (by decide)]
  refine bind_congr_of_ok fun R₂ h₂ => ?_
  have hcolumns₂ : ∀ c ∉ ({"image_url"} : Finset String), (c ∈ R₂.columns ↔ c ∈ R₁.columns) :=
    ((TableStep.addIf "image_url" : SqlStep).framed h₂).columns
  simp only [← hcolumns₂ "reason" (by decide), ← hcolumns₂ "survey_question_id" (by decide)]
  refine bind_congr_of_ok fun R₃ h₃ => ?_
  have hcolumns₃ : ∀ c ∉ ({"reason"} : Finset String), (c ∈ R₃.columns ↔ c ∈ R₂.columns) :=
    ((TableStep.nullableIf "reason" : SqlStep).framed h₃).columns
  simp only [← hcolumns₃ "survey_question_id" (by decide)]

theorem downgrade0016_eq_run (db : SqlDatabase) :
    downgrade0016 db = Redo.run stepsBack0016 db := by
  unfold downgrade0016
  simp only [proofScript_eq, unless_hasTable_eq]
  rw [funext restoreProof_eq, when_renameTable_eq, bind_assoc, stepsBack0016, Redo.run_append]
  rfl

/-! ## Nothing is undone -/

theorem lasting_confirmationSteps : TableStep.Lasting
      (confirmationSteps "delivery_completed_at" "receipt_confirmed_at") ∧
    TableStep.Lasting (confirmationSteps "delivery_reported_at" "received_confirmed_at") ∧
    TableStep.Lasting (confirmationStepsBack "delivery_completed_at" "receipt_confirmed_at") ∧
    TableStep.Lasting (confirmationStepsBack "delivery_reported_at" "received_confirmed_at") := by
  refine ⟨?_, ?_, ?_, ?_⟩ <;> exact TableStep.lasting_of_disjoint (by decide +kernel)

theorem lasting_proofSteps : TableStep.Lasting proofSteps :=
  TableStep.lasting_of_disjoint (by decide +kernel)

theorem lasting_evidenceSteps : TableStep.Lasting evidenceSteps := by
  have hfill : ∀ (c : String) (v : SqlValue),
      TableStep.Lasting ([.fillIf c v, .notNullIf c] : List SqlStep) :=
    fun c v => List.pairwise_pair.2 (TableStep.notNullIf_spares_fillIf v)
  have hdrop : TableStep.Lasting ([.dropIf "proof_type", .dropIf "image_url"] : List SqlStep) :=
    TableStep.lasting_of_disjoint (by decide +kernel)
  exact TableStep.lasting_append hdrop
    (TableStep.lasting_append (hfill "reason" (.text "")) (hfill "survey_question_id" (.int 0))
      (by decide +kernel)) (by decide +kernel)

/-- New indexes come last and undo nothing. -/
theorem lasting_createIndexSteps {ps : List SqlStep} {indexes : List (String × String)}
    (hps : TableStep.Lasting ps) (hnames : ∀ p ∈ ps, ∀ i ∈ indexes, i.1 ∉ p.names) :
    Redo.Lasting (ps.map TableStep.toStep ++ createIndexSteps indexes) := by
  refine List.pairwise_append.2 ⟨List.pairwise_map.2 hps,
    List.pairwise_map.2 (List.pairwise_of_forall fun _ _ =>
      TableStep.createIndexIf_spares_createIndexIf), fun p hp q hq => ?_⟩
  obtain ⟨s, hs, rfl⟩ := List.mem_map.1 hp
  obtain ⟨i, hi, rfl⟩ := List.mem_map.1 hq
  exact TableStep.createIndexIf_spares (hnames s hs i hi)

theorem lasting_answerSteps : Redo.Lasting answerSteps :=
  lasting_createIndexSteps (List.pairwise_singleton _ _) (by decide +kernel)

theorem lasting_statementsBack0011 : Redo.Lasting (onTables false statementsBack0011) :=
  lasting_onTable (TableStep.lasting_of_disjoint (by decide +kernel)) "proofs"

theorem lasting_evidenceScript : Redo.Lasting evidenceScript :=
  lasting_createIndexSteps (TableStep.lasting_append
    (TableStep.lasting_of_disjoint (by decide +kernel)) lasting_evidenceSteps
    (by decide +kernel)) (by decide +kernel)

theorem lasting_proofScript : Redo.Lasting proofScript :=
  lasting_createIndexSteps (TableStep.lasting_of_disjoint (by decide +kernel)) (by decide +kernel)

/-- A table has its statements, gets another name, and the table of that name has its own. -/
theorem lasting_renamed {old new : String} (hne : old ≠ new) {ps : List SqlStep}
    {qs : List SqlTableStep} (hps : TableStep.Lasting ps) (hqs : Redo.Lasting qs) :
    Redo.Lasting (onTables false (ps.map fun p => (old, p)) ++
      renameTableIf old new :: qs.map (onTable false new)) := by
  refine List.pairwise_append.2 ⟨lasting_onTable hps old,
    List.pairwise_cons.2 ⟨fun q hq => ?_, lasting_map_onTable hqs new⟩, fun p hp q hq => ?_⟩
  · obtain ⟨s, -, rfl⟩ := List.mem_map.1 hq
    exact onTable_spares_renameTableIf
  · rw [onTables_map] at hp
    obtain ⟨s, -, rfl⟩ := List.mem_map.1 hp
    rcases List.mem_cons.1 hq with rfl | hq
    · exact renameTableIf_spares_onTable hne
    · obtain ⟨r, -, rfl⟩ := List.mem_map.1 hq
      exact onTable_spares fun he => absurd he hne

theorem lasting_steps0016 : Redo.Lasting steps0016 :=
  @lasting_renamed _ _ (by decide) [.deleteIf "proof_type" isOther] _
    (List.pairwise_singleton _ _) lasting_evidenceScript

theorem lasting_stepsBack0016 : Redo.Lasting stepsBack0016 :=
  lasting_renamed (by decide) lasting_proofSteps lasting_proofScript

/-! ## Every migration -/

namespace Revision

def upgradeSteps (dialect : String) : Revision → List MigrationStep
  | .r0009 => onTables true (statements0009 dialect)
  | .r0011 => steps0011
  | .r0016 => steps0016
  | .r0017 => onTables false statements0017

def downgradeSteps (dialect : String) : Revision → List MigrationStep
  | .r0009 => onTables true (statementsBack0009 dialect)
  | .r0011 => onTables false statementsBack0011
  | .r0016 => stepsBack0016
  | .r0017 => onTables false statementsBack0017

variable (rev : Revision) (dialect : String) (db : SqlDatabase)

theorem upgrade_eq_run : rev.upgrade dialect db = Redo.run (rev.upgradeSteps dialect) db :=
  match rev with
  | .r0009 => upgrade0009_eq_run dialect db
  | .r0011 => upgrade0011_eq_run db
  | .r0016 => upgrade0016_eq_run db
  | .r0017 => upgrade0017_eq_run db

theorem downgrade_eq_run : rev.downgrade dialect db = Redo.run (rev.downgradeSteps dialect) db :=
  match rev with
  | .r0009 => downgrade0009_eq_run dialect db
  | .r0011 => downgrade0011_eq_run db
  | .r0016 => downgrade0016_eq_run db
  | .r0017 => downgrade0017_eq_run db

theorem lasting_upgradeSteps : Redo.Lasting (rev.upgradeSteps dialect) :=
  match rev with
  | .r0009 => lasting_statements0009 dialect
  | .r0011 => lasting_map_onTable lasting_answerSteps "proofs"
  | .r0016 => lasting_steps0016
  | .r0017 => lasting_onTable_onTable (by decide) lasting_confirmationSteps.1
      lasting_confirmationSteps.2.1

theorem lasting_downgradeSteps : Redo.Lasting (rev.downgradeSteps dialect) :=
  match rev with
  | .r0009 => lasting_statementsBack0009 dialect
  | .r0011 => lasting_statementsBack0011
  | .r0016 => lasting_stepsBack0016
  | .r0017 => lasting_onTable_onTable (by decide) lasting_confirmationSteps.2.2.2
      lasting_confirmationSteps.2.2.1

end Revision

/-- **Wherever and however often it is stopped**, a migration that is started again ends as it
would have ended at the first attempt: with the same database, or refused for the same reason.
That holds in both directions, and also of a migration that is finished and started again. -/
theorem restarts_finish (rev : Revision) (dialect : String) (db : SqlDatabase) :
    (rev.upgrade dialect db = Redo.run (rev.upgradeSteps dialect) db ∧
      ∀ db₁, Relation.ReflTransGen (Redo.Stopped (rev.upgradeSteps dialect)) db db₁ →
        rev.upgrade dialect db₁ = rev.upgrade dialect db) ∧
      rev.downgrade dialect db = Redo.run (rev.downgradeSteps dialect) db ∧
        ∀ db₁, Relation.ReflTransGen (Redo.Stopped (rev.downgradeSteps dialect)) db db₁ →
          rev.downgrade dialect db₁ = rev.downgrade dialect db := by
  refine ⟨⟨rev.upgrade_eq_run dialect db, fun db₁ hattempts => ?_⟩,
    rev.downgrade_eq_run dialect db, fun db₁ hattempts => ?_⟩
  · rw [rev.upgrade_eq_run, rev.upgrade_eq_run]
    exact Redo.run_of_attempts (rev.lasting_upgradeSteps dialect) hattempts
  · rw [rev.downgrade_eq_run, rev.downgrade_eq_run]
    exact Redo.run_of_attempts (rev.lasting_downgradeSteps dialect) hattempts

namespace Sample

/-- There are offers, with the old names of their confirmations. -/
def oldOffers : SqlTable :=
  Relation.create [⟨"delivery_completed_at", true⟩, ⟨"receipt_confirmed_at", true⟩]

def beforeRenames : SqlDatabase where
  tables := fun t => if t = "offers" then some oldOffers else none

end Sample

/-- The upgrade is stopped between its first two statements. -/
theorem restarts_finish_halfway : ∃ db₁, "runner_confirmed_at" ∈ db₁.columnNames "offers" ∧
    "receipt_confirmed_at" ∈ db₁.columnNames "offers" ∧
      Revision.r0017.upgrade "mysql" db₁ = Revision.r0017.upgrade "mysql" Sample.beforeRenames := by
  have hguard : "delivery_completed_at" ∈ Sample.oldOffers.columns ∧
      "runner_confirmed_at" ∉ Sample.oldOffers.columns := by decide
  obtain ⟨R, hR, hcolumns, -⟩ := renameColumn_gives hguard.1 hguard.2
  have hstep : (TableStep.renameIf "delivery_completed_at" "runner_confirmed_at" : SqlStep).run
      Sample.oldOffers = .ok R := (TableStep.run_renameIf hguard.1 hguard.2).trans hR
  have hran : (onTable false "offers" (TableStep.renameIf "delivery_completed_at"
      "runner_confirmed_at" : SqlStep).toStep).run Sample.beforeRenames =
      .ok (Sample.beforeRenames.write "offers" (some R)) :=
    (run_onTable_of_hasTable rfl).trans (alter_eq_ok.2 ⟨Sample.oldOffers, rfl, R, hstep, rfl⟩)
  refine ⟨Sample.beforeRenames.write "offers" (some R), ?_, ?_,
    (restarts_finish .r0017 "mysql" Sample.beforeRenames).1.2 _ (.single
      ⟨[_], _, rfl, Redo.run_cons_eq_ok.2 ⟨_, hran, rfl⟩⟩)⟩
  · change "runner_confirmed_at" ∈ R.columns
    rw [hcolumns]
    decide
  · change "receipt_confirmed_at" ∈ R.columns
    rw [hcolumns]
    decide

end Migrations

end OrderRun
