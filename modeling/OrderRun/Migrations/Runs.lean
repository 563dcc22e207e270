import OrderRun.Migrations.Evidences

/-!
# The migrations on the whole database

Each migration is a script of statements on several tables, so what it does to a table is
what its statements on that table do, one after the other.

* `HoldsMissions` — a database before the migrations: the missions, and the two tables that
  take over from them.
* `Stage` — a database between two migrations.
* `upgrade0006_gives`, `upgrade0009_gives`, `upgrade0011_gives`, `upgrade0016_gives`,
  `upgrade0017_gives` — from stage to stage.
* `upgrades_gives`, `enumerated_of_upgrades` — all five: what they give, and when MySQL lets
  them through.
-/

namespace OrderRun

open Store Store.Relation Store.Database

namespace Migrations

/-- A database before the migrations. -/
structure HoldsMissions (db : SqlDatabase) (missions : SqlTable) (heir : Heir → SqlTable) :
    Prop where
  missions_eq : db.tables "missions" = some missions
  heir_eq : ∀ h : Heir, db.tables h.table = some (heir h)
  columns : HasMissionColumns missions
  /-- `uk_proposal_id`, `uk_offer_id`. -/
  unique : ∀ h : Heir, ∀ m ∈ missions.rows, ∀ m' ∈ missions.rows,
    m.cells h.key = m'.cells h.key → m.id = m'.id
  status : ∀ h : Heir, "status" ∈ (heir h).columns
  no_proofs : db.tables "proofs" = none
  no_evidences : db.tables "dispute_evidences" = none

/-- A database between the migrations: the two tables have these columns, `f` has been applied
to their rows, and `proofs` is as it should be. -/
structure Stage (heir : Heir → SqlTable) (columns : Heir → Finset String)
    (f : Heir → SqlRow → SqlRow) (proofs : SqlTable → Prop) (db : SqlDatabase) : Prop where
  altered : ∀ h : Heir, ∃ R, db.tables h.table = some R ∧ Altered (heir h) (columns h) (f h) R
  proofs_eq : ∃ F, db.tables "proofs" = some F ∧ proofs F
  no_evidences : db.tables "dispute_evidences" = none

variable {db db' : SqlDatabase} {missions : SqlTable} {heir : Heir → SqlTable}

/-! ## 0006 -/

theorem fromMissions_eq (hmissions : db.tables "missions" = some missions) (table : String)
    (change : SqlTable → SqlTable → Sql SqlTable) :
    fromMissions table change db = db.alter table (change missions) := by
  rw [fromMissions, find_eq_ok.2 hmissions]
  rfl

/-- Statements that read the missions all read the same ones, as long as none of them
writes to `missions`. -/
theorem run_fromMissions (hmissions : db.tables "missions" = some missions)
    {steps : List (String × (SqlTable → SqlTable → Sql SqlTable))}
    (hsteps : ∀ s ∈ steps, s.1 ≠ "missions") :
    steps.foldlM (fun db s => fromMissions s.1 s.2 db) db =
      db.run (steps.map fun s => ⟨s.1, s.2 missions⟩) := by
  induction steps generalizing db with
  | nil => rfl
  | cons s steps ih =>
      rw [List.map_cons, run, List.foldlM_cons, List.foldlM_cons, fromMissions_eq hmissions]
      cases halter : db.alter s.1 (s.2 missions) with
      | error e => rfl
      | ok db₁ =>
          obtain ⟨R, -, R', -, rfl⟩ := alter_eq_ok.1 halter
          refine ih ?_ fun s' hs' => hsteps s' (List.mem_cons_of_mem _ hs')
          rw [tables_write, if_neg fun h => hsteps s List.mem_cons_self h.symm]
          exact hmissions

/-- The statements of `migrateMissionData`. -/
def missionSteps : List (String × (SqlTable → SqlTable → Sql SqlTable)) :=
  [("proposals", copyStamp "matched_at" "proposal_id" "created_at" false),
    ("offers", copyStamp "accepted_at" "offer_id" "created_at" false),
    ("proposals", copyStamp "delivery_reported_at" "proposal_id" "delivery_completed_at" true),
    ("offers", copyStamp "delivery_completed_at" "offer_id" "delivery_completed_at" true),
    ("proposals", copyStamp "received_confirmed_at" "proposal_id" "received_confirmed_at" true),
    ("offers", copyStamp "receipt_confirmed_at" "offer_id" "received_confirmed_at" true),
    ("proposals", copyStamp "settled_at" "proposal_id" "settled_at" true),
    ("offers", copyStamp "settled_at" "offer_id" "settled_at" true),
    ("proofs", insertDeliveryProofs), ("proofs", insertDisputeProofs)]

theorem migrateMissionData_eq (hmissions : db.tables "missions" = some missions)
    (hcolumns : HasMissionColumns missions) :
    migrateMissionData db = db.run (missionSteps.map fun s => ⟨s.1, s.2 missions⟩) := by
  have hsteps : ∀ s ∈ missionSteps, s.1 ≠ "missions" := by
    simp [missionSteps]
  have htable : db.hasTable "missions" = true := hasTable_eq_true hmissions
  have hnames : db.columnNames "missions" = missions.columns := by
    rw [columnNames, hmissions]
    rfl
  have hmem : ∀ {c}, c ∈ MISSION_COLUMNS.map Column.name → c ∈ missions.columns := hcolumns.mem
  have hrequired : {"proposal_id", "offer_id", "created_at"} ⊆ missions.columns := by
    simp only [Finset.insert_subset_iff, Finset.singleton_subset_iff]
    exact ⟨hmem (by decide), hmem (by decide), hmem (by decide)⟩
  have hdelivery : {"delivery_proof_image_url", "runner_id"} ⊆ missions.columns := by
    simp only [Finset.insert_subset_iff, Finset.singleton_subset_iff]
    exact ⟨hmem (by decide), hmem (by decide)⟩
  have hdispute : {"dispute_reason", "orderer_id", "updated_at"} ⊆ missions.columns := by
    simp only [Finset.insert_subset_iff, Finset.singleton_subset_iff]
    exact ⟨hmem (by decide), hmem (by decide), hmem (by decide)⟩
  have hdelivered : "delivery_completed_at" ∈ missions.columns := hmem (by decide)
  have hreceived : "received_confirmed_at" ∈ missions.columns := hmem (by decide)
  have hsettled : "settled_at" ∈ missions.columns := hmem (by decide)
  rw [← run_fromMissions hmissions hsteps]
  simp only [migrateMissionData, when, htable, hnames, hrequired, hdelivery, hdispute, hdelivered,
    hreceived, hsettled, missionSteps, List.foldlM_cons, List.foldlM_nil, bind_pure, bind_assoc,
    Bool.not_true, Bool.false_eq_true, not_true_eq_false, if_true, if_false]

/-- The statements of 0006 on the two tables and on `proofs`. -/
def script0006 (missions : SqlTable) : List (Statement String SqlValue) :=
  [⟨"proposals", addTimestampColumns PROPOSAL_TIMESTAMP_COLUMNS⟩,
    ⟨"offers", addTimestampColumns OFFER_TIMESTAMP_COLUMNS⟩] ++
    missionSteps.map fun s => ⟨s.1, s.2 missions⟩

theorem changesOf_script0006 (missions : SqlTable) (h : Heir) :
    changesOf (script0006 missions) h.table = h.changes0006 missions := by
  cases h <;> rfl

theorem changesOf_script0006_proofs (missions : SqlTable) :
    changesOf (script0006 missions) "proofs" =
      [insertDeliveryProofs missions, insertDisputeProofs missions] := rfl

theorem table_of_mem_script0006 {missions : SqlTable} {s : Statement String SqlValue}
    (hs : s ∈ script0006 missions) : (∃ h : Heir, s.table = h.table) ∨ s.table = "proofs" := by
  have hmem : s.table ∈ (script0006 missions).map Statement.table := List.mem_map_of_mem hs
  have hall : ∀ t ∈ ["proposals", "offers", "proposals", "offers", "proposals", "offers",
      "proposals", "offers", "proposals", "offers", "proofs", "proofs"],
      t = "proposals" ∨ t = "offers" ∨ t = "proofs" := by
    decide
  rcases hall _ hmem with h | h | h
  · exact Or.inl ⟨.proposals, h⟩
  · exact Or.inl ⟨.offers, h⟩
  · exact Or.inr h

theorem Heir.table_ne (h : Heir) :
    h.table ≠ "missions" ∧ h.table ≠ "proofs" ∧ h.table ≠ "dispute_evidences" := by
  cases h <;> decide

/-- The columns of the two tables after 0006. -/
def columns0006 (heir : Heir → SqlTable) (h : Heir) : Finset String :=
  (heir h).columns ∪ h.timestampColumns.toFinset

/-- After 0006 the two tables have what the missions left them, and `proofs` has the rest. -/
def After0006 (missions : SqlTable) (heir : Heir → SqlTable) : SqlDatabase → Prop :=
  Stage heir (columns0006 heir) (fun h => h.inherit missions) fun F =>
    HasProofColumns F ∧ F.contents = missionProofs missions

section Run0006

/-- A database with the table that 0006 creates first. -/
structure WithProofs (db db₀ : SqlDatabase) : Prop where
  proofs_eq : ∃ F, db₀.tables "proofs" = some F ∧ HasProofColumns F ∧ F.contents = []
  tables_eq : ∀ t ≠ "proofs", db₀.tables t = db.tables t

theorem createProofsTable_gives (hdb : HoldsMissions db missions heir) :
    Gives (createProofsTable db) (WithProofs db) := by
  have hproofs : ¬ db.hasTable "proofs" = true := by simp [hasTable, hdb.no_proofs]
  obtain ⟨F, hF, hcolumns, hcontents⟩ := proofIndexes0006_gives
  let db₁ := db.write "proofs" (some (Relation.create PROOF_COLUMNS))
  have hnew : db₁.tables "proofs" = some (Relation.create PROOF_COLUMNS) := rfl
  obtain ⟨db₀, hrun⟩ : ∃ db₀, db₁.run (proofIndexes0006.map fun change => ⟨"proofs", change⟩) =
      .ok db₀ := by
    refine exists_run fun s hs => ?_
    obtain ⟨change, -, rfl⟩ := List.mem_map.1 hs
    exact ⟨_, hnew, F, hF⟩
  obtain ⟨F', hF', hdb₀⟩ := runAll_of_run hrun hnew
  obtain rfl : F' = F := Except.ok.inj (hF'.symm.trans hF)
  refine ⟨db₀, ?_, ⟨F', hdb₀, hcolumns, hcontents⟩, fun t ht => ?_⟩
  · simp only [proofIndexes0006, run, List.map_cons, List.map_nil, List.foldlM_cons,
      List.foldlM_nil, bind_pure] at hrun
    rw [createProofsTable, if_neg hproofs, createTable, if_neg hproofs]
    exact hrun
  · refine (tables_of_run hrun fun s hs he => ?_).trans (if_neg ht)
    obtain ⟨change, -, rfl⟩ := List.mem_map.1 hs
    exact ht he.symm

variable {db₀ : SqlDatabase}

theorem HoldsMissions.heir_withProofs (hdb : HoldsMissions db missions heir)
    (h₀ : WithProofs db db₀) (h : Heir) : db₀.tables h.table = some (heir h) :=
  (h₀.tables_eq _ h.table_ne.2.1).trans (hdb.heir_eq h)

/-- None of the statements is refused. -/
theorem exists_run_script0006 (hdb : HoldsMissions db missions heir) (h₀ : WithProofs db db₀) :
    ∃ db₁, db₀.run (script0006 missions) = .ok db₁ := by
  refine exists_run fun s hs => ?_
  rcases table_of_mem_script0006 hs with ⟨h, hh⟩ | hh
  · obtain ⟨R, hR, -⟩ := h.changes0006_gives missions (heir h)
    rw [hh, changesOf_script0006]
    exact ⟨heir h, hdb.heir_withProofs h₀ h, R, hR⟩
  · obtain ⟨F₀, hF₀, hcolumns, hempty⟩ := h₀.proofs_eq
    obtain ⟨F, hF, -⟩ := insertProofs0006_gives hdb.columns hcolumns hempty
    rw [hh, changesOf_script0006_proofs]
    exact ⟨F₀, hF₀, F, hF⟩

variable {db₁ : SqlDatabase}

theorem tables_of_run_script0006 (h₀ : WithProofs db db₀)
    (hrun : db₀.run (script0006 missions) = .ok db₁) {t : String}
    (ht : t ∉ ["proposals", "offers", "proofs"]) : db₁.tables t = db.tables t := by
  have hproofs : t ≠ "proofs" := by
    rintro rfl
    exact ht (by decide)
  refine (tables_of_run hrun fun s hs he => ht ?_).trans (h₀.tables_eq t hproofs)
  rcases table_of_mem_script0006 hs with ⟨h, hh⟩ | hh
  · rw [← he, hh]
    cases h <;> decide
  · rw [← he, hh]
    decide

/-- 0006 is its script, between the creation of `proofs` and the end of `missions`. -/
theorem upgrade0006_eq_ok (hdb : HoldsMissions db missions heir)
    (hcreate : createProofsTable db = .ok db₀) (h₀ : WithProofs db db₀)
    (hrun : db₀.run (script0006 missions) = .ok db₁) :
    upgrade0006 db = .ok (db₁.write "missions" none) := by
  have hmissions : db₁.tables "missions" = some missions :=
    (tables_of_run_script0006 h₀ hrun (by decide)).trans hdb.missions_eq
  have hdrop : when (db₁.hasTable "missions") (fun db => db.dropTable "missions") db₁ =
      .ok (db₁.write "missions" none) := by
    simp [when, dropTable, hasTable_eq_true hmissions]
  rw [script0006, run_append, except_bind_eq_ok] at hrun
  obtain ⟨db₂, hadd, hsteps⟩ := hrun
  have hmissions₂ : db₂.tables "missions" = some missions := by
    rw [tables_of_run hadd (by simp), h₀.tables_eq _ (by decide)]
    exact hdb.missions_eq
  rw [← migrateMissionData_eq hmissions₂ hdb.columns] at hsteps
  simp only [run, List.foldlM_cons, List.foldlM_nil, bind_pure, except_bind_eq_ok] at hadd
  obtain ⟨db₃, hproposals, hoffers⟩ := hadd
  exact except_bind_eq_ok.2 ⟨db₀, hcreate, except_bind_eq_ok.2 ⟨db₃, hproposals,
    except_bind_eq_ok.2 ⟨db₂, hoffers, except_bind_eq_ok.2 ⟨db₁, hsteps, hdrop⟩⟩⟩⟩

theorem upgrade0006_gives (hdb : HoldsMissions db missions heir) :
    Gives (upgrade0006 db) (After0006 missions heir) := by
  obtain ⟨db₀, hcreate, h₀⟩ := createProofsTable_gives hdb
  obtain ⟨db₁, hrun⟩ := exists_run_script0006 hdb h₀
  rw [upgrade0006_eq_ok hdb hcreate h₀ hrun]
  refine gives_ok ⟨?_, ?_, ?_⟩
  · intro h
    obtain ⟨R, hR, hP⟩ := gives_of_run hrun (hdb.heir_withProofs h₀ h)
      (changesOf_script0006 missions h ▸ h.changes0006_gives missions (heir h))
    refine ⟨R, ?_, hP⟩
    rw [tables_write, if_neg h.table_ne.1]
    exact hR
  · obtain ⟨F₀, hF₀, hcolumns, hempty⟩ := h₀.proofs_eq
    obtain ⟨F, hF, hP⟩ := gives_of_run hrun hF₀
      (changesOf_script0006_proofs missions ▸
        insertProofs0006_gives hdb.columns hcolumns hempty)
    exact ⟨F, hF, hP⟩
  · rw [tables_write, if_neg (by decide), tables_of_run_script0006 h₀ hrun (by decide)]
    exact hdb.no_evidences

end Run0006

/-! ## 0009 -/

/-- The statements of 0009. -/
def script0009 (dialect : String) : List (Statement String SqlValue) :=
  [⟨"proposals", renameTimestampColumn "refunded_at" "resolved_at"⟩,
    ⟨"offers", renameTimestampColumn "refunded_at" "resolved_at"⟩] ++
  (if dialect = "mysql" then
    [⟨"proposals", alterMysqlEnum "status" PROPOSAL_STATUSES_WITH_REFUNDED⟩,
      ⟨"offers", alterMysqlEnum "status" OFFER_STATUSES_WITH_REFUNDED⟩]
  else []) ++
  [⟨"proposals", resolveRefunded⟩, ⟨"offers", resolveRefunded⟩] ++
  (if dialect = "mysql" then
    [⟨"proposals", alterMysqlEnum "status" PROPOSAL_STATUSES⟩,
      ⟨"offers", alterMysqlEnum "status" OFFER_STATUSES⟩]
  else [])

theorem upgrade0009_eq (dialect : String) (db : SqlDatabase) :
    upgrade0009 dialect db = db.run (script0009 dialect) := by
  have hpure : ∀ db : SqlDatabase, (.ok db : Sql SqlDatabase) = pure db := fun _ => rfl
  unfold upgrade0009 script0009 when
  split
  · simp only [run, List.cons_append, List.nil_append, List.foldlM_cons, List.foldlM_nil,
      bind_pure, bind_assoc]
  · simp only [run, List.cons_append, List.nil_append, List.append_nil, List.foldlM_cons,
      List.foldlM_nil, hpure, bind_pure, pure_bind]

theorem changesOf_script0009 (dialect : String) (h : Heir) :
    changesOf (script0009 dialect) h.table = h.changes0009 dialect := by
  unfold script0009 Heir.changes0009
  split <;> cases h <;> rfl

theorem table_of_mem_script0009 {dialect : String} {s : Statement String SqlValue}
    (hs : s ∈ script0009 dialect) : ∃ h : Heir, s.table = h.table := by
  have hmem : s.table ∈ (script0009 dialect).map Statement.table := List.mem_map_of_mem hs
  have hall : ∀ t ∈ (script0009 dialect).map Statement.table, t = "proposals" ∨ t = "offers" := by
    unfold script0009
    split <;> simp
  rcases hall _ hmem with h | h
  · exact ⟨.proposals, h⟩
  · exact ⟨.offers, h⟩

/-- The columns of the two tables after 0009. -/
def columnsAfter0009 (heir : Heir → SqlTable) (h : Heir) : Finset String :=
  columns0009 (columns0006 heir h)

/-- What 0006 has added is there, and so is what was there before. -/
theorem mem_columns0006 (hdb : HoldsMissions db missions heir) (h : Heir) :
    "refunded_at" ∈ columns0006 heir h ∧ "status" ∈ columns0006 heir h := by
  have hrefunded : "refunded_at" ∈ h.timestampColumns := by
    cases h <;> decide
  exact ⟨Finset.mem_union_right _ (List.mem_toFinset.2 hrefunded),
    Finset.mem_union_left _ (hdb.status h)⟩

def After0009 (missions : SqlTable) (heir : Heir → SqlTable) : SqlDatabase → Prop :=
  Stage heir (columnsAfter0009 heir) (fun h r => renamed (h.inherit missions r)) fun F =>
    HasProofColumns F ∧ F.contents = missionProofs missions

theorem upgrade0009_gives (hdb : HoldsMissions db missions heir) {dialect : String}
    (hlisted : dialect = "mysql" → ∀ h : Heir, h.Enumerated (heir h)) {db₁ : SqlDatabase}
    (h₁ : After0006 missions heir db₁) :
    Gives (upgrade0009 dialect db₁) (After0009 missions heir) := by
  have hgives : ∀ (h : Heir) (R : SqlTable),
      Altered (heir h) (columns0006 heir h) (h.inherit missions) R →
      Gives (R.runAll (h.changes0009 dialect)) (Altered R (columns0009 R.columns) renamed) := by
    intro h R hR
    obtain ⟨hrefunded, hstatus⟩ := mem_columns0006 hdb h
    rw [← hR.columns_eq] at hrefunded hstatus
    exact Heir.changes0009_gives hrefunded hstatus fun hmysql =>
      (Heir.enumerated_inherit hR).2 (hlisted hmysql h)
  obtain ⟨db₂, hrun⟩ : ∃ db₂, db₁.run (script0009 dialect) = .ok db₂ := by
    refine exists_run fun s hs => ?_
    obtain ⟨h, hh⟩ := table_of_mem_script0009 hs
    obtain ⟨R, hR, hP⟩ := h₁.altered h
    obtain ⟨S, hS, -⟩ := hgives h R hP
    rw [hh, changesOf_script0009]
    exact ⟨R, hR, S, hS⟩
  have hother : ∀ {t}, (∀ h : Heir, h.table ≠ t) → db₂.tables t = db₁.tables t := by
    intro t ht
    refine tables_of_run hrun fun s hs he => ?_
    obtain ⟨h, hh⟩ := table_of_mem_script0009 hs
    exact ht h (hh.symm.trans he)
  rw [upgrade0009_eq, hrun]
  refine gives_ok ⟨?_, ?_, ?_⟩
  · intro h
    obtain ⟨R, hR, hP⟩ := h₁.altered h
    obtain ⟨S, hS, hQ⟩ := gives_of_run hrun hR (changesOf_script0009 dialect h ▸ hgives h R hP)
    rw [hP.columns_eq] at hQ
    exact ⟨S, hS, hP.trans hQ⟩
  · rw [hother fun h => h.table_ne.2.1]
    exact h₁.proofs_eq
  · rw [hother fun h => h.table_ne.2.2]
    exact h₁.no_evidences

/-- On MySQL the migrations go through only if every status is listed. -/
theorem enumerated_of_upgrade0009 (hdb : HoldsMissions db missions heir) {db₁ db₂ : SqlDatabase}
    (h₁ : After0006 missions heir db₁) (hrun : upgrade0009 "mysql" db₁ = .ok db₂) (h : Heir) :
    h.Enumerated (heir h) := by
  rw [upgrade0009_eq] at hrun
  obtain ⟨R, hR, hP⟩ := h₁.altered h
  obtain ⟨S, hS, -⟩ := runAll_of_run hrun hR
  rw [changesOf_script0009] at hS
  have hrefunded := (mem_columns0006 hdb h).1
  rw [← hP.columns_eq] at hrefunded
  exact (Heir.enumerated_inherit hP).1 (Heir.enumerated_of_changes0009 hrefunded hS)

/-! ## 0011 and 0016 -/

def After0011 (missions : SqlTable) (heir : Heir → SqlTable) : SqlDatabase → Prop :=
  Stage heir (columnsAfter0009 heir) (fun h r => renamed (h.inherit missions r)) fun F =>
    (∀ c ∈ ["proposal_id", "offer_id", "actor_id", "proof_type", "image_url", "reason",
      "survey_question_id"], c ∈ F.columns) ∧ F.contents = missionProofs missions

theorem upgrade0011_gives {db₂ : SqlDatabase} (h₂ : After0009 missions heir db₂) :
    Gives (upgrade0011 db₂) (After0011 missions heir) := by
  obtain ⟨F, hF, hcolumns, hcontents⟩ := h₂.proofs_eq
  refine (alter_gives hF (addSurveyQuestionId_gives F)).bind fun db₃ h₃ => ?_
  obtain ⟨S, hS, rfl⟩ := h₃
  have hproofs : (db₂.write "proofs" (some S)).tables "proofs" = some S := rfl
  have hquestion : ∀ c ∈ ["survey_question_id"], c ∈ S.columns := by
    rw [hS.columns_eq]
    exact List.forall_mem_singleton.2 (Finset.mem_insert_self _ _)
  rw [createIndex_eq hproofs]
  refine (alter_gives hproofs (createIndexIfMissing_gives hquestion)).mono fun db₄ h₄ => ?_
  obtain ⟨S', hS', rfl⟩ := h₄
  refine ⟨fun h => ?_, ⟨S', rfl, fun c hc => ?_, ?_⟩, ?_⟩
  · rw [tables_write, if_neg h.table_ne.2.1, tables_write, if_neg h.table_ne.2.1]
    exact h₂.altered h
  · rw [hS'.columns_eq, hS.columns_eq, hcolumns.columns_eq]
    revert c
    decide
  · rw [← hcontents, contents, hS'.rows_eq, hS.rows_eq, List.map_id', List.map_id']
    rfl
  · rw [tables_write, if_neg (by decide), tables_write, if_neg (by decide)]
    exact h₂.no_evidences

/-- After 0016 `proofs` has become `dispute_evidences`. -/
structure After0016 (missions : SqlTable) (heir : Heir → SqlTable) (db : SqlDatabase) : Prop where
  altered : ∀ h : Heir, ∃ R, db.tables h.table = some R ∧
    Altered (heir h) (columnsAfter0009 heir h) (fun r => renamed (h.inherit missions r)) R
  evidences_eq : ∃ E, db.tables "dispute_evidences" = some E ∧ evidences E = disputesOf missions

/-- The statements of 0016 on `dispute_evidences`. -/
def script0016 : List (Statement String SqlValue) :=
  evidenceChanges.map fun change => ⟨"dispute_evidences", change⟩

theorem table_of_mem_script0016 {s : Statement String SqlValue} (hs : s ∈ script0016) :
    s.table = "dispute_evidences" := by
  obtain ⟨change, -, rfl⟩ := List.mem_map.1 hs
  rfl

/-- The deletion and the rename. -/
theorem renameProofs_eq_ok {db₃ : SqlDatabase} {F S : SqlTable}
    (hF : db₃.tables "proofs" = some F) (hnone : db₃.tables "dispute_evidences" = none)
    (hdelete : deleteOtherProofs F = .ok S) :
    when (db₃.hasTable "proofs") (fun db => do
      let db ← db.alter "proofs" deleteOtherProofs
      when (!db.hasTable "dispute_evidences")
        (fun db => db.renameTable "proofs" "dispute_evidences") db) db₃ =
      .ok (((db₃.write "proofs" (some S)).write "proofs" none).write "dispute_evidences"
        (some S)) := by
  have hproofs : db₃.hasTable "proofs" = true := hasTable_eq_true hF
  have hevidences : (db₃.write "proofs" (some S)).hasTable "dispute_evidences" = false :=
    hasTable_eq_false hnone
  have hfind : (db₃.write "proofs" (some S)).find "proofs" = .ok S := find_eq_ok.2 rfl
  rw [when, if_pos hproofs, except_bind_eq_ok]
  refine ⟨_, alter_eq_ok.2 ⟨F, hF, S, hdelete, rfl⟩, ?_⟩
  rw [when, hevidences, if_pos (by decide), renameTable, hfind, except_bind_eq_ok]
  exact ⟨S, rfl, by rw [hevidences]; rfl⟩

theorem upgrade0016_gives {db₃ : SqlDatabase} (h₃ : After0011 missions heir db₃) :
    Gives (upgrade0016 db₃) (After0016 missions heir) := by
  obtain ⟨F, hF, hcolumns, hcontents⟩ := h₃.proofs_eq
  obtain ⟨S, hdelete, hcolumnsS, hrows⟩ := deleteOtherProofs_gives (hcolumns _ (by decide))
  have hrename := renameProofs_eq_ok hF h₃.no_evidences hdelete
  let db₅ := ((db₃.write "proofs" (some S)).write "proofs" none).write "dispute_evidences" (some S)
  have htable : db₅.hasTable "dispute_evidences" = true := rfl
  have hS : db₅.tables "dispute_evidences" = some S := rfl
  obtain ⟨E, hE, C, hP⟩ := evidenceChanges_gives (R := S) (hcolumnsS ▸ hcolumns)
  obtain ⟨db₆, hrun⟩ : ∃ db₆, db₅.run script0016 = .ok db₆ := by
    refine exists_run fun s hs => ?_
    rw [table_of_mem_script0016 hs]
    exact ⟨S, hS, E, hE⟩
  obtain ⟨E', hE', hdb₆⟩ := runAll_of_run hrun hS
  obtain rfl : E' = E := Except.ok.inj (hE'.symm.trans hE)
  have hother : ∀ h : Heir, db₆.tables h.table = db₃.tables h.table := by
    intro h
    have hname : ∀ s ∈ script0016, s.table ≠ h.table := fun s hs he =>
      h.table_ne.2.2 (he.symm.trans (table_of_mem_script0016 hs))
    rw [tables_of_run hrun hname, tables_write, if_neg h.table_ne.2.2, tables_write,
      if_neg h.table_ne.2.1, tables_write, if_neg h.table_ne.2.1]
  have hupgrade : upgrade0016 db₃ = .ok db₆ := by
    rw [upgrade0016, except_bind_eq_ok]
    refine ⟨db₅, hrename, ?_⟩
    simp only [script0016, evidenceChanges, dropIndexes, proofIndexes, evidenceColumns,
      createIndexes, evidenceIndexes, run, List.map_cons, List.map_nil, List.cons_append,
      List.nil_append, List.foldlM_cons, List.foldlM_nil, bind_pure] at hrun
    rw [htable, if_neg (by decide)]
    exact hrun
  rw [hupgrade]
  refine gives_ok ⟨fun h => ?_, E', hdb₆, evidences_eq hcontents hrows hP⟩
  rw [hother]
  exact h₃.altered h

/-! ## 0017 -/

/-- What the migrations have made of the two tables, and the evidences. -/
structure Upgraded (missions : SqlTable) (heir : Heir → SqlTable) (db : SqlDatabase) : Prop where
  rows_eq : ∀ h : Heir, ∃ R, db.tables h.table = some R ∧
    R.rows.rows = (heir h).rows.rows.map (h.upgraded missions (heir h).columns)
  evidences_eq : ∃ E, db.tables "dispute_evidences" = some E ∧ evidences E = disputesOf missions

/-- None of the columns that 0006 and 0009 have added is a new confirmation column. -/
theorem mem_columnsAfter0009 (heir : Heir → SqlTable) (h : Heir) :
    (h.runnerName ∈ columnsAfter0009 heir h ∧ h.ordererName ∈ columnsAfter0009 heir h ∧
      "settled_at" ∈ columnsAfter0009 heir h) ∧
    ∀ c ∈ ["runner_confirmed_at", "orderer_confirmed_at"],
      (c ∈ columnsAfter0009 heir h ↔ c ∈ (heir h).columns) := by
  have hadded : ∀ {c}, c ∈ h.timestampColumns → c ≠ "refunded_at" → c ∈ columnsAfter0009 heir h :=
    fun hc hne => Finset.mem_insert_of_mem
      (Finset.mem_erase.2 ⟨hne, Finset.mem_union_right _ (List.mem_toFinset.2 hc)⟩)
  refine ⟨?_, ?_⟩
  · cases h <;> exact ⟨hadded (by decide) (by decide), hadded (by decide) (by decide),
      hadded (by decide) (by decide)⟩
  · have hnew : ∀ c ∈ ["runner_confirmed_at", "orderer_confirmed_at"],
        c ∉ h.timestampColumns ∧ c ≠ "refunded_at" ∧ c ≠ "resolved_at" := by
      cases h <;> decide
    intro c hc
    obtain ⟨hnotin, hne, hne'⟩ := hnew c hc
    simp [columnsAfter0009, columns0009, columns0006, hne, hne', hnotin]

/-- Only those two columns matter for the renames. -/
theorem Heir.confirm_congr (h : Heir) {C C' : Finset String}
    (hC : ∀ c ∈ ["runner_confirmed_at", "orderer_confirmed_at"], (c ∈ C ↔ c ∈ C')) (r : SqlRow) :
    h.confirm C r = h.confirm C' r := by
  simp only [List.forall_mem_cons] at hC
  obtain ⟨hrunner, horderer, -⟩ := hC
  simp only [confirm, moveUnlessThere, hrunner, horderer]

theorem renameConfirmations_gives {h : Heir} {R : SqlTable}
    (hR : Altered (heir h) (columnsAfter0009 heir h) (fun r => renamed (h.inherit missions r)) R) :
    Gives (renameConfirmations h.runnerName h.ordererName R) fun S =>
      S.rows.rows = (heir h).rows.rows.map (h.upgraded missions (heir h).columns) := by
  obtain ⟨⟨hrunner, horderer, hsettled⟩, hnew⟩ := mem_columnsAfter0009 heir h
  rw [← hR.columns_eq] at hrunner horderer hsettled hnew
  refine (Heir.renameConfirmations_gives hrunner horderer hsettled).mono fun S ⟨C, hS⟩ => ?_
  rw [(hR.trans hS).rows_eq]
  exact List.map_congr_left fun r _ => h.confirm_congr hnew _

theorem upgrade0017_gives {db₄ : SqlDatabase} (h₄ : After0016 missions heir db₄) :
    Gives (upgrade0017 db₄) (Upgraded missions heir) := by
  obtain ⟨P, hP, haltP⟩ := h₄.altered .proposals
  obtain ⟨O, hO, haltO⟩ := h₄.altered .offers
  replace hP : db₄.tables "proposals" = some P := hP
  replace hO : db₄.tables "offers" = some O := hO
  have hoffers : db₄.hasTable "offers" = true := hasTable_eq_true hO
  rw [upgrade0017, when, if_pos hoffers]
  refine (alter_gives hO (renameConfirmations_gives haltO)).bind fun db₅ h₅ => ?_
  obtain ⟨O', hO', rfl⟩ := h₅
  have hP' : (db₄.write "offers" (some O')).tables "proposals" = some P := hP
  have hproposals : (db₄.write "offers" (some O')).hasTable "proposals" = true :=
    hasTable_eq_true hP'
  rw [when, if_pos hproposals]
  refine (alter_gives hP' (renameConfirmations_gives haltP)).mono fun db₆ h₆ => ?_
  obtain ⟨P', hP'', rfl⟩ := h₆
  refine ⟨fun h => ?_, h₄.evidences_eq⟩
  cases h with
  | proposals => exact ⟨P', rfl, hP''⟩
  | offers => exact ⟨O', rfl, hO'⟩

/-! ## All of them -/

theorem upgrades_gives (hdb : HoldsMissions db missions heir) {dialect : String}
    (hlisted : dialect = "mysql" → ∀ h : Heir, h.Enumerated (heir h)) :
    Gives (upgrades dialect db) (Upgraded missions heir) := by
  refine (upgrade0006_gives hdb).bind fun db₁ h₁ => ?_
  refine (upgrade0009_gives hdb hlisted h₁).bind fun db₂ h₂ => ?_
  refine (upgrade0011_gives h₂).bind fun db₃ h₃ => ?_
  refine (upgrade0016_gives h₃).bind fun db₄ h₄ => ?_
  exact upgrade0017_gives h₄

theorem enumerated_of_upgrades (hdb : HoldsMissions db missions heir)
    (hrun : upgrades "mysql" db = .ok db') (h : Heir) : h.Enumerated (heir h) := by
  rw [upgrades, except_bind_eq_ok] at hrun
  obtain ⟨db₁, h₁, hrun⟩ := hrun
  rw [except_bind_eq_ok] at hrun
  obtain ⟨db₂, h₂, -⟩ := hrun
  exact enumerated_of_upgrade0009 hdb ((upgrade0006_gives hdb).of_eq_ok h₁) h₂ h

end Migrations

end OrderRun
