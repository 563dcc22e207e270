import OrderRun.Lib.Relation

/-!
# The migrations that removed the missions

`alembic/versions/0006_remove_mission_status.py`, `0009_rename_refunded_to_resolved.py`,
`0011_add_proof_survey_question_id.py`, `0016_rename_proofs_to_dispute_evidences.py` and
`0017_rename_offer_confirmation_timestamps.py`.  Table and column names are the strings the
migrations use, and every test for a table, a column or an index is there.

* `upgrade0006` — the columns for the timestamps, `migrateMissionData`, and the end of the
  `missions` table.
* `upgrade0009` — `renameTimestampColumn` merges the old column into a new one that is
  already there.
* `upgrade0011`, `upgrade0016` — from `proofs` to `dispute_evidences`.
* `upgrade0017` — `renameConfirmations` leaves a new column that is already there alone.
* `upgrades` — one after the other.
-/

namespace OrderRun

open Store Store.Relation

/-- A value in a column. -/
inductive SqlValue where
  | int (n : ℤ)
  | text (s : String)
  | time (t : ℕ)
  deriving DecidableEq, Repr

abbrev SqlRow := Row String SqlValue
abbrev SqlTable := Relation String SqlValue
abbrev SqlDatabase := Database String SqlValue
abbrev Sql := Except (Refusal String)

namespace Migrations

/-- An `if` without an `else`. -/
def when {α : Type} (c : Prop) [Decidable c] (step : α → Sql α) (a : α) : Sql α :=
  if c then step a else .ok a

/-! ## 0006: remove missions and introduce proofs -/

def PROPOSAL_TIMESTAMP_COLUMNS : List String :=
  ["matched_at", "delivery_reported_at", "received_confirmed_at", "settled_at", "disputed_at",
    "refunded_at"]

def OFFER_TIMESTAMP_COLUMNS : List String :=
  ["accepted_at", "delivery_completed_at", "receipt_confirmed_at", "settled_at", "disputed_at",
    "refunded_at"]

/-- The columns of `missions`, as the downgrade creates them again. -/
def MISSION_COLUMNS : List (Column String) :=
  [⟨"proposal_id", false⟩, ⟨"offer_id", false⟩, ⟨"orderer_id", false⟩, ⟨"runner_id", false⟩,
    ⟨"status", false⟩, ⟨"delivery_proof_image_url", true⟩, ⟨"dispute_reason", true⟩,
    ⟨"created_at", false⟩, ⟨"pickup_at", true⟩, ⟨"delivery_completed_at", true⟩,
    ⟨"received_confirmed_at", true⟩, ⟨"settled_at", true⟩, ⟨"updated_at", false⟩]

def PROOF_COLUMNS : List (Column String) :=
  [⟨"proposal_id", false⟩, ⟨"offer_id", false⟩, ⟨"actor_id", false⟩, ⟨"proof_type", false⟩,
    ⟨"image_url", true⟩, ⟨"reason", true⟩, ⟨"created_at", false⟩]

def createProofsTable (db : SqlDatabase) : Sql SqlDatabase :=
  if db.hasTable "proofs" then .ok db
  else do
    let db ← db.createTable "proofs" PROOF_COLUMNS
    let db ← db.alter "proofs" (createIndex "ix_proofs_proposal_id" ["proposal_id"])
    let db ← db.alter "proofs" (createIndex "ix_proofs_offer_id" ["offer_id"])
    db.alter "proofs" (createIndex "ix_proofs_proof_type" ["proof_type"])

/-- One round of the loop; `existing` is read once, and grows with each column that is added. -/
def addTimestampColumn : SqlTable × Finset String → String → Sql (SqlTable × Finset String)
  | (R, existing), columnName =>
      if columnName ∈ existing then .ok (R, existing)
      else do
        let R ← R.addColumn columnName
        return (R, insert columnName existing)

def addTimestampColumns (columnNames : List String) (R : SqlTable) : Sql SqlTable := do
  let (R, _) ← columnNames.foldlM addTimestampColumn (R, R.columns)
  return R

/-- A statement that reads `missions` and changes another table. -/
def fromMissions (table : String) (change : SqlTable → SqlTable → Sql SqlTable) (db : SqlDatabase) :
    Sql SqlDatabase := do
  let missions ← db.find "missions"
  db.alter table (change missions)

/-- `missions.key = table.id`. -/
def refersTo (key : String) (r m : SqlRow) : Bool := m.cells key = some (.int r.id)

/-- `SELECT missions.source FROM missions WHERE missions.key = table.id LIMIT 1`. -/
def missionValue (missions : SqlTable) (key source : String) (r : SqlRow) : Option SqlValue :=
  (missions.rows.rows.find? (refersTo key r)).bind fun m => m.cells source

/-- `UPDATE table SET column = (SELECT missions.source ...) WHERE column IS NULL AND EXISTS
(SELECT 1 FROM missions ...)`; with `notNull`, the mission must hold a value in `source`. -/
def copyStamp (column key source : String) (notNull : Bool) (missions R : SqlTable) :
    Sql SqlTable :=
  R.update column
    (fun r => (r.cells column).isNone &&
      missions.rows.rows.any fun m => refersTo key r m && (!notNull || (m.cells source).isSome))
    (missionValue missions key source)

/-- A mission with a picture of the delivery, as a row for `proofs`. -/
def deliveryProof (m : SqlRow) : List (String × Option SqlValue) :=
  [("proposal_id", m.cells "proposal_id"), ("offer_id", m.cells "offer_id"),
    ("actor_id", m.cells "runner_id"), ("proof_type", some (.text "DELIVERY")),
    ("image_url", m.cells "delivery_proof_image_url"), ("reason", none),
    ("created_at", (m.cells "delivery_completed_at").or (m.cells "created_at"))]

/-- A disputed mission, as a row for `proofs`. -/
def disputeProof (m : SqlRow) : List (String × Option SqlValue) :=
  [("proposal_id", m.cells "proposal_id"), ("offer_id", m.cells "offer_id"),
    ("actor_id", m.cells "orderer_id"), ("proof_type", some (.text "DISPUTE")),
    ("image_url", none), ("reason", m.cells "dispute_reason"),
    ("created_at", (m.cells "updated_at").or (m.cells "created_at"))]

def insertDeliveryProofs (missions proofs : SqlTable) : Sql SqlTable := do
  let query ← missions.select
    ["proposal_id", "offer_id", "runner_id", "delivery_proof_image_url", "delivery_completed_at",
      "created_at"]
    (fun m => (m.cells "delivery_proof_image_url").isSome) deliveryProof
  proofs.insertAll query

def insertDisputeProofs (missions proofs : SqlTable) : Sql SqlTable := do
  let query ← missions.select
    ["proposal_id", "offer_id", "orderer_id", "dispute_reason", "updated_at", "created_at"]
    (fun m => (m.cells "dispute_reason").isSome) disputeProof
  proofs.insertAll query

def migrateMissionData (db : SqlDatabase) : Sql SqlDatabase :=
  if !db.hasTable "missions" then .ok db
  else
    let missionColumns := db.columnNames "missions"
    if ¬ {"proposal_id", "offer_id", "created_at"} ⊆ missionColumns then .ok db
    else do
      let db ← fromMissions "proposals" (copyStamp "matched_at" "proposal_id" "created_at" false) db
      let db ← fromMissions "offers" (copyStamp "accepted_at" "offer_id" "created_at" false) db
      let db ← when ("delivery_completed_at" ∈ missionColumns) (fun db => do
        let db ← fromMissions "proposals"
          (copyStamp "delivery_reported_at" "proposal_id" "delivery_completed_at" true) db
        fromMissions "offers"
          (copyStamp "delivery_completed_at" "offer_id" "delivery_completed_at" true) db) db
      let db ← when ("received_confirmed_at" ∈ missionColumns) (fun db => do
        let db ← fromMissions "proposals"
          (copyStamp "received_confirmed_at" "proposal_id" "received_confirmed_at" true) db
        fromMissions "offers"
          (copyStamp "receipt_confirmed_at" "offer_id" "received_confirmed_at" true) db) db
      let db ← when ("settled_at" ∈ missionColumns) (fun db => do
        let db ← fromMissions "proposals"
          (copyStamp "settled_at" "proposal_id" "settled_at" true) db
        fromMissions "offers" (copyStamp "settled_at" "offer_id" "settled_at" true) db) db
      let db ← when ({"delivery_proof_image_url", "runner_id"} ⊆ missionColumns)
        (fromMissions "proofs" insertDeliveryProofs) db
      when ({"dispute_reason", "orderer_id", "updated_at"} ⊆ missionColumns)
        (fromMissions "proofs" insertDisputeProofs) db

def upgrade0006 (db : SqlDatabase) : Sql SqlDatabase := do
  let db ← createProofsTable db
  let db ← db.alter "proposals" (addTimestampColumns PROPOSAL_TIMESTAMP_COLUMNS)
  let db ← db.alter "offers" (addTimestampColumns OFFER_TIMESTAMP_COLUMNS)
  let db ← migrateMissionData db
  when (db.hasTable "missions") (fun db => db.dropTable "missions") db

/-! ## 0009: rename refunded to resolved -/

def PROPOSAL_STATUSES : List String :=
  ["HOLDING", "POSTED", "OFFERED", "MATCHED", "ORDER_COMPLETED", "ALL_COMPLETED", "DISPUTED",
    "RESOLVED", "CANCELLED"]

def OFFER_STATUSES : List String :=
  ["WAITING", "ACCEPTED", "RUNNER_COMPLETED", "ALL_COMPLETED", "DISPUTED", "RESOLVED", "REJECTED",
    "CANCELLED"]

/-- `(*statuses[:-2], "REFUNDED", *statuses[-2:])`. -/
def withRefunded (statuses : List String) : List String :=
  statuses.take (statuses.length - 2) ++ "REFUNDED" :: statuses.drop (statuses.length - 2)

def PROPOSAL_STATUSES_WITH_REFUNDED : List String := withRefunded PROPOSAL_STATUSES

def OFFER_STATUSES_WITH_REFUNDED : List String := withRefunded OFFER_STATUSES

def renameTimestampColumn (oldName newName : String) (R : SqlTable) : Sql SqlTable :=
  if oldName ∉ R.columns then .ok R
  else if newName ∈ R.columns then do
    let R ← R.update newName (fun r => (r.cells newName).isNone) fun r => r.cells oldName
    R.dropColumn oldName
  else R.renameColumn oldName newName

def alterMysqlEnum (columnName : String) (statuses : List String) (R : SqlTable) : Sql SqlTable :=
  R.setEnum columnName (statuses.map SqlValue.text)

/-- `UPDATE table SET status = 'RESOLVED' WHERE status = 'REFUNDED'`. -/
def resolveRefunded (R : SqlTable) : Sql SqlTable :=
  R.update "status" (fun r => r.cells "status" = some (.text "REFUNDED"))
    fun _ => some (.text "RESOLVED")

/-- `dialect` is `bind.dialect.name`. -/
def upgrade0009 (dialect : String) (db : SqlDatabase) : Sql SqlDatabase := do
  let db ← db.alter "proposals" (renameTimestampColumn "refunded_at" "resolved_at")
  let db ← db.alter "offers" (renameTimestampColumn "refunded_at" "resolved_at")
  let db ← when (dialect = "mysql") (fun db => do
    let db ← db.alter "proposals" (alterMysqlEnum "status" PROPOSAL_STATUSES_WITH_REFUNDED)
    db.alter "offers" (alterMysqlEnum "status" OFFER_STATUSES_WITH_REFUNDED)) db
  let db ← db.alter "proposals" resolveRefunded
  let db ← db.alter "offers" resolveRefunded
  when (dialect = "mysql") (fun db => do
    let db ← db.alter "proposals" (alterMysqlEnum "status" PROPOSAL_STATUSES)
    db.alter "offers" (alterMysqlEnum "status" OFFER_STATUSES)) db

/-! ## 0011: the survey question of a proof -/

def addSurveyQuestionId (R : SqlTable) : Sql SqlTable :=
  when ("survey_question_id" ∉ R.columns) (addColumn "survey_question_id") R

def upgrade0011 (db : SqlDatabase) : Sql SqlDatabase := do
  let db ← db.alter "proofs" addSurveyQuestionId
  when (!db.hasIndex "proofs" "idx_proofs_survey_question_id")
    (fun db => db.alter "proofs"
      (createIndex "idx_proofs_survey_question_id" ["survey_question_id"])) db

/-! ## 0016: rename proofs to dispute evidences -/

/-- `DELETE FROM proofs WHERE proof_type IS NULL OR proof_type != 'DISPUTE'`, if there is such
a column. -/
def deleteOtherProofs (R : SqlTable) : Sql SqlTable :=
  when ("proof_type" ∈ R.columns)
    (delete fun r =>
      (r.cells "proof_type").isNone || r.cells "proof_type" ≠ some (.text "DISPUTE")) R

def dropColumnIfExists (columnName : String) (R : SqlTable) : Sql SqlTable :=
  when (columnName ∈ R.columns) (dropColumn columnName) R

def dropIndexIfExists (indexName : String) (R : SqlTable) : Sql SqlTable :=
  when (R.indexes indexName ≠ []) (dropIndex indexName) R

def createIndexIfMissing (indexName : String) (columns : List String) (R : SqlTable) :
    Sql SqlTable :=
  when (R.indexes indexName = []) (createIndex indexName columns) R

/-- If the table has the column, a value takes the place of `NULL`, and the column becomes
`NOT NULL`. -/
def fillColumnIfExists (columnName : String) (value : SqlValue) (R : SqlTable) : Sql SqlTable :=
  when (columnName ∈ R.columns) (fun R => do
    let R ← R.update columnName (fun r => (r.cells columnName).isNone) fun _ => some value
    R.setNotNull columnName) R

def upgrade0016 (db : SqlDatabase) : Sql SqlDatabase := do
  let db ← when (db.hasTable "proofs") (fun db => do
    let db ← db.alter "proofs" deleteOtherProofs
    when (!db.hasTable "dispute_evidences") (fun db => db.renameTable "proofs" "dispute_evidences")
      db) db
  if !db.hasTable "dispute_evidences" then .ok db
  else do
    let db ← db.alter "dispute_evidences" (dropIndexIfExists "ix_proofs_proposal_id")
    let db ← db.alter "dispute_evidences" (dropIndexIfExists "ix_proofs_offer_id")
    let db ← db.alter "dispute_evidences" (dropIndexIfExists "ix_proofs_proof_type")
    let db ← db.alter "dispute_evidences" (dropIndexIfExists "idx_proofs_survey_question_id")
    let db ← db.alter "dispute_evidences" (dropColumnIfExists "proof_type")
    let db ← db.alter "dispute_evidences" (dropColumnIfExists "image_url")
    let db ← db.alter "dispute_evidences" (fillColumnIfExists "reason" (.text ""))
    let db ← db.alter "dispute_evidences" (fillColumnIfExists "survey_question_id" (.int 0))
    let db ← db.alter "dispute_evidences"
      (createIndexIfMissing "ix_dispute_evidences_proposal_id" ["proposal_id"])
    let db ← db.alter "dispute_evidences"
      (createIndexIfMissing "ix_dispute_evidences_offer_id" ["offer_id"])
    let db ← db.alter "dispute_evidences"
      (createIndexIfMissing "ix_dispute_evidences_actor_id" ["actor_id"])
    db.alter "dispute_evidences"
      (createIndexIfMissing "idx_dispute_evidences_survey_question_id" ["survey_question_id"])

/-! ## 0017: the confirmation timestamps -/

/-- A column gets its new name, unless there is a column of that name. -/
def renameUnlessThere (columns : Finset String) (oldName newName : String) :
    SqlTable → Sql SqlTable :=
  when (oldName ∈ columns ∧ newName ∉ columns) (renameColumn oldName newName)

/-- The old names of the runner's and the orderer's confirmation.  Which columns there are is
read once, before the first change. -/
def renameConfirmations (runnerName ordererName : String) (R : SqlTable) : Sql SqlTable := do
  let columns := R.columns
  let R ← renameUnlessThere columns runnerName "runner_confirmed_at" R
  let R ← renameUnlessThere columns ordererName "orderer_confirmed_at" R
  dropColumnIfExists "settled_at" R

def upgrade0017 (db : SqlDatabase) : Sql SqlDatabase := do
  let db ← when (db.hasTable "offers")
    (fun db => db.alter "offers"
      (renameConfirmations "delivery_completed_at" "receipt_confirmed_at")) db
  when (db.hasTable "proposals")
    (fun db => db.alter "proposals"
      (renameConfirmations "delivery_reported_at" "received_confirmed_at")) db

/-! ## In order -/

def upgrades (dialect : String) (db : SqlDatabase) : Sql SqlDatabase := do
  let db ← upgrade0006 db
  let db ← upgrade0009 dialect db
  let db ← upgrade0011 db
  let db ← upgrade0016 db
  upgrade0017 db

end Migrations

end OrderRun
