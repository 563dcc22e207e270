import OrderRun.Migrations.Versions

/-!
# The way back

The `downgrade` functions of `0009`, `0011`, `0016` and `0017`, again with every test for a table,
a column or an index.

* `downgrade0009` — `replaceStatus` puts `REFUNDED` in the place of `RESOLVED`.
* `downgrade0011`, `downgrade0016` — from `dispute_evidences` to `proofs`.
* `downgrade0017` — the old names of the confirmations, unless they are taken.
* `Revision` — the migrations with both directions.
-/

namespace OrderRun

open Store Store.Relation

namespace Migrations

/-! ## 0009 -/

/-- `UPDATE table SET status = 'REFUNDED' WHERE status = 'RESOLVED'`. -/
def refundResolved (R : SqlTable) : Sql SqlTable :=
  R.update "status" (fun r => r.cells "status" = some (.text "RESOLVED"))
    fun _ => some (.text "REFUNDED")

def replaceStatus (statuses : List String) (old new : String) : List String :=
  statuses.map fun status => if status = old then new else status

def downgrade0009 (dialect : String) (db : SqlDatabase) : Sql SqlDatabase := do
  let db ← when (dialect = "mysql") (fun db => do
    let db ← db.alter "proposals" (alterMysqlEnum "status" PROPOSAL_STATUSES_WITH_REFUNDED)
    db.alter "offers" (alterMysqlEnum "status" OFFER_STATUSES_WITH_REFUNDED)) db
  let db ← db.alter "proposals" refundResolved
  let db ← db.alter "offers" refundResolved
  let db ← when (dialect = "mysql") (fun db => do
    let db ← db.alter "proposals"
      (alterMysqlEnum "status" (replaceStatus PROPOSAL_STATUSES "RESOLVED" "REFUNDED"))
    db.alter "offers"
      (alterMysqlEnum "status" (replaceStatus OFFER_STATUSES "RESOLVED" "REFUNDED"))) db
  let db ← db.alter "proposals" (renameTimestampColumn "resolved_at" "refunded_at")
  db.alter "offers" (renameTimestampColumn "resolved_at" "refunded_at")

/-! ## 0011 -/

def downgrade0011 (db : SqlDatabase) : Sql SqlDatabase := do
  let db ← when (db.hasIndex "proofs" "idx_proofs_survey_question_id")
    (fun db => db.alter "proofs" (dropIndex "idx_proofs_survey_question_id")) db
  when ("survey_question_id" ∈ db.columnNames "proofs")
    (fun db => db.alter "proofs" (dropColumn "survey_question_id")) db

/-! ## 0016 -/

/-- The columns of a proof.  Which columns there are is read once, before the first change. -/
def restoreProof (R : SqlTable) : Sql SqlTable := do
  let columns := R.columns
  let R ← when ("proof_type" ∉ columns) (addColumnDefault "proof_type" (.text "DISPUTE")) R
  let R ← when ("image_url" ∉ columns) (addColumn "image_url") R
  let R ← when ("reason" ∈ columns) (setNullable "reason") R
  when ("survey_question_id" ∈ columns) (setNullable "survey_question_id") R

def downgrade0016 (db : SqlDatabase) : Sql SqlDatabase := do
  let db ← when (db.hasTable "dispute_evidences") (fun db => do
    let db ← db.alter "dispute_evidences" restoreProof
    when (!db.hasTable "proofs") (fun db => db.renameTable "dispute_evidences" "proofs") db) db
  if !db.hasTable "proofs" then .ok db
  else do
    let db ← db.alter "proofs" (dropIndexIfExists "ix_dispute_evidences_proposal_id")
    let db ← db.alter "proofs" (dropIndexIfExists "ix_dispute_evidences_offer_id")
    let db ← db.alter "proofs" (dropIndexIfExists "ix_dispute_evidences_actor_id")
    let db ← db.alter "proofs" (dropIndexIfExists "idx_dispute_evidences_survey_question_id")
    let db ← db.alter "proofs" (createIndexIfMissing "ix_proofs_proposal_id" ["proposal_id"])
    let db ← db.alter "proofs" (createIndexIfMissing "ix_proofs_offer_id" ["offer_id"])
    let db ← db.alter "proofs" (createIndexIfMissing "ix_proofs_proof_type" ["proof_type"])
    db.alter "proofs"
      (createIndexIfMissing "idx_proofs_survey_question_id" ["survey_question_id"])

/-! ## 0017 -/

/-- The names of the confirmations go back.  Which columns there are is read twice, before and
after `settled_at` is added. -/
def restoreConfirmations (runnerName ordererName : String) (R : SqlTable) : Sql SqlTable := do
  let R ← when ("settled_at" ∉ R.columns) (addColumn "settled_at") R
  let columns := R.columns
  let R ← renameUnlessThere columns "runner_confirmed_at" runnerName R
  renameUnlessThere columns "orderer_confirmed_at" ordererName R

def downgrade0017 (db : SqlDatabase) : Sql SqlDatabase := do
  let db ← when (db.hasTable "proposals")
    (fun db => db.alter "proposals"
      (restoreConfirmations "delivery_reported_at" "received_confirmed_at")) db
  when (db.hasTable "offers")
    (fun db => db.alter "offers"
      (restoreConfirmations "delivery_completed_at" "receipt_confirmed_at")) db

/-! ## Both directions -/

/-- The migrations that have both directions here. -/
inductive Revision where
  | r0009
  | r0011
  | r0016
  | r0017
  deriving DecidableEq

def Revision.upgrade (dialect : String) : Revision → SqlDatabase → Sql SqlDatabase
  | .r0009 => upgrade0009 dialect
  | .r0011 => upgrade0011
  | .r0016 => upgrade0016
  | .r0017 => upgrade0017

def Revision.downgrade (dialect : String) : Revision → SqlDatabase → Sql SqlDatabase
  | .r0009 => downgrade0009 dialect
  | .r0011 => downgrade0011
  | .r0016 => downgrade0016
  | .r0017 => downgrade0017

end Migrations

end OrderRun
