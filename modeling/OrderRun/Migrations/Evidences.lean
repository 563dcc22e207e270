import OrderRun.Migrations.Columns

/-!
# From missions to dispute evidences

* `insertProofs0006_gives` — the rows that 0006 writes to `proofs`; nothing is refused, because
  what a proof requires, a mission requires.
* `Evidence`, `evidences_eq` — 0011 and 0016 keep one row for each disputed mission, and no
  other.
-/

namespace OrderRun

open Store Store.Relation Store.Database

namespace Migrations

variable {R : SqlTable}

/-- `missions` has the columns that the downgrade gives it. -/
def HasMissionColumns (missions : SqlTable) : Prop :=
  ∀ c ∈ MISSION_COLUMNS,
    c.name ∈ missions.columns ∧ (c.nullable = false → c.name ∈ missions.required)

/-- `proofs` has the columns it was created with. -/
structure HasProofColumns (R : SqlTable) : Prop where
  columns_eq : R.columns = (Relation.create PROOF_COLUMNS : SqlTable).columns
  required_eq : R.required = (Relation.create PROOF_COLUMNS : SqlTable).required

theorem HasMissionColumns.mem {missions : SqlTable} (h : HasMissionColumns missions) {c : String}
    (hc : c ∈ MISSION_COLUMNS.map Column.name) : c ∈ missions.columns := by
  obtain ⟨column, hcolumn, rfl⟩ := List.mem_map.1 hc
  exact (h column hcolumn).1

/-- A `NOT NULL` column of a mission. -/
theorem HasMissionColumns.cells_ne_none {missions : SqlTable} (h : HasMissionColumns missions)
    {m : SqlRow} (hm : m ∈ missions.rows) {c : String} (hc : ⟨c, false⟩ ∈ MISSION_COLUMNS) :
    m.cells c ≠ none :=
  missions.filled m hm c ((h _ hc).2 rfl)

/-- What a proof requires: everything but the picture and the reason. -/
theorem HasProofColumns.mem_required {R : SqlTable} (hR : HasProofColumns R) {c : String} :
    c ∈ R.required ↔ c = "proposal_id" ∨ c = "offer_id" ∨ c = "actor_id" ∨ c = "proof_type" ∨
      c = "created_at" := by
  rw [hR.required_eq]
  simp [Relation.create, PROOF_COLUMNS]

/-- A proof made of a mission, with one of its parties as the actor: all that `proofs`
requires is there, because `missions` requires it too. -/
structure ProofOf (values : SqlRow → List (String × Option SqlValue)) (party : String) : Prop where
  names : ∀ m, (values m).map Prod.fst = PROOF_COLUMNS.map Column.name
  proposal : ∀ m, Row.ofValues (values m) "proposal_id" = m.cells "proposal_id"
  offer : ∀ m, Row.ofValues (values m) "offer_id" = m.cells "offer_id"
  actor : ∀ m, Row.ofValues (values m) "actor_id" = m.cells party
  party_required : ⟨party, false⟩ ∈ MISSION_COLUMNS
  proofType : ∀ m, Row.ofValues (values m) "proof_type" ≠ none
  created : ∀ m, ∃ first : Option SqlValue,
    Row.ofValues (values m) "created_at" = first.or (m.cells "created_at")

theorem proofOf_delivery : ProofOf deliveryProof "runner_id" where
  names := fun _ => rfl
  proposal := fun _ => rfl
  offer := fun _ => rfl
  actor := fun _ => rfl
  party_required := by decide
  proofType := fun _ => Option.some_ne_none _
  created := fun _ => ⟨_, rfl⟩

theorem proofOf_dispute : ProofOf disputeProof "orderer_id" where
  names := fun _ => rfl
  proposal := fun _ => rfl
  offer := fun _ => rfl
  actor := fun _ => rfl
  party_required := by decide
  proofType := fun _ => Option.some_ne_none _
  created := fun _ => ⟨_, rfl⟩

theorem ProofOf.ne_none {values : SqlRow → List (String × Option SqlValue)} {party : String}
    (hvalues : ProofOf values party) {missions R : SqlTable}
    (hmissions : HasMissionColumns missions) (hR : HasProofColumns R) {m : SqlRow}
    (hm : m ∈ missions.rows) {c : String} (hc : c ∈ R.required) :
    Row.ofValues (values m) c ≠ none := by
  rcases hR.mem_required.1 hc with rfl | rfl | rfl | rfl | rfl
  · rw [hvalues.proposal]
    exact hmissions.cells_ne_none hm (by decide)
  · rw [hvalues.offer]
    exact hmissions.cells_ne_none hm (by decide)
  · rw [hvalues.actor]
    exact hmissions.cells_ne_none hm hvalues.party_required
  · exact hvalues.proofType m
  · obtain ⟨first, hfirst⟩ := hvalues.created m
    rw [hfirst]
    exact fun h => hmissions.cells_ne_none hm (by decide) (Option.or_eq_none_iff.1 h).2

/-- One proof for each mission of a query. -/
theorem insertProofs_gives {missions R : SqlTable} {names : List String} {selected : SqlRow → Bool}
    {values : SqlRow → List (String × Option SqlValue)} {party : String}
    (hmissions : HasMissionColumns missions) (hR : HasProofColumns R)
    (hnames : names ⊆ MISSION_COLUMNS.map Column.name) (hvalues : ProofOf values party) :
    Gives (do
      let query ← missions.select names selected values
      R.insertAll query) fun S => HasProofColumns S ∧
        S.contents = R.contents ++
          (missions.rows.rows.filter selected).map fun m => Row.ofValues (values m) := by
  rw [select_eq fun c hc => hmissions.mem (hnames hc)]
  have hinsert : Gives (R.insertAll ((missions.rows.rows.filter selected).map values)) fun S =>
      S.columns = R.columns ∧ S.required = R.required ∧ S.contents =
        R.contents ++ ((missions.rows.rows.filter selected).map values).map Row.ofValues := by
    refine insertAll_gives ?_ ?_
    · intro vs hvs p hp
      obtain ⟨m, -, rfl⟩ := List.mem_map.1 hvs
      have hmem : p.1 ∈ PROOF_COLUMNS.map Column.name := hvalues.names m ▸ List.mem_map_of_mem hp
      rw [hR.columns_eq]
      exact List.mem_toFinset.2 hmem
    · intro vs hvs c hc
      obtain ⟨m, hm, rfl⟩ := List.mem_map.1 hvs
      exact hvalues.ne_none hmissions hR (List.mem_filter.1 hm).1 hc
  refine hinsert.mono fun S ⟨hcolumns, hrequired, hcontents⟩ => ?_
  refine ⟨⟨hcolumns.trans hR.columns_eq, hrequired.trans hR.required_eq⟩, ?_⟩
  rw [hcontents, List.map_map]
  rfl

/-- The missions with a picture of the delivery. -/
def delivered (missions : SqlTable) : List SqlRow :=
  missions.rows.rows.filter fun m => (m.cells "delivery_proof_image_url").isSome

/-- The missions with a reason for a dispute. -/
def disputed (missions : SqlTable) : List SqlRow :=
  missions.rows.rows.filter fun m => (m.cells "dispute_reason").isSome

/-- What 0006 writes to `proofs`. -/
def missionProofs (missions : SqlTable) : List (String → Option SqlValue) :=
  ((delivered missions).map fun m => Row.ofValues (deliveryProof m)) ++
    (disputed missions).map fun m => Row.ofValues (disputeProof m)

theorem insertProofs0006_gives {missions F : SqlTable} (hmissions : HasMissionColumns missions)
    (hF : HasProofColumns F) (hempty : F.contents = []) :
    Gives (F.runAll [insertDeliveryProofs missions, insertDisputeProofs missions]) fun S =>
      HasProofColumns S ∧ S.contents = missionProofs missions := by
  simp only [runAll_cons]
  refine (insertProofs_gives hmissions hF (by decide) proofOf_delivery).bind fun S₁ h₁ => ?_
  refine (insertProofs_gives hmissions h₁.1 (by decide) proofOf_dispute).bind fun S₂ h₂ => ?_
  refine gives_ok ⟨h₂.1, ?_⟩
  rw [h₂.2, h₁.2, hempty]
  rfl

/-- The indexes that 0006 gives to `proofs`. -/
def proofIndexes0006 : List (SqlTable → Sql SqlTable) :=
  [createIndex "ix_proofs_proposal_id" ["proposal_id"],
    createIndex "ix_proofs_offer_id" ["offer_id"],
    createIndex "ix_proofs_proof_type" ["proof_type"]]

theorem proofIndexes0006_gives : Gives ((Relation.create PROOF_COLUMNS).runAll proofIndexes0006)
    fun F => HasProofColumns F ∧ F.contents = [] := ⟨_, rfl, ⟨rfl, rfl⟩, rfl⟩

/-! ## 0011 and 0016 -/

theorem addSurveyQuestionId_gives (R : SqlTable) :
    Gives (addSurveyQuestionId R)
      (Altered R (insert "survey_question_id" R.columns) fun r => r) := by
  unfold addSurveyQuestionId when
  split
  · next hc => exact addColumn_gives hc
  · next hc =>
      rw [Finset.insert_eq_self.2 (not_not.1 hc)]
      exact gives_ok (Altered.refl R)

theorem createIndexIfMissing_gives {indexName : String} {columns : List String}
    (hcolumns : ∀ c ∈ columns, c ∈ R.columns) :
    Gives (createIndexIfMissing indexName columns R) (Altered R R.columns fun r => r) := by
  unfold createIndexIfMissing when
  split
  · next hfree => exact createIndex_gives hfree hcolumns
  · exact gives_ok (.refl R)

/-- The test for an index looks at the table of the statement. -/
theorem createIndex_eq {db : SqlDatabase} {t : String} (hR : db.tables t = some R)
    (indexName : String) (columns : List String) :
    when (!db.hasIndex t indexName) (fun db => db.alter t (createIndex indexName columns)) db =
      db.alter t (createIndexIfMissing indexName columns) := by
  have hindex : db.hasIndex t indexName = !(R.indexes indexName).isEmpty := by
    simp [hasIndex, hR]
  unfold when
  rw [hindex]
  by_cases hfree : R.indexes indexName = []
  · rw [if_pos (by simp [hfree])]
    refine alter_congr fun R' hR' => ?_
    obtain rfl := Option.some.inj (hR.symm.trans hR')
    exact (if_pos hfree).symm
  · rw [if_neg (by simp [hfree])]
    exact (alter_self hR (if_neg hfree)).symm

/-- What 0016 keeps. -/
def isDispute (cells : String → Option SqlValue) : Bool :=
  cells "proof_type" = some (.text "DISPUTE")

theorem deleteOtherProofs_gives (htype : "proof_type" ∈ R.columns) :
    Gives (deleteOtherProofs R) fun S => S.columns = R.columns ∧
      S.rows.rows = R.rows.rows.filter fun r => isDispute r.cells := by
  unfold deleteOtherProofs when
  rw [if_pos htype]
  refine (delete_gives _).mono fun S ⟨hcolumns, hrows⟩ => ⟨hcolumns, ?_⟩
  rw [hrows]
  refine List.filter_congr fun r _ => ?_
  cases h : r.cells "proof_type" with
  | none => simp [isDispute, h]
  | some v => simp [isDispute, h]

theorem fillColumnIfExists_gives {c : String} (hc : c ∈ R.columns) (v : SqlValue) :
    Gives (fillColumnIfExists c v R) (Altered R R.columns fun r => r.fill c (some v)) := by
  unfold fillColumnIfExists when
  rw [if_pos hc]
  refine (update_isNone_gives hc).bind fun S hS => ?_
  have hfilled : ∀ r ∈ S.rows, r.cells c ≠ none := by
    intro s hs
    obtain ⟨r, -, rfl⟩ := hS.mem.1 hs
    rw [Row.cells_fill, if_pos rfl]
    exact fun h => Option.some_ne_none v (Option.or_eq_none_iff.1 h).2
  refine (setNotNull_gives (hS.columns_eq ▸ hc) hfilled).mono fun S' hS' => ?_
  exact hS.columns_eq ▸ hS.trans hS'

/-- The indexes of `proofs`, each with its column. -/
def proofIndexes : List (String × String) :=
  [("ix_proofs_proposal_id", "proposal_id"), ("ix_proofs_offer_id", "offer_id"),
    ("ix_proofs_proof_type", "proof_type"),
    ("idx_proofs_survey_question_id", "survey_question_id")]

/-- The indexes of `dispute_evidences`. -/
def evidenceIndexes : List (String × String) :=
  [("ix_dispute_evidences_proposal_id", "proposal_id"),
    ("ix_dispute_evidences_offer_id", "offer_id"), ("ix_dispute_evidences_actor_id", "actor_id"),
    ("idx_dispute_evidences_survey_question_id", "survey_question_id")]

def dropIndexes (indexes : List (String × String)) : List (SqlTable → Sql SqlTable) :=
  indexes.map fun i => dropIndexIfExists i.1

def createIndexes (indexes : List (String × String)) : List (SqlTable → Sql SqlTable) :=
  indexes.map fun i => createIndexIfMissing i.1 [i.2]

/-- Statements about indexes leave the columns and the rows alone. -/
theorem dropIndexes_gives (indexes : List (String × String)) (R : SqlTable) :
    Gives (R.runAll (dropIndexes indexes)) (Altered R R.columns fun r => r) := by
  induction indexes generalizing R with
  | nil => exact gives_ok (.refl R)
  | cons i indexes ih =>
      have hdrop : Gives (dropIndexIfExists i.1 R) (Altered R R.columns fun r => r) := by
        unfold dropIndexIfExists when
        split
        · next hthere => exact dropIndex_gives hthere
        · exact gives_ok (.refl R)
      refine hdrop.bind fun S hS => (ih S).mono fun S' hS' => ?_
      exact hS.columns_eq ▸ hS.trans hS'

theorem createIndexes_gives {indexes : List (String × String)}
    (hcolumns : ∀ i ∈ indexes, i.2 ∈ R.columns) :
    Gives (R.runAll (createIndexes indexes)) (Altered R R.columns fun r => r) := by
  induction indexes generalizing R with
  | nil => exact gives_ok (.refl R)
  | cons i indexes ih =>
      obtain ⟨hc, hrest⟩ := List.forall_mem_cons.1 hcolumns
      refine (createIndexIfMissing_gives (List.forall_mem_singleton.2 hc)).bind fun S hS => ?_
      refine (ih fun i hi => hS.columns_eq ▸ hrest i hi).mono fun S' hS' => ?_
      exact hS.columns_eq ▸ hS.trans hS'

/-- A proof as a dispute evidence. -/
def asEvidence (r : SqlRow) : SqlRow :=
  (((r.set "proof_type" none).set "image_url" none).fill "reason" (some (.text ""))).fill
    "survey_question_id" (some (.int 0))

/-- The statements of 0016 about the columns of the renamed table. -/
def evidenceColumns : List (SqlTable → Sql SqlTable) :=
  [dropColumnIfExists "proof_type", dropColumnIfExists "image_url",
    fillColumnIfExists "reason" (.text ""), fillColumnIfExists "survey_question_id" (.int 0)]

theorem evidenceColumns_gives
    (hcolumns : ∀ c ∈ ["proof_type", "image_url", "reason", "survey_question_id"], c ∈ R.columns) :
    Gives (R.runAll evidenceColumns)
      (Altered R ((R.columns.erase "proof_type").erase "image_url") asEvidence) := by
  simp only [List.forall_mem_cons] at hcolumns
  obtain ⟨htype, himage, hreason, hsurvey, -⟩ := hcolumns
  simp only [evidenceColumns, runAll_cons, dropColumnIfExists, when]
  rw [if_pos htype]
  refine (dropColumn_gives htype).bind fun S₁ h₁ => ?_
  have himage₁ : "image_url" ∈ S₁.columns := by
    rw [h₁.columns_eq]
    exact Finset.mem_erase.2 ⟨by decide, himage⟩
  rw [if_pos himage₁]
  refine (dropColumn_gives himage₁).bind fun S₂ h₂ => ?_
  have hkept : ∀ {c}, c ≠ "proof_type" → c ≠ "image_url" → c ∈ R.columns → c ∈ S₂.columns := by
    intro c hne hne' hc
    rw [h₂.columns_eq, h₁.columns_eq]
    exact Finset.mem_erase.2 ⟨hne', Finset.mem_erase.2 ⟨hne, hc⟩⟩
  refine (fillColumnIfExists_gives (hkept (by decide) (by decide) hreason) _).bind fun S₃ h₃ => ?_
  have hsurvey₃ : "survey_question_id" ∈ S₃.columns :=
    h₃.columns_eq ▸ hkept (by decide) (by decide) hsurvey
  refine (fillColumnIfExists_gives hsurvey₃ _).bind fun S₄ h₄ => ?_
  rw [h₃.columns_eq, h₂.columns_eq, h₁.columns_eq] at h₄
  exact gives_ok (((h₁.trans h₂).trans h₃).trans h₄)

/-- The statements of 0016 on the renamed table. -/
def evidenceChanges : List (SqlTable → Sql SqlTable) :=
  dropIndexes proofIndexes ++ evidenceColumns ++ createIndexes evidenceIndexes

theorem evidenceChanges_gives
    (hcolumns : ∀ c ∈ ["proposal_id", "offer_id", "actor_id", "proof_type", "image_url", "reason",
      "survey_question_id"], c ∈ R.columns) :
    Gives (R.runAll evidenceChanges) fun S => ∃ C, Altered R C asEvidence S := by
  rw [evidenceChanges, List.append_assoc, runAll_append]
  refine (dropIndexes_gives proofIndexes R).bind fun S₁ h₁ => ?_
  rw [runAll_append]
  refine (evidenceColumns_gives fun c hc => ?_).bind fun S₂ h₂ => ?_
  · rw [h₁.columns_eq]
    exact hcolumns c (List.mem_append_right ["proposal_id", "offer_id", "actor_id"] hc)
  · refine (createIndexes_gives fun i hi => ?_).mono fun S₃ h₃ => ⟨_, (h₁.trans h₂).trans h₃⟩
    -- an evidence keeps what its indexes are on
    have hkept : i.2 ∈ ["proposal_id", "offer_id", "actor_id", "proof_type", "image_url", "reason",
        "survey_question_id"] ∧ i.2 ≠ "proof_type" ∧ i.2 ≠ "image_url" := by
      revert i
      decide
    rw [h₂.columns_eq, h₁.columns_eq]
    exact Finset.mem_erase.2 ⟨hkept.2.2, Finset.mem_erase.2 ⟨hkept.2.1, hcolumns _ hkept.1⟩⟩

/-- What a row of `dispute_evidences` says. -/
structure Evidence where
  proposalId : Option SqlValue
  offerId : Option SqlValue
  actorId : Option SqlValue
  reason : Option SqlValue
  deriving DecidableEq

def evidences (R : SqlTable) : List Evidence :=
  R.rows.rows.map fun e =>
    ⟨e.cells "proposal_id", e.cells "offer_id", e.cells "actor_id", e.cells "reason"⟩

/-- The evidences the missions amount to: the orderer has raised the dispute. -/
def disputesOf (missions : SqlTable) : List Evidence :=
  (disputed missions).map fun m =>
    ⟨m.cells "proposal_id", m.cells "offer_id", m.cells "orderer_id", m.cells "dispute_reason"⟩

/-- The disputes among the proofs. -/
theorem filter_missionProofs (missions : SqlTable) :
    (missionProofs missions).filter isDispute =
      (disputed missions).map fun m => Row.ofValues (disputeProof m) := by
  have hdelivery : ((delivered missions).map fun m => Row.ofValues (deliveryProof m)).filter
      isDispute = [] := by
    refine List.filter_eq_nil_iff.2 fun cells hcells => ?_
    obtain ⟨m, -, rfl⟩ := List.mem_map.1 hcells
    simp [isDispute, Row.ofValues, deliveryProof]
  have hdispute : ((disputed missions).map fun m => Row.ofValues (disputeProof m)).filter
      isDispute = (disputed missions).map fun m => Row.ofValues (disputeProof m) := by
    refine List.filter_eq_self.2 fun cells hcells => ?_
    obtain ⟨m, -, rfl⟩ := List.mem_map.1 hcells
    simp [isDispute, Row.ofValues, disputeProof]
  rw [missionProofs, List.filter_append, hdelivery, hdispute, List.nil_append]

/-- **One evidence for each disputed mission, and no other.**  `S` is `proofs` after the
deletion, `E` what has become of it. -/
theorem evidences_eq {missions F S E : SqlTable} {C : Finset String}
    (hF : F.contents = missionProofs missions)
    (hS : S.rows.rows = F.rows.rows.filter fun r => isDispute r.cells)
    (hE : Altered S C asEvidence E) : evidences E = disputesOf missions := by
  have hread : ∀ r : SqlRow, (⟨(asEvidence r).cells "proposal_id", (asEvidence r).cells "offer_id",
      (asEvidence r).cells "actor_id", (asEvidence r).cells "reason"⟩ : Evidence) =
      ⟨r.cells "proposal_id", r.cells "offer_id", r.cells "actor_id",
        (r.cells "reason").or (some (.text ""))⟩ := by
    intro r
    simp [asEvidence]
  have hcells : (F.rows.rows.filter fun r => isDispute r.cells).map Row.cells =
      (disputed missions).map fun m => Row.ofValues (disputeProof m) := by
    rw [← filter_missionProofs, ← hF, contents, List.filter_map]
    rfl
  calc evidences E
      = (F.rows.rows.filter fun r => isDispute r.cells).map fun r =>
          (⟨r.cells "proposal_id", r.cells "offer_id", r.cells "actor_id",
            (r.cells "reason").or (some (.text ""))⟩ : Evidence) := by
        rw [evidences, hE.rows_eq, hS, List.map_map]
        exact List.map_congr_left fun r _ => hread r
    _ = ((F.rows.rows.filter fun r => isDispute r.cells).map Row.cells).map fun cells =>
          (⟨cells "proposal_id", cells "offer_id", cells "actor_id",
            (cells "reason").or (some (.text ""))⟩ : Evidence) := by
        rw [List.map_map]
        rfl
    _ = disputesOf missions := by
        rw [hcells, List.map_map]
        refine List.map_congr_left fun m hm => ?_
        obtain ⟨reason, hreason⟩ := Option.isSome_iff_exists.1 (List.mem_filter.1 hm).2
        simp [Row.ofValues, disputeProof, hreason]

end Migrations

end OrderRun
