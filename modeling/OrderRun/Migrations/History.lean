import OrderRun.Migrations.Runs

/-!
# Removing the missions loses no history, unless a new column is in the way

* `Preserved` — what the proposals and offers must hold in the end, and what the dispute
  evidences must be.
* `Heir.Hides` — a new confirmation column that is already there, without a value, while the
  old column or the mission has one.  0017 leaves the old column where it is, and does not
  merge it into the new one as 0009 does.
* `upgrades_preserve_iff` — the history is preserved exactly if no column hides anything.
-/

namespace OrderRun

open Store Store.Relation Store.Database

namespace Migrations

/-! ## What has to be preserved -/

/-- The mission refers to the row. -/
def Heir.MissionOf (h : Heir) (m r : SqlRow) : Prop := m.cells h.key = some (.int r.id)

instance (h : Heir) (m r : SqlRow) : Decidable (h.MissionOf m r) :=
  inferInstanceAs (Decidable (_ = _))

/-- The row has every timestamp it had, in the new column or in the old one, and what it had
not it has from its mission. -/
structure Heir.Inherits (h : Heir) (m before after : SqlRow) : Prop where
  matched : after.cells h.matchedName = (before.cells h.matchedName).or (m.cells "created_at")
  runner : after.cells "runner_confirmed_at" =
    ((before.cells "runner_confirmed_at").or (before.cells h.runnerName)).or
      (m.cells "delivery_completed_at")
  orderer : after.cells "orderer_confirmed_at" =
    ((before.cells "orderer_confirmed_at").or (before.cells h.ordererName)).or
      (m.cells "received_confirmed_at")

/-- The row has no value that it did not have in the column of the same name, or in the one
of its former name; its status is the one it had, by the name it goes by now. -/
structure Heir.GainsNothing (h : Heir) (before after : SqlRow) : Prop where
  cells : ∀ c v, c ≠ "status" → after.cells c = some v →
    before.cells c = some v ∨ ∃ old, h.formerName c = some old ∧ before.cells old = some v
  status : after.cells "status" =
    if before.cells "status" = some (.text "REFUNDED") then some (.text "RESOLVED")
    else before.cells "status"

/-- The execution history of the missions is still there. -/
structure Preserved (missions : SqlTable) (heir : Heir → SqlTable) (db : SqlDatabase) : Prop where
  rows : ∀ h : Heir, ∃ R, db.tables h.table = some R ∧
    R.rows.rows.map Row.id = (heir h).rows.rows.map Row.id
  inherits : ∀ (h : Heir) (R : SqlTable), db.tables h.table = some R →
    ∀ m ∈ missions.rows, ∀ before ∈ (heir h).rows, ∀ after ∈ R.rows, after.id = before.id →
      h.MissionOf m before → h.Inherits m before after
  others : ∀ (h : Heir) (R : SqlTable), db.tables h.table = some R →
    ∀ before ∈ (heir h).rows, ∀ after ∈ R.rows, after.id = before.id →
      (∀ m ∈ missions.rows, ¬ h.MissionOf m before) → h.GainsNothing before after
  disputes : ∃ E, db.tables "dispute_evidences" = some E ∧
    (evidences E).Perm (disputesOf missions)

/-- The new column is there and empty, and there is a value that belongs into it. -/
def Hides (new old source : String) (R : SqlTable) (m before : SqlRow) : Prop :=
  new ∈ R.columns ∧ before.cells new = none ∧
    (before.cells old ≠ none ∨ m.cells source ≠ none)

instance (new old source : String) (R : SqlTable) (m before : SqlRow) :
    Decidable (Hides new old source R m before) :=
  inferInstanceAs (Decidable (_ ∧ _ ∧ (_ ∨ _)))

/-- One of the two confirmations of the row is hidden. -/
def Heir.HidesConfirmation (h : Heir) (R : SqlTable) (m before : SqlRow) : Prop :=
  Hides "runner_confirmed_at" h.runnerName "delivery_completed_at" R m before ∨
    Hides "orderer_confirmed_at" h.ordererName "received_confirmed_at" R m before

instance (h : Heir) (R : SqlTable) (m before : SqlRow) :
    Decidable (h.HidesConfirmation R m before) :=
  inferInstanceAs (Decidable (_ ∨ _))

/-! ## What becomes of a row -/

section Rows

variable {db db' : SqlDatabase} {missions : SqlTable} {heir : Heir → SqlTable}

/-- A row has at most one mission, so `LIMIT 1` finds it. -/
theorem missionValue_eq (hdb : HoldsMissions db missions heir) {h : Heir} {m r : SqlRow}
    (hm : m ∈ missions.rows) (hr : h.MissionOf m r) (source : String) :
    missionValue missions h.key source r = m.cells source := by
  unfold missionValue
  cases hfound : missions.rows.rows.find? (refersTo h.key r) with
  | none =>
      have hnot := List.find?_eq_none.1 hfound m hm
      exact absurd (decide_eq_true hr) hnot
  | some m' =>
      have hm' : m' ∈ missions.rows := List.mem_of_find?_eq_some hfound
      have hrefers : refersTo h.key r m' = true := List.find?_some hfound
      have hr' : h.MissionOf m' r := of_decide_eq_true hrefers
      have hid : m'.id = m.id := hdb.unique h m' hm' m hm (Eq.trans hr' (Eq.symm hr))
      rw [Option.bind_some, AutoTable.eq_of_key_eq hm' hm hid]

/-- A value is lost exactly if it is hidden. -/
theorem kept_iff_not_hides {new old source : String} {R : SqlTable} {m before : SqlRow} :
    (if new ∈ R.columns then before.cells new
      else (before.cells new).or ((before.cells old).or (m.cells source))) =
        ((before.cells new).or (before.cells old)).or (m.cells source) ↔
      ¬ Hides new old source R m before := by
  unfold Hides
  by_cases hnew : new ∈ R.columns
  · cases before.cells new <;> cases before.cells old <;> simp [hnew, eq_comm]
  · simp [hnew, Option.or_assoc]

theorem inherits_upgraded_iff (hdb : HoldsMissions db missions heir) {h : Heir} {m r : SqlRow}
    (hm : m ∈ missions.rows) (hr : h.MissionOf m r) :
    h.Inherits m r (h.upgraded missions (heir h).columns r) ↔
      ¬ h.HidesConfirmation (heir h) m r := by
  have hvalue := missionValue_eq hdb hm hr
  have hrunner := h.cells_runner missions (heir h).columns r
  have horderer := h.cells_orderer missions (heir h).columns r
  rw [hvalue] at hrunner horderer
  rw [Heir.HidesConfirmation, not_or, ← kept_iff_not_hides, ← kept_iff_not_hides, ← hrunner,
    ← horderer]
  constructor
  · exact fun hin => ⟨hin.runner, hin.orderer⟩
  · rintro ⟨hr, ho⟩
    exact ⟨by rw [h.cells_matched, hvalue], hr, ho⟩

theorem gainsNothing_upgraded {h : Heir} {r : SqlRow}
    (hr : ∀ m ∈ missions.rows, ¬ h.MissionOf m r) :
    h.GainsNothing r (h.upgraded missions (heir h).columns r) := by
  have hnone : ∀ source, missionValue missions h.key source r = none := fun source =>
    missionValue_eq_none fun m hm hrefers => absurd (of_decide_eq_true hrefers) (hr m hm)
  exact ⟨fun c v hc hv => Heir.upgraded_gains hnone hc hv, h.cells_status _ _ _⟩

/-- The row with the key of an old row is that row, upgraded. -/
theorem eq_upgraded {h : Heir} {R : SqlTable}
    (hR : R.rows.rows = (heir h).rows.rows.map (h.upgraded missions (heir h).columns))
    {before after : SqlRow} (hbefore : before ∈ (heir h).rows) (hafter : after ∈ R.rows)
    (hid : after.id = before.id) : after = h.upgraded missions (heir h).columns before := by
  have hmem : after ∈ R.rows.rows := hafter
  rw [hR] at hmem
  obtain ⟨r, hr, rfl⟩ := List.mem_map.1 hmem
  rw [Heir.id_upgraded] at hid
  have he : r = before := AutoTable.eq_of_key_eq (t := (heir h).rows) hr hbefore hid
  rw [he]

/-- Of a database that has gone through all five migrations. -/
theorem preserved_iff (hdb : HoldsMissions db missions heir) (h' : Upgraded missions heir db') :
    Preserved missions heir db' ↔ ∀ h : Heir, ∀ m ∈ missions.rows, ∀ before ∈ (heir h).rows,
      h.MissionOf m before → ¬ h.HidesConfirmation (heir h) m before := by
  constructor
  · intro hp h m hm before hbefore hmission
    obtain ⟨R, hR, hrows⟩ := h'.rows_eq h
    have hafter : h.upgraded missions (heir h).columns before ∈ R.rows := by
      rw [AutoTable.mem_iff, hrows]
      exact List.mem_map_of_mem hbefore
    have hin := hp.inherits h R hR m hm before hbefore _ hafter (h.id_upgraded _ _ _) hmission
    exact (inherits_upgraded_iff hdb hm hmission).1 hin
  · intro hcond
    refine ⟨?_, ?_, ?_, ?_⟩
    · intro h
      obtain ⟨R, hR, hrows⟩ := h'.rows_eq h
      refine ⟨R, hR, ?_⟩
      rw [hrows, List.map_map]
      exact List.map_congr_left fun r _ => h.id_upgraded _ _ r
    · intro h R hR m hm before hbefore after hafter hid hmission
      obtain ⟨R', hR', hrows⟩ := h'.rows_eq h
      obtain rfl : R' = R := Option.some.inj (hR'.symm.trans hR)
      rw [eq_upgraded hrows hbefore hafter hid]
      exact (inherits_upgraded_iff hdb hm hmission).2 (hcond h m hm before hbefore hmission)
    · intro h R hR before hbefore after hafter hid hmission
      obtain ⟨R', hR', hrows⟩ := h'.rows_eq h
      obtain rfl : R' = R := Option.some.inj (hR'.symm.trans hR)
      rw [eq_upgraded hrows hbefore hafter hid]
      exact gainsNothing_upgraded hmission
    · obtain ⟨E, hE, heq⟩ := h'.evidences_eq
      exact ⟨E, hE, heq ▸ List.Perm.refl _⟩

/-- **The migrations preserve the execution history exactly if no new column hides a
confirmation.**  They go through on every database with missions, except that MySQL refuses a
status its enumeration does not list. -/
theorem upgrades_preserve_iff (hdb : HoldsMissions db missions heir) (dialect : String) :
    ((∃ db', upgrades dialect db = .ok db') ↔
      (dialect = "mysql" → ∀ h : Heir, h.Enumerated (heir h))) ∧
    ∀ db', upgrades dialect db = .ok db' →
      (Preserved missions heir db' ↔ ∀ h : Heir, ∀ m ∈ missions.rows,
        ∀ before ∈ (heir h).rows, h.MissionOf m before →
          ¬ h.HidesConfirmation (heir h) m before) := by
  have hlisted : (∃ db', upgrades dialect db = .ok db') →
      dialect = "mysql" → ∀ h : Heir, h.Enumerated (heir h) := by
    rintro ⟨db', hrun⟩ rfl
    exact enumerated_of_upgrades hdb hrun
  refine ⟨⟨hlisted, fun h => ?_⟩, fun db' hrun => ?_⟩
  · obtain ⟨db', hrun, -⟩ := upgrades_gives hdb h
    exact ⟨db', hrun⟩
  · exact preserved_iff hdb ((upgrades_gives hdb (hlisted ⟨db', hrun⟩)).of_eq_ok hrun)

end Rows

/-! ## One deal -/

namespace Sample

/-- A table with these columns and rows. -/
def table (columns : List (Column String)) (rows : List (List (String × Option SqlValue))) :
    SqlTable :=
  match (Relation.create columns).insertAll rows with
  | .ok R => R
  | .error _ => Relation.create columns

/-- The runner of the deal has delivered, and the orderer has not received. -/
def missions : SqlTable :=
  table MISSION_COLUMNS [[("proposal_id", some (.int 1)), ("offer_id", some (.int 1)),
    ("orderer_id", some (.text "orderer")), ("runner_id", some (.text "runner")),
    ("status", some (.text "DISPUTED")), ("dispute_reason", some (.text "not received")),
    ("created_at", some (.time 10)), ("delivery_completed_at", some (.time 20)),
    ("updated_at", some (.time 30))]]

/-- The proposal and the offer of the deal, in tables with some of the columns already. -/
def heir (columns : List (Column String)) : Heir → SqlTable
  | .proposals => table (⟨"status", false⟩ :: columns) [[("status", some (.text "DISPUTED"))]]
  | .offers => table (⟨"status", false⟩ :: columns) [[("status", some (.text "DISPUTED"))]]

def db (columns : List (Column String)) : SqlDatabase where
  tables := fun t =>
    if t = "missions" then some missions
    else if t = "proposals" then some (heir columns .proposals)
    else if t = "offers" then some (heir columns .offers)
    else none

/-- 0001 creates the tables with the columns of today's models, and this is one of them. -/
def newColumn : List (Column String) := [⟨"runner_confirmed_at", true⟩]

theorem holdsMissions {columns : List (Column String)}
    (hstatus : ∀ h : Heir, "status" ∈ (heir columns h).columns) :
    HoldsMissions (db columns) missions (heir columns) where
  missions_eq := rfl
  heir_eq := by
    intro h
    cases h <;> rfl
  columns := by
    unfold HasMissionColumns
    decide +kernel
  unique := by
    intro h
    show ∀ m ∈ missions.rows.rows, ∀ m' ∈ missions.rows.rows,
      m.cells h.key = m'.cells h.key → m.id = m'.id
    cases h <;> decide +kernel
  status := hstatus
  no_proofs := rfl
  no_evidences := rfl

theorem enumerated (columns : List (Column String))
    (h : ∀ h : Heir, ((heir columns h).rows.rows.map fun r => r.cells "status") =
      [some (.text "DISPUTED")]) (x : Heir) : x.Enumerated (heir columns x) := by
  have hdisputed : SqlValue.text "DISPUTED" ∈ (withRefunded x.statuses).map SqlValue.text := by
    cases x <;> decide
  intro r hr
  have hcell : r.cells "status" ∈ (heir columns x).rows.rows.map fun r => r.cells "status" :=
    List.mem_map_of_mem hr
  rw [h x, List.mem_singleton] at hcell
  exact ⟨_, hdisputed, hcell⟩

end Sample

/-- Without the new columns nothing can be hidden: the deal keeps its history. -/
theorem sample_preserved : ∃ db', upgrades "mysql" (Sample.db []) = .ok db' ∧
    Preserved Sample.missions (Sample.heir []) db' := by
  have hdb : HoldsMissions (Sample.db []) Sample.missions (Sample.heir []) :=
    Sample.holdsMissions fun h => by cases h <;> decide +kernel
  have hlisted : ∀ h : Heir, h.Enumerated (Sample.heir [] h) :=
    Sample.enumerated [] fun h => by cases h <;> decide +kernel
  have hcond : ∀ h : Heir, ∀ m ∈ Sample.missions.rows.rows, ∀ before ∈ (Sample.heir [] h).rows.rows,
      h.MissionOf m before → ¬ h.HidesConfirmation (Sample.heir [] h) m before := by
    intro h
    cases h <;> decide +kernel
  obtain ⟨db', hrun⟩ := (upgrades_preserve_iff hdb "mysql").1.2 fun _ => hlisted
  exact ⟨db', hrun, ((upgrades_preserve_iff hdb "mysql").2 db' hrun).2 hcond⟩

/-- The runner's confirmation is lost from `runner_confirmed_at` if that column was there. -/
theorem sample_not_preserved :
    HoldsMissions (Sample.db Sample.newColumn) Sample.missions (Sample.heir Sample.newColumn) ∧
    ∃ db', upgrades "mysql" (Sample.db Sample.newColumn) = .ok db' ∧
      ¬ Preserved Sample.missions (Sample.heir Sample.newColumn) db' := by
  have hdb : HoldsMissions (Sample.db Sample.newColumn) Sample.missions
      (Sample.heir Sample.newColumn) :=
    Sample.holdsMissions fun h => by cases h <;> decide +kernel
  have hlisted : ∀ h : Heir, h.Enumerated (Sample.heir Sample.newColumn h) :=
    Sample.enumerated _ fun h => by cases h <;> decide +kernel
  have hhidden : ∃ m ∈ Sample.missions.rows.rows,
      ∃ before ∈ (Sample.heir Sample.newColumn .proposals).rows.rows,
        Heir.proposals.MissionOf m before ∧
          Heir.proposals.HidesConfirmation (Sample.heir Sample.newColumn .proposals) m before := by
    decide +kernel
  obtain ⟨m, hm, before, hbefore, hmission, hhides⟩ := hhidden
  obtain ⟨db', hrun, hupgraded⟩ := upgrades_gives hdb fun _ : "mysql" = "mysql" => hlisted
  exact ⟨hdb, db', hrun, fun hp =>
    (preserved_iff hdb hupgraded).1 hp .proposals m hm before hbefore hmission hhides⟩

end Migrations

end OrderRun
