import Mathlib.Data.Finset.Lattice.Lemmas
import OrderRun.Migrations.Versions

/-!
# What the migrations do to one table

The statements of the five migrations on `proposals` are, up to the names of the columns,
those on `offers`.

* `Heir` — the two tables that take over from the missions, with their names for things.
* `addTimestampColumns_gives`, `copyStamp_gives`, `renameTimestampColumn_gives`,
  `renameConfirmations_gives`, ... — one rule for each step: which columns there are
  afterwards, and what has happened to every row.
* `Heir.inherit`, `resolve`, `Heir.confirm` — the steps of one migration on one row, and
  `Heir.upgraded`, all of them.
* `cells_matched`, `cells_runner`, `cells_orderer` — what an upgraded row holds, and
  `Heir.upgraded_gains` — where it may come from.
-/

namespace OrderRun

open Store Store.Relation

namespace Migrations

/-- The tables that take over from the missions. -/
inductive Heir where
  | proposals
  | offers
  deriving DecidableEq

namespace Heir

def table : Heir → String
  | .proposals => "proposals"
  | .offers => "offers"

/-- The column of `missions` that refers to the table. -/
def key : Heir → String
  | .proposals => "proposal_id"
  | .offers => "offer_id"

/-- When the deal was struck. -/
def matchedName : Heir → String
  | .proposals => "matched_at"
  | .offers => "accepted_at"

/-- The old name of `runner_confirmed_at`. -/
def runnerName : Heir → String
  | .proposals => "delivery_reported_at"
  | .offers => "delivery_completed_at"

/-- The old name of `orderer_confirmed_at`. -/
def ordererName : Heir → String
  | .proposals => "received_confirmed_at"
  | .offers => "receipt_confirmed_at"

def timestampColumns : Heir → List String
  | .proposals => PROPOSAL_TIMESTAMP_COLUMNS
  | .offers => OFFER_TIMESTAMP_COLUMNS

def statuses : Heir → List String
  | .proposals => PROPOSAL_STATUSES
  | .offers => OFFER_STATUSES

end Heir

variable {R : SqlTable}

/-! ## 0006 -/

theorem addTimestampColumns_gives (columnNames : List String) (R : SqlTable) :
    Gives (addTimestampColumns columnNames R)
      (Altered R (R.columns ∪ columnNames.toFinset) fun r => r) := by
  -- the loop keeps `existing` equal to the columns of the table
  have hloop : Gives (columnNames.foldlM addTimestampColumn (R, R.columns)) fun s =>
      Altered R (R.columns ∪ columnNames.toFinset) (fun r => r) s.1 := by
    induction columnNames generalizing R with
    | nil => exact gives_ok (by simpa using Altered.refl R)
    | cons c names ih =>
        rw [List.foldlM_cons]
        by_cases hc : c ∈ R.columns
        · have hunion : R.columns ∪ (c :: names).toFinset = R.columns ∪ names.toFinset := by
            rw [List.toFinset_cons, Finset.union_insert, Finset.insert_eq_self]
            exact Finset.mem_union_left _ hc
          have hstep : addTimestampColumn (R, R.columns) c = .ok (R, R.columns) := by
            simp [addTimestampColumn, hc]
          rw [hstep, hunion]
          exact ih R
        · obtain ⟨R', hR', hadd⟩ := addColumn_gives hc
          have hstep : addTimestampColumn (R, R.columns) c = .ok (R', R'.columns) := by
            simp only [addTimestampColumn, hc, if_false, hR', hadd.columns_eq]
            rfl
          rw [hstep]
          refine (ih R').mono fun s hs => ?_
          have hunion : R'.columns ∪ names.toFinset = R.columns ∪ (c :: names).toFinset := by
            rw [hadd.columns_eq, List.toFinset_cons, Finset.union_insert, Finset.insert_union]
          exact hunion ▸ hadd.trans hs
  refine hloop.bind fun s hs => gives_ok hs

/-- A row that no mission with a value refers to gets none. -/
theorem missionValue_eq_none {missions : SqlTable} {key source : String} {r : SqlRow}
    (h : ∀ m ∈ missions.rows, refersTo key r m = true → m.cells source = none) :
    missionValue missions key source r = none := by
  unfold missionValue
  cases hm : missions.rows.rows.find? (refersTo key r) with
  | none => rfl
  | some m => exact h m (List.mem_of_find?_eq_some hm) (List.find?_some hm)

/-- The `EXISTS` clause leaves no row out that would have got a value. -/
theorem copyStamp_gives {column key source : String} {notNull : Bool} {missions : SqlTable}
    (hcolumn : column ∈ R.columns) :
    Gives (copyStamp column key source notNull missions R)
      (Altered R R.columns fun r => r.fill column (missionValue missions key source r)) := by
  refine update_null_gives hcolumn ?_ ?_
  · intro r hr
    rw [Bool.and_eq_true] at hr
    exact Option.isNone_iff_eq_none.1 hr.1
  · intro r hr hnull
    refine missionValue_eq_none fun m hm hrefers => ?_
    rw [hnull, Option.isNone_none, Bool.true_and, List.any_eq_false] at hr
    have hm' := hr m hm
    rw [hrefers, Bool.true_and] at hm'
    cases hv : m.cells source with
    | none => rfl
    | some v => simp [hv] at hm'

/-- What the missions leave to a row. -/
def Heir.inherit (h : Heir) (missions : SqlTable) (r : SqlRow) : SqlRow :=
  (((r.fill h.matchedName (missionValue missions h.key "created_at" r)).fill
    h.runnerName (missionValue missions h.key "delivery_completed_at" r)).fill
    h.ordererName (missionValue missions h.key "received_confirmed_at" r)).fill
    "settled_at" (missionValue missions h.key "settled_at" r)

theorem Heir.cells_inherit_status (h : Heir) (missions : SqlTable) (r : SqlRow) :
    (h.inherit missions r).cells "status" = r.cells "status" := by
  cases h <;> simp [inherit, matchedName, runnerName, ordererName]

/-- The statements of the migration on the table. -/
def Heir.changes0006 (h : Heir) (missions : SqlTable) : List (SqlTable → Sql SqlTable) :=
  [addTimestampColumns h.timestampColumns,
    copyStamp h.matchedName h.key "created_at" false missions,
    copyStamp h.runnerName h.key "delivery_completed_at" true missions,
    copyStamp h.ordererName h.key "received_confirmed_at" true missions,
    copyStamp "settled_at" h.key "settled_at" true missions]

theorem Heir.changes0006_gives (h : Heir) (missions R : SqlTable) :
    Gives (R.runAll (h.changes0006 missions))
      (Altered R (R.columns ∪ h.timestampColumns.toFinset) (h.inherit missions)) := by
  have hnames : h.matchedName ∈ h.timestampColumns ∧ h.runnerName ∈ h.timestampColumns ∧
      h.ordererName ∈ h.timestampColumns ∧ "settled_at" ∈ h.timestampColumns := by
    cases h <;> decide
  obtain ⟨hmatched, hrunner, horderer, hsettled⟩ := hnames
  have hcolumn : ∀ {c : String} {f : SqlRow → SqlRow} {S : SqlTable}, c ∈ h.timestampColumns →
      Altered R (R.columns ∪ h.timestampColumns.toFinset) f S → c ∈ S.columns := by
    intro c f S hc hS
    rw [hS.columns_eq]
    exact Finset.mem_union_right _ (List.mem_toFinset.2 hc)
  have step : ∀ {f g : SqlRow → SqlRow} {S S' : SqlTable},
      Altered R (R.columns ∪ h.timestampColumns.toFinset) f S → Altered S S.columns g S' →
      Altered R (R.columns ∪ h.timestampColumns.toFinset) (fun r => g (f r)) S' :=
    fun hS hS' => hS.columns_eq ▸ hS.trans hS'
  simp only [changes0006, runAll_cons]
  refine (addTimestampColumns_gives _ R).bind fun S₀ h₀ => ?_
  refine (copyStamp_gives (hcolumn hmatched h₀)).bind fun S₁ h₁ => ?_
  have h₁ := step h₀ h₁
  refine (copyStamp_gives (hcolumn hrunner h₁)).bind fun S₂ h₂ => ?_
  have h₂ := step h₁ h₂
  refine (copyStamp_gives (hcolumn horderer h₂)).bind fun S₃ h₃ => ?_
  have h₃ := step h₂ h₃
  refine (copyStamp_gives (hcolumn hsettled h₃)).bind fun S₄ h₄ => ?_
  have h₄ := step h₃ h₄
  exact gives_ok h₄

/-! ## 0009 -/

theorem renameTimestampColumn_gives {old new : String} (hold : old ∈ R.columns) (hne : old ≠ new) :
    Gives (renameTimestampColumn old new R)
      (Altered R (insert new (R.columns.erase old)) fun r => r.move old new) := by
  unfold renameTimestampColumn
  rw [if_neg (not_not_intro hold)]
  split
  · next hnew =>
      -- the merge: what the new column lacks comes from the old one
      refine (update_isNone_gives hnew).bind fun S hS => ?_
      have hcolumns : insert new (R.columns.erase old) = S.columns.erase old := by
        rw [hS.columns_eq]
        exact Finset.insert_eq_self.2 (Finset.mem_erase.2 ⟨hne.symm, hnew⟩)
      rw [hcolumns]
      exact (dropColumn_gives (hS.columns_eq ▸ hold)).mono fun S' hS' => hS.trans hS'
  · next hnew => exact renameColumn_gives hold hnew

/-- `REFUNDED` is called `RESOLVED` now. -/
def resolve (r : SqlRow) : SqlRow :=
  if r.cells "status" = some (.text "REFUNDED") then r.set "status" (some (.text "RESOLVED")) else r

theorem resolveRefunded_gives (hstatus : "status" ∈ R.columns) :
    Gives (resolveRefunded R) (Altered R R.columns resolve) := by
  refine (update_gives hstatus fun _ _ _ _ => Option.some_ne_none _).mono
    fun S hS => hS.congr fun r _ => ?_
  simp only [resolve, decide_eq_true_eq]

theorem cells_resolve (r : SqlRow) {c : String} (hc : c ≠ "status") :
    (resolve r).cells c = r.cells c := by
  unfold resolve
  split
  · rw [Row.cells_set, if_neg hc]
  · rfl

@[simp] theorem id_resolve (r : SqlRow) : (resolve r).id = r.id := by
  unfold resolve
  split <;> rfl

/-- The statements of the migration on the table, without the enumerations of MySQL. -/
def renamed (r : SqlRow) : SqlRow := resolve (r.move "refunded_at" "resolved_at")

/-- The statuses a row may have when `REFUNDED` is still one of them. -/
def Heir.Enumerated (h : Heir) (R : SqlTable) : Prop :=
  R.Listed "status" ((withRefunded h.statuses).map SqlValue.text)

/-- The statements of the migration on the table. -/
def Heir.changes0009 (h : Heir) (dialect : String) : List (SqlTable → Sql SqlTable) :=
  if dialect = "mysql" then
    [renameTimestampColumn "refunded_at" "resolved_at",
      alterMysqlEnum "status" (withRefunded h.statuses), resolveRefunded,
      alterMysqlEnum "status" h.statuses]
  else [renameTimestampColumn "refunded_at" "resolved_at", resolveRefunded]

/-- Without `REFUNDED`, the statuses are listed in the enumeration without `REFUNDED`. -/
theorem Heir.listed_resolve {h : Heir} {S : SqlTable} (hR : h.Enumerated R) {C : Finset String}
    (hS : Altered R C resolve S) : S.Listed "status" (h.statuses.map SqlValue.text) := by
  have hstatuses : "RESOLVED" ∈ h.statuses ∧
      ∀ s ∈ withRefunded h.statuses, s ≠ "REFUNDED" → s ∈ h.statuses := by
    cases h <;> decide
  intro s hs
  obtain ⟨r, hr, rfl⟩ := hS.mem.1 hs
  obtain ⟨v, hv, hcell⟩ := hR r hr
  obtain ⟨text, htext, rfl⟩ := List.mem_map.1 hv
  unfold resolve
  split
  · exact ⟨_, List.mem_map_of_mem hstatuses.1, by rw [Row.cells_set, if_pos rfl]⟩
  · next hne =>
      refine ⟨_, List.mem_map_of_mem (hstatuses.2 text htext ?_), hcell⟩
      rintro rfl
      exact hne hcell

/-- The rename leaves the status alone. -/
theorem Heir.enumerated_move {h : Heir} {S : SqlTable} {C : Finset String}
    (hS : Altered R C (fun r => r.move "refunded_at" "resolved_at") S) :
    h.Enumerated S ↔ h.Enumerated R :=
  hS.listed_iff fun r => by simp

/-- The missions leave the status alone. -/
theorem Heir.enumerated_inherit {h : Heir} {missions S : SqlTable} {C : Finset String}
    (hS : Altered R C (h.inherit missions) S) : h.Enumerated S ↔ h.Enumerated R :=
  hS.listed_iff fun r => h.cells_inherit_status missions r

/-- The columns after the migration. -/
def columns0009 (columns : Finset String) : Finset String :=
  insert "resolved_at" (columns.erase "refunded_at")

theorem Heir.changes0009_gives {h : Heir} {dialect : String} (hrefunded : "refunded_at" ∈ R.columns)
    (hstatus : "status" ∈ R.columns) (hlisted : dialect = "mysql" → h.Enumerated R) :
    Gives (R.runAll (h.changes0009 dialect)) (Altered R (columns0009 R.columns) renamed) := by
  have hrename := renameTimestampColumn_gives hrefunded (show _ ≠ "resolved_at" by decide)
  have hstatus' : "status" ∈ columns0009 R.columns :=
    Finset.mem_insert_of_mem (Finset.mem_erase.2 ⟨by decide, hstatus⟩)
  unfold changes0009
  split
  · next hmysql =>
      simp only [runAll_cons]
      refine hrename.bind fun S₁ h₁ => ?_
      have hstatus₁ : "status" ∈ S₁.columns := h₁.columns_eq ▸ hstatus'
      have hlisted₁ := (enumerated_move h₁).2 (hlisted hmysql)
      refine (setEnum_gives hstatus₁ hlisted₁).bind fun S₂ h₂ => ?_
      have hlisted₂ : h.Enumerated S₂ := (h₂.listed_iff fun _ => rfl).2 hlisted₁
      refine (resolveRefunded_gives (h₂.columns_eq ▸ hstatus₁)).bind fun S₃ h₃ => ?_
      have hcolumns₃ : S₃.columns = S₁.columns := h₃.columns_eq.trans h₂.columns_eq
      have hlisted₃ := listed_resolve hlisted₂ h₃
      refine (setEnum_gives (hcolumns₃ ▸ hstatus₁) hlisted₃).bind fun S₄ h₄ => ?_
      have hall := ((h₁.trans h₂).trans h₃).trans h₄
      rw [hcolumns₃, h₁.columns_eq] at hall
      exact gives_ok hall
  · simp only [runAll_cons]
    refine hrename.bind fun S₁ h₁ => ?_
    refine (resolveRefunded_gives (h₁.columns_eq ▸ hstatus')).bind fun S₂ h₂ => ?_
    have hall := h₁.trans h₂
    rw [h₁.columns_eq] at hall
    exact gives_ok hall

/-- On MySQL the migration goes through only if every status is listed. -/
theorem Heir.enumerated_of_changes0009 {h : Heir} {S : SqlTable}
    (hrefunded : "refunded_at" ∈ R.columns) (hrun : R.runAll (h.changes0009 "mysql") = .ok S) :
    h.Enumerated R := by
  rw [changes0009, if_pos rfl, runAll_cons, except_bind_eq_ok] at hrun
  obtain ⟨S₁, hS₁, hrun⟩ := hrun
  rw [runAll_cons, except_bind_eq_ok] at hrun
  obtain ⟨S₂, hS₂, -⟩ := hrun
  have hrename := renameTimestampColumn_gives hrefunded (show _ ≠ "resolved_at" by decide)
  exact (enumerated_move (hrename.of_eq_ok hS₁)).1 (listed_of_setEnum hS₂)

/-! ## 0017 -/

/-- A new column that was already there stays as it is, and so does the old one. -/
def moveUnlessThere (columns : Finset String) (old new : String) (r : SqlRow) : SqlRow :=
  if new ∈ columns then r else r.move old new

/-- One of the two renames; `columns` was read before either of them. -/
theorem renameUnlessThere_gives {columns : Finset String} {old new : String} (hold : old ∈ columns)
    (hcolumns : old ∈ R.columns ∧ (new ∈ R.columns ↔ new ∈ columns)) :
    Gives (renameUnlessThere columns old new R) fun S =>
      ∃ C, Altered R C (moveUnlessThere columns old new) S ∧
        ∀ c, c ≠ old → c ≠ new → (c ∈ C ↔ c ∈ R.columns) := by
  unfold renameUnlessThere when
  by_cases hnew : new ∈ columns
  · rw [if_neg fun h => h.2 hnew]
    refine gives_ok ⟨R.columns, (Altered.refl R).congr fun r _ => ?_, fun _ _ _ => Iff.rfl⟩
    rw [moveUnlessThere, if_pos hnew]
  · rw [if_pos ⟨hold, hnew⟩]
    refine (renameColumn_gives hcolumns.1 fun h => hnew (hcolumns.2.1 h)).mono fun S hS => ?_
    refine ⟨_, hS.congr fun r _ => ?_, fun c hne hne' => ?_⟩
    · rw [moveUnlessThere, if_neg hnew]
    · rw [Finset.mem_insert, Finset.mem_erase]
      exact ⟨fun h => (h.resolve_left hne').2, fun h => Or.inr ⟨hne, h⟩⟩

/-- The migration on one row of a table with these columns. -/
def Heir.confirm (h : Heir) (columns : Finset String) (r : SqlRow) : SqlRow :=
  (moveUnlessThere columns h.ordererName "orderer_confirmed_at"
    (moveUnlessThere columns h.runnerName "runner_confirmed_at" r)).set "settled_at" none

theorem Heir.renameConfirmations_gives {h : Heir} (hrunner : h.runnerName ∈ R.columns)
    (horderer : h.ordererName ∈ R.columns) (hsettled : "settled_at" ∈ R.columns) :
    Gives (renameConfirmations h.runnerName h.ordererName R) fun S =>
      ∃ C, Altered R C (h.confirm R.columns) S := by
  have hnames : h.ordererName ≠ h.runnerName ∧ h.ordererName ≠ "runner_confirmed_at" ∧
      "orderer_confirmed_at" ≠ h.runnerName ∧ "settled_at" ≠ h.runnerName ∧
      "settled_at" ≠ h.ordererName := by
    cases h <;> decide
  obtain ⟨hne, hne', hne'', hsettled', hsettled''⟩ := hnames
  unfold renameConfirmations
  refine (renameUnlessThere_gives hrunner ⟨hrunner, Iff.rfl⟩).bind fun S₁ h₁ => ?_
  obtain ⟨C₁, h₁, hC₁⟩ := h₁
  rw [← h₁.columns_eq] at hC₁
  have hcolumns : h.ordererName ∈ S₁.columns ∧
      ("orderer_confirmed_at" ∈ S₁.columns ↔ "orderer_confirmed_at" ∈ R.columns) :=
    ⟨(hC₁ _ hne hne').2 horderer, hC₁ _ hne'' (by decide)⟩
  refine (renameUnlessThere_gives horderer hcolumns).bind fun S₂ h₂ => ?_
  obtain ⟨C₂, h₂, hC₂⟩ := h₂
  rw [← h₂.columns_eq] at hC₂
  have hsettled₂ : "settled_at" ∈ S₂.columns :=
    (hC₂ _ hsettled'' (by decide)).2 ((hC₁ _ hsettled' (by decide)).2 hsettled)
  unfold dropColumnIfExists when
  rw [if_pos hsettled₂]
  exact (dropColumn_gives hsettled₂).mono fun S₃ h₃ => ⟨_, (h₁.trans h₂).trans h₃⟩

/-! ## An upgraded row -/

/-- All five migrations on one row of a table with these columns. -/
def Heir.upgraded (h : Heir) (missions : SqlTable) (columns : Finset String) (r : SqlRow) :
    SqlRow :=
  h.confirm columns (renamed (h.inherit missions r))

namespace Heir

variable (h : Heir) (missions : SqlTable) (columns : Finset String) (r : SqlRow)

@[simp] theorem id_upgraded : (h.upgraded missions columns r).id = r.id := by
  simp only [upgraded, confirm, moveUnlessThere, renamed, inherit]
  split <;> split <;> simp

theorem cells_renamed {c : String} (hc : c ≠ "status") :
    (renamed r).cells c = (r.move "refunded_at" "resolved_at").cells c :=
  cells_resolve _ hc

/-- 0017 leaves every other column alone. -/
theorem cells_confirm {c : String} (hc : c ∉ [h.runnerName, h.ordererName, "runner_confirmed_at",
    "orderer_confirmed_at", "settled_at"]) : (h.confirm columns r).cells c = r.cells c := by
  simp only [List.mem_cons, List.not_mem_nil, or_false, not_or] at hc
  obtain ⟨hrunner, horderer, hrunner', horderer', hsettled⟩ := hc
  simp only [confirm, moveUnlessThere]
  split <;> split <;> simp [hrunner, horderer, hrunner', horderer', hsettled]

theorem cells_matched : (h.upgraded missions columns r).cells h.matchedName =
    (r.cells h.matchedName).or (missionValue missions h.key "created_at" r) := by
  have hc : h.matchedName ∉ [h.runnerName, h.ordererName, "runner_confirmed_at",
      "orderer_confirmed_at", "settled_at"] := by
    cases h <;> decide
  rw [upgraded, cells_confirm h columns _ hc]
  cases h <;> simp [matchedName, runnerName, ordererName, cells_renamed, inherit]

theorem cells_runner : (h.upgraded missions columns r).cells "runner_confirmed_at" =
    if "runner_confirmed_at" ∈ columns then r.cells "runner_confirmed_at"
    else (r.cells "runner_confirmed_at").or ((r.cells h.runnerName).or
      (missionValue missions h.key "delivery_completed_at" r)) := by
  simp only [upgraded, confirm, moveUnlessThere]
  cases h <;> split <;> split <;>
    simp [matchedName, runnerName, ordererName, cells_renamed, inherit]

theorem cells_orderer : (h.upgraded missions columns r).cells "orderer_confirmed_at" =
    if "orderer_confirmed_at" ∈ columns then r.cells "orderer_confirmed_at"
    else (r.cells "orderer_confirmed_at").or ((r.cells h.ordererName).or
      (missionValue missions h.key "received_confirmed_at" r)) := by
  simp only [upgraded, confirm, moveUnlessThere]
  cases h <;> split <;> split <;>
    simp [matchedName, runnerName, ordererName, cells_renamed, inherit]

/-- The only status that changes is the one that got another name. -/
theorem cells_status : (h.upgraded missions columns r).cells "status" =
    if r.cells "status" = some (.text "REFUNDED") then some (.text "RESOLVED")
    else r.cells "status" := by
  have hrenamed : (renamed (h.inherit missions r)).cells "status" =
      if r.cells "status" = some (.text "REFUNDED") then some (.text "RESOLVED")
      else r.cells "status" := by
    have hcell : ((h.inherit missions r).move "refunded_at" "resolved_at").cells "status" =
        r.cells "status" := by
      rw [Row.cells_move, if_neg (by decide), if_neg (by decide), cells_inherit_status]
    unfold renamed resolve
    rw [hcell]
    split
    · rw [Row.cells_set, if_pos rfl]
    · exact hcell
  have hc : "status" ∉ [h.runnerName, h.ordererName, "runner_confirmed_at",
      "orderer_confirmed_at", "settled_at"] := by
    cases h <;> decide
  rw [← hrenamed, upgraded, cells_confirm h columns _ hc]

/-- The name a column had before the migrations, if it is not the same. -/
def formerName (c : String) : Option String :=
  if c = "runner_confirmed_at" then some h.runnerName
  else if c = "orderer_confirmed_at" then some h.ordererName
  else if c = "resolved_at" then some "refunded_at"
  else none

variable {h missions columns r} {c old new : String} {v : SqlValue}

theorem gains_move (hv : (r.move old new).cells c = some v) :
    r.cells c = some v ∨ c = new ∧ r.cells old = some v := by
  rw [Row.cells_move] at hv
  split at hv
  · cases hv
  · split at hv
    · next he =>
        subst he
        cases hnew : r.cells c with
        | none => exact Or.inr ⟨rfl, by rwa [hnew, Option.none_or] at hv⟩
        | some w => exact Or.inl (by rwa [hnew, Option.some_or] at hv)
    · exact Or.inl hv

theorem gains_moveUnlessThere (hv : (moveUnlessThere columns old new r).cells c = some v) :
    r.cells c = some v ∨ c = new ∧ r.cells old = some v := by
  unfold moveUnlessThere at hv
  split at hv
  · exact Or.inl hv
  · exact gains_move hv

/-- **A row without a mission gains nothing**: what it holds in the end, it held before, in
the column of that name or of the former name. -/
theorem upgraded_gains (hmission : ∀ source, missionValue missions h.key source r = none)
    (hc : c ≠ "status") (hv : (h.upgraded missions columns r).cells c = some v) :
    r.cells c = some v ∨ ∃ old, h.formerName c = some old ∧ r.cells old = some v := by
  have hinherit : h.inherit missions r = r := by
    simp only [inherit, hmission, Row.fill_none]
  have hnames : h.runnerName ≠ "resolved_at" ∧ h.runnerName ≠ "status" ∧
      h.ordererName ≠ "resolved_at" ∧ h.ordererName ≠ "status" ∧
      h.ordererName ≠ "runner_confirmed_at" := by
    cases h <;> decide
  obtain ⟨hrunner, hrunner', horderer, horderer', hne⟩ := hnames
  -- what a column held between 0009 and 0017
  have hrenamed : ∀ {c : String}, c ≠ "status" → (renamed r).cells c = some v →
      r.cells c = some v ∨ c = "resolved_at" ∧ r.cells "refunded_at" = some v := by
    intro c hc hv
    rw [cells_renamed r hc] at hv
    exact gains_move hv
  rw [upgraded, hinherit, confirm, Row.cells_set] at hv
  split at hv
  · cases hv
  · rcases gains_moveUnlessThere hv with hv | ⟨rfl, hold⟩
    · rcases gains_moveUnlessThere hv with hv | ⟨rfl, hold⟩
      · rcases hrenamed hc hv with hv | ⟨rfl, hold⟩
        · exact Or.inl hv
        · exact Or.inr ⟨_, rfl, hold⟩
      · exact Or.inr ⟨_, rfl, (hrenamed hrunner' hold).resolve_right fun he => hrunner he.1⟩
    · have hold := (gains_moveUnlessThere hold).resolve_right fun he => hne he.1
      exact Or.inr ⟨_, rfl, (hrenamed horderer' hold).resolve_right fun he => horderer he.1⟩

end Heir

end Migrations

end OrderRun
