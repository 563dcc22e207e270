import Mathlib.Algebra.Order.Floor.Semiring
import Mathlib.Data.Prod.Lex
import Mathlib.Data.Rat.Floor
import Mathlib.Tactic.FieldSimp
import OrderRun.Lib.Table

/-!
# Pages of a query

A query is answered page by page: every request runs it again and takes one window of the
answer.  The windows of one answer partition it.  When each request may get another answer,
because the order of the query leaves ties, they need not.

* `Answer` — the selected rows in an order the query admits; `Answer.unique`.
* `KeyOrder`, `answer_select` — an order that ends with the key leaves no choice.
* `window`, `flatMap_window` — the pages of one answer, put together.
* `pageCount`, `pageCount_eq_ceil` — how many there are.
* `walk`, `walk_eq` — page after page, until one says that it is the last.
* `Cut` — rows with the same stamp on both sides of a page boundary.
* `exhaustive_iff` — over answers chosen anew for every page, each row is seen exactly once,
  and in order, exactly if no such rows are cut.
-/

namespace Pages

universe u v

variable {α : Type u} {β : Type v}

/-! ## Answers -/

/-- The rows `xs` in an order the query admits. -/
structure Answer (xs : List α) (le : α → α → Prop) (ys : List α) : Prop where
  perm : ys.Perm xs
  sorted : ys.Pairwise le

/-- An order without ties leaves no choice. -/
theorem Answer.unique {xs ys zs : List α} {le : α → α → Prop}
    (hanti : ∀ a ∈ xs, ∀ b ∈ xs, le a b → le b a → a = b) (hy : Answer xs le ys)
    (hz : Answer xs le zs) : ys = zs :=
  (hy.perm.trans hz.perm.symm).eq_of_pairwise (fun a b ha hb hab hba =>
    hanti a (hy.perm.mem_iff.1 ha) b (hz.perm.mem_iff.1 hb) hab hba) hy.sorted hz.sorted

/-- An `ORDER BY` clause that ends with the key. -/
structure KeyOrder [Store.Keyed α β] (le : α → α → Bool) : Prop where
  total : ∀ a b, le a b = true ∨ le b a = true
  trans : ∀ a b c, le a b = true → le b c = true → le a c = true
  antisymm : ∀ a b, le a b = true → le b a = true → Store.Keyed.key a = Store.Keyed.key b

section Tables

open Store

variable [Keyed α β] {t : Table α} {p q : α → Bool} {le : α → α → Bool} {ys : List α}

/-- What a table answers. -/
theorem answer_select (hle : KeyOrder le) (t : Table α) (p : α → Bool) :
    Answer (t.rows.filter p) (fun r s => le r s = true) (t.select p le) := by
  have : Std.Total (fun a b => le a b = true) := ⟨hle.total⟩
  have : IsTrans α (fun a b => le a b = true) := ⟨hle.trans⟩
  exact ⟨List.perm_insertionSort _ _, List.pairwise_insertionSort _ _⟩

theorem eq_select (hle : KeyOrder le)
    (h : Answer (t.rows.filter p) (fun r s => le r s = true) ys) : ys = t.select p le := by
  refine h.unique (fun a ha b hb hab hba => ?_) (answer_select hle t p)
  exact Table.eq_of_key_eq (List.mem_filter.1 ha).1 (List.mem_filter.1 hb).1
    (hle.antisymm a b hab hba)

/-- A narrower query sees the rows in the same order. -/
theorem filter_select (hle : KeyOrder le) (hpq : ∀ r, q r = true → p r = true) :
    (t.select p le).filter q = t.select q le := by
  have hwide := answer_select hle t p
  refine eq_select hle ⟨(hwide.perm.filter q).trans ?_, hwide.sorted.sublist List.filter_sublist⟩
  rw [List.filter_filter]
  refine List.Perm.of_eq (List.filter_congr fun r _ => ?_)
  cases hq : q r with
  | true => rw [hpq r hq]; rfl
  | false => rfl

end Tables

/-- The order of a value that the key can be read off. -/
theorem KeyOrder.of_le {γ : Type*} [Store.Keyed α β] [LinearOrder γ] {le : α → α → Bool}
    (f : α → γ) (hle : ∀ a b, le a b = true ↔ f a ≤ f b)
    (hkey : ∀ a b, f a = f b → Store.Keyed.key a = Store.Keyed.key b) : KeyOrder le where
  total a b := by
    rw [hle, hle]
    exact le_total (f a) (f b)
  trans a b c hab hbc := by
    rw [hle] at *
    exact hab.trans hbc
  antisymm a b hab hba := by
    rw [hle] at hab hba
    exact hkey a b (le_antisymm hab hba)

theorem keyOrder_latestFirst [Store.Keyed α ℕ] [LinearOrder β] (stamp : α → β) :
    KeyOrder (Store.latestFirst stamp) := by
  refine .of_le (fun r => toLex (OrderDual.toDual (stamp r), OrderDual.toDual (Store.Keyed.key r)))
    (fun r s => ?_) fun r s h => ?_
  · rw [Store.latestFirst_iff, Prod.Lex.toLex_le_toLex]
    exact or_congr Iff.rfl (and_congr_left fun _ => eq_comm)
  · exact congrArg OrderDual.ofDual (congrArg Prod.snd (toLex_inj.1 h))

/-! ## Windows -/

/-- `OFFSET page * size LIMIT size`. -/
def window (xs : List α) (size page : ℕ) : List α := (xs.drop (page * size)).take size

theorem take_succ_mul (xs : List α) (size page : ℕ) :
    xs.take ((page + 1) * size) = xs.take (page * size) ++ window xs size page := by
  rw [Nat.add_mul, Nat.one_mul, List.take_add]
  rfl

/-- **The first pages, put together.** -/
theorem flatMap_window (xs : List α) (size n : ℕ) :
    (List.range n).flatMap (window xs size) = xs.take (n * size) := by
  induction n with
  | zero => simp
  | succ n ih =>
      rw [List.range_succ, List.flatMap_append, ih, List.flatMap_singleton, take_succ_mul]

theorem window_eq_nil {xs : List α} {size page : ℕ} (h : xs.length ≤ page * size) :
    window xs size page = [] := by
  unfold window
  rw [List.drop_eq_nil_of_le h, List.take_nil]

theorem map_window {f : α → β} (xs : List α) (size page : ℕ) :
    window (xs.map f) size page = (window xs size page).map f := by
  unfold window
  rw [List.map_take, List.map_drop]

/-! ## How many pages there are -/

/-- The number of pages. -/
def pageCount (total size : ℕ) : ℕ := (total + size - 1) / size

theorem pageCount_le_iff {total size n : ℕ} (hsize : 0 < size) :
    pageCount total size ≤ n ↔ total ≤ n * size := by
  unfold pageCount
  rw [Nat.div_le_iff_le_mul_add_pred hsize, Nat.mul_comm]
  omega

theorem lt_pageCount_iff {total size n : ℕ} (hsize : 0 < size) :
    n < pageCount total size ↔ n * size < total := by
  rw [← not_le, pageCount_le_iff hsize, not_le]

/-- The quotient, rounded up. -/
theorem pageCount_eq_ceil (total : ℕ) {size : ℕ} (hsize : 0 < size) :
    pageCount total size = ⌈(total : ℚ) / size⌉₊ := by
  have hpos : (0 : ℚ) < size := by exact_mod_cast hsize
  refine eq_of_forall_ge_iff fun n => ?_
  rw [pageCount_le_iff hsize, Nat.ceil_le, div_le_iff₀ hpos]
  exact_mod_cast Iff.rfl

/-- All pages, put together. -/
theorem flatMap_window_pageCount (xs : List α) {size : ℕ} (hsize : 0 < size) :
    (List.range (pageCount xs.length size)).flatMap (window xs size) = xs := by
  rw [flatMap_window]
  exact List.take_of_length_le ((pageCount_le_iff hsize).1 le_rfl)

/-! ## Walking through the pages -/

/-- What is seen from a page on, until a page says that it is the last; nothing comes back if
the fuel runs out before. -/
def walk (fetch : ℕ → List α × Bool) : ℕ → ℕ → Option (List α)
  | 0, _ => none
  | fuel + 1, page =>
      if (fetch page).2 then some (fetch page).1
      else (walk fetch fuel (page + 1)).map ((fetch page).1 ++ ·)

/-- **A walk through the windows of a list** sees what is left of the list. -/
theorem walk_eq {fetch : ℕ → List α × Bool} {xs : List α} {size : ℕ} (hsize : 0 < size)
    (hcontent : ∀ page, (fetch page).1 = window xs size page)
    (hlast : ∀ page, (fetch page).2 = true ↔ pageCount xs.length size ≤ page + 1)
    {fuel page : ℕ} (hfuel : pageCount xs.length size ≤ page + fuel) (hpos : 0 < fuel) :
    walk fetch fuel page = some (xs.drop (page * size)) := by
  induction fuel generalizing page with
  | zero => exact absurd hpos (lt_irrefl 0)
  | succ fuel ih =>
      unfold walk
      by_cases hend : pageCount xs.length size ≤ page + 1
      · rw [if_pos ((hlast page).2 hend), hcontent]
        have hle := (pageCount_le_iff hsize).1 hend
        have hrest : (xs.drop (page * size)).length ≤ size := by
          rw [Nat.add_mul, Nat.one_mul] at hle
          rw [List.length_drop]
          omega
        exact congrArg some (List.take_of_length_le hrest)
      · rw [if_neg (mt (hlast page).1 hend), hcontent, ih (by omega) (by omega)]
        have hsplit : window xs size page ++ xs.drop ((page + 1) * size) =
            xs.drop (page * size) := by
          rw [Nat.add_mul, Nat.one_mul, ← List.drop_drop]
          exact List.take_append_drop _ _
        rw [Option.map_some, hsplit]

/-! ## Ties -/

section Ties

variable [LinearOrder β] {stamp : α → β} {xs ys zs : List α} {size : ℕ}

/-- `ORDER BY stamp DESC`. -/
def Newer (stamp : α → β) (r s : α) : Prop := stamp s ≤ stamp r

instance (stamp : α → β) : DecidableRel (Newer stamp) := fun _ _ =>
  inferInstanceAs (Decidable (_ ≤ _))

/-- Rows with one stamp on both sides of a page boundary. -/
def Cut (stamp : α → β) (xs : List α) (size : ℕ) : Prop :=
  ∃ page c, xs.countP (fun r => c < stamp r) < page * size ∧
    page * size < xs.countP (fun r => c ≤ stamp r)

/-- Whatever the rows that come before inherit, holds of the first rows and of no others. -/
structure Upward (stamp : α → β) (p : α → Bool) : Prop where
  mono : ∀ r s, Newer stamp r s → p s = true → p r = true

theorem Upward.lt (c : β) : Upward stamp fun r => c < stamp r :=
  ⟨fun _ _ h hs => decide_eq_true ((of_decide_eq_true hs).trans_le h)⟩

theorem Upward.le (c : β) : Upward stamp fun r => c ≤ stamp r :=
  ⟨fun _ _ h hs => decide_eq_true ((of_decide_eq_true hs).trans h)⟩

namespace Upward

variable {p : α → Bool} (hp : Upward stamp p)

include hp

theorem forall_not {r : α} (hsorted : (r :: ys).Pairwise (Newer stamp)) (hr : ¬ p r = true) :
    ∀ s ∈ r :: ys, ¬ p s = true := by
  intro s hs hps
  rcases List.mem_cons.1 hs with rfl | hs
  · exact hr hps
  · exact hr (hp.mono r s ((List.pairwise_cons.1 hsorted).1 s hs) hps)

theorem getElem_iff (hsorted : ys.Pairwise (Newer stamp)) {i : ℕ} (hi : i < ys.length) :
    p ys[i] = true ↔ i < ys.countP p := by
  induction ys generalizing i with
  | nil => exact absurd hi (Nat.not_lt_zero i)
  | cons r ys ih =>
      by_cases hr : p r = true
      · rw [List.countP_cons_of_pos hr]
        cases i with
        | zero => exact iff_of_true hr (Nat.succ_pos _)
        | succ i =>
            rw [Nat.succ_lt_succ_iff]
            exact ih (List.pairwise_cons.1 hsorted).2 (Nat.lt_of_succ_lt_succ hi)
      · have hnone := hp.forall_not hsorted hr
        rw [List.countP_eq_zero.2 hnone]
        exact iff_of_false (hnone _ (List.getElem_mem hi)) (Nat.not_lt_zero i)

theorem take_countP (hsorted : ys.Pairwise (Newer stamp)) :
    ys.take (ys.countP p) = ys.filter p := by
  induction ys with
  | nil => rfl
  | cons r ys ih =>
      by_cases hr : p r = true
      · rw [List.countP_cons_of_pos hr, List.filter_cons_of_pos hr, List.take_succ_cons,
          ih (List.pairwise_cons.1 hsorted).2]
      · have hnone := hp.forall_not hsorted hr
        rw [List.countP_eq_zero.2 hnone, List.filter_eq_nil_iff.2 hnone, List.take_zero]

end Upward

/-- Of two answers, the first pages hold the same rows, unless rows with one stamp are cut. -/
theorem take_perm (hcut : ¬ Cut stamp xs size) (hy : Answer xs (Newer stamp) ys)
    (hz : Answer xs (Newer stamp) zs) (page : ℕ) :
    (ys.take (page * size)).Perm (zs.take (page * size)) := by
  have hlength : zs.length = ys.length := (hz.perm.trans hy.perm.symm).length_eq
  rcases Nat.lt_or_ge (page * size) ys.length with hlt | hge
  · -- `c` is the stamp of the first row after the boundary
    obtain ⟨c, hc⟩ : ∃ c, stamp ys[page * size] = c := ⟨_, rfl⟩
    have hupper : page * size < xs.countP (fun r => c ≤ stamp r) := by
      rw [← hy.perm.countP_eq, ← (Upward.le c).getElem_iff hy.sorted hlt]
      exact decide_eq_true hc.ge
    have hlower : xs.countP (fun r => c < stamp r) = page * size := by
      refine le_antisymm ?_ (not_lt.1 fun h => hcut ⟨page, c, h, hupper⟩)
      rw [← hy.perm.countP_eq, ← not_lt, ← (Upward.lt c).getElem_iff hy.sorted hlt]
      simp [hc]
    have htake : ∀ ws, Answer xs (Newer stamp) ws →
        ws.take (page * size) = ws.filter fun r => c < stamp r := by
      intro ws hw
      rw [← hlower, ← hw.perm.countP_eq]
      exact (Upward.lt c).take_countP hw.sorted
    rw [htake ys hy, htake zs hz]
    exact (hy.perm.trans hz.perm.symm).filter _
  · rw [List.take_of_length_le hge, List.take_of_length_le (hlength.trans_le hge)]
    exact hy.perm.trans hz.perm.symm

theorem window_perm (hcut : ¬ Cut stamp xs size) (hy : Answer xs (Newer stamp) ys)
    (hz : Answer xs (Newer stamp) zs) (page : ℕ) :
    (window ys size page).Perm (window zs size page) := by
  have hnext := take_perm hcut hy hz (page + 1)
  rw [take_succ_mul, take_succ_mul] at hnext
  exact (List.perm_append_left_iff _).1
    (hnext.trans ((take_perm hcut hy hz page).symm.append_right _))

/-- The pages of answers that are chosen anew each time. -/
def pages (answers : ℕ → List α) (size n : ℕ) : List α :=
  (List.range n).flatMap fun page => window (answers page) size page

/-- Without a cut every page holds what the page of any fixed answer holds. -/
theorem answer_pages (hcut : ¬ Cut stamp xs size) (hsize : 0 < size) {answers : ℕ → List α}
    (h : ∀ page, Answer xs (Newer stamp) (answers page)) :
    Answer xs (Newer stamp) (pages answers size (pageCount xs.length size)) := by
  have hfirst : (List.range (pageCount xs.length size)).flatMap (window (answers 0) size) =
      answers 0 := by
    rw [← (h 0).perm.length_eq]
    exact flatMap_window_pageCount (answers 0) hsize
  have hperm : ∀ page, (window (answers page) size page).Perm (window (answers 0) size page) :=
    fun page => window_perm hcut (h page) (h 0) page
  constructor
  · refine (List.Perm.flatMap_left _ fun page _ => hperm page).trans ?_
    rw [hfirst]
    exact (h 0).perm
  · have hsorted := (h 0).sorted
    rw [← hfirst, List.pairwise_flatMap] at hsorted
    refine List.pairwise_flatMap.2 ⟨fun page _ => ?_, hsorted.2.imp fun hrs r hr s hs => ?_⟩
    · exact ((h page).sorted.sublist (List.drop_sublist _ _)).sublist (List.take_sublist _ _)
    · exact hrs r ((hperm _).mem_iff.1 hr) s ((hperm _).mem_iff.1 hs)

/-- There is always an answer. -/
theorem exists_answer (stamp : α → β) (xs : List α) : ∃ ys, Answer xs (Newer stamp) ys := by
  have : Std.Total (Newer stamp) := ⟨fun r s => le_total (stamp s) (stamp r)⟩
  have : IsTrans α (Newer stamp) := ⟨fun _ _ _ h h' => le_trans h' h⟩
  exact ⟨_, List.perm_insertionSort _ _, List.pairwise_insertionSort _ _⟩

/-- The stamp of a row that comes after all newer ones, and before all older ones. -/
theorem stamp_getElem (hy : Answer xs (Newer stamp) ys) {c : β} {i : ℕ} (hi : i < ys.length)
    (hlower : xs.countP (fun r => c < stamp r) ≤ i)
    (hupper : i < xs.countP (fun r => c ≤ stamp r)) : stamp ys[i] = c := by
  rw [← hy.perm.countP_eq] at hlower hupper
  refine le_antisymm ?_ ?_
  · have hnot := ((Upward.lt c).getElem_iff hy.sorted hi).not.2 (not_lt.2 hlower)
    simpa using hnot
  · exact of_decide_eq_true (((Upward.le c).getElem_iff hy.sorted hi).2 hupper)

/-- Neighbours with one stamp can also come the other way round. -/
theorem Answer.swap {us ws : List α} {u v : α}
    (h : Answer xs (Newer stamp) (us ++ u :: v :: ws)) (huv : stamp u = stamp v) :
    Answer xs (Newer stamp) (us ++ v :: u :: ws) := by
  have hswap : (us ++ v :: u :: ws).Perm (us ++ u :: v :: ws) :=
    (List.Perm.swap u v ws).append_left us
  refine ⟨hswap.trans h.perm, ?_⟩
  have hsame : (us ++ v :: u :: ws).map stamp = (us ++ u :: v :: ws).map stamp := by
    simp [huv]
  have hsorted : ((us ++ u :: v :: ws).map stamp).Pairwise (fun a b => b ≤ a) :=
    List.pairwise_map.2 h.sorted
  rw [← hsame, List.pairwise_map] at hsorted
  exact hsorted

/-- A row that ends a page. -/
theorem mem_window_end {us ws : List α} {u : α} {page : ℕ} (hsize : 0 < size)
    (hend : us.length + 1 = (page + 1) * size) : u ∈ window (us ++ u :: ws) size page := by
  have hbound : (page + 1) * size = page * size + size := by rw [Nat.add_mul, Nat.one_mul]
  unfold window
  rw [List.drop_append_of_le_length (by omega), List.take_append, List.length_drop]
  refine List.mem_append_right _ ?_
  have hone : size - (us.length - page * size) = 0 + 1 := by omega
  rw [hone, List.take_succ_cons]
  exact List.mem_cons_self

/-- A row that starts a page. -/
theorem mem_window_start {us : List α} (u : α) (ws : List α) {page : ℕ} (hsize : 0 < size)
    (hstart : us.length = page * size) : u ∈ window (us ++ u :: ws) size page := by
  unfold window
  rw [← hstart, List.drop_left]
  obtain ⟨k, rfl⟩ := Nat.exists_eq_succ_of_ne_zero hsize.ne'
  exact List.mem_cons_self

/-- The row after a cut can be moved to the page before it. -/
theorem exists_twice (hcut : Cut stamp xs size) (hsize : 0 < size) :
    ∃ page ys zs r, Answer xs (Newer stamp) ys ∧ Answer xs (Newer stamp) zs ∧
      r ∈ window ys size page ∧ r ∈ window zs size (page + 1) ∧
      page + 1 < pageCount xs.length size := by
  obtain ⟨n, c, hlower, hupper⟩ := hcut
  obtain ⟨page, rfl⟩ : ∃ page, n = page + 1 :=
    Nat.exists_eq_succ_of_ne_zero (by rintro rfl; simp at hlower)
  obtain ⟨zs, hzs⟩ := exists_answer stamp xs
  have hlt : (page + 1) * size < zs.length := by
    rw [hzs.perm.length_eq]
    exact hupper.trans_le List.countP_le_length
  -- the rows on both sides of the boundary
  obtain ⟨i, hi⟩ : ∃ i, (page + 1) * size = i + 1 :=
    Nat.exists_eq_succ_of_ne_zero (Nat.mul_ne_zero (Nat.succ_ne_zero page) hsize.ne')
  obtain ⟨us, u, v, ws, rfl, hus⟩ : ∃ us u v ws, zs = us ++ u :: v :: ws ∧ us.length = i := by
    refine ⟨zs.take i, zs[i], zs[i + 1], zs.drop (i + 2), ?_, ?_⟩
    · rw [List.getElem_cons_drop, List.getElem_cons_drop, List.take_append_drop]
    · rw [List.length_take]
      omega
  have huv : stamp u = stamp v := by
    have hu := stamp_getElem hzs (c := c) (i := i) (by omega) (by omega) (by omega)
    have hv := stamp_getElem hzs (c := c) (i := i + 1) (by omega) (by omega) (by omega)
    rw [List.getElem_append_right (by omega)] at hu hv
    simp only [hus, Nat.sub_self, Nat.add_sub_cancel_left] at hu hv
    exact hu.trans hv.symm
  refine ⟨page, _, _, v, hzs.swap huv, hzs, ?_, ?_, ?_⟩
  · exact mem_window_end hsize (by omega)
  · have hstart : (us ++ [u]).length = (page + 1) * size := by
      rw [List.length_append, hus, hi]
      rfl
    simpa using mem_window_start v ws hsize hstart
  · rw [lt_pageCount_iff hsize, ← hzs.perm.length_eq]
    exact hlt

/-- If no row is ever on two pages, nothing is cut. -/
theorem not_cut_of_nodup (hsize : 0 < size)
    (h : ∀ answers : ℕ → List α, (∀ page, Answer xs (Newer stamp) (answers page)) →
      (pages answers size (pageCount xs.length size)).Nodup) : ¬ Cut stamp xs size := by
  intro hcut
  obtain ⟨page, ys, zs, r, hys, hzs, hry, hrz, hlt⟩ := exists_twice hcut hsize
  have hall := h (fun q => if q = page then ys else zs) fun q => by
    split
    · exact hys
    · exact hzs
  have hapart := (List.nodup_flatMap.1 hall).2
  have hdisjoint := List.pairwise_iff_getElem.1 hapart page (page + 1)
    (by rw [List.length_range]; omega) (by rw [List.length_range]; exact hlt) (Nat.lt_succ_self _)
  simp only [List.getElem_range, Function.onFun, if_pos, if_neg (Nat.succ_ne_self page)]
    at hdisjoint
  exact hdisjoint hry hrz

/-- **When pages of answers that are chosen anew show everything once.**  Each row is on exactly
one page, and newer rows are on earlier pages, exactly if no rows with one stamp are on both
sides of a page boundary.  The pages may show the rows through any view `f`. -/
theorem exhaustive_iff {γ : Type*} (f : α → γ) (hnodup : (xs.map f).Nodup) (hsize : 0 < size) :
    (∀ answers : ℕ → List α, (∀ page, Answer xs (Newer stamp) (answers page)) →
      ∃ rows, Answer xs (Newer stamp) rows ∧
        (pages answers size (pageCount xs.length size)).map f = rows.map f) ↔
      ¬ Cut stamp xs size := by
  refine ⟨fun h => not_cut_of_nodup hsize fun answers hanswers => ?_, fun hcut answers hanswers =>
    ⟨_, answer_pages hcut hsize hanswers, rfl⟩⟩
  obtain ⟨rows, hrows, hmap⟩ := h answers hanswers
  refine List.Nodup.of_map f ?_
  rw [hmap, (hrows.perm.map f).nodup_iff]
  exact hnodup

/-- Without an order, everything has to fit on one page. -/
theorem cut_const_iff (xs : List α) (c : β) (hsize : 0 < size) :
    Cut (fun _ : α => c) xs size ↔ size < xs.length := by
  have hcount : ∀ b : Bool, xs.countP (fun _ => b) = if b then xs.length else 0 := by
    intro b
    cases b <;> simp
  unfold Cut
  simp only [hcount, decide_eq_true_iff]
  constructor
  · rintro ⟨page, b, hlower, hupper⟩
    by_cases hb : b ≤ c
    · rw [if_pos hb] at hupper
      have hpos : 0 < page := by
        rcases Nat.eq_zero_or_pos page with rfl | hpos
        · simp at hlower
        · exact hpos
      exact (Nat.le_mul_of_pos_left size hpos).trans_lt hupper
    · rw [if_neg hb] at hupper
      exact absurd hupper (Nat.not_lt_zero _)
  · intro h
    refine ⟨1, c, ?_, ?_⟩
    · rw [if_neg (lt_irrefl c), Nat.one_mul]
      exact hsize
    · rw [if_pos le_rfl, Nat.one_mul]
      exact h

end Ties

end Pages
