import Mathlib.Order.Basic
import OrderRun.Deal.Lifecycle

/-!
# What the marks of a deal record

The instants on a deal and on its executed bid are written by many moves in many
orders.  This file proves that they tell what has happened: for every deal that
came about by legal moves (`History`), each mark is present exactly if the move
it names was made, on the deal and on the executed bid alike.

* `History` — a deal with the moves that led to it, latest first.
* `Chronicle`, `History.chronicle` — the marks of the deal mirror those of its
  executed bid, and both mirror the history; every other bid has none.
* `History.ordered` — if the moves were made in the order of their instants, the
  marks are ordered as the lifecycle is.
* `History.marks_keep` — a move never overwrites a mark, except that a delivery
  that comes last stamps the orderer's side of the bid again
  (`History.deliverLast_overwrites`).
-/

namespace OrderRun

variable {β T : Type*}

/-! ## Histories -/

/-- The bid a move is about, for the moves that choose or execute one. -/
def Move.subject : Move β T → Option β
  | .choose b _ => some b
  | .advance _ b _ _ _ => some b
  | _ => none

/-- The instants a move records. -/
def Move.times : Move β T → List T
  | .choose _ t => [t]
  | .advance _ _ t tb tc => [t, tb, tc]
  | _ => []

/-- The bid was chosen. -/
def Chose (ms : List (Move β T)) (b : β) : Prop := ∃ t, Move.choose b t ∈ ms

/-- One of these stages was taken with the bid. -/
def Did (ms : List (Move β T)) (stages : List Stage) (b : β) : Prop :=
  ∃ stage ∈ stages, ∃ t tb tc, Move.advance stage b t tb tc ∈ ms

theorem Chose.cons {ms : List (Move β T)} {b : β} (h : Chose ms b) (m : Move β T) :
    Chose (m :: ms) b :=
  h.imp fun _ ht => List.mem_cons_of_mem _ ht

theorem did_cons_of_subject_none {ms : List (Move β T)} {m : Move β T} (h : m.subject = none)
    {stages : List Stage} {b : β} : Did (m :: ms) stages b ↔ Did ms stages b := by
  have hne : ∀ stage t tb tc, Move.advance stage b t tb tc ≠ m := by
    rintro stage t tb tc rfl
    exact absurd h (by simp [Move.subject])
  simp [Did, hne]

theorem did_cons_choose {ms : List (Move β T)} {c : β} {t : T} {stages : List Stage} {b : β} :
    Did (.choose c t :: ms) stages b ↔ Did ms stages b := by
  simp [Did]

theorem did_cons_advance {ms : List (Move β T)} {stage : Stage} {b : β} {t tb tc : T}
    {stages : List Stage} :
    Did (.advance stage b t tb tc :: ms) stages b ↔ stage ∈ stages ∨ Did ms stages b := by
  constructor
  · rintro ⟨s, hs, t', tb', tc', hm⟩
    rcases List.mem_cons.1 hm with he | hm
    · cases he; exact Or.inl hs
    · exact Or.inr ⟨s, hs, t', tb', tc', hm⟩
  · rintro (hs | ⟨s, hs, t', tb', tc', hm⟩)
    · exact ⟨stage, hs, t, tb, tc, List.mem_cons_self⟩
    · exact ⟨s, hs, t', tb', tc', List.mem_cons_of_mem _ hm⟩

/-- A deal, with the legal moves that led to it, latest first. -/
inductive History [DecidableEq β] : List (Move β T) → Deal β T → Prop where
  | opened : History [] Deal.opened
  | play {ms : List (Move β T)} {d : Deal β T} {m : Move β T} (h : History ms d)
      (legal : d.Legal m) : History (m :: ms) (d.play m)

/-! ## The chronicle -/

/-- The marks of a running deal and of its executed bid agree: the same instant of
matching, and otherwise the same marks present. -/
structure Marks.Mirrors (m n : Marks T) : Prop where
  matched : m.matched = n.matched
  runner : m.runner.isSome = n.runner.isSome
  orderer : m.orderer.isSome = n.orderer.isSome
  disputed : m.disputed.isSome = n.disputed.isSome
  resolved : m.resolved.isSome = n.resolved.isSome

/-- What the marks of a deal record about its executed bid. -/
structure Recorded (ms : List (Move β T)) (d : Deal β T) (x : Bid β T) : Prop where
  chosen : Chose ms x.id
  matched : d.marks.matched.isSome
  mirrors : d.marks.Mirrors x.marks
  runner : d.marks.runner.isSome ↔ Did ms [.deliver, .deliverLast] x.id
  orderer : d.marks.orderer.isSome ↔ Did ms [.receive, .receiveLast] x.id
  disputed : d.marks.disputed.isSome ↔ Did ms [.dispute] x.id
  resolved : d.marks.resolved.isSome ↔ Did ms [.resolve] x.id
  /-- The marks that are still to come, or must be there, by status. -/
  noRunner : x.status = .accepted → d.marks.runner = none
  hasRunner : x.status = .runnerCompleted → d.marks.runner.isSome
  noOrderer : d.status = .matched → d.marks.orderer = none
  hasOrderer : d.status = .orderCompleted → d.marks.orderer.isSome
  noDispute : d.status ∈ [.matched, .orderCompleted, .allCompleted] → d.marks.disputed = none
  noResolve : d.status ≠ .resolved → d.marks.resolved = none

/-- The marks of a deal tell its history. -/
structure Chronicle (ms : List (Move β T)) (d : Deal β T) : Prop where
  /-- Only the executed bid was ever chosen or executed. -/
  subject : ∀ m ∈ ms, ∀ b, m.subject = some b → ∃ x ∈ d.bids, x.id = b ∧ Executed x.status
  /-- A deal without an executed bid has no marks. -/
  blank : (∀ x ∈ d.bids, ¬ Executed x.status) → d.marks = {}
  /-- A bid that is not executed has no marks. -/
  idle : ∀ x ∈ d.bids, ¬ Executed x.status → x.marks = {}
  executed : ∀ x ∈ d.bids, Executed x.status → Recorded ms d x

/-- Before matching, nothing is executed. -/
theorem Deal.Shape.not_executed {d : Deal β T} (hs : d.Shape)
    (h : d.status ∈ [.holding, .posted, .offered])
    {x : Bid β T} (hx : x ∈ d.bids) : ¬ Executed x.status := by
  cases hs with
  | fresh _ hb => rw [hb] at hx; exact absurd hx List.not_mem_nil
  | «open» _ _ hw => exact fun hex => hex.not_open (hw x hx)
  | running z _ ht _ => exfalso; revert h ht; cases d.status <;> cases z.status <;> decide
  | closed hc _ => exfalso; revert h hc; cases d.status <;> decide

theorem mark_of_subject_none {m : Move β T} (hsub : m.subject = none) (marks : Marks T) :
    m.mark marks = marks := by
  cases m with
  | choose b t => exact absurd hsub (by simp [Move.subject])
  | advance stage b t tb tc => exact absurd hsub (by simp [Move.subject])
  | _ => rfl

section Steps

variable [DecidableEq β] {ms : List (Move β T)} {d : Deal β T} {m : Move β T}

/-- What the moves that are about no bid do to a bid. -/
theorem onBid_of_subject_none (hm : m.subject = none) (x : Bid β T) :
    (Executed x.status → m.onBid x = x) ∧
      (¬ Executed x.status → ¬ Executed (m.onBid x).status ∧ (m.onBid x).marks = x.marks) := by
  have hreject : (Executed x.status → x.reject = x) ∧
      (¬ Executed x.status → ¬ Executed x.reject.status ∧ x.reject.marks = x.marks) := by
    refine ⟨fun h => Bid.reject_of_not_waiting h.ne_waiting, fun h => ⟨?_, x.reject_marks⟩⟩
    unfold Bid.reject
    split
    · show ¬ Executed .rejected
      decide
    · exact h
  have hcancel : (Executed x.status → x.cancel = x) ∧
      (¬ Executed x.status → ¬ Executed x.cancel.status ∧ x.cancel.marks = x.marks) := by
    refine ⟨fun h => Bid.cancel_of_not_waiting h.ne_waiting, fun h => ⟨?_, x.cancel_marks⟩⟩
    unfold Bid.cancel
    split
    · show ¬ Executed .cancelled
      decide
    · exact h
  have hid : (Executed x.status → x = x) ∧
      (¬ Executed x.status → ¬ Executed x.status ∧ x.marks = x.marks) :=
    ⟨fun _ => rfl, fun h => ⟨h, rfl⟩⟩
  cases m with
  | edit => exact hid
  | pay => exact hid
  | drop => exact hreject
  | report => exact hreject
  | leave => exact hcancel
  | bid b => exact hid
  | retract gone =>
      rw [Move.onBid_retract]
      split
      · exact hcancel
      · exact hid
  | choose b t => exact absurd hm (by simp [Move.subject])
  | advance stage b t tb tc => exact absurd hm (by simp [Move.subject])

omit [DecidableEq β] in
/-- A move about no bid leaves the status of a running deal alone. -/
theorem dealStatus_of_subject_none (hs : d.Shape) (hm : d.Legal m) (hsub : m.subject = none)
    {x : Bid β T} (hx : x ∈ d.bids) (hex : Executed x.status) :
    m.dealStatus d.status = d.status := by
  have hopen : d.status ∉ [.holding, .posted, .offered] := fun h => hs.not_executed h hx hex
  cases m with
  | retract gone => rfl
  | edit => exact absurd (by have h : _ ∈ _ := hm; simp at h ⊢; tauto) hopen
  | pay => exact absurd (by have h : _ = _ := hm; simp [h]) hopen
  | drop => exact absurd hm hopen
  | report => exact absurd (List.mem_cons_of_mem _ hm) hopen
  | leave => exact absurd hm hopen
  | bid b => exact absurd (List.mem_cons_of_mem _ hm.1) hopen
  | choose b t => exact absurd hsub (by simp [Move.subject])
  | advance stage b t tb tc => exact absurd hsub (by simp [Move.subject])

/-- A bid after a move about no bid: an executed one is unchanged, any other has
kept its marks; a new one has none. -/
theorem mem_play_of_subject_none (hsub : m.subject = none) {y : Bid β T}
    (hy : y ∈ (d.play m).bids) :
    (Executed y.status → y ∈ d.bids) ∧
      (¬ Executed y.status → y.marks = {} ∨
        ∃ x ∈ d.bids, ¬ Executed x.status ∧ y.marks = x.marks) := by
  unfold Deal.play at hy
  rcases List.mem_append.1 hy with hy | hy
  · obtain ⟨x, hx, rfl⟩ := List.mem_map.1 hy
    obtain ⟨hon, hoff⟩ := onBid_of_subject_none hsub x
    by_cases hex : Executed x.status
    · rw [hon hex]
      exact ⟨fun _ => hx, fun h => absurd hex h⟩
    · exact ⟨fun h => absurd h (hoff hex).1, fun _ => Or.inr ⟨x, hx, hex, (hoff hex).2⟩⟩
  · cases m with
    | bid b =>
        rw [List.mem_singleton.1 hy]
        exact ⟨fun h => absurd h (show ¬ Executed .waiting by decide), fun _ => Or.inl rfl⟩
    | _ => exact absurd hy List.not_mem_nil

theorem chronicle_of_subject_none (h : Chronicle ms d) (hs : d.Shape) (hm : d.Legal m)
    (hsub : m.subject = none) : Chronicle (m :: ms) (d.play m) := by
  have hstay : ∀ x ∈ d.bids, Executed x.status → x ∈ (d.play m).bids := by
    intro x hx hex
    refine List.mem_append_left _ (List.mem_map.2 ⟨x, hx, ?_⟩)
    exact (onBid_of_subject_none hsub x).1 hex
  have hmarks : (d.play m).marks = d.marks := mark_of_subject_none hsub d.marks
  refine ⟨?_, ?_, ?_, ?_⟩
  · intro m' hm' b hb
    rcases List.mem_cons.1 hm' with rfl | hm'
    · rw [hsub] at hb; exact absurd hb (by simp)
    · obtain ⟨x, hx, hid, hex⟩ := h.subject m' hm' b hb
      exact ⟨x, hstay x hx hex, hid, hex⟩
  · intro hnone
    rw [hmarks]
    exact h.blank fun x hx hex => hnone x (hstay x hx hex) hex
  · intro y hy hex
    rcases (mem_play_of_subject_none hsub hy).2 hex with he | ⟨x, hx, hxe, he⟩
    · exact he
    · rw [he]; exact h.idle x hx hxe
  · intro x hx' hex
    have hx := (mem_play_of_subject_none hsub hx').1 hex
    have hstatus : (d.play m).status = d.status := dealStatus_of_subject_none hs hm hsub hx hex
    have hr := h.executed x hx hex
    exact {
      chosen := hr.chosen.cons m
      matched := by rw [hmarks]; exact hr.matched
      mirrors := by rw [hmarks]; exact hr.mirrors
      runner := by rw [hmarks, did_cons_of_subject_none hsub]; exact hr.runner
      orderer := by rw [hmarks, did_cons_of_subject_none hsub]; exact hr.orderer
      disputed := by rw [hmarks, did_cons_of_subject_none hsub]; exact hr.disputed
      resolved := by rw [hmarks, did_cons_of_subject_none hsub]; exact hr.resolved
      noRunner := by rw [hmarks]; exact hr.noRunner
      hasRunner := by rw [hmarks]; exact hr.hasRunner
      noOrderer := by rw [hmarks, hstatus]; exact hr.noOrderer
      hasOrderer := by rw [hmarks, hstatus]; exact hr.hasOrderer
      noDispute := by rw [hmarks, hstatus]; exact hr.noDispute
      noResolve := by rw [hmarks, hstatus]; exact hr.noResolve }

/-- Choosing a bid: nothing has been recorded so far. -/
theorem chronicle_choose (h : Chronicle ms d) (hs : d.Shape) (hd : d.Distinct) {b : β} {t : T}
    (hm : d.Legal (.choose b t)) :
    Chronicle (.choose b t :: ms) (d.play (.choose b t)) := by
  obtain ⟨hst, x, hx, rfl, hw⟩ := hm
  have hnone : ∀ y ∈ d.bids, ¬ Executed y.status :=
    fun y hy => hs.not_executed (by simp [hst]) hy
  have hmarks : d.marks = {} := h.blank hnone
  have hxm : x.marks = {} := h.idle x hx (hnone x hx)
  have hnodid : ∀ stages, ¬ Did ms stages x.id := by
    rintro stages ⟨stage, -, t', tb, tc, hmem⟩
    obtain ⟨y, hy, -, hey⟩ := h.subject _ hmem x.id rfl
    exact hnone y hy hey
  -- the chosen bid is the only executed one afterwards
  have hbids : ∀ y ∈ (d.play (.choose x.id t)).bids,
      y = ⟨x.id, .accepted, { matched := some t }⟩ ∨ (¬ Executed y.status ∧ y.marks = {}) := by
    intro y hy
    obtain ⟨z, hz, rfl⟩ := (Deal.mem_play rfl).1 hy
    rw [Move.onBid_choose]
    split
    · next hid =>
        rw [hd.eq hz hx hid, hxm]
        exact Or.inl rfl
    · refine Or.inr ⟨?_, by rw [Bid.reject_marks]; exact h.idle z hz (hnone z hz)⟩
      unfold Bid.reject
      split
      · show ¬ Executed .rejected
        decide
      · exact hnone z hz
  have hmem : (⟨x.id, .accepted, { matched := some t }⟩ : Bid β T) ∈
      (d.play (.choose x.id t)).bids := by
    refine (Deal.mem_play rfl).2 ⟨x, hx, ?_⟩
    rw [Move.onBid_choose, if_pos rfl, hxm]
  have hex : Executed .accepted := by decide
  have hmarks' : (d.play (.choose x.id t)).marks = { matched := some t } := by
    show Marks.mk (some t) d.marks.runner d.marks.orderer d.marks.disputed d.marks.resolved = _
    rw [hmarks]
  refine ⟨?_, ?_, ?_, ?_⟩
  · intro m' hm' b hb
    rcases List.mem_cons.1 hm' with rfl | hm'
    · exact ⟨_, hmem, by simpa [Move.subject] using hb, hex⟩
    · obtain ⟨y, hy, -, hey⟩ := h.subject m' hm' b hb
      exact absurd hey (hnone y hy)
  · intro hno
    exact absurd hex (hno _ hmem)
  · intro y hy hey
    rcases hbids y hy with rfl | ⟨-, he⟩
    · exact absurd hex hey
    · exact he
  · intro y hy hey
    rcases hbids y hy with rfl | ⟨hno, -⟩
    · have hstatus : (d.play (.choose x.id t)).status = .matched := rfl
      exact {
        chosen := ⟨t, List.mem_cons_self⟩
        matched := by rw [hmarks']; rfl
        mirrors := by rw [hmarks']; exact ⟨rfl, rfl, rfl, rfl, rfl⟩
        runner := by simp [hmarks', did_cons_choose, hnodid]
        orderer := by simp [hmarks', did_cons_choose, hnodid]
        disputed := by simp [hmarks', did_cons_choose, hnodid]
        resolved := by simp [hmarks', did_cons_choose, hnodid]
        noRunner := fun _ => by rw [hmarks']
        hasRunner := fun h => absurd h (by simp)
        noOrderer := fun _ => by rw [hmarks']
        hasOrderer := by simp [hstatus]
        noDispute := fun _ => by rw [hmarks']
        noResolve := fun _ => by rw [hmarks'] }
    · exact absurd hey hno

/-- One stage of the execution, on the deal and on its executed bid. -/
theorem recorded_advance {x : Bid β T} (hr : Recorded ms d x) {stage : Stage} {t tb tc : T}
    (hst : stage.Starts d.status x.status) :
    Recorded (.advance stage x.id t tb tc :: ms) (d.play (.advance stage x.id t tb tc))
      ⟨x.id, stage.bidStatus, stage.markBid x.marks tb tc⟩ := by
  have hmarks : (d.play (.advance stage x.id t tb tc)).marks = stage.mark d.marks t := rfl
  have hstatus : (d.play (.advance stage x.id t tb tc)).status = stage.dealStatus := rfl
  have hmir := hr.mirrors
  refine ⟨hr.chosen.cons _, ?_, ⟨?_, ?_, ?_, ?_, ?_⟩, ?_, ?_, ?_, ?_, ?_, ?_, ?_, ?_, ?_, ?_⟩
  · rw [hmarks]; cases stage <;> exact hr.matched
  · rw [hmarks]; cases stage <;> exact hmir.matched
  · rw [hmarks]; cases stage <;> simp [Stage.mark, Stage.markBid, hmir.runner]
  · rw [hmarks]
    cases stage with
    -- the bid is stamped again, the deal keeps the orderer's mark
    | deliverLast => exact hr.hasOrderer hst.1
    | _ => simp [Stage.mark, Stage.markBid, hmir.orderer]
  · rw [hmarks]; cases stage <;> simp [Stage.mark, Stage.markBid, hmir.disputed]
  · rw [hmarks]; cases stage <;> simp [Stage.mark, Stage.markBid, hmir.resolved]
  · rw [hmarks, did_cons_advance]; cases stage <;> simp [Stage.mark, hr.runner]
  · rw [hmarks, did_cons_advance]; cases stage <;> simp [Stage.mark, hr.orderer]
  · rw [hmarks, did_cons_advance]; cases stage <;> simp [Stage.mark, hr.disputed]
  · rw [hmarks, did_cons_advance]; cases stage <;> simp [Stage.mark, hr.resolved]
  · intro hacc
    cases stage with
    | receive => exact hr.noRunner hst.2
    | _ => exact absurd hacc (by simp [Stage.bidStatus])
  · intro hcompleted
    cases stage with
    | deliver => rfl
    | _ => exact absurd hcompleted (by simp [Stage.bidStatus])
  · intro hmatched
    rw [hstatus] at hmatched
    cases stage with
    | deliver => exact hr.noOrderer hst.1
    | _ => exact absurd hmatched (by simp [Stage.dealStatus])
  · intro hcompleted
    rw [hstatus] at hcompleted
    cases stage with
    | receive => rfl
    | _ => exact absurd hcompleted (by simp [Stage.dealStatus])
  · intro hbefore
    rw [hstatus] at hbefore
    have hold : stage ∉ [.dispute, .resolve] → d.status ∈ [.matched, .orderCompleted] := by
      cases stage <;> simp [Stage.Starts] at hst ⊢ <;> simp [hst]
    cases stage with
    | dispute => exact absurd hbefore (by simp [Stage.dealStatus])
    | resolve => exact absurd hbefore (by simp [Stage.dealStatus])
    | _ =>
        have h := hold (by simp)
        exact hr.noDispute (by simp at h ⊢; tauto)
  · intro hne
    have hold : d.status ≠ .resolved := by
      intro he
      rw [he] at hst
      revert hst
      cases stage <;> simp [Stage.Starts]
    rw [hstatus] at hne
    cases stage with
    | resolve => exact absurd rfl hne
    | _ => exact hr.noResolve hold

theorem chronicle_advance (h : Chronicle ms d) (hs : d.Shape) (hd : d.Distinct) {stage : Stage}
    {b : β} {t tb tc : T} (hm : d.Legal (.advance stage b t tb tc)) :
    Chronicle (.advance stage b t tb tc :: ms) (d.play (.advance stage b t tb tc)) := by
  obtain ⟨x, hx, rfl, hst⟩ := hm
  have hex := hst.executed
  have hr := h.executed x hx hex
  have hex' : Executed stage.bidStatus := stage.together_after.executed
  have hbids : ∀ y ∈ (d.play (.advance stage x.id t tb tc)).bids,
      y = ⟨x.id, stage.bidStatus, stage.markBid x.marks tb tc⟩ ∨
        (y ∈ d.bids ∧ ¬ Executed y.status) := by
    intro y hy
    obtain ⟨z, hz, rfl⟩ := (Deal.mem_play rfl).1 hy
    rw [Move.onBid_advance]
    split
    · next hid => rw [hd.eq hz hx hid]; exact Or.inl rfl
    · next hid =>
        exact Or.inr ⟨hz, fun hez => hid (by rw [hs.executed_unique hd hz hx hez hex])⟩
  have hmem : (⟨x.id, stage.bidStatus, stage.markBid x.marks tb tc⟩ : Bid β T) ∈
      (d.play (.advance stage x.id t tb tc)).bids :=
    (Deal.mem_play rfl).2 ⟨x, hx, if_pos rfl⟩
  refine ⟨?_, ?_, ?_, ?_⟩
  · intro m' hm' b hb
    rcases List.mem_cons.1 hm' with rfl | hm'
    · exact ⟨_, hmem, by simpa [Move.subject] using hb, hex'⟩
    · obtain ⟨y, hy, rfl, hey⟩ := h.subject m' hm' b hb
      rw [hs.executed_unique hd hy hx hey hex]
      exact ⟨_, hmem, rfl, hex'⟩
  · intro hno
    exact absurd hex' (hno _ hmem)
  · intro y hy hey
    rcases hbids y hy with rfl | ⟨hy, -⟩
    · exact absurd hex' hey
    · exact h.idle y hy hey
  · intro y hy hey
    rcases hbids y hy with rfl | ⟨-, hno⟩
    · exact recorded_advance hr hst
    · exact absurd hey hno

/-- **A legal move keeps the chronicle.** -/
theorem Chronicle.play (h : Chronicle ms d) (hs : d.Shape) (hd : d.Distinct) (hm : d.Legal m) :
    Chronicle (m :: ms) (d.play m) := by
  cases m with
  | choose b t => exact chronicle_choose h hs hd hm
  | advance stage b t tb tc => exact chronicle_advance h hs hd hm
  | _ => exact chronicle_of_subject_none h hs hm rfl

omit [DecidableEq β] in
theorem chronicle_opened : Chronicle ([] : List (Move β T)) Deal.opened where
  subject := fun _ hm => absurd hm List.not_mem_nil
  blank := fun _ => rfl
  idle := fun _ hx => absurd hx List.not_mem_nil
  executed := fun _ hx => absurd hx List.not_mem_nil

namespace History

theorem distinct (h : History ms d) : d.Distinct := by
  induction h with
  | opened => exact Deal.distinct_opened
  | play _ legal ih => exact Deal.distinct_play ih legal

/-- A deal always has one of the four shapes. -/
theorem shape (h : History ms d) : d.Shape := by
  induction h with
  | opened => exact Deal.shape_opened
  | play h legal ih => exact Deal.shape_play ih h.distinct legal

/-- **The marks of a deal tell its history.** -/
theorem chronicle (h : History ms d) : Chronicle ms d := by
  induction h with
  | opened => exact chronicle_opened
  | play h legal ih => exact ih.play h.shape h.distinct legal

/-- The executed bid of a deal was chosen, and no other. -/
theorem executed_iff_chose (h : History ms d) {x : Bid β T} (hx : x ∈ d.bids) :
    Executed x.status ↔ Chose ms x.id := by
  constructor
  · intro hex
    exact (h.chronicle.executed x hx hex).chosen
  · rintro ⟨t, ht⟩
    obtain ⟨y, hy, hid, hey⟩ := h.chronicle.subject _ ht x.id rfl
    rw [← h.distinct.eq hy hx hid]
    exact hey

/-- A deal on which no bid was chosen has no marks. -/
theorem blank_of_not_chose (h : History ms d) (hno : ∀ b, ¬ Chose ms b) : d.marks = {} :=
  h.chronicle.blank fun x hx hex => hno x.id ((h.executed_iff_chose hx).1 hex)

/-- A bid that was not chosen has no marks. -/
theorem idle_of_not_chose (h : History ms d) {x : Bid β T} (hx : x ∈ d.bids)
    (hno : ¬ Chose ms x.id) : x.marks = {} :=
  h.chronicle.idle x hx fun hex => hno ((h.executed_iff_chose hx).1 hex)

end History

/-! ## The order of the marks -/

/-- The instant is one of the marks. -/
def Marks.Has (m : Marks T) (t : T) : Prop :=
  m.matched = some t ∨ m.runner = some t ∨ m.orderer = some t ∨ m.disputed = some t ∨
    m.resolved = some t

theorem not_has_empty (t : T) : ¬ ({} : Marks T).Has t := by
  simp [Marks.Has]

theorem has_mark {stage : Stage} {m : Marks T} {t t' : T} (h : (stage.mark m t).Has t') :
    m.Has t' ∨ t' = t := by
  cases stage <;> simp only [Stage.mark, Marks.Has, Option.some.injEq] at h ⊢ <;> tauto

theorem has_markBid {stage : Stage} {m : Marks T} {t tc t' : T}
    (h : (stage.markBid m t tc).Has t') : m.Has t' ∨ t' = t ∨ t' = tc := by
  cases stage <;> simp only [Stage.markBid, Stage.mark, Marks.Has, Option.some.injEq] at h ⊢ <;>
    tauto

/-- An instant recorded on the deal or on one of its bids. -/
def Deal.Has (d : Deal β T) (t : T) : Prop := d.marks.Has t ∨ ∃ x ∈ d.bids, x.marks.Has t

omit [DecidableEq β] in
/-- What a move does to the marks of the deal. -/
theorem mark_cases (m : Move β T) (marks : Marks T) :
    m.mark marks = marks ∨
      (∃ b t, m = .choose b t ∧ m.mark marks = { marks with matched := some t }) ∨
      ∃ stage b t tb tc, m = .advance stage b t tb tc ∧ m.mark marks = stage.mark marks t := by
  cases m with
  | choose b t => exact Or.inr (Or.inl ⟨b, t, rfl, rfl⟩)
  | advance stage b t tb tc => exact Or.inr (Or.inr ⟨stage, b, t, tb, tc, rfl, rfl⟩)
  | _ => exact Or.inl rfl

/-- What a move does to the marks of a bid. -/
theorem onBid_marks_cases (m : Move β T) (x : Bid β T) :
    (m.onBid x).marks = x.marks ∨
      (∃ t, m = .choose x.id t ∧ (m.onBid x).marks = { x.marks with matched := some t }) ∨
      ∃ stage t tb tc, m = .advance stage x.id t tb tc ∧
        (m.onBid x).marks = stage.markBid x.marks tb tc := by
  cases m with
  | choose b t =>
      rw [Move.onBid_choose]
      split
      · next hid => exact Or.inr (Or.inl ⟨t, by rw [hid], rfl⟩)
      · exact Or.inl x.reject_marks
  | advance stage b t tb tc =>
      rw [Move.onBid_advance]
      split
      · next hid => exact Or.inr (Or.inr ⟨stage, t, tb, tc, by rw [hid], rfl⟩)
      · exact Or.inl rfl
  | retract gone =>
      rw [Move.onBid_retract]
      split
      · exact Or.inl x.cancel_marks
      · exact Or.inl rfl
  | drop => exact Or.inl x.reject_marks
  | report => exact Or.inl x.reject_marks
  | leave => exact Or.inl x.cancel_marks
  | _ => exact Or.inl rfl

/-- A bid of a deal after a move was there before, or is new and has no marks. -/
theorem mem_bids_play {y : Bid β T} (hy : y ∈ (d.play m).bids) :
    (∃ x ∈ d.bids, m.onBid x = y) ∨ y.marks = {} := by
  rcases List.mem_append.1 hy with hy | hy
  · exact Or.inl (List.mem_map.1 hy)
  · cases m with
    | bid b => rw [List.mem_singleton.1 hy]; exact Or.inr rfl
    | _ => exact absurd hy List.not_mem_nil

/-- A recorded instant was there before the move, or is one of the move. -/
theorem has_play {t : T} (ht : (d.play m).Has t) : d.Has t ∨ t ∈ m.times := by
  rcases ht with ht | ⟨y, hy, ht⟩
  · replace ht : (m.mark d.marks).Has t := ht
    rcases mark_cases m d.marks with h | ⟨b, t', rfl, h⟩ | ⟨stage, b, t₁, tb, tc, rfl, h⟩
    · rw [h] at ht; exact Or.inl (Or.inl ht)
    · simp only [h, Marks.Has, Option.some.injEq] at ht
      simp only [Deal.Has, Marks.Has, Move.times, List.mem_singleton]
      tauto
    · rw [h] at ht
      rcases has_mark ht with h' | rfl
      · exact Or.inl (Or.inl h')
      · exact Or.inr List.mem_cons_self
  · rcases mem_bids_play hy with ⟨x, hx, rfl⟩ | he
    · have hold : x.marks.Has t → d.Has t := fun hxt => Or.inr ⟨x, hx, hxt⟩
      rcases onBid_marks_cases m x with h | ⟨t', rfl, h⟩ | ⟨stage, t₁, tb, tc, rfl, h⟩
      · rw [h] at ht; exact Or.inl (hold ht)
      · simp only [h, Marks.Has, Option.some.injEq] at ht hold
        simp only [Move.times, List.mem_singleton]
        tauto
      · rw [h] at ht
        rcases has_markBid ht with h' | rfl | rfl
        · exact Or.inl (hold h')
        · exact Or.inr (by simp [Move.times])
        · exact Or.inr (by simp [Move.times])
    · rw [he] at ht; exact absurd ht (not_has_empty t)

/-- Every recorded instant is one of a move. -/
theorem History.has (h : History ms d) {t : T} (ht : d.Has t) : ∃ m ∈ ms, t ∈ m.times := by
  induction h with
  | opened => exact absurd ht (by simp [Deal.Has, Deal.opened, not_has_empty])
  | @play ms d m h legal ih =>
      rcases has_play ht with hd | hm
      · obtain ⟨m', hm', ht'⟩ := ih hd
        exact ⟨m', List.mem_cons_of_mem _ hm', ht'⟩
      · exact ⟨m, List.mem_cons_self, hm⟩

end Steps

/-- The moves were made in the order of their instants (latest first). -/
def Chronological [LE T] (ms : List (Move β T)) : Prop :=
  ms.Pairwise fun later earlier => ∀ t ∈ earlier.times, ∀ t' ∈ later.times, t ≤ t'

/-- No mark of `n` comes before the matching of `m`, and no resolution of `n` before
the dispute of `m`. -/
structure Marks.Precede [LE T] (m n : Marks T) : Prop where
  runner : ∀ t₀ ∈ m.matched, ∀ t ∈ n.runner, t₀ ≤ t
  orderer : ∀ t₀ ∈ m.matched, ∀ t ∈ n.orderer, t₀ ≤ t
  disputed : ∀ t₀ ∈ m.matched, ∀ t ∈ n.disputed, t₀ ≤ t
  resolved : ∀ t₀ ∈ m.matched, ∀ t ∈ n.resolved, t₀ ≤ t
  dispute_resolve : ∀ t ∈ m.disputed, ∀ t' ∈ n.resolved, t ≤ t'

/-- Marks with nothing but a matching come after everything. -/
theorem precede_matched [LE T] (m : Marks T) (t : Option T) :
    m.Precede ({ matched := t } : Marks T) := by
  constructor <;> simp

/-- The marks `m'` are `m` after a stage that records the instants `ts`. -/
structure Marks.Extends (stage : Stage) (ts : List T) (m m' : Marks T) : Prop where
  matched : m'.matched = m.matched
  runner : ∀ t ∈ m'.runner, t ∈ m.runner ∨ t ∈ ts
  orderer : ∀ t ∈ m'.orderer, t ∈ m.orderer ∨ t ∈ ts
  disputed : ∀ t ∈ m'.disputed, t ∈ m.disputed ∨ stage = .dispute ∧ t ∈ ts
  resolved : ∀ t ∈ m'.resolved, t ∈ m.resolved ∨ stage = .resolve ∧ t ∈ ts

theorem extends_empty (stage : Stage) (ts : List T) :
    Marks.Extends stage ts ({} : Marks T) ({} : Marks T) := by
  constructor <;> simp

theorem extends_mark (stage : Stage) (m : Marks T) {t : T} {ts : List T} (ht : t ∈ ts) :
    m.Extends stage ts (stage.mark m t) := by
  cases stage <;> constructor <;> simp +contextual [Stage.mark, ht]

theorem extends_markBid (stage : Stage) (m : Marks T) {t tc : T} {ts : List T} (ht : t ∈ ts)
    (htc : tc ∈ ts) : m.Extends stage ts (stage.markBid m t tc) := by
  cases stage with
  | deliverLast => constructor <;> simp +contextual [Stage.markBid, ht, htc]
  | _ => exact extends_mark _ m ht

/-- **A stage keeps the order** if its instants come after all that is recorded. -/
theorem Marks.Precede.advance [LE T] {m n m' n' : Marks T} (h : m.Precede n) {stage : Stage}
    {ts : List T} (hm : m.Extends stage ts m') (hn : n.Extends stage ts n')
    (hlast : ∀ t₀, m.Has t₀ → ∀ t ∈ ts, t₀ ≤ t)
    (hres : stage = .dispute → n.resolved = none) : m'.Precede n' := by
  have hmatched : ∀ t₀ ∈ m'.matched, t₀ ∈ m.matched := fun t₀ h₀ => hm.matched ▸ h₀
  have hafter : ∀ t₀ ∈ m'.matched, ∀ t ∈ ts, t₀ ≤ t :=
    fun t₀ h₀ => hlast t₀ (Or.inl (hmatched t₀ h₀))
  constructor
  · intro t₀ h₀ t ht
    rcases hn.runner t ht with ht | ht
    · exact h.runner t₀ (hmatched t₀ h₀) t ht
    · exact hafter t₀ h₀ t ht
  · intro t₀ h₀ t ht
    rcases hn.orderer t ht with ht | ht
    · exact h.orderer t₀ (hmatched t₀ h₀) t ht
    · exact hafter t₀ h₀ t ht
  · intro t₀ h₀ t ht
    rcases hn.disputed t ht with ht | ⟨-, ht⟩
    · exact h.disputed t₀ (hmatched t₀ h₀) t ht
    · exact hafter t₀ h₀ t ht
  · intro t₀ h₀ t ht
    rcases hn.resolved t ht with ht | ⟨-, ht⟩
    · exact h.resolved t₀ (hmatched t₀ h₀) t ht
    · exact hafter t₀ h₀ t ht
  · intro t ht t' ht'
    rcases hm.disputed t ht with ht | ⟨hstage, -⟩
    · rcases hn.resolved t' ht' with ht' | ⟨-, ht'⟩
      · exact h.dispute_resolve t ht t' ht'
      · exact hlast t (Or.inr (Or.inr (Or.inr (Or.inl ht)))) t' ht'
    · -- a dispute that is raised now has not been resolved
      rcases hn.resolved t' ht' with ht' | ⟨hstage', -⟩
      · rw [hres hstage] at ht'
        exact absurd ht' (by simp)
      · rw [hstage] at hstage'
        exact absurd hstage' (by simp)

/-- The marks of a deal and of its bids. -/
def Deal.allMarks (d : Deal β T) : List (Marks T) := d.marks :: d.bids.map Bid.marks

theorem has_of_mem_allMarks {d : Deal β T} {a : Marks T} (ha : a ∈ d.allMarks) {t : T}
    (ht : a.Has t) : d.Has t := by
  rcases List.mem_cons.1 ha with rfl | ha
  · exact Or.inl ht
  · obtain ⟨x, hx, rfl⟩ := List.mem_map.1 ha
    exact Or.inr ⟨x, hx, ht⟩

section Order

variable [DecidableEq β] {ms : List (Move β T)} {d : Deal β T} {m : Move β T}

/-- Before matching nothing is recorded. -/
theorem History.allMarks_eq_empty (h : History ms d)
    (hst : d.status ∈ [.holding, .posted, .offered]) {a : Marks T} (ha : a ∈ d.allMarks) :
    a = {} := by
  rcases List.mem_cons.1 ha with rfl | ha
  · exact h.chronicle.blank fun x hx => h.shape.not_executed hst hx
  · obtain ⟨x, hx, rfl⟩ := List.mem_map.1 ha
    exact h.chronicle.idle x hx (h.shape.not_executed hst hx)

/-- Nothing is resolved before the deal is. -/
theorem History.resolved_eq_none (h : History ms d) (hst : d.status ≠ .resolved) {x : Bid β T}
    (hx : x ∈ d.bids) (hex : Executed x.status) {a : Marks T} (ha : a ∈ d.allMarks) :
    a.resolved = none := by
  have hr := h.chronicle.executed x hx hex
  have hnone := hr.noResolve hst
  rcases List.mem_cons.1 ha with rfl | ha
  · exact hnone
  · obtain ⟨y, hy, rfl⟩ := List.mem_map.1 ha
    by_cases hey : Executed y.status
    · obtain rfl := h.shape.executed_unique h.distinct hx hy hex hey
      have hmir := hr.mirrors.resolved
      rw [hnone] at hmir
      exact Option.isNone_iff_eq_none.1 (Option.isSome_eq_false_iff.1 hmir.symm)
    · rw [h.chronicle.idle y hy hey]

/-- The marks after a move about no bid were there before, or are empty. -/
theorem mem_allMarks_of_subject_none (hsub : m.subject = none) {a : Marks T}
    (ha : a ∈ (d.play m).allMarks) : a ∈ d.allMarks ∨ a = {} := by
  rcases List.mem_cons.1 ha with rfl | ha
  · exact Or.inl (List.mem_cons.2 (Or.inl (mark_of_subject_none hsub d.marks)))
  · obtain ⟨y, hy, rfl⟩ := List.mem_map.1 ha
    rcases mem_bids_play hy with ⟨x, hx, rfl⟩ | he
    · rcases onBid_marks_cases m x with hm | ⟨t, rfl, -⟩ | ⟨stage, t, tb, tc, rfl, -⟩
      · rw [hm]
        exact Or.inl (List.mem_cons_of_mem _ (List.mem_map_of_mem hx))
      · exact absurd hsub (by simp [Move.subject])
      · exact absurd hsub (by simp [Move.subject])
    · exact Or.inr he

/-- After a choice there is nothing but a matching on record. -/
theorem History.allMarks_choose (h : History ms d) {b : β} {t : T}
    (legal : d.Legal (.choose b t)) {a : Marks T} (ha : a ∈ (d.play (.choose b t)).allMarks) :
    ∃ t', a = { matched := t' } := by
  have hempty : ∀ a ∈ d.allMarks, a = {} :=
    fun a ha => h.allMarks_eq_empty (by simp [legal.1]) ha
  rcases List.mem_cons.1 ha with rfl | ha
  · have hd : d.marks = {} := hempty _ List.mem_cons_self
    exact ⟨some t, by simp [Deal.play, Move.mark, hd]⟩
  · obtain ⟨y, hy, rfl⟩ := List.mem_map.1 ha
    obtain ⟨x, hx, rfl⟩ := (Deal.mem_play rfl).1 hy
    have hxe : x.marks = {} := hempty _ (List.mem_cons_of_mem _ (List.mem_map_of_mem hx))
    rcases onBid_marks_cases (.choose b t) x with hm | ⟨t', -, hm⟩ | ⟨_, _, _, _, he, -⟩
    · exact ⟨none, by rw [hm, hxe]⟩
    · exact ⟨some t', by rw [hm, hxe]⟩
    · exact absurd he (by simp)

/-- The marks after a stage are those before, extended by the stage. -/
theorem History.allMarks_advance (h : History ms d) {stage : Stage} {b : β} {t tb tc : T}
    (legal : d.Legal (.advance stage b t tb tc)) {a' : Marks T}
    (ha : a' ∈ (d.play (.advance stage b t tb tc)).allMarks) :
    ∃ a ∈ d.allMarks, a.Extends stage [t, tb, tc] a' := by
  obtain ⟨z, hz, rfl, hst⟩ := legal
  rcases List.mem_cons.1 ha with rfl | ha
  · exact ⟨d.marks, List.mem_cons_self, extends_mark stage d.marks (by simp)⟩
  · obtain ⟨y, hy, rfl⟩ := List.mem_map.1 ha
    obtain ⟨x, hx, rfl⟩ := (Deal.mem_play rfl).1 hy
    refine ⟨x.marks, List.mem_cons_of_mem _ (List.mem_map_of_mem hx), ?_⟩
    rw [Move.onBid_advance]
    split
    · exact extends_markBid stage x.marks (by simp) (by simp)
    · next hid =>
        have hex : ¬ Executed x.status := fun he =>
          hid (by rw [h.shape.executed_unique h.distinct hx hz he hst.executed])
        rw [h.chronicle.idle x hx hex]
        exact extends_empty _ _

/-- **Marks come in the order of the lifecycle**, on the deal and on its bids, if the
moves were made in the order of their instants. -/
theorem History.ordered [LE T] (h : History ms d) (hc : Chronological ms) :
    ∀ a ∈ d.allMarks, ∀ b ∈ d.allMarks, a.Precede b := by
  induction h with
  | opened =>
      intro a _ b hb
      rw [show b = {} by simpa [Deal.allMarks, Deal.opened] using hb]
      exact precede_matched a none
  | @play ms d m h legal ih =>
      obtain ⟨hnew, hold⟩ := List.pairwise_cons.1 hc
      have ih := ih hold
      -- every instant of the move comes after every recorded one
      have hlast : ∀ t₀, d.Has t₀ → ∀ t ∈ m.times, t₀ ≤ t := by
        intro t₀ h₀ t ht
        obtain ⟨m', hm', ht'⟩ := h.has h₀
        exact hnew m' hm' t₀ ht' t ht
      intro a ha b hb
      cases hsub : m.subject with
      | none =>
          rcases mem_allMarks_of_subject_none hsub hb with hb | rfl
          · rcases mem_allMarks_of_subject_none hsub ha with ha | rfl
            · exact ih a ha b hb
            · constructor <;> simp
          · exact precede_matched a none
      | some c =>
          cases m with
          | choose c t =>
              obtain ⟨t', rfl⟩ := h.allMarks_choose legal hb
              exact precede_matched a t'
          | advance stage c t tb tc =>
              obtain ⟨a₀, ha₀, hea⟩ := h.allMarks_advance legal ha
              obtain ⟨b₀, hb₀, heb⟩ := h.allMarks_advance legal hb
              refine (ih a₀ ha₀ b₀ hb₀).advance hea heb
                (fun t₀ h₀ => hlast t₀ (has_of_mem_allMarks ha₀ h₀)) ?_
              rintro rfl
              obtain ⟨x, hx, -, hst⟩ := legal
              refine h.resolved_eq_none ?_ hx hst.executed hb₀
              intro he
              exact absurd hst.1 (by simp [he])
          | _ => exact absurd hsub (by simp [Move.subject])

end Order

/-! ## Marks are written once -/

/-- Every mark of `m` is a mark of `n`, with the same instant. -/
structure Marks.Le (m n : Marks T) : Prop where
  matched : ∀ t ∈ m.matched, t ∈ n.matched
  runner : ∀ t ∈ m.runner, t ∈ n.runner
  orderer : ∀ t ∈ m.orderer, t ∈ n.orderer
  disputed : ∀ t ∈ m.disputed, t ∈ n.disputed
  resolved : ∀ t ∈ m.resolved, t ∈ n.resolved

theorem Marks.Le.refl (m : Marks T) : m.Le m :=
  ⟨fun _ h => h, fun _ h => h, fun _ h => h, fun _ h => h, fun _ h => h⟩

theorem Marks.Le.trans {m n k : Marks T} (h : m.Le n) (h' : n.Le k) : m.Le k :=
  ⟨fun t ht => h'.matched t (h.matched t ht), fun t ht => h'.runner t (h.runner t ht),
    fun t ht => h'.orderer t (h.orderer t ht), fun t ht => h'.disputed t (h.disputed t ht),
    fun t ht => h'.resolved t (h.resolved t ht)⟩

theorem empty_le (m : Marks T) : ({} : Marks T).Le m := by
  constructor <;> simp

/-- The mark a stage writes. -/
def Stage.slot (m : Marks T) : Stage → Option T
  | .deliver | .deliverLast => m.runner
  | .receive | .receiveLast => m.orderer
  | .dispute => m.disputed
  | .resolve => m.resolved

theorem le_mark {stage : Stage} {m : Marks T} (t : T) (h : stage.slot m = none) :
    m.Le (stage.mark m t) := by
  cases stage <;> simp only [Stage.slot] at h <;> constructor <;> simp [Stage.mark, h]

theorem Marks.Mirrors.slot_eq_none {m n : Marks T} (h : m.Mirrors n) {stage : Stage}
    (hs : stage.slot m = none) : stage.slot n = none := by
  have hiff : (stage.slot m).isSome = (stage.slot n).isSome := by
    cases stage
    · exact h.runner
    · exact h.runner
    · exact h.orderer
    · exact h.orderer
    · exact h.disputed
    · exact h.resolved
  rw [hs] at hiff
  exact Option.isNone_iff_eq_none.1 (Option.isSome_eq_false_iff.1 hiff.symm)

section Keep

variable [DecidableEq β] {ms : List (Move β T)} {d : Deal β T} {m : Move β T}

omit [DecidableEq β] in
/-- The mark a stage writes is not there yet. -/
theorem Recorded.slot_eq_none {x : Bid β T} (hr : Recorded ms d x) {stage : Stage}
    (hst : stage.Starts d.status x.status) : stage.slot d.marks = none := by
  cases stage with
  | deliver => exact hr.noRunner hst.2
  | deliverLast => exact hr.noRunner hst.2
  | receive => exact hr.noOrderer hst.1
  | receiveLast => exact hr.noOrderer hst.1
  | dispute => exact hr.noDispute (by have h := hst.1; simp at h ⊢; tauto)
  | resolve => exact hr.noResolve (by simp [hst.1])

/-- **A move never overwrites a mark**, unless it is a delivery that comes last. -/
theorem History.marks_keep (h : History ms d) (legal : d.Legal m)
    (hne : ∀ b t tb tc, m ≠ .advance .deliverLast b t tb tc) :
    d.marks.Le (d.play m).marks ∧ ∀ x ∈ d.bids, x.marks.Le (m.onBid x).marks := by
  constructor
  · show d.marks.Le (m.mark d.marks)
    rcases mark_cases m d.marks with hm | ⟨b, t, rfl, hm⟩ | ⟨stage, b, t, tb, tc, rfl, hm⟩
    · rw [hm]; exact Marks.Le.refl _
    · rw [hm, h.chronicle.blank fun x hx => h.shape.not_executed (by simp [legal.1]) hx]
      exact empty_le _
    · rw [hm]
      obtain ⟨x, hx, -, hst⟩ := legal
      exact le_mark t ((h.chronicle.executed x hx hst.executed).slot_eq_none hst)
  · intro x hx
    rcases onBid_marks_cases m x with hm | ⟨t, rfl, hm⟩ | ⟨stage, t, tb, tc, rfl, hm⟩
    · rw [hm]; exact Marks.Le.refl _
    · rw [hm, h.chronicle.idle x hx (h.shape.not_executed (by simp [legal.1]) hx)]
      exact empty_le _
    · rw [hm]
      obtain ⟨z, hz, hid, hst⟩ := legal
      obtain rfl := h.distinct.eq hz hx hid
      have hr := h.chronicle.executed z hz hst.executed
      have hle := le_mark tb (hr.mirrors.slot_eq_none (hr.slot_eq_none hst))
      cases stage with
      | deliverLast => exact absurd rfl (hne z.id t tb tc)
      | _ => exact hle

/-- A delivery that comes last stamps a mark that is there already. -/
theorem History.deliverLast_overwrites (h : History ms d) {b : β} {t tb tc : T}
    (legal : d.Legal (.advance .deliverLast b t tb tc)) :
    ∃ x ∈ d.bids, x.id = b ∧ (∃ t₀, x.marks.orderer = some t₀ ∧ ∃ m' ∈ ms, t₀ ∈ m'.times) ∧
      (Move.onBid (.advance .deliverLast b t tb tc) x).marks.orderer = some tc := by
  obtain ⟨x, hx, rfl, hst⟩ := legal
  have hr := h.chronicle.executed x hx hst.executed
  have hsome : x.marks.orderer.isSome := by
    rw [← hr.mirrors.orderer]
    exact hr.hasOrderer hst.1
  obtain ⟨t₀, h₀⟩ := Option.isSome_iff_exists.1 hsome
  refine ⟨x, hx, rfl, ⟨t₀, h₀, h.has (Or.inr ⟨x, hx, Or.inr (Or.inr (Or.inl h₀))⟩)⟩, ?_⟩
  rw [Move.onBid_advance, if_pos rfl]
  rfl

/-- If no delivery came last, the orderer's side of a bid was recorded when the
orderer confirmed. -/
theorem History.orderer_received (h : History ms d)
    (hne : ∀ b t tb tc, Move.advance .deliverLast b t tb tc ∉ ms) {x : Bid β T} (hx : x ∈ d.bids)
    {t : T} (ht : x.marks.orderer = some t) :
    ∃ stage ∈ [Stage.receive, Stage.receiveLast], ∃ t' tc,
      Move.advance stage x.id t' t tc ∈ ms := by
  induction h generalizing x with
  | opened => exact absurd hx List.not_mem_nil
  | @play ms d m h legal ih =>
      have hold : ∀ z ∈ d.bids, z.marks.orderer = some t → ∃ stage ∈
          [Stage.receive, Stage.receiveLast], ∃ t' tc,
            Move.advance stage z.id t' t tc ∈ m :: ms := by
        intro z hz hzt
        obtain ⟨stage, hs, t', tc, hm⟩ :=
          ih (fun b t tb tc hmem => hne b t tb tc (List.mem_cons_of_mem _ hmem)) hz hzt
        exact ⟨stage, hs, t', tc, List.mem_cons_of_mem _ hm⟩
      rcases mem_bids_play hx with ⟨z, hz, rfl⟩ | he
      · rw [m.onBid_id]
        rcases onBid_marks_cases m z with hm | ⟨t', rfl, hm⟩ | ⟨stage, t', tb, tc, rfl, hm⟩
        · rw [hm] at ht; exact hold z hz ht
        · rw [hm] at ht; exact hold z hz ht
        · rw [hm] at ht
          cases stage with
          | deliverLast => exact absurd List.mem_cons_self (hne z.id t' tb tc)
          | receive =>
              obtain rfl : tb = t := by simpa [Stage.markBid, Stage.mark] using ht
              exact ⟨.receive, by simp, t', tc, List.mem_cons_self⟩
          | receiveLast =>
              obtain rfl : tb = t := by simpa [Stage.markBid, Stage.mark] using ht
              exact ⟨.receiveLast, by simp, t', tc, List.mem_cons_self⟩
          | _ => exact hold z hz ht
      · rw [he] at ht; exact absurd ht (by simp)

end Keep
end OrderRun
