import OrderRun.Queries.Search
import OrderRun.Application.Deals
import OrderRun.Lib.Pages

/-!
# The inbox, and the payments that are waited for

Two listings that leave ties to the database: the notifications of a user, ordered by their
time alone, and the errands that wait for a payment, without any order.

* `listNotifications` — one page of the inbox (`app/services/notification`).
* `getNotificationStats`, `getNotification` — how many notifications a user has, and one of them.
* `listPendingPaymentProposals` — one window of the errands (`admin_router.py`).
* `windows_exhaustive_iff` — when the pages show everything once, whatever the database
  answers to each query.
-/

namespace OrderRun

open Store Pages

/-! ## The queries -/

structure NotificationResponse where
  id : ℕ
  userId : UserId
  notificationType : NotificationType
  title : String
  body : String
  data : Option String
  relatedEntityType : Option String
  relatedEntityId : Option ℤ
  status : NotificationStatus
  fcmMessageId : Option String
  errorMessage : Option String
  createdAt : DateTime
  sentAt : Option DateTime
  deliveredAt : Option DateTime
  readAt : Option DateTime
  deriving DecidableEq, Repr

structure NotificationListResponse where
  total : ℕ
  notifications : List NotificationResponse
  page : ℕ
  pageSize : ℕ
  deriving DecidableEq, Repr

structure NotificationStatsResponse where
  totalNotifications : ℕ
  unreadCount : ℕ
  failedCount : ℕ
  readCount : ℕ
  deriving DecidableEq, Repr

structure ProposalResponse where
  id : ℕ
  title : String
  content : String
  deadline : DateTime
  errandFee : ℤ
  status : ProposalStatus
  deriving DecidableEq, Repr

/-- The columns that are shown. -/
def NotificationResponse.modelValidate (n : Notification) : NotificationResponse where
  id := n.id
  userId := n.userId
  notificationType := n.notificationType
  title := n.title
  body := n.body
  data := n.data
  relatedEntityType := n.relatedEntityType
  relatedEntityId := n.relatedEntityId
  status := n.status
  fcmMessageId := n.fcmMessageId
  errorMessage := n.errorMessage
  createdAt := n.createdAt
  sentAt := n.sentAt
  deliveredAt := n.deliveredAt
  readAt := n.readAt

def ProposalResponse.modelValidate (p : Proposal) : ProposalResponse where
  id := p.id
  title := p.title
  content := p.content
  deadline := p.deadline
  errandFee := p.errandFee
  status := p.status

namespace NotificationService

/-- The query of a request, before it is ordered. -/
def query (db : Db) (userId : UserId) (unreadOnly : Bool) : List Notification :=
  db.notifications.rows.filter fun n => n.userId = userId ∧ (unreadOnly → n.readAt = none)

/-- One page; `orderBy` is the order in which the database returns the rows this time.  Pages
are counted from one. -/
def listNotifications (orderBy : List Notification → List Notification) (db : Db)
    (userId : UserId) (page pageSize : ℕ) (unreadOnly : Bool) : NotificationListResponse :=
  let notifications := ((orderBy (query db userId unreadOnly)).drop
    ((page - 1) * pageSize)).take pageSize
  { total := (query db userId unreadOnly).length
    notifications := notifications.map .modelValidate
    page
    pageSize }

def getNotificationStats (db : Db) (userId : UserId) : NotificationStatsResponse :=
  let total := (query db userId false).length
  let unread := (query db userId true).length
  { totalNotifications := total
    unreadCount := unread
    failedCount := db.notifications.rows.countP fun n => n.userId = userId ∧ n.status = .failed
    readCount := total - unread }

def getNotification (db : Db) (userId : UserId) (notificationId : ℕ) :
    Except Failure NotificationResponse := do
  let notification ← orRaise
    (db.notifications.rows.find? fun n => n.id = notificationId ∧ n.userId = userId)
    (apiError .notificationNotFound)
  return .modelValidate notification

end NotificationService

namespace AdminRouter

/-- The errands that wait for a payment. -/
def holding (db : Db) : List Proposal :=
  db.proposals.rows.filter (·.status = .holding)

/-- One window; without an `ORDER BY` the rows come in whatever order `scan` the database
reads them. -/
def listPendingPaymentProposals (scan : List Proposal → List Proposal) (db : Db)
    (skip limit : ℕ) : List ProposalResponse :=
  (((scan (holding db)).drop skip).take limit).map .modelValidate

end AdminRouter

/-! ## When the pages show everything -/

/-- Whatever order the database chooses for each page, the pages together show the inbox of a
user once, newest first. -/
def NotificationService.Exhaustive (db : Db) (size : ℕ) (userId : UserId) (unreadOnly : Bool) :
    Prop :=
  ∀ orderBy : ℕ → List Notification → List Notification,
    (∀ page, Answer (query db userId unreadOnly) (Newer Notification.createdAt)
      (orderBy page (query db userId unreadOnly))) →
    ∃ rows, Answer (query db userId unreadOnly) (Newer Notification.createdAt) rows ∧
      (List.range ⌈((query db userId unreadOnly).length : ℚ) / size⌉₊).flatMap (fun page =>
        (listNotifications (orderBy page) db userId (page + 1) size unreadOnly).notifications) =
      rows.map .modelValidate

/-- Whatever order the database chooses for each window, the windows together show every errand
that waits for a payment once. -/
def AdminRouter.Exhaustive (db : Db) (limit : ℕ) : Prop :=
  ∀ scan : ℕ → List Proposal → List Proposal,
    (∀ window, (scan window (holding db)).Perm (holding db)) →
    ∃ rows : List Proposal, rows.Perm (holding db) ∧
      (List.range ⌈((holding db).length : ℚ) / limit⌉₊).flatMap (fun window =>
        listPendingPaymentProposals (scan window) db (window * limit) limit) =
      rows.map .modelValidate

section Exhaustive

variable {size : ℕ}

/-- The rows a query selects are shown under different ids. -/
theorem nodup_map_validate {α γ : Type} [Keyed α ℕ] {t : Table α} (p : α → Bool) {f : α → γ}
    {id : γ → ℕ} (hid : ∀ r, id (f r) = Keyed.key r) : ((t.rows.filter p).map f).Nodup := by
  refine List.Nodup.of_map id ?_
  have hkeys : id ∘ f = Keyed.key := funext hid
  rw [List.map_map, hkeys]
  exact t.nodup.sublist (List.filter_sublist.map _)

theorem inbox_exhaustive_iff (db : Db) (hsize : 0 < size) (userId : UserId) (unreadOnly : Bool) :
    NotificationService.Exhaustive db size userId unreadOnly ↔
      ¬ Cut Notification.createdAt (NotificationService.query db userId unreadOnly) size := by
  have hnodup : ((NotificationService.query db userId unreadOnly).map
      NotificationResponse.modelValidate).Nodup :=
    nodup_map_validate _ fun r => (rfl : (NotificationResponse.modelValidate r).id = r.id)
  have hpages : ∀ (orderBy : ℕ → List Notification → List Notification) n,
      (List.range n).flatMap (fun page => (NotificationService.listNotifications (orderBy page) db
        userId (page + 1) size unreadOnly).notifications) =
      (pages (fun page => orderBy page (NotificationService.query db userId unreadOnly)) size
        n).map .modelValidate := by
    intro orderBy n
    unfold pages
    rw [List.map_flatMap]
    rfl
  rw [← exhaustive_iff NotificationResponse.modelValidate hnodup hsize]
  unfold NotificationService.Exhaustive
  rw [← pageCount_eq_ceil _ hsize]
  constructor
  · intro h answers hanswers
    obtain ⟨rows, hrows, hmap⟩ := h (fun page _ => answers page) hanswers
    exact ⟨rows, hrows, (hpages _ _).symm.trans hmap⟩
  · intro h orderBy horder
    obtain ⟨rows, hrows, hmap⟩ := h _ horder
    exact ⟨rows, hrows, (hpages _ _).trans hmap⟩

theorem pending_exhaustive_iff (db : Db) (hsize : 0 < size) :
    AdminRouter.Exhaustive db size ↔ (AdminRouter.holding db).length ≤ size := by
  have hnodup : ((AdminRouter.holding db).map ProposalResponse.modelValidate).Nodup :=
    nodup_map_validate _ fun r => (rfl : (ProposalResponse.modelValidate r).id = r.id)
  have hpages : ∀ (scan : ℕ → List Proposal → List Proposal) n,
      (List.range n).flatMap (fun window => AdminRouter.listPendingPaymentProposals (scan window)
        db (window * size) size) =
      (pages (fun window => scan window (AdminRouter.holding db)) size n).map .modelValidate := by
    intro scan n
    unfold pages
    rw [List.map_flatMap]
    rfl
  -- no order at all is an order by something that all rows share
  have hanswer : ∀ {ys : List Proposal}, Answer (AdminRouter.holding db)
      (Newer fun _ : Proposal => 0) ys ↔ ys.Perm (AdminRouter.holding db) :=
    ⟨Answer.perm, fun h => ⟨h, List.pairwise_of_forall fun _ _ => le_refl 0⟩⟩
  rw [← not_lt, ← cut_const_iff (AdminRouter.holding db) 0 hsize,
    ← exhaustive_iff ProposalResponse.modelValidate hnodup hsize]
  unfold AdminRouter.Exhaustive
  rw [← pageCount_eq_ceil _ hsize]
  simp only [hanswer]
  constructor
  · intro h answers hanswers
    obtain ⟨rows, hrows, hmap⟩ := h (fun window _ => answers window) hanswers
    exact ⟨rows, hrows, (hpages _ _).symm.trans hmap⟩
  · intro h scan hscan
    obtain ⟨rows, hrows, hmap⟩ := h _ hscan
    exact ⟨rows, hrows, (hpages _ _).trans hmap⟩

/-- **When the listings show everything.**  The inbox does if no notifications of one instant
are on both sides of a page boundary, the pending payments if they fit in one window. -/
theorem windows_exhaustive_iff (db : Db) {size : ℕ} (hsize : 1 ≤ size) :
    (∀ userId unreadOnly, NotificationService.Exhaustive db size userId unreadOnly ↔
      ¬ Cut Notification.createdAt (NotificationService.query db userId unreadOnly) size) ∧
    (AdminRouter.Exhaustive db size ↔ (AdminRouter.holding db).length ≤ size) ∧
    ∀ orderBy userId page unreadOnly,
      (NotificationService.listNotifications orderBy db userId page size unreadOnly).total =
        (NotificationService.query db userId unreadOnly).length :=
  ⟨inbox_exhaustive_iff db hsize, pending_exhaustive_iff db hsize, fun _ _ _ _ => rfl⟩

end Exhaustive

namespace Sample

/-- The orderer's confirmation starts the errand and completes it, which the runner hears in two
notifications of one instant. -/
def told : Db := (App.after .sample bus master (received.map .deal)).db

/-- The inbox of the runner; the two notifications come the one way or the other. -/
def toldRunner (swapped : Bool) (query : List Notification) : List Notification :=
  query.insertionSort fun n m => m.createdAt < n.createdAt ∨
    m.createdAt = n.createdAt ∧ if swapped then m.id ≤ n.id else n.id ≤ m.id

/-- Two errands are posted, and none is paid. -/
def unpaid : Db := (App.after .sample bus master [
  .deal (request 1 (.proposalCreate errand "orderer")),
  .deal (request 2 (.proposalCreate errand "orderer"))]).db

end Sample

/-- What is shown of the rows has their keys. -/
theorem ids_of_shown {α β : Type*} {rows xs : List α} {shown : List β} {f : α → β} {k : α → ℕ}
    {g : β → ℕ} (hrows : rows.Perm xs) (hmap : shown = rows.map f) (hid : ∀ a, g (f a) = k a) :
    (xs.map k).Perm (shown.map g) := by
  have hkeys : g ∘ f = k := funext hid
  rw [hmap, List.map_map, hkeys]
  exact (hrows.map k).symm

/-- Whatever is shown first may be shown again on the next page. -/
theorem windows_not_exhaustive :
    ¬ NotificationService.Exhaustive Sample.told 1 "runner" false ∧
    ¬ AdminRouter.Exhaustive Sample.unpaid 1 := by
  constructor
  · intro h
    obtain ⟨rows, hrows, hmap⟩ := h (fun page => Sample.toldRunner (page = 1)) fun page => by
      have hsame : decide (page = 1) = true ∨ decide (page = 1) = false := by
        cases decide (page = 1) <;> simp
      rcases hsame with hpage | hpage <;> rw [hpage] <;> constructor <;> decide +kernel
    have hids := ids_of_shown (k := Notification.id) (g := NotificationResponse.id) hrows.perm hmap
      fun _ => rfl
    revert hids
    decide +kernel
  · intro h
    obtain ⟨rows, hrows, hmap⟩ := h
      (fun window query => if window = 1 then query.reverse else query) fun window => by
        split
        · exact List.reverse_perm _
        · exact List.Perm.refl _
    have hids := ids_of_shown (k := Proposal.id) (g := ProposalResponse.id) hrows hmap fun _ => rfl
    revert hids
    decide +kernel

/-- The instants of the runner's inbox; on pages of two the boundary is between 63 and 53. -/
theorem not_cut_told :
    ¬ Cut Notification.createdAt (NotificationService.query Sample.told "runner" false) 2 := by
  have hstamps : (NotificationService.query Sample.told "runner" false).map
      Notification.createdAt = [33, 53, 63, 63] := by
    decide +kernel
  have hcount : ∀ p : ℕ → Bool,
      (NotificationService.query Sample.told "runner" false).countP (fun n => p n.createdAt) =
        [33, 53, 63, 63].countP p := by
    intro p
    rw [← hstamps, List.countP_map]
    rfl
  rintro ⟨page, (c : ℕ), hlower, hupper⟩
  replace hlower := (hcount fun stamp => c < stamp).symm.trans_lt hlower
  replace hupper := hupper.trans_eq (hcount fun stamp => c ≤ stamp)
  simp only [List.countP_cons, List.countP_nil, decide_eq_true_eq] at hlower hupper
  split_ifs at hlower hupper <;> omega

/-- Two pages of the runner's inbox, and the unpaid errands in one window. -/
theorem windows_exhaustive_iff_two :
    NotificationService.Exhaustive Sample.told 2 "runner" false ∧
    AdminRouter.Exhaustive Sample.unpaid 2 :=
  ⟨((@windows_exhaustive_iff Sample.told 2 (by decide)).1 "runner" false).2 not_cut_told,
    (@windows_exhaustive_iff Sample.unpaid 2 (by decide)).2.1.2 (by decide +kernel)⟩

end OrderRun
