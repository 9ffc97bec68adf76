import Mathlib.Data.List.Lex
import Mathlib.Data.Prod.Lex
import Mathlib.Data.Rat.Defs
import LibraryPlatform.Repositories

/-!
# The dashboard

The aggregate queries, and the summary that the service makes of them. Nothing is locked or
written. The two quotients are exact; the service rounds them to four and to two places.
-/
namespace LibraryPlatform

open KeyedTable Transaction

structure InventorySummary where
  totalTitles : Nat
  totalCopies : Int
  checkedOutCopies : Int
  availableCopies : Int
  deriving DecidableEq

structure MemberSummary where
  activeCount : Nat
  suspendedCount : Nat
  deriving DecidableEq

structure ReservationSummary where
  pending : Nat
  hold : Nat
  expiredToday : Nat
  deriving DecidableEq

/-- The ratio and the average before they are rounded. -/
structure OverdueSummary where
  count : Nat
  ratio : Rat
  averageDaysOverdue : Rat
  deriving DecidableEq

structure PopularBook where
  bookId : UUID
  title : String
  author : String
  checkoutCount : Nat
  deriving DecidableEq, Repr

structure BorrowingVelocity where
  today : Nat
  last7Days : Nat
  last30Days : Nat
  deriving DecidableEq

structure CirculationSummary where
  totalBorrowsInWindow : Nat
  borrowingVelocity : BorrowingVelocity
  deriving DecidableEq

structure DashboardSummary where
  inventory : InventorySummary
  circulation : CirculationSummary
  members : MemberSummary
  reservations : ReservationSummary
  overdue : OverdueSummary
  popularBooks : List PopularBook
  generatedAt : Int
  deriving DecidableEq

/-- The readings of the clock, in the order in which the summary asks for them, the audit column
`updated_at` of the reservations, and what the database does with titles and with ties. -/
structure DashboardEnv where
  clock : Nat → Int
  updatedAt : UUID → Int
  collation : Collation
  popularOrder : RowOrder PopularBook

/-- The books that have not been soft-deleted. -/
def DB.listed (db : DB) : List Book := db.books.rows.filter (fun b => !b.isDeleted)

def startOfToday (now : Int) : Int := now / day * day

namespace DashboardRepository

/-- The statuses under which the dashboard counts a loan as active. -/
def isActive (r : BorrowRecord) : Bool := r.status ∈ [BorrowStatus.borrowed, .renewed, .overdue]

def getInventorySummary : Tx InventorySummary := do
  let inv ← select (fun db => (db.listed.length, (db.listed.map Book.totalCopies).sum,
    (db.listed.map Book.availableCopies).sum))
  let checkedOutCopies ← select (fun db => db.borrowRecords.count isActive)
  pure ⟨inv.1, inv.2.1, checkedOutCopies, inv.2.2⟩

def getMemberSummary : Tx MemberSummary :=
  select (fun db => ⟨db.members.count (fun m => !m.isDeleted && m.membershipStatus = .active),
    db.members.count (fun m => !m.isDeleted && m.membershipStatus = .suspended)⟩)

def getReservationSummary (updatedAt : UUID → Int) (now : Int) : Tx ReservationSummary :=
  select (fun db => ⟨db.reservations.count (fun r => r.status = .pending),
    db.reservations.count (fun r => r.status = .hold),
    db.reservations.count (fun r => r.status = .expired && startOfToday now ≤ updatedAt r.id)⟩)

/-- Marked OVERDUE, or on loan past the due date. -/
def isOverdue (now : Int) (r : BorrowRecord) : Bool :=
  r.status = .overdue || (r.status ∈ [BorrowStatus.borrowed, .renewed] && r.dueDate < now)

/-- `TIMESTAMPDIFF(day, due_date, now)`: whole days, towards zero. -/
def daysOverdue (now : Int) (r : BorrowRecord) : Int := (now - r.dueDate).tdiv day

def getOverdueSummary (now : Int) : Tx OverdueSummary := do
  let totalActive ← select (fun db => db.borrowRecords.count isActive)
  let overdue ← select (fun db => db.borrowRecords.rows.filter (isOverdue now))
  let count := overdue.length
  let avgDays : Rat := if count = 0 then 0 else (overdue.map (daysOverdue now)).sum / count
  let ratio : Rat := if 0 < totalActive then count / totalActive else 0
  pure ⟨count, ratio, if avgDays < 0 then 0 else avgDays⟩

def inWindow (start : Int) (r : BorrowRecord) : Bool := start ≤ r.borrowDate

/-- The listed books that were borrowed in the window, each with the number of its loans. -/
def borrowedBooks (start : Int) (db : DB) : List PopularBook :=
  (db.listed.map (fun b => ⟨b.id, b.title, b.author,
    db.borrowRecords.count (fun r => r.bookId = b.id && inWindow start r)⟩)).filter
    (fun row => 0 < row.checkoutCount)

/-- `ORDER BY checkout_count DESC, title ASC`. -/
def popularKey (c : Collation) (row : PopularBook) : Natᵒᵈ ×ₗ List Nat :=
  toLex (OrderDual.toDual row.checkoutCount, c.weight row.title)

def startOfWindow (now days : Int) : Int := now - days * day

def getPopularBooks (order : RowOrder PopularBook) (c : Collation) (days now : Int) :
    Tx (List PopularBook) :=
  select (fun db => ((order.apply (borrowedBooks (startOfWindow now days) db)).insertionSort
    (fun a b => popularKey c a ≤ popularKey c b)).take 5)

def getBorrowVelocity (now : Int) : Tx BorrowingVelocity := do
  let today ← select (fun db => db.borrowRecords.count (inWindow (startOfToday now)))
  let last7Days ← select (fun db => db.borrowRecords.count (inWindow (now - 7 * day)))
  let last30Days ← select (fun db => db.borrowRecords.count (inWindow (now - 30 * day)))
  pure ⟨today, last7Days, last30Days⟩

end DashboardRepository

namespace DashboardService

open DashboardRepository

/-- The queries are made one after the other; `generated_at` has no fractions of a second. -/
def getSummary (env : DashboardEnv) (days : Int) : Tx DashboardSummary := do
  let inventory ← getInventorySummary
  let members ← getMemberSummary
  let reservations ← getReservationSummary env.updatedAt (env.clock 0)
  let overdue ← getOverdueSummary (env.clock 1)
  let popularBooks ← getPopularBooks env.popularOrder env.collation days (env.clock 2)
  let velocity ← getBorrowVelocity (env.clock 3)
  let totalBorrowsInWindow := (popularBooks.map PopularBook.checkoutCount).sum
  pure ⟨inventory, ⟨totalBorrowsInWindow, velocity⟩, members, reservations, overdue, popularBooks,
    env.clock 4 / second * second⟩

end DashboardService

/-- All queries at the epoch, and titles that weigh alike. -/
def demoDashboardEnv : DashboardEnv := ⟨fun _ => 0, fun _ => 0, ⟨fun _ => []⟩, .stored⟩

/-- What the parts of a summary are computed from. -/
structure Summarises (env : DashboardEnv) (days : Int) (s : DB) (r : DashboardSummary) : Prop where
  inventory : r.inventory = ⟨s.listed.length, (s.listed.map Book.totalCopies).sum,
    s.borrowRecords.count DashboardRepository.isActive, (s.listed.map Book.availableCopies).sum⟩
  hold : r.reservations.hold = s.reservations.count (fun q => q.status = .hold)
  popular : call (DashboardRepository.getPopularBooks env.popularOrder env.collation days
    (env.clock 2)) s = (.ok r.popularBooks, s)
  total : r.circulation.totalBorrowsInWindow = (r.popularBooks.map PopularBook.checkoutCount).sum
  velocity : r.circulation.borrowingVelocity.last30Days =
    s.borrowRecords.count (DashboardRepository.inWindow (env.clock 3 - 30 * day))

theorem call_getSummary (env : DashboardEnv) (days : Int) (s : DB) :
    ∃ r, call (DashboardService.getSummary env days) s = (.ok r, s) ∧ Summarises env days s r :=
  ⟨_, rfl, rfl, rfl, rfl, rfl, rfl⟩

theorem getSummary_ok {env : DashboardEnv} {days : Int} {s : DB} {r : DashboardSummary}
    (h : call (DashboardService.getSummary env days) s = (.ok r, s)) : Summarises env days s r := by
  obtain ⟨r', hr', hparts⟩ := call_getSummary env days s
  obtain rfl : r' = r := Except.ok.inj (congrArg Prod.fst (hr'.symm.trans h))
  exact hparts

end LibraryPlatform
