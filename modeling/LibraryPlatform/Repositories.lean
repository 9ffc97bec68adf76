import Mathlib.Data.List.Sort
import LibraryPlatform.Database

/-!
# Repositories

Each query method is the statement it sends. A `SELECT ... FOR UPDATE` locks the
rows it returns; a lookup by primary key locks the row it finds, soft-deleted or not.
A locking read answers with the row itself. No session holds an object of a book or a
reservation before the statement that locks it. The routes that look up the caller's
membership do hold one of the member, but nothing writes members, so that it still says
what the row says.
-/
namespace LibraryPlatform

open KeyedTable Transaction

namespace BookRepository

def getById (id : UUID) : Tx (Option Book) := select (fun db => db.activeBook id)

def getByIsbn (isbn : String) : Tx (Option Book) := do
  let rows ← select (fun db => db.books.rows.filter (fun b =>
    db.weight b.isbn = db.weight isbn && !b.isDeleted))
  scalarOneOrNone rows

def getByIdForUpdate (id : UUID) : Tx (Option Book) :=
  selectForUpdate (fun db => (db.books.get id).toList.map (fun _ => .book id))
    (fun db => db.activeBook id)

/-- Marks the row; the flush is the caller's next statement and is made here. -/
def delete (id : UUID) (now : Int) : Tx Bool := do
  match ← getById id with
  | none => pure false
  | some _ =>
    updateBook id (fun _ b => .ok { b with isDeleted := true, deletedAt := some (toDatetime now) })
    pure true

end BookRepository

namespace MemberRepository

def getByUserId (userId : UUID) : Tx (Option Member) := do
  let rows ← select (fun db => db.members.rows.filter (fun m => m.userId = userId && !m.isDeleted))
  scalarOneOrNone rows

def getByIdForUpdate (id : UUID) : Tx (Option Member) :=
  selectForUpdate (fun db => (db.members.get id).toList.map (fun _ => .member id))
    (fun db => db.activeMember id)

end MemberRepository

/-- The statuses under which the borrow repository counts a loan as active. -/
def BorrowStatus.isActive : BorrowStatus → Bool
  | .borrowed | .renewed => true
  | _ => false

namespace BorrowRecordRepository

def getById (id : UUID) : Tx (Option BorrowRecord) := select (fun db => db.borrowRecords.get id)

def getActiveByMemberId (memberId : UUID) : Tx (List BorrowRecord) :=
  select (fun db => db.borrowRecords.rows.filter (fun r => r.memberId =
    memberId && r.status.isActive))

def isOverdue (memberId : UUID) (now : Int) (r : BorrowRecord) : Bool :=
  r.memberId = memberId && r.status.isActive && r.dueDate < now

def getOverdueByMemberIdCount (memberId : UUID) (now : Int) : Tx Nat :=
  select (fun db => db.borrowRecords.count (isOverdue memberId now))

/-- Newest loan first; loans of one instant come in any order. -/
def getHistoryByMemberId (order : RowOrder BorrowRecord) (memberId : UUID) (skip limit : Nat) :
    Tx (List BorrowRecord) :=
  select (fun db => (((order.apply
    (db.borrowRecords.rows.filter (fun r => r.memberId = memberId))).insertionSort
    (fun a b => b.borrowDate ≤ a.borrowDate)).drop skip).take limit)

end BorrowRecordRepository

def ReservationStatus.isActive : ReservationStatus → Bool
  | .pending | .hold => true
  | _ => false

namespace ReservationRepository

def lockWhere (order : RowOrder Reservation) (p : Reservation → Bool) : Tx (List Reservation) :=
  selectForUpdate (fun db => (db.reservations.rows.filter p).map (fun r => .reservation r.id))
    (fun db => order.apply (db.reservations.rows.filter p))

def getById (id : UUID) : Tx (Option Reservation) := select (fun db => db.reservations.get id)

def getByIdForUpdate (id : UUID) : Tx (Option Reservation) :=
  selectForUpdate (fun db => (db.reservations.get id).toList.map (fun _ => .reservation id))
    (fun db => db.reservations.get id)

def isActiveOf (memberId : UUID) (r : Reservation) : Bool :=
  r.memberId = memberId && r.status.isActive

def getActiveByMemberIdCount (memberId : UUID) : Tx Nat :=
  select (fun db => db.reservations.count (isActiveOf memberId))

def getActiveByMemberAndBook (memberId bookId : UUID) : Tx (Option Reservation) := do
  let rows ← select (fun db => db.reservations.rows.filter (fun r =>
    isActiveOf memberId r && r.bookId = bookId))
  scalarOneOrNone rows

def isPendingOf (bookId : UUID) (r : Reservation) : Bool := r.bookId = bookId && r.status = .pending

def isHoldOf (bookId : UUID) (r : Reservation) : Bool := r.bookId = bookId && r.status = .hold

/-- `ORDER BY reserved_at LIMIT 1`: the first of the rows placed earliest. -/
def oldest : List Reservation → Option Reservation
  | [] => none
  | r :: rest =>
    match oldest rest with
    | none => some r
    | some q => if q.reservedAt < r.reservedAt then some q else some r

def oldestPending (order : RowOrder Reservation) (bookId : UUID) (db : DB) : Option Reservation :=
  oldest (order.apply (db.reservations.rows.filter (isPendingOf bookId)))

def getFifoPendingByBookId (order : RowOrder Reservation) (bookId : UUID) :
    Tx (Option Reservation) :=
  selectForUpdate (fun db => (oldestPending order bookId db).toList.map (fun r =>
    .reservation r.id))
    (oldestPending order bookId)

/-- One more than those who wait for the book and reserved it earlier. -/
def queuePosition (bookId : UUID) (reservedAt : Int) (db : DB) : Nat :=
  db.reservations.count (fun r => isPendingOf bookId r && r.reservedAt < reservedAt) + 1

def computeQueuePosition (bookId : UUID) (reservedAt : Int) : Tx Nat :=
  select (queuePosition bookId reservedAt)

def isExpiredHold (now : Int) (r : Reservation) : Bool :=
  r.status = .hold && r.expiresAt.elim false (fun t => t < now)

def getExpiredHolds (order : RowOrder Reservation) (now : Int) : Tx (List Reservation) :=
  lockWhere order (isExpiredHold now)

end ReservationRepository

namespace UserRepository

def getById (id : UUID) : Tx (Option User) := select (fun db => db.users.get id)

def getByEmail (email : String) : Tx (Option User) := do
  let rows ← select (fun db => db.users.rows.filter (fun u => db.weight u.email = db.weight email))
  scalarOneOrNone rows

end UserRepository

namespace RefreshTokenRepository

def getByTokenHash (hash : String) : Tx (Option RefreshToken) := do
  let rows ← select (fun db => db.refreshTokens.rows.filter (fun t => t.tokenHash = hash))
  scalarOneOrNone rows

def getFamily (familyId : UUID) : Tx (List RefreshToken) :=
  select (fun db => db.refreshTokens.rows.filter (fun t => t.familyId = familyId))

end RefreshTokenRepository

end LibraryPlatform
