import LibraryPlatform.Repositories

/-!
# Book, reservation and borrow services

Every method is one transaction of `@transactional`. A nested call runs inside
the caller's transaction, so `promoteNextReservation` is inlined where it is called.
-/
namespace LibraryPlatform

open KeyedTable Transaction

/-! ## BookService -/

/-- The body of a book update as `model_dump(exclude_unset=True)` gives it: a
field is absent, null, or has a value. -/
structure BookUpdate where
  title : Option (Option String)
  author : Option (Option String)
  isbn : Option (Option String)
  genre : Option (Option String)
  totalCopies : Option (Option Int)
  deriving DecidableEq

namespace BookService

def createBook (env : Env) (title author isbn : String) (totalCopies : Int)
    (genre : Option String) : Tx Book := do
  let existing ← BookRepository.getByIsbn isbn
  raiseIf existing.isSome (.valueError s!"Book with ISBN {isbn} already exists")
  let book : Book := ⟨env.newId, isbn, title, author, genre, totalCopies, totalCopies, false, none⟩
  insertBook book
  orRaise (← BookRepository.getById book.id) .staleData

/-- The new pair of total and available copies. -/
def adjustCopies (book : Book) : Option (Option Int) → Tx (Int × Int)
  | none => pure (book.totalCopies, book.availableCopies)
  | some none => raise .typeError
  | some (some newTotal) => do
    raiseIf (newTotal < 0) (.valueError "Total copies cannot be negative")
    let diff := newTotal - book.totalCopies
    let newAvailable := book.availableCopies + diff
    raiseIf (newAvailable < 0) (.valueError
      "Cannot reduce total copies below currently checked out copies")
    note (.retotalled book.id diff)
    pure (newTotal, newAvailable)

def updateBook (bookId : UUID) (body : BookUpdate) : Tx Book := do
  let book ← orRaise (← BookRepository.getByIdForUpdate bookId) (.application .bookNotFound none)
  let copies ← adjustCopies book body.totalCopies
  LibraryPlatform.updateBook bookId (fun db b => db.storeBook b
    ⟨body.isbn.getD b.isbn, body.title.getD b.title, body.author.getD b.author,
      body.genre.getD b.genre⟩
    copies.1 copies.2)
  orRaise (← BookRepository.getById bookId) .staleData

def deleteBook (env : Env) (bookId : UUID) : Tx Unit := do
  let success ← BookRepository.delete bookId (env.clock 0)
  raiseIf (!success) (.application .bookNotFound none)

end BookService

/-! ## ReservationService -/

def maxActiveReservations : Nat := 3

structure ReservationService where
  holdDurationHours : Int

namespace ReservationService

def promoteNextReservation (svc : ReservationService) (order : RowOrder Reservation) (now : Int)
    (bookId : UUID) : Tx Unit := do
  match ← ReservationRepository.getFifoPendingByBookId order bookId with
  | some next =>
    let expiresAt := now + svc.holdDurationHours * hour
    updateReservation next.id (fun r =>
      { r with status := .hold, expiresAt := some (toDatetime expiresAt) })
    note (.promoted next.id bookId next.reservedAt)
  | none =>
    match ← BookRepository.getByIdForUpdate bookId with
    | some book =>
      LibraryPlatform.updateBook bookId (fun _ b => do
        checkCopies b.totalCopies (book.availableCopies + 1)
        pure { b with availableCopies := book.availableCopies + 1 })
      note (.restored bookId)
    | none => pure ()

def refuseBorrowed (bookId : UUID) : List BorrowRecord → Tx Unit
  | [] => pure ()
  | br :: rest => do
    raiseIf (br.bookId = bookId ∧ br.status ∈ [BorrowStatus.borrowed, .renewed, .overdue])
      (.application .bookAlreadyBorrowed none)
    refuseBorrowed bookId rest

def placeReservation (env : Env) (memberId bookId : UUID) : Tx Reservation := do
  let book ← orRaise (← BookRepository.getByIdForUpdate bookId) (.application .bookNotFound none)
  raiseIf (0 < book.availableCopies)
    (.valueError "Cannot reserve a book that is currently available in stock")
  let activeCount ← ReservationRepository.getActiveByMemberIdCount memberId
  raiseIf (maxActiveReservations ≤ activeCount) (.application .reservationLimitExceeded none)
  let existingActive ← ReservationRepository.getActiveByMemberAndBook memberId bookId
  raiseIf existingActive.isSome (.application .alreadyReserved none)
  let member ← orRaise (← MemberRepository.getByIdForUpdate memberId)
    (.application .memberInactive none)
  raiseIf (member.membershipStatus = .inactive) (.application .memberInactive none)
  raiseIf (member.membershipStatus = .suspended) (.application .memberSuspended none)
  let activeBorrows ← BorrowRecordRepository.getHistoryByMemberId env.borrowOrder memberId 0 20
  refuseBorrowed bookId activeBorrows
  insertReservation ⟨env.newId, memberId, bookId, toDatetime (env.clock 0), none, .pending⟩
  orRaise (← ReservationRepository.getById env.newId) .staleData

def cancelReservation (svc : ReservationService) (env : Env) (reservationId memberId : UUID) :
    Tx Reservation := do
  let res ← orRaise (← ReservationRepository.getByIdForUpdate reservationId)
    (.application .reservationNotFound none)
  raiseIf (res.memberId ≠ memberId) (.application .reservationNotFound none)
  raiseIf (res.status ∉ [ReservationStatus.pending, .hold])
    (.valueError "Can only cancel pending or active hold reservations")
  updateReservation res.id (fun r => { r with status := .cancelled, expiresAt := none })
  if res.status = .hold then
    svc.promoteNextReservation env.reservationOrder (env.clock 0) res.bookId
  orRaise (← ReservationRepository.getById res.id) .staleData

/-- The loop over the holds found expired; `count` of them are done. -/
def expireHolds (svc : ReservationService) (env : Env) : List Reservation → Nat → Tx Nat
  | [], count => pure count
  | res :: rest, count => do
    updateReservation res.id (fun r => { r with status := .expired, expiresAt := none })
    svc.promoteNextReservation env.reservationOrder (env.clock (count + 1)) res.bookId
    svc.expireHolds env rest (count + 1)

def processExpiredHolds (svc : ReservationService) (env : Env) : Tx Nat := do
  let expiredHolds ← ReservationRepository.getExpiredHolds env.reservationOrder (env.clock 0)
  svc.expireHolds env expiredHolds 0

end ReservationService

/-! ## BorrowService -/

/-- Rate and ceiling in cents. -/
structure FlatDailyFineStrategy where
  dailyRate : Int
  maxLimit : Int
  deriving DecidableEq

def FlatDailyFineStrategy.calculateFine (fine : FlatDailyFineStrategy) (dueDate returnDate : Int) :
    Int :=
  if returnDate ≤ dueDate then 0
  else
    let overdueDelta := returnDate - dueDate
    let days := overdueDelta / day
    let seconds := overdueDelta % day / second
    let daysOverdue := if 0 < seconds then days + 1 else days
    min (daysOverdue * fine.dailyRate) fine.maxLimit

structure BorrowService where
  fineCalculator : FlatDailyFineStrategy
  reservationPolicy : UUID → UUID → Tx Bool
  maxBorrowLimit : Int
  borrowDays : Int
  renewalDays : Int
  reservationService : Option ReservationService

/-- `NoReservationPolicy.has_pending_reservations`. -/
def noReservationPolicy (_memberId _bookId : UUID) : Tx Bool := pure false

/-- The wiring of `get_borrow_service`: every default of the constructor, and a
reservation service. -/
def getBorrowService (reservations : ReservationService) : BorrowService where
  fineCalculator := ⟨50, 5000⟩
  reservationPolicy := noReservationPolicy
  maxBorrowLimit := 5
  borrowDays := 14
  renewalDays := 14
  reservationService := some reservations

namespace BorrowService

def validateMemberForBorrow (svc : BorrowService) (env : Env) (member : Member) : Tx Unit := do
  raiseIf (member.membershipStatus = .suspended) (.application .memberSuspended none)
  raiseIf (member.membershipStatus ≠ .active) (.application .memberInactive none)
  let overdueCount ← BorrowRecordRepository.getOverdueByMemberIdCount member.id (env.clock 0)
  raiseIf (0 < overdueCount) (.application .overdueMember none)
  let active ← BorrowRecordRepository.getActiveByMemberId member.id
  raiseIf (svc.maxBorrowLimit ≤ active.length) (.application .borrowLimitExceeded none)

/-- Completes the member's own hold, and tells whether there was one. -/
def completeHold (memberId : UUID) : Option Reservation → Tx Bool
  | some activeHold => do
    raiseIf (activeHold.memberId ≠ memberId) (.application .reservationNotHeld none)
    updateReservation activeHold.id (fun r => { r with status := .completed, expiresAt := none })
    pure true
  | none => pure false

def takeFromShelf (book : Book) : Tx Unit := do
  LibraryPlatform.updateBook book.id (fun _ b => do
    checkCopies b.totalCopies (book.availableCopies - 1)
    pure { b with availableCopies := book.availableCopies - 1 })
  note (.checkedOut book.id)

def borrowBook (svc : BorrowService) (env : Env) (memberId bookId : UUID) : Tx BorrowRecord :=
  Prog.mapError operationalToConflict do
    let member ← orRaise (← MemberRepository.getByIdForUpdate memberId)
      (.valueError "Member not found")
    svc.validateMemberForBorrow env member
    let book ← orRaise (← BookRepository.getByIdForUpdate bookId) (.application .bookNotFound none)
    let holds ← ReservationRepository.lockWhere env.reservationOrder
      (ReservationRepository.isHoldOf bookId)
    let activeHold ← scalarOneOrNone holds
    let reservationCompleted ← completeHold memberId activeHold
    raiseIf (!reservationCompleted ∧ book.availableCopies ≤ 0) (.application .bookUnavailable none)
    if !reservationCompleted then takeFromShelf book
    let now := env.clock 1
    let dueDate := now + svc.borrowDays * day
    insertBorrowRecord ⟨env.newId, memberId, bookId, toDatetime now, toDatetime dueDate,
      none, 0, .borrowed⟩
    pure ⟨env.newId, memberId, bookId, now, dueDate, none, 0, .borrowed⟩

/-- The end of a return. Without a reservation service the copy goes straight to the shelf. -/
def handBack (svc : BorrowService) (env : Env) (bookId : UUID) : Tx Unit :=
  match svc.reservationService with
  | some reservations => reservations.promoteNextReservation env.reservationOrder
      (env.clock 1) bookId
  | none => do
    match ← BookRepository.getByIdForUpdate bookId with
    | some book =>
      LibraryPlatform.updateBook bookId (fun _ b => do
        checkCopies b.totalCopies (book.availableCopies + 1)
        pure { b with availableCopies := book.availableCopies + 1 })
      note (.restored bookId)
    | none => pure ()

/-- The record returned and, unless it had been returned before, the fine. -/
def returnBook (svc : BorrowService) (env : Env) (borrowRecordId : UUID) :
    Tx (BorrowRecord × Option Int) :=
  Prog.mapError operationalToConflict do
    let record ← orRaise (← BorrowRecordRepository.getById borrowRecordId)
      (.valueError "Borrow record not found")
    if record.status = .returned then pure (record, none)
    else
      let now := env.clock 0
      let fine := svc.fineCalculator.calculateFine record.dueDate now
      updateBorrowRecord record.id (fun r => .ok
        { r with returnDate := some (toDatetime now), status := .returned })
      svc.handBack env record.bookId
      pure ({ record with returnDate := some now, status := .returned }, some fine)

/-- The mapped object writes only the columns it changed: a loan read as RENEWED
keeps its status column out of the update. -/
def renewBook (svc : BorrowService) (env : Env) (borrowRecordId : UUID) : Tx BorrowRecord :=
  Prog.mapError operationalToConflict do
    let record ← orRaise (← BorrowRecordRepository.getById borrowRecordId)
      (.valueError "Borrow record not found")
    raiseIf (record.status = .returned) (.application .bookAlreadyReturned none)
    raiseIf (2 ≤ record.renewalCount) (.application .renewalLimitExceeded none)
    let isBlocked ← svc.reservationPolicy record.memberId record.bookId
    raiseIf isBlocked (.application .bookUnavailable
      (some "Renewal blocked due to pending reservation hold queue"))
    raiseIf (record.dueDate < env.clock 0) (.application .overdueMember none)
    let dueDate := record.dueDate + svc.renewalDays * day
    updateBorrowRecord record.id (fun r => do
      checkRenewals (record.renewalCount + 1)
      pure { r with
        dueDate := toDatetime dueDate
        renewalCount := record.renewalCount + 1
        status := if record.status = .renewed then r.status else .renewed })
    pure { record with
      dueDate := dueDate, renewalCount := record.renewalCount + 1, status := .renewed }

end BorrowService

end LibraryPlatform
