import LibraryPlatform.Api
import LibraryPlatform.Dashboard
import LibraryPlatform.Pages

/-!
# The routes that answer a `GET`

They lock nothing and write nothing: all statements of such a request, from the lookup of
the caller on, are plain reads of one transaction.
-/
namespace LibraryPlatform

open KeyedTable Transaction

structure ReservationBookInfo where
  id : UUID
  title : String
  author : String
  isbn : String
  deriving DecidableEq

/-- `queuePosition` is absent unless the reservation waits. -/
structure ReservationDetailResponse where
  id : UUID
  memberId : UUID
  bookId : UUID
  reservedAt : Int
  expiresAt : Option Int
  status : ReservationStatus
  queuePosition : Option Nat
  book : Option ReservationBookInfo
  deriving DecidableEq

/-- The title is that of the loan's book, which there is for every stored loan. -/
structure BorrowHistoryResponse where
  id : UUID
  bookId : UUID
  bookTitle : Option String
  borrowDate : Int
  dueDate : Int
  returnDate : Option Int
  status : BorrowStatus
  renewalCount : Int
  deriving DecidableEq

def Book.info (b : Book) : ReservationBookInfo := ⟨b.id, b.title, b.author, b.isbn⟩

namespace ReservationRepository

/-- `selectinload` asks for the books in a statement of its own, soft-deleted or not. -/
def getActiveReservationsByMember (order : RowOrder Reservation) (memberId : UUID) :
    Tx (List (Reservation × Option Book)) := do
  let rows ← select (fun db => (order.apply
    (db.reservations.rows.filter (isActiveOf memberId))).insertionSort
      (fun a b => a.reservedAt ≤ b.reservedAt))
  select (fun db => rows.map (fun r => (r, db.books.get r.bookId)))

end ReservationRepository

namespace ReservationService

/-- The loop over the reservations found, with a query for the position of each that waits. -/
def withPositions : List (Reservation × Option Book) → Tx (List ReservationDetailResponse)
  | [] => pure []
  | (r, book) :: rest => do
    let pos ← if r.status = .pending then
        some <$> ReservationRepository.computeQueuePosition r.bookId r.reservedAt
      else pure none
    let results ← withPositions rest
    pure (⟨r.id, r.memberId, r.bookId, r.reservedAt, r.expiresAt, r.status, pos,
      book.map Book.info⟩ :: results)

def getActiveReservations (order : RowOrder Reservation) (memberId : UUID) :
    Tx (List ReservationDetailResponse) := do
  withPositions (← ReservationRepository.getActiveReservationsByMember order memberId)

end ReservationService

def BookService.getBookById (bookId : UUID) : Tx Book := do
  orRaise (← BookRepository.getById bookId) (.application .bookNotFound none)

def BorrowRecord.item (r : BorrowRecord) (book : Option Book) : BorrowHistoryResponse :=
  ⟨r.id, r.bookId, book.map Book.title, r.borrowDate, r.dueDate, r.returnDate, r.status,
    r.renewalCount⟩

/-- The page of the history, and then the books that `selectinload` asks for. -/
def BorrowService.historyItems (order : RowOrder BorrowRecord) (memberId : UUID)
    (page pageSize : Nat) : Tx (List BorrowHistoryResponse) := do
  let records ← BorrowService.getBorrowHistory order memberId page pageSize
  select (fun db => records.map (fun r => r.item (db.books.get r.bookId)))

/-- What the queries take from outside. -/
structure InquiryEnv where
  dashboard : DashboardEnv
  rules : TextRules
  bookOrder : RowOrder Book
  borrowOrder : RowOrder BorrowRecord
  reservationOrder : RowOrder Reservation

inductive Inquiry where
  | getMe
  | searchBooks (page pageSize : Nat) (query author genre : Option String)
  | getBook (bookId : UUID)
  | getHistory (page pageSize : Nat)
  | listActiveReservations
  | getDashboardSummary (days : Int)

inductive Answer where
  | me (user : User)
  | books (page : PaginatedDataEnvelope)
  | book (b : Book)
  | history (items : List BorrowHistoryResponse)
  | reservations (items : List ReservationDetailResponse)
  | summary (r : DashboardSummary)
  deriving DecidableEq

/-- One request of a `GET` route. Searching and looking at a book ask for no token. -/
def Api.answer (api : Api) (now : Int) (credentials : Option HTTPAuthorizationCredentials)
    (env : InquiryEnv) : Inquiry → Tx Answer
  | .getMe => Answer.me <$> api.getCurrentUser now credentials
  | .searchBooks page pageSize query author genre =>
    Answer.books <$> searchBooksRoute env.rules env.bookOrder page pageSize query author genre
  | .getBook bookId => Answer.book <$> BookService.getBookById bookId
  | .getHistory page pageSize => do
    let member ← currentMember (← api.getCurrentUser now credentials)
    Answer.history <$> BorrowService.historyItems env.borrowOrder member.id page pageSize
  | .listActiveReservations => do
    let currentUser ← roleRequirement [.member] (← api.getCurrentUser now credentials)
    let member ← currentMember currentUser
    Answer.reservations <$>
      ReservationService.getActiveReservations env.reservationOrder member.id
  | .getDashboardSummary days => do
    let _ ← roleRequirement [.librarian, .admin] (← api.getCurrentUser now credentials)
    Answer.summary <$> DashboardService.getSummary env.dashboard days

/-! ## Plain reads throughout -/

variable {api : Api} {now : Int} {credentials : Option HTTPAuthorizationCredentials}
  {env : InquiryEnv} {s : DB} {memberId : UUID}

theorem withPositions_readOnly (rows : List (Reservation × Option Book)) :
    (ReservationService.withPositions rows).ReadOnly := by
  induction rows with
  | nil => trivial
  | cons x rest ih =>
    simp only [ReservationService.withPositions, Prog.bind_eq, Prog.pure_eq]
    split
    · exact fun _ => ih.bind fun _ => trivial
    · exact ih.bind fun _ => trivial

theorem Api.answer_readOnly (inquiry : Inquiry) :
    (api.answer now credentials env inquiry).ReadOnly := by
  cases inquiry <;> simp only [Api.answer, Prog.bind_eq, Prog.map_eq]
  case getMe => exact api.getCurrentUser_readOnly.bind fun _ => trivial
  case searchBooks => exact fun _ => trivial
  case getBook =>
    exact Prog.ReadOnly.bind (fun _ => readOnly_orRaise _ _) fun _ => trivial
  case getHistory =>
    refine api.getCurrentUser_readOnly.bind fun _ => currentMember_readOnly.bind fun _ => ?_
    exact fun _ _ => trivial
  case listActiveReservations =>
    refine api.getCurrentUser_readOnly.bind fun _ => roleRequirement_readOnly.bind fun _ => ?_
    refine currentMember_readOnly.bind fun _ => Prog.ReadOnly.bind ?_ fun _ => trivial
    exact fun _ _ => withPositions_readOnly _
  case getDashboardSummary =>
    refine api.getCurrentUser_readOnly.bind fun _ => roleRequirement_readOnly.bind fun _ => ?_
    exact fun _ _ _ _ _ _ _ _ _ _ => trivial

/-! ## What is answered -/

/-- What the listing says of a reservation. -/
def DB.detail (db : DB) (r : Reservation) : ReservationDetailResponse where
  id := r.id
  memberId := r.memberId
  bookId := r.bookId
  reservedAt := r.reservedAt
  expiresAt := r.expiresAt
  status := r.status
  queuePosition :=
    if r.status = .pending then
      some (ReservationRepository.queuePosition r.bookId r.reservedAt db)
    else none
  book := (db.books.get r.bookId).map Book.info

theorem exec_withPositions (rows : List Reservation) (base w : DB) :
    (ReservationService.withPositions (rows.map fun r => (r, w.books.get r.bookId))).exec base w =
      (.ok (rows.map w.detail), base, w) := by
  induction rows with
  | nil => rfl
  | cons r rest ih =>
    simp only [List.map_cons, ReservationService.withPositions, Prog.bind_eq, Prog.pure_eq]
    by_cases hs : r.status = .pending
    · simp only [hs, ↓reduceIte]
      refine Prog.exec_bind_ok rfl (Prog.exec_bind_ok ih ?_)
      simp [Prog.exec, DB.detail, hs]
    · simp only [hs, ↓reduceIte]
      refine Prog.exec_bind_ok rfl (Prog.exec_bind_ok ih ?_)
      simp [Prog.exec, DB.detail, hs]

theorem call_getActiveReservations (order : RowOrder Reservation) (memberId : UUID) (s : DB) :
    call (ReservationService.getActiveReservations order memberId) s =
      (.ok (((order.apply (s.reservations.rows.filter
        (ReservationRepository.isActiveOf memberId))).insertionSort
          (fun a b => a.reservedAt ≤ b.reservedAt)).map s.detail), s) :=
  call_ok (Prog.exec_bind_ok (Prog.exec_bind_ok rfl rfl) (exec_withPositions _ s s))

theorem call_historyItems (order : RowOrder BorrowRecord) (memberId : UUID) (page pageSize : Nat)
    (s : DB) :
    call (BorrowService.historyItems order memberId page pageSize) s =
      (.ok (((((order.apply (s.borrowRecords.rows.filter fun r => r.memberId =
        memberId)).insertionSort (fun a b => b.borrowDate ≤ a.borrowDate)).drop
          ((page - 1) * pageSize)).take pageSize).map fun r => r.item (s.books.get r.bookId)), s) :=
  rfl

/-- The caller's active reservations, first come first, each with its place in the queue. -/
theorem listActiveReservations_ok {items : List ReservationDetailResponse} {s' : DB}
    (h : call (api.answer now credentials env .listActiveReservations) s =
      (.ok (.reservations items), s')) :
    ∃ u m, Allowed api now credentials s [.member] u ∧ Represents s u m ∧
      items = ((env.reservationOrder.apply (s.reservations.rows.filter
        (ReservationRepository.isActiveOf m.id))).insertionSort
          (fun a b => a.reservedAt ≤ b.reservedAt)).map s.detail := by
  simp only [Api.answer, Prog.bind_eq, Prog.map_eq] at h
  obtain ⟨u, hu, h⟩ := allowed_of_call h
  obtain ⟨m, hm, h⟩ := currentMember_readOnly.call_bind_ok h
  refine ⟨u, m, hu, call_currentMember_ok hm, ?_⟩
  rw [← Prog.map_eq, call_map, call_getActiveReservations] at h
  exact (Answer.reservations.inj (Except.ok.inj (congrArg Prod.fst h))).symm

/-- A summary is for staff, and is the summary of the state. -/
theorem getDashboardSummary_ok {days : Int} {r : DashboardSummary} {s' : DB}
    (h : call (api.answer now credentials env (.getDashboardSummary days)) s =
      (.ok (.summary r), s')) :
    (∃ u, Allowed api now credentials s [.librarian, .admin] u) ∧
      call (DashboardService.getSummary env.dashboard days) s = (.ok r, s) := by
  simp only [Api.answer, Prog.bind_eq, Prog.map_eq] at h
  obtain ⟨u, hu, h⟩ := allowed_of_call h
  obtain ⟨r', hr', _⟩ := call_getSummary env.dashboard days s
  rw [← Prog.map_eq, call_map, hr'] at h
  obtain rfl : r' = r := Answer.summary.inj (Except.ok.inj (congrArg Prod.fst h))
  exact ⟨⟨u, hu⟩, hr'⟩

end LibraryPlatform
