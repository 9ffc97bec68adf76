import Mathlib.Data.List.Infix
import LibraryPlatform.Domain

/-!
# What the exception handlers answer

Each subclass of `ApplicationException` has its status and its text. The handlers of `main.py`
answer with these, an `IntegrityError` of the database with 400, and anything else with 500.
-/
namespace LibraryPlatform

namespace ApplicationException

def statusCode : ApplicationException → Nat
  | .invalidCredentials | .tokenExpired | .tokenRevoked | .invalidRefreshToken
  | .unauthorized => 401
  | .inactiveUser | .forbidden | .memberInactive | .memberSuspended => 403
  | .bookNotFound | .reservationNotFound => 404
  | .concurrentBorrow => 409
  | .emailAlreadyExists | .bookUnavailable | .bookDeleted | .borrowLimitExceeded
  | .bookAlreadyReturned | .renewalLimitExceeded | .overdueMember
  | .reservationLimitExceeded | .alreadyReserved | .bookAlreadyBorrowed
  | .reservationNotHeld => 400

def detail : ApplicationException → String
  | .invalidCredentials => "Invalid email or password"
  | .emailAlreadyExists => "Email address is already registered"
  | .inactiveUser => "User account is suspended or inactive"
  | .tokenExpired => "Authentication token has expired"
  | .tokenRevoked => "Authentication token has been revoked"
  | .invalidRefreshToken => "Invalid refresh token session"
  | .unauthorized => "Could not validate authentication credentials"
  | .forbidden => "You do not have permission to access this resource"
  | .bookNotFound => "Book not found"
  | .bookUnavailable => "Book is currently out of stock"
  | .bookDeleted => "Book is soft-deleted and cannot be modified or borrowed"
  | .borrowLimitExceeded => "Member has reached maximum borrowing limit"
  | .memberInactive => "Member profile is inactive"
  | .memberSuspended => "Member profile is suspended"
  | .bookAlreadyReturned => "Book has already been returned"
  | .renewalLimitExceeded => "Maximum renewal limit has been reached"
  | .overdueMember => "Member is blocked due to active overdue borrow records"
  | .concurrentBorrow => "Operation failed due to concurrent modification conflicts"
  | .reservationLimitExceeded => "Member has reached maximum active reservations limit"
  | .alreadyReserved => "Member already has an active reservation for this book"
  | .bookAlreadyBorrowed => "Member already has this book checked out"
  | .reservationNotFound => "Reservation not found"
  | .reservationNotHeld => "This book is currently held for another member's reservation"

/-- The name of the class. -/
def errorCode : ApplicationException → String
  | .invalidCredentials => "InvalidCredentialsException"
  | .emailAlreadyExists => "EmailAlreadyExistsException"
  | .inactiveUser => "InactiveUserException"
  | .tokenExpired => "TokenExpiredException"
  | .tokenRevoked => "TokenRevokedException"
  | .invalidRefreshToken => "InvalidRefreshTokenException"
  | .unauthorized => "UnauthorizedException"
  | .forbidden => "ForbiddenException"
  | .bookNotFound => "BookNotFoundException"
  | .bookUnavailable => "BookUnavailableException"
  | .bookDeleted => "BookDeletedException"
  | .borrowLimitExceeded => "BorrowLimitExceededException"
  | .memberInactive => "MemberInactiveException"
  | .memberSuspended => "MemberSuspendedException"
  | .bookAlreadyReturned => "BookAlreadyReturnedException"
  | .renewalLimitExceeded => "RenewalLimitExceededException"
  | .overdueMember => "OverdueMemberException"
  | .concurrentBorrow => "ConcurrentBorrowException"
  | .reservationLimitExceeded => "ReservationLimitExceededException"
  | .alreadyReserved => "AlreadyReservedException"
  | .bookAlreadyBorrowed => "BookAlreadyBorrowedException"
  | .reservationNotFound => "ReservationNotFoundException"
  | .reservationNotHeld => "ReservationNotHeldException"

theorem statusCode_client (c : ApplicationException) :
    400 ≤ c.statusCode ∧ c.statusCode < 500 := by
  cases c <;> decide

theorem errorCode_ne (c : ApplicationException) : c.errorCode ≠ "IntegrityError" := by
  cases c <;> decide

end ApplicationException

/-- What the driver reports as `IntegrityError`. -/
def DbError.isIntegrityError : DbError → Bool
  | .duplicateEntry _ | .noReferencedRow _ | .badNull _ => true
  | _ => false

structure ErrorResponse where
  statusCode : Nat
  message : String
  errorCode : String
  deriving DecidableEq

/-- `part in errorMsg`. -/
def mentions (errorMsg part : String) : Bool := part.toList <:+: errorMsg.toList

/-- The message for an `IntegrityError`, read off the text of the driver. -/
def integrityMessage (errorMsg : String) : String :=
  if mentions errorMsg "Duplicate entry" then
    if mentions errorMsg "books.isbn" || mentions errorMsg "isbn" then
      "A book with this ISBN already exists"
    else if mentions errorMsg "users.email" || mentions errorMsg "email" then
      "This email address is already registered"
    else "A record with this unique identifier already exists"
  else "Database integrity constraint violated"

theorem integrityMessage_ne (errorMsg : String) : integrityMessage errorMsg ≠ "" := by
  unfold integrityMessage
  split
  · split
    · simp
    · split <;> simp
  · simp

/-- The answer to an exception, `errorMsg` being what the driver says of its errors. An empty
detail is replaced by that of the class. -/
def Exc.response (errorMsg : DbError → String) : Exc → ErrorResponse
  | .application cls detail =>
      ⟨cls.statusCode, (detail.filter fun text => text ≠ "").getD cls.detail, cls.errorCode⟩
  | .database e =>
      if e.isIntegrityError then ⟨400, integrityMessage (errorMsg e), "IntegrityError"⟩
      else ⟨500, "An unexpected error occurred", "INTERNAL_SERVER_ERROR"⟩
  | _ => ⟨500, "An unexpected error occurred", "INTERNAL_SERVER_ERROR"⟩

def Exc.IsApplication (e : Exc) : Prop := ∃ c d, e = .application c d

@[simp] theorem isApplication_application (c : ApplicationException) (d : Option String) :
    (Exc.application c d).IsApplication := ⟨c, d, rfl⟩

theorem not_isApplication_valueError (msg : String) : ¬(Exc.valueError msg).IsApplication := by
  simp [Exc.IsApplication]

/-- An answer below 500 is that of a subclass of `ApplicationException` or of an
`IntegrityError`. -/
theorem response_client_iff (errorMsg : DbError → String) (e : Exc) :
    (e.response errorMsg).statusCode < 500 ↔
      e.IsApplication ∨ ∃ d, e = .database d ∧ d.isIntegrityError := by
  cases e with
  | application c d => simpa [Exc.response] using c.statusCode_client.2
  | database d => cases h : d.isIntegrityError <;> simp [Exc.response, Exc.IsApplication, h]
  | valueError | typeError | multipleResultsFound | staleData =>
    simp [Exc.response, Exc.IsApplication]

/-- Whatever replaces the text of its class, no answer is without one. -/
theorem response_message_ne (errorMsg : DbError → String) (e : Exc) :
    (e.response errorMsg).message ≠ "" := by
  cases e with
  | application c d =>
    have hdetail : c.detail ≠ "" := by cases c <;> decide
    cases d with
    | none => exact hdetail
    | some text =>
      by_cases ht : text = ""
      · subst ht
        exact hdetail
      · have hkept : Option.filter (fun text => text ≠ "") (some text) = some text := by
          simp [Option.filter, ht]
        rw [Exc.response, hkept]
        exact ht
  | database d =>
    cases h : d.isIntegrityError with
    | true => simpa [Exc.response, h] using integrityMessage_ne (errorMsg d)
    | false => simp [Exc.response, h]
  | valueError | typeError | multipleResultsFound | staleData => simp [Exc.response]

end LibraryPlatform
