import Mathlib.Order.Defs.LinearOrder
import Mathlib.Tactic.Common

/-!
# Enumerations, time and exceptions

Instants are whole microseconds since the epoch, in UTC. A MySQL `DATETIME`
column has no fractional seconds and rounds what it is given.
-/
namespace LibraryPlatform

abbrev UUID := Nat

def second : Int := 1000000
def hour : Int := 3600 * second
def day : Int := 24 * hour

/-- What a `DATETIME` column keeps of an instant. -/
def toDatetime (t : Int) : Int := (t + second / 2) / second * second

theorem toDatetime_mono {s t : Int} (h : s ≤ t) : toDatetime s ≤ toDatetime t := by
  simp only [toDatetime, second]
  omega

inductive UserRole where
  | admin | librarian | member
  deriving DecidableEq, Repr

inductive UserStatus where
  | active | inactive | suspended
  deriving DecidableEq, Repr

inductive MembershipStatus where
  | active | inactive | suspended
  deriving DecidableEq, Repr

inductive BorrowStatus where
  | borrowed | returned | renewed | overdue
  deriving DecidableEq, Repr

inductive ReservationStatus where
  | pending | hold | completed | cancelled | expired
  deriving DecidableEq, Repr

/-- The subclasses of `ApplicationException`. -/
inductive ApplicationException where
  | invalidCredentials | emailAlreadyExists | inactiveUser | tokenExpired | tokenRevoked
  | invalidRefreshToken | unauthorized | forbidden
  | bookNotFound | bookUnavailable | bookDeleted
  | borrowLimitExceeded | memberInactive | memberSuspended
  | bookAlreadyReturned | renewalLimitExceeded | overdueMember | concurrentBorrow
  | reservationLimitExceeded | alreadyReserved | bookAlreadyBorrowed
  | reservationNotFound | reservationNotHeld
  deriving DecidableEq, Repr

/-- What MySQL refuses to store. -/
inductive DbError where
  | duplicateEntry (key : String)
  | noReferencedRow (column : String)
  | badNull (column : String)
  | dataTooLong (column : String)
  | outOfRange (column : String)
  | checkViolated (name : String)
  deriving DecidableEq, Repr

/-- What a service call can raise. An application exception may replace the text
of its class. -/
inductive Exc where
  | application (cls : ApplicationException) (detail : Option String)
  | valueError (msg : String)
  | typeError
  | multipleResultsFound
  | staleData
  | database (e : DbError)
  deriving DecidableEq, Repr

/-- The driver knows no class for a failed check constraint and reports it as
`OperationalError`, which the borrow service turns into a conflict. -/
def operationalToConflict : Exc → Exc
  | .database (.checkViolated _) => .application .concurrentBorrow none
  | e => e

end LibraryPlatform
