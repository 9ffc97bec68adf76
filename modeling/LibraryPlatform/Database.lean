import LibraryPlatform.Domain
import LibraryPlatform.KeyedTable
import LibraryPlatform.Transaction

/-!
# The database

The tables the services read and write, their constraints, and the statements
their programs are made of. The journal is a ghost: it records, in the order of
the commits, what transactions did with copies, and no statement reads it.
-/
namespace LibraryPlatform

open KeyedTable Transaction

structure User where
  id : UUID
  email : String
  passwordHash : String
  role : UserRole
  status : UserStatus
  deriving DecidableEq, Repr

structure Member where
  id : UUID
  userId : UUID
  membershipStatus : MembershipStatus
  isDeleted : Bool
  deriving DecidableEq, Repr

structure Book where
  id : UUID
  isbn : String
  title : String
  author : String
  genre : Option String
  totalCopies : Int
  availableCopies : Int
  isDeleted : Bool
  deletedAt : Option Int
  deriving DecidableEq, Repr

structure BorrowRecord where
  id : UUID
  memberId : UUID
  bookId : UUID
  borrowDate : Int
  dueDate : Int
  returnDate : Option Int
  renewalCount : Int
  status : BorrowStatus
  deriving DecidableEq, Repr

structure Reservation where
  id : UUID
  memberId : UUID
  bookId : UUID
  reservedAt : Int
  expiresAt : Option Int
  status : ReservationStatus
  deriving DecidableEq, Repr

structure ClientMetadata where
  ipAddress : Option String
  userAgent : Option String
  deviceName : Option String
  deriving DecidableEq, Repr

structure RefreshToken where
  id : UUID
  userId : UUID
  familyId : UUID
  tokenHash : String
  expiresAt : Int
  revoked : Bool
  client : ClientMetadata
  deriving DecidableEq, Repr

instance : Keyed UUID User := ⟨User.id⟩
instance : Keyed UUID Member := ⟨Member.id⟩
instance : Keyed UUID Book := ⟨Book.id⟩
instance : Keyed UUID BorrowRecord := ⟨BorrowRecord.id⟩
instance : Keyed UUID Reservation := ⟨Reservation.id⟩
instance : Keyed UUID RefreshToken := ⟨RefreshToken.id⟩

/-- What a transaction did with a copy of a book. -/
inductive Event where
  | promoted (reservationId bookId : UUID) (reservedAt : Int)
  | restored (bookId : UUID)
  | checkedOut (bookId : UUID)
  | retotalled (bookId : UUID) (diff : Int)
  deriving DecidableEq, Repr

/-- How the database compares texts: by their weights. -/
structure Collation where
  weight : String → List Nat

/-- Letters are compared without their case. -/
def Collation.ignoringCase : Collation := ⟨fun text => text.toList.map fun c => c.toLower.toNat⟩

/-- The tables, and the collation of their text columns, which no statement changes. -/
structure DB where
  collation : Collation
  users : Table User
  members : Table Member
  books : Table Book
  borrowRecords : Table BorrowRecord
  reservations : Table Reservation
  refreshTokens : Table RefreshToken
  journal : List Event

/-- The rows that statements lock or write. -/
inductive RowKey where
  | member (id : UUID)
  | book (id : UUID)
  | borrowRecord (id : UUID)
  | reservation (id : UUID)
  | refreshToken (id : UUID)
  deriving DecidableEq, Repr

inductive Row where
  | member (r : Member)
  | book (r : Book)
  | borrowRecord (r : BorrowRecord)
  | reservation (r : Reservation)
  | refreshToken (r : RefreshToken)

namespace DB

def empty (collation : Collation) : DB :=
  ⟨collation, .empty, .empty, .empty, .empty, .empty, .empty, []⟩

/-- What the columns make of a text when they compare it. -/
def weight (db : DB) (text : String) : List Nat := db.collation.weight text

theorem weight_congr {s t : DB} (h : s.collation = t.collation) (text : String) :
    s.weight text = t.weight text := by
  rw [weight, weight, h]

def row : RowKey → DB → Option Row
  | .member id, db => (db.members.get id).map .member
  | .book id, db => (db.books.get id).map .book
  | .borrowRecord id, db => (db.borrowRecords.get id).map .borrowRecord
  | .reservation id, db => (db.reservations.get id).map .reservation
  | .refreshToken id, db => (db.refreshTokens.get id).map .refreshToken

/-- Writes the columns of one row; the primary key stays that of the row. -/
def put : RowKey → Row → DB → DB
  | .member id, .member r, db => { db with members := db.members.put { r with id := id } }
  | .book id, .book r, db => { db with books := db.books.put { r with id := id } }
  | .borrowRecord id, .borrowRecord r, db =>
    { db with borrowRecords := db.borrowRecords.put { r with id := id } }
  | .reservation id, .reservation r, db =>
      { db with reservations := db.reservations.put { r with id := id } }
  | .refreshToken id, .refreshToken r, db =>
    { db with refreshTokens := db.refreshTokens.put { r with id := id } }
  | _, _, db => db

def record (e : Event) (db : DB) : DB := { db with journal := db.journal ++ [e] }

theorem row_put (k k' : RowKey) (r : Row) (db : DB) (h : k' ≠ k) :
    row k' (put k r db) = row k' db := by
  cases k <;> cases r <;> first | rfl | skip
  all_goals
    cases k' <;> first | rfl | skip
    rename_i id _ id'
    have hid : id' ≠ id := by rintro rfl; exact h rfl
    simp only [row, put]
    rw [Table.get_put_other _ hid]

theorem row_congr (k k' : RowKey) (r : Row) (s t : DB) (h : row k' s = row k' t) :
    row k' (put k r s) = row k' (put k r t) := by
  by_cases hk : k' = k
  · subst hk
    cases k' <;> cases r <;> first | exact h | simp only [row, put, Table.get_put]
    all_goals split <;> first | rfl | exact h
  · rw [row_put k k' r s hk, row_put k k' r t hk, h]

@[simp] theorem collation_put (k : RowKey) (r : Row) (db : DB) :
    (put k r db).collation = db.collation := by
  cases k <;> cases r <;> rfl

@[simp] theorem collation_record (e : Event) (db : DB) : (record e db).collation = db.collation :=
  rfl

instance : Store DB RowKey Row Event where
  row := row
  put := put
  record := record
  row_put := row_put
  row_congr := row_congr
  row_record k e db := by cases k <;> rfl

/-- A book as queries see it: soft-deleted rows are filtered out. -/
def activeBook (db : DB) (id : UUID) : Option Book :=
  (db.books.get id).filter (fun b => !b.isDeleted)

def activeMember (db : DB) (id : UUID) : Option Member :=
  (db.members.get id).filter (fun m => !m.isDeleted)

end DB

/-! ## Column types and constraints -/

def checkLength (column : String) (max : Nat) (v : String) : Except Exc Unit :=
  if v.length ≤ max then .ok () else .error (.database (.dataTooLong column))

/-- A `TEXT` column is bounded in bytes. -/
def checkText (column : String) (v : String) : Except Exc Unit :=
  if v.utf8ByteSize ≤ 65535 then .ok () else .error (.database (.dataTooLong column))

def checkNotNull (column : String) : Option String → Except Exc String
  | some v => .ok v
  | none => .error (.database (.badNull column))

def checkSmallInt (column : String) (v : Int) : Except Exc Unit :=
  if -32768 ≤ v ∧ v ≤ 32767 then .ok () else .error (.database (.outOfRange column))

def checkThat (name : String) (p : Bool) : Except Exc Unit :=
  if p then .ok () else .error (.database (.checkViolated name))

/-- The checks on the two copy counters. -/
def checkCopies (total available : Int) : Except Exc Unit := do
  checkSmallInt "total_copies" total
  checkSmallInt "available_copies" available
  checkThat "chk_books_total_copies_non_negative" (0 ≤ total)
  checkThat "chk_books_available_copies_non_negative" (0 ≤ available)
  checkThat "chk_books_available_copies_lte_total" (available ≤ total)

/-- The text columns of a book as the mapped object holds them before a flush. -/
structure BookTexts where
  isbn : Option String
  title : Option String
  author : Option String
  genre : Option String

/-- The row a flush of a book object stores under `id`, if the table takes it. -/
def DB.storeBook (db : DB) (old : Book) (texts : BookTexts) (total available : Int) :
    Except Exc Book := do
  let isbn ← checkNotNull "isbn" texts.isbn
  let title ← checkNotNull "title" texts.title
  let author ← checkNotNull "author" texts.author
  checkLength "isbn" 20 isbn
  checkLength "title" 500 title
  checkLength "author" 255 author
  texts.genre.elim (.ok ()) (checkLength "genre" 100)
  checkCopies total available
  if db.books.rows.any (fun b => b.id ≠ old.id ∧ db.weight b.isbn = db.weight isbn) then
    .error (.database (.duplicateEntry "books.isbn"))
  else
    .ok { old with isbn, title, author, genre := texts.genre, totalCopies := total,
                   availableCopies := available }

def DB.checkParents (db : DB) (memberId bookId : UUID) : Except Exc Unit :=
  if (db.members.get memberId).isNone then .error (.database (.noReferencedRow "member_id"))
  else if (db.books.get bookId).isNone then .error (.database (.noReferencedRow "book_id"))
  else .ok ()

def checkFresh {ρ : Type} (table : String) (old : Option ρ) : Except Exc Unit :=
  if old.isNone then .ok () else .error (.database (.duplicateEntry (table ++ ".PRIMARY")))

def checkRenewals (n : Int) : Except Exc Unit := do
  checkThat "chk_borrow_renewal_count_non_negative" (0 ≤ n)
  checkThat "chk_borrow_renewal_count_max_limit" (n ≤ 2)

/-! ## Statements -/

abbrev Tx (α : Type) := Prog DB RowKey Row Event Exc α

def raise {α : Type} (e : Exc) : Tx α := .raise e
def raiseIf (c : Prop) [Decidable c] (e : Exc) : Tx Unit := if c then .raise e else .ret ()

def orRaise {α : Type} (o : Option α) (e : Exc) : Tx α :=
  match o with
  | some a => .ret a
  | none => .raise e

/-- `Result.scalar_one_or_none`. -/
def scalarOneOrNone {α : Type} : List α → Tx (Option α)
  | [] => .ret none
  | [a] => .ret (some a)
  | _ => .raise .multipleResultsFound

def select {α : Type} (q : DB → α) : Tx α := .select q .ret
def selectForUpdate {α : Type} (keys : DB → List RowKey) (q : DB → α) : Tx α := .lock keys q .ret
def note (e : Event) : Tx Unit := .note e (.ret ())
def commit : Tx Unit := .commit (.ret ())

def updateBook (id : UUID) (f : DB → Book → Except Exc Book) : Tx Unit :=
  .update (.book id) (fun db => match db.books.get id with
    | some b => (f db b).map .book
    | none => .error .staleData) (.ret ())

def updateBorrowRecord (id : UUID) (f : BorrowRecord → Except Exc BorrowRecord) : Tx Unit :=
  .update (.borrowRecord id) (fun db => match db.borrowRecords.get id with
    | some r => (f r).map .borrowRecord
    | none => .error .staleData) (.ret ())

def updateReservation (id : UUID) (f : Reservation → Reservation) : Tx Unit :=
  .update (.reservation id) (fun db => match db.reservations.get id with
    | some r => .ok (.reservation (f r))
    | none => .error .staleData) (.ret ())

def updateRefreshToken (id : UUID) (f : RefreshToken → RefreshToken) : Tx Unit :=
  .update (.refreshToken id) (fun db => match db.refreshTokens.get id with
    | some r => .ok (.refreshToken (f r))
    | none => .error .staleData) (.ret ())

def insertBook (b : Book) : Tx Unit :=
  .insert (.book b.id) (fun db => do
    checkFresh "books" (db.books.get b.id)
    (db.storeBook b ⟨some b.isbn, some b.title, some b.author,
      b.genre⟩ b.totalCopies b.availableCopies).map .book)
    (.ret ())

def insertBorrowRecord (r : BorrowRecord) : Tx Unit :=
  .insert (.borrowRecord r.id) (fun db => do
    checkFresh "borrow_records" (db.borrowRecords.get r.id)
    checkRenewals r.renewalCount
    db.checkParents r.memberId r.bookId
    pure (.borrowRecord r)) (.ret ())

def insertReservation (r : Reservation) : Tx Unit :=
  .insert (.reservation r.id) (fun db => do
    checkFresh "reservations" (db.reservations.get r.id)
    db.checkParents r.memberId r.bookId
    pure (.reservation r)) (.ret ())

def insertRefreshToken (r : RefreshToken) : Tx Unit :=
  .insert (.refreshToken r.id) (fun db => do
    checkFresh "refresh_tokens" (db.refreshTokens.get r.id)
    checkLength "token_hash" 255 r.tokenHash
    r.client.ipAddress.elim (.ok ()) (checkLength "ip_address" 45)
    r.client.userAgent.elim (.ok ()) (checkText "user_agent")
    r.client.deviceName.elim (.ok ()) (checkLength "device_name" 255)
    if (db.users.get r.userId).isNone then .error (.database (.noReferencedRow "user_id"))
    pure (.refreshToken r)) (.ret ())

/-! ## What a call takes from outside -/

/-- An order in which the database may hand out rows that no `ORDER BY` sorts. -/
structure RowOrder (ρ : Type) where
  apply : List ρ → List ρ
  perm : ∀ l, (apply l).Perm l

def RowOrder.stored {ρ : Type} : RowOrder ρ := ⟨id, fun _ => .refl _⟩

/-- The readings of the clock (`clock i` is the `i`-th `datetime.now` of the call),
the result of `uuid.uuid4`, and the orders of unsorted rows. -/
structure Env where
  clock : Nat → Int
  newId : UUID
  borrowOrder : RowOrder BorrowRecord
  reservationOrder : RowOrder Reservation

end LibraryPlatform
