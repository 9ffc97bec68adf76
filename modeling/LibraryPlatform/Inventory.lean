import LibraryPlatform.Operations

/-!
# Where the copies of a book are

Every copy stands on the shelf, is out on loan or is held for a member. Between two
writes of one call a copy may be in hand: taken from one place and not yet put in another.
-/
namespace LibraryPlatform

open KeyedTable Transaction ReservationRepository

def isLoanOf (bookId : UUID) (r : BorrowRecord) : Bool := r.bookId = bookId && r.status.isActive

namespace DB

def loans (db : DB) (bookId : UUID) : Int := db.borrowRecords.count (isLoanOf bookId)
def holds (db : DB) (bookId : UUID) : Int := db.reservations.count (isHoldOf bookId)

theorem count_putLoan (db : DB) (id : UUID) (r : BorrowRecord) (p : BorrowRecord → Bool) :
    ((db.put (.borrowRecord id) (.borrowRecord r)).borrowRecords.count p : Int) =
      db.borrowRecords.count p + (if p { r with id := id } then 1 else 0) -
      (db.borrowRecords.get id).elim 0 (fun o => if p o then 1 else 0) :=
  db.borrowRecords.count_put { r with id := id } p

theorem count_putReservation (db : DB) (id : UUID) (r : Reservation) (p : Reservation → Bool) :
    ((db.put (.reservation id) (.reservation r)).reservations.count p : Int) =
      db.reservations.count p + (if p { r with id := id } then 1 else 0) -
      (db.reservations.get id).elim 0 (fun o => if p o then 1 else 0) :=
  db.reservations.count_put { r with id := id } p

theorem loans_put (db : DB) (id bookId : UUID) (r : BorrowRecord) :
    (db.put (.borrowRecord id) (.borrowRecord r)).loans bookId = db.loans bookId +
      (if isLoanOf bookId r then 1 else 0) -
      (db.borrowRecords.get id).elim 0 (fun o => if isLoanOf bookId o then 1 else 0) :=
  db.count_putLoan id r (isLoanOf bookId)

theorem holds_put (db : DB) (id bookId : UUID) (r : Reservation) :
    (db.put (.reservation id) (.reservation r)).holds bookId = db.holds bookId +
      (if isHoldOf bookId r then 1 else 0) -
      (db.reservations.get id).elim 0 (fun o => if isHoldOf bookId o then 1 else 0) :=
  db.count_putReservation id r (isHoldOf bookId)

end DB

/-- One copy of a book is in hand. -/
def inHand (bookId : UUID) (x : UUID) : Int := if x = bookId then 1 else 0

@[simp] theorem inHand_self (bookId : UUID) : inHand bookId bookId = 1 := by simp [inHand]

theorem inHand_other {bookId x : UUID} (h : x ≠ bookId) : inHand bookId x = 0 := by simp [inHand, h]

@[simp] theorem isActive_borrowed : BorrowStatus.borrowed.isActive = true := rfl
@[simp] theorem isActive_renewed : BorrowStatus.renewed.isActive = true := rfl
@[simp] theorem isActive_returned : BorrowStatus.returned.isActive = false := rfl

theorem isActive_of {status : BorrowStatus} (hr : status ≠ .returned) (ho : status ≠ .overdue) :
    status.isActive = true := by
  cases status <;> first | rfl | contradiction

/-- What a loan counts for. -/
theorem loan_worth (x : UUID) (r : BorrowRecord) :
    (if isLoanOf x r then 1 else 0 : Int) = if r.status.isActive then inHand r.bookId x else 0 := by
  cases ha : r.status.isActive with
  | true => simp [isLoanOf, inHand, ha, eq_comm (a := x)]
  | false => simp [isLoanOf, ha]

theorem hold_worth (x : UUID) (r : Reservation) :
    (if isHoldOf x r then 1 else 0 : Int) = if r.status = .hold then inHand r.bookId x else 0 := by
  by_cases h : r.status = .hold
  · simp [isHoldOf, inHand, h, eq_comm (a := x)]
  · simp [isHoldOf, h]

/-- The count of the copies of every book that is not soft-deleted, and what keeps it. -/
structure Balanced (db : DB) (spare : UUID → Int) : Prop where
  loanBooks : ∀ r ∈ db.borrowRecords.rows, db.books.get r.bookId ≠ none
  reservationBooks : ∀ r ∈ db.reservations.rows, db.books.get r.bookId ≠ none
  loanStatus : ∀ r ∈ db.borrowRecords.rows, r.status ≠ .overdue
  balance : ∀ id b, db.books.get id = some b → b.isDeleted = false →
    b.totalCopies = b.availableCopies + db.loans id + db.holds id + spare id ∧ 0 ≤ b.availableCopies

namespace Balanced

variable {db : DB} {spare spare' : UUID → Int}

theorem empty (collation : Collation) : Balanced (.empty collation) (fun _ => 0) := by
  constructor <;> simp [DB.empty, Table.empty, Table.get]

theorem accounts {db' : DB} (h : Balanced db spare) (ha : db.Accounts db') :
    Balanced db' spare := by
  obtain ⟨_, _, rfl⟩ := ha.frame
  exact ⟨h.loanBooks, h.reservationBooks, h.loanStatus, h.balance⟩

theorem record (h : Balanced db spare) (e : Event) : Balanced (db.record e) spare :=
  ⟨h.loanBooks, h.reservationBooks, h.loanStatus, h.balance⟩

/-- A book is written; what its count changes by is put in hand or taken from there. -/
theorem putBook (h : Balanced db spare) {id : UUID} {b : Book}
    (hother : ∀ x, x ≠ id → spare' x = spare x)
    (hb : b.isDeleted = false →
      b.totalCopies = b.availableCopies + db.loans id + db.holds id + spare' id ∧
    0 ≤ b.availableCopies) : Balanced (db.put (.book id) (.book b)) spare' := by
  have hget : ∀ x, (db.put (.book id) (.book b)).books.get x =
    if x = id then some { b with id := id } else db.books.get x :=
    fun x => Table.get_put _ _ x
  have hkeep : ∀ x, db.books.get x ≠ none → (db.put (.book id) (.book b)).books.get x ≠ none := by
    intro x hx
    rw [hget]
    split
    · simp
    · exact hx
  refine ⟨fun r hr => hkeep _ (h.loanBooks r hr), fun r hr =>
    hkeep _ (h.reservationBooks r hr), h.loanStatus, ?_⟩
  intro x y hy hdel
  rw [hget] at hy
  by_cases hx : x = id
  · subst hx
    simp only [↓reduceIte, Option.some.injEq] at hy
    subst hy
    exact hb hdel
  · simp only [hx, ↓reduceIte] at hy
    rw [hother x hx]
    exact h.balance x y hy hdel

/-- A loan is written. -/
theorem putLoan (h : Balanced db spare) {id : UUID} {r : BorrowRecord}
    (hbook : db.books.get r.bookId ≠ none) (hstatus : r.status ≠ .overdue)
    (hcopies : ∀ x, (if isLoanOf x r then 1 else 0) - (db.borrowRecords.get id).elim 0 (fun o =>
      if isLoanOf x o then 1 else 0) + spare' x = spare x) :
    Balanced (db.put (.borrowRecord id) (.borrowRecord r)) spare' := by
  refine ⟨fun q hq => ?_, h.reservationBooks, fun q hq => ?_, fun x b hb hdel => ?_⟩
  · rcases mem_putBorrowRecord hq with rfl | hq
    · exact hbook
    · exact h.loanBooks q hq
  · rcases mem_putBorrowRecord hq with rfl | hq
    · exact hstatus
    · exact h.loanStatus q hq
  · have hbal := h.balance x b hb hdel
    have hx := hcopies x
    have hloans := db.loans_put id x r
    have hholds : (db.put (.borrowRecord id) (.borrowRecord r)).holds x = db.holds x := rfl
    omega

/-- A reservation is written. -/
theorem putReservation (h : Balanced db spare) {id : UUID} {r : Reservation}
    (hbook : db.books.get r.bookId ≠ none)
    (hcopies : ∀ x, (if isHoldOf x r then 1 else 0) - (db.reservations.get id).elim 0 (fun o =>
      if isHoldOf x o then 1 else 0) + spare' x = spare x) :
    Balanced (db.put (.reservation id) (.reservation r)) spare' := by
  refine ⟨h.loanBooks, fun q hq => ?_, h.loanStatus, fun x b hb hdel => ?_⟩
  · rcases mem_putReservation hq with rfl | hq
    · exact hbook
    · exact h.reservationBooks q hq
  · have hbal := h.balance x b hb hdel
    have hx := hcopies x
    have hholds := db.holds_put id x r
    have hloans : (db.put (.reservation id) (.reservation r)).loans x = db.loans x := rfl
    omega

/-- The copy in hand is handed on, to the queue or to the shelf. -/
theorem handed {s v v' : DB} {next : DB → Option Reservation} {expiresAt : Int} {bookId : UUID}
    (h : Balanced v (inHand bookId)) (hh : Handed (alone s) s next expiresAt bookId v v')
    (hnext : ∀ w r, next w = some r → isPendingOf bookId r) : Balanced v' (fun _ => 0) := by
  cases hh with
  | @promoted w r _ hr hget =>
    obtain ⟨hbook, hpending⟩ := isPendingOf_iff.mp (hnext w r hr)
    refine Balanced.record (h.putReservation ?_ fun x => ?_) _
    · exact h.reservationBooks r (Table.mem_of_get hget)
    · simp [hget, hold_worth, hbook, hpending]
  | @restored w b _ _ hb hdel hc =>
    have hbal := h.balance bookId b hb hdel
    refine Balanced.record (h.putBook (fun x hx => (inHand_other hx).symm) fun _ => ?_) _
    simp only [inHand_self] at hbal ⊢
    omega
  | @gone w w' _ _ hw hgone =>
    obtain rfl := alone_saw hw
    refine ⟨h.loanBooks, h.reservationBooks, h.loanStatus, fun x b hb hdel => ?_⟩
    have hx : x ≠ bookId := by
      rintro rfl
      rw [activeBook_eq_some.mpr ⟨hb, hdel⟩] at hgone
      cases hgone
    have hbal := h.balance x b hb hdel
    rwa [inHand_other hx] at hbal

/-- A hold is given up: its copy comes in hand. -/
theorem release {r r' : Reservation} {id : UUID} (h : Balanced db (fun _ => 0))
    (hr : db.reservations.get id = some r) (hs : r.status = .hold) (hbook : r'.bookId = r.bookId)
    (hs' : r'.status ≠ .hold) :
    Balanced (db.put (.reservation id) (.reservation r')) (inHand r.bookId) := by
  refine h.putReservation (hbook ▸ h.reservationBooks r (Table.mem_of_get hr)) fun x => ?_
  simp [hr, hold_worth, hs, hs']

theorem created {b : Book} {v' : DB} (h : Balanced db (fun _ => 0)) (hc : Created b db v')
    (hb : b.availableCopies = b.totalCopies) : Balanced v' (fun _ => 0) := by
  obtain ⟨hfresh, hpos, rfl, _⟩ := hc
  have hloans : db.loans b.id = 0 := by
    refine Int.natCast_eq_zero.mpr (Table.count_eq_zero.mpr fun r hr hp => h.loanBooks r hr ?_)
    simp only [isLoanOf, Bool.and_eq_true, decide_eq_true_eq] at hp
    rw [hp.1, hfresh]
  have hholds : db.holds b.id = 0 := by
    refine Int.natCast_eq_zero.mpr (Table.count_eq_zero.mpr fun r hr hp =>
      h.reservationBooks r hr ?_)
    rw [(isHoldOf_iff.mp hp).1, hfresh]
  exact h.putBook (fun _ _ => rfl) fun _ => by omega

theorem updated {D : Discipline DB RowKey} {s v' : DB} {bookId : UUID} {body : BookUpdate}
    (h : Balanced db (fun _ => 0)) (hu : Updated D s bookId body db v') :
    Balanced v' (fun _ => 0) := by
  cases hu with
  | texts hb hdel _ hstore =>
    have hbal := h.balance bookId _ hb hdel
    obtain ⟨hpos, _, _, _, _, _, _, _, rfl⟩ := storeBook_ok hstore
    exact h.putBook (fun _ _ => rfl) fun _ => hbal
  | copies hb hdel _ _ _ hstore =>
    have hbal := h.balance bookId _ hb hdel
    obtain ⟨hpos, _, _, _, _, _, _, _, rfl⟩ := storeBook_ok hstore
    refine (h.record _).putBook (fun _ _ => rfl) fun _ => ⟨?_, hpos⟩
    have hloans : ∀ e, (db.record e).loans bookId = db.loans bookId := fun _ => rfl
    have hholds : ∀ e, (db.record e).holds bookId = db.holds bookId := fun _ => rfl
    simp only [hloans, hholds]
    omega

theorem deleted {D : Discipline DB RowKey} {s v' : DB} {env : Env} {bookId : UUID}
    (h : Balanced db (fun _ => 0)) (hd : Deleted D s env bookId db v') :
    Balanced v' (fun _ => 0) := by
  cases hd with
  | mk _ _ hb => exact h.putBook (fun _ _ => rfl) (by simp)

theorem borrowed {D : Discipline DB RowKey} {s v' : DB} {svc : BorrowService} {env : Env}
    {memberId bookId : UUID} (h : Balanced db (fun _ => 0))
    (hb : Borrowed D s svc env memberId bookId db v') : Balanced v' (fun _ => 0) := by
  -- the copy comes in hand from the hold or from the shelf, and goes out with the loan
  have lend : ∀ u : DB, Balanced u (inHand bookId) → u.borrowRecords.get env.newId = none →
      u.books.get bookId ≠ none →
      Balanced (u.put (.borrowRecord env.newId)
          (.borrowRecord (borrowedRecord svc env memberId bookId))) (fun _ => 0) := by
    intro u hu hfresh hbook
    refine hu.putLoan hbook (by simp [borrowedRecord]) fun x => ?_
    rw [loan_worth]
    simp [hfresh, borrowedRecord]
  cases hb with
  | @held u r hready _ hone hget _ =>
    obtain ⟨b, hbget, _⟩ := hready.book
    have hr : isHoldOf bookId r := (List.mem_filter.mp (hone ▸ List.mem_singleton_self r)).2
    obtain ⟨rfl, hs⟩ := isHoldOf_iff.mp hr
    exact lend _ (h.release hget hs (by rfl) (by simp)) hready.fresh (by simp [DB.put, hbget])
  | @shelf u b hready _ _ hget havail _ =>
    obtain ⟨b', hbget, hdel⟩ := hready.book
    obtain rfl : b' = b := Option.some.inj (hbget.symm.trans hget)
    have hbal := h.balance bookId b' hget hdel
    have htake : Balanced (db.put (.book bookId)
        (.book { b' with availableCopies := b'.availableCopies - 1 }))
        (inHand bookId) :=
      h.putBook (fun x hx => inHand_other hx) (fun _ => by simp only [inHand_self]; omega)
    exact lend _ (htake.record _) hready.fresh (by simp [DB.record, get_putBook])

/-- A loan is closed: its copy comes in hand. -/
theorem close {id : UUID} {r : BorrowRecord} (h : Balanced db (fun _ => 0))
    (hr : db.borrowRecords.get id = some r) (hopen : r.status ≠ .returned)
    (returnDate : Option Int) :
    Balanced (db.put (.borrowRecord id) (.borrowRecord { r with returnDate, status := .returned }))
    (inHand r.bookId) := by
  have hmem := Table.mem_of_get hr
  have hactive := isActive_of hopen (h.loanStatus r hmem)
  refine h.putLoan (h.loanBooks r hmem) (fun hst => by cases hst) fun x => ?_
  simp [hr, loan_worth, hactive]

theorem returned {guard : Option DB → DB → Prop} {s v' : DB} {svc : BorrowService} {env : Env}
    {id : UUID} (h : Balanced s (fun _ => 0)) (hr : Returned (alone s) guard s svc env id s v') :
    Balanced v' (fun _ => 0) := by
  obtain ⟨r, hget, ⟨_, rfl⟩ | ⟨hopen, hh⟩⟩ := hr.cases_alone
  · exact h
  · exact (h.close hget hopen _).handed hh (fun w q hq => waiting_pending hq)

theorem renewed {guard : Option DB → DB → Prop} {s v' : DB} {svc : BorrowService} {env : Env}
    {id : UUID} (h : Balanced s (fun _ => 0)) (hr : Renewed (alone s) guard s svc env id s v') :
    Balanced v' (fun _ => 0) := by
  obtain ⟨r, hget, hopen, _, _, rfl⟩ := hr.cases_alone
  have hmem := Table.mem_of_get hget
  have hactive := isActive_of hopen (h.loanStatus r hmem)
  have hstatus : (renewedRecord svc r r).status = .renewed := by simp +contextual [renewedRecord]
  have hbook : (renewedRecord svc r r).bookId = r.bookId := rfl
  refine h.putLoan (h.loanBooks r hmem) (by simp [hstatus]) fun x => ?_
  simp [hget, loan_worth, hactive, hstatus, hbook]

theorem placed {D : Discipline DB RowKey} {s v' : DB} {env : Env} {memberId bookId : UUID}
    (h : Balanced db (fun _ => 0)) (hp : Placed D s env memberId bookId db v') :
    Balanced v' (fun _ => 0) := by
  obtain ⟨b, hb, _⟩ := hp.book
  rw [hp.stored]
  refine h.putReservation (by simp [placedReservation, hb]) fun x => ?_
  rw [hold_worth]
  simp [hp.fresh, placedReservation]

theorem cancelled {s v' : DB} {svc : ReservationService} {env : Env} {id memberId : UUID}
    (h : Balanced s (fun _ => 0)) (hc : Cancelled (alone s) s svc env id memberId s v') :
    Balanced v' (fun _ => 0) := by
  cases hc with
  | @waiting r hget _ hs =>
    refine h.putReservation (h.reservationBooks r (Table.mem_of_get hget)) fun x => ?_
    simp [hget, hold_worth, hs]
  | @held r _ hget _ hs hh =>
    exact (h.release hget hs (by rfl) (by simp)).handed hh (fun w q hq => (oldestPending_mem hq).2)

theorem expiring {s : DB} {svc : ReservationService} {env : Env} {rest : List Reservation} {n : Nat}
    {v v' : DB} (he : Expiring (alone s) s svc env rest n v v')
    (hrest : ∀ r ∈ rest, r.status = .hold) (h : Balanced v (fun _ => 0)) :
    Balanced v' (fun _ => 0) := by
  induction he with
  | nil => exact h
  | @cons r rest n v v' v'' hget hh _ ih =>
    refine ih (fun q hq => hrest q (List.mem_cons_of_mem _ hq)) ?_
    exact (h.release hget (hrest r List.mem_cons_self) (by rfl) (by simp)).handed hh (fun w q hq =>
      (oldestPending_mem hq).2)

theorem swept {s v' : DB} {svc : ReservationService} {env : Env} (h : Balanced s (fun _ => 0))
    (hs : Swept (alone s) s svc env s v') : Balanced v' (fun _ => 0) := by
  obtain ⟨w, _, _, he⟩ := hs
  exact expiring he (fun r hr => (mem_expiredHolds.mp hr).2.1) h

/-- Every operation keeps the count of the copies. -/
theorem op {s s' : DB} {svc : ReservationService} {env : Env} {op : Op}
    (h : Balanced s (fun _ => 0)) (he : op.Alone s svc env s') : Balanced s' (fun _ => 0) := by
  cases op with
  | createBook => exact h.created he rfl
  | updateBook => exact h.updated he
  | deleteBook => exact h.deleted he
  | borrowBook => exact h.borrowed he
  | returnBook => exact h.returned he
  | renewBook => exact h.renewed he
  | placeReservation => exact h.placed he
  | cancelReservation => exact h.cancelled he
  | processExpiredHolds => exact h.swept he

theorem of_runs {svc : ReservationService} {G : DB → Op → Prop} {s : DB} (h : Runs svc G s) :
    Balanced s (fun _ => 0) :=
  Runs.invariant (I := fun s => Balanced s (fun _ => 0)) empty (fun _ _ _ _ hb _ he => hb.op he)
    (fun _ _ hb ha => hb.accounts ha) h

end Balanced

/-- Copy conservation. -/
theorem copies_conserved {svc : ReservationService} {s : DB} (h : Runs svc AnyOp s) {b : Book}
    (hb : b ∈ s.books.rows) (hdel : b.isDeleted = false) :
    b.totalCopies = b.availableCopies + s.loans b.id + s.holds b.id ∧ 0 ≤ b.availableCopies := by
  have hbal := (Balanced.of_runs h).balance b.id b (Table.get_of_mem hb) hdel
  omega

/-- One of two copies is borrowed, one stands on the shelf. -/
theorem copies_conserved_borrowed :
    let s := serial ⟨48⟩ [(demoEnv 1 0, .createBook "Emma" "Austen" "9780141439587" 2 none),
      (demoEnv 100 hour, .borrowBook 10 1)] demoStart
    ∃ b ∈ s.books.rows, s.loans b.id = 1 ∧ b.availableCopies = 1 ∧
      b.totalCopies = b.availableCopies + s.loans b.id + s.holds b.id := by
  intro s
  have hb : (⟨1, "9780141439587", "Emma", "Austen", none, 2, 1, false, none⟩ : Book) ∈
    s.books.rows := by decide
  exact ⟨_, hb, by decide, rfl,
    (copies_conserved (demoStart_runs.serial _ fun _ _ _ => trivial) hb rfl).1⟩

/-! ## What the table of books lets through -/

/-- The two counters of every book pass the checks of their columns. -/
def CopiesChecked (db : DB) : Prop :=
  ∀ id b, db.books.get id = some b → checkCopies b.totalCopies b.availableCopies = .ok ()

namespace CopiesChecked

variable {db : DB}

theorem frame {db' : DB} (h : CopiesChecked db) (hb : db'.books = db.books) :
    CopiesChecked db' := by
  intro id b hget
  rw [hb] at hget
  exact h id b hget

theorem record (h : CopiesChecked db) (e : Event) : CopiesChecked (db.record e) := h

theorem putBook (h : CopiesChecked db) {id : UUID} {b : Book}
    (hb : checkCopies b.totalCopies b.availableCopies = .ok ()) :
    CopiesChecked (db.put (.book id) (.book b)) := by
  intro x y hy
  rw [get_putBook] at hy
  split at hy
  · cases hy
    exact hb
  · exact h x y hy

theorem handed {D : Discipline DB RowKey} {s v v' : DB} {next : DB → Option Reservation}
    {expiresAt : Int} {bookId : UUID} (h : CopiesChecked v)
    (hh : Handed D s next expiresAt bookId v v') : CopiesChecked v' := by
  cases hh with
  | promoted => exact h
  | restored _ _ _ _ hc => exact h.putBook hc
  | gone => exact h

theorem expiring {D : Discipline DB RowKey} {s v v' : DB} {svc : ReservationService} {env : Env}
    {rest : List Reservation} {n : Nat} (he : Expiring D s svc env rest n v v')
    (h : CopiesChecked v) : CopiesChecked v' := by
  induction he with
  | nil => exact h
  | cons _ hh _ ih => exact ih ((h.frame (by rfl)).handed hh)

theorem effect {D : Discipline DB RowKey} {guard : RowKey → Option DB → DB → Prop}
    {s v v' : DB} {svc : ReservationService} {env : Env} {op : Op} (h : CopiesChecked v)
    (he : op.Effect D guard s svc env v v') : CopiesChecked v' := by
  cases op with
  | createBook => rw [he.stored]; exact h.putBook he.copies
  | updateBook =>
    cases he with
    | texts _ _ _ hstore =>
      have hc := storeBook_copies hstore
      obtain ⟨_, _, _, _, _, _, _, _, rfl⟩ := storeBook_ok hstore
      exact h.putBook hc
    | @copies w b b' total _ _ _ _ _ hstore =>
      have hc := storeBook_copies hstore
      obtain ⟨_, _, _, _, _, _, _, _, rfl⟩ := storeBook_ok hstore
      exact (h.record _).putBook hc
  | deleteBook =>
    cases he with
    | mk _ _ hb => exact h.putBook (by simpa using h _ _ hb)
  | borrowBook =>
    cases he with
    | held => exact h.frame rfl
    | shelf _ _ _ _ _ hc => exact (h.putBook hc).frame rfl
  | returnBook =>
    cases he with
    | again => exact h
    | handed _ _ _ _ _ _ hh => exact (h.frame (by rfl)).handed hh
  | renewBook => cases he with | mk => exact h.frame rfl
  | placeReservation => exact h.frame (by rw [he.stored]; rfl)
  | cancelReservation =>
    cases he with
    | waiting => exact h.frame rfl
    | held _ _ _ hh => exact (h.frame (by rfl)).handed hh
  | processExpiredHolds =>
    obtain ⟨_, _, _, he⟩ := he
    exact expiring he h

theorem op {s s' : DB} {svc : ReservationService} {env : Env} {op : Op} (h : CopiesChecked s)
    (he : op.Alone s svc env s') : CopiesChecked s' := h.effect he

theorem of_runs {svc : ReservationService} {G : DB → Op → Prop} {s : DB} (h : Runs svc G s) :
    CopiesChecked s := by
  refine h.invariant (fun _ => by simp [CopiesChecked, DB.empty])
    (fun _ _ _ _ hs _ he => hs.op he) fun s s' hs ha => ?_
  obtain ⟨_, _, rfl⟩ := ha.frame
  exact hs

end CopiesChecked

end LibraryPlatform
