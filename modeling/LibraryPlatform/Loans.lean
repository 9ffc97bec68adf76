import Mathlib.Logic.Relation
import Mathlib.Tactic.Ring
import LibraryPlatform.Operations

/-!
# The life of a loan

Lending, renewing and returning are the only writers of a loan. What they leave of it
agrees in every state: the renewals made, the date it is due and its status.
-/
namespace LibraryPlatform

open KeyedTable Transaction

/-- How one call may change a row of the loans. -/
inductive LoanChange (svc : BorrowService) (env : Env) :
    Option BorrowRecord → Option BorrowRecord → Prop
  | same {o : Option BorrowRecord} : LoanChange svc env o o
  | lent (memberId bookId : UUID) :
      LoanChange svc env none (some (borrowedRecord svc env memberId bookId))
  | renewed {r : BorrowRecord} : r.status ≠ .returned → r.renewalCount < 2 →
      LoanChange svc env (some r) (some (renewedRecord svc r r))
  | returned {r : BorrowRecord} : r.status ≠ .returned →
      LoanChange svc env (some r) (some
        { r with returnDate := some (toDatetime (env.clock 0)), status := .returned })

/-- A date of the loan and a whole number of days are stored as they are. -/
theorem toDatetime_days (t days : Int) :
    toDatetime (t + days * day) = toDatetime t + days * day := by
  simp only [toDatetime, day, hour, second]
  omega

theorem toDatetime_stored (t : Int) : toDatetime (toDatetime t) = toDatetime t := by
  simp only [toDatetime, second]
  omega

/-- What the four fields of a loan say together. -/
structure LoanTerms (svc : BorrowService) (r : BorrowRecord) : Prop where
  count : 0 ≤ r.renewalCount ∧ r.renewalCount ≤ 2
  due : r.dueDate = r.borrowDate + svc.borrowDays * day + r.renewalCount * (svc.renewalDays * day)
  borrowed : r.status ≠ .returned → (r.status = .borrowed ↔ r.renewalCount = 0)
  renewed : r.status ≠ .returned → (r.status = .renewed ↔ r.renewalCount ≠ 0)
  returned : r.returnDate.isSome ↔ r.status = .returned

/-- A loan as it is stored: its dates have no fractional seconds. -/
structure StoredLoan (svc : BorrowService) (r : BorrowRecord) : Prop extends LoanTerms svc r where
  whole : toDatetime r.borrowDate = r.borrowDate

variable {svc : BorrowService} {env : Env}

theorem StoredLoan.due_stored {r : BorrowRecord} (h : StoredLoan svc r) :
    toDatetime r.dueDate = r.dueDate := by
  have hdays : r.dueDate = r.borrowDate +
      (svc.borrowDays + r.renewalCount * svc.renewalDays) * day := by
    rw [h.due]
    ring
  rw [hdays, toDatetime_days, h.whole]

/-- What is borrowed anew has all its days before it. -/
theorem StoredLoan.lent (memberId bookId : UUID) :
    StoredLoan svc (borrowedRecord svc env memberId bookId) where
  count := by simp [borrowedRecord]
  due := by simp [borrowedRecord, toDatetime_days]
  borrowed _ := by simp [borrowedRecord]
  renewed _ := by simp [borrowedRecord]
  returned := by simp [borrowedRecord]
  whole := toDatetime_stored _

theorem StoredLoan.renew {r : BorrowRecord} (h : StoredLoan svc r)
    (hreturned : r.status ≠ .returned) (hcount : r.renewalCount < 2) :
    StoredLoan svc (renewedRecord svc r r) := by
  have hstatus : (renewedRecord svc r r).status = .renewed := by simp +contextual [renewedRecord]
  have hrenewals : (renewedRecord svc r r).renewalCount = r.renewalCount + 1 := rfl
  have hdue : (renewedRecord svc r r).dueDate = r.dueDate + svc.renewalDays * day := by
    change toDatetime (r.dueDate + svc.renewalDays * day) = _
    rw [toDatetime_days, h.due_stored]
  have hborrow : (renewedRecord svc r r).borrowDate = r.borrowDate := rfl
  have hreturn : (renewedRecord svc r r).returnDate = r.returnDate := rfl
  have hpos := h.count.1
  refine ⟨⟨?_, ?_, fun _ => ?_, fun _ => ?_, ?_⟩, h.whole⟩
  · rw [hrenewals]
    omega
  · rw [hrenewals, hdue, hborrow, h.due]
    ring
  · rw [hstatus, hrenewals]
    simp only [reduceCtorEq, false_iff]
    omega
  · rw [hstatus, hrenewals]
    simp only [true_iff]
    omega
  · rw [hstatus, hreturn, h.returned]
    simp [hreturned]

theorem StoredLoan.close {r : BorrowRecord} (h : StoredLoan svc r) (t : Int) :
    StoredLoan svc { r with returnDate := some t, status := .returned } :=
  ⟨⟨h.count, h.due, by simp, by simp, by simp⟩, h.whole⟩

theorem LoanChange.stored {o : Option BorrowRecord} {r : BorrowRecord}
    (h : LoanChange svc env o (some r)) (ho : ∀ q, o = some q → StoredLoan svc q) :
    StoredLoan svc r := by
  cases h with
  | same => exact ho r rfl
  | lent memberId bookId => exact .lent memberId bookId
  | renewed hreturned hcount => exact (ho _ rfl).renew hreturned hcount
  | returned _ => exact (ho _ rfl).close _

theorem LoanChange.final {r : BorrowRecord} {o : Option BorrowRecord}
    (h : LoanChange svc env (some r) o) (hr : r.status = .returned) : o = some r := by
  cases h with
  | same => rfl
  | renewed hreturned => exact absurd hr hreturned
  | returned hreturned => exact absurd hr hreturned

/-! ## Who changes a loan -/

theorem Expiring.borrowRecords {D : Discipline DB RowKey} {s v v' : DB} {svc : ReservationService}
    {rest : List Reservation} {n : Nat} (h : Expiring D s svc env rest n v v') :
    v'.borrowRecords = v.borrowRecords := by
  induction h with
  | nil => rfl
  | cons _ hh _ ih => rw [ih, hh.borrowRecords]; rfl

theorem LoanChange.put {id : UUID} {s : DB} {r : BorrowRecord} {o : Option BorrowRecord}
    (hs : s.borrowRecords.get id = o) (h : LoanChange svc env o (some { r with id := id }))
    (x : UUID) :
    LoanChange svc env (s.borrowRecords.get x)
    ((s.put (.borrowRecord id) (.borrowRecord r)).borrowRecords.get x) := by
  rw [get_putBorrowRecord]
  split
  · rename_i hx
    rw [hx, hs]
    exact h
  · exact .same

theorem Borrowed.loan {D : Discipline DB RowKey} {s s' : DB} {memberId bookId : UUID}
    (h : Borrowed D s svc env memberId bookId s s') (x : UUID) :
    LoanChange svc env (s.borrowRecords.get x) (s'.borrowRecords.get x) := by
  have hfresh := h.fresh
  rw [h.borrowRecords, Table.get_put]
  split
  · rename_i hx
    have hx : x = env.newId := hx
    rw [hx, hfresh]
    exact .lent memberId bookId
  · exact .same

theorem Returned.loan {guard : Option DB → DB → Prop} {s s' : DB} {id : UUID}
    (h : Returned (alone s) guard s svc env id s s') (x : UUID) :
    LoanChange svc env (s.borrowRecords.get x) (s'.borrowRecords.get x) := by
  obtain ⟨r, hget, ⟨_, rfl⟩ | ⟨hopen, hh⟩⟩ := h.cases_alone
  · exact .same
  · obtain rfl : r.id = id := Table.key_of_get hget
    rw [hh.borrowRecords]
    exact LoanChange.put hget (.returned hopen) x

theorem Renewed.loan {guard : Option DB → DB → Prop} {s s' : DB} {id : UUID}
    (h : Renewed (alone s) guard s svc env id s s') (x : UUID) :
    LoanChange svc env (s.borrowRecords.get x) (s'.borrowRecords.get x) := by
  obtain ⟨r, hget, hopen, hcount, _, rfl⟩ := h.cases_alone
  obtain rfl : r.id = id := Table.key_of_get hget
  exact LoanChange.put hget (.renewed hopen hcount) x

theorem Op.Effect.borrowRecords {D : Discipline DB RowKey}
    {guard : RowKey → Option DB → DB → Prop} {s v v' : DB} {svc : ReservationService} {op : Op}
    (h : op.Effect D guard s svc env v v') :
    v'.borrowRecords = v.borrowRecords ∨ (∃ memberId bookId, op = .borrowBook memberId bookId) ∨
    (∃ id, op = .returnBook id) ∨ ∃ id, op = .renewBook id := by
  cases op with
  | createBook => exact .inl (by rw [h.stored]; rfl)
  | updateBook => exact .inl (by cases h <;> rfl)
  | deleteBook => exact .inl (by cases h; rfl)
  | borrowBook memberId bookId => exact .inr (.inl ⟨memberId, bookId, rfl⟩)
  | returnBook id => exact .inr (.inr (.inl ⟨id, rfl⟩))
  | renewBook id => exact .inr (.inr (.inr ⟨id, rfl⟩))
  | placeReservation => exact .inl (by rw [h.stored]; rfl)
  | cancelReservation =>
    cases h with
    | waiting => exact .inl rfl
    | held _ _ _ hh => exact .inl (by rw [hh.borrowRecords]; rfl)
  | processExpiredHolds =>
    obtain ⟨w, _, _, he⟩ := h
    exact .inl he.borrowRecords

theorem Op.Alone.borrowRecords {svc : ReservationService} {s s' : DB} {op : Op}
    (h : op.Alone s svc env s') :
    s'.borrowRecords = s.borrowRecords ∨ (∃ memberId bookId, op = .borrowBook memberId bookId) ∨
    (∃ id, op = .returnBook id) ∨ ∃ id, op = .renewBook id := Op.Effect.borrowRecords h

/-- Every operation changes the loans as the relation allows. -/
theorem Op.Alone.loan {svc : ReservationService} {s s' : DB} {op : Op} (h : op.Alone s svc env s')
    (x : UUID) :
    LoanChange (getBorrowService svc) env (s.borrowRecords.get x) (s'.borrowRecords.get x) := by
  rcases h.borrowRecords with he | ⟨memberId, bookId, rfl⟩ | ⟨id, rfl⟩ | ⟨id, rfl⟩
  · rw [he]
    exact .same
  · exact Borrowed.loan h x
  · exact Returned.loan h x
  · exact Renewed.loan h x

/-! ## Every state of a run -/

variable {svc : ReservationService} {s s' : DB}

def LoansStored (svc : BorrowService) (db : DB) : Prop :=
  ∀ x r, db.borrowRecords.get x = some r → StoredLoan svc r

theorem loans_stored (h : Runs svc AnyOp s) : LoansStored (getBorrowService svc) s := by
  refine h.invariant (fun _ => by simp [LoansStored, DB.empty])
    (fun s s' op env hs _ he x r hr => ?_)
    (fun s s' hs ha x r hr => ?_)
  · have hchange := he.loan x
    rw [hr] at hchange
    exact hchange.stored (hs x)
  · obtain ⟨users, members, rfl⟩ := ha.frame
    exact hs x r hr

theorem returned_stays {r : BorrowRecord} (hr : r.status = .returned)
    (h : Relation.ReflTransGen (SerialStep svc) s s') (hs : s.borrowRecords.get r.id = some r) :
    s'.borrowRecords.get r.id = some r := by
  induction h with
  | refl => exact hs
  | tail _ hstep ih =>
    refine hstep.kept (P := fun db => db.borrowRecords.get r.id = some r) (fun t op env he => ?_)
      (fun t ha => ?_) ih
    · have hchange := he.loan r.id
      rw [ih] at hchange
      exact hchange.final hr
    · obtain ⟨users, members, rfl⟩ := ha.frame
      exact ih

/-- In every state the renewals, the due date and the status of a loan agree, and what has
been returned stays as it is. -/
theorem loan_life_cycle (h : Runs svc AnyOp s) {r : BorrowRecord} (hr : r ∈ s.borrowRecords.rows) :
    LoanTerms (getBorrowService svc) r ∧
    (r.status = .returned → ∀ s', Relation.ReflTransGen (SerialStep svc) s s' →
      r ∈ s'.borrowRecords.rows) :=
  ⟨(loans_stored h r.id r (Table.get_of_mem hr)).toLoanTerms,
    fun hreturned _ h' => Table.mem_of_get (returned_stays hreturned h' (Table.get_of_mem hr))⟩

/-- A loan is renewed twice, kept too long, and returned. -/
def demoLoan : DB :=
  serial ⟨48⟩ [(demoEnv 1 0, .createBook "Emma" "Austen" "9780141439587" 1 none),
    (demoEnv 100 hour, .borrowBook 10 1),
    (demoEnv 0 (2 * hour), .renewBook 100), (demoEnv 0 (3 * hour), .renewBook 100),
    (demoEnv 0 (60 * day), .returnBook 100)]
    demoStart

theorem loan_life_cycle_demo :
    ∃ r ∈ demoLoan.borrowRecords.rows, r.renewalCount = 2 ∧ r.dueDate = hour + 42 * day ∧
    LoanTerms (getBorrowService ⟨48⟩) r ∧
    ∀ s', Relation.ReflTransGen (SerialStep ⟨48⟩) demoLoan s' → r ∈ s'.borrowRecords.rows := by
  have hr : (⟨100, 10, 1, hour, hour + 42 * day, some (60 * day), 2, .returned⟩ : BorrowRecord) ∈
      demoLoan.borrowRecords.rows := by
    decide
  have h := loan_life_cycle (demoStart_runs.serial _ fun _ _ _ => trivial) hr
  exact ⟨_, hr, rfl, rfl, h.1, h.2 rfl⟩

end LibraryPlatform
