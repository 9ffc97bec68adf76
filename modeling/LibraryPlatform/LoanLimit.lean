import LibraryPlatform.Requests
import LibraryPlatform.Shelf

/-!
# The loan limit

`borrow_book` counts the member's loans in a snapshot. The snapshot is taken when the
member is locked already, and whoever lends to the member locks the member too, so the
count stands until the loan is committed.
-/
namespace LibraryPlatform

open KeyedTable Transaction

inductive LoanOp where
  | borrowBook (memberId bookId : UUID)
  | returnBook (borrowRecordId : UUID)

def LoanOp.run (svc : BorrowService) (env : Env) : LoanOp → Tx Unit
  | .borrowBook memberId bookId => (fun _ => ()) <$> svc.borrowBook env memberId bookId
  | .returnBook id => (fun _ => ()) <$> svc.returnBook env id

structure LoanRequest where
  earlier : List (DB → Except Exc Unit)
  op : LoanOp
  env : Env

/-- Requests that borrow and return, none of which has done anything yet. -/
def loans {n : Nat} (svc : BorrowService) (requests : Fin n → LoanRequest) (s : DB) :
    Sys DB RowKey Row Event Exc Unit n :=
  Sys.start s fun i => request (requests i).earlier ((requests i).op.run svc (requests i).env)

def isLoanBy (memberId : UUID) (r : BorrowRecord) : Bool :=
  r.memberId = memberId && r.status.isActive

def activeLoans (memberId : UUID) (db : DB) : Nat := db.borrowRecords.count (isLoanBy memberId)

/-- As long as the member is locked, nobody else lends to the member. -/
def lending (svc : BorrowService) (memberId : UUID) : Discipline DB RowKey where
  inv s := (activeLoans memberId s : Int) ≤ svc.maxBorrowLimit
  rely L s t := .member memberId ∈ L → activeLoans memberId t ≤ activeLoans memberId s
  refl _ _ _ := le_refl _
  trans h h' hk := (h' hk).trans (h hk)
  anti hL h hk := h (hL _ hk)

variable {svc : BorrowService} {memberId : UUID} {D : Discipline DB RowKey}
  {guard : Option DB → DB → Prop} {env : Env} {s t : DB} {L : List RowKey}

/-- What an operation commits, and what it knows of its locks. -/
def LoanOp.Effect (D : Discipline DB RowKey) (svc : BorrowService) (env : Env) (L : List RowKey)
    (s t : DB) : LoanOp → Prop
  | .borrowBook memberId bookId => Borrowed D s svc env memberId bookId s t ∧
      BorrowLocks D svc env memberId L s
  | .returnBook id => Returned D (fun _ _ => True) s svc env id s t

/-- The commit of the implicit transaction changes nothing. -/
def LoanRequest.contract (D : Discipline DB RowKey) (svc : BorrowService) (r : LoanRequest) :
    Contract DB RowKey Unit where
  publish _ L s t := t = s ∨ r.op.Effect D svc r.env L s t
  guard _ _ _ := True
  point _ _ _ := True

theorem wp_loanRequest (r : LoanRequest) (hs : D.inv s) :
    wp D (r.contract D svc) (request r.earlier (r.op.run svc r.env))
    (Final D (r.contract D svc)) .init s := by
  have hT : (r.contract D svc).Quiet := fun _ _ _ => show True from trivial
  refine wp_request (fun _ _ => .inl rfl) (fun u _ => ?_) hs
  obtain ⟨earlier, op, env⟩ := r
  cases op with
  | borrowBook memberId bookId =>
    simp only [LoanOp.run, Prog.map_eq, wp_bind, wp_ret]
    exact wp_mono (fun _ _ _ h t ht => .inr (h t ht)) (wp_borrowBook_locks hT)
  | returnBook id =>
    simp only [LoanOp.run, Prog.map_eq, wp_bind, wp_ret]
    exact wp_mono (fun _ _ _ h t ht => .inr (h t ht)) (wp_returnBook hT)

/-! ## What the commits do to the count -/

theorem Borrowed.loans_le {bookId : UUID} (h : Borrowed D s svc env memberId bookId s t) :
    activeLoans memberId t ≤ activeLoans memberId s + 1 := by
  unfold activeLoans
  rw [h.borrowRecords]
  exact Table.count_put_le _ _ _

theorem Borrowed.loans_other {otherId bookId : UUID} (h : Borrowed D s svc env otherId bookId s t)
    (hne : otherId ≠ memberId) : activeLoans memberId t ≤ activeLoans memberId s := by
  unfold activeLoans
  rw [h.borrowRecords]
  refine Table.count_le fun r hr hp => ?_
  rcases Table.mem_put.mp hr with rfl | ⟨hr, _⟩
  · simp [isLoanBy, borrowedRecord, hne] at hp
  · exact ⟨r, hr, hp, rfl⟩

theorem Returned.loans_le {id : UUID} (h : Returned D guard s svc env id s t) :
    activeLoans memberId t ≤ activeLoans memberId s := by
  cases h with
  | again => exact le_refl _
  | handed _ _ _ _ _ _ hh =>
    unfold activeLoans
    rw [hh.borrowRecords]
    refine Table.count_le fun q hq hp => ?_
    rcases mem_putBorrowRecord hq with rfl | hq
    · simp [isLoanBy, BorrowStatus.isActive] at hp
    · exact ⟨q, hq, hp, rfl⟩

/-- A member who has the lock and passed the check has room for one loan more. -/
theorem BorrowLocks.room (h : BorrowLocks (lending svc memberId) svc env memberId L s) :
    (activeLoans memberId s : Int) < svc.maxBorrowLimit := by
  obtain ⟨w, _, hrely, hchecks⟩ := h.checks
  have hle := hrely (by simp)
  have hlimit := hchecks.limit
  rw [← List.countP_eq_length_filter] at hlimit
  have hcount : ((activeLoans memberId w : Nat) : Int) < svc.maxBorrowLimit := hlimit
  omega

theorem lending_lawful (r : LoanRequest) :
    Lawful (lending svc memberId) (r.contract (lending svc memberId) svc) := by
  rintro o L s t (rfl | h) hs
  · exact ⟨hs, fun _ _ _ => le_refl _⟩
  · obtain ⟨earlier, op, env⟩ := r
    cases op with
    | borrowBook otherId bookId =>
      obtain ⟨hb, hlocks⟩ := h
      by_cases hm : otherId = memberId
      · subst hm
        have hroom := hlocks.room
        have hle := hb.loans_le
        refine ⟨?_, fun L' hL hk => absurd hlocks.member (hL _ hk)⟩
        show (activeLoans otherId t : Int) ≤ svc.maxBorrowLimit
        omega
      · have hle := hb.loans_other hm
        exact ⟨le_trans (Int.ofNat_le.mpr hle) hs, fun _ _ _ => hle⟩
    | returnBook id =>
      have hle : activeLoans memberId t ≤ activeLoans memberId s := Returned.loans_le h
      exact ⟨le_trans (Int.ofNat_le.mpr hle) hs, fun _ _ _ => hle⟩

/-- Whatever the interleaving of requests that borrow and return: a member who starts with
no more loans than the limit never has more. -/
theorem loan_limit {n : Nat} {requests : Fin n → LoanRequest} {s₀ : DB}
    (h₀ : (activeLoans memberId s₀ : Int) ≤ svc.maxBorrowLimit)
    {l : Sys DB RowKey Row Event Exc Unit n} (h : Sys.Reach Sys.Any (loans svc requests s₀) l) :
    (activeLoans memberId l.db : Int) ≤ svc.maxBorrowLimit := by
  have hstart : Sys.Good (lending svc memberId)
      (fun i => (requests i).contract (lending svc memberId) svc)
      (loans svc requests s₀) := Sys.good_start h₀ fun i => wp_loanRequest (requests i) h₀
  have hguarded : Sys.Reach (Sys.Guarded fun i => (requests i).contract (lending svc memberId) svc)
    (loans svc requests s₀) l :=
    h.mono fun _ _ _ _ _ _ _ _ _ _ => trivial
  exact (Sys.good_of_reach (fun i => lending_lawful (requests i)) hstart hguarded).inv

/-- A member asks twice at once for a copy, each time after the request has read who is asking. -/
def demoAsking (i : Fin 2) : LoanRequest :=
  ⟨[fun _ => .ok ()], .borrowBook 10 1, demoEnv (100 + i.val) hour⟩

/-- One loan at a time. -/
def demoOneLoan : BorrowService := { getBorrowService ⟨48⟩ with maxBorrowLimit := 1 }

/-- Both read who is asking; the second one waits for the member and counts afterwards. -/
def demoAskTurns (i j : Fin 2) : List (Fin 2 × Move RowKey) :=
  [(i, .run), (j, .run), (i, .run), (i, .acquire (.member 10)), (j, .run), (i, .run), (i, .run)] ++
    demoLend i ++
    [(j, .acquire (.member 10)), (j, .run), (j, .run), (j, .run)]

theorem loan_limit_demo :
    ∃ l, (loans demoOneLoan demoAsking demoStock).runs (demoAskTurns 0 1) = some l ∧
    (l.txn 0).hasReturned ∧ activeLoans 10 l.db = 1 ∧
    (activeLoans 10 l.db : Int) ≤ demoOneLoan.maxBorrowLimit := by
  have hsome : ((loans demoOneLoan demoAsking demoStock).runs (demoAskTurns 0 1)).map
      (fun l => ((l.txn 0).hasReturned, activeLoans 10 l.db)) = some (true, 1) := by decide
  obtain ⟨l, hl, hfacts⟩ := Option.map_eq_some_iff.mp hsome
  simp only [Prod.mk.injEq] at hfacts
  exact ⟨l, hl, hfacts.1, hfacts.2, loan_limit (by decide) (Sys.reach_of_runs hl)⟩

end LibraryPlatform
