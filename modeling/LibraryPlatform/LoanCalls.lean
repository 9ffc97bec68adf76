import LibraryPlatform.Loans
import LibraryPlatform.Sweep

/-!
# Returns and renewals that go through

In a sound state nothing stands in the way of the return of an open loan, nor of the renewal
of a renewable one.
-/
namespace LibraryPlatform

open KeyedTable Transaction ReservationRepository

variable {svc : ReservationService} {env : Env} {s s' : DB} {r : BorrowRecord}

/-- What holds in every state of the API, and lets a return or a renewal go through. -/
structure Sound (svc : ReservationService) (s : DB) : Prop where
  balanced : Balanced s (fun _ => 0)
  copies : CopiesChecked s
  loans : LoansStored (getBorrowService svc) s

theorem Sound.empty (collation : Collation) : Sound svc (.empty collation) :=
  ⟨.empty collation, by simp [CopiesChecked, DB.empty], by simp [LoansStored, DB.empty]⟩

theorem Sound.op {op : Op} (h : Sound svc s) (he : op.Alone s svc env s') : Sound svc s' := by
  refine ⟨h.balanced.op he, h.copies.op he, fun x q hq => ?_⟩
  have hchange := he.loan x
  rw [hq] at hchange
  exact hchange.stored (h.loans x)

theorem Sound.of_runs (h : Runs svc AnyOp s) : Sound svc s :=
  ⟨.of_runs h, .of_runs h, loans_stored h⟩

theorem exec_updateBorrowRecord {id : UUID} {f : BorrowRecord → Except Exc BorrowRecord}
    {base w : DB} {r r' : BorrowRecord} (h : w.borrowRecords.get id = some r) (hf : f r = .ok r') :
    (updateBorrowRecord id f).exec base w =
      (.ok (), base, w.put (.borrowRecord id) (.borrowRecord r')) := by
  simp [updateBorrowRecord, Prog.exec, h, hf, Except.map]

/-! ## return_book -/

/-- The loan as a return at `now` closes it. -/
def returnedRecord (r : BorrowRecord) (now : Int) : BorrowRecord :=
  { r with returnDate := some now, status := .returned }

/-- Whatever becomes of the copy, the loans stay as they are. -/
theorem exec_handBack (svc : ReservationService) (env : Env) {bookId : UUID} (base : DB) {v : DB}
    (hbal : Balanced v (inHand bookId)) (hcopies : CopiesChecked v)
    (hbook : v.books.get bookId ≠ none) :
    ∃ v', ((getBorrowService svc).handBack env bookId).exec base v = (.ok (), base, v') ∧
    v'.borrowRecords = v.borrowRecords := by
  obtain ⟨v', he, hhanded⟩ := exec_promote_handed svc env.reservationOrder (env.clock 1) base hbal
    hcopies hbook
  exact ⟨v', he, hhanded.borrowRecords⟩

/-- No return of an open loan is refused. -/
theorem call_return (h : Sound svc s) (env : Env) (hr : s.borrowRecords.get r.id = some r)
    (hopen : r.status ≠ .returned) :
    ∃ s', call (Op.run svc env (.returnBook r.id)) s =
      (.ok (.returned (returnedRecord r (env.clock 0))
        (some ((getBorrowService svc).fineCalculator.calculateFine r.dueDate (env.clock 0)))), s') ∧
    s'.borrowRecords.get r.id = some (returnedRecord r (toDatetime (env.clock 0))) := by
  have hclosed := h.balanced.close hr hopen (some (toDatetime (env.clock 0)))
  have hbook := h.balanced.loanBooks r (Table.mem_of_get hr)
  obtain ⟨v', hback, hloans⟩ := exec_handBack svc env s hclosed (h.copies.frame rfl) hbook
  have hbody : ((getBorrowService svc).returnBook env r.id).exec s s =
      (.ok (returnedRecord r (env.clock 0),
        some ((getBorrowService svc).fineCalculator.calculateFine r.dueDate (env.clock 0))), s,
          v') := by
    refine Prog.exec_mapError_ok (Prog.exec_bind_ok rfl (Prog.exec_bind_ok (exec_orRaise hr) ?_))
    rw [if_neg hopen]
    exact Prog.exec_bind_ok (exec_updateBorrowRecord hr rfl) (Prog.exec_bind_ok hback rfl)
  refine ⟨v', call_ok (Prog.exec_bind_ok hbody rfl), ?_⟩
  rw [hloans, get_putBorrowRecord, if_pos rfl]
  rfl

/-- A retry answers with the row, and without a fine. -/
theorem call_return_again {id : UUID} (hr : s.borrowRecords.get id = some r)
    (hclosed : r.status = .returned) :
    call (Op.run svc env (.returnBook id)) s = (.ok (.returned r none), s) := by
  have hbody : ((getBorrowService svc).returnBook env id).exec s s = (.ok (r, none), s, s) := by
    refine Prog.exec_mapError_ok (Prog.exec_bind_ok rfl (Prog.exec_bind_ok (exec_orRaise hr) ?_))
    rw [if_pos hclosed]
    rfl
  exact call_ok (Prog.exec_bind_ok hbody rfl)

/-! ## renew_book -/

def Renewable (env : Env) (r : BorrowRecord) : Prop :=
  r.status ≠ .returned ∧ r.renewalCount < 2 ∧ env.clock 0 ≤ r.dueDate

/-- No renewal of a renewable loan is refused. -/
theorem call_renew (h : Sound svc s) (hr : s.borrowRecords.get r.id = some r)
    (hrenew : Renewable env r) :
    ∃ loan, call (Op.run svc env (.renewBook r.id)) s = (.ok (.loan loan),
      s.put (.borrowRecord r.id) (.borrowRecord (renewedRecord (getBorrowService svc) r r))) := by
  obtain ⟨hopen, hcount, hdue⟩ := hrenew
  have hpos := (h.loans r.id r hr).count.1
  have hcheck : checkRenewals (r.renewalCount + 1) = .ok () := by
    have hmin : 0 ≤ r.renewalCount + 1 := by omega
    have hmax : r.renewalCount + 1 ≤ 2 := by omega
    simp only [checkRenewals, checkThat, hmin, hmax, decide_true, ↓reduceIte]
    rfl
  have hbody : ((getBorrowService svc).renewBook env r.id).exec s s = (.ok
      { r with dueDate := r.dueDate + (getBorrowService svc).renewalDays * day,
               renewalCount := r.renewalCount + 1, status := .renewed },
      s, s.put (.borrowRecord r.id) (.borrowRecord
          (renewedRecord (getBorrowService svc) r r))) := by
    refine Prog.exec_mapError_ok (Prog.exec_bind_ok rfl (Prog.exec_bind_ok (exec_orRaise hr) ?_))
    refine Prog.exec_bind_ok (exec_raiseIf hopen) (Prog.exec_bind_ok (exec_raiseIf (by omega)) ?_)
    refine Prog.exec_bind_ok (a := false) rfl (Prog.exec_bind_ok (exec_raiseIf (by simp)) ?_)
    refine Prog.exec_bind_ok (exec_raiseIf (by omega))
      (Prog.exec_bind_ok (exec_updateBorrowRecord hr ?_) rfl)
    rw [hcheck]
    rfl
  exact ⟨_, call_ok (Prog.exec_bind_ok hbody rfl)⟩

/-- The handler of the borrow service turns only failed constraints into conflicts. -/
theorem exec_noConflict {α : Type} {p : Tx α} {base w base' w' : DB} {e : Exc}
    (he : operationalToConflict e = e) (h : p.exec base w = (.error e, base', w')) :
    (p.mapError operationalToConflict).exec base w = (.error e, base', w') := by
  rw [Prog.exec_mapError_error h, he]

/-- What `renew_book` refuses by itself leaves everything as it is. -/
theorem call_renew_refused (hr : s.borrowRecords.get r.id = some r) (hnot : ¬Renewable env r) :
    ∃ c, call (Op.run svc env (.renewBook r.id)) s = (.error (.application c none), s) := by
  suffices hbody : ∃ c, ((getBorrowService svc).renewBook env r.id).exec s s =
      (.error (.application c none), s, s) by
    obtain ⟨c, hbody⟩ := hbody
    exact ⟨c, call_error (Prog.exec_bind_error hbody)⟩
  by_cases hopen : r.status = .returned
  · refine ⟨.bookAlreadyReturned, exec_noConflict rfl ?_⟩
    exact Prog.exec_bind_ok rfl (Prog.exec_bind_ok (exec_orRaise hr)
      (Prog.exec_bind_error (exec_raiseIf_error hopen)))
  by_cases hcount : 2 ≤ r.renewalCount
  · refine ⟨.renewalLimitExceeded, exec_noConflict rfl ?_⟩
    refine Prog.exec_bind_ok rfl (Prog.exec_bind_ok (exec_orRaise hr) ?_)
    exact Prog.exec_bind_ok (exec_raiseIf hopen) (Prog.exec_bind_error (exec_raiseIf_error hcount))
  · have hlate : r.dueDate < env.clock 0 := by
      by_contra hdue
      exact hnot ⟨hopen, not_le.mp hcount, not_lt.mp hdue⟩
    refine ⟨.overdueMember, exec_noConflict rfl ?_⟩
    refine Prog.exec_bind_ok rfl (Prog.exec_bind_ok (exec_orRaise hr) ?_)
    refine Prog.exec_bind_ok (exec_raiseIf hopen) (Prog.exec_bind_ok (exec_raiseIf hcount) ?_)
    refine Prog.exec_bind_ok (a := false) rfl (Prog.exec_bind_ok (exec_raiseIf (by simp)) ?_)
    exact Prog.exec_bind_error (exec_raiseIf_error hlate)

end LibraryPlatform
