import LibraryPlatform.Fines
import LibraryPlatform.LoanCalls

/-!
# A return that is asked for again

A retry finds the loan closed and leaves everything as it is. The fine is no column of the
loan: the first answer tells it, and a retry answers without one.
-/
namespace LibraryPlatform

open KeyedTable Transaction ReservationRepository

structure ReturnResponse where
  borrowId : UUID
  bookId : UUID
  memberId : UUID
  returnDate : Option Int
  status : BorrowStatus
  fineAmount : Int
  deriving DecidableEq

/-- The answer of the route; the fine is an attribute of the object that has just been
returned, and 0.0 for one that was loaded. -/
def returnResponse (record : BorrowRecord) (fineAmount : Option Int) : ReturnResponse :=
  ⟨record.id, record.bookId, record.memberId, record.returnDate, record.status, fineAmount.getD 0⟩

/-- The answer to the precision of the columns. -/
def ReturnResponse.stored (a : ReturnResponse) : ReturnResponse :=
  { a with returnDate := a.returnDate.map toDatetime }

variable {svc : ReservationService} {s : DB} {r : BorrowRecord}

/-- Any return after the first changes nothing, whatever has happened in between. Its answer is
that of the first exactly when the first had no fine to tell. -/
theorem retried_return_iff (h : Runs svc AnyOp s) (hr : r ∈ s.borrowRecords.rows)
    (hopen : r.status ≠ .returned) (env : Env) :
    ∃ first fine s₁, call (Op.run svc env (.returnBook r.id)) s =
      (.ok (.returned first fine), s₁) ∧
    ∀ s₂, Relation.ReflTransGen (SerialStep svc) s₁ s₂ → ∀ env' : Env, ∃ again fine₂,
      call (Op.run svc env' (.returnBook r.id)) s₂ = (.ok (.returned again fine₂), s₂) ∧
    ((returnResponse again fine₂).stored = (returnResponse first fine).stored ↔
      env.clock 0 < r.dueDate + second) := by
  obtain ⟨s₁, hfirst, hclosed⟩ := call_return (.of_runs h) env (Table.get_of_mem hr) hopen
  refine ⟨_, _, s₁, hfirst, fun s₂ hlater env' => ?_⟩
  have hfree : (getBorrowService svc).fineCalculator.calculateFine r.dueDate (env.clock 0) = 0 ↔
      env.clock 0 < r.dueDate + second :=
    calculateFine_eq_zero_iff (show (0 : Int) < 50 by decide) (show (0 : Int) < 5000 by decide)
  have hstays : s₂.borrowRecords.get r.id = some (returnedRecord r (toDatetime (env.clock 0))) :=
    returned_stays (r := returnedRecord r (toDatetime (env.clock 0))) rfl hlater hclosed
  refine ⟨_, _, call_return_again hstays rfl, ?_⟩
  rw [← hfree]
  simp [returnResponse, ReturnResponse.stored, returnedRecord, toDatetime_stored,
    eq_comm (a := (0 : Int))]

/-- Back in time: asked again ten days later, the route answers the same. -/
theorem retried_return_demo :
    ∃ first fine s₁ again fine₂, call (Op.run ⟨48⟩ (demoEnv 0 (3 * hour)) (.returnBook 100))
      demoWaiting = (.ok (.returned first fine), s₁) ∧
    call (Op.run ⟨48⟩ (demoEnv 0 (10 * day)) (.returnBook 100)) s₁ =
      (.ok (.returned again fine₂), s₁) ∧
    (returnResponse again fine₂).stored = (returnResponse first fine).stored := by
  have hr : (⟨100, 10, 1, hour, hour + 14 * day, none, 0, .borrowed⟩ : BorrowRecord) ∈
    demoWaiting.borrowRecords.rows := by decide
  obtain ⟨first, fine, s₁, hfirst, hretry⟩ :=
    retried_return_iff demoWaiting_runs hr (by decide) (demoEnv 0 (3 * hour))
  obtain ⟨again, fine₂, hagain, hsame⟩ := hretry s₁ .refl (demoEnv 0 (10 * day))
  exact ⟨first, fine, s₁, again, fine₂, hfirst, hagain, hsame.mpr (by decide)⟩

/-- Returned 46 days late: the first answer tells a fine of 23.00, the retry none. -/
theorem retry_forgets_fine :
    ¬∀ s, Runs ⟨48⟩ AnyOp s → ∀ r ∈ s.borrowRecords.rows, r.status ≠ .returned →
      ∀ env env' : Env, (∀ i j, env.clock i ≤ env'.clock j) → ∀ first fine s₁ again fine₂ s₂,
      call (Op.run ⟨48⟩ env (.returnBook r.id)) s = (.ok (.returned first fine), s₁) →
      call (Op.run ⟨48⟩ env' (.returnBook r.id)) s₁ = (.ok (.returned again fine₂), s₂) →
      s₂ = s₁ ∧ (returnResponse again fine₂).stored = (returnResponse first fine).stored := by
  intro hclaim
  have hr : (⟨100, 10, 1, hour, hour + 14 * day, none, 0, .borrowed⟩ : BorrowRecord) ∈
    demoWaiting.borrowRecords.rows := by decide
  obtain ⟨s₁, hfirst, hclosed⟩ := call_return (.of_runs demoWaiting_runs) (demoEnv 0 (60 * day))
    (Table.get_of_mem hr) (by decide)
  have hagain : call (Op.run ⟨48⟩ (demoEnv 0 (61 * day)) (.returnBook 100)) s₁ = _ :=
    call_return_again hclosed rfl
  have hlater : 60 * day ≤ 61 * day := by decide
  have hsame := (hclaim _ demoWaiting_runs _ hr (by decide) _ _ (fun _ _ => hlater) _ _ _ _ _ _
    hfirst hagain).2
  exact absurd (congrArg ReturnResponse.fineAmount hsame) (by decide)

end LibraryPlatform
