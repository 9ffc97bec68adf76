import LibraryPlatform.BorrowCalls
import LibraryPlatform.Dashboard

/-!
# Loans as the dashboard and the checkout see them

The dashboard counts a loan marked OVERDUE as active and as overdue. The queries of the checkout
leave it out of both.
-/
namespace LibraryPlatform

open KeyedTable Transaction ReservationRepository

variable {svc : BorrowService} {env : Env} {s : DB} {memberId bookId : UUID}

/-- The call of `borrow_book` raises. -/
def BorrowRefused (svc : BorrowService) (env : Env) (memberId bookId : UUID) (s : DB) : Prop :=
  ∃ e, (call (svc.borrowBook env memberId bookId) s).1 = .error e

/-- A member with a loan that the dashboard counts as overdue, or with as many loans as are
allowed that it counts as active, is refused. -/
structure ReportsRespected (svc : BorrowService) (env : Env) (memberId bookId : UUID) (s : DB) :
    Prop where
  overdue : (∃ r ∈ s.borrowRecords.rows, r.memberId = memberId ∧
    DashboardRepository.isOverdue (env.clock 0) r) → BorrowRefused svc env memberId bookId s
  limit : svc.maxBorrowLimit ≤ (s.borrowRecords.count (fun r =>
    r.memberId = memberId && DashboardRepository.isActive r) : Int) →
      BorrowRefused svc env memberId bookId s

/-- What the two queries of the checkout miss. -/
theorem isActive_iff {r : BorrowRecord} (h : r.status ≠ .overdue) :
    DashboardRepository.isActive r = r.status.isActive := by
  unfold DashboardRepository.isActive
  cases hs : r.status <;> simp_all [BorrowStatus.isActive]

theorem isOverdue_iff {r : BorrowRecord} (h : r.status ≠ .overdue) (now : Int) :
    DashboardRepository.isOverdue now r = (r.status.isActive && r.dueDate < now) := by
  unfold DashboardRepository.isOverdue
  cases hs : r.status <;> simp_all [BorrowStatus.isActive]

theorem isOverdue_marked {r : BorrowRecord} (h : r.status = .overdue) (now : Int) :
    DashboardRepository.isOverdue now r := by
  simp [DashboardRepository.isOverdue, h]

/-- Who may borrow, and has no loan marked OVERDUE, has no overdue loan, and room for one more. -/
theorem MayBorrow.reported (h : MayBorrow svc env memberId bookId s)
    (hmarked : ∀ r ∈ s.borrowRecords.rows, r.memberId = memberId → r.status ≠ .overdue) :
    (∀ r ∈ s.borrowRecords.rows, r.memberId = memberId →
      ¬DashboardRepository.isOverdue (env.clock 0) r) ∧
    (s.borrowRecords.count (fun r =>
      r.memberId = memberId && DashboardRepository.isActive r) : Int) < svc.maxBorrowLimit := by
  obtain ⟨m, hm, hgood⟩ := h.member
  obtain rfl : m.id = memberId := Table.key_of_get (activeMember_eq_some.mp hm).1
  constructor
  · intro r hr hmember hover
    rw [isOverdue_iff (hmarked r hr hmember)] at hover
    obtain ⟨hactive, hlate⟩ : r.status.isActive ∧ r.dueDate < env.clock 0 := by simpa using hover
    have hdue := hgood.overdue r hr hmember hactive
    omega
  · refine lt_of_eq_of_lt ?_ hgood.limit
    refine congrArg Nat.cast (List.countP_congr fun r hr => ?_)
    by_cases hmember : r.memberId = m.id
    · simp [hmember, isActive_iff (hmarked r hr hmember)]
    · simp [hmember]

/-- Checkout and dashboard agree on a member exactly when the member has no loan marked OVERDUE, or
could not borrow the book in any case. -/
theorem reports_respected_iff (hcopies : CopiesChecked s) (svc : BorrowService) (env : Env)
    (memberId bookId : UUID) :
    ReportsRespected svc env memberId bookId s ↔
      (∀ r ∈ s.borrowRecords.rows, r.memberId = memberId → r.status ≠ .overdue) ∨
        ¬MayBorrow svc env memberId bookId s := by
  have hcall := call_borrowBook hcopies svc env memberId bookId
  have hrefused : BorrowRefused svc env memberId bookId s ↔
      ¬MayBorrow svc env memberId bookId s := by
    rw [← hcall.succeeds_iff, BorrowRefused]
    cases (call (svc.borrowBook env memberId bookId) s).1 <;> simp
  constructor
  · intro h
    by_contra hnot
    obtain ⟨hmarked, hmay⟩ := not_or.mp hnot
    push Not at hmarked hmay
    obtain ⟨r, hr, hmember, hs⟩ := hmarked
    exact hrefused.mp (h.overdue ⟨r, hr, hmember, isOverdue_marked hs _⟩) hmay
  · intro h
    have hboth : MayBorrow svc env memberId bookId s →
        ∀ r ∈ s.borrowRecords.rows, r.memberId = memberId → r.status ≠ .overdue :=
      fun hmay => h.resolve_right (not_not.mpr hmay)
    refine ⟨?_, fun hlimit => ?_⟩
    · rintro ⟨r, hr, hmember, hover⟩
      exact hrefused.mpr fun hmay => (hmay.reported (hboth hmay)).1 r hr hmember hover
    · exact hrefused.mpr fun hmay => not_lt.mpr hlimit (hmay.reported (hboth hmay)).2

/-- Members 10 and 11 keep two of three copies, and the loan of member 10 is marked OVERDUE. -/
def demoMarked : DB :=
  { demoStart with
    books := Table.empty.put ⟨1, "9780141439587", "Emma", "Austen", none, 3, 1, false, none⟩
    borrowRecords := (Table.empty.put ⟨100, 10, 1, hour, hour + 14 * day, none, 0, .overdue⟩).put
      ⟨101, 11, 1, hour, hour + 14 * day, none, 0, .borrowed⟩ }

theorem demoMarked_copies : CopiesChecked demoMarked := by
  have hrows : ∀ b ∈ demoMarked.books.rows,
      checkCopies b.totalCopies b.availableCopies = .ok () := by
    decide
  exact fun id b hb => hrows b (Table.mem_of_get hb)

/-- Nothing is marked of the loan of member 11, who is refused as soon as the dashboard counts it as
overdue, and before that where one loan is the limit. -/
theorem reports_respected_demo :
    BorrowRefused (getBorrowService ⟨48⟩) (demoEnv 102 (20 * day)) 11 1 demoMarked ∧
    BorrowRefused { getBorrowService ⟨48⟩ with maxBorrowLimit := 1 } (demoEnv 102 (2 * day)) 11 1
      demoMarked := by
  have hunmarked : ∀ r ∈ demoMarked.borrowRecords.rows, r.memberId = 11 → r.status ≠ .overdue := by
    decide
  refine ⟨(reports_respected_iff demoMarked_copies _ _ _ _).mpr (.inl hunmarked) |>.overdue ?_,
    (reports_respected_iff demoMarked_copies _ _ _ _).mpr (.inl hunmarked) |>.limit (by decide)⟩
  exact ⟨⟨101, 11, 1, hour, hour + 14 * day, none, 0, .borrowed⟩, by decide, rfl, by decide⟩

/-- Member 10 borrows the last copy six days after the first was due. -/
theorem marked_loan_missed :
    ¬∀ s, CopiesChecked s → ∀ svc env memberId bookId,
      ReportsRespected svc env memberId bookId s := by
  intro hclaim
  have hrespected := hclaim demoMarked demoMarked_copies (getBorrowService ⟨48⟩)
    (demoEnv 102 (20 * day)) 10 1
  obtain ⟨e, hrefused⟩ := hrespected.overdue ⟨⟨100, 10, 1, hour, hour + 14 * day, none, 0,
    .overdue⟩, by decide, rfl, by decide⟩
  have hlent : (call ((getBorrowService ⟨48⟩).borrowBook (demoEnv 102 (20 * day)) 10 1)
      demoMarked).1.isOk := by
    decide
  rw [hrefused] at hlent
  cases hlent

end LibraryPlatform
