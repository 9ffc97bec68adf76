import LibraryPlatform.Holds
import LibraryPlatform.Shelf

/-!
# A copy from the shelf

A member in good standing gets a copy from the shelf as long as no copy of the book is
held. One hold for somebody else keeps every other member off the shelf too.
-/
namespace LibraryPlatform

open KeyedTable Transaction ReservationRepository

variable {svc : ReservationService} {env : Env} {s : DB} {m : Member} {b : Book}

/-- What `borrow_book` asks of the member who borrows. -/
structure GoodStanding (svc : BorrowService) (env : Env) (m : Member) (s : DB) : Prop where
  active : m.membershipStatus = .active
  overdue : ∀ r ∈ s.borrowRecords.rows, r.memberId = m.id → r.status.isActive →
    env.clock 0 ≤ r.dueDate
  limit : (s.borrowRecords.count (fun r => r.memberId = m.id && r.status.isActive) : Int) <
    svc.maxBorrowLimit

theorem GoodStanding.exec {svc : BorrowService} {base : DB} (h : GoodStanding svc env m s) :
    (svc.validateMemberForBorrow env m).exec base s = (.ok (), base, s) := by
  refine exec_validateMemberForBorrow h.active (Table.count_eq_zero.mpr fun r hr hover => ?_) ?_
  · simp only [BorrowRecordRepository.isOverdue, Bool.and_eq_true, decide_eq_true_eq] at hover
    have hdue := h.overdue r hr hover.1.1 hover.1.2
    omega
  · have hlimit := h.limit
    rwa [Table.count, List.countP_eq_length_filter] at hlimit

theorem exec_updateBook {id : UUID} {f : DB → Book → Except Exc Book} {base w : DB} {b' : Book}
    (h : w.books.get id = some b) (hf : f w b = .ok b') :
    (updateBook id f).exec base w = (.ok (), base, w.put (.book id) (.book b')) := by
  simp [updateBook, Prog.exec, h, hf, Except.map]

/-- A number of available copies that passes the checks of the counters is written. -/
theorem exec_setAvailable {id : UUID} {n : Int} {base w : DB} (h : w.books.get id = some b)
    (hc : checkCopies b.totalCopies n = .ok ()) :
    (updateBook id (fun _ b =>
      do checkCopies b.totalCopies n; pure { b with availableCopies := n })).exec base w =
      (.ok (), base, w.put (.book id) (.book { b with availableCopies := n })) := by
  refine exec_updateBook h ?_
  rw [hc]
  rfl

/-- There is always room for one copy less. -/
theorem CopiesChecked.take (h : CopiesChecked s) (hb : s.books.get b.id = some b)
    (havail : 0 < b.availableCopies) :
    checkCopies b.totalCopies (b.availableCopies - 1) = .ok () := by
  have hc := checkCopies_iff.mp (h _ _ hb)
  exact checkCopies_iff.mpr (by omega)

/-- What a checkout from the shelf leaves. -/
def takenFromShelf (svc : BorrowService) (env : Env) (memberId : UUID) (b : Book) (s : DB) : DB :=
  ((s.put (.book b.id) (.book { b with availableCopies := b.availableCopies - 1 })).record
    (.checkedOut b.id)).put
    (.borrowRecord env.newId) (.borrowRecord (borrowedRecord svc env memberId b.id))

theorem exec_takeFromShelf {base : DB} (h : CopiesChecked s) (hb : s.books.get b.id = some b)
    (havail : 0 < b.availableCopies) :
    (BorrowService.takeFromShelf b).exec base s =
      (.ok (), base, (s.put
      (.book b.id) (.book { b with availableCopies := b.availableCopies - 1 })).record
    (.checkedOut b.id)) := by
  exact Prog.exec_bind_ok (exec_setAvailable hb (h.take hb havail)) rfl

theorem borrow_from_shelf (hcopies : CopiesChecked s) (hm : s.activeMember m.id = some m)
    (hb : s.activeBook b.id = some b) (hgood : GoodStanding (getBorrowService svc) env m s)
    (havail : 0 < b.availableCopies) (hfresh : s.borrowRecords.get env.newId = none)
    (hnone : s.reservations.rows.filter (isHoldOf b.id) = []) :
    ∃ loan, call (Op.run svc env (.borrowBook m.id b.id)) s =
      (.ok (.loan loan), takenFromShelf (getBorrowService svc) env m.id b s) := by
  obtain ⟨hbget, _⟩ := activeBook_eq_some.mp hb
  obtain ⟨hmget, _⟩ := activeMember_eq_some.mp hm
  have hholds : env.reservationOrder.apply (s.reservations.rows.filter (isHoldOf b.id)) = [] :=
    List.perm_nil.mp ((env.reservationOrder.perm _).trans (.of_eq hnone))
  have hexec : ((getBorrowService svc).borrowBook env m.id b.id).exec s s =
      (.ok ⟨env.newId, m.id, b.id, env.clock 1, env.clock 1 + 14 * day, none, 0, .borrowed⟩, s,
        takenFromShelf (getBorrowService svc) env m.id b s) := by
    refine Prog.exec_mapError_ok (Prog.exec_bind_ok rfl (Prog.exec_bind_ok (exec_orRaise hm) ?_))
    refine Prog.exec_bind_ok hgood.exec
      (Prog.exec_bind_ok rfl (Prog.exec_bind_ok (exec_orRaise hb) ?_))
    refine Prog.exec_bind_ok (a := []) (by rw [← hholds]; rfl)
      (Prog.exec_bind_ok (a := none) rfl ?_)
    refine Prog.exec_bind_ok (a := false) rfl
      (Prog.exec_bind_ok (exec_raiseIf (by simpa using havail)) ?_)
    refine Prog.exec_bind_ok (exec_takeFromShelf hcopies hbget havail) ?_
    refine Prog.exec_bind_ok (exec_insertBorrowRecord hfresh rfl ?_ ?_) rfl
    · exact Option.ne_none_iff_exists'.mpr ⟨m, hmget⟩
    · change (DB.put _ _ s).books.get b.id ≠ none
      simp [get_putBook]
  exact ⟨_, call_ok (Prog.exec_bind_ok hexec rfl)⟩

/-- A copy is held for somebody else. -/
theorem borrow_refused (hm : s.activeMember m.id = some m) (hb : s.activeBook b.id = some b)
    (hgood : GoodStanding (getBorrowService svc) env m s) {r : Reservation}
    (hother : r.memberId ≠ m.id) (hone : s.reservations.rows.filter (isHoldOf b.id) = [r]) :
    call (Op.run svc env (.borrowBook m.id b.id)) s =
      (.error (.application .reservationNotHeld none), s) := by
  have hholds : env.reservationOrder.apply (s.reservations.rows.filter (isHoldOf b.id)) = [r] :=
    List.perm_singleton.mp ((env.reservationOrder.perm _).trans (.of_eq hone))
  have hexec : ((getBorrowService svc).borrowBook env m.id b.id).exec s s =
      (.error (.application .reservationNotHeld none), s, s) := by
    refine Prog.exec_mapError_error (e := Exc.application .reservationNotHeld none) ?_
    refine Prog.exec_bind_ok rfl (Prog.exec_bind_ok (exec_orRaise hm) ?_)
    refine Prog.exec_bind_ok hgood.exec
      (Prog.exec_bind_ok rfl (Prog.exec_bind_ok (exec_orRaise hb) ?_))
    refine Prog.exec_bind_ok rfl (Prog.exec_bind_ok (exec_scalarOneOrNone hholds) ?_)
    exact Prog.exec_bind_error (Prog.exec_bind_error (exec_raiseIf_error hother))
  exact call_error (Prog.exec_bind_error hexec)

/-- A copy on the shelf of a book no copy of which is held can be borrowed; while one copy is
held for somebody else, none can. -/
theorem shelf_copy_borrowed (h : Runs svc AnyOp s) (hm : m ∈ s.members.rows)
    (hgood : GoodStanding (getBorrowService svc) env m s) (hb : b ∈ s.books.rows)
    (hdel : b.isDeleted = false) (havail : 0 < b.availableCopies)
    (hfresh : s.borrowRecords.get env.newId = none) :
    ((∀ r ∈ s.reservations.rows, ¬isHoldOf b.id r) →
      ∃ loan s', call (Op.run svc env (.borrowBook m.id b.id)) s = (.ok (.loan loan), s') ∧
    s'.books.get b.id = some { b with availableCopies := b.availableCopies - 1 } ∧
    (∀ id, id ≠ b.id → s'.books.get id = s.books.get id) ∧
    s'.borrowRecords = s.borrowRecords.put (borrowedRecord (getBorrowService svc) env m.id b.id) ∧
    s'.reservations = s.reservations) ∧ ∀ r, r.memberId ≠ m.id →
    s.reservations.rows.filter (isHoldOf b.id) = [r] →
    call (Op.run svc env (.borrowBook m.id b.id)) s =
      (.error (.application .reservationNotHeld none), s) := by
  have hmember : s.activeMember m.id = some m :=
    activeMember_eq_some.mpr ⟨Table.get_of_mem hm, member_not_deleted h m hm⟩
  have hbook : s.activeBook b.id = some b := activeBook_eq_some.mpr ⟨Table.get_of_mem hb, hdel⟩
  refine ⟨fun hnone => ?_, fun r hother hone => borrow_refused hmember hbook hgood hother hone⟩
  obtain ⟨loan, hcall⟩ := borrow_from_shelf (.of_runs h) hmember hbook hgood havail hfresh
    (List.filter_eq_nil_iff.mpr hnone)
  refine ⟨loan, _, hcall, Table.get_put_same _ _, fun id hne => Table.get_put_other _ hne, rfl, rfl⟩

/-- Both copies of a book were out; one has come back for the member who waited, the other
to the shelf. -/
def demoOneEach : DB :=
  serial ⟨48⟩ [(demoEnv 1 0, .createBook "Emma" "Austen" "9780141439587" 2 none),
    (demoEnv 100 hour, .borrowBook 10 1), (demoEnv 101 hour, .borrowBook 11 1),
    (demoEnv 200 (2 * hour), .placeReservation 12 1), (demoEnv 0 (3 * hour), .returnBook 100),
    (demoEnv 0 (4 * hour), .returnBook 101)] demoStart

theorem demoOneEach_runs : Runs ⟨48⟩ AnyOp demoOneEach :=
  demoStart_runs.serial _ fun _ _ _ => trivial

theorem shelf_copy_borrowed_demo :
    ∃ b ∈ demoStock.books.rows, 0 < b.availableCopies ∧
    ∃ loan s', call (Op.run ⟨48⟩ (demoEnv 100 hour) (.borrowBook 13 b.id)) demoStock =
      (.ok (.loan loan), s') ∧
    s'.books.get b.id = some { b with availableCopies := b.availableCopies - 1 } := by
  have hruns : Runs ⟨48⟩ AnyOp demoStock := demoStart_runs.serial _ fun _ _ _ => trivial
  have hm : (⟨13, 13, .active, false⟩ : Member) ∈ demoStock.members.rows := by decide
  have hb : demoBook ∈ demoStock.books.rows := by decide
  have hgood : GoodStanding (getBorrowService ⟨48⟩)
    (demoEnv 100 hour) ⟨13, 13, .active, false⟩ demoStock :=
    ⟨rfl, by decide, by decide⟩
  obtain ⟨hborrowed, _⟩ := shelf_copy_borrowed hruns hm hgood hb rfl (by decide) (by decide)
  obtain ⟨loan, s', hcall, hshelf, _⟩ := hborrowed (by decide)
  exact ⟨demoBook, hb, by decide, loan, s', hcall, hshelf⟩

/-- Member 13 has no loan and no reservation, and there is a copy on the shelf. -/
theorem shelf_copy_refused :
    ¬∀ s, Runs ⟨48⟩ AnyOp s → ∀ env m b, m ∈ s.members.rows →
    GoodStanding (getBorrowService ⟨48⟩) env m s →
    (∀ r ∈ s.reservations.rows, ¬(r.memberId = m.id ∧ r.bookId = b.id)) → b ∈ s.books.rows →
    b.isDeleted = false → 0 < b.availableCopies → s.borrowRecords.get env.newId = none →
    ∃ loan s', call (Op.run ⟨48⟩ env (.borrowBook m.id b.id)) s = (.ok (.loan loan), s') := by
  intro hclaim
  have hraise : (call (Op.run ⟨48⟩ (demoEnv 102 (5 * hour)) (.borrowBook 13 1)) demoOneEach).1 =
      .error (.application .reservationNotHeld none) := by decide
  have hgood : GoodStanding (getBorrowService ⟨48⟩)
    (demoEnv 102 (5 * hour)) ⟨13, 13, .active, false⟩ demoOneEach :=
    ⟨rfl, by decide, by decide⟩
  obtain ⟨loan, s', hcall⟩ := hclaim demoOneEach demoOneEach_runs (demoEnv 102 (5 * hour)) ⟨13,
    13, .active, false⟩
    ⟨1, "9780141439587", "Emma", "Austen", none, 2, 1, false, none⟩ (by decide) hgood (by decide)
      (by decide) rfl (by decide)
    (by decide)
  rw [hcall] at hraise
  cases hraise

end LibraryPlatform
