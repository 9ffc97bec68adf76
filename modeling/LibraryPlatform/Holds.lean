import LibraryPlatform.Fifo

/-!
# Taking up a hold

`borrow_book` asks for the one hold of the book. Two copies that come back while two
members wait make two holds, and then neither member can borrow.
-/
namespace LibraryPlatform

open KeyedTable Transaction ReservationRepository

/-! ## Members stay -/

theorem Handed.members {D : Discipline DB RowKey} {s v v' : DB} {next : DB → Option Reservation}
    {expiresAt : Int} {bookId : UUID} (h : Handed D s next expiresAt bookId v v') :
    v'.members = v.members := by
  cases h <;> rfl

theorem Expiring.members {D : Discipline DB RowKey} {s v v' : DB} {svc : ReservationService}
    {env : Env} {rest : List Reservation} {n : Nat} (h : Expiring D s svc env rest n v v') :
    v'.members = v.members := by
  induction h with
  | nil => rfl
  | cons _ hh _ ih => exact ih.trans hh.members

theorem Op.Effect.members {D : Discipline DB RowKey} {guard : RowKey → Option DB → DB → Prop}
    {s v v' : DB} {svc : ReservationService} {env : Env} {op : Op}
    (h : op.Effect D guard s svc env v v') : v'.members = v.members := by
  cases op with
  | createBook => rw [h.stored]; rfl
  | updateBook => cases h <;> rfl
  | deleteBook => cases h; rfl
  | borrowBook => cases h <;> rfl
  | returnBook =>
    cases h with
    | again => rfl
    | handed _ _ _ _ _ _ hh => exact hh.members
  | renewBook => cases h; rfl
  | placeReservation => rw [h.stored]; rfl
  | cancelReservation =>
    cases h with
    | waiting => rfl
    | held _ _ _ hh => exact hh.members
  | processExpiredHolds =>
    obtain ⟨_, _, _, he⟩ := h
    exact he.members

theorem member_not_deleted {svc : ReservationService} {G : DB → Op → Prop} {s : DB}
    (h : Runs svc G s) : ∀ m ∈ s.members.rows, m.isDeleted = false := by
  refine Runs.invariant (I := fun s => ∀ m ∈ s.members.rows, m.isDeleted = false)
    (fun _ => by simp [DB.empty, Table.empty]) ?_
    (fun _ _ _ ha => ha.active) h
  intro s s' op env hi _ he
  rw [Op.Effect.members he]
  exact hi

/-! ## One hold, or several -/

/-- `borrow_book` by the holder succeeds, completes the hold and creates the loan. The
books, and so the copies on the shelf, and every other reservation stay as they are. -/
def TakesUp (svc : ReservationService) (env : Env) (s : DB) (r : Reservation) : Prop :=
  ∃ loan s', call (Op.run svc env (.borrowBook r.memberId r.bookId)) s = (.ok (.loan loan), s') ∧
    s'.reservations.get r.id = some { r with status := .completed, expiresAt := none } ∧
    (∀ id, id ≠ r.id → s'.reservations.get id = s.reservations.get id) ∧
    s'.borrowRecords = s.borrowRecords.put
      (borrowedRecord (getBorrowService svc) env r.memberId r.bookId) ∧
    s'.books = s.books

theorem exec_updateReservation {id : UUID} {f : Reservation → Reservation} {base w : DB}
    {r : Reservation} (h : w.reservations.get id = some r) :
    (updateReservation id f).exec base w =
      (.ok (), base, w.put (.reservation id) (.reservation (f r))) := by
  simp [updateReservation, Prog.exec, h]

theorem exec_insertBorrowRecord {r : BorrowRecord} {base w : DB}
    (hfresh : w.borrowRecords.get r.id = none) (hrenewals : checkRenewals r.renewalCount = .ok ())
    (hmember : w.members.get r.memberId ≠ none) (hbook : w.books.get r.bookId ≠ none) :
    (insertBorrowRecord r).exec base w =
      (.ok (), base, w.put (.borrowRecord r.id) (.borrowRecord r)) := by
  have hf : checkFresh "borrow_records" (w.borrowRecords.get r.id) =
    .ok () := by simp [checkFresh, hfresh]
  have hp : w.checkParents r.memberId r.bookId = .ok () := by simp [DB.checkParents, hmember, hbook]
  simp only [insertBorrowRecord, Prog.exec]
  rw [hf, hrenewals, hp]
  rfl

/-- A member who may borrow passes the checks. -/
theorem exec_validateMemberForBorrow {svc : BorrowService} {env : Env} {m : Member} {base s : DB}
    (hactive : m.membershipStatus = .active)
    (hover : s.borrowRecords.count (BorrowRecordRepository.isOverdue m.id (env.clock 0)) = 0)
    (hlimit : ((s.borrowRecords.rows.filter (fun l => l.memberId =
      m.id && l.status.isActive)).length : Int) < svc.maxBorrowLimit) :
    (svc.validateMemberForBorrow env m).exec base s = (.ok (), base, s) := by
  refine Prog.exec_bind_ok (exec_raiseIf (by simp [hactive])) ?_
  refine Prog.exec_bind_ok (exec_raiseIf (by simp [hactive])) ?_
  refine Prog.exec_bind_ok rfl (Prog.exec_bind_ok (exec_raiseIf ?_) ?_)
  · exact fun h => absurd hover (Nat.ne_of_gt h)
  · exact Prog.exec_bind_ok rfl (exec_raiseIf (not_le.mpr hlimit))

theorem borrow_takes_up {svc : ReservationService} {env : Env} {s : DB} {r : Reservation} {b : Book}
    {m : Member} (hhold : s.reservations.rows.filter (isHoldOf r.bookId) = [r])
    (hb : s.activeBook r.bookId = some b) (hm : s.activeMember r.memberId = some m)
    (hactive : m.membershipStatus = .active)
    (hover : s.borrowRecords.count (BorrowRecordRepository.isOverdue r.memberId (env.clock 0)) = 0)
    (hlimit : ((s.borrowRecords.rows.filter (fun l => l.memberId =
      r.memberId && l.status.isActive)).length : Int) < (getBorrowService svc).maxBorrowLimit)
    (hfresh : s.borrowRecords.get env.newId = none) : TakesUp svc env s r := by
  obtain ⟨hbget, _⟩ := activeBook_eq_some.mp hb
  obtain ⟨hmget, _⟩ := activeMember_eq_some.mp hm
  have hid : m.id = r.memberId := Table.key_of_get hmget
  have hholds : env.reservationOrder.apply (s.reservations.rows.filter (isHoldOf r.bookId)) = [r] :=
    List.perm_singleton.mp ((env.reservationOrder.perm _).trans (.of_eq hhold))
  have hr : s.reservations.get r.id = some r :=
    Table.get_of_mem (List.mem_filter.mp (hhold ▸ List.mem_singleton_self r)).1
  have hvalid : ((getBorrowService svc).validateMemberForBorrow env m).exec s s = (.ok (), s, s) :=
    exec_validateMemberForBorrow hactive (hid.symm ▸ hover) (hid.symm ▸ hlimit)
  have hcomplete : (BorrowService.completeHold r.memberId (some r)).exec s s = (.ok true, s,
      s.put (.reservation r.id) (.reservation
        { r with status := .completed, expiresAt := none })) :=
    Prog.exec_bind_ok (exec_raiseIf (by simp)) (Prog.exec_bind_ok (exec_updateReservation hr) rfl)
  have hexec : ((getBorrowService svc).borrowBook env r.memberId r.bookId).exec s s =
      (.ok ⟨env.newId, r.memberId, r.bookId, env.clock 1, env.clock 1 + 14 * day,
        none, 0, .borrowed⟩, s,
        (s.put (.reservation r.id) (.reservation
          { r with status := .completed, expiresAt := none })).put
          (.borrowRecord env.newId) (.borrowRecord
              (borrowedRecord (getBorrowService svc) env r.memberId r.bookId))) := by
    refine Prog.exec_mapError_ok (Prog.exec_bind_ok rfl (Prog.exec_bind_ok (exec_orRaise hm) ?_))
    refine Prog.exec_bind_ok hvalid (Prog.exec_bind_ok rfl (Prog.exec_bind_ok (exec_orRaise hb) ?_))
    refine Prog.exec_bind_ok rfl (Prog.exec_bind_ok (exec_scalarOneOrNone hholds) ?_)
    refine Prog.exec_bind_ok hcomplete (Prog.exec_bind_ok (exec_raiseIf (by simp)) ?_)
    refine Prog.exec_bind_ok (exec_insertBorrowRecord hfresh rfl ?_ ?_) rfl
    · exact Option.ne_none_iff_exists'.mpr ⟨m, hmget⟩
    · exact Option.ne_none_iff_exists'.mpr ⟨b, hbget⟩
  refine ⟨_, _, call_ok (Prog.exec_bind_ok hexec rfl), ?_, ?_, rfl, rfl⟩
  · exact Table.get_put_same _ _
  · intro id hne
    exact Table.get_put_other _ hne

/-- A hold can be taken up exactly when it is the only one of its book. -/
theorem takes_up_iff_only_hold {svc : ReservationService} {s : DB} (h : Runs svc AnyOp s)
    {env : Env} {r : Reservation} (hr : r ∈ s.reservations.rows) (hs : r.status = .hold) {b : Book}
    (hb : s.activeBook r.bookId = some b) {m : Member} (hm : s.members.get r.memberId = some m)
    (hactive : m.membershipStatus = .active)
    (hover : s.borrowRecords.count (BorrowRecordRepository.isOverdue r.memberId (env.clock 0)) = 0)
    (hlimit : ((s.borrowRecords.rows.filter (fun l => l.memberId =
      r.memberId && l.status.isActive)).length : Int) < (getBorrowService svc).maxBorrowLimit)
    (hfresh : s.borrowRecords.get env.newId = none) :
    TakesUp svc env s r ↔ ∀ q ∈ s.reservations.rows, isHoldOf r.bookId q → q = r := by
  have hhold : isHoldOf r.bookId r := isHoldOf_iff.mpr ⟨rfl, hs⟩
  constructor
  · rintro ⟨loan, s', hcall, _⟩ q hq hqh
    have hqf : q ∈ s.reservations.rows.filter (isHoldOf r.bookId) := List.mem_filter.mpr ⟨hq, hqh⟩
    have hrf : r ∈ s.reservations.rows.filter (isHoldOf r.bookId) := List.mem_filter.mpr ⟨hr, hhold⟩
    rcases call_op hcall with ⟨_, _, he⟩ | ⟨_, he, _⟩
    · cases he with
      | held _ hu hone _ _ =>
        obtain rfl := alone_past hu
        rw [hone, List.mem_singleton] at hqf hrf
        exact hqf.trans hrf.symm
      | shelf _ hu hnone _ _ _ =>
        obtain rfl := alone_past hu
        rw [hnone] at hqf
        cases hqf
    · cases he
  · intro hone
    have hdel := member_not_deleted h m (Table.mem_of_get hm)
    exact borrow_takes_up (Table.filter_eq_singleton hr hhold hone) hb
      (activeMember_eq_some.mpr ⟨hm, hdel⟩) hactive hover hlimit
      hfresh

theorem takes_up_demo :
    TakesUp ⟨48⟩ (demoEnv 101 (4 * hour)) demoHeld ⟨200, 11, 1, 2 * hour,
      some (51 * hour), .hold⟩ := by
  have hb : demoHeld.activeBook 1 =
    some ⟨1, "9780141439587", "Emma", "Austen", none, 1, 0, false, none⟩ := by decide
  have hm : demoHeld.members.get 11 = some ⟨11, 11, .active, false⟩ := by decide
  exact (takes_up_iff_only_hold demoHeld_runs (by decide) rfl hb hm rfl
    (by decide) (by decide) (by decide)).mpr (by decide)

/-- Both copies of a book have come back while two members waited. -/
def demoTwoHolds : DB :=
  serial ⟨48⟩ [(demoEnv 1 0, .createBook "Emma" "Austen" "9780141439587" 2 none),
    (demoEnv 100 hour, .borrowBook 10 1), (demoEnv 101 hour, .borrowBook 11 1),
    (demoEnv 200 (2 * hour), .placeReservation 12 1),
    (demoEnv 201 (3 * hour), .placeReservation 13 1),
    (demoEnv 0 (4 * hour), .returnBook 100), (demoEnv 0 (5 * hour), .returnBook 101)] demoStart

/-- Member 12 cannot take up a hold that is good for two days: the query for the hold
of the book finds two rows. -/
theorem two_holds_refused :
    ∃ r ∈ demoTwoHolds.reservations.rows, ∃ b m, Runs ⟨48⟩ AnyOp demoTwoHolds ∧ r.status = .hold ∧
    r.expiresAt = some (52 * hour) ∧ demoTwoHolds.activeBook r.bookId = some b ∧
    demoTwoHolds.activeMember r.memberId = some m ∧ m.membershipStatus = .active ∧
    demoTwoHolds.borrowRecords.rows.all (fun l => l.memberId ≠ r.memberId) ∧
    (call (Op.run ⟨48⟩ (demoEnv 102 (6 * hour)) (.borrowBook r.memberId r.bookId)) demoTwoHolds).1 =
      .error .multipleResultsFound ∧ ¬TakesUp ⟨48⟩ (demoEnv 102 (6 * hour)) demoTwoHolds r := by
  have hraise : (call (Op.run ⟨48⟩ (demoEnv 102 (6 * hour)) (.borrowBook 12 1)) demoTwoHolds).1 =
      .error .multipleResultsFound := by decide
  refine ⟨⟨200, 12, 1, 2 * hour, some (52 * hour), .hold⟩, by decide,
    ⟨1, "9780141439587", "Emma", "Austen", none, 2, 0, false, none⟩, ⟨12, 12, .active, false⟩,
    demoStart_runs.serial _ fun _ _ _ => trivial, rfl, rfl,
      by decide, by decide, rfl, by decide, hraise, ?_⟩
  rintro ⟨loan, s', hcall, _⟩
  rw [hcall] at hraise
  cases hraise

end LibraryPlatform
