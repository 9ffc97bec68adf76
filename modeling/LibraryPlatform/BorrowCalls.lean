import LibraryPlatform.Checkout

/-!
# What borrow_book answers

The call alone on the store: what it refuses, in the order in which it looks, and what it lends.
-/
namespace LibraryPlatform

open KeyedTable Transaction ReservationRepository

variable {svc : BorrowService} {env : Env} {s s' : DB} {m : Member} {b : Book}
  {memberId bookId : UUID}

/-- What the member is refused for. -/
def standingRefusals : List ApplicationException :=
  [.memberSuspended, .memberInactive, .overdueMember, .borrowLimitExceeded]

theorem exec_orRaise_none {α : Type} {o : Option α} (e : Exc) (base w : DB) (h : o = none) :
    (orRaise o e).exec base w = (.error e, base, w) := by
  rw [h]
  rfl

/-- Without good standing the member is refused by one of the checks. -/
theorem exec_validateMemberForBorrow_error (h : ¬GoodStanding svc env m s) (base : DB) :
    ∃ c ∈ standingRefusals, (svc.validateMemberForBorrow env m).exec base s =
      (.error (.application c none), base, s) := by
  by_cases hsuspended : m.membershipStatus = .suspended
  · exact ⟨.memberSuspended, by simp [standingRefusals],
      Prog.exec_bind_error (exec_raiseIf_error hsuspended)⟩
  by_cases hactive : m.membershipStatus = .active
  · by_cases hover : 0 < s.borrowRecords.count
      (BorrowRecordRepository.isOverdue m.id (env.clock 0))
    · refine ⟨.overdueMember, by simp [standingRefusals], ?_⟩
      refine Prog.exec_bind_ok (exec_raiseIf hsuspended)
        (Prog.exec_bind_ok (exec_raiseIf (not_not.mpr hactive)) ?_)
      exact Prog.exec_bind_ok rfl (Prog.exec_bind_error (exec_raiseIf_error hover))
    · have hlimit : svc.maxBorrowLimit ≤ ((s.borrowRecords.rows.filter (fun r =>
          r.memberId = m.id && r.status.isActive)).length : Int) := by
        by_contra hroom
        refine h ⟨hactive, fun r hr hmember hout => ?_, ?_⟩
        · have hnone := Table.count_eq_zero.mp (Nat.eq_zero_of_not_pos hover) r hr
          simpa [BorrowRecordRepository.isOverdue, hmember, hout] using hnone
        · rw [Table.count, List.countP_eq_length_filter]
          exact not_le.mp hroom
      refine ⟨.borrowLimitExceeded, by simp [standingRefusals], ?_⟩
      refine Prog.exec_bind_ok (exec_raiseIf hsuspended)
        (Prog.exec_bind_ok (exec_raiseIf (not_not.mpr hactive)) ?_)
      refine Prog.exec_bind_ok rfl (Prog.exec_bind_ok (exec_raiseIf hover) ?_)
      exact Prog.exec_bind_ok rfl (exec_raiseIf_error hlimit)
  · exact ⟨.memberInactive, by simp [standingRefusals],
      Prog.exec_bind_ok (exec_raiseIf hsuspended)
        (Prog.exec_bind_error (exec_raiseIf_error hactive))⟩

/-- There is a copy for the member: the one hold of the book, or one of the shelf that nobody
holds. -/
def CopyFor (memberId : UUID) (b : Book) (s : DB) : Prop :=
  (∃ r, s.reservations.rows.filter (isHoldOf b.id) = [r] ∧ r.memberId = memberId) ∨
    s.reservations.rows.filter (isHoldOf b.id) = [] ∧ 0 < b.availableCopies

/-- What `borrow_book` asks of the state. -/
structure MayBorrow (svc : BorrowService) (env : Env) (memberId bookId : UUID) (s : DB) : Prop where
  member : ∃ m, s.activeMember memberId = some m ∧ GoodStanding svc env m s
  book : ∃ b, s.activeBook bookId = some b ∧ CopyFor memberId b s
  fresh : s.borrowRecords.get env.newId = none

/-- The outcomes of `borrow_book`. -/
inductive Borrows (svc : BorrowService) (env : Env) (memberId bookId : UUID) (s : DB) :
    Except Exc BorrowRecord → Prop
  | unknownMember : s.activeMember memberId = none →
      Borrows svc env memberId bookId s (.error (.valueError "Member not found"))
  | standing {m : Member} {c : ApplicationException} : s.activeMember memberId = some m →
      ¬GoodStanding svc env m s → c ∈ standingRefusals →
      Borrows svc env memberId bookId s (.error (.application c none))
  | unknownBook : s.activeBook bookId = none →
      Borrows svc env memberId bookId s (.error (.application .bookNotFound none))
  | twoHolds {m : Member} {b : Book} : s.activeMember memberId = some m →
      GoodStanding svc env m s → s.activeBook bookId = some b →
      2 ≤ (s.reservations.rows.filter (isHoldOf bookId)).length →
      Borrows svc env memberId bookId s (.error .multipleResultsFound)
  | noCopy {b : Book} {c : ApplicationException} : s.activeBook bookId = some b →
      (s.reservations.rows.filter (isHoldOf bookId)).length < 2 → ¬CopyFor memberId b s →
      Borrows svc env memberId bookId s (.error (.application c none))
  | usedKey : s.borrowRecords.get env.newId ≠ none → Borrows svc env memberId bookId s
      (.error (.database (.duplicateEntry "borrow_records.PRIMARY")))
  | lent {r : BorrowRecord} : MayBorrow svc env memberId bookId s →
      Borrows svc env memberId bookId s (.ok r)

theorem exec_insertBorrowRecord_used {r : BorrowRecord} {base w : DB}
    (h : w.borrowRecords.get r.id ≠ none) : (insertBorrowRecord r).exec base w =
      (.error (.database (.duplicateEntry "borrow_records.PRIMARY")), base, w) := by
  obtain ⟨q, hq⟩ := Option.ne_none_iff_exists'.mp h
  have hused : checkFresh "borrow_records" (w.borrowRecords.get r.id) =
      .error (.database (.duplicateEntry "borrow_records.PRIMARY")) := by
    rw [hq]
    rfl
  simp only [insertBorrowRecord, Prog.exec]
  rw [hused]
  rfl

theorem exec_scalarOneOrNone_many {α : Type} {xs : List α} (h : 2 ≤ xs.length) (base w : DB) :
    (scalarOneOrNone xs).exec base w = (.error .multipleResultsFound, base, w) := by
  match xs with
  | [] => simp at h
  | [_] => simp at h
  | _ :: _ :: _ => rfl

namespace BorrowService

/-- The end of `borrow_book`, once a copy has been taken. -/
def lend (svc : BorrowService) (env : Env) (memberId bookId : UUID) : Tx BorrowRecord := do
  let now := env.clock 1
  let dueDate := now + svc.borrowDays * day
  insertBorrowRecord ⟨env.newId, memberId, bookId, toDatetime now, toDatetime dueDate,
    none, 0, .borrowed⟩
  pure ⟨env.newId, memberId, bookId, now, dueDate, none, 0, .borrowed⟩

/-- The part of `borrow_book` that follows the locking of the book. -/
def takeCopy (svc : BorrowService) (env : Env) (memberId bookId : UUID) (book : Book) :
    Tx BorrowRecord := do
  let holds ← lockWhere env.reservationOrder (isHoldOf bookId)
  let activeHold ← scalarOneOrNone holds
  let reservationCompleted ← completeHold memberId activeHold
  raiseIf (!reservationCompleted ∧ book.availableCopies ≤ 0) (.application .bookUnavailable none)
  if !reservationCompleted then takeFromShelf book
  svc.lend env memberId bookId

/-- What `borrow_book` tries. -/
def tryBorrow (svc : BorrowService) (env : Env) (memberId bookId : UUID) : Tx BorrowRecord := do
  let member ← orRaise (← MemberRepository.getByIdForUpdate memberId)
    (.valueError "Member not found")
  svc.validateMemberForBorrow env member
  let book ← orRaise (← BookRepository.getByIdForUpdate bookId) (.application .bookNotFound none)
  svc.takeCopy env memberId bookId book

theorem borrowBook_eq (svc : BorrowService) (env : Env) (memberId bookId : UUID) :
    svc.borrowBook env memberId bookId =
      Prog.mapError operationalToConflict (svc.tryBorrow env memberId bookId) := rfl

end BorrowService

/-- Everything that `borrow_book` can end in that it has tried. -/
theorem call_borrowBook_of_exec {r : Except Exc BorrowRecord} {w : DB}
    (h : (svc.tryBorrow env memberId bookId).exec s s = (r, s, w)) :
    (call (svc.borrowBook env memberId bookId) s).1 = r.mapError operationalToConflict := by
  have hexec : (svc.borrowBook env memberId bookId).exec s s =
      (r.mapError operationalToConflict, s, w) := by
    rw [BorrowService.borrowBook_eq, Prog.exec_mapError, h]
  cases r with
  | ok a => rw [call_ok hexec]; rfl
  | error e => rw [call_error hexec]; rfl

/-- With a copy in hand the loan is made, unless its key has been used. -/
theorem exec_lend (svc : BorrowService) (base w : DB) (hmember : w.members.get memberId ≠ none)
    (hbook : w.books.get bookId ≠ none) (hloans : w.borrowRecords = s.borrowRecords)
    (hmay : s.borrowRecords.get env.newId = none → MayBorrow svc env memberId bookId s) :
    ∃ r w', (svc.lend env memberId bookId).exec base w = (r, base, w') ∧
      Borrows svc env memberId bookId s (r.mapError operationalToConflict) := by
  by_cases hfresh : w.borrowRecords.get env.newId = none
  · exact ⟨.ok _, _, Prog.exec_bind_ok (exec_insertBorrowRecord hfresh rfl hmember hbook) rfl,
      .lent (hmay (hloans ▸ hfresh))⟩
  · exact ⟨.error _, _, Prog.exec_bind_error (exec_insertBorrowRecord_used hfresh),
      .usedKey (hloans ▸ hfresh)⟩

theorem exec_takeFromShelf_row (base : DB) (h : CopiesChecked s) (hb : s.books.get bookId = some b)
    (havail : 0 < b.availableCopies) :
    ∃ w, (BorrowService.takeFromShelf b).exec base s = (.ok (), base, w) ∧
      w.borrowRecords = s.borrowRecords ∧ w.members = s.members ∧ w.books.get bookId ≠ none := by
  obtain rfl : b.id = bookId := Table.key_of_get hb
  refine ⟨_, exec_takeFromShelf h hb havail, rfl, rfl, ?_⟩
  change (DB.put _ _ s).books.get b.id ≠ none
  simp [get_putBook]

/-- The copy is taken from the hold or from the shelf, or there is none. -/
theorem exec_takeCopy (hcopies : CopiesChecked s) (hm : s.activeMember memberId = some m)
    (hgood : GoodStanding svc env m s) (hb : s.activeBook bookId = some b) :
    ∃ r w, (svc.takeCopy env memberId bookId b).exec s s = (r, s, w) ∧
      Borrows svc env memberId bookId s (r.mapError operationalToConflict) := by
  obtain ⟨hbget, _⟩ := activeBook_eq_some.mp hb
  obtain ⟨hmget, _⟩ := activeMember_eq_some.mp hm
  have hid : b.id = bookId := Table.key_of_get hbget
  have hmember : s.members.get memberId ≠ none := Option.ne_none_iff_exists'.mpr ⟨m, hmget⟩
  have hperm := env.reservationOrder.perm (s.reservations.rows.filter (isHoldOf bookId))
  have hlock : (lockWhere env.reservationOrder (isHoldOf bookId)).exec s s =
      (.ok (env.reservationOrder.apply (s.reservations.rows.filter (isHoldOf bookId))), s, s) := rfl
  by_cases hmany : 2 ≤ (s.reservations.rows.filter (isHoldOf bookId)).length
  · refine ⟨.error .multipleResultsFound, s, ?_, .twoHolds hm hgood hb hmany⟩
    refine Prog.exec_bind_ok hlock (Prog.exec_bind_error ?_)
    exact exec_scalarOneOrNone_many (by rwa [hperm.length_eq]) s s
  cases hholds : s.reservations.rows.filter (isHoldOf bookId) with
  | nil =>
    rw [hholds] at hperm hlock hmany
    rw [List.perm_nil.mp hperm] at hlock
    by_cases havail : 0 < b.availableCopies
    · obtain ⟨v, hshelf, hloans, hmembers, hbook⟩ := exec_takeFromShelf_row s hcopies hbget havail
      obtain ⟨r, w, hlend, hr⟩ := exec_lend svc s v (hmembers ▸ hmember) hbook hloans
        fun hfresh => ⟨⟨m, hm, hgood⟩, ⟨b, hb, .inr ⟨hid ▸ hholds, havail⟩⟩, hfresh⟩
      refine ⟨r, w, ?_, hr⟩
      refine Prog.exec_bind_ok hlock (Prog.exec_bind_ok (a := none) rfl ?_)
      refine Prog.exec_bind_ok (a := false) rfl
        (Prog.exec_bind_ok (exec_raiseIf (by simpa using havail)) ?_)
      exact Prog.exec_bind_ok hshelf hlend
    · refine ⟨.error (.application .bookUnavailable none), s, ?_,
        .noCopy (c := .bookUnavailable) hb (by simp [hholds]) ?_⟩
      · refine Prog.exec_bind_ok hlock (Prog.exec_bind_ok (a := none) rfl ?_)
        refine Prog.exec_bind_ok (a := false) rfl (Prog.exec_bind_error (exec_raiseIf_error ?_))
        simpa using havail
      · rintro (⟨r, hr, _⟩ | ⟨_, hpos⟩)
        · rw [hid, hholds] at hr
          cases hr
        · exact havail hpos
  | cons q rest =>
    obtain rfl : rest = [] := by
      cases rest with
      | nil => rfl
      | cons => simp [hholds] at hmany
    rw [hholds] at hperm hlock
    rw [List.perm_singleton.mp hperm] at hlock
    have hq := List.mem_filter.mp (hholds ▸ List.mem_singleton_self q)
    by_cases hown : q.memberId = memberId
    · have hget : s.reservations.get q.id = some q := Table.get_of_mem hq.1
      obtain ⟨r, w, hlend, hr⟩ := exec_lend svc s (s.put (.reservation q.id)
        (.reservation { q with status := .completed, expiresAt := none })) hmember
        (Option.ne_none_iff_exists'.mpr ⟨b, hbget⟩) (s := s) rfl
        fun hfresh => ⟨⟨m, hm, hgood⟩, ⟨b, hb, .inl ⟨q, hid ▸ hholds, hown⟩⟩, hfresh⟩
      refine ⟨r, w, ?_, hr⟩
      refine Prog.exec_bind_ok hlock (Prog.exec_bind_ok (exec_scalarOneOrNone rfl) ?_)
      refine Prog.exec_bind_ok (a := true) (Prog.exec_bind_ok (exec_raiseIf (not_not.mpr hown))
        (Prog.exec_bind_ok (exec_updateReservation hget) rfl)) ?_
      exact Prog.exec_bind_ok (exec_raiseIf (by simp)) hlend
    · refine ⟨.error (.application .reservationNotHeld none), s, ?_,
        .noCopy (c := .reservationNotHeld) hb (by simp [hholds]) ?_⟩
      · refine Prog.exec_bind_ok hlock (Prog.exec_bind_ok (exec_scalarOneOrNone rfl) ?_)
        exact Prog.exec_bind_error (Prog.exec_bind_error (exec_raiseIf_error hown))
      · rintro (⟨r, hr, hmine⟩ | ⟨hnone, _⟩)
        · rw [hid, hholds, List.cons.injEq] at hr
          exact hown (hr.1 ▸ hmine)
        · rw [hid, hholds] at hnone
          cases hnone

/-- Every call of `borrow_book` ends in one of the outcomes. -/
theorem call_borrowBook (hcopies : CopiesChecked s) (svc : BorrowService) (env : Env)
    (memberId bookId : UUID) :
    Borrows svc env memberId bookId s (call (svc.borrowBook env memberId bookId) s).1 := by
  cases hm : s.activeMember memberId with
  | none =>
    have hexec : (svc.tryBorrow env memberId bookId).exec s s =
        (.error (.valueError "Member not found"), s, s) :=
      Prog.exec_bind_ok rfl (Prog.exec_bind_error (exec_orRaise_none _ s s hm))
    rw [call_borrowBook_of_exec hexec]
    exact .unknownMember hm
  | some m =>
    by_cases hgood : GoodStanding svc env m s
    · cases hb : s.activeBook bookId with
      | none =>
        have hexec : (svc.tryBorrow env memberId bookId).exec s s =
            (.error (.application .bookNotFound none), s, s) := by
          refine Prog.exec_bind_ok rfl (Prog.exec_bind_ok (exec_orRaise hm) ?_)
          refine Prog.exec_bind_ok hgood.exec (Prog.exec_bind_ok rfl ?_)
          exact Prog.exec_bind_error (exec_orRaise_none _ s s hb)
        rw [call_borrowBook_of_exec hexec]
        exact .unknownBook hb
      | some b =>
        obtain ⟨r, w, htake, hr⟩ := exec_takeCopy hcopies hm hgood hb
        have hexec : (svc.tryBorrow env memberId bookId).exec s s = (r, s, w) := by
          refine Prog.exec_bind_ok rfl (Prog.exec_bind_ok (exec_orRaise hm) ?_)
          refine Prog.exec_bind_ok hgood.exec (Prog.exec_bind_ok rfl ?_)
          exact Prog.exec_bind_ok (exec_orRaise hb) htake
        rw [call_borrowBook_of_exec hexec]
        exact hr
    · obtain ⟨c, hc, hrefused⟩ := exec_validateMemberForBorrow_error hgood s
      have hexec : (svc.tryBorrow env memberId bookId).exec s s =
          (.error (.application c none), s, s) := by
        refine Prog.exec_bind_ok rfl (Prog.exec_bind_ok (exec_orRaise hm) ?_)
        exact Prog.exec_bind_error hrefused
      rw [call_borrowBook_of_exec hexec]
      exact .standing hm hgood hc

theorem Borrows.succeeds_iff {r : Except Exc BorrowRecord}
    (h : Borrows svc env memberId bookId s r) :
    (∃ a, r = .ok a) ↔ MayBorrow svc env memberId bookId s := by
  constructor
  · rintro ⟨a, rfl⟩
    cases h
    assumption
  · rintro ⟨⟨m, hm, hgood⟩, ⟨b, hb, hcopy⟩, hfresh⟩
    have hid : b.id = bookId := Table.key_of_get (activeBook_eq_some.mp hb).1
    cases h with
    | unknownMember hnone => cases hnone.symm.trans hm
    | standing hm' hbad =>
      obtain rfl := Option.some.inj (hm.symm.trans hm')
      exact absurd hgood hbad
    | unknownBook hnone => cases hnone.symm.trans hb
    | twoHolds _ _ _ hmany =>
      rw [← hid] at hmany
      rcases hcopy with ⟨q, hone, _⟩ | ⟨hnone, _⟩
      · simp [hone] at hmany
      · simp [hnone] at hmany
    | noCopy hb' _ hno =>
      obtain rfl := Option.some.inj (hb.symm.trans hb')
      exact absurd hcopy hno
    | usedKey hused => exact absurd hfresh hused
    | @lent a => exact ⟨a, rfl⟩

end LibraryPlatform
