import LibraryPlatform.Checkout

/-!
# What a member has on loan

`place_reservation` looks for a loan of the book on the first page of the member's
history, newest first. A loan that twenty newer ones have pushed off that page is not seen.
-/
namespace LibraryPlatform

open KeyedTable Transaction ReservationRepository

variable {svc : ReservationService} {env : Env} {s s' : DB} {m : Member} {b : Book}

/-- The page of the history that `place_reservation` reads. -/
def historyPage (env : Env) (memberId : UUID) (s : DB) : List BorrowRecord :=
  (((env.borrowOrder.apply (s.borrowRecords.rows.filter (fun r => r.memberId =
    memberId))).insertionSort
    (fun a b => b.borrowDate ≤ a.borrowDate)).drop 0).take 20

theorem historyPage_perm (env : Env) (memberId : UUID) (s : DB) :
    ((env.borrowOrder.apply
      (s.borrowRecords.rows.filter (fun r => r.memberId = memberId))).insertionSort (fun a b =>
    b.borrowDate ≤ a.borrowDate)).Perm
    (s.borrowRecords.rows.filter (fun r => r.memberId = memberId)) :=
  (List.perm_insertionSort _ _).trans (env.borrowOrder.perm _)

/-- A loan is on the page while at most twenty of the member's loans, itself among them, are as
new as it is. -/
theorem mem_historyPage {memberId : UUID} {r : BorrowRecord} (hr : r ∈ s.borrowRecords.rows)
    (hmember : r.memberId = memberId)
    (hnewer : s.borrowRecords.count (fun q => q.memberId =
      memberId && r.borrowDate ≤ q.borrowDate) ≤ 20) : r ∈ historyPage env memberId s := by
  have hperm := historyPage_perm env memberId s
  have hsorted := List.pairwise_insertionSort (fun a b : BorrowRecord =>
    b.borrowDate ≤ a.borrowDate)
    (env.borrowOrder.apply (s.borrowRecords.rows.filter (fun r => r.memberId = memberId)))
  unfold historyPage
  generalize (env.borrowOrder.apply
    (s.borrowRecords.rows.filter (fun r => r.memberId = memberId))).insertionSort
    (fun a b => b.borrowDate ≤ a.borrowDate) = page at hperm hsorted ⊢
  rw [List.drop_zero]
  have hmem : r ∈ page := hperm.mem_iff.mpr (List.mem_filter.mpr ⟨hr, by simpa using hmember⟩)
  by_contra hoff
  rw [← List.take_append_drop 20 page] at hmem hsorted
  have hrest : r ∈ page.drop 20 := (List.mem_append.mp hmem).resolve_left hoff
  have hlong : 20 < page.length := by
    have hpos := List.length_pos_of_mem hrest
    rw [List.length_drop] at hpos
    omega
  have hfirst : ∀ q ∈ page.take 20, r.borrowDate ≤ q.borrowDate := fun q hq =>
    (List.pairwise_append.mp hsorted).2.2 q hq r hrest
  have hcount : page.countP (fun q => r.borrowDate ≤ q.borrowDate) ≤ 20 := by
    rw [hperm.countP_eq, List.countP_filter]
    refine le_trans (le_of_eq ?_) hnewer
    exact List.countP_congr fun q _ => by simp [and_comm]
  have htake : (page.take 20).countP (fun q => r.borrowDate ≤ q.borrowDate) = 20 := by
    rw [List.countP_eq_length.mpr (by simpa using hfirst), List.length_take]
    omega
  have hdrop : 0 < (page.drop 20).countP (fun q => r.borrowDate ≤ q.borrowDate) :=
    List.countP_pos_iff.mpr ⟨r, hrest, by simp⟩
  rw [← List.take_append_drop 20 page, List.countP_append, htake] at hcount
  omega

/-- The statuses of a loan that has not come back. -/
def isOut (bookId : UUID) (r : BorrowRecord) : Prop :=
  r.bookId = bookId ∧ r.status ∈ [BorrowStatus.borrowed, .renewed, .overdue]

instance (bookId : UUID) (r : BorrowRecord) : Decidable (isOut bookId r) :=
  inferInstanceAs (Decidable (_ ∧ _))

/-- The call raises, and leaves the store as it was. -/
def Refused (svc : ReservationService) (env : Env) (memberId bookId : UUID) (s : DB) : Prop :=
  ∃ e, call (Op.run svc env (.placeReservation memberId bookId)) s = (.error e, s)

/-- What `place_reservation` refuses whatever the member has on loan. -/
def RefusedAnyway (env : Env) (m : Member) (b : Book) (s : DB) : Prop :=
  0 < b.availableCopies ∨ maxActiveReservations ≤ s.reservations.count (isActiveOf m.id) ∨
    (∃ r ∈ s.reservations.rows, isActiveOf m.id r ∧ r.bookId = b.id) ∨
      m.membershipStatus ≠ .active ∨
    s.reservations.get env.newId ≠ none

theorem exec_refuseBorrowed {bookId : UUID} {rows : List BorrowRecord} {base w : DB}
    (h : ∀ r ∈ rows, ¬isOut bookId r) :
    (ReservationService.refuseBorrowed bookId rows).exec base w = (.ok (), base, w) := by
  induction rows with
  | nil => rfl
  | cons r rest ih =>
    obtain ⟨hr, hrest⟩ := List.forall_mem_cons.mp h
    exact Prog.exec_bind_ok (exec_raiseIf hr) (ih hrest)

theorem exec_insertReservation {r : Reservation} {base w : DB}
    (hfresh : w.reservations.get r.id = none) (hmember : w.members.get r.memberId ≠ none)
    (hbook : w.books.get r.bookId ≠ none) :
    (insertReservation r).exec base w =
      (.ok (), base, w.put (.reservation r.id) (.reservation r)) := by
  have hf : checkFresh "reservations" (w.reservations.get r.id) =
    .ok () := by simp [checkFresh, hfresh]
  have hp : w.checkParents r.memberId r.bookId = .ok () := by simp [DB.checkParents, hmember, hbook]
  simp only [insertReservation, Prog.exec]
  rw [hf, hp]
  rfl

theorem reservation_placed (svc : ReservationService) (hm : s.activeMember m.id = some m)
    (hb : s.activeBook b.id = some b) (hother : ¬RefusedAnyway env m b s)
    (hpage : ∀ r ∈ historyPage env m.id s, ¬isOut b.id r) :
    ∃ r, call (Op.run svc env (.placeReservation m.id b.id)) s =
      (.ok (.reservation r),
      s.put (.reservation env.newId) (.reservation (placedReservation env m.id b.id))) := by
  obtain ⟨hbget, _⟩ := activeBook_eq_some.mp hb
  obtain ⟨hmget, _⟩ := activeMember_eq_some.mp hm
  simp only [RefusedAnyway, not_or, not_exists, not_and, not_lt, not_le, ne_eq, not_not] at hother
  obtain ⟨havail, hcount, hnone, hactive, hfresh⟩ := hother
  have hrows : s.reservations.rows.filter (fun r => isActiveOf m.id r && r.bookId = b.id) = [] :=
    List.filter_eq_nil_iff.mpr fun r hr => by simpa using hnone r hr
  have hexec : (ReservationService.placeReservation env m.id b.id).exec s s =
      (.ok (placedReservation env m.id b.id), s,
      s.put (.reservation env.newId) (.reservation (placedReservation env m.id b.id))) := by
    refine Prog.exec_bind_ok rfl (Prog.exec_bind_ok (exec_orRaise hb) ?_)
    refine Prog.exec_bind_ok (exec_raiseIf (not_lt.mpr havail)) (Prog.exec_bind_ok rfl ?_)
    refine Prog.exec_bind_ok (exec_raiseIf (not_le.mpr hcount)) ?_
    refine Prog.exec_bind_ok (a := none) (Prog.exec_bind_ok (a := []) (by rw [← hrows]; rfl) rfl) ?_
    refine Prog.exec_bind_ok (exec_raiseIf (by simp))
      (Prog.exec_bind_ok rfl (Prog.exec_bind_ok (exec_orRaise hm) ?_))
    refine Prog.exec_bind_ok (exec_raiseIf (by simp [hactive]))
      (Prog.exec_bind_ok (exec_raiseIf (by simp [hactive])) ?_)
    refine Prog.exec_bind_ok rfl (Prog.exec_bind_ok (exec_refuseBorrowed hpage) ?_)
    refine Prog.exec_bind_ok (exec_insertReservation hfresh ?_ ?_)
      (Prog.exec_bind_ok rfl (exec_orRaise ?_))
    · exact Option.ne_none_iff_exists'.mpr ⟨m, hmget⟩
    · exact Option.ne_none_iff_exists'.mpr ⟨b, hbget⟩
    · exact Table.get_put_same _ (placedReservation env m.id b.id)
  exact ⟨_, call_ok (Prog.exec_bind_ok hexec rfl)⟩

theorem Placed.not_refused (h : Placed (alone s) s env m.id b.id s s')
    (hm : s.members.get m.id = some m) (hb : s.books.get b.id = some b) :
    ¬((∃ r ∈ historyPage env m.id s, isOut b.id r) ∨ RefusedAnyway env m b s) := by
  obtain ⟨b', hb', _, havail⟩ := h.book
  obtain rfl : b = b' := Option.some.inj (hb.symm.trans hb')
  obtain ⟨m', hm', _, hactive⟩ := h.member
  obtain rfl : m = m' := Option.some.inj (hm.symm.trans hm')
  obtain ⟨w, hw, hchecks⟩ := h.checks
  obtain rfl := alone_past hw
  rintro (⟨r, hr, hout⟩ | hshelf | hlimit | ⟨r, hr, hreserved⟩ | hinactive | htaken)
  · exact hchecks.notBorrowed r hr hout
  · omega
  · exact absurd hchecks.count (not_lt.mpr hlimit)
  · exact hchecks.unique r hr hreserved
  · exact hinactive hactive
  · exact htaken h.fresh

theorem refused_iff (h : Runs svc AnyOp s) (hm : m ∈ s.members.rows) (hb : b ∈ s.books.rows)
    (hdel : b.isDeleted = false) :
    Refused svc env m.id b.id s ↔ (∃ r ∈ historyPage env m.id s, isOut b.id r) ∨
    RefusedAnyway env m b s := by
  have hmember : s.activeMember m.id = some m :=
    activeMember_eq_some.mpr ⟨Table.get_of_mem hm, member_not_deleted h m hm⟩
  have hbook : s.activeBook b.id = some b := activeBook_eq_some.mpr ⟨Table.get_of_mem hb, hdel⟩
  constructor
  · rintro ⟨e, hcall⟩
    by_contra hno
    obtain ⟨hpage, hother⟩ := not_or.mp hno
    obtain ⟨r, hplaced⟩ := reservation_placed svc hmember hbook hother fun r hr hout =>
      hpage ⟨r, hr, hout⟩
    cases hcall.symm.trans hplaced
  · intro hrefused
    rcases hcall : call (Op.run svc env (.placeReservation m.id b.id)) s with ⟨r, s'⟩
    rcases call_op hcall with ⟨_, rfl, hp⟩ | ⟨e, rfl, rfl⟩
    · exact absurd hrefused (Placed.not_refused hp (Table.get_of_mem hm) (Table.get_of_mem hb))
    · exact ⟨e, hcall⟩

/-- A reservation of a book that the member has on loan is refused exactly when a loan of it is on
the first page of the history, or the call is refused anyway; a loan is on that page as long as at
most twenty of the member's loans are as new as it is. -/
theorem loan_seen_iff_on_page (h : Runs svc AnyOp s) (hm : m ∈ s.members.rows)
    (hb : b ∈ s.books.rows) (hdel : b.isDeleted = false) :
    (Refused svc env m.id b.id s ↔ (∃ r ∈ historyPage env m.id s, isOut b.id r) ∨
      RefusedAnyway env m b s) ∧ ∀ r ∈ s.borrowRecords.rows, r.memberId = m.id →
    s.borrowRecords.count (fun q => q.memberId = m.id && r.borrowDate ≤ q.borrowDate) ≤ 20 →
    r ∈ historyPage env m.id s :=
  ⟨refused_iff h hm hb hdel, fun _ hr hmember hnewer => mem_historyPage hr hmember hnewer⟩

/-- Member 11 has borrowed the only copy of book 1. -/
def demoUnread : DB :=
  serial ⟨48⟩ [(demoEnv 1 0, .createBook "Emma" "Austen" "1" 1 none),
    (demoEnv 2 0, .createBook "Persuasion" "Austen" "2" 1 none),
    (demoEnv 100 hour, .borrowBook 11 1)] demoStart

theorem demoUnread_runs : Runs ⟨48⟩ AnyOp demoUnread := demoStart_runs.serial _ fun _ _ _ => trivial

theorem loan_seen_iff_on_page_demo : Refused ⟨48⟩ (demoEnv 200 (2 * hour)) 11 1 demoUnread := by
  have hm : (⟨11, 11, .active, false⟩ : Member) ∈ demoUnread.members.rows := by decide
  have hb : (⟨1, "1", "Emma", "Austen", none, 1, 0, false, none⟩ : Book) ∈
    demoUnread.books.rows := by decide
  have hloan : (⟨100, 11, 1, hour, hour + 14 * day, none, 0, .borrowed⟩ : BorrowRecord) ∈
      demoUnread.borrowRecords.rows := by
    decide
  obtain ⟨hrefused, hpage⟩ := loan_seen_iff_on_page demoUnread_runs hm hb rfl
  exact hrefused.mpr (.inl ⟨_, hpage _ hloan rfl (by decide), by decide⟩)

/-- Twenty times member 11 borrows and returns book 2. -/
def demoReading : List (Env × Op) :=
  (List.range 20).flatMap fun k =>
    [(demoEnv (300 + k) ((2 * k + 2) * hour), .borrowBook 11 2),
      (demoEnv 0 ((2 * k + 3) * hour), .returnBook (300 + k))]

def demoReader : DB := serial ⟨48⟩ demoReading demoUnread

/-- Member 11 still has book 1, and reserves it. -/
theorem loan_not_seen :
    ¬∀ s, Runs ⟨48⟩ AnyOp s → ∀ env m b, m ∈ s.members.rows → b ∈ s.books.rows →
    b.isDeleted = false → (∃ r ∈ s.borrowRecords.rows, r.memberId = m.id ∧ isOut b.id r) →
    Refused ⟨48⟩ env m.id b.id s := by
  intro hclaim
  have hruns : Runs ⟨48⟩ AnyOp demoReader := demoUnread_runs.serial _ fun _ _ _ => trivial
  have hm : (⟨11, 11, .active, false⟩ : Member) ∈ demoReader.members.rows := by decide +kernel
  have hb : (⟨1, "1", "Emma", "Austen", none, 1, 0, false, none⟩ : Book) ∈
    demoReader.books.rows := by decide +kernel
  have hloan : (⟨100, 11, 1, hour, hour + 14 * day, none, 0, .borrowed⟩ : BorrowRecord) ∈
      demoReader.borrowRecords.rows := by
    decide +kernel
  have hplaced : (call (Op.run ⟨48⟩ (demoEnv 200 (50 * hour)) (.placeReservation 11 1))
      demoReader).1.toOption.isSome = true := by
    decide +kernel
  obtain ⟨e, hraised⟩ := hclaim demoReader hruns (demoEnv 200 (50 * hour)) _ _ hm hb rfl ⟨_,
    hloan, rfl, by decide⟩
  rw [hraised] at hplaced
  cases hplaced

end LibraryPlatform
